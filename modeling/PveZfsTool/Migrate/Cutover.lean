import PveZfsTool.Migrate.Transfer
import PveZfsTool.GuestRestore

/-!
# Cutover, rollback and cleanup

The steps of `app/migrate.py` that stop a guest, move it and remove it:
`set_guest_lock`, `_stop_guest`, `cutover_async`, `rollback` and
`cleanup_source`.
-/

namespace PveZfsTool

open Dialogue Text

/-- What `set_guest_lock` returns. -/
structure LockResult where
  success : Bool
  error : Str
  stderr : Str
  deriving DecidableEq

/-- The answer of a script that ends in `echo __OK__`. -/
def saysOk (a : Answer) : Bool := contains a.stdout "__OK__"

/-- `set_guest_lock` -/
def setGuestLock (host : Host) (vmid gtype : Str) (lock : Option Str) : Job LockResult :=
  match validateVmid vmid with
  | .error e => return ⟨false, e, []⟩
  | .ok vmid => do
    let r ← runCommand host (.setLock (confPath (Tool.ofGtype gtype) vmid) lock)
    return ⟨saysOk r, [], (strip r.stderr).take 200⟩

/-- `_stop_guest`: true when a status answer does not say the guest runs. -/
def stopGuest (host : Host) (vmid gtype : Str) (timeout : Int) : Job Bool := do
  let _ ← runCommand host (.guestShutdown (Tool.ofGtype gtype) vmid timeout)
  let running ← guestIsRunning host vmid gtype
  if ¬ running then return true
  else do
    let _ ← runCommand host (.guestStop (Tool.ofGtype gtype) vmid [])
    let running ← guestIsRunning host vmid gtype
    return !running

/-- The arguments of `cutover_async`, and the name of the final snapshot. -/
structure CutoverRequest where
  vmid : Str
  gtype : Str
  plan : List PlanItem
  pull : Bool
  newVmid : Option Str
  storageMap : List (Str × Str)
  bridgeMap : List (Str × Str)
  startOnTarget : Bool
  shutdownTimeout : Int
  snapName : Str
  deriving DecidableEq

/-- The VMID on the target. -/
def CutoverRequest.targetVmid (q : CutoverRequest) : Str := (truthy q.newVmid).getD q.vmid

/-- What the cutover job returns when it gives up. -/
structure CutoverFailure where
  error : Str
  results : List TransferResult
  stoppedSource : Bool
  transferred : Bool
  deriving DecidableEq

/-- What the cutover job returns when it reports success. -/
structure CutoverSuccess where
  targetVmid : Str
  snapshot : Str
  results : List TransferResult
  started : Bool
  sourceLocked : Bool
  deriving DecidableEq

abbrev CutoverResult := Except CutoverFailure CutoverSuccess

/-- The start on the target, if the request wants it: whether it was
answered as done. -/
def startGuest (host : Host) (vmid gtype : Str) (wanted : Bool) : Job Bool :=
  if wanted then do
    let r ← runCommand host (.guestStart (Tool.ofGtype gtype) vmid)
    return r.success
  else return false

/-- The cutover after the final transfer: config, lock, start. -/
def cutoverFinish (source target : Host) (q : CutoverRequest) (cfg : ConfigFile)
    (res : TransferRun) : Job CutoverResult := do
  let newText ← liftExn (rewriteGuestConfig cfg.content q.storageMap q.bridgeMap (some q.vmid)
    q.newVmid)
  let wr ← restoreGuestConfig target q.gtype q.targetVmid newText false
  if ¬ wr.success then
    return .error ⟨"config write failed: " ++ wr.reason, [], true, true⟩
  else do
    let lk ← setGuestLock source q.vmid q.gtype (some "migrate")
    let started ← startGuest target q.targetVmid q.gtype q.startOnTarget
    return .ok ⟨q.targetVmid, q.snapName, res.results, started, lk.success⟩

/-- The cutover after the guest config was read: stop and final transfer. -/
def cutoverMove (source target : Host) (q : CutoverRequest) (cfg : ConfigFile) :
    Job CutoverResult := do
  let stopped ← stopGuest source q.vmid q.gtype q.shutdownTimeout
  if ¬ stopped then
    return .error ⟨"guest could not be stopped on the source", [], false, false⟩
  else do
    let res ← runTransfer source target q.plan q.pull q.snapName
    if ¬ res.success then return .error ⟨res.error, res.results, true, false⟩
    else cutoverFinish source target q cfg res

/-- The job of `cutover_async`. -/
def cutoverJob (source target : Host) (q : CutoverRequest) : Job CutoverResult := do
  let used ← vmidInUse target q.targetVmid
  if used then
    return .error ⟨"VMID " ++ q.targetVmid ++ " is in use on the target", [], false, false⟩
  else do
    match ← readGuestConfig source q.vmid q.gtype with
    | .error e => return .error ⟨e, [], false, false⟩
    | .ok cfg => cutoverMove source target q cfg

/-! ## Rollback -/

/-- One step of a rollback or a cleanup. -/
structure StepResult where
  step : Str
  success : Bool
  output : Str
  deriving DecidableEq

/-- What `rollback` returns once its arguments are valid. -/
structure RollbackResult where
  success : Bool
  steps : List StepResult
  sourceStarted : Bool
  deriving DecidableEq

/-- The steps of a rollback. -/
def rollbackSteps (source target : Host) (vmid gtype tgtVmid : Str) (startSource : Bool) :
    Job RollbackResult := do
  let _ ← runCommand target (.guestStop (Tool.ofGtype gtype) tgtVmid " 2>/dev/null")
  let running ← guestIsRunning target tgtVmid gtype
  let n ← pyInt tgtVmid
  let rm ← runCommand target (.rmConfig (Tool.ofGtype gtype) n)
  let lk ← setGuestLock source vmid gtype none
  let started ← startGuest source vmid gtype startSource
  let steps : List StepResult :=
    [⟨"stop_target", !running, []⟩, ⟨"remove_target_config", saysOk rm, []⟩,
      ⟨"unlock_source", lk.success, []⟩, ⟨"start_source", started || !startSource, []⟩]
  return ⟨steps.all StepResult.success, steps, started⟩

/-- `rollback` -/
def rollback (source target : Host) (vmid gtype : Str) (targetVmid : Option Str)
    (startSource : Bool) : Job (Except Str RollbackResult) :=
  match validateVmid vmid with
  | .error e => return .error e
  | .ok vmid =>
    match preflightTargetVmid vmid targetVmid with
    | .error e => return .error e
    | .ok tgtVmid => do
      let r ← rollbackSteps source target vmid gtype tgtVmid startSource
      return .ok r

/-! ## Cleanup of the source -/

/-- What `cleanup_source` returns once it acts. -/
structure CleanupResult where
  success : Bool
  results : List StepResult
  deriving DecidableEq

/-- One turn of the dataset loop of `cleanup_source`. -/
def destroyDataset (source : Host) (ds : Str) : Job (List StepResult) := do
  let present ← datasetExists source ds
  if present then do
    let d ← runCommand source (.zfsDestroyTree ds)
    return [⟨"destroy_dataset " ++ ds, d.success, lastN 300 d.stdout⟩]
  else return []

/-- The dataset loop of `cleanup_source`. -/
def destroyDatasets (source : Host) : List Str → Job (List StepResult)
  | [] => return []
  | ds :: rest => do
    let here ← destroyDataset source ds
    let others ← destroyDatasets source rest
    return here ++ others

/-- The steps of `cleanup_source` once the guest is taken to be down. -/
def cleanupSteps (source : Host) (vmid gtype : Str) (datasets : List Str) :
    Job CleanupResult := do
  let _ ← setGuestLock source vmid gtype none
  let r ← runCommand source (.guestDestroy (Tool.ofGtype gtype) vmid)
  let destroyed ← destroyDatasets source datasets
  let results : List StepResult :=
    ⟨"destroy_guest", r.success, lastN 500 r.stdout⟩ :: destroyed
  return ⟨results.all StepResult.success, results⟩

/-- The first message a dataset name is refused with. -/
def validateDatasets : List Str → Except Str Unit
  | [] => .ok ()
  | ds :: rest => do
    let _ ← validateZfsName ds "Dataset"
    validateDatasets rest

/-- `cleanup_source` -/
def cleanupSource (source : Host) (vmid gtype : Str) (datasets : List Str) :
    Job (Except Str CleanupResult) :=
  match validateVmid vmid, validateDatasets datasets with
  | .error e, _ => return .error e
  | .ok _, .error e => return .error e
  | .ok vmid, .ok _ => do
    let running ← guestIsRunning source vmid gtype
    if running then return .error "guest is still running on the source"
    else do
      let r ← cleanupSteps source vmid gtype datasets
      return .ok r

end PveZfsTool
