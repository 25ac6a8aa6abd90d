import PveZfsTool.Recovery.Config
import PveZfsTool.GuestRestore
import PveZfsTool.Migrate.Discovery

/-!
# Creating and destroying a recovery guest

The readers and the two jobs of `app/recovery_guest.py`.
-/

namespace PveZfsTool

open Dialogue Text

/-! ## Readers -/

/-- The snapshot labels in the output of `_snapshots_of`. -/
def snapshotLabels (stdout : Str) : List Str :=
  ((splitLines stdout).filter (fun ln => ln.contains '@')).map (fun ln => afterFirst '@' (strip ln))

/-- `_snapshots_of`: newest first. -/
def snapshotsOf (host : Host) (ds : Str) : Job (List Str) := do
  let r ← runCommand host (.zfsListSnapshots ds true)
  return snapshotLabels r.stdout

/-- `\b(\d{3,})\b`: the first word of at least three digits. -/
def firstNumber (s : Str) : Option Str :=
  (s.splitOnP (fun c => !isWord c)).find? (fun w => decide (3 ≤ w.length) && w.all isDecimal)

/-- `_next_vmid` -/
def nextVmid (host : Host) : Job Str := do
  let r ← runCommand host .nextVmid
  return if r.success then (firstNumber r.stdout).getD [] else []

/-- The check of `suggest_vmid`: the candidate is short enough and free. -/
def candidateFree (host : Host) (cand : Str) : Job Bool :=
  if cand.length ≤ 9 then do
    let used ← vmidInUse host cand
    return !used
  else return false

/-- `suggest_vmid` -/
def suggestVmid (host : Host) (vmid : Str) : Job Str := do
  let cand := '9' :: vmid
  let free ← candidateFree host cand
  if free then return cand else nextVmid host

/-- `_storage_for_root` -/
def storageForRoot (host : Host) (root : Str) : Job Str := do
  let r ← runCommand host (.catFile "/etc/pve/storage.cfg")
  if r.success then
    return ((parseZfsStorages r.stdout).find? (fun s => s.pool = root)).elim [] ZfsStorage.storage
  else return []

/-! ## Holds, tags and quiet destruction -/

/-- `_destroy_quietly`, over the datasets in the order they are destroyed. -/
def destroyEach (host : Host) : List Str → Job Unit
  | [] => return ()
  | ds :: rest => do
    let _ ← runCommand host (.zfsDestroy ds)
    destroyEach host rest

/-- `_destroy_quietly` -/
def destroyQuietly (host : Host) (datasets : List Str) : Job Unit :=
  destroyEach host datasets.reverse

/-- The tags in the output of `zfs holds`. -/
def holdTags (stdout : Str) : List Str :=
  (splitLines stdout).filterMap (fun ln => (splitOn '\t' ln)[1]?)

/-- `_holds_left` -/
def holdsLeft (host : Host) : List Str → Job (List Str)
  | [] => return []
  | s :: snaps => do
    let r ← runCommand host (.zfsHolds s)
    let left ← holdsLeft host snaps
    return if (holdTags r.stdout).contains holdTag then s :: left else left

/-- The release loop of `_release_holds`. -/
def releaseEach (host : Host) : List Str → Job Unit
  | [] => return ()
  | s :: snaps => do
    let _ ← runCommand host (.zfsRelease holdTag s)
    releaseEach host snaps

/-- `_release_holds` -/
def releaseHolds (host : Host) (snaps : List Str) : Job (List Str) := do
  releaseEach host snaps
  holdsLeft host snaps

/-- The hold loop of `create_job`. -/
def holdEach (host : Host) : List Str → Job Unit
  | [] => return ()
  | s :: snaps => do
    let _ ← runCommand host (.zfsHold holdTag s)
    holdEach host snaps

/-- The replication properties in the output of `zfs get all` that are not
excluded yet. -/
def replicationTags (stdout : Str) : List Str :=
  (splitLines stdout).filterMap (fun ln =>
    match splitOn '\t' ln with
    | prop :: value :: _ =>
        if startsWith prop "bashclub:" ∧ value ≠ ("exclude" : Str) then some prop else none
    | _ => none)

/-- The loop of `_exclude_replication_tags`. -/
def excludeEach (host : Host) (root : Str) : List Str → Job (List Str)
  | [] => return []
  | prop :: props => do
    let r ← runCommand host (.zfsExclude prop root)
    let done ← excludeEach host root props
    return if r.success then prop :: done else done

/-- `_exclude_replication_tags` -/
def excludeReplicationTags (host : Host) (root : Str) : Job (List Str) := do
  let r ← runCommand host (.zfsGetAll root)
  excludeEach host root (replicationTags r.stdout)

/-! ## Creating -/

/-- A failure of `create_job`.  `undone` are the clones it destroyed. -/
structure CreateFailure where
  error : Str
  undone : List Str
  deriving DecidableEq

/-- What `create_job` returns when it succeeds. -/
structure CreateSuccess where
  newVmid : Str
  gtype : Str
  originVmid : Str
  snapshot : Str
  storage : Str
  clones : List Str
  config : Str
  holdsLeft : List Str
  leftOut : List HostEntry
  tagsExcluded : List Str
  deriving DecidableEq

abbrev CreateResult := Except CreateFailure CreateSuccess

/-- A validator, whose `ValueError` ends the job. -/
def validated {α : Type} : Except Str α → Job α
  | .ok a => return a
  | .error e => .raise (.valueError e)

/-- `(r.get("stderr") or r.get("stdout") or "")[:300]` -/
def Answer.reason (r : Answer) : Str := (if r.stderr ≠ [] then r.stderr else r.stdout).take 300

/-- The characters of a snapshot label. -/
def isSnapshotLabelChar (c : Char) : Bool := isAsciiAlnum c || "_.:-".toList.contains c

/-- `re.match(r"^[A-Za-z0-9_.:-]+$", snapshot)`, and not empty. -/
def isSnapshotLabel (s : Str) : Bool := s != [] && s.all isSnapshotLabelChar

/-- The pool of a dataset. -/
def poolOf (ds : Str) : Str := beforeFirst '/' ds

/-- The first disk that lacks the snapshot. -/
def missingSnapshot (host : Host) (snapshot : Str) : List Disk → Job (Option Disk)
  | [] => return none
  | d :: disks => do
    let snaps ← snapshotsOf host d.dataset
    if snaps.contains snapshot then missingSnapshot host snapshot disks else return some d

/-- The pool all disks are on, or the message that refuses them. -/
def onePool (disks : List Disk) : Except Str Str :=
  match sortedSet (disks.map (fun d => poolOf d.dataset)) with
  | [pool] => .ok pool
  | pools =>
      .error ("disks on different pools (" ++ join ", " pools ++ ") -- a clone cannot cross pools")

/-- What `create_job` reads before it changes anything: the config and the
disks, all on one pool and all with the snapshot. -/
structure Origin where
  cfg : ConfigFile
  disks : List Disk
  pool : Str
  deriving DecidableEq

/-- The disks of a config that `create_job` accepts. -/
def originDisks (host : Host) (gtype snapshot : Str) (cfg : ConfigFile) :
    Job (Except Str Origin) := do
  let disc ← discoverGuestDisks host gtype cfg.content
  if disc.unresolved ≠ [] ∨ disc.disks = [] then
    return .error ("not every disk resolves to a ZFS dataset: " ++
      join ", " (disc.unresolved.map Prod.snd))
  else match onePool disc.disks with
    | .error e => return .error e
    | .ok pool => do
      match ← missingSnapshot host snapshot disc.disks with
      | some d => return .error ("snapshot " ++ snapshot ++ " missing on " ++ d.dataset)
      | none => return .ok ⟨cfg, disc.disks, pool⟩

/-- The part of `create_job` that reads the origin. -/
def readOrigin (host : Host) (vmid gtype snapshot : Str) : Job (Except Str Origin) := do
  match ← readGuestConfig host vmid gtype with
  | .error e => return .error e
  | .ok cfg =>
    if (parseMarker cfg.content).isSome then
      return .error "this guest is itself a snapshot clone"
    else originDisks host gtype snapshot cfg

/-- `new_vmid.strip() or suggest_vmid(host, vmid)` -/
def wantedVmid (host : Host) (vmid newVmid : Str) : Job Str :=
  if strip newVmid ≠ [] then return strip newVmid else suggestVmid host vmid

/-- `new_vmid == vmid or vmid_in_use(host, new_vmid)` -/
def vmidTaken (host : Host) (vmid newVmid : Str) : Job Bool :=
  if newVmid = vmid then return true else vmidInUse host newVmid

/-- The VMID of the clone, or the message that refuses it. -/
def chooseVmid (host : Host) (vmid newVmid : Str) : Job (Except Str Str) := do
  let wanted ← wantedVmid host vmid newVmid
  if wanted = [] then return .error "no free VMID could be determined"
  else do
    let newVmid ← validated (validateVmid wanted)
    let taken ← vmidTaken host vmid newVmid
    if taken then return .error ("VMID " ++ newVmid ++ " is in use") else return .ok newVmid

/-- The recovery root, created when it is missing: `none`, or the message
that ends the job. -/
def ensureRoot (host : Host) (root : Str) : Job (Option Str) := do
  let present ← datasetExists host root
  if present then return none
  else do
    let r ← runCommand host (.zfsCreate root)
    if r.success then return none
    else return some ("zfs create " ++ root ++ " failed: " ++ r.reason)

/-- The storage of the recovery root, registered when it is missing. -/
def ensureStorage (host : Host) (pool root : Str) : Job (Except Str Str) := do
  let storage ← storageForRoot host root
  if storage ≠ [] then return .ok storage
  else do
    let storage := recoveryStorageId pool
    let node ← nodeName host
    let r ← runCommand host (.pvesmAdd storage root node)
    if r.success then return .ok storage
    else return .error ("pvesm add " ++ storage ++ " failed: " ++ r.reason)

/-- What the clones of a job are made of. -/
structure CloneOrder where
  root : Str
  newVmid : Str
  snapshot : Str
  gtype : Str
  storage : Str
  sizes : List (Str × Str)
  deriving DecidableEq

/-- The clones that were made, and the volume ids they replace. -/
structure Clones where
  created : List Str
  volidMap : List (Str × Str)
  deriving DecidableEq

/-- The command that clones one disk. -/
def cloneCommand (c : CloneOrder) (d : Disk) (target : Str) : Cmd :=
  .zfsClone (cloneWords c.gtype ((lookupLast c.sizes d.volid).getD []))
    (d.dataset ++ "@" ++ c.snapshot) target

/-- The clone loop of `create_job`. -/
def cloneDisks (host : Host) (c : CloneOrder) :
    Clones → List Disk → Job (Except CreateFailure Clones)
  | made, [] => return .ok made
  | made, d :: disks => do
    let name ← liftExn (cloneVolumeName d.dataset c.newVmid)
    let target := c.root ++ "/" ++ name
    let r ← runCommand host (cloneCommand c d target)
    if r.success then
      cloneDisks host c ⟨made.created ++ [target],
        made.volidMap ++ [(d.volid, c.storage ++ ":" ++ afterLast '/' target)]⟩ disks
    else do
      destroyQuietly host made.created
      return .error ⟨"zfs clone " ++ target ++ " failed: " ++ r.reason, made.created⟩

/-- The config of the clone, written after the clones were made. -/
def finishCreate (host : Host) (vmid : Str) (c : CloneOrder) (cfg : ConfigFile)
    (excluded : List Str) (fresh : Fresh) (clones : Clones) (left : List Str) :
    Job CreateResult := do
  let text := buildRecoveryConfig cfg.content c.gtype clones.volidMap vmid c.snapshot fresh
  let wr ← restoreGuestConfig host c.gtype c.newVmid text false
  if wr.success then
    return .ok ⟨c.newVmid, c.gtype, vmid, c.snapshot, c.storage, clones.created, wr.dest, left,
      hostBoundEntries cfg.content c.gtype, excluded⟩
  else do
    destroyQuietly host clones.created
    return .error ⟨"config write failed: " ++ wr.reason, clones.created⟩

/-- The clones under holds, and the config. -/
def cloneOrigin (host : Host) (vmid : Str) (o : Origin) (c : CloneOrder) (excluded : List Str)
    (fresh : Fresh) : Job CreateResult := do
  let origins := o.disks.map (fun d => d.dataset ++ "@" ++ c.snapshot)
  holdEach host origins
  let (made, left) ← (cloneDisks host c ⟨[], []⟩ o.disks).tryFinally (releaseHolds host origins)
  match made with
  | .error e => return .error e
  | .ok clones => finishCreate host vmid c o.cfg excluded fresh clones left

/-- The part of `create_job` before the clones: the recovery root, its tags
and its storage. -/
def prepareRoot (host : Host) (pool : Str) : Job (Except Str (List Str × Str)) := do
  let root := recoveryRoot pool
  match ← ensureRoot host root with
  | some e => return .error e
  | none => do
    let excluded ← excludeReplicationTags host root
    match ← ensureStorage host pool root with
    | .error e => return .error e
    | .ok storage => return .ok (excluded, storage)

/-- `create_job` with arguments that passed their checks. -/
def createGuest (host : Host) (vmid gtype snapshot newVmid : Str) (fresh : Fresh) :
    Job CreateResult := do
  match ← readOrigin host vmid gtype snapshot with
  | .error e => return .error ⟨e, []⟩
  | .ok o =>
    match ← chooseVmid host vmid newVmid with
    | .error e => return .error ⟨e, []⟩
    | .ok newVmid =>
      match ← prepareRoot host o.pool with
      | .error e => return .error ⟨e, []⟩
      | .ok (excluded, storage) =>
        cloneOrigin host vmid o ⟨recoveryRoot o.pool, newVmid, snapshot, gtype, storage,
          diskSizes o.cfg.content⟩ excluded fresh

/-- `create_job` -/
def createJob (host : Host) (vmid gtype snapshot newVmid : Str) (fresh : Fresh) :
    Job CreateResult := do
  let vmid ← validated (validateVmid vmid)
  let gtype ← validated (validateVmType gtype)
  if isSnapshotLabel (strip snapshot) then
    createGuest host vmid gtype (strip snapshot) newVmid fresh
  else return .error ⟨"invalid snapshot label", []⟩

/-! ## Destroying -/

/-- `_origin_of` -/
def originOf (host : Host) (clone : Str) : Job Str := do
  let r ← runCommand host (.zfsOrigin clone)
  let v := strip r.stdout
  return if r.success ∧ v ≠ [] ∧ v ≠ ("-" : Str) then v else []

/-- `_clones_of` -/
def clonesOf (host : Host) (snap : Str) : Job (List Str) := do
  let r ← runCommand host (.zfsClones snap)
  return if r.success then
      (splitOn ',' (strip r.stdout)).filter (fun c => c ≠ [] ∧ c ≠ ("-" : Str))
    else []

/-- The snapshots the clones were made from. -/
def originsOf (host : Host) : List Disk → Job (List Str)
  | [] => return []
  | d :: disks => do
    let o ← originOf host d.dataset
    let rest ← originsOf host disks
    return if o ≠ [] then o :: rest else rest

/-- The dataset lies directly below a recovery root. -/
def underRecoveryRoot (ds : Str) : Bool :=
  let parts := splitOn '/' ds
  parts.length = 3 && parts[1]? = some recoveryLeaf

/-- A guest that runs is stopped first. -/
def stopRecovery (host : Host) (tool : Tool) (vmid : Str) : Job Unit := do
  let st ← runCommand host (.guestStatus tool vmid)
  if saysRunning st then do
    let _ ← runCommand host (.guestStop tool vmid " 2>&1")
    return ()
  else return ()

/-- The datasets that survived the destruction of the guest. -/
def leftovers (host : Host) : List Disk → Job (List Str)
  | [] => return []
  | d :: disks => do
    let present ← datasetExists host d.dataset
    let rest ← leftovers host disks
    return if present then d.dataset :: rest else rest

/-- The origins that other clones still hold, with these clones.  Of two
entries for one origin the dictionary of the source keeps the last. -/
def stillHeld (host : Host) : List Str → Job (List (Str × List Str))
  | [] => return []
  | o :: origins => do
    let c ← clonesOf host o
    let rest ← stillHeld host origins
    return if c ≠ [] then (o, c) :: rest else rest

/-- `_release_holds(host, origins) if origins else []` -/
def releaseOrigins (host : Host) (origins : List Str) : Job (List Str) :=
  if origins = [] then return [] else releaseHolds host origins

/-- What `destroy_job` returns when it destroyed the guest. -/
structure DestroySuccess where
  vmid : Str
  origins : List Str
  released : List Str
  stillHeld : List (Str × List Str)
  holdsLeft : List Str
  marker : Marker
  deriving DecidableEq

abbrev DestroyResult := Except Str DestroySuccess

/-- `destroy_job` once the guest passed both checks. -/
def destroyGuest (host : Host) (vmid gtype : Str) (mk : Marker) (disks : List Disk) :
    Job DestroyResult := do
  let tool := Tool.ofGtype gtype
  let origins ← originsOf host disks
  stopRecovery host tool vmid
  let r ← runCommand host (.guestDestroy tool vmid)
  if r.success then do
    let left ← leftovers host disks
    destroyEach host left
    let holds ← releaseOrigins host origins
    let held ← stillHeld host origins
    return .ok ⟨vmid, origins,
      origins.filter (fun o => !(held.map Prod.fst).contains o && !holds.contains o), held, holds,
      mk⟩
  else return .error (tool.name ++ " destroy failed: " ++ r.reason)

/-- The check of the disks, then the destruction. -/
def destroyChecked (host : Host) (vmid gtype : Str) (mk : Marker) (disc : Discovery) :
    Job DestroyResult :=
  if disc.unresolved ≠ [] then
    return .error ("a disk does not resolve: " ++ join ", " (disc.unresolved.map Prod.snd) ++
      " -- refusing")
  else match disc.disks.find? (fun d => !underRecoveryRoot d.dataset) with
    | some d => return .error (d.dataset ++ " is not under a recovery root -- refusing")
    | none => destroyGuest host vmid gtype mk disc.disks

/-- `destroy_job` -/
def destroyJob (host : Host) (vmid gtype : Str) : Job DestroyResult := do
  let vmid ← validated (validateVmid vmid)
  let gtype ← validated (validateVmType gtype)
  match ← readGuestConfig host vmid gtype with
  | .error e => return .error e
  | .ok cfg =>
    match parseMarker cfg.content with
    | none =>
        return .error ("VMID " ++ vmid ++ " is not a snapshot clone (no " ++ recoveryMarker ++
          " marker) -- refusing")
    | some mk => do
      let disc ← discoverGuestDisks host gtype cfg.content
      destroyChecked host vmid gtype mk disc

end PveZfsTool
