import PveZfsTool.Migrate.Preflight

/-!
# The transfer of a plan

`_transfer_disk`, `_snapshot_all`, `_run_transfer` and `precopy_async` of
`app/migrate.py`.  The plan comes from the client's request, so a key may
be missing, and reading it then raises `KeyError`.

The name of the snapshot is the value of `make_snapshot_name()`, which
reads the clock.  It is a parameter here.
-/

namespace PveZfsTool

open Dialogue Text

/-- One entry of the plan of a request. -/
structure PlanItem where
  sourceDataset : Option Str
  targetDataset : Option Str
  /-- Empty when the request has none. -/
  commonSnapshot : Str
  deriving DecidableEq

/-- The entry a client sends back for an entry of the preflight. -/
def PlanEntry.toItem (p : PlanEntry) : PlanItem :=
  ⟨some p.sourceDataset, some p.targetDataset, p.commonSnapshot⟩

/-- `d[key]` -/
def getKey (key : Str) (value : Option Str) : Job Str :=
  match value with
  | some v => return v
  | none => .raise (.keyError key)

/-- `parse_exit_marker`.  `int` raises on more digits than it converts. -/
def parseExitMarker (out : Str) : Job (Option Nat) :=
  match splitExitMarker (strip out) with
  | none => return none
  | some (_, digits) =>
      match unsignedValue digits with
      | some n => return some n
      | none => .raise (.invalidInt digits)

/-- The result of one transfer. -/
structure TransferResult where
  sourceDataset : Str
  targetDataset : Str
  snapshot : Str
  base : Option Str
  success : Bool
  exitCode : Option Nat
  output : Str
  deriving DecidableEq

/-- The transfer that `_transfer_disk` runs. -/
def transferOf (source target : Host) (srcDataset targetDataset snapName : Str)
    (base : Option Str) (pull : Bool) : Transfer :=
  ⟨source.ref, target.ref, srcDataset ++ "@" ++ snapName, targetDataset, base, pull⟩

/-- `_transfer_disk` -/
def transferDisk (source target : Host) (srcDataset targetDataset snapName : Str)
    (base : Option Str) (pull : Bool) : Job TransferResult := do
  let t := transferOf source target srcDataset targetDataset snapName base pull
  let r ← runCommand (if pull then target else source) (.sendRecv t)
  let code ← parseExitMarker r.stdout
  return ⟨srcDataset, targetDataset, snapName, base, r.success && code = some 0, code,
    lastN 2000 (withoutExitMarker r.stdout)⟩

/-- The result of one `zfs snapshot`. -/
structure SnapshotMade where
  dataset : Str
  success : Bool
  stderr : Str
  deriving DecidableEq

/-- `_snapshot_all` -/
def snapshotAll (host : Host) (snapName : Str) : List Str → Job (List SnapshotMade)
  | [] => return []
  | ds :: rest => do
    let r ← runCommand host (.zfsSnapshot ds snapName)
    let made ← snapshotAll host snapName rest
    return ⟨ds, r.success, (strip r.stderr).take 200⟩ :: made

/-- What `_run_transfer` returns. -/
structure TransferRun where
  success : Bool
  error : Str
  results : List TransferResult
  /-- Empty when the snapshots failed. -/
  snapshot : Str
  deriving DecidableEq

/-- The base of an incremental stream: `p.get("common_snapshot") or None`. -/
def PlanItem.base (p : PlanItem) : Option Str :=
  if p.commonSnapshot = [] then none else some p.commonSnapshot

/-- The transfer loop of `_run_transfer`.  `results` are those of the disks
before. -/
def transferPlan (source target : Host) (pull : Bool) (snapName : Str) :
    List TransferResult → List PlanItem → Job TransferRun
  | results, [] => return ⟨true, [], results, snapName⟩
  | results, p :: plan => do
    let src ← getKey "source_dataset" p.sourceDataset
    let tgt ← getKey "target_dataset" p.targetDataset
    let res ← transferDisk source target src tgt snapName p.base pull
    if res.success then transferPlan source target pull snapName (results ++ [res]) plan
    else return ⟨false, "transfer of " ++ src ++ " failed", results ++ [res], snapName⟩

/-- The source datasets of a plan, as the list that `_snapshot_all` gets. -/
def planSources : List PlanItem → Job (List Str)
  | [] => return []
  | p :: plan => do
    let src ← getKey "source_dataset" p.sourceDataset
    let rest ← planSources plan
    return src :: rest

/-- `_run_transfer` -/
def runTransfer (source target : Host) (plan : List PlanItem) (pull : Bool) (snapName : Str) :
    Job TransferRun := do
  let datasets ← planSources plan
  let snaps ← snapshotAll source snapName datasets
  let failed := snaps.filter (fun s => !s.success)
  if failed ≠ [] then
    return ⟨false, "snapshot failed: " ++
      join ", " (failed.map (fun s => s.dataset ++ ": " ++ s.stderr)), [], []⟩
  else transferPlan source target pull snapName [] plan

/-- The job of `precopy_async`. -/
def precopyJob (source target : Host) (plan : List PlanItem) (pull : Bool) (snapName : Str) :
    Job TransferRun :=
  runTransfer source target plan pull snapName

end PveZfsTool
