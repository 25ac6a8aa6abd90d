import PveZfsTool.Host
import PveZfsTool.Validators

/-!
# Destroying and mounting snapshots

`destroy_snapshot`, `snapshot_mount` and `snapshot_unmount` of
`app/zfs_commands.py`.  The cache of the host listings is left out: these
functions only drop entries from it.
-/

namespace PveZfsTool

open Dialogue Text

/-- The flag of a `zfs destroy` on a snapshot: none, `-r` or `-R`. -/
inductive DestroyMode where
  | single
  | recursive
  | dependents
  deriving DecidableEq

/-- The command lines of these functions. -/
inductive ZfsCmd where
  | destroySnapshot (mode : DestroyMode) (fullName : Str)
  | clonesOf (fullName : Str)
  | datasetType (ds : Str)
  /-- `redirect` is the redirection a caller appends. -/
  | destroyClone (ds redirect : Str)
  | cloneSnapshot (mountPath snapshot cloneDs : Str)
  deriving DecidableEq

/-- The command line that is sent to the host. -/
def ZfsCmd.text : ZfsCmd → Str
  | .destroySnapshot .single fullName => "zfs destroy " ++ fullName
  | .destroySnapshot .recursive fullName => "zfs destroy -r " ++ fullName
  | .destroySnapshot .dependents fullName => "zfs destroy -R " ++ fullName
  | .clonesOf fullName => "zfs get -H -o value clones " ++ fullName
  | .datasetType ds => "zfs get -H -o value type " ++ ds
  | .destroyClone ds redirect => "zfs destroy -r " ++ ds ++ redirect
  | .cloneSnapshot mountPath snapshot cloneDs =>
      "zfs clone -o mountpoint=" ++ mountPath ++
        " -o readonly=on -o com.sun:auto-snapshot=false " ++ snapshot ++ " " ++ cloneDs

/-- A function of `zfs_commands.py` on one host. -/
abbrev ZfsJob (α : Type) := Prog (Host × ZfsCmd) Answer Exn α

/-- The commands run so far and their answers. -/
abbrev ZfsLog := History (Host × ZfsCmd) Answer

/-- `run_command(host, cmd)` -/
def runZfs (host : Host) (cmd : ZfsCmd) : ZfsJob Answer := Prog.issue (host, cmd)

/-- `{"success": False, "stderr": message}` -/
def refusal (message : Str) : Answer := ⟨false, [], message⟩

/-! ## Destroying a snapshot -/

/-- The clones in the output of `zfs get clones`. -/
def listedClones (r : Answer) : List Str :=
  (splitOn ',' (if r.success then strip r.stdout else [])).filter
    (fun c => c ≠ [] ∧ c ≠ ("-" : Str))

/-- The clones that `destroy_snapshot` takes for others than its own. -/
def foreignClones (clones : List Str) : List Str :=
  clones.filter (fun c => !contains c "/restore-")

/-- The part of `destroy_snapshot` after an attempt that failed because of
dependent clones.  `result` is the answer to that attempt. -/
def destroyWithClones (host : Host) (fullName : Str) (result : Answer) : ZfsJob Answer := do
  let r ← runZfs host (.clonesOf fullName)
  let clones := listedClones r
  if foreignClones clones ≠ [] then
    return refusal ("Snapshot has dependent clone(s) that are NOT tool restore clones: " ++
      join ", " (foreignClones clones) ++ ". Refusing to destroy them automatically -- remove or " ++
      "`zfs promote` them first.")
  else if clones ≠ [] then runZfs host (.destroySnapshot .dependents fullName)
  else return result

/-- The first attempt of `destroy_snapshot` failed because of clones. -/
def saysDependentClones (r : Answer) : Bool := !r.success && contains r.stderr "dependent clones"

/-- `destroy_snapshot` -/
def destroySnapshot (host : Host) (fullName : Str) (recursive : Bool) : ZfsJob Answer :=
  match validateZfsName fullName "Snapshot" with
  | .error e => return refusal e
  | .ok fullName =>
    if '@' ∉ fullName then
      return refusal (fullName ++ " is not a snapshot (no @) -- refusing")
    else do
      let result ← runZfs host
        (.destroySnapshot (if recursive then .recursive else .single) fullName)
      if saysDependentClones result then destroyWithClones host fullName result
      else return result

/-! ## Mounting a snapshot -/

/-- `RESTORE_MOUNT_BASE` -/
def restoreMountBase : Str := "/tmp/zfs-tool-restore"

/-- `s.rsplit(sep, 1)[0]`, for a text that holds the separator. -/
def beforeLast (sep : Char) (s : Str) : Str := ((s.reverse.dropWhile (· ≠ sep)).drop 1).reverse

/-- The name of a restore clone, without its pool. -/
def restoreCloneName (dsName snapShort : Str) : Str :=
  (dsName ++ "-restore-" ++ snapShort).map (fun c => if c = '/' ∨ c = '@' then '-' else c)

/-- What `snapshot_mount` returns when it succeeds. -/
structure Mounted where
  cloneDs : Str
  mountPath : Str
  snapshot : Str
  deriving DecidableEq

/-- `snapshot_mount` with a valid name. -/
def mountSnapshot (host : Host) (snapshot : Str) : ZfsJob (Except Str Mounted) := do
  let dsName : Str := if '@' ∈ snapshot then beforeLast '@' snapshot else []
  let snapShort : Str := if '@' ∈ snapshot then afterLast '@' snapshot else []
  let typeCheck ← runZfs host (.datasetType dsName)
  if typeCheck.success ∧ strip typeCheck.stdout ≠ ("filesystem" : Str) then
    return .error "File restore only works on filesystem datasets (LXC containers)."
  else do
    let cloneName := restoreCloneName dsName snapShort
    let cloneDs := beforeFirst '/' dsName ++ "/restore-" ++ cloneName
    let mountPath := restoreMountBase ++ "/" ++ cloneName
    let _ ← runZfs host (.destroyClone cloneDs " 2>/dev/null")
    let r ← runZfs host (.cloneSnapshot mountPath snapshot cloneDs)
    if r.success then return .ok ⟨cloneDs, mountPath, snapshot⟩ else return .error r.stderr

/-- `snapshot_mount` -/
def snapshotMount (host : Host) (snapshot : Str) : ZfsJob (Except Str Mounted) :=
  match validateZfsName snapshot "Snapshot" with
  | .error e => return .error e
  | .ok snapshot => mountSnapshot host snapshot

/-- The characters of a restore clone's name. -/
def isRestoreChar (c : Char) : Bool := isAsciiAlnum c || "_.:-".toList.contains c

/-- `^[^/@]+/restore-[A-Za-z0-9_.:-]+$`.  The text is a stripped one. -/
def matchesRestoreClone (ds : Str) : Bool :=
  let pool := ds.takeWhile (fun c => c ≠ '/' ∧ c ≠ '@')
  let rest := ds.drop pool.length
  let leaf := rest.drop 9
  pool != [] && startsWith rest "/restore-" && leaf != [] && leaf.all isRestoreChar

/-- `snapshot_unmount` -/
def snapshotUnmount (host : Host) (cloneDs : Str) : ZfsJob Answer :=
  match validateZfsName cloneDs "Clone dataset" with
  | .error e => return refusal e
  | .ok cloneDs =>
    if matchesRestoreClone cloneDs then runZfs host (.destroyClone (shlexQuote cloneDs) [])
    else return refusal (cloneDs ++ " is not a restore clone (<pool>/restore-...) -- refusing")

end PveZfsTool
