import PveZfsTool.Replication.CronContract
import PveZfsTool.Lib.Threads
import PveZfsTool.Validators

/-!
# Deleting a config

`delete_config` of `app/replication.py` removes the cron line and the config
file of a source.  On request it destroys the auto-snapshots under the replica
target (`purge_snapshots`), at once or in a background task, and the replicas
themselves (`purge_children`), always in a background task.

The background tasks ask the source host for its pools before they start, and
keep to the branches `<target>/<pool>`.  A task is kept as what it was started
with, in place of its id, and its job is a program of its own.  What a job
reports about its progress is left out.
-/

namespace PveZfsTool.Replication

open Dialogue Text

/-! ## The commands -/

/-- The command lines of a deletion. -/
inductive PurgeCmd where
  /-- A command of reading a config or of removing a cron line. -/
  | repl (cmd : ReplCmd)
  /-- The script that moves a config away. -/
  | moveConfig (path : Str)
  | listPools
  /-- The auto-snapshots of a dataset and of those below it. -/
  | listSnapshots (root : Str)
  | listBranch (branch : Str)
  /-- A dataset and its direct children. -/
  | listChildren (ds : Str)
  | destroySnapshot (name : Str)
  | destroyTree (ds : Str)
  deriving DecidableEq

/-- The script that moves a config away, and looks whether it is gone. -/
def moveScript (path : Str) : Str :=
  "if [ -f " ++ shlexQuote path ++ " ]; then " ++
  "  TS=$(date +%Y%m%d%H%M%S); " ++
  "  if mv " ++ shlexQuote path ++ " " ++ shlexQuote path ++ ".bak.$TS; then " ++
  "    if [ ! -f " ++ shlexQuote path ++ " ]; then echo __CFG_OK__; " ++
  "    else echo __CFG_STILL_EXISTS__; fi; " ++
  "  else echo __MV_FAILED__; " ++
  "  fi; " ++
  "else echo __CFG_NONE__; fi"

/-- The command line that is sent to the host. -/
def PurgeCmd.text : PurgeCmd → Str
  | .repl cmd => cmd.text
  | .moveConfig path => moveScript path
  | .listPools => "zpool list -H -o name 2>/dev/null"
  | .listSnapshots root =>
      "zfs list -H -t snapshot -o name -r " ++ shlexQuote root ++ " 2>/dev/null " ++
      "| grep '@zfs-auto-snap_' || true"
  | .listBranch branch => "zfs list -H " ++ shlexQuote branch ++ " 2>/dev/null"
  | .listChildren ds =>
      "zfs list -H -o name -t filesystem,volume -r -d 1 " ++ shlexQuote ds ++ " 2>/dev/null"
  | .destroySnapshot name => "zfs destroy " ++ shlexQuote name ++ " 2>&1"
  | .destroyTree ds => "zfs destroy -r " ++ shlexQuote ds ++ " 2>&1"

structure PurgeRequest where
  host : Host
  cmd : PurgeCmd
  deriving DecidableEq

abbrev PurgeJob (α : Type) := Prog PurgeRequest Answer Exn α

/-- `run_command(host, cmd)` -/
def runPurge (host : Host) (cmd : PurgeCmd) : PurgeJob Answer := Prog.issue ⟨host, cmd⟩

/-- A function of the module as a part of a deletion. -/
def onHost {α : Type} (host : Host) (p : ReplJob α) : PurgeJob α :=
  p.relabel (fun cmd => ⟨host, .repl cmd⟩)

/-- The text of an exception.  The message of a bad template is left out. -/
def Exn.text : Exn → Str
  | .valueError message => message
  | .invalidInt literal => "invalid literal for int() with base 10: '" ++ literal ++ "'"
  | .keyError key => "'" ++ key ++ "'"
  | .reError => []

/-! ## Names -/

/-- `[-A-Za-z0-9._:/]` -/
def isDatasetChar (c : Char) : Bool :=
  isAsciiAlnum c || c == '.' || c == '_' || c == ':' || c == '/' || c == '-'

/-- `[-A-Za-z0-9._:/]+` -/
def isDatasetName (s : Str) : Bool := s != [] && s.all isDatasetChar

/-- `[A-Za-z0-9._:/@-]+` -/
def isObjectName (s : Str) : Bool := s != [] && s.all isZfsNameChar

/-- `[A-Za-z0-9._-]+` -/
def isPoolName (s : Str) : Bool := s != [] && s.all isFileNameChar

/-- The check of a snapshot before it is destroyed. -/
def isSnapshotName (s : Str) : Bool := s.contains '@' && atDollar isObjectName s

/-- The check of a dataset before it is destroyed, and of a target before a
task is started. -/
def isNestedDataset (s : Str) : Bool := atDollar isDatasetName s && s.contains '/'

/-! ## The pools of the source host -/

structure SourcePools where
  success : Bool
  pools : List Str
  error : Str
  deriving DecidableEq

/-- The lines of a listing without whitespace around them, but for empty
ones. -/
def strippedLines (out : Str) : List Str := ((splitLines out).map strip).filter (· ≠ [])

/-- `_source_pool_names` -/
def sourcePoolNames : Option Host → PurgeJob SourcePools
  | none => return ⟨false, [], "source host not available"⟩
  | some host => do
      let r ← runPurge host .listPools
      let message : Str := if r.stderr ≠ [] then r.stderr else "source host unreachable"
      if !r.success then return ⟨false, [], (strip message).take 200⟩
      else if strippedLines r.stdout = [] then
        return ⟨false, [], "source host returned no pools"⟩
      else return ⟨true, strippedLines r.stdout, []⟩

/-! ## Destroying what a listing names -/

/-- How far a loop has come. -/
structure Destroyed where
  destroyed : Nat := 0
  failed : Nat := 0
  failures : List Str := []
  deriving DecidableEq

/-- A name that failed the check. -/
def Destroyed.refuse (d : Destroyed) (name : Str) : Destroyed :=
  { d with failed := d.failed + 1, failures := d.failures ++ [name ++ ": invalid name"] }

/-- The answer to `zfs destroy`.  At most `limit` failures are kept, and `cut`
characters of each. -/
def Destroyed.note (d : Destroyed) (limit cut : Nat) (name : Str) (rd : Answer) : Destroyed :=
  if rd.success then { d with destroyed := d.destroyed + 1 }
  else
    let message := (strip (if rd.stderr ≠ [] then rd.stderr else rd.stdout)).take cut
    { d with
      failed := d.failed + 1
      failures := if d.failures.length < limit then d.failures ++ [name ++ ": " ++ message]
        else d.failures }

/-- The loop over the names of a listing.  Each name is checked again before
it is destroyed. -/
def destroyEach (host : Host) (cmd : Str → PurgeCmd) (valid : Str → Bool) (limit cut : Nat) :
    Destroyed → List Str → PurgeJob Destroyed
  | d, [] => return d
  | d, name :: names =>
      if !valid name then destroyEach host cmd valid limit cut (d.refuse name) names
      else do
        let rd ← runPurge host (cmd name)
        destroyEach host cmd valid limit cut (d.note limit cut name rd) names

/-- The last 2000 characters of the failures. -/
def Destroyed.output (d : Destroyed) : Str := lastN 2000 (join "\n" d.failures)

/-! ## The background tasks -/

/-- What a task is started with. -/
structure PurgeTask where
  host : Host
  target : Str
  sources : SourcePools
  deriving DecidableEq

/-- Both kinds of task are started alike. -/
def launchPurge (host : Host) (target : Str) (sourceHost : Option Host) : PurgeJob PurgeTask :=
  if !isNestedDataset target then .raise (.valueError "invalid or top-level dataset")
  else match sourceHost with
    | none => return ⟨host, target, ⟨false, [], "source host not registered"⟩⟩
    | some _ => do
        let sources ← sourcePoolNames sourceHost
        return ⟨host, target, sources⟩

/-- `purge_auto_snapshots_async` -/
def purgeAutoSnapshotsAsync (host : Host) (target : Str) (sourceHost : Option Host) :
    PurgeJob PurgeTask :=
  launchPurge host target sourceHost

/-- `purge_replica_children_async` -/
def purgeReplicaChildrenAsync (host : Host) (target : Str) (sourceHost : Option Host) :
    PurgeJob PurgeTask :=
  launchPurge host target sourceHost

/-- The result of a task.  Only a task that destroys children skips
datasets. -/
structure PurgeResult where
  success : Bool
  error : Option Str := none
  destroyedCount : Nat
  failedCount : Nat
  examples : List Str
  skippedUnrelated : List Str := []
  skippedUnrelatedCount : Nat := 0
  destroyOutput : Str
  targetDataset : Str
  deriving DecidableEq

/-- The result of a task that does not know the pools. -/
def PurgeTask.refused (task : PurgeTask) : PurgeResult where
  success := false
  error := some ("Cannot determine source pools (" ++ task.sources.error ++
    "). Refusing to purge — bring the source host online or do it manually.")
  destroyedCount := 0
  failedCount := 0
  examples := []
  destroyOutput := []
  targetDataset := task.target

/-- `<target>/<pool>` -/
def branchOf (target pool : Str) : Str := target ++ '/' :: pool

/-- The auto-snapshots of the branches that there are. -/
def branchSnapshots (host : Host) (target : Str) : List Str → PurgeJob (List Str)
  | [] => return []
  | pool :: pools =>
      if !atDollar isPoolName pool then branchSnapshots host target pools
      else do
        let chk ← runPurge host (.listBranch (branchOf target pool))
        if !chk.success || strip chk.stdout = [] then branchSnapshots host target pools
        else do
          let r ← runPurge host (.listSnapshots (branchOf target pool))
          let rest ← branchSnapshots host target pools
          return strippedLines r.stdout ++ rest

/-- The `_job` of `purge_auto_snapshots_async`. -/
def PurgeTask.snapshotJob (task : PurgeTask) : PurgeJob PurgeResult :=
  if !task.sources.success then return task.refused
  else do
    let names ← branchSnapshots task.host task.target task.sources.pools
    let d ← destroyEach task.host .destroySnapshot isSnapshotName 10 120 {} names
    return {
      success := d.failed = 0
      destroyedCount := d.destroyed
      failedCount := d.failed
      examples := names.take 5
      destroyOutput := d.output
      targetDataset := task.target }

/-- A listed dataset is a child of the target that has the name of a pool. -/
def isPoolChild (target : Str) (pools : List Str) (name : Str) : Bool :=
  startsWith name (target ++ ['/']) && name.drop (target.length + 1) != [] &&
    pools.contains (name.drop (target.length + 1))

/-- The datasets of a listing, but for the target itself. -/
def listedDatasets (target out : Str) : List Str :=
  (splitLines out).filter (fun l => strip l ≠ [] ∧ l ≠ target)

/-- The `_job` of `purge_replica_children_async`. -/
def PurgeTask.childrenJob (task : PurgeTask) : PurgeJob PurgeResult :=
  if !task.sources.success then return task.refused
  else do
    let r ← runPurge task.host (.listChildren task.target)
    let listed := listedDatasets task.target r.stdout
    let children := listed.filter (isPoolChild task.target task.sources.pools)
    let skipped := listed.filter (fun l => !isPoolChild task.target task.sources.pools l)
    let d ← destroyEach task.host .destroyTree isNestedDataset 10 160 {} children
    return {
      success := d.failed = 0
      destroyedCount := d.destroyed
      failedCount := d.failed
      examples := children.take 5
      skippedUnrelated := skipped.take 10
      skippedUnrelatedCount := skipped.length
      destroyOutput := d.output
      targetDataset := task.target }

/-! ## `delete_config` -/

/-- The arguments of `delete_config`, where no source is the empty text. -/
structure DeleteCall where
  host : Host
  source : Str
  purgeSnapshots : Bool
  purgeChildren : Bool
  purgeAsync : Bool
  sourceHost : Option Host
  deriving DecidableEq

/-- The result.  `error` is empty when nothing went wrong. -/
structure DeleteResult where
  success : Bool
  configPath : Str := []
  configExisted : Bool := false
  targetDataset : Str := []
  cronRemoved : Bool := false
  configRemoved : Bool := false
  snapshotsPurged : Bool := false
  snapshotsDestroyedCount : Nat := 0
  snapshotsFailedCount : Nat := 0
  snapshotsExamples : List Str := []
  destroyOutput : Str := []
  purgeTask : Option PurgeTask := none
  purgeChildrenTask : Option PurgeTask := none
  error : Str := []
  deriving DecidableEq

/-- The first step, with what went wrong. -/
def cronStep (call : DeleteCall) : PurgeJob (Bool × List Str) := do
  let removed ← (onHost call.host (removeCron call.source)).attempt
  match removed with
  | .ok r => return (r.success, [])
  | .error e => return (false, ["cron remove failed: " ++ Exn.text e])

/-- Move the config away.  The answer is whether it is gone, and what went
wrong. -/
def removeConfigFile (host : Host) (path : Str) : PurgeJob (Bool × List Str) := do
  let rm ← runPurge host (.moveConfig path)
  let other : Str := if rm.stderr ≠ [] then rm.stderr
    else if rm.stdout ≠ [] then rm.stdout else "no output"
  if contains rm.stdout "__CFG_OK__" then return (true, [])
  else if contains rm.stdout "__MV_FAILED__" then
    return (false, ["config remove failed: mv failed: " ++ strip rm.stderr])
  else if contains rm.stdout "__CFG_STILL_EXISTS__" then
    return (false, ["config remove failed: mv reported success but file is still present"])
  else if contains rm.stdout "__CFG_NONE__" then return (true, [])
  else return (false, ["config remove failed: " ++ (strip other).take 200])

/-- The second step. -/
def configStep (call : DeleteCall) (cfg : ConfigRead) : PurgeJob (Bool × List Str) :=
  if cfg.present then removeConfigFile call.host (configPathFor call.source)
  else return (false, [])

/-- What is wrong with a target, before anything under it is purged. -/
def targetError (target : Str) : Option Str :=
  if !atDollar isDatasetName target then some "target dataset has invalid characters"
  else if !target.contains '/' then
    some ("refusing to operate on top-level pool: " ++ target)
  else none

/-- What the third step adds to the result. -/
structure SnapshotStep where
  purged : Bool := false
  destroyedCount : Nat := 0
  failedCount : Nat := 0
  examples : List Str := []
  output : Str := []
  task : Option PurgeTask := none
  errors : List Str := []
  deriving DecidableEq

/-- The purge at once. -/
def purgeNow (host : Host) (target : Str) : PurgeJob SnapshotStep := do
  let r ← runPurge host (.listSnapshots target)
  let names := (splitLines r.stdout).filter (fun l => strip l ≠ [])
  let d ← destroyEach host .destroySnapshot isSnapshotName 5 120 {} names
  return {
    purged := d.failed = 0
    destroyedCount := d.destroyed
    failedCount := d.failed
    examples := names.take 5
    output := d.output }

/-- Start a task.  An exception becomes an error of the result. -/
def tryLaunch (p : PurgeJob PurgeTask) (label : Str) : PurgeJob (Option PurgeTask × List Str) := do
  let launched ← p.attempt
  match launched with
  | .ok task => return (some task, [])
  | .error e => return (none, [label ++ " launch failed: " ++ Exn.text e])

/-- The third step. -/
def snapshotStep (call : DeleteCall) (target : Str) : PurgeJob SnapshotStep :=
  if !call.purgeSnapshots || target = [] then return {}
  else match targetError target with
    | some e => return { errors := [e] }
    | none =>
        if call.purgeAsync then do
          let launched ←
            tryLaunch (purgeAutoSnapshotsAsync call.host target call.sourceHost) "purge task"
          return { task := launched.1, errors := launched.2 }
        else purgeNow call.host target

/-- The fourth step. -/
def childrenStep (call : DeleteCall) (target : Str) : PurgeJob (Option PurgeTask × List Str) :=
  if !call.purgeChildren || target = [] then return (none, [])
  else match targetError target with
    | some e => return (none, [e])
    | none =>
        tryLaunch (purgeReplicaChildrenAsync call.host target call.sourceHost) "children purge"

/-- The target of a config. -/
def ConfigRead.target (cfg : ConfigRead) : Str := strip (cfg.values.getD "target")

/-- The four steps, for the config that was read. -/
def deleteRead (call : DeleteCall) (cfg : ConfigRead) : PurgeJob DeleteResult := do
  let cron ← cronStep call
  let config ← configStep call cfg
  let snaps ← snapshotStep call cfg.target
  let children ← childrenStep call cfg.target
  return {
    success := config.1 || !cfg.present
    configPath := configPathFor call.source
    configExisted := cfg.present
    targetDataset := cfg.target
    cronRemoved := cron.1
    configRemoved := config.1
    snapshotsPurged := snaps.purged
    snapshotsDestroyedCount := snaps.destroyedCount
    snapshotsFailedCount := snaps.failedCount
    snapshotsExamples := snaps.examples
    destroyOutput := snaps.output
    purgeTask := snaps.task
    purgeChildrenTask := children.1
    error := join " | " (cron.2 ++ config.2 ++ snaps.errors ++ children.2) }

/-- `read_config` -/
def readConfig (source : Str) : ReplJob ConfigRead := readConfigFile (configPathFor source)

/-- `delete_config` -/
def deleteConfig (call : DeleteCall) : PurgeJob DeleteResult :=
  if call.source = [] then return { success := false, error := "source required" }
  else do
    let cfg ← onHost call.host (readConfig call.source)
    deleteRead call cfg

end PveZfsTool.Replication
