import PveZfsTool.Backups.Listing
import Mathlib.Algebra.Order.Ring.Unbundled.Rat

/-!
# The backup state of each guest

This models `guest_backup_map`, `backup_state`, `guest_backup_states`,
`collect_backups` and `host_backup_states` of `backups.py`.

The commands that are sent to the node are numbered, and `Asked` is the answer
to each of them: the name of the node, the list of its storages, the jobs, and
then the storages one by one.
-/

namespace PveZfsTool.Backups

open Text

/-! ## One record for each guest -/

structure BackupRecord where
  count : Nat := 0
  newest : Int := 0
  newestVolid : Str := []
  newestVerify : Option Str := none
  newestVerifies : Bool := false
  storages : List Str := []
  types : List Str := []
  verifyFailed : Nat := 0
  protectedCount : Nat := 0
  totalSize : Int := 0
  coveredBy : List Str := []
  deriving DecidableEq

/-- `if x and x not in xs: xs.append(x)` -/
def appendNew (xs : List Str) (x : Str) : List Str := if x ≠ [] && x ∉ xs then xs ++ [x] else xs

/-- One volume of the guest. -/
def BackupRecord.addVolume (r : BackupRecord) (v : Volume) : BackupRecord :=
  let counted :=
    { r with
      count := r.count + 1
      totalSize := r.totalSize + v.size
      protectedCount := if v.isProtected then r.protectedCount + 1 else r.protectedCount
      verifyFailed :=
        if v.verifies && v.verify = some "failed".toList then r.verifyFailed + 1
        else r.verifyFailed
      storages := appendNew r.storages v.storage
      types := appendNew r.types v.storageType }
  if r.newest < v.ctime then
    { counted with
      newest := v.ctime
      newestVolid := v.volid
      newestVerify := v.verify
      newestVerifies := v.verifies }
  else counted

/-- The volumes of a guest, folded into its record. -/
def addVolume (byVmid : Dict Str BackupRecord) (v : Volume) : Dict Str BackupRecord :=
  if v.vmid = [] then byVmid else byVmid.alter v.vmid (fun o => (o.getD {}).addVolume v)

/-- What is filled in when all volumes are folded. -/
def BackupRecord.finish (jobs : List BackupJob) (vmid : Str) (r : BackupRecord) : BackupRecord :=
  { r with
    coveredBy := (jobs.filter (jobCovers · vmid)).map BackupJob.id
    storages := r.storages.insertionSort (fun s t => le s t = true)
    types := r.types.insertionSort (fun s t => le s t = true) }

/-- `guest_backup_map`, as a lookup by VMID with the keys it has. -/
def guestBackupMap (volumes : List Volume) (jobs : List BackupJob) :
    List Str × (Str → Option BackupRecord) :=
  let byVmid := volumes.foldl addVolume Dict.empty
  (byVmid.keys, fun vmid => (byVmid.get? vmid).map (BackupRecord.finish jobs vmid))

/-! ## The verdict -/

inductive Verdict where
  | green
  | yellow
  | red
  | unknown
  deriving DecidableEq

inductive Reason where
  | none
  | verifyFailed
  | noTimestamp
  | staleCrit
  | staleWarn
  | verifyPending
  | noJob
  | ok
  | unreadable
  deriving DecidableEq

/-- The verdict on a guest.  A key that a verdict has not is `none`. -/
structure BackupState where
  state : Verdict
  reason : Reason
  count : Nat := 0
  ageSeconds : Option Int := .none
  newest : Int := 0
  newestVolid : Option Str := .none
  storages : List Str := []
  types : List Str := []
  protectedCount : Option Nat := .none
  covered : Bool := false
  coveredBy : Option (List Str) := .none
  deriving DecidableEq

/-- `backup_thresholds` of the configured hours. -/
def backupThresholds (warn crit : Rat) : Rat × Rat :=
  let warn := min (max warn 1) 8760
  let crit := min (max crit 1) 8760
  (if crit < warn then crit else warn, crit)

/-- `backup_state` -/
def backupState (record : Option BackupRecord) (now warnHours critHours : Rat) (coveredKnown : Bool) :
    BackupState :=
  match record with
  | .none => { state := .red, reason := .none }
  | some r =>
      if r.count = 0 then { state := .red, reason := .none }
      else
        let age := max 0 (now - r.newest)
        let base : BackupState :=
          { state := .green
            reason := .ok
            count := r.count
            ageSeconds := some age.floor
            newest := r.newest
            newestVolid := some r.newestVolid
            storages := r.storages
            types := r.types
            protectedCount := some r.protectedCount
            covered := r.coveredBy ≠ []
            coveredBy := some r.coveredBy }
        if r.newestVerifies && r.newestVerify = some "failed".toList then
          { base with state := .red, reason := .verifyFailed }
        else if r.newest = 0 then
          { base with state := .yellow, reason := .noTimestamp, ageSeconds := .none }
        else if critHours * 3600 < age then { base with state := .red, reason := .staleCrit }
        else if warnHours * 3600 < age then { base with state := .yellow, reason := .staleWarn }
        else if r.newestVerifies && r.newestVerify = .none then
          { base with state := .yellow, reason := .verifyPending }
        else if coveredKnown && r.coveredBy = [] then
          { base with state := .yellow, reason := .noJob }
        else base

/-- `guest_backup_states`: the guests that have a backup, and those asked for. -/
def guestBackupStates (bmap : List Str × (Str → Option BackupRecord)) (vmids : List Str)
    (now warnHours critHours : Rat) (coveredKnown unknown : Bool) : List (Str × BackupState) :=
  let keys := (bmap.1 ++ vmids.filter (· ≠ [])).dedup
  keys.map (fun vmid =>
    (vmid,
      if unknown then { state := .unknown, reason := .unreadable }
      else backupState (bmap.2 vmid) now warnHours critHours coveredKnown))

/-! ## Asking the node -/

/-- The answer to each command that is sent to the node, by its number. -/
abbrev Asked := Nat → Str → Answer

/-- `(s.strip().splitlines() or [default])[0][:300]` of the error output, or
of the output. -/
def firstError (a : Answer) (default : Str) : Str :=
  let text := strip (if a.stderr ≠ [] then a.stderr else a.stdout)
  ((splitLines text).head?.getD default).take 300

/-- `_node_name` -/
def nodeName (a : Answer) : Str := if a.success then beforeFirst '.' (strip a.stdout) else []

/-- The command that lists the storages. -/
def storageCommand (node : Str) : Str :=
  "pvesh get /nodes/".toList ++ shlexQuote node ++
    "/storage --content backup --output-format=json".toList

/-- The command that lists the backups on a storage. -/
def contentCommand (node storage : Str) : Str :=
  "pvesh get /nodes/".toList ++ shlexQuote node ++ "/storage/".toList ++ shlexQuote storage ++
    "/content --content backup --output-format=json".toList

/-- The answer of the storage with that place in the list. -/
def contentAnswer (asked : Asked) (node : Str) (p : BackupStorage × Nat) : Answer :=
  asked (3 + p.2) (contentCommand node p.1.storage)

/-- `_read_storage`: the volumes, or why the storage could not be listed. -/
def readStorage (J : PyJson) (asked : Asked) (node : Str) (p : BackupStorage × Nat) :
    Except Str (List Volume) :=
  if !p.1.enabled || !p.1.active then
    .error (if p.1.enabled then "inactive" else "disabled")
  else
    let cr := contentAnswer asked node p
    let vols := parseBackupContent J cr.stdout p.1.storage p.1.type
    if vols = [] && !cr.success then .error (firstError cr "no answer") else .ok vols

/-- `_read_jobs` -/
def readJobs (a : Answer) : List BackupJob × Bool :=
  if a.success then (parseBackupJobs a.stdout, true) else ([], false)

structure Collected where
  node : Str
  storages : List BackupStorage := []
  volumes : List Volume := []
  jobs : List BackupJob := []
  unreadable : List (Str × Str) := []
  readable : Bool := false
  jobsKnown : Bool := false
  error : Str := []

/-- What each storage of the list gives. -/
def readAll (J : PyJson) (asked : Asked) (node : Str) (storages : List BackupStorage) :
    List (BackupStorage × Except Str (List Volume)) :=
  storages.zipIdx.map (fun p => (p.1, readStorage J asked node p))

/-- The error of a storage, `none` when it was listed. -/
def errorOf : Except Str (List Volume) → Option Str
  | .ok _ => none
  | .error e => some e

/-- `collect_backups` -/
def collectBackups (J : PyJson) (asked : Asked) (node : Str) : Collected :=
  let node := if node ≠ [] then node else nodeName (asked 0 "hostname")
  if node = [] then { node := node, error := "could not determine the node name" }
  else
    let sr := asked 1 (storageCommand node)
    let storages := parseStorageList J sr.stdout
    let jobs := readJobs (asked 2 "cat /etc/pve/jobs.cfg 2>/dev/null")
    if storages = [] then
      { node := node
        error := firstError sr "no backup storage found"
        readable := sr.success
        jobs := jobs.1
        jobsKnown := jobs.2 }
    else
      let results := readAll J asked node storages
      { node := node
        storages := storages
        volumes := results.flatMap (fun r => r.2.toOption.getD [])
        jobs := jobs.1
        unreadable := results.filterMap (fun r => (errorOf r.2).map (Prod.mk r.1.storage))
        readable := results.any (fun r => r.2.isOk)
        jobsKnown := jobs.2 }

structure HostBackups where
  states : List (Str × BackupState)
  node : Str
  storages : List BackupStorage
  unreadable : List (Str × Str)
  readable : Bool
  error : Str
  warnHours : Rat
  critHours : Rat

/-- `host_backup_states`, with the configured thresholds. -/
def hostBackupStates (J : PyJson) (asked : Asked) (vmids : List Str) (now warn crit : Rat) :
    HostBackups :=
  let data := collectBackups J asked []
  let (warnHours, critHours) := backupThresholds warn crit
  let bmap := guestBackupMap data.volumes data.jobs
  { states := guestBackupStates bmap vmids now warnHours critHours data.jobsKnown (!data.readable)
    node := data.node
    storages := data.storages
    unreadable := data.unreadable
    readable := data.readable
    error := data.error
    warnHours := warnHours
    critHours := critHours }

end PveZfsTool.Backups
