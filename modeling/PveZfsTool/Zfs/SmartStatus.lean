import PveZfsTool.Host
import PveZfsTool.Lib.Transducer
import PveZfsTool.Validators
import PveZfsTool.Zfs.PoolTopology

/-!
# The SMART status of the disks

`get_smart_status` of `app/zfs_commands.py` reads the disks of each pool out of
`zpool status`, by the words at the start of a line, and asks `smartctl` about
the device that each of them is on.

* `disks_after`: the disks of a pool are what the lines have added.
* `run_getSmartStatus`: the result has these disks, whatever the host answers
  about them.

The cache of the tool is left out.
-/

namespace PveZfsTool.Smart

open Text Dialogue Transducer

/-! ## The lines of `zpool status` -/

/-- `states` -/
def smartStates : List Str :=
  ["ONLINE", "DEGRADED", "FAULTED", "UNAVAIL", "OFFLINE", "REMOVED", "AVAIL", "INUSE"]

/-- The words of `skip_patterns`.  `raidz[123]?` matches where `raidz` does. -/
def skipWords : List Str :=
  ["mirror", "raidz", "log", "cache", "spare", "special", "dedup", "name", "state:", "status:",
    "action:", "scan:", "config:", "errors:", "pool:", "see:"]

/-- A letter of the pattern under `re.IGNORECASE`.  The letter `s` also matches
the long one. -/
def skipLetter (p c : Char) : Bool := sameLetter p c || (p == 's' && c.toNat == 0x17F)

def startsFolded : Str → Str → Bool
  | [], _ => true
  | _ :: _, [] => false
  | p :: ps, c :: s => skipLetter p c && startsFolded ps s

/-- `skip_patterns.match(name)`.  The pattern that the code tries next matches
only names that this one does. -/
def isSkipped (name : Str) : Bool := skipWords.any (fun word => startsFolded word name)

/-- What a line is taken for. -/
inductive SmartLine where
  | pool (name : Str)
  | disk (name : Str)
  | nothing
  deriving DecidableEq

/-- The tests on a line. -/
def smartLine (poolNames : List Str) (line : Str) : SmartLine :=
  match splitWords (strip line) with
  | name :: column :: _ =>
      if name ∈ poolNames ∧ column ∈ smartStates then .pool name
      else if isSkipped name then .nothing
      else if column ∈ smartStates then .disk name
      else .nothing
  | _ => .nothing

/-- `pools_disks` and `current_pool` -/
structure DiskSurvey where
  poolsDisks : Dict Str (List Str) := Dict.empty
  currentPool : Option Str := none

/-- One turn of the loop, with the pool and the disk that it adds. -/
def DiskSurvey.step (poolNames : List Str) (s : DiskSurvey) (line : Str) :
    DiskSurvey × Option (Str × Str) :=
  match smartLine poolNames line, s.currentPool with
  | .pool name, _ => ({ poolsDisks := s.poolsDisks.setdefault name [], currentPool := some name }, none)
  | .disk name, some pool => ({ s with poolsDisks := s.poolsDisks.push pool name }, some (pool, name))
  | _, _ => (s, none)

/-- The loop over the lines. -/
def surveyDisks (poolNames : List Str) (lines : List Str) : DiskSurvey :=
  after (DiskSurvey.step poolNames) {} lines

/-! ## The disks on the host -/

/-- `(nvme\d+n\d+|mmcblk\d+)p\d+$` on what follows `/dev/`. -/
def partitionParent (s : Str) : Option Str :=
  let rest :=
    match s.dropPrefix? "nvme", s.dropPrefix? "mmcblk" with
    | some t, _ =>
        match t.dropWhile isDecimal with
        | 'n' :: u => if (t.takeWhile isDecimal) ≠ [] ∧ (u.takeWhile isDecimal) ≠ [] then
            some (u.dropWhile isDecimal) else none
        | _ => none
    | none, some t => if (t.takeWhile isDecimal) ≠ [] then some (t.dropWhile isDecimal) else none
    | none, none => none
  match rest with
  | some ('p' :: digits) =>
      if digits ≠ [] ∧ digits.all isDecimal then some (s.take (s.length - (digits.length + 1))) else none
  | _ => none

/-- `sd[a-z]+\d+$` on what follows `/dev/`. -/
def isSdPartition (s : Str) : Bool :=
  match s.dropPrefix? "sd" with
  | some t =>
      let digits := t.dropWhile isAsciiLower
      t.takeWhile isAsciiLower ≠ [] && digits ≠ [] && digits.all isDecimal
  | none => false

/-- `_smart_base_disk`.  A path has no newline at its end. -/
def smartBaseDisk (devPath pkname : Str) (lsblkOk : Bool) : Str :=
  if lsblkOk then
    if strip pkname ≠ [] then "/dev/" ++ strip pkname else devPath
  else match devPath.dropPrefix? "/dev/" with
    | none => devPath
    | some s =>
        match partitionParent s with
        | some parent => "/dev/" ++ parent
        | none => if isSdPartition s then (devPath.reverse.dropWhile isDecimal).reverse else devPath

/-- `_smart_device_types` -/
def smartDeviceTypes (baseDisk : Str) : List Str :=
  if (baseDisk.dropPrefix? "/dev/nvme").any (fun s => s.head?.any isDecimal) then ["", "-d nvme"]
  else ["", "-d sat", "-d auto", "-d scsi"]

inductive SmartVerdict where
  | passed
  | failed
  | noTool
  deriving DecidableEq

/-- `health status:\s*ok` -/
def reportsHealth : Str → Bool
  | [] => false
  | c :: s =>
      (((c :: s).dropPrefix? "health status:").any fun t => startsWith (lstrip t) "ok") || reportsHealth s

/-- `_classify_smart_output` -/
def classifySmartOutput (out : Str) : Option SmartVerdict :=
  let low := lower out
  if contains low "command not found" || contains low "smartctl: not found" then some .noTool
  else if contains out "FAILED" then some .failed
  else if contains out "PASSED" || reportsHealth low then some .passed
  else none

/-! ## The status -/

inductive SmartCmd where
  | poolNames
  | status (pool : Option Str)
  | whichSmartctl
  | readlink (disk : Str)
  | parentDisk (dev : Str)
  | smartctl (dtype disk : Str)
  deriving DecidableEq

def SmartCmd.text : SmartCmd → Str
  | .poolNames => "zpool list -H -o name"
  | .status none => "zpool status"
  | .status (some pool) => "zpool status " ++ pool
  | .whichSmartctl => "command -v smartctl >/dev/null 2>&1 && echo yes"
  | .readlink disk => "readlink -f " ++ shlexQuote ("/dev/disk/by-id/" ++ disk) ++ " 2>/dev/null"
  | .parentDisk dev => "lsblk -no PKNAME " ++ shlexQuote dev ++ " 2>/dev/null | head -1"
  | .smartctl dtype disk =>
      if dtype ≠ [] then "smartctl -H " ++ dtype ++ " " ++ shlexQuote disk ++ " 2>&1"
      else "smartctl -H " ++ shlexQuote disk ++ " 2>&1"

abbrev SmartJob (α : Type) := Prog SmartCmd Answer Empty α

/-- An entry of the result. -/
structure SmartDisk where
  id : Str
  dev : Str
  status : Str
  deriving DecidableEq

inductive SmartResult where
  | failed (stderr : Str)
  | pools (disks : Dict Str (List SmartDisk))

/-- The loop over the device types.  It stops at the first verdict. -/
def tryTypes (disk : Str) : List Str → Bool → SmartJob (Option SmartVerdict × Bool)
  | [], sawOutput => return (none, sawOutput)
  | dtype :: dtypes, sawOutput => do
      let r ← Prog.issue (.smartctl dtype disk)
      let sawOutput := sawOutput || strip r.stdout ≠ []
      match classifySmartOutput r.stdout with
      | some verdict => return (some verdict, sawOutput)
      | none => tryTypes disk dtypes sawOutput

/-- The status of a whole disk. -/
def diskStatus (smartctlPresent : Bool) (baseDisk : Str) : SmartJob Str :=
  if !smartctlPresent then return "smartctl fehlt"
  else do
    let (verdict, sawOutput) ← tryTypes baseDisk (smartDeviceTypes baseDisk) false
    match verdict with
    | some .noTool => return "smartctl fehlt"
    | some .passed => return "PASSED"
    | some .failed => return "FAILED"
    | none => if sawOutput then return "N/A" else return "Unknown"

/-- The device node of a disk. -/
def resolveDisk (disk : Str) : SmartJob Str :=
  if startsWith disk "/dev/" then return disk
  else do
    let r ← Prog.issue (.readlink disk)
    return if r.success && startsWith (strip r.stdout) "/dev/" then strip r.stdout else "/dev/" ++ disk

/-- The body of the loop over the disks.  `seen` is `seen_base_disks`. -/
def queryDisk (smartctlPresent : Bool) (seen : Dict Str Str) (disk : Str) :
    SmartJob (SmartDisk × Dict Str Str) := do
  let devPath ← resolveDisk disk
  let parent ← Prog.issue (.parentDisk devPath)
  let baseDisk := smartBaseDisk devPath parent.stdout parent.success
  match seen.get? baseDisk with
  | some status => return (⟨disk, baseDisk, status⟩, seen)
  | none => do
      let status ← diskStatus smartctlPresent baseDisk
      return (⟨disk, baseDisk, status⟩, seen.set baseDisk status)

def queryDisks (smartctlPresent : Bool) : List Str → Dict Str Str →
    SmartJob (List SmartDisk × Dict Str Str)
  | [], seen => return ([], seen)
  | disk :: disks, seen => do
      let (entry, seen) ← queryDisk smartctlPresent seen disk
      let (entries, seen) ← queryDisks smartctlPresent disks seen
      return (entry :: entries, seen)

/-- The loop over the pools. -/
def queryPools (smartctlPresent : Bool) : List (Str × List Str) → Dict Str Str →
    SmartJob (List (Str × List SmartDisk))
  | [], _ => return []
  | (pool, disks) :: rest, seen => do
      let (entries, seen) ← queryDisks smartctlPresent disks seen
      let others ← queryPools smartctlPresent rest seen
      return (pool, entries) :: others

/-- `pool_names` -/
def listedPools (result : Answer) : List Str :=
  if result.success then ((splitLines (strip result.stdout)).map strip).filter (· ≠ []) else []

/-- The disks of all pools, and `smartctl` on each of them. -/
def smartStatus (pool : Option Str) : SmartJob SmartResult := do
  let poolList ← Prog.issue .poolNames
  let status ← Prog.issue (.status pool)
  if !status.success then return .failed status.stderr
  else
    let poolsDisks := (surveyDisks (listedPools poolList) (splitLines status.stdout)).poolsDisks
    if poolsDisks.entries.all (fun e => e.2.isEmpty) then
      return .failed "No disks found in pool status output"
    else do
      let tool ← Prog.issue .whichSmartctl
      let present := tool.success && contains tool.stdout "yes"
      let pools ← queryPools present poolsDisks.entries Dict.empty
      return .pools (pools.foldl (fun d e => d.set e.1 e.2) Dict.empty)

/-- `get_smart_status` -/
def getSmartStatus (pool : Option Str) : SmartJob SmartResult :=
  match pool with
  | none => smartStatus none
  | some name =>
      match validatePoolName name with
      | .error e => return .failed e
      | .ok name => smartStatus (some name)

/-! ## What the loop has read -/

section Survey

variable {poolNames : List Str} {s : DiskSurvey} {lines : List Str} {q : Str}

/-- The disks of a pool so far. -/
def DiskSurvey.disks (s : DiskSurvey) (q : Str) : List Str := (s.poolsDisks.get? q).getD []

/-- The names that are added to the disks of a pool. -/
def addedTo (q : Str) (output : Option (Str × Str)) : Option Str :=
  output.bind fun added => if added.1 = q then some added.2 else none

theorem disks_step (line : Str) : (s.step poolNames line).1.disks q =
    s.disks q ++ (addedTo q (s.step poolNames line).2).toList := by
  unfold DiskSurvey.step
  cases smartLine poolNames line with
  | nothing => simp [addedTo]
  | pool name =>
    unfold DiskSurvey.disks Dict.setdefault
    dsimp only
    rw [Dict.get?_alter]
    by_cases hq : q = name
    · rw [if_pos hq, hq]
      simp [addedTo]
    · rw [if_neg hq]
      simp [addedTo]
  | disk name =>
    cases s.currentPool with
    | none => simp [addedTo]
    | some pool =>
      unfold DiskSurvey.disks Dict.push
      dsimp only
      rw [Dict.get?_alter]
      by_cases hq : q = pool
      · rw [if_pos hq, hq]
        simp [addedTo]
      · rw [if_neg hq]
        simp [addedTo, Ne.symm hq]

/-- The disks of a pool are what the lines have added. -/
theorem disks_after : (after (DiskSurvey.step poolNames) s lines).disks q =
    s.disks q ++ (turns (DiskSurvey.step poolNames) s lines).filterMap (fun t => addedTo q t.output) := by
  induction lines generalizing s with
  | nil => simp
  | cons line lines ih =>
    rw [after_cons, ih, disks_step, turns_cons, List.filterMap_cons]
    cases addedTo q (s.step poolNames line).2 <;> simp

/-- The pool that the last line of a pool names. -/
def lastPool (poolNames lines : List Str) : Option Str :=
  (lines.filterMap fun line =>
    match smartLine poolNames line with
    | .pool name => some name
    | _ => none).getLast?

theorem currentPool_surveyDisks : (surveyDisks poolNames lines).currentPool = lastPool poolNames lines := by
  unfold surveyDisks lastPool
  induction lines using List.reverseRecOn with
  | nil => rfl
  | append_singleton lines line ih =>
    rw [after_append, after_cons, after_nil, List.filterMap_append, List.filterMap_cons, List.filterMap_nil]
    generalize after (DiskSurvey.step poolNames) {} lines = s at ih
    unfold DiskSurvey.step
    cases smartLine poolNames line with
    | nothing => simpa using ih
    | pool name => simp
    | disk name => cases hcurrent : s.currentPool <;> simpa [hcurrent] using ih

end Survey

/-! ## What is asked about -/

section Runs

variable {present : Bool} {seen : Dict Str Str} {trail : History SmartCmd Answer}

/-- The disks of a pool in the result. -/
def SmartResult.queried (r : SmartResult) (q : Str) : List Str :=
  match r with
  | .failed _ => []
  | .pools disks => ((disks.get? q).getD []).map SmartDisk.id

theorem run_queryDisk {disk : Str} {r : SmartDisk × Dict Str Str}
    (h : (queryDisk present seen disk).Run trail (.ok r)) : r.1.id = disk := by
  unfold queryDisk at h
  obtain ⟨_, _, devPath, rfl, -, hparent⟩ := Prog.run_bind_ok h
  rw [Prog.issue_bind] at hparent
  obtain ⟨parent, _, rfl, hend⟩ := Prog.run_ask.mp hparent
  dsimp only at hend
  split at hend
  · obtain ⟨-, hr⟩ := Prog.run_ret.mp hend
    rw [Except.ok.inj hr]
  · obtain ⟨_, _, status, rfl, -, hret⟩ := Prog.run_bind_ok hend
    obtain ⟨-, hr⟩ := Prog.run_ret.mp hret
    rw [Except.ok.inj hr]

theorem run_queryDisks {disks : List Str} {r : List SmartDisk × Dict Str Str}
    (h : (queryDisks present disks seen).Run trail (.ok r)) : r.1.map SmartDisk.id = disks := by
  induction disks generalizing seen trail r with
  | nil =>
    obtain ⟨-, hr⟩ := Prog.run_ret.mp h
    rw [Except.ok.inj hr]
    rfl
  | cons disk disks ih =>
    rw [queryDisks] at h
    obtain ⟨_, _, entry, rfl, hentry, hrest⟩ := Prog.run_bind_ok h
    obtain ⟨_, _, entries, rfl, hentries, hret⟩ := Prog.run_bind_ok hrest
    obtain ⟨-, hr⟩ := Prog.run_ret.mp hret
    rw [Except.ok.inj hr]
    show entry.1.id :: entries.1.map SmartDisk.id = disk :: disks
    rw [run_queryDisk hentry, ih hentries]

theorem run_queryPools {pools : List (Str × List Str)} {r : List (Str × List SmartDisk)}
    (h : (queryPools present pools seen).Run trail (.ok r)) :
    r.map (fun e => (e.1, e.2.map SmartDisk.id)) = pools := by
  induction pools generalizing seen trail r with
  | nil =>
    obtain ⟨-, hr⟩ := Prog.run_ret.mp h
    rw [Except.ok.inj hr]
    rfl
  | cons pool pools ih =>
    rw [queryPools] at h
    obtain ⟨_, _, entries, rfl, hentries, hrest⟩ := Prog.run_bind_ok h
    obtain ⟨_, _, others, rfl, hothers, hret⟩ := Prog.run_bind_ok hrest
    obtain ⟨-, hr⟩ := Prog.run_ret.mp hret
    rw [Except.ok.inj hr]
    show (pool.1, entries.1.map SmartDisk.id) :: others.map (fun e => (e.1, e.2.map SmartDisk.id)) = _
    rw [run_queryDisks hentries, ih hothers]

/-- The entries of the result in a dictionary. -/
theorem queried_pools {pools : Dict Str (List Str)} {r : List (Str × List SmartDisk)}
    (h : r.map (fun e => (e.1, e.2.map SmartDisk.id)) = pools.entries) (q : Str) :
    (SmartResult.pools (r.foldl (fun d e => d.set e.1 e.2) Dict.empty)).queried q =
      (pools.get? q).getD [] := by
  have hkeys : r.map Prod.fst = pools.keys := by
    rw [Dict.keys, ← h, List.map_map]
    rfl
  have hentries : (r.foldl (fun d e => d.set e.1 e.2) (Dict.empty : Dict Str (List SmartDisk))).entries = r := by
    rw [Dict.entries_foldl_set]
    · rfl
    · show (r.map Prod.fst).Nodup
      rw [hkeys]
      exact pools.nodup_keys
  have hdict : (r.foldl (fun d e => d.set e.1 e.2) (Dict.empty : Dict Str (List SmartDisk))).mapValues
      (List.map SmartDisk.id) = pools := by
    cases pools
    exact (Dict.mk.injEq ..).mpr ((congrArg _ hentries).trans h)
  have hget := @Dict.get?_mapValues _ _ _ _ (List.map SmartDisk.id)
    (r.foldl (fun d e => d.set e.1 e.2) (Dict.empty : Dict Str (List SmartDisk))) q
  rw [hdict] at hget
  rw [hget]
  unfold SmartResult.queried
  dsimp only
  cases Dict.get? _ q <;> rfl

/-- The result has the disks that were read, whatever the host answers about
them. -/
theorem run_smartStatus {pool : Option Str} {r : SmartResult}
    (h : (smartStatus pool).Run trail (.ok r)) : ∃ poolList status rest,
      trail = (.poolNames, poolList) :: (.status pool, status) :: rest ∧
        (status.success = true → ∀ q, r.queried q =
          (surveyDisks (listedPools poolList) (splitLines status.stdout)).disks q) := by
  unfold smartStatus at h
  rw [Prog.issue_bind] at h
  obtain ⟨poolList, _, rfl, hstatus⟩ := Prog.run_ask.mp h
  rw [Prog.issue_bind] at hstatus
  obtain ⟨status, rest, rfl, hend⟩ := Prog.run_ask.mp hstatus
  refine ⟨poolList, status, rest, rfl, fun hsuccess q => ?_⟩
  rw [hsuccess, if_neg (by decide)] at hend
  dsimp only at hend
  generalize surveyDisks (listedPools poolList) (splitLines status.stdout) = survey at hend ⊢
  split_ifs at hend with hnone
  · obtain ⟨-, hr⟩ := Prog.run_ret.mp hend
    rw [Except.ok.inj hr]
    unfold DiskSurvey.disks
    cases hget : survey.poolsDisks.get? q with
    | none => rfl
    | some disks =>
      have hempty := List.all_eq_true.mp hnone (q, disks) (Dict.mem_entries.mpr hget)
      exact (List.isEmpty_iff.mp hempty).symm
  · rw [Prog.issue_bind] at hend
    obtain ⟨tool, _, rfl, hpools⟩ := Prog.run_ask.mp hend
    obtain ⟨_, _, pools, rfl, hquery, hret⟩ := Prog.run_bind_ok hpools
    obtain ⟨-, hr⟩ := Prog.run_ret.mp hret
    rw [Except.ok.inj hr]
    exact queried_pools (run_queryPools hquery) q

end Runs

end PveZfsTool.Smart
