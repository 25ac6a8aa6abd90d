import PveZfsTool.Backups.JobsFile
import PveZfsTool.Backups.Verdicts

/-!
# Which guests are covered by a backup job

PVE runs a job on the node that its `node` property names, and on every node
when it has none.  `job_covers` does not look at the node.

* `covered_iff`: a guest with a backup is covered when some job selects it, on
  whatever node the job runs.
* `coverageRight_iff`: what is reported is right exactly when every guest that a
  job selects is also backed up by a job of this node.
-/

namespace PveZfsTool.Backups

open Text

/-- The verdicts on a node whose `jobs.cfg` was read. -/
structure CoverageRun where
  J : PyJson
  asked : Asked
  vmids : List Str
  now : Rat
  warn : Rat
  crit : Rat
  file : JobsFile
  named : askedNode asked ≠ []
  read : (asked 2 "cat /etc/pve/jobs.cfg 2>/dev/null").success = true
  stdout : (asked 2 "cat /etc/pve/jobs.cfg 2>/dev/null").stdout = file.text

namespace CoverageRun

variable (R : CoverageRun)

def states : List (Str × BackupState) :=
  (hostBackupStates R.J R.asked R.vmids R.now R.warn R.crit).states

/-- A job of the file backs the guest up on the node. -/
def BackedUp (vmid : Str) : Prop := ∃ s ∈ R.file.sections, s.BacksUp (askedNode R.asked) vmid

/-- A guest with a backup is said to be covered when a job backs it up, and each
job is made of the lines of one `vzdump` section. -/
structure CoverageRight : Prop where
  covered : ∀ vmid st, (vmid, st) ∈ R.states → Found R.J R.asked vmid →
    (st.covered = true ↔ R.BackedUp vmid)
  noLeak : (collectBackups R.J R.asked []).jobs =
    (R.file.sections.filter (fun s => s.kind = ("vzdump" : Str))).map JobSection.job

/-- A guest that a job selects is backed up by some job of this node. -/
def SelectedHere : Prop :=
  ∀ vmid, vmid ≠ [] → Found R.J R.asked vmid → ∀ s ∈ R.file.sections, s.Selects vmid → R.BackedUp vmid

variable {R}
variable {vmid : Str} {st : BackupState}

theorem collected_jobs (R : CoverageRun) :
    (collectBackups R.J R.asked []).jobs = parseBackupJobs R.file.text := by
  have hname : ¬ nodeName (R.asked 0 "hostname") = [] := R.named
  have hjobs : (readJobs (R.asked 2 "cat /etc/pve/jobs.cfg 2>/dev/null")).1 =
      parseBackupJobs R.file.text := by
    unfold readJobs
    rw [if_pos R.read, R.stdout]
  unfold collectBackups
  dsimp only
  rw [if_neg (not_not.mpr rfl), if_neg hname]
  split_ifs
  · exact hjobs
  · exact hjobs

theorem backupState_covered {r : BackupRecord} {now warnHours critHours : Rat} {coveredKnown : Bool}
    (hcount : 0 < r.count) :
    (backupState (some r) now warnHours critHours coveredKnown).covered = decide (r.coveredBy ≠ []) := by
  have hne : ¬ r.count = 0 := by omega
  unfold backupState
  dsimp only
  rw [if_neg hne]
  split_ifs <;> rfl

theorem mem_coveredBy {volumes : List Volume} {jobs : List BackupJob} {r : BackupRecord}
    (h : (guestBackupMap volumes jobs).2 vmid = some r) :
    r.coveredBy ≠ [] ↔ ∃ j ∈ jobs, jobCovers j vmid = true := by
  obtain ⟨r', -, rfl⟩ := Option.map_eq_some_iff.mp h
  show (jobs.filter (jobCovers · vmid)).map BackupJob.id ≠ [] ↔ _
  rw [ne_eq, List.map_eq_nil_iff, List.filter_eq_nil_iff]
  push Not
  rfl

theorem ne_nil_of_mem_states (hst : (vmid, st) ∈ R.states) : vmid ≠ [] := by
  rcases (mem_states.mp hst).1 with ⟨r, hr⟩ | ⟨-, hvmid⟩
  · exact (mem_keys.mp (record_isSome.mp (Option.isSome_iff_exists.mpr ⟨r, hr⟩))).1
  · exact hvmid

theorem exists_record (hvmid : vmid ≠ []) (hfound : Found R.J R.asked vmid) :
    ∃ r, collectedRecord R.J R.asked vmid = some r := by
  rw [← Option.ne_none_iff_exists', ne_eq, record_eq_none R.named hvmid]
  exact not_not.mpr hfound

/-- The verdict on a guest with a backup comes from its record. -/
theorem covered_iff (hst : (vmid, st) ∈ R.states) (hfound : Found R.J R.asked vmid) :
    st.covered = true ↔ ∃ s ∈ R.file.sections, s.Selects vmid := by
  have hread : (collectBackups R.J R.asked []).readable = true := by
    obtain ⟨p, hp, htaken, -⟩ := hfound
    rw [readable_iff]
    intro hnothing
    rcases hnothing with hnode | ⟨hnil, -⟩ | ⟨-, hall⟩
    · exact R.named hnode
    · rw [hnil] at hp
      cases hp
    · exact hall p hp htaken
  have hvmid := ne_nil_of_mem_states hst
  have hverdict := (mem_states.mp hst).2
  rw [if_pos hread] at hverdict
  obtain ⟨r, hr⟩ := exists_record hvmid hfound
  have hcovered : st.covered = true ↔ r.coveredBy ≠ [] := by
    rw [hverdict, hr, backupState_covered (count_pos hr), decide_eq_true_eq]
  rw [hcovered, mem_coveredBy hr, collected_jobs, parseBackupJobs_text]
  constructor
  · intro ⟨j, hj, hcovers⟩
    obtain ⟨s, hs, rfl⟩ := List.mem_map.mp hj
    obtain ⟨hs, hkind⟩ := List.mem_filter.mp hs
    exact ⟨s, hs, (jobCovers_iff hvmid (of_decide_eq_true hkind)).mp hcovers⟩
  · intro ⟨s, hs, hselects⟩
    exact ⟨s.job, List.mem_map_of_mem (List.mem_filter.mpr ⟨hs, decide_eq_true hselects.1⟩),
      (jobCovers_iff hvmid hselects.1).mpr hselects⟩

theorem exists_state (hvmid : vmid ≠ []) (hfound : Found R.J R.asked vmid) :
    ∃ st, (vmid, st) ∈ R.states := by
  obtain ⟨r, hr⟩ := exists_record hvmid hfound
  exact ⟨_, mem_states.mpr ⟨.inl ⟨r, hr⟩, rfl⟩⟩

/-- The guests with a backup are reported right if and only if each of them that
a job selects is backed up by a job of this node. -/
theorem coverageRight_iff (R : CoverageRun) : R.CoverageRight ↔ R.SelectedHere := by
  constructor
  · intro h vmid hvmid hfound s hs hselects
    obtain ⟨st, hst⟩ := exists_state hvmid hfound
    exact (h.covered vmid st hst hfound).mp ((covered_iff hst hfound).mpr ⟨s, hs, hselects⟩)
  · intro h
    refine ⟨fun vmid st hst hfound => ?_, (collected_jobs R).trans (parseBackupJobs_text _)⟩
    rw [covered_iff hst hfound]
    constructor
    · intro ⟨s, hs, hselects⟩
      exact h vmid (ne_nil_of_mem_states hst) hfound s hs hselects
    · intro ⟨s, hs, hselects, _⟩
      exact ⟨s, hs, hselects⟩

end CoverageRun

/-! ## A job of another node -/

/-- A property as PVE writes it. -/
def writtenProperty (key value : Str) (hkey : IsWordText key) (hvalue : value ≠ [] ∧ IsStripped value)
    (honeLine : NoBreak (['\t'] ++ (key ++ ([' '] ++ (value ++ []))))) : PropertyLine where
  indent := ['\t']
  key := key
  gap := [' ']
  value := value
  trail := []
  indent_ne := by decide
  indent_space := by decide
  key_word := hkey
  gap_ne := by decide
  gap_space := by decide
  value_ne := hvalue.1
  value_stripped := hvalue.2
  trail_space := by decide
  oneLine := honeLine

/-- A job that backs up every guest of the other node. -/
def otherNode : JobSection where
  kind := "vzdump"
  gap := [' ']
  id := "backup-other"
  trail := []
  body :=
    [.property (writtenProperty "all" "1" ⟨by decide, by decide⟩ (by decide) (by decide)),
      .property (writtenProperty "node" "pve2" ⟨by decide, by decide⟩ (by decide) (by decide))]
  after := []
  kind_ne := by decide
  kind_chars := by decide
  gap_space := by decide
  id_word := ⟨by decide, by decide⟩
  trail_space := by decide
  oneLine := by decide
  distinct := by decide
  switches := by decide

def otherNodeFile : JobsFile := ⟨[], [otherNode]⟩

def localStorage : Str :=
  "[\x7b\"storage\": \"local\", \"type\": \"dir\", \"enabled\": 1, \"active\": 1\x7d]"

def localContent : Str :=
  "[\x7b\"volid\": \"local:backup/vzdump-qemu-100.vma\", \"vmid\": \"100\", \"ctime\": 1772416800\x7d]"

/-- `json.loads`, on the texts that the node answers. -/
def localJson : PyJson where
  loads text :=
    if text = localStorage then some (.list [storageRow "local" "dir"])
    else if text = localContent then
      some (.list [.dict [("volid", .str "local:backup/vzdump-qemu-100.vma"), ("vmid", .str "100"),
        ("ctime", .int 1772416800)]])
    else none
  repr _ := []

/-- The node `pve1` has a backup of guest 100, and only `pve2` has a job. -/
def uncoveredGuest : CoverageRun where
  J := localJson
  asked := fun n _ =>
    match n with
    | 0 => ⟨true, "pve1", []⟩
    | 1 => ⟨true, localStorage, []⟩
    | 2 => ⟨true, otherNodeFile.text, []⟩
    | _ => ⟨true, localContent, []⟩
  vmids := []
  now := 1772416800
  warn := 36
  crit := 168
  file := otherNodeFile
  named := by decide
  read := rfl
  stdout := rfl

theorem found_uncoveredGuest : Found uncoveredGuest.J uncoveredGuest.asked "100" := by
  have hfound : ∃ p ∈ nodeStorages uncoveredGuest.J uncoveredGuest.asked,
      (p.1.enabled = true ∧ p.1.active = true ∧
        (contentAnswer uncoveredGuest.asked (askedNode uncoveredGuest.asked) p).success = true) ∧
      ∃ v ∈ answeredVolumes uncoveredGuest.J uncoveredGuest.asked p, v.vmid = "100".toList := by
    decide +kernel
  obtain ⟨p, hp, ⟨henabled, hactive, hok⟩, hvolume⟩ := hfound
  exact ⟨p, hp, ⟨henabled, hactive, .inl hok⟩, hvolume⟩

/-- A guest that only the job of another node selects is said to be covered. -/
theorem other_node_covers : ¬ ∀ R : CoverageRun, R.CoverageRight := by
  intro hclaim
  obtain ⟨st, hst⟩ := CoverageRun.exists_state (R := uncoveredGuest) (by decide) found_uncoveredGuest
  have hselects : otherNode.Selects "100" := ⟨rfl, by decide, by decide⟩
  have hcovered := (CoverageRun.covered_iff hst found_uncoveredGuest).mpr
    ⟨otherNode, List.mem_singleton_self _, hselects⟩
  obtain ⟨s, hs, -, hnode, -⟩ :=
    ((hclaim uncoveredGuest).covered _ st hst found_uncoveredGuest).mp hcovered
  rw [List.mem_singleton.mp hs] at hnode
  exact absurd (hnode "pve2" rfl) (by decide)

end PveZfsTool.Backups
