import PveZfsTool.Backups.States

/-!
# Who is said to have no backup

A storage is `Listed` when its answer is a list of volumes, and `AllListed`
says that of every backup storage of the node, and of the list of storages
itself.

* `readable_iff`, `mem_volumes`: what `collect_backups` takes for a listing.
* `mem_keys`: the guests with a record are those with a volume.
* `verdicts_honest_iff`: no guest is said to have no backup on a missing
  answer when and only when nothing is missing, nothing was read, or each guest
  that is asked for has a volume on a storage that was read.
-/

namespace PveZfsTool.Backups

open Text

/-! ## Listings -/

section

variable (J : PyJson) (asked : Asked)

/-- The name of the node. -/
def askedNode : Str := nodeName (asked 0 "hostname")

/-- The answer with the list of storages. -/
def storageAnswer : Answer := asked 1 (storageCommand (askedNode asked))

/-- The backup storages of the node, with their places in the list. -/
def nodeStorages : List (BackupStorage × Nat) :=
  (parseStorageList J (storageAnswer asked).stdout).zipIdx

/-- The volumes in the answer of a storage. -/
def answeredVolumes (p : BackupStorage × Nat) : List Volume :=
  parseBackupContent J (contentAnswer asked (askedNode asked) p).stdout p.1.storage p.1.type

/-- The answer of the storage is taken for a listing. -/
def Taken (p : BackupStorage × Nat) : Prop :=
  p.1.enabled = true ∧ p.1.active = true ∧
    ((contentAnswer asked (askedNode asked) p).success = true ∨ answeredVolumes J asked p ≠ [])

/-- The storage was listed: its answer is taken, and it is a list. -/
def Listed (p : BackupStorage × Nat) : Prop :=
  Taken J asked p ∧ (J.list? (contentAnswer asked (askedNode asked) p).stdout).isSome = true

/-- Every backup storage of the node was listed. -/
def AllListed : Prop :=
  askedNode asked ≠ [] ∧
    ((storageAnswer asked).success = true ∨ nodeStorages J asked ≠ []) ∧
    (J.list? (storageAnswer asked).stdout).isSome = true ∧
    ∀ p ∈ nodeStorages J asked, Listed J asked p

/-- No answer of the node was taken: it has no name, its list of storages
failed, or no storage was taken. -/
def NothingTaken : Prop :=
  askedNode asked = [] ∨
    (nodeStorages J asked = [] ∧ (storageAnswer asked).success = false) ∨
    (nodeStorages J asked ≠ [] ∧ ∀ p ∈ nodeStorages J asked, ¬ Taken J asked p)

/-- A storage whose answer was taken has a backup of the guest. -/
def Found (vmid : Str) : Prop :=
  ∃ p ∈ nodeStorages J asked, Taken J asked p ∧ ∃ v ∈ answeredVolumes J asked p, v.vmid = vmid

/-- A guest that is said to have no backup was looked for on every storage, and
one that was not, and of which nothing was found, is said to be unknown. -/
def HonestVerdicts (states : List (Str × BackupState)) : Prop :=
  ∀ vmid st, (vmid, st) ∈ states →
    (st.state = .red ∧ st.reason = .none → AllListed J asked) ∧
      (¬ AllListed J asked → ¬ Found J asked vmid → st.state = .unknown)

end

variable {J : PyJson} {asked : Asked}

theorem readStorage_cases (J : PyJson) (asked : Asked) (p : BackupStorage × Nat) :
    (Taken J asked p ∧ readStorage J asked (askedNode asked) p = .ok (answeredVolumes J asked p)) ∨
      (¬ Taken J asked p ∧ ∃ e, readStorage J asked (askedNode asked) p = .error e) := by
  unfold readStorage Taken
  by_cases hoff : (!p.1.enabled || !p.1.active) = true
  · refine .inr ⟨?_, _, if_pos hoff⟩
    intro ⟨henabled, hactive, _⟩
    rw [henabled, hactive] at hoff
    cases hoff
  · rw [if_neg hoff]
    rw [Bool.not_eq_true, Bool.or_eq_false_iff, Bool.not_eq_false', Bool.not_eq_false'] at hoff
    by_cases hfailed : (decide (answeredVolumes J asked p = []) &&
        !(contentAnswer asked (askedNode asked) p).success) = true
    · refine .inr ⟨?_, _, if_pos hfailed⟩
      rw [Bool.and_eq_true, decide_eq_true_iff, Bool.not_eq_true'] at hfailed
      intro ⟨_, _, hor⟩
      rcases hor with hok | hvols
      · rw [hfailed.2] at hok
        cases hok
      · exact hvols hfailed.1
    · refine .inl ⟨⟨hoff.1, hoff.2, ?_⟩, if_neg hfailed⟩
      rw [Bool.and_eq_true, decide_eq_true_iff, Bool.not_eq_true', not_and_or] at hfailed
      rcases hfailed with hvols | hok
      · exact .inr hvols
      · exact .inl (Bool.not_eq_false _ ▸ hok)

theorem nodeStorages_eq_nil :
    nodeStorages J asked = [] ↔ parseStorageList J (storageAnswer asked).stdout = [] :=
  List.zipIdx_eq_nil_iff

theorem collect_unnamed (hnode : askedNode asked = []) :
    (collectBackups J asked []).readable = false ∧ (collectBackups J asked []).volumes = [] := by
  have hname : nodeName (asked 0 "hostname") = [] := hnode
  unfold collectBackups
  dsimp only
  rw [if_neg (not_not.mpr rfl), if_pos hname]
  exact ⟨rfl, rfl⟩

theorem collect_no_storages (hnode : askedNode asked ≠ []) (hstorages : nodeStorages J asked = []) :
    (collectBackups J asked []).readable = (storageAnswer asked).success ∧
      (collectBackups J asked []).volumes = [] := by
  have hname : ¬ nodeName (asked 0 "hostname") = [] := hnode
  have hnil := nodeStorages_eq_nil.mp hstorages
  unfold storageAnswer askedNode at hnil
  unfold collectBackups
  dsimp only
  rw [if_neg (not_not.mpr rfl), if_neg hname, if_pos hnil]
  exact ⟨rfl, rfl⟩

theorem collect_storages (hnode : askedNode asked ≠ []) (hstorages : nodeStorages J asked ≠ []) :
    (collectBackups J asked []).readable =
        (nodeStorages J asked).any (fun p => (readStorage J asked (askedNode asked) p).isOk) ∧
      (collectBackups J asked []).volumes = (nodeStorages J asked).flatMap
        (fun p => (readStorage J asked (askedNode asked) p).toOption.getD []) := by
  have hname : ¬ nodeName (asked 0 "hostname") = [] := hnode
  have hnil := mt nodeStorages_eq_nil.mpr hstorages
  unfold storageAnswer askedNode at hnil
  unfold collectBackups
  dsimp only
  rw [if_neg (not_not.mpr rfl), if_neg hname, if_neg hnil]
  unfold readAll
  dsimp only
  rw [List.any_map, List.flatMap_map]
  exact ⟨rfl, rfl⟩

/-- The volumes are those of the storages whose answers are taken. -/
theorem mem_volumes {v : Volume} :
    v ∈ (collectBackups J asked []).volumes ↔
      askedNode asked ≠ [] ∧ ∃ p ∈ nodeStorages J asked, Taken J asked p ∧
        v ∈ answeredVolumes J asked p := by
  by_cases hnode : askedNode asked = []
  · rw [(collect_unnamed hnode).2]
    simp [hnode]
  · by_cases hstorages : nodeStorages J asked = []
    · rw [(collect_no_storages hnode hstorages).2, hstorages]
      simp
    · rw [(collect_storages hnode hstorages).2, List.mem_flatMap]
      constructor
      · intro ⟨p, hp, hv⟩
        rcases readStorage_cases J asked p with ⟨htaken, hok⟩ | ⟨_, e, herror⟩
        · rw [hok] at hv
          exact ⟨hnode, p, hp, htaken, hv⟩
        · rw [herror] at hv
          cases hv
      · intro ⟨_, p, hp, htaken, hv⟩
        rcases readStorage_cases J asked p with ⟨_, hok⟩ | ⟨hnot, _⟩
        · exact ⟨p, hp, by rw [hok]; exact hv⟩
        · exact absurd htaken hnot

/-- The node counts as read when some answer is taken. -/
theorem readable_iff : (collectBackups J asked []).readable = true ↔ ¬ NothingTaken J asked := by
  unfold NothingTaken
  by_cases hnode : askedNode asked = []
  · rw [(collect_unnamed hnode).1]
    simp [hnode]
  · by_cases hstorages : nodeStorages J asked = []
    · rw [(collect_no_storages hnode hstorages).1]
      simp [hnode, hstorages]
    · have htaken : ∀ p, (readStorage J asked (askedNode asked) p).isOk = true ↔
          Taken J asked p := by
        intro p
        rcases readStorage_cases J asked p with ⟨htaken, hok⟩ | ⟨hnot, e, herror⟩
        · rw [hok]
          exact ⟨fun _ => htaken, fun _ => rfl⟩
        · rw [herror]
          constructor
          · intro h
            cases h
          · exact fun h => absurd h hnot
      rw [(collect_storages hnode hstorages).1, List.any_eq_true]
      simp only [htaken]
      simp [hnode, hstorages]

/-! ## Records -/

theorem mem_keys_foldl {volumes : List Volume} {d : Dict Str BackupRecord} {vmid : Str} :
    vmid ∈ (volumes.foldl addVolume d).keys ↔
      vmid ∈ d.keys ∨ vmid ≠ [] ∧ ∃ v ∈ volumes, v.vmid = vmid := by
  induction volumes generalizing d with
  | nil => simp
  | cons v volumes ih =>
    rw [List.foldl_cons, ih, addVolume]
    by_cases hnone : v.vmid = []
    · rw [if_pos hnone]
      constructor
      · intro h
        rcases h with hd | ⟨hne, w, hw, hvmid⟩
        · exact .inl hd
        · exact .inr ⟨hne, w, List.mem_cons_of_mem _ hw, hvmid⟩
      · intro h
        rcases h with hd | ⟨hne, w, hw, hvmid⟩
        · exact .inl hd
        · rcases List.mem_cons.mp hw with rfl | hw
          · exact absurd (hvmid.symm.trans hnone) hne
          · exact .inr ⟨hne, w, hw, hvmid⟩
    · rw [if_neg hnone, Dict.mem_keys_alter]
      constructor
      · intro h
        rcases h with (rfl | hd) | ⟨hne, w, hw, hvmid⟩
        · exact .inr ⟨hnone, v, List.mem_cons_self, rfl⟩
        · exact .inl hd
        · exact .inr ⟨hne, w, List.mem_cons_of_mem _ hw, hvmid⟩
      · intro h
        rcases h with hd | ⟨hne, w, hw, hvmid⟩
        · exact .inl (.inr hd)
        · rcases List.mem_cons.mp hw with rfl | hw
          · exact .inl (.inl hvmid.symm)
          · exact .inr ⟨hne, w, hw, hvmid⟩

/-- The guests with a record are those with a volume. -/
theorem mem_keys {volumes : List Volume} {jobs : List BackupJob} {vmid : Str} :
    vmid ∈ (guestBackupMap volumes jobs).1 ↔ vmid ≠ [] ∧ ∃ v ∈ volumes, v.vmid = vmid := by
  show vmid ∈ (volumes.foldl addVolume Dict.empty).keys ↔ _
  rw [mem_keys_foldl]
  simp [Dict.keys, Dict.empty]

theorem addVolume_count (r : BackupRecord) (v : Volume) : (r.addVolume v).count = r.count + 1 := by
  unfold BackupRecord.addVolume
  dsimp only
  split <;> rfl

theorem count_pos_foldl {volumes : List Volume} {d : Dict Str BackupRecord}
    (hd : ∀ vmid r, d.get? vmid = some r → 0 < r.count) {vmid : Str} {r : BackupRecord}
    (h : (volumes.foldl addVolume d).get? vmid = some r) : 0 < r.count := by
  induction volumes generalizing d with
  | nil => exact hd vmid r h
  | cons v volumes ih =>
    refine ih ?_ h
    intro vmid' r' hget
    unfold addVolume at hget
    by_cases hnone : v.vmid = []
    · rw [if_pos hnone] at hget
      exact hd vmid' r' hget
    · rw [if_neg hnone, Dict.get?_alter] at hget
      by_cases heq : vmid' = v.vmid
      · rw [if_pos heq] at hget
        rw [← Option.some.inj hget, addVolume_count]
        omega
      · rw [if_neg heq] at hget
        exact hd vmid' r' hget

/-- A record counts at least one volume. -/
theorem count_pos {volumes : List Volume} {jobs : List BackupJob} {vmid : Str} {r : BackupRecord}
    (h : (guestBackupMap volumes jobs).2 vmid = some r) : 0 < r.count := by
  obtain ⟨r', hget, rfl⟩ := Option.map_eq_some_iff.mp h
  have hempty : ∀ vmid r, (Dict.empty : Dict Str BackupRecord).get? vmid = some r → 0 < r.count := by
    intro vmid r h
    rw [Dict.get?_empty] at h
    cases h
  have hcount : 0 < r'.count := count_pos_foldl hempty hget
  exact hcount

theorem record_isSome {volumes : List Volume} {jobs : List BackupJob} {vmid : Str} :
    ((guestBackupMap volumes jobs).2 vmid).isSome = true ↔
      vmid ∈ (guestBackupMap volumes jobs).1 := by
  show (((volumes.foldl addVolume Dict.empty).get? vmid).map _).isSome = true ↔ _
  rw [Option.isSome_map]
  exact Dict.get?_isSome

/-- Only a guest without a record is said to have no backup. -/
theorem backupState_none {record : Option BackupRecord} {now warnHours critHours : Rat}
    {coveredKnown : Bool} (hcount : ∀ r, record = some r → 0 < r.count) :
    (backupState record now warnHours critHours coveredKnown).reason = .none ↔ record = none := by
  cases record with
  | none => exact ⟨fun _ => rfl, fun _ => rfl⟩
  | some r =>
    have hpos := hcount r rfl
    have hne : ¬ r.count = 0 := by omega
    constructor
    · intro hreason
      unfold backupState at hreason
      dsimp only at hreason
      rw [if_neg hne] at hreason
      repeat' split at hreason
      all_goals cases hreason
    · intro h
      cases h

/-! ## Verdicts -/

section

variable {vmids : List Str} {now warn crit : Rat} {vmid : Str} {st : BackupState}

/-- The record of a guest, on what was collected. -/
def collectedRecord (J : PyJson) (asked : Asked) (vmid : Str) : Option BackupRecord :=
  (guestBackupMap (collectBackups J asked []).volumes (collectBackups J asked []).jobs).2 vmid

theorem mem_states :
    (vmid, st) ∈ (hostBackupStates J asked vmids now warn crit).states ↔
      ((∃ r, collectedRecord J asked vmid = some r) ∨ vmid ∈ vmids ∧ vmid ≠ []) ∧
        st = if (collectBackups J asked []).readable = true then
            backupState (collectedRecord J asked vmid) now (backupThresholds warn crit).1
              (backupThresholds warn crit).2 (collectBackups J asked []).jobsKnown
          else { state := .unknown, reason := .unreadable } := by
  have hkeys : vmid ∈ (guestBackupMap (collectBackups J asked []).volumes
        (collectBackups J asked []).jobs).1 ↔ ∃ r, collectedRecord J asked vmid = some r := by
    rw [← record_isSome, Option.isSome_iff_exists]
    rfl
  show (vmid, st) ∈ List.map _ _ ↔ _
  rw [List.mem_map]
  simp only [List.mem_dedup, List.mem_append, List.mem_filter, decide_eq_true_eq, Prod.mk.injEq]
  constructor
  · intro ⟨v, hv, hvmid, hst⟩
    subst hvmid
    refine ⟨hv.imp_left hkeys.mp, ?_⟩
    rw [← hst]
    cases (collectBackups J asked []).readable <;> rfl
  · intro ⟨hv, hst⟩
    refine ⟨vmid, hv.imp_left hkeys.mpr, rfl, ?_⟩
    rw [hst]
    cases (collectBackups J asked []).readable <;> rfl

theorem record_eq_none (hnode : askedNode asked ≠ []) (hvmid : vmid ≠ []) :
    collectedRecord J asked vmid = none ↔ ¬ Found J asked vmid := by
  rw [← Option.not_isSome_iff_eq_none, collectedRecord, record_isSome, mem_keys]
  apply not_congr
  simp only [mem_volumes]
  constructor
  · intro ⟨_, v, ⟨_, p, hp, htaken, hv⟩, heq⟩
    exact ⟨p, hp, htaken, v, hv, heq⟩
  · intro ⟨p, hp, htaken, v, hv, heq⟩
    exact ⟨hvmid, v, ⟨hnode, p, hp, htaken, hv⟩, heq⟩

/-- No guest is said to have no backup on a missing answer when and only when
every storage was listed, no answer was taken at all, or each guest that is
asked for has a backup on a storage whose answer was taken. -/
theorem verdicts_honest_iff (J : PyJson) (asked : Asked) (vmids : List Str) (now warn crit : Rat) :
    HonestVerdicts J asked (hostBackupStates J asked vmids now warn crit).states ↔
      AllListed J asked ∨ NothingTaken J asked ∨ ∀ vmid ∈ vmids, vmid ≠ [] → Found J asked vmid := by
  have hnone : ∀ vmid, (backupState (collectedRecord J asked vmid) now (backupThresholds warn crit).1
      (backupThresholds warn crit).2 (collectBackups J asked []).jobsKnown).reason = .none ↔
        collectedRecord J asked vmid = none :=
    fun vmid => backupState_none (fun r hr => count_pos hr)
  constructor
  · intro hhonest
    by_contra hcond
    rw [not_or, not_or] at hcond
    obtain ⟨hmissing, htaken, hfound⟩ := hcond
    push Not at hfound
    obtain ⟨vmid, hasked, hvmid, hnot⟩ := hfound
    have hnode : askedNode asked ≠ [] := fun h => htaken (.inl h)
    have hrecord := (record_eq_none hnode hvmid).mpr hnot
    have hstate : (vmid, { state := .red, reason := .none }) ∈
        (hostBackupStates J asked vmids now warn crit).states := by
      refine mem_states.mpr ⟨.inr ⟨hasked, hvmid⟩, ?_⟩
      rw [if_pos (readable_iff.mpr htaken), hrecord]
      rfl
    exact hmissing ((hhonest vmid _ hstate).1 ⟨rfl, rfl⟩)
  · intro hcond vmid st hmem
    obtain ⟨hlisted, hst⟩ := mem_states.mp hmem
    by_cases hread : NothingTaken J asked
    · -- Nothing was read, so every verdict is unknown.
      rw [if_neg (fun h => readable_iff.mp h hread)] at hst
      rw [hst]
      refine ⟨?_, fun _ _ => rfl⟩
      intro ⟨hred, _⟩
      cases hred
    · have hnode : askedNode asked ≠ [] := fun h => hread (.inl h)
      rw [if_pos (readable_iff.mpr hread)] at hst
      by_cases hall : AllListed J asked
      · exact ⟨fun _ => hall, fun hnot => absurd hall hnot⟩
      have hfound := (hcond.resolve_left hall).resolve_left hread
      have hthis : vmid ≠ [] ∧ Found J asked vmid := by
        rcases hlisted with ⟨r, hr⟩ | ⟨hasked, hvmid⟩
        · have hkey := record_isSome.mp (Option.isSome_iff_exists.mpr ⟨r, hr⟩)
          have hvmid := (mem_keys.mp hkey).1
          refine ⟨hvmid, ?_⟩
          by_contra hnot
          rw [(record_eq_none hnode hvmid).mpr hnot] at hr
          cases hr
        · exact ⟨hvmid, hfound vmid hasked hvmid⟩
      refine ⟨?_, fun _ hnot => absurd hthis.2 hnot⟩
      intro ⟨_, hreason⟩
      rw [hst, hnone] at hreason
      exact absurd hthis.2 ((record_eq_none hnode hthis.1).mp hreason)

end

/-! ## A server that is down -/

/-- The list of a local storage and of a backup server. -/
def twoStorages : Str :=
  "[\x7b\"storage\": \"local\", \"type\": \"dir\", \"enabled\": 1, \"active\": 1\x7d, ".toList ++
    "\x7b\"storage\": \"pbs\", \"type\": \"pbs\", \"enabled\": 1, \"active\": 1\x7d]".toList

/-- The row of an active storage. -/
def storageRow (storage type : Str) : Json :=
  .dict [("storage".toList, .str storage), ("type".toList, .str type), ("enabled".toList, .int 1),
    ("active".toList, .int 1)]

/-- `json.loads`, on the texts that the node answers. -/
def sampleJson : PyJson where
  loads text :=
    if text = "[]".toList then some (.list [])
    else if text = twoStorages then some (.list [storageRow "local" "dir", storageRow "pbs" "pbs"])
    else none
  repr _ := []

/-- The local storage has no backups, and the server refuses the connection. -/
def serverDown : Asked := fun n _ =>
  match n with
  | 0 => ⟨true, "pve1", []⟩
  | 1 => ⟨true, twoStorages, []⟩
  | 2 => ⟨true, [], []⟩
  | 3 => ⟨true, "[]", []⟩
  | _ => ⟨false, [], "connection refused"⟩

/-- A guest that is backed up to the server is said to have no backup. -/
theorem none_while_server_down :
    ¬ ∀ (J : PyJson) (asked : Asked) (vmids : List Str) (now warn crit : Rat),
      HonestVerdicts J asked (hostBackupStates J asked vmids now warn crit).states := by
  intro hclaim
  have hstates : (hostBackupStates sampleJson serverDown ["100".toList] 0 36 168).states =
      [("100".toList, { state := .red, reason := .none })] := by decide +kernel
  have hhonest := hclaim sampleJson serverDown ["100".toList] 0 36 168
  rw [hstates] at hhonest
  obtain ⟨-, -, -, hlisted⟩ := (hhonest _ _ List.mem_cons_self).1 ⟨rfl, rfl⟩
  have hserver : ∃ p ∈ nodeStorages sampleJson serverDown,
      (contentAnswer serverDown (askedNode serverDown) p).success = false ∧
        answeredVolumes sampleJson serverDown p = [] := by decide +kernel
  obtain ⟨p, hp, hfailed, hnone⟩ := hserver
  rcases (hlisted p hp).1.2.2 with hok | hvols
  · rw [hfailed] at hok
    cases hok
  · exact hvols hnone

end PveZfsTool.Backups
