import PveZfsTool.Replication.Inventory

/-!
# What a comparison says of each snapshot of the source

A snapshot of the source is shared with a copy, or it is missing there, or its
label is one that the copy never receives.  `compareCopy_accounts` says which
snapshots are in which of these classes, and that there is a fourth one:
snapshots without a label, when the copy carries labels.

* `extractTag_ne_nil`, `label_ne_nil`: no label is empty.
* `mem_excludedLabels`: what the excluded labels are.
* `unlabelled_unaccounted`: a copy in sync that lacks a snapshot of no excluded
  label.
-/

namespace PveZfsTool.Replication

open Text

/-! ## Labels -/

theorem autosnapLabel_ne_nil {s label : Str} (h : autosnapLabel s = some label) : label ≠ [] := by
  induction s with
  | nil => cases h
  | cons c s ih =>
    unfold autosnapLabel at h
    dsimp only at h
    split at h
    · next hmatch =>
      rw [Bool.and_eq_true, decide_eq_true_iff] at hmatch
      rw [← Option.some.inj h]
      exact hmatch.2
    · exact ih h

theorem extractTag_ne_nil {s tag : Str} (h : extractTag s = some tag) : tag ≠ [] := by
  unfold extractTag at h
  split at h
  · next label hlabel =>
    rw [← Option.some.inj h]
    exact autosnapLabel_ne_nil hlabel
  · split at h
    · next default hdefault =>
      rw [← Option.some.inj h]
      have hmem := List.mem_of_find?_eq_some hdefault
      intro hnil
      rw [hnil] at hmem
      exact absurd hmem (by decide)
    · split at h
      · split at h
        · next pre _ hvalid =>
          rw [← Option.some.inj h]
          unfold isValidTag at hvalid
          rw [Bool.and_eq_true, decide_eq_true_iff] at hvalid
          exact hvalid.1
        · cases h
      · cases h

/-- The label of a snapshot of the copy. -/
def Copy.label (c : Copy) (guid : Str) : Option Str := (c.byGuid.get? guid).join

/-- What holds of the label of every row holds of all values of `by_guid`. -/
theorem byGuid_values {P : Option Str → Prop} {snaps : List SnapRow} {d : Dict Str (Option Str)}
    (hd : ∀ k v, d.get? k = some v → P v) (hsnaps : ∀ r ∈ snaps, P (extractTag r.snapshot))
    {k : Str} {v : Option Str}
    (h : (snaps.foldl (fun d r => d.set r.guid (extractTag r.snapshot)) d).get? k = some v) : P v := by
  induction snaps generalizing d with
  | nil => exact hd k v h
  | cons r snaps ih =>
    refine ih ?_ (fun r' hr' => hsnaps r' (List.mem_cons_of_mem _ hr')) h
    intro k' v' hget
    rw [Dict.get?_set] at hget
    split at hget
    · rw [← Option.some.inj hget]
      exact hsnaps r List.mem_cons_self
    · exact hd k' v' hget

section

variable {F : Fleet} {L : List Copy} {source copy : Copy} {guid label : Str}

theorem exists_copyOf (hL : L ∈ groupLineages F) (hsource : source ∈ L) :
    ∃ key, source = copyOf F key := by
  obtain ⟨e, -, rfl⟩ := List.mem_map.mp hL
  obtain ⟨key, -, rfl⟩ := List.mem_map.mp hsource
  exact ⟨key, rfl⟩

theorem label_ne_nil (hL : L ∈ groupLineages F) (hsource : source ∈ L)
    (h : source.label guid = some label) : label ≠ [] := by
  obtain ⟨key, rfl⟩ := exists_copyOf hL hsource
  obtain ⟨v, hget, hv⟩ : ∃ v, (copyOf F key).byGuid.get? guid = some v ∧ v = some label := by
    unfold Copy.label at h
    cases hget : (copyOf F key).byGuid.get? guid with
    | none =>
      rw [hget] at h
      cases h
    | some v =>
      rw [hget] at h
      exact ⟨v, rfl, h⟩
  refine byGuid_values (P := fun v => ∀ l, v = some l → l ≠ []) ?_ ?_ hget label hv
  · intro k v hempty
    rw [Dict.get?_empty] at hempty
    cases hempty
  · intro r _ l hl
    exact extractTag_ne_nil hl

/-- The labels of a copy are those of its snapshots. -/
theorem mem_labels_of_label (hL : L ∈ groupLineages F) (hsource : source ∈ L)
    (h : source.label guid = some label) : label ∈ source.labels := by
  have hne := label_ne_nil hL hsource h
  obtain ⟨key, rfl⟩ := exists_copyOf hL hsource
  have hentry : (guid, some label) ∈ (copyOf F key).byGuid.entries := by
    rw [Dict.mem_entries]
    unfold Copy.label at h
    cases hget : (copyOf F key).byGuid.get? guid with
    | none =>
      rw [hget] at h
      cases h
    | some v =>
      rw [hget] at h
      exact congrArg some h
  show label ∈ (((copyOf F key).byGuid.entries.filterMap Prod.snd).filter (· ≠ [])).dedup
  rw [List.mem_dedup, List.mem_filter, List.mem_filterMap]
  exact ⟨⟨_, hentry, rfl⟩, decide_eq_true hne⟩

/-! ## The classes -/

/-- The copy has not the snapshot. -/
def Lacks (copy : Copy) (guid : Str) : Bool := guid ∉ copy.guids

/-- The copy carries snapshots with the label of this one, or none with any
label. -/
def Expects (source copy : Copy) (guid : Str) : Bool :=
  copy.labels = [] || (source.label guid).any (· ∈ copy.labels)

/-- The label of the snapshot is reported as excluded. -/
def Excluded (source copy : Copy) (guid : Str) : Bool :=
  (source.label guid).any (· ∈ (compareCopy source copy).excludedLabels)

theorem mem_excludedLabels : label ∈ (compareCopy source copy).excludedLabels ↔
    label ∈ source.labels ∧ label ∉ copy.labels ∧ label ≠ [] := by
  unfold compareCopy sortedSet
  dsimp only
  rw [List.mem_insertionSort, List.mem_dedup, List.mem_filter, List.mem_filter]
  simp [and_assoc]

theorem shared_eq : (compareCopy source copy).sharedSnapshots =
    (source.guids.filter (fun g => !Lacks copy g)).length := by
  unfold compareCopy Lacks
  dsimp only
  congr 2
  funext g
  simp

theorem missing_eq : (compareCopy source copy).missingFromSource =
    (source.guids.filter (fun g => Lacks copy g && Expects source copy g)).length := by
  unfold compareCopy Lacks Expects Copy.label
  dsimp only
  split_ifs with hlabels
  · rw [List.filter_filter]
    congr 2
    funext g
    simp [hlabels, Bool.and_comm]
  · rw [ne_eq, not_not] at hlabels
    simp [hlabels]

/-- A snapshot that the copy lacks and does not expect has an excluded label, or
none. -/
theorem excluded_or_unlabelled (hL : L ∈ groupLineages F) (hsource : source ∈ L)
    (hexpects : Expects source copy guid = false) :
    Excluded source copy guid = true ∨ source.label guid = none := by
  unfold Expects at hexpects
  rw [Bool.or_eq_false_iff] at hexpects
  cases hlabel : source.label guid with
  | none => exact .inr rfl
  | some label =>
    left
    unfold Excluded
    rw [hlabel] at hexpects ⊢
    have hnot : label ∉ copy.labels := by simpa using hexpects.2
    rw [Option.any_some, decide_eq_true_iff, mem_excludedLabels]
    exact ⟨mem_labels_of_label hL hsource hlabel, hnot, label_ne_nil hL hsource hlabel⟩

/-- A label that the copy carries is not excluded. -/
theorem not_excluded_of_expects (hlabels : copy.labels ≠ [])
    (hexpects : Expects source copy guid = true) : Excluded source copy guid = false := by
  unfold Expects at hexpects
  unfold Excluded
  rw [decide_eq_false hlabels, Bool.false_or] at hexpects
  cases hlabel : source.label guid with
  | none => rfl
  | some label =>
    rw [hlabel] at hexpects
    have hmem : label ∈ copy.labels := by simpa using hexpects
    rw [Option.any_some, decide_eq_false_iff_not, mem_excludedLabels]
    exact fun h => h.2.1 hmem

theorem length_classes (guids : List Str) :
    (guids.filter (fun g => !Lacks copy g)).length +
        (guids.filter (fun g => Lacks copy g && Expects source copy g)).length +
      (guids.filter (fun g => Lacks copy g && !Expects source copy g)).length = guids.length := by
  induction guids with
  | nil => rfl
  | cons g guids ih =>
    cases hlacks : Lacks copy g
    · simp [hlacks]
      omega
    · cases hexpects : Expects source copy g
      · simp [hlacks, hexpects]
        omega
      · simp [hlacks, hexpects]
        omega

theorem missing_zero_of_inSync (h : (compareCopy source copy).inSync = true) :
    (compareCopy source copy).missingFromSource = 0 := by
  unfold compareCopy at h ⊢
  dsimp only at h ⊢
  rw [Bool.and_eq_true, decide_eq_true_iff, decide_eq_true_iff] at h
  rw [h.2]
  rfl

/-- A snapshot of the source is counted as shared when the copy has it.  Any
other one is counted as missing when the copy carries its label, or no label at
all, and otherwise its label is reported as excluded, or it has none.  A
missing one has an excluded label only when the copy carries no labels.  So
what a copy in sync lacks has an excluded label or none. -/
theorem compareCopy_accounts (hL : L ∈ groupLineages F) (hsource : source ∈ L) :
    let cmp := compareCopy source copy
    let unexpected := fun g => Lacks copy g && !Expects source copy g
    cmp.sharedSnapshots = (source.guids.filter (fun g => !Lacks copy g)).length ∧
      cmp.missingFromSource =
        (source.guids.filter (fun g => Lacks copy g && Expects source copy g)).length ∧
      cmp.sharedSnapshots + cmp.missingFromSource + (source.guids.filter unexpected).length =
        source.guids.length ∧
      (∀ g, unexpected g = true → Excluded source copy g = true ∨ source.label g = none) ∧
      (∀ g, copy.labels ≠ [] → Expects source copy g = true → Excluded source copy g = false) ∧
      (cmp.inSync = true → ∀ g ∈ source.guids, Lacks copy g = true →
        Excluded source copy g = true ∨ source.label g = none) := by
  intro cmp unexpected
  have hshared : cmp.sharedSnapshots = _ := shared_eq
  have hmissing : cmp.missingFromSource = _ := missing_eq
  refine ⟨hshared, hmissing, ?_, ?_, ?_, ?_⟩
  · rw [hshared, hmissing]
    exact length_classes source.guids
  · intro g hg
    rw [Bool.and_eq_true, Bool.not_eq_true'] at hg
    exact excluded_or_unlabelled hL hsource hg.2
  · intro g hlabels hexpects
    exact not_excluded_of_expects hlabels hexpects
  · intro hsync g hg hlacks
    have hzero := missing_zero_of_inSync hsync
    rw [missing_eq, List.length_eq_zero_iff, List.filter_eq_nil_iff] at hzero
    have hexpects := hzero g hg
    rw [hlacks, Bool.true_and, Bool.not_eq_true] at hexpects
    exact excluded_or_unlabelled hL hsource hexpects

end

/-! ## A snapshot without a label -/

/-- Two hosts that share an hourly snapshot.  The first one has another, taken
by hand. -/
def handmade : Fleet :=
  ⟨[("a", [⟨"d", "zfs-auto-snap_hourly-1", "g1", 10⟩, ⟨"d", "before-upgrade", "g2", 20⟩]),
    ("b", [⟨"d", "zfs-auto-snap_hourly-1", "g1", 10⟩])], by decide⟩

theorem handmade_lineage :
    [copyOf handmade ("a", "d"), copyOf handmade ("b", "d")] ∈ groupLineages handmade := by
  decide

theorem compareCopy_accounts_handmade :
    (compareCopy (copyOf handmade ("a", "d")) (copyOf handmade ("b", "d"))).inSync = true ∧
      (copyOf handmade ("a", "d")).label "g2" = none :=
  have h := @compareCopy_accounts handmade _ (copyOf handmade ("a", "d"))
    (copyOf handmade ("b", "d")) handmade_lineage List.mem_cons_self
  ⟨by decide, (h.2.2.2.2.2 (by decide) "g2" (by decide) (by decide)).resolve_left (by decide)⟩

/-- The copy is in sync, and the snapshot is neither shared nor missing nor of
an excluded label. -/
theorem unlabelled_unaccounted : ¬ ∀ (F : Fleet) (L : List Copy) (source copy : Copy),
    L ∈ groupLineages F → source ∈ L → copy ∈ L →
      (compareCopy source copy).sharedSnapshots + (compareCopy source copy).missingFromSource +
        (source.guids.filter (fun g => Lacks copy g && Excluded source copy g)).length =
          source.guids.length := by
  intro hclaim
  have hcount := hclaim handmade _ _ _ handmade_lineage List.mem_cons_self
    (List.mem_cons_of_mem _ List.mem_cons_self)
  exact absurd hcount (by decide)

end PveZfsTool.Replication
