import PveZfsTool.Host
import PveZfsTool.Lib.Dict
import PveZfsTool.Lib.Median
import PveZfsTool.Lib.Newest
import PveZfsTool.Zfs.SnapTags

/-!
# Snapshots by dataset and label

`get_snapshot_ages` of `app/zfs_commands.py` files the snapshots of a listing
under the selected tag that it finds in the name, and the others under manual.
`snaptags.py` makes the pattern of the selected tags.

* `searchLabel_eq_some`: the tag that is found stands leftmost in the name, and
  is the longest there.
* `Filed` is what the loop keeps, with `filed_fileSnapshot` for one snapshot.
* `info?_spec` and `manual_listingAges` say what is filed for a whole listing.
-/

namespace PveZfsTool

open Text Median

/-! ## Tags -/

/-- `discover_tags` -/
def discoverTags (snapshotNames : List Str) : Dict Str Nat :=
  ((snapshotNames.filterMap extractTag).filter (· ≠ [])).foldl
    (fun d t => d.alter t (fun o => o.getD 0 + 1)) Dict.empty

/-- The tags that `load_tag_selection` gives back after `save_tag_selection`. -/
def selectedTags (tags : List Str) : List Str :=
  (sortedSet (tags.filter isValidTag)).filter isValidTag

/-- `ordered` in `build_label_regex`.  The order of two tags of one length is
that of a set. -/
def labelOrder (tags : List Str) : List Str :=
  (tags.filter isValidTag).dedup.insertionSort (fun s t => t.length ≤ s.length)

/-- `search` with the alternation of the texts: the first of them at the
leftmost place where one stands. -/
def searchLabel (ordered : List Str) : Str → Option Str
  | [] => ordered.find? (startsWith [])
  | c :: s =>
      match ordered.find? (startsWith (c :: s)) with
      | some t => some t
      | none => searchLabel ordered s

/-- The tag that a snapshot is filed under, of those that are selected. -/
def labelOf (tags : List Str) (name : Str) : Option Str := searchLabel (labelOrder tags) name

/-! ## The listing -/

/-- A snapshot of the listing. -/
structure ListedSnapshot where
  dataset : Str
  name : Str
  creation : Int
  deriving DecidableEq

/-- A line with a tab, an `@` in the name and a whole creation time. -/
def snapshotOfLine (line : Str) : Option ListedSnapshot :=
  match splitOn '\t' line with
  | name :: creation :: _ =>
      if '@' ∈ name then
        (toInt? creation).map fun n =>
          { dataset := (name.reverse.dropWhile (· ≠ '@')).tail.reverse
            name := afterLast '@' name
            creation := n }
      else none
  | _ => none

/-- The valid lines of the listing. -/
def listedSnapshots (stdout : Str) : List ListedSnapshot :=
  (splitLines (strip stdout)).filterMap snapshotOfLine

/-! ## Filing -/

/-- The entry of a dataset and a label. -/
structure AgeInfo where
  count : Nat
  oldest : Int
  newest : Int
  timestamps : List Int
  deriving DecidableEq

/-- An entry before its first snapshot. -/
def AgeInfo.start (creation : Int) : AgeInfo where
  count := 0
  oldest := creation
  newest := creation
  timestamps := []

/-- One more snapshot. -/
def AgeInfo.add (info : AgeInfo) (creation : Int) : AgeInfo where
  count := info.count + 1
  timestamps := info.timestamps ++ [creation]
  oldest := if creation < info.oldest then creation else info.oldest
  newest := if info.newest < creation then creation else info.newest

/-- The result of `get_snapshot_ages`. -/
structure SnapshotAges where
  datasets : Dict Str (Dict Str AgeInfo)
  manual : Dict Str (List (Str × Int))

/-- One turn of the loop. -/
def fileSnapshot (tags : List Str) (ages : SnapshotAges) (s : ListedSnapshot) : SnapshotAges :=
  match labelOf tags s.name with
  | none => { ages with manual := ages.manual.push s.dataset (s.name, s.creation) }
  | some label =>
      { ages with
        datasets := ages.datasets.alter s.dataset (fun labels =>
          (labels.getD Dict.empty).alter label (fun info =>
            (info.getD (.start s.creation)).add s.creation)) }

/-- `info["timestamps"].sort()` -/
def AgeInfo.sort (info : AgeInfo) : AgeInfo := { info with timestamps := sorted info.timestamps }

/-- `get_snapshot_ages`, with the tags of `effective_tags` -/
def getSnapshotAges (tags : List Str) (result : Answer) : SnapshotAges :=
  if result.success then
    let ages := (listedSnapshots result.stdout).foldl (fileSnapshot tags) ⟨Dict.empty, Dict.empty⟩
    { ages with datasets := ages.datasets.mapValues (Dict.mapValues AgeInfo.sort) }
  else ⟨Dict.empty, Dict.empty⟩

/-! ## The search -/

section Search

variable {ordered : List Str} {s t u : Str}

theorem searchLabel_eq_none :
    searchLabel ordered s = none ↔ ∀ i, ∀ u ∈ ordered, ¬ u <+: s.drop i := by
  induction s with
  | nil =>
    rw [searchLabel, List.find?_eq_none]
    constructor
    · intro h i u hu hprefix
      rw [List.drop_nil] at hprefix
      exact h u hu (List.isPrefixOf_iff_prefix.mpr hprefix)
    · intro h u hu hstart
      exact h 0 u hu (List.isPrefixOf_iff_prefix.mp hstart)
  | cons c s ih =>
    rw [searchLabel]
    cases hfind : ordered.find? (startsWith (c :: s)) with
    | some t =>
      constructor
      · intro h
        cases h
      · intro h
        have ht := List.find?_some hfind
        exact absurd (List.isPrefixOf_iff_prefix.mp ht) (h 0 t (List.mem_of_find?_eq_some hfind))
    | none =>
      rw [List.find?_eq_none] at hfind
      show searchLabel ordered s = none ↔ _
      rw [ih]
      constructor
      · intro h i u hu
        cases i with
        | zero => exact fun hprefix => hfind u hu (List.isPrefixOf_iff_prefix.mpr hprefix)
        | succ i => exact h i u hu
      · intro h i u hu
        exact h (i + 1) u hu

/-- The text that is found is the first of the alternation at the leftmost
place where one of them stands. -/
theorem searchLabel_eq_some (h : searchLabel ordered s = some t) :
    ∃ i, ordered.find? (startsWith (s.drop i)) = some t ∧ ∀ j < i, ∀ u ∈ ordered, ¬ u <+: s.drop j := by
  induction s with
  | nil => exact ⟨0, h, fun j hj => absurd hj (Nat.not_lt_zero j)⟩
  | cons c s ih =>
    rw [searchLabel] at h
    cases hfind : ordered.find? (startsWith (c :: s)) with
    | some t' =>
      rw [hfind] at h
      obtain rfl := Option.some.inj h
      exact ⟨0, hfind, fun j hj => absurd hj (Nat.not_lt_zero j)⟩
    | none =>
      rw [hfind] at h
      obtain ⟨i, hi, hbefore⟩ := ih h
      refine ⟨i + 1, hi, fun j hj u hu => ?_⟩
      cases j with
      | zero =>
        intro hprefix
        exact List.find?_eq_none.mp hfind u hu (List.isPrefixOf_iff_prefix.mpr hprefix)
      | succ j => exact hbefore j (Nat.lt_of_succ_lt_succ hj) u hu

variable {tags : List Str}

theorem mem_labelOrder : t ∈ labelOrder tags ↔ t ∈ tags ∧ isValidTag t = true := by
  rw [labelOrder, List.mem_insertionSort, List.mem_dedup, List.mem_filter]

theorem labelOrder_pairwise : (labelOrder tags).Pairwise (fun s t => t.length ≤ s.length) :=
  have : IsTrans Str (fun s t => t.length ≤ s.length) := ⟨fun _ _ _ h h' => h'.trans h⟩
  have : Std.Total (fun s t : Str => t.length ≤ s.length) := ⟨fun s t => Nat.le_total t.length s.length⟩
  List.pairwise_insertionSort _ _

/-- The first that stands at a place is the longest there. -/
theorem length_le_of_find? (h : (labelOrder tags).find? (startsWith s) = some t)
    (hu : u ∈ labelOrder tags) (hstarts : u <+: s) : u.length ≤ t.length := by
  obtain ⟨-, before, after, horder, hbefore⟩ := List.find?_eq_some_iff_append.mp h
  have hpairwise : (labelOrder tags).Pairwise (fun s t => t.length ≤ s.length) := labelOrder_pairwise
  rw [horder] at hu hpairwise
  obtain hu | hu := List.mem_append.mp hu
  · have hnot := hbefore u hu
    rw [startsWith, List.isPrefixOf_iff_prefix.mpr hstarts] at hnot
    cases hnot
  · obtain rfl | hu := List.mem_cons.mp hu
    · exact Nat.le_refl _
    · exact List.rel_of_pairwise_cons (List.pairwise_append.mp hpairwise).2.1 hu

end Search

/-! ## The groups -/

section Groups

variable {tags : List Str} {snaps : List ListedSnapshot} {ages : SnapshotAges} {dataset label : Str}

/-- The entry after snapshots of these times. -/
def infoOf (creations : List Int) : Option AgeInfo :=
  creations.foldl (fun info c => some ((info.getD (.start c)).add c)) none

theorem infoOf_append (creations : List Int) (c : Int) :
    infoOf (creations ++ [c]) = some (((infoOf creations).getD (.start c)).add c) := by
  rw [infoOf, List.foldl_append]
  rfl

theorem infoOf_eq_none {creations : List Int} : infoOf creations = none ↔ creations = [] := by
  obtain rfl | ⟨init, c, rfl⟩ := List.eq_nil_or_concat creations
  · exact iff_of_true rfl rfl
  · rw [List.concat_eq_append, infoOf_append]
    simp

/-- The entry has the number of the times, the least and the greatest. -/
structure AgeInfo.Describes (info : AgeInfo) (creations : List Int) : Prop where
  count : info.count = creations.length
  oldest_mem : info.oldest ∈ creations
  oldest_le : ∀ c ∈ creations, info.oldest ≤ c
  newest_mem : info.newest ∈ creations
  le_newest : ∀ c ∈ creations, c ≤ info.newest

theorem AgeInfo.Describes.add {info : AgeInfo} {creations : List Int} (h : info.Describes creations)
    (c : Int) : (info.add c).Describes (creations ++ [c]) where
  count := by
    rw [List.length_append, ← h.count]
    rfl
  oldest_mem := by
    show (if c < info.oldest then c else info.oldest) ∈ _
    split
    · exact List.mem_append_right _ (List.mem_singleton.mpr rfl)
    · exact List.mem_append_left _ h.oldest_mem
  oldest_le d hd := by
    show (if c < info.oldest then c else info.oldest) ≤ d
    obtain hd | hd := List.mem_append.mp hd
    · have hle := h.oldest_le d hd
      split <;> omega
    · rw [List.mem_singleton.mp hd]
      split <;> omega
  newest_mem := by
    show (if info.newest < c then c else info.newest) ∈ _
    split
    · exact List.mem_append_right _ (List.mem_singleton.mpr rfl)
    · exact List.mem_append_left _ h.newest_mem
  le_newest d hd := by
    show d ≤ (if info.newest < c then c else info.newest)
    obtain hd | hd := List.mem_append.mp hd
    · have hle := h.le_newest d hd
      split <;> omega
    · rw [List.mem_singleton.mp hd]
      split <;> omega

theorem describes_start (c : Int) : ((AgeInfo.start c).add c).Describes [c] where
  count := rfl
  oldest_mem := by simp [AgeInfo.add, AgeInfo.start]
  oldest_le d hd := by simp [AgeInfo.add, AgeInfo.start, List.mem_singleton.mp hd]
  newest_mem := by simp [AgeInfo.add, AgeInfo.start]
  le_newest d hd := by simp [AgeInfo.add, AgeInfo.start, List.mem_singleton.mp hd]

theorem infoOf_spec {creations : List Int} {info : AgeInfo} (h : infoOf creations = some info) :
    info.Describes creations ∧ info.timestamps = creations := by
  induction creations using List.reverseRecOn generalizing info with
  | nil => cases h
  | append_singleton creations c ih =>
    rw [infoOf_append] at h
    obtain rfl := Option.some.inj h
    cases hbefore : infoOf creations with
    | none =>
      rw [infoOf_eq_none.mp hbefore]
      exact ⟨describes_start c, rfl⟩
    | some before =>
      obtain ⟨hdescribes, htimes⟩ := ih hbefore
      refine ⟨hdescribes.add c, ?_⟩
      show before.timestamps ++ [c] = _
      rw [htimes]

/-- The snapshots that are filed under the label. -/
def labelled (tags : List Str) (snaps : List ListedSnapshot) (dataset label : Str) :
    List ListedSnapshot :=
  snaps.filter (fun s => s.dataset = dataset && labelOf tags s.name = some label)

/-- The snapshots that are filed under manual. -/
def manualOf (tags : List Str) (snaps : List ListedSnapshot) (dataset : Str) : List ListedSnapshot :=
  snaps.filter (fun s => s.dataset = dataset && labelOf tags s.name = none)

/-- The entry of a dataset and a label. -/
def SnapshotAges.info? (ages : SnapshotAges) (dataset label : Str) : Option AgeInfo :=
  (ages.datasets.get? dataset).bind (fun labels => labels.get? label)

/-- What the loop keeps: each group has its snapshots so far. -/
structure Filed (tags : List Str) (snaps : List ListedSnapshot) (ages : SnapshotAges) : Prop where
  info : ∀ dataset label, ages.info? dataset label =
    infoOf ((labelled tags snaps dataset label).map ListedSnapshot.creation)
  manual : ∀ dataset, (ages.manual.get? dataset).getD [] =
    (manualOf tags snaps dataset).map (fun s => (s.name, s.creation))

theorem info?_alter (ages : SnapshotAges) (s : ListedSnapshot) (found : Str) :
    { ages with
      datasets := ages.datasets.alter s.dataset (fun labels =>
        (labels.getD Dict.empty).alter found (fun info =>
          (info.getD (.start s.creation)).add s.creation)) }.info? dataset label =
      if dataset = s.dataset ∧ label = found then
        some (((ages.info? dataset label).getD (.start s.creation)).add s.creation)
      else ages.info? dataset label := by
  unfold SnapshotAges.info?
  rw [Dict.get?_alter]
  by_cases hdataset : dataset = s.dataset
  · subst hdataset
    rw [if_pos rfl, Option.bind_some, Dict.get?_alter]
    by_cases hlabel : label = found
    · subst hlabel
      rw [if_pos rfl, if_pos ⟨rfl, rfl⟩]
      cases ages.datasets.get? s.dataset with
      | none => rfl
      | some labels => rfl
    · rw [if_neg hlabel, if_neg (fun h => hlabel h.2)]
      cases ages.datasets.get? s.dataset with
      | none => rfl
      | some labels => rfl
  · rw [if_neg hdataset, if_neg (fun h => hdataset h.1)]

theorem filed_fileSnapshot (h : Filed tags snaps ages) (s : ListedSnapshot) :
    Filed tags (snaps ++ [s]) (fileSnapshot tags ages s) := by
  unfold fileSnapshot
  cases hlabel : labelOf tags s.name with
  | none =>
    constructor
    · intro dataset label
      have hsame : labelled tags (snaps ++ [s]) dataset label = labelled tags snaps dataset label := by
        simp [labelled, hlabel]
      rw [hsame]
      exact h.info dataset label
    · intro dataset
      show ((ages.manual.push s.dataset (s.name, s.creation)).get? dataset).getD [] = _
      rw [Dict.push, Dict.get?_alter, manualOf, List.filter_append, List.map_append]
      have hbefore := h.manual dataset
      by_cases hdataset : dataset = s.dataset
      · subst hdataset
        rw [if_pos rfl, Option.getD_some, hbefore]
        simp [hlabel, manualOf]
      · rw [if_neg hdataset, hbefore]
        simp [Ne.symm hdataset, manualOf]
  | some found =>
    constructor
    · intro dataset label
      show SnapshotAges.info? _ dataset label = _
      rw [info?_alter, h.info]
      by_cases hgroup : dataset = s.dataset ∧ label = found
      · obtain ⟨rfl, rfl⟩ := hgroup
        have hone : (labelled tags (snaps ++ [s]) s.dataset label).map ListedSnapshot.creation =
            (labelled tags snaps s.dataset label).map ListedSnapshot.creation ++ [s.creation] := by
          simp [labelled, hlabel]
        rw [if_pos ⟨rfl, rfl⟩, hone, infoOf_append]
      · rw [if_neg hgroup]
        have hout : (decide (s.dataset = dataset) && decide (labelOf tags s.name = some label)) = false := by
          rw [hlabel, Bool.and_eq_false_iff, decide_eq_false_iff_not, decide_eq_false_iff_not]
          by_cases hdataset : s.dataset = dataset
          · exact .inr (fun heq => hgroup ⟨hdataset.symm, (Option.some.inj heq).symm⟩)
          · exact .inl hdataset
        simp [labelled, hout]
    · intro dataset
      have hsame : manualOf tags (snaps ++ [s]) dataset = manualOf tags snaps dataset := by
        simp [manualOf, hlabel]
      rw [hsame]
      exact h.manual dataset

theorem filed_foldl (tags : List Str) (snaps : List ListedSnapshot) :
    Filed tags snaps (snaps.foldl (fileSnapshot tags) ⟨Dict.empty, Dict.empty⟩) := by
  induction snaps using List.reverseRecOn with
  | nil => exact ⟨fun _ _ => rfl, fun _ => rfl⟩
  | append_singleton snaps s ih =>
    rw [List.foldl_append]
    exact filed_fileSnapshot ih s

/-- The timestamps are in order, and the other fields are consistent with
them. -/
structure AgeInfo.Consistent (info : AgeInfo) : Prop where
  sorted : info.timestamps.Pairwise (· ≤ ·)
  count : info.count = info.timestamps.length
  oldest_mem : info.oldest ∈ info.timestamps
  oldest_le : ∀ c ∈ info.timestamps, info.oldest ≤ c
  newest_mem : info.newest ∈ info.timestamps
  le_newest : ∀ c ∈ info.timestamps, c ≤ info.newest

theorem consistent_sort {info : AgeInfo} (h : info.Describes info.timestamps) :
    info.sort.Consistent where
  sorted := sorted_pairwise _
  count := h.count.trans length_sorted.symm
  oldest_mem := (perm_sorted _).mem_iff.mpr h.oldest_mem
  oldest_le c hc := h.oldest_le c ((perm_sorted _).mem_iff.mp hc)
  newest_mem := (perm_sorted _).mem_iff.mpr h.newest_mem
  le_newest c hc := h.le_newest c ((perm_sorted _).mem_iff.mp hc)

section Result

variable {stdout : Str}

/-- The result for a listing. -/
def listingAges (tags : List Str) (stdout : Str) : SnapshotAges :=
  getSnapshotAges tags { success := true, stdout := stdout, stderr := [] }

theorem info?_listingAges : (listingAges tags stdout).info? dataset label =
    (infoOf ((labelled tags (listedSnapshots stdout) dataset label).map
      ListedSnapshot.creation)).map AgeInfo.sort := by
  have hfiled := (filed_foldl tags (listedSnapshots stdout)).info dataset label
  rw [← hfiled]
  show ((Dict.mapValues _ _).get? dataset).bind _ = _
  rw [Dict.get?_mapValues]
  unfold SnapshotAges.info?
  cases ((listedSnapshots stdout).foldl (fileSnapshot tags) ⟨Dict.empty, Dict.empty⟩).datasets.get?
      dataset with
  | none => rfl
  | some labels => exact Dict.get?_mapValues

/-- A group has an entry if it has a snapshot. -/
theorem info?_eq_none : (listingAges tags stdout).info? dataset label = none ↔
    labelled tags (listedSnapshots stdout) dataset label = [] := by
  rw [info?_listingAges, Option.map_eq_none_iff, infoOf_eq_none, List.map_eq_nil_iff]

/-- The entry has the timestamps of the group, and is consistent. -/
theorem info?_spec {info : AgeInfo} (h : (listingAges tags stdout).info? dataset label = some info) :
    info.Consistent ∧ info.timestamps.Perm
      ((labelled tags (listedSnapshots stdout) dataset label).map ListedSnapshot.creation) := by
  rw [info?_listingAges] at h
  obtain ⟨info', hinfo', rfl⟩ := Option.map_eq_some_iff.mp h
  obtain ⟨hdescribes, htimes⟩ := infoOf_spec hinfo'
  rw [← htimes] at hdescribes ⊢
  exact ⟨consistent_sort hdescribes, perm_sorted _⟩

theorem manual_listingAges : ((listingAges tags stdout).manual.get? dataset).getD [] =
    (manualOf tags (listedSnapshots stdout) dataset).map (fun s => (s.name, s.creation)) :=
  (filed_foldl tags (listedSnapshots stdout)).manual dataset

end Result

end Groups

end PveZfsTool
