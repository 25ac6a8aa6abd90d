import PveZfsTool.Zfs.SnapAges

/-!
# Discovered tags and filed snapshots

`discover_tags` takes the tag out of each name alone.  `get_snapshot_ages`
searches a name for all selected tags, wherever they stand.  With the
discovered tags selected, the two agree on all names when and only when they
are `Clear`: no tag stands in a name before the name's own (`filedByTag_iff`).
-/

namespace PveZfsTool

open Text

variable {names : List Str} {name t u : Str}

/-! ## The tag of a name stands in it -/

theorem prefix_autosnapLabel (h : autosnapLabel name = some t) : ∃ i, t <+: name.drop i := by
  induction name with
  | nil => cases h
  | cons c s ih =>
    unfold autosnapLabel at h
    dsimp only at h
    split at h
    · obtain rfl := Option.some.inj h
      exact ⟨14, List.takeWhile_prefix _⟩
    · obtain ⟨i, hi⟩ := ih h
      exact ⟨i + 1, hi⟩

theorem prefix_stampPrefix (h : stampPrefix name = some t) : t <+: name := by
  induction name generalizing t with
  | nil => cases h
  | cons c s ih =>
    unfold stampPrefix at h
    split_ifs at h
    · obtain rfl := Option.some.inj h
      exact List.nil_prefix
    · obtain ⟨u, hu, rfl⟩ := Option.map_eq_some_iff.mp h
      exact List.cons_prefix_cons.mpr ⟨rfl, ih hu⟩

theorem prefix_rstripSeparators (s : Str) : rstripSeparators s <+: s := by
  rw [rstripSeparators, ← List.reverse_suffix, List.reverse_reverse]
  exact List.dropWhile_suffix _

/-- The tag of a name stands somewhere in it. -/
theorem prefix_extractTag (h : extractTag name = some t) : ∃ i, t <+: name.drop i := by
  unfold extractTag at h
  cases hauto : autosnapLabel name with
  | some label =>
    rw [hauto] at h
    obtain rfl := Option.some.inj h
    exact prefix_autosnapLabel hauto
  | none =>
    rw [hauto] at h
    dsimp only at h
    cases hknown : defaultTags.find? (contains name) with
    | some tag =>
      rw [hknown] at h
      obtain rfl := Option.some.inj h
      have hcontains := List.find?_some hknown
      obtain ⟨a, b, rfl⟩ := of_decide_eq_true hcontains
      refine ⟨a.length, ?_⟩
      rw [List.append_assoc, List.drop_left]
      exact List.prefix_append _ _
    | none =>
      rw [hknown] at h
      dsimp only at h
      cases hstamp : stampPrefix name with
      | none =>
        rw [hstamp] at h
        cases h
      | some pre =>
        rw [hstamp] at h
        dsimp only at h
        split_ifs at h
        obtain rfl := Option.some.inj h
        exact ⟨0, (prefix_rstripSeparators pre).trans (prefix_stampPrefix hstamp)⟩

/-! ## The selected tags -/

theorem mem_keys_tally {ts : List Str} {d : Dict Str Nat} :
    t ∈ (ts.foldl (fun d t => d.alter t (fun o => o.getD 0 + 1)) d).keys ↔ t ∈ d.keys ∨ t ∈ ts := by
  induction ts generalizing d with
  | nil => simp
  | cons u ts ih =>
    rw [List.foldl_cons, ih, Dict.mem_keys_alter, List.mem_cons, or_assoc, or_left_comm]

theorem mem_keys_discoverTags :
    t ∈ (discoverTags names).keys ↔ t ≠ [] ∧ ∃ n ∈ names, extractTag n = some t := by
  rw [discoverTags, mem_keys_tally, List.mem_filter, List.mem_filterMap, decide_eq_true_eq, and_comm]
  exact or_iff_right List.not_mem_nil

theorem isValidTag_ne_nil (h : isValidTag t = true) : t ≠ [] := by
  rw [isValidTag, Bool.and_eq_true, decide_eq_true_eq] at h
  exact h.1

/-- The tags of the pattern: those of the names, as far as they are valid. -/
theorem mem_labelOrder_selected :
    t ∈ labelOrder (selectedTags (discoverTags names).keys) ↔
      isValidTag t = true ∧ ∃ n ∈ names, extractTag n = some t := by
  have hsorted : ∀ ts : List Str, t ∈ sortedSet ts ↔ t ∈ ts := by
    intro ts
    rw [sortedSet, List.mem_insertionSort, List.mem_dedup]
  rw [mem_labelOrder, selectedTags, List.mem_filter, hsorted, List.mem_filter, mem_keys_discoverTags]
  constructor
  · rintro ⟨⟨⟨⟨-, hn⟩, -⟩, -⟩, hvalid⟩
    exact ⟨hvalid, hn⟩
  · rintro ⟨hvalid, hn⟩
    exact ⟨⟨⟨⟨isValidTag_ne_nil hvalid, hn⟩, hvalid⟩, hvalid⟩, hvalid⟩

theorem prefix_of_find? {ordered : List Str} (h : ordered.find? (startsWith name) = some t) :
    t <+: name := by
  have hstart := List.find?_some h
  exact List.isPrefixOf_iff_prefix.mp hstart

/-! ## Agreement -/

/-- With the discovered tags selected, every name is filed under its own tag,
and under manual if it has none. -/
def FiledByTag (names : List Str) : Prop :=
  ∀ n ∈ names, labelOf (selectedTags (discoverTags names).keys) n = extractTag n

instance (names : List Str) : Decidable (FiledByTag names) :=
  inferInstanceAs (Decidable (∀ n ∈ names, _ = _))

/-- Every tag of the names is valid, and where one stands in a name, the name's
own tag stands before it, or at the same place and is as long. -/
def Clear (names : List Str) : Prop :=
  (∀ n ∈ names, ∀ t, extractTag n = some t → isValidTag t = true) ∧
    ∀ n ∈ names, ∀ m ∈ names, ∀ u, extractTag m = some u → ∀ i, u <+: n.drop i →
      ∃ t, extractTag n = some t ∧ ∃ j ≤ i, t <+: n.drop j ∧ (j = i → u.length ≤ t.length)

theorem clear_of_filedByTag (h : FiledByTag names) : Clear names := by
  have hvalid : ∀ n ∈ names, ∀ t, extractTag n = some t → isValidTag t = true := by
    intro n hn t ht
    obtain ⟨i, hfind, -⟩ := searchLabel_eq_some ((h n hn).trans ht)
    exact (mem_labelOrder_selected.mp (List.mem_of_find?_eq_some hfind)).1
  refine ⟨hvalid, fun n hn m hm u hu i hprefix => ?_⟩
  have hselected : u ∈ labelOrder (selectedTags (discoverTags names).keys) :=
    mem_labelOrder_selected.mpr ⟨hvalid m hm u hu, m, hm, hu⟩
  cases hlabel : labelOf (selectedTags (discoverTags names).keys) n with
  | none => exact absurd hprefix (searchLabel_eq_none.mp hlabel i u hselected)
  | some t =>
    obtain ⟨j, hfind, hbefore⟩ := searchLabel_eq_some hlabel
    refine ⟨t, (h n hn).symm.trans hlabel, j, ?_, ?_, ?_⟩
    · exact not_lt.mp (fun hlt => hbefore i hlt u hselected hprefix)
    · exact prefix_of_find? hfind
    · rintro rfl
      exact length_le_of_find? hfind hselected hprefix

theorem filedByTag_of_clear (h : Clear names) : FiledByTag names := by
  obtain ⟨hvalid, hplace⟩ := h
  intro n hn
  cases hlabel : labelOf (selectedTags (discoverTags names).keys) n with
  | none =>
    -- a tag of its own would have been found
    cases htag : extractTag n with
    | none => rfl
    | some t =>
      obtain ⟨i, hprefix⟩ := prefix_extractTag htag
      have hselected : t ∈ labelOrder (selectedTags (discoverTags names).keys) :=
        mem_labelOrder_selected.mpr ⟨hvalid n hn t htag, n, hn, htag⟩
      exact absurd hprefix (searchLabel_eq_none.mp hlabel i t hselected)
  | some u =>
    obtain ⟨i, hfind, hbefore⟩ := searchLabel_eq_some hlabel
    obtain ⟨-, m, hm, hu⟩ := mem_labelOrder_selected.mp (List.mem_of_find?_eq_some hfind)
    have hprefix : u <+: n.drop i := prefix_of_find? hfind
    obtain ⟨t, htag, j, hj, hown, hlength⟩ := hplace n hn m hm u hu i hprefix
    have hselected : t ∈ labelOrder (selectedTags (discoverTags names).keys) :=
      mem_labelOrder_selected.mpr ⟨hvalid n hn t htag, n, hn, htag⟩
    obtain rfl : j = i := by
      obtain hlt | heq := Nat.lt_or_eq_of_le hj
      · exact absurd hown (hbefore j hlt t hselected)
      · exact heq
    have hle := length_le_of_find? hfind hselected hown
    have hsame : u.length = t.length := Nat.le_antisymm (hlength rfl) hle
    rw [htag, List.IsPrefix.eq_of_length (List.prefix_of_prefix_length_le hprefix hown hsame.le) hsame]

/-- The names agree with the discovery if and only if they are clear. -/
theorem filedByTag_iff (names : List Str) : FiledByTag names ↔ Clear names :=
  ⟨clear_of_filedByTag, filedByTag_of_clear⟩

/-- A manual snapshot with the tag of another in its name. -/
theorem manual_name_filed : ¬ ∀ names : List Str, FiledByTag names := by
  intro hclaim
  have hnames := hclaim ["nas_2026-01-02".toList, "mynas".toList]
  revert hnames
  decide

end PveZfsTool
