import PveZfsTool.Lib.Text
import Mathlib.Data.List.Sort
import Mathlib.Data.List.Lex
import Mathlib.Data.List.MinMax
import Mathlib.Data.Char

/-!
# The greatest entries of a list

`allBut n xs` has the entries of `xs` apart from the `n` greatest.
`mem_allBut_iff` counts them from the other side: an entry is in `allBut n xs`
when at least `n` entries are above it.

`argmax_insert_of_lt` says that an entry below another one does not count for
the first greatest, `List.argmax`.

`le_iff` says that texts are compared in the order of lists.
-/

namespace Newest

section

variable {α : Type} [LinearOrder α] {n : Nat} {xs : List α} {x : α}

/-- The entries above `x`. -/
def above (x : α) (xs : List α) : List α := xs.filter (x < ·)

/-- The entries apart from the `n` greatest, the least first. -/
def allBut (n : Nat) (xs : List α) : List α := (xs.insertionSort (· ≤ ·)).take (xs.length - n)

theorem exists_greatest (h : xs ≠ []) : ∃ m ∈ xs, ∀ x ∈ xs, x ≤ m := by
  induction xs with
  | nil => exact absurd rfl h
  | cons y ys ih =>
    by_cases hys : ys = []
    · refine ⟨y, List.mem_cons_self, fun x hx => ?_⟩
      rw [hys, List.mem_singleton] at hx
      exact le_of_eq hx
    · obtain ⟨m, hm, hgreatest⟩ := ih hys
      rcases le_total y m with hym | hmy
      · refine ⟨m, List.mem_cons_of_mem _ hm, fun x hx => ?_⟩
        rcases List.mem_cons.mp hx with rfl | hx
        · exact hym
        · exact hgreatest x hx
      · refine ⟨y, List.mem_cons_self, fun x hx => ?_⟩
        rcases List.mem_cons.mp hx with rfl | hx
        · exact le_refl _
        · exact (hgreatest x hx).trans hmy

theorem exists_least (h : xs ≠ []) : ∃ m ∈ xs, ∀ x ∈ xs, m ≤ x :=
  @exists_greatest αᵒᵈ _ xs h

theorem above_greatest (h : ∀ y ∈ xs, y ≤ x) : above x xs = [] := by
  unfold above
  rw [List.filter_eq_nil_iff]
  intro y hy
  rw [decide_eq_true_iff, not_lt]
  exact h y hy

theorem length_above_lt (h : x ∈ xs) : (above x xs).length < xs.length := by
  apply List.length_filter_lt_length_iff_exists.mpr
  exact ⟨x, h, by simp⟩

theorem above_cons_self {ys : List α} (h : ∀ y ∈ ys, x < y) : above x (x :: ys) = ys := by
  unfold above
  rw [List.filter_cons_of_neg (by simp)]
  apply List.filter_eq_self.mpr
  intro y hy
  exact decide_eq_true (h y hy)

theorem above_cons_of_lt {y : α} {ys : List α} (h : y < x) : above x (y :: ys) = above x ys := by
  unfold above
  apply List.filter_cons_of_neg
  rw [decide_eq_true_iff]
  exact not_lt_of_gt h

/-- In a sorted list the entries above one are those that come after it. -/
theorem mem_take_iff {ys : List α} (hsorted : ys.Pairwise (· < ·)) :
    x ∈ ys.take (ys.length - n) ↔ x ∈ ys ∧ n ≤ (above x ys).length := by
  induction ys with
  | nil => simp
  | cons y ys ih =>
    rw [List.pairwise_cons] at hsorted
    obtain ⟨hleast, hys⟩ := hsorted
    by_cases hn : n ≤ ys.length
    · have hlength : (y :: ys).length - n = (ys.length - n) + 1 := by
        rw [List.length_cons]
        omega
      rw [hlength, List.take_succ_cons, List.mem_cons, List.mem_cons, ih hys]
      by_cases hx : x = y
      · subst hx
        rw [above_cons_self hleast]
        simp [hn]
      · constructor
        · intro hor
          obtain ⟨hmem, habove⟩ := hor.resolve_left hx
          rw [above_cons_of_lt (hleast x hmem)]
          exact ⟨.inr hmem, habove⟩
        · intro ⟨hor, habove⟩
          have hmem := hor.resolve_left hx
          rw [above_cons_of_lt (hleast x hmem)] at habove
          exact .inr ⟨hmem, habove⟩
    · have hlength : (y :: ys).length - n = 0 := by
        rw [List.length_cons]
        omega
      rw [hlength, List.take_zero]
      constructor
      · intro hmem
        exact absurd hmem List.not_mem_nil
      · intro ⟨hmem, habove⟩
        have hlt := length_above_lt hmem
        rw [List.length_cons] at hlt
        omega

theorem pairwise_lt_insertionSort (h : xs.Nodup) :
    (xs.insertionSort (· ≤ ·)).Pairwise (· < ·) := by
  have hle := List.pairwise_insertionSort (· ≤ ·) xs
  have hne : (xs.insertionSort (· ≤ ·)).Nodup := (List.perm_insertionSort _ xs).nodup_iff.mpr h
  exact (hle.and hne).imp (fun hab => lt_of_le_of_ne hab.1 hab.2)

/-- An entry is not one of the `n` greatest when at least `n` are above it. -/
theorem mem_allBut_iff (h : xs.Nodup) : x ∈ allBut n xs ↔ x ∈ xs ∧ n ≤ (above x xs).length := by
  have hperm := List.perm_insertionSort (· ≤ ·) xs
  have habove : (above x (xs.insertionSort (· ≤ ·))).length = (above x xs).length :=
    (hperm.filter _).length_eq
  unfold allBut
  rw [← hperm.length_eq, mem_take_iff (pairwise_lt_insertionSort h), habove, hperm.mem_iff]

/-! The first of the greatest entries. -/

section Argmax

variable {ι : Type} {f : ι → α} {a b : List ι} {i w : ι}

theorem argmax_cons_of_le (h : ∀ j ∈ a, f j ≤ f i) : (i :: a).argmax f = some i := by
  rw [List.argmax_cons]
  cases hrest : a.argmax f with
  | none => rfl
  | some c => exact if_neg (not_lt.mpr (h c (List.argmax_mem hrest)))

/-- An entry below another one does not count. -/
theorem argmax_insert_of_lt (h : ∃ i ∈ a ++ b, f w < f i) :
    (a ++ w :: b).argmax f = (a ++ b).argmax f := by
  induction a with
  | nil =>
    obtain ⟨i, hi, hlt⟩ := h
    rw [List.nil_append] at hi ⊢
    rw [List.argmax_cons, List.nil_append]
    cases hrest : b.argmax f with
    | none => rw [List.argmax_eq_none.mp hrest] at hi; cases hi
    | some c => exact if_pos (lt_of_lt_of_le hlt (List.le_of_mem_argmax hi hrest))
  | cons x a ih =>
    rw [List.cons_append, List.cons_append]
    by_cases hrest : ∃ i ∈ a ++ b, f w < f i
    · rw [List.argmax_cons, List.argmax_cons, ih hrest]
    · -- Only the first entry is above, so it is the greatest.
      have hle : ∀ j ∈ a ++ b, f j ≤ f w := fun j hj => not_lt.mp fun hlt => hrest ⟨j, hj, hlt⟩
      obtain ⟨i, hi, hlt⟩ := h
      have hx : f w < f x := by
        rcases List.mem_cons.mp hi with rfl | hi
        · exact hlt
        · exact absurd hlt (not_lt.mpr (hle i hi))
      rw [argmax_cons_of_le, argmax_cons_of_le]
      · exact fun j hj => (hle j hj).trans (le_of_lt hx)
      · intro j hj
        rcases List.mem_append.mp hj with hj | hj
        · exact (hle j (List.mem_append_left _ hj)).trans (le_of_lt hx)
        · rcases List.mem_cons.mp hj with rfl | hj
          · exact le_of_lt hx
          · exact (hle j (List.mem_append_right _ hj)).trans (le_of_lt hx)

end Argmax

/-- Lists are compared by their first difference. -/
theorem cons_le_cons_iff {a b : α} {as bs : List α} :
    a :: as ≤ b :: bs ↔ a < b ∨ a = b ∧ as ≤ bs := by
  rw [← not_lt, List.cons_lt_cons_iff, ← not_lt (a := bs)]
  constructor
  · intro hnot
    rcases lt_trichotomy a b with hlt | heq | hgt
    · exact .inl hlt
    · exact .inr ⟨heq, fun hlt => hnot (.inr ⟨heq.symm, hlt⟩)⟩
    · exact absurd (.inl hgt) hnot
  · intro hor hlt
    rcases hor with hab | ⟨hab, hle⟩
    · rcases hlt with hba | ⟨hba, -⟩
      · exact lt_asymm hab hba
      · exact absurd hba (ne_of_gt hab)
    · rcases hlt with hba | ⟨-, hlt⟩
      · exact absurd hab (ne_of_gt hba)
      · exact hle hlt

end

end Newest

namespace Text

theorem le_iff {s t : Str} : le s t = true ↔ s ≤ t := by
  rw [← not_lt]
  induction s generalizing t with
  | nil =>
    rw [le]
    exact ⟨fun _ => List.not_lt_nil t, fun _ => rfl⟩
  | cons c s ih =>
    cases t with
    | nil => simp [le]
    | cons d t =>
      rw [le, List.cons_lt_cons_iff]
      by_cases h : c = d
      · rw [if_pos h, ih, h]
        simp
      · rw [if_neg h, decide_eq_true_iff]
        constructor
        · intro hlt hor
          rcases hor with hgt | ⟨heq, -⟩
          · exact lt_asymm hlt hgt
          · exact h heq.symm
        · intro hnot
          by_contra hge
          exact hnot (.inl (lt_of_le_of_ne (not_lt.mp hge) (Ne.symm h)))

end Text
