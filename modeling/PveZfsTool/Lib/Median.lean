import Mathlib.Algebra.Order.Field.Basic
import Mathlib.Data.List.Sort
import Mathlib.Tactic.Linarith

/-!
# Medians

The median of a list is the entry in the middle of the sorted list, or the mean
of the two in the middle.

* `getElem_iff_lt_countP`: in a sorted list the entries of a lower set come
  first, as many as there are.
* `le_median?` and `median?_le`: the median keeps the bounds that more than half
  of the entries keep, whatever the others are.
* `countP_lt_upper`: fewer than half of the entries lie above the middle one.
-/

namespace Median

variable {α : Type}

section Order

variable [LinearOrder α] {l s : List α} {a b : α} {i : Nat}

/-- In a sorted list the entries of a lower set come first. -/
theorem getElem_iff_lt_countP {p : α → Bool} (hs : s.Pairwise (· ≤ ·))
    (hp : ∀ a b, a ≤ b → p b = true → p a = true) (hi : i < s.length) :
    p s[i] = true ↔ i < s.countP p := by
  induction s generalizing i with
  | nil => cases hi
  | cons a s ih =>
    rw [List.pairwise_cons] at hs
    by_cases ha : p a = true
    · rw [List.countP_cons_of_pos ha]
      cases i with
      | zero =>
        simp only [List.getElem_cons_zero, ha, true_iff]
        omega
      | succ i =>
        rw [List.getElem_cons_succ, ih hs.2 (Nat.lt_of_succ_lt_succ hi)]
        omega
    · -- no entry of the set comes after one outside
      have hnone : ∀ b ∈ a :: s, ¬ p b = true := by
        intro b hb hpb
        obtain rfl | hb := List.mem_cons.mp hb
        · exact ha hpb
        · exact ha (hp a b (hs.1 b hb) hpb)
      have hzero : (a :: s).countP p = 0 := List.countP_eq_zero.mpr hnone
      have hfalse := hnone (a :: s)[i] (List.getElem_mem hi)
      constructor
      · intro h
        exact absurd h hfalse
      · intro h
        omega

/-- The entries in order. -/
def sorted (l : List α) : List α := l.insertionSort (· ≤ ·)

@[simp] theorem length_sorted : (sorted l).length = l.length := List.length_insertionSort _ l

theorem sorted_pairwise (l : List α) : (sorted l).Pairwise (· ≤ ·) := List.pairwise_insertionSort _ l

theorem perm_sorted (l : List α) : (sorted l).Perm l := List.perm_insertionSort _ l

theorem countP_sorted (p : α → Bool) : (sorted l).countP p = l.countP p := (perm_sorted l).countP_eq p

theorem getElem_sorted_le_iff (hi : i < (sorted l).length) :
    (sorted l)[i] ≤ b ↔ i < l.countP (· ≤ b) := by
  rw [← countP_sorted, ← getElem_iff_lt_countP (sorted_pairwise l) _ hi, decide_eq_true_eq]
  intro c d hcd hd
  rw [decide_eq_true_eq] at hd ⊢
  exact hcd.trans hd

theorem getElem_sorted_lt_iff (hi : i < (sorted l).length) :
    (sorted l)[i] < a ↔ i < l.countP (· < a) := by
  rw [← countP_sorted, ← getElem_iff_lt_countP (sorted_pairwise l) _ hi, decide_eq_true_eq]
  intro c d hcd hd
  rw [decide_eq_true_eq] at hd ⊢
  exact hcd.trans_lt hd

theorem countP_lt_add_countP_le : l.countP (· < a) + l.countP (a ≤ ·) = l.length := by
  have hle : l.countP (a ≤ ·) = l.countP (fun c => ¬ (decide (c < a)) = true) :=
    List.countP_congr (fun c _ => by simp)
  rw [hle, ← List.length_eq_countP_add_countP]

/-- Fewer than half of the entries are above the middle one. -/
theorem countP_lt_upper {m : α} (hm : (sorted l)[l.length / 2]? = some m) :
    2 * l.countP (m < ·) < l.length := by
  obtain ⟨hi, hget⟩ := List.getElem?_eq_some_iff.mp hm
  have hle : l.length / 2 < l.countP (· ≤ m) := (getElem_sorted_le_iff hi).mp hget.le
  have hcount : l.countP (m < ·) = l.countP (fun c => ¬ (decide (c ≤ m)) = true) :=
    List.countP_congr (fun c _ => by simp)
  have hsum := List.length_eq_countP_add_countP (fun c => decide (c ≤ m)) (l := l)
  rw [← hcount] at hsum
  omega

end Order

section Field

variable [Field α] [LinearOrder α] {l : List α} {a b m : α}

/-- The median, of a list that is not empty. -/
def median? (l : List α) : Option α :=
  let s := sorted l
  if s.length % 2 = 1 then s[s.length / 2]?
  else s[s.length / 2 - 1]?.bind (fun a => s[s.length / 2]?.map (fun b => (a + b) / 2))

theorem median?_isSome (hne : l ≠ []) : ∃ m, median? l = some m := by
  have hpos : 0 < (sorted l).length := by
    rw [length_sorted]
    exact List.length_pos_iff.mpr hne
  have hmid : (sorted l).length / 2 < (sorted l).length := by omega
  have hlow : (sorted l).length / 2 - 1 < (sorted l).length := by omega
  unfold median?
  dsimp only
  rw [List.getElem?_eq_getElem hmid, List.getElem?_eq_getElem hlow]
  split_ifs
  · exact ⟨_, rfl⟩
  · exact ⟨_, rfl⟩

variable [IsStrictOrderedRing α]

/-- The median is between the two entries in the middle, which are the same one
in a list of odd length. -/
theorem median?_between (h : median? l = some m) :
    ∃ (hi : (l.length - 1) / 2 < (sorted l).length) (hj : l.length / 2 < (sorted l).length),
      (sorted l)[(l.length - 1) / 2] ≤ m ∧ m ≤ (sorted l)[l.length / 2] := by
  unfold median? at h
  dsimp only at h
  rw [length_sorted] at h
  by_cases hodd : l.length % 2 = 1
  · rw [if_pos hodd] at h
    have hsame : (l.length - 1) / 2 = l.length / 2 := by omega
    obtain ⟨hj, hget⟩ := List.getElem?_eq_some_iff.mp h
    simp only [hsame]
    exact ⟨hj, hj, hget.le, hget.ge⟩
  · rw [if_neg hodd] at h
    have hsame : l.length / 2 - 1 = (l.length - 1) / 2 := by omega
    rw [hsame] at h
    obtain ⟨a, ha, hmap⟩ := Option.bind_eq_some_iff.mp h
    obtain ⟨b, hb, rfl⟩ := Option.map_eq_some_iff.mp hmap
    obtain ⟨hi, rfl⟩ := List.getElem?_eq_some_iff.mp ha
    obtain ⟨hj, rfl⟩ := List.getElem?_eq_some_iff.mp hb
    have hle : (sorted l)[(l.length - 1) / 2] ≤ (sorted l)[l.length / 2] := by
      obtain hlt | heq := Nat.lt_or_eq_of_le (show (l.length - 1) / 2 ≤ l.length / 2 by omega)
      · exact List.pairwise_iff_getElem.mp (sorted_pairwise l) _ _ hi hj hlt
      · simp only [heq, le_refl]
    exact ⟨hi, hj, by linarith, by linarith⟩

/-- The median keeps a lower bound that more than half of the entries keep. -/
theorem le_median? (h : median? l = some m) (hlow : l.length < 2 * l.countP (a ≤ ·)) : a ≤ m := by
  obtain ⟨hi, -, hm, -⟩ := median?_between h
  have hsum := countP_lt_add_countP_le (l := l) (a := a)
  refine le_trans (not_lt.mp (fun hlt => ?_)) hm
  have hcount := (getElem_sorted_lt_iff hi).mp hlt
  omega

/-- So it does with an upper bound. -/
theorem median?_le (h : median? l = some m) (hhigh : l.length < 2 * l.countP (· ≤ b)) : m ≤ b := by
  obtain ⟨-, hj, -, hm⟩ := median?_between h
  have hcount : l.length / 2 < l.countP (· ≤ b) := by omega
  exact hm.trans ((getElem_sorted_le_iff hj).mpr hcount)

end Field

end Median
