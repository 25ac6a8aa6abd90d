import Mathlib.Algebra.BigOperators.Group.List.Basic
import Mathlib.Algebra.GroupWithZero.Nat

/-!
# Tallies

A list counted by a key: every member is counted once (`sum_countP_key`).
-/

namespace Tally

variable {α K : Type} [DecidableEq K]

/-- One key of the list is the one that is asked for. -/
theorem sum_indicator {keys : List K} (hnodup : keys.Nodup) (k : K) :
    (keys.map (fun k' => if k = k' then 1 else 0)).sum = if k ∈ keys then 1 else 0 := by
  induction keys with
  | nil => rfl
  | cons k' keys ih =>
    obtain ⟨hnew, hrest⟩ := List.nodup_cons.mp hnodup
    rw [List.map_cons, List.sum_cons, ih hrest]
    by_cases hk : k = k'
    · subst hk
      rw [if_pos rfl, if_neg hnew, if_pos List.mem_cons_self]
    · have hmem : k ∈ k' :: keys ↔ k ∈ keys := by
        rw [List.mem_cons]
        exact or_iff_right hk
      rw [if_neg hk, Nat.zero_add]
      simp only [hmem]

/-- The members whose keys are in the list, counted key by key. -/
theorem sum_countP_key {keys : List K} (hnodup : keys.Nodup) {key : α → K} {p : α → Bool}
    {xs : List α} (hkeys : ∀ x ∈ xs, key x ∈ keys ↔ p x = true) :
    (keys.map (fun k => xs.countP (fun x => key x = k))).sum = xs.countP p := by
  induction xs with
  | nil =>
    simp only [List.countP_nil]
    exact List.sum_eq_zero (fun n hn => (List.mem_map.mp hn).elim (fun _ h => h.2.symm))
  | cons x xs ih =>
    rw [List.forall_mem_cons] at hkeys
    have hone := sum_indicator hnodup (key x)
    simp only [List.countP_cons, List.sum_map_add, ih hkeys.2, decide_eq_true_eq, hone, hkeys.1]

end Tally
