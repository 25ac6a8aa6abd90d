import Mathlib.Data.List.Infix

/-!
# Texts with a separator that is not one

A name is often built from two parts with a fixed text between them, where
nothing keeps that text out of the parts.  `joined_eq_iff` says when two such
names are the same: the parts are, or the separator of one name lies further
on in the other.  `shifts_iff` says how far it can move, by the overlaps of
the separator with itself.
-/

namespace Splits

variable {α : Type} {r w a a' b b' : List α}

/-- `r ++ b` reads as `r ++ b'` behind `w`: the separator `r` moved by `w`. -/
def Shifts (r w b b' : List α) : Prop := w ≠ [] ∧ r ++ b = w ++ (r ++ b')

/-- Two names with the separator `r` are the same when their parts are, or
when the separator of one moved. -/
theorem joined_eq_iff :
    a ++ (r ++ b) = a' ++ (r ++ b') ↔
      (a = a' ∧ b = b') ∨ (∃ w, a' = a ++ w ∧ Shifts r w b b') ∨
        (∃ w, a = a' ++ w ∧ Shifts r w b' b) := by
  constructor
  · intro h
    obtain ⟨w, hw, hrest⟩ | ⟨w, hw, hrest⟩ := List.append_eq_append_iff.mp h
    · by_cases hnil : w = []
      · subst hnil
        simp only [List.append_nil, List.nil_append, List.append_cancel_left_eq] at hw hrest
        exact Or.inl ⟨hw.symm, hrest⟩
      · exact Or.inr (Or.inl ⟨w, hw, hnil, hrest⟩)
    · by_cases hnil : w = []
      · subst hnil
        simp only [List.append_nil, List.nil_append, List.append_cancel_left_eq] at hw hrest
        exact Or.inl ⟨hw, hrest.symm⟩
      · exact Or.inr (Or.inr ⟨w, hw, hnil, hrest⟩)
  · rintro (⟨rfl, rfl⟩ | ⟨w, rfl, -, h⟩ | ⟨w, rfl, -, h⟩)
    · rfl
    · rw [h, List.append_assoc]
    · rw [h, List.append_assoc]

/-- The separator moved by more than its length, or onto an overlap `y` with
itself. -/
theorem shifts_iff :
    Shifts r w b b' ↔
      w ≠ [] ∧ ((∃ x, w = r ++ x ∧ b = x ++ (r ++ b')) ∨
        (∃ y z, r = w ++ y ∧ r = y ++ z ∧ b = z ++ b')) := by
  refine and_congr_right (fun hw => ?_)
  constructor
  · intro h
    obtain ⟨x, hx, hb⟩ | ⟨y, hy, hrest⟩ := List.append_eq_append_iff.mp h
    · exact Or.inl ⟨x, hx, hb⟩
    · obtain ⟨u, hu, -⟩ | ⟨z, hz, hb⟩ := List.append_eq_append_iff.mp hrest
      · -- The overlap is not longer than what is left of the separator.
        have hlen := congrArg List.length hy
        have hpos := List.length_pos_of_ne_nil hw
        rw [hu, List.length_append, List.length_append] at hlen
        omega
      · exact Or.inr ⟨y, z, hy, hz, hb⟩
  · rintro (⟨x, rfl, rfl⟩ | ⟨y, z, hy, hz, rfl⟩)
    · simp only [List.append_assoc]
    · calc r ++ (z ++ b') = (w ++ y) ++ (z ++ b') := by rw [← hy]
        _ = w ++ (y ++ z ++ b') := by simp only [List.append_assoc]
        _ = w ++ (r ++ b') := by rw [← hz]

end Splits
