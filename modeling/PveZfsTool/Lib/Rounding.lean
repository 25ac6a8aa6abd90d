import Mathlib.Algebra.Order.Ring.Rat
import Mathlib.Tactic.Linarith
import Mathlib.Tactic.NormNum

/-!
# Rounding

Python rounds to the nearest number, and a tie to the even one.  Rounding stays
between whole numbers (`roundEven_le`, `le_roundEven`, `roundTenth_bounds`).
-/

namespace Rounding

/-- The nearest whole number, and of two the even one. -/
def roundEven (q : Rat) : Int :=
  if q - q.floor < 1 / 2 then q.floor
  else if 1 / 2 < q - q.floor then q.floor + 1
  else if q.floor % 2 = 0 then q.floor else q.floor + 1

/-- `round(q, 1)` -/
def roundTenth (q : Rat) : Rat := roundEven (q * 10) / 10

theorem roundEven_bounds (q : Rat) : q.floor ≤ roundEven q ∧ (roundEven q : Rat) ≤ q.floor + 1 ∧
    (q = q.floor → roundEven q = q.floor) := by
  unfold roundEven
  split_ifs with hlow hhigh heven
  · exact ⟨le_refl _, by linarith, fun _ => rfl⟩
  · refine ⟨by omega, by push_cast; linarith, fun heq => ?_⟩
    rw [← heq] at hhigh
    linarith
  · exact ⟨le_refl _, by linarith, fun _ => rfl⟩
  · refine ⟨by omega, by push_cast; linarith, fun heq => ?_⟩
    rw [← heq] at hlow
    linarith

/-- Rounding stays between whole numbers. -/
theorem roundEven_le {q : Rat} {n : Int} (h : q ≤ n) : roundEven q ≤ n := by
  obtain ⟨-, hup, hwhole⟩ := roundEven_bounds q
  have hfloor : (q.floor : Rat) ≤ q := Rat.floor_le q
  obtain heq | hlt := eq_or_lt_of_le (show q.floor ≤ n by exact_mod_cast hfloor.trans h)
  · have hq : q = q.floor := le_antisymm (by rw [heq]; exact h) hfloor
    rw [hwhole hq, heq]
  · have hle : (roundEven q : Rat) ≤ (q.floor + 1 : Int) := by exact_mod_cast hup
    have hint : roundEven q ≤ q.floor + 1 := by exact_mod_cast hle
    omega

theorem le_roundEven {q : Rat} {n : Int} (h : n ≤ q) : n ≤ roundEven q :=
  (Rat.le_floor_iff.mpr h).trans (roundEven_bounds q).1

theorem roundTenth_bounds {q : Rat} {m n : Int} (hlow : m ≤ q) (hhigh : q ≤ n) :
    m ≤ roundTenth q ∧ roundTenth q ≤ n := by
  have hten : m * 10 ≤ roundEven (q * 10) := le_roundEven (by push_cast; linarith)
  have hten' : roundEven (q * 10) ≤ n * 10 := roundEven_le (by push_cast; linarith)
  have hcast : (m * 10 : Rat) ≤ roundEven (q * 10) := by exact_mod_cast hten
  have hcast' : (roundEven (q * 10) : Rat) ≤ n * 10 := by exact_mod_cast hten'
  rw [roundTenth]
  constructor <;> linarith

end Rounding
