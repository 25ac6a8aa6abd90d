import Mathlib.Algebra.Order.Ring.Int
import Mathlib.Order.Bounds.Basic

/-!
# Points that come back

A strictly increasing list of points in `[0, period)` stands for the times
that have one of the points as their place in the period.  The list shows the
gaps between them: the differences of neighbours, and the one from the last
point to the first of the next period.

* `exists_next`: behind each time stands the next one, a gap of the list away.
* `exists_isNext`: so each time has a next one, and `IsNext.shift` says that they
  come again in every period.
* `exists_times`: each gap of the list is one between two times.
* `isLeast_min?`: the least gap of the list is the least distance of two times.
-/

namespace Periodic

variable {period x y g : Int} {points : List Int}

/-- The times whose place in the period is one of the points. -/
def Recurs (period : Int) (points : List Int) (t : Int) : Prop := ∃ n : Int, t - n * period ∈ points

/-- The distances between two times. -/
def distances (T : Int → Prop) : Set Int := {d | 0 < d ∧ ∃ s t, T s ∧ T t ∧ t - s = d}

/-- `t` is the next time behind `s`. -/
structure IsNext (T : Int → Prop) (s t : Int) : Prop where
  from_time : T s
  to_time : T t
  lt : s < t
  least : ∀ u, T u → s < u → t ≤ u

/-- The differences of neighbours. -/
def differences (points : List Int) : List Int := (points.zip points.tail).map (fun p => p.2 - p.1)

/-- The gaps of the points, the one over the end of the period first. -/
def cycle (period : Int) : List Int → List Int
  | [] => []
  | first :: rest => (period - rest.getLast?.getD first + first) :: differences (first :: rest)

/-! ## Periods -/

theorem recurs_shift {t : Int} (n : Int) : Recurs period points (t + n * period) ↔ Recurs period points t := by
  constructor
  · intro ⟨m, hm⟩
    refine ⟨m - n, ?_⟩
    rwa [Int.sub_mul, show t - (m * period - n * period) = t + n * period - m * period by omega]
  · intro ⟨m, hm⟩
    refine ⟨m + n, ?_⟩
    rwa [Int.add_mul, show t + n * period - (m * period + n * period) = t - m * period by omega]

theorem IsNext.shift {s t : Int} (h : IsNext (Recurs period points) s t) (n : Int) :
    IsNext (Recurs period points) (s + n * period) (t + n * period) where
  from_time := (recurs_shift n).mpr h.from_time
  to_time := (recurs_shift n).mpr h.to_time
  lt := Int.add_lt_add_right h.lt _
  least := by
    intro u hu hlt
    have hback := h.least (u + -n * period) ((recurs_shift (-n)).mpr hu)
    rw [Int.neg_mul] at hback
    omega

/-! ## Neighbours -/

theorem lt_of_mem_zip_tail (hsorted : points.Pairwise (· < ·)) (h : (x, y) ∈ points.zip points.tail) :
    x ∈ points ∧ y ∈ points ∧ x < y := by
  induction points with
  | nil => simp at h
  | cons a points ih =>
    obtain ⟨hfirst, hrest⟩ := List.pairwise_cons.mp hsorted
    cases points with
    | nil => simp at h
    | cons b points =>
      simp only [List.tail_cons, List.zip_cons_cons, List.mem_cons, Prod.mk.injEq] at h
      rcases h with ⟨rfl, rfl⟩ | h
      · exact ⟨by simp, by simp, hfirst y (by simp)⟩
      · obtain ⟨hx, hy, hlt⟩ := ih hrest h
        exact ⟨List.mem_cons_of_mem _ hx, List.mem_cons_of_mem _ hy, hlt⟩

/-- A point has a neighbour, or it is the last one. -/
theorem exists_neighbour (hsorted : points.Pairwise (· < ·)) (hx : x ∈ points) :
    (∃ z, (x, z) ∈ points.zip points.tail ∧ ∀ y ∈ points, x < y → z ≤ y) ∨
      points.getLast? = some x ∧ ∀ y ∈ points, y ≤ x := by
  induction points with
  | nil => cases hx
  | cons a points ih =>
    obtain ⟨hfirst, hrest⟩ := List.pairwise_cons.mp hsorted
    cases points with
    | nil =>
      right
      simp_all
    | cons b points =>
      rcases List.mem_cons.mp hx with rfl | hx
      · left
        refine ⟨b, by simp, fun y hy hlt => ?_⟩
        rcases List.mem_cons.mp hy with rfl | hy
        · omega
        · rcases List.mem_cons.mp hy with rfl | hy
          · exact le_refl _
          · exact le_of_lt (List.rel_of_pairwise_cons hrest hy)
      · have hax := hfirst x hx
        rcases ih hrest hx with ⟨z, hz, hleast⟩ | ⟨hlast, hgreatest⟩
        · left
          refine ⟨z, List.mem_cons_of_mem _ hz, fun y hy hlt => ?_⟩
          rcases List.mem_cons.mp hy with rfl | hy
          · omega
          · exact hleast y hy hlt
        · right
          refine ⟨by simpa using hlast, fun y hy => ?_⟩
          rcases List.mem_cons.mp hy with rfl | hy
          · omega
          · exact hgreatest y hy

theorem mem_cycle (hne : points ≠ []) : g ∈ cycle period points ↔
    (∃ first last, points.head? = some first ∧ points.getLast? = some last ∧
      g = period - last + first) ∨ g ∈ differences points := by
  cases points with
  | nil => exact absurd rfl hne
  | cons first rest => simp [cycle, List.getLast?_cons]

/-! ## The times -/

section

variable (hsorted : points.Pairwise (· < ·)) (hpoints : ∀ x ∈ points, 0 ≤ x ∧ x < period)

include hsorted hpoints

/-- Behind a time stands the next one, a gap away. -/
theorem exists_next {s : Int} (hs : Recurs period points s) :
    ∃ g ∈ cycle period points, Recurs period points (s + g) ∧
      ∀ t, Recurs period points t → s < t → s + g ≤ t := by
  obtain ⟨n, hx⟩ := hs
  obtain ⟨hlow, hhigh⟩ := hpoints _ hx
  have hne : points ≠ [] := List.ne_nil_of_mem hx
  have hperiod : 0 ≤ period := by omega
  -- a later time is in the same period or in a later one
  have hlater : ∀ t m, t - m * period ∈ points → s < t → m = n ∨ (n + 1) * period ≤ m * period := by
    intro t m hy hlt
    obtain ⟨hylow, hyhigh⟩ := hpoints _ hy
    rcases lt_trichotomy m n with hmn | hmn | hmn
    · have hle : (m + 1) * period ≤ n * period := Int.mul_le_mul_of_nonneg_right hmn hperiod
      rw [Int.add_mul, Int.one_mul] at hle
      omega
    · exact .inl hmn
    · exact .inr (Int.mul_le_mul_of_nonneg_right hmn hperiod)
  have hsucc : (n + 1) * period = n * period + period := by rw [Int.add_mul, Int.one_mul]
  rcases exists_neighbour hsorted hx with ⟨z, hz, hleast⟩ | ⟨hlast, hgreatest⟩
  · obtain ⟨-, hzmem, hlt⟩ := lt_of_mem_zip_tail hsorted hz
    obtain ⟨-, hzhigh⟩ := hpoints z hzmem
    refine ⟨z - (s - n * period), (mem_cycle hne).mpr (.inr (List.mem_map_of_mem hz)), ⟨n, ?_⟩, ?_⟩
    · rwa [show s + (z - (s - n * period)) - n * period = z by omega]
    · intro t ⟨m, hy⟩ hlt
      obtain ⟨hylow, -⟩ := hpoints _ hy
      rcases hlater t m hy hlt with rfl | hle
      · have := hleast _ hy (by omega)
        omega
      · omega
  · obtain ⟨first, hfirst⟩ : ∃ first, points.head? = some first :=
      Option.isSome_iff_exists.mp (by simpa using hne)
    refine ⟨period - (s - n * period) + first,
      (mem_cycle hne).mpr (.inl ⟨first, _, hfirst, hlast, rfl⟩), ⟨n + 1, ?_⟩, ?_⟩
    · rw [show s + (period - (s - n * period) + first) - (n + 1) * period = first by omega]
      exact List.mem_of_head? hfirst
    · intro t ⟨m, hy⟩ hlt
      have hle : first ≤ t - m * period := by
        cases points with
        | nil => exact absurd rfl hne
        | cons a rest =>
          cases hfirst
          rcases List.mem_cons.mp hy with heq | hmem
          · omega
          · exact le_of_lt (List.rel_of_pairwise_cons hsorted hmem)
      rcases hlater t m hy hlt with rfl | hle
      · have := hgreatest _ hy
        omega
      · omega

/-- Each gap is one between two times. -/
theorem exists_times (h : g ∈ cycle period points) :
    0 < g ∧ ∃ s, 0 ≤ s ∧ s < period ∧ Recurs period points s ∧ Recurs period points (s + g) := by
  have hne : points ≠ [] := by
    intro hnil
    rw [hnil] at h
    cases h
  rcases (mem_cycle hne).mp h with ⟨first, last, hfirst, hlast, rfl⟩ | hdiff
  · have hfmem := List.mem_of_head? hfirst
    have hlmem := List.mem_of_getLast? hlast
    obtain ⟨hf, -⟩ := hpoints first hfmem
    obtain ⟨hllow, hl⟩ := hpoints last hlmem
    refine ⟨by omega, last, hllow, hl, ⟨0, by simpa using hlmem⟩, ⟨1, ?_⟩⟩
    rwa [show last + (period - last + first) - 1 * period = first by omega]
  · obtain ⟨⟨x, z⟩, hmem, rfl⟩ := List.mem_map.mp hdiff
    obtain ⟨hx, hz, hlt⟩ := lt_of_mem_zip_tail hsorted hmem
    obtain ⟨hlow, hhigh⟩ := hpoints x hx
    refine ⟨by simpa using hlt, x, hlow, hhigh, ⟨0, by simpa using hx⟩, ⟨0, ?_⟩⟩
    rwa [show x + (z - x) - 0 * period = z by omega]

/-- Each time has a next one. -/
theorem exists_isNext {s : Int} (hs : Recurs period points s) : ∃ t, IsNext (Recurs period points) s t := by
  obtain ⟨g, hg, hnext, hleast⟩ := exists_next hsorted hpoints hs
  obtain ⟨hpos, -⟩ := exists_times hsorted hpoints hg
  exact ⟨s + g, hs, hnext, by omega, hleast⟩

/-- The least gap is the least distance of two times. -/
theorem isLeast_min? (h : (cycle period points).min? = some g) :
    IsLeast (distances (Recurs period points)) g := by
  obtain ⟨hmem, hleast⟩ := List.min?_eq_some_iff.mp h
  obtain ⟨hpos, s, -, -, hs, hnext⟩ := exists_times hsorted hpoints hmem
  refine ⟨⟨hpos, s, s + g, hs, hnext, by omega⟩, ?_⟩
  intro d ⟨hd, s, t, hs, ht, hdist⟩
  obtain ⟨g', hg', -, hle⟩ := exists_next hsorted hpoints hs
  have hg := hleast g' hg'
  have := hle t ht (by omega)
  omega

/-- The least distance is one to a next time. -/
theorem exists_isNext_of_isLeast (h : IsLeast (distances (Recurs period points)) g) :
    ∃ s t, IsNext (Recurs period points) s t ∧ t - s = g := by
  obtain ⟨⟨hpos, s, t, hs, ht, hdist⟩, hleast⟩ := h
  obtain ⟨u, hu⟩ := exists_isNext hsorted hpoints hs
  have hle := hu.least t ht (by omega)
  have hge := hleast ⟨Int.sub_pos.mpr hu.lt, s, u, hs, hu.to_time, rfl⟩
  exact ⟨s, u, hu, by omega⟩

end

end Periodic
