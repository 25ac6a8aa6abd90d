import Mathlib.Data.List.Nodup

/-!
# Calls that take effect one after the other

Calls that run at the same time change one value.  `Ordered` says that the
value is what the calls that are done make of the initial one, when they are
executed in some order.

* `ordered_init`, `Ordered.congr`, `Ordered.commit`: it holds before any call,
  it is kept when no call gets done, and it is kept when one call gets done
  and changes the value by itself.
-/

namespace Commits

variable {V C : Type} (apply : C → V → V)

/-- The value after the calls, the first one first. -/
def execute (initial : V) (order : List (Nat × C)) : V :=
  order.foldl (fun v p => apply p.2 v) initial

/-- The value is that of the done calls in some order. -/
def Ordered (initial value : V) (done : Nat → C → Prop) : Prop :=
  ∃ order : List (Nat × C), (order.map Prod.fst).Nodup ∧
    (∀ t c, (t, c) ∈ order ↔ done t c) ∧ value = execute apply initial order

variable {apply} {initial value : V} {done done' : Nat → C → Prop}

theorem ordered_init (h : ∀ t c, ¬ done t c) : Ordered apply initial initial done := by
  refine ⟨[], List.nodup_nil, fun t c => ⟨?_, ?_⟩, rfl⟩
  · intro hmem
    cases hmem
  · intro hdone
    exact absurd hdone (h t c)

theorem Ordered.congr (h : Ordered apply initial value done) (hdone : ∀ t c, done' t c ↔ done t c) :
    Ordered apply initial value done' := by
  obtain ⟨order, hnodup, hmem, hvalue⟩ := h
  exact ⟨order, hnodup, fun t c => (hmem t c).trans (hdone t c).symm, hvalue⟩

/-- A call gets done, and the value becomes what it makes of it. -/
theorem Ordered.commit (h : Ordered apply initial value done) {t : Nat} {c : C}
    (hnew : ∀ c', ¬ done t c')
    (hdone : ∀ t' c', done' t' c' ↔ done t' c' ∨ t' = t ∧ c' = c) :
    Ordered apply initial (apply c value) done' := by
  obtain ⟨order, hnodup, hmem, rfl⟩ := h
  refine ⟨order ++ [(t, c)], ?_, fun t' c' => ?_, ?_⟩
  · rw [List.map_append]
    refine hnodup.append (List.nodup_singleton t) ?_
    intro x hx hxt
    obtain ⟨⟨t', c'⟩, hp, rfl⟩ := List.mem_map.mp hx
    have heq : t' = t := List.mem_singleton.mp hxt
    exact hnew c' (heq ▸ (hmem t' c').mp hp)
  · rw [List.mem_append, hmem, hdone, List.mem_singleton, Prod.mk.injEq]
  · rw [execute, execute, List.foldl_append]
    rfl

end Commits
