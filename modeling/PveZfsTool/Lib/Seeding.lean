import Mathlib.Data.Finset.Card
import Mathlib.Logic.Function.Basic

/-!
# Filling a store from a list of entries

`seed` puts the entries of a list into a store, one after the other.  When it
overwrites, an entry replaces the value of its key.  When it does not, an entry is
put only where its key has no value.

`seed_true` and `seed_false` give the store in closed form: the last entry of a key
wins, or what is there and then the first entry.  `written_false` counts the
entries that are put.
-/

namespace Seeding

variable {K V : Type} [DecidableEq K]

/-- Put one entry into the store. -/
def put (overwrite : Bool) (s : K → Option V) (e : K × V) : K → Option V :=
  if overwrite || (s e.1).isNone then Function.update s e.1 (some e.2) else s

def seed (overwrite : Bool) (s : K → Option V) (es : List (K × V)) : K → Option V :=
  es.foldl (put overwrite) s

/-- The number of entries that are put. -/
def written (overwrite : Bool) : (K → Option V) → List (K × V) → Nat
  | _, [] => 0
  | s, e :: es => (if overwrite || (s e.1).isNone then 1 else 0) + written overwrite (put overwrite s e) es

/-- The value of the first entry of a key. -/
def firstOf (es : List (K × V)) (k : K) : Option V := (es.find? (fun e => e.1 = k)).map Prod.snd

variable {overwrite : Bool} {s : K → Option V} {e : K × V} {es : List (K × V)} {k : K}

theorem seed_cons : seed overwrite s (e :: es) = seed overwrite (put overwrite s e) es := rfl

theorem firstOf_cons_self (h : e.1 = k) : firstOf (e :: es) k = some e.2 := by
  rw [firstOf, List.find?_cons_of_pos (by simpa using h)]
  rfl

theorem firstOf_cons_of_ne (h : e.1 ≠ k) : firstOf (e :: es) k = firstOf es k := by
  rw [firstOf, List.find?_cons_of_neg (by simpa using h), firstOf]

/-- An entry changes its own key only. -/
theorem put_of_ne (h : k ≠ e.1) : put overwrite s e k = s k := by
  rw [put]
  split
  · exact Function.update_of_ne h _ _
  · rfl

theorem put_true_self : put true s e e.1 = some e.2 := Function.update_self ..

theorem put_false_self : put false s e e.1 = (s e.1).or (some e.2) := by
  rw [put]
  cases hs : s e.1 with
  | none => exact Function.update_self ..
  | some v => exact hs

theorem put_of_some {v : V} (h : s k = some v) : put false s e k = some v := by
  by_cases hk : k = e.1
  · rw [hk, put_false_self, ← hk, h]
    rfl
  · rw [put_of_ne hk, h]

theorem seed_of_not_mem (h : ∀ e ∈ es, e.1 ≠ k) : seed overwrite s es k = s k := by
  induction es generalizing s with
  | nil => rfl
  | cons e es ih =>
    obtain ⟨he, hes⟩ := List.forall_mem_cons.mp h
    rw [seed_cons, ih hes, put_of_ne (Ne.symm he)]

/-- The last entry of a key wins. -/
theorem seed_true : seed true s es k = (firstOf es.reverse k).or (s k) := by
  induction es using List.reverseRecOn with
  | nil => rfl
  | append_singleton es e ih =>
    rw [List.reverse_append, List.reverse_singleton, List.singleton_append, seed, List.foldl_append]
    change put true (seed true s es) e k = _
    by_cases hk : e.1 = k
    · rw [firstOf_cons_self hk, ← hk, put_true_self]
      rfl
    · rw [firstOf_cons_of_ne hk, put_of_ne (Ne.symm hk), ih]

/-- What is there stays, and otherwise the first entry of a key wins. -/
theorem seed_false : seed false s es k = (s k).or (firstOf es k) := by
  induction es generalizing s with
  | nil =>
    rw [seed, List.foldl_nil, firstOf, List.find?_nil, Option.map_none, Option.or_none]
  | cons e es ih =>
    rw [seed_cons, ih]
    by_cases hk : e.1 = k
    · rw [firstOf_cons_self hk, ← hk, put_false_self]
      cases s e.1 <;> rfl
    · rw [firstOf_cons_of_ne hk, put_of_ne (Ne.symm hk)]

theorem written_true : written true s es = es.length := by
  induction es generalizing s with
  | nil => rfl
  | cons e es ih => rw [written, ih, List.length_cons, Bool.true_or, if_pos rfl, Nat.add_comm]

/-- One entry is put for each key that has no value yet. -/
theorem written_false :
    written false s es = ((es.map Prod.fst).toFinset.filter (fun k => (s k).isNone = true)).card := by
  induction es generalizing s with
  | nil => rfl
  | cons e es ih =>
    rw [written, ih, List.map_cons, List.toFinset_cons, Bool.false_or]
    split
    · rename_i hnone
      have hput : ∀ k, (put false s e k).isNone = true ↔ k ≠ e.1 ∧ (s k).isNone = true := by
        intro k
        by_cases hk : k = e.1
        · rw [hk, put_false_self]
          cases s e.1 <;> simp
        · rw [put_of_ne hk]
          exact (and_iff_right hk).symm
      have hinsert : (insert e.1 (es.map Prod.fst).toFinset).filter (fun k => (s k).isNone = true) =
          insert e.1 ((es.map Prod.fst).toFinset.filter (fun k => (put false s e k).isNone = true)) := by
        ext k
        rw [Finset.mem_filter, Finset.mem_insert, Finset.mem_insert, Finset.mem_filter, hput]
        by_cases hk : k = e.1
        · rw [hk]
          exact iff_of_true ⟨.inl rfl, hnone⟩ (.inl rfl)
        · tauto
      rw [hinsert, Finset.card_insert_of_notMem, Nat.add_comm]
      rw [Finset.mem_filter, hput]
      exact fun h => h.2.1 rfl
    · rename_i hsome
      have hput : put false s e = s := if_neg hsome
      rw [hput, Finset.filter_insert, if_neg hsome, Nat.zero_add]

end Seeding
