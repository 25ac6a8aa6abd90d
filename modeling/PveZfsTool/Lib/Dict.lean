import Mathlib.Data.List.Nodup
import Mathlib.Data.List.Dedup

/-!
# Dictionaries

A `Dict` keeps its entries in the order in which the keys were first set, and
it has no key twice.

* `alter` sets a key to what it makes of the old value.  `set`, `setdefault`
  and `push` are it, and `get?_alter` and `mem_keys_alter` say what it does.
* `group` collects the members of a list by a key.
-/

/-- A dictionary with its entries in the order of insertion. -/
structure Dict (K V : Type) where
  entries : List (K × V)
  distinct : (entries.map Prod.fst).Nodup
  deriving DecidableEq

namespace Dict

variable {K V α : Type} [DecidableEq K]

/-- `dict()` -/
def empty : Dict K V := ⟨[], List.nodup_nil⟩

/-- `d.keys()` -/
def keys (d : Dict K V) : List K := d.entries.map Prod.fst

/-- `d.get(k)` -/
def get? (d : Dict K V) (k : K) : Option V := d.entries.lookup k

/-- The entries with the one of the key replaced, or added at the end. -/
def alterEntries (k : K) (f : Option V → V) : List (K × V) → List (K × V)
  | [] => [(k, f none)]
  | e :: es => if e.1 = k then (k, f (some e.2)) :: es else e :: alterEntries k f es

theorem keys_alterEntries {k : K} {f : Option V → V} {es : List (K × V)} :
    (alterEntries k f es).map Prod.fst =
      if k ∈ es.map Prod.fst then es.map Prod.fst else es.map Prod.fst ++ [k] := by
  induction es with
  | nil => simp [alterEntries]
  | cons e es ih =>
    rw [alterEntries, List.map_cons]
    by_cases he : e.1 = k
    · rw [if_pos he, if_pos (by simp [he]), List.map_cons, he]
    · have hne : k ≠ e.1 := fun h => he h.symm
      rw [if_neg he, List.map_cons, ih]
      by_cases hk : k ∈ es.map Prod.fst
      · rw [if_pos hk, if_pos (List.mem_cons_of_mem _ hk)]
      · rw [if_neg hk, if_neg (by rw [List.mem_cons]; exact fun h => h.elim hne hk), List.cons_append]

/-- Set the key to what `f` makes of its value. -/
def alter (d : Dict K V) (k : K) (f : Option V → V) : Dict K V where
  entries := alterEntries k f d.entries
  distinct := by
    rw [keys_alterEntries]
    by_cases hk : k ∈ d.entries.map Prod.fst
    · rw [if_pos hk]
      exact d.distinct
    · rw [if_neg hk]
      exact d.distinct.append (List.nodup_singleton k) (List.disjoint_singleton.mpr hk)

/-- `d[k] = v` -/
def set (d : Dict K V) (k : K) (v : V) : Dict K V := d.alter k (fun _ => v)

/-- `d.setdefault(k, v)` -/
def setdefault (d : Dict K V) (k : K) (v : V) : Dict K V := d.alter k (fun o => o.getD v)

/-- `d.setdefault(k, []).append(x)` -/
def push (d : Dict K (List α)) (k : K) (x : α) : Dict K (List α) :=
  d.alter k (fun o => o.getD [] ++ [x])

/-- `d.update(e)` -/
def update (d e : Dict K V) : Dict K V := e.entries.foldl (fun d p => d.set p.1 p.2) d

/-- The dictionary with `f` of each value. -/
def mapValues {W : Type} (f : V → W) (d : Dict K V) : Dict K W where
  entries := d.entries.map (fun e => (e.1, f e.2))
  distinct := by
    rw [List.map_map]
    exact d.distinct

/-- The dictionary without the entries that `p` does not hold of. -/
def filter (p : K → V → Bool) (d : Dict K V) : Dict K V where
  entries := d.entries.filter (fun e => p e.1 e.2)
  distinct := d.distinct.sublist (List.filter_sublist.map Prod.fst)

/-- The members of the list by their key. -/
def group (key : α → K) (xs : List α) : Dict K (List α) :=
  xs.foldl (fun d x => d.push (key x) x) empty

/-! ## Lookups -/

omit [DecidableEq K] in
theorem eq_empty {d : Dict K V} (h : d.entries = []) : d = empty := by
  obtain ⟨entries, distinct⟩ := d
  obtain rfl : entries = [] := h
  rfl

theorem alterEntries_ne_nil {k : K} {f : Option V → V} {es : List (K × V)} :
    alterEntries k f es ≠ [] := by
  cases es with
  | nil => exact List.cons_ne_nil _ _
  | cons e es =>
    rw [alterEntries]
    split_ifs <;> exact List.cons_ne_nil _ _

@[simp] theorem get?_empty {k : K} : (empty : Dict K V).get? k = none := rfl

theorem lookup_alterEntries {k k' : K} {f : Option V → V} {es : List (K × V)} :
    (alterEntries k f es).lookup k' = if k' = k then some (f (es.lookup k)) else es.lookup k' := by
  induction es with
  | nil =>
    rw [alterEntries, List.lookup_cons]
    by_cases hk : k' = k
    · simp [hk]
    · rw [if_neg hk, beq_false_of_ne hk]
  | cons e es ih =>
    rw [alterEntries]
    by_cases he : e.1 = k
    · rw [if_pos he, List.lookup_cons, List.lookup_cons, List.lookup_cons, he, beq_self_eq_true]
      by_cases hk : k' = k
      · rw [if_pos hk, hk, beq_self_eq_true]
      · rw [if_neg hk, beq_false_of_ne hk]
    · have hne : k ≠ e.1 := fun h => he h.symm
      rw [if_neg he, List.lookup_cons, List.lookup_cons, List.lookup_cons, ih, beq_false_of_ne hne]
      by_cases hk : k' = k
      · rw [if_pos hk, if_pos hk, hk, beq_false_of_ne hne]
      · rw [if_neg hk, if_neg hk]

@[simp] theorem get?_alter {d : Dict K V} {k k' : K} {f : Option V → V} :
    (d.alter k f).get? k' = if k' = k then some (f (d.get? k)) else d.get? k' :=
  lookup_alterEntries

theorem get?_set {d : Dict K V} {k k' : K} {v : V} :
    (d.set k v).get? k' = if k' = k then some v else d.get? k' := get?_alter

theorem keys_alter {d : Dict K V} {k : K} {f : Option V → V} :
    (d.alter k f).keys = if k ∈ d.keys then d.keys else d.keys ++ [k] := keys_alterEntries

theorem mem_keys_alter {d : Dict K V} {k k' : K} {f : Option V → V} :
    k' ∈ (d.alter k f).keys ↔ k' = k ∨ k' ∈ d.keys := by
  rw [keys_alter]
  by_cases hk : k ∈ d.keys
  · rw [if_pos hk]
    constructor
    · exact .inr
    · intro h
      rcases h with heq | h
      · exact heq ▸ hk
      · exact h
  · rw [if_neg hk, List.mem_append, List.mem_singleton, or_comm]

theorem lookup_isSome {es : List (K × V)} {k : K} :
    (es.lookup k).isSome = true ↔ k ∈ es.map Prod.fst := by
  induction es with
  | nil => simp
  | cons e es ih =>
    rw [List.lookup_cons, List.map_cons, List.mem_cons]
    by_cases hk : k = e.1
    · simp [hk]
    · rw [beq_false_of_ne hk, ih]
      simp [hk]

theorem get?_isSome {d : Dict K V} {k : K} : (d.get? k).isSome = true ↔ k ∈ d.keys := lookup_isSome

theorem get?_eq_none {d : Dict K V} {k : K} : d.get? k = none ↔ k ∉ d.keys := by
  rw [← get?_isSome, Option.not_isSome_iff_eq_none]

omit [DecidableEq K] in
theorem nodup_keys (d : Dict K V) : d.keys.Nodup := d.distinct

theorem lookup_iff_mem {es : List (K × V)} (hdistinct : (es.map Prod.fst).Nodup) {k : K} {v : V} :
    es.lookup k = some v ↔ (k, v) ∈ es := by
  induction es with
  | nil => simp
  | cons e es ih =>
    rw [List.map_cons, List.nodup_cons] at hdistinct
    rw [List.lookup_cons, List.mem_cons]
    by_cases hk : k = e.1
    · rw [hk, beq_self_eq_true]
      constructor
      · intro h
        exact .inl (by rw [← Option.some.inj h])
      · intro h
        rcases h with heq | hmem
        · rw [← heq]
        · exact absurd (List.mem_map_of_mem hmem) hdistinct.1
    · rw [beq_false_of_ne hk, ih hdistinct.2]
      constructor
      · exact .inr
      · intro h
        rcases h with heq | hmem
        · exact absurd (congrArg Prod.fst heq) hk
        · exact hmem

theorem mem_entries {d : Dict K V} {k : K} {v : V} : (k, v) ∈ d.entries ↔ d.get? k = some v :=
  (lookup_iff_mem d.distinct).symm

omit [DecidableEq K] in
theorem keys_mapValues {W : Type} {f : V → W} {d : Dict K V} : (d.mapValues f).keys = d.keys := by
  rw [keys, keys, mapValues, List.map_map]
  rfl

theorem get?_mapValues {W : Type} {f : V → W} {d : Dict K V} {k : K} :
    (d.mapValues f).get? k = (d.get? k).map f := by
  show (d.entries.map (fun e => (e.1, f e.2))).lookup k = (d.entries.lookup k).map f
  induction d.entries with
  | nil => rfl
  | cons e es ih =>
    rw [List.map_cons, List.lookup_cons, List.lookup_cons, ih]
    cases k == e.1 <;> rfl

theorem get?_filter {p : K → V → Bool} {d : Dict K V} {k : K} :
    (d.filter p).get? k = (d.get? k).filter (p k) := by
  refine Option.ext fun v => ?_
  rw [Option.filter_eq_some_iff, ← mem_entries, ← mem_entries]
  exact List.mem_filter

private theorem get?_update_aux {es : List (K × V)} {d : Dict K V} {k : K}
    (hdistinct : (es.map Prod.fst).Nodup) :
    (es.foldl (fun d p => d.set p.1 p.2) d).get? k = (es.lookup k).or (d.get? k) := by
  induction es generalizing d with
  | nil => rfl
  | cons e es ih =>
    rw [List.map_cons, List.nodup_cons] at hdistinct
    rw [List.foldl_cons, ih hdistinct.2, get?_set, List.lookup_cons]
    by_cases hk : k = e.1
    · have hnone : es.lookup k = none := by
        rw [← Option.not_isSome_iff_eq_none, lookup_isSome, hk]
        exact hdistinct.1
      rw [if_pos hk, hnone, hk, beq_self_eq_true]
      rfl
    · rw [if_neg hk, beq_false_of_ne hk]

/-- The values of the other dictionary go first. -/
theorem get?_update {d e : Dict K V} {k : K} :
    (d.update e).get? k = (e.get? k).or (d.get? k) := get?_update_aux e.distinct

/-! ## Entries that are set one after another -/

theorem alterEntries_of_not_mem {k : K} {f : Option V → V} {es : List (K × V)}
    (h : k ∉ es.map Prod.fst) : alterEntries k f es = es ++ [(k, f none)] := by
  induction es with
  | nil => rfl
  | cons e es ih =>
    rw [List.map_cons, List.mem_cons, not_or] at h
    rw [alterEntries, if_neg (Ne.symm h.1), ih h.2, List.cons_append]

/-- A new key comes last. -/
theorem entries_set_of_not_mem {d : Dict K V} {k : K} {v : V} (h : k ∉ d.keys) :
    (d.set k v).entries = d.entries ++ [(k, v)] := alterEntries_of_not_mem h

theorem entries_foldl_set {es : List (K × V)} {d : Dict K V}
    (h : (d.keys ++ es.map Prod.fst).Nodup) :
    (es.foldl (fun d e => d.set e.1 e.2) d).entries = d.entries ++ es := by
  induction es generalizing d with
  | nil => simp
  | cons e es ih =>
    have hnew : e.1 ∉ d.keys := by
      rw [List.map_cons, List.nodup_middle, List.nodup_cons, List.mem_append, not_or] at h
      exact h.1.1
    have hentries : (d.set e.1 e.2).entries = d.entries ++ [e] := entries_set_of_not_mem hnew
    have hkeys : (d.set e.1 e.2).keys = d.keys ++ [e.1] := by
      rw [keys, hentries, List.map_append]
      rfl
    rw [List.foldl_cons, ih, hentries, List.append_assoc]
    · rfl
    · rw [hkeys, List.append_assoc]
      exact h

/-- The last entry of a key counts. -/
theorem get?_foldl_set {es : List (K × V)} {d : Dict K V} {k : K} :
    (es.foldl (fun d e => d.set e.1 e.2) d).get? k =
      ((es.filter (fun e => e.1 = k)).getLast?.map Prod.snd).or (d.get? k) := by
  induction es generalizing d with
  | nil => rfl
  | cons e es ih =>
    rw [List.foldl_cons, ih, get?_set]
    by_cases hk : e.1 = k
    · rw [if_pos hk.symm, List.filter_cons_of_pos (by simpa using hk), List.getLast?_cons]
      cases (es.filter (fun e => e.1 = k)).getLast? <;> rfl
    · rw [if_neg (Ne.symm hk), List.filter_cons_of_neg (by simpa using hk)]

/-! ## Groups -/

theorem mem_keys_foldl_push {ps : List (K × α)} {d : Dict K (List α)} {k : K} :
    k ∈ (ps.foldl (fun d p => d.push p.1 p.2) d).keys ↔ k ∈ d.keys ∨ ∃ p ∈ ps, p.1 = k := by
  induction ps generalizing d with
  | nil => simp
  | cons p ps ih =>
    rw [List.foldl_cons, ih, push, mem_keys_alter, List.exists_mem_cons_iff, or_comm (a := k = p.1),
      or_assoc, eq_comm]

private theorem get?_group_aux {key : α → K} {xs : List α} {d : Dict K (List α)} {k : K} :
    ((xs.foldl (fun d x => d.push (key x) x) d).get? k).getD [] =
      (d.get? k).getD [] ++ xs.filter (fun x => key x = k) := by
  induction xs generalizing d with
  | nil => simp
  | cons x xs ih =>
    rw [List.foldl_cons, ih, push, get?_alter]
    by_cases hk : k = key x
    · rw [if_pos hk, List.filter_cons_of_pos (by simp [hk]), hk]
      simp
    · have hne : ¬ key x = k := fun h => hk h.symm
      rw [if_neg hk, List.filter_cons_of_neg (by simp [hne])]

/-- The group of a key has the members with that key, in their order. -/
theorem get?_group {key : α → K} {xs : List α} {k : K} :
    ((group key xs).get? k).getD [] = xs.filter (fun x => key x = k) := by
  rw [group, get?_group_aux]
  rfl

private theorem mem_keys_group_aux {key : α → K} {xs : List α} {d : Dict K (List α)} {k : K} :
    k ∈ (xs.foldl (fun d x => d.push (key x) x) d).keys ↔ k ∈ d.keys ∨ ∃ x ∈ xs, key x = k := by
  induction xs generalizing d with
  | nil => simp
  | cons x xs ih =>
    rw [List.foldl_cons, ih, push, mem_keys_alter]
    constructor
    · intro h
      rcases h with (heq | hd) | ⟨y, hy, hk⟩
      · exact .inr ⟨x, List.mem_cons_self, heq.symm⟩
      · exact .inl hd
      · exact .inr ⟨y, List.mem_cons_of_mem _ hy, hk⟩
    · intro h
      rcases h with hd | ⟨y, hy, hk⟩
      · exact .inl (.inr hd)
      · rcases List.mem_cons.mp hy with hfirst | hrest
        · exact .inl (.inl (hfirst ▸ hk.symm))
        · exact .inr ⟨y, hrest, hk⟩

theorem mem_keys_group {key : α → K} {xs : List α} {k : K} :
    k ∈ (group key xs).keys ↔ ∃ x ∈ xs, key x = k := by
  rw [group, mem_keys_group_aux]
  simp [empty, keys]

/-- An entry of the groups: a key that some member has, and the members with
that key. -/
theorem mem_entries_group {key : α → K} {xs : List α} {k : K} {ys : List α} :
    (k, ys) ∈ (group key xs).entries ↔ ys ≠ [] ∧ ys = xs.filter (fun x => key x = k) := by
  rw [mem_entries]
  have hgroup : ((group key xs).get? k).getD [] = xs.filter (fun x => key x = k) := get?_group
  have hne : k ∈ (group key xs).keys ↔ xs.filter (fun x => key x = k) ≠ [] := by
    rw [mem_keys_group]
    constructor
    · intro ⟨x, hx, hk⟩
      exact List.ne_nil_of_mem (List.mem_filter.mpr ⟨hx, decide_eq_true hk⟩)
    · intro h
      obtain ⟨x, hx⟩ := List.exists_mem_of_ne_nil _ h
      exact ⟨x, (List.mem_filter.mp hx).1, of_decide_eq_true (List.mem_filter.mp hx).2⟩
  cases hget : (group key xs).get? k with
  | none =>
    have hnil : xs.filter (fun x => key x = k) = [] := by
      by_contra h
      exact get?_eq_none.mp hget (hne.mpr h)
    constructor
    · intro h
      cases h
    · intro ⟨hys, heq⟩
      exact absurd (heq.trans hnil) hys
  | some zs =>
    rw [hget] at hgroup
    have hzs : zs = xs.filter (fun x => key x = k) := hgroup
    have hzs_ne : zs ≠ [] := by
      rw [hzs]
      exact hne.mp (get?_isSome.mp (by rw [hget]; rfl))
    constructor
    · intro h
      rw [← Option.some.inj h]
      exact ⟨hzs_ne, hzs⟩
    · intro ⟨_, heq⟩
      rw [heq, hzs]

end Dict
