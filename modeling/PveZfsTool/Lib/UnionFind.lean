import PveZfsTool.Lib.Dict
import Mathlib.Logic.Relation

/-!
# Union-find with path halving

The parents are a dictionary.  A key that has no entry is its own parent.
`climb` is the loop of `find`: it points a key to its grandparent and goes on
there.

`Forest p root rank` says that `p` is a forest whose trees are the classes of
`root`, and that ranks grow towards the roots.

* `find_spec`: `find` answers the root and changes no class.
* `union_spec`: `union` merges two classes and changes no other.
* `Forest.push_finds`: collecting keys under what `find` answers collects them
  by root.
* `exists_links`: after a list of unions, two keys have the same root when and
  only when the links connect them.
-/

namespace UnionFind

variable {K : Type} [DecidableEq K]

/-! ## The operations -/

abbrev Parents (K : Type) := Dict K K

/-- `parent[k]` -/
def up (p : Parents K) (k : K) : K := (p.get? k).getD k

/-- `while parent[k] != k: parent[k] = parent[parent[k]]; k = parent[k]`, for
at most so many rounds. -/
def climb : Nat → Parents K → K → Parents K × K
  | 0, p, k => (p, k)
  | n + 1, p, k =>
      if up p k = k then (p, k)
      else climb n (p.set k (up p (up p k))) (up p (up p k))

/-- `find(k)` -/
def find (p : Parents K) (k : K) : Parents K × K :=
  let p := p.setdefault k k
  climb p.keys.length p k

/-- `union(a, b)` -/
def union (p : Parents K) (a b : K) : Parents K :=
  let ra := find p a
  let rb := find ra.1 b
  if ra.2 ≠ rb.2 then rb.1.set ra.2 rb.2 else rb.1

/-- One union for each link. -/
def unions (p : Parents K) (links : List (K × K)) : Parents K :=
  links.foldl (fun p l => union p l.1 l.2) p

/-! ## Forests -/

/-- The parents are a forest.  `root` is the root of each key's tree. -/
structure Forest (p : Parents K) (root : K → K) (rank : K → Nat) : Prop where
  closed : ∀ k, up p k ≠ k → up p k ∈ p.keys
  same : ∀ k, root (up p k) = root k
  top : ∀ k, up p k = k → root k = k
  climbs : ∀ k, up p k ≠ k → rank k < rank (up p k)

theorem up_set {p : Parents K} {k k' v : K} :
    up (p.set k v) k' = if k' = k then v else up p k' := by
  unfold up
  rw [Dict.get?_set]
  by_cases hk : k' = k
  · rw [if_pos hk, if_pos hk]
    rfl
  · rw [if_neg hk, if_neg hk]

theorem up_setdefault {p : Parents K} {k k' : K} : up (p.setdefault k k) k' = up p k' := by
  unfold up Dict.setdefault
  rw [Dict.get?_alter]
  by_cases hk : k' = k
  · rw [if_pos hk, hk]
    rfl
  · rw [if_neg hk]

/-- A key that has another parent is in the dictionary. -/
theorem mem_keys_of_up_ne {p : Parents K} {k : K} (h : up p k ≠ k) : k ∈ p.keys := by
  by_contra hk
  apply h
  rw [up, Dict.get?_eq_none.mpr hk]
  rfl

variable {p : Parents K} {root : K → K} {rank : K → Nat}

theorem keys_set_of_mem {k v : K} (h : k ∈ p.keys) : (p.set k v).keys = p.keys := by
  rw [Dict.set, Dict.keys_alter, if_pos h]

theorem Forest.setdefault (h : Forest p root rank) {k : K} :
    Forest (p.setdefault k k) root rank where
  closed k' hk' := by
    rw [up_setdefault] at hk' ⊢
    exact Dict.mem_keys_alter.mpr (.inr (h.closed k' hk'))
  same k' := by rw [up_setdefault, h.same]
  top k' hk' := by
    rw [up_setdefault] at hk'
    exact h.top k' hk'
  climbs k' hk' := by
    rw [up_setdefault] at hk' ⊢
    exact h.climbs k' hk'

theorem Forest.rank_le (h : Forest p root rank) (k : K) : rank k ≤ rank (up p k) := by
  by_cases hk : up p k = k
  · exact Nat.le_of_eq (congrArg rank hk.symm)
  · exact Nat.le_of_lt (h.climbs k hk)

/-- Path halving: a key that is no root is pointed to its grandparent. -/
theorem Forest.halve (h : Forest p root rank) {k : K} (hk : up p k ≠ k) :
    Forest (p.set k (up p (up p k))) root rank := by
  have hrank : rank k < rank (up p (up p k)) :=
    Nat.lt_of_lt_of_le (h.climbs k hk) (h.rank_le (up p k))
  have hmem : up p (up p k) ∈ p.keys := by
    by_cases hup : up p (up p k) = up p k
    · rw [hup]
      exact h.closed k hk
    · exact h.closed (up p k) hup
  constructor
  · intro k' hk'
    rw [keys_set_of_mem (mem_keys_of_up_ne hk)]
    rw [up_set] at hk' ⊢
    by_cases heq : k' = k
    · rw [if_pos heq]
      exact hmem
    · rw [if_neg heq] at hk' ⊢
      exact h.closed k' hk'
  · intro k'
    rw [up_set]
    by_cases heq : k' = k
    · rw [if_pos heq, heq, h.same, h.same]
    · rw [if_neg heq, h.same]
  · intro k' hk'
    rw [up_set] at hk'
    by_cases heq : k' = k
    · rw [if_pos heq, heq] at hk'
      rw [hk'] at hrank
      omega
    · rw [if_neg heq] at hk'
      exact h.top k' hk'
  · intro k' hk'
    rw [up_set] at hk' ⊢
    by_cases heq : k' = k
    · rw [if_pos heq, heq]
      exact hrank
    · rw [if_neg heq] at hk' ⊢
      exact h.climbs k' hk'

/-- The keys above a key, which is how many rounds the loop can still take. -/
def above (p : Parents K) (rank : K → Nat) (k : K) : Nat :=
  (p.keys.filter (fun k' => rank k < rank k')).length

omit [DecidableEq K] in
theorem above_lt {k k' : K} (hmem : k' ∈ p.keys) (hrank : rank k < rank k') :
    above p rank k' < above p rank k := by
  have hfilter : p.keys.filter (fun x => rank k' < rank x) =
      (p.keys.filter (fun x => rank k < rank x)).filter (fun x => rank k' < rank x) := by
    rw [List.filter_filter]
    apply List.filter_congr
    intro x _
    rw [← Bool.decide_and, decide_eq_decide]
    omega
  rw [above, above, hfilter, List.length_filter_lt_length_iff_exists]
  exact ⟨k', List.mem_filter.mpr ⟨hmem, decide_eq_true hrank⟩, by simp⟩

/-- What holds of the roots and of every key whose parent it holds of holds of
every key. -/
theorem Forest.induction {P : K → Prop} (h : Forest p root rank) (hroot : ∀ k, up p k = k → P k)
    (hstep : ∀ k, up p k ≠ k → P (up p k) → P k) (k : K) : P k := by
  generalize hn : above p rank k = n
  induction n using Nat.strongRecOn generalizing k with
  | ind n ih =>
    by_cases hk : up p k = k
    · exact hroot k hk
    · have hlt := above_lt (h.closed k hk) (h.climbs k hk)
      exact hstep k hk (ih _ (hn ▸ hlt) _ rfl)

theorem Forest.root_root (h : Forest p root rank) (k : K) : root (root k) = root k := by
  apply h.induction (P := fun k => root (root k) = root k)
  · intro k hk
    rw [h.top k hk, h.top k hk]
  · intro k _ ih
    rw [h.same] at ih
    exact ih

theorem Forest.root_mem (h : Forest p root rank) {k : K} (hk : k ∈ p.keys) : root k ∈ p.keys := by
  have hall : ∀ k, k ∈ p.keys → root k ∈ p.keys := by
    apply h.induction (P := fun k => k ∈ p.keys → root k ∈ p.keys)
    · intro k hup hmem
      rw [h.top k hup]
      exact hmem
    · intro k hup ih _
      rw [← h.same]
      exact ih (h.closed k hup)
  exact hall k hk

/-- The loop ends at the root, and it changes no class. -/
theorem climb_spec {n : Nat} {k : K} (h : Forest p root rank) (hn : above p rank k ≤ n) :
    Forest (climb n p k).1 root rank ∧ (climb n p k).2 = root k ∧
      (climb n p k).1.keys = p.keys := by
  induction n generalizing p k with
  | zero =>
    have hroot : up p k = k := by
      by_contra hk
      have hlt := above_lt (p := p) (h.closed k hk) (h.climbs k hk)
      omega
    exact ⟨h, (h.top k hroot).symm, rfl⟩
  | succ n ih =>
    rw [climb]
    by_cases hk : up p k = k
    · rw [if_pos hk]
      exact ⟨h, (h.top k hk).symm, rfl⟩
    · rw [if_neg hk]
      have hkeys := keys_set_of_mem (v := up p (up p k)) (mem_keys_of_up_ne hk)
      have habove : above (p.set k (up p (up p k))) rank (up p (up p k)) ≤ n := by
        have hsame : above (p.set k (up p (up p k))) rank (up p (up p k)) =
            above p rank (up p (up p k)) := by rw [above, above, hkeys]
        have hlt := above_lt (p := p) (h.closed k hk) (h.climbs k hk)
        have hle : above p rank (up p (up p k)) ≤ above p rank (up p k) := by
          by_cases hup : up p (up p k) = up p k
          · exact Nat.le_of_eq (congrArg (above p rank) hup)
          · exact Nat.le_of_lt (above_lt (h.closed _ hup) (h.climbs _ hup))
        omega
      obtain ⟨hforest, hroot, hkept⟩ := ih (h.halve hk) habove
      exact ⟨hforest, by rw [hroot, h.same, h.same], hkept.trans hkeys⟩

/-- `find` answers the root, and it changes no class. -/
theorem find_spec {k : K} (h : Forest p root rank) :
    Forest (find p k).1 root rank ∧ (find p k).2 = root k ∧
      ∀ k', k' ∈ (find p k).1.keys ↔ k' = k ∨ k' ∈ p.keys := by
  have habove : above (p.setdefault k k) rank k ≤ (p.setdefault k k).keys.length :=
    List.length_filter_le _ _
  obtain ⟨hforest, hroot, hkeys⟩ := climb_spec h.setdefault habove
  refine ⟨hforest, hroot, fun k' => ?_⟩
  show k' ∈ (climb _ (p.setdefault k k) k).1.keys ↔ _
  rw [hkeys]
  exact Dict.mem_keys_alter

theorem forest_empty : Forest (Dict.empty : Parents K) id (fun _ => 0) where
  closed _ hk := absurd rfl hk
  same _ := rfl
  top _ _ := rfl
  climbs _ hk := absurd rfl hk

/-- Lookups change no class. -/
theorem Forest.finds {α : Type} {key : α → K} {xs : List α} (h : Forest p root rank) :
    Forest (xs.foldl (fun p x => (find p (key x)).1) p) root rank := by
  induction xs generalizing p with
  | nil => exact h
  | cons x xs ih =>
    rw [List.foldl_cons]
    exact ih (find_spec h).1

/-- Keys that are collected under what `find` answers are collected by root. -/
theorem Forest.push_finds {ks : List K} {d : Dict K (List K)} (h : Forest p root rank) :
    (ks.foldl (fun s k => let r := find s.1 k; (r.1, s.2.push r.2 k)) (p, d)).2 =
      ks.foldl (fun d k => d.push (root k) k) d := by
  induction ks generalizing p d with
  | nil => rfl
  | cons k ks ih =>
    obtain ⟨hforest, hroot, -⟩ := find_spec (k := k) h
    rw [List.foldl_cons, List.foldl_cons]
    show (ks.foldl _ ((find p k).1, d.push (find p k).2 k)).2 = _
    rw [ih hforest, hroot]

/-! ## Unions -/

/-- The roots after the tree of `a` is put under the root of `b`. -/
def merge (root : K → K) (a b : K) (k : K) : K := if root k = root a then root b else root k

/-- The root of a tree is put under another root. -/
theorem Forest.link (h : Forest p root rank) {a b : K} (hb : b ∈ p.keys) (hne : root a ≠ root b) :
    Forest (p.set (root a) (root b)) (merge root a b)
      (fun k => if root k = root b then rank k + rank (root a) + 1 else rank k) := by
  constructor
  · intro k hk
    rw [up_set] at hk ⊢
    apply Dict.mem_keys_alter.mpr
    by_cases heq : k = root a
    · rw [if_pos heq]
      exact .inr (h.root_mem hb)
    · rw [if_neg heq] at hk ⊢
      exact .inr (h.closed k hk)
  · intro k
    rw [up_set]
    by_cases heq : k = root a
    · rw [if_pos heq, heq, merge, merge, h.root_root, h.root_root, if_neg (Ne.symm hne), if_pos rfl]
    · rw [if_neg heq, merge, merge, h.same]
  · intro k hk
    rw [up_set] at hk
    by_cases heq : k = root a
    · rw [if_pos heq, heq] at hk
      exact absurd hk.symm hne
    · rw [if_neg heq] at hk
      have htop := h.top k hk
      rw [merge, htop, if_neg heq]
  · intro k hk
    rw [up_set] at hk ⊢
    by_cases heq : k = root a
    · rw [if_pos heq, heq, h.root_root, h.root_root, if_neg hne, if_pos rfl]
      omega
    · rw [if_neg heq] at hk ⊢
      have hlt := h.climbs k hk
      rw [h.same]
      split
      · omega
      · exact hlt

/-- `union` merges the two classes. -/
theorem union_spec (h : Forest p root rank) (a b : K) :
    ∃ rank', Forest (union p a b) (merge root a b) rank' := by
  obtain ⟨ha, hra, -⟩ := find_spec (k := a) h
  obtain ⟨hb, hrb, hkeys⟩ := find_spec (k := b) ha
  unfold union
  dsimp only
  rw [hra, hrb]
  by_cases heq : root a = root b
  · have hmerge : merge root a b = root := by
      funext k
      rw [merge, ← heq]
      split
      · rename_i hk
        exact hk.symm
      · rfl
    rw [if_neg (not_not.mpr heq), hmerge]
    exact ⟨rank, hb⟩
  · rw [if_pos heq]
    exact ⟨_, hb.link ((hkeys b).mpr (.inl rfl)) heq⟩

/-! ## Classes -/

omit [DecidableEq K] in
/-- A relation whose pairs another one connects, connects no more. -/
theorem eqvGen_le {r s : K → K → Prop} (h : ∀ x y, r x y → Relation.EqvGen s x y) {x y : K}
    (hxy : Relation.EqvGen r x y) : Relation.EqvGen s x y := by
  induction hxy with
  | rel x y hr => exact h x y hr
  | refl x => exact .refl x
  | symm x y _ ih => exact .symm x y ih
  | trans x y z _ _ ih₁ ih₂ => exact .trans x y z ih₁ ih₂

/-- After unions two keys have the same root when and only when the links
connect them, over the classes that were there. -/
theorem exists_links (h : Forest p root rank) (links : List (K × K)) :
    ∃ root' rank', Forest (unions p links) root' rank' ∧ ∀ x y,
      root' x = root' y ↔ Relation.EqvGen (fun x y => root x = root y ∨ (x, y) ∈ links) x y := by
  induction links generalizing p root rank with
  | nil =>
    refine ⟨root, rank, h, fun x y => ⟨fun hxy => .rel x y (.inl hxy), fun hxy => ?_⟩⟩
    induction hxy with
    | rel x y hr =>
      rcases hr with heq | hmem
      · exact heq
      · cases hmem
    | refl x => rfl
    | symm x y _ ih => exact ih.symm
    | trans x y z _ _ ih₁ ih₂ => exact ih₁.trans ih₂
  | cons l links ih =>
    obtain ⟨a, b⟩ := l
    obtain ⟨rank₁, h₁⟩ := union_spec h a b
    obtain ⟨root', rank', hforest, hclasses⟩ := ih h₁
    refine ⟨root', rank', hforest, fun x y => (hclasses x y).trans ⟨?_, ?_⟩⟩
    · apply eqvGen_le
      intro x y hr
      rcases hr with hmerge | hmem
      · -- A merged class has the old classes of both ends of the link.
        have hlink : Relation.EqvGen (fun x y => root x = root y ∨ (x, y) ∈ (a, b) :: links) a b :=
          .rel a b (.inr List.mem_cons_self)
        unfold merge at hmerge
        by_cases hx : root x = root a
        · have hxa := Relation.EqvGen.rel (r := fun x y => root x = root y ∨ (x, y) ∈ (a, b) :: links)
            x a (.inl hx)
          rw [if_pos hx] at hmerge
          by_cases hy : root y = root a
          · exact .rel x y (.inl (hx.trans hy.symm))
          · rw [if_neg hy] at hmerge
            exact .trans x a y hxa (.trans a b y hlink (.rel b y (.inl hmerge)))
        · rw [if_neg hx] at hmerge
          by_cases hy : root y = root a
          · rw [if_pos hy] at hmerge
            exact .trans x b y (.rel x b (.inl hmerge))
              (.trans b a y (.symm a b hlink) (.rel a y (.inl hy.symm)))
          · rw [if_neg hy] at hmerge
            exact .rel x y (.inl hmerge)
      · exact .rel x y (.inr (List.mem_cons_of_mem _ hmem))
    · apply eqvGen_le
      intro x y hr
      rcases hr with heq | hmem
      · exact .rel x y (.inl (by rw [merge, merge, heq]))
      · rcases List.mem_cons.mp hmem with hfirst | hrest
        · obtain ⟨hx, hy⟩ := Prod.mk.inj hfirst
          rw [hx, hy]
          refine .rel a b (.inl ?_)
          rw [merge, merge, if_pos rfl]
          split <;> rfl
        · exact .rel x y (.inr hrest)

end UnionFind
