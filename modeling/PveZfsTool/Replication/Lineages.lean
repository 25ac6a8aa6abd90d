import PveZfsTool.Replication.Inventory
import Mathlib.Data.Finset.Dedup

/-!
# What a lineage is

Two keys share a snapshot when both have a snapshot of one GUID.  `Shares` is
that relation without the GUIDs that some migration snapshot has.

* `exists_root`: after the unions two keys have the same root when and only
  when a chain of shared snapshots connects them.
* `mem_lineage_iff`: the members of a lineage are the keys such a chain
  connects.
* `groupLineages_partition`: each key is in one lineage, once, and the
  partition is that of the chains.  It depends on no order.
-/

namespace PveZfsTool.Replication

open Text

/-! ## Shared snapshots -/

/-- Some place of the key has the GUID. -/
def HasGuid (F : Fleet) (k : LineageKey) (guid : Str) : Prop :=
  ∃ p ∈ places F, p.key = k ∧ p.row.guid = guid

/-- Both keys have a GUID, and no snapshot that the pattern excludes has it. -/
def SharesUnless (excluded : Str → Bool) (F : Fleet) (x y : LineageKey) : Prop :=
  ∃ guid, HasGuid F x guid ∧ HasGuid F y guid ∧
    ∀ p ∈ places F, p.row.guid = guid → excluded p.row.snapshot = false

/-- Both keys have a GUID that no migration snapshot has. -/
def Shares (F : Fleet) : LineageKey → LineageKey → Prop := SharesUnless isMigrateSnap F

/-- A chain of keys, each of which shares a snapshot with the next. -/
def Chained (F : Fleet) : LineageKey → LineageKey → Prop := Relation.ReflTransGen (Shares F)

/-- The fleet has a row for the key. -/
def IsKey (F : Fleet) (k : LineageKey) : Prop := ∃ p ∈ places F, p.key = k

/-- The keys of each lineage. -/
def lineageKeys (F : Fleet) : List (List LineageKey) :=
  (groupLineages F).map (fun copies => copies.map Copy.key)

/-- The lineages as a set of sets of keys. -/
def partition (F : Fleet) : Finset (Finset LineageKey) :=
  ((lineageKeys F).map List.toFinset).toFinset

/-- Two fleets with the same rows on the same hosts, in any order. -/
def SameRows (F F' : Fleet) : Prop := ∀ p, p ∈ places F ↔ p ∈ places F'

theorem Shares.symm {F : Fleet} {x y : LineageKey} (h : Shares F x y) : Shares F y x := by
  obtain ⟨guid, hx, hy, hclean⟩ := h
  exact ⟨guid, hy, hx, hclean⟩

theorem Chained.symm {F : Fleet} {x y : LineageKey} (h : Chained F x y) : Chained F y x := by
  induction h with
  | refl => exact .refl
  | tail _ hstep ih => exact .head hstep.symm ih

/-! ## The unions -/

theorem mem_guidIndex {F : Fleet} {guid : Str} {ps : List Place} :
    (guid, ps) ∈ (buildGuidIndex F).entries ↔
      ps ≠ [] ∧ ps = (places F).filter (fun p => p.row.guid = guid) := Dict.mem_entries_group

/-- A union is made for two keys that share the GUID. -/
theorem shares_of_mem_links {F : Fleet} {x y : LineageKey} {guid : Str} {ps : List Place}
    (hps : (guid, ps) ∈ (buildGuidIndex F).entries) (h : (x, y) ∈ guidLinks ps) : Shares F x y := by
  have hmem : ∀ p, p ∈ ps ↔ p ∈ places F ∧ p.row.guid = guid := by
    intro p
    rw [(mem_guidIndex.mp hps).2, List.mem_filter, decide_eq_true_iff]
  unfold guidLinks at h
  by_cases hshort : ps.length < 2
  · rw [if_pos hshort] at h
    cases h
  rw [if_neg hshort] at h
  by_cases hmigrate : ps.any (fun p => isMigrateSnap p.row.snapshot) = true
  · rw [if_pos hmigrate] at h
    cases h
  rw [if_neg hmigrate] at h
  cases ps with
  | nil => cases h
  | cons first rest =>
    obtain ⟨p, hp, hxy⟩ := List.mem_map.mp h
    obtain ⟨hx, hy⟩ := Prod.mk.inj hxy
    obtain ⟨hfirst, hfirst_guid⟩ := (hmem first).mp List.mem_cons_self
    obtain ⟨hp, hp_guid⟩ := (hmem p).mp (List.mem_cons_of_mem _ hp)
    refine ⟨guid, ⟨first, hfirst, hx, hfirst_guid⟩, ⟨p, hp, hy, hp_guid⟩, ?_⟩
    intro q hq hguid
    rw [Bool.not_eq_true, List.any_eq_false] at hmigrate
    exact Bool.eq_false_iff.mpr (hmigrate q ((hmem q).mpr ⟨hq, hguid⟩))

/-- The unions for a GUID connect each of its places to the first one. -/
theorem links_of_mem {ps : List Place} {first p : Place} {rest : List Place}
    (hps : ps = first :: rest) (hp : p ∈ ps)
    (hclean : ∀ q ∈ ps, isMigrateSnap q.row.snapshot = false) :
    first.key = p.key ∨ (first.key, p.key) ∈ guidLinks ps := by
  rw [hps] at hp
  rcases List.mem_cons.mp hp with heq | hrest
  · exact .inl (by rw [heq])
  · refine .inr ?_
    have hlong : ¬ ps.length < 2 := by
      rw [hps, List.length_cons]
      have hpos := List.length_pos_of_mem hrest
      omega
    have hmigrate : ¬ ps.any (fun p => isMigrateSnap p.row.snapshot) = true := by
      rw [Bool.not_eq_true, List.any_eq_false]
      intro q hq
      rw [hclean q hq]
      exact Bool.false_ne_true
    unfold guidLinks
    rw [if_neg hlong, if_neg hmigrate, hps]
    exact List.mem_map.mpr ⟨p, hrest, rfl⟩

/-- After the unions two keys have the same root when and only when a chain of
shared snapshots connects them. -/
theorem exists_root (F : Fleet) :
    ∃ root rank, UnionFind.Forest (linked F) root rank ∧
      ∀ x y, root x = root y ↔ Chained F x y := by
  have hstart : UnionFind.Forest (registered F) id (fun _ => 0) := UnionFind.forest_empty.finds
  obtain ⟨root, rank, hforest, hclasses⟩ := UnionFind.exists_links hstart
    ((buildGuidIndex F).entries.flatMap (fun e => guidLinks e.2))
  refine ⟨root, rank, hforest, fun x y => (hclasses x y).trans ⟨?_, ?_⟩⟩
  · intro h
    induction h with
    | rel x y hr =>
      rcases hr with heq | hlink
      · have hxy : x = y := heq
        rw [hxy]
        exact .refl
      · obtain ⟨e, he, hmem⟩ := List.mem_flatMap.mp hlink
        exact .single (shares_of_mem_links he hmem)
    | refl x => exact .refl
    | symm x y _ ih => exact ih.symm
    | trans x y z _ _ ih₁ ih₂ => exact ih₁.trans ih₂
  · intro h
    induction h with
    | refl => exact .refl x
    | @tail y z _ hshares ih =>
      refine .trans x y z ih ?_
      -- Both have a place in the entry of the GUID, whose first place is linked to each.
      obtain ⟨guid, ⟨p, hp, hpy, hp_guid⟩, ⟨q, hq, hqz, hq_guid⟩, hclean⟩ := hshares
      have hmem : ∀ r, r ∈ (places F).filter (fun p => p.row.guid = guid) ↔
          r ∈ places F ∧ r.row.guid = guid := by
        intro r
        rw [List.mem_filter, decide_eq_true_iff]
      have hpmem := (hmem p).mpr ⟨hp, hp_guid⟩
      have hentry : (guid, (places F).filter (fun p => p.row.guid = guid)) ∈
          (buildGuidIndex F).entries := mem_guidIndex.mpr ⟨List.ne_nil_of_mem hpmem, rfl⟩
      obtain ⟨first, rest, hps⟩ := List.exists_cons_of_ne_nil (List.ne_nil_of_mem hpmem)
      have hlinked : ∀ r, r ∈ places F → r.row.guid = guid →
          Relation.EqvGen (fun x y => id x = id y ∨
            (x, y) ∈ (buildGuidIndex F).entries.flatMap (fun e => guidLinks e.2))
            first.key r.key := by
        intro r hr hguid
        rcases links_of_mem hps ((hmem r).mpr ⟨hr, hguid⟩)
          (fun q hq => hclean q ((hmem q).mp hq).1 ((hmem q).mp hq).2) with heq | hlink
        · exact heq ▸ .refl _
        · exact .rel _ _ (.inr (List.mem_flatMap.mpr ⟨_, hentry, hlink⟩))
      rw [← hpy, ← hqz]
      exact .trans _ _ _ (.symm _ _ (hlinked p hp hp_guid)) (hlinked q hq hq_guid)

/-! ## The lineages -/

theorem mem_members {F : Fleet} {k : LineageKey} : k ∈ (members F).keys ↔ IsKey F k :=
  Dict.mem_keys_group

/-- The lineages are the groups of keys by root. -/
theorem grouped_eq {F : Fleet} {root : LineageKey → LineageKey} {rank : LineageKey → Nat}
    (h : UnionFind.Forest (linked F) root rank) :
    grouped F = Dict.group root (members F).keys := h.push_finds

theorem lineageKeys_eq (F : Fleet) :
    lineageKeys F =
      (grouped F).entries.map (fun e => e.2.insertionSort (fun a b => keyLe a b = true)) := by
  unfold lineageKeys groupLineages
  rw [List.map_map]
  apply List.map_congr_left
  intro e _
  show ((e.2.insertionSort _).map (copyOf F)).map Copy.key = _
  rw [List.map_map]
  exact List.map_id _

/-- The members of a lineage are the keys that a chain connects to one of
them. -/
theorem mem_lineage_iff {F : Fleet} {L : List LineageKey} (hL : L ∈ lineageKeys F)
    {x : LineageKey} (hx : x ∈ L) (y : LineageKey) : y ∈ L ↔ IsKey F y ∧ Chained F x y := by
  obtain ⟨root, rank, hforest, hroot⟩ := exists_root F
  rw [lineageKeys_eq, grouped_eq hforest] at hL
  obtain ⟨⟨r, ks⟩, he, rfl⟩ := List.mem_map.mp hL
  have hks := (Dict.mem_entries_group.mp he).2
  have hmem : ∀ k, k ∈ ks.insertionSort (fun a b => keyLe a b = true) ↔
      IsKey F k ∧ root k = r := by
    intro k
    rw [List.mem_insertionSort, hks, List.mem_filter, mem_members, decide_eq_true_iff]
  rw [hmem y, ← hroot, ((hmem x).mp hx).2, eq_comm (a := r)]

theorem exists_lineage {F : Fleet} {k : LineageKey} (hk : IsKey F k) : ∃ L ∈ lineageKeys F, k ∈ L := by
  obtain ⟨root, rank, hforest, -⟩ := exists_root F
  rw [lineageKeys_eq, grouped_eq hforest]
  have hmem : k ∈ (members F).keys.filter (fun k' => root k' = root k) :=
    List.mem_filter.mpr ⟨mem_members.mpr hk, decide_eq_true rfl⟩
  refine ⟨_, List.mem_map_of_mem (Dict.mem_entries_group.mpr ⟨List.ne_nil_of_mem hmem, rfl⟩), ?_⟩
  exact (List.mem_insertionSort _).mpr hmem

theorem isKey_of_mem {F : Fleet} {L : List LineageKey} (hL : L ∈ lineageKeys F) {k : LineageKey}
    (hk : k ∈ L) : IsKey F k := ((mem_lineage_iff hL hk k).mp hk).1

theorem lineage_ne_nil {F : Fleet} {L : List LineageKey} (hL : L ∈ lineageKeys F) : L ≠ [] := by
  obtain ⟨root, rank, hforest, -⟩ := exists_root F
  rw [lineageKeys_eq, grouped_eq hforest] at hL
  obtain ⟨⟨r, ks⟩, he, rfl⟩ := List.mem_map.mp hL
  obtain ⟨k, hk⟩ := List.exists_mem_of_ne_nil _ (Dict.mem_entries_group.mp he).1
  exact List.ne_nil_of_mem ((List.mem_insertionSort _).mpr hk)

/-- No key is in two lineages, or in one twice. -/
theorem nodup_lineageKeys (F : Fleet) : (lineageKeys F).flatten.Nodup := by
  obtain ⟨root, rank, hforest, -⟩ := exists_root F
  rw [lineageKeys_eq, grouped_eq hforest, List.nodup_flatten]
  constructor
  · intro L hL
    obtain ⟨⟨r, ks⟩, he, rfl⟩ := List.mem_map.mp hL
    rw [(List.perm_insertionSort _ _).nodup_iff, (Dict.mem_entries_group.mp he).2]
    exact (Dict.nodup_keys _).filter _
  · have hroots : (Dict.group root (members F).keys).entries.Pairwise (fun e e' => e.1 ≠ e'.1) :=
      List.pairwise_map.mp (Dict.nodup_keys _)
    rw [List.pairwise_map]
    apply hroots.imp_of_mem
    intro e e' he he' hne k hk hk'
    have hroot : ∀ {e : LineageKey × List LineageKey},
        e ∈ (Dict.group root (members F).keys).entries →
        k ∈ e.2.insertionSort (fun a b => keyLe a b = true) → root k = e.1 := by
      intro e he hk
      rw [List.mem_insertionSort, (Dict.mem_entries_group.mp he).2, List.mem_filter] at hk
      exact of_decide_eq_true hk.2
    exact hne ((hroot he hk).symm.trans (hroot he' hk'))

/-! ## The partition -/

theorem mem_partition {F : Fleet} {S : Finset LineageKey} :
    S ∈ partition F ↔ ∃ x, IsKey F x ∧ ∀ y, y ∈ S ↔ IsKey F y ∧ Chained F x y := by
  rw [partition, List.mem_toFinset, List.mem_map]
  constructor
  · intro ⟨L, hL, hS⟩
    obtain ⟨x, hx⟩ := List.exists_mem_of_ne_nil _ (lineage_ne_nil hL)
    refine ⟨x, isKey_of_mem hL hx, fun y => ?_⟩
    rw [← hS, List.mem_toFinset]
    exact mem_lineage_iff hL hx y
  · intro ⟨x, hx, hS⟩
    obtain ⟨L, hL, hmem⟩ := exists_lineage hx
    refine ⟨L, hL, Finset.ext fun y => ?_⟩
    rw [List.mem_toFinset, hS]
    exact mem_lineage_iff hL hmem y

theorem SameRows.shares {F F' : Fleet} (h : SameRows F F') : Shares F = Shares F' := by
  funext x y
  simp only [Shares, SharesUnless, HasGuid, h _]

theorem SameRows.isKey {F F' : Fleet} (h : SameRows F F') (k : LineageKey) :
    IsKey F k ↔ IsKey F' k := by
  simp only [IsKey, h _]

theorem SameRows.partition_eq {F F' : Fleet} (h : SameRows F F') : partition F = partition F' := by
  apply Finset.ext
  intro S
  simp only [mem_partition, Chained, h.shares, h.isKey]

/-- Each key of the fleet is in one lineage, once.  Two keys are in the same
one when and only when a chain of shared snapshots connects them, and the
partition depends on no order. -/
theorem groupLineages_partition (F : Fleet) :
    (lineageKeys F).flatten.Nodup ∧
      (∀ k, k ∈ (lineageKeys F).flatten ↔ IsKey F k) ∧
      (∀ x y, IsKey F x → IsKey F y →
        ((∃ L ∈ lineageKeys F, x ∈ L ∧ y ∈ L) ↔ Chained F x y)) ∧
      ∀ F', SameRows F F' → partition F = partition F' := by
  refine ⟨nodup_lineageKeys F, fun k => ?_, fun x y hx hy => ?_, fun F' => SameRows.partition_eq⟩
  · rw [List.mem_flatten]
    constructor
    · intro ⟨L, hL, hk⟩
      exact isKey_of_mem hL hk
    · exact exists_lineage
  · constructor
    · intro ⟨L, hL, hxL, hyL⟩
      exact ((mem_lineage_iff hL hxL y).mp hyL).2
    · intro hchain
      obtain ⟨L, hL, hxL⟩ := exists_lineage hx
      exact ⟨L, hL, hxL, (mem_lineage_iff hL hxL y).mpr ⟨hy, hchain⟩⟩

/-- Two hosts with a snapshot that someone named `migrate-foo`. -/
def migrateFooFleet : Fleet where
  entries := [("a".toList, [⟨"p/x", "migrate-foo", "1", 0⟩]), ("b".toList, [⟨"p/x", "migrate-foo", "1", 0⟩])]
  distinct := by decide

/-- The pattern asks for the digits too: a snapshot whose name only starts with
`migrate-` links its places. -/
theorem migrateFoo_links :
    ¬ ∀ (F : Fleet) (x y : LineageKey), IsKey F x → IsKey F y →
      ((∃ L ∈ lineageKeys F, x ∈ L ∧ y ∈ L) ↔
        Relation.ReflTransGen (SharesUnless (fun s => startsWith s "migrate-") F) x y) := by
  intro hclaim
  have hlineages : lineageKeys migrateFooFleet =
      [[("a".toList, "p/x".toList), ("b".toList, "p/x".toList)]] := by decide
  have hnames : ∀ p ∈ places migrateFooFleet, startsWith p.row.snapshot "migrate-" = true := by decide
  have hkeys : ∀ k ∈ [("a".toList, "p/x".toList), ("b".toList, "p/x".toList)],
      ∃ p ∈ places migrateFooFleet, p.key = k := by decide
  have hchain := (hclaim migrateFooFleet _ _ (hkeys _ List.mem_cons_self)
    (hkeys _ (List.mem_cons_of_mem _ List.mem_cons_self))).mp
    ⟨_, by rw [hlineages]; exact List.mem_cons_self, List.mem_cons_self,
      List.mem_cons_of_mem _ List.mem_cons_self⟩
  rcases hchain.cases_head with heq | ⟨z, ⟨guid, ⟨p, hp, -, hguid⟩, -, hclean⟩, -⟩
  · exact absurd heq (by decide)
  · exact Bool.false_ne_true ((hclean p hp hguid).symm.trans (hnames p hp))

end PveZfsTool.Replication
