import PveZfsTool.Replication.Lineages

/-!
# The entries of the matrix

* `detectSource_iff`: the source of a lineage is the key that ranks first in
  it, by the time of its newest snapshot, then by their number, then by the
  name of the host.
* `matrixRows_first`: the row of the source is the first one.
* `buildMatrix_accounts`: each guest and each lineage of a guest disk has its
  entry.
* `flagged_iff`: which guests are said to have no snapshots although they
  have some.
-/

namespace PveZfsTool.Replication

open Text

/-! ## Copies -/

/-- The rows of a key. -/
def rowsOf (F : Fleet) (k : LineageKey) : List SnapRow :=
  ((places F).filter (fun p => p.key = k)).map Place.row

/-- When the newest snapshot of a key was made. -/
def newestOf (F : Fleet) (k : LineageKey) : Option Int := ((rowsOf F k).map SnapRow.creation).max?

/-- What keys are ranked by. -/
def rankOf (F : Fleet) (k : LineageKey) : CopyRank :=
  toLex ((newestOf F k).getD 0, toLex ((rowsOf F k).length, k.1))

theorem members_rows (F : Fleet) (k : LineageKey) :
    (((members F).get? k).getD []).map Place.row = rowsOf F k := by
  rw [members, Dict.get?_group]
  rfl

/-- The last row in the order of creation is the newest one. -/
theorem getLast?_sorted (rows : List SnapRow) :
    (rows.insertionSort (fun r s => r.creation ≤ s.creation)).getLast?.map SnapRow.creation =
      (rows.map SnapRow.creation).max? := by
  have hperm := List.perm_insertionSort (fun r s : SnapRow => r.creation ≤ s.creation) rows
  cases hlast : (rows.insertionSort (fun r s => r.creation ≤ s.creation)).getLast? with
  | none =>
    rw [List.getLast?_eq_none_iff.mp hlast] at hperm
    rw [← hperm.nil_eq]
    rfl
  | some r =>
    obtain ⟨init, hinit⟩ := List.getLast?_eq_some_iff.mp hlast
    have hsorted : (init ++ [r]).Pairwise (fun r s : SnapRow => r.creation ≤ s.creation) := by
      have htotal : Std.Total (fun r s : SnapRow => r.creation ≤ s.creation) :=
        ⟨fun r s => le_total r.creation s.creation⟩
      have htrans : IsTrans SnapRow (fun r s => r.creation ≤ s.creation) :=
        ⟨fun _ _ _ => le_trans⟩
      rw [← hinit]
      exact List.pairwise_insertionSort _ _
    symm
    show (rows.map SnapRow.creation).max? = some r.creation
    rw [List.max?_eq_some_iff]
    rw [hinit] at hperm
    constructor
    · exact List.mem_map_of_mem (hperm.mem_iff.mp (by simp))
    · intro n hn
      obtain ⟨s, hs, rfl⟩ := List.mem_map.mp hn
      rcases List.mem_append.mp (hperm.mem_iff.mpr hs) with hmem | hmem
      · exact (List.pairwise_append.mp hsorted).2.2 s hmem r List.mem_cons_self
      · rw [List.mem_singleton.mp hmem]

theorem copyOf_newest (F : Fleet) (k : LineageKey) : (copyOf F k).newest = newestOf F k := by
  rw [newestOf, ← getLast?_sorted, ← members_rows]
  rfl

theorem copyOf_snapshotCount (F : Fleet) (k : LineageKey) :
    (copyOf F k).snapshotCount = (rowsOf F k).length := by
  rw [← members_rows]
  exact List.length_insertionSort _ _

@[simp] theorem copyOf_key (F : Fleet) (k : LineageKey) : (copyOf F k).key = k := rfl

theorem newestOf_isSome {F : Fleet} {k : LineageKey} (hk : IsKey F k) :
    (newestOf F k).isSome = true := by
  obtain ⟨p, hp, hpk⟩ := hk
  have hmem : p ∈ (places F).filter (fun p => p.key = k) :=
    List.mem_filter.mpr ⟨hp, decide_eq_true hpk⟩
  rw [newestOf, List.isSome_max?_iff]
  exact List.ne_nil_of_mem (List.mem_map_of_mem (List.mem_map_of_mem hmem))

/-- The lineages are the copies of their keys. -/
theorem groupLineages_eq (F : Fleet) :
    groupLineages F = (lineageKeys F).map (fun L => L.map (copyOf F)) := by
  rw [lineageKeys_eq, List.map_map]
  rfl

/-! ## The source -/

/-- The key comes first in its lineage: by rank, and among keys of one rank by
the name of the dataset. -/
def RanksFirst (F : Fleet) (k : LineageKey) : Prop :=
  IsKey F k ∧ ∀ k', IsKey F k' → Chained F k k' →
    rankOf F k' < rankOf F k ∨ rankOf F k' = rankOf F k ∧ k.2 ≤ k'.2

theorem copyOf_rank (F : Fleet) (k : LineageKey) : (copyOf F k).rank = rankOf F k := by
  rw [Copy.rank, copyOf_newest, copyOf_snapshotCount]
  rfl

theorem host_eq_of_rank {F : Fleet} {k k' : LineageKey} (h : rankOf F k = rankOf F k') :
    k.1 = k'.1 := congrArg (fun r : CopyRank => (ofLex (ofLex r).2).2) h

/-- One key of a lineage at most ranks first. -/
theorem RanksFirst.unique {F : Fleet} {k k' : LineageKey} (h : RanksFirst F k)
    (h' : RanksFirst F k') (hchain : Chained F k k') : k = k' := by
  rcases h.2 k' h'.1 hchain with hlt | ⟨heq, hle⟩
  · rcases h'.2 k h.1 hchain.symm with hlt' | ⟨heq', -⟩
    · exact absurd hlt' (lt_asymm hlt)
    · exact absurd heq' (ne_of_gt hlt)
  · rcases h'.2 k h.1 hchain.symm with hlt' | ⟨-, hle'⟩
    · exact absurd heq (ne_of_gt hlt')
    · exact Prod.ext (host_eq_of_rank heq.symm) (le_antisymm hle hle')

/-- Members of a sorted list are related in the order of their places. -/
theorem rel_of_idxOf_le {α : Type} [DecidableEq α] {r : α → α → Prop} {l : List α}
    (hsorted : l.Pairwise r) (hrefl : ∀ a, r a a) {a b : α} (ha : a ∈ l) (hb : b ∈ l)
    (hle : l.idxOf a ≤ l.idxOf b) : r a b := by
  rcases Nat.eq_or_lt_of_le hle with heq | hlt
  · rw [(List.idxOf_inj ha).mp heq]
    exact hrefl b
  · have hrel := List.pairwise_iff_getElem.mp hsorted _ _ (List.idxOf_lt_length_of_mem ha)
      (List.idxOf_lt_length_of_mem hb) hlt
    rw [List.getElem_idxOf, List.getElem_idxOf] at hrel
    exact hrel

theorem sorted_lineage {F : Fleet} {L : List LineageKey} (hL : L ∈ lineageKeys F) :
    L.Pairwise (fun a b => keyLe a b = true) := by
  rw [lineageKeys_eq] at hL
  obtain ⟨e, -, rfl⟩ := List.mem_map.mp hL
  exact List.pairwise_insertionSort _ _

/-- The source is the copy of a key that ranks first. -/
theorem ranksFirst_of_detectSource {F : Fleet} {L : List LineageKey} (hL : L ∈ lineageKeys F)
    {source : Copy} (h : detectSource (L.map (copyOf F)) = some source) :
    ∃ k ∈ L, source = copyOf F k ∧ RanksFirst F k := by
  unfold detectSource at h
  have hmem := List.argmax_mem h
  have hmax : ∀ c ∈ L.map (copyOf F), c.newest.isSome = true := by
    intro c hc
    obtain ⟨k, hk, rfl⟩ := List.mem_map.mp hc
    rw [copyOf_newest]
    exact newestOf_isSome (isKey_of_mem hL hk)
  rw [List.filter_eq_self.mpr hmax] at h hmem
  obtain ⟨k, hk, rfl⟩ := List.mem_map.mp hmem
  refine ⟨k, hk, rfl, isKey_of_mem hL hk, fun k' hkey hchain => ?_⟩
  have hk' : k' ∈ L := (mem_lineage_iff hL hk k').mpr ⟨hkey, hchain⟩
  have hle := List.le_of_mem_argmax (List.mem_map_of_mem hk') h
  rw [copyOf_rank, copyOf_rank] at hle
  rcases lt_or_eq_of_le hle with hlt | heq
  · exact .inl hlt
  · -- Of equal ranks the first one in the order of the keys is taken.
    refine .inr ⟨heq, ?_⟩
    have hidx := List.index_of_argmax h (List.mem_map_of_mem hk')
      (by rw [copyOf_rank, copyOf_rank, heq])
    have hsorted : (L.map (copyOf F)).Pairwise (fun c d => keyLe c.key d.key = true) :=
      List.pairwise_map.mpr (sorted_lineage hL)
    have hrel := rel_of_idxOf_le hsorted (fun c => keyLe_iff.mpr le_rfl) (List.mem_map_of_mem hk)
      (List.mem_map_of_mem hk') hidx
    rcases Prod.Lex.toLex_le_toLex.mp (keyLe_iff.mp hrel) with hhost | ⟨-, hdataset⟩
    · exact absurd (host_eq_of_rank heq) (ne_of_gt hhost)
    · exact hdataset

theorem exists_source {F : Fleet} {L : List LineageKey} (hL : L ∈ lineageKeys F) :
    ∃ source, detectSource (L.map (copyOf F)) = some source := by
  cases hsource : detectSource (L.map (copyOf F)) with
  | some source => exact ⟨source, rfl⟩
  | none =>
    obtain ⟨k, hk⟩ := List.exists_mem_of_ne_nil _ (lineage_ne_nil hL)
    have hmem : copyOf F k ∈ (L.map (copyOf F)).filter (·.newest.isSome) := by
      refine List.mem_filter.mpr ⟨List.mem_map_of_mem hk, ?_⟩
      rw [copyOf_newest]
      exact newestOf_isSome (isKey_of_mem hL hk)
    rw [detectSource, List.argmax_eq_none] at hsource
    rw [hsource] at hmem
    cases hmem

/-- A key is the source of its lineage when and only when it ranks first. -/
theorem detectSource_iff {F : Fleet} {L : List LineageKey} (hL : L ∈ lineageKeys F)
    {k : LineageKey} (hk : k ∈ L) :
    detectSource (L.map (copyOf F)) = some (copyOf F k) ↔ RanksFirst F k := by
  constructor
  · intro h
    obtain ⟨k', -, hcopy, hfirst⟩ := ranksFirst_of_detectSource hL h
    have hkey : k = k' := congrArg Copy.key hcopy
    rw [hkey]
    exact hfirst
  · intro hfirst
    obtain ⟨source, hsource⟩ := exists_source hL
    obtain ⟨k', hk', rfl, hfirst'⟩ := ranksFirst_of_detectSource hL hsource
    rw [hsource, hfirst.unique hfirst' ((mem_lineage_iff hL hk k').mp hk').2]

/-! ## The rows of an entry -/

/-- One member of a list that is below all others comes first. -/
theorem insertionSort_first {α : Type} {r : α → α → Prop} [DecidableRel r] {l : List α} {x : α}
    (hx : x ∈ l) (hnodup : l.Nodup) (hfirst : ∀ y ∈ l, y ≠ x → r x y ∧ ¬ r y x) :
    ∃ rest, l.insertionSort r = x :: rest := by
  induction l with
  | nil => cases hx
  | cons a l ih =>
    obtain ⟨hal, hl⟩ := List.nodup_cons.mp hnodup
    by_cases ha : a = x
    · refine ⟨l.insertionSort r, ?_⟩
      rw [ha]
      apply List.insertionSort_cons_of_forall_rel
      intro b hb
      have hne : b ≠ x := fun heq => hal (ha ▸ heq ▸ hb)
      exact (hfirst b (List.mem_cons_of_mem _ hb) hne).1
    · have hxl : x ∈ l := (List.mem_cons.mp hx).resolve_left (Ne.symm ha)
      obtain ⟨rest, hrest⟩ := ih hxl hl (fun y hy => hfirst y (List.mem_cons_of_mem _ hy))
      refine ⟨rest.orderedInsert r a, ?_⟩
      rw [List.insertionSort_cons, hrest, List.orderedInsert_cons,
        if_neg (hfirst a List.mem_cons_self ha).2]

/-- The host and the dataset of a row. -/
def MatrixRow.key (r : MatrixRow) : LineageKey := (r.host, r.dataset)

/-- The first row is that of the source, and it is the only such row. -/
def SourceFirst (e : MatrixEntry) : Prop :=
  ∃ src rest, e.copies = src :: rest ∧ src.isSource = true ∧ src.key = (e.sourceHost, e.sourceDataset) ∧
    (∀ r ∈ rest, r.isSource = false) ∧ e.copyCount = rest.length

section Rows

variable {F : Fleet} {autosnap : Dict Str LocalAutosnap} {L : List LineageKey} {k : LineageKey}

theorem matrixRows_perm {source : Copy} {copies : List Copy} :
    ((matrixRows autosnap source copies).map MatrixRow.key).Perm (copies.map Copy.key) := by
  have hperm := (List.perm_insertionSort (fun r s => rowLe r s = true)
    (copies.map (matrixRow autosnap source))).map MatrixRow.key
  rw [List.map_map] at hperm
  exact hperm

variable (autosnap) in
/-- The row of the source comes first, and the others are no source. -/
theorem matrixRows_first (hL : L ∈ lineageKeys F) (hk : k ∈ L) :
    ∃ rest, matrixRows autosnap (copyOf F k) (L.map (copyOf F)) =
        matrixRow autosnap (copyOf F k) (copyOf F k) :: rest ∧
      ∀ r ∈ rest, r.isSource = false := by
  have hnodup : L.Nodup := (List.nodup_flatten.mp (nodup_lineageKeys F)).1 L hL
  have hkeys : ∀ k', (matrixRow autosnap (copyOf F k) (copyOf F k')).isSource = decide (k' = k) :=
    fun _ => rfl
  have hrows : ((L.map (copyOf F)).map (matrixRow autosnap (copyOf F k))).Nodup := by
    apply List.Nodup.of_map MatrixRow.key
    rw [List.map_map, List.map_map]
    show (L.map id).Nodup
    rw [List.map_id]
    exact hnodup
  obtain ⟨rest, hrest⟩ := insertionSort_first (r := fun r s => rowLe r s = true)
    (List.mem_map_of_mem (List.mem_map_of_mem hk)) hrows (by
      intro y hy hne
      obtain ⟨c, hc, rfl⟩ := List.mem_map.mp hy
      obtain ⟨k', -, rfl⟩ := List.mem_map.mp hc
      have hk' : k' ≠ k := fun heq => hne (by rw [heq])
      unfold rowLe
      rw [hkeys, hkeys, decide_eq_true (rfl : k = k), decide_eq_false hk']
      exact ⟨rfl, Bool.false_ne_true⟩)
  refine ⟨rest, hrest, fun r hr => ?_⟩
  have hsorted : (matrixRow autosnap (copyOf F k) (copyOf F k) :: rest).Nodup := by
    rw [← hrest]
    exact (List.perm_insertionSort _ _).nodup_iff.mpr hrows
  have hmem : r ∈ (L.map (copyOf F)).map (matrixRow autosnap (copyOf F k)) := by
    rw [← List.mem_insertionSort (fun r s => rowLe r s = true), hrest]
    exact List.mem_cons_of_mem _ hr
  obtain ⟨c, hc, rfl⟩ := List.mem_map.mp hmem
  obtain ⟨k', -, rfl⟩ := List.mem_map.mp hc
  rw [hkeys]
  apply decide_eq_false
  intro heq
  rw [heq] at hr
  exact (List.nodup_cons.mp hsorted).1 hr

end Rows

/-! ## The entries -/

/-- The dataset is a disk of the guest, on the guest's host. -/
def DiskOf (guest : Str × Str) (k : LineageKey) : Prop :=
  k.1 = guest.1 ∧ (guestRefFromDataset k.2).map Prod.snd = some guest.2

section Entries

variable {F : Fleet} {G : GuestLists} {configured : List IntendedPair}
  {autosnap : Dict Str LocalAutosnap}

/-- The entries of lineages are those of the keys that rank first and are guest
disks. -/
theorem mem_lineageEntries {e : MatrixEntry} :
    e ∈ lineageEntries F G configured autosnap ↔
      ∃ L ∈ lineageKeys F, ∃ k ∈ L, RanksFirst F k ∧ ∃ ref, guestRefFromDataset k.2 = some ref ∧
        e = guestEntry G configured autosnap (L.map (copyOf F)) (copyOf F k) ref := by
  rw [lineageEntries, groupLineages_eq, List.mem_filterMap]
  constructor
  · intro ⟨copies, hcopies, he⟩
    obtain ⟨L, hL, rfl⟩ := List.mem_map.mp hcopies
    obtain ⟨source, hsource, hentry⟩ := Option.bind_eq_some_iff.mp he
    obtain ⟨k, hk, rfl, hfirst⟩ := ranksFirst_of_detectSource hL hsource
    obtain ⟨ref, href, rfl⟩ := Option.map_eq_some_iff.mp hentry
    exact ⟨L, hL, k, hk, hfirst, ref, href, rfl⟩
  · intro ⟨L, hL, k, hk, hfirst, ref, href, he⟩
    refine ⟨_, List.mem_map_of_mem hL, ?_⟩
    rw [lineageEntry, (detectSource_iff hL hk).mpr hfirst, he]
    show (guestRefFromDataset k.2).map _ = _
    rw [href]
    rfl

variable (G configured autosnap) in
/-- The guests that have an entry from a lineage. -/
theorem mem_covered {guest : Str × Str} :
    guest ∈ (lineageEntries F G configured autosnap).map MatrixEntry.guest ↔
      ∃ k, RanksFirst F k ∧ DiskOf guest k := by
  rw [List.mem_map]
  constructor
  · intro ⟨e, he, hguest⟩
    obtain ⟨L, -, k, -, hfirst, ref, href, rfl⟩ := mem_lineageEntries.mp he
    rw [← hguest]
    refine ⟨k, hfirst, rfl, ?_⟩
    rw [href]
    rfl
  · intro ⟨k, hfirst, hhost, hvmid⟩
    obtain ⟨L, hL, hk⟩ := exists_lineage hfirst.1
    obtain ⟨ref, href, hsnd⟩ := Option.map_eq_some_iff.mp hvmid
    exact ⟨_, mem_lineageEntries.mpr ⟨L, hL, k, hk, hfirst, ref, href, rfl⟩, Prod.ext hhost hsnd⟩

theorem mem_uncovered {g : Str × InventoryGuest} :
    g ∈ uncovered G (lineageEntries F G configured autosnap) ↔
      g ∈ listedGuests G ∧ g.2.vmid ≠ [] ∧ ¬ ∃ k, RanksFirst F k ∧ DiskOf (g.1, g.2.vmid) k := by
  rw [uncovered, List.mem_filter, ← mem_covered G configured autosnap]
  simp

/-- Sorting keeps the entries. -/
theorem sortEntries_perm {es m : List MatrixEntry} (h : sortEntries es = some m) : m.Perm es := by
  have hkeyed : ∀ {es : List MatrixEntry} {keyed : List (Int × MatrixEntry)},
      es.mapM (fun e => (sortNumber e.vmid).map (fun n => (n, e))) = some keyed →
        keyed.map Prod.snd = es := by
    intro es
    induction es with
    | nil =>
      intro keyed hkeyed
      rw [← Option.some.inj hkeyed]
      rfl
    | cons e es ih =>
      intro keyed hkeyed
      rw [List.mapM_cons] at hkeyed
      obtain ⟨p, hp, hrest⟩ := Option.bind_eq_some_iff.mp hkeyed
      obtain ⟨ps, hps, hpure⟩ := Option.bind_eq_some_iff.mp hrest
      obtain ⟨n, -, rfl⟩ := Option.map_eq_some_iff.mp hp
      rw [← Option.some.inj hpure, List.map_cons, ih hps]
  obtain ⟨keyed, hmap, hsorted⟩ := Option.bind_eq_some_iff.mp h
  rw [← Option.some.inj hsorted, ← hkeyed hmap]
  exact (List.perm_insertionSort _ keyed).map Prod.snd

/-- The sort fails only where a number is not readable. -/
theorem sortEntries_isSome {es : List MatrixEntry}
    (h : ∀ e ∈ es, (sortNumber e.vmid).isSome = true) : ∃ m, sortEntries es = some m := by
  have hkeyed : ∃ keyed, es.mapM (fun e => (sortNumber e.vmid).map (fun n => (n, e))) =
      some keyed := by
    induction es with
    | nil => exact ⟨[], rfl⟩
    | cons e es ih =>
      obtain ⟨n, hn⟩ := Option.isSome_iff_exists.mp (h e List.mem_cons_self)
      obtain ⟨keyed, hrest⟩ := ih (fun e' he' => h e' (List.mem_cons_of_mem _ he'))
      refine ⟨(n, e) :: keyed, ?_⟩
      rw [List.mapM_cons, hrest, hn]
      rfl
  obtain ⟨keyed, hkeyed⟩ := hkeyed
  refine ⟨(keyed.insertionSort (fun e f => entryLe e f = true)).map Prod.snd, ?_⟩
  rw [sortEntries, hkeyed]
  rfl

theorem mem_buildMatrix {m : List MatrixEntry} (h : buildMatrix F G configured autosnap = some m)
    {e : MatrixEntry} :
    e ∈ m ↔ e ∈ lineageEntries F G configured autosnap ∨
      ∃ g ∈ uncovered G (lineageEntries F G configured autosnap), e = missingEntry g := by
  rw [(sortEntries_perm h).mem_iff, matrixEntries, List.mem_append, List.mem_map]
  simp only [eq_comm]

/-! ## Every guest is accounted for -/

/-- No guest is listed twice on a host. -/
def DistinctGuests (G : GuestLists) : Prop :=
  ((listedGuests G).map (fun g => (g.1, g.2.vmid))).Nodup

/-- Each guest has a number. -/
def NamedGuests (G : GuestLists) : Prop := ∀ g ∈ listedGuests G, g.2.vmid ≠ []

/-- `int` reads each number that is sorted by. -/
def ReadableVmids (F : Fleet) (G : GuestLists) : Prop :=
  (∀ g ∈ listedGuests G, (sortNumber g.2.vmid).isSome = true) ∧
    ∀ p ∈ places F, ∀ ref, guestRefFromDataset p.row.dataset = some ref →
      (sortNumber ref.2).isSome = true

/-- The dataset an entry is about, and its guest. -/
def MatrixEntry.key (e : MatrixEntry) : LineageKey × Str := ((e.sourceHost, e.sourceDataset), e.vmid)

/-- The matrix accounts for the guests and for the lineages of guest disks. -/
structure Accounts (F : Fleet) (G : GuestLists) (m : List MatrixEntry) : Prop where
  guests : ∀ g ∈ listedGuests G, ∃ e ∈ m, e.guest = (g.1, g.2.vmid)
  lineages : ∀ copies ∈ groupLineages F, ∀ source, detectSource copies = some source →
    ∀ ref, guestRefFromDataset source.dataset = some ref →
      ∃ e ∈ m, e.key = (source.key, ref.2) ∧
        (e.copies.map MatrixRow.key).Perm (copies.map Copy.key) ∧
        ∀ e' ∈ m, e'.key.1 = source.key → e' = e
  distinct : (m.map MatrixEntry.key).Nodup
  sourceFirst : ∀ e ∈ m, e.noSnapshots = false → SourceFirst e
  noRows : ∀ e ∈ m, e.noSnapshots = true → e.copies = [] ∧ e.copyCount = 0

/-- Two entries of lineages are about two datasets. -/
theorem lineageEntries_pairwise :
    (lineageEntries F G configured autosnap).Pairwise (fun e e' => e.key.1 ≠ e'.key.1) := by
  have hdisjoint := (List.nodup_flatten.mp (nodup_lineageKeys F)).2
  rw [lineageEntries, groupLineages_eq, List.pairwise_filterMap, List.pairwise_map]
  apply hdisjoint.imp_of_mem
  intro L L' hL hL' hdis e he e' he' heq
  have hkey : ∀ {L : List LineageKey}, L ∈ lineageKeys F → ∀ {e : MatrixEntry},
      lineageEntry G configured autosnap (L.map (copyOf F)) = some e → e.key.1 ∈ L := by
    intro L hL e he
    obtain ⟨source, hsource, hentry⟩ := Option.bind_eq_some_iff.mp he
    obtain ⟨k, hk, rfl, -⟩ := ranksFirst_of_detectSource hL hsource
    obtain ⟨ref, -, rfl⟩ := Option.map_eq_some_iff.mp hentry
    exact hk
  exact hdis (hkey hL he) (heq ▸ hkey hL' he')

/-- The source of a lineage has a dataset, which the other entries have not. -/
theorem sourceDataset_ne_nil {e : MatrixEntry}
    (he : e ∈ lineageEntries F G configured autosnap) : e.sourceDataset ≠ [] := by
  obtain ⟨L, -, k, -, -, ref, href, rfl⟩ := mem_lineageEntries.mp he
  intro hnil
  have hk : k.2 = [] := hnil
  have hnone : guestRefFromDataset [] = none := by decide
  rw [hk, hnone] at href
  cases href

theorem nodup_matrixEntries (hdistinct : DistinctGuests G) :
    ((matrixEntries F G configured autosnap).map MatrixEntry.key).Nodup := by
  unfold matrixEntries
  rw [List.map_append, List.map_map, List.nodup_append]
  refine ⟨?_, ?_, ?_⟩
  · rw [List.Nodup, List.pairwise_map]
    exact lineageEntries_pairwise.imp (fun hne heq => hne (congrArg Prod.fst heq))
  · have hguests : ((uncovered G (lineageEntries F G configured autosnap)).map
        (fun g => (g.1, g.2.vmid))).Nodup := hdistinct.sublist (List.filter_sublist.map _)
    rw [List.Nodup, List.pairwise_map] at hguests ⊢
    apply hguests.imp
    intro g g' hne heq
    exact hne (Prod.ext (congrArg (fun k : LineageKey × Str => k.1.1) heq)
      (congrArg (fun k : LineageKey × Str => k.2) heq))
  · intro a ha b hb heq
    obtain ⟨e, he, rfl⟩ := List.mem_map.mp ha
    obtain ⟨g, -, rfl⟩ := List.mem_map.mp hb
    exact sourceDataset_ne_nil he (congrArg (fun k : LineageKey × Str => k.1.2) heq)

theorem sourceFirst_of_mem {e : MatrixEntry} (he : e ∈ lineageEntries F G configured autosnap) :
    SourceFirst e := by
  obtain ⟨L, hL, k, hk, -, ref, -, rfl⟩ := mem_lineageEntries.mp he
  obtain ⟨rest, hrows, hrest⟩ := matrixRows_first autosnap hL hk
  refine ⟨_, rest, hrows, decide_eq_true rfl, rfl, hrest, ?_⟩
  show (matrixRows autosnap (copyOf F k) (L.map (copyOf F))).length - 1 = rest.length
  rw [hrows, List.length_cons, Nat.add_sub_cancel]

variable (configured autosnap) in
/-- A readable fleet has a matrix. -/
theorem buildMatrix_isSome (h : ReadableVmids F G) :
    ∃ m, buildMatrix F G configured autosnap = some m := by
  apply sortEntries_isSome
  intro e he
  rcases List.mem_append.mp he with hlineage | hmissing
  · obtain ⟨L, -, k, -, hfirst, ref, href, rfl⟩ := mem_lineageEntries.mp hlineage
    obtain ⟨p, hp, hpk⟩ := hfirst.1
    exact h.2 p hp ref (by rw [← href, ← hpk]; rfl)
  · obtain ⟨g, hg, rfl⟩ := List.mem_map.mp hmissing
    exact h.1 g (mem_uncovered.mp hg).1

/-- Each guest and each lineage of a guest disk has its entry, none is there
twice, and those with rows have the source first. -/
theorem buildMatrix_accounts (F : Fleet) (G : GuestLists) (configured : List IntendedPair)
    (autosnap : Dict Str LocalAutosnap) (hdistinct : DistinctGuests G) (hnamed : NamedGuests G) :
    (ReadableVmids F G → ∃ m, buildMatrix F G configured autosnap = some m) ∧
      ∀ m, buildMatrix F G configured autosnap = some m → Accounts F G m := by
  refine ⟨buildMatrix_isSome configured autosnap, fun m hm => ?_⟩
  have hmem := fun {e : MatrixEntry} => mem_buildMatrix hm (e := e)
  constructor
  · intro g hg
    by_cases hcovered : ∃ k, RanksFirst F k ∧ DiskOf (g.1, g.2.vmid) k
    · obtain ⟨e, he, hguest⟩ := List.mem_map.mp
        ((mem_covered G configured autosnap).mpr hcovered)
      exact ⟨e, hmem.mpr (.inl he), hguest⟩
    · exact ⟨missingEntry g, hmem.mpr (.inr ⟨g, mem_uncovered.mpr ⟨hg, hnamed g hg, hcovered⟩, rfl⟩),
        rfl⟩
  · intro copies hcopies source hsource ref href
    rw [groupLineages_eq] at hcopies
    obtain ⟨L, hL, rfl⟩ := List.mem_map.mp hcopies
    obtain ⟨k, hk, rfl, hfirst⟩ := ranksFirst_of_detectSource hL hsource
    have hentry : guestEntry G configured autosnap (L.map (copyOf F)) (copyOf F k) ref ∈
        lineageEntries F G configured autosnap :=
      mem_lineageEntries.mpr ⟨L, hL, k, hk, hfirst, ref, href, rfl⟩
    refine ⟨_, hmem.mpr (.inl hentry), rfl, matrixRows_perm, fun e' he' hkey => ?_⟩
    rcases hmem.mp he' with hlineage | ⟨g, -, rfl⟩
    · exact List.inj_on_of_nodup_map (List.pairwise_map.mpr lineageEntries_pairwise) hlineage
        hentry hkey
    · exact absurd (congrArg Prod.snd hkey).symm (sourceDataset_ne_nil hentry)
  · rw [((sortEntries_perm hm).map MatrixEntry.key).nodup_iff]
    exact nodup_matrixEntries hdistinct
  · intro e he hflag
    rcases hmem.mp he with hlineage | ⟨g, -, rfl⟩
    · exact sourceFirst_of_mem hlineage
    · cases hflag
  · intro e he hflag
    rcases hmem.mp he with hlineage | ⟨g, -, rfl⟩
    · obtain ⟨L, -, k, -, -, ref, -, rfl⟩ := mem_lineageEntries.mp hlineage
      cases hflag
    · exact ⟨rfl, rfl⟩

end Entries

/-- A guest whose replica has the same snapshot as the disk itself. -/
def replicaFleet : Fleet where
  entries := [("pve1".toList, [⟨"rpool/data/vm-100-disk-0", "daily-20260101", "77", 1767225600⟩]),
    ("pve2".toList, [⟨"tank/pve1/vm-100-disk-0", "daily-20260101", "77", 1767225600⟩])]
  distinct := by decide

/-- The guest lists that go with it: the guest runs on the first host. -/
def replicaGuests : GuestLists where
  entries := [("pve1".toList, [⟨"100", "web", "qemu"⟩])]
  distinct := by decide

theorem readable_replica (F : Fleet) (hF : F = replicaFleet ∨ F = Dict.empty) :
    ReadableVmids F replicaGuests := by
  constructor
  · show ∀ g ∈ listedGuests replicaGuests, _
    decide
  · have hplaces : ∀ F, F = replicaFleet ∨ F = Dict.empty → ∀ p ∈ places F,
        (guestRefFromDataset p.row.dataset).all (fun ref => (sortNumber ref.2).isSome) = true := by
      intro F hF
      rcases hF with rfl | rfl
      · decide
      · decide
    intro p hp ref href
    have hall := hplaces F hF p hp
    rw [href] at hall
    exact hall

theorem named_replica : NamedGuests replicaGuests := by
  show ∀ g ∈ listedGuests replicaGuests, _
  decide

theorem buildMatrix_accounts_replica :
    (ReadableVmids replicaFleet replicaGuests →
        ∃ m, buildMatrix replicaFleet replicaGuests [] Dict.empty = some m) ∧
      ∀ m, buildMatrix replicaFleet replicaGuests [] Dict.empty = some m →
        Accounts replicaFleet replicaGuests m :=
  buildMatrix_accounts replicaFleet replicaGuests [] Dict.empty (by unfold DistinctGuests; decide)
    named_replica

/-- A guest whose number is a superscript, which `str.isdigit` takes for a
number and `int` does not. -/
def superscriptGuests : GuestLists where
  entries := [("pve1".toList, [⟨"²", "web", "qemu"⟩])]
  distinct := by decide

/-- A guest without snapshots has an entry without rows, and there is no matrix
where `int` raises. -/
theorem noSnapshots_not_sourceFirst :
    (DistinctGuests replicaGuests ∧ NamedGuests replicaGuests ∧
      ∃ m, buildMatrix Dict.empty replicaGuests [] Dict.empty = some m ∧ ∃ e ∈ m, ¬ SourceFirst e) ∧
    (DistinctGuests superscriptGuests ∧ NamedGuests superscriptGuests ∧
      buildMatrix Dict.empty superscriptGuests [] Dict.empty = none) := by
  constructor
  · obtain ⟨m, hm⟩ := buildMatrix_isSome [] Dict.empty
      (readable_replica Dict.empty (.inr rfl))
    refine ⟨by unfold DistinctGuests; decide, named_replica, m, hm,
      missingEntry ("pve1".toList, ⟨"100", "web", "qemu"⟩),
      (mem_buildMatrix hm).mpr (.inr ⟨_, by decide, rfl⟩), ?_⟩
    intro ⟨src, rest, hcopies, _⟩
    cases hcopies
  · refine ⟨by unfold DistinctGuests; decide, ?_, by decide⟩
    show ∀ g ∈ listedGuests superscriptGuests, _
    decide

/-! ## Who is said to have no snapshots -/

/-- The host has a snapshot of a disk of the guest. -/
def HasSnapshots (F : Fleet) (guest : Str × Str) : Prop := ∃ p ∈ places F, DiskOf guest p.key

/-- The guests that are said to have no snapshots have none when and only when
each guest that has some has a disk that ranks first in its lineage. -/
theorem flagged_iff {F : Fleet} {G : GuestLists} {configured : List IntendedPair}
    {autosnap : Dict Str LocalAutosnap} {m : List MatrixEntry}
    (h : buildMatrix F G configured autosnap = some m) :
    (∀ e ∈ m, e.noSnapshots = true → ¬ HasSnapshots F e.guest) ↔
      ∀ g ∈ listedGuests G, g.2.vmid ≠ [] → HasSnapshots F (g.1, g.2.vmid) →
        ∃ k, RanksFirst F k ∧ DiskOf (g.1, g.2.vmid) k := by
  constructor
  · intro hclaim g hg hvmid hsnaps
    by_contra hcovered
    have hentry := (mem_buildMatrix h).mpr (.inr ⟨g, mem_uncovered.mpr ⟨hg, hvmid, hcovered⟩, rfl⟩)
    exact hclaim _ hentry rfl hsnaps
  · intro hfirst e he hflag hsnaps
    rcases (mem_buildMatrix h).mp he with hlineage | ⟨g, hg, rfl⟩
    · obtain ⟨L, -, k, -, -, ref, -, rfl⟩ := mem_lineageEntries.mp hlineage
      cases hflag
    · obtain ⟨hlisted, hvmid, hcovered⟩ := mem_uncovered.mp hg
      exact hcovered (hfirst g hlisted hvmid hsnaps)

theorem flagged_iff_replica :
    ∃ m, buildMatrix replicaFleet replicaGuests [] Dict.empty = some m ∧
      ((∀ e ∈ m, e.noSnapshots = true → ¬ HasSnapshots replicaFleet e.guest) ↔
        ∀ g ∈ listedGuests replicaGuests, g.2.vmid ≠ [] →
          HasSnapshots replicaFleet (g.1, g.2.vmid) →
            ∃ k, RanksFirst replicaFleet k ∧ DiskOf (g.1, g.2.vmid) k) := by
  obtain ⟨m, hm⟩ := buildMatrix_isSome [] Dict.empty
    (readable_replica replicaFleet (.inl rfl))
  exact ⟨m, hm, flagged_iff hm⟩

/-- The replica that has caught up is taken for the source, and the guest is
said to have no snapshots. -/
theorem flagged_with_snapshots :
    ¬ ∀ (F : Fleet) (G : GuestLists) (configured : List IntendedPair)
        (autosnap : Dict Str LocalAutosnap) (m : List MatrixEntry),
        buildMatrix F G configured autosnap = some m →
          ∀ e ∈ m, e.noSnapshots = true → ¬ HasSnapshots F e.guest := by
  intro hclaim
  obtain ⟨m, hm⟩ := buildMatrix_isSome [] Dict.empty
    (readable_replica replicaFleet (.inl rfl))
  have hentry := (mem_buildMatrix hm).mpr
    (.inr ⟨("pve1".toList, ⟨"100", "web", "qemu"⟩), by decide, rfl⟩)
  have hsnaps : ∃ p ∈ places replicaFleet, p.key.1 = "pve1".toList ∧
      (guestRefFromDataset p.key.2).map Prod.snd = some "100".toList := by decide
  exact hclaim _ _ _ _ m hm _ hentry rfl hsnaps

end PveZfsTool.Replication
