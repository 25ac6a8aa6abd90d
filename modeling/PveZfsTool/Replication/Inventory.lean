import PveZfsTool.Lib.Newest
import PveZfsTool.Lib.UnionFind
import PveZfsTool.Migrate.SnapshotCleanup
import PveZfsTool.Zfs.SnapTags
import Mathlib.Data.List.MinMax
import Mathlib.Data.Prod.Lex

/-!
# Which host holds the original, and where are the copies

This models `build_guid_index`, `group_lineages`, `detect_source`,
`compare_copy`, `_config_mismatch` and `build_matrix` of
`replication_inventory.py`, and `guest_ref_from_dataset` of `dr.py`.

A fleet is the dictionary from host to its parsed snapshot rows.  A set of
Python is a list without duplicates.
-/

namespace PveZfsTool.Replication

open Text

/-! ## The fleet -/

/-- One row of the snapshot listing of a host. -/
structure SnapRow where
  dataset : Str
  snapshot : Str
  guid : Str
  creation : Int
  deriving DecidableEq

/-- `per_host` -/
abbrev Fleet := Dict Str (List SnapRow)

/-- A row and the host it was read on. -/
structure Place where
  host : Str
  row : SnapRow
  deriving DecidableEq

/-- A host and a dataset on it. -/
abbrev LineageKey := Str × Str

/-- `_lineage_key` -/
def Place.key (p : Place) : LineageKey := (p.host, p.row.dataset)

/-- The rows of all hosts, in the order of the two loops. -/
def places (F : Fleet) : List Place := F.entries.flatMap (fun e => e.2.map (Place.mk e.1))

/-- `build_guid_index` -/
def buildGuidIndex (F : Fleet) : Dict Str (List Place) := Dict.group (fun p => p.row.guid) (places F)

/-- `_MIGRATE_SNAP_RE.match` -/
def isMigrateSnap (snapshot : Str) : Bool := atDollar matchesSnapName snapshot

/-! ## Lineages -/

/-- `members`: the rows of each key. -/
def members (F : Fleet) : Dict LineageKey (List Place) := Dict.group Place.key (places F)

/-- The parents after each key was looked up once. -/
def registered (F : Fleet) : UnionFind.Parents LineageKey :=
  (places F).foldl (fun parent p => (UnionFind.find parent p.key).1) Dict.empty

/-- The unions for one GUID. -/
def guidLinks (ps : List Place) : List (LineageKey × LineageKey) :=
  if ps.length < 2 then []
  else if ps.any (fun p => isMigrateSnap p.row.snapshot) then []
  else match ps with
    | [] => []
    | first :: rest => rest.map (fun p => (first.key, p.key))

/-- The parents after the unions for every GUID. -/
def linked (F : Fleet) : UnionFind.Parents LineageKey :=
  UnionFind.unions (registered F) ((buildGuidIndex F).entries.flatMap (fun e => guidLinks e.2))

/-- `grouped`: the keys of each root. -/
def grouped (F : Fleet) : Dict LineageKey (List LineageKey) :=
  ((members F).keys.foldl
    (fun s key =>
      let r := UnionFind.find s.1 key
      (r.1, s.2.push r.2 key))
    (linked F, Dict.empty)).2

/-- `a ≤ b` for pairs of texts. -/
def keyLe (a b : LineageKey) : Bool := if a.1 = b.1 then le a.2 b.2 else le a.1 b.1

theorem keyLe_iff {a b : LineageKey} : keyLe a b = true ↔ toLex a ≤ toLex b := by
  rw [Prod.Lex.toLex_le_toLex]
  unfold keyLe
  by_cases h : a.1 = b.1
  · rw [if_pos h, le_iff]
    constructor
    · intro hle
      exact .inr ⟨h, hle⟩
    · intro hor
      rcases hor with hlt | ⟨-, hle⟩
      · exact absurd hlt (h ▸ lt_irrefl _)
      · exact hle
  · rw [if_neg h, le_iff]
    constructor
    · intro hle
      exact .inl (lt_of_le_of_ne hle h)
    · intro hor
      rcases hor with hlt | ⟨heq, -⟩
      · exact le_of_lt hlt
      · exact absurd heq h

instance : Std.Total (fun a b : LineageKey => keyLe a b = true) where
  total a b := by
    rw [keyLe_iff, keyLe_iff]
    exact le_total _ _

instance : IsTrans LineageKey (fun a b => keyLe a b = true) where
  trans _ _ _ hab hbc := keyLe_iff.mpr ((keyLe_iff.mp hab).trans (keyLe_iff.mp hbc))

/-- A dataset on a host, with what is known of its snapshots. -/
structure Copy where
  host : Str
  dataset : Str
  snapshotCount : Nat
  oldest : Option Int
  newest : Option Int
  guids : List Str
  byGuid : Dict Str (Option Str)
  labels : List Str
  newestSnapshot : Str
  deriving DecidableEq

def Copy.key (c : Copy) : LineageKey := (c.host, c.dataset)

/-- One element of `copies`. -/
def copyOf (F : Fleet) (key : LineageKey) : Copy :=
  let rows := (((members F).get? key).getD []).map Place.row
  let snaps := rows.insertionSort (fun r s => r.creation ≤ s.creation)
  let byGuid := snaps.foldl (fun d s => d.set s.guid (extractTag s.snapshot)) Dict.empty
  { host := key.1
    dataset := key.2
    snapshotCount := snaps.length
    oldest := snaps.head?.map SnapRow.creation
    newest := snaps.getLast?.map SnapRow.creation
    guids := (snaps.map SnapRow.guid).dedup
    byGuid := byGuid
    labels := ((byGuid.entries.filterMap Prod.snd).filter (· ≠ [])).dedup
    newestSnapshot := (snaps.getLast?.map SnapRow.snapshot).getD [] }

/-- `group_lineages` -/
def groupLineages (F : Fleet) : List (List Copy) :=
  (grouped F).entries.map (fun e => (e.2.insertionSort (fun a b => keyLe a b = true)).map (copyOf F))

/-! ## The source -/

/-- What copies are ranked by. -/
def CopyRank : Type := Int ×ₗ Nat ×ₗ Str

instance : LinearOrder CopyRank :=
  @Prod.Lex.instLinearOrder Int (Nat ×ₗ Str) Int.instLinearOrder
    (@Prod.Lex.instLinearOrder Nat Str Nat.instLinearOrder inferInstance)

/-- `(c["newest"], c["snapshot_count"], c["host"])` -/
def Copy.rank (c : Copy) : CopyRank :=
  toLex (c.newest.getD 0, toLex (c.snapshotCount, c.host))

/-- `detect_source`: the first copy of the highest rank. -/
def detectSource (copies : List Copy) : Option Copy :=
  (copies.filter (·.newest.isSome)).argmax Copy.rank

/-! ## How far a copy trails -/

structure Comparison where
  sharedSnapshots : Nat
  missingFromSource : Nat
  excludedLabels : List Str
  lagSeconds : Option Int
  inSync : Bool
  deriving DecidableEq

/-- `compare_copy` -/
def compareCopy (source copy : Copy) : Comparison :=
  let shared := source.guids.filter (· ∈ copy.guids)
  let lacking := source.guids.filter (· ∉ copy.guids)
  let missing :=
    if copy.labels ≠ [] then
      lacking.filter (fun g => ((source.byGuid.get? g).join).any (· ∈ copy.labels))
    else lacking
  { sharedSnapshots := shared.length
    missingFromSource := missing.length
    excludedLabels := sortedSet ((source.labels.filter (· ∉ copy.labels)).filter (· ≠ []))
    lagSeconds := source.newest.bind (fun s => copy.newest.map (fun c => max 0 (s - c)))
    inSync := shared ≠ [] && missing = [] }

/-! ## Guests -/

/-- `_GUEST_KIND`, in the order of the alternatives of `_GUEST_DS_RE`. -/
def guestKinds : List (Str × Str) :=
  [("vm", "qemu"), ("subvol", "lxc"), ("base", "qemu"), ("basevol", "lxc")]

/-- `(vm|subvol|base|basevol)-(\d+)-disk-\d+` at the beginning: the kind of
guest and the number. -/
def guestDiskAt (s : Str) : Option (Str × Str) :=
  guestKinds.findSome? (fun kind =>
    let rest := s.drop (kind.1.length + 1)
    let vmid := rest.takeWhile isDecimal
    if startsWith s (kind.1 ++ ['-']) && vmid ≠ [] &&
        startsWith (rest.drop vmid.length) "-disk-" &&
        ((rest.drop (vmid.length + 6)).head?.any isDecimal)
    then some (kind.2, vmid) else none)

/-- The leftmost guest disk after a slash. -/
def guestDiskAfterSlash : Str → Option (Str × Str)
  | [] => none
  | c :: s =>
      if c = '/' then (guestDiskAt s).orElse (fun _ => guestDiskAfterSlash s)
      else guestDiskAfterSlash s

/-- `guest_ref_from_dataset` -/
def guestRefFromDataset (dataset : Str) : Option (Str × Str) :=
  (guestDiskAt dataset).orElse (fun _ => guestDiskAfterSlash dataset)

example : guestRefFromDataset "rpool/data/subvol-253-disk-0" =
    some ("lxc".toList, "253".toList) := by decide

/-- One guest of `get_pve_vms` or `get_pve_cts`. -/
structure InventoryGuest where
  vmid : Str
  name : Str
  type : Str
  deriving DecidableEq

/-- `guests_by_host` -/
abbrev GuestLists := Dict Str (List InventoryGuest)

/-- The guests of all hosts, in the order of the two loops. -/
def listedGuests (G : GuestLists) : List (Str × InventoryGuest) :=
  G.entries.flatMap (fun e => e.2.map (Prod.mk e.1))

/-- `guest_names` -/
def guestNames (G : GuestLists) : Dict (Str × Str) Str :=
  (listedGuests G).foldl (fun d g => d.set (g.1, g.2.vmid) g.2.name) Dict.empty

/-- An intended pair of a replication config. -/
structure IntendedPair where
  targetHost : Str
  source : Str
  deriving DecidableEq

/-- What is known of the local snapshots of a host. -/
structure LocalAutosnap where
  active : Bool
  disabled : List Str
  deriving DecidableEq

/-! ## The matrix -/

structure MatrixRow extends Comparison where
  host : Str
  dataset : Str
  isSource : Bool
  snapshotCount : Nat
  oldest : Option Int
  newest : Option Int
  newestSnapshot : Str
  localAutosnap : Option Bool
  deriving DecidableEq

structure MatrixEntry where
  vmid : Str
  guestType : Str
  guestName : Str
  sourceHost : Str
  sourceDataset : Str
  copyCount : Nat
  copies : List MatrixRow
  configMismatch : Str
  noSnapshots : Bool
  deriving DecidableEq

/-- `_config_mismatch` -/
def configMismatch (source : Copy) (rows : List MatrixRow) : List IntendedPair → Str
  | [] => []
  | cfg :: configured =>
      let targetHost := strip cfg.targetHost
      let sourceHost := strip cfg.source
      if targetHost = [] || sourceHost = [] then configMismatch source rows configured
      else if source.host = targetHost && rows.any (fun r => r.host = sourceHost) then
        "holds the newest snapshots on ".toList ++ source.host ++
          ", which is configured as a replication target of ".toList ++ sourceHost
      else configMismatch source rows configured

/-- One row of an entry. -/
def matrixRow (autosnap : Dict Str LocalAutosnap) (source c : Copy) : MatrixRow :=
  let isSrc := decide (c.key = source.key)
  let cmp := if isSrc then ⟨c.snapshotCount, 0, [], some 0, true⟩ else compareCopy source c
  { cmp with
    host := c.host
    dataset := c.dataset
    isSource := isSrc
    snapshotCount := c.snapshotCount
    oldest := c.oldest
    newest := c.newest
    newestSnapshot := c.newestSnapshot
    localAutosnap :=
      if isSrc then none
      else (autosnap.get? c.host).bind (fun info =>
        if info.active then some (decide (c.dataset ∉ info.disabled)) else none) }

/-- `(not r["is_source"], r["host"])` of `r` is at most that of `s`. -/
def rowLe (r s : MatrixRow) : Bool :=
  if r.isSource = s.isSource then le r.host s.host else r.isSource

/-- The rows of an entry, the source first. -/
def matrixRows (autosnap : Dict Str LocalAutosnap) (source : Copy) (copies : List Copy) :
    List MatrixRow :=
  (copies.map (matrixRow autosnap source)).insertionSort (fun r s => rowLe r s = true)

/-- The entry of a lineage whose source is a guest disk. -/
def guestEntry (G : GuestLists) (configured : List IntendedPair)
    (autosnap : Dict Str LocalAutosnap) (copies : List Copy) (source : Copy) (ref : Str × Str) :
    MatrixEntry :=
  let rows := matrixRows autosnap source copies
  { vmid := ref.2
    guestType := ref.1
    guestName := ((guestNames G).get? (source.host, ref.2)).getD []
    sourceHost := source.host
    sourceDataset := source.dataset
    copyCount := rows.length - 1
    copies := rows
    configMismatch := configMismatch source rows configured
    noSnapshots := false }

/-- The entry of a lineage.  `none` for one that is no guest disk. -/
def lineageEntry (G : GuestLists) (configured : List IntendedPair)
    (autosnap : Dict Str LocalAutosnap) (copies : List Copy) : Option MatrixEntry :=
  (detectSource copies).bind (fun source =>
    (guestRefFromDataset source.dataset).map (guestEntry G configured autosnap copies source))

/-- The entry of a guest that is the source of no lineage. -/
def missingEntry (g : Str × InventoryGuest) : MatrixEntry where
  vmid := g.2.vmid
  guestType := if g.2.type = "lxc" then "lxc" else "qemu"
  guestName := g.2.name
  sourceHost := g.1
  sourceDataset := []
  copyCount := 0
  copies := []
  configMismatch := []
  noSnapshots := true

/-- The entries of the lineages. -/
def lineageEntries (F : Fleet) (G : GuestLists) (configured : List IntendedPair)
    (autosnap : Dict Str LocalAutosnap) : List MatrixEntry :=
  (groupLineages F).filterMap (lineageEntry G configured autosnap)

/-- The host and the guest an entry is about. -/
def MatrixEntry.guest (e : MatrixEntry) : Str × Str := (e.sourceHost, e.vmid)

/-- The guests that get an entry without a lineage. -/
def uncovered (G : GuestLists) (entries : List MatrixEntry) : List (Str × InventoryGuest) :=
  (listedGuests G).filter (fun g =>
    !(g.2.vmid = [] || decide ((g.1, g.2.vmid) ∈ entries.map MatrixEntry.guest)))

/-- All entries, before they are sorted. -/
def matrixEntries (F : Fleet) (G : GuestLists) (configured : List IntendedPair)
    (autosnap : Dict Str LocalAutosnap) : List MatrixEntry :=
  let entries := lineageEntries F G configured autosnap
  entries ++ (uncovered G entries).map missingEntry

/-! ## The order of the entries -/

/-- The digits that `str.isdigit` knows and that are no decimal digits. -/
def specialDigits : List (Nat × Nat) :=
  [(0xB2, 0xB3), (0xB9, 0xB9), (0x1369, 0x1371), (0x19DA, 0x19DA), (0x2070, 0x2070),
    (0x2074, 0x2079), (0x2080, 0x2089), (0x2460, 0x2468), (0x2474, 0x247C), (0x2488, 0x2490),
    (0x24EA, 0x24EA), (0x24F5, 0x24FD), (0x24FF, 0x24FF), (0x2776, 0x277E), (0x2780, 0x2788),
    (0x278A, 0x2792), (0x10A40, 0x10A43), (0x10E60, 0x10E68), (0x11052, 0x1105A),
    (0x1F100, 0x1F10A)]

/-- `str.isdigit` -/
def isDigitText (s : Str) : Bool :=
  s ≠ [] && s.all (fun c =>
    isDecimal c || specialDigits.any (fun r => r.1 ≤ c.toNat && c.toNat ≤ r.2))

/-- `int(e["vmid"]) if str(e["vmid"] or "").isdigit() else 0`.  `none` where
`int` raises `ValueError`. -/
def sortNumber (vmid : Str) : Option Int := if isDigitText vmid then toInt? vmid else some 0

/-- The sort key of `e` is at most that of `f`. -/
def entryLe (e f : Int × MatrixEntry) : Bool :=
  if e.2.sourceHost ≠ f.2.sourceHost then le e.2.sourceHost f.2.sourceHost
  else if e.1 ≠ f.1 then e.1 < f.1
  else le e.2.sourceDataset f.2.sourceDataset

/-- `entries.sort(...)` -/
def sortEntries (entries : List MatrixEntry) : Option (List MatrixEntry) := do
  let keyed ← entries.mapM (fun e => (sortNumber e.vmid).map (fun n => (n, e)))
  return (keyed.insertionSort (fun e f => entryLe e f = true)).map Prod.snd

/-- `build_matrix(...)["guests"]` -/
def buildMatrix (F : Fleet) (G : GuestLists) (configured : List IntendedPair)
    (autosnap : Dict Str LocalAutosnap) : Option (List MatrixEntry) :=
  sortEntries (matrixEntries F G configured autosnap)

end PveZfsTool.Replication
