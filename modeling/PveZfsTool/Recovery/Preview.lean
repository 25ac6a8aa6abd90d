import PveZfsTool.Lib.Answers
import PveZfsTool.Lib.Dict
import PveZfsTool.Lib.Numbers
import PveZfsTool.Lib.Strip
import PveZfsTool.Recovery.Guest

/-!
# The preview of a recovery guest

`preview` shows what a guest can be recovered to before anything is created: the
snapshots that all of its disks have, the VMID and the storage that are proposed,
and what stands in the way.  `create_job` reads the host again and does not trust
the preview.

`offered_iff` compares the two on a host that does not change in between: a
snapshot is offered without a blocker exactly when `create_job` gets past its own
checks with it, and the disks, the pool and the VMID are then those of the
preview.
-/

namespace PveZfsTool

open Dialogue Text

/-! ## The snapshots of the disks -/

/-- One snapshot of `common_snapshots(...)`, with the datasets that lack it. -/
structure SnapshotChoice where
  name : Str
  onAll : Bool
  missing : List Str
  deriving DecidableEq

/-- `if s not in seen: seen.append(s)` -/
def appendUnseen (seen : List Str) (s : Str) : List Str := if s ∈ seen then seen else seen ++ [s]

/-- `common_snapshots` -/
def commonSnapshots (perDisk : Dict Str (List Str)) : List SnapshotChoice :=
  let seen := (perDisk.entries.flatMap Prod.snd).foldl appendUnseen []
  seen.map (fun s =>
    let missing := (perDisk.entries.filter (fun e => s ∉ e.2)).map Prod.fst
    ⟨s, missing = [], missing⟩)

/-- The snapshots of each dataset of the disks. -/
def perDiskSnapshots (host : Host) : Dict Str (List Str) → List Disk → Job (Dict Str (List Str))
  | perDisk, [] => return perDisk
  | perDisk, d :: disks => do
    let snaps ← snapshotsOf host d.dataset
    perDiskSnapshots host (perDisk.set d.dataset snaps) disks

/-! ## The preview -/

/-- The texts after each newline, and the whole. -/
def lineStarts (text : Str) : List Str :=
  text.tails.filterMap (fun t => match t with
    | '\n' :: rest => some rest
    | _ => none)

/-- `_guest_name`: what follows the key and the blanks behind it, on the line on
which it begins. -/
def guestName (text gtype : Str) : Str :=
  let key : Str := if gtype = "lxc" then "hostname:" else "name:"
  let main := splitMainSection text
  match (main :: lineStarts main).find? (fun s => startsWith s key) with
  | none => []
  | some s => strip (((s.drop key.length).dropWhile isSpace).takeWhile (fun c => c ≠ '\n'))

/-- `preview(...)` when it succeeds. -/
structure PreviewView where
  vmid : Str
  gtype : Str
  name : Str
  disks : List Disk
  pool : Str
  root : Str
  rootExists : Bool
  storage : Str
  storageExists : Bool
  snapshots : List SnapshotChoice
  usable : List Str
  nextVmid : Str
  leftOut : List HostEntry
  blockers : List Str

/-- The reasons against the disks that were found. -/
def blockersOf (disc : Discovery) (pools : List Str) : List Str :=
  (if disc.unresolved = [] then []
    else [("unresolved: " : Str) ++ join ", " (disc.unresolved.map (fun u => u.1 ++ '=' :: u.2))]) ++
  (if disc.disks = [] then [("no disks" : Str)] else []) ++
  (if 1 < pools.length then [("cross_pool: " : Str) ++ join ", " pools] else [])

/-- The pools of the disks. -/
def diskPools (disks : List Disk) : List Str := sortedSet (disks.map (fun d => poolOf d.dataset))

/-- `_storage_for_root(host, root) if root else ""` -/
def previewStorage (host : Host) (root : Str) : Job Str :=
  if root = [] then return [] else storageForRoot host root

/-- `_dataset_exists(host, root) if root else False` -/
def previewRootExists (host : Host) (root : Str) : Job Bool :=
  if root = [] then return false else datasetExists host root

/-- The part of `preview` that looks at the disks. -/
def previewDisks (host : Host) (vmid gtype : Str) (cfg : ConfigFile) : Job PreviewView := do
  let disc ← discoverGuestDisks host gtype cfg.content
  let pools := diskPools disc.disks
  let pool := pools.head?.getD []
  let root := if pool = [] then [] else recoveryRoot pool
  let perDisk ← perDiskSnapshots host Dict.empty disc.disks
  let snaps := commonSnapshots perDisk
  let storage ← previewStorage host root
  let rootExists ← previewRootExists host root
  let nextVmid ← suggestVmid host vmid
  return {
    vmid := vmid
    gtype := gtype
    name := guestName cfg.content gtype
    disks := disc.disks
    pool := pool
    root := root
    rootExists := rootExists
    storage := if storage ≠ [] then storage else if pool = [] then [] else recoveryStorageId pool
    storageExists := storage ≠ []
    snapshots := snaps
    usable := (snaps.filter SnapshotChoice.onAll).map SnapshotChoice.name
    nextVmid := nextVmid
    leftOut := hostBoundEntries cfg.content gtype
    blockers := blockersOf disc pools }

/-- `preview` -/
def preview (host : Host) (vmid gtype : Str) : Job (Except Str PreviewView) :=
  match validateVmid vmid, validateVmType gtype with
  | .error e, _ => return .error e
  | .ok _, .error e => return .error e
  | .ok vmid, .ok gtype => do
    match ← readGuestConfig host vmid gtype with
    | .error e => return .error e
    | .ok cfg =>
      if (parseMarker cfg.content).isSome then return .error "this guest is itself a snapshot clone"
      else do
        let view ← previewDisks host vmid gtype cfg
        return .ok view

/-! ## The readings of both -/

section

variable {table : Request → Answer} {host : Host} {gtype snapshot : Str}

/-- The snapshots that the host lists for a dataset. -/
def answeredLabels (table : Request → Answer) (host : Host) (ds : Str) : List Str :=
  snapshotLabels (table ⟨host, .zfsListSnapshots ds true⟩).stdout

theorem neverRaises_runCommand (host : Host) (cmd : Cmd) : (runCommand host cmd).NeverRaises := fun _ => trivial

theorem neverRaises_resolveDisk (host : Host) (key volid : Str) : (resolveDisk host key volid).NeverRaises := by
  refine (neverRaises_runCommand host _).bind fun r => ?_
  generalize datasetFromPvesmPath (if r.success then r.stdout else []) = ds
  dsimp only
  split
  · refine (neverRaises_runCommand host _).bind fun chk => ?_
    split <;> trivial
  · trivial

theorem neverRaises_discoverDisks (host : Host) (entries : List (Str × Str)) :
    (discoverDisks host entries).NeverRaises := by
  induction entries with
  | nil => trivial
  | cons e entries ih =>
    rw [discoverDisks]
    refine (neverRaises_resolveDisk host e.1 e.2).bind fun disk => ih.bind fun found => ?_
    cases disk <;> trivial

theorem on_perDiskSnapshots (disks : List Disk) (perDisk : Dict Str (List Str)) :
    ∃ d, (perDiskSnapshots host perDisk disks).on table = .ok d ∧ ∀ ds, d.get? ds =
      if ds ∈ disks.map Disk.dataset then some (answeredLabels table host ds) else perDisk.get? ds := by
  induction disks generalizing perDisk with
  | nil => exact ⟨perDisk, rfl, fun ds => rfl⟩
  | cons disk disks ih =>
    obtain ⟨d, hd, hget⟩ := ih (perDisk.set disk.dataset (answeredLabels table host disk.dataset))
    refine ⟨d, hd, fun ds => ?_⟩
    have hmem : ds ∈ (disk :: disks).map Disk.dataset ↔ ds = disk.dataset ∨ ds ∈ disks.map Disk.dataset := by
      rw [List.map_cons, List.mem_cons]
    rw [hget, Dict.get?_set]
    by_cases hrest : ds ∈ disks.map Disk.dataset
    · rw [if_pos hrest, if_pos (hmem.mpr (.inr hrest))]
    · rw [if_neg hrest]
      by_cases hds : ds = disk.dataset
      · rw [if_pos hds, if_pos (hmem.mpr (.inl hds)), hds]
      · rw [if_neg hds, if_neg (mt hmem.mp (not_or.mpr ⟨hds, hrest⟩))]

theorem on_missingSnapshot (disks : List Disk) : (missingSnapshot host snapshot disks).on table =
    .ok (disks.find? (fun d => snapshot ∉ answeredLabels table host d.dataset)) := by
  induction disks with
  | nil => rfl
  | cons d disks ih =>
    rw [missingSnapshot]
    have hread : (snapshotsOf host d.dataset).on table = .ok (answeredLabels table host d.dataset) := rfl
    rw [Prog.on_bind_ok hread]
    by_cases hmem : snapshot ∈ answeredLabels table host d.dataset
    · rw [if_pos (List.contains_iff_mem.mpr hmem), ih, List.find?_cons_of_neg (by simpa using hmem)]
    · rw [if_neg (mt List.contains_iff_mem.mp hmem), List.find?_cons_of_pos (by simpa using hmem)]
      rfl

theorem neverRaises_nextVmid (host : Host) : (nextVmid host).NeverRaises :=
  (neverRaises_runCommand host _).bind fun _ => trivial

theorem neverRaises_suggestVmid {value vmid : Str} (h : validateVmid value = .ok vmid) :
    (suggestVmid host vmid).NeverRaises := by
  have hfree : (candidateFree host ('9' :: vmid)).NeverRaises := by
    rw [candidateFree]
    split
    · rename_i hlength
      have hdigits : IsDigits ('9' :: vmid) :=
        ⟨List.cons_ne_nil _ _, List.forall_mem_cons.mpr ⟨by decide, (validateVmid_ok h).2.2⟩⟩
      have hint := toInt?_digits hdigits
      rw [if_neg (by omega)] at hint
      rw [vmidInUse, pyInt, hint]
      exact (neverRaises_runCommand host _).bind fun _ => trivial
    · trivial
  refine hfree.bind fun free => ?_
  cases free
  · exact neverRaises_nextVmid host
  · trivial

theorem neverRaises_storageForRoot (host : Host) (root : Str) : (storageForRoot host root).NeverRaises := by
  refine (neverRaises_runCommand host _).bind fun r => ?_
  split <;> trivial

theorem neverRaises_readGuestConfig (host : Host) (vmid gtype : Str) :
    (readGuestConfig host vmid gtype).NeverRaises := by
  rw [readGuestConfig]
  split
  · trivial
  · refine (neverRaises_runCommand host _).bind fun r => ?_
    split <;> trivial

/-! ## What is usable -/

theorem mem_foldl_appendUnseen {s : Str} {xs acc : List Str} : s ∈ xs.foldl appendUnseen acc ↔ s ∈ acc ∨ s ∈ xs := by
  induction xs generalizing acc with
  | nil => simp
  | cons x xs ih =>
    rw [List.foldl_cons, ih, List.mem_cons, appendUnseen]
    split
    · rename_i hx
      constructor
      · exact Or.imp_right .inr
      · rintro (h | rfl | h)
        · exact .inl h
        · exact .inl hx
        · exact .inr h
    · rw [List.mem_append, List.mem_singleton, or_assoc]

theorem mem_usable {s : Str} {perDisk : Dict Str (List Str)} :
    s ∈ ((commonSnapshots perDisk).filter SnapshotChoice.onAll).map SnapshotChoice.name ↔
      perDisk.entries ≠ [] ∧ ∀ e ∈ perDisk.entries, s ∈ e.2 := by
  have hall : (perDisk.entries.filter (fun e => s ∉ e.2)).map Prod.fst = [] ↔ ∀ e ∈ perDisk.entries, s ∈ e.2 := by
    rw [List.map_eq_nil_iff, List.filter_eq_nil_iff]
    simp
  rw [commonSnapshots, List.mem_map]
  constructor
  · rintro ⟨c, hc, rfl⟩
    obtain ⟨hc, honAll⟩ := List.mem_filter.mp hc
    obtain ⟨s, hs, rfl⟩ := List.mem_map.mp hc
    obtain ⟨e, he, -⟩ := List.mem_flatMap.mp ((mem_foldl_appendUnseen.mp hs).resolve_left List.not_mem_nil)
    exact ⟨List.ne_nil_of_mem he, hall.mp (of_decide_eq_true honAll)⟩
  · rintro ⟨hne, hs⟩
    obtain ⟨e, he⟩ := List.exists_mem_of_ne_nil _ hne
    refine ⟨_, List.mem_filter.mpr ⟨List.mem_map_of_mem (mem_foldl_appendUnseen.mpr (.inr ?_)), ?_⟩, rfl⟩
    · exact List.mem_flatMap.mpr ⟨e, he, hs e he⟩
    · exact decide_eq_true (hall.mpr hs)

theorem usable_iff {s : Str} {disks : List Disk} {d : Dict Str (List Str)}
    (h : ∀ ds, d.get? ds = if ds ∈ disks.map Disk.dataset then some (answeredLabels table host ds) else none) :
    s ∈ ((commonSnapshots d).filter SnapshotChoice.onAll).map SnapshotChoice.name ↔
      disks ≠ [] ∧ ∀ disk ∈ disks, s ∈ answeredLabels table host disk.dataset := by
  have hentry : ∀ disk ∈ disks, (disk.dataset, answeredLabels table host disk.dataset) ∈ d.entries := by
    intro disk hdisk
    rw [Dict.mem_entries, h, if_pos (List.mem_map_of_mem hdisk)]
  have hdisk : ∀ e ∈ d.entries, ∃ disk ∈ disks, e = (disk.dataset, answeredLabels table host disk.dataset) := by
    rintro ⟨ds, snaps⟩ he
    rw [Dict.mem_entries, h] at he
    split at he
    · rename_i hmem
      obtain ⟨disk, hdisk, rfl⟩ := List.mem_map.mp hmem
      exact ⟨disk, hdisk, by rw [Option.some.inj he]⟩
    · cases he
  rw [mem_usable]
  constructor
  · rintro ⟨hne, hall⟩
    obtain ⟨e, he⟩ := List.exists_mem_of_ne_nil _ hne
    obtain ⟨disk, hmem, -⟩ := hdisk e he
    exact ⟨List.ne_nil_of_mem hmem, fun disk hmem => hall _ (hentry disk hmem)⟩
  · rintro ⟨hne, hall⟩
    obtain ⟨disk, hmem⟩ := List.exists_mem_of_ne_nil _ hne
    refine ⟨List.ne_nil_of_mem (hentry disk hmem), fun e he => ?_⟩
    obtain ⟨disk, hmem, rfl⟩ := hdisk e he
    exact hall disk hmem

/-! ## The preview and the creation -/

theorem onePool_ok_iff {disks : List Disk} {pool : Str} : onePool disks = .ok pool ↔ diskPools disks = [pool] := by
  rw [onePool, diskPools]
  split
  · rename_i pool' heq
    rw [heq]
    simp
  · rename_i pools hne
    exact iff_of_false nofun (hne pool)

theorem diskPools_ne_nil {disks : List Disk} (h : disks ≠ []) : diskPools disks ≠ [] := by
  obtain ⟨d, hd⟩ := List.exists_mem_of_ne_nil _ h
  apply List.ne_nil_of_mem (a := poolOf d.dataset)
  rw [diskPools, sortedSet, List.mem_insertionSort, List.mem_dedup]
  exact List.mem_map_of_mem hd

theorem blockersOf_eq_nil {disc : Discovery} :
    blockersOf disc (diskPools disc.disks) = [] ↔
      (disc.unresolved = [] ∧ disc.disks ≠ []) ∧ ∃ pool, diskPools disc.disks = [pool] := by
  rw [blockersOf, List.append_eq_nil_iff, List.append_eq_nil_iff, ite_eq_left_iff, ite_eq_right_iff,
    ite_eq_right_iff]
  constructor
  · rintro ⟨⟨hunresolved, hdisks⟩, hpools⟩
    have hdisks : disc.disks ≠ [] := fun h => List.cons_ne_nil _ _ (hdisks h)
    have hpos := List.length_pos_iff.mpr (diskPools_ne_nil hdisks)
    have hle : ¬ 1 < (diskPools disc.disks).length := fun h => List.cons_ne_nil _ _ (hpools h)
    refine ⟨⟨?_, hdisks⟩, List.length_eq_one_iff.mp (by omega)⟩
    by_contra h
    exact List.cons_ne_nil _ _ (hunresolved h)
  · rintro ⟨⟨hunresolved, hdisks⟩, pool, hpool⟩
    refine ⟨⟨fun h => absurd hunresolved h, fun h => absurd h hdisks⟩, fun h => ?_⟩
    rw [hpool] at h
    exact absurd h (Nat.lt_irrefl 1)

/-- What the disks are found to be, and what the preview says of them. -/
structure Shows (table : Request → Answer) (host : Host) (vmid : Str) (disc : Discovery) (view : PreviewView) :
    Prop where
  disks : view.disks = disc.disks
  pool : view.pool = (diskPools disc.disks).head?.getD []
  blockers : view.blockers = blockersOf disc (diskPools disc.disks)
  usable : ∀ s, s ∈ view.usable ↔
    disc.disks ≠ [] ∧ ∀ disk ∈ disc.disks, s ∈ answeredLabels table host disk.dataset
  nextVmid : (suggestVmid host vmid).on table = .ok view.nextVmid

theorem on_previewStorage (root : Str) : ∃ storage, (previewStorage host root).on table = .ok storage := by
  rw [previewStorage]
  split
  · exact ⟨[], rfl⟩
  · exact (neverRaises_storageForRoot host root).on

theorem on_previewRootExists (root : Str) : ∃ present, (previewRootExists host root).on table = .ok present := by
  rw [previewRootExists]
  split <;> exact ⟨_, rfl⟩

theorem on_previewDisks {value vmid : Str} (hvmid : validateVmid value = .ok vmid) (cfg : ConfigFile)
    {disc : Discovery} (hdisc : (discoverGuestDisks host gtype cfg.content).on table = .ok disc) :
    ∃ view, (previewDisks host vmid gtype cfg).on table = .ok view ∧ Shows table host vmid disc view := by
  obtain ⟨d, hd, hget⟩ := @on_perDiskSnapshots table host disc.disks Dict.empty
  obtain ⟨next, hnext⟩ : ∃ next, (suggestVmid host vmid).on table = .ok next := (neverRaises_suggestVmid hvmid).on
  obtain ⟨storage, hs⟩ := @on_previewStorage table host
    (if (diskPools disc.disks).head?.getD [] = [] then [] else recoveryRoot ((diskPools disc.disks).head?.getD []))
  obtain ⟨present, hp⟩ := @on_previewRootExists table host
    (if (diskPools disc.disks).head?.getD [] = [] then [] else recoveryRoot ((diskPools disc.disks).head?.getD []))
  rw [previewDisks, Prog.on_bind_ok hdisc]
  dsimp only
  rw [Prog.on_bind_ok hd, Prog.on_bind_ok hs, Prog.on_bind_ok hp, Prog.on_bind_ok hnext]
  exact ⟨_, rfl, rfl, rfl, rfl, fun s => usable_iff hget, hnext⟩

theorem on_originDisks {cfg : ConfigFile} {disc : Discovery} {o : Origin}
    (hdisc : (discoverGuestDisks host gtype cfg.content).on table = .ok disc) :
    (originDisks host gtype snapshot cfg).on table = .ok (.ok o) ↔
      ((disc.unresolved = [] ∧ disc.disks ≠ []) ∧ diskPools disc.disks = [o.pool] ∧
        ∀ d ∈ disc.disks, snapshot ∈ answeredLabels table host d.dataset) ∧ o.cfg = cfg ∧ o.disks = disc.disks := by
  rw [originDisks, Prog.on_bind_ok hdisc]
  split
  · rename_i hrefused
    refine iff_of_false nofun fun h => ?_
    exact hrefused.elim (absurd h.1.1.1) h.1.1.2
  · rename_i hfound
    have hfound : disc.unresolved = [] ∧ disc.disks ≠ [] := by
      rwa [not_or, Decidable.not_not] at hfound
    rw [← onePool_ok_iff]
    cases hpool : onePool disc.disks with
    | error e => exact iff_of_false nofun nofun
    | ok pool =>
      dsimp only
      rw [Prog.on_bind_ok (on_missingSnapshot disc.disks)]
      cases hmissing : disc.disks.find? (fun d => snapshot ∉ answeredLabels table host d.dataset) with
      | some d =>
        have hlacks : snapshot ∉ answeredLabels table host d.dataset := by
          simpa using List.find?_some hmissing
        exact iff_of_false nofun fun h => hlacks (h.1.2.2 d (List.mem_of_find?_eq_some hmissing))
      | none =>
        have hall : ∀ d ∈ disc.disks, snapshot ∈ answeredLabels table host d.dataset := by
          simpa using hmissing
        constructor
        · rintro h
          cases h
          exact ⟨⟨hfound, rfl, hall⟩, rfl, rfl⟩
        · rintro ⟨⟨-, hpool, -⟩, hcfg, hdisks⟩
          cases hpool
          cases o
          cases hcfg
          cases hdisks
          rfl

theorem on_preview {vmid : Str} {view : PreviewView} :
    (preview host vmid gtype).on table = .ok (.ok view) ↔
      ∃ v cfg, validateVmid vmid = .ok v ∧ validateVmType gtype = .ok gtype ∧
        (readGuestConfig host v gtype).on table = .ok (.ok cfg) ∧ (parseMarker cfg.content).isSome = false ∧
        (previewDisks host v gtype cfg).on table = .ok view := by
  rw [preview]
  cases hvmid : validateVmid vmid with
  | error e => exact iff_of_false nofun (by rintro ⟨_, _, ⟨⟩, -⟩)
  | ok v =>
    cases hgtype : validateVmType gtype with
    | error e => exact iff_of_false nofun (by rintro ⟨_, _, -, ⟨⟩, -⟩)
    | ok g =>
      obtain rfl : g = gtype := validateVmType_ok hgtype
      dsimp only
      obtain ⟨read, hread⟩ : ∃ read, (readGuestConfig host v g).on table = .ok read :=
        (neverRaises_readGuestConfig host v g).on
      rw [Prog.on_bind_ok hread]
      cases read with
      | error e =>
        refine iff_of_false nofun ?_
        rintro ⟨v', cfg, ⟨⟩, -, hcfg, -⟩
        rw [hread] at hcfg
        cases hcfg
      | ok cfg =>
        dsimp only
        split
        · rename_i hmarker
          refine iff_of_false nofun ?_
          rintro ⟨v', cfg', ⟨⟩, -, hcfg, hplain, -⟩
          rw [hread] at hcfg
          cases hcfg
          rw [hmarker] at hplain
          cases hplain
        · rename_i hmarker
          rw [Prog.on_bind]
          constructor
          · intro h
            cases hdisks : (previewDisks host v g cfg).on table with
            | error e =>
              rw [hdisks] at h
              cases h
            | ok shown =>
              rw [hdisks] at h
              cases h
              exact ⟨v, cfg, rfl, rfl, hread, Bool.eq_false_iff.mpr hmarker, hdisks⟩
          · rintro ⟨v', cfg', ⟨⟩, -, hcfg, -, hdisks⟩
            rw [hread] at hcfg
            cases hcfg
            rw [hdisks]
            rfl

theorem on_readOrigin {vmid : Str} {o : Origin} :
    (readOrigin host vmid gtype snapshot).on table = .ok (.ok o) ↔
      ∃ cfg, (readGuestConfig host vmid gtype).on table = .ok (.ok cfg) ∧ (parseMarker cfg.content).isSome = false ∧
        (originDisks host gtype snapshot cfg).on table = .ok (.ok o) := by
  obtain ⟨read, hread⟩ : ∃ read, (readGuestConfig host vmid gtype).on table = .ok read :=
    (neverRaises_readGuestConfig host vmid gtype).on
  rw [readOrigin, Prog.on_bind_ok hread]
  cases read with
  | error e =>
    refine iff_of_false nofun ?_
    rintro ⟨cfg, hcfg, -⟩
    rw [hread] at hcfg
    cases hcfg
  | ok cfg =>
    dsimp only
    split
    · rename_i hmarker
      refine iff_of_false nofun ?_
      rintro ⟨cfg', hcfg, hplain, -⟩
      rw [hread] at hcfg
      cases hcfg
      rw [hmarker] at hplain
      cases hplain
    · rename_i hmarker
      constructor
      · intro h
        exact ⟨cfg, hread, Bool.eq_false_iff.mpr hmarker, h⟩
      · rintro ⟨cfg', hcfg, -, h⟩
        rw [hread] at hcfg
        cases hcfg
        exact h

/-- A proposed VMID is its own stripped text. -/
theorem strip_suggestVmid {value v next : Str} (hvmid : validateVmid value = .ok v)
    (h : (suggestVmid host v).on table = .ok next) : strip next = next := by
  have hcand : ∀ c ∈ '9' :: v, isSpace c = false :=
    List.forall_mem_cons.mpr ⟨by decide, fun c hc => isSpace_of_isAsciiDigit ((validateVmid_ok hvmid).2.2 c hc)⟩
  have hnumber : ∀ s, ∀ c ∈ (firstNumber s).getD [], isSpace c = false := by
    intro s c hc
    cases hfirst : firstNumber s with
    | none =>
      rw [hfirst] at hc
      exact absurd hc List.not_mem_nil
    | some w =>
      rw [hfirst] at hc
      have hdigits := List.find?_some hfirst
      rw [Bool.and_eq_true, List.all_eq_true] at hdigits
      exact isSpace_of_isDecimal (hdigits.2 c hc)
  apply strip_eq_self
  rw [suggestVmid, Prog.on_bind] at h
  cases hfree : (candidateFree host ('9' :: v)).on table with
  | error e =>
    rw [hfree] at h
    cases h
  | ok free =>
    rw [hfree] at h
    cases free with
    | true =>
      cases h
      exact hcand
    | false =>
      cases h
      split
      · exact hnumber _
      · exact fun c hc => absurd hc List.not_mem_nil

/-- Asking for the proposed VMID is asking for none. -/
theorem chooseVmid_proposed {value v next : Str} (hvmid : validateVmid value = .ok v)
    (h : (suggestVmid host v).on table = .ok next) :
    (chooseVmid host v next).on table = (chooseVmid host v []).on table := by
  have hwanted : (wantedVmid host v next).on table = .ok next := by
    rw [wantedVmid, strip_suggestVmid hvmid h]
    split
    · rfl
    · exact h
  have hnone : (wantedVmid host v []).on table = .ok next := h
  rw [chooseVmid, Prog.on_bind_ok hwanted, chooseVmid, Prog.on_bind_ok hnone]

/-- The preview offers the snapshot, and has nothing against the guest. -/
structure Offers (table : Request → Answer) (host : Host) (vmid gtype label : Str) (view : PreviewView) : Prop where
  shown : (preview host vmid gtype).on table = .ok (.ok view)
  blockers : view.blockers = []
  usable : label ∈ view.usable

/-- `create_job` reads this origin and has nothing against it. -/
structure Accepts (table : Request → Answer) (host : Host) (vmid gtype label v : Str) (o : Origin) : Prop where
  vmidOk : validateVmid vmid = .ok v
  gtypeOk : validateVmType gtype = .ok gtype
  labelOk : isSnapshotLabel (strip label) = true
  origin : (readOrigin host v gtype (strip label)).on table = .ok (.ok o)

/-- Both look at the same disks. -/
theorem exists_discovery {vmid v : Str} (hvmid : validateVmid vmid = .ok v) (cfg : ConfigFile) :
    ∃ disc view, (discoverGuestDisks host gtype cfg.content).on table = .ok disc ∧
      (previewDisks host v gtype cfg).on table = .ok view ∧ Shows table host v disc view := by
  obtain ⟨disc, hdisc⟩ : ∃ disc, (discoverGuestDisks host gtype cfg.content).on table = .ok disc :=
    (neverRaises_discoverDisks host _).on
  obtain ⟨view, hview, hshows⟩ := on_previewDisks hvmid cfg hdisc
  exact ⟨disc, view, hdisc, hview, hshows⟩

theorem Shows.offers_iff {vmid label : Str} {disc : Discovery} {view : PreviewView}
    (h : Shows table host vmid disc view) :
    view.blockers = [] ∧ label ∈ view.usable ↔
      (disc.unresolved = [] ∧ disc.disks ≠ []) ∧ (∃ pool, diskPools disc.disks = [pool]) ∧
        ∀ d ∈ disc.disks, label ∈ answeredLabels table host d.dataset := by
  rw [h.blockers, h.usable, blockersOf_eq_nil]
  tauto

end

/-- On a host that does not change in between, the preview offers the snapshot
without a blocker exactly when `create_job` accepts the origin.  The disks, the pool
and the VMID are then the same. -/
theorem offered_iff_accepted (table : Request → Answer) (host : Host) (vmid gtype label : Str) :
    (isSnapshotLabel (strip label) = true ∧ (∃ view, Offers table host vmid gtype (strip label) view) ↔
      ∃ v o, Accepts table host vmid gtype label v o) ∧
    ∀ view v o, Offers table host vmid gtype (strip label) view → Accepts table host vmid gtype label v o →
      view.disks = o.disks ∧ view.pool = o.pool ∧
        (chooseVmid host v view.nextVmid).on table = (chooseVmid host v []).on table := by
  refine ⟨⟨?_, ?_⟩, ?_⟩
  · rintro ⟨hlabel, view, hoffers⟩
    obtain ⟨v, cfg, hvmid, hgtype, hcfg, hmarker, hdisks⟩ := on_preview.mp hoffers.shown
    obtain ⟨disc, view', hdisc, hview, hshows⟩ := @exists_discovery table host gtype vmid v hvmid cfg
    rw [hdisks] at hview
    cases hview
    obtain ⟨hfound, ⟨pool, hpool⟩, hall⟩ := hshows.offers_iff.mp ⟨hoffers.blockers, hoffers.usable⟩
    have horigin := (@on_originDisks table host gtype (strip label) cfg disc ⟨cfg, disc.disks, pool⟩ hdisc).mpr
      ⟨⟨hfound, hpool, hall⟩, rfl, rfl⟩
    exact ⟨v, _, hvmid, hgtype, hlabel, on_readOrigin.mpr ⟨cfg, hcfg, hmarker, horigin⟩⟩
  · rintro ⟨v, o, haccepts⟩
    obtain ⟨cfg, hcfg, hmarker, horigin⟩ := on_readOrigin.mp haccepts.origin
    obtain ⟨disc, view, hdisc, hview, hshows⟩ := @exists_discovery table host gtype vmid v haccepts.vmidOk cfg
    obtain ⟨⟨hfound, hpool, hall⟩, -⟩ := (on_originDisks hdisc).mp horigin
    obtain ⟨hblockers, husable⟩ := hshows.offers_iff.mpr ⟨hfound, ⟨_, hpool⟩, hall⟩
    have hshown := on_preview.mpr ⟨v, cfg, haccepts.vmidOk, haccepts.gtypeOk, hcfg, hmarker, hview⟩
    exact ⟨haccepts.labelOk, view, hshown, hblockers, husable⟩
  · intro view v o hoffers haccepts
    obtain ⟨v', cfg, hvmid, -, hcfg, -, hdisks⟩ := on_preview.mp hoffers.shown
    obtain rfl : v' = v := Except.ok.inj (hvmid.symm.trans haccepts.vmidOk)
    obtain ⟨cfg', hcfg', -, horigin⟩ := on_readOrigin.mp haccepts.origin
    obtain rfl : cfg = cfg' := Except.ok.inj (Except.ok.inj (hcfg.symm.trans hcfg'))
    obtain ⟨disc, view', hdisc, hview, hshows⟩ := @exists_discovery table host gtype vmid v' hvmid cfg
    rw [hdisks] at hview
    cases hview
    obtain ⟨⟨-, hpool, -⟩, -, horigins⟩ := (on_originDisks hdisc).mp horigin
    refine ⟨hshows.disks.trans horigins.symm, ?_, chooseVmid_proposed hvmid hshows.nextVmid⟩
    rw [hshows.pool, hpool]
    rfl

end PveZfsTool
