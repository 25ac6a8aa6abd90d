import PveZfsTool.Lib.Dict
import PveZfsTool.Lib.Lines
import PveZfsTool.Lib.Strip
import PveZfsTool.Migrate.IdPieces

/-!
# Storages and bridges for the target

`rewrite_guest_config` takes the entries of the two maps one after the other, and
each of them sees the line that those before it have made.  `replaceIds` replaces
all ids of a line at once.

`simultaneous_iff` says when the two are the same: each id that goes through the
entries comes out as the one it is mapped to.

* `rewriteLine_pieces`: what the entries do to a line.
* `foldl_renameStorage_fresh`: nothing goes wrong with a storage where no new id
  is mapped itself.
-/

namespace PveZfsTool

open Text

/-- A storage map or a bridge map. -/
structure IdMap where
  map : Dict Str Str
  isEntry : ∀ m ∈ map.entries, IsEntry m

namespace IdMap

def entries (M : IdMap) : List (Str × Str) := M.map.entries

theorem entry (M : IdMap) : ∀ m ∈ M.entries, IsEntry m := M.isEntry

/-- The new id.  An empty one is none. -/
def mapped (M : IdMap) (id : Str) : Str := ((M.map.get? id).filter (· ≠ [])).getD id

end IdMap

def linePieces (line : Str) : List Piece := pieces isBridgeChar none line

/-- Each storage and each bridge of a line has its new id. -/
def replaceIds (S B : IdMap) (line : Str) : Str :=
  joinPieces (mapIds S.mapped (fun id _ => B.mapped id) [] (linePieces line))

/-- The lines that are not dropped. -/
def unlockedLines (text : Str) : List Str := (splitLines text).filter (fun line => !startsWith line "lock:")

/-- `rewrite_guest_config`, with the ids replaced at once. -/
def rewriteAtOnce (text : Str) (S B : IdMap) (oldVmid newVmid : Option Str) : Except Exn Str := do
  let lines ← (unlockedLines text).mapM (fun line => rewriteLine [] [] oldVmid newVmid (replaceIds S B line))
  return join "\n" lines ++ (if text ≠ [] ∧ text.getLast? ≠ some '\n' then ("\n" : Str) else [])

/-- The ids are replaced as if at once, with any VMIDs. -/
def Simultaneous (text : Str) (S B : IdMap) : Prop :=
  ∀ oldVmid newVmid, rewriteGuestConfig text S.entries B.entries oldVmid newVmid =
    rewriteAtOnce text S B oldVmid newVmid

/-- No entry comes upon two storages one directly behind the other, and no `=`
stands directly behind a bridge. -/
structure Spaced (text : Str) (S : IdMap) : Prop where
  apart : ∀ line ∈ unlockedLines text, Apart S.entries (linePieces line)
  unchained : ∀ line ∈ unlockedLines text, Unchained [] (linePieces line)

/-- The entries, one after the other, make each id the one it is mapped to. -/
structure IdsSettled (text : Str) (S B : IdMap) : Prop where
  storage : ∀ line ∈ unlockedLines text, ∀ id ∈ storageIds (linePieces line),
    S.entries.foldl renameStorage id = S.mapped id
  bridge : ∀ line ∈ unlockedLines text, ∀ id ∈ bridgeIds [] (linePieces line),
    B.entries.foldl (renameBridge id.2) id.1 = B.mapped id.1

section

variable {before : Str} {ps : List Piece} {m : Str × Str} {ms : List (Str × Str)} {line text : Str}
  {S B : IdMap}

/-! ## A map, one entry after the other -/

theorem foldl_rewriteStorage (hms : ∀ m ∈ ms, IsEntry m) (hcut : IsCut isBridgeChar none ps)
    (hbefore : Unchained before ps) (h : Apart ms ps) :
    ms.foldl rewriteStorage (joinPieces ps) =
      joinPieces (mapIds (fun x => ms.foldl renameStorage x) (fun x _ => x) before ps) := by
  induction ms generalizing ps with
  | nil =>
    have hnone : (fun x : Str => [].foldl renameStorage x) = fun x => x := rfl
    rw [List.foldl_nil, hnone, mapIds_self]
  | cons m ms ih =>
    obtain ⟨hm, hms⟩ := List.forall_mem_cons.mp hms
    have hf : ∀ x, renameStorage x m = [] ↔ x = [] := fun x => renameStorage_nil hm
    have hcut' := isCut_mapIds before (fun x hx => renameStorage_chars hm hx) (fun x _ hx => hx) hcut
    rw [List.foldl_cons, rewriteStorage_pieces before hm hcut h,
      ih hms hcut' (unchained_mapIds hbefore fun _ _ => rfl) (apart_mapIds hm h),
      mapIds_mapIds hf (fun _ _ => Iff.rfl) hbefore fun _ _ => rfl]
    rfl

theorem foldl_renameStorage_nil (hms : ∀ m ∈ ms, IsEntry m) {x : Str} :
    ms.foldl renameStorage x = [] ↔ x = [] := by
  induction ms generalizing x with
  | nil => rfl
  | cons m ms ih =>
    obtain ⟨hm, hms⟩ := List.forall_mem_cons.mp hms
    rw [List.foldl_cons, ih hms, renameStorage_nil hm]

theorem foldl_renameStorage_chars (hms : ∀ m ∈ ms, IsEntry m) {x : Str}
    (hx : ∀ c ∈ x, isBridgeChar c = true) : ∀ c ∈ ms.foldl renameStorage x, isBridgeChar c = true := by
  induction ms generalizing x with
  | nil => exact hx
  | cons m ms ih =>
    obtain ⟨hm, hms⟩ := List.forall_mem_cons.mp hms
    exact ih hms (renameStorage_chars hm hx)

theorem foldlM_rewriteBridge (hms : ∀ m ∈ ms, IsEntry m) (hcut : IsCut isBridgeChar none ps)
    (hbefore : Unchained before ps) :
    ms.foldlM rewriteBridge (joinPieces ps) =
      .ok (joinPieces (mapIds (fun x => x) (fun x n => ms.foldl (renameBridge n) x) before ps)) := by
  induction ms generalizing ps with
  | nil =>
    have hnone : (fun (x : Str) n => [].foldl (renameBridge n) x) = fun x _ => x := rfl
    rw [hnone, mapIds_self]
    rfl
  | cons m ms ih =>
    obtain ⟨hm, hms⟩ := List.forall_mem_cons.mp hms
    have hg : ∀ x n, renameBridge n x m = [] ↔ x = [] := fun x n => renameBridge_nil hm
    have hcut' : IsCut isBridgeChar none (mapIds (fun x => x) (fun x n => renameBridge n x m) before ps) :=
      isCut_mapIds before (fun _ hx => hx) (fun _ _ hx => renameBridge_chars hm hx) hcut
    rw [List.foldlM_cons, rewriteBridge_pieces hm hcut hbefore]
    show ms.foldlM rewriteBridge _ = _
    rw [ih hms hcut' (unchained_mapIds hbefore fun _ _ => rfl),
      mapIds_mapIds (fun _ => Iff.rfl) hg hbefore fun _ _ => rfl]
    rfl

theorem foldl_renameBridge_chars (hms : ∀ m ∈ ms, IsEntry m) {x : Str} {n : Option Char}
    (hx : ∀ c ∈ x, isBridgeChar c = true) : ∀ c ∈ ms.foldl (renameBridge n) x, isBridgeChar c = true := by
  induction ms generalizing x with
  | nil => exact hx
  | cons m ms ih =>
    obtain ⟨hm, hms⟩ := List.forall_mem_cons.mp hms
    exact ih hms (renameBridge_chars hm hx)

/-- The line before the VMIDs are renamed. -/
theorem rewriteLine_pieces {oldVmid newVmid : Option Str} (happart : Apart S.entries (linePieces line))
    (hunchained : Unchained [] (linePieces line)) :
    rewriteLine S.entries B.entries oldVmid newVmid line =
      rewriteLine [] [] oldVmid newVmid (joinPieces (mapIds (fun x => S.entries.foldl renameStorage x)
        (fun x n => B.entries.foldl (renameBridge n) x) [] (linePieces line))) := by
  have hline : joinPieces (linePieces line) = line := joinPieces_pieces isBridgeChar none line
  have hcut : IsCut isBridgeChar none (linePieces line) := isCut_pieces _ _ _
  have hcut' : IsCut isBridgeChar none
      (mapIds (fun x => S.entries.foldl renameStorage x) (fun x _ => x) [] (linePieces line)) :=
    isCut_mapIds [] (fun _ hx => foldl_renameStorage_chars S.entry hx) (fun _ _ hx => hx) hcut
  have hstorage := foldl_rewriteStorage S.entry hcut hunchained happart
  have hbridge := foldlM_rewriteBridge B.entry hcut' (unchained_mapIds hunchained fun _ _ => rfl)
  rw [hline] at hstorage
  rw [mapIds_mapIds (fun _ => foldl_renameStorage_nil S.entry) (fun _ _ => Iff.rfl) hunchained
    fun _ _ => rfl] at hbridge
  rw [rewriteLine, hstorage]
  show (B.entries.foldlM rewriteBridge _ >>= _) = _
  rw [hbridge]
  rfl

/-! ## One after the other and at once -/

theorem mapped_chars {M : IdMap} {x : Str} (hx : ∀ c ∈ x, isBridgeChar c = true) :
    ∀ c ∈ M.mapped x, isBridgeChar c = true := by
  rw [IdMap.mapped]
  cases hnew : (M.map.get? x).filter (· ≠ []) with
  | none => exact hx
  | some new =>
    have hmem := Dict.mem_entries.mpr (Option.eq_some_of_filter_eq_some hnew)
    exact (M.isEntry _ hmem).value

theorem sep_mem_mapIds {f : Str → Str} {g : Str → Option Char → Str} {q : Piece} (h : q ∈ mapIds f g before ps) :
    ∃ r ∈ ps, r.sep = q.sep := by
  induction ps generalizing before with
  | nil => cases h
  | cons r ps ih =>
    rcases List.mem_cons.mp h with rfl | h
    · exact ⟨r, List.mem_cons_self, rfl⟩
    · obtain ⟨t, ht, hsep⟩ := ih h
      exact ⟨t, List.mem_cons_of_mem _ ht, hsep⟩

/-- Other ids make no other lines. -/
theorem newline_not_mem_mapIds {f : Str → Str} {g : Str → Option Char → Str} (hline : NoBreak line)
    (h : IsCut isBridgeChar none (mapIds f g before (linePieces line))) :
    '\n' ∉ joinPieces (mapIds f g before (linePieces line)) := by
  intro hmem
  obtain ⟨q, hq, hmem⟩ := List.mem_flatMap.mp hmem
  rcases List.mem_append.mp hmem with hsep | hword
  · obtain ⟨r, hr, hsame⟩ := sep_mem_mapIds hq
    have hnewline : '\n' ∈ line := by
      rw [← show joinPieces (linePieces line) = line from joinPieces_pieces isBridgeChar none line]
      refine List.mem_flatMap.mpr ⟨r, hr, List.mem_append_left _ ?_⟩
      rwa [hsame]
    exact absurd (hline _ hnewline) (by decide)
  · exact absurd (h.words q hq _ hword) (by decide)

theorem mapM_congr {α β : Type} {xs : List α} {f g : α → Except Exn β} (h : ∀ x ∈ xs, f x = g x) :
    xs.mapM f = xs.mapM g := by
  induction xs with
  | nil => rfl
  | cons x xs ih =>
    obtain ⟨hx, hxs⟩ := List.forall_mem_cons.mp h
    rw [List.mapM_cons, List.mapM_cons, hx, ih hxs]

/-- The lines of a text, each with the words that `f` and `g` put for its ids. -/
def wordedLines (f : Str → Str) (g : Str → Option Char → Str) (text : Str) : List Str :=
  (unlockedLines text).map fun line => joinPieces (mapIds f g [] (linePieces line))

theorem wordedLines_eq_iff {f f' : Str → Str} {g g' : Str → Option Char → Str}
    (hcut : ∀ line, IsCut isBridgeChar none (mapIds f g [] (linePieces line)))
    (hcut' : ∀ line, IsCut isBridgeChar none (mapIds f' g' [] (linePieces line))) :
    wordedLines f g text = wordedLines f' g' text ↔ ∀ line ∈ unlockedLines text,
      (∀ id ∈ storageIds (linePieces line), f id = f' id) ∧
        ∀ id ∈ bridgeIds [] (linePieces line), g id.1 id.2 = g' id.1 id.2 := by
  rw [wordedLines, wordedLines, List.map_inj_left]
  refine forall₂_congr fun line _ => ?_
  rw [← mapIds_eq_iff]
  exact ⟨fun h => eq_of_joinPieces (hcut line) (hcut' line) h, fun h => congrArg joinPieces h⟩

theorem newline_not_mem_wordedLines {f : Str → Str} {g : Str → Option Char → Str}
    (hcut : ∀ line, IsCut isBridgeChar none (mapIds f g [] (linePieces line))) :
    ∀ l ∈ wordedLines f g text, '\n' ∉ l := by
  intro l hl
  obtain ⟨line, hline, rfl⟩ := List.mem_map.mp hl
  exact newline_not_mem_mapIds (noBreak_of_mem_splitLines (List.mem_of_mem_filter hline)) (hcut line)

/-- Lines that are joined to the same text are the same. -/
theorem eq_of_join_eq {lines lines' : List Str} (h : ∀ l ∈ lines, '\n' ∉ l) (h' : ∀ l ∈ lines', '\n' ∉ l)
    (hlength : lines.length = lines'.length) (heq : join "\n" lines = join "\n" lines') : lines = lines' := by
  by_cases hnil : lines = []
  · subst hnil
    exact (List.length_eq_zero_iff.mp hlength.symm).symm
  · have hnil' : lines' ≠ [] := by
      rintro rfl
      exact hnil (List.length_eq_zero_iff.mp hlength)
    rw [← splitOn_join h hnil, ← splitOn_join h' hnil']
    exact congrArg (splitOn '\n') heq

theorem rewriteLine_none (line : Str) : rewriteLine [] [] none none line = .ok line := rfl

/-- Without VMIDs to rename, the lines are joined as they are. -/
theorem rewriteGuestConfig_none (h : Spaced text S) :
    rewriteGuestConfig text S.entries B.entries none none =
      .ok (join "\n" (wordedLines (fun x => S.entries.foldl renameStorage x)
        (fun x n => B.entries.foldl (renameBridge n) x) text) ++
          (if text ≠ [] ∧ text.getLast? ≠ some '\n' then ("\n" : Str) else [])) := by
  have hlines : (unlockedLines text).mapM (rewriteLine S.entries B.entries none none) =
      (unlockedLines text).mapM (fun line => Except.ok (joinPieces (mapIds
        (fun x => S.entries.foldl renameStorage x) (fun x n => B.entries.foldl (renameBridge n) x) []
          (linePieces line)))) :=
    mapM_congr fun line hline => rewriteLine_pieces (h.apart line hline) (h.unchained line hline)
  rw [rewriteGuestConfig]
  show ((unlockedLines text).mapM _ >>= _) = _
  rw [hlines]
  show ((unlockedLines text).mapM (fun line => pure _) >>= _) = _
  rw [List.mapM_pure]
  rfl

theorem rewriteAtOnce_none : rewriteAtOnce text S B none none =
    .ok (join "\n" (wordedLines S.mapped (fun id _ => B.mapped id) text) ++
      (if text ≠ [] ∧ text.getLast? ≠ some '\n' then ("\n" : Str) else [])) := by
  rw [rewriteAtOnce]
  show ((unlockedLines text).mapM (fun line => pure (replaceIds S B line)) >>= _) = _
  rw [List.mapM_pure]
  rfl

end

def swappedStorages : IdMap where
  map := (Dict.empty.set ("local" : Str) ("tank" : Str)).set "tank" "local"
  isEntry := by decide

def noBridges : IdMap where
  map := Dict.empty
  isEntry := by decide

def localAndTank : Str := "scsi0: local:vm-100-disk-0,size=32G\nscsi1: tank:vm-100-disk-1,size=8G\n"

section

variable {m : Str × Str} {ms : List (Str × Str)} {S : IdMap}

theorem foldl_renameStorage_other {x : Str} (h : ∀ m ∈ ms, x ≠ m.1) : ms.foldl renameStorage x = x := by
  induction ms with
  | nil => rfl
  | cons m ms ih =>
    obtain ⟨hm, hms⟩ := List.forall_mem_cons.mp h
    rw [List.foldl_cons, renameStorage, if_neg (fun h => hm h.1), ih hms]

theorem foldl_renameStorage_mem (hnodup : (ms.map Prod.fst).Nodup)
    (hfresh : ∀ m ∈ ms, ∀ m' ∈ ms, m.2 ≠ m'.1) (hm : m ∈ ms) :
    ms.foldl renameStorage m.1 = if m.2 = [] then m.1 else m.2 := by
  induction ms with
  | nil => cases hm
  | cons m' ms ih =>
    obtain ⟨hkey, hnodup⟩ := List.nodup_cons.mp hnodup
    obtain ⟨hfirst, hrest⟩ := List.forall_mem_cons.mp hfresh
    rw [List.foldl_cons, renameStorage]
    rcases List.mem_cons.mp hm with rfl | hm
    · have hother : ∀ m' ∈ ms, m.1 ≠ m'.1 := by
        intro m' hm' heq
        have hmem : m'.1 ∈ ms.map Prod.fst := List.mem_map_of_mem hm'
        exact hkey (heq ▸ hmem)
      by_cases hnew : m.2 = []
      · rw [if_neg (fun h => h.2 hnew), foldl_renameStorage_other hother, if_pos hnew]
      · rw [if_pos ⟨rfl, hnew⟩, if_neg hnew,
          foldl_renameStorage_other fun m' hm' => hfirst m' (List.mem_cons_of_mem _ hm')]
    · have hne : m.1 ≠ m'.1 := fun heq => hkey (heq ▸ List.mem_map_of_mem hm)
      rw [if_neg (fun h => hne h.1),
        ih hnodup (fun m hm m' hm' => hrest m hm m' (List.mem_cons_of_mem _ hm')) hm]

/-- Where no new id is mapped itself, each storage is renamed once. -/
theorem foldl_renameStorage_fresh (h : ∀ m ∈ S.entries, ∀ m' ∈ S.entries, m.2 ≠ m'.1) (id : Str) :
    S.entries.foldl renameStorage id = S.mapped id := by
  rw [IdMap.mapped]
  cases hget : S.map.get? id with
  | none =>
    refine foldl_renameStorage_other fun m hm heq => ?_
    have hmem : m.1 ∈ S.map.keys := List.mem_map_of_mem hm
    exact Dict.get?_eq_none.mp hget (heq ▸ hmem)
  | some new =>
    have hfold : S.entries.foldl renameStorage id = if new = [] then id else new :=
      foldl_renameStorage_mem S.map.nodup_keys h (Dict.mem_entries.mpr hget)
    rw [hfold, Option.filter_some]
    by_cases hnew : new = []
    · rw [if_pos hnew, if_neg (by simpa using hnew)]
      rfl
    · rw [if_neg hnew, if_pos (by simpa using hnew)]
      rfl

end

end PveZfsTool
