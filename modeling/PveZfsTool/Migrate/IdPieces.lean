import PveZfsTool.GuestConfig
import PveZfsTool.Lib.Pieces
import PveZfsTool.Lib.Substitute

/-!
# The ids of a config line

`rewrite_guest_config` renames a storage or a bridge with one `re.sub` on each
line.  A line is cut at the characters that stand in no id, so its words are
whole ids.

* `mapIds` puts other words for the storages and the bridges, and
  `mapIds_mapIds` says that two of these are one.
* `substitute_storage`, `stepStorage_eq`: what the pattern of a storage does to
  the words.
* `substitute_bridge_word`: what the one of a bridge does.
-/

namespace PveZfsTool

open Text

/-! ## Ids -/

/-- An entry of a map of ids.  It maps to nothing where the new id is empty. -/
structure IsEntry (m : Str × Str) : Prop where
  key_ne : m.1 ≠ []
  key : ∀ c ∈ m.1, isBridgeChar c = true
  value : ∀ c ∈ m.2, isBridgeChar c = true

instance (m : Str × Str) : Decidable (IsEntry m) :=
  decidable_of_iff (m.1 ≠ [] ∧ (∀ c ∈ m.1, isBridgeChar c = true) ∧ ∀ c ∈ m.2, isBridgeChar c = true)
    ⟨fun h => ⟨h.1, h.2.1, h.2.2⟩, fun h => ⟨h.key_ne, h.key, h.value⟩⟩

/-- What stands behind a word makes it a storage: a colon, and then no
whitespace. -/
def opensVolume : List Piece → Bool
  | ⟨some ':', word⟩ :: ps => word != [] || ps.head?.any (fun q => q.sep.any (fun c => !isSpace c))
  | _ => false

/-- `(^|[\s:,])` -/
def isPrefixSep (sep : Option Char) : Bool := sep.all (fun c => isSpace c || c == ':' || c == ',')

/-- The word of the piece is the storage of a volume id. -/
def isStorageId (q : Piece) (ps : List Piece) : Bool := isPrefixSep q.sep && opensVolume ps

/-- The word of the piece is a bridge, as `parse_config_bridges` finds them. -/
def isBridgeId (before : Str) (q : Piece) : Bool :=
  q.sep == some '=' && decide (("bridge" : Str) <:+ before)

def nextSep (ps : List Piece) : Option Char := ps.head?.bind Piece.sep

/-- Other words for the ids.  A bridge may depend on the character behind it. -/
def mapIds (f : Str → Str) (g : Str → Option Char → Str) : Str → List Piece → List Piece
  | _, [] => []
  | before, q :: ps =>
      ⟨q.sep, if isStorageId q ps then f q.word
        else if isBridgeId before q then g q.word (nextSep ps) else q.word⟩ :: mapIds f g q.word ps

/-! ## What the entries do to an id -/

/-- An entry of the storage map renames the id. -/
def renameStorage (id : Str) (m : Str × Str) : Str := if id = m.1 ∧ m.2 ≠ [] then m.2 else id

/-- An entry of the bridge map renames the start of the id, up to a boundary
of `\w`. -/
def renameBridge (next : Option Char) (id : Str) (m : Str × Str) : Str :=
  if m.1 <+: id ∧ m.2 ≠ [] ∧ isBoundary m.1.getLast? ((id.drop m.1.length).head?.or next) = true then
    m.2 ++ id.drop m.1.length
  else id

/-- No entry comes upon both of two neighbours. -/
def NeverMeet : List (Str × Str) → Str → Str → Prop
  | [], _, _ => True
  | m :: ms, x, y =>
      ¬ (x = m.1 ∧ y = m.1 ∧ m.2 ≠ []) ∧ NeverMeet ms (renameStorage x m) (renameStorage y m)

instance decidableNeverMeet : ∀ ms x y, Decidable (NeverMeet ms x y)
  | [], _, _ => isTrue trivial
  | m :: ms, x, y =>
      have := decidableNeverMeet ms (renameStorage x m) (renameStorage y m)
      inferInstanceAs (Decidable (¬ (x = m.1 ∧ y = m.1 ∧ m.2 ≠ []) ∧ NeverMeet ms _ _))

/-- No entry comes upon two storages one directly behind the other. -/
def Apart (ms : List (Str × Str)) : List Piece → Prop
  | q :: r :: ps =>
      (isStorageId q (r :: ps) = true → isStorageId r ps = true → NeverMeet ms q.word r.word) ∧
        Apart ms (r :: ps)
  | _ => True

instance decidableApart (ms : List (Str × Str)) : ∀ ps, Decidable (Apart ms ps)
  | [] => isTrue trivial
  | [_] => isTrue trivial
  | q :: r :: ps =>
      have := decidableApart ms (r :: ps)
      inferInstanceAs (Decidable ((isStorageId q (r :: ps) = true → isStorageId r ps = true →
        NeverMeet ms q.word r.word) ∧ Apart ms (r :: ps)))

/-- No `=` stands directly behind a bridge. -/
def Unchained : Str → List Piece → Prop
  | _, [] => True
  | before, q :: ps => (isBridgeId before q = true → nextSep ps ≠ some '=') ∧ Unchained q.word ps

instance decidableUnchained : ∀ before ps, Decidable (Unchained before ps)
  | _, [] => isTrue trivial
  | before, q :: ps =>
      have := decidableUnchained q.word ps
      inferInstanceAs (Decidable ((isBridgeId before q = true → nextSep ps ≠ some '=') ∧ Unchained q.word ps))

/-- The storages of a line. -/
def storageIds : List Piece → List Str
  | [] => []
  | q :: ps => (if isStorageId q ps then [q.word] else []) ++ storageIds ps

/-- The bridges of a line, each with the character behind it. -/
def bridgeIds : Str → List Piece → List (Str × Option Char)
  | _, [] => []
  | before, q :: ps =>
      (if isBridgeId before q then [(q.word, nextSep ps)] else []) ++ bridgeIds q.word ps

/-! ## Pieces with other words -/

section

variable {f f' : Str → Str} {g g' : Str → Option Char → Str} {before : Str} {q : Piece}
  {ps : List Piece} {sep : Option Char}

theorem not_bridge_of_storage (h : isStorageId q ps = true) : isBridgeId before q = false := by
  rw [isStorageId, Bool.and_eq_true] at h
  rw [isBridgeId, Bool.and_eq_false_iff]
  left
  rw [beq_eq_false_iff_ne]
  intro hsep
  have hbegins := h.1
  rw [isPrefixSep, hsep] at hbegins
  revert hbegins
  decide

/-- The same words stand for all ids exactly when they do for each. -/
theorem mapIds_eq_iff : mapIds f g before ps = mapIds f' g' before ps ↔
    (∀ x ∈ storageIds ps, f x = f' x) ∧ ∀ x ∈ bridgeIds before ps, g x.1 x.2 = g' x.1 x.2 := by
  induction ps generalizing before with
  | nil => simp [mapIds, storageIds, bridgeIds]
  | cons q ps ih =>
    rw [mapIds, mapIds, List.cons.injEq, ih, Piece.mk.injEq, and_iff_right rfl]
    cases hstorage : isStorageId q ps with
    | true =>
      have hbridge : isBridgeId before q = false := not_bridge_of_storage hstorage
      simp [storageIds, bridgeIds, hstorage, hbridge, and_assoc]
    | false =>
      cases hbridge : isBridgeId before q with
      | true => simp [storageIds, bridgeIds, hstorage, hbridge, and_left_comm]
      | false => simp [storageIds, bridgeIds, hstorage, hbridge]

theorem forall₂_mapIds (hf : ∀ x : Str, (∀ c ∈ x, isBridgeChar c = true) → ∀ c ∈ f x, isBridgeChar c = true)
    (hg : ∀ (x : Str) n, (∀ c ∈ x, isBridgeChar c = true) → ∀ c ∈ g x n, isBridgeChar c = true)
    (hps : ∀ q ∈ ps, ∀ c ∈ q.word, isBridgeChar c = true) :
    List.Forall₂ (fun q r => r.sep = q.sep ∧ ∀ c ∈ r.word, isBridgeChar c = true) ps
      (mapIds f g before ps) := by
  induction ps generalizing before with
  | nil => exact .nil
  | cons q ps ih =>
    obtain ⟨hq, hps⟩ := List.forall_mem_cons.mp hps
    refine .cons ⟨rfl, ?_⟩ (ih hps)
    dsimp only
    split_ifs
    · exact hf _ hq
    · exact hg _ _ hq
    · exact hq

theorem isCut_mapIds (before : Str) (hf : ∀ x : Str, (∀ c ∈ x, isBridgeChar c = true) → ∀ c ∈ f x, isBridgeChar c = true)
    (hg : ∀ (x : Str) n, (∀ c ∈ x, isBridgeChar c = true) → ∀ c ∈ g x n, isBridgeChar c = true)
    (h : IsCut isBridgeChar sep ps) : IsCut isBridgeChar sep (mapIds f g before ps) :=
  h.forall₂ (forall₂_mapIds hf hg h.words)

end

/-! ## The match of a storage -/

theorem isBridgeChar_plain {c : Char} (h : isBridgeChar c = true) :
    isSpace c = false ∧ isLineBreak c = false ∧ c ≠ '\\' := by
  have hothers : (['_', '.', '-'] : Str).all (fun c => c.toNat < 128) = true := by decide
  have hascii := toNat_lt_of_class hothers h
  revert h
  exact of_ascii (P := fun c => isBridgeChar c = true → isSpace c = false ∧ isLineBreak c = false ∧ c ≠ '\\')
    (by decide) hascii

/-- What the `re.sub` of one storage does.  The colon of a match is not there
for a match directly behind it. -/
def stepStorage (m : Str × Str) : List Piece → List Piece
  | q :: r :: ps =>
      if isStorageId q (r :: ps) = true ∧ q.word = m.1 then ⟨q.sep, m.2⟩ :: r :: stepStorage m ps
      else q :: stepStorage m (r :: ps)
  | ps => ps

section

variable {m : Str × Str} {sep : Option Char} {word : Str} {ps : List Piece}

/-- The volume id that a match asks for. -/
def opensAt (old r : Str) : Bool :=
  startsWith r (old ++ ":") && (r.drop (old.length + 1)).head?.any (fun c => !isSpace c)

theorem storageMatcher_cons {old new s : Str} {d c : Char} :
    storageMatcher old new (some d) (c :: s) =
      if ((isSpace c || c == ':' || c == ',') && opensAt old s) = true then
        some (old.length + 2, c :: new ++ ":") else none := by
  rw [storageMatcher]
  rfl

theorem storageMatcher_start {old new s : Str} : storageMatcher old new none s =
    if opensAt old s = true then some (old.length + 1, new ++ ":") else storageMatcher old new (some ' ') s := by
  unfold storageMatcher
  simp only [true_and, reduceCtorEq, false_and, if_false]
  rfl

/-- The words behind a separator open a volume id of the storage when the first
one is the storage. -/
theorem opensAt_pieces {old : Str} (hold : ∀ c ∈ old, isBridgeChar c = true)
    (h : IsCut isBridgeChar sep (⟨sep, word⟩ :: ps)) :
    opensAt old (word ++ joinPieces ps) = (decide (word = old) && opensVolume ps) := by
  cases h with
  | last hword =>
    have hstart : startsWith word (old ++ ":") = false := by
      rw [startsWith, Bool.eq_false_iff]
      intro hbegins
      have hcolon : ':' ∈ word := (List.isPrefixOf_iff_prefix.mp hbegins).subset (by simp)
      have := hword _ hcolon
      revert this
      decide
    rw [opensAt, joinPieces_nil, List.append_nil, hstart]
    simp [opensVolume]
  | @cons _ _ c ps hword hc hps =>
    obtain ⟨u, qs, rfl⟩ : ∃ u qs, ps = ⟨some c, u⟩ :: qs := by
      cases hps with
      | last h => exact ⟨_, _, rfl⟩
      | cons h hd hqs => exact ⟨_, _, rfl⟩
    have hhead : (u ++ joinPieces qs).head?.any (fun c => !isSpace c) =
        (u != [] || qs.head?.any (fun q => q.sep.any (fun c => !isSpace c))) := by
      cases hps with
      | last hu =>
        cases u with
        | nil => rfl
        | cons d u => simp [(isBridgeChar_plain (hu d List.mem_cons_self)).1]
      | cons hu hd hqs =>
        cases u with
        | nil => cases hqs <;> simp
        | cons d u => simp [(isBridgeChar_plain (hu d List.mem_cons_self)).1]
    have htext : word ++ joinPieces (⟨some c, u⟩ :: qs) = word ++ c :: (u ++ joinPieces qs) := by
      simp
    rw [htext, opensAt]
    by_cases hsame : word = old ∧ c = ':'
    · obtain ⟨rfl, rfl⟩ := hsame
      have hstart : startsWith (word ++ ':' :: (u ++ joinPieces qs)) (word ++ ":") = true := by
        rw [startsWith, List.isPrefixOf_iff_prefix]
        exact ⟨u ++ joinPieces qs, by simp⟩
      have hdrop : (word ++ ':' :: (u ++ joinPieces qs)).drop (word.length + 1) = u ++ joinPieces qs := by
        simp [List.drop_append]
      rw [hstart, hdrop, hhead]
      simp [opensVolume]
    · have hstart : startsWith (word ++ c :: (u ++ joinPieces qs)) (old ++ ":") = false := by
        rw [startsWith, Bool.eq_false_iff]
        intro hbegins
        obtain ⟨t, ht⟩ := List.isPrefixOf_iff_prefix.mp hbegins
        have ht' : old ++ ':' :: t = word ++ c :: (u ++ joinPieces qs) := by simpa using ht
        obtain ⟨rfl, rfl, -⟩ := word_inj hold hword (by decide) hc ht'
        exact hsame ⟨rfl, rfl⟩
      rw [hstart, Bool.false_and]
      symm
      rw [Bool.and_eq_false_iff]
      by_cases hword' : word = old
      · right
        have hcolon : c ≠ ':' := fun heq => hsame ⟨hword', heq⟩
        unfold opensVolume
        split
        · next heq =>
          cases heq
          exact absurd rfl hcolon
        · rfl
      · left
        simpa using hword'

/-- A word is passed over when the separator before it is gone. -/
theorem substitute_storage_word {old new s : Str} {d : Char} (hword : ∀ c ∈ word, isBridgeChar c = true) :
    substitute (storageMatcher old new) (some d) 0 (word ++ s) =
      word ++ substitute (storageMatcher old new) (lastOr (some d) word) 0 s := by
  have hnone : ∀ e c t, isBridgeChar c = true → storageMatcher old new (some e) (c :: t) = none := by
    intro e c t hc
    have hsep : (isSpace c || c == ':' || c == ',') = false := by
      rw [(isBridgeChar_plain hc).1, Bool.false_or, Bool.or_eq_false_iff]
      constructor
      · rw [beq_eq_false_iff_ne]
        rintro rfl
        revert hc
        decide
      · rw [beq_eq_false_iff_ne]
        rintro rfl
        revert hc
        decide
    rw [storageMatcher_cons, hsep]
    rfl
  refine substitute_stretch (fun hne => ?_) (fun e t hne hsuffix => ?_)
  · obtain ⟨c, t, rfl⟩ := List.exists_cons_of_ne_nil hne
    exact hnone _ _ _ (hword c List.mem_cons_self)
  · obtain ⟨c, t, rfl⟩ := List.exists_cons_of_ne_nil hne
    exact hnone _ _ _ (hword c (hsuffix.subset List.mem_cons_self))

theorem storageMatcher_piece {old new : Str} {c d : Char} (hold : ∀ c ∈ old, isBridgeChar c = true)
    (h : IsCut isBridgeChar (some c) (⟨some c, word⟩ :: ps)) :
    storageMatcher old new (some d) (c :: (word ++ joinPieces ps)) =
      if isStorageId ⟨some c, word⟩ ps = true ∧ word = old then some (old.length + 2, c :: new ++ ":")
      else none := by
  rw [storageMatcher_cons, opensAt_pieces hold h]
  refine if_congr ?_ rfl rfl
  simp only [isStorageId, isPrefixSep, Option.all_some, Bool.and_eq_true, decide_eq_true_eq]
  constructor
  · intro ⟨hsep, hword, hopens⟩
    exact ⟨⟨hsep, hopens⟩, hword⟩
  · intro ⟨⟨hsep, hopens⟩, hword⟩
    exact ⟨hsep, hword, hopens⟩

/-- A piece that is not renamed. -/
theorem substitute_storage_keep (new : Str) {old : Str} {c : Char} (hold : ∀ c ∈ old, isBridgeChar c = true)
    (h : IsCut isBridgeChar (some c) (⟨some c, word⟩ :: ps))
    (hmiss : ¬ (isStorageId ⟨some c, word⟩ ps = true ∧ word = old)) (d : Char) :
    ∃ e, substitute (storageMatcher old new) (some d) 0 (joinPieces (⟨some c, word⟩ :: ps)) =
      c :: word ++ substitute (storageMatcher old new) (some e) 0 (joinPieces ps) := by
  have hnone : storageMatcher old new (some d) (c :: (word ++ joinPieces ps)) = none := by
    rw [storageMatcher_piece hold h, if_neg hmiss]
  obtain ⟨e, he⟩ := exists_lastOr c word
  refine ⟨e, ?_⟩
  show substitute _ _ 0 (c :: (word ++ joinPieces ps)) = _
  rw [substitute_keep hnone, substitute_storage_word h.head.2, he]
  rfl

/-- A piece that is renamed, and the word behind it. -/
theorem substitute_storage_hit (new : Str) {old u : Str} {c : Char} (hold : ∀ c ∈ old, isBridgeChar c = true)
    (h : IsCut isBridgeChar (some c) (⟨some c, old⟩ :: ⟨some ':', u⟩ :: ps))
    (hhit : isStorageId ⟨some c, old⟩ (⟨some ':', u⟩ :: ps) = true) (d : Char) :
    ∃ e, substitute (storageMatcher old new) (some d) 0 (joinPieces (⟨some c, old⟩ :: ⟨some ':', u⟩ :: ps)) =
      c :: new ++ ':' :: (u ++ substitute (storageMatcher old new) (some e) 0 (joinPieces ps)) := by
  have hu : ∀ c ∈ u, isBridgeChar c = true := h.words ⟨some ':', u⟩ (by simp)
  have hmatch : storageMatcher old new (some d) ((c :: old ++ [':']) ++ (u ++ joinPieces ps)) =
      some ((c :: old ++ [':']).length, c :: new ++ ":") := by
    have hpiece := @storageMatcher_piece old _ old new c d hold h
    rw [if_pos ⟨hhit, rfl⟩] at hpiece
    simpa using hpiece
  obtain ⟨e, he⟩ := exists_lastOr ':' u
  refine ⟨e, ?_⟩
  have htext : joinPieces (⟨some c, old⟩ :: ⟨some ':', u⟩ :: ps) =
      (c :: old ++ [':']) ++ (u ++ joinPieces ps) := by simp
  have hlast : lastOr (some d) (c :: old ++ [':']) = some ':' := by
    rw [List.cons_append, lastOr_cons, lastOr_append]
    rfl
  rw [htext, substitute_match (by simp) hmatch, hlast, substitute_storage_word hu, he]
  simp

theorem opensVolume_cons {r : Piece} (h : opensVolume (r :: ps) = true) : ∃ u, r = ⟨some ':', u⟩ := by
  unfold opensVolume at h
  split at h
  · next heq =>
    cases heq
    exact ⟨_, rfl⟩
  · cases h

/-- One `re.sub`, behind a separator. -/
theorem substitute_storage_sep {c : Char} (hm : IsEntry m) (h : IsCut isBridgeChar (some c) ps) (d : Char) :
    substitute (storageMatcher m.1 m.2) (some d) 0 (joinPieces ps) = joinPieces (stepStorage m ps) := by
  fun_induction stepStorage m ps generalizing c d with
  | case1 q r ps hhit ih =>
    obtain ⟨u, rfl⟩ := opensVolume_cons (Bool.and_eq_true_iff.mp hhit.1).2
    obtain ⟨sep, word⟩ := q
    obtain ⟨rfl, -⟩ := h.head
    obtain rfl : word = m.1 := hhit.2
    obtain ⟨e, he⟩ := substitute_storage_hit m.2 hm.key h hhit.1 d
    rw [he]
    have hrest : substitute (storageMatcher m.1 m.2) (some e) 0 (joinPieces ps) =
        joinPieces (stepStorage m ps) := by
      rcases h.tail with hnil | ⟨c', -, hps⟩
      · cases hnil
      · rcases hps.tail with rfl | ⟨c'', -, hps⟩
        · rfl
        · exact ih hps e
    rw [hrest]
    simp
  | case2 q r ps hmiss ih =>
    obtain ⟨sep, word⟩ := q
    obtain ⟨rfl, -⟩ := h.head
    obtain ⟨e, he⟩ := substitute_storage_keep m.2 hm.key h hmiss d
    rcases h.tail with hnil | ⟨c', -, hps⟩
    · cases hnil
    · rw [he, ih hps e]
      simp
  | case3 ps hshort =>
    cases ps with
    | nil => rfl
    | cons q ps =>
      cases ps with
      | nil =>
        obtain ⟨sep, word⟩ := q
        obtain ⟨rfl, -⟩ := h.head
        have hmiss : ¬ (isStorageId ⟨some c, word⟩ [] = true ∧ word = m.1) := by
          intro ⟨hopens, _⟩
          rw [isStorageId, Bool.and_eq_true] at hopens
          cases hopens.2
        obtain ⟨e, he⟩ := substitute_storage_keep m.2 hm.key h hmiss d
        rw [he]
        simp [substitute]
      | cons r ps => exact absurd rfl (hshort q r ps)

theorem substitute_storage_tail {q : Piece} (hm : IsEntry m) (h : IsCut isBridgeChar sep (q :: ps)) (d : Char) :
    substitute (storageMatcher m.1 m.2) (some d) 0 (joinPieces ps) = joinPieces (stepStorage m ps) := by
  rcases h.tail with rfl | ⟨c, -, h⟩
  · rfl
  · exact substitute_storage_sep hm h d

/-- One `re.sub` on a line. -/
theorem substitute_storage (hm : IsEntry m) (h : IsCut isBridgeChar none ps) :
    substitute (storageMatcher m.1 m.2) none 0 (joinPieces ps) = joinPieces (stepStorage m ps) := by
  cases ps with
  | nil => rfl
  | cons q ps =>
    obtain ⟨sep, word⟩ := q
    obtain ⟨rfl, hword⟩ := h.head
    have htext : joinPieces (⟨none, word⟩ :: ps) = word ++ joinPieces ps := rfl
    have hopens := opensAt_pieces hm.key h
    by_cases hhit : word = m.1 ∧ opensVolume ps = true
    · obtain ⟨rfl, hvolume⟩ := hhit
      cases ps with
      | nil => cases hvolume
      | cons r ps =>
        obtain ⟨u, rfl⟩ := opensVolume_cons hvolume
        have hu : ∀ c ∈ u, isBridgeChar c = true := h.words ⟨some ':', u⟩ (by simp)
        have hmatch : storageMatcher m.1 m.2 none ((m.1 ++ [':']) ++ (u ++ joinPieces ps)) =
            some ((m.1 ++ [':']).length, m.2 ++ ":") := by
          have hline : (m.1 ++ [':']) ++ (u ++ joinPieces ps) = m.1 ++ joinPieces (⟨some ':', u⟩ :: ps) := by
            simp
          rw [hline, storageMatcher_start, hopens, hvolume]
          simp
        obtain ⟨e, he⟩ := exists_lastOr ':' u
        have hlast : lastOr none (m.1 ++ [':']) = some ':' := by
          rw [lastOr_append]
          rfl
        have hrest : substitute (storageMatcher m.1 m.2) (some e) 0 (joinPieces ps) =
            joinPieces (stepStorage m ps) := by
          rcases h.tail with hnil | ⟨c, -, hps⟩
          · cases hnil
          · exact substitute_storage_tail hm hps e
        have hline : joinPieces (⟨none, m.1⟩ :: ⟨some ':', u⟩ :: ps) =
            (m.1 ++ [':']) ++ (u ++ joinPieces ps) := by simp
        rw [hline, substitute_match (by simp) hmatch, hlast, substitute_storage_word hu, he, hrest,
          stepStorage, if_pos ⟨by rw [isStorageId, hvolume]; rfl, rfl⟩]
        simp
    · have hsame : storageMatcher m.1 m.2 none (word ++ joinPieces ps) =
          storageMatcher m.1 m.2 (some ' ') (word ++ joinPieces ps) := by
        rw [storageMatcher_start, hopens, if_neg (by simpa using hhit)]
      have hstep : stepStorage m (⟨none, word⟩ :: ps) = ⟨none, word⟩ :: stepStorage m ps := by
        cases ps with
        | nil => rfl
        | cons r ps =>
          rw [stepStorage, if_neg]
          intro ⟨hopens, hsame⟩
          rw [isStorageId, Bool.and_eq_true] at hopens
          exact hhit ⟨hsame, hopens.2⟩
      obtain ⟨e, he⟩ := exists_lastOr ' ' word
      rw [htext, substitute_start hsame, substitute_storage_word hword, he,
        substitute_storage_tail hm h e, hstep]
      rfl

end

/-! ## One map of ids after another -/

section

variable {f f' : Str → Str} {g g' : Str → Option Char → Str} {before before' : Str} {q : Piece}
  {ps : List Piece} {m : Str × Str} {ms : List (Str × Str)}

theorem nextSep_mapIds : nextSep (mapIds f g before ps) = nextSep ps := by
  cases ps <;> rfl

/-- Where no id is lost, a volume id stays one. -/
theorem opensVolume_mapIds (hf : ∀ x, f x = [] ↔ x = []) (hg : ∀ x n, g x n = [] ↔ x = []) :
    opensVolume (mapIds f g before ps) = opensVolume ps := by
  cases ps with
  | nil => rfl
  | cons q ps =>
    obtain ⟨sep, word⟩ := q
    have hword : ∀ w : Str, (w = [] ↔ word = []) → opensVolume (⟨sep, w⟩ :: mapIds f g word ps) =
        opensVolume (⟨sep, word⟩ :: ps) := by
      intro w hw
      have hne : (w != []) = (word != []) := by
        rw [Bool.eq_iff_iff, bne_iff_ne, bne_iff_ne]
        exact not_congr hw
      have hhead : (mapIds f g word ps).head?.any (fun q => q.sep.any (fun c => !isSpace c)) =
          ps.head?.any (fun q => q.sep.any (fun c => !isSpace c)) := by
        cases ps <;> rfl
      unfold opensVolume
      split
      · next heq =>
        cases heq
        simp only [hne, hhead]
      · next hother =>
        split
        · next heq =>
          cases heq
          exact absurd rfl (hother _ _)
        · rfl
    rw [mapIds]
    split_ifs
    · exact hword _ (hf _)
    · exact hword _ (hg _ _)
    · exact hword _ Iff.rfl

theorem isStorageId_mapIds (hf : ∀ x, f x = [] ↔ x = []) (hg : ∀ x n, g x n = [] ↔ x = []) {word : Str} :
    isStorageId ⟨q.sep, word⟩ (mapIds f g before ps) = isStorageId q ps := by
  rw [isStorageId, isStorageId, opensVolume_mapIds hf hg]

/-- No bridge stands behind an id. -/
theorem not_bridge_behind_id {r : Piece} (h : Unchained before (q :: ps)) (hr : r ∈ ps.head?)
    (hid : isStorageId q ps = true ∨ isBridgeId before q = true) : r.sep ≠ some '=' := by
  cases ps with
  | nil => cases hr
  | cons r' ps =>
    obtain rfl : r' = r := by simpa using hr
    rcases hid with hstorage | hbridge
    · obtain ⟨u, rfl⟩ := opensVolume_cons (Bool.and_eq_true_iff.mp hstorage).2
      show some ':' ≠ some '='
      decide
    · exact h.1 hbridge

/-- So the word before a bridge is not changed. -/
theorem sameStart_next {word : Str} (h : Unchained before (q :: ps))
    (hword : isStorageId q ps = false → isBridgeId before q = false → word = q.word) :
    ∀ r ∈ ps.head?, isBridgeId word r = isBridgeId q.word r := by
  intro r hr
  by_cases hid : isStorageId q ps = true ∨ isBridgeId before q = true
  · have hsep := not_bridge_behind_id h hr hid
    rw [isBridgeId, isBridgeId, beq_false_of_ne hsep, Bool.false_and, Bool.false_and]
  · rw [not_or, Bool.not_eq_true, Bool.not_eq_true] at hid
    rw [hword hid.1 hid.2]

theorem mapIds_mapIds (hf : ∀ x, f' x = [] ↔ x = []) (hg : ∀ x n, g' x n = [] ↔ x = [])
    (h : Unchained before ps) (hstart : ∀ q ∈ ps.head?, isBridgeId before' q = isBridgeId before q) :
    mapIds f g before' (mapIds f' g' before ps) =
      mapIds (f ∘ f') (fun x n => g (g' x n) n) before ps := by
  induction ps generalizing before before' with
  | nil => rfl
  | cons q ps ih =>
    have hq : isBridgeId before' q = isBridgeId before q := hstart q rfl
    rw [mapIds, mapIds, mapIds]
    have hbridge : ∀ w, isBridgeId before' ⟨q.sep, w⟩ = isBridgeId before q := fun w => hq
    simp only [isStorageId_mapIds hf hg, hbridge, nextSep_mapIds]
    have hrest : ∀ w, (isStorageId q ps = false → isBridgeId before q = false → w = q.word) →
        mapIds f g w (mapIds f' g' q.word ps) = mapIds (f ∘ f') (fun x n => g (g' x n) n) q.word ps :=
      fun w hw => ih h.2 (sameStart_next h hw)
    cases hstorage : isStorageId q ps with
    | true =>
      simp only [if_true]
      rw [hrest _ (by simp [hstorage])]
      rfl
    | false =>
      cases hid : isBridgeId before q with
      | true =>
        simp only [Bool.false_eq_true, if_false, if_true]
        rw [hrest _ (by simp [hid])]
      | false =>
        simp only [Bool.false_eq_true, if_false]
        rw [hrest _ (by simp)]

theorem unchained_mapIds (h : Unchained before ps)
    (hstart : ∀ q ∈ ps.head?, isBridgeId before' q = isBridgeId before q) : Unchained before' (mapIds f g before ps) := by
  induction ps generalizing before before' with
  | nil => trivial
  | cons q ps ih =>
    have hq : isBridgeId before' q = isBridgeId before q := hstart q rfl
    rw [mapIds]
    refine ⟨?_, ih h.2 (sameStart_next h ?_)⟩
    · rw [nextSep_mapIds]
      intro hbridge
      exact h.1 (hq.symm.trans hbridge)
    · intro hstorage hid
      simp [hstorage, hid]

theorem mapIds_self : mapIds (fun x => x) (fun x _ => x) before ps = ps := by
  induction ps generalizing before with
  | nil => rfl
  | cons q ps ih =>
    rw [mapIds, ih, ite_self, ite_self]

/-! ## The pattern of a storage -/

theorem renameStorage_nil (hm : IsEntry m) {x : Str} : renameStorage x m = [] ↔ x = [] := by
  unfold renameStorage
  split_ifs with h
  · obtain ⟨rfl, hvalue⟩ := h
    exact iff_of_false hvalue hm.key_ne
  · rfl

theorem renameStorage_chars (hm : IsEntry m) {x : Str} (hx : ∀ c ∈ x, isBridgeChar c = true) :
    ∀ c ∈ renameStorage x m, isBridgeChar c = true := by
  unfold renameStorage
  split_ifs
  · exact hm.value
  · exact hx

/-- The `re.sub` of a storage renames every storage when no two neighbours are
the same one. -/
theorem stepStorage_eq (hvalue : m.2 ≠ []) (h : Apart (m :: ms) ps) :
    stepStorage m ps = mapIds (fun x => renameStorage x m) (fun x _ => x) before ps := by
  fun_induction stepStorage m ps generalizing before with
  | case1 q r ps hhit ih =>
    have hrest : Apart (m :: ms) ps := by
      cases ps with
      | nil => trivial
      | cons t ps => exact h.2.2
    have hr : (if isStorageId r ps = true then renameStorage r.word m
        else if isBridgeId q.word r = true then r.word else r.word) = r.word := by
      rw [ite_self]
      split_ifs with hstorage
      · have hmeet := (h.1 hhit.1 hstorage).1
        rw [renameStorage, if_neg]
        intro ⟨hsame, _⟩
        exact hmeet ⟨hhit.2, hsame, hvalue⟩
      · rfl
    rw [mapIds, mapIds, if_pos hhit.1, hr, renameStorage, if_pos ⟨hhit.2, hvalue⟩, ih hrest]
  | case2 q r ps hmiss ih =>
    have hq : (if isStorageId q (r :: ps) = true then renameStorage q.word m
        else if isBridgeId before q = true then q.word else q.word) = q.word := by
      rw [ite_self]
      split_ifs with hstorage
      · rw [renameStorage, if_neg (fun hsame => hmiss ⟨hstorage, hsame.1⟩)]
      · rfl
    rw [mapIds, hq, ← ih h.2]
  | case3 ps hshort =>
    cases ps with
    | nil => rfl
    | cons q ps =>
      cases ps with
      | nil =>
        have hstorage : isStorageId q [] = false := Bool.and_false _
        rw [mapIds, hstorage, ite_self]
        rfl
      | cons r ps => exact absurd rfl (hshort q r ps)

theorem apart_mapIds (hm : IsEntry m) (h : Apart (m :: ms) ps) :
    Apart ms (mapIds (fun x => renameStorage x m) (fun x _ => x) before ps) := by
  have hf : ∀ x, renameStorage x m = [] ↔ x = [] := fun x => renameStorage_nil hm
  induction ps generalizing before with
  | nil => trivial
  | cons q ps ih =>
    cases ps with
    | nil => trivial
    | cons r ps =>
      refine ⟨fun hq hr => ?_, ih h.2⟩
      have hq : isStorageId q (r :: ps) = true :=
        (@isStorageId_mapIds _ _ q.word q (r :: ps) hf (fun _ _ => Iff.rfl) _).symm.trans hq
      have hr : isStorageId r ps = true :=
        (@isStorageId_mapIds _ _ r.word r ps hf (fun _ _ => Iff.rfl) _).symm.trans hr
      have hmeet := (h.1 hq hr).2
      simpa only [hq, hr, if_true] using hmeet

theorem rewriteStorage_pieces (before : Str) (hm : IsEntry m) (hcut : IsCut isBridgeChar none ps) (h : Apart (m :: ms) ps) :
    rewriteStorage (joinPieces ps) m =
      joinPieces (mapIds (fun x => renameStorage x m) (fun x _ => x) before ps) := by
  rw [rewriteStorage]
  by_cases hvalue : m.2 = []
  · have hsame : (fun x => renameStorage x m) = fun x => x := by
      funext x
      rw [renameStorage, if_neg (fun h => h.2 hvalue)]
    rw [if_pos (.inr hvalue), hsame, mapIds_self]
  · rw [if_neg (not_or.mpr ⟨hm.key_ne, hvalue⟩), substitute_storage hm hcut, stepStorage_eq hvalue h]

end

/-! ## The pattern of a bridge -/

section

variable {f : Str → Str} {g : Str → Option Char → Str} {before before' word : Str} {q : Piece}
  {ps : List Piece} {sep : Option Char} {m : Str × Str} {ms : List (Str × Str)}

/-- The word before counts for a bridge only. -/
theorem mapIds_before (h : ∀ q ∈ ps.head?, isBridgeId before q = isBridgeId before' q) :
    mapIds f g before ps = mapIds f g before' ps := by
  cases ps with
  | nil => rfl
  | cons q ps => rw [mapIds, mapIds, h q rfl]

theorem unchained_before (h : ∀ q ∈ ps.head?, isBridgeId before q = isBridgeId before' q)
    (hps : Unchained before ps) : Unchained before' ps := by
  cases ps with
  | nil => trivial
  | cons q ps => exact ⟨fun hq => hps.1 ((h q rfl).trans hq), hps.2⟩

/-- The pattern, with its replacement. -/
def bridgeSub (m : Str × Str) : Matcher := fun _ s => bridgeMatcher m.1 ("bridge=" ++ m.2) s

/-- The pattern does not match where the word is another one. -/
theorem bridgeSub_other {prev : Option Char} {t x : Str} {c : Char} (ht : ∀ c ∈ t, isBridgeChar c = true)
    (hc : isBridgeChar c = false) (h : ¬ (t = "bridge" ∧ c = '=')) : bridgeSub m prev (t ++ c :: x) = none := by
  rw [bridgeSub, bridgeMatcher]
  have hstart : startsWith (t ++ c :: x) ("bridge=" ++ m.1) = false := by
    rw [startsWith, Bool.eq_false_iff]
    intro hbegins
    obtain ⟨y, hy⟩ := List.isPrefixOf_iff_prefix.mp hbegins
    have hsplit : ("bridge" : Str) ++ '=' :: (m.1 ++ y) = t ++ c :: x := by
      rw [← hy]
      rfl
    have hbridge : ∀ c ∈ ("bridge" : Str), isBridgeChar c = true := by decide
    obtain ⟨hword, hsep, -⟩ := word_inj hbridge ht (by decide) hc hsplit
    exact h ⟨hword.symm, hsep.symm⟩
  simp only [hstart, Bool.false_and, Bool.false_eq_true, if_false]

theorem bridgeSub_word {prev : Option Char} (ht : ∀ c ∈ word, isBridgeChar c = true) :
    bridgeSub m prev word = none := by
  rw [bridgeSub, bridgeMatcher]
  have hstart : startsWith word ("bridge=" ++ m.1) = false := by
    rw [startsWith, Bool.eq_false_iff]
    intro hbegins
    have hmem : '=' ∈ word := (List.isPrefixOf_iff_prefix.mp hbegins).subset (by simp)
    have := ht _ hmem
    revert this
    decide
  simp only [hstart, Bool.false_and, Bool.false_eq_true, if_false]

/-- A word is passed over, with the separator behind it. -/
theorem substitute_bridge_keep {prev : Option Char} {c : Char} {x : Str}
    (h : ∀ prev t, t <:+ word → bridgeSub m prev (t ++ c :: x) = none) :
    substitute (bridgeSub m) prev 0 (word ++ c :: x) = word ++ c :: substitute (bridgeSub m) (some c) 0 x := by
  have hpass := @substitute_stretch (bridgeSub m) prev (word ++ [c]) x ?_ ?_
  · rw [lastOr_append] at hpass
    simpa using hpass
  · intro _
    simpa using h prev word (List.suffix_refl _)
  · intro d t hne ht
    obtain ⟨t', rfl⟩ : ∃ t', t = t' ++ [c] := by
      rcases List.suffix_concat_iff.mp ht with rfl | ⟨t', rfl, -⟩
      · exact absurd rfl hne
      · exact ⟨t', rfl⟩
    have hsuffix : t' <:+ word := by
      obtain ⟨a, ha⟩ := ht
      rw [← List.append_assoc] at ha
      exact ⟨a, List.append_inj_left' ha rfl⟩
    simpa using h (some d) t' hsuffix

theorem head?_joinPieces (h : IsCut isBridgeChar sep (q :: ps)) : (joinPieces ps).head? = nextSep ps := by
  rcases h.tail with rfl | ⟨c, -, hps⟩
  · rfl
  · cases hps <;> rfl

/-- A word stands behind a separator up to where the next one is. -/
theorem prefix_of_pieces {old : Str} (hold : ∀ c ∈ old, isBridgeChar c = true)
    (h : IsCut isBridgeChar sep (⟨sep, word⟩ :: ps)) : old <+: word ++ joinPieces ps ↔ old <+: word := by
  constructor
  · intro hbegins
    cases h with
    | last _ => simpa using hbegins
    | @cons _ _ c ps hword hc hps =>
      have htext : joinPieces ps = c :: (joinPieces ps).drop 1 := by cases hps <;> simp
      have hnot : c ∉ old := fun hmem => by
        rw [hold c hmem] at hc
        cases hc
      rw [htext] at hbegins
      exact prefix_append_sep hnot hbegins
  · intro hbegins
    exact hbegins.trans (List.prefix_append _ _)

/-- The pattern at a bridge. -/
theorem bridgeSub_bridge {prev : Option Char} (hm : IsEntry m) (h : IsCut isBridgeChar sep (⟨sep, word⟩ :: ps)) :
    bridgeSub m prev ("bridge=" ++ (word ++ joinPieces ps)) =
      if m.1 <+: word ∧ isBoundary m.1.getLast? ((word.drop m.1.length).head?.or (nextSep ps)) = true then
        some (("bridge=" ++ m.1 : Str).length, "bridge=" ++ m.2)
      else none := by
  have hlast : ("bridge=" ++ m.1 : Str).getLast? = m.1.getLast? := List.getLast?_append_of_ne_nil _ hm.key_ne
  have hstart : startsWith ("bridge=" ++ (word ++ joinPieces ps)) ("bridge=" ++ m.1) = true ↔ m.1 <+: word := by
    rw [startsWith, List.isPrefixOf_iff_prefix, List.prefix_append_right_inj, prefix_of_pieces hm.key h]
  rw [bridgeSub, bridgeMatcher]
  by_cases hbegins : m.1 <+: word
  · obtain ⟨rest, hrest⟩ := hbegins
    have hdrop : (("bridge=" : Str) ++ (word ++ joinPieces ps)).drop ("bridge=" ++ m.1 : Str).length =
        rest ++ joinPieces ps := by
      rw [← hrest, List.length_append, ← List.drop_drop, List.drop_left, List.append_assoc, List.drop_left]
    have hhead : (rest ++ joinPieces ps).head? = (word.drop m.1.length).head?.or (nextSep ps) := by
      rw [← hrest, List.drop_left, ← head?_joinPieces h, List.head?_append]
    simp only [hdrop, hhead, hlast, hstart.mpr ⟨rest, hrest⟩, Bool.true_and]
    exact if_congr (iff_and_self.mpr fun _ => ⟨rest, hrest⟩) rfl rfl
  · have hno : startsWith ("bridge=" ++ (word ++ joinPieces ps)) ("bridge=" ++ m.1) = false := by
      rw [Bool.eq_false_iff]
      exact fun hs => hbegins (hstart.mp hs)
    simp only [hno, Bool.false_and, Bool.false_eq_true, if_false, if_neg (fun h => hbegins (And.left h))]

/-- A bridge that is renamed.  What is left of its word stands before the next
piece. -/
theorem substitute_bridge_hit {prev : Option Char} (hm : IsEntry m)
    (h : IsCut isBridgeChar sep (⟨sep, word⟩ :: ps)) (hbegins : m.1 <+: word)
    (hboundary : isBoundary m.1.getLast? ((word.drop m.1.length).head?.or (nextSep ps)) = true) :
    ∃ d, substitute (bridgeSub m) prev 0 ("bridge=" ++ (word ++ joinPieces ps)) =
      ("bridge=" ++ m.2) ++ substitute (bridgeSub m) d 0 (word.drop m.1.length ++ joinPieces ps) := by
  have hmatch := @bridgeSub_bridge word ps sep m prev hm h
  rw [if_pos ⟨hbegins, hboundary⟩] at hmatch
  obtain ⟨rest, rfl⟩ := hbegins
  have hline : ("bridge=" : Str) ++ (m.1 ++ rest ++ joinPieces ps) =
      ("bridge=" ++ m.1) ++ (rest ++ joinPieces ps) := by
    rw [List.append_assoc, List.append_assoc]
  rw [hline] at hmatch ⊢
  rw [List.drop_left]
  exact ⟨_, substitute_match (List.append_ne_nil_of_left_ne_nil (List.cons_ne_nil _ _) _) hmatch⟩

/-- The `re.sub` of a bridge, behind a word. -/
theorem substitute_bridge_word (hm : IsEntry m) (hvalue : m.2 ≠ [])
    (hcut : IsCut isBridgeChar sep (⟨sep, word⟩ :: ps)) (h : Unchained word ps) (prev : Option Char) :
    substitute (bridgeSub m) prev 0 (word ++ joinPieces ps) =
      word ++ joinPieces (mapIds (fun x => x) (fun x n => renameBridge n x m) word ps) := by
  induction ps generalizing sep word prev with
  | nil =>
    have hword := hcut.head.2
    rw [joinPieces_nil, List.append_nil]
    refine (substitute_eq_self fun prev t _ ht => ?_).trans (List.append_nil _).symm
    exact bridgeSub_word fun c hc => hword c (ht.subset hc)
  | cons q ps ih =>
    obtain ⟨qsep, u⟩ := q
    have hword := hcut.head.2
    rcases hcut.tail with hnil | ⟨c, hc, hps⟩
    · cases hnil
    obtain ⟨rfl, hu⟩ := hps.head
    have hline : word ++ joinPieces (⟨some c, u⟩ :: ps) = word ++ c :: (u ++ joinPieces ps) := by simp
    have hmap : mapIds (fun x => x) (fun x n => renameBridge n x m) word (⟨some c, u⟩ :: ps) =
        ⟨some c, if isBridgeId word ⟨some c, u⟩ then renameBridge (nextSep ps) u m else u⟩ ::
          mapIds (fun x => x) (fun x n => renameBridge n x m) u ps := by
      rw [mapIds]
      cases hstorage : isStorageId ⟨some c, u⟩ ps with
      | true =>
        rw [not_bridge_of_storage hstorage]
        rfl
      | false => rfl
    -- where no match begins in the word, the one behind the separator stays
    have hkeep : (∀ prev t, t <:+ word → bridgeSub m prev (t ++ c :: (u ++ joinPieces ps)) = none) →
        substitute (bridgeSub m) prev 0 (word ++ joinPieces (⟨some c, u⟩ :: ps)) =
          word ++ joinPieces (⟨some c, u⟩ :: mapIds (fun x => x) (fun x n => renameBridge n x m) u ps) := by
      intro hnone
      rw [hline, substitute_bridge_keep hnone, ih hps h.2]
      simp
    rw [hmap]
    cases hbridge : isBridgeId word ⟨some c, u⟩ with
    | false =>
      refine hkeep fun prev t ht => bridgeSub_other (fun d hd => hword d (ht.subset hd)) hc ?_
      rintro ⟨rfl, rfl⟩
      rw [isBridgeId, decide_eq_true ht] at hbridge
      cases hbridge
    | true =>
      have hparts := hbridge
      rw [isBridgeId, Bool.and_eq_true, decide_eq_true_eq, beq_iff_eq] at hparts
      obtain ⟨hsep, w₀, rfl⟩ := hparts
      obtain rfl : c = '=' := Option.some.inj hsep
      rw [if_pos rfl, renameBridge]
      by_cases hhit : m.1 <+: u ∧ isBoundary m.1.getLast? ((u.drop m.1.length).head?.or (nextSep ps)) = true
      · have hnext : ∀ r ∈ ps.head?, isBridgeId u r = isBridgeId (u.drop m.1.length) r := by
          intro r hr
          have hsep := @not_bridge_behind_id _ _ ps r h hr (.inr hbridge)
          rw [isBridgeId, isBridgeId, beq_false_of_ne hsep, Bool.false_and, Bool.false_and]
        have hpass : substitute (bridgeSub m) prev 0 (w₀ ++ ("bridge=" ++ (u ++ joinPieces ps))) =
            w₀ ++ substitute (bridgeSub m) (lastOr prev w₀) 0 ("bridge=" ++ (u ++ joinPieces ps)) := by
          have hnone : ∀ prev t, t ≠ [] → t <:+ w₀ →
              bridgeSub m prev (t ++ ("bridge=" ++ (u ++ joinPieces ps))) = none := by
            intro prev t hne ht
            have hlong : t ++ ("bridge=" ++ (u ++ joinPieces ps)) =
                (t ++ "bridge") ++ '=' :: (u ++ joinPieces ps) := by
              rw [List.append_assoc]
              rfl
            rw [hlong]
            refine bridgeSub_other (fun d hd => hword d ?_) hc fun h => hne ?_
            · exact ((List.suffix_append_self_iff.mpr ht).subset hd)
            · exact List.append_left_eq_self.mp h.1
          exact substitute_stretch (fun hne => hnone prev w₀ hne (List.suffix_refl _))
            (fun d t hne ht => hnone (some d) t hne ht)
        obtain ⟨d, hd⟩ := @substitute_bridge_hit u ps _ m (lastOr prev w₀) hm hps hhit.1 hhit.2
        have hrest := ih (hps.reword fun c hc => hu c (List.mem_of_mem_drop hc)) (unchained_before hnext h.2) d
        have hline' : w₀ ++ "bridge" ++ '=' :: (u ++ joinPieces ps) =
            w₀ ++ ("bridge=" ++ (u ++ joinPieces ps)) := by
          rw [List.append_assoc]
          rfl
        rw [if_pos ⟨hhit.1, hvalue, hhit.2⟩, hline, hline', hpass, hd, hrest,
          mapIds_before fun r hr => (hnext r hr).symm]
        simp
      · rw [if_neg (fun h => hhit ⟨h.1, h.2.2⟩)]
        refine hkeep fun prev t ht => ?_
        by_cases hsame : t = "bridge"
        · subst hsame
          have hmiss := @bridgeSub_bridge u ps _ m prev hm hps
          rw [if_neg hhit] at hmiss
          exact hmiss
        · exact bridgeSub_other (fun d hd => hword d (ht.subset hd)) hc (fun h => hsame h.1)

theorem renameBridge_nil (hm : IsEntry m) {x : Str} {n : Option Char} : renameBridge n x m = [] ↔ x = [] := by
  unfold renameBridge
  split_ifs with h
  · refine iff_of_false (List.append_ne_nil_of_left_ne_nil h.2.1 _) ?_
    rintro rfl
    exact hm.key_ne (List.prefix_nil.mp h.1)
  · rfl

theorem renameBridge_chars (hm : IsEntry m) {x : Str} {n : Option Char}
    (hx : ∀ c ∈ x, isBridgeChar c = true) : ∀ c ∈ renameBridge n x m, isBridgeChar c = true := by
  unfold renameBridge
  split_ifs
  · intro c hc
    rcases List.mem_append.mp hc with hc | hc
    · exact hm.value c hc
    · exact hx c (List.mem_of_mem_drop hc)
  · exact hx

/-- The `re.sub` of a bridge renames every bridge. -/
theorem rewriteBridge_pieces (hm : IsEntry m) (hcut : IsCut isBridgeChar none ps)
    (hbefore : Unchained before ps) : rewriteBridge (joinPieces ps) m =
      .ok (joinPieces (mapIds (fun x => x) (fun x n => renameBridge n x m) before ps)) := by
  rw [rewriteBridge]
  by_cases hvalue : m.2 = []
  · have hsame : (fun (x : Str) n => renameBridge n x m) = fun x _ => x := by
      funext x n
      rw [renameBridge, if_neg (fun h => h.2.1 hvalue)]
    rw [if_pos (.inr hvalue), hsame, mapIds_self]
  · have hliteral : '\\' ∉ ("bridge=" ++ m.2 : Str) := by
      intro hmem
      rcases List.mem_append.mp hmem with hmem | hmem
      · exact absurd hmem (by decide)
      · exact (isBridgeChar_plain (hm.value _ hmem)).2.2 rfl
    rw [if_neg (not_or.mpr ⟨hm.key_ne, hvalue⟩)]
    simp only [expandTemplate_literal hliteral]
    cases ps with
    | nil => rfl
    | cons q ps =>
      obtain ⟨sep, word⟩ := q
      obtain ⟨rfl, -⟩ := hcut.head
      have hstart : mapIds (fun x => x) (fun x n => renameBridge n x m) before (⟨none, word⟩ :: ps) =
          ⟨none, word⟩ :: mapIds (fun x => x) (fun x n => renameBridge n x m) word ps := by
        rw [mapIds, show isBridgeId before ⟨none, word⟩ = false from rfl]
        simp
      have hsub := substitute_bridge_word hm hvalue hcut hbefore.2 none
      rw [hstart]
      exact congrArg Except.ok hsub

end

end PveZfsTool
