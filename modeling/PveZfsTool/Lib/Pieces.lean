import PveZfsTool.Lib.Text

/-!
# A text cut into words

A text is a row of words with a separator before each but the first.  Which
characters make words is a parameter.

* `joinPieces_pieces`: the pieces give the text back.
* `IsCut`: what the pieces of a text are like, and `pieces_joinPieces` says that
  no other pieces of this kind give the text.
-/

namespace Text

/-- A word and the separator before it.  There is none at the start of a text. -/
structure Piece where
  sep : Option Char
  word : Str
  deriving DecidableEq

def Piece.text (q : Piece) : Str := q.sep.toList ++ q.word

def joinPieces (ps : List Piece) : Str := ps.flatMap Piece.text

@[simp] theorem joinPieces_nil : joinPieces [] = [] := rfl

@[simp] theorem joinPieces_cons (q : Piece) (ps : List Piece) :
    joinPieces (q :: ps) = q.sep.toList ++ q.word ++ joinPieces ps := rfl

/-- The pieces of what stands behind a separator. -/
def pieces (p : Char → Bool) : Option Char → Str → List Piece
  | sep, [] => [⟨sep, []⟩]
  | sep, c :: s =>
      if p c then
        match pieces p sep s with
        | q :: ps => ⟨q.sep, c :: q.word⟩ :: ps
        | [] => [⟨sep, [c]⟩]
      else ⟨sep, []⟩ :: pieces p (some c) s

/-- The words are words, and the separators are none of their characters. -/
inductive IsCut (p : Char → Bool) : Option Char → List Piece → Prop where
  | last {sep : Option Char} {word : Str} (h : ∀ c ∈ word, p c = true) : IsCut p sep [⟨sep, word⟩]
  | cons {sep : Option Char} {word : Str} {c : Char} {ps : List Piece} (h : ∀ c ∈ word, p c = true)
      (hc : p c = false) (hps : IsCut p (some c) ps) : IsCut p sep (⟨sep, word⟩ :: ps)

section

variable {p : Char → Bool} {sep : Option Char} {ps qs : List Piece} {s : Str} {c : Char}

theorem isCut_pieces (p : Char → Bool) (sep : Option Char) (s : Str) : IsCut p sep (pieces p sep s) := by
  induction s generalizing sep with
  | nil => exact .last (by simp)
  | cons c s ih =>
    rw [pieces]
    split_ifs with hc
    · have hs := ih sep
      generalize pieces p sep s = ps at hs
      cases hs with
      | last h => exact .last (List.forall_mem_cons.mpr ⟨hc, h⟩)
      | cons h hd hps => exact .cons (List.forall_mem_cons.mpr ⟨hc, h⟩) hd hps
    · exact .cons (by simp) (by simpa using hc) (ih (some c))

theorem joinPieces_pieces (p : Char → Bool) (sep : Option Char) (s : Str) :
    joinPieces (pieces p sep s) = sep.toList ++ s := by
  induction s generalizing sep with
  | nil => simp [pieces]
  | cons c s ih =>
    rw [pieces]
    split_ifs with hc
    · have hs := @ih sep
      have hcut := isCut_pieces p sep s
      generalize pieces p sep s = ps at hs hcut
      cases hcut with
      | last h => simpa using hs
      | cons h hd hps => simpa using hs
    · rw [joinPieces_cons, ih]
      simp

theorem pieces_word {w : Str} (h : ∀ c ∈ w, p c = true) : pieces p sep w = [⟨sep, w⟩] := by
  induction w with
  | nil => rfl
  | cons c w ih =>
    obtain ⟨hc, hw⟩ := List.forall_mem_cons.mp h
    rw [pieces, if_pos hc, ih hw]

theorem pieces_word_sep {w : Str} (h : ∀ c ∈ w, p c = true) (hc : p c = false) :
    pieces p sep (w ++ c :: s) = ⟨sep, w⟩ :: pieces p (some c) s := by
  induction w with
  | nil => rw [List.nil_append, pieces, if_neg (by simp [hc])]
  | cons d w ih =>
    obtain ⟨hd, hw⟩ := List.forall_mem_cons.mp h
    rw [List.cons_append, pieces, if_pos hd, ih hw]

/-- No other pieces of this kind give the text. -/
theorem pieces_joinPieces (h : IsCut p sep ps) (hs : joinPieces ps = sep.toList ++ s) :
    pieces p sep s = ps := by
  induction h generalizing s with
  | @last sep word h =>
    obtain rfl : word = s := by simpa using hs
    exact pieces_word h
  | @cons sep word c ps h hc hps ih =>
    have htext : joinPieces ps = (some c).toList ++ (joinPieces ps).drop 1 := by
      cases hps <;> simp
    rw [joinPieces_cons, htext, List.append_assoc] at hs
    obtain rfl : word ++ c :: (joinPieces ps).drop 1 = s := by simpa using hs
    rw [pieces_word_sep h hc, ih htext]

theorem eq_of_joinPieces (hps : IsCut p sep ps) (hqs : IsCut p sep qs)
    (h : joinPieces ps = joinPieces qs) : ps = qs := by
  have htext : joinPieces qs = sep.toList ++ (joinPieces qs).drop sep.toList.length := by
    cases hqs <;> cases sep <;> simp
  rw [← pieces_joinPieces hqs htext, pieces_joinPieces hps (h.trans htext)]

theorem IsCut.words (h : IsCut p sep ps) : ∀ q ∈ ps, ∀ c ∈ q.word, p c = true := by
  induction h with
  | last h => simpa using h
  | cons h _ _ ih => exact List.forall_mem_cons.mpr ⟨h, ih⟩

theorem IsCut.tail {q : Piece} (h : IsCut p sep (q :: ps)) :
    ps = [] ∨ ∃ c, p c = false ∧ IsCut p (some c) ps := by
  cases h with
  | last h => exact .inl rfl
  | cons h hc hps => exact .inr ⟨_, hc, hps⟩

theorem IsCut.head {q : Piece} (h : IsCut p sep (q :: ps)) :
    q.sep = sep ∧ ∀ c ∈ q.word, p c = true := by
  cases h with
  | last h => exact ⟨rfl, h⟩
  | cons h hc hps => exact ⟨rfl, h⟩

/-- Another word may be the first one. -/
theorem IsCut.reword {word word' : Str} (h : IsCut p sep (⟨sep, word⟩ :: ps))
    (hword : ∀ c ∈ word', p c = true) : IsCut p sep (⟨sep, word'⟩ :: ps) := by
  cases h with
  | last _ => exact .last hword
  | cons _ hc hps => exact .cons hword hc hps

/-- Words may take the place of words. -/
theorem IsCut.forall₂ (h : IsCut p sep ps)
    (hqs : List.Forall₂ (fun q r => r.sep = q.sep ∧ ∀ c ∈ r.word, p c = true) ps qs) :
    IsCut p sep qs := by
  induction h generalizing qs with
  | last h =>
    cases hqs with
    | @cons _ r _ _ hq hnil =>
      cases hnil
      obtain ⟨sep', word'⟩ := r
      obtain ⟨rfl, hword⟩ := hq
      exact .last hword
  | cons h hc hps ih =>
    cases hqs with
    | @cons _ r _ _ hq hrest =>
      obtain ⟨sep', word'⟩ := r
      obtain ⟨rfl, hword⟩ := hq
      exact .cons hword hc (ih hrest)

/-- Two words with separators behind them that start the same text are the
same. -/
theorem word_inj {w w' x x' : Str} {d : Char} (hw : ∀ c ∈ w, p c = true) (hw' : ∀ c ∈ w', p c = true)
    (hc : p c = false) (hd : p d = false) (h : w ++ c :: x = w' ++ d :: x') :
    w = w' ∧ c = d ∧ x = x' := by
  induction w generalizing w' with
  | nil =>
    cases w' with
    | nil => exact ⟨rfl, List.cons.inj h⟩
    | cons e w' =>
      have he := hw' e List.mem_cons_self
      rw [← (List.cons.inj h).1, hc] at he
      cases he
  | cons e w ih =>
    cases w' with
    | nil =>
      have he := hw e List.mem_cons_self
      rw [(List.cons.inj h).1, hd] at he
      cases he
    | cons e' w' =>
      obtain ⟨rfl, hrest⟩ := List.cons.inj h
      obtain ⟨rfl, rfl, rfl⟩ := ih (fun c hc => hw c (List.mem_cons_of_mem _ hc))
        (fun c hc => hw' c (List.mem_cons_of_mem _ hc)) hrest
      exact ⟨rfl, rfl, rfl⟩

end

end Text
