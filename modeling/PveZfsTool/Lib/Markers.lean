import PveZfsTool.Lib.Trimmed

/-!
# Searching a text for a marker

`searchAt f s` is what `f` finds at the first place of the text at which it finds
something, as `re.search` does.  A marker is a word that `f` needs at that place.

Lines without the marker are passed over (`searchAt_unlines`).  `untilWord` reads up
to a word, and the lines before it are read whole (`untilWord_unlines`).
-/

namespace Text

variable {α : Type} {f : Str → Option α} {w l s : Str}

/-- What is found at the first place of the text that has something. -/
def searchAt (f : Str → Option α) (s : Str) : Option α := s.tails.findSome? f

/-- Something is found only where the word stands. -/
def NeedsWord (f : Str → Option α) (w : Str) : Prop := ∀ s, (f s).isSome = true → w <+: s

theorem searchAt_of_some {a : α} (h : f s = some a) : searchAt f s = some a := by
  cases s with
  | nil => rw [searchAt, List.tails, List.findSome?_cons, h]
  | cons c s => rw [searchAt, List.tails, List.findSome?_cons, h]

theorem searchAt_cons {c : Char} (h : f (c :: s) = none) : searchAt f (c :: s) = searchAt f s := by
  rw [searchAt, List.tails, List.findSome?_cons, h]
  rfl

theorem NeedsWord.eq_none (hf : NeedsWord f w) (h : ¬ w <+: s) : f s = none := by
  rw [← Option.not_isSome_iff_eq_none]
  exact mt (hf s) h

/-- A word without a newline stands within one line. -/
theorem prefix_of_line (hw : '\n' ∉ w) (h : w <+: l ++ '\n' :: s) : w <+: l := by
  rcases prefix_separator h with hl | ⟨t, rfl, -⟩
  · exact hl
  · exact absurd (List.mem_append_right _ List.mem_cons_self) hw

/-- A line without the word is passed over. -/
theorem searchAt_line (hf : NeedsWord f w) (hne : w ≠ []) (hw : '\n' ∉ w) (hl : ¬ w <:+: l) :
    searchAt f (l ++ '\n' :: s) = searchAt f s := by
  induction l with
  | nil =>
    refine searchAt_cons (hf.eq_none fun h => ?_)
    exact hne (List.prefix_nil.mp (prefix_of_line (l := []) hw h))
  | cons c l ih =>
    have hhere : ¬ w <+: c :: (l ++ '\n' :: s) := fun h =>
      hl (prefix_of_line (l := c :: l) hw h).isInfix
    rw [List.cons_append, searchAt_cons (hf.eq_none hhere)]
    exact ih fun h => hl (List.infix_cons h)

theorem unlines_append (lines rest : List Str) : unlines (lines ++ rest) = unlines lines ++ unlines rest :=
  List.flatMap_append

/-- Lines without the word are passed over. -/
theorem searchAt_unlines (hf : NeedsWord f w) (hne : w ≠ []) (hw : '\n' ∉ w) {lines : List Str}
    (hlines : ∀ l ∈ lines, ¬ w <:+: l) : searchAt f (unlines lines ++ s) = searchAt f s := by
  induction lines with
  | nil => rfl
  | cons l lines ih =>
    obtain ⟨hl, hlines⟩ := List.forall_mem_cons.mp hlines
    rw [unlines_cons, List.append_assoc, List.cons_append, searchAt_line hf hne hw hl, ih hlines]

/-! ## Up to a word -/

/-- The text before the first place where the word stands, with a newline before it
or not: `(.*?)\n?word`. -/
def untilWord (w : Str) : Str → Option Str
  | [] => if w = [] then some [] else none
  | c :: s =>
    if w <+: c :: s ∨ '\n' :: w <+: c :: s then some []
    else (untilWord w s).map (c :: ·)

theorem untilWord_here (h : w <+: s) : untilWord w s = some [] := by
  cases s with
  | nil => rw [untilWord, if_pos (List.prefix_nil.mp h)]
  | cons c s => rw [untilWord, if_pos (.inl h)]

variable {d : Char}

/-- A part of a line that lacks the first character of the word is read whole. -/
theorem untilWord_append (hd : d ∉ l) (hl : '\n' ∉ l) :
    untilWord (d :: w) (l ++ s) = (untilWord (d :: w) s).map (l ++ ·) := by
  induction l with
  | nil => exact (Option.map_id_fun' ▸ rfl)
  | cons c l ih =>
    rw [List.mem_cons, not_or] at hd hl
    have hhere : ¬ (d :: w <+: c :: (l ++ s) ∨ '\n' :: d :: w <+: c :: (l ++ s)) := by
      rintro (h | h)
      · exact hd.1 (List.cons_prefix_cons.mp h).1
      · exact hl.1 (List.cons_prefix_cons.mp h).1
    rw [List.cons_append, untilWord, if_neg hhere, ih hd.2 hl.2, Option.map_map]
    rfl

theorem untilWord_newline (hd : d ≠ '\n') (h : ¬ d :: w <+: s) :
    untilWord (d :: w) ('\n' :: s) = (untilWord (d :: w) s).map ('\n' :: ·) := by
  have hhere : ¬ (d :: w <+: '\n' :: s ∨ '\n' :: d :: w <+: '\n' :: s) := by
    rintro (h' | h')
    · exact hd (List.cons_prefix_cons.mp h').1
    · exact h (List.cons_prefix_cons.mp h').2
  rw [untilWord, if_neg hhere]

/-- Lines that lack the first character of the word are read whole. -/
theorem untilWord_unlines {lines : List Str} (hd : d ≠ '\n') (hw : d :: w <+: s)
    (hlines : ∀ l ∈ lines, d ∉ l ∧ '\n' ∉ l) :
    untilWord (d :: w) (unlines lines ++ s) = some (join ['\n'] lines) := by
  induction lines with
  | nil => exact untilWord_here hw
  | cons l lines ih =>
    obtain ⟨⟨hdl, hl⟩, hlines⟩ := List.forall_mem_cons.mp hlines
    rw [unlines_cons, List.append_assoc, List.cons_append, untilWord_append hdl hl]
    cases lines with
    | nil =>
      have hend : '\n' :: d :: w <+: '\n' :: s := (List.prefix_cons_inj '\n').mpr hw
      rw [unlines_nil, List.nil_append, untilWord, if_pos (.inr hend), Option.map_some, List.append_nil]
      rfl
    | cons m lines =>
      have hnext : ¬ d :: w <+: unlines (m :: lines) ++ s := by
        rw [unlines_cons]
        intro h
        cases m with
        | nil => exact hd (List.cons_prefix_cons.mp h).1
        | cons c m =>
          rw [(List.cons_prefix_cons.mp h).1] at hlines
          exact (hlines _ List.mem_cons_self).1 List.mem_cons_self
      rw [untilWord_newline hd hnext, ih hlines, Option.map_some, Option.map_some, join_cons_cons]

end Text
