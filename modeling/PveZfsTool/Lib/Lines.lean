import PveZfsTool.Lib.Text

/-!
# Lines

Splitting a text into lines and joining lines to a text.  `splitLines` gives
lines without line breaks, and it gives joined lines back, but for an empty
line at the end (`splitLines_join`).  What a text is split into has the
characters of the text only.
-/

namespace Text

/-- No character of the text breaks a line. -/
def NoBreak (s : Str) : Prop := ∀ c ∈ s, isLineBreak c = false

instance (s : Str) : Decidable (NoBreak s) :=
  decidable_of_iff (s.all (fun c => !isLineBreak c) = true) (by simp [NoBreak])

/-- A character that is not whitespace breaks no line. -/
theorem isLineBreak_of_isSpace {c : Char} (h : isSpace c = false) : isLineBreak c = false := by
  simp only [isSpace, Bool.or_eq_false_iff, Bool.and_eq_false_iff, decide_eq_false_iff_not,
    beq_eq_false_iff_ne] at h
  simp only [isLineBreak, Bool.or_eq_false_iff, Bool.and_eq_false_iff, decide_eq_false_iff_not,
    beq_eq_false_iff_ne]
  omega

theorem isSpace_of_isLineBreak {c : Char} (h : isLineBreak c = true) : isSpace c = true := by
  cases hspace : isSpace c with
  | true => rfl
  | false =>
    rw [isLineBreak_of_isSpace hspace] at h
    cases h

theorem splitLinesAux_cons {cur s : Str} {c : Char} (h : isLineBreak c = false) :
    splitLinesAux cur (c :: s) = splitLinesAux (c :: cur) s := by
  have hc : c ≠ '\r' := by
    rintro rfl
    revert h
    decide
  rw [splitLinesAux, if_neg (by simp [h])]
  intro _ hcr
  exact absurd hcr hc

/-- A line that ends in a newline is the first one. -/
theorem splitLinesAux_line {cur l s : Str} (h : NoBreak l) :
    splitLinesAux cur (l ++ '\n' :: s) = (cur.reverse ++ l) :: splitLinesAux [] s := by
  induction l generalizing cur with
  | nil =>
    rw [List.nil_append, List.append_nil, splitLinesAux, if_pos (by decide)]
    intro _ hcr
    exact absurd hcr (by decide)
  | cons c l ih =>
    rw [List.cons_append, splitLinesAux_cons (h c List.mem_cons_self),
      ih (fun c' hc' => h c' (List.mem_cons_of_mem _ hc')), List.reverse_cons, List.append_assoc]
    rfl

/-- The last line has no newline at its end. -/
theorem splitLinesAux_last {cur l : Str} (h : NoBreak l) :
    splitLinesAux cur l = if cur.reverse ++ l = [] then [] else [cur.reverse ++ l] := by
  induction l generalizing cur with
  | nil => simp [splitLinesAux]
  | cons c l ih =>
    rw [splitLinesAux_cons (h c List.mem_cons_self),
      ih (fun c' hc' => h c' (List.mem_cons_of_mem _ hc')), List.reverse_cons, List.append_assoc]
    rfl

/-- A text of one line. -/
theorem splitLines_line {l : Str} (h : NoBreak l) (hne : l ≠ []) : splitLines l = [l] := by
  rw [splitLines, splitLinesAux_last h, List.reverse_nil, List.nil_append, if_neg hne]

/-- Joined lines, with or without a newline at the end, split into the same
lines, but for an empty one at the end. -/
theorem splitLines_join {lines : List Str} {tail : Str} (h : ∀ l ∈ lines, NoBreak l)
    (htail : tail = [] ∨ tail = ['\n']) :
    splitLines (join ['\n'] lines ++ tail) = lines ∨
      splitLines (join ['\n'] lines ++ tail) ++ [[]] = lines ∨
        splitLines (join ['\n'] lines ++ tail) = lines ++ [[]] := by
  induction lines with
  | nil =>
    rcases htail with rfl | rfl
    · exact Or.inl rfl
    · exact Or.inr (Or.inr rfl)
  | cons l lines ih =>
    have hl := h l List.mem_cons_self
    cases lines with
    | nil =>
      rcases htail with rfl | rfl
      · rw [join, List.append_nil, splitLines, splitLinesAux_last hl]
        cases l with
        | nil => exact Or.inr (Or.inl rfl)
        | cons c l => exact Or.inl rfl
      · rw [join, splitLines, splitLinesAux_line hl]
        exact Or.inl rfl
    | cons l' lines =>
      have hrest := ih (fun l hmem => h l (List.mem_cons_of_mem _ hmem))
      have hsplit : splitLines (join ['\n'] (l :: l' :: lines) ++ tail) =
          l :: splitLines (join ['\n'] (l' :: lines) ++ tail) := by
        rw [join, List.append_assoc, List.append_assoc, List.cons_append, List.nil_append,
          splitLines, splitLinesAux_line hl]
        · rfl
        · simp
      rw [hsplit]
      rcases hrest with heq | heq | heq
      · exact Or.inl (by rw [heq])
      · exact Or.inr (Or.inl (by rw [List.cons_append, heq]))
      · exact Or.inr (Or.inr (by rw [heq]; rfl))

/-- Joined lines, none of them empty, split into the same lines. -/
theorem splitLines_join_self {lines : List Str} (h : ∀ l ∈ lines, NoBreak l)
    (hne : ∀ l ∈ lines, l ≠ []) :
    splitLines (join ['\n'] lines) = lines ∧
      (lines ≠ [] → splitLines (join ['\n'] lines ++ ['\n']) = lines) := by
  induction lines with
  | nil => exact ⟨rfl, fun hnil => absurd rfl hnil⟩
  | cons l lines ih =>
    have hl := h l List.mem_cons_self
    obtain ⟨hplain, hnewline⟩ := ih (fun l hmem => h l (List.mem_cons_of_mem _ hmem))
      (fun l hmem => hne l (List.mem_cons_of_mem _ hmem))
    cases lines with
    | nil =>
      refine ⟨splitLines_line hl (hne l List.mem_cons_self), fun _ => ?_⟩
      rw [join, splitLines, splitLinesAux_line hl]
      rfl
    | cons l' lines =>
      have hsplit : ∀ tail, splitLines (join ['\n'] (l :: l' :: lines) ++ tail) =
          l :: splitLines (join ['\n'] (l' :: lines) ++ tail) := by
        intro tail
        rw [join, List.append_assoc, List.append_assoc, List.cons_append, List.nil_append,
          splitLines, splitLinesAux_line hl]
        · rfl
        · simp
      constructor
      · have hself := hsplit []
        rwa [List.append_nil, List.append_nil, hplain] at hself
      · intro _
        rw [hsplit, hnewline (by simp)]

/-- What is read line by line, and not from an empty line, is read from
joined lines as from the lines. -/
theorem filterMap_splitLines_join {α : Type} {lines : List Str} {tail : Str}
    {read : Str → Option α} (h : ∀ l ∈ lines, NoBreak l) (htail : tail = [] ∨ tail = ['\n'])
    (hread : read [] = none) :
    (splitLines (join ['\n'] lines ++ tail)).filterMap read = lines.filterMap read := by
  have hextra : ∀ ls : List Str, (ls ++ [[]]).filterMap read = ls.filterMap read := by
    intro ls
    rw [List.filterMap_append, List.filterMap_cons_none hread, List.filterMap_nil,
      List.append_nil]
  obtain heq | heq | heq := splitLines_join h htail
  · rw [heq]
  · rw [← heq, hextra]
    rw [heq]
  · rw [heq, hextra]

theorem noBreak_of_mem_splitLinesAux {cur s l : Str} (hcur : NoBreak cur)
    (h : l ∈ splitLinesAux cur s) : NoBreak l := by
  have hreverse : NoBreak cur.reverse := fun c hc => hcur c (List.mem_reverse.mp hc)
  induction cur, s using splitLinesAux.induct with
  | case1 => simp [splitLinesAux] at h
  | case2 cur hne =>
    rw [splitLinesAux, if_neg hne] at h
    rw [List.mem_singleton.mp h]
    exact hreverse
  | case3 cur s ih =>
    rw [splitLinesAux] at h
    rcases List.mem_cons.mp h with rfl | h
    · exact hreverse
    · exact ih (by simp [NoBreak]) h (by simp [NoBreak])
  | case4 cur c s hnot hbreak ih =>
    rw [splitLinesAux, if_pos hbreak] at h
    · rcases List.mem_cons.mp h with rfl | h
      · exact hreverse
      · exact ih (by simp [NoBreak]) h (by simp [NoBreak])
    · exact hnot
  | case5 cur c s hnot hbreak ih =>
    rw [splitLinesAux, if_neg hbreak] at h
    · have hcons : NoBreak (c :: cur) := by
        intro c' hc'
        rcases List.mem_cons.mp hc' with rfl | hc'
        · simpa using hbreak
        · exact hcur c' hc'
      exact ih hcons h (fun c' hc' => hcons c' (List.mem_reverse.mp hc'))
    · exact hnot

/-- A line has no line break. -/
theorem noBreak_of_mem_splitLines {s l : Str} (h : l ∈ splitLines s) : NoBreak l :=
  noBreak_of_mem_splitLinesAux (by simp [NoBreak]) h

theorem flatMap_splitLinesAux {α : Type} {g : Str → List α} (hg : g [] = []) {cur s h : Str}
    {t : List Str} (hs : s.splitOnP isLineBreak = h :: t) :
    (splitLinesAux cur s).flatMap g = g (cur.reverse ++ h) ++ t.flatMap g := by
  induction cur, s using splitLinesAux.induct generalizing h t with
  | case1 =>
    obtain ⟨rfl, rfl⟩ := List.cons.inj hs
    simp [splitLinesAux, hg]
  | case2 cur hne =>
    obtain ⟨rfl, rfl⟩ := List.cons.inj hs
    simp [splitLinesAux, hne]
  | case3 cur s ih =>
    obtain ⟨h', t', hs'⟩ := List.exists_cons_of_ne_nil (List.splitOnP_ne_nil isLineBreak s)
    rw [List.splitOnP_cons_eq_if_modifyHead, if_pos (by decide),
      List.splitOnP_cons_eq_if_modifyHead, if_pos (by decide), hs'] at hs
    obtain ⟨rfl, rfl⟩ := List.cons.inj hs
    rw [splitLinesAux, List.flatMap_cons, ih hs', List.append_nil, List.flatMap_cons, hg]
    rfl
  | case4 cur c s hnot hbreak ih =>
    obtain ⟨h', t', hs'⟩ := List.exists_cons_of_ne_nil (List.splitOnP_ne_nil isLineBreak s)
    rw [List.splitOnP_cons_eq_if_modifyHead, if_pos hbreak, hs'] at hs
    obtain ⟨rfl, rfl⟩ := List.cons.inj hs
    rw [splitLinesAux, if_pos hbreak, List.flatMap_cons, ih hs', List.append_nil]
    · rfl
    · exact hnot
  | case5 cur c s hnot hbreak ih =>
    obtain ⟨h', t', hs'⟩ := List.exists_cons_of_ne_nil (List.splitOnP_ne_nil isLineBreak s)
    rw [List.splitOnP_cons_eq_if_modifyHead, if_neg hbreak, hs'] at hs
    obtain ⟨rfl, rfl⟩ := List.cons.inj hs
    rw [splitLinesAux, if_neg hbreak, ih hs', List.reverse_cons, List.append_assoc]
    · rfl
    · exact hnot

/-- What is read from the lines, and not from an empty one, is read from what
stands between the line breaks. -/
theorem flatMap_splitLines {α : Type} {g : Str → List α} (hg : g [] = []) (s : Str) :
    (splitLines s).flatMap g = (s.splitOnP isLineBreak).flatMap g := by
  obtain ⟨h, t, hs⟩ := List.exists_cons_of_ne_nil (List.splitOnP_ne_nil isLineBreak s)
  rw [splitLines, flatMap_splitLinesAux hg hs, hs]
  rfl

/-! ## Whitespace at the ends -/

/-- A text that neither starts nor ends in whitespace is its own `strip`. -/
theorem strip_of_ends {c d : Char} {s : Str} (hc : isSpace c = false) (hd : isSpace d = false) :
    strip (c :: (s ++ [d])) = c :: (s ++ [d]) := by
  have hl : lstrip (c :: (s ++ [d])) = c :: (s ++ [d]) := by
    rw [lstrip, List.dropWhile_cons, if_neg (by simp [hc])]
  have hrev : (c :: (s ++ [d])).reverse = d :: (c :: s).reverse := by simp
  rw [strip, hl, rstrip, hrev, List.dropWhile_cons, if_neg (by simp [hd])]
  simp

/-- `strip` takes nothing but whitespace from the end of a text that starts
without. -/
theorem exists_strip_append {c : Char} {s : Str} (hc : isSpace c = false) :
    ∃ b, c :: s = strip (c :: s) ++ b ∧ ∀ d ∈ b, isSpace d = true := by
  have hl : lstrip (c :: s) = c :: s := by
    rw [lstrip, List.dropWhile_cons, if_neg (by simp [hc])]
  refine ⟨((c :: s).reverse.takeWhile isSpace).reverse, ?_, ?_⟩
  · rw [strip, hl, rstrip, ← List.reverse_append, List.takeWhile_append_dropWhile,
      List.reverse_reverse]
  · intro d hd
    exact List.all_eq_true.mp List.all_takeWhile d (List.mem_reverse.mp hd)

/-- What ends without whitespace is not part of whitespace that follows. -/
theorem infix_of_append {u v b sub : Str} {c : Char} {s : Str}
    (hb : ∀ d ∈ b, isSpace d = true) (hc : isSpace c = false)
    (heq : s ++ b = u ++ (sub ++ [c]) ++ v) : sub ++ [c] <:+: s := by
  rcases List.append_eq_append_iff.mp heq with ⟨a, hs, hrest⟩ | ⟨a, hs, -⟩
  · -- the end of the part would be one of the blanks
    rcases List.eq_nil_or_concat a with rfl | ⟨a', d, rfl⟩
    · exact ⟨u, [], by simpa using hs⟩
    · have hlast : c = d := by
        have hjoin : (u ++ sub) ++ [c] = (s ++ a') ++ [d] := by simpa using hs
        exact (List.append_inj' hjoin rfl).2 |> List.singleton_inj.mp
      have hspace := hb d (by rw [hrest]; simp)
      rw [← hlast, hc] at hspace
      cases hspace
  · exact ⟨u, a, hs.symm⟩

/-! ## The end of a pattern -/

/-- A pattern that ends in `$` matches the text, or all of it but a newline at
its end. -/
theorem atDollar_cases {p : Str → Bool} {s : Str} (h : atDollar p s = true) :
    p s = true ∨ ∃ t, s = t ++ ['\n'] ∧ p t = true := by
  rcases (Bool.or_eq_true _ _).mp h with hall | hend
  · exact .inl hall
  · split at hend
    · rename_i r hreverse
      refine .inr ⟨r.reverse, ?_, hend⟩
      rw [← List.reverse_reverse s, hreverse, List.reverse_cons]
    · cases hend

/-- Without a newline at the end of the text, `$` is its end. -/
theorem eq_true_of_atDollar {p : Str → Bool} {s : Str} (hs : NoBreak s) (h : atDollar p s = true) :
    p s = true := by
  rcases atDollar_cases h with hall | ⟨t, heq, -⟩
  · exact hall
  · have hbreak := hs '\n' (by simp [heq])
    cases hbreak

theorem atDollar_of_eq_true {p : Str → Bool} {s : Str} (h : p s = true) : atDollar p s = true := by
  rw [atDollar, h]
  rfl

/-! ## Characters of parts -/

theorem mem_of_mem_lstrip {s : Str} {c : Char} (h : c ∈ lstrip s) : c ∈ s :=
  (List.dropWhile_sublist _).subset h

/-- What `strip` takes off is whitespace. -/
theorem exists_strip (s : Str) :
    ∃ front back, (∀ c ∈ front, isSpace c = true) ∧ (∀ c ∈ back, isSpace c = true) ∧
      s = front ++ (strip s ++ back) := by
  refine ⟨s.takeWhile isSpace, ((lstrip s).reverse.takeWhile isSpace).reverse, ?_, ?_, ?_⟩
  · intro c hc
    exact List.mem_takeWhile_imp hc
  · intro c hc
    exact List.mem_takeWhile_imp (List.mem_reverse.mp hc)
  · have hright : strip s ++ ((lstrip s).reverse.takeWhile isSpace).reverse = lstrip s := by
      rw [strip, rstrip, ← List.reverse_append, List.takeWhile_append_dropWhile,
        List.reverse_reverse]
    rw [hright, lstrip, List.takeWhile_append_dropWhile]

theorem mem_of_mem_strip {s : Str} {c : Char} (h : c ∈ strip s) : c ∈ s := by
  have hrev : c ∈ (lstrip s).reverse.dropWhile isSpace := List.mem_reverse.mp h
  have hl : c ∈ (lstrip s).reverse := (List.dropWhile_sublist _).subset hrev
  exact mem_of_mem_lstrip (List.mem_reverse.mp hl)

theorem mem_of_mem_splitWordsMax {n : Nat} {s w : Str} {c : Char} (hw : w ∈ splitWordsMax n s)
    (hc : c ∈ w) : c ∈ s := by
  induction n generalizing s with
  | zero =>
    rw [splitWordsMax] at hw
    by_cases hnil : lstrip s = []
    · rw [if_pos hnil] at hw
      cases hw
    · rw [if_neg hnil] at hw
      rw [List.mem_singleton.mp hw] at hc
      exact mem_of_mem_lstrip hc
  | succ n ih =>
    rw [splitWordsMax] at hw
    by_cases hnil : lstrip s = []
    · rw [if_pos hnil] at hw
      cases hw
    · rw [if_neg hnil] at hw
      rcases List.mem_cons.mp hw with hfirst | hrest
      · rw [hfirst] at hc
        exact mem_of_mem_lstrip ((List.takeWhile_sublist _).subset hc)
      · exact mem_of_mem_lstrip ((List.dropWhile_sublist _).subset (ih hrest))

theorem mem_join {sep : Str} {parts : List Str} {c : Char} (h : c ∈ join sep parts) :
    c ∈ sep ∨ ∃ p ∈ parts, c ∈ p := by
  induction parts with
  | nil => cases h
  | cons p parts ih =>
    cases parts with
    | nil => exact .inr ⟨p, List.mem_cons_self, h⟩
    | cons q parts =>
      have happend : c ∈ p ++ sep ++ join sep (q :: parts) := h
      rcases List.mem_append.mp happend with hfront | hrest
      · rcases List.mem_append.mp hfront with hp | hsep
        · exact .inr ⟨p, List.mem_cons_self, hp⟩
        · exact .inl hsep
      · rcases ih hrest with hsep | ⟨r, hr, hc⟩
        · exact .inl hsep
        · exact .inr ⟨r, List.mem_cons_of_mem _ hr, hc⟩

end Text
