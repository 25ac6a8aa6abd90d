import PveZfsTool.Lib.Lines
import PveZfsTool.Lib.Strip
import PveZfsTool.Lib.Substitute

/-!
# Words inside a text

What a text has inside is still there when whitespace is taken from its ends
(`infix_strip_iff`).  `filter_splitLines`: lines that are looked for by such
words are the same for `str.splitlines` and for a split at newlines.
-/

namespace Text

variable {w a b s : Str}

/-- Nothing of a word is among characters that it does not have. -/
theorem infix_of_append_left (hne : w ≠ []) (ha : ∀ c ∈ a, c ∉ w) (h : w <:+: a ++ b) :
    w <:+: b := by
  induction a with
  | nil => exact h
  | cons c a ih =>
    have hrest : ∀ d ∈ a, d ∉ w := fun d hd => ha d (List.mem_cons_of_mem _ hd)
    obtain hstart | hinside := List.infix_cons_iff.mp h
    · obtain rfl | ⟨t, rfl, -⟩ := List.prefix_cons_iff.mp hstart
      · exact absurd rfl hne
      · exact absurd List.mem_cons_self (ha c List.mem_cons_self)
    · exact ih hrest hinside

theorem infix_of_takeWhile {p : Char → Bool} (hne : w ≠ []) (hp : ∀ c ∈ w, p c = false)
    (h : w <:+: s) : w <:+: s.dropWhile p := by
  have ha : ∀ c ∈ s.takeWhile p, c ∉ w := by
    intro c hc hmem
    have htrue := List.mem_takeWhile_imp hc
    rw [hp c hmem] at htrue
    cases htrue
  apply infix_of_append_left hne ha
  rw [List.takeWhile_append_dropWhile]
  exact h

theorem lstrip_suffix (s : Str) : lstrip s <:+ s := List.dropWhile_suffix _

theorem strip_isInfix (s : Str) : strip s <:+: s :=
  (rstrip_take (lstrip s)).isInfix.trans (lstrip_suffix s).isInfix

/-- Stripping takes nothing of a word without whitespace. -/
theorem infix_strip_iff (hne : w ≠ []) (hw : ∀ c ∈ w, isSpace c = false) :
    w <:+: strip s ↔ w <:+: s := by
  constructor
  · intro h
    exact h.trans (strip_isInfix s)
  · intro h
    have hleft : w <:+: lstrip s := infix_of_takeWhile hne hw h
    have hne' : w.reverse ≠ [] := fun hnil => hne (List.reverse_eq_nil_iff.mp hnil)
    have hw' : ∀ c ∈ w.reverse, isSpace c = false := fun c hc => hw c (List.mem_reverse.mp hc)
    have hback := infix_of_takeWhile hne' hw' (List.reverse_infix.mpr hleft)
    have hright := List.reverse_infix.mpr hback
    rw [List.reverse_reverse] at hright
    exact hright

/-! ## Lines -/

/-- A newline ends a line, whatever comes before it. -/
theorem splitLinesAux_newline (cur l s : Str) :
    splitLinesAux cur (l ++ '\n' :: s) =
      splitLinesAux cur (l ++ ['\n']) ++ splitLinesAux [] s := by
  induction cur, l using splitLinesAux.induct with
  | case1 => simp [splitLinesAux, isLineBreak]
  | case2 cur hne => simp [splitLinesAux, isLineBreak]
  | case3 cur l ih => simp [splitLinesAux, ih]
  | case4 cur c l hnot hbreak ih =>
    by_cases hcr : c = '\r' ∧ l = []
    · obtain ⟨rfl, rfl⟩ := hcr
      simp [splitLinesAux]
    · have hnot' : ∀ t u : Str, c = '\r' → l ++ t = '\n' :: u → False := by
        intro t u hc hl
        cases l with
        | nil => exact hcr ⟨hc, rfl⟩
        | cons d l =>
          obtain ⟨rfl, -⟩ := List.cons.inj hl
          exact hnot _ hc rfl
      rw [List.cons_append, List.cons_append, splitLinesAux, splitLinesAux, if_pos hbreak,
        if_pos hbreak, ih]
      · rfl
      · exact hnot' _
      · exact hnot' _
  | case5 cur c l hnot hbreak ih =>
    have hplain : isLineBreak c = false := Bool.eq_false_iff.mpr hbreak
    rw [List.cons_append, List.cons_append, splitLinesAux_cons hplain, splitLinesAux_cons hplain, ih]

theorem infix_of_mem_splitLinesAux {cur s l : Str} (h : l ∈ splitLinesAux cur s) :
    l <:+: cur.reverse ++ s := by
  induction cur, s using splitLinesAux.induct with
  | case1 => simp [splitLinesAux] at h
  | case2 cur hne =>
    rw [splitLinesAux, if_neg hne] at h
    rw [List.mem_singleton.mp h, List.append_nil]
  | case3 cur s ih =>
    rw [splitLinesAux] at h
    obtain rfl | h := List.mem_cons.mp h
    · exact (List.prefix_append _ _).isInfix
    · exact (ih h).trans ⟨cur.reverse ++ ['\r', '\n'], [], by simp⟩
  | case4 cur c s hnot hbreak ih =>
    rw [splitLinesAux, if_pos hbreak] at h
    · obtain rfl | h := List.mem_cons.mp h
      · exact (List.prefix_append _ _).isInfix
      · exact (ih h).trans ⟨cur.reverse ++ [c], [], by simp⟩
    · exact hnot
  | case5 cur c s hnot hbreak ih =>
    rw [splitLinesAux, if_neg hbreak] at h
    · have hinside := ih h
      rw [List.reverse_cons, List.append_assoc] at hinside
      exact hinside
    · exact hnot

section Filter

variable {p : Str → Bool}

/-- What the two ways to cut one line have of the lines that are looked for. -/
theorem filter_splitLinesAux (hpart : ∀ s t, t <:+: s → p t = true → p s = true)
    (hempty : p [] = false) {l : Str} (hl : '\n' ∉ l) (hbreak : p l = true → NoBreak l) {tail : Str}
    (htail : tail = [] ∨ tail = ['\n']) : (splitLinesAux [] (l ++ tail)).filter p = [l].filter p := by
  cases hp : p l with
  | false =>
    rw [List.filter_cons_of_neg (by rw [hp]; decide), List.filter_nil, List.filter_eq_nil_iff]
    intro piece hpiece hlooked
    have hplain : '\n' ∉ piece := fun hmem =>
      absurd (noBreak_of_mem_splitLines hpiece _ hmem) (by decide)
    have hinside : piece <:+: l ++ tail := infix_of_mem_splitLinesAux hpiece
    have hline : piece <:+: l := by
      obtain rfl | rfl := htail
      · rwa [List.append_nil] at hinside
      · obtain hline | hnil := infix_append_sep hplain hinside
        · exact hline
        · rw [List.infix_nil.mp hnil]
          exact List.nil_infix
    rw [hpart l piece hline hlooked] at hp
    cases hp
  | true =>
    have hne : l ≠ [] := by
      rintro rfl
      rw [hempty] at hp
      cases hp
    have hpieces : splitLinesAux [] (l ++ tail) = [l] := by
      obtain rfl | rfl := htail
      · rw [List.append_nil]
        exact splitLines_line (hbreak hp) hne
      · exact splitLinesAux_line (hbreak hp)
    rw [hpieces]

/-- Lines that are looked for by what they have inside are the same for both
ways to cut a text, when none of them has another line break. -/
theorem filter_splitLines (hpart : ∀ s t, t <:+: s → p t = true → p s = true)
    (hempty : p [] = false) (hbreak : ∀ l ∈ splitOn '\n' s, p l = true → NoBreak l) :
    (splitLines s).filter p = (splitOn '\n' s).filter p := by
  have hjoin : ∀ lines : List Str, (∀ l ∈ lines, '\n' ∉ l ∧ (p l = true → NoBreak l)) →
      (splitLines (join ['\n'] lines)).filter p = lines.filter p := by
    intro lines hlines
    induction lines with
    | nil => rfl
    | cons l lines ih =>
      obtain ⟨hl, hplain⟩ := hlines l List.mem_cons_self
      cases lines with
      | nil =>
        have hlast := filter_splitLinesAux hpart hempty hl hplain (Or.inl rfl)
        rw [List.append_nil] at hlast
        exact hlast
      | cons l' lines =>
        have hrest := ih (fun u hu => hlines u (List.mem_cons_of_mem _ hu))
        have hcut : join ['\n'] (l :: l' :: lines) = l ++ '\n' :: join ['\n'] (l' :: lines) := by
          simp [join]
        rw [hcut, splitLines, splitLinesAux_newline, List.filter_append,
          filter_splitLinesAux hpart hempty hl hplain (Or.inr rfl)]
        show [l].filter p ++ (splitLines (join ['\n'] (l' :: lines))).filter p = _
        rw [hrest, ← List.filter_append]
        rfl
  have hlines := hjoin (splitOn '\n' s)
    (fun l hl => ⟨not_mem_of_mem_splitOn hl, hbreak l hl⟩)
  rw [join_splitOn] at hlines
  exact hlines

end Filter

end Text
