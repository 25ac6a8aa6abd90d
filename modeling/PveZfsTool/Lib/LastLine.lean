import PveZfsTool.Lib.LineFile
import PveZfsTool.Lib.Words

/-!
# The last line of a text

A text is its full lines and a last line without an end (`fullLines`,
`lastLine`).  What is written behind the text goes on in that line
(`splitLines_append`), so a marker stands on a line of its own only behind a
text whose last line is empty (`splitLines_marker`).
-/

namespace Text

variable {s t m : Str} {c : Char}

/-- What stands after the last line break. -/
def lastLine (s : Str) : Str := (s.reverse.takeWhile (fun c => !isLineBreak c)).reverse

/-- The text up to its last line break. -/
def fullLines (s : Str) : Str := (s.reverse.dropWhile (fun c => !isLineBreak c)).reverse

theorem fullLines_append_lastLine : fullLines s ++ lastLine s = s := by
  rw [fullLines, lastLine, ← List.reverse_append, List.takeWhile_append_dropWhile,
    List.reverse_reverse]

theorem noBreak_lastLine : NoBreak (lastLine s) := by
  intro c hc
  have hbreak := List.mem_takeWhile_imp (List.mem_reverse.mp hc)
  simpa using hbreak

theorem fullLines_cases : fullLines s = [] ∨ ∃ t c, fullLines s = t ++ [c] ∧ isLineBreak c = true := by
  have hhead := List.head?_dropWhile_not (fun c => !isLineBreak c) s.reverse
  rw [fullLines]
  cases hdrop : s.reverse.dropWhile (fun c => !isLineBreak c) with
  | nil => exact .inl rfl
  | cons c t =>
    rw [hdrop] at hhead
    exact .inr ⟨t.reverse, c, List.reverse_cons, by simpa using hhead⟩

theorem noBreak_cons_head (h : NoBreak s) (ht : ∀ d ∈ t.head?, d ≠ '\n') :
    ∀ d ∈ (s ++ t).head?, d ≠ '\n' := by
  cases s with
  | nil => exact ht
  | cons c s =>
    intro d hd
    obtain rfl := Option.some.inj hd
    rintro rfl
    exact absurd (h '\n' List.mem_cons_self) (by decide)

/-- A line break ends a line, if it is not cut in two. -/
theorem splitLinesAux_break {cur : Str} (hc : isLineBreak c = true) (ht : ∀ d ∈ t.head?, d ≠ '\n') :
    splitLinesAux cur (s ++ c :: t) = splitLinesAux cur (s ++ [c]) ++ splitLinesAux [] t := by
  have hend : ∀ cur u, (∀ d ∈ u.head?, d ≠ '\n') →
      splitLinesAux cur (c :: u) = cur.reverse :: splitLinesAux [] u := by
    intro cur u hu
    rw [splitLinesAux, if_pos hc]
    rintro v rfl rfl
    exact hu '\n' rfl rfl
  induction cur, s using splitLinesAux.induct with
  | case1 => rw [List.nil_append, List.nil_append, hend _ _ ht, hend [] [] (by simp)]; rfl
  | case2 cur => rw [List.nil_append, List.nil_append, hend _ _ ht, hend cur [] (by simp)]; rfl
  | case3 cur s ih =>
    show splitLinesAux cur ('\r' :: '\n' :: (s ++ c :: t)) =
      splitLinesAux cur ('\r' :: '\n' :: (s ++ [c])) ++ _
    rw [splitLinesAux, splitLinesAux, ih]
    rfl
  | case4 cur d s hnot hbreak ih =>
    by_cases hpair : d = '\r' ∧ s = [] ∧ c = '\n'
    · obtain ⟨rfl, rfl, rfl⟩ := hpair
      rfl
    · have hsplit : ∀ u, splitLinesAux cur (d :: (s ++ c :: u)) =
          cur.reverse :: splitLinesAux [] (s ++ c :: u) := by
        intro u
        rw [splitLinesAux, if_pos hbreak]
        intro v hd hv
        cases s with
        | nil => exact hpair ⟨hd, rfl, (List.cons.inj hv).1⟩
        | cons e s => exact hnot s hd (by rw [(List.cons.inj hv).1])
      rw [List.cons_append, List.cons_append, hsplit, hsplit, ih]
      rfl
  | case5 cur d s hnot hbreak ih =>
    have hd : isLineBreak d = false := Bool.eq_false_iff.mpr hbreak
    rw [List.cons_append, List.cons_append, splitLinesAux_cons hd, splitLinesAux_cons hd, ih]

/-- What is written behind a text goes on in its last line. -/
theorem splitLines_append (ht : ∀ d ∈ t.head?, d ≠ '\n') :
    splitLines (s ++ t) = splitLines (fullLines s) ++ splitLines (lastLine s ++ t) := by
  have hs : fullLines s ++ (lastLine s ++ t) = s ++ t := by
    rw [← List.append_assoc, fullLines_append_lastLine]
  rw [← hs]
  rcases fullLines_cases (s := s) with hnil | ⟨u, c, hfull, hc⟩
  · rw [hnil]
    rfl
  · rw [hfull, List.append_assoc, List.singleton_append]
    exact splitLinesAux_break hc (noBreak_cons_head noBreak_lastLine ht)

theorem splitLines_eq (s : Str) : splitLines s =
    splitLines (fullLines s) ++ if lastLine s = [] then [] else [lastLine s] := by
  have hwhole := splitLines_append (s := s) (t := []) (by simp)
  rw [List.append_nil, List.append_nil] at hwhole
  rw [hwhole]
  split_ifs with hnil
  · rw [hnil]
    rfl
  · rw [splitLines_line noBreak_lastLine hnil]

/-- A marker behind a text. -/
theorem splitLines_marker (hm : NoBreak m) (hne : m ≠ []) :
    splitLines (s ++ (m ++ '\n' :: t)) =
      splitLines (fullLines s) ++ (lastLine s ++ m) :: splitLines t := by
  have hhead : ∀ d ∈ (m ++ '\n' :: t).head?, d ≠ '\n' := by
    intro d hd
    rw [List.head?_append_of_ne_nil m hne] at hd
    rintro rfl
    exact absurd (hm '\n' (List.mem_of_mem_head? hd)) (by decide)
  rw [splitLines_append hhead, ← List.append_assoc]
  congr 1
  exact splitLinesAux_line (noBreak_append_iff.mpr ⟨noBreak_lastLine, hm⟩)

theorem mem_splitLines_of_full {l : Str} (h : l ∈ splitLines (fullLines s)) : l ∈ splitLines s := by
  rw [splitLines_eq s]
  exact List.mem_append_left _ h

theorem lastLine_mem_splitLines (h : lastLine s ≠ []) : lastLine s ∈ splitLines s := by
  rw [splitLines_eq s, if_neg h]
  exact List.mem_append_right _ (List.mem_singleton_self _)

/-- A newline between two texts does not change what is looked for in their
lines. -/
theorem filter_splitLines_newline {p : Str → Bool} (hempty : p [] = false) (s t : Str) :
    (splitLines (s ++ '\n' :: t)).filter p = (splitLines s).filter p ++ (splitLines t).filter p := by
  have hnil : [[]].filter p = [] := List.filter_cons_of_neg (by rw [hempty]; decide)
  have hfilter : ∀ u : Str,
      (splitLines u).filter p = (u.splitOnP isLineBreak).flatMap (fun l => [l].filter p) := by
    intro u
    rw [← flatMap_splitLines hnil, ← List.filter_flatMap, List.flatMap_singleton']
  rw [hfilter, hfilter, hfilter, List.splitOnP_append_cons _ _ (by decide), List.flatMap_append]

/-- A keyword that ends in a blank does not start in one line and end in the
text behind it. -/
theorem prefix_of_glued {l v : Str} {d : Char} (hd : d ∉ m.take v.length) (hl : l ≠ [])
    (h : v ++ [d] <+: l ++ m) : v ++ [d] <+: l := by
  rcases List.prefix_or_prefix_of_prefix h (List.prefix_append l m) with hshort | ⟨r, hr⟩
  · exact hshort
  · obtain rfl | ⟨r, e, rfl⟩ := List.eq_nil_or_concat r
    · rw [← hr, List.append_nil]
    · exfalso
      rw [List.concat_eq_append, ← List.append_assoc] at hr
      obtain ⟨hv, hde⟩ := List.append_inj' hr rfl
      obtain rfl := List.singleton_inj.mp hde
      rw [← hv, List.append_assoc, List.prefix_append_right_inj] at h
      have hlength : (r ++ [e]).length ≤ v.length := by
        have hpos := List.length_pos_iff.mpr hl
        rw [← hv, List.length_append, List.length_append, List.length_singleton]
        omega
      exact hd ((List.prefix_take_iff.mpr ⟨h, hlength⟩).subset (by simp))

end Text
