import Mathlib.Data.List.Forall2
import PveZfsTool.Lib.Lines

/-!
# Text files as `grep` reads them

Every newline ends a line, and what stands after the last newline is one more
line when it is not empty.  `fileLines` are the lines of a text and `unlines`
writes lines back.

* `fileLines_unlines`, `splitLines_unlines`: written lines are read back.
* `fileLines_append`: a text added to a file that ends in a newline adds its
  own lines and changes none.
* `fileLines_append_open`: where it does not, the added line joins the last one.
* `fixedMatches`, `dropMatching`: `grep -xF` and `grep -vxF` with a pattern,
  which stands for one line or, when it has newlines, for several.
* `splitLines_of_prefix`, `splitOn_of_prefix`: a text that was cut off has the
  lines and the fields of the whole text, but for the last one.
-/

namespace Text

/-- The lines of a text file. -/
def fileLines : Str → List Str
  | [] => []
  | c :: s =>
      if c = '\n' then [] :: fileLines s
      else match fileLines s with
        | [] => [[c]]
        | l :: lines => (c :: l) :: lines

/-- Every line with a newline after it. -/
def unlines (lines : List Str) : Str := lines.flatMap (fun l => l ++ ['\n'])

@[simp] theorem unlines_nil : unlines [] = [] := rfl

@[simp] theorem unlines_cons {l : Str} {lines : List Str} :
    unlines (l :: lines) = l ++ '\n' :: unlines lines := by
  simp [unlines]

theorem fileLines_line {l s : Str} (h : '\n' ∉ l) :
    fileLines (l ++ '\n' :: s) = l :: fileLines s := by
  induction l with
  | nil => simp [fileLines]
  | cons c l ih =>
    simp only [List.mem_cons, not_or] at h
    have hc : c ≠ '\n' := fun heq => h.1 heq.symm
    rw [List.cons_append, fileLines, if_neg hc, ih h.2]

theorem fileLines_unlines {lines : List Str} (h : ∀ l ∈ lines, '\n' ∉ l) :
    fileLines (unlines lines) = lines := by
  induction lines with
  | nil => rfl
  | cons l lines ih =>
    rw [unlines_cons, fileLines_line (h l List.mem_cons_self)]
    rw [ih (fun l' hl' => h l' (List.mem_cons_of_mem _ hl'))]

/-- `str.splitlines` reads written lines back as well, when none of them has
a line break. -/
theorem splitLines_unlines_append {lines : List Str} {s : Str} (h : ∀ l ∈ lines, NoBreak l) :
    splitLines (unlines lines ++ s) = lines ++ splitLines s := by
  induction lines with
  | nil => rfl
  | cons l lines ih =>
    have hl : NoBreak l := h l List.mem_cons_self
    have hrest : splitLines (unlines lines ++ s) = lines ++ splitLines s :=
      ih (fun l' hl' => h l' (List.mem_cons_of_mem _ hl'))
    rw [unlines_cons, List.append_assoc, List.cons_append, splitLines, splitLinesAux_line hl]
    show l :: splitLines (unlines lines ++ s) = l :: (lines ++ splitLines s)
    rw [hrest]

theorem splitLines_unlines {lines : List Str} (h : ∀ l ∈ lines, NoBreak l) :
    splitLines (unlines lines) = lines := by
  simpa [splitLines, splitLinesAux] using splitLines_unlines_append (s := []) h

/-- Joined lines with a newline at the end are written lines. -/
theorem join_newline {l : Str} {lines : List Str} :
    join ['\n'] (l :: lines) ++ ['\n'] = unlines (l :: lines) := by
  induction lines generalizing l with
  | nil => simp [join]
  | cons l' lines ih =>
    have hjoin : join ['\n'] (l :: l' :: lines) = l ++ ['\n'] ++ join ['\n'] (l' :: lines) := rfl
    rw [hjoin, List.append_assoc, ih]
    simp

theorem not_mem_of_mem_fileLines {s l : Str} (h : l ∈ fileLines s) : '\n' ∉ l := by
  induction s generalizing l with
  | nil => simp [fileLines] at h
  | cons c s ih =>
    rw [fileLines] at h
    by_cases hc : c = '\n'
    · rw [if_pos hc] at h
      rcases List.mem_cons.mp h with rfl | h
      · simp
      · exact ih h
    · rw [if_neg hc] at h
      have hc' : '\n' ≠ c := fun heq => hc heq.symm
      cases hlines : fileLines s with
      | nil =>
        rw [hlines] at h
        rw [List.mem_singleton.mp h]
        simpa using hc'
      | cons l' lines =>
        rw [hlines] at h ih
        rcases List.mem_cons.mp h with rfl | h
        · simp only [List.mem_cons, not_or]
          exact ⟨hc', ih List.mem_cons_self⟩
        · exact ih (List.mem_cons_of_mem _ h)

/-- The text is empty or ends in a newline. -/
def Terminated (s : Str) : Prop := s = [] ∨ ∃ t, s = t ++ ['\n']

theorem Terminated.tail {c : Char} {s : Str} (h : Terminated (c :: s)) : Terminated s := by
  rcases h with hnil | ⟨u, hu⟩
  · cases hnil
  · cases u with
    | nil => exact .inl (List.cons.inj hu).2
    | cons d u => exact .inr ⟨u, (List.cons.inj hu).2⟩

/-- Another character follows unless the text ends. -/
theorem Terminated.ne_nil {c : Char} {s : Str} (h : Terminated (c :: s)) (hc : c ≠ '\n') :
    s ≠ [] := by
  intro hs
  rcases h with hnil | ⟨u, hu⟩
  · cases hnil
  · cases u with
    | nil => exact hc (List.cons.inj hu).1
    | cons d u =>
      have htail := (List.cons.inj hu).2
      rw [hs] at htail
      simp at htail

theorem fileLines_ne_nil {s : Str} (h : s ≠ []) : fileLines s ≠ [] := by
  cases s with
  | nil => exact absurd rfl h
  | cons c s =>
    rw [fileLines]
    by_cases hc : c = '\n'
    · simp [hc]
    · rw [if_neg hc]
      cases fileLines s <;> simp

theorem fileLines_append {s t : Str} (h : Terminated s) :
    fileLines (s ++ t) = fileLines s ++ fileLines t := by
  induction s with
  | nil => rfl
  | cons c s ih =>
    rw [List.cons_append, fileLines, fileLines, ih h.tail]
    by_cases hc : c = '\n'
    · simp [hc]
    · simp only [if_neg hc]
      cases hlines : fileLines s with
      | nil => exact absurd hlines (fileLines_ne_nil (h.ne_nil hc))
      | cons l lines => rfl

/-- The lines of a text that ends in a newline, written back, are the text. -/
theorem unlines_fileLines {s : Str} (h : Terminated s) : unlines (fileLines s) = s := by
  induction s with
  | nil => rfl
  | cons c s ih =>
    have hs := ih h.tail
    rw [fileLines]
    by_cases hc : c = '\n'
    · rw [if_pos hc, unlines_cons, hs, hc]
      rfl
    · rw [if_neg hc]
      cases hlines : fileLines s with
      | nil => exact absurd hlines (fileLines_ne_nil (h.ne_nil hc))
      | cons l lines =>
        rw [hlines, unlines_cons] at hs
        show unlines ((c :: l) :: lines) = c :: s
        rw [unlines_cons, List.cons_append, hs]

theorem terminated_line {s l : Str} : Terminated (s ++ (l ++ ['\n'])) :=
  .inr ⟨s ++ l, (List.append_assoc s l ['\n']).symm⟩

theorem terminated_unlines {lines : List Str} : Terminated (unlines lines) := by
  rcases List.eq_nil_or_concat lines with hnil | ⟨front, l, hlines⟩
  · exact .inl (by rw [hnil]; rfl)
  · have htext : unlines lines = unlines front ++ (l ++ ['\n']) := by
      rw [hlines, List.concat_eq_append]
      simp [unlines]
    rw [htext]
    exact terminated_line

/-- A text that does not end in a newline has an open last line. -/
theorem exists_open_line {s : Str} (h : ¬ Terminated s) :
    ∃ t l, s = t ++ l ∧ Terminated t ∧ '\n' ∉ l ∧ l ≠ [] := by
  induction s with
  | nil => exact absurd (.inl rfl) h
  | cons c s ih =>
    by_cases hs : Terminated s
    · have hnil : s = [] := by
        rcases hs with hnil | ⟨u, hu⟩
        · exact hnil
        · exact absurd (.inr ⟨c :: u, by rw [hu]; rfl⟩) h
      have hc : '\n' ≠ c := fun hc => h (.inr ⟨[], by rw [hnil, ← hc]; rfl⟩)
      exact ⟨[], c :: s, rfl, .inl rfl, by simp [hnil, hc], by simp⟩
    · obtain ⟨t, l, rfl, ht, hl, hne⟩ := ih hs
      rcases ht with rfl | ⟨u, rfl⟩
      · by_cases hc : '\n' = c
        · exact ⟨[c], l, rfl, .inr ⟨[], by rw [← hc]; rfl⟩, hl, hne⟩
        · exact ⟨[], c :: l, rfl, .inl rfl, by simp [hc, hl], by simp⟩
      · exact ⟨c :: (u ++ ['\n']), l, rfl, .inr ⟨c :: u, rfl⟩, hl, hne⟩

theorem fileLines_open {l : Str} (h : '\n' ∉ l) (hne : l ≠ []) : fileLines l = [l] := by
  induction l with
  | nil => exact absurd rfl hne
  | cons c l ih =>
    rw [List.mem_cons, not_or] at h
    rw [fileLines, if_neg (Ne.symm h.1)]
    by_cases hl : l = []
    · rw [hl]
      rfl
    · rw [ih h.2 hl]

/-- A line added to a text that does not end in a newline joins its last line. -/
theorem fileLines_append_open {s m : Str} (h : ¬ Terminated s) (hm : '\n' ∉ m) :
    ∃ lines last, last ≠ [] ∧ fileLines s = lines ++ [last] ∧
      fileLines (s ++ (m ++ ['\n'])) = lines ++ [last ++ m] := by
  obtain ⟨t, l, rfl, ht, hl, hne⟩ := exists_open_line h
  refine ⟨fileLines t, l, hne, ?_, ?_⟩
  · rw [fileLines_append ht, fileLines_open hl hne]
  · rw [List.append_assoc, fileLines_append ht, ← List.append_assoc, fileLines_line]
    · rfl
    · rw [List.mem_append, not_or]
      exact ⟨hl, hm⟩

theorem mem_of_mem_fileLines {s l : Str} {c : Char} (h : l ∈ fileLines s) (hc : c ∈ l) : c ∈ s := by
  induction s generalizing l with
  | nil => cases h
  | cons d s ih =>
    rw [fileLines] at h
    by_cases hd : d = '\n'
    · rw [if_pos hd] at h
      rcases List.mem_cons.mp h with hl | hrest
      · rw [hl] at hc
        cases hc
      · exact List.mem_cons_of_mem _ (ih hrest hc)
    · rw [if_neg hd] at h
      cases hlines : fileLines s with
      | nil =>
        rw [hlines] at h
        rw [List.mem_singleton.mp h] at hc
        rw [List.mem_singleton.mp hc]
        exact List.mem_cons_self
      | cons l' lines =>
        rw [hlines] at h ih
        rcases List.mem_cons.mp h with hl | hrest
        · rw [hl] at hc
          rcases List.mem_cons.mp hc with hfirst | hl'
          · rw [hfirst]
            exact List.mem_cons_self
          · exact List.mem_cons_of_mem _ (ih List.mem_cons_self hl')
        · exact List.mem_cons_of_mem _ (ih (List.mem_cons_of_mem _ hrest) hc)

/-- `grep -qxF pattern`: one of the lines of the pattern is a line of the
file. -/
def fixedMatches (pattern s : Str) : Bool :=
  (fileLines s).any (fun l => (splitOn '\n' pattern).contains l)

/-- What `grep -vxF pattern` prints. -/
def dropMatching (pattern s : Str) : List Str :=
  (fileLines s).filter (fun l => !(splitOn '\n' pattern).contains l)

theorem fileLines_dropMatching {pattern s : Str} :
    fileLines (unlines (dropMatching pattern s)) = dropMatching pattern s :=
  fileLines_unlines (fun _ hl => not_mem_of_mem_fileLines (List.mem_filter.mp hl).1)

/-! ## A text that was cut off -/

/-- A text is cut off before the first separator or after it. -/
theorem prefix_separator {a b s : Str} {c : Char} (h : s <+: a ++ c :: b) :
    s <+: a ∨ ∃ t, s = a ++ c :: t ∧ t <+: b := by
  induction a generalizing s with
  | nil =>
    rcases List.prefix_cons_iff.mp h with rfl | ⟨t, rfl, ht⟩
    · exact .inl (List.prefix_refl _)
    · exact .inr ⟨t, rfl, ht⟩
  | cons d a ih =>
    rcases List.prefix_cons_iff.mp h with rfl | ⟨s, rfl, hs⟩
    · exact .inl (List.nil_prefix)
    · rcases ih hs with ha | ⟨t, rfl, ht⟩
      · exact .inl ((List.prefix_cons_inj d).mpr ha)
      · exact .inr ⟨t, rfl, ht⟩

/-- The lines of a text that was cut off are lines of the whole text, in
their order, and the last of them may be cut off as well. -/
theorem splitLines_of_prefix {lines : List Str} {s : Str} (h : ∀ l ∈ lines, NoBreak l)
    (hs : s <+: unlines lines) :
    List.SublistForall₂ (fun l l' => l <+: l') (splitLines s) lines := by
  induction lines generalizing s with
  | nil =>
    obtain rfl := List.prefix_nil.mp hs
    exact .nil
  | cons l lines ih =>
    have hl : NoBreak l := h l List.mem_cons_self
    rw [unlines_cons] at hs
    rcases prefix_separator hs with hcut | ⟨t, rfl, ht⟩
    · by_cases hnil : s = []
      · rw [hnil]
        exact .nil
      · have hbreak : NoBreak s := fun c hc => hl c (hcut.subset hc)
        rw [splitLines_line hbreak hnil]
        exact .cons hcut .nil
    · rw [splitLines, splitLinesAux_line hl]
      exact .cons (List.prefix_refl l) (ih (fun l' hl' => h l' (List.mem_cons_of_mem _ hl')) ht)

/-- The fields of a text that was cut off: the first one may be cut off, or it
is the whole first field and the rest is cut off. -/
theorem splitOn_of_prefix {sep : Char} {a b s : Str} (ha : sep ∉ a) (h : s <+: a ++ sep :: b) :
    splitOn sep s = [s] ∨ ∃ t, t <+: b ∧ splitOn sep s = a :: splitOn sep t := by
  rcases prefix_separator h with hcut | ⟨t, rfl, ht⟩
  · exact .inl (splitOn_of_not_mem (fun hsep => ha (hcut.subset hsep)))
  · refine .inr ⟨t, ht, ?_⟩
    rw [splitOn_append, splitOn_of_not_mem ha]
    rfl

end Text
