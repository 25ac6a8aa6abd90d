import PveZfsTool.Lib.Numbers
import PveZfsTool.Lib.Options
import PveZfsTool.Zfs.AutoSnap

/-!
# What a change of the retention leaves behind

The editor writes a keep number and an enabled flag for a level, and the reader
gets them back from the file.  The reader takes the first command line of the
level that is not in a comment, or else the first one in a comment.  The editor
writes to all of them, and takes one comment mark from a line.

`retention_set_iff` says for which files this comes to the same.
-/

namespace PveZfsTool

open Text

/-! ## The keep option -/

/-- `_KEEP_RE` -/
def keepSyntax : OptionSyntax where
  stem := "keep"
  sep := isOptionSep
  val := isDecimal
  stem_ne := by decide
  dash_stem := by decide
  disjoint := by
    intro c hc
    rw [isOptionSep, isSpace_of_isDecimal hc, Bool.or_false, beq_eq_false_iff_ne]
    rintro rfl
    revert hc
    decide
  equals_sep := by decide
  dash_sep := by decide
  dash_val := by decide

theorem findKeep_eq (s : Str) : findKeep s = keepSyntax.find s := by
  induction s with
  | nil => rfl
  | cons c s ih =>
    have htoken : keepToken (c :: s) = keepSyntax.token (c :: s) := rfl
    rw [findKeep, OptionSyntax.find, htoken]
    cases keepSyntax.token (c :: s) with
    | none => exact ih
    | some t => rfl

theorem subKeep_eq (keep : Int) (line : Str) : subKeep keep line = keepSyntax.set (ofInt keep) line := rfl

/-- A number of snapshots that `set_retention` accepts. -/
structure KeepNumber where
  value : Int
  min_le : keepMin ≤ value
  le_max : value ≤ keepMax

namespace KeepNumber

variable (keep : KeepNumber)

def digits : Str := ofInt keep.value

theorem exists_nat : ∃ n : Nat, n ≤ 100000 ∧ keep.value = n ∧ keep.digits = ofNat n := by
  obtain ⟨value, hmin, hmax⟩ := keep
  have hmin' : 0 ≤ value := hmin
  have hmax' : value ≤ 100000 := hmax
  obtain ⟨n, rfl⟩ := Int.eq_ofNat_of_zero_le hmin'
  exact ⟨n, by omega, rfl, rfl⟩

theorem digits_ne : keep.digits ≠ [] := by
  obtain ⟨n, -, -, hdigits⟩ := keep.exists_nat
  rw [hdigits]
  exact isWordText_ofNat.nonempty

theorem isAsciiDigit_digits : ∀ c ∈ keep.digits, isAsciiDigit c = true := by
  obtain ⟨n, -, -, hdigits⟩ := keep.exists_nat
  rw [hdigits]
  exact fun c hc => isAsciiDigit_of_mem_ofNat hc

theorem isDecimal_digits : ∀ c ∈ keep.digits, isDecimal c = true :=
  fun c hc => isDecimal_of_isAsciiDigit (keep.isAsciiDigit_digits c hc)

theorem toInt?_digits : toInt? keep.digits = some keep.value := by
  obtain ⟨n, hn, hvalue, hdigits⟩ := keep.exists_nat
  have hlength : (ofNat n).length ≤ 6 :=
    (Nat.length_toDigits_le_iff (by decide) (by decide)).mpr (by omega)
  rw [hdigits, hvalue]
  exact toInt?_ofNat (hlength.trans (by decide))

end KeepNumber

/-! ## Command lines -/

/-- A word that the editor does not touch. -/
structure IsKept (w : Str) : Prop where
  ne : w ≠ []
  plain : ∀ c ∈ w, isSpace c = false ∧ c ≠ '#' ∧ isDecimal c = false
  start : ∀ u ∈ w.tails, u ≠ [] → ¬ u <+: keepSyntax.name ∧ ¬ keepSyntax.name <+: u
  other : ∃ c ∈ w, c ∉ keepSyntax.name ∧ isOptionSep c = false

theorem isKept_command : IsKept "zfs-auto-snapshot" where
  ne := by decide
  plain := by decide
  start := by decide
  other := ⟨'z', by decide, by decide, by decide⟩

theorem isKept_label (level : SnapLevel) : IsKept (("--label=" : Str) ++ level.label) := by
  cases level <;> exact ⟨by decide, by decide, by decide, 'l', by decide, by decide, by decide⟩

section Line

variable {w line body : Str} {level : SnapLevel} {keep : KeepNumber} {enabled : Bool}

theorem IsKept.token (h : IsKept w) : ∀ u s, u ≠ [] → u <:+ w → keepSyntax.token (u ++ s) = none := by
  intro u s hu hsuffix
  obtain ⟨hstart, hlong⟩ := h.start u ((List.mem_tails _ _).mpr hsuffix) hu
  exact OptionSyntax.token_append_eq_none hstart hlong

theorem IsKept.infix_subKeep (h : IsKept w) (hw : w <:+: line) : w <:+: subKeep keep.value line :=
  OptionSyntax.infix_set h.token (fun c hc => (h.plain c hc).2.2) h.other hw

/-- What `_is_command_line` looks at has the words of the line. -/
theorem IsKept.infix_body_iff (h : IsKept w) :
    w <:+: strip ((lstrip line).dropWhile (· = '#')) ↔ w <:+: line := by
  have hspace : ∀ c ∈ w, isSpace c = false := fun c hc => (h.plain c hc).1
  have hhash : ∀ c ∈ w, decide (c = '#') = false := fun c hc => decide_eq_false (h.plain c hc).2.1
  rw [infix_strip_iff h.ne hspace]
  constructor
  · intro hw
    exact hw.trans ((List.dropWhile_suffix _).trans (lstrip_suffix line)).isInfix
  · intro hw
    exact infix_of_takeWhile h.ne hhash (infix_of_takeWhile h.ne hspace hw)

theorem isCommandLine_iff : isCommandLine line level.label = true ↔
    ("zfs-auto-snapshot" : Str) <:+: line ∧ (("--label=" : Str) ++ level.label) <:+: line := by
  rw [isCommandLine, Bool.and_eq_true]
  unfold contains
  rw [decide_eq_true_iff, decide_eq_true_iff, isKept_command.infix_body_iff,
    (isKept_label level).infix_body_iff]

/-! ## Comments -/

/-- The command stands behind two comment marks. -/
def isDoubleCommented (line : Str) : Bool :=
  match lstrip line with
  | '#' :: body => lineIsCommented body
  | _ => false

theorem lineIsCommented_eq : lineIsCommented line = ((lstrip line).head? == some '#') := by
  rw [lineIsCommented]
  cases lstrip line with
  | nil => rfl
  | cons c t =>
    show (List.isPrefixOf ['#'] (c :: t)) = (some c == some '#')
    rw [List.isPrefixOf, List.isPrefixOf, Bool.and_true]
    rw [Bool.eq_iff_iff, beq_iff_eq, beq_iff_eq, Option.some_inj]
    exact eq_comm

theorem lineIsCommented_iff : lineIsCommented line = true ↔ ∃ body, lstrip line = '#' :: body := by
  rw [lineIsCommented_eq, beq_iff_eq]
  cases lstrip line with
  | nil => simp
  | cons c t => simp

theorem lineIsCommented_spaces {a : Str} (ha : ∀ c ∈ a, isSpace c = true) :
    lineIsCommented (a ++ line) = lineIsCommented line := by
  rw [lineIsCommented, lineIsCommented, lstrip_spaces a ha]

theorem isDoubleCommented_of_lstrip (h : lstrip line = '#' :: body) :
    isDoubleCommented line = lineIsCommented body := by
  rw [isDoubleCommented, h]
  rfl

theorem isDoubleCommented_of_not (h : lineIsCommented line = false) :
    isDoubleCommented line = false := by
  unfold isDoubleCommented
  split
  · next body hbody =>
    rw [lineIsCommented_iff.mpr ⟨body, hbody⟩] at h
    cases h
  · rfl

/-! ## One line -/

theorem indent_append (line : Str) : line.takeWhile isSpace ++ lstrip line = line :=
  List.takeWhile_append_dropWhile

theorem isSpace_indent : ∀ c ∈ line.takeWhile isSpace, isSpace c = true :=
  fun _ hc => List.mem_takeWhile_imp hc

/-- A line in the state that is asked for is left as it is. -/
theorem setLineEnabled_of_eq (h : lineIsCommented line = !enabled) :
    setLineEnabled line enabled = line := by
  have hnot : ∀ body, lstrip line = '#' :: body → enabled = true → False := by
    rintro body hbody rfl
    rw [lineIsCommented_iff.mpr ⟨body, hbody⟩] at h
    cases h
  unfold setLineEnabled
  dsimp only
  split
  · next body hbody => exact (hnot _ hbody rfl).elim
  · next body hbody => exact (hnot _ hbody rfl).elim
  · exact if_pos h
  · rfl

theorem setLineEnabled_false (h : lineIsCommented line = false) :
    setLineEnabled line false = line.takeWhile isSpace ++ '#' :: ' ' :: lstrip line := by
  have hnot : ¬ lineIsCommented line = true := by
    rw [h]
    decide
  unfold setLineEnabled
  dsimp only
  split
  · contradiction
  · contradiction
  · exact if_neg hnot
  · contradiction

/-- One comment mark is taken away, and a space after it. -/
theorem setLineEnabled_true (h : lstrip line = '#' :: body) :
    ∃ rest, (body = rest ∨ body = ' ' :: rest) ∧
      setLineEnabled line true = line.takeWhile isSpace ++ rest := by
  unfold setLineEnabled
  dsimp only
  rw [h]
  split
  · next rest heq _ => exact ⟨rest, Or.inr (List.cons.inj heq).2, rfl⟩
  · next rest _ heq _ => exact ⟨rest, Or.inl (List.cons.inj heq).2, rfl⟩
  · contradiction
  · next hnot => exact (hnot body rfl).elim

theorem setLineEnabled_uncomment (h : lstrip line = '#' :: ' ' :: body) :
    setLineEnabled line true = line.takeWhile isSpace ++ body := by
  unfold setLineEnabled
  dsimp only
  rw [h]
  rfl

/-- Only whitespace and comment marks at the front are changed. -/
theorem setLineEnabled_front (line : Str) (enabled : Bool) : ∃ front front' rest,
    line = front ++ rest ∧ setLineEnabled line enabled = front' ++ rest ∧
      (∀ c ∈ front, isSpace c = true ∨ c = '#') ∧ ∀ c ∈ front', c ∈ front ∨ c = '#' ∨ c = ' ' := by
  by_cases hsame : lineIsCommented line = !enabled
  · refine ⟨[], [], line, rfl, setLineEnabled_of_eq hsame, by simp, by simp⟩
  · cases enabled with
    | false =>
      have hcommented : lineIsCommented line = false := by simpa using hsame
      refine ⟨line.takeWhile isSpace, line.takeWhile isSpace ++ ['#', ' '], lstrip line,
        (indent_append line).symm, ?_, fun c hc => Or.inl (isSpace_indent c hc), ?_⟩
      · rw [setLineEnabled_false hcommented]
        simp
      · intro c hc
        simpa [or_assoc] using hc
    | true =>
      have hcommented : lineIsCommented line = true := by simpa using hsame
      obtain ⟨body, hbody⟩ := lineIsCommented_iff.mp hcommented
      obtain ⟨rest, hrest, hnew⟩ := setLineEnabled_true hbody
      have hline : line = line.takeWhile isSpace ++ '#' :: body := by
        rw [← hbody, indent_append]
      have hindent : ∀ c ∈ line.takeWhile isSpace, isSpace c = true := isSpace_indent
      obtain rfl | rfl := hrest
      · refine ⟨line.takeWhile isSpace ++ ['#'], line.takeWhile isSpace, body, by simpa using hline,
          hnew, ?_, fun c hc => Or.inl (List.mem_append_left _ hc)⟩
        intro c hc
        obtain hc | hc := List.mem_append.mp hc
        · exact Or.inl (hindent c hc)
        · exact Or.inr (List.mem_singleton.mp hc)
      · refine ⟨line.takeWhile isSpace ++ ['#', ' '], line.takeWhile isSpace, rest, by simpa using hline,
          hnew, ?_, fun c hc => Or.inl (List.mem_append_left _ hc)⟩
        intro c hc
        obtain hc | hc := List.mem_append.mp hc
        · exact Or.inl (hindent c hc)
        · rw [List.mem_cons, List.mem_singleton] at hc
          obtain rfl | rfl := hc
          · exact Or.inr rfl
          · exact Or.inl (by decide)

theorem IsKept.infix_setLineEnabled (h : IsKept w) (hw : w <:+: line) :
    w <:+: setLineEnabled line enabled := by
  obtain ⟨front, front', rest, hline, hnew, hfront, -⟩ := setLineEnabled_front line enabled
  have hplain : ∀ c ∈ front, c ∉ w := by
    intro c hc hmem
    obtain ⟨hspace, hhash, -⟩ := h.plain c hmem
    obtain htrue | rfl := hfront c hc
    · rw [htrue] at hspace
      cases hspace
    · exact hhash rfl
  rw [hline] at hw
  rw [hnew]
  exact (infix_of_append_left h.ne hplain hw).trans (List.suffix_append _ _).isInfix

theorem findKeep_setLineEnabled : findKeep (setLineEnabled line enabled) = findKeep line := by
  obtain ⟨front, front', rest, hline, hnew, hfront, hfront'⟩ := setLineEnabled_front line enabled
  have hdash : '-' ∉ front := by
    intro hmem
    obtain hspace | heq := hfront _ hmem
    · exact absurd hspace (by decide)
    · exact absurd heq (by decide)
  have hdash' : '-' ∉ front' := by
    intro hmem
    obtain hmem | heq | heq := hfront' _ hmem
    · exact hdash hmem
    · exact absurd heq (by decide)
    · exact absurd heq (by decide)
  rw [findKeep_eq, findKeep_eq, hnew, OptionSyntax.find_append hdash', hline,
    OptionSyntax.find_append hdash]

theorem mem_setLineEnabled {c : Char} (h : c ∈ setLineEnabled line enabled) :
    c ∈ line ∨ c = '#' ∨ c = ' ' := by
  obtain ⟨front, front', rest, hline, hnew, -, hfront'⟩ := setLineEnabled_front line enabled
  rw [hnew, List.mem_append] at h
  obtain h | h := h
  · obtain h | h := hfront' c h
    · exact Or.inl (by rw [hline]; exact List.mem_append_left _ h)
    · exact Or.inr h
  · exact Or.inl (by rw [hline]; exact List.mem_append_right _ h)

theorem lineIsCommented_disabled (line : Str) : lineIsCommented (setLineEnabled line false) = true := by
  cases h : lineIsCommented line with
  | true => rw [setLineEnabled_of_eq h, h]
  | false =>
    rw [setLineEnabled_false h, lineIsCommented_spaces isSpace_indent]
    exact lineIsCommented_iff.mpr ⟨_, lstrip_cons (by decide)⟩

theorem lineIsCommented_enabled (line : Str) :
    lineIsCommented (setLineEnabled line true) = isDoubleCommented line := by
  cases h : lineIsCommented line with
  | false => rw [setLineEnabled_of_eq h, h, isDoubleCommented_of_not h]
  | true =>
    obtain ⟨body, hbody⟩ := lineIsCommented_iff.mp h
    obtain ⟨rest, hrest, hnew⟩ := setLineEnabled_true hbody
    rw [hnew, lineIsCommented_spaces isSpace_indent, isDoubleCommented_of_lstrip hbody]
    obtain rfl | rfl := hrest
    · rfl
    · have hspaces : ∀ c ∈ [' '], isSpace c = true := by decide
      exact (lineIsCommented_spaces hspaces).symm

/-- The comment marks tell whether a line was changed. -/
theorem count_setLineEnabled (h : lineIsCommented line = enabled) :
    (setLineEnabled line enabled).count '#' ≠ line.count '#' := by
  cases enabled with
  | false =>
    have hline := congrArg (List.count '#') (indent_append line)
    rw [setLineEnabled_false h]
    simp only [List.count_append, List.count_cons_self, List.count_cons] at hline ⊢
    simp
    omega
  | true =>
    obtain ⟨body, hbody⟩ := lineIsCommented_iff.mp h
    obtain ⟨rest, hrest, hnew⟩ := setLineEnabled_true hbody
    have hcount : body.count '#' = rest.count '#' := by
      obtain rfl | rfl := hrest
      · rfl
      · simp
    have hline := congrArg (List.count '#') (indent_append line)
    rw [hbody, List.count_append, List.count_cons_self, hcount] at hline
    rw [hnew, List.count_append]
    omega

end Line

/-! ## A command line that is rewritten -/

/-- The line that the editor makes of a command line. -/
def rewritten (keep : KeepNumber) (enabled : Bool) (line : Str) : Str :=
  rewriteCommand (some keep.value) (some enabled) line

/-- The line has this number in all its keep options, and the state that is
asked for. -/
def IsSettled (keep : KeepNumber) (enabled : Bool) (line : Str) : Prop :=
  keepSyntax.Spells keep.digits line ∧ lineIsCommented line = !enabled

section Rewritten

variable {line : Str} {level : SnapLevel} {keep : KeepNumber} {enabled : Bool}

theorem rewritten_eq : rewritten keep enabled line = setLineEnabled (subKeep keep.value line) enabled := by
  unfold rewritten rewriteCommand
  dsimp only
  cases h : findKeep line with
  | some digits => rfl
  | none =>
    rw [findKeep_eq] at h
    rw [subKeep_eq, OptionSyntax.set_of_find h]
    rfl

theorem lineIsCommented_subKeep : lineIsCommented (subKeep keep.value line) = lineIsCommented line := by
  rw [lineIsCommented_eq, lineIsCommented_eq, subKeep_eq, OptionSyntax.head_lstrip_set]

theorem isDoubleCommented_subKeep :
    isDoubleCommented (subKeep keep.value line) = isDoubleCommented line := by
  cases h : lineIsCommented line with
  | false =>
    rw [isDoubleCommented_of_not h, isDoubleCommented_of_not (lineIsCommented_subKeep.trans h)]
  | true =>
    obtain ⟨body, hbody⟩ := lineIsCommented_iff.mp h
    have hset : lstrip (subKeep keep.value line) = '#' :: subKeep keep.value body := by
      rw [subKeep_eq, subKeep_eq, OptionSyntax.lstrip_set hbody (by decide)]
    rw [isDoubleCommented_of_lstrip hset, isDoubleCommented_of_lstrip hbody, lineIsCommented_subKeep]

theorem isCommandLine_rewritten (h : isCommandLine line level.label = true) :
    isCommandLine (rewritten keep enabled line) level.label = true := by
  obtain ⟨hcommand, hlabel⟩ := isCommandLine_iff.mp h
  rw [rewritten_eq, isCommandLine_iff]
  constructor
  · exact isKept_command.infix_setLineEnabled (isKept_command.infix_subKeep hcommand)
  · exact (isKept_label level).infix_setLineEnabled ((isKept_label level).infix_subKeep hlabel)

/-- A keep number that was there is the new one. -/
theorem keepOf_rewritten : keepOf (rewritten keep enabled line) =
    .ok (if (findKeep line).isSome = true then some keep.value else none) := by
  rw [keepOf, rewritten_eq, findKeep_setLineEnabled, findKeep_eq, findKeep_eq, subKeep_eq]
  cases h : keepSyntax.find line with
  | none =>
    rw [OptionSyntax.set_of_find h, h]
    rfl
  | some digits =>
    have hfound : keepSyntax.find (keepSyntax.set keep.digits line) = some keep.digits :=
      OptionSyntax.find_set keep.digits_ne keep.isDecimal_digits (by rw [h]; rfl)
    rw [show ofInt keep.value = keep.digits from rfl, hfound]
    dsimp only
    rw [keep.toInt?_digits]
    rfl

theorem lineIsCommented_rewritten : lineIsCommented (rewritten keep enabled line) =
    if enabled = true then isDoubleCommented line else true := by
  rw [rewritten_eq]
  cases enabled with
  | false => exact lineIsCommented_disabled _
  | true =>
    rw [lineIsCommented_enabled, isDoubleCommented_subKeep]
    rfl

/-- Only a line that has the number and the state already is left as it is. -/
theorem rewritten_eq_self_iff : rewritten keep enabled line = line ↔ IsSettled keep enabled line := by
  have hspells := OptionSyntax.set_eq_self_iff (o := keepSyntax) (s := line) keep.digits_ne keep.isDecimal_digits
  rw [IsSettled, ← hspells, rewritten_eq]
  constructor
  · intro h
    have hmarks : (subKeep keep.value line).count '#' = line.count '#' := by
      have hdigits : '#' ∉ keep.digits :=
        fun hmem => absurd (keep.isAsciiDigit_digits _ hmem) (by decide)
      exact OptionSyntax.count_set (o := keepSyntax) (by decide) (by decide) (by decide) hdigits
    have hstate : lineIsCommented line = !enabled := by
      by_contra hother
      have hcommented : lineIsCommented (subKeep keep.value line) = enabled := by
        rw [lineIsCommented_subKeep]
        revert hother
        cases lineIsCommented line <;> cases enabled <;> decide
      apply count_setLineEnabled hcommented
      rw [h, hmarks]
    rw [setLineEnabled_of_eq (lineIsCommented_subKeep.trans hstate)] at h
    exact ⟨h, hstate⟩
  · intro h
    obtain ⟨hset, hstate⟩ := h
    have hsub : subKeep keep.value line = line := hset
    rw [hsub, setLineEnabled_of_eq hstate]

theorem mem_rewritten {c : Char} (h : c ∈ rewritten keep enabled line) :
    c ∈ line ∨ isLineBreak c = false := by
  rw [rewritten_eq] at h
  obtain h | rfl | rfl := mem_setLineEnabled h
  · rw [subKeep_eq] at h
    have hname : ∀ d ∈ keepSyntax.name, isLineBreak d = false := by decide
    obtain h | h := OptionSyntax.mem_set h
    · exact Or.inl h
    · right
      obtain h | h := List.mem_append.mp h
      · exact hname c h
      · obtain rfl | h := List.mem_cons.mp h
        · decide
        · exact isLineBreak_of_isSpace (isSpace_of_isAsciiDigit (keep.isAsciiDigit_digits c h))
  · exact Or.inr (by decide)
  · exact Or.inr (by decide)

theorem noBreak_rewritten (h : NoBreak line) : NoBreak (rewritten keep enabled line) := by
  intro c hc
  obtain hmem | hplain := mem_rewritten hc
  · exact h c hmem
  · exact hplain

theorem newline_rewritten (h : '\n' ∉ line) : '\n' ∉ rewritten keep enabled line := by
  intro hc
  obtain hmem | hplain := mem_rewritten hc
  · exact h hmem
  · exact absurd hplain (by decide)

theorem subKeep_subKeep : subKeep keep.value (subKeep keep.value line) = subKeep keep.value line :=
  OptionSyntax.set_set (o := keepSyntax) keep.digits_ne keep.isDecimal_digits

/-- A line that is disabled and enabled again is the enabled line. -/
theorem rewritten_rewritten (line : Str) :
    rewritten keep true (rewritten keep false line) = rewritten keep true line := by
  rw [rewritten_eq, rewritten_eq, rewritten_eq]
  have hidem : subKeep keep.value (subKeep keep.value line) = subKeep keep.value line := subKeep_subKeep
  generalize subKeep keep.value line = s at hidem ⊢
  cases h : lineIsCommented s with
  | true => rw [show setLineEnabled s false = s from setLineEnabled_of_eq h, hidem]
  | false =>
    have hdash : '-' ∉ s.takeWhile isSpace :=
      fun hmem => absurd (isSpace_indent _ hmem) (by decide)
    have hdash' : '-' ∉ s.takeWhile isSpace ++ ['#', ' '] := by
      rw [List.mem_append, not_or]
      exact ⟨hdash, by decide⟩
    have hbody : subKeep keep.value (lstrip s) = lstrip s := by
      have hline := hidem
      rw [← indent_append s, subKeep_eq, OptionSyntax.set_append hdash] at hline
      exact List.append_cancel_left hline
    have hsub : subKeep keep.value (setLineEnabled s false) = setLineEnabled s false := by
      have hsplit : s.takeWhile isSpace ++ '#' :: ' ' :: lstrip s =
          (s.takeWhile isSpace ++ ['#', ' ']) ++ lstrip s := by simp
      rw [setLineEnabled_false h, hsplit, subKeep_eq, OptionSyntax.set_append hdash', ← subKeep_eq,
        hbody]
    have hstrip : lstrip (setLineEnabled s false) = '#' :: ' ' :: lstrip s := by
      rw [setLineEnabled_false h, lstrip_spaces _ isSpace_indent, lstrip_cons (by decide)]
    have hindent : (setLineEnabled s false).takeWhile isSpace = s.takeWhile isSpace := by
      rw [setLineEnabled_false h]
      exact OptionSyntax.takeWhile_run isSpace_indent (by simp [isSpace])
    rw [hsub, show setLineEnabled s true = s from setLineEnabled_of_eq h,
      setLineEnabled_uncomment hstrip, hindent, indent_append]

end Rewritten

/-! ## The file -/

/-- The file after a change of both settings. -/
def edited (content : Str) (level : SnapLevel) (keep : KeepNumber) (enabled : Bool) : Str :=
  updateLevelContent content level.label (some keep.value) (some enabled)

/-- The place of the line that the reader takes. -/
def reportedIndex (content : Str) (level : SnapLevel) : Option Nat :=
  let lines := splitOn '\n' content
  (lines.findIdx? fun line => isCommandLine line level.label && !lineIsCommented line).or
    (lines.findIdx? (isCommandLine · level.label))

/-- The file has a command line with a keep option that is active, or that the
editor has disabled. -/
def HasCommand (content : Str) (level : SnapLevel) : Prop :=
  ∃ line ∈ splitOn '\n' content,
    isCommandLine line level.label = true ∧ (findKeep line).isSome = true ∧
      (lineIsCommented line = false ∨
        ∃ active, lineIsCommented active = false ∧ line = setLineEnabled active false)

/-- The reader gets both settings back, no other line has changed, and it makes
no difference to have disabled the level before. -/
structure RetentionSet (content : Str) (level : SnapLevel) (keep : KeepNumber) (enabled : Bool) :
    Prop where
  read : parseLevel (edited content level keep enabled) level.label =
    .ok (some ⟨some keep.value, enabled⟩)
  others : ∀ j, reportedIndex content level ≠ some j →
    (splitOn '\n' (edited content level keep enabled))[j]? = (splitOn '\n' content)[j]?
  again : edited (edited content level keep false) level keep true = edited content level keep true

/-- The command lines that the reader does not take have the settings already.
The first command line has a keep option, and is not in a comment twice when the
level is to be enabled. -/
structure IsSettable (content : Str) (level : SnapLevel) (keep : KeepNumber) (enabled : Bool) :
    Prop where
  settled : ∀ j line, (splitOn '\n' content)[j]? = some line →
    isCommandLine line level.label = true → reportedIndex content level ≠ some j →
      IsSettled keep enabled line
  first : ∃ line, (splitOn '\n' content).find? (isCommandLine · level.label) = some line ∧
    (findKeep line).isSome = true ∧ (enabled = true → isDoubleCommented line = false)

/-- No command line of the level has a line break inside that only the reader
cuts at. -/
def LinesAgree (content : Str) (level : SnapLevel) : Prop :=
  ∀ line ∈ splitOn '\n' content, isCommandLine line level.label = true → NoBreak line

section File

variable {content line : Str} {lines : List Str} {level : SnapLevel} {keep : KeepNumber}
  {enabled : Bool}

/-- What the editor makes of a line. -/
def editedLine (level : SnapLevel) (keep : KeepNumber) (enabled : Bool) (line : Str) : Str :=
  if isCommandLine line level.label = true then rewritten keep enabled line else line

theorem isCommandLine_editedLine : isCommandLine (editedLine level keep enabled line) level.label =
    isCommandLine line level.label := by
  unfold editedLine
  cases h : isCommandLine line level.label with
  | true => rw [if_pos rfl, isCommandLine_rewritten h]
  | false => rw [if_neg (by decide), h]

theorem splitOn_edited : splitOn '\n' (edited content level keep enabled) =
    (splitOn '\n' content).map (editedLine level keep enabled) := by
  apply splitOn_join
  · intro l hl
    obtain ⟨line, hline, rfl⟩ := List.mem_map.mp hl
    have hplain : '\n' ∉ line := not_mem_of_mem_splitOn hline
    split
    · exact newline_rewritten hplain
    · exact hplain
  · rw [ne_eq, List.map_eq_nil_iff]
    exact splitOn_ne_nil _ _

theorem filter_editedLine (lines : List Str) :
    (lines.map (editedLine level keep enabled)).filter (isCommandLine · level.label) =
      (lines.filter (isCommandLine · level.label)).map (rewritten keep enabled) := by
  induction lines with
  | nil => rfl
  | cons line lines ih =>
    rw [List.map_cons, List.filter_cons, List.filter_cons, isCommandLine_editedLine, ih, editedLine]
    cases h : isCommandLine line level.label with
    | true => rfl
    | false => rfl

/-- A file that is disabled and enabled again is the enabled file. -/
theorem edited_edited : edited (edited content level keep false) level keep true =
    edited content level keep true := by
  have hlines : (splitOn '\n' (edited content level keep false)).map (editedLine level keep true) =
      (splitOn '\n' content).map (editedLine level keep true) := by
    rw [splitOn_edited, List.map_map]
    apply List.map_congr_left
    intro line _
    show editedLine level keep true (editedLine level keep false line) = _
    unfold editedLine
    cases h : isCommandLine line level.label with
    | true =>
      rw [if_pos rfl, if_pos rfl, isCommandLine_rewritten h, if_pos rfl, rewritten_rewritten]
    | false => simp only [Bool.false_eq_true, if_false, h]
  exact congrArg (join ['\n']) hlines

/-! ### Reading it -/

theorem parseLevelLines_filter (candidate : Option LevelState) (lines : List Str) :
    parseLevelLines level.label candidate lines =
      parseLevelLines level.label candidate (lines.filter (isCommandLine · level.label)) := by
  induction lines generalizing candidate with
  | nil => rfl
  | cons line lines ih =>
    cases h : isCommandLine line level.label with
    | false =>
      rw [List.filter_cons_of_neg (by rw [h]; decide), parseLevelLines, h, ← ih]
      rfl
    | true =>
      rw [List.filter_cons_of_pos (by rw [h]), parseLevelLines, parseLevelLines, h]
      simp only [ih]

theorem parseLevel_eq (h : LinesAgree content level) : parseLevel content level.label =
    parseLevelLines level.label none
      ((splitOn '\n' content).filter (isCommandLine · level.label)) := by
  have hinfix : ∀ s t : Str, t <:+: s → isCommandLine t level.label = true →
      isCommandLine s level.label = true := by
    intro s t ht hcommand
    obtain ⟨hword, hlabel⟩ := isCommandLine_iff.mp hcommand
    exact isCommandLine_iff.mpr ⟨hword.trans ht, hlabel.trans ht⟩
  have hempty : isCommandLine [] level.label = false := by
    cases level <;> decide
  rw [parseLevel, parseLevelLines_filter, filter_splitLines hinfix hempty h]

theorem linesAgree_edited (h : LinesAgree content level) :
    LinesAgree (edited content level keep enabled) level := by
  intro l hl hcommand
  rw [splitOn_edited] at hl
  obtain ⟨line, hline, rfl⟩ := List.mem_map.mp hl
  rw [isCommandLine_editedLine] at hcommand
  rw [editedLine, if_pos hcommand]
  exact noBreak_rewritten (h line hline hcommand)

theorem parseLevel_edited (h : LinesAgree content level) :
    parseLevel (edited content level keep enabled) level.label =
      parseLevelLines level.label none
        (((splitOn '\n' content).filter (isCommandLine · level.label)).map
          (rewritten keep enabled)) := by
  rw [parseLevel_eq (linesAgree_edited h), splitOn_edited, filter_editedLine]

/-- The entry that the reader makes of a rewritten line. -/
def entryOf (keep : KeepNumber) (enabled : Bool) (line : Str) : LevelState where
  keep := if (findKeep line).isSome = true then some keep.value else none
  enabled := !lineIsCommented (rewritten keep enabled line)

/-- Lines in comments do not change what was found. -/
theorem parseLevelLines_commented {entry : LevelState}
    (hcommand : ∀ l ∈ lines, isCommandLine l level.label = true)
    (hcommented : ∀ l ∈ lines, lineIsCommented (rewritten keep enabled l) = true) :
    parseLevelLines level.label (some entry) (lines.map (rewritten keep enabled)) =
      .ok (some entry) := by
  induction lines with
  | nil => rfl
  | cons line lines ih =>
    have hrest := ih (fun l hl => hcommand l (List.mem_cons_of_mem _ hl))
      (fun l hl => hcommented l (List.mem_cons_of_mem _ hl))
    rw [List.map_cons, parseLevelLines,
      isCommandLine_rewritten (hcommand line List.mem_cons_self), keepOf_rewritten,
      hcommented line List.mem_cons_self]
    exact hrest

/-- The first line is read, unless it is in a comment and another one is
not. -/
theorem parseLevelLines_rewritten
    (hcommand : ∀ l ∈ line :: lines, isCommandLine l level.label = true)
    (hcommented : lineIsCommented (rewritten keep enabled line) = true →
      ∀ l ∈ lines, lineIsCommented (rewritten keep enabled l) = true) :
    parseLevelLines level.label none ((line :: lines).map (rewritten keep enabled)) =
      .ok (some (entryOf keep enabled line)) := by
  rw [List.map_cons, parseLevelLines,
    isCommandLine_rewritten (hcommand line List.mem_cons_self), keepOf_rewritten]
  cases h : lineIsCommented (rewritten keep enabled line) with
  | false =>
    rw [entryOf, h]
    rfl
  | true =>
    rw [entryOf, h]
    exact parseLevelLines_commented (fun l hl => hcommand l (List.mem_cons_of_mem _ hl))
      (hcommented h)

/-! ### The condition -/

/-- An active command line is taken before one in a comment. -/
theorem reportedIndex_active {i : Nat} (hline : (splitOn '\n' content)[i]? = some line)
    (hcommand : isCommandLine line level.label = true) (hactive : lineIsCommented line = false) :
    ∃ j l, reportedIndex content level = some j ∧ (splitOn '\n' content)[j]? = some l ∧
      lineIsCommented l = false := by
  unfold reportedIndex
  dsimp only
  cases hfind : (splitOn '\n' content).findIdx? fun line =>
      isCommandLine line level.label && !lineIsCommented line with
  | some j =>
    obtain ⟨hlt, hl, -⟩ := List.findIdx?_eq_some_iff_getElem.mp hfind
    exact ⟨j, _, rfl, List.getElem?_eq_getElem hlt,
      by simpa using (Bool.and_eq_true_iff.mp hl).2⟩
  | none =>
    have hnone := List.findIdx?_eq_none_iff.mp hfind line (List.mem_of_getElem? hline)
    rw [hcommand, hactive] at hnone
    cases hnone

/-- The other lines are unchanged when they are settled, and only then. -/
theorem others_iff : (∀ j, reportedIndex content level ≠ some j →
      (splitOn '\n' (edited content level keep enabled))[j]? = (splitOn '\n' content)[j]?) ↔
    ∀ j line, (splitOn '\n' content)[j]? = some line → isCommandLine line level.label = true →
      reportedIndex content level ≠ some j → IsSettled keep enabled line := by
  rw [splitOn_edited]
  constructor
  · intro h j line hline hcommand hj
    have hsame := h j hj
    rw [List.getElem?_map, hline, Option.map_some, editedLine, if_pos hcommand] at hsame
    exact rewritten_eq_self_iff.mp (Option.some.inj hsame)
  · intro h j hj
    rw [List.getElem?_map]
    cases hline : (splitOn '\n' content)[j]? with
    | none => rfl
    | some line =>
      rw [Option.map_some, editedLine]
      split
      · next hcommand => rw [rewritten_eq_self_iff.mpr (h j line hline hcommand hj)]
      · rfl

/-- When the other command lines are settled the reader takes the first
one. -/
theorem parseLevel_of_settled (hagree : LinesAgree content level)
    (hsettled : ∀ j line, (splitOn '\n' content)[j]? = some line →
      isCommandLine line level.label = true → reportedIndex content level ≠ some j →
        IsSettled keep enabled line)
    (hfirst : (splitOn '\n' content).find? (isCommandLine · level.label) = some line) :
    parseLevel (edited content level keep enabled) level.label =
      .ok (some (entryOf keep enabled line)) := by
  obtain ⟨hcommand, before, after, hlines, hbefore⟩ := List.find?_eq_some_iff_append.mp hfirst
  have hnone : before.filter (isCommandLine · level.label) = [] := by
    rw [List.filter_eq_nil_iff]
    intro l hl
    simpa using hbefore l hl
  have hfilter : (splitOn '\n' content).filter (isCommandLine · level.label) =
      line :: after.filter (isCommandLine · level.label) := by
    rw [hlines, List.filter_append, hnone, List.nil_append]
    exact List.filter_cons_of_pos hcommand
  rw [parseLevel_edited hagree, hfilter]
  apply parseLevelLines_rewritten
  · intro l hl
    obtain rfl | hl := List.mem_cons.mp hl
    · exact hcommand
    · exact (List.mem_filter.mp hl).2
  · intro hcommented l hl
    cases enabled with
    | false => rw [lineIsCommented_rewritten, if_neg (by decide)]
    | true =>
      -- the first line is in a comment twice, so it was the one that the reader took
      rw [lineIsCommented_rewritten, if_pos rfl] at hcommented
      have hmark : lineIsCommented line = true := by
        by_contra hnot
        rw [isDoubleCommented_of_not (Bool.eq_false_iff.mpr hnot)] at hcommented
        cases hcommented
      have hplace : (splitOn '\n' content)[before.length]? = some line := by
        rw [hlines, List.getElem?_append_right (Nat.le_refl _), Nat.sub_self]
        rfl
      have hreported : reportedIndex content level = some before.length := by
        by_contra hother
        have hstate := (hsettled _ line hplace hcommand hother).2
        rw [hmark] at hstate
        cases hstate
      -- and then no other command line is active, but a settled one would be
      obtain ⟨hmem, hother⟩ := List.mem_filter.mp hl
      obtain ⟨k, hk⟩ := List.mem_iff_getElem?.mp hmem
      have hlater : (splitOn '\n' content)[before.length + (k + 1)]? = some l := by
        rw [hlines, List.getElem?_append_right (by omega), Nat.add_sub_cancel_left,
          List.getElem?_cons_succ, hk]
      have hne : reportedIndex content level ≠ some (before.length + (k + 1)) := by
        rw [hreported, ne_eq, Option.some_inj]
        omega
      have hactive : lineIsCommented l = false := (hsettled _ l hlater hother hne).2
      obtain ⟨j, l', hj, hl', hplain⟩ := reportedIndex_active hlater hother hactive
      rw [hreported, Option.some_inj] at hj
      rw [← hj, hplace, Option.some_inj] at hl'
      rw [← hl', hmark] at hplain
      cases hplain

theorem entryOf_eq_iff : entryOf keep enabled line = ⟨some keep.value, enabled⟩ ↔
    (findKeep line).isSome = true ∧ (enabled = true → isDoubleCommented line = false) := by
  rw [entryOf, LevelState.mk.injEq, lineIsCommented_rewritten]
  apply and_congr
  · split
    · next hsome => exact iff_of_true rfl hsome
    · next hnone => exact iff_of_false (by simp) hnone
  · cases enabled with
    | false => simp
    | true => simp

end File

/-- A change of a level is read back and leaves the other lines alone if and
only if the file is settable, when the reader and the writer cut the command
lines alike. -/
theorem retention_set_iff {content : Str} {level : SnapLevel} (hagree : LinesAgree content level)
    (keep : KeepNumber) (enabled : Bool) :
    RetentionSet content level keep enabled ↔ IsSettable content level keep enabled := by
  constructor
  · intro h
    have hsettled := others_iff.mp h.others
    refine ⟨hsettled, ?_⟩
    cases hfirst : (splitOn '\n' content).find? (isCommandLine · level.label) with
    | none =>
      have hnone : (splitOn '\n' content).filter (isCommandLine · level.label) = [] := by
        rw [List.filter_eq_nil_iff]
        exact List.find?_eq_none.mp hfirst
      have hread := h.read
      rw [parseLevel_edited hagree, hnone] at hread
      cases hread
    | some line =>
      have hread := h.read
      rw [parseLevel_of_settled hagree hsettled hfirst] at hread
      have hentry := Option.some.inj (Except.ok.inj hread)
      exact ⟨line, rfl, entryOf_eq_iff.mp hentry⟩
  · intro h
    obtain ⟨line, hfirst, hline⟩ := h.first
    constructor
    · rw [parseLevel_of_settled hagree h.settled hfirst, entryOf_eq_iff.mpr hline]
    · exact others_iff.mpr h.settled
    · exact edited_edited

/-- The cron file of a level that keeps 24 snapshots. -/
def hourlyFile : Str := "#!/bin/sh\nzfs-auto-snapshot --quiet --label=hourly --keep=24 //\n"

def keepTwelve : KeepNumber := ⟨12, by decide, by decide⟩

theorem retention_set_hourly : RetentionSet hourlyFile .hourly keepTwelve false := by
  have hagree : LinesAgree hourlyFile .hourly := by
    intro line hline _
    revert line
    decide
  refine (retention_set_iff hagree keepTwelve false).mpr ⟨?_, ?_⟩
  · intro j line hline hcommand hj
    match j with
    | 0 =>
      obtain rfl := Option.some.inj hline
      exact absurd hcommand (by decide)
    | 1 => exact absurd (by decide) hj
    | 2 =>
      obtain rfl := Option.some.inj hline
      exact absurd hcommand (by decide)
    | _ + 3 => cases hline
  · exact ⟨"zfs-auto-snapshot --quiet --label=hourly --keep=24 //", by decide, by decide, by decide⟩

/-- An example in a comment, and the active line. -/
def exampleFile : Str :=
  "# zfs-auto-snapshot --label=hourly --keep=12 //\nzfs-auto-snapshot --label=hourly --keep=24 //\n"

/-- The example becomes a second active line. -/
theorem example_line_enabled : ¬ ∀ (content : Str) (level : SnapLevel) (keep : KeepNumber)
    (enabled : Bool), HasCommand content level → RetentionSet content level keep enabled := by
  intro h
  have hcommand : HasCommand exampleFile .hourly :=
    ⟨"zfs-auto-snapshot --label=hourly --keep=24 //", by decide, by decide, by decide,
      Or.inl (by decide)⟩
  have hset := h exampleFile .hourly keepTwelve true hcommand
  have hfirst := hset.others 0 (by decide)
  revert hfirst
  decide

end PveZfsTool
