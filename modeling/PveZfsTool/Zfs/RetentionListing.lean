import PveZfsTool.Lib.LastLine
import PveZfsTool.Lib.Trimmed
import PveZfsTool.Zfs.RetentionEdits

/-!
# Reading the files of all levels

`get_retention` prints the cron files of all levels with one command, each
between a line with its level and an end line, and cuts the output at newlines.

Behind a file with something in its last line the end line is not found, and
the file counts as missing (`files_scan_listing`).  That makes no difference for
a file without a command line of its level (`levelState_levelText`).
-/

namespace PveZfsTool

open Text Dialogue

/-! ## `get_retention` -/

/-- The line before the file of a level. -/
def levelMarker (level : SnapLevel) : Str := "<<<" ++ level.label ++ ">>>"

def fileEnd : Str := "<<<END>>>"

/-- The commands of `get_retention`. -/
inductive RetentionCmd where
  | findTool
  | printFiles
  deriving DecidableEq

def RetentionCmd.text : RetentionCmd → Str
  | .findTool => "command -v zfs-auto-snapshot >/dev/null 2>&1 && echo INSTALLED || echo NO"
  | .printFiles =>
      join "; " (SnapLevel.all.map fun level =>
        "echo '" ++ levelMarker level ++ "'; cat " ++ shlexQuote level.file ++
          " 2>/dev/null; echo '" ++ fileEnd ++ "'")

/-- The variables of the loop. -/
structure RetentionScan where
  files : SnapLevel → Option Str := fun _ => none
  cur : Option SnapLevel := none
  buf : List Str := []

/-- The level that a line stands before. -/
def markedLevel (line : Str) : Option SnapLevel :=
  SnapLevel.all.find? (fun level => strip line = levelMarker level)

/-- The files when the current one ends.  A blank file is not recorded. -/
def RetentionScan.finish (s : RetentionScan) : SnapLevel → Option Str :=
  match s.cur with
  | none => s.files
  | some level =>
      let text := join ['\n'] s.buf
      if strip text = [] then s.files else Function.update s.files level (some text)

/-- One turn of the loop. -/
def RetentionScan.step (s : RetentionScan) (line : Str) : RetentionScan :=
  match markedLevel line with
  | some level => { s with cur := some level, buf := [] }
  | none =>
      if strip line = fileEnd then { s with files := s.finish, cur := none }
      else if s.cur.isSome then { s with buf := s.buf ++ [line] }
      else s

/-- The files that the loop finds in the output. -/
def retentionFiles (raw : Str) : SnapLevel → Option Str :=
  ((splitOn '\n' raw).foldl RetentionScan.step {}).files

/-- The result of `get_retention`. -/
structure Retention where
  installed : Bool
  levels : List RetentionEntry
  deriving DecidableEq

/-- `get_retention` -/
def getRetention : Prog RetentionCmd Answer Exn Retention := do
  let tool ← Prog.issue .findTool
  let r ← Prog.issue .printFiles
  match parseRetention (retentionFiles r.stdout) with
  | .error e => .raise e
  | .ok levels => return { installed := contains tool.stdout "INSTALLED", levels }

/-! ## What the command prints -/

/-- The part of one level.  Of a missing file nothing is printed. -/
def levelPart (files : SnapLevel → Option Str) (level : SnapLevel) : Str :=
  levelMarker level ++ '\n' :: ((files level).getD [] ++ (fileEnd ++ ['\n']))

/-- The output of the command. -/
def levelListing (files : SnapLevel → Option Str) : Str := SnapLevel.all.flatMap (levelPart files)

/-- The line is none of the delimiters, also without the blanks around it. -/
def IsLevelText (line : Str) : Prop := markedLevel line = none ∧ strip line ≠ fileEnd

/-- Behind the last newline of the text there are only blanks. -/
def EndsBlank (text : Str) : Prop := strip (afterLast '\n' text) = []

instance (text : Str) : Decidable (EndsBlank text) :=
  inferInstanceAs (Decidable (strip (afterLast '\n' text) = []))

/-- What is recorded of a file. -/
def levelText (text : Str) : Option Str :=
  let kept := join ['\n'] (splitOn '\n' text).dropLast
  if EndsBlank text ∧ strip kept ≠ [] then some kept else none

/-- What `parse_level` has of a level. -/
def levelState (level : SnapLevel) (content : Option Str) : Except Exn (Option LevelState) :=
  content.elim (.ok none) (parseLevel · level.label)

/-! ## The scan -/

section Scan

variable {s : RetentionScan} {line text : Str} {lines : List Str} {level : SnapLevel}
  {files : SnapLevel → Option Str}

theorem strip_append_fileEnd (line : Str) : strip (line ++ fileEnd) = lstrip line ++ fileEnd := by
  have hword : IsWordText fileEnd := ⟨by decide, by decide⟩
  rw [strip, lstrip_append_eq]
  split_ifs with hblank
  · rw [hblank]
    decide
  · exact hword.rstrip_append

theorem markedLevel_marker (level : SnapLevel) : markedLevel (levelMarker level) = some level := by
  cases level <;> decide

theorem markedLevel_glued (line : Str) : markedLevel (line ++ fileEnd) = none := by
  refine List.find?_eq_none.mpr (fun level _ h => ?_)
  have heq : lstrip line ++ fileEnd = levelMarker level := by
    rw [← strip_append_fileEnd]
    exact of_decide_eq_true h
  have hsuffix : fileEnd <:+ levelMarker level := heq ▸ List.suffix_append _ _
  cases level <;> exact absurd hsuffix (by decide)

/-- The end line with something before it on its line. -/
theorem strip_glued_iff : strip (line ++ fileEnd) = fileEnd ↔ strip line = [] := by
  rw [strip_append_fileEnd, List.append_left_eq_self, lstrip_eq_nil_iff, strip_eq_nil_iff]

theorem step_marker : s.step (levelMarker level) = { s with cur := some level, buf := [] } := by
  rw [RetentionScan.step, markedLevel_marker]

theorem step_glued : s.step (line ++ fileEnd) =
    if strip line = [] then { s with files := s.finish, cur := none }
    else if s.cur.isSome then { s with buf := s.buf ++ [line ++ fileEnd] } else s := by
  rw [RetentionScan.step, markedLevel_glued]
  simp only [strip_glued_iff]

theorem foldl_step_level (h : ∀ l ∈ lines, IsLevelText l) (hcur : s.cur.isSome = true) :
    lines.foldl RetentionScan.step s = { s with buf := s.buf ++ lines } := by
  induction lines generalizing s with
  | nil => rw [List.append_nil]; rfl
  | cons l lines ih =>
    obtain ⟨hmarked, hend⟩ := h l List.mem_cons_self
    have hl : s.step l = { s with buf := s.buf ++ [l] } := by
      rw [RetentionScan.step, hmarked]
      show (if strip l = fileEnd then _ else _) = _
      rw [if_neg hend, if_pos hcur]
    have hrest := @ih { s with buf := s.buf ++ [l] }
      (fun l' hl' => h l' (List.mem_cons_of_mem _ hl')) hcur
    rw [List.foldl_cons, hl, hrest, List.append_assoc]
    rfl

/-- A text without a newline, or what stands before its last newline. -/
theorem last_newline_cases (text : Str) : '\n' ∉ text ∨
    ∃ kept, text = kept ++ '\n' :: afterLast '\n' text ∧ '\n' ∉ afterLast '\n' text := by
  by_cases h : '\n' ∈ text
  · obtain ⟨b, a, hreverse, hb⟩ := List.eq_append_cons_of_mem (List.mem_reverse.mpr h)
    have htext : text = a.reverse ++ '\n' :: b.reverse := by
      rw [← List.reverse_reverse text, hreverse, List.reverse_append, List.reverse_cons,
        List.append_assoc]
      rfl
    have hlast : '\n' ∉ b.reverse := fun hm => hb (List.mem_reverse.mp hm)
    have hafter : afterLast '\n' text = b.reverse := by rw [htext, afterLast_append hlast]
    exact .inr ⟨a.reverse, by rw [hafter, htext], by rw [hafter]; exact hlast⟩
  · exact .inl h

/-- What is written behind a text without a newline goes on in its last piece. -/
theorem exists_splitOn_last (text : Str) : ∃ init, splitOn '\n' text = init ++ [afterLast '\n' text] ∧
    ∀ e, '\n' ∉ e → splitOn '\n' (text ++ e) = init ++ [afterLast '\n' text ++ e] := by
  have happend : ∀ a e : Str, '\n' ∉ a → '\n' ∉ e → splitOn '\n' (a ++ e) = [a ++ e] := by
    intro a e ha he
    exact splitOn_of_not_mem (fun h => (List.mem_append.mp h).elim ha he)
  rcases last_newline_cases text with h | ⟨kept, htext, hlast⟩
  · rw [splitOn_of_not_mem h, afterLast_of_not_mem h]
    exact ⟨[], rfl, fun e he => happend text e h he⟩
  · generalize afterLast '\n' text = last at htext hlast
    subst htext
    refine ⟨splitOn '\n' kept, ?_, fun e he => ?_⟩
    · rw [splitOn_append, splitOn_of_not_mem hlast]
    · rw [List.append_assoc, List.cons_append, splitOn_append, happend last e hlast he]

/-- The files with what is recorded of one more. -/
def record (files : SnapLevel → Option Str) (found : SnapLevel → Option Str) (level : SnapLevel) :
    SnapLevel → Option Str :=
  match levelText ((files level).getD []) with
  | none => found
  | some text => Function.update found level (some text)

theorem scan_levelPart (s : RetentionScan) (rest : Str)
    (htext : ∀ l ∈ splitOn '\n' ((files level).getD []), IsLevelText l) :
    ∃ s', (splitOn '\n' (levelPart files level ++ rest)).foldl RetentionScan.step s =
        (splitOn '\n' rest).foldl RetentionScan.step s' ∧ s'.files = record files s.files level := by
  have hpart : levelPart files level ++ rest = levelMarker level ++
      '\n' :: ((files level).getD [] ++ fileEnd ++ '\n' :: rest) := by
    rw [levelPart]
    simp only [List.append_assoc, List.cons_append, List.nil_append]
  have hmarker : '\n' ∉ levelMarker level := by
    cases level <;> decide
  rw [record]
  generalize (files level).getD [] = content at htext hpart
  obtain ⟨init, hsplit, hglue⟩ := exists_splitOn_last content
  have hinit : ∀ l ∈ init, IsLevelText l :=
    fun l hl => htext l (by rw [hsplit]; exact List.mem_append_left _ hl)
  have hcollect := foldl_step_level (s := { s with cur := some level, buf := [] }) hinit rfl
  rw [hpart, splitOn_append, splitOn_append, splitOn_of_not_mem hmarker, hglue fileEnd (by decide),
    List.singleton_append, List.foldl_cons, step_marker, List.foldl_append, List.foldl_append,
    hcollect, List.nil_append, List.foldl_cons, List.foldl_nil, step_glued]
  refine ⟨_, rfl, ?_⟩
  have hkept : levelText content =
      if strip (afterLast '\n' content) = [] ∧ strip (join ['\n'] init) ≠ [] then
        some (join ['\n'] init)
      else none := by
    rw [levelText, hsplit, List.dropLast_concat]
    rfl
  rw [hkept]
  by_cases hblank : strip (afterLast '\n' content) = []
  · rw [if_pos hblank]
    show (if strip (join ['\n'] init) = [] then s.files else _) = _
    by_cases hempty : strip (join ['\n'] init) = []
    · rw [if_pos hempty, if_neg (fun h => h.2 hempty)]
    · rw [if_neg hempty, if_pos ⟨hblank, hempty⟩]
  · rw [if_neg hblank, if_pos (show (some level).isSome = true from rfl),
      if_neg (fun h => hblank h.1)]

theorem foldl_record {levels : List SnapLevel} {found : SnapLevel → Option Str}
    (hdistinct : levels.Nodup) : levels.foldl (record files) found level =
      if level ∈ levels then (levelText ((files level).getD [])).or (found level) else found level := by
  induction levels generalizing found with
  | nil => rfl
  | cons l levels ih =>
    obtain ⟨hl, hrest⟩ := List.nodup_cons.mp hdistinct
    rw [List.foldl_cons, ih hrest]
    by_cases hlevel : level = l
    · subst hlevel
      rw [if_neg hl, if_pos List.mem_cons_self, record]
      cases levelText ((files level).getD []) with
      | none => rfl
      | some text => exact Function.update_self _ _ _
    · have hsame : record files found l level = found level := by
        rw [record]
        cases levelText ((files l).getD []) with
        | none => rfl
        | some text => exact Function.update_of_ne hlevel _ _
      rw [hsame]
      simp only [List.mem_cons, hlevel, false_or]

/-- What the loop has of each level. -/
theorem retentionFiles_levelListing
    (htext : ∀ level, ∀ l ∈ splitOn '\n' ((files level).getD []), IsLevelText l) :
    retentionFiles (levelListing files) level = levelText ((files level).getD []) := by
  have hscan : ∀ (levels : List SnapLevel) (s : RetentionScan),
      ((splitOn '\n' (levels.flatMap (levelPart files))).foldl RetentionScan.step s).files =
        levels.foldl (record files) s.files := by
    intro levels
    induction levels with
    | nil =>
      intro s
      show (s.step []).files = s.files
      rw [RetentionScan.step, show markedLevel [] = none by decide]
      show (if strip [] = fileEnd then _ else _ : RetentionScan).files = s.files
      rw [if_neg (by decide)]
      split <;> rfl
    | cons l levels ih =>
      intro s
      obtain ⟨s', hstep, hfiles⟩ :=
        scan_levelPart s (levels.flatMap (levelPart files)) (htext l)
      rw [List.flatMap_cons, hstep, ih, hfiles, List.foldl_cons]
  have hall : level ∈ SnapLevel.all := by
    cases level <;> decide
  rw [retentionFiles, levelListing, hscan, foldl_record (by decide), if_pos hall, Option.or_none]

end Scan

/-! ## What `parse_level` has of it -/

section States

variable {level : SnapLevel} {text line : Str} {lines : List Str} {candidate : Option LevelState}

theorem isCommandLine_of_blank (h : strip line = []) : isCommandLine line level.label = false := by
  refine Bool.eq_false_iff.mpr (fun hcommand => ?_)
  have hz : 'z' ∈ line := (isCommandLine_iff.mp hcommand).1.subset (by decide)
  have hspace := (strip_eq_nil_iff.mp h) 'z' hz
  exact absurd hspace (by decide)

theorem filter_commands_blank (h : strip text = []) :
    (splitLines text).filter (isCommandLine · level.label) = [] := by
  refine List.filter_eq_nil_iff.mpr (fun l hl => ?_)
  have hpart : l <:+: text := infix_of_mem_splitLinesAux hl
  have hstrip : strip l = [] :=
    strip_eq_nil_iff.mpr (fun c hc => strip_eq_nil_iff.mp h c (hpart.subset hc))
  rw [isCommandLine_of_blank hstrip]
  decide

theorem parseLevel_blank (h : strip text = []) : parseLevel text level.label = .ok none := by
  rw [parseLevel, parseLevelLines_filter, filter_commands_blank h]
  rfl

/-- Blanks behind the last newline do not count. -/
theorem parseLevel_newline (kept : Str) (h : strip text = []) :
    parseLevel (kept ++ '\n' :: text) level.label = parseLevel kept level.label := by
  have hempty : isCommandLine [] level.label = false := isCommandLine_of_blank rfl
  rw [parseLevel, parseLevel, parseLevelLines_filter, filter_splitLines_newline hempty,
    filter_commands_blank h, List.append_nil, ← parseLevelLines_filter]

theorem parseLevelLines_eq_none : parseLevelLines level.label candidate lines = .ok none ↔
    candidate = none ∧ ∀ l ∈ lines, isCommandLine l level.label = false := by
  induction lines generalizing candidate with
  | nil =>
    rw [parseLevelLines, Except.ok.injEq]
    exact (and_iff_left (by simp)).symm
  | cons l lines ih =>
    rw [parseLevelLines, List.forall_mem_cons]
    cases hcommand : isCommandLine l level.label with
    | false =>
      rw [if_pos (by decide), ih, and_iff_right (rfl : false = false)]
    | true =>
      rw [if_neg (by decide)]
      refine iff_of_false (fun h => ?_) (fun h => absurd h.2.1 (by decide))
      cases hkeep : keepOf l with
      | error e =>
        rw [hkeep] at h
        cases h
      | ok keep =>
        rw [hkeep] at h
        dsimp only at h
        split_ifs at h with hcomment
        · have hnone := (ih.mp h).1
          cases candidate <;> cases hnone
        · cases Except.ok.inj h

/-- The file is read as it is exactly if it ends in a newline, or has no command
line of the level. -/
theorem levelState_levelText : levelState level (levelText text) = levelState level (some text) ↔
    EndsBlank text ∨ ∀ l ∈ splitLines text, isCommandLine l level.label = false := by
  have hnone : parseLevel text level.label = .ok none ↔
      ∀ l ∈ splitLines text, isCommandLine l level.label = false := by
    rw [parseLevel, parseLevelLines_eq_none, and_iff_right rfl]
  by_cases hends : EndsBlank text
  · refine iff_of_true ?_ (.inl hends)
    have hlast : strip (afterLast '\n' text) = [] := hends
    rcases last_newline_cases text with hline | ⟨kept, htext, hrest⟩
    · rw [afterLast_of_not_mem hline] at hlast
      have hlost : levelText text = none := by
        rw [levelText, splitOn_of_not_mem hline]
        exact if_neg (fun h => h.2 rfl)
      rw [hlost]
      exact (parseLevel_blank hlast).symm
    · have hkept : join ['\n'] (splitOn '\n' text).dropLast = kept := by
        rw [htext, splitOn_append, splitOn_of_not_mem hrest, List.dropLast_concat, join_splitOn]
      have hparse : parseLevel text level.label = parseLevel kept level.label := by
        rw [htext, parseLevel_newline kept hlast]
      rw [levelText, hkept]
      by_cases hempty : strip kept = []
      · rw [if_neg (fun h => h.2 hempty)]
        exact (hparse.trans (parseLevel_blank hempty)).symm
      · rw [if_pos ⟨hends, hempty⟩]
        exact hparse.symm
  · have hlost : levelText text = none := if_neg (fun h => hends h.1)
    rw [hlost, ← hnone, or_iff_right hends]
    exact eq_comm

end States

end PveZfsTool
