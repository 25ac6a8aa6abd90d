import PveZfsTool.Lib.LastLine
import PveZfsTool.Replication.ConfigFile

/-!
# Listing the config files

`list_configs` reads all config files with one script.  The script prints each
file between a line with its path and an end marker, and the output is read
line by line.

The end marker only stands on a line of its own where the file ends in a line
break.  Behind another file it is not found, and the next path begins a new
file: what was read so far is dropped (`out_scan_listing`).
-/

namespace PveZfsTool.Replication

open Dialogue Text

/-! ## `list_configs` -/

/-- An entry of `list_configs`. -/
structure ConfigEntry where
  path : Str
  source : Str
  target : Str
  canonicalPath : Str
  needsImport : Bool
  localMode : Bool
  deriving DecidableEq

/-- The entry of one file. -/
def configEntry (path : Str) (values : Values) : ConfigEntry :=
  let source := strip (values.getD "source")
  let canonical := if source ≠ [] then configPathFor source else path
  { path
    source
    target := values.getD "target"
    canonicalPath := canonical
    needsImport := path ≠ canonical
    localMode := source = [] }

/-- The variables of the loop. -/
structure ConfigScan where
  cur : Option Str := none
  buf : List Str := []
  out : List ConfigEntry := []

def fileMarker : Str := "__FILE__ "

def endMarker : Str := "__END__"

/-- The entry of the file that ends here. -/
def ConfigScan.finish (s : ConfigScan) : List ConfigEntry :=
  match s.cur with
  | none | some [] => []
  | some path => [configEntry path (parseConfig (join ['\n'] s.buf)).values]

/-- One turn of the loop. -/
def ConfigScan.step (s : ConfigScan) (line : Str) : ConfigScan :=
  if startsWith line fileMarker then
    { s with cur := some (strip (line.drop fileMarker.length)), buf := [] }
  else if line = endMarker then { s with cur := none, out := s.out ++ s.finish }
  else if s.cur.isSome then { s with buf := s.buf ++ [line] }
  else s

inductive ConfigListCmd where
  | listConfigs
  deriving DecidableEq

def ConfigListCmd.text : ConfigListCmd → Str
  | .listConfigs =>
      "for f in " ++ shlexQuote configDir ++ "/*.conf; do   [ -f \"$f\" ] || continue;   " ++
      "echo __FILE__ $f; cat $f; echo __END__; done 2>/dev/null"

/-- `list_configs`, without its cache -/
def listConfigs : Prog ConfigListCmd Answer Exn (List ConfigEntry) := do
  let r ← Prog.issue .listConfigs
  if r.success = true ∧ r.stdout ≠ [] then
    return ((splitLines r.stdout).foldl ConfigScan.step {}).out
  else return []

/-! ## What the script prints -/

/-- A path that the shell leaves as it is where it stands without quotes. -/
def isPlainPath (path : Str) : Bool :=
  path != [] && path.all (fun c => !isSpace c && !(c == '*' || c == '?' || c == '[' || c == '\\'))

/-- A file with its path. -/
abbrev PathFile := Str × Str

/-- The part of one file.  For a path that is not plain `unquoted` says what
`echo` and `cat` print. -/
def configPart (unquoted : Str → Str × Str) (file : PathFile) : Str :=
  let printed := if isPlainPath file.1 then file else unquoted file.1
  fileMarker ++ printed.1 ++ '\n' :: (printed.2 ++ (endMarker ++ ['\n']))

/-- The output of the script. -/
def configListing (unquoted : Str → Str × Str) (files : List PathFile) : Str :=
  files.flatMap (configPart unquoted)

/-- The line is none of the markers. -/
def IsConfigText (line : Str) : Prop := startsWith line fileMarker = false ∧ line ≠ endMarker

instance (line : Str) : Decidable (IsConfigText line) :=
  inferInstanceAs (Decidable (startsWith line fileMarker = false ∧ line ≠ endMarker))

/-- The file ends in a line break, or it is empty. -/
def Ended (text : Str) : Prop := lastLine text = []

instance (text : Str) : Decidable (Ended text) := inferInstanceAs (Decidable (lastLine text = []))

/-! ## Reading it back -/

section Reading

variable {s : ConfigScan} {line path text : Str} {lines : List Str} {files : List PathFile}
  {unquoted : Str → Str × Str}

theorem step_file : s.step (fileMarker ++ path) = { s with cur := some (strip path), buf := [] } := by
  have hstart : startsWith (fileMarker ++ path) fileMarker = true :=
    List.isPrefixOf_iff_prefix.mpr (List.prefix_append _ _)
  rw [ConfigScan.step, if_pos hstart, List.drop_left]

theorem step_end : s.step endMarker = { s with cur := none, out := s.out ++ s.finish } := by
  rw [ConfigScan.step, if_neg (by decide), if_pos rfl]

theorem step_text (h : IsConfigText line) :
    s.step line = if s.cur.isSome then { s with buf := s.buf ++ [line] } else s := by
  rw [ConfigScan.step, if_neg (by rw [h.1]; decide), if_neg h.2]

/-- The lines of a file are collected. -/
theorem foldl_step_text (h : ∀ l ∈ lines, IsConfigText l) (hcur : s.cur.isSome = true) :
    lines.foldl ConfigScan.step s = { s with buf := s.buf ++ lines } := by
  induction lines generalizing s with
  | nil => rw [List.append_nil]; rfl
  | cons l lines ih =>
    have hl := step_text (s := s) (h l List.mem_cons_self)
    rw [if_pos hcur] at hl
    have hrest := @ih { s with buf := s.buf ++ [l] }
      (fun l' hl' => h l' (List.mem_cons_of_mem _ hl')) hcur
    rw [List.foldl_cons, hl, hrest, List.append_assoc]
    rfl

/-- A last line with the end marker behind it is one more line of text. -/
theorem isConfigText_glued (htext : ∀ l ∈ splitLines text, IsConfigText l) (hne : ¬ Ended text) :
    IsConfigText (lastLine text ++ endMarker) := by
  have hlast := htext _ (lastLine_mem_splitLines hne)
  constructor
  · refine Bool.eq_false_iff.mpr (fun h => ?_)
    have hglued : ("__FILE__" : Str) ++ [' '] <+: lastLine text ++ endMarker :=
      List.isPrefixOf_iff_prefix.mp h
    have hprefix := prefix_of_glued (by decide) hne hglued
    have hstart : startsWith (lastLine text) fileMarker = true :=
      List.isPrefixOf_iff_prefix.mpr hprefix
    rw [hlast.1] at hstart
    cases hstart
  · intro heq
    exact hne (List.append_left_eq_self.mp heq)

/-- Empty lines at the end do not count. -/
theorem values_join (h : ∀ l ∈ lines, NoBreak l) :
    (parseConfig (join ['\n'] lines)).values =
      (lines.map parseLine).foldl ConfLine.store [] := by
  have hextra : ∀ ls : List Str, ((ls ++ [[]]).map parseLine).foldl ConfLine.store [] =
      (ls.map parseLine).foldl ConfLine.store [] := by
    intro ls
    rw [List.map_append, List.foldl_append]
    rfl
  have hsplit := @splitLines_join lines [] h (.inl rfl)
  rw [List.append_nil] at hsplit
  show ((splitLines (join ['\n'] lines)).map parseLine).foldl ConfLine.store [] = _
  rcases hsplit with heq | heq | heq
  · rw [heq]
  · rw [← hextra, heq]
  · rw [heq, hextra]

theorem IsPlainPath.strip_eq (h : isPlainPath path = true) : strip path = path ∧ path ≠ [] := by
  rw [isPlainPath, Bool.and_eq_true, List.all_eq_true] at h
  refine ⟨strip_eq_self (fun c hc => ?_), by simpa using h.1⟩
  have hplain := h.2 c hc
  rw [Bool.and_eq_true] at hplain
  simpa using hplain.1

theorem noBreak_of_isPlainPath (h : isPlainPath path = true) : NoBreak path := by
  rw [isPlainPath, Bool.and_eq_true, List.all_eq_true] at h
  intro c hc
  have hplain := h.2 c hc
  rw [Bool.and_eq_true] at hplain
  exact isLineBreak_of_isSpace (by simpa using hplain.1)

/-- The lines of the output from one file on. -/
theorem splitLines_configPart (h : isPlainPath path = true) {rest : Str} :
    splitLines (configPart unquoted (path, text) ++ rest) =
      (fileMarker ++ path) :: (splitLines (fullLines text) ++
        (lastLine text ++ endMarker) :: splitLines rest) := by
  have hpart : configPart unquoted (path, text) ++ rest =
      (fileMarker ++ path) ++ '\n' :: (text ++ (endMarker ++ '\n' :: rest)) := by
    rw [configPart, if_pos h]
    simp only [List.append_assoc, List.cons_append, List.nil_append]
  have hmarker : NoBreak (fileMarker ++ path) :=
    noBreak_append_iff.mpr ⟨by decide, noBreak_of_isPlainPath h⟩
  rw [hpart, splitLines, splitLinesAux_line hmarker, List.reverse_nil, List.nil_append,
    ← splitLines, splitLines_marker (by decide) (by decide)]

/-- A file has its entry if its end was found. -/
theorem out_scan_part (s : ConfigScan) (unquoted : Str → Str × Str) (rest : Str)
    (hpath : isPlainPath path = true) (htext : ∀ l ∈ splitLines text, IsConfigText l) :
    ∃ s', (splitLines (configPart unquoted (path, text) ++ rest)).foldl ConfigScan.step s =
        (splitLines rest).foldl ConfigScan.step s' ∧
      s'.out = s.out ++
        if Ended text then [configEntry path (parseConfig text).values] else [] := by
  have hfull : ∀ l ∈ splitLines (fullLines text), IsConfigText l :=
    fun l hl => htext l (mem_splitLines_of_full hl)
  obtain ⟨hstrip, hne⟩ := IsPlainPath.strip_eq hpath
  have hcollect := foldl_step_text (s := { s with cur := some path, buf := [] }) hfull rfl
  rw [splitLines_configPart hpath, List.foldl_cons, step_file, hstrip, List.foldl_append, hcollect,
    List.nil_append, List.foldl_cons]
  refine ⟨_, rfl, ?_⟩
  split_ifs with hended
  · have hlines : splitLines text = splitLines (fullLines text) := by
      rw [splitLines_eq text, if_pos (show lastLine text = [] from hended), List.append_nil]
    have hvalues : (parseConfig (join ['\n'] (splitLines (fullLines text)))).values =
        (parseConfig text).values := by
      rw [values_join (fun l hl => noBreak_of_mem_splitLines hl), ← hlines]
      rfl
    rw [show lastLine text = [] from hended, List.nil_append, step_end]
    cases path with
    | nil => exact absurd rfl hne
    | cons c path =>
      show s.out ++ [configEntry (c :: path) _] = _
      rw [hvalues]
  · rw [step_text (isConfigText_glued htext hended)]
    exact (List.append_nil _).symm

/-- The files whose end was found are listed. -/
theorem out_scan_listing (hpath : ∀ f ∈ files, isPlainPath f.1 = true)
    (htext : ∀ f ∈ files, ∀ l ∈ splitLines f.2, IsConfigText l) :
    ((splitLines (configListing unquoted files)).foldl ConfigScan.step s).out =
      s.out ++ (files.filter (fun f => Ended f.2)).map
        (fun f => configEntry f.1 (parseConfig f.2).values) := by
  induction files generalizing s with
  | nil => exact (List.append_nil _).symm
  | cons f files ih =>
    obtain ⟨path, text⟩ := f
    obtain ⟨s', hscan, hout⟩ := out_scan_part s unquoted (configListing unquoted files)
      (hpath _ List.mem_cons_self) (htext _ List.mem_cons_self)
    have hlisting : configListing unquoted ((path, text) :: files) =
        configPart unquoted (path, text) ++ configListing unquoted files := rfl
    rw [hlisting, hscan, ih (fun f hf => hpath f (List.mem_cons_of_mem _ hf))
      (fun f hf => htext f (List.mem_cons_of_mem _ hf)), hout]
    by_cases hended : Ended text
    · rw [if_pos hended, List.filter_cons_of_pos (by simpa using hended), List.map_cons,
        List.append_assoc]
      rfl
    · rw [if_neg hended, List.filter_cons_of_neg (by simpa using hended), List.append_nil]

end Reading

end PveZfsTool.Replication
