import PveZfsTool.Lib.Cuts
import PveZfsTool.Lib.Dict

/-!
# The fields of the identity probe

`app/host_identity.py` asks a host which Proxmox product it runs.  The probe
prints lines of `KEY=value`.  Some commands print no newline, and then the next
field stands on the same line: the parser cuts such a line before every key of
at least three characters.

The fields of a text are read from its lines (`probeFields_eq`), and the same
ones from the text cut as a whole (`probeFields_cuts`).  So a newline between
two parts of the text never matters (`probeFields_newline`), and a missing one
does not where the second part is cut off (`probeFields_glued`).
-/

namespace PveZfsTool

open Text

/-- The keys that `IDENTITY_PROBE` prints. -/
inductive ProbeKey where
  | pveBin | pveDir | pbsBin | pbsDir | pbsDatastoreCfg | pbsClient | pveVersion | pvePkg | pbsPkg
  | hostname | os | probeOk
  deriving DecidableEq

def ProbeKey.text : ProbeKey → Str
  | .pveBin => "PVE_BIN"
  | .pveDir => "PVE_DIR"
  | .pbsBin => "PBS_BIN"
  | .pbsDir => "PBS_DIR"
  | .pbsDatastoreCfg => "PBS_DATASTORE_CFG"
  | .pbsClient => "PBS_CLIENT"
  | .pveVersion => "PVE_VERSION"
  | .pvePkg => "PVE_PKG"
  | .pbsPkg => "PBS_PKG"
  | .hostname => "HOSTNAME"
  | .os => "OS"
  | .probeOk => "PROBE_OK"

/-! ## `_parse_lines` -/

/-- `[A-Z_]` -/
def isFieldLetter (c : Char) : Bool := isAsciiUpper c || c == '_'

/-- `[A-Z0-9_]` -/
def isFieldChar (c : Char) : Bool := isFieldLetter c || isAsciiDigit c

/-- `(?=[A-Z][A-Z0-9_]{2,}=)` -/
def startsField : Str → Bool
  | [] => false
  | c :: s =>
      isAsciiUpper c && decide (2 ≤ (s.takeWhile isFieldChar).length) &&
        (s.dropWhile isFieldChar).head? == some '='

/-- `_GLUED_FIELD.split`: before a place there is no key letter. -/
def splitGlued (s : Str) : List Str := cuts isFieldLetter startsField false s

/-- The key and the value of one piece. -/
def fieldOf (piece : Str) : Option (Str × Str) :=
  let line := strip piece
  if line = [] ∨ '=' ∉ line then none
  else
    let key := strip (beforeFirst '=' line)
    if key = [] then none else some (key, strip (afterFirst '=' line))

/-- The fields of one line. -/
def lineFields (raw : Str) : List (Str × Str) := (splitGlued (strip raw)).filterMap fieldOf

/-- The fields in the order in which they are set. -/
def probeFields (stdout : Str) : List (Str × Str) := (splitLines stdout).flatMap lineFields

/-- `_parse_lines` -/
def parseLines (stdout : Str) : Dict Str Str :=
  (probeFields stdout).foldl (fun fields e => fields.set e.1 e.2) Dict.empty

/-! ## Where a field starts -/

section StartsField

variable {a b s : Str} {c : Char}

theorem isFieldChar_eq_false (h : isSpace c = true) : isFieldChar c = false ∧ c ≠ '=' := by
  refine ⟨Bool.eq_false_iff.mpr (fun hkey => ?_), ?_⟩
  · have hplain : isSpace c = false := by
      rw [isFieldChar, isFieldLetter, Bool.or_eq_true, Bool.or_eq_true] at hkey
      rcases hkey with (hupper | hline) | hdigit
      · exact isSpace_of_isAsciiAlnum (by rw [isAsciiAlnum, isAsciiAlpha, hupper]; simp)
      · rw [eq_of_beq hline]
        decide
      · exact isSpace_of_isAsciiDigit hdigit
    rw [h] at hplain
    cases hplain
  · rintro rfl
    exact absurd h (by decide)

theorem isFieldChar_of_isAsciiUpper (h : isAsciiUpper c = true) : isFieldChar c = true := by
  rw [isFieldChar, isFieldLetter, h, Bool.true_or, Bool.true_or]

theorem startsField_of_not_key (h : isFieldChar c = false) : startsField (c :: s) = false := by
  have hupper : isAsciiUpper c = false :=
    Bool.eq_false_iff.mpr (fun hc => by rw [isFieldChar_of_isAsciiUpper hc] at h; cases h)
  rw [startsField, hupper, Bool.false_and, Bool.false_and]

/-- Where the run of key characters ends in the text, what follows does not
matter. -/
theorem startsField_append_of_mem (h : ∃ d ∈ s, isFieldChar d = false) :
    startsField (c :: s ++ b) = startsField (c :: s) := by
  obtain ⟨d, hd, hkey⟩ := h
  have hrest : s.dropWhile isFieldChar ≠ [] := by
    intro hnil
    have hall := List.dropWhile_eq_nil_iff.mp hnil d hd
    rw [hkey] at hall
    cases hall
  have hrun : (s ++ b).takeWhile isFieldChar = s.takeWhile isFieldChar := by
    rw [List.takeWhile_append, if_neg]
    intro hlength
    have hwhole := List.takeWhile_append_dropWhile (p := isFieldChar) (l := s)
    rw [← hwhole, List.length_append] at hlength
    have hzero : (s.dropWhile isFieldChar).length = 0 := by
      rw [hwhole] at hlength
      omega
    exact hrest (List.length_eq_zero_iff.mp hzero)
  have hdrop : ((s ++ b).dropWhile isFieldChar).head? = (s.dropWhile isFieldChar).head? := by
    rw [List.dropWhile_append, if_neg (by simpa using hrest), List.head?_append_of_ne_nil _ hrest]
  rw [List.cons_append, startsField, startsField, hrun, hdrop]

/-- A run of key characters to the end of the text starts no field. -/
theorem startsField_of_all (h : ∀ d ∈ s, isFieldChar d = true) : startsField (c :: s) = false := by
  rw [startsField, List.dropWhile_eq_nil_iff.mpr h]
  exact Bool.and_false _

/-- What follows does not matter unless it goes on with a key. -/
theorem startsField_append (h : ∀ d ∈ b.head?, isFieldChar d = false ∧ d ≠ '=') :
    startsField (s ++ b) = startsField s := by
  have hb : b.dropWhile isFieldChar = b := by
    cases b with
    | nil => rfl
    | cons d b => rw [List.dropWhile_cons, if_neg (by rw [(h d rfl).1]; decide)]
  cases s with
  | nil =>
    cases b with
    | nil => rfl
    | cons d b => exact startsField_of_not_key (h d rfl).1
  | cons c s =>
    by_cases hall : ∀ d ∈ s, isFieldChar d = true
    · rw [startsField_of_all hall, List.cons_append, startsField, List.dropWhile_append_of_pos hall,
        hb]
      cases b with
      | nil => exact Bool.and_false _
      | cons d b =>
        have hd : (some d == some '=') = false := by simpa using (h d rfl).2
        rw [List.head?_cons, hd, Bool.and_false]
    · push Not at hall
      obtain ⟨d, hd, hkey⟩ := hall
      exact startsField_append_of_mem ⟨d, hd, Bool.eq_false_iff.mpr hkey⟩

theorem startsField_iff : startsField s = true ↔ ∃ c run rest, s = c :: (run ++ '=' :: rest) ∧
    isAsciiUpper c = true ∧ 2 ≤ run.length ∧ ∀ d ∈ run, isFieldChar d = true := by
  constructor
  · intro h
    cases s with
    | nil => cases h
    | cons c s =>
      rw [startsField, Bool.and_eq_true, Bool.and_eq_true, decide_eq_true_iff] at h
      obtain ⟨⟨hupper, hlength⟩, hhead⟩ := h
      have hrest : s.dropWhile isFieldChar = '=' :: (s.dropWhile isFieldChar).tail :=
        (List.head?_eq_some_iff.mp (eq_of_beq hhead)).elim (fun t ht => by rw [ht]; rfl)
      refine ⟨c, s.takeWhile isFieldChar, (s.dropWhile isFieldChar).tail, ?_, hupper, hlength,
        fun _ => List.mem_takeWhile_imp⟩
      rw [← hrest, List.takeWhile_append_dropWhile]
  · rintro ⟨c, run, rest, rfl, hupper, hlength, hrun⟩
    rw [startsField, List.takeWhile_append_of_pos hrun, List.dropWhile_append_of_pos hrun,
      List.takeWhile_cons_of_neg (by decide), List.dropWhile_cons_of_neg (by decide), hupper,
      List.append_nil, decide_eq_true hlength]
    rfl

end StartsField

/-! ## The fields of a text -/

section Fields

variable {a b s key value : Str}

theorem fieldOf_strip : fieldOf (strip s) = fieldOf s := by
  rw [fieldOf, fieldOf, strip_strip]

theorem fieldOf_of_not_mem (h : '=' ∉ s) : fieldOf s = none := by
  have hline : '=' ∉ strip s := fun hmem => h (mem_of_mem_strip hmem)
  rw [fieldOf, if_pos (.inr hline)]

theorem fieldOf_entry (hkey : IsWordText key) (hsep : '=' ∉ key) :
    fieldOf (key ++ '=' :: value) = some (key, strip value) := by
  have hline : strip (key ++ '=' :: value) = key ++ '=' :: rstrip value := by
    rw [strip, hkey.lstrip_append, rstrip_append_cons (by decide)]
  have hself : strip key = key := strip_eq_self hkey.plain
  rw [fieldOf, hline, if_neg, beforeFirst_append hsep, afterFirst_append hsep, hself,
    if_neg hkey.nonempty, strip_rstrip]
  rintro (hnil | hmem)
  · simp at hnil
  · exact hmem (by simp)

theorem lineFields_eq (raw : Str) : lineFields raw = (splitGlued raw).filterMap fieldOf := by
  have hstrip : ∀ pieces : List Str,
      pieces.filterMap fieldOf = (pieces.map strip).filterMap fieldOf := by
    intro pieces
    rw [List.filterMap_map]
    exact List.filterMap_congr (fun p _ => fieldOf_strip.symm)
  have hspace : ∀ c, isSpace c = true → isFieldLetter c = false := by
    intro c hc
    have hkey := (isFieldChar_eq_false hc).1
    rw [isFieldChar, Bool.or_eq_false_iff] at hkey
    exact hkey.1
  rw [lineFields, hstrip, splitGlued, map_strip_cuts hspace
    (fun c s hc => startsField_of_not_key (isFieldChar_eq_false hc).1)
    (fun s w hw => startsField_append
      (fun d hd => isFieldChar_eq_false (hw d (List.mem_of_mem_head? hd))))]
  exact (hstrip _).symm

theorem lineFields_nil : lineFields [] = [] := rfl

/-- The fields stand between the line breaks. -/
theorem probeFields_eq (stdout : Str) :
    probeFields stdout = (stdout.splitOnP isLineBreak).flatMap lineFields :=
  flatMap_splitLines lineFields_nil stdout

/-- The fields of a piece with line breaks. -/
def pieceFields (piece : Str) : List (Str × Str) :=
  (piece.splitOnP isLineBreak).filterMap fieldOf

theorem head_splitOnP {p : Char → Bool} {h : Str} {t : List Str} (hs : s.splitOnP p = h :: t) :
    ∃ rest, s = h ++ rest ∧ ∀ c ∈ rest.head?, p c = true := by
  induction s generalizing h t with
  | nil =>
    obtain ⟨rfl, rfl⟩ := List.cons.inj hs
    exact ⟨[], rfl, fun _ hc => nomatch hc⟩
  | cons c s ih =>
    obtain ⟨h', t', hs'⟩ := List.exists_cons_of_ne_nil (List.splitOnP_ne_nil p s)
    rw [List.splitOnP_cons_eq_if_modifyHead, hs'] at hs
    split_ifs at hs with hc
    · obtain ⟨rfl, rfl⟩ := List.cons.inj hs
      exact ⟨c :: s, rfl, fun d hd => Option.some.inj hd ▸ hc⟩
    · obtain ⟨rfl, rfl⟩ := List.cons.inj hs
      obtain ⟨rest, hrest, hhead⟩ := ih hs'
      exact ⟨rest, by rw [hrest, List.cons_append], hhead⟩

/-- The text is cut as a whole. -/
theorem probeFields_cuts (stdout : Str) :
    probeFields stdout = (splitGlued stdout).flatMap pieceFields := by
  have hbreak : ∀ c, isLineBreak c = true → isFieldChar c = false ∧ c ≠ '=' :=
    fun c hc => isFieldChar_eq_false (isSpace_of_isLineBreak hc)
  obtain ⟨h, t, hs⟩ := List.exists_cons_of_ne_nil (List.splitOnP_ne_nil isLineBreak stdout)
  have hcuts := @flatMap_cuts isFieldLetter startsField false stdout isLineBreak
    (fun c hc => by
      have hkey := (hbreak c hc).1
      rw [isFieldChar, Bool.or_eq_false_iff] at hkey
      exact hkey.1)
    (fun c s hc => startsField_of_not_key (hbreak c hc).1)
    (fun s h t hs => by
      obtain ⟨rest, rfl, hhead⟩ := head_splitOnP hs
      exact startsField_append (fun d hd => hbreak d (hhead d hd)))
    h t hs
  have hlines : (h :: t).flatMap lineFields = ((h :: t).flatMap splitGlued).filterMap fieldOf := by
    rw [List.filterMap_flatMap]
    exact List.flatMap_congr (fun l _ => lineFields_eq l)
  rw [probeFields_eq, hs, hlines, List.flatMap_cons]
  show (cuts isFieldLetter startsField false h ++
    t.flatMap (cuts isFieldLetter startsField false)).filterMap fieldOf = _
  rw [hcuts, List.filterMap_flatMap]
  rfl

/-- Both sides of a newline are read by themselves. -/
theorem probeFields_newline : probeFields (a ++ '\n' :: b) = probeFields a ++ probeFields b := by
  rw [probeFields_eq, probeFields_eq, probeFields_eq, List.splitOnP_append_cons _ _ (by decide),
    List.flatMap_append]

/-- So are two parts without one, if the second starts a field and continues
no place of the first. -/
theorem probeFields_glued (hlast : joinsAfter isFieldLetter false a = false)
    (hb : startsField b = true)
    (hsame : ∀ d c e, a = d ++ c :: e → joinsAfter isFieldLetter false d = false →
      startsField (c :: e ++ b) = startsField (c :: e)) :
    probeFields (a ++ b) = probeFields a ++ probeFields b := by
  have hne : b ≠ [] := by
    rintro rfl
    cases hb
  have hstart : splitGlued b = [] :: (splitGlued b).tail := cuts_of_starts rfl hb hne
  have hfields : probeFields b = (splitGlued b).tail.flatMap pieceFields := by
    rw [probeFields_cuts, hstart]
    rfl
  rw [probeFields_cuts, hfields, splitGlued, cuts_append_of_same hlast hb hne hsame,
    List.flatMap_append, ← splitGlued, ← probeFields_cuts]
  rfl

end Fields

end PveZfsTool
