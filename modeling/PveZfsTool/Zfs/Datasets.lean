import PveZfsTool.Lib.Lines
import PveZfsTool.Lib.Shell
import PveZfsTool.Zfs.Snapshots

/-!
# The command lines for datasets

`set_dataset_property` and `create_dataset` of `app/zfs_commands.py` check
their arguments and put them into a command line without quotes.
`set_dataset_property` puts in what the validators return.  `create_dataset`
puts the options in as they came, with the whitespace around them.

`dataset_argv_iff` says for which arguments the shell reads the words that
were meant: no space in a value, and around an option nothing but blanks that
stand next to a blank of the command line anyway.
-/

namespace PveZfsTool

open Dialogue Text Shell

/-- A function that sends command lines to hosts. -/
abbrev TextJob (α : Type) := Prog (Host × Str) Answer Exn α

/-- The three validators of `set_dataset_property`. -/
def checkProperty (dataset prop : Str) (value : Option Str) : Except Str (Str × Str × Str) :=
  match validateZfsName dataset "Dataset" with
  | .error e => .error e
  | .ok dataset =>
    match validateZfsProperty prop with
    | .error e => .error e
    | .ok prop => (validateZfsValue value).map (fun value => (dataset, prop, value))

/-- `set_dataset_property` -/
def setDatasetProperty (host : Host) (dataset prop : Str) (value : Option Str) : TextJob Answer :=
  match checkProperty dataset prop value with
  | .error e => return refusal e
  | .ok (dataset, prop, value) =>
      Prog.issue (host, "zfs set " ++ (prop ++ '=' :: (value ++ ' ' :: dataset)))

/-- An option, with `str` of its value. -/
abbrev ZfsOption := Str × Option Str

/-- The validators of `create_dataset` on its options. -/
def checkOptions : List ZfsOption → Except Str Unit
  | [] => .ok ()
  | (k, v) :: options =>
    match validateZfsProperty k with
    | .error e => .error e
    | .ok _ =>
      match validateZfsValue v with
      | .error e => .error e
      | .ok _ => checkOptions options

/-- The text of an option as it came. -/
def optionText (o : ZfsOption) : Str := o.1 ++ '=' :: o.2.getD []

/-- What follows `zfs create`. -/
def createTail (name : Str) : List ZfsOption → Str
  | [] => ' ' :: name
  | o :: options => " -o " ++ (optionText o ++ createTail name options)

/-- `create_dataset` -/
def createDataset (host : Host) (name : Str) (options : List ZfsOption) : TextJob Answer :=
  match validateDatasetName name with
  | .error e => return refusal e
  | .ok name =>
    match checkOptions options with
    | .error e => return refusal e
    | .ok () => Prog.issue (host, "zfs create" ++ createTail name options)

/-! ## The words that are meant -/

/-- The option that the validators accept. -/
def optionWord (o : ZfsOption) : Str := strip o.1 ++ '=' :: strip (o.2.getD [])

/-- The arguments after `zfs create`. -/
def createArgs (name : Str) : List ZfsOption → List Str
  | [] => [name]
  | o :: options => "-o" :: optionWord o :: createArgs name options

/-- The shell reads each command line of the function as these words. -/
def SplitsAs (p : TextJob Answer) (argv : List Str) : Prop :=
  ∀ log o, p.Run log o → ∀ entry ∈ log, tokens entry.1.2 = some (argv.map .word)

def AllBlank (s : Str) : Prop := ∀ c ∈ s, isBlank c = true

/-- There is no whitespace in the option, but for blanks at its start and its
end. -/
def CleanOption (o : ZfsOption) : Prop :=
  (∃ front, AllBlank front ∧ o.1 = front ++ strip o.1) ∧
    (∃ back, AllBlank back ∧ o.2.getD [] = strip (o.2.getD []) ++ back) ∧
      ' ' ∉ strip (o.2.getD [])

/-! ## Characters -/

theorem isPlain_of_isZfsNameChar {c : Char} (h : isZfsNameChar c = true) : isPlain c = true := by
  have hascii := toNat_lt_of_class (by decide) h
  revert h
  exact of_ascii (P := fun c => isZfsNameChar c = true → isPlain c = true) (by decide)
    hascii

theorem isPlain_of_isZfsPropChar {c : Char} (h : isZfsPropChar c = true) : isPlain c = true := by
  have hclass : (isAsciiAlnum c || "_:.-".toList.contains c) = true := by
    simp only [isZfsPropChar, isAsciiAlnum, isAsciiAlpha, Bool.or_eq_true] at h ⊢
    tauto
  have hascii := toNat_lt_of_class (by decide) hclass
  revert h
  exact of_ascii (P := fun c => isZfsPropChar c = true → isPlain c = true) (by decide)
    hascii

theorem isPlain_of_isZfsValueChar {c : Char} (h : isZfsValueChar c = true) (hc : c ≠ ' ') :
    isPlain c = true := by
  have hascii := toNat_lt_of_class (by decide) h
  revert h hc
  exact of_ascii (P := fun c => isZfsValueChar c = true → c ≠ ' ' → isPlain c = true)
    (by decide) hascii

theorem isPlain_of_not_ascii {c : Char} (h : 128 ≤ c.toNat) : isPlain c = true := by
  have hne : ∀ d : Char, d.toNat < 128 → c ≠ d := by
    rintro d hd rfl
    omega
  simp [isPlain, isBlank, isOperator, isExpansion, hne]

/-- Whitespace that a shell does not take for a separator is part of a word. -/
theorem inert_of_isSpace {c : Char} (h : isSpace c = true) :
    isPlain c = true ∨ isBlank c = true ∨ c = '\n' := by
  by_cases hc : c.toNat < 128
  · revert h
    exact of_ascii (P := fun c => isSpace c = true →
      isPlain c = true ∨ isBlank c = true ∨ c = '\n') (by decide) hc
  · exact Or.inl (isPlain_of_not_ascii (not_lt.mp hc))

/-! ## Setting a property -/

theorem checkProperty_ok {dataset prop : Str} {value : Option Str} {d p v : Str}
    (h : checkProperty dataset prop value = .ok (d, p, v)) :
    matchesZfsName d = true ∧ matchesZfsProp p = true ∧ matchesZfsValue v = true := by
  unfold checkProperty at h
  split at h
  · cases h
  · next hd =>
    split at h
    · cases h
    · next hp =>
      cases hv : validateZfsValue value with
      | error e =>
        rw [hv] at h
        cases h
      | ok v' =>
        rw [hv] at h
        cases h
        obtain ⟨_, -, -, hvalue⟩ := validateZfsValue_ok hv
        exact ⟨matchesZfsName_of_ok hd, (validateZfsProperty_ok hp).2, hvalue⟩

theorem isZfsPropChar_of_lower {c : Char} (h : isAsciiLower c = true) : isZfsPropChar c = true := by
  rw [isZfsPropChar, h, Bool.true_or, Bool.true_or]

theorem plain_of_matchesZfsName {d : Str} (h : matchesZfsName d = true) :
    d ≠ [] ∧ ∀ c ∈ d, isPlain c = true := by
  cases d with
  | nil => cases h
  | cons c d =>
    simp only [matchesZfsName, Bool.and_eq_true, List.all_eq_true] at h
    refine ⟨List.cons_ne_nil c d, List.forall_mem_cons.mpr ⟨?_, ?_⟩⟩
    · exact isPlain_of_isZfsNameChar (by rw [isZfsNameChar, h.1, Bool.true_or])
    · exact fun e he => isPlain_of_isZfsNameChar (h.2 e he)

/-- A property name is plain, and it starts with no whitespace. -/
theorem plain_of_matchesZfsProp {p : Str} (h : matchesZfsProp p = true) :
    (∃ c w, p = c :: w ∧ isSpace c = false) ∧ ∀ c ∈ p, isPlain c = true := by
  cases p with
  | nil => cases h
  | cons c p =>
    simp only [matchesZfsProp, Bool.and_eq_true, List.all_eq_true] at h
    have halnum : isAsciiAlnum c = true := by
      rw [isAsciiAlnum, isAsciiAlpha, h.1, Bool.true_or, Bool.true_or]
    refine ⟨⟨c, p, rfl, isSpace_of_isAsciiAlnum halnum⟩, List.forall_mem_cons.mpr ⟨?_, ?_⟩⟩
    · exact isPlain_of_isZfsPropChar (isZfsPropChar_of_lower h.1)
    · exact fun e he => isPlain_of_isZfsPropChar (h.2 e he)

/-- Blanks before a plain word are passed over. -/
theorem dropWhile_blanks {a w s : Str} (ha : AllBlank a) (hw : ∀ c ∈ w, isPlain c = true)
    (hne : w ≠ []) : (a ++ (w ++ s)).dropWhile isBlank = w ++ s := by
  cases w with
  | nil => exact absurd rfl hne
  | cons c w =>
    have hblank : ¬ isBlank c = true := by
      intro hblank
      have hplain := hw c List.mem_cons_self
      rw [not_plain_of_blank hblank] at hplain
      cases hplain
    rw [List.dropWhile_append_of_pos ha, List.cons_append, List.dropWhile_cons_of_neg hblank]

/-- A value is plain but for its spaces, and it starts with none. -/
theorem chars_of_matchesZfsValue {v : Str} (h : matchesZfsValue v = true) :
    (∃ c w, v = c :: w ∧ isPlain c = true ∧ isSpace c = false) ∧
      ∀ c ∈ v, c ≠ ' ' → isPlain c = true := by
  cases v with
  | nil => cases h
  | cons c v =>
    simp only [matchesZfsValue, Bool.and_eq_true, List.all_eq_true] at h
    have hname : isZfsNameChar c = true := by rw [isZfsNameChar, h.1, Bool.true_or]
    refine ⟨⟨c, v, rfl, isPlain_of_isZfsNameChar hname, isSpace_of_isAsciiAlnum h.1⟩, ?_⟩
    refine List.forall_mem_cons.mpr ⟨fun _ => isPlain_of_isZfsNameChar hname, ?_⟩
    exact fun e he hne => isPlain_of_isZfsValueChar (h.2 e he) hne

theorem forall_mem_takeWhile {q : Char → Bool} {s w t : Str} (h : (w ++ s).takeWhile q = w ++ t) :
    ∀ c ∈ w, q c = true := by
  intro c hc
  have hmem : c ∈ (w ++ s).takeWhile q := by
    rw [h]
    exact List.mem_append_left t hc
  exact List.mem_takeWhile_imp hmem

/-- The command line of `set_dataset_property` after `zfs set`. -/
theorem set_tokens_iff {d p v : Str} (hd : matchesZfsName d = true) (hp : matchesZfsProp p = true)
    (hv : matchesZfsValue v = true) :
    lex .plain none (p ++ '=' :: (v ++ ' ' :: d)) = some [.word (p ++ '=' :: v), .word d] ↔
      ' ' ∉ v := by
  obtain ⟨hdne, hdplain⟩ := plain_of_matchesZfsName hd
  obtain ⟨⟨z, p', hzp, -⟩, hpplain⟩ := plain_of_matchesZfsProp hp
  obtain ⟨-, hvplain⟩ := chars_of_matchesZfsValue hv
  have hassoc : p ++ '=' :: (v ++ ' ' :: d) = (p ++ '=' :: v) ++ ' ' :: d := by simp
  constructor
  · intro h hspace
    have hinert : Inert (p ++ '=' :: (v ++ ' ' :: d)) := by
      intro c hc
      simp only [List.mem_append, List.mem_cons] at hc
      rcases hc with hc | rfl | hc | rfl | hc
      · exact Or.inl (hpplain c hc)
      · exact Or.inl (by decide)
      · by_cases hne : c = ' '
        · subst hne
          exact Or.inr (Or.inl (by decide))
        · exact Or.inl (hvplain c hc hne)
      · exact Or.inr (Or.inl (by decide))
      · exact Or.inl (hdplain c hc)
    obtain ⟨hword, -⟩ := lex_next hinert h
    have hstart := dropWhile_blanks (a := []) (s := '=' :: (v ++ ' ' :: d))
      (fun c hc => absurd hc List.not_mem_nil) hpplain (by simp [hzp])
    rw [List.nil_append] at hstart
    rw [hstart, hassoc] at hword
    have hall := forall_mem_takeWhile (t := []) (by rw [hword, List.append_nil]) ' '
      (List.mem_append_right _ (List.mem_cons_of_mem _ hspace))
    revert hall
    decide
  · intro hspace
    have hplain : ∀ c ∈ p ++ '=' :: v, isPlain c = true := by
      intro c hc
      simp only [List.mem_append, List.mem_cons] at hc
      rcases hc with hc | rfl | hc
      · exact hpplain c hc
      · decide
      · exact hvplain c hc (fun heq => hspace (heq ▸ hc))
    have hlast : lex .plain none d = some [.word d] := by
      have h := lex_last (b := []) hdplain hdne (by simp)
      rwa [List.append_nil] at h
    rw [hassoc, lex_word hplain (by simp) (by decide), hlast]
    rfl

/-! ## One option -/

/-- Whitespace in front of a word that starts with none is blank. -/
theorem blank_of_next {a s w : Str} {y : Char} (ha : ∀ c ∈ a, isSpace c = true)
    (hy : isSpace y = false)
    (h : ((a ++ s).dropWhile isBlank).takeWhile isPlain = y :: w) : AllBlank a := by
  induction a with
  | nil =>
    intro c hc
    cases hc
  | cons x a ih =>
    have hspace := ha x List.mem_cons_self
    by_cases hblank : isBlank x = true
    · rw [List.cons_append, List.dropWhile_cons_of_pos hblank] at h
      exact List.forall_mem_cons.mpr ⟨hblank, ih (fun c hc => ha c (List.mem_cons_of_mem _ hc)) h⟩
    · rw [List.cons_append, List.dropWhile_cons_of_neg hblank] at h
      by_cases hplain : isPlain x = true
      · rw [List.takeWhile_cons_of_pos hplain] at h
        rw [(List.cons.inj h).1, hy] at hspace
        cases hspace
      · rw [List.takeWhile_cons_of_neg hplain] at h
        cases h

/-- A word goes on with `y`, so no whitespace stands in between. -/
theorem nil_of_goes_on {b s t : Str} {y : Char} (hb : ∀ c ∈ b, isSpace c = true)
    (hy : isSpace y = false) (h : (b ++ s).takeWhile isPlain = y :: t) : b = [] := by
  cases b with
  | nil => rfl
  | cons x b =>
    have hspace := hb x List.mem_cons_self
    by_cases hplain : isPlain x = true
    · rw [List.cons_append, List.takeWhile_cons_of_pos hplain] at h
      rw [(List.cons.inj h).1, hy] at hspace
      cases hspace
    · rw [List.cons_append, List.takeWhile_cons_of_neg hplain] at h
      cases h

/-- Plain text is passed over as part of a word. -/
theorem goes_on {w s t : Str} (hw : ∀ c ∈ w, isPlain c = true)
    (h : (w ++ s).takeWhile isPlain = w ++ t) : s.takeWhile isPlain = t := by
  rw [List.takeWhile_append_of_pos hw] at h
  exact List.append_cancel_left h

/-- The tokens from here on start with a word that has no whitespace in
front. -/
def StartsWord (ts : List Token) : Prop :=
  ∃ y w ts', ts = .word (y :: w) :: ts' ∧ isSpace y = false

/-- The option is read as it was meant when it is clean, and then the rest is
read alone. -/
theorem option_tokens_iff {k v T : Str} {ts : List Token} (hk : matchesZfsProp (strip k) = true)
    (hv : matchesZfsValue (strip v) = true) (hT : Inert (' ' :: T)) (hts : StartsWord ts) :
    lex .plain none (k ++ '=' :: (v ++ ' ' :: T)) = some (.word (strip k ++ '=' :: strip v) :: ts) ↔
      CleanOption (k, some v) ∧ lex .plain none (' ' :: T) = some ts := by
  obtain ⟨⟨z, k₁, hzk, hzspace⟩, hkplain⟩ := plain_of_matchesZfsProp hk
  obtain ⟨⟨y, w, hyw, hyplain, hyspace⟩, hvplain⟩ := chars_of_matchesZfsValue hv
  constructor
  · intro h
    obtain ⟨a, b, ha, hb, hkparts⟩ := exists_strip k
    obtain ⟨c, d, hc, hd, hvparts⟩ := exists_strip v
    have htext : k ++ '=' :: (v ++ ' ' :: T) =
        a ++ (strip k ++ (b ++ '=' :: (c ++ (strip v ++ (d ++ ' ' :: T))))) := by
      conv_lhs => rw [hkparts, hvparts]
      simp
    have hinert : Inert (k ++ '=' :: (v ++ ' ' :: T)) := by
      intro x hx
      rw [htext] at hx
      simp only [List.mem_append, List.mem_cons] at hx
      rcases hx with hx | hx | hx | rfl | hx | hx | hx | hx
      · exact inert_of_isSpace (ha x hx)
      · exact Or.inl (hkplain x hx)
      · exact inert_of_isSpace (hb x hx)
      · exact Or.inl (by decide)
      · exact inert_of_isSpace (hc x hx)
      · by_cases hne : x = ' '
        · subst hne
          exact Or.inr (Or.inl (by decide))
        · exact Or.inl (hvplain x hx hne)
      · exact inert_of_isSpace (hd x hx)
      · exact hT x (by simpa using hx)
    have hrestInert : Inert (d ++ ' ' :: T) := by
      intro x hx
      exact hinert x (by rw [htext]; simp only [List.mem_append, List.mem_cons] at hx ⊢; tauto)
    obtain ⟨hword, hafter⟩ := lex_next hinert h
    rw [htext] at hword hafter
    have hablank : AllBlank a := by
      rw [hzk, List.cons_append] at hword
      exact blank_of_next ha hzspace hword
    rw [dropWhile_blanks hablank hkplain (by simp [hzk])] at hword hafter
    have hequal := goes_on hkplain hword
    obtain rfl := nil_of_goes_on hb (by decide) hequal
    have hvalue : (c ++ (strip v ++ (d ++ ' ' :: T))).takeWhile isPlain = strip v :=
      goes_on (w := ['=']) (by decide) hequal
    obtain rfl : c = [] := by
      rw [hyw] at hvalue
      exact nil_of_goes_on hc hyspace hvalue
    simp only [List.nil_append] at hvalue hafter
    have hvall := forall_mem_takeWhile (t := []) (by rw [hvalue, List.append_nil])
    have hend : (d ++ ' ' :: T).takeWhile isPlain = [] :=
      goes_on hvall (by rw [hvalue, List.append_nil])
    have hleft : (strip k ++ '=' :: (strip v ++ (d ++ ' ' :: T))).dropWhile isPlain =
        d ++ ' ' :: T := by
      rw [List.dropWhile_append_of_pos hkplain,
        List.dropWhile_cons_of_pos (by decide), List.dropWhile_append_of_pos hvall]
      have hsplit := List.takeWhile_append_dropWhile (p := isPlain) (l := d ++ ' ' :: T)
      rwa [hend, List.nil_append] at hsplit
    rw [hleft] at hafter
    obtain ⟨y', w', ts', rfl, hy'⟩ := hts
    have hdblank : AllBlank d := blank_of_next hd hy' (lex_next hrestInert hafter).1
    rw [lex_skip hdblank] at hafter
    refine ⟨⟨⟨a, hablank, by simpa using hkparts⟩, ⟨d, hdblank, by simpa using hvparts⟩, ?_⟩,
      hafter⟩
    intro hspace
    have hplain := hvall ' ' hspace
    revert hplain
    decide
  · rintro ⟨⟨⟨front, hfront, hkfront⟩, ⟨back, hback, hvback⟩, hspace⟩, hrest⟩
    dsimp only [Option.getD_some] at hkfront hvback hspace
    have hplain : ∀ x ∈ strip k ++ '=' :: strip v, isPlain x = true := by
      intro x hx
      simp only [List.mem_append, List.mem_cons] at hx
      rcases hx with hx | rfl | hx
      · exact hkplain x hx
      · decide
      · exact hvplain x hx (fun heq => hspace (heq ▸ hx))
    have htext : k ++ '=' :: (v ++ ' ' :: T) =
        front ++ ((strip k ++ '=' :: strip v) ++ (back ++ ' ' :: T)) := by
      conv_lhs => rw [hkfront, hvback]
      simp
    rw [htext, lex_skip hfront, lex_start hplain (by simp), lex_end_skip hback (by decide), hrest]
    rfl

/-! ## Creating a dataset -/

theorem checkOptions_ok {options : List ZfsOption} (h : checkOptions options = .ok ()) :
    ∀ o ∈ options, matchesZfsProp (strip o.1) = true ∧
      ∃ v, o.2 = some v ∧ matchesZfsValue (strip v) = true := by
  induction options with
  | nil =>
    intro o ho
    cases ho
  | cons o options ih =>
    obtain ⟨k, value⟩ := o
    simp only [checkOptions] at h
    split at h
    · cases h
    · next hk =>
      split at h
      · cases h
      · next hv =>
        obtain ⟨rfl, hprop⟩ := validateZfsProperty_ok hk
        obtain ⟨v, rfl, rfl, hvalue⟩ := validateZfsValue_ok hv
        exact List.forall_mem_cons.mpr ⟨⟨hprop, v, rfl, hvalue⟩, ih h⟩

theorem createTail_blank (name : Str) (options : List ZfsOption) :
    ∃ s, createTail name options = ' ' :: s := by
  cases options with
  | nil => exact ⟨_, rfl⟩
  | cons o options => exact ⟨_, rfl⟩

theorem inert_createTail {name : Str} {options : List ZfsOption}
    (hname : ∀ c ∈ name, isPlain c = true)
    (hoptions : ∀ o ∈ options, matchesZfsProp (strip o.1) = true ∧
      ∃ v, o.2 = some v ∧ matchesZfsValue (strip v) = true) : Inert (createTail name options) := by
  induction options with
  | nil =>
    intro c hc
    rcases List.mem_cons.mp hc with rfl | hc
    · exact Or.inr (Or.inl (by decide))
    · exact Or.inl (hname c hc)
  | cons o options ih =>
    obtain ⟨k, value⟩ := o
    obtain ⟨hprop, v, rfl, hvalue⟩ := hoptions _ List.mem_cons_self
    have hrest := ih (fun o ho => hoptions o (List.mem_cons_of_mem _ ho))
    have hstripped : ∀ s : Str, (∀ c ∈ strip s, isPlain c = true ∨ isBlank c = true ∨ c = '\n') →
        Inert s := by
      intro s hs c hc
      obtain ⟨a, b, ha, hb, hparts⟩ := exists_strip s
      rw [hparts, List.mem_append, List.mem_append] at hc
      rcases hc with hc | hc | hc
      · exact inert_of_isSpace (ha c hc)
      · exact hs c hc
      · exact inert_of_isSpace (hb c hc)
    have hk : Inert k := hstripped k (fun c hc => Or.inl ((plain_of_matchesZfsProp hprop).2 c hc))
    have hv : Inert v := by
      refine hstripped v (fun c hc => ?_)
      by_cases hne : c = ' '
      · subst hne
        exact Or.inr (Or.inl (by decide))
      · exact Or.inl ((chars_of_matchesZfsValue hvalue).2 c hc hne)
    have hdash : Inert " -o " := by
      intro c hc
      revert c
      decide
    intro c hc
    simp only [createTail, optionText, Option.getD_some, List.mem_append, List.mem_cons] at hc
    rcases hc with hc | (hc | rfl | hc) | hc
    · exact hdash c hc
    · exact hk c hc
    · exact Or.inl (by decide)
    · exact hv c hc
    · exact hrest c hc

theorem startsWord_createArgs {name : Str} (hname : matchesZfsName name = true)
    (options : List ZfsOption) : StartsWord ((createArgs name options).map .word) := by
  cases options with
  | nil =>
    cases name with
    | nil => cases hname
    | cons c name =>
      simp only [matchesZfsName, Bool.and_eq_true] at hname
      exact ⟨c, name, [], rfl, isSpace_of_isAsciiAlnum hname.1⟩
  | cons o options => exact ⟨'-', "o", _, rfl, by decide⟩

/-- The command line of `create_dataset` after `zfs create`. -/
theorem create_tokens_iff {name : Str} {options : List ZfsOption}
    (hname : matchesZfsName name = true)
    (hoptions : ∀ o ∈ options, matchesZfsProp (strip o.1) = true ∧
      ∃ v, o.2 = some v ∧ matchesZfsValue (strip v) = true) :
    lex .plain none (createTail name options) = some ((createArgs name options).map .word) ↔
      ∀ o ∈ options, CleanOption o := by
  induction options with
  | nil =>
    obtain ⟨hne, hplain⟩ := plain_of_matchesZfsName hname
    have hlex : lex .plain none (' ' :: name) = some [.word name] := by
      have hword := lex_start (s := []) hplain hne
      rw [List.append_nil] at hword
      rw [lex_blank (by decide), hword]
      rfl
    simpa [createTail, createArgs] using hlex
  | cons o options ih =>
    obtain ⟨k, value⟩ := o
    obtain ⟨hprop, v, rfl, hvalue⟩ := hoptions _ List.mem_cons_self
    have hrest : ∀ o ∈ options, _ := fun o ho => hoptions o (List.mem_cons_of_mem _ ho)
    obtain ⟨T, hT⟩ := createTail_blank name options
    have hinert := inert_createTail (plain_of_matchesZfsName hname).2 hrest
    have htail : createTail name ((k, some v) :: options) =
        ' ' :: ("-o" ++ ' ' :: (k ++ '=' :: (v ++ ' ' :: T))) := by
      rw [createTail, hT, optionText]
      simp
    rw [hT] at hinert ih
    rw [htail, lex_blank (by decide), lex_word (by decide) (by decide) (by decide),
      List.forall_mem_cons, ← ih hrest,
      ← option_tokens_iff hprop hvalue hinert (startsWord_createArgs hname options)]
    simp [createArgs, optionWord, flush]

/-! ## The two functions -/

/-- A function that sends one command line. -/
theorem splitsAs_issue {host : Host} {text : Str} {argv : List Str} :
    SplitsAs (Prog.issue (host, text)) argv ↔ tokens text = some (argv.map .word) := by
  constructor
  · intro h
    exact h _ _ (Prog.run_ask.mpr ⟨⟨true, [], []⟩, [], rfl, rfl, rfl⟩) _ List.mem_cons_self
  · intro h log o hrun entry hentry
    obtain ⟨a, log, rfl, hret⟩ := Prog.run_ask.mp hrun
    obtain ⟨rfl, -⟩ := Prog.run_ret.mp hret
    rw [List.mem_singleton.mp hentry]
    exact h

theorem set_splits_iff {host : Host} {dataset prop d p v : Str} {value : Option Str}
    (h : checkProperty dataset prop value = .ok (d, p, v)) :
    SplitsAs (setDatasetProperty host dataset prop value) ["zfs", "set", p ++ '=' :: v, d] ↔
      ' ' ∉ v := by
  obtain ⟨hd, hp, hv⟩ := checkProperty_ok h
  unfold setDatasetProperty
  rw [h]
  dsimp only
  rw [splitsAs_issue, ← set_tokens_iff hd hp hv, tokens]
  have hfront : ("zfs set " : Str) = "zfs" ++ ' ' :: ("set" ++ [' ']) := by decide
  rw [hfront, List.append_assoc, List.cons_append, List.append_assoc, List.singleton_append,
    lex_word (by decide) (by decide) (by decide), lex_word (by decide) (by decide) (by decide)]
  simp

theorem create_splits_iff {host : Host} {name n : Str} {options : List ZfsOption}
    (hname : validateDatasetName name = .ok n) (hoptions : checkOptions options = .ok ()) :
    SplitsAs (createDataset host name options) ("zfs" :: "create" :: createArgs n options) ↔
      ∀ o ∈ options, CleanOption o := by
  unfold createDataset
  rw [hname]
  dsimp only
  rw [hoptions]
  dsimp only
  rw [splitsAs_issue, ← create_tokens_iff (matchesZfsName_of_ok hname) (checkOptions_ok hoptions),
    tokens]
  obtain ⟨T, hT⟩ := createTail_blank n options
  have hfront : ("zfs create" : Str) = "zfs" ++ ' ' :: "create" := by decide
  rw [hT, hfront, List.append_assoc, List.cons_append,
    lex_word (by decide) (by decide) (by decide), lex_word (by decide) (by decide) (by decide),
    lex_blank (by decide)]
  simp [flush]

/-- The shell reads the words that `set_dataset_property` means exactly when
the value has no space in it, and those that `create_dataset` means exactly
when each option is clean. -/
theorem dataset_argv_iff (host : Host) :
    (∀ dataset prop value d p v, checkProperty dataset prop value = .ok (d, p, v) →
      (SplitsAs (setDatasetProperty host dataset prop value) ["zfs", "set", p ++ '=' :: v, d] ↔
        ' ' ∉ v)) ∧
    ∀ name options n, validateDatasetName name = .ok n → checkOptions options = .ok () →
      (SplitsAs (createDataset host name options) ("zfs" :: "create" :: createArgs n options) ↔
        ∀ o ∈ options, CleanOption o) :=
  ⟨fun _ _ _ _ _ _ h => set_splits_iff h, fun _ _ _ hname hoptions =>
    create_splits_iff hname hoptions⟩

def node : Host := ⟨"10.0.0.5", "root", 22⟩

theorem dataset_argv_plain :
    SplitsAs (setDatasetProperty node "tank/x" "readonly" (some "off"))
        ["zfs", "set", "readonly=off", "tank/x"] ∧
      SplitsAs (createDataset node "tank/x" [("readonly", some "off")])
        ["zfs", "create", "-o", "readonly=off", "tank/x"] := by
  refine ⟨((dataset_argv_iff node).1 "tank/x" "readonly" (some "off") "tank/x" "readonly" "off"
      rfl).mpr (by decide),
    ((dataset_argv_iff node).2 _ _ _ rfl rfl).mpr ?_⟩
  intro o ho
  rw [List.mem_singleton.mp ho]
  have hnone : AllBlank [] := fun c hc => absurd hc List.not_mem_nil
  exact ⟨⟨[], hnone, rfl⟩, ⟨[], hnone, rfl⟩, by decide⟩

/-- A value with a space names a second dataset, and an option with a line
break starts a second command. -/
theorem dataset_argv_broken :
    (checkProperty "tank/x" "readonly" (some "off tank/secure") =
        .ok ("tank/x", "readonly", "off tank/secure") ∧
      ¬ SplitsAs (setDatasetProperty node "tank/x" "readonly" (some "off tank/secure"))
        ["zfs", "set", "readonly=off tank/secure", "tank/x"]) ∧
    (checkOptions [("readonly", some "off\n")] = .ok () ∧
      ¬ SplitsAs (createDataset node "tank/x" [("readonly", some "off\n")])
        ["zfs", "create", "-o", "readonly=off", "tank/x"]) := by
  refine ⟨⟨rfl, ?_⟩, rfl, ?_⟩
  · intro h
    have htokens := splitsAs_issue.mp h
    revert htokens
    decide
  · intro h
    have htokens := splitsAs_issue.mp h
    revert htokens
    decide

end PveZfsTool
