import PveZfsTool.Lib.Strip
import PveZfsTool.Lib.Words

/-!
# The text format of metrics

A payload is a list of lines.  Those that are empty or start with `#` are passed
over, and each of the others is a sample: the metric, its labels in braces, and
the value.  The values of the labels are quoted, and in them a backslash stands
before a backslash, a quote and the `n` of a newline.

The reader takes a payload that any escape has written whose texts it can read
back (`Undoes`).

* `readLabels_join`: the labels of a line.
* `readSample_line`: a line.
* `parse_lines`: a payload.
-/

namespace Exposition

open Text

/-- A sample.  The value is the text of a number. -/
structure SampleLine where
  metric : Str
  labels : List (Str × Str)
  value : Str
  deriving DecidableEq

/-- The samples are of one series: they have the metric and the set of labels
in common. -/
def SampleLine.SameSeries (s t : SampleLine) : Prop :=
  s.metric = t.metric ∧ ∀ p, p ∈ s.labels ↔ p ∈ t.labels

/-! ## The reader -/

/-- `[a-zA-Z0-9_:]` -/
def isMetricChar (c : Char) : Bool := isWord c || c == ':'

/-- A name does not start with a digit. -/
def readName (p : Char → Bool) : Str → Option (Str × Str)
  | [] => none
  | c :: s =>
      if isAsciiDigit c || !p c then none else some ((c :: s).takeWhile p, (c :: s).dropWhile p)

/-- What stands up to the quote that ends a value. -/
def readValue : Str → Option (Str × Str)
  | '"' :: s => some ([], s)
  | '\\' :: '\\' :: s => (readValue s).map fun (v, rest) => ('\\' :: v, rest)
  | '\\' :: '"' :: s => (readValue s).map fun (v, rest) => ('"' :: v, rest)
  | '\\' :: 'n' :: s => (readValue s).map fun (v, rest) => ('\n' :: v, rest)
  | '\\' :: _ => none
  | c :: s => (readValue s).map fun (v, rest) => (c :: v, rest)
  | [] => none

/-- The labels behind the open brace.  Each takes one of the `fuel`. -/
def readLabels : Nat → Str → Option (List (Str × Str) × Str)
  | 0, _ => none
  | _ + 1, '\x7d' :: s => some ([], s)
  | fuel + 1, s =>
      match readName isWord s with
      | some (name, '=' :: '"' :: s) =>
          match readValue s with
          | some (value, ',' :: s) =>
              (readLabels fuel s).map fun (labels, rest) => ((name, value) :: labels, rest)
          | some (value, '\x7d' :: s) => some ([(name, value)], s)
          | _ => none
      | _ => none

/-- The value behind the blanks, and perhaps a timestamp behind it. -/
def readNumber (s : Str) : Option Str :=
  match splitWords s with
  | [value] | [value, _] => some value
  | _ => none

def readSample (line : Str) : Option SampleLine :=
  match readName isMetricChar line with
  | some (metric, '\x7b' :: s) =>
      match readLabels (s.length + 1) s with
      | some (labels, s) => (readNumber s).map (SampleLine.mk metric labels)
      | none => none
  | some (metric, ' ' :: s) => (readNumber s).map (SampleLine.mk metric [])
  | _ => none

/-- An empty line or a comment. -/
def isSkipped (line : Str) : Bool :=
  match lstrip line with
  | [] => true
  | c :: _ => c == '#'

def parse (payload : Str) : Option (List SampleLine) :=
  ((splitOn '\n' payload).filter (fun line => !isSkipped line)).mapM readSample

/-! ## Names -/

/-- A name of characters that the reader takes. -/
structure IsName (p : Char → Bool) (s : Str) : Prop where
  first : s.head?.any (fun c => !isAsciiDigit c) = true
  chars : ∀ c ∈ s, p c = true

instance (p : Char → Bool) (s : Str) : Decidable (IsName p s) :=
  decidable_of_iff (s.head?.any (fun c => !isAsciiDigit c) = true ∧ ∀ c ∈ s, p c = true)
    ⟨fun h => ⟨h.1, h.2⟩, fun h => ⟨h.first, h.chars⟩⟩

section

variable {p : Char → Bool} {s rest : Str} {c : Char}

theorem IsName.exists_cons (h : IsName p s) : ∃ c t, s = c :: t ∧ isAsciiDigit c = false := by
  have hfirst := h.first
  cases s with
  | nil => cases hfirst
  | cons c t => exact ⟨c, t, rfl, by simpa using hfirst⟩

theorem readName_append (h : IsName p s) (hc : p c = false) :
    readName p (s ++ c :: rest) = some (s, c :: rest) := by
  obtain ⟨d, t, rfl, hdigit⟩ := h.exists_cons
  have hd := h.chars d List.mem_cons_self
  rw [List.cons_append, readName, hdigit, hd, ← List.cons_append,
    List.takeWhile_append_of_pos h.chars, List.dropWhile_append_of_pos h.chars,
    List.takeWhile_cons_of_neg (by rw [hc]; decide), List.dropWhile_cons_of_neg (by rw [hc]; decide),
    List.append_nil]
  rfl

theorem isSkipped_name (h : IsName isMetricChar s) : isSkipped (s ++ rest) = false := by
  obtain ⟨d, t, rfl, -⟩ := h.exists_cons
  have hd := h.chars d List.mem_cons_self
  have hascii : d.toNat < 128 := by
    have hothers : (['_', ':'] : Str).all (fun c => c.toNat < 128) = true := by decide
    refine toNat_lt_of_class hothers ?_
    simpa [isMetricChar, isWord, or_assoc] using hd
  have hspace : isSpace d = false ∧ (d == '#') = false := by
    revert hd
    exact of_ascii (P := fun d => isMetricChar d = true → isSpace d = false ∧ (d == '#') = false)
      (by decide) hascii
  rw [isSkipped, List.cons_append, lstrip, List.dropWhile_cons_of_neg (by rw [hspace.1]; decide)]
  exact hspace.2

end

/-! ## Lines -/

/-- The reader takes back what the escape has written between quotes. -/
def Undoes (esc : Str → Str) : Prop := ∀ v rest, readValue (esc v ++ '"' :: rest) = some (v, rest)

def labelText (esc : Str → Str) (p : Str × Str) : Str := p.1 ++ '=' :: '"' :: (esc p.2 ++ ['"'])

def lineText (esc : Str → Str) (s : SampleLine) : Str :=
  match s.labels with
  | [] => s.metric ++ ' ' :: s.value
  | _ :: _ => s.metric ++ '\x7b' :: (join [','] (s.labels.map (labelText esc)) ++ '\x7d' :: ' ' :: s.value)

/-- The names are names, and the value is a word. -/
structure SampleLine.IsPlain (s : SampleLine) : Prop where
  metric : IsName isMetricChar s.metric
  labels : ∀ p ∈ s.labels, IsName isWord p.1
  value : IsWordText s.value

/-- Labels with the same names in the same order are the same when they are so
as sets. -/
theorem eq_of_same_labels {a b : List (Str × Str)} (hnames : a.map Prod.fst = b.map Prod.fst)
    (hdistinct : (a.map Prod.fst).Nodup) (hsame : ∀ p, p ∈ a ↔ p ∈ b) : a = b := by
  induction a generalizing b with
  | nil => exact (List.map_eq_nil_iff.mp hnames.symm).symm
  | cons p a ih =>
    cases b with
    | nil => cases hnames
    | cons q b =>
      obtain ⟨hname, htail⟩ := List.cons.inj hnames
      obtain ⟨hfirst, hrest⟩ := List.nodup_cons.mp hdistinct
      have hnota : ∀ r ∈ a, r.1 ≠ p.1 := fun r hr heq => hfirst (heq ▸ List.mem_map_of_mem hr)
      have hnotb : ∀ r ∈ b, r.1 ≠ p.1 := by
        intro r hr heq
        refine hfirst ?_
        rw [htail, ← heq]
        exact List.mem_map_of_mem hr
      have hpq : p = q := by
        rcases List.mem_cons.mp ((hsame p).mp List.mem_cons_self) with heq | hmem
        · exact heq
        · exact absurd rfl (hnotb p hmem)
      subst hpq
      have hsame' : ∀ r, r ∈ a ↔ r ∈ b := by
        intro r
        constructor
        · intro hr
          refine (List.mem_cons.mp ((hsame r).mp (List.mem_cons_of_mem _ hr))).resolve_left ?_
          rintro rfl
          exact hnota r hr rfl
        · intro hr
          refine (List.mem_cons.mp ((hsame r).mpr (List.mem_cons_of_mem _ hr))).resolve_left ?_
          rintro rfl
          exact hnotb r hr rfl
      rw [ih htail hrest hsame']

section

variable {esc : Str → Str} {labels : List (Str × Str)} {s : SampleLine} {rest : Str}

theorem readLabels_name {fuel : Nat} {name text : Str} (h : IsName isWord name) :
    readLabels (fuel + 1) (name ++ '=' :: '"' :: text) =
      match readValue text with
      | some (value, ',' :: s) =>
          (readLabels fuel s).map fun (labels, rest) => ((name, value) :: labels, rest)
      | some (value, '\x7d' :: s) => some ([(name, value)], s)
      | _ => none := by
  have hread := @readName_append isWord name ('"' :: text) '=' h (by decide)
  obtain ⟨c, t, rfl, -⟩ := h.exists_cons
  have hc := h.chars c List.mem_cons_self
  have hbrace : c ≠ '\x7d' := by
    rintro rfl
    revert hc
    decide
  rw [readLabels, hread]
  · rfl
  · intro s heq
    exact hbrace (List.cons.inj heq).1

theorem readLabels_join (hesc : Undoes esc) (hnames : ∀ p ∈ labels, IsName isWord p.1)
    (hne : labels ≠ []) {fuel : Nat} (hfuel : labels.length ≤ fuel) :
    readLabels fuel (join [','] (labels.map (labelText esc)) ++ '\x7d' :: rest) =
      some (labels, rest) := by
  induction labels generalizing fuel with
  | nil => exact absurd rfl hne
  | cons p labels ih =>
    obtain ⟨name, value⟩ := p
    have hname := hnames _ List.mem_cons_self
    cases fuel with
    | zero => cases hfuel
    | succ fuel =>
      cases labels with
      | nil =>
        have htext : join [','] ([(name, value)].map (labelText esc)) ++ '\x7d' :: rest =
            name ++ '=' :: '"' :: (esc value ++ '"' :: '\x7d' :: rest) := by
          simp [join, labelText]
        rw [htext, readLabels_name hname, hesc]
        rfl
      | cons q labels =>
        have htext : join [','] (((name, value) :: q :: labels).map (labelText esc)) ++ '\x7d' :: rest =
            name ++ '=' :: '"' :: (esc value ++ '"' :: ',' ::
              (join [','] ((q :: labels).map (labelText esc)) ++ '\x7d' :: rest)) := by
          simp [join, labelText]
        have hrest := ih (fun r hr => hnames r (List.mem_cons_of_mem _ hr)) (List.cons_ne_nil _ _)
          (Nat.le_of_succ_le_succ hfuel)
        rw [htext, readLabels_name hname, hesc]
        simp only [hrest, Option.map_some]

theorem readNumber_word {value : Str} (h : IsWordText value) : readNumber (' ' :: value) = some value := by
  rw [readNumber, splitWords_cons_space (by decide), splitWords_self h]

theorem length_le_join (labels : List (Str × Str)) :
    labels.length ≤ (join [','] (labels.map (labelText esc))).length := by
  induction labels with
  | nil => exact Nat.zero_le _
  | cons p labels ih =>
    have hpos : 1 ≤ (labelText esc p).length := by
      simp only [labelText, List.length_append, List.length_cons]
      omega
    cases labels with
    | nil => exact hpos
    | cons q labels =>
      have hjoin : join [','] ((p :: q :: labels).map (labelText esc)) =
          labelText esc p ++ [','] ++ join [','] ((q :: labels).map (labelText esc)) := rfl
      rw [hjoin, List.length_append, List.length_append, List.length_cons]
      omega

/-- A line is read back. -/
theorem readSample_line (hesc : Undoes esc) (h : s.IsPlain) : readSample (lineText esc s) = some s := by
  obtain ⟨metric, labels, value⟩ := s
  unfold lineText readSample
  cases labels with
  | nil =>
    rw [readName_append h.metric (by decide)]
    have hvalue := readNumber_word h.value
    rw [readNumber, splitWords_cons_space (by decide)] at hvalue
    simp only [readNumber, hvalue, Option.map_some]
  | cons p labels =>
    rw [readName_append h.metric (by decide)]
    have hfuel : (p :: labels).length ≤
        (join [','] ((p :: labels).map (labelText esc)) ++ '\x7d' :: ' ' :: value).length + 1 := by
      have hjoin := @length_le_join esc (p :: labels)
      rw [List.length_append]
      omega
    have hlabels := @readLabels_join esc _ (' ' :: value) hesc h.labels (List.cons_ne_nil _ _) _ hfuel
    simp only [hlabels, readNumber_word h.value, Option.map_some]

/-! ## Payloads -/

/-- Comments, and samples behind them. -/
structure Block where
  comments : List Str
  samples : List SampleLine

def payload (esc : Str → Str) (blocks : List Block) : Str :=
  join ['\n'] (blocks.flatMap fun b => b.comments ++ b.samples.map (lineText esc)) ++ ['\n']

theorem mapM_readSample (hesc : Undoes esc) {samples : List SampleLine} (h : ∀ s ∈ samples, s.IsPlain) :
    (samples.map (lineText esc)).mapM readSample = some samples := by
  induction samples with
  | nil => rfl
  | cons s samples ih =>
    rw [List.map_cons, List.mapM_cons, readSample_line hesc (h s List.mem_cons_self),
      ih (fun t ht => h t (List.mem_cons_of_mem _ ht))]
    rfl

theorem isSkipped_line (h : s.IsPlain) : isSkipped (lineText esc s) = false := by
  unfold lineText
  split
  · exact isSkipped_name h.metric
  · exact isSkipped_name h.metric

theorem newline_not_mem_name {p : Char → Bool} {name : Str} (h : IsName p name) (hp : p '\n' = false) :
    '\n' ∉ name := by
  intro hmem
  rw [h.chars _ hmem] at hp
  cases hp

theorem newline_not_mem_line (hbreak : ∀ v, '\n' ∉ esc v) (h : s.IsPlain) : '\n' ∉ lineText esc s := by
  have hmetric := newline_not_mem_name h.metric (by decide)
  have hvalue : '\n' ∉ s.value := fun hmem => absurd (h.value.plain _ hmem) (by decide)
  have hlabel : ∀ p ∈ s.labels, '\n' ∉ labelText esc p := by
    intro p hp
    have hname := newline_not_mem_name (h.labels p hp) (by decide)
    simp [labelText, hname, hbreak]
  have hlabels : '\n' ∉ join [','] (s.labels.map (labelText esc)) := by
    intro hmem
    rcases mem_join hmem with hsep | ⟨l, hl, hmem⟩
    · exact absurd hsep (by decide)
    · obtain ⟨p, hp, rfl⟩ := List.mem_map.mp hl
      exact hlabel p hp hmem
  unfold lineText
  split
  · simp [hmetric, hvalue]
  · simp [hmetric, hvalue, hlabels]

/-- A payload is read back. -/
theorem parse_payload (hesc : Undoes esc) (hbreak : ∀ v, '\n' ∉ esc v) {blocks : List Block}
    (hcomments : ∀ b ∈ blocks, ∀ c ∈ b.comments, isSkipped c = true ∧ '\n' ∉ c)
    (hplain : ∀ b ∈ blocks, ∀ s ∈ b.samples, s.IsPlain)
    (hne : blocks.flatMap (fun b => b.comments ++ b.samples.map (lineText esc)) ≠ []) :
    parse (payload esc blocks) = some (blocks.flatMap Block.samples) := by
  have hlines : ∀ l ∈ blocks.flatMap (fun b => b.comments ++ b.samples.map (lineText esc)), '\n' ∉ l := by
    intro l hl
    obtain ⟨b, hb, hl⟩ := List.mem_flatMap.mp hl
    rcases List.mem_append.mp hl with hl | hl
    · exact (hcomments b hb l hl).2
    · obtain ⟨s, hs, rfl⟩ := List.mem_map.mp hl
      exact newline_not_mem_line hbreak (hplain b hb s hs)
  have hfilter : (blocks.flatMap (fun b => b.comments ++ b.samples.map (lineText esc))).filter
      (fun line => !isSkipped line) = (blocks.flatMap Block.samples).map (lineText esc) := by
    rw [List.filter_flatMap, List.map_flatMap]
    refine List.flatMap_congr fun b hb => ?_
    rw [List.filter_append, List.filter_eq_nil_iff.mpr, List.nil_append, List.filter_eq_self.mpr]
    · intro l hl
      obtain ⟨s, hs, rfl⟩ := List.mem_map.mp hl
      rw [isSkipped_line (hplain b hb s hs)]
      rfl
    · intro c hc
      rw [(hcomments b hb c hc).1]
      decide
  have hall : ∀ s ∈ blocks.flatMap Block.samples, s.IsPlain := by
    intro s hs
    obtain ⟨b, hb, hs⟩ := List.mem_flatMap.mp hs
    exact hplain b hb s hs
  rw [parse, payload, splitOn_append, splitOn_join hlines hne, List.filter_append, hfilter,
    show splitOn '\n' [] = [[]] from rfl]
  show ((blocks.flatMap Block.samples).map (lineText esc) ++ []).mapM readSample = _
  rw [List.append_nil]
  exact mapM_readSample hesc hall

end

end Exposition
