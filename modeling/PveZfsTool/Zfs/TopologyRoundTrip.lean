import PveZfsTool.Lib.LineFile
import PveZfsTool.Lib.Words
import PveZfsTool.Zfs.PoolTopology
import Mathlib.Algebra.GroupWithZero.Nat

/-!
# Reading back a device tree

`PoolStatus` of this file is what `zpool status` knows of one pool, and
`StatusTree.text` prints it: a tab and two spaces for each level, the headers
of the auxiliary tiers at the level of the pool.

The parser looks for its keywords before it looks at the level, so a device
or a pool that is called like one is taken for it.  `topology_recovered_iff`
says that nothing else keeps it from reading the tree back.

* `foldl_vdev`, `foldl_groups`: what the lines of a part do to the parser.
* `weight_lines`: the parser finds no more devices than there are rows that
  it takes for devices.
-/

namespace PveZfsTool

open Text

/-! ## The tree -/

/-- A name of a pool or a device. -/
structure VdevName where
  text : Str
  isWord : IsWordText text

/-- What stands in a row after the name: the state, and the counters with a
note behind them. -/
structure Columns where
  gap : Nat
  state : Str
  counters : Str
  known : state ∈ vdevStates
  apart : counters.head?.all isSpace = true
  noBreak : NoBreak counters

/-- A member of a container.  `replacing` and `spare` have members
themselves. -/
inductive Device where
  | mk (name : VdevName) (columns : Columns) (members : List Device)

/-- The containers that survive the loss of a device. -/
inductive Container where
  | mirror (index : Option Nat)
  | raidz (parity : Option (Fin 3)) (index : Option Nat)
  | draid (layout : Str) (plain : ∀ c ∈ layout, isSpace c = false)

/-- A vdev directly under the pool or under a header. -/
inductive TopVdev where
  | bare (name : VdevName) (columns : Columns) (isDevice : redundancy name.text = .none)
      (notHeading : name.text ≠ "NAME")
  | container (kind : Container) (columns : Columns) (members : List Device)

/-- The tiers with a header. -/
inductive AuxTier where
  | log
  | cache
  | special
  | dedup
  | spare

/-- The vdevs of an auxiliary tier.  Some versions print a tab after the
header. -/
structure AuxGroup where
  tier : AuxTier
  trail : Str
  vdevs : List TopVdev
  blank : ∀ c ∈ trail, c = ' ' ∨ c = '\t'

/-- What `zpool status` prints about a pool.  A pool has a vdev, and none of
the lines before the tree is like a pool's or the one that starts the tree. -/
structure StatusTree where
  pool : VdevName
  columns : Columns
  first : TopVdev
  others : List TopVdev
  groups : List AuxGroup
  preamble : List Str
  headingGap : Nat
  message : Str
  preambleLines : ∀ l ∈ preamble, NoBreak l ∧ poolHeader l = none ∧ isConfigLine l = false
  messageLine : NoBreak message

/-! ## What it holds -/

mutual

/-- The names in a subtree, from the top. -/
def Device.names : Device → List Str
  | .mk name _ members => name.text :: namesOf members

def namesOf : List Device → List Str
  | [] => []
  | d :: ds => d.names ++ namesOf ds

end

namespace Container

def indexText : Option Nat → Str
  | none => []
  | some n => '-' :: ofNat n

def parityDigit : Fin 3 → Char
  | 0 => '1'
  | 1 => '2'
  | 2 => '3'

def parityText (parity : Option (Fin 3)) : Str := parity.toList.map parityDigit

def text : Container → Str
  | .mirror index => "mirror" ++ indexText index
  | .raidz parity index => "raidz" ++ (parityText parity ++ indexText index)
  | .draid layout _ => "draid" ++ layout

/-- A single parity need not be written. -/
def redundancy : Container → Redundancy
  | .mirror _ => .mirror
  | .raidz parity _ => .raidz (parity.elim '1' parityDigit)
  | .draid .. => .draid

end Container

namespace TopVdev

def name : TopVdev → Str
  | .bare name .. => name.text
  | .container kind .. => kind.text

def names : TopVdev → List Str
  | .bare name .. => [name.text]
  | .container kind _ members => kind.text :: namesOf members

/-- What the parser should make of it. -/
def vdev (tier : Tier) : TopVdev → Vdev
  | .bare name columns .. => ⟨tier, name.text, .none, columns.state, [name.text]⟩
  | .container kind columns members =>
      ⟨tier, kind.text, kind.redundancy, columns.state, namesOf members⟩

def isBare : TopVdev → Bool
  | .bare .. => true
  | .container .. => false

end TopVdev

namespace AuxTier

def header : AuxTier → Str
  | .log => "logs"
  | .cache => "cache"
  | .special => "special"
  | .dedup => "dedup"
  | .spare => "spares"

def tier : AuxTier → Tier
  | .log => .log
  | .cache => .cache
  | .special => .special
  | .dedup => .dedup
  | .spare => .spare

/-- What the loss of a vdev without redundancy costs. -/
def loss : AuxTier → Option (FindingSeverity × LossReason)
  | .log => some (.warn, .syncWrites)
  | .cache => none
  | .special => some (.crit, .poolLoss)
  | .dedup => some (.crit, .poolLoss)
  | .spare => none

end AuxTier

namespace StatusTree

def data (s : StatusTree) : List TopVdev := s.first :: s.others

def names (s : StatusTree) : List Str :=
  s.pool.text :: (s.data.flatMap TopVdev.names ++
    s.groups.flatMap (fun g => g.vdevs.flatMap TopVdev.names))

def vdevs (s : StatusTree) : List Vdev :=
  s.data.map (TopVdev.vdev .data) ++
    s.groups.flatMap (fun g => g.vdevs.map (TopVdev.vdev g.tier.tier))

/-- The vdevs without redundancy whose loss costs something. -/
def findings (s : StatusTree) : List Finding :=
  (s.data.filter TopVdev.isBare).map
      (fun v => ⟨s.pool.text, v.name, .data, .crit, .poolLoss⟩) ++
    s.groups.flatMap fun g =>
      (g.vdevs.filter TopVdev.isBare).filterMap fun v =>
        g.tier.loss.map fun (severity, reason) =>
          ⟨s.pool.text, v.name, g.tier.tier, severity, reason⟩

end StatusTree

/-! ## How it is printed -/

def Columns.text (c : Columns) : Str :=
  ' ' :: (List.replicate c.gap ' ' ++ (c.state ++ c.counters))

/-- A row of the device tree. -/
def rowLine (depth : Nat) (name : Str) (columns : Columns) : Str :=
  '\t' :: (List.replicate (2 * depth) ' ' ++ (name ++ columns.text))

mutual

/-- The rows of a subtree. -/
def Device.lines (depth : Nat) : Device → List Str
  | .mk name columns members => rowLine depth name.text columns :: linesOf (depth + 1) members

def linesOf (depth : Nat) : List Device → List Str
  | [] => []
  | d :: ds => d.lines depth ++ linesOf depth ds

end

def TopVdev.lines : TopVdev → List Str
  | .bare name columns .. => [rowLine 1 name.text columns]
  | .container kind columns members => rowLine 1 kind.text columns :: linesOf 2 members

def headerLine (t : AuxTier) (trail : Str) : Str := '\t' :: (t.header ++ trail)

def AuxGroup.lines (g : AuxGroup) : List Str :=
  headerLine g.tier g.trail :: g.vdevs.flatMap TopVdev.lines

namespace StatusTree

/-- The rows below the pool's own. -/
def treeLines (s : StatusTree) : List Str :=
  s.data.flatMap TopVdev.lines ++ s.groups.flatMap AuxGroup.lines

def headingLine (s : StatusTree) : Str :=
  '\t' :: (("NAME" : Str) ++ ' ' :: (List.replicate s.headingGap ' ' ++
    ("STATE     READ WRITE CKSUM" : Str)))

def lines (s : StatusTree) : List Str :=
  (("  pool: " : Str) ++ s.pool.text) :: s.preamble ++
    (("config:" : Str) :: [] :: s.headingLine :: rowLine 0 s.pool.text s.columns :: s.treeLines ++
      [[], ("errors: " : Str) ++ s.message])

def text (s : StatusTree) : Str := unlines s.lines

end StatusTree

/-- The topology of one pool. -/
def topologyOf (pool : Str) (vdevs : List Vdev) : Topology :=
  ⟨[(pool, vdevs)], List.nodup_singleton pool⟩

/-- The parser reads the tree back, and the findings are those of the tree. -/
def TopologyRecovered (s : StatusTree) : Prop :=
  parseTopology s.text = topologyOf s.pool.text s.vdevs ∧
    redundancyFindings (parseTopology s.text) = s.findings

/-- A name that no keyword of the parser is. -/
def IsPlainName (name : Str) : Prop :=
  name ≠ "NAME" ∧ ¬ ("pool:" : Str) <+: name ∧ ¬ ("errors:" : Str) <+: name

/-! ## Lines -/

section Rows

variable {w : Str} {depth : Nat} {c : Columns}

theorem stripped_row (hw : IsWordText w) : lstrip (rowLine depth w c) = w ++ c.text := by
  have hspaces : ∀ d ∈ '\t' :: List.replicate (2 * depth) ' ', isSpace d = true := by
    intro d hd
    rcases List.mem_cons.mp hd with rfl | hd
    · decide
    · rw [List.eq_of_mem_replicate hd]
      decide
  rw [rowLine, ← List.cons_append, lstrip_spaces _ hspaces, hw.lstrip_append]

theorem isWordText_of_known {state : Str} (h : state ∈ vdevStates) : IsWordText state := by
  have hall : vdevStates.all (fun s => !s.isEmpty && s.all (fun d => !isSpace d)) = true := by
    decide
  have hstate := List.all_eq_true.mp hall state h
  rw [Bool.and_eq_true, List.all_eq_true] at hstate
  exact ⟨by simpa using hstate.1, fun d hd => by simpa using hstate.2 d hd⟩

/-- The words of a row start with the name and the state. -/
theorem words_row (hw : IsWordText w) :
    splitWords (strip (rowLine depth w c)) = w :: c.state :: splitWords c.counters := by
  have hstate := isWordText_of_known c.known
  have hgap : ∀ d ∈ List.replicate c.gap ' ', isSpace d = true := by
    intro d hd
    rw [List.eq_of_mem_replicate hd]
    decide
  have hrest : splitWords (c.state ++ c.counters) = c.state :: splitWords c.counters := by
    cases hcounters : c.counters with
    | nil =>
      rw [List.append_nil, splitWords_self hstate]
      rfl
    | cons d rest =>
      have hd : isSpace d = true := by
        have hapart := c.apart
        rwa [hcounters] at hapart
      rw [splitWords_word hstate hd, splitWords_cons_space hd]
  rw [splitWords_strip, ← splitWords_lstrip, stripped_row hw, Columns.text, splitWords_word hw (by decide),
    splitWords_spaces hgap, hrest]

theorem indent_row (hw : IsWordText w) : indent (rowLine depth w c) = 4 + 2 * depth := by
  have hspaces : (List.replicate (2 * depth) ' ').flatMap
      (fun d => if d = '\t' then ("    " : Str) else [d]) = List.replicate (2 * depth) ' ' := by
    induction 2 * depth with
    | zero => rfl
    | succ n ih => rw [List.replicate_succ, List.flatMap_cons, ih]; rfl
  have hblank : ∀ d ∈ ("    " : Str) ++ List.replicate (2 * depth) ' ', decide (d = ' ') = true := by
    intro d hd
    rcases List.mem_append.mp hd with hd | hd
    · exact decide_eq_true (List.eq_of_mem_replicate (n := 4) hd)
    · exact decide_eq_true (List.eq_of_mem_replicate hd)
  cases w with
  | nil => exact absurd rfl hw.nonempty
  | cons d w =>
    have hplain := hw.plain d List.mem_cons_self
    have htab : d ≠ '\t' := by
      rintro rfl
      exact absurd hplain (by decide)
    have hspace : d ≠ ' ' := by
      rintro rfl
      exact absurd hplain (by decide)
    rw [indent, rowLine, List.flatMap_cons, if_pos rfl, List.flatMap_append, hspaces,
      List.cons_append, List.flatMap_cons, if_neg htab, List.cons_append, ← List.append_assoc,
      List.takeWhile_append_of_pos hblank, List.takeWhile_cons, if_neg (by simpa using hspace)]
    simp
    omega

theorem afterKeyword_eq_some {keyword raw rest : Str} :
    afterKeyword keyword raw = some rest ↔ lstrip raw = keyword ++ rest := by
  rw [afterKeyword, List.dropPrefix?_eq_some_iff]
  constructor
  · intro ⟨front, hraw, hfront⟩
    rw [hraw, eq_of_beq hfront]
  · intro hraw
    exact ⟨keyword, hraw, beq_self_eq_true keyword⟩

/-- A row starts with a keyword when its name does. -/
theorem afterKeyword_row {keyword rest : Str} (hw : IsWordText w)
    (hkeyword : ∀ d ∈ keyword, isSpace d = false) :
    afterKeyword keyword (rowLine depth w c) = some rest ↔
      ∃ r, w = keyword ++ r ∧ rest = r ++ c.text := by
  rw [afterKeyword_eq_some, stripped_row hw]
  constructor
  · intro heq
    have hprefix : keyword <+: w ++ c.text := ⟨rest, heq.symm⟩
    obtain ⟨r, rfl⟩ := (prefix_word_iff hkeyword (by decide)).mp hprefix
    rw [List.append_assoc, List.append_cancel_left_eq] at heq
    exact ⟨r, rfl, heq.symm⟩
  · rintro ⟨r, rfl, rfl⟩
    rw [List.append_assoc]

/-- The state stands in the row after every keyword. -/
theorem exists_plain (r : Str) : ∃ d ∈ r ++ c.text, isSpace d = false := by
  have hstate := isWordText_of_known c.known
  obtain ⟨d, hd⟩ := List.exists_mem_of_ne_nil c.state hstate.nonempty
  exact ⟨d, by simp [Columns.text, hd], hstate.plain d hd⟩

theorem poolHeader_row (hw : IsWordText w) :
    (poolHeader (rowLine depth w c)).isSome = true ↔ ("pool:" : Str) <+: w := by
  have hafter : ∀ rest, afterKeyword "pool:" (rowLine depth w c) = some rest ↔
      ∃ r, w = ("pool:" : Str) ++ r ∧ rest = r ++ c.text :=
    fun _ => afterKeyword_row hw (by decide)
  unfold poolHeader
  cases hkeyword : afterKeyword "pool:" (rowLine depth w c) with
  | none =>
    have hnot : ¬ ("pool:" : Str) <+: w := by
      intro ⟨r, hr⟩
      have hsome := (hafter _).mpr ⟨r, hr.symm, rfl⟩
      rw [hkeyword] at hsome
      cases hsome
    constructor
    · intro h
      cases h
    · intro h
      exact absurd h hnot
  | some rest =>
    obtain ⟨r, rfl, rfl⟩ := (hafter rest).mp hkeyword
    obtain ⟨d, hd, hplain⟩ := exists_plain (c := c) r
    rw [Option.map_some]
    cases hlstrip : lstrip (r ++ c.text) with
    | nil =>
      have hspace := List.dropWhile_eq_nil_iff.mp hlstrip d hd
      rw [hplain] at hspace
      cases hspace
    | cons e rest =>
      simp [isSpace_of_lstrip hlstrip]

theorem isConfigLine_row (hw : IsWordText w) : isConfigLine (rowLine depth w c) = false := by
  unfold isConfigLine
  cases hkeyword : afterKeyword "config:" (rowLine depth w c) with
  | none => rfl
  | some rest =>
    obtain ⟨r, rfl, rfl⟩ := (afterKeyword_row hw (by decide)).mp hkeyword
    obtain ⟨d, hd, hplain⟩ := exists_plain (c := c) r
    rw [Option.any_some, ← Bool.not_eq_true, List.all_eq_true]
    intro hall
    rw [hall d hd] at hplain
    cases hplain

theorem isErrorsLine_row (hw : IsWordText w) :
    isErrorsLine (rowLine depth w c) = true ↔ ("errors:" : Str) <+: w := by
  rw [isErrorsLine, Option.isSome_iff_exists]
  constructor
  · intro ⟨rest, hrest⟩
    obtain ⟨r, rfl, -⟩ := (afterKeyword_row hw (by decide)).mp hrest
    exact List.prefix_append _ _
  · intro ⟨r, hr⟩
    exact ⟨_, (afterKeyword_row hw (by decide)).mpr ⟨r, hr.symm, rfl⟩⟩

end Rows

/-! ## One row -/

section Step

variable {p : Parser} {w : Str} {depth : Nat} {c : Columns}

/-- The parser is in the device tree of a pool. -/
structure InTree (pool : Str) (p : Parser) : Prop where
  config : p.inConfig = true
  pool : p.pool = some pool

/-- A row whose name is no keyword of a line is an entry. -/
theorem step_row {pool : Str} (hp : InTree pool p) (hw : IsWordText w)
    (hpool : ¬ ("pool:" : Str) <+: w) (herrors : ¬ ("errors:" : Str) <+: w) :
    p.step (rowLine depth w c) = p.entry pool w (some c.state) (4 + 2 * depth) := by
  have hheader : poolHeader (rowLine depth w c) = none := by
    rw [← Option.not_isSome_iff_eq_none, poolHeader_row hw]
    exact hpool
  have hend : isErrorsLine (rowLine depth w c) = false := by
    rw [← Bool.not_eq_true, isErrorsLine_row hw]
    exact herrors
  unfold Parser.step
  rw [hheader, isConfigLine_row hw, hend, hp.config, hp.pool, words_row hw, indent_row hw]
  rfl

/-- What a row does: its name is a keyword, or it is an entry of the tree, or
it is not in a tree. -/
theorem step_row_cases (p : Parser) (depth : Nat) (c : Columns) (hw : IsWordText w) :
    (("pool:" : Str) <+: w ∧ ∃ name, p.step (rowLine depth w c) = p.openPool name) ∨
      (("errors:" : Str) <+: w ∧
        p.step (rowLine depth w c) = { p with inConfig := false, current := false }) ∨
      (¬ ("pool:" : Str) <+: w ∧ ¬ ("errors:" : Str) <+: w ∧ ∃ pool, InTree pool p ∧
        p.step (rowLine depth w c) = p.entry pool w (some c.state) (4 + 2 * depth)) ∨
      ((∀ pool, ¬ InTree pool p) ∧ p.step (rowLine depth w c) = p) := by
  by_cases hpool : ("pool:" : Str) <+: w
  · left
    refine ⟨hpool, ?_⟩
    obtain ⟨name, hname⟩ := Option.isSome_iff_exists.mp ((poolHeader_row hw).mpr hpool)
    refine ⟨name, ?_⟩
    rw [Parser.step, hname]
  have hheader : poolHeader (rowLine depth w c) = none := by
    rw [← Option.not_isSome_iff_eq_none, poolHeader_row hw]
    exact hpool
  by_cases herrors : ("errors:" : Str) <+: w
  · right; left
    refine ⟨herrors, ?_⟩
    rw [Parser.step, hheader, isConfigLine_row hw, (isErrorsLine_row hw).mpr herrors]
    rfl
  right; right
  by_cases htree : ∃ pool, InTree pool p
  · left
    obtain ⟨pool, hp⟩ := htree
    exact ⟨hpool, herrors, pool, hp, step_row hp hw hpool herrors⟩
  · right
    refine ⟨fun pool hp => htree ⟨pool, hp⟩, ?_⟩
    have hend : isErrorsLine (rowLine depth w c) = false := by
      rw [← Bool.not_eq_true, isErrorsLine_row hw]
      exact herrors
    rw [Parser.step, hheader, isConfigLine_row hw, hend, words_row hw]
    cases hconfig : p.inConfig with
    | false => rfl
    | true =>
      cases hname : p.pool with
      | none => rfl
      | some pool => exact absurd ⟨pool, hconfig, hname⟩ htree

/-- A known state is in capitals. -/
theorem upper_known {state : Str} (h : state ∈ vdevStates) :
    upper state = state ∧ vdevStates.contains state = true := by
  have hall : ∀ s ∈ vdevStates, upper s = s := by decide
  exact ⟨hall state h, List.contains_iff_mem.mpr h⟩

theorem entry_device {pool : Str} {i : Nat} (hindent : p.poolIndent = some i) (hname : w ≠ "NAME") :
    p.entry pool w (some c.state) depth = p.device pool w c.state depth := by
  obtain ⟨hupper, hknown⟩ := upper_known c.known
  unfold Parser.entry
  simp only [Option.getD_some, hupper, hknown, hindent]
  rw [if_neg hname, if_neg (by simp), if_neg (by simp), if_pos trivial]

end Step

/-! ## Headers -/

section Headers

variable {p : Parser} {t : AuxTier} {trail : Str}

theorem lstrip_headerLine : lstrip (headerLine t trail) = t.header ++ trail := by
  have hword : IsWordText t.header := by
    cases t <;> exact ⟨by decide, by decide⟩
  exact (lstrip_spaces ['\t'] (by decide)).trans hword.lstrip_append

theorem words_headerLine (htrail : ∀ d ∈ trail, d = ' ' ∨ d = '\t') :
    splitWords (headerLine t trail) = [t.header] := by
  have hspaces : ∀ d ∈ trail, isSpace d = true := by
    intro d hd
    rcases htrail d hd with rfl | rfl
    · decide
    · decide
  have hword : IsWordText t.header := by
    cases t <;> exact ⟨by decide, by decide⟩
  rw [← splitWords_lstrip, lstrip_headerLine, splitWords, splitWordsAux_spaces_end _ hspaces]
  exact splitWords_self hword

/-- The line of a header is an entry of the tree, and has no state. -/
theorem step_headerLine (htrail : ∀ d ∈ trail, d = ' ' ∨ d = '\t') :
    p.step (headerLine t trail) =
      match p.inConfig, p.pool with
      | true, some pool => p.entry pool t.header none (indent (headerLine t trail))
      | _, _ => p := by
  have hlstrip : lstrip (headerLine t trail) = t.header ++ trail := lstrip_headerLine
  have hwords : splitWords (strip (headerLine t trail)) = [t.header] :=
    splitWords_strip.trans (words_headerLine htrail)
  have hpool : poolHeader (headerLine t trail) = none := by
    rw [poolHeader, afterKeyword, hlstrip]
    cases t <;> rfl
  have hconfig : isConfigLine (headerLine t trail) = false := by
    rw [isConfigLine, afterKeyword, hlstrip]
    cases t <;> rfl
  have herrors : isErrorsLine (headerLine t trail) = false := by
    rw [isErrorsLine, afterKeyword, hlstrip]
    cases t <;> rfl
  unfold Parser.step
  rw [hpool, hconfig, herrors, hwords]
  cases p.inConfig with
  | false => rfl
  | true => cases p.pool <;> rfl

theorem entry_header {pool : Str} {i depth : Nat} (hindent : p.poolIndent = some i) :
    p.entry pool t.header none depth = { p with tier := t.tier, current := false } := by
  have hstate : vdevStates.contains (upper []) = false := by decide
  have hname : t.header ≠ "NAME" := by
    cases t <;> decide
  have hlookup : tierHeaders.lookup (lower t.header) = some t.tier := by
    cases t <;> rfl
  unfold Parser.entry
  simp only [Option.getD_none, hstate, hindent, hlookup]
  rw [if_neg hname, if_neg (by simp), if_neg (by simp), if_neg (by simp)]

end Headers

/-! ## The names of containers -/

theorem dropFolded_append {word s : Str} (h : ∀ c ∈ word, c.toLower = c) :
    dropFolded word (word ++ s) = some s := by
  induction word with
  | nil => rfl
  | cons c word ih =>
    have hc : sameLetter c c = true := by
      rw [sameLetter, h c List.mem_cons_self, beq_self_eq_true, Bool.true_or]
    rw [List.cons_append, dropFolded, if_pos hc]
    exact ih fun c' hc' => h c' (List.mem_cons_of_mem _ hc')

namespace Container

theorem optIndex_indexText (index : Option Nat) : optIndex (indexText index) = true := by
  cases index with
  | none => rfl
  | some n =>
    have hdigits : (ofNat n).all isDecimal = true := by
      rw [List.all_eq_true]
      intro d hd
      exact isDecimal_of_isAsciiDigit (isAsciiDigit_of_mem_ofNat hd)
    have hne : ofNat n ≠ [] := Nat.toDigits_ne_nil
    simp [indexText, optIndex, hdigits, hne]

theorem raidzParity_text (parity : Option (Fin 3)) (index : Option Nat) :
    raidzParity (text (.raidz parity index)) = some (parity.elim '1' parityDigit) := by
  have hrest : dropFolded "raidz" (text (.raidz parity index)) =
      some (parityText parity ++ indexText index) :=
    dropFolded_append (by decide)
  have hindex := optIndex_indexText index
  unfold raidzParity
  rw [hrest]
  cases parity with
  | none =>
    cases index with
    | none => rfl
    | some n => exact if_pos hindex
  | some k =>
    have hdigit : ∀ k, (parityDigit k == '1' || parityDigit k == '2' || parityDigit k == '3') = true := by
      decide
    show (if (parityDigit k == '1' || parityDigit k == '2' || parityDigit k == '3') = true then
      if optIndex (indexText index) = true then some (parityDigit k) else none else _) = _
    rw [if_pos (hdigit k), if_pos hindex]
    rfl

theorem redundancy_text (kind : Container) : PveZfsTool.redundancy kind.text = kind.redundancy := by
  cases kind with
  | mirror index =>
    have hrest : dropFolded "mirror" (text (.mirror index)) = some (indexText index) :=
      dropFolded_append (by decide)
    rw [PveZfsTool.redundancy, hrest, Option.any_some, if_pos (optIndex_indexText index)]
    rfl
  | raidz parity index =>
    have hmirror : dropFolded "mirror" (text (.raidz parity index)) = none := rfl
    rw [PveZfsTool.redundancy, hmirror, raidzParity_text]
    rfl
  | draid layout plain =>
    have hmirror : dropFolded "mirror" (text (.draid layout plain)) = none := rfl
    have hraidz : raidzParity (text (.draid layout plain)) = none := rfl
    have hrest : dropFolded "draid" (text (.draid layout plain)) = some layout :=
      dropFolded_append (by decide)
    have hplain : layout.all (fun d => !isSpace d) = true := by
      rw [List.all_eq_true]
      intro d hd
      rw [plain d hd]
      rfl
    rw [PveZfsTool.redundancy, hmirror, hraidz, hrest, Option.any_some, hplain]
    rfl

theorem isWordText_text (kind : Container) : IsWordText kind.text := by
  have hindex : ∀ index, ∀ d ∈ indexText index, isSpace d = false := by
    intro index d hd
    cases index with
    | none => cases hd
    | some n =>
      rcases List.mem_cons.mp hd with rfl | hd
      · decide
      · exact isWordText_ofNat.plain d hd
  have hparity : ∀ k, isSpace (parityDigit k) = false := by decide
  cases kind with
  | mirror index =>
    refine ⟨List.append_ne_nil_of_left_ne_nil (by decide) _, fun d hd => ?_⟩
    rcases List.mem_append.mp hd with hd | hd
    · exact (by decide : ∀ d ∈ ("mirror" : Str), isSpace d = false) d hd
    · exact hindex index d hd
  | raidz parity index =>
    refine ⟨List.append_ne_nil_of_left_ne_nil (by decide) _, fun d hd => ?_⟩
    rcases List.mem_append.mp hd with hd | hd
    · exact (by decide : ∀ d ∈ ("raidz" : Str), isSpace d = false) d hd
    · rcases List.mem_append.mp hd with hd | hd
      · obtain ⟨k, -, rfl⟩ := List.mem_map.mp hd
        exact hparity k
      · exact hindex index d hd
  | draid layout plain =>
    refine ⟨List.append_ne_nil_of_left_ne_nil (by decide) _, fun d hd => ?_⟩
    rcases List.mem_append.mp hd with hd | hd
    · exact (by decide : ∀ d ∈ ("draid" : Str), isSpace d = false) d hd
    · exact plain d hd

/-- Containers are called after no keyword. -/
theorem isPlainName_text (kind : Container) : IsPlainName kind.text := by
  have hhead : ∃ d ∈ kind.text.head?, d = 'm' ∨ d = 'r' ∨ d = 'd' := by
    cases kind with
    | mirror index => exact ⟨'m', rfl, by simp⟩
    | raidz parity index => exact ⟨'r', rfl, by simp⟩
    | draid layout plain => exact ⟨'d', rfl, by simp⟩
  obtain ⟨d, hd, hletter⟩ := hhead
  refine ⟨?_, ?_, ?_⟩
  · intro heq
    rw [heq] at hd
    cases Option.some.inj hd
    revert hletter
    decide
  · intro ⟨t, ht⟩
    rw [← ht] at hd
    cases Option.some.inj hd
    revert hletter
    decide
  · intro ⟨t, ht⟩
    rw [← ht] at hd
    cases Option.some.inj hd
    revert hletter
    decide

end Container

/-! ## Reading the tree -/

section Reading

/-- The parser below the row of the pool, with what it has read. -/
def reading (pool : Str) (vs : List Vdev) (tier : Tier) (top : Option Nat) (current : Bool) :
    Parser where
  pools := topologyOf pool vs
  pool := some pool
  inConfig := true
  tier := tier
  poolIndent := some 4
  vdevIndent := top
  current := current

variable {pool w : Str} {vs : List Vdev} {v : Vdev} {tier : Tier} {top : Option Nat} {current : Bool}
  {c : Columns} {depth : Nat}

theorem topologyOf_alter {f : Option (List Vdev) → List Vdev} :
    (topologyOf pool vs).alter pool f = topologyOf pool (f (some vs)) := by
  simp [topologyOf, Dict.alter, Dict.alterEntries]

theorem inTree_reading : InTree pool (reading pool vs tier top current) := ⟨rfl, rfl⟩

/-- A row at the first level starts a vdev. -/
theorem step_top (hw : IsWordText w) (hplain : IsPlainName w) (htop : ∀ n ∈ top, n = 6) :
    (reading pool vs tier top current).step (rowLine 1 w c) =
      reading pool (vs ++ [⟨tier, w, redundancy w, c.state,
        if redundancy w = .none then [w] else []⟩]) tier (some 6) true := by
  obtain ⟨hheading, hpool, herrors⟩ := hplain
  have hsix : top.getD 6 = 6 := by
    cases top with
    | none => rfl
    | some n => exact htop n rfl
  rw [step_row inTree_reading hw hpool herrors, entry_device (i := 4) rfl hheading]
  show Parser.device _ pool w c.state 6 = _
  unfold Parser.device
  rw [reading, hsix, if_pos (le_refl 6), Parser.addVdev, Dict.push, topologyOf_alter]
  rfl

/-- A row below the first level is a device of the vdev above it. -/
theorem step_below (hw : IsWordText w) (hplain : IsPlainName w) (hdepth : 2 ≤ depth) :
    (reading pool (vs ++ [v]) tier (some 6) true).step (rowLine depth w c) =
      reading pool (vs ++ [{ v with devices := v.devices ++ [w] }]) tier (some 6) true := by
  obtain ⟨hheading, hpool, herrors⟩ := hplain
  have hbelow : ¬ 4 + 2 * depth ≤ 6 := by omega
  rw [step_row inTree_reading hw hpool herrors, entry_device (i := 4) rfl hheading]
  unfold Parser.device
  rw [reading, Option.getD_some, if_neg hbelow, if_pos rfl, Parser.addDevice, topologyOf_alter,
    Option.getD_some, List.modifyLast_concat]
  rfl

mutual

theorem foldl_device (d : Device) (depth : Nat) (v : Vdev) (hdepth : 2 ≤ depth)
    (hplain : ∀ name ∈ d.names, IsPlainName name) :
    (d.lines depth).foldl Parser.step (reading pool (vs ++ [v]) tier (some 6) true) =
      reading pool (vs ++ [{ v with devices := v.devices ++ d.names }]) tier (some 6) true := by
  match d with
  | .mk name columns members =>
    rw [Device.lines, Device.names] at *
    rw [List.foldl_cons, step_below name.isWord (hplain _ List.mem_cons_self) hdepth,
      foldl_members members (depth + 1) _ (by omega)
        (fun n hn => hplain n (List.mem_cons_of_mem _ hn)), List.append_assoc]
    rfl

/-- The rows of a container's members. -/
theorem foldl_members (ds : List Device) (depth : Nat) (v : Vdev) (hdepth : 2 ≤ depth)
    (hplain : ∀ name ∈ namesOf ds, IsPlainName name) :
    (linesOf depth ds).foldl Parser.step (reading pool (vs ++ [v]) tier (some 6) true) =
      reading pool (vs ++ [{ v with devices := v.devices ++ namesOf ds }]) tier (some 6) true := by
  match ds with
  | [] => rw [linesOf, namesOf, List.append_nil, List.foldl_nil]
  | d :: ds =>
    rw [linesOf, namesOf] at *
    rw [List.foldl_append,
      foldl_device d depth v hdepth (fun n hn => hplain n (List.mem_append_left _ hn)),
      foldl_members ds depth _ hdepth (fun n hn => hplain n (List.mem_append_right _ hn)),
      List.append_assoc]

end

/-- The rows of a vdev. -/
theorem foldl_vdev {t : TopVdev} (hplain : ∀ name ∈ t.names, IsPlainName name)
    (htop : ∀ n ∈ top, n = 6) :
    t.lines.foldl Parser.step (reading pool vs tier top current) =
      reading pool (vs ++ [t.vdev tier]) tier (some 6) true := by
  cases t with
  | bare name columns isDevice notHeading =>
    rw [TopVdev.lines, List.foldl_cons, List.foldl_nil,
      step_top name.isWord (hplain _ List.mem_cons_self) htop, isDevice]
    rfl
  | container kind columns members =>
    have hnone : kind.redundancy ≠ .none := by
      cases kind with
      | mirror index => exact Redundancy.noConfusion
      | raidz parity index => exact Redundancy.noConfusion
      | draid layout plain => exact Redundancy.noConfusion
    rw [TopVdev.lines, List.foldl_cons, step_top kind.isWordText_text kind.isPlainName_text htop,
      foldl_members members 2 _ (le_refl 2) (fun n hn => hplain n (List.mem_cons_of_mem _ hn)),
      kind.redundancy_text, if_neg hnone]
    rfl

theorem foldl_vdevs (pool : Str) (vs : List Vdev) (tier : Tier) (current : Bool) {ts : List TopVdev}
    (hplain : ∀ name ∈ ts.flatMap TopVdev.names, IsPlainName name)
    (htop : ∀ n ∈ top, n = 6) :
    ∃ top' current', (∀ n ∈ top', n = 6) ∧
      (ts.flatMap TopVdev.lines).foldl Parser.step (reading pool vs tier top current) =
        reading pool (vs ++ ts.map (TopVdev.vdev tier)) tier top' current' := by
  induction ts generalizing vs top current with
  | nil => exact ⟨top, current, htop, by rw [List.map_nil, List.append_nil]; rfl⟩
  | cons t ts ih =>
    rw [List.flatMap_cons] at hplain
    obtain ⟨top', current', htop', hrest⟩ :=
      ih (vs ++ [t.vdev tier]) true
        (fun n hn => hplain n (List.mem_append_right _ hn)) (fun n hn => (Option.some.inj hn).symm)
    refine ⟨top', current', htop', ?_⟩
    rw [List.flatMap_cons, List.foldl_append,
      foldl_vdev (fun n hn => hplain n (List.mem_append_left _ hn)) htop, hrest, List.append_assoc]
    rfl

/-- A header ends the tier above it. -/
theorem step_header {t : AuxTier} {trail : Str} (htrail : ∀ d ∈ trail, d = ' ' ∨ d = '\t') :
    (reading pool vs tier top current).step (headerLine t trail) =
      reading pool vs t.tier top false := by
  rw [step_headerLine htrail]
  show (reading pool vs tier top current).entry pool t.header none (indent (headerLine t trail)) = _
  rw [entry_header (i := 4) rfl]
  rfl

theorem foldl_groups (pool : Str) (vs : List Vdev) (tier : Tier) (current : Bool) {gs : List AuxGroup}
    (hplain : ∀ name ∈ gs.flatMap (fun g => g.vdevs.flatMap TopVdev.names), IsPlainName name)
    (htop : ∀ n ∈ top, n = 6) :
    ∃ tier' top' current',
      (gs.flatMap AuxGroup.lines).foldl Parser.step (reading pool vs tier top current) =
        reading pool (vs ++ gs.flatMap (fun g => g.vdevs.map (TopVdev.vdev g.tier.tier))) tier' top'
          current' := by
  induction gs generalizing vs tier top current with
  | nil => exact ⟨tier, top, current, by rw [List.flatMap_nil, List.flatMap_nil, List.append_nil]; rfl⟩
  | cons g gs ih =>
    rw [List.flatMap_cons] at hplain
    obtain ⟨top₁, current₁, htop₁, hvdevs⟩ :=
      foldl_vdevs pool vs g.tier.tier false
        (fun n hn => hplain n (List.mem_append_left _ hn)) htop
    obtain ⟨tier', top', current', hrest⟩ :=
      ih (vs ++ g.vdevs.map (TopVdev.vdev g.tier.tier)) g.tier.tier current₁ (fun n hn => hplain n (List.mem_append_right _ hn)) htop₁
    refine ⟨tier', top', current', ?_⟩
    rw [List.flatMap_cons, List.foldl_append, AuxGroup.lines, List.foldl_cons, step_header g.blank,
      hvdevs, hrest, List.append_assoc]
    rfl

end Reading

/-! ## The whole text -/

section Text

theorem noBreak_row {depth : Nat} {w : Str} {c : Columns} (hw : IsWordText w) :
    NoBreak (rowLine depth w c) := by
  have htab : NoBreak ['\t'] := by decide
  have hspace : NoBreak [' '] := by decide
  show NoBreak (['\t'] ++ (List.replicate (2 * depth) ' ' ++ (w ++ ([' '] ++
    (List.replicate c.gap ' ' ++ (c.state ++ c.counters))))))
  simp only [noBreak_append_iff]
  exact ⟨htab, noBreak_spaces, hw.noBreak, hspace, noBreak_spaces,
    (isWordText_of_known c.known).noBreak, c.noBreak⟩

theorem noBreak_header {t : AuxTier} {trail : Str} (htrail : ∀ d ∈ trail, d = ' ' ∨ d = '\t') :
    NoBreak (headerLine t trail) := by
  have htab : NoBreak ['\t'] := by decide
  have hheader : NoBreak t.header := by
    cases t <;> decide
  show NoBreak (['\t'] ++ (t.header ++ trail))
  simp only [noBreak_append_iff]
  refine ⟨htab, hheader, fun d hd => ?_⟩
  rcases htrail d hd with rfl | rfl
  · decide
  · decide

/-- A row or a header of the tree. -/
inductive IsTreeLine : Str → Prop where
  | row (depth : Nat) {w : Str} (c : Columns) (isWord : IsWordText w) : IsTreeLine (rowLine depth w c)
  | header (t : AuxTier) {trail : Str} (blank : ∀ d ∈ trail, d = ' ' ∨ d = '\t') :
      IsTreeLine (headerLine t trail)

theorem IsTreeLine.noBreak {l : Str} (h : IsTreeLine l) : NoBreak l := by
  cases h with
  | row depth c isWord => exact noBreak_row isWord
  | header t blank => exact noBreak_header blank

mutual

theorem isTreeLine_device (d : Device) (depth : Nat) : ∀ l ∈ d.lines depth, IsTreeLine l := by
  match d with
  | .mk name columns members =>
    rw [Device.lines, List.forall_mem_cons]
    exact ⟨.row depth columns name.isWord, isTreeLine_members members (depth + 1)⟩

theorem isTreeLine_members (ds : List Device) (depth : Nat) :
    ∀ l ∈ linesOf depth ds, IsTreeLine l := by
  match ds with
  | [] =>
    rw [linesOf]
    exact List.forall_mem_nil _
  | d :: ds =>
    rw [linesOf, List.forall_mem_append]
    exact ⟨isTreeLine_device d depth, isTreeLine_members ds depth⟩

end

theorem isTreeLine_vdev {t : TopVdev} : ∀ l ∈ t.lines, IsTreeLine l := by
  cases t with
  | bare name columns isDevice notHeading =>
    rw [TopVdev.lines, List.forall_mem_singleton]
    exact .row 1 columns name.isWord
  | container kind columns members =>
    rw [TopVdev.lines, List.forall_mem_cons]
    exact ⟨.row 1 columns kind.isWordText_text, isTreeLine_members members 2⟩

theorem isTreeLine_vdevs {ts : List TopVdev} : ∀ l ∈ ts.flatMap TopVdev.lines, IsTreeLine l := by
  intro l hl
  obtain ⟨t, -, hl⟩ := List.mem_flatMap.mp hl
  exact isTreeLine_vdev l hl

theorem isTreeLine_treeLines {s : StatusTree} : ∀ l ∈ s.treeLines, IsTreeLine l := by
  rw [StatusTree.treeLines, List.forall_mem_append]
  refine ⟨isTreeLine_vdevs, fun l hl => ?_⟩
  obtain ⟨g, -, hl⟩ := List.mem_flatMap.mp hl
  rcases List.mem_cons.mp hl with rfl | hl
  · exact .header g.tier g.blank
  · exact isTreeLine_vdevs l hl

theorem noBreak_lines {s : StatusTree} : ∀ l ∈ s.lines, NoBreak l := by
  have hpool : NoBreak (("  pool: " : Str) ++ s.pool.text) :=
    noBreak_append_iff.mpr ⟨by decide, s.pool.isWord.noBreak⟩
  have hheading : NoBreak s.headingLine := by
    have hfront : NoBreak ('\t' :: (("NAME" : Str) ++ [' '])) := by decide
    have hback : NoBreak ("STATE     READ WRITE CKSUM" : Str) := by decide
    have hall := noBreak_append_iff.mpr
      ⟨hfront, noBreak_append_iff.mpr ⟨noBreak_spaces (n := s.headingGap), hback⟩⟩
    simpa [StatusTree.headingLine] using hall
  have htree : ∀ l ∈ s.treeLines, NoBreak l := fun l hl => (isTreeLine_treeLines l hl).noBreak
  have hmessage : NoBreak (("errors: " : Str) ++ s.message) :=
    noBreak_append_iff.mpr ⟨by decide, s.messageLine⟩
  have hconfig : NoBreak ("config:" : Str) := by decide
  have hempty : NoBreak ([] : Str) := by decide
  unfold StatusTree.lines
  simp only [List.cons_append, List.forall_mem_cons, List.forall_mem_append]
  exact ⟨hpool, fun l hl => (s.preambleLines l hl).1, hconfig, hempty, hheading,
    noBreak_row s.pool.isWord, htree, hempty, hmessage, List.forall_mem_nil _⟩

/-- The parser before the row of the pool. -/
def opened (pool : Str) : Parser where
  pools := topologyOf pool []
  pool := some pool
  inConfig := true

theorem poolHeader_of_word {pool : Str} (hpool : IsWordText pool) :
    poolHeader (("  pool: " : Str) ++ pool) = some pool := by
  have hafter : afterKeyword "pool:" (("  pool: " : Str) ++ pool) = some (' ' :: pool) := rfl
  have hname : (lstrip (' ' :: pool)).takeWhile (fun c => !isSpace c) = pool := by
    have hlstrip : lstrip (' ' :: pool) = pool := by
      have hword := hpool.lstrip_append (s := [])
      rw [List.append_nil] at hword
      exact (lstrip_spaces [' '] (by decide)).trans hword
    rw [hlstrip, List.takeWhile_eq_self_iff]
    intro c hc
    rw [hpool.plain c hc]
    rfl
  rw [poolHeader, hafter, Option.map_some, hname]
  cases pool with
  | nil => exact absurd rfl hpool.nonempty
  | cons c pool => rfl

theorem foldl_opening (s : StatusTree) :
    s.lines.foldl Parser.step {} =
      (rowLine 0 s.pool.text s.columns :: s.treeLines ++
        [[], ("errors: " : Str) ++ s.message]).foldl Parser.step (opened s.pool.text) := by
  have hstart : Parser.step {} (("  pool: " : Str) ++ s.pool.text) =
      { opened s.pool.text with inConfig := false } := by
    rw [Parser.step, poolHeader_of_word s.pool.isWord]
    rfl
  have hpreamble : ∀ ls : List Str,
      (∀ l ∈ ls, NoBreak l ∧ poolHeader l = none ∧ isConfigLine l = false) →
        ls.foldl Parser.step { opened s.pool.text with inConfig := false } =
          { opened s.pool.text with inConfig := false } := by
    intro ls hls
    induction ls with
    | nil => rfl
    | cons l ls ih =>
      obtain ⟨-, hheader, hconfig⟩ := hls l List.mem_cons_self
      have hl : Parser.step { opened s.pool.text with inConfig := false } l =
          { opened s.pool.text with inConfig := false } := by
        rw [Parser.step, hheader, hconfig]
        cases isErrorsLine l <;> rfl
      rw [List.foldl_cons, hl]
      exact ih fun l' hl' => hls l' (List.mem_cons_of_mem _ hl')
  have hconfig : Parser.step { opened s.pool.text with inConfig := false } ("config:" : Str) =
      opened s.pool.text := rfl
  have hempty : (opened s.pool.text).step [] = opened s.pool.text := rfl
  have hheading : (opened s.pool.text).step s.headingLine = opened s.pool.text := by
    have hwords : ∃ words, splitWords (strip s.headingLine) = ("NAME" : Str) :: words := by
      rw [splitWords_strip]
      exact ⟨_, (splitWords_cons_space (by decide)).trans
        (splitWords_word ⟨by decide, by decide⟩ (by decide))⟩
    obtain ⟨words, hwords⟩ := hwords
    have hheader : poolHeader s.headingLine = none := rfl
    have hconfig : isConfigLine s.headingLine = false := rfl
    have herrors : isErrorsLine s.headingLine = false := rfl
    rw [Parser.step, hheader, hconfig, herrors, hwords]
    rfl
  rw [StatusTree.lines, List.foldl_append, List.foldl_cons, hstart, hpreamble _ s.preambleLines,
    List.cons_append, List.cons_append, List.cons_append, List.foldl_cons, hconfig,
    List.foldl_cons, hempty, List.foldl_cons, hheading, List.cons_append]

/-- The lines behind the tree end it. -/
theorem pools_ending (p : Parser) (message : Str) :
    ([[], ("errors: " : Str) ++ message].foldl Parser.step p).pools = p.pools := by
  have hempty : p.step [] = p := by
    have hheader : poolHeader [] = none := rfl
    have hconfig : isConfigLine [] = false := rfl
    have herrors : isErrorsLine [] = false := rfl
    have hwords : splitWords (strip []) = [] := rfl
    rw [Parser.step, hheader, hconfig, herrors, hwords]
    cases p.inConfig <;> cases p.pool <;> rfl
  rw [List.foldl_cons, hempty]
  rfl

end Text

/-! ## Plain names -/

/-- The row of the pool. -/
theorem step_pool {pool : Str} {c : Columns} (hw : IsWordText pool) (hplain : IsPlainName pool) :
    (opened pool).step (rowLine 0 pool c) = reading pool [] .data none false := by
  obtain ⟨hheading, hpool, herrors⟩ := hplain
  obtain ⟨hupper, hknown⟩ := upper_known c.known
  rw [step_row ⟨rfl, rfl⟩ hw hpool herrors]
  unfold Parser.entry
  simp only [Option.getD_some, hupper, hknown]
  rw [if_neg hheading, if_pos ⟨trivial, trivial, rfl⟩]
  rfl

theorem parse_eq (s : StatusTree) :
    parseTopology s.text =
      (s.treeLines.foldl Parser.step
        ((opened s.pool.text).step (rowLine 0 s.pool.text s.columns))).pools := by
  rw [parseTopology, StatusTree.text, splitLines_unlines noBreak_lines, foldl_opening,
    List.foldl_append, pools_ending, List.foldl_cons]

theorem parse_plain {s : StatusTree} (hplain : ∀ name ∈ s.names, IsPlainName name) :
    parseTopology s.text = topologyOf s.pool.text s.vdevs := by
  rw [StatusTree.names, List.forall_mem_cons, List.forall_mem_append] at hplain
  obtain ⟨hpool, hdata, hgroups⟩ := hplain
  obtain ⟨top, current, htop, hread⟩ :=
    foldl_vdevs s.pool.text [] .data false hdata
      (fun n hn => absurd hn (Option.not_mem_none n))
  obtain ⟨tier', top', current', hrest⟩ :=
    foldl_groups s.pool.text (s.data.map (TopVdev.vdev .data)) .data current hgroups htop
  rw [parse_eq, step_pool s.pool.isWord hpool, StatusTree.treeLines, List.foldl_append, hread,
    List.nil_append, hrest]
  rfl

/-! ## Findings -/

theorem findingOf_vdev {pool : Str} {tier : Tier} {t : TopVdev} :
    findingOf pool (t.vdev tier) =
      if t.isBare then findingOf pool ⟨tier, t.name, .none, [], []⟩ else none := by
  cases t with
  | bare name columns isDevice notHeading => rfl
  | container kind columns members => cases kind <;> rfl

theorem filterMap_vdevs {pool : Str} {tier : Tier} {ts : List TopVdev} :
    (ts.map (TopVdev.vdev tier)).filterMap (findingOf pool) =
      (ts.filter TopVdev.isBare).filterMap
        (fun t => findingOf pool ⟨tier, t.name, .none, [], []⟩) := by
  induction ts with
  | nil => rfl
  | cons t ts ih =>
    rw [List.map_cons, List.filterMap_cons, ih, findingOf_vdev, List.filter_cons]
    cases t.isBare with
    | false => rfl
    | true => rw [if_pos rfl, if_pos rfl, List.filterMap_cons]

/-- The findings of the tree are those of what should be read. -/
theorem findings_eq (s : StatusTree) :
    redundancyFindings (topologyOf s.pool.text s.vdevs) = s.findings := by
  have hone : redundancyFindings (topologyOf s.pool.text s.vdevs) =
      s.vdevs.filterMap (findingOf s.pool.text) := by
    rw [redundancyFindings, topologyOf, List.insertionSort_cons, List.insertionSort_nil,
      List.orderedInsert_nil, List.flatMap_singleton]
  rw [hone, StatusTree.vdevs, List.filterMap_append, filterMap_vdevs, StatusTree.findings]
  congr 1
  · rw [← List.filterMap_eq_map]
    rfl
  · induction s.groups with
    | nil => rfl
    | cons g gs ih =>
      rw [List.flatMap_cons, List.flatMap_cons, List.filterMap_append, ih, filterMap_vdevs]
      congr 2
      cases g.tier <;> rfl

/-! ## Other names -/

instance : DecidablePred IsPlainName := fun name =>
  inferInstanceAs (Decidable (name ≠ "NAME" ∧ ¬ ("pool:" : Str) <+: name ∧
    ¬ ("errors:" : Str) <+: name))

/-- The rows that are in a vdev. -/
def vdevWeight (v : Vdev) : Nat := (if v.redundancy = .none then 0 else 1) + v.devices.length

/-- The rows that are in the vdevs of a pool. -/
def weightAt (pool : Str) (t : Topology) : Nat := (((t.get? pool).getD []).map vdevWeight).sum

section Weight

variable {k pool w : Str} {p : Parser} {depth : Nat} {c : Columns}

theorem weightAt_alter {f : Option (List Vdev) → List Vdev} {t : Topology} {n : Nat}
    (hf : ((f (t.get? pool)).map vdevWeight).sum ≤ (((t.get? pool).getD []).map vdevWeight).sum + n) :
    weightAt k (t.alter pool f) ≤ weightAt k t + n := by
  unfold weightAt
  rw [Dict.get?_alter]
  by_cases hk : k = pool
  · rw [if_pos hk, hk]
    exact hf
  · rw [if_neg hk]
    exact Nat.le_add_right _ _

theorem weight_openPool {name : Str} :
    weightAt k (p.openPool name).pools ≤ weightAt k p.pools :=
  weightAt_alter (n := 0) (by cases p.pools.get? name <;> exact le_refl _)

theorem weight_addDevice {name : Str} :
    weightAt k (p.addDevice pool name).pools ≤ weightAt k p.pools + 1 := by
  apply weightAt_alter
  cases hvdevs : (p.pools.get? pool).getD [] using List.reverseRecOn with
  | nil => exact Nat.zero_le _
  | append_singleton vs v _ =>
    rw [List.modifyLast_concat, List.map_append, List.map_append, List.sum_append, List.sum_append]
    simp only [List.map_cons, List.map_nil, List.sum_cons, List.sum_nil, vdevWeight,
      List.length_append, List.length_cons, List.length_nil]
    omega

theorem weight_device {name state : Str} :
    weightAt k (p.device pool name state depth).pools ≤ weightAt k p.pools + 1 := by
  unfold Parser.device
  dsimp only
  split
  · apply weightAt_alter
    rw [List.map_append, List.sum_append]
    by_cases hnone : redundancy name = .none
    · simp [vdevWeight, hnone]
    · simp [vdevWeight, hnone]
  · split
    · exact weight_addDevice
    · exact Nat.le_add_right _ _

theorem weight_entry (k pool w : Str) (p : Parser) (column : Option Str) (depth : Nat) :
    weightAt k (p.entry pool w column depth).pools ≤
      weightAt k p.pools + if w = "NAME" then 0 else 1 := by
  unfold Parser.entry
  dsimp only
  by_cases hname : w = "NAME"
  · rw [if_pos hname, if_pos hname]
    exact le_refl _
  rw [if_neg hname, if_neg hname]
  split
  · exact Nat.le_add_right _ _
  split
  · exact Nat.le_add_right _ _
  split
  · exact weight_device
  split
  · exact Nat.le_add_right _ _
  · exact Nat.le_add_right _ _

/-- A row is one device more at most, and none when its name is a keyword. -/
theorem weight_row (k : Str) (p : Parser) (depth : Nat) (c : Columns) (hw : IsWordText w) :
    weightAt k (p.step (rowLine depth w c)).pools ≤
      weightAt k p.pools + if IsPlainName w then 1 else 0 := by
  rcases step_row_cases p depth c hw with
    ⟨-, name, hstep⟩ | ⟨-, hstep⟩ | ⟨hpool, herrors, pool, -, hstep⟩ | ⟨-, hstep⟩
  · rw [hstep]
    exact weight_openPool.trans (Nat.le_add_right _ _)
  · rw [hstep]
    exact Nat.le_add_right _ _
  · have hplain : IsPlainName w ↔ w ≠ "NAME" := by simp only [IsPlainName, hpool, herrors, and_true,
      not_false_eq_true]
    have hentry := weight_entry k pool w p (some c.state) (4 + 2 * depth)
    rw [hstep]
    by_cases hname : w = "NAME"
    · rw [if_pos hname] at hentry
      rwa [if_neg (fun h => hplain.mp h hname)]
    · rw [if_neg hname] at hentry
      rwa [if_pos (hplain.mpr hname)]
  · rw [hstep]
    exact Nat.le_add_right _ _

theorem weight_header {t : AuxTier} {trail : Str} (htrail : ∀ d ∈ trail, d = ' ' ∨ d = '\t') :
    weightAt k (p.step (headerLine t trail)).pools ≤ weightAt k p.pools := by
  have hstate : vdevStates.contains (upper []) = false := by decide
  have hentry : ∀ pool depth, (p.entry pool t.header none depth).pools = p.pools := by
    intro pool depth
    unfold Parser.entry
    dsimp only
    rw [Option.getD_none, hstate]
    split
    · rfl
    split
    · rfl
    split
    · rfl
    rw [if_neg (by decide)]
    split
    · rfl
    · rfl
  rw [step_headerLine htrail]
  split
  · exact (congrArg (weightAt k) (hentry _ _)).le
  · exact le_refl _

/-- Lines with these names, in any state of the parser. -/
def Weighs (ls names : List Str) : Prop :=
  ∀ k p, weightAt k (ls.foldl Parser.step p).pools ≤
    weightAt k p.pools + names.countP (fun n => IsPlainName n)

theorem Weighs.nil : Weighs [] [] := fun _ _ => Nat.le_add_right _ _

theorem Weighs.append {ls ls' names names' : List Str} (h : Weighs ls names) (h' : Weighs ls' names') :
    Weighs (ls ++ ls') (names ++ names') := by
  intro k p
  have hfirst := h k p
  have hsecond := h' k (ls.foldl Parser.step p)
  rw [List.foldl_append, List.countP_append]
  omega

theorem Weighs.row (hw : IsWordText w) : Weighs [rowLine depth w c] [w] := by
  intro k p
  have hrow := weight_row k p depth c hw
  rw [List.foldl_cons, List.foldl_nil, List.countP_singleton]
  simpa using hrow

theorem Weighs.header {t : AuxTier} {trail : Str} (htrail : ∀ d ∈ trail, d = ' ' ∨ d = '\t') :
    Weighs [headerLine t trail] [] :=
  fun _ _ => weight_header htrail

end Weight

mutual

theorem weighs_device (d : Device) (depth : Nat) : Weighs (d.lines depth) d.names := by
  match d with
  | .mk name columns members =>
    rw [Device.lines, Device.names]
    exact (Weighs.row name.isWord).append (weighs_members members (depth + 1))

theorem weighs_members (ds : List Device) (depth : Nat) :
    Weighs (linesOf depth ds) (namesOf ds) := by
  match ds with
  | [] =>
    rw [linesOf, namesOf]
    exact .nil
  | d :: ds =>
    rw [linesOf, namesOf]
    exact (weighs_device d depth).append (weighs_members ds depth)

end

theorem weighs_vdev (t : TopVdev) : Weighs t.lines t.names := by
  cases t with
  | bare name columns isDevice notHeading => exact .row name.isWord
  | container kind columns members =>
    exact (Weighs.row kind.isWordText_text).append (weighs_members members 2)

theorem weighs_vdevs (ts : List TopVdev) :
    Weighs (ts.flatMap TopVdev.lines) (ts.flatMap TopVdev.names) := by
  induction ts with
  | nil => exact .nil
  | cons t ts ih =>
    rw [List.flatMap_cons, List.flatMap_cons]
    exact (weighs_vdev t).append ih

theorem weighs_groups (gs : List AuxGroup) :
    Weighs (gs.flatMap AuxGroup.lines) (gs.flatMap (fun g => g.vdevs.flatMap TopVdev.names)) := by
  induction gs with
  | nil => exact .nil
  | cons g gs ih =>
    rw [List.flatMap_cons, List.flatMap_cons]
    exact ((Weighs.header g.blank).append (weighs_vdevs g.vdevs)).append ih

/-- No row is read any more. -/
def Shut (p : Parser) : Prop :=
  p.inConfig = false ∨ (p.pool = some ("NAME" : Str) ∧ p.poolIndent = none)

section Shut

variable {k : Str} {p : Parser} {l : Str}

theorem entry_shut {pool w : Str} {column : Option Str} {depth : Nat} (hp : Shut p)
    (htree : InTree pool p) : p.entry pool w column depth = p := by
  rcases hp with hconfig | ⟨hname, hindent⟩
  · rw [htree.config] at hconfig
    cases hconfig
  · obtain rfl := Option.some.inj (htree.pool.symm.trans hname)
    unfold Parser.entry
    dsimp only
    by_cases hw : w = "NAME"
    · rw [if_pos hw]
    · rw [if_neg hw, if_neg (fun h => hw h.1), if_pos hindent]

theorem step_shut (hp : Shut p) (hl : IsTreeLine l) :
    Shut (p.step l) ∧ weightAt k (p.step l).pools ≤ weightAt k p.pools := by
  cases hl with
  | row depth c hw =>
    rcases step_row_cases p depth c hw with
      ⟨-, name, hstep⟩ | ⟨-, hstep⟩ | ⟨-, -, pool, htree, hstep⟩ | ⟨-, hstep⟩
    · rw [hstep]
      exact ⟨Or.inl rfl, weight_openPool⟩
    · rw [hstep]
      exact ⟨Or.inl rfl, le_refl _⟩
    · rw [hstep, entry_shut hp htree]
      exact ⟨hp, le_refl _⟩
    · rw [hstep]
      exact ⟨hp, le_refl _⟩
  | header t htrail =>
    refine ⟨?_, weight_header htrail⟩
    rw [step_headerLine htrail]
    split
    · next hconfig hpool =>
      rw [entry_shut hp ⟨hconfig, hpool⟩]
      exact hp
    · exact hp

theorem foldl_shut {ls : List Str} (hp : Shut p) (hls : ∀ l ∈ ls, IsTreeLine l) :
    weightAt k (ls.foldl Parser.step p).pools ≤ weightAt k p.pools := by
  induction ls generalizing p with
  | nil => exact le_refl _
  | cons l ls ih =>
    rw [List.forall_mem_cons] at hls
    obtain ⟨hshut, hweight⟩ := step_shut (k := k) hp hls.1
    exact (ih hshut hls.2).trans hweight

/-- The row of a pool that is called like a keyword. -/
theorem shut_pool {pool : Str} {c : Columns} (hw : IsWordText pool) (hplain : ¬ IsPlainName pool) :
    Shut ((opened pool).step (rowLine 0 pool c)) ∧
      weightAt k ((opened pool).step (rowLine 0 pool c)).pools ≤ weightAt k (opened pool).pools := by
  rcases step_row_cases (opened pool) 0 c hw with
    ⟨-, name, hstep⟩ | ⟨-, hstep⟩ | ⟨hpool, herrors, pool', htree, hstep⟩ | ⟨hnot, -⟩
  · rw [hstep]
    exact ⟨Or.inl rfl, weight_openPool⟩
  · rw [hstep]
    exact ⟨Or.inl rfl, le_refl _⟩
  · have hname : pool = "NAME" := by
      by_contra hne
      exact hplain ⟨hne, hpool, herrors⟩
    obtain rfl : pool = pool' := Option.some.inj htree.pool
    have hentry : (opened pool).entry pool pool (some c.state) (4 + 2 * 0) = opened pool := by
      unfold Parser.entry
      dsimp only
      rw [if_pos hname]
    rw [hstep, hentry]
    exact ⟨Or.inr ⟨congrArg some hname, rfl⟩, le_refl _⟩
  · exact absurd ⟨rfl, rfl⟩ (hnot pool)

end Shut

namespace StatusTree

/-- The names below the pool's own. -/
def below (s : StatusTree) : List Str :=
  s.data.flatMap TopVdev.names ++ s.groups.flatMap (fun g => g.vdevs.flatMap TopVdev.names)

end StatusTree

theorem vdevWeight_vdev {tier : Tier} {t : TopVdev} : vdevWeight (t.vdev tier) = t.names.length := by
  cases t with
  | bare name columns isDevice notHeading => rfl
  | container kind columns members =>
    cases kind <;> simp [TopVdev.vdev, TopVdev.names, vdevWeight, Container.redundancy, Nat.add_comm]

theorem sum_vdevWeight {tier : Tier} {ts : List TopVdev} :
    ((ts.map (TopVdev.vdev tier)).map vdevWeight).sum = (ts.flatMap TopVdev.names).length := by
  induction ts with
  | nil => rfl
  | cons t ts ih =>
    rw [List.map_cons, List.map_cons, List.sum_cons, ih, vdevWeight_vdev, List.flatMap_cons,
      List.length_append]

/-- What should be read has all the rows. -/
theorem weight_vdevs (s : StatusTree) :
    weightAt s.pool.text (topologyOf s.pool.text s.vdevs) = s.below.length := by
  have hgroups : ∀ gs : List AuxGroup,
      ((gs.flatMap (fun g => g.vdevs.map (TopVdev.vdev g.tier.tier))).map vdevWeight).sum =
        (gs.flatMap (fun g => g.vdevs.flatMap TopVdev.names)).length := by
    intro gs
    induction gs with
    | nil => rfl
    | cons g gs ih =>
      rw [List.flatMap_cons, List.flatMap_cons, List.map_append, List.sum_append, ih,
        sum_vdevWeight, List.length_append]
  have hget : (topologyOf s.pool.text s.vdevs).get? s.pool.text = some s.vdevs := by
    simp [topologyOf, Dict.get?]
  rw [weightAt, hget, Option.getD_some, StatusTree.vdevs, List.map_append, List.sum_append,
    sum_vdevWeight, hgroups, StatusTree.below, List.length_append]

/-- A name that is a keyword costs a row. -/
theorem weight_lost {s : StatusTree} (hplain : ¬ ∀ name ∈ s.names, IsPlainName name) :
    weightAt s.pool.text (parseTopology s.text) < s.below.length := by
  have hpositive : 0 < s.below.length := by
    have hnames : 0 < s.first.names.length := by
      cases s.first <;> exact Nat.succ_pos _
    rw [StatusTree.below, StatusTree.data, List.flatMap_cons, List.length_append, List.length_append]
    omega
  have hstart : weightAt s.pool.text (opened s.pool.text).pools = 0 := by
    simp [weightAt, opened, topologyOf, Dict.get?]
  rw [parse_eq]
  by_cases hpool : IsPlainName s.pool.text
  · have hbelow : ¬ ∀ name ∈ s.below, IsPlainName name := by
      intro hall
      exact hplain (List.forall_mem_cons.mpr ⟨hpool, hall⟩)
    have hcount : s.below.countP (fun n => IsPlainName n) < s.below.length := by
      apply Nat.lt_of_le_of_ne List.countP_le_length
      intro heq
      apply hbelow
      intro name hname
      exact of_decide_eq_true (List.countP_eq_length.mp heq name hname)
    have hweighs := ((weighs_vdevs s.data).append (weighs_groups s.groups)) s.pool.text
      (reading s.pool.text [] .data none false)
    have hzero : weightAt s.pool.text (reading s.pool.text [] .data none false).pools = 0 := hstart
    rw [step_pool s.pool.isWord hpool]
    rw [hzero, Nat.zero_add] at hweighs
    exact lt_of_le_of_lt hweighs hcount
  · obtain ⟨hshut, hweight⟩ := shut_pool (k := s.pool.text) (c := s.columns) s.pool.isWord hpool
    have hrest := foldl_shut (k := s.pool.text) hshut (isTreeLine_treeLines (s := s))
    omega

/-- The tree of a pool is read back from what is printed about it if and only
if none of its names is taken for a keyword. -/
theorem topology_recovered_iff (s : StatusTree) :
    TopologyRecovered s ↔ ∀ name ∈ s.names, IsPlainName name := by
  constructor
  · intro ⟨hparse, _⟩
    by_contra hplain
    have hlost := weight_lost hplain
    rw [hparse, weight_vdevs] at hlost
    exact lt_irrefl _ hlost
  · intro hplain
    have hparse := parse_plain hplain
    exact ⟨hparse, by rw [hparse]; exact findings_eq s⟩

theorem sda_isWordText : IsWordText ("sda" : Str) := ⟨by decide, by decide⟩

theorem online_mem_states : ("ONLINE" : Str) ∈ vdevStates := by decide

theorem noDataErrors_noBreak : NoBreak ("No known data errors" : Str) := by decide

/-- A pool on one disk.  Its name is that of the first column. -/
def namedLikeTheColumn : StatusTree where
  pool := ⟨"NAME", by decide, by decide⟩
  columns := ⟨8, "ONLINE", "       0     0     0", online_mem_states, by decide, by decide⟩
  first := .bare ⟨"sda", sda_isWordText⟩
    ⟨8, "ONLINE", "       0     0     0", online_mem_states, by decide, by decide⟩ (by decide)
    (by decide)
  others := []
  groups := []
  preamble := [" state: ONLINE"]
  headingGap := 8
  message := "No known data errors"
  preambleLines := by decide
  messageLine := noDataErrors_noBreak

/-- Its disk is not found, and no finding says that it stands alone. -/
theorem topology_lost : ¬ TopologyRecovered namedLikeTheColumn := by
  intro ⟨hparse, _⟩
  have hread : parseTopology namedLikeTheColumn.text = topologyOf "NAME" [] := by decide
  rw [hread] at hparse
  exact absurd hparse (by decide)

end PveZfsTool
