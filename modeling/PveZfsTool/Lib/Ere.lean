import PveZfsTool.Lib.Text

/-!
# Extended regular expressions of POSIX

The part of the syntax that covers patterns from `^` to `$` with single
characters, `.`, bracket expressions, groups and the quantifiers `*`, `+` and
`?`.  `*` and `+` stand after a single character or a bracket expression.

`parse` reads a pattern character by character.  A bracket expression ends at
its first `]` that is neither its first character nor the end of a class such
as `[:space:]`, and a `[` in it that opens no class stands for itself.
`rests` runs a pattern and `Matches` is what it means.

* `mem_rests`, `grepLine_iff`: a pattern is run as it is meant.
* `read_escaped`: an escaped text is read as itself.
* `Leads`: what every match starts with.
-/

namespace Ere

open Text

/-! ## Patterns -/

inductive ClassItem where
  | char (c : Char)
  /-- `[:space:]` -/
  | space
  deriving DecidableEq

/-- What stands for one character. -/
inductive CharSet where
  /-- `.` -/
  | any
  | lit (c : Char)
  | bracket (negated : Bool) (items : List ClassItem)
  deriving DecidableEq

inductive Pattern where
  | empty
  | one (cs : CharSet)
  /-- `*` after a single character. -/
  | many (cs : CharSet)
  | opt (p : Pattern)
  | seq (p q : Pattern)
  deriving DecidableEq

/-- The class `[:space:]`. -/
def isBlank (c : Char) : Bool := (9 ≤ c.toNat && c.toNat ≤ 13) || c == ' '

def ClassItem.mem (c : Char) : ClassItem → Bool
  | .char d => c == d
  | .space => isBlank c

def CharSet.mem (c : Char) : CharSet → Bool
  | .any => true
  | .lit d => c == d
  | .bracket negated items => items.any (ClassItem.mem c) != negated

/-- The pattern matches the whole text. -/
def Pattern.Matches : Pattern → Str → Prop
  | .empty, s => s = []
  | .one cs, s => ∃ c, s = [c] ∧ cs.mem c = true
  | .many cs, s => ∀ c ∈ s, cs.mem c = true
  | .opt p, s => s = [] ∨ p.Matches s
  | .seq p q, s => ∃ u v, s = u ++ v ∧ p.Matches u ∧ q.Matches v

/-- What `*` can leave of a text. -/
def restsMany (cs : CharSet) : Str → List Str
  | [] => [[]]
  | c :: s => (c :: s) :: (if cs.mem c then restsMany cs s else [])

/-- What the pattern can leave of a text that it matches the front of. -/
def Pattern.rests : Pattern → Str → List Str
  | .empty, s => [s]
  | .one _, [] => []
  | .one cs, c :: s => if cs.mem c then [s] else []
  | .many cs, s => restsMany cs s
  | .opt p, s => s :: p.rests s
  | .seq p q, s => (p.rests s).flatMap q.rests

/-! ## The syntax -/

/-- What a quantifier can stand after. -/
inductive Atom where
  | set (cs : CharSet)
  | group (p : Pattern)
  deriving DecidableEq

def Atom.pattern : Atom → Pattern
  | .set cs => .one cs
  | .group p => p

/-- Where in the syntax a pattern has been read to. -/
inductive Mode where
  | plain
  /-- After a backslash. -/
  | escaped
  /-- After the `[` of a bracket expression. -/
  | bracketOpen
  /-- In a bracket expression, the last item first. -/
  | bracket (negated : Bool) (items : List ClassItem)
  /-- After a `[` in a bracket expression. -/
  | classOpen (negated : Bool) (items : List ClassItem)
  /-- After a `[:`, the last character first. -/
  | className (negated : Bool) (items : List ClassItem) (name : Str)
  /-- After the `$`. -/
  | ended
  deriving DecidableEq

/-- A pattern that is read up to some place.  `outer` are the groups that
are open around `cur`, and `last` may still get a quantifier. -/
structure Reader where
  mode : Mode := .plain
  outer : List Pattern := []
  cur : Pattern := .empty
  last : Option Atom := none
  deriving DecidableEq

/-- The pattern of the innermost group. -/
def Reader.flush (r : Reader) : Pattern :=
  match r.last with
  | none => r.cur
  | some a => r.cur.seq a.pattern

def Reader.push (r : Reader) (a : Atom) : Reader :=
  { r with mode := .plain, cur := r.flush, last := some a }

/-- Put `p` in the place of the last atom. -/
def Reader.quantify (r : Reader) (p : Pattern) : Reader :=
  { r with cur := r.cur.seq p, last := none }

/-- The characters that a backslash makes ordinary. -/
def isSpecial (c : Char) : Bool := ".[]\x7b\x7d()*+?^$|\\".toList.contains c

def stepPlain (r : Reader) (c : Char) : Option Reader :=
  match c with
  | '\\' => some { r with mode := .escaped }
  | '[' => some { r with mode := .bracketOpen }
  | '.' => some (r.push (.set .any))
  | '(' => some { r with outer := r.flush :: r.outer, cur := .empty, last := none }
  | ')' => match r.outer with
      | [] => none
      | p :: outer => some { r with outer, cur := p, last := some (.group r.flush) }
  | '*' => match r.last with
      | some (.set cs) => some (r.quantify (.many cs))
      | _ => none
  | '+' => match r.last with
      | some (.set cs) => some (r.quantify (.seq (.one cs) (.many cs)))
      | _ => none
  | '?' => match r.last with
      | some a => some (r.quantify (.opt a.pattern))
      | none => none
  | '$' => some { r with mode := .ended }
  | c => if c ∈ ['{', '}', '|', '^'] then none else some (r.push (.set (.lit c)))

/-- One character of a bracket expression. -/
def stepBracket (r : Reader) (negated : Bool) (items : List ClassItem) (c : Char) :
    Option Reader :=
  match c with
  | ']' =>
      if items = [] then some { r with mode := .bracket negated [.char ']'] }
      else some (r.push (.set (.bracket negated items.reverse)))
  | '[' => some { r with mode := .classOpen negated items }
  | '-' => none
  | c => some { r with mode := .bracket negated (.char c :: items) }

/-- One character of a pattern.  `none` where the syntax is not covered. -/
def step (r : Reader) (c : Char) : Option Reader :=
  match r.mode with
  | .plain => stepPlain r c
  | .escaped => if isSpecial c then some (r.push (.set (.lit c))) else none
  | .bracketOpen =>
      if c = '^' then some { r with mode := .bracket true [] } else stepBracket r false [] c
  | .bracket negated items => stepBracket r negated items c
  | .classOpen negated items =>
      if c = ':' then some { r with mode := .className negated items [] }
      else if c = '.' ∨ c = '=' then none
      else stepBracket r negated (.char '[' :: items) c
  | .className negated items name =>
      if c = ']' ∧ name.head? = some ':' then
        if name.reverse = "space:" then some { r with mode := .bracket negated (.space :: items) }
        else none
      else some { r with mode := .className negated items (c :: name) }
  | .ended => none

/-- The characters from a place of a pattern on. -/
def read (r : Reader) (s : Str) : Option Reader := s.foldlM step r

def finish (r : Reader) : Option Pattern :=
  if r.mode = .ended ∧ r.outer = [] then some r.flush else none

def parse : Str → Option Pattern
  | '^' :: s => (read {} s).bind finish
  | _ => none

/-- `grep -E` finds the pattern in the line. -/
def grepLine (pattern line : Str) : Bool :=
  match parse pattern with
  | some p => (p.rests line).contains []
  | none => false

/-- The second `]` does not belong to the bracket expression. -/
example : parse "^[^#[[:space:]]]$" =
    some (.seq (.seq .empty (.one (.bracket true [.char '#', .char '[', .space])))
      (.one (.lit ']'))) := by decide

/-! ## Matching -/

theorem mem_restsMany {cs : CharSet} {s t : Str} :
    t ∈ restsMany cs s ↔ ∃ u, s = u ++ t ∧ ∀ c ∈ u, cs.mem c = true := by
  induction s with
  | nil =>
    rw [restsMany, List.mem_singleton]
    constructor
    · intro h
      exact ⟨[], by simp [h], by simp⟩
    · intro ⟨u, hu, _⟩
      exact (List.append_eq_nil_iff.mp hu.symm).2
  | cons c s ih =>
    rw [restsMany, List.mem_cons]
    constructor
    · intro h
      rcases h with h | h
      · exact ⟨[], by simp [h], by simp⟩
      · by_cases hc : cs.mem c = true
        · rw [if_pos hc] at h
          obtain ⟨u, hu, hall⟩ := ih.mp h
          exact ⟨c :: u, by simp [hu], List.forall_mem_cons.mpr ⟨hc, hall⟩⟩
        · rw [if_neg hc] at h
          cases h
    · intro ⟨u, hu, hall⟩
      cases u with
      | nil => exact .inl hu.symm
      | cons d u =>
        simp only [List.cons_append, List.cons.injEq] at hu
        have hc : cs.mem c = true := hu.1 ▸ hall d List.mem_cons_self
        rw [if_pos hc]
        exact .inr (ih.mpr ⟨u, hu.2, fun c' hc' => hall c' (List.mem_cons_of_mem _ hc')⟩)

/-- A pattern leaves what stands after a match. -/
theorem mem_rests {p : Pattern} {s t : Str} :
    t ∈ p.rests s ↔ ∃ u, s = u ++ t ∧ p.Matches u := by
  induction p generalizing s t with
  | empty =>
    rw [Pattern.rests, List.mem_singleton]
    constructor
    · intro h
      exact ⟨[], by simp [h], rfl⟩
    · intro ⟨u, hu, hnil⟩
      rw [hu, show u = [] from hnil, List.nil_append]
  | one cs =>
    cases s with
    | nil =>
      simp only [Pattern.rests, List.not_mem_nil, false_iff]
      intro ⟨u, hu, c, hc, _⟩
      rw [hc] at hu
      cases hu
    | cons c s =>
      rw [Pattern.rests]
      by_cases hc : cs.mem c = true
      · rw [if_pos hc, List.mem_singleton]
        constructor
        · intro h
          exact ⟨[c], by simp [h], c, rfl, hc⟩
        · intro ⟨u, hu, d, hd, _⟩
          rw [hd] at hu
          exact (List.cons.inj hu).2.symm
      · rw [if_neg hc]
        constructor
        · nofun
        · intro ⟨u, hu, d, hd, hmem⟩
          rw [hd] at hu
          exact absurd ((List.cons.inj hu).1 ▸ hmem) hc
  | many cs => exact mem_restsMany
  | opt p ih =>
    rw [Pattern.rests, List.mem_cons, ih]
    constructor
    · intro h
      rcases h with h | ⟨u, hu, hp⟩
      · exact ⟨[], by simp [h], .inl rfl⟩
      · exact ⟨u, hu, .inr hp⟩
    · intro ⟨u, hu, h⟩
      rcases h with h | h
      · exact .inl (by rw [hu, h, List.nil_append])
      · exact .inr ⟨u, hu, h⟩
  | seq p q ihp ihq =>
    rw [Pattern.rests, List.mem_flatMap]
    constructor
    · intro ⟨r, hr, ht⟩
      obtain ⟨u, hu, hp⟩ := ihp.mp hr
      obtain ⟨v, hv, hq⟩ := ihq.mp ht
      exact ⟨u ++ v, by rw [hu, hv, List.append_assoc], u, v, rfl, hp, hq⟩
    · intro ⟨uv, huv, u, v, heq, hp, hq⟩
      exact ⟨v ++ t, ihp.mpr ⟨u, by rw [huv, heq, List.append_assoc], hp⟩, ihq.mpr ⟨v, rfl, hq⟩⟩

theorem grepLine_iff {pattern line : Str} {p : Pattern} (h : parse pattern = some p) :
    grepLine pattern line = true ↔ p.Matches line := by
  rw [grepLine, h]
  show (p.rests line).contains [] = true ↔ _
  rw [List.contains_iff_mem, mem_rests]
  constructor
  · intro ⟨u, hu, hp⟩
    rw [hu, List.append_nil]
    exact hp
  · intro hp
    exact ⟨line, by simp, hp⟩

/-! ## Reading -/

theorem read_append {r : Reader} {s t : Str} :
    read r (s ++ t) = (read r s).bind (fun r' => read r' t) := List.foldlM_append

/-- A text with a backslash before every special character. -/
def escape (s : Str) : Str := s.flatMap (fun c => if isSpecial c then ['\\', c] else [c])

/-- `p`, and after it the characters of a text. -/
def Pattern.lits (p : Pattern) (s : Str) : Pattern := s.foldl (fun p c => p.seq (.one (.lit c))) p

theorem read_literal {r : Reader} {c : Char} (h : r.mode = .plain) :
    read r (if isSpecial c then ['\\', c] else [c]) = some (r.push (.set (.lit c))) := by
  by_cases hc : isSpecial c = true
  · rw [if_pos hc]
    show (step r '\\').bind (fun r' => (step r' c).bind some) = _
    rw [step, h]
    show (step { r with mode := .escaped } c).bind some = _
    rw [step]
    show (if isSpecial c then _ else none).bind some = _
    rw [if_pos hc]
    rfl
  · rw [if_neg hc]
    show (step r c).bind some = _
    rw [step, h]
    show (stepPlain r c).bind some = _
    have hplain : stepPlain r c = some (r.push (.set (.lit c))) := by
      unfold stepPlain
      split
      all_goals first
        | exact absurd (by decide) hc
        | skip
      rw [if_neg]
      intro hmem
      apply hc
      simp only [List.mem_cons, List.not_mem_nil, or_false] at hmem
      rcases hmem with rfl | rfl | rfl | rfl <;> decide
    rw [hplain]
    rfl

/-- An escaped text is read as itself. -/
theorem read_escaped {r : Reader} {s : Str} (h : r.mode = .plain) :
    ∃ r', read r (escape s) = some r' ∧ r'.mode = .plain ∧ r'.outer = r.outer ∧
      r'.flush = r.flush.lits s ∧ (s ≠ [] → ∃ c, r'.last = some (.set (.lit c))) := by
  induction s generalizing r with
  | nil => exact ⟨r, rfl, h, rfl, rfl, fun hne => absurd rfl hne⟩
  | cons c s ih =>
    obtain ⟨r', hread, hmode, houter, hflush, hlast⟩ := ih (r := r.push (.set (.lit c))) rfl
    refine ⟨r', ?_, hmode, houter, hflush, fun _ => ?_⟩
    · rw [escape, List.flatMap_cons, read_append, read_literal h]
      exact hread
    · by_cases hnil : s = []
      · subst hnil
        have heq : r.push (.set (.lit c)) = r' := Option.some.inj hread
        exact ⟨c, by rw [← heq]; rfl⟩
      · exact hlast hnil

/-! ## What a match starts with -/

/-- Every match of `q` starts with a match of `p`. -/
def Leads (p q : Pattern) : Prop := ∀ s, q.Matches s → ∃ u v, s = u ++ v ∧ p.Matches u

theorem Leads.refl {p : Pattern} : Leads p p := fun s h => ⟨s, [], by simp, h⟩

theorem Leads.seq {p q r : Pattern} (h : Leads p q) : Leads p (q.seq r) := by
  intro s hs
  obtain ⟨u, v, rfl, hq, -⟩ := hs
  obtain ⟨u₁, u₂, rfl, hp⟩ := h u hq
  exact ⟨u₁, u₂ ++ v, by simp, hp⟩

theorem Leads.lits {p q : Pattern} {s : Str} (h : Leads p q) : Leads p (q.lits s) := by
  induction s generalizing q with
  | nil => exact h
  | cons c s ih => exact ih h.seq

end Ere
