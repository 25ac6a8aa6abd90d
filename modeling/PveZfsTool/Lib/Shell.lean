import PveZfsTool.Lib.Text

/-!
# The words of a command line

How a POSIX shell splits a command line: the rules of token recognition and of
quoting.  `lex` does both at once.  It gives the words with their quotes
removed, and a token for everything that makes the line more than one simple
command with fixed words: an operator, a line break, or a character that
starts an expansion.

* `lex_start`, `lex_end`: a plain word between blanks is a word of the line.
* `lex_first`, `lex_next`: the first word of a line without quotes, and what
  is left after it.
-/

namespace Shell

open Text

inductive Token where
  | word (s : Str)
  | operator (c : Char)
  | newline
  /-- The words depend on the state of the shell. -/
  | expansion (c : Char)
  deriving DecidableEq

/-- Where in a quote or in a comment the lexer is. -/
inductive Mode where
  | plain
  | escaped
  | single
  | double
  | doubleEscaped
  | comment
  deriving DecidableEq

/-- The class `blank`. -/
def isBlank (c : Char) : Bool := c == ' ' || c == '\t'

/-- The first characters of the operators. -/
def isOperator (c : Char) : Bool := ";&|<>()".toList.contains c

/-- The characters that start an expansion or a pattern. -/
def isExpansion (c : Char) : Bool := "$`*?[".toList.contains c

/-- The characters that stand for themselves wherever they are. -/
def isPlain (c : Char) : Bool :=
  !(isBlank c || c == '\n' || isOperator c || isExpansion c || "\\'\"#~".toList.contains c)

/-- The word that ends here.  `none` where no word has begun. -/
def flush : Option Str → List Token
  | none => []
  | some w => [.word w]

/-- The word with one more character. -/
def push (cur : Option Str) (c : Char) : Option Str := some (cur.getD [] ++ [c])

/-- The tokens of a line.  `cur` is the word read so far.  There are none when
a quote is not closed. -/
def lex : Mode → Option Str → Str → Option (List Token)
  | .plain, cur, [] => some (flush cur)
  | .comment, cur, [] => some (flush cur)
  | .escaped, cur, [] => some (flush (push cur '\\'))
  | _, _, [] => none
  | .plain, cur, c :: s =>
      if isPlain c then lex .plain (push cur c) s
      else if isBlank c then (lex .plain none s).map (flush cur ++ ·)
      else if c = '\n' then (lex .plain none s).map (flush cur ++ .newline :: ·)
      else if isOperator c then (lex .plain none s).map (flush cur ++ .operator c :: ·)
      else if isExpansion c then (lex .plain none s).map (flush cur ++ .expansion c :: ·)
      else if c = '\\' then lex .escaped cur s
      else if c = '\'' then lex .single (some (cur.getD [])) s
      else if c = '"' then lex .double (some (cur.getD [])) s
      -- `#` and `~` mean something at the start of a word only.
      else if cur.isSome then lex .plain (push cur c) s
      else if c = '#' then lex .comment none s
      else (lex .plain none s).map (.expansion c :: ·)
  | .escaped, cur, c :: s => if c = '\n' then lex .plain cur s else lex .plain (push cur c) s
  | .single, cur, c :: s => if c = '\'' then lex .plain cur s else lex .single (push cur c) s
  | .double, cur, c :: s =>
      if c = '"' then lex .plain cur s
      else if c = '\\' then lex .doubleEscaped cur s
      else if c = '$' ∨ c = '`' then (lex .double cur s).map (.expansion c :: ·)
      else lex .double (push cur c) s
  | .doubleEscaped, cur, c :: s =>
      if c = '\n' then lex .double cur s
      else if "$`\"\\".toList.contains c then lex .double (push cur c) s
      else lex .double (push (push cur '\\') c) s
  | .comment, cur, c :: s =>
      if c = '\n' then (lex .plain none s).map (.newline :: ·) else lex .comment cur s

/-- The tokens of a command line. -/
def tokens (s : Str) : Option (List Token) := lex .plain none s

/-! ## Plain text -/

variable {cur : Option Str} {c : Char} {s u w : Str} {ts : List Token}

theorem lex_plain (h : isPlain c = true) :
    lex .plain cur (c :: s) = lex .plain (push cur c) s := by
  rw [lex, if_pos h]

theorem not_plain_of_blank (h : isBlank c = true) : isPlain c = false := by
  simp [isPlain, h]

theorem lex_blank (h : isBlank c = true) :
    lex .plain cur (c :: s) = (lex .plain none s).map (flush cur ++ ·) := by
  rw [lex, if_neg (by simp [not_plain_of_blank h]), if_pos h]

theorem lex_newline :
    lex .plain cur ('\n' :: s) = (lex .plain none s).map (flush cur ++ .newline :: ·) := by
  rw [lex, if_neg (by decide), if_neg (by decide), if_pos rfl]

/-- Plain text makes the word longer. -/
theorem lex_append (h : ∀ c ∈ w, isPlain c = true) :
    lex .plain (some u) (w ++ s) = lex .plain (some (u ++ w)) s := by
  induction w generalizing u with
  | nil => rw [List.nil_append, List.append_nil]
  | cons c w ih =>
    rw [List.cons_append, lex_plain (h c List.mem_cons_self), push, Option.getD_some,
      ih (fun d hd => h d (List.mem_cons_of_mem _ hd)), List.append_assoc]
    rfl

/-- Plain text starts a word. -/
theorem lex_start (h : ∀ c ∈ w, isPlain c = true) (hne : w ≠ []) :
    lex .plain none (w ++ s) = lex .plain (some w) s := by
  cases w with
  | nil => exact absurd rfl hne
  | cons c w =>
    rw [List.cons_append, lex_plain (h c List.mem_cons_self)]
    exact lex_append (fun d hd => h d (List.mem_cons_of_mem _ hd))

/-- Blanks between words count for nothing. -/
theorem lex_skip {b : Str} (h : ∀ c ∈ b, isBlank c = true) :
    lex .plain none (b ++ s) = lex .plain none s := by
  induction b with
  | nil => rfl
  | cons c b ih =>
    rw [List.cons_append, lex_blank (h c List.mem_cons_self),
      ih (fun d hd => h d (List.mem_cons_of_mem _ hd))]
    simp [flush]

/-- A blank ends the word. -/
theorem lex_end (h : isBlank c = true) :
    lex .plain (some w) (c :: s) = (lex .plain none s).map (.word w :: ·) := by
  rw [lex_blank h]
  rfl

/-- A plain word between blanks is a word. -/
theorem lex_word (h : ∀ c ∈ w, isPlain c = true) (hne : w ≠ []) (hc : isBlank c = true) :
    lex .plain none (w ++ c :: s) = (lex .plain none s).map (.word w :: ·) := by
  rw [lex_start h hne, lex_end hc]

/-- The word after which only blanks and another word come. -/
theorem lex_end_skip {b : Str} (hb : ∀ c ∈ b, isBlank c = true) (hc : isBlank c = true) :
    lex .plain (some w) (b ++ c :: s) = (lex .plain none (c :: s)).map (.word w :: ·) := by
  have hskip : lex .plain none (c :: s) = lex .plain none s :=
    lex_skip (b := [c]) (by simpa using hc)
  rw [hskip]
  cases b with
  | nil => exact lex_end hc
  | cons d b =>
    rw [List.cons_append, lex_end (hb d List.mem_cons_self),
      lex_skip (fun e he => hb e (List.mem_cons_of_mem _ he)), ← hskip]

/-- The last word of a line, with blanks after it. -/
theorem lex_last {b : Str} (h : ∀ c ∈ w, isPlain c = true) (hne : w ≠ [])
    (hb : ∀ c ∈ b, isBlank c = true) : lex .plain none (w ++ b) = some [.word w] := by
  rw [lex_start h hne]
  cases b with
  | nil => rfl
  | cons d b =>
    have hrest : lex .plain none b = some [] := by
      have hskip := lex_skip (s := []) (fun e he => hb e (List.mem_cons_of_mem _ he))
      rwa [List.append_nil] at hskip
    rw [lex_end (hb d List.mem_cons_self), hrest]
    rfl

/-! ## Text without quotes -/

/-- Text that a shell takes apart at blanks and line breaks only. -/
def Inert (s : Str) : Prop := ∀ c ∈ s, isPlain c = true ∨ isBlank c = true ∨ c = '\n'

theorem Inert.tail (h : Inert (c :: s)) : Inert s := fun d hd => h d (List.mem_cons_of_mem _ hd)

/-- The word that was begun goes on as far as the text is plain. -/
theorem lex_first (hs : Inert s) (h : lex .plain (some u) s = some (.word w :: ts)) :
    w = u ++ s.takeWhile isPlain ∧ lex .plain none (s.dropWhile isPlain) = some ts := by
  induction s generalizing u with
  | nil =>
    simp only [lex, flush, Option.some.injEq, List.cons.injEq, Token.word.injEq] at h
    obtain ⟨rfl, rfl⟩ := h
    exact ⟨by simp, rfl⟩
  | cons c s ih =>
    rcases hs c List.mem_cons_self with hplain | hblank | rfl
    · rw [lex_plain hplain, push, Option.getD_some] at h
      obtain ⟨rfl, hrest⟩ := ih hs.tail h
      rw [List.takeWhile_cons_of_pos hplain, List.dropWhile_cons_of_pos hplain]
      exact ⟨by simp, hrest⟩
    · have hnot : ¬ isPlain c = true := by simp [not_plain_of_blank hblank]
      rw [lex_end hblank] at h
      obtain ⟨ts', hts', heq⟩ := Option.map_eq_some_iff.mp h
      simp only [List.cons.injEq, Token.word.injEq] at heq
      obtain ⟨rfl, rfl⟩ := heq
      rw [List.takeWhile_cons_of_neg hnot, List.dropWhile_cons_of_neg hnot, lex_blank hblank, hts']
      exact ⟨by simp, by simp [flush]⟩
    · have hnot : ¬ isPlain '\n' = true := by decide
      rw [lex_newline] at h
      obtain ⟨ts', hts', heq⟩ := Option.map_eq_some_iff.mp h
      simp only [flush, List.singleton_append, List.cons.injEq, Token.word.injEq] at heq
      obtain ⟨rfl, rfl⟩ := heq
      rw [List.takeWhile_cons_of_neg hnot, List.dropWhile_cons_of_neg hnot, lex_newline, hts']
      exact ⟨by simp, by simp [flush]⟩

/-- The next word comes after the blanks. -/
theorem lex_next (hs : Inert s) (h : lex .plain none s = some (.word w :: ts)) :
    (s.dropWhile isBlank).takeWhile isPlain = w ∧
      lex .plain none ((s.dropWhile isBlank).dropWhile isPlain) = some ts := by
  induction s with
  | nil => simp [lex, flush] at h
  | cons c s ih =>
    rcases hs c List.mem_cons_self with hplain | hblank | rfl
    · have hnot : ¬ isBlank c = true := by
        intro hblank
        rw [not_plain_of_blank hblank] at hplain
        cases hplain
      rw [lex_plain hplain, push, Option.getD_none, List.nil_append] at h
      obtain ⟨rfl, hrest⟩ := lex_first hs.tail h
      rw [List.dropWhile_cons_of_neg hnot, List.takeWhile_cons_of_pos hplain,
        List.dropWhile_cons_of_pos hplain]
      exact ⟨rfl, hrest⟩
    · rw [lex_blank hblank] at h
      rw [List.dropWhile_cons_of_pos hblank]
      exact ih hs.tail (by simpa [flush] using h)
    · rw [lex_newline] at h
      obtain ⟨ts', -, heq⟩ := Option.map_eq_some_iff.mp h
      simp [flush] at heq

end Shell
