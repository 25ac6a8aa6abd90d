import Mathlib.Data.List.Infix
import Mathlib.Data.List.Dedup
import Mathlib.Data.List.Sort
import Mathlib.Data.List.TakeWhile

/-!
# Text as Python's `str` sees it

A text is a list of characters.  The definitions follow the documented
behaviour of the `str` methods, of the character classes of `re`, of
`int` and of `shlex.quote`.  A string literal is read as a text through
`String.toList`.

* `strip`, `splitLines`, `splitOn`, `afterFirst`, `afterLast`, `join`,
  `lower` are the methods of the same purpose.
* `isDecimal`, `isSpace` and `isWord` are the classes `\d`, `\s` and `\w`.
  `isWord` covers the ASCII range, which is the range ZFS and PVE names are
  written in.
-/

namespace Text

/-- A Python text. -/
abbrev Str := List Char

instance : Coe String Str := ⟨String.toList⟩

instance lawfulBEqStr : LawfulBEq Str := inferInstance

/-- The characters of a text are looked at, and not all there are. -/
instance (priority := high) decidableForallMem (p : Char → Prop) [DecidablePred p] (s : Str) :
    Decidable (∀ c, c ∈ s → p c) := List.decidableBAll p s

/-! ## Character classes -/

/-- `str.isspace` of one character, which is also the class `\s`. -/
def isSpace (c : Char) : Bool :=
  let n := c.toNat
  (9 ≤ n && n ≤ 13) || (28 ≤ n && n ≤ 32) || n == 0x85 || n == 0xA0 || n == 0x1680 ||
    (0x2000 ≤ n && n ≤ 0x200A) || n == 0x2028 || n == 0x2029 || n == 0x202F || n == 0x205F ||
    n == 0x3000

/-- The characters `str.splitlines` splits at. -/
def isLineBreak (c : Char) : Bool :=
  let n := c.toNat
  (10 ≤ n && n ≤ 13) || (28 ≤ n && n ≤ 30) || n == 0x85 || n == 0x2028 || n == 0x2029

/-- The zero of each run of ten decimal digits in Unicode. -/
def decimalZeros : List Nat :=
  [0x30, 0x660, 0x6F0, 0x7C0, 0x966, 0x9E6, 0xA66, 0xAE6, 0xB66, 0xBE6, 0xC66, 0xCE6, 0xD66,
    0xDE6, 0xE50, 0xED0, 0xF20, 0x1040, 0x1090, 0x17E0, 0x1810, 0x1946, 0x19D0, 0x1A80, 0x1A90,
    0x1B50, 0x1BB0, 0x1C40, 0x1C50, 0xA620, 0xA8D0, 0xA900, 0xA9D0, 0xA9F0, 0xAA50, 0xABF0,
    0xFF10, 0x104A0, 0x10D30, 0x10D40, 0x11066, 0x110F0, 0x11136, 0x111D0, 0x112F0, 0x11450,
    0x114D0, 0x11650, 0x116C0, 0x116D0, 0x116DA, 0x11730, 0x118E0, 0x11950, 0x11BF0, 0x11C50,
    0x11D50, 0x11DA0, 0x11F50, 0x16A60, 0x16AC0, 0x16B50, 0x16D70, 0x1CCF0, 0x1D7CE, 0x1D7D8,
    0x1D7E2, 0x1D7EC, 0x1D7F6, 0x1E140, 0x1E2F0, 0x1E4F0, 0x1E5F1, 0x1E950, 0x1FBF0]

/-- The value of a decimal digit. -/
def decimal? (c : Char) : Option Nat :=
  (decimalZeros.find? (fun z => z ≤ c.toNat && c.toNat < z + 10)).map (fun z => c.toNat - z)

/-- The class `\d`. -/
def isDecimal (c : Char) : Bool := (decimal? c).isSome

/-- `[0-9]` -/
def isAsciiDigit (c : Char) : Bool := '0' ≤ c && c ≤ '9'

/-- `[a-z]` -/
def isAsciiLower (c : Char) : Bool := 'a' ≤ c && c ≤ 'z'

/-- `[A-Z]` -/
def isAsciiUpper (c : Char) : Bool := 'A' ≤ c && c ≤ 'Z'

/-- `[A-Za-z]` -/
def isAsciiAlpha (c : Char) : Bool := isAsciiLower c || isAsciiUpper c

/-- `[A-Za-z0-9]` -/
def isAsciiAlnum (c : Char) : Bool := isAsciiAlpha c || isAsciiDigit c

/-- The class `\w`. -/
def isWord (c : Char) : Bool := isAsciiAlnum c || c == '_'

/-! ## Methods -/

/-- `str.lstrip` of whitespace. -/
def lstrip (s : Str) : Str := s.dropWhile isSpace

/-- `str.rstrip` of whitespace. -/
def rstrip (s : Str) : Str := (s.reverse.dropWhile isSpace).reverse

/-- `str.strip` of whitespace. -/
def strip (s : Str) : Str := rstrip (lstrip s)

/-- `str.lower`, on the ASCII letters. -/
def lower (s : Str) : Str := s.map Char.toLower

/-- `sub in s` -/
def contains (s sub : Str) : Bool := decide (sub <:+: s)

/-- `s.startswith(pre)` -/
def startsWith (s pre : Str) : Bool := pre.isPrefixOf s

/-- The lines of a text.  `cur` is the line read so far, last character
first. -/
def splitLinesAux : Str → Str → List Str
  | cur, [] => if cur = [] then [] else [cur.reverse]
  | cur, '\r' :: '\n' :: s => cur.reverse :: splitLinesAux [] s
  | cur, c :: s =>
      if isLineBreak c then cur.reverse :: splitLinesAux [] s else splitLinesAux (c :: cur) s

/-- `str.splitlines` -/
def splitLines (s : Str) : List Str := splitLinesAux [] s

/-- `s.split(sep)` for a separator of one character.  There is always at
least one piece. -/
def splitOn (sep : Char) : Str → List Str
  | [] => [[]]
  | c :: s =>
      if c = sep then [] :: splitOn sep s
      else match splitOn sep s with
        | [] => [[c]]
        | piece :: pieces => (c :: piece) :: pieces

/-- The words of a text.  `cur` is the word read so far, last character
first. -/
def splitWordsAux : Str → Str → List Str
  | cur, [] => if cur = [] then [] else [cur.reverse]
  | cur, c :: s =>
      if ¬ isSpace c then splitWordsAux (c :: cur) s
      else if cur = [] then splitWordsAux [] s
      else cur.reverse :: splitWordsAux [] s

/-- `s.split()` -/
def splitWords (s : Str) : List Str := splitWordsAux [] s

/-- `s.split(None, n)`: at most `n` words, and what is left after them. -/
def splitWordsMax : Nat → Str → List Str
  | 0, s => if lstrip s = [] then [] else [lstrip s]
  | n + 1, s =>
      if lstrip s = [] then []
      else (lstrip s).takeWhile (fun c => !isSpace c) ::
        splitWordsMax n ((lstrip s).dropWhile (fun c => !isSpace c))

/-- `s.split(sep, 1)[0]` -/
def beforeFirst (sep : Char) (s : Str) : Str := s.takeWhile (· ≠ sep)

/-- `s.split(sep, 1)[-1]`: all of `s` when there is no separator. -/
def afterFirst (sep : Char) (s : Str) : Str :=
  match s.dropWhile (· ≠ sep) with
  | [] => s
  | _ :: rest => rest

/-- `s.rsplit(sep, 1)[-1]`: all of `s` when there is no separator. -/
def afterLast (sep : Char) (s : Str) : Str := (s.reverse.takeWhile (· ≠ sep)).reverse

/-- `sep.join(parts)` -/
def join (sep : Str) : List Str → Str
  | [] => []
  | [s] => s
  | s :: rest => s ++ sep ++ join sep rest

/-- `str(n)` of a number. -/
def ofNat (n : Nat) : Str := Nat.toDigits 10 n

/-- A pattern that ends in `$` also matches before one newline at the end
of the text. -/
def atDollar (p : Str → Bool) (s : Str) : Bool :=
  p s || match s.reverse with
    | '\n' :: r => p r.reverse
    | _ => false

/-! ## `int` -/

/-- The digits of an integer literal, with single underscores between
them.  `none` for any other text. -/
def digitsValue : Nat → Str → Option Nat
  | acc, [] => some acc
  | acc, '_' :: c :: s => (decimal? c).bind (fun d => digitsValue (acc * 10 + d) s)
  | acc, c :: s => (decimal? c).bind (fun d => digitsValue (acc * 10 + d) s)

/-- A literal without its sign.  `int` refuses more than 4300 digits. -/
def unsignedValue : Str → Option Nat
  | [] => none
  | '_' :: _ => none
  | s => if 4300 < (s.filter isDecimal).length then none else digitsValue 0 s

/-- `int(s)` of a text.  `none` where it raises `ValueError`. -/
def toInt? (s : Str) : Option Int :=
  match strip s with
  | '-' :: s => (unsignedValue s).map (fun n => -(n : Int))
  | '+' :: s => (unsignedValue s).map (fun n => (n : Int))
  | s => (unsignedValue s).map (fun n => (n : Int))

/-- `str(n)` of an integer. -/
def ofInt : Int → Str
  | .ofNat n => ofNat n
  | .negSucc n => '-' :: ofNat (n + 1)

/-! ## Facts about `strip` -/

theorem dropWhile_eq_self {p : Char → Bool} {s : Str} (h : ∀ c ∈ s, p c = false) :
    s.dropWhile p = s := by
  cases s with
  | nil => rfl
  | cons c s => simp [h c (by simp)]

/-- A text without whitespace is its own `strip`. -/
theorem strip_eq_self {s : Str} (h : ∀ c ∈ s, isSpace c = false) : strip s = s := by
  have hl : lstrip s = s := dropWhile_eq_self h
  have hr : s.reverse.dropWhile isSpace = s.reverse :=
    dropWhile_eq_self (fun c hc => h c (List.mem_reverse.mp hc))
  rw [strip, hl, rstrip, hr, List.reverse_reverse]

/-- What holds of the 128 ASCII characters holds of each of them. -/
theorem of_ascii {P : Char → Prop} (h : ∀ n < 128, P (Char.ofNat n)) {c : Char}
    (hc : c.toNat < 128) : P c := by
  have hn := h c.toNat hc
  rwa [Char.ofNat_toNat] at hn

theorem toNat_lt_of_isAsciiAlnum {c : Char} (h : isAsciiAlnum c = true) : c.toNat < 128 := by
  simp only [isAsciiAlnum, isAsciiAlpha, isAsciiLower, isAsciiUpper, isAsciiDigit,
    Bool.or_eq_true, Bool.and_eq_true, decide_eq_true_eq] at h
  rcases h with (⟨-, h⟩ | ⟨-, h⟩) | ⟨-, h⟩
  · have hle : c.toNat ≤ 122 := h
    omega
  · have hle : c.toNat ≤ 90 := h
    omega
  · have hle : c.toNat ≤ 57 := h
    omega

theorem isSpace_of_isAsciiAlnum {c : Char} (h : isAsciiAlnum c = true) : isSpace c = false := by
  have hascii := toNat_lt_of_isAsciiAlnum h
  revert h
  exact of_ascii (P := fun c => isAsciiAlnum c = true → isSpace c = false) (by decide)
    hascii

/-- A class of letters, digits and some other ASCII characters. -/
theorem toNat_lt_of_class {others : Str} (hothers : others.all (fun c => c.toNat < 128) = true)
    {c : Char} (h : (isAsciiAlnum c || others.contains c) = true) : c.toNat < 128 := by
  rcases (Bool.or_eq_true _ _).mp h with h | h
  · exact toNat_lt_of_isAsciiAlnum h
  · have hmem := List.all_eq_true.mp hothers c (List.contains_iff_mem.mp h)
    simpa using hmem

theorem isSpace_of_isAsciiDigit {c : Char} (h : isAsciiDigit c = true) : isSpace c = false := by
  simp only [isAsciiDigit, Bool.and_eq_true, decide_eq_true_eq] at h
  have h₀ : 48 ≤ c.toNat := h.1
  have h₁ : c.toNat ≤ 57 := h.2
  simp only [isSpace, Bool.or_eq_false_iff, Bool.and_eq_false_iff, decide_eq_false_iff_not,
    beq_eq_false_iff_ne]
  omega

/-! ## Around a separator -/

theorem not_mem_beforeFirst (sep : Char) (s : Str) : sep ∉ beforeFirst sep s := by
  intro hmem
  have h := List.mem_takeWhile_imp hmem
  simp at h

/-- A text without the separator is passed over as a whole. -/
theorem ne_sep_of_not_mem {sep : Char} {a : Str} (h : sep ∉ a) :
    ∀ c ∈ a, (decide (c ≠ sep)) = true := by
  intro c hc
  simp only [decide_eq_true_eq]
  exact ne_of_mem_of_not_mem hc h

theorem beforeFirst_append {sep : Char} {a b : Str} (h : sep ∉ a) :
    beforeFirst sep (a ++ sep :: b) = a := by
  rw [beforeFirst, List.takeWhile_append_of_pos (ne_sep_of_not_mem h)]
  simp

theorem afterFirst_append {sep : Char} {a b : Str} (h : sep ∉ a) :
    afterFirst sep (a ++ sep :: b) = b := by
  rw [afterFirst, List.dropWhile_append_of_pos (ne_sep_of_not_mem h)]
  simp

theorem afterLast_append {sep : Char} {a b : Str} (h : sep ∉ b) :
    afterLast sep (a ++ sep :: b) = b := by
  have hb : sep ∉ b.reverse := by simpa using h
  rw [afterLast, List.reverse_append, List.reverse_cons, List.append_assoc,
    List.takeWhile_append_of_pos (ne_sep_of_not_mem hb)]
  simp

theorem afterLast_of_not_mem {sep : Char} {s : Str} (h : sep ∉ s) : afterLast sep s = s := by
  have hs : sep ∉ s.reverse := by simpa using h
  have hall := List.takeWhile_eq_self_iff.mpr (ne_sep_of_not_mem hs)
  rw [afterLast, hall, List.reverse_reverse]

/-! ## Facts about `split` -/

theorem splitOn_ne_nil (sep : Char) (s : Str) : splitOn sep s ≠ [] := by
  cases s with
  | nil => simp [splitOn]
  | cons c s =>
    rw [splitOn]
    split
    · simp
    · split <;> simp

/-- The pieces, joined again, are the text. -/
theorem join_splitOn (sep : Char) (s : Str) : join [sep] (splitOn sep s) = s := by
  induction s with
  | nil => rfl
  | cons c s ih =>
    cases hpieces : splitOn sep s with
    | nil => exact absurd hpieces (splitOn_ne_nil sep s)
    | cons piece pieces =>
      rw [hpieces] at ih
      by_cases hc : c = sep
      · simp [splitOn, hc, hpieces, join, ih]
      · cases pieces <;> simp_all [splitOn, join]

/-- No piece holds the separator. -/
theorem not_mem_of_mem_splitOn {sep : Char} {s piece : Str} (h : piece ∈ splitOn sep s) :
    sep ∉ piece := by
  induction s generalizing piece with
  | nil =>
    rw [List.mem_singleton.mp h]
    simp
  | cons c s ih =>
    rw [splitOn] at h
    split at h
    · rcases List.mem_cons.mp h with rfl | h
      · simp
      · exact ih h
    · rename_i hc
      split at h
      · rename_i hnil
        exact absurd hnil (splitOn_ne_nil sep s)
      · rename_i first rest hpieces
        rcases List.mem_cons.mp h with rfl | h
        · rw [List.mem_cons, not_or]
          exact ⟨fun heq => hc heq.symm, ih (by simp [hpieces])⟩
        · exact ih (by simp [hpieces, h])

theorem splitOn_of_not_mem {sep : Char} {s : Str} (h : sep ∉ s) : splitOn sep s = [s] := by
  induction s with
  | nil => rfl
  | cons c s ih =>
    simp only [List.mem_cons, not_or] at h
    rw [splitOn, if_neg (Ne.symm h.1), ih h.2]

theorem splitOn_append {sep : Char} {s t : Str} :
    splitOn sep (s ++ sep :: t) = splitOn sep s ++ splitOn sep t := by
  induction s with
  | nil => simp [splitOn]
  | cons c s ih =>
    rw [List.cons_append, splitOn, splitOn, ih]
    by_cases hc : c = sep
    · simp [hc]
    · simp only [if_neg hc]
      cases hpieces : splitOn sep s with
      | nil => exact absurd hpieces (splitOn_ne_nil sep s)
      | cons piece pieces => rfl

/-! ## `re.sub` -/

/-- `re.sub` for a pattern given as a matcher.  At a place with the
character `prev` before it, the matcher answers the length of the match,
which is never empty, and the text that replaces it.  `skip` counts the
characters of the last match that are still to be passed over. -/
def substitute (matcher : Option Char → Str → Option (Nat × Str)) :
    Option Char → Nat → Str → Str
  | _, _, [] => []
  | _, skip + 1, c :: s => substitute matcher (some c) skip s
  | prev, 0, c :: s =>
      match matcher prev (c :: s) with
      | some (n, r) => r ++ substitute matcher (some c) (n - 1) s
      | none => c :: substitute matcher (some c) 0 s

/-- `\b` between two characters of a text, `none` being either end. -/
def isBoundary (prev next : Option Char) : Bool := prev.any isWord != next.any isWord

/-- The value of an octal digit. -/
def octal? (c : Char) : Option Nat :=
  if '0' ≤ c ∧ c ≤ '7' then some (c.toNat - 48) else none

/-- The escapes of a letter in a replacement template. -/
def letterEscape (c : Char) : Option Char :=
  match c with
  | 'a' => some (Char.ofNat 7)
  | 'b' => some (Char.ofNat 8)
  | 'f' => some (Char.ofNat 12)
  | 'n' => some '\n'
  | 'r' => some '\r'
  | 't' => some '\t'
  | 'v' => some (Char.ofNat 11)
  | '\\' => some '\\'
  | _ => none

/-- The replacement template of `re.sub`, with the groups of the match.
`none` where `re` raises.  `skip` counts the characters that belong to the
escape that was read last. -/
def expandTemplate (group : Nat → Option Str) : Nat → Str → Option Str
  | _, [] => some []
  | skip + 1, _ :: s => expandTemplate group skip s
  | 0, '\\' :: s =>
      match s with
      | [] => none
      | 'g' :: '<' :: r =>
          let name := r.takeWhile (· ≠ '>')
          if name = [] ∨ ¬ name.all isAsciiDigit ∨ '>' ∉ r then none
          else do
            let g ← group (← digitsValue 0 name)
            return g ++ (← expandTemplate group (name.length + 3) s)
      | '0' :: r =>
          let digits := (r.take 2).takeWhile (fun c => (octal? c).isSome)
          let n := digits.foldl (fun acc c => acc * 8 + (octal? c).getD 0) 0
          do return Char.ofNat (n % 256) :: (← expandTemplate group (1 + digits.length) s)
      | c :: r =>
          if isAsciiDigit c then
            match (r.take 2).takeWhile isAsciiDigit with
            | [] => do
                let g ← group (← decimal? c)
                return g ++ (← expandTemplate group 1 s)
            | d :: rest =>
                match octal? c, octal? d, rest.head?.bind octal? with
                | some x, some y, some z =>
                    let n := x * 64 + y * 8 + z
                    if 255 < n then none
                    else do return Char.ofNat n :: (← expandTemplate group 3 s)
                | _, _, _ => do
                    let g ← group ((← decimal? c) * 10 + (← decimal? d))
                    return g ++ (← expandTemplate group 2 s)
          else match letterEscape c with
            | some e => do return e :: (← expandTemplate group 1 s)
            | none =>
                if isAsciiAlpha c then none
                else do return '\\' :: c :: (← expandTemplate group 1 s)
  | 0, c :: s => do return c :: (← expandTemplate group 0 s)

/-! ## Order -/

/-- `s ≤ t`, by code points. -/
def le : Str → Str → Bool
  | [], _ => true
  | _ :: _, [] => false
  | c :: s, d :: t => if c = d then le s t else c < d

/-- `sorted(set(xs))` -/
def sortedSet (xs : List Str) : List Str := xs.dedup.insertionSort (fun s t => le s t = true)

/-- `s[-n:]` -/
def lastN (n : Nat) (s : Str) : Str := s.drop (s.length - n)

/-! ## `shlex.quote` -/

/-- The characters `shlex.quote` leaves unquoted. -/
def isShellSafe (c : Char) : Bool := isWord c || "@%+=:,./-".toList.contains c

/-- `shlex.quote` -/
def shlexQuote (s : Str) : Str :=
  if s = [] then "''"
  else if s.all isShellSafe then s
  else "'" ++ s.flatMap (fun c => if c = '\'' then "'\"'\"'" else [c]) ++ "'"

end Text
