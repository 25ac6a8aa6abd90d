import PveZfsTool.Lib.Text

/-!
# Percent decoding

`urllib.parse.unquote`, with its default of UTF-8 and replacement
characters.  A run of ASCII characters is decoded to bytes, the bytes are
decoded to text, and every other character stands for itself.
-/

namespace Text

/-- The value of a hexadecimal digit. -/
def hex? (c : Char) : Option Nat :=
  if isAsciiDigit c then some (c.toNat - 48)
  else if 'a' ≤ c ∧ c ≤ 'f' then some (c.toNat - 87)
  else if 'A' ≤ c ∧ c ≤ 'F' then some (c.toNat - 55)
  else none

/-- `unquote_to_bytes` of an ASCII text.  `skip` counts the characters of the
last escape that are still to be passed over. -/
def unquoteToBytes : Nat → Str → List Nat
  | _, [] => []
  | skip + 1, _ :: s => unquoteToBytes skip s
  | 0, c :: s =>
      match c, s with
      | '%', x :: y :: _ =>
          match hex? x, hex? y with
          | some h, some l => (h * 16 + l) :: unquoteToBytes 2 s
          | _, _ => 37 :: unquoteToBytes 0 s
      | _, _ => c.toNat :: unquoteToBytes 0 s

/-- The range of the byte after a lead byte, and the number of bytes that
follow the lead byte.  `none` for a byte that leads no sequence. -/
def leadByte (b : Nat) : Option (Nat × Nat × Nat) :=
  if 0xC2 ≤ b ∧ b ≤ 0xDF then some (0x80, 0xBF, 1)
  else if b = 0xE0 then some (0xA0, 0xBF, 2)
  else if b = 0xED then some (0x80, 0x9F, 2)
  else if 0xE1 ≤ b ∧ b ≤ 0xEF then some (0x80, 0xBF, 2)
  else if b = 0xF0 then some (0x90, 0xBF, 3)
  else if b = 0xF4 then some (0x80, 0x8F, 3)
  else if 0xF1 ≤ b ∧ b ≤ 0xF3 then some (0x80, 0xBF, 3)
  else none

/-- The continuation bytes of a sequence: at most `more` of them, the first
within `lo` and `hi`. -/
def continuation : Nat → Nat → Nat → List Nat → List Nat
  | 0, _, _, _ => []
  | _, _, _, [] => []
  | more + 1, lo, hi, b :: bytes =>
      if lo ≤ b ∧ b ≤ hi then b :: continuation more 0x80 0xBF bytes else []

/-- `bytes.decode("utf-8", "replace")`.  The longest correct part of a broken
sequence becomes one replacement character. -/
def decodeUtf8 : Nat → List Nat → Str
  | _, [] => []
  | skip + 1, _ :: bytes => decodeUtf8 skip bytes
  | 0, b :: bytes =>
      if b < 0x80 then Char.ofNat b :: decodeUtf8 0 bytes
      else match leadByte b with
        | none => Char.ofNat 0xFFFD :: decodeUtf8 0 bytes
        | some (lo, hi, more) =>
            let tail := continuation more lo hi bytes
            let lead := b % (if more = 1 then 0x20 else if more = 2 then 0x10 else 0x08)
            if tail.length = more then
              Char.ofNat (tail.foldl (fun n b => n * 64 + b % 64) lead) ::
                decodeUtf8 tail.length bytes
            else Char.ofNat 0xFFFD :: decodeUtf8 tail.length bytes

/-- A text as its ASCII runs, `inl`, and its other characters, `inr`. -/
def asciiRuns : Str → List (Str ⊕ Char)
  | [] => []
  | c :: s =>
      if 0x80 ≤ c.toNat then .inr c :: asciiRuns s
      else match asciiRuns s with
        | .inl run :: rest => .inl (c :: run) :: rest
        | rest => .inl [c] :: rest

/-- `unquote` -/
def unquote (s : Str) : Str :=
  (asciiRuns s).flatMap fun
    | .inl run => decodeUtf8 0 (unquoteToBytes 0 run)
    | .inr c => [c]

example : unquote "a%20b%C3%A4%zz" = "a bä%zz".toList := by decide

end Text
