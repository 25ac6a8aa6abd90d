import PveZfsTool.Lib.Words

/-!
# Numbers in a text

`int` reads a text of digits (`toInt?_digits`), up to the 4300 that it accepts,
and so the number that `str` has written (`toInt?_ofNat`).
-/

namespace Text

variable {s : Str} {c : Char} {n : Nat}

theorem decimal?_of_isAsciiDigit (h : isAsciiDigit c = true) :
    decimal? c = some (c.toNat - '0'.toNat) := by
  have hascii : c.toNat < 128 := toNat_lt_of_isAsciiAlnum (by rw [isAsciiAlnum, h, Bool.or_true])
  revert h
  apply of_ascii (P := fun c => isAsciiDigit c = true → decimal? c = some (c.toNat - '0'.toNat))
    (by decide) hascii

theorem digitsValue_digits (h : ∀ c ∈ s, isAsciiDigit c = true) (acc : Nat) :
    digitsValue acc s = some (Nat.ofDigitChars 10 s acc) := by
  induction s generalizing acc with
  | nil => rfl
  | cons c s ih =>
    have hc := h c List.mem_cons_self
    have hrest : ∀ c ∈ s, isAsciiDigit c = true := fun d hd => h d (List.mem_cons_of_mem _ hd)
    have hne : c ≠ '_' := by
      rintro rfl
      revert hc
      decide
    rw [digitsValue, decimal?_of_isAsciiDigit hc, Option.bind_some, ih hrest,
      Nat.ofDigitChars_cons, Nat.mul_comm]
    exact fun _ _ hunderscore => absurd hunderscore hne

/-- Decimal digits, and at least one of them. -/
structure IsDigits (s : Str) : Prop where
  nonempty : s ≠ []
  isDigit : ∀ c ∈ s, isAsciiDigit c = true

theorem isDigits_ofNat : IsDigits (ofNat n) where
  nonempty := Nat.toDigits_ne_nil
  isDigit := fun _ hc => isAsciiDigit_of_mem_ofNat hc

theorem IsDigits.isWordText (h : IsDigits s) : IsWordText s where
  nonempty := h.nonempty
  plain := fun c hc => isSpace_of_isAsciiDigit (h.isDigit c hc)

/-- `int` reads digits, but not more than 4300 of them. -/
theorem toInt?_digits (h : IsDigits s) :
    toInt? s = if 4300 < s.length then none else some (Nat.ofDigitChars 10 s 0 : Int) := by
  have hstrip : strip s = s := strip_eq_self h.isWordText.plain
  have hfilter : s.filter isDecimal = s :=
    List.filter_eq_self.mpr (fun c hc => isDecimal_of_isAsciiDigit (h.isDigit c hc))
  have hvalue := digitsValue_digits h.isDigit 0
  rw [toInt?, hstrip]
  cases s with
  | nil => exact absurd rfl h.nonempty
  | cons c s =>
    have hc := h.isDigit c List.mem_cons_self
    have hunsigned : unsignedValue (c :: s) =
        if 4300 < (c :: s).length then none else some (Nat.ofDigitChars 10 (c :: s) 0) := by
      rw [unsignedValue, hfilter, hvalue]
      · exact fun hnil => List.cons_ne_nil _ _ hnil
      · intro t ht
        obtain ⟨rfl, -⟩ := List.cons.inj ht
        exact absurd hc (by decide)
    split
    · next s' heq =>
      obtain ⟨rfl, -⟩ := List.cons.inj heq
      exact absurd hc (by decide)
    · next s' heq =>
      obtain ⟨rfl, -⟩ := List.cons.inj heq
      exact absurd hc (by decide)
    · rw [hunsigned]
      split <;> rfl

/-- `int` reads what `str` has written. -/
theorem toInt?_ofNat (h : (ofNat n).length ≤ 4300) : toInt? (ofNat n) = some (n : Int) := by
  have hvalue : Nat.ofDigitChars 10 (ofNat n) 0 = n := Nat.ofDigitChars_ten_toDigits
  rw [toInt?_digits isDigits_ofNat, if_neg (Nat.not_lt.mpr h), hvalue]

end Text
