import Mathlib.Data.List.DropRight
import Mathlib.Data.List.TakeWhile
import PveZfsTool.Lib.Lines

/-!
# Whitespace at the ends

`strip` takes off whitespace only, and it stops at the first character that is
none.  What starts and ends without whitespace it leaves as it is
(`isStripped_of_ends`), and a second `strip` changes nothing.
-/

namespace Text

theorem takeWhile_append_cons {p : Char → Bool} {a b : Str} {c : Char} (hc : p c = false) :
    (a ++ c :: b).takeWhile p = a.takeWhile p := by
  induction a with
  | nil => simp [hc]
  | cons d a ih =>
    rw [List.cons_append, List.takeWhile_cons, List.takeWhile_cons, ih]

theorem dropWhile_append_cons {p : Char → Bool} {a b : Str} {c : Char} (hc : p c = false) :
    (a ++ c :: b).dropWhile p = a.dropWhile p ++ c :: b := by
  induction a with
  | nil => simp [hc]
  | cons d a ih =>
    rw [List.cons_append, List.dropWhile_cons, List.dropWhile_cons]
    split
    · exact ih
    · rfl

theorem isSpace_of_isDecimal {c : Char} (h : isDecimal c = true) : isSpace c = false := by
  have hzeros : ∀ z ∈ decimalZeros, ∀ n < 10, isSpace (Char.ofNat (z + n)) = false := by
    decide
  rw [isDecimal, Option.isSome_iff_exists] at h
  obtain ⟨n, hn⟩ := h
  obtain ⟨z, hfind, -⟩ := Option.map_eq_some_iff.mp hn
  have hrange := List.find?_some hfind
  simp only [Bool.and_eq_true, decide_eq_true_eq] at hrange
  have hc := hzeros z (List.mem_of_find?_eq_some hfind) (c.toNat - z) (by omega)
  have hsum : z + (c.toNat - z) = c.toNat := by omega
  rwa [hsum, Char.ofNat_toNat] at hc

theorem rstrip_append_cons {a t : Str} {c : Char} (hc : isSpace c = false) :
    rstrip (a ++ c :: t) = a ++ c :: rstrip t := by
  rw [rstrip, List.reverse_append, List.reverse_cons, List.append_assoc, List.singleton_append,
    dropWhile_append_cons hc, List.reverse_append, List.reverse_cons, List.reverse_reverse,
    List.append_assoc, List.singleton_append]
  rfl

theorem rstrip_idem (s : Str) : rstrip (rstrip s) = rstrip s := by
  rw [rstrip, rstrip, List.reverse_reverse, List.dropWhile_idempotent]

theorem rstrip_take (s : Str) : rstrip s <+: s := by
  rw [rstrip, ← List.reverse_suffix, List.reverse_reverse]
  exact List.dropWhile_suffix _

theorem lstrip_cons {c : Char} {s : Str} (hc : isSpace c = false) : lstrip (c :: s) = c :: s := by
  rw [lstrip, List.dropWhile_cons, if_neg (by simp [hc])]

theorem strip_cons {c : Char} {s : Str} (hc : isSpace c = false) : strip (c :: s) = c :: rstrip s := by
  rw [strip, lstrip_cons hc]
  exact rstrip_append_cons (a := []) hc

theorem strip_strip (s : Str) : strip (strip s) = strip s := by
  cases hl : lstrip s with
  | nil =>
    have hnil : strip s = [] := by rw [strip, hl]; rfl
    rw [hnil]
    rfl
  | cons c t =>
    have hc : isSpace c = false := by
      have hhead := List.head?_dropWhile_not isSpace s
      rw [show s.dropWhile isSpace = c :: t from hl] at hhead
      simpa using hhead
    have hs : strip s = c :: rstrip t := by
      rw [strip, hl]
      exact rstrip_append_cons (a := []) hc
    rw [hs, strip_cons hc, rstrip_idem]

theorem isSpace_getLast_strip {s : Str} {d : Char} (h : d ∈ (strip s).getLast?) :
    isSpace d = false := by
  have hhead := List.head?_dropWhile_not isSpace (lstrip s).reverse
  rw [strip, rstrip, List.getLast?_reverse, Option.mem_def] at h
  rw [h] at hhead
  simpa using hhead

/-- What ends in no whitespace stays before what is stripped. -/
theorem rstrip_append_of_getLast {a t : Str} (hne : a ≠ [])
    (h : ∀ d ∈ a.getLast?, isSpace d = false) : rstrip (a ++ t) = a ++ rstrip t := by
  obtain hnil | ⟨init, d, rfl⟩ := List.eq_nil_or_concat a
  · exact absurd hnil hne
  · have hd := h d (by simp)
    rw [List.concat_eq_append, List.append_assoc, List.singleton_append, rstrip_append_cons hd,
      List.append_assoc, List.singleton_append]

theorem isSpace_head_strip {s : Str} {c : Char} (h : c ∈ (strip s).head?) : isSpace c = false := by
  have hhead := List.head?_dropWhile_not isSpace s
  cases hs : strip s with
  | nil =>
    rw [hs] at h
    cases h
  | cons d t =>
    rw [hs] at h
    obtain rfl := Option.some.inj h
    obtain ⟨w, hw⟩ := rstrip_take (lstrip s)
    rw [show rstrip (lstrip s) = d :: t from hs] at hw
    rw [show s.dropWhile isSpace = d :: t ++ w from hw.symm] at hhead
    simpa using hhead

/-- What starts and ends without whitespace stays before what is stripped. -/
theorem strip_append_of_ends {a t : Str} (hne : a ≠ []) (hhead : ∀ c ∈ a.head?, isSpace c = false)
    (hlast : ∀ d ∈ a.getLast?, isSpace d = false) : strip (a ++ t) = a ++ rstrip t := by
  cases a with
  | nil => exact absurd rfl hne
  | cons c a =>
    rw [strip, List.cons_append, lstrip_cons (hhead c rfl), ← List.cons_append,
      rstrip_append_of_getLast hne hlast]

/-- No whitespace at either end. -/
def IsStripped (s : Str) : Prop := strip s = s

instance (s : Str) : Decidable (IsStripped s) := inferInstanceAs (Decidable (strip s = s))

theorem isStripped_strip (s : Str) : IsStripped (strip s) := strip_strip s

theorem isStripped_of_ends {a : Str} (hhead : ∀ c ∈ a.head?, isSpace c = false)
    (hlast : ∀ d ∈ a.getLast?, isSpace d = false) : IsStripped a := by
  cases a with
  | nil => rfl
  | cons c a =>
    have happend := strip_append_of_ends (t := []) (List.cons_ne_nil c a) hhead hlast
    rwa [List.append_nil, show rstrip [] = [] from rfl, List.append_nil] at happend

/-- Whitespace before a text does not change what `strip` leaves. -/
theorem strip_cons_space {c : Char} {s : Str} (hc : isSpace c = true) : strip (c :: s) = strip s := by
  rw [strip, strip, lstrip, List.dropWhile_cons, if_pos hc]
  rfl

/-! ## Pieces -/

theorem mem_of_mem_splitOn {sep : Char} {s piece : Str} {c : Char} (h : piece ∈ splitOn sep s)
    (hc : c ∈ piece) : c ∈ s := by
  induction s generalizing piece with
  | nil =>
    obtain rfl := List.mem_singleton.mp h
    cases hc
  | cons d s ih =>
    rw [splitOn] at h
    by_cases hd : d = sep
    · rw [if_pos hd] at h
      obtain rfl | h := List.mem_cons.mp h
      · cases hc
      · exact List.mem_cons_of_mem d (ih h hc)
    · rw [if_neg hd] at h
      cases hpieces : splitOn sep s with
      | nil => exact absurd hpieces (splitOn_ne_nil sep s)
      | cons p ps =>
        rw [hpieces] at h
        obtain rfl | h := List.mem_cons.mp h
        · obtain rfl | hc := List.mem_cons.mp hc
          · exact List.mem_cons_self
          · exact List.mem_cons_of_mem d (ih (by rw [hpieces]; exact List.mem_cons_self) hc)
        · exact List.mem_cons_of_mem d (ih (by rw [hpieces]; exact List.mem_cons_of_mem p h) hc)

/-- Joined parts without the separator are split into the same parts. -/
theorem splitOn_join {sep : Char} {parts : List Str} (h : ∀ p ∈ parts, sep ∉ p) (hne : parts ≠ []) :
    splitOn sep (join [sep] parts) = parts := by
  induction parts with
  | nil => exact absurd rfl hne
  | cons p parts ih =>
    have hp := splitOn_of_not_mem (h p List.mem_cons_self)
    cases parts with
    | nil => exact hp
    | cons q parts =>
      have hjoin : join [sep] (p :: q :: parts) = p ++ sep :: join [sep] (q :: parts) := by
        show p ++ [sep] ++ join [sep] (q :: parts) = _
        rw [List.append_assoc, List.singleton_append]
      rw [hjoin, splitOn_append, hp, ih (fun r hr => h r (List.mem_cons_of_mem p hr)) (by simp),
        List.singleton_append]

/-- The first part of a text that starts without the separator. -/
theorem splitOn_append_left {sep : Char} {a : Str} (h : sep ∉ a) (t : Str) :
    ∃ part parts, splitOn sep t = part :: parts ∧ splitOn sep (a ++ t) = (a ++ part) :: parts := by
  induction a with
  | nil =>
    cases hparts : splitOn sep t with
    | nil => exact absurd hparts (splitOn_ne_nil sep t)
    | cons part parts => exact ⟨part, parts, rfl, by simpa using hparts⟩
  | cons c a ih =>
    simp only [List.mem_cons, not_or] at h
    obtain ⟨part, parts, ht, hat⟩ := ih h.2
    refine ⟨part, parts, ht, ?_⟩
    rw [List.cons_append, splitOn, if_neg (Ne.symm h.1), hat]
    rfl

end Text
