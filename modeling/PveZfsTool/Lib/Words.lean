import PveZfsTool.Lib.Lines

/-!
# Words

The words of a text are what stands between its whitespace.  A word at the
start of a text comes off it (`splitWords_word`), whitespace around the text
does not matter (`splitWords_strip`), joined words are split again
(`splitWords_join`), and a keyword without whitespace starts a text when it
starts the first word (`prefix_word_iff`).
-/

namespace Text

/-- The text is not empty and has no whitespace. -/
structure IsWordText (w : Str) : Prop where
  nonempty : w ≠ []
  plain : ∀ c ∈ w, isSpace c = false

variable {s w : Str} {c : Char}

theorem lstrip_spaces (spaces : Str) (h : ∀ c ∈ spaces, isSpace c = true) :
    lstrip (spaces ++ s) = lstrip s := by
  unfold lstrip
  rw [List.dropWhile_append_of_pos h]

theorem IsWordText.lstrip_append (h : IsWordText w) : lstrip (w ++ s) = w ++ s := by
  cases w with
  | nil => exact absurd rfl h.nonempty
  | cons c w =>
    have hc := h.plain c List.mem_cons_self
    show List.dropWhile isSpace (c :: (w ++ s)) = c :: (w ++ s)
    rw [List.dropWhile_cons, hc]
    rfl

theorem isSpace_of_lstrip {t : Str} (h : lstrip s = c :: t) : isSpace c = false := by
  have hhead := List.head?_dropWhile_not isSpace s
  rw [lstrip] at h
  rw [h] at hhead
  exact hhead

theorem noBreak_append_iff {a b : Str} : NoBreak (a ++ b) ↔ NoBreak a ∧ NoBreak b := by
  simp only [NoBreak, List.mem_append, or_imp, forall_and]

theorem noBreak_spaces {n : Nat} : NoBreak (List.replicate n ' ') := by
  intro d hd
  rw [List.eq_of_mem_replicate hd]
  decide

theorem IsWordText.noBreak (h : IsWordText w) : NoBreak w :=
  fun d hd => isLineBreak_of_isSpace (h.plain d hd)

/-! ## `split` -/

theorem splitWordsAux_word (cur : Str) (h : ∀ c ∈ w, isSpace c = false) :
    splitWordsAux cur (w ++ s) = splitWordsAux (w.reverse ++ cur) s := by
  induction w generalizing cur with
  | nil => rfl
  | cons c w ih =>
    rw [List.cons_append, splitWordsAux, if_pos (by rw [h c List.mem_cons_self]; decide),
      ih _ (fun c' hc' => h c' (List.mem_cons_of_mem _ hc')), List.reverse_cons, List.append_assoc]
    rfl

theorem splitWords_cons_space (h : isSpace c = true) : splitWords (c :: s) = splitWords s := by
  show splitWordsAux [] (c :: s) = splitWordsAux [] s
  rw [splitWordsAux, if_neg (by rw [h]; decide), if_pos rfl]

theorem splitWords_spaces {spaces : Str} (h : ∀ c ∈ spaces, isSpace c = true) :
    splitWords (spaces ++ s) = splitWords s := by
  induction spaces with
  | nil => rfl
  | cons c spaces ih =>
    rw [List.cons_append, splitWords_cons_space (h c List.mem_cons_self),
      ih (fun c' hc' => h c' (List.mem_cons_of_mem _ hc'))]

/-- A word with whitespace after it is the first one. -/
theorem splitWords_word (h : IsWordText w) (hc : isSpace c = true) :
    splitWords (w ++ c :: s) = w :: splitWords s := by
  have hcur : w.reverse ++ [] ≠ [] := by simpa using h.nonempty
  show splitWordsAux [] (w ++ c :: s) = _
  rw [splitWordsAux_word _ h.plain, splitWordsAux, if_neg (by rw [hc]; decide), if_neg hcur,
    List.append_nil, List.reverse_reverse]
  rfl

theorem splitWords_self (h : IsWordText w) : splitWords w = [w] := by
  have hcur : w.reverse ++ [] ≠ [] := by simpa using h.nonempty
  have haux := splitWordsAux_word (s := []) [] h.plain
  rw [List.append_nil] at haux
  show splitWordsAux [] w = [w]
  rw [haux, splitWordsAux, if_neg hcur, List.append_nil, List.reverse_reverse]

theorem splitWordsAux_spaces_end (cur : Str) {spaces : Str} (h : ∀ c ∈ spaces, isSpace c = true) :
    splitWordsAux cur (s ++ spaces) = splitWordsAux cur s := by
  induction s generalizing cur with
  | nil =>
    cases spaces with
    | nil => rfl
    | cons c spaces =>
      have hrest : splitWordsAux [] spaces = [] := by
        have hall := splitWords_spaces (s := [])
          (fun c' hc' => h c' (List.mem_cons_of_mem c hc'))
        rw [List.append_nil] at hall
        exact hall
      have hspace := h c List.mem_cons_self
      show (if ¬ isSpace c = true then splitWordsAux (c :: cur) spaces
        else if cur = [] then splitWordsAux [] spaces
        else cur.reverse :: splitWordsAux [] spaces) = if cur = [] then [] else [cur.reverse]
      rw [hspace, if_neg (by decide), hrest]
  | cons d s ih =>
    rw [List.cons_append, splitWordsAux, splitWordsAux, ih, ih]

theorem splitWords_lstrip : splitWords (lstrip s) = splitWords s := by
  have hspaces : ∀ c ∈ s.takeWhile isSpace, isSpace c = true := fun _ => List.mem_takeWhile_imp
  have hsplit := splitWords_spaces (s := s.dropWhile isSpace) hspaces
  rw [List.takeWhile_append_dropWhile] at hsplit
  exact hsplit.symm

theorem splitWords_strip : splitWords (strip s) = splitWords s := by
  have hback : ∀ t : Str, splitWords (rstrip t) = splitWords t := by
    intro t
    have hspaces : ∀ c ∈ (t.reverse.takeWhile isSpace).reverse, isSpace c = true := by
      intro c hc
      exact List.mem_takeWhile_imp (List.mem_reverse.mp hc)
    have ht : rstrip t ++ (t.reverse.takeWhile isSpace).reverse = t := by
      rw [rstrip, ← List.reverse_append, List.takeWhile_append_dropWhile, List.reverse_reverse]
    have hsplit := splitWordsAux_spaces_end (s := rstrip t) [] hspaces
    rw [ht] at hsplit
    exact hsplit.symm
  rw [strip, hback, splitWords_lstrip]

/-- A word with nothing or whitespace after it is the first one. -/
theorem splitWords_append (h : IsWordText w) (hs : ∀ c ∈ s.head?, isSpace c = true) :
    splitWords (w ++ s) = w :: splitWords s := by
  cases s with
  | nil =>
    rw [List.append_nil, splitWords_self h]
    rfl
  | cons c s =>
    have hc : isSpace c = true := hs c rfl
    rw [splitWords_word h hc, splitWords_cons_space hc]

/-- What stands after the first word. -/
theorem lstrip_of_splitWords {words : List Str} (h : splitWords s = w :: words) :
    ∃ rest, lstrip s = w ++ rest ∧ (∀ c ∈ rest.head?, isSpace c = true) ∧
      splitWords rest = words := by
  rw [← splitWords_lstrip] at h
  have ht : (lstrip s).takeWhile (fun c => !isSpace c) ++ (lstrip s).dropWhile (fun c => !isSpace c) =
      lstrip s := List.takeWhile_append_dropWhile
  have hword : IsWordText ((lstrip s).takeWhile (fun c => !isSpace c)) := by
    refine ⟨fun hnil => ?_, fun c hc => ?_⟩
    · cases hs : lstrip s with
      | nil =>
        rw [hs] at h
        cases h
      | cons c t =>
        rw [hs, List.takeWhile_cons_of_pos (by rw [isSpace_of_lstrip hs]; rfl)] at hnil
        cases hnil
    · have hplain := List.mem_takeWhile_imp hc
      simpa using hplain
  have hrest : ∀ c ∈ ((lstrip s).dropWhile (fun c => !isSpace c)).head?, isSpace c = true := by
    intro c hc
    have hhead := List.head?_dropWhile_not (fun c => !isSpace c) (lstrip s)
    rw [Option.mem_def.mp hc] at hhead
    simpa using hhead
  rw [← ht, splitWords_append hword hrest] at h
  obtain ⟨hw, hwords⟩ := List.cons.inj h
  refine ⟨(lstrip s).dropWhile (fun c => !isSpace c), ?_, hrest, hwords⟩
  rw [← hw, ht]

theorem isWordText_of_mem_splitWordsAux {cur : Str} (hcur : ∀ c ∈ cur, isSpace c = false)
    (h : w ∈ splitWordsAux cur s) : IsWordText w := by
  have hpushed : cur ≠ [] → IsWordText cur.reverse := by
    intro hne
    refine ⟨fun hnil => hne (List.reverse_eq_nil_iff.mp hnil), fun c hc => ?_⟩
    exact hcur c (List.mem_reverse.mp hc)
  induction s generalizing cur with
  | nil =>
    rw [splitWordsAux] at h
    split_ifs at h with hnil
    · cases h
    · rw [List.mem_singleton.mp h]
      exact hpushed hnil
  | cons c s ih =>
    rw [splitWordsAux] at h
    split_ifs at h with hc hnil
    · exact ih (by simp) h (fun hne => absurd rfl hne)
    · rcases List.mem_cons.mp h with rfl | h
      · exact hpushed hnil
      · exact ih (by simp) h (fun hne => absurd rfl hne)
    · have hcons : ∀ d ∈ c :: cur, isSpace d = false := by
        intro d hd
        rcases List.mem_cons.mp hd with rfl | hd
        · exact Bool.eq_false_iff.mpr hc
        · exact hcur d hd
      exact ih hcons h (fun _ => ⟨by simp, fun d hd => hcons d (List.mem_reverse.mp hd)⟩)

theorem isWordText_of_mem_splitWords (h : w ∈ splitWords s) : IsWordText w :=
  isWordText_of_mem_splitWordsAux (by simp) h

theorem join_space_cons_cons {v w : Str} {words : List Str} :
    join [' '] (w :: v :: words) = w ++ ' ' :: join [' '] (v :: words) := by
  show w ++ [' '] ++ join [' '] (v :: words) = _
  rw [List.append_assoc, List.singleton_append]

/-- Words that are joined by a space are split again. -/
theorem splitWords_join {words : List Str} (h : ∀ w ∈ words, IsWordText w) :
    splitWords (join [' '] words) = words := by
  induction words with
  | nil => rfl
  | cons w words ih =>
    have hw := h w List.mem_cons_self
    cases words with
    | nil => exact splitWords_self hw
    | cons v words =>
      rw [join_space_cons_cons, splitWords_word hw (by decide),
        ih (fun u hu => h u (List.mem_cons_of_mem _ hu))]

/-- Joined words end in the last one. -/
theorem exists_join_eq (words : List Str) (hne : words ≠ []) :
    ∃ front, ∃ w ∈ words, join [' '] words = front ++ w := by
  induction words with
  | nil => exact absurd rfl hne
  | cons w words ih =>
    cases words with
    | nil => exact ⟨[], w, List.mem_cons_self, rfl⟩
    | cons v words =>
      obtain ⟨front, u, hu, hjoin⟩ := ih (List.cons_ne_nil v words)
      refine ⟨w ++ ' ' :: front, u, List.mem_cons_of_mem _ hu, ?_⟩
      rw [join_space_cons_cons, hjoin, List.append_assoc, List.cons_append]

theorem noBreak_join {words : List Str} (h : ∀ w ∈ words, IsWordText w) :
    NoBreak (join [' '] words) := by
  intro c hc
  rcases mem_join hc with hspace | ⟨w, hw, hc⟩
  · rw [List.mem_singleton.mp hspace]
    decide
  · exact (h w hw).noBreak c hc

/-! ## Numbers -/

theorem isAsciiDigit_of_mem_ofNat {n : Nat} (h : c ∈ ofNat n) : isAsciiDigit c = true := by
  have hdigit : c.isDigit = true := Nat.isDigit_of_mem_toDigits (by decide) (by decide) h
  simpa [isAsciiDigit, Char.isDigit, Char.le_def] using hdigit

theorem isDecimal_of_isAsciiDigit (h : isAsciiDigit c = true) : isDecimal c = true := by
  have hascii : c.toNat < 128 := toNat_lt_of_isAsciiAlnum (by rw [isAsciiAlnum, h, Bool.or_true])
  revert h
  apply of_ascii (P := fun c => isAsciiDigit c = true → isDecimal c = true) (by decide) hascii

theorem isWordText_ofNat {n : Nat} : IsWordText (ofNat n) where
  nonempty := Nat.toDigits_ne_nil
  plain := fun _ hc => isSpace_of_isAsciiDigit (isAsciiDigit_of_mem_ofNat hc)

/-! ## Keywords -/

/-- A keyword starts a text when it starts its first word. -/
theorem prefix_word_iff {keyword : Str} (hkeyword : ∀ d ∈ keyword, isSpace d = false)
    (hc : isSpace c = true) : keyword <+: w ++ c :: s ↔ keyword <+: w := by
  constructor
  · intro h
    obtain hshort | ⟨t, rfl⟩ := List.prefix_or_prefix_of_prefix h (List.prefix_append w (c :: s))
    · exact hshort
    · cases t with
      | nil => rw [List.append_nil]
      | cons d t =>
        obtain ⟨rest, hrest⟩ := h
        have hd : d = c := by
          rw [List.append_assoc, List.append_cancel_left_eq] at hrest
          exact (List.cons.inj hrest).1
        have hplain := hkeyword d (by simp)
        rw [hd, hc] at hplain
        cases hplain
  · intro h
    exact h.trans (List.prefix_append _ _)

section Keywords

variable {a b : Str}

/-- The text starts with the two words, one space between them, and nothing or
whitespace after them. -/
theorem take_splitWords_of_keywords (gap : Str) {rest : Str} (ha : IsWordText a)
    (hb : IsWordText b) (hne : gap ≠ []) (hgap : ∀ c ∈ gap, isSpace c = true)
    (hrest : ∀ c ∈ rest.head?, isSpace c = true) :
    splitWords (a ++ (gap ++ (b ++ rest))) = a :: b :: splitWords rest := by
  have hhead : ∀ c ∈ (gap ++ (b ++ rest)).head?, isSpace c = true := by
    intro c hc
    cases gap with
    | nil => exact absurd rfl hne
    | cons d gap => exact Option.some.inj hc ▸ hgap d List.mem_cons_self
  rw [splitWords_append ha hhead, splitWords_spaces hgap, splitWords_append hb hrest]

/-- The gap and what comes after two first words. -/
theorem exists_gap_of_take (hs : lstrip s = s) (h : (splitWords s).take 2 = [a, b]) :
    ∃ gap rest, s = a ++ (gap ++ (b ++ rest)) ∧ gap ≠ [] ∧ (∀ c ∈ gap, isSpace c = true) ∧
      ∀ c ∈ rest.head?, isSpace c = true := by
  obtain ⟨words, hwords⟩ : ∃ words, splitWords s = a :: b :: words := by
    rw [← List.take_append_drop 2 (splitWords s), h]
    exact ⟨_, rfl⟩
  obtain ⟨tail, htail, hspace, hsplit⟩ := lstrip_of_splitWords hwords
  obtain ⟨rest, hrest, hhead, -⟩ := lstrip_of_splitWords hsplit
  have hgap : tail.takeWhile isSpace ++ lstrip tail = tail := List.takeWhile_append_dropWhile
  refine ⟨tail.takeWhile isSpace, rest, ?_, ?_, fun _ => List.mem_takeWhile_imp, hhead⟩
  · rw [← hrest, hgap, ← htail, hs]
  · intro hnil
    cases tail with
    | nil => cases hsplit
    | cons c tail =>
      rw [List.takeWhile_cons_of_pos (hspace c rfl)] at hnil
      cases hnil

/-- Two keywords start a text as its first two words, unless something else
than whitespace comes after them or stands between them. -/
theorem keywords_iff (ha : IsWordText a) (hb : IsWordText b) (hs : lstrip s = s) :
    (a ++ ' ' :: b <+: s ↔ (splitWords s).take 2 = [a, b]) ↔
      (∀ c rest, s = a ++ ' ' :: b ++ c :: rest → isSpace c = true) ∧
        ∀ gap rest, s = a ++ gap ++ b ++ rest → gap ≠ [] → (∀ c ∈ gap, isSpace c = true) →
          (∀ c ∈ rest.head?, isSpace c = true) → gap = [' '] := by
  constructor
  · intro h
    refine ⟨fun c rest hline => ?_, fun gap rest hline hne hgap hrest => ?_⟩
    · have hprefix : a ++ ' ' :: b <+: s := by
        rw [hline]
        exact List.prefix_append _ _
      have htwo := h.mp hprefix
      have hsplit : splitWords s = a :: splitWords (b ++ c :: rest) := by
        rw [hline, List.append_assoc, List.cons_append, splitWords_word ha (by decide)]
      obtain ⟨words, hwords⟩ : ∃ words, splitWords (b ++ c :: rest) = b :: words := by
        rw [hsplit, List.take_succ_cons] at htwo
        obtain ⟨d, words, hwords⟩ := List.exists_cons_of_ne_nil (l := splitWords (b ++ c :: rest))
          (by rintro hnil; rw [hnil] at htwo; cases htwo)
        rw [hwords] at htwo
        have hd : d = b := by simpa using htwo
        exact ⟨words, by rw [hwords, hd]⟩
      obtain ⟨tail, htail, hspace, -⟩ := lstrip_of_splitWords hwords
      rw [hb.lstrip_append, List.append_cancel_left_eq] at htail
      exact hspace c (by rw [← htail]; rfl)
    · rw [List.append_assoc, List.append_assoc] at hline
      have htwo : (splitWords s).take 2 = [a, b] := by
        rw [hline, take_splitWords_of_keywords gap ha hb hne hgap hrest]
        rfl
      have hprefix := h.mpr htwo
      rw [hline, List.prefix_append_right_inj] at hprefix
      cases gap with
      | nil => exact absurd rfl hne
      | cons d gap =>
        rw [List.cons_append, List.cons_prefix_cons] at hprefix
        obtain ⟨rfl, hb'⟩ := hprefix
        cases gap with
        | nil => rfl
        | cons d gap =>
          have hd := hgap d (by simp)
          cases b with
          | nil => exact absurd rfl hb.nonempty
          | cons e b =>
            rw [List.cons_append, List.cons_prefix_cons] at hb'
            have he := hb.plain e List.mem_cons_self
            rw [hb'.1, hd] at he
            cases he
  · rintro ⟨hends, hgaps⟩
    constructor
    · rintro ⟨rest, rfl⟩
      have hrest : ∀ c ∈ rest.head?, isSpace c = true := by
        intro c hc
        cases rest with
        | nil => cases hc
        | cons d rest => exact Option.some.inj hc ▸ hends d rest rfl
      have hsplit := take_splitWords_of_keywords [' '] ha hb (by decide) (by decide) hrest
      rw [List.append_assoc, List.cons_append]
      rw [List.singleton_append] at hsplit
      rw [hsplit]
      rfl
    · intro h
      obtain ⟨gap, rest, hline, hne, hgap, hrest⟩ := exists_gap_of_take hs h
      have hsingle := hgaps gap rest (by rw [List.append_assoc, List.append_assoc]; exact hline)
        hne hgap hrest
      rw [hline, hsingle, List.singleton_append, ← List.cons_append, ← List.append_assoc]
      exact List.prefix_append _ _

end Keywords
end Text
