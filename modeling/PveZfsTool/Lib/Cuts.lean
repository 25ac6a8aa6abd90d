import PveZfsTool.Lib.Trimmed

/-!
# A text cut before some of its places

A pattern that matches no characters cuts a text at the places where it
matches.  Here a place is cut when what follows `starts` there and the
character before it does not join it (`joins`).

The lemmas cut two texts in one:

* what is cut at the border (`cuts_append`), and what stays in one piece with
  the text before (`cuts_of_no_start`);
* where the second text does not change the places of the first
  (`cuts_append_of_same`).

`flatMap_cuts` cuts the lines of a text, and the lines of what was cut from
the whole text, to the same pieces.
-/

namespace Text

section Cuts

variable (joins : Char → Bool) (starts : Str → Bool)

/-- The pieces of a text.  `after` tells if the character before joins it. -/
def cuts (after : Bool) : Str → List Str
  | [] => [[]]
  | c :: s =>
      let pieces := cuts (joins c) s
      let joined := (c :: pieces.headD []) :: pieces.tail
      if !after && starts (c :: s) then [] :: joined else joined

/-- Whether the last character joins what follows. -/
def joinsAfter (after : Bool) : Str → Bool
  | [] => after
  | c :: s => joinsAfter (joins c) s

theorem exists_cuts (after : Bool) (s : Str) :
    ∃ p pieces, cuts joins starts after s = p :: pieces := by
  cases s with
  | nil => exact ⟨[], [], rfl⟩
  | cons c s =>
    rw [cuts]
    split_ifs
    · exact ⟨_, _, rfl⟩
    · exact ⟨_, _, rfl⟩

variable {joins starts} {after : Bool} {a b s p : Str} {c : Char}

theorem joinsAfter_append : joinsAfter joins after (a ++ b) =
    joinsAfter joins (joinsAfter joins after a) b := by
  induction a generalizing after with
  | nil => rfl
  | cons c a ih => exact ih

theorem joinsAfter_eq_false_iff :
    joinsAfter joins false a = false ↔ ∀ c ∈ a.getLast?, joins c = false := by
  obtain rfl | ⟨init, c, rfl⟩ := List.eq_nil_or_concat a
  · exact iff_of_true rfl (fun _ hc => nomatch hc)
  · rw [List.concat_eq_append, joinsAfter_append, List.getLast?_concat]
    simp [joinsAfter]

theorem joinsAfter_of_all (h : ∀ c ∈ a, joins c = true) : joinsAfter joins true a = true := by
  induction a with
  | nil => rfl
  | cons c a ih =>
    rw [joinsAfter, h c List.mem_cons_self]
    exact ih (fun d hd => h d (List.mem_cons_of_mem _ hd))

/-- The first character is cut off, or it stays with what follows. -/
theorem cuts_cons {pieces : List Str} (h : cuts joins starts (joins c) s = p :: pieces) :
    cuts joins starts after (c :: s) =
      if !after && starts (c :: s) then [] :: (c :: p) :: pieces else (c :: p) :: pieces := by
  rw [cuts, h]
  rfl

theorem cuts_of_starts (hafter : after = false) (h : starts s = true) (hne : s ≠ []) :
    cuts joins starts after s = [] :: (cuts joins starts after s).tail := by
  cases s with
  | nil => exact absurd rfl hne
  | cons c s =>
    obtain ⟨p, pieces, hcuts⟩ := exists_cuts joins starts (joins c) s
    rw [cuts_cons hcuts, if_pos (by rw [hafter, h]; rfl)]
    rfl

theorem flatten_cuts : (cuts joins starts after s).flatten = s := by
  induction s generalizing after with
  | nil => rfl
  | cons c s ih =>
    obtain ⟨p, pieces, hcuts⟩ := exists_cuts joins starts (joins c) s
    have hs : p ++ pieces.flatten = s := by
      have hflatten := @ih (joins c)
      rwa [hcuts, List.flatten_cons] at hflatten
    rw [cuts_cons hcuts]
    split_ifs
    · rw [List.flatten_cons, List.flatten_cons, List.nil_append, List.cons_append, hs]
    · rw [List.flatten_cons, List.cons_append, hs]

/-- The first piece starts the text, and every other one starts at a place. -/
theorem prefix_of_mem_cuts {pieces : List Str} (h : cuts joins starts after s = p :: pieces) :
    p <+: s ∧ ∀ q ∈ pieces, ∃ t, starts t = true ∧ q <+: t := by
  induction s generalizing after p pieces with
  | nil =>
    obtain ⟨rfl, rfl⟩ := List.cons.inj h
    exact ⟨List.prefix_refl [], fun _ hq => nomatch hq⟩
  | cons c s ih =>
    obtain ⟨q, rest, hcuts⟩ := exists_cuts joins starts (joins c) s
    obtain ⟨hfront, hrest⟩ := ih hcuts
    rw [cuts_cons hcuts] at h
    split_ifs at h with hcut
    · obtain ⟨rfl, rfl⟩ := List.cons.inj h
      refine ⟨List.nil_prefix, fun r hr => ?_⟩
      rcases List.mem_cons.mp hr with rfl | hr
      · rw [Bool.and_eq_true] at hcut
        exact ⟨c :: s, hcut.2, (List.prefix_cons_inj c).mpr hfront⟩
      · exact hrest r hr
    · obtain ⟨rfl, rfl⟩ := List.cons.inj h
      exact ⟨(List.prefix_cons_inj c).mpr hfront, hrest⟩

/-- A text is cut before its second part. -/
theorem cuts_append (hlast : joinsAfter joins after a = false) (hb : starts b = true) (hne : b ≠ []) :
    ∃ p pieces, (p :: pieces).flatten = a ∧
      cuts joins starts after (a ++ b) = p :: pieces ++ (cuts joins starts false b).tail := by
  induction a generalizing after with
  | nil =>
    refine ⟨[], [], rfl, ?_⟩
    rw [show after = false from hlast]
    exact cuts_of_starts rfl hb hne
  | cons c a ih =>
    obtain ⟨p, pieces, hflatten, hcuts⟩ := @ih (joins c) hlast
    have hcons : cuts joins starts after (c :: (a ++ b)) = _ := cuts_cons hcuts
    rw [List.flatten_cons] at hflatten
    rw [List.cons_append, hcons]
    split_ifs
    · refine ⟨[], (c :: p) :: pieces, ?_, rfl⟩
      rw [List.flatten_cons, List.flatten_cons, List.nil_append, List.cons_append, hflatten]
    · refine ⟨c :: p, pieces, ?_, rfl⟩
      rw [List.flatten_cons, List.cons_append, hflatten]

/-- The places of the first part stay where they are. -/
theorem cuts_append_of_same (hlast : joinsAfter joins after a = false) (hb : starts b = true)
    (hne : b ≠ []) (hsame : ∀ d c e, a = d ++ c :: e → joinsAfter joins after d = false →
      starts (c :: e ++ b) = starts (c :: e)) :
    cuts joins starts after (a ++ b) =
      cuts joins starts after a ++ (cuts joins starts false b).tail := by
  induction a generalizing after with
  | nil =>
    rw [show after = false from hlast]
    exact cuts_of_starts rfl hb hne
  | cons c a ih =>
    have hrest := @ih (joins c) hlast
      (fun d e f ha hd => hsame (c :: d) e f (by rw [ha, List.cons_append]) hd)
    obtain ⟨p, pieces, hcuts⟩ := exists_cuts joins starts (joins c) a
    have hwhole := hrest
    rw [hcuts, List.cons_append] at hwhole
    rw [List.cons_append, cuts_cons hwhole, cuts_cons hcuts]
    cases after with
    | true => rfl
    | false =>
      have hstart : starts (c :: (a ++ b)) = starts (c :: a) := hsame [] c a rfl rfl
      rw [hstart]
      split_ifs <;> rfl

/-- A first part without a place stays in one piece with what follows. -/
theorem cuts_of_no_start {pieces : List Str}
    (hnone : ∀ d c e, a = d ++ c :: e → joinsAfter joins after d = false →
      starts (c :: e ++ b) = false)
    (hb : cuts joins starts (joinsAfter joins after a) b = p :: pieces) :
    cuts joins starts after (a ++ b) = (a ++ p) :: pieces := by
  induction a generalizing after with
  | nil => exact hb
  | cons c a ih =>
    have hrest := @ih (joins c)
      (fun d e f ha hd => hnone (c :: d) e f (by rw [ha, List.cons_append]) hd) hb
    rw [List.cons_append, cuts_cons hrest]
    cases after with
    | true => rfl
    | false =>
      have hstart : starts (c :: (a ++ b)) = false := hnone [] c a rfl rfl
      rw [hstart]
      rfl

/-- Cutting before the places and at the separators, in either order. -/
theorem flatMap_cuts {sep : Char → Bool} (hjoins : ∀ c, sep c = true → joins c = false)
    (hsep : ∀ c s, sep c = true → starts (c :: s) = false)
    (hlocal : ∀ s h t, s.splitOnP sep = h :: t → starts s = starts h) {h : Str} {t : List Str}
    (hs : s.splitOnP sep = h :: t) :
    cuts joins starts after h ++ t.flatMap (cuts joins starts false) =
      (cuts joins starts after s).flatMap (List.splitOnP sep) := by
  induction s generalizing after h t with
  | nil =>
    obtain ⟨rfl, rfl⟩ := List.cons.inj hs
    rfl
  | cons c s ih =>
    obtain ⟨h', t', hs'⟩ := List.exists_cons_of_ne_nil (List.splitOnP_ne_nil sep s)
    obtain ⟨p, pieces, hcuts⟩ := exists_cuts joins starts (joins c) s
    have hrest := @ih (joins c) h' t' hs'
    have hstart := hlocal (c :: s) h t hs
    rw [List.splitOnP_cons_eq_if_modifyHead, hs'] at hs
    rw [hcuts, List.flatMap_cons] at hrest
    split_ifs at hs with hc
    · obtain ⟨rfl, rfl⟩ := List.cons.inj hs
      rw [hjoins c hc] at hrest
      rw [cuts_cons hcuts, hsep c s hc, Bool.and_false, if_neg (by decide), List.flatMap_cons,
        List.flatMap_cons, List.splitOnP_cons_eq_if_modifyHead, if_pos hc, List.cons_append, ← hrest]
      rfl
    · obtain ⟨rfl, rfl⟩ := List.cons.inj hs
      obtain ⟨q, rest, hq⟩ := exists_cuts joins starts (joins c) h'
      obtain ⟨r, parts, hr⟩ := List.exists_cons_of_ne_nil (List.splitOnP_ne_nil sep p)
      rw [hq, hr, List.cons_append, List.cons_append] at hrest
      obtain ⟨rfl, htail⟩ := List.cons.inj hrest
      have hpiece : (c :: p).splitOnP sep = (c :: q) :: parts := by
        rw [List.splitOnP_cons_eq_if_modifyHead, if_neg hc, hr]
        rfl
      rw [cuts_cons hq, cuts_cons hcuts, hstart]
      split_ifs
      · rw [List.flatMap_cons, List.flatMap_cons, hpiece]
        show [] :: (c :: q) :: (rest ++ _) = [] :: (c :: q) :: (parts ++ _)
        rw [htail]
      · rw [List.flatMap_cons, hpiece]
        show (c :: q) :: (rest ++ _) = (c :: q) :: (parts ++ _)
        rw [htail]

/-! ## Whitespace -/

theorem map_rstrip_cuts (hspace : ∀ c s, isSpace c = true → starts (c :: s) = false)
    (hend : ∀ s w, (∀ c ∈ w, isSpace c = true) → starts (s ++ w) = starts s) {w : Str}
    (hw : ∀ c ∈ w, isSpace c = true) :
    (cuts joins starts after (s ++ w)).map rstrip = (cuts joins starts after s).map rstrip := by
  induction s generalizing after with
  | nil =>
    have hone : cuts joins starts after (w ++ []) = [w ++ []] :=
      cuts_of_no_start (fun d c e hsplit _ => hspace c _ (hw c (by rw [hsplit]; simp))) rfl
    rw [List.append_nil] at hone
    rw [List.nil_append, hone, List.map_singleton, rstrip_eq_nil_iff.mpr hw]
    rfl
  | cons c s ih =>
    obtain ⟨p, pieces, hcuts⟩ := exists_cuts joins starts (joins c) (s ++ w)
    obtain ⟨q, rest, hq⟩ := exists_cuts joins starts (joins c) s
    have hrest := @ih (joins c)
    rw [hcuts, hq, List.map_cons, List.map_cons] at hrest
    obtain ⟨hfirst, hrest⟩ := List.cons.inj hrest
    have hcons : rstrip (c :: p) = rstrip (c :: q) := by
      have hp := rstrip_append_eq [c] p
      have hq := rstrip_append_eq [c] q
      rw [hfirst] at hp
      exact hp.trans hq.symm
    have hstart : starts (c :: (s ++ w)) = starts (c :: s) := hend (c :: s) w hw
    rw [List.cons_append, cuts_cons hcuts, cuts_cons hq, hstart]
    split_ifs
    · rw [List.map_cons, List.map_cons, List.map_cons, List.map_cons, hcons, hrest]
    · rw [List.map_cons, List.map_cons, hcons, hrest]

/-- Whitespace around the text stays around its pieces. -/
theorem map_strip_cuts (hjoins : ∀ c, isSpace c = true → joins c = false)
    (hspace : ∀ c s, isSpace c = true → starts (c :: s) = false)
    (hend : ∀ s w, (∀ c ∈ w, isSpace c = true) → starts (s ++ w) = starts s) :
    (cuts joins starts false (strip s)).map strip = (cuts joins starts false s).map strip := by
  have hback : ∀ t : Str, (cuts joins starts false (rstrip t)).map strip =
      (cuts joins starts false t).map strip := by
    intro t
    have ht : rstrip t ++ (t.reverse.takeWhile isSpace).reverse = t := by
      rw [rstrip, ← List.reverse_append, List.takeWhile_append_dropWhile, List.reverse_reverse]
    have hmap : (cuts joins starts false (rstrip t ++ (t.reverse.takeWhile isSpace).reverse)).map
        rstrip = _ :=
      map_rstrip_cuts hspace hend (fun c hc => List.mem_takeWhile_imp (List.mem_reverse.mp hc))
    rw [ht] at hmap
    have hstrip := congrArg (List.map strip) hmap
    simpa only [List.map_map, Function.comp_def, strip_rstrip] using hstrip.symm
  have hfront : (cuts joins starts false (lstrip s)).map strip =
      (cuts joins starts false s).map strip := by
    have hs : s.takeWhile isSpace ++ lstrip s = s := List.takeWhile_append_dropWhile
    have hblank : ∀ c ∈ s.takeWhile isSpace, isSpace c = true := fun _ => List.mem_takeWhile_imp
    generalize s.takeWhile isSpace = w at hs hblank
    have hafter : joinsAfter joins false w = false :=
      joinsAfter_eq_false_iff.mpr (fun c hc => hjoins c (hblank c (List.mem_of_getLast? hc)))
    obtain ⟨p, pieces, hcuts⟩ := exists_cuts joins starts false (lstrip s)
    have hwhole : cuts joins starts false (w ++ lstrip s) = (w ++ p) :: pieces :=
      cuts_of_no_start (fun d c e hsplit _ => hspace c _ (hblank c (by rw [hsplit]; simp)))
        (by rw [hafter, hcuts])
    have hp : strip (w ++ p) = strip p := by
      rw [← strip_lstrip, lstrip_spaces w hblank, strip_lstrip]
    rw [hs] at hwhole
    rw [hwhole, hcuts, List.map_cons, List.map_cons, hp]
  rw [strip, hback, hfront]

end Cuts

end Text
