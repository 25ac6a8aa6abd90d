import PveZfsTool.Lib.LineFile
import PveZfsTool.Lib.Strip
import PveZfsTool.Lib.Words

/-!
# Joined lines without the whitespace around them

`strip` of joined lines drops the blank lines at both ends, and the whitespace
before the first line that is left and after the last one.  `trim` does this to
the lines (`join_trim`), so that the stripped text can be read line by line
(`strip_join_newline`, `splitLines_unlines_trim`).
-/

namespace Text

variable {s t l m : Str} {lines : List Str}

/-! ## `strip` of two parts -/

theorem lstrip_append_eq (s t : Str) :
    lstrip (s ++ t) = if lstrip s = [] then lstrip t else lstrip s ++ t := by
  induction s with
  | nil => rfl
  | cons c s ih =>
    cases hc : isSpace c with
    | true =>
      have hdrop : ∀ u, lstrip (c :: u) = lstrip u := by
        intro u
        rw [lstrip, List.dropWhile_cons, if_pos hc]
        rfl
      rw [List.cons_append, hdrop, hdrop, ih]
    | false => rw [List.cons_append, lstrip_cons hc, lstrip_cons hc, if_neg (List.cons_ne_nil c s),
        List.cons_append]

theorem rstrip_eq_reverse (s : Str) : rstrip s = (lstrip s.reverse).reverse := rfl

theorem IsWordText.rstrip_append {w : Str} (h : IsWordText w) : rstrip (s ++ w) = s ++ w := by
  have hreverse : IsWordText w.reverse :=
    ⟨by simpa using h.nonempty, fun c hc => h.plain c (List.mem_reverse.mp hc)⟩
  rw [rstrip_eq_reverse, List.reverse_append, hreverse.lstrip_append, ← List.reverse_append,
    List.reverse_reverse]

theorem rstrip_append_eq (s t : Str) :
    rstrip (s ++ t) = if rstrip t = [] then rstrip s else s ++ rstrip t := by
  rw [rstrip_eq_reverse, List.reverse_append, lstrip_append_eq]
  by_cases hblank : lstrip t.reverse = []
  · have hnil : rstrip t = [] := List.reverse_eq_nil_iff.mpr hblank
    rw [if_pos hblank, if_pos hnil]
    rfl
  · have hne : rstrip t ≠ [] := fun hnil => hblank (List.reverse_eq_nil_iff.mp hnil)
    rw [if_neg hblank, if_neg hne, List.reverse_append, List.reverse_reverse]
    rfl

theorem lstrip_eq_nil_iff : lstrip s = [] ↔ ∀ c ∈ s, isSpace c = true := List.dropWhile_eq_nil_iff

theorem rstrip_eq_nil_iff : rstrip s = [] ↔ ∀ c ∈ s, isSpace c = true := by
  rw [rstrip_eq_reverse, List.reverse_eq_nil_iff, lstrip_eq_nil_iff]
  simp only [List.mem_reverse]

theorem strip_eq_nil_iff : strip s = [] ↔ ∀ c ∈ s, isSpace c = true := by
  have hparts := List.takeWhile_append_dropWhile (p := isSpace) (l := s)
  rw [strip, rstrip_eq_nil_iff, lstrip]
  refine ⟨fun h c hc => ?_, fun h c hc => h c ((List.dropWhile_sublist _).subset hc)⟩
  rw [← hparts] at hc
  exact (List.mem_append.mp hc).elim List.mem_takeWhile_imp (h c)

theorem strip_lstrip (s : Str) : strip (lstrip s) = strip s := by
  rw [strip, strip, lstrip, lstrip, List.dropWhile_idempotent]

theorem lstrip_strip (s : Str) : lstrip (strip s) = strip s := by
  cases hs : strip s with
  | nil => rfl
  | cons c t => exact lstrip_cons (isSpace_head_strip (s := s) (by rw [hs]; rfl))

theorem strip_rstrip (s : Str) : strip (rstrip s) = strip s := by
  have hs : rstrip s ++ (s.reverse.takeWhile isSpace).reverse = s := by
    rw [rstrip, ← List.reverse_append, List.takeWhile_append_dropWhile, List.reverse_reverse]
  have hblank : ∀ c ∈ (s.reverse.takeWhile isSpace).reverse, isSpace c = true := by
    intro c hc
    exact List.mem_takeWhile_imp (List.mem_reverse.mp hc)
  generalize (s.reverse.takeWhile isSpace).reverse = b at hs hblank
  have hfront : lstrip s = if lstrip (rstrip s) = [] then lstrip b else lstrip (rstrip s) ++ b := by
    rw [← lstrip_append_eq, hs]
  rw [strip, strip, hfront]
  split_ifs with hnil
  · rw [hnil, lstrip_eq_nil_iff.mpr hblank]
  · rw [rstrip_append_eq, if_pos (rstrip_eq_nil_iff.mpr hblank)]

/-- The text without whitespace. -/
theorem filter_strip (s : Str) :
    (strip s).filter (fun c => !isSpace c) = s.filter (fun c => !isSpace c) := by
  have hfront : ∀ t : Str, (t.dropWhile isSpace).filter (fun c => !isSpace c) =
      t.filter (fun c => !isSpace c) := by
    intro t
    have hblank : (t.takeWhile isSpace).filter (fun c => !isSpace c) = [] :=
      List.filter_eq_nil_iff.mpr (fun c hc => by simp [List.mem_takeWhile_imp hc])
    have hwhole := congrArg (List.filter (fun c => !isSpace c))
      (List.takeWhile_append_dropWhile (p := isSpace) (l := t))
    rw [List.filter_append, hblank] at hwhole
    exact hwhole
  rw [strip, rstrip, List.filter_reverse, hfront, List.filter_reverse, List.reverse_reverse, lstrip,
    hfront]

theorem strip_ne_of_append {p d : Str} {c : Char} (hc : c ∈ d) (hspace : isSpace c = false) :
    strip p ≠ strip (p ++ d) := by
  intro heq
  have hfilter := congrArg (List.filter (fun c => !isSpace c)) heq
  rw [filter_strip, filter_strip, List.filter_append, List.self_eq_append_right] at hfilter
  exact absurd (List.filter_eq_nil_iff.mp hfilter c hc) (by simp [hspace])

/-- A text that is not blank keeps what it starts with when more is written
behind it. -/
theorem exists_strip_append_eq (h : strip s ≠ []) (t : Str) : ∃ u, strip (s ++ t) = strip s ++ u := by
  have hfront : lstrip s ≠ [] := by
    intro hnil
    rw [strip, hnil] at h
    exact h rfl
  rw [strip, lstrip_append_eq, if_neg hfront, rstrip_append_eq, strip]
  split_ifs with hblank
  · exact ⟨[], (List.append_nil _).symm⟩
  · obtain ⟨b, hb⟩ := rstrip_take (lstrip s)
    exact ⟨b ++ rstrip t, by rw [← List.append_assoc, hb]⟩

/-! ## Lines -/

/-- The lines without the whitespace before them. -/
def trimFront : List Str → List Str
  | [] => []
  | l :: lines => if lstrip l = [] then trimFront lines else lstrip l :: lines

/-- The lines without the whitespace after them. -/
def trimBack : List Str → List Str
  | [] => []
  | l :: lines =>
      match trimBack lines with
      | [] => if rstrip l = [] then [] else [rstrip l]
      | m :: rest => l :: m :: rest

/-- The lines without the whitespace around them. -/
def trim (lines : List Str) : List Str := trimBack (trimFront lines)

theorem join_cons_cons : join ['\n'] (l :: m :: lines) = l ++ '\n' :: join ['\n'] (m :: lines) := by
  show l ++ ['\n'] ++ join ['\n'] (m :: lines) = _
  rw [List.append_assoc, List.singleton_append]

theorem join_trimFront : join ['\n'] (trimFront lines) = lstrip (join ['\n'] lines) := by
  induction lines with
  | nil => rfl
  | cons l lines ih =>
    rw [trimFront]
    cases lines with
    | nil =>
      show join ['\n'] (if lstrip l = [] then [] else [lstrip l]) = lstrip l
      split_ifs with hl
      · rw [hl]
        rfl
      · rfl
    | cons m lines =>
      have hnewline : lstrip ('\n' :: join ['\n'] (m :: lines)) = lstrip (join ['\n'] (m :: lines)) :=
        rfl
      rw [join_cons_cons, lstrip_append_eq, hnewline, ← ih]
      split_ifs with hl
      · rfl
      · rw [join_cons_cons]

/-- Trimmed lines do not join to the empty text, unless none is left. -/
theorem join_trimBack : join ['\n'] (trimBack lines) = rstrip (join ['\n'] lines) ∧
    (rstrip (join ['\n'] lines) = [] → trimBack lines = []) := by
  induction lines with
  | nil => exact ⟨rfl, fun _ => rfl⟩
  | cons l lines ih =>
    cases lines with
    | nil =>
      show join ['\n'] (if rstrip l = [] then [] else [rstrip l]) = rstrip l ∧
        (rstrip l = [] → (if rstrip l = [] then [] else [rstrip l]) = [])
      split_ifs with hl
      · exact ⟨hl.symm, fun _ => rfl⟩
      · exact ⟨rfl, fun hnil => absurd hnil hl⟩
    | cons m lines =>
      obtain ⟨hjoin, hnil⟩ := ih
      have hnewline : rstrip ('\n' :: join ['\n'] (m :: lines)) =
          if rstrip (join ['\n'] (m :: lines)) = [] then []
          else '\n' :: rstrip (join ['\n'] (m :: lines)) :=
        rstrip_append_eq ['\n'] (join ['\n'] (m :: lines))
      rw [join_cons_cons, rstrip_append_eq, trimBack]
      cases hback : trimBack (m :: lines) with
      | nil =>
        have hblank : rstrip ('\n' :: join ['\n'] (m :: lines)) = [] := by
          have hrest : rstrip (join ['\n'] (m :: lines)) = [] := by
            rw [← hjoin, hback]
            rfl
          rw [hnewline, if_pos hrest]
        rw [if_pos hblank]
        show join ['\n'] (if rstrip l = [] then [] else [rstrip l]) = rstrip l ∧
          (rstrip l = [] → (if rstrip l = [] then [] else [rstrip l]) = [])
        split_ifs with hl
        · exact ⟨hl.symm, fun _ => rfl⟩
        · exact ⟨rfl, fun h => absurd h hl⟩
      | cons p rest =>
        have hne : rstrip (join ['\n'] (m :: lines)) ≠ [] := by
          intro h
          rw [hnil h] at hback
          cases hback
        rw [hnewline, if_neg hne, if_neg (List.cons_ne_nil _ _), ← hjoin, hback]
        refine ⟨join_cons_cons, fun h => ?_⟩
        simp at h

theorem join_trim : join ['\n'] (trim lines) = strip (join ['\n'] lines) := by
  rw [trim, join_trimBack.1, join_trimFront]
  rfl

theorem trim_eq_nil (h : strip (join ['\n'] lines) = []) : trim lines = [] := by
  refine join_trimBack.2 ?_
  rw [join_trimFront]
  exact h

/-- The stripped text, with a newline at its end unless it is empty. -/
theorem strip_join_newline :
    (if strip (join ['\n'] lines) = [] then [] else strip (join ['\n'] lines) ++ ['\n']) =
      unlines (trim lines) := by
  split_ifs with hnil
  · rw [trim_eq_nil hnil]
    rfl
  · rw [← join_trim] at hnil ⊢
    cases htrim : trim lines with
    | nil =>
      rw [htrim] at hnil
      exact absurd rfl hnil
    | cons l rest => exact join_newline

/-- A trimmed line is one of the lines, but for whitespace at its ends. -/
theorem mem_trimFront (h : l ∈ trimFront lines) : ∃ m ∈ lines, l = m ∨ l = lstrip m := by
  induction lines with
  | nil => cases h
  | cons m lines ih =>
    rw [trimFront] at h
    split_ifs at h with hm
    · obtain ⟨m', hm', hl⟩ := ih h
      exact ⟨m', List.mem_cons_of_mem _ hm', hl⟩
    · rcases List.mem_cons.mp h with rfl | h
      · exact ⟨m, List.mem_cons_self, .inr rfl⟩
      · exact ⟨l, List.mem_cons_of_mem _ h, .inl rfl⟩

theorem mem_trimBack (h : l ∈ trimBack lines) : ∃ m ∈ lines, l = m ∨ l = rstrip m := by
  induction lines with
  | nil => cases h
  | cons m lines ih =>
    rw [trimBack] at h
    cases hback : trimBack lines with
    | nil =>
      rw [hback] at h
      change l ∈ (if rstrip m = [] then [] else [rstrip m]) at h
      split_ifs at h
      · cases h
      · exact ⟨m, List.mem_cons_self, .inr (List.mem_singleton.mp h)⟩
    | cons p rest =>
      rw [hback] at h ih
      rcases List.mem_cons.mp h with rfl | h
      · exact ⟨l, List.mem_cons_self, .inl rfl⟩
      · obtain ⟨m', hm', hl⟩ := ih h
        exact ⟨m', List.mem_cons_of_mem _ hm', hl⟩

theorem mem_trim (h : l ∈ trim lines) :
    ∃ m ∈ lines, strip l = strip m ∧ ∀ c ∈ l, c ∈ m := by
  obtain ⟨p, hp, hl⟩ := mem_trimBack h
  obtain ⟨m, hm, hp⟩ := mem_trimFront hp
  have hpm : strip p = strip m ∧ ∀ c ∈ p, c ∈ m := by
    rcases hp with rfl | rfl
    · exact ⟨rfl, fun _ hc => hc⟩
    · exact ⟨strip_lstrip m, fun _ hc => mem_of_mem_lstrip hc⟩
  refine ⟨m, hm, ?_⟩
  rcases hl with rfl | rfl
  · exact hpm
  · exact ⟨(strip_rstrip p).trans hpm.1, fun c hc => hpm.2 c ((rstrip_take p).subset hc)⟩

theorem noBreak_of_mem_trim (h : ∀ m ∈ lines, NoBreak m) : ∀ l ∈ trim lines, NoBreak l := by
  intro l hl
  obtain ⟨m, hm, -, hchars⟩ := mem_trim hl
  exact fun c hc => h m hm c (hchars c hc)

/-- The lines of the stripped text. -/
theorem splitLines_unlines_trim (h : ∀ m ∈ lines, NoBreak m) :
    splitLines (unlines (trim lines)) = trim lines := splitLines_unlines (noBreak_of_mem_trim h)

/-- A text that has been stripped stays as it is. -/
theorem unlines_trim_trim : unlines (trim (trim lines)) = unlines (trim lines) := by
  rw [← strip_join_newline, join_trim, strip_strip, strip_join_newline]

/-- A last line without whitespace at its ends stays as it is. -/
theorem trim_append_last (hne : l ≠ []) (hfront : lstrip l = l) (hback : rstrip l = l) :
    trim (lines ++ [l]) = trimFront lines ++ [l] := by
  have htrimFront : trimFront (lines ++ [l]) = trimFront lines ++ [l] := by
    induction lines with
    | nil =>
      show (if lstrip l = [] then [] else [lstrip l]) = [l]
      rw [hfront, if_neg hne]
    | cons m lines ih =>
      rw [List.cons_append, trimFront, trimFront, ih]
      split_ifs
      · rfl
      · rfl
  have htrimBack : ∀ ls, trimBack (ls ++ [l]) = ls ++ [l] := by
    intro ls
    induction ls with
    | nil =>
      show (if rstrip l = [] then [] else [rstrip l]) = [l]
      rw [hback, if_neg hne]
    | cons m ls ih =>
      rw [List.cons_append, trimBack, ih]
      cases ls <;> rfl
  rw [trim, htrimFront, htrimBack]

end Text
