import PveZfsTool.Lib.Text

/-!
# Substitution

Facts about `substitute`, for any matcher.

* `substitute_keep`, `substitute_match` and `substitute_stretch` are its
  steps: a character that is kept, a match, and a stretch without a match.
* `Matcher.Proper`: a match is not empty and lies in the text.  The
  inductions over a substitution go along `substitute_cases`.
* `not_infix_substitute`: a word that no replacement can make is not made.
* `substitute_split`: a substitution that never looks past a separator works
  on both sides of it alone.
-/

namespace Text

/-- A pattern of `re.sub`, as `substitute` takes it. -/
abbrev Matcher := Option Char → Str → Option (Nat × Str)

/-- A match is not empty, and lies in the text. -/
def Matcher.Proper (m : Matcher) : Prop :=
  ∀ prev s n r, m prev s = some (n, r) → 0 < n ∧ n ≤ s.length

/-- The last character of `s`, or the one before it. -/
def lastOr (prev : Option Char) (s : Str) : Option Char := s.getLast?.or prev

@[simp] theorem lastOr_nil (prev : Option Char) : lastOr prev [] = prev := rfl

@[simp] theorem lastOr_cons (prev : Option Char) (c : Char) (s : Str) :
    lastOr prev (c :: s) = lastOr (some c) s := by
  cases s with
  | nil => rfl
  | cons d s =>
    rw [lastOr, lastOr, List.getLast?_cons_cons]
    simp [List.getLast?_cons]

theorem lastOr_append (prev : Option Char) (s t : Str) :
    lastOr prev (s ++ t) = lastOr (lastOr prev s) t := by
  induction s generalizing prev with
  | nil => rfl
  | cons c s ih => rw [List.cons_append, lastOr_cons, lastOr_cons, ih]

/-- A match was the last thing, so there is a character before what is
left. -/
theorem lastOr_ne_none {prev : Option Char} {s : Str} (h : s ≠ []) : lastOr prev s ≠ none := by
  cases s with
  | nil => exact absurd rfl h
  | cons c s =>
    rw [lastOr_cons]
    cases s with
    | nil => simp
    | cons d s => simp [lastOr, List.getLast?_cons]

theorem exists_lastOr (d : Char) (s : Str) : ∃ e, lastOr (some d) s = some e := by
  cases s with
  | nil => exact ⟨d, rfl⟩
  | cons c s => exact Option.ne_none_iff_exists'.mp (lastOr_ne_none (List.cons_ne_nil c s))

/-- What stands before a text counts for a match at its start only. -/
theorem substitute_start {m : Matcher} {prev prev' : Option Char} {s : Str}
    (h : m prev s = m prev' s) : substitute m prev 0 s = substitute m prev' 0 s := by
  cases s with
  | nil => rfl
  | cons c s => rw [substitute, substitute, h]

/-- The characters of a match are passed over. -/
theorem substitute_skip (m : Matcher) (prev : Option Char) (seg s : Str) :
    substitute m prev seg.length (seg ++ s) = substitute m (lastOr prev seg) 0 s := by
  induction seg generalizing prev with
  | nil => rfl
  | cons c seg ih =>
    rw [List.length_cons, List.cons_append, substitute, ih, lastOr_cons]

/-- A character that starts no match is kept. -/
theorem substitute_keep {m : Matcher} {prev : Option Char} {c : Char} {s : Str}
    (h : m prev (c :: s) = none) :
    substitute m prev 0 (c :: s) = c :: substitute m (some c) 0 s := by
  rw [substitute, h]

/-- A match is replaced. -/
theorem substitute_match {m : Matcher} {prev : Option Char} {seg s r : Str} (hne : seg ≠ [])
    (h : m prev (seg ++ s) = some (seg.length, r)) :
    substitute m prev 0 (seg ++ s) = r ++ substitute m (lastOr prev seg) 0 s := by
  cases seg with
  | nil => exact absurd rfl hne
  | cons c seg =>
    rw [List.cons_append] at h ⊢
    rw [substitute, h]
    dsimp only
    rw [List.length_cons, Nat.add_sub_cancel, substitute_skip, lastOr_cons]

/-- A stretch without a match is kept. -/
theorem substitute_stretch {m : Matcher} {prev : Option Char} {p s : Str}
    (hfirst : p ≠ [] → m prev (p ++ s) = none)
    (hrest : ∀ c t, t ≠ [] → t <:+ p → m (some c) (t ++ s) = none) :
    substitute m prev 0 (p ++ s) = p ++ substitute m (lastOr prev p) 0 s := by
  induction p generalizing prev with
  | nil => rfl
  | cons c p ih =>
    have hc : m prev (c :: (p ++ s)) = none := hfirst (by simp)
    rw [List.cons_append, substitute_keep hc, lastOr_cons, ih]
    · rfl
    · exact fun hne => hrest c p hne (List.suffix_cons c p)
    · exact fun d t hne hsuffix => hrest d t hne (hsuffix.trans (List.suffix_cons c p))

/-- A text without a match is kept. -/
theorem substitute_eq_self {m : Matcher} {prev : Option Char} {s : Str}
    (h : ∀ prev t, t ≠ [] → t <:+ s → m prev t = none) : substitute m prev 0 s = s := by
  have hprefix : substitute m prev 0 (s ++ []) = s ++ substitute m (lastOr prev s) 0 [] :=
    substitute_stretch (fun hne => by simpa using h prev s hne (List.suffix_refl s))
      (fun c t hne hsuffix => by simpa using h (some c) t hne hsuffix)
  simpa [substitute] using hprefix

/-- A substitution starts with a character that it keeps, or with a match. -/
theorem substitute_cases {m : Matcher} (hm : m.Proper) {prev : Option Char} {s : Str}
    (hne : s ≠ []) :
    (∃ c t, s = c :: t ∧ m prev s = none ∧
        substitute m prev 0 s = c :: substitute m (some c) 0 t) ∨
      ∃ seg t r, s = seg ++ t ∧ seg ≠ [] ∧ m prev s = some (seg.length, r) ∧
        substitute m prev 0 s = r ++ substitute m (lastOr prev seg) 0 t := by
  cases hmatch : m prev s with
  | none =>
    cases s with
    | nil => exact absurd rfl hne
    | cons c t => exact Or.inl ⟨c, t, rfl, rfl, substitute_keep hmatch⟩
  | some found =>
    obtain ⟨n, r⟩ := found
    obtain ⟨hpos, hle⟩ := hm prev s n r hmatch
    have hlength : (s.take n).length = n := List.length_take_of_le hle
    have hseg : s.take n ≠ [] := by
      intro hnil
      rw [hnil] at hlength
      simp at hlength
      omega
    refine Or.inr ⟨s.take n, s.drop n, r, (List.take_append_drop n s).symm, hseg, ?_, ?_⟩
    · rw [hlength]
    · have hsub : substitute m prev 0 (s.take n ++ s.drop n) =
          r ++ substitute m (lastOr prev (s.take n)) 0 (s.drop n) :=
        substitute_match hseg (by rw [List.take_append_drop, hlength, hmatch])
      rwa [List.take_append_drop] at hsub

/-- Where each replacement shows, the text is kept if and only if nothing
matches. -/
theorem substitute_eq_self_iff {m : Matcher} (hm : m.Proper)
    (hshows : ∀ prev seg t r x, m prev (seg ++ t) = some (seg.length, r) → r ++ x ≠ seg ++ t)
    {prev : Option Char} {s : Str} :
    substitute m prev 0 s = s ↔ ∀ a b, b ≠ [] → s = a ++ b → m (lastOr prev a) b = none := by
  constructor
  · intro hself a b hne heq
    induction a generalizing prev s with
    | nil =>
      obtain rfl : s = b := heq
      rw [lastOr_nil]
      rcases @substitute_cases m hm prev s hne with ⟨c, t, -, hnone, -⟩ | ⟨seg, t, r, rfl, -, hmatch, hsub⟩
      · exact hnone
      · rw [hsub] at hself
        exact absurd hself (hshows _ _ _ _ _ hmatch)
    | cons d a ih =>
      have hs : s ≠ [] := by
        rw [heq]
        exact List.cons_ne_nil _ _
      rcases substitute_cases hm hs with ⟨c, t, rfl, -, hsub⟩ | ⟨seg, t, r, rfl, -, hmatch, hsub⟩
      · obtain ⟨rfl, rfl⟩ := List.cons.inj heq
        rw [hsub] at hself
        rw [lastOr_cons]
        exact ih (List.cons.inj hself).2 rfl
      · rw [hsub] at hself
        exact absurd hself (hshows _ _ _ _ _ hmatch)
  · intro hnone
    induction s generalizing prev with
    | nil => rfl
    | cons c s ih =>
      have hfirst : m prev (c :: s) = none := hnone [] _ (List.cons_ne_nil c s) rfl
      rw [substitute_keep hfirst, ih fun a b hb heq => ?_]
      rw [← lastOr_cons]
      exact hnone (c :: a) b hb (by rw [heq]; rfl)

theorem substitute_ne_nil {m : Matcher} (hm : m.Proper)
    (hr : ∀ prev s n r, m prev s = some (n, r) → r ≠ []) {prev : Option Char} {s : Str} (hs : s ≠ []) :
    substitute m prev 0 s ≠ [] := by
  rcases @substitute_cases m hm prev s hs with ⟨c, t, -, -, hsub⟩ | ⟨seg, t, r, -, -, hmatch, hsub⟩
  · rw [hsub]
    exact List.cons_ne_nil _ _
  · rw [hsub]
    exact List.append_ne_nil_of_left_ne_nil (hr _ _ _ _ hmatch) _

/-- A character of every replacement shows whether there was a match. -/
theorem mem_substitute_or_eq {m : Matcher} (hm : m.Proper) {c : Char}
    (hr : ∀ prev s n r, m prev s = some (n, r) → c ∈ r) {prev : Option Char} {s : Str} :
    c ∈ substitute m prev 0 s ∨ substitute m prev 0 s = s := by
  induction s generalizing prev with
  | nil => exact .inr rfl
  | cons d s ih =>
    rcases @substitute_cases m hm prev (d :: s) (List.cons_ne_nil d s) with
      ⟨e, t, heq, -, hsub⟩ | ⟨seg, t, r, -, -, hmatch, hsub⟩
    · obtain ⟨rfl, rfl⟩ := List.cons.inj heq
      rw [hsub]
      rcases @ih (some d) with hmem | hself
      · exact .inl (List.mem_cons_of_mem _ hmem)
      · exact .inr (congrArg _ hself)
    · rw [hsub]
      exact .inl (List.mem_append_left _ (hr _ _ _ _ hmatch))

/-- A character that each match keeps in front stays the first one. -/
theorem exists_substitute_cons {m : Matcher} (hm : m.Proper) {prev : Option Char} {c : Char} {s : Str}
    (h : ∀ n r, m prev (c :: s) = some (n, r) → ∃ r', r = c :: r') :
    ∃ t, substitute m prev 0 (c :: s) = c :: t := by
  rcases @substitute_cases m hm prev (c :: s) (List.cons_ne_nil c s) with
    ⟨d, t, heq, -, hsub⟩ | ⟨seg, t, r, heq, -, hmatch, hsub⟩
  · obtain ⟨rfl, rfl⟩ := List.cons.inj heq
    exact ⟨_, hsub⟩
  · obtain ⟨r', rfl⟩ := h _ _ hmatch
    exact ⟨_, hsub⟩

/-- Each character of the result was there, or stands in a replacement. -/
theorem mem_substitute {m : Matcher} (hm : m.Proper) {P : Char → Prop}
    (hr : ∀ prev s n r, m prev s = some (n, r) → ∀ c ∈ r, c ∈ s ∨ P c) {prev : Option Char}
    {s : Str} {c : Char} (hc : c ∈ substitute m prev 0 s) : c ∈ s ∨ P c := by
  induction hlen : s.length using Nat.strong_induction_on generalizing prev s with
  | _ n ih =>
    by_cases hne : s = []
    · subst hne
      simp [substitute] at hc
    · rcases substitute_cases hm hne with ⟨d, t, rfl, -, hsub⟩ | ⟨seg, t, r, rfl, hseg, hmatch, hsub⟩
      · rw [hsub] at hc
        rcases List.mem_cons.mp hc with rfl | hc
        · exact Or.inl List.mem_cons_self
        · rcases ih t.length (by simp [← hlen]) hc rfl with hmem | hP
          · exact Or.inl (List.mem_cons_of_mem _ hmem)
          · exact Or.inr hP
      · rw [hsub] at hc
        rcases List.mem_append.mp hc with hc | hc
        · exact hr _ _ _ _ hmatch c hc
        · have hpos : 0 < seg.length := List.length_pos_iff.mpr hseg
          rcases ih t.length (by rw [← hlen, List.length_append]; omega) hc rfl with hmem | hP
          · exact Or.inl (List.mem_append_right _ hmem)
          · exact Or.inr hP

/-! ## Words of the text -/

/-- The start of the result was the start of the text when no part of it can
begin a replacement. -/
theorem prefix_of_substitute {m : Matcher} (hm : m.Proper) {w : Str}
    (hw : ∀ u, u ≠ [] → u <:+ w → ∀ prev s n r x, m prev s = some (n, r) → ¬ u <+: r ++ x)
    {prev : Option Char} {s : Str} (h : w <+: substitute m prev 0 s) : w <+: s := by
  induction w generalizing prev s with
  | nil => exact List.nil_prefix
  | cons c w ih =>
    by_cases hne : s = []
    · rw [hne] at h
      exact absurd (List.prefix_nil.mp h) (List.cons_ne_nil _ _)
    · obtain ⟨d, t, rfl, -, hsub⟩ | ⟨seg, t, r, -, -, hmatch, hsub⟩ := substitute_cases hm hne
      · rw [hsub] at h
        obtain ⟨rfl, h⟩ := List.cons_prefix_cons.mp h
        have hrest : w <+: t :=
          ih (fun u hu hsuffix => hw u hu (hsuffix.trans (List.suffix_cons _ _))) h
        exact List.cons_prefix_cons.mpr ⟨rfl, hrest⟩
      · rw [hsub] at h
        exact absurd h (hw _ (List.cons_ne_nil _ _) (List.suffix_refl _) _ _ _ _ _ hmatch)

/-- A word that no match touches is still there. -/
theorem infix_substitute {m : Matcher} (hm : m.Proper) {w : Str}
    (hstart : ∀ prev u s, u ≠ [] → u <:+ w → m prev (u ++ s) = none)
    (hover : ∀ prev seg t r, m prev (seg ++ t) = some (seg.length, r) → w <:+: seg ++ t → w <:+: t)
    {prev : Option Char} {s : Str} (h : w <:+: s) : w <:+: substitute m prev 0 s := by
  induction hlen : s.length using Nat.strong_induction_on generalizing prev s with
  | _ n ih =>
    by_cases hne : s = []
    · rw [hne] at h ⊢
      exact h
    · obtain ⟨c, t, rfl, -, hsub⟩ | ⟨seg, t, r, rfl, hseg, hmatch, hsub⟩ := substitute_cases hm hne
      · obtain hfirst | hinside := List.infix_cons_iff.mp h
        · obtain ⟨x, hx⟩ := hfirst
          rw [← hx, substitute_stretch (fun hw => hstart prev w x hw (List.suffix_refl w))
            (fun d u hu hsuffix => hstart (some d) u x hu hsuffix)]
          exact (List.prefix_append _ _).isInfix
        · rw [hsub]
          exact List.infix_cons (ih t.length (by simp [← hlen]) hinside rfl)
      · have hpos : 0 < seg.length := List.length_pos_iff.mpr hseg
        have hrest : w <:+: substitute m (lastOr prev seg) 0 t :=
          ih t.length (by rw [← hlen, List.length_append]; omega) (hover _ _ _ _ hmatch h) rfl
        rw [hsub]
        exact hrest.trans (List.suffix_append _ _).isInfix

/-! ## Words and separators -/

theorem prefix_append_sep {w a b : Str} {sep : Char} (hsep : sep ∉ w)
    (h : w <+: a ++ sep :: b) : w <+: a := by
  induction a generalizing w with
  | nil =>
    rcases List.prefix_cons_iff.mp h with rfl | ⟨t, rfl, -⟩
    · exact List.nil_prefix
    · exact absurd List.mem_cons_self hsep
  | cons c a ih =>
    rcases List.prefix_cons_iff.mp h with rfl | ⟨t, rfl, ht⟩
    · exact List.nil_prefix
    · have hprefix := ih (fun hmem => hsep (List.mem_cons_of_mem _ hmem)) ht
      exact List.cons_prefix_cons.mpr ⟨rfl, hprefix⟩

/-- A word without the separator does not reach over it. -/
theorem infix_append_sep {w a b : Str} {sep : Char} (hsep : sep ∉ w)
    (h : w <:+: a ++ sep :: b) : w <:+: a ∨ w <:+: b := by
  induction a with
  | nil =>
    rcases List.infix_cons_iff.mp h with hprefix | hinside
    · exact Or.inl (prefix_append_sep (a := []) hsep hprefix).isInfix
    · exact Or.inr hinside
  | cons c a ih =>
    rcases List.infix_cons_iff.mp h with hprefix | hinside
    · exact Or.inl (prefix_append_sep (a := c :: a) hsep hprefix).isInfix
    · rcases ih hinside with ha | hb
      · exact Or.inl (List.infix_cons_iff.mpr (Or.inr ha))
      · exact Or.inr hb

/-- A word that was not there is not there after a substitution, when no
replacement can make it together with what stands around it. -/
theorem not_infix_substitute {m : Matcher} (hm : m.Proper) {w : Str}
    (hr : ∀ prev seg s r a t, m prev (seg ++ s) = some (seg.length, r) → (prev = none → a = []) →
      ¬ w <:+: a ++ seg → ¬ w <:+: t → ¬ w <:+: a ++ (r ++ t)) {prev : Option Char} {s : Str}
    (a : Str) (ha : prev = none → a = []) (h : ¬ w <:+: a ++ s) :
    ¬ w <:+: a ++ substitute m prev 0 s := by
  induction hlen : s.length using Nat.strong_induction_on generalizing prev s a with
  | _ n ih =>
    by_cases hne : s = []
    · subst hne
      exact h
    · rcases substitute_cases hm hne with ⟨c, t, rfl, -, hsub⟩ | ⟨seg, t, r, rfl, hseg, hmatch, hsub⟩
      · have hrest : ¬ w <:+: (a ++ [c]) ++ substitute m (some c) 0 t :=
          ih t.length (by simp [← hlen]) (a ++ [c]) (fun hnone => by cases hnone)
            (by simpa using h) rfl
        rw [hsub]
        simpa using hrest
      · have hpos : 0 < seg.length := List.length_pos_iff.mpr hseg
        have hnot : ∀ x, x <:+: a ++ (seg ++ t) → ¬ w <:+: x := fun x hx hw => h (hw.trans hx)
        have hrest : ¬ w <:+: [] ++ substitute m (lastOr prev seg) 0 t :=
          ih t.length (by rw [← hlen, List.length_append]; omega) [] (fun _ => rfl)
            (hnot _ ⟨a ++ seg, [], by simp⟩) rfl
        rw [hsub]
        exact hr _ _ _ _ a _ hmatch ha (hnot _ ⟨[], t, by simp⟩) (by simpa using hrest)

/-- A pattern that does not look past the separator: it starts at no
separator, a match before one does not depend on what comes after it, and the
separator counts as the start of a text. -/
structure Matcher.Splits (m : Matcher) (sep : Char) : Prop where
  start : ∀ prev b, m prev (sep :: b) = none
  before : ∀ prev a b, a ≠ [] → m prev (a ++ sep :: b) = m prev a
  after : ∀ s, m (some sep) s = m none s

theorem substitute_after {m : Matcher} {sep : Char} (hsep : m.Splits sep) (s : Str) :
    substitute m (some sep) 0 s = substitute m none 0 s :=
  substitute_start (hsep.after s)

/-- A substitution that does not look past a separator works on both sides of
it alone. -/
theorem substitute_split {m : Matcher} (hm : m.Proper) {sep : Char} (hsep : m.Splits sep)
    {prev : Option Char} {a b : Str} :
    substitute m prev 0 (a ++ sep :: b) =
      substitute m prev 0 a ++ sep :: substitute m none 0 b := by
  induction hlen : a.length using Nat.strong_induction_on generalizing prev a with
  | _ n ih =>
    by_cases hne : a = []
    · subst hne
      rw [List.nil_append, substitute_keep (hsep.start prev b), substitute_after hsep]
      rfl
    · rcases substitute_cases hm hne with ⟨c, t, rfl, hnone, hsub⟩ | ⟨seg, t, r, rfl, hseg, hmatch, hsub⟩
      · have hkeep : m prev (c :: (t ++ sep :: b)) = none := by
          rw [← List.cons_append, hsep.before prev _ b hne, hnone]
        have hrest : substitute m (some c) 0 (t ++ sep :: b) =
            substitute m (some c) 0 t ++ sep :: substitute m none 0 b :=
          ih t.length (by simp [← hlen]) rfl
        rw [hsub, List.cons_append, substitute_keep hkeep, hrest]
        rfl
      · have hpos : 0 < seg.length := List.length_pos_iff.mpr hseg
        have hmatch' : m prev (seg ++ (t ++ sep :: b)) = some (seg.length, r) := by
          rw [← List.append_assoc, hsep.before prev _ b hne, hmatch]
        rw [hsub, List.append_assoc, substitute_match hseg hmatch',
          ih t.length (by rw [← hlen, List.length_append]; omega) rfl, List.append_assoc]

/-! ## Templates -/

/-- A template without a backslash is its own expansion. -/
theorem expandTemplate_literal {group : Nat → Option Str} {s : Str} (h : '\\' ∉ s) :
    expandTemplate group 0 s = some s := by
  induction s with
  | nil => rfl
  | cons c s ih =>
    rw [expandTemplate]
    · rw [ih (fun hmem => h (List.mem_cons_of_mem _ hmem))]
      rfl
    · rintro rfl
      exact h List.mem_cons_self

end Text
