import PveZfsTool.Lib.Infixes

/-!
# Options of a command line

An option is its name, separators, and a value, as in `--keep=24` or
`--keep 24`.  `find` reads the first one of a text, `set` writes a value into
all of them.

* `find_set`: what was set is found.
* `set_set`: setting a value again changes nothing.
* `set_eq_self_iff`: only a text whose options all have the value, written with
  one equals sign, is left as it is.
* `infix_set`: words that have nothing of an option are kept.
-/

namespace Text

/-- How an option is written: two dashes and a stem, then characters of `sep`,
then characters of `val`. -/
structure OptionSyntax where
  stem : Str
  sep : Char → Bool
  val : Char → Bool
  stem_ne : stem ≠ []
  dash_stem : '-' ∉ stem
  disjoint : ∀ c, val c = true → sep c = false
  equals_sep : sep '=' = true
  dash_sep : sep '-' = false
  dash_val : val '-' = false

namespace OptionSyntax

variable (o : OptionSyntax)

def name : Str := '-' :: '-' :: o.stem

/-- The option at the start of a text: the length of the match, and the
value. -/
def token (s : Str) : Option (Nat × Str) :=
  match s.dropPrefix? o.name with
  | none => none
  | some rest =>
      let seps := rest.takeWhile o.sep
      let value := (rest.dropWhile o.sep).takeWhile o.val
      if seps = [] ∨ value = [] then none else some (o.name.length + seps.length + value.length, value)

/-- The value of the first option. -/
def find : Str → Option Str
  | [] => none
  | c :: s =>
      match o.token (c :: s) with
      | some (_, value) => some value
      | none => find s

def matcher (value : Str) : Matcher := fun _ s => (o.token s).map fun t => (t.1, o.name ++ '=' :: value)

/-- The text with this value in all its options. -/
def set (value line : Str) : Str := substitute (o.matcher value) none 0 line

/-- The separators and the value of an option. -/
structure IsToken (seps value : Str) : Prop where
  seps_ne : seps ≠ []
  seps_all : ∀ c ∈ seps, o.sep c = true
  value_ne : value ≠ []
  value_all : ∀ c ∈ value, o.val c = true

/-- No value goes on at the start of the text. -/
def Ends (s : Str) : Prop := ∀ c ∈ s.head?, o.val c = false

variable {o} {s t seps value v : Str} {c : Char}

theorem ends_nil : o.Ends [] := by
  intro c hc
  cases hc

theorem ends_cons (hc : o.val c = false) : o.Ends (c :: s) := by
  intro d hd
  obtain rfl : c = d := Option.some.inj hd
  exact hc

theorem isToken_equals (hne : value ≠ []) (hall : ∀ c ∈ value, o.val c = true) :
    o.IsToken ['='] value where
  seps_ne := List.cons_ne_nil _ _
  seps_all := by
    intro c hc
    rw [List.mem_singleton.mp hc]
    exact o.equals_sep
  value_ne := hne
  value_all := hall

/-! ## The token -/

theorem takeWhile_run {p : Char → Bool} {a b : Str} (ha : ∀ c ∈ a, p c = true)
    (hb : ∀ c ∈ b.head?, p c = false) : (a ++ b).takeWhile p = a := by
  rw [List.takeWhile_append_of_pos ha]
  cases b with
  | nil => simp
  | cons c b => rw [List.takeWhile_cons_of_neg (by rw [hb c rfl]; decide), List.append_nil]

theorem dropWhile_run {p : Char → Bool} {a b : Str} (ha : ∀ c ∈ a, p c = true)
    (hb : ∀ c ∈ b.head?, p c = false) : (a ++ b).dropWhile p = b := by
  rw [List.dropWhile_append_of_pos ha]
  cases b with
  | nil => rfl
  | cons c b => rw [List.dropWhile_cons_of_neg (by rw [hb c rfl]; decide)]

theorem IsToken.value_head (h : o.IsToken seps value) :
    ∀ c ∈ (value ++ t).head?, o.sep c = false := by
  obtain ⟨d, rest, rfl⟩ := List.exists_cons_of_ne_nil h.value_ne
  intro c hc
  obtain rfl : d = c := Option.some.inj hc
  exact o.disjoint d (h.value_all d List.mem_cons_self)

theorem token_append (h : o.IsToken seps value) (ht : o.Ends t) :
    o.token (o.name ++ (seps ++ (value ++ t))) =
      some (o.name.length + seps.length + value.length, value) := by
  have hdrop : (o.name ++ (seps ++ (value ++ t))).dropPrefix? o.name = some (seps ++ (value ++ t)) :=
    List.dropPrefix?_eq_some_iff.mpr ⟨o.name, rfl, beq_self_eq_true _⟩
  rw [token, hdrop]
  dsimp only
  rw [takeWhile_run h.seps_all h.value_head, dropWhile_run h.seps_all h.value_head,
    takeWhile_run h.value_all ht, if_neg (by simp [h.seps_ne, h.value_ne])]

theorem token_some {n : Nat} (h : o.token s = some (n, v)) :
    ∃ seps t, s = o.name ++ (seps ++ (v ++ t)) ∧ o.IsToken seps v ∧ o.Ends t ∧
      n = o.name.length + seps.length + v.length := by
  rw [token] at h
  cases hdrop : s.dropPrefix? o.name with
  | none =>
    rw [hdrop] at h
    cases h
  | some rest =>
    rw [hdrop] at h
    dsimp only at h
    obtain ⟨pre, hs, hpre⟩ := List.dropPrefix?_eq_some_iff.mp hdrop
    obtain rfl := LawfulBEq.eq_of_beq hpre
    split at h
    · cases h
    · rename_i hne
      rw [not_or] at hne
      obtain ⟨hn, hv⟩ := Prod.mk.inj (Option.some.inj h)
      refine ⟨rest.takeWhile o.sep, (rest.dropWhile o.sep).dropWhile o.val, ?_, ?_, ?_, ?_⟩
      · rw [← hv, List.takeWhile_append_dropWhile, List.takeWhile_append_dropWhile, hs]
      · constructor
        · exact hne.1
        · exact fun c hc => List.mem_takeWhile_imp hc
        · rw [← hv]
          exact hne.2
        · rw [← hv]
          exact fun c hc => List.mem_takeWhile_imp hc
      · intro c hc
        have hhead := List.head?_dropWhile_not o.val (rest.dropWhile o.sep)
        rw [Option.mem_def.mp hc] at hhead
        exact hhead
      · rw [← hn, hv]

/-- The shortest text that starts with an option ends in the first character of
its value. -/
theorem token_isSome_iff : (o.token s).isSome = true ↔
    ∃ seps d, seps ≠ [] ∧ (∀ c ∈ seps, o.sep c = true) ∧ o.val d = true ∧
      o.name ++ (seps ++ [d]) <+: s := by
  constructor
  · intro h
    obtain ⟨⟨n, v⟩, hv⟩ := Option.isSome_iff_exists.mp h
    obtain ⟨seps, t, rfl, htoken, -, -⟩ := token_some hv
    obtain ⟨d, rest, rfl⟩ := List.exists_cons_of_ne_nil htoken.value_ne
    refine ⟨seps, d, htoken.seps_ne, htoken.seps_all, htoken.value_all d List.mem_cons_self, ?_⟩
    exact ⟨rest ++ t, by simp⟩
  · rintro ⟨seps, d, hne, hall, hd, t, rfl⟩
    have htoken : o.IsToken seps (d :: t.takeWhile o.val) := by
      refine ⟨hne, hall, List.cons_ne_nil _ _, ?_⟩
      intro c hc
      obtain rfl | hc := List.mem_cons.mp hc
      · exact hd
      · exact List.mem_takeWhile_imp hc
    have hends : o.Ends (t.dropWhile o.val) := by
      intro c hc
      have hhead := List.head?_dropWhile_not o.val t
      rw [Option.mem_def.mp hc] at hhead
      exact hhead
    have hfound := token_append htoken hends
    rw [List.cons_append, List.takeWhile_append_dropWhile] at hfound
    have heq : o.name ++ (seps ++ [d]) ++ t = o.name ++ (seps ++ (d :: t)) := by simp
    rw [heq, hfound]
    rfl

theorem token_eq_none_of_ne (hc : c ≠ '-') : o.token (c :: s) = none := by
  cases h : o.token (c :: s) with
  | none => rfl
  | some found =>
    obtain ⟨seps, t, hs, -⟩ := token_some h
    exact absurd (List.cons.inj hs).1 hc

/-- Texts are made of options and of characters that start none. -/
theorem token_induction {P : Str → Prop} (hnil : P [])
    (hkeep : ∀ c t, o.token (c :: t) = none → P t → P (c :: t))
    (htoken : ∀ seps v t, o.IsToken seps v → o.Ends t → P t → P (o.name ++ (seps ++ (v ++ t))))
    (s : Str) : P s := by
  induction hlen : s.length using Nat.strong_induction_on generalizing s with
  | _ n ih =>
    cases s with
    | nil => exact hnil
    | cons c s =>
      cases hfound : o.token (c :: s) with
      | none => exact hkeep c s hfound (ih s.length (by simp [← hlen]) s rfl)
      | some found =>
        obtain ⟨_, v⟩ := found
        obtain ⟨seps, t, hs, hseg, hends, -⟩ := token_some hfound
        have hlt : t.length < n := by
          have hlength := congrArg List.length hs
          simp only [List.length_append, name, List.length_cons] at hlength hlen
          omega
        rw [hs]
        exact htoken seps v t hseg hends (ih t.length hlt t rfl)

/-! ## Reading and writing -/

theorem find_keep (h : o.token (c :: s) = none) : o.find (c :: s) = o.find s := by
  rw [find, h]

theorem name_append (s : Str) : o.name ++ s = '-' :: ('-' :: o.stem ++ s) := rfl

theorem find_token (h : o.IsToken seps value) (ht : o.Ends t) :
    o.find (o.name ++ (seps ++ (value ++ t))) = some value := by
  have htoken := token_append h ht
  rw [name_append] at htoken ⊢
  rw [find, htoken]

theorem matcher_proper : (o.matcher value).Proper := by
  intro prev s n r h
  obtain ⟨⟨k, v⟩, htoken, hr⟩ := Option.map_eq_some_iff.mp h
  obtain ⟨rfl, -⟩ := Prod.mk.inj hr
  obtain ⟨seps, t, rfl, -, -, hk⟩ := token_some htoken
  dsimp only
  simp only [hk, List.length_append, name, List.length_cons]
  omega

/-- What stands before a text does not matter. -/
theorem substitute_matcher (prev : Option Char) :
    substitute (o.matcher value) prev 0 s = o.set value s := by
  cases s with
  | nil => rfl
  | cons c s => rfl

theorem set_keep (h : o.token (c :: s) = none) : o.set value (c :: s) = c :: o.set value s := by
  have hnone : o.matcher value none (c :: s) = none := by
    rw [matcher, h]
    rfl
  rw [set, substitute_keep hnone, substitute_matcher]

theorem set_token (h : o.IsToken seps v) (ht : o.Ends t) :
    o.set value (o.name ++ (seps ++ (v ++ t))) = o.name ++ (['='] ++ (value ++ o.set value t)) := by
  have hsplit : o.name ++ (seps ++ (v ++ t)) = (o.name ++ (seps ++ v)) ++ t := by simp
  have hlength : (o.name ++ (seps ++ v)).length = o.name.length + seps.length + v.length := by
    rw [List.length_append, List.length_append, Nat.add_assoc]
  have hmatch : o.matcher value none ((o.name ++ (seps ++ v)) ++ t) =
      some ((o.name ++ (seps ++ v)).length, o.name ++ '=' :: value) := by
    rw [← hsplit, matcher, token_append h ht, hlength]
    rfl
  rw [hsplit, set, substitute_match (by simp [name]) hmatch, substitute_matcher]
  simp

theorem ends_set (h : o.Ends s) : o.Ends (o.set value s) := by
  induction s using token_induction (o := o) with
  | hnil => exact ends_nil
  | hkeep c t hnone ih =>
    rw [set_keep hnone]
    exact ends_cons (h c rfl)
  | htoken seps v t hseg hends ih =>
    rw [set_token hseg hends]
    exact ends_cons o.dash_val

/-- A new value makes no option with what stands before it. -/
theorem token_set_eq_none (h : o.token (c :: s) = none) : o.token (c :: o.set value s) = none := by
  by_contra hsome
  obtain ⟨seps, d, hne, hall, hd, hprefix⟩ :=
    token_isSome_iff.mp (Option.isSome_iff_ne_none.mpr hsome)
  rw [name_append] at hprefix
  obtain ⟨rfl, hrest⟩ := List.cons_prefix_cons.mp hprefix
  have hdash : '-' ∉ o.stem ++ (seps ++ [d]) := by
    simp only [List.mem_append, List.mem_singleton, not_or]
    refine ⟨o.dash_stem, fun hmem => ?_, ?_⟩
    · have hsep := hall _ hmem
      rw [o.dash_sep] at hsep
      cases hsep
    · rintro rfl
      rw [o.dash_val] at hd
      cases hd
  have hstart : '-' :: (o.stem ++ (seps ++ [d])) <+: s := by
    refine @prefix_of_substitute _ matcher_proper _ ?_ none _ hrest
    intro u hu hsuffix prev t n r x hmatch hbegins
    obtain ⟨⟨k, v⟩, -, hr⟩ := Option.map_eq_some_iff.mp hmatch
    obtain ⟨-, rfl⟩ := Prod.mk.inj hr
    obtain ⟨e, u, rfl⟩ := List.exists_cons_of_ne_nil hu
    obtain ⟨rfl, htail⟩ := List.cons_prefix_cons.mp hbegins
    obtain heq | hinside := List.suffix_cons_iff.mp hsuffix
    · obtain rfl := (List.cons.inj heq).2
      obtain ⟨f, stem, hstem⟩ := List.exists_cons_of_ne_nil o.stem_ne
      rw [hstem] at htail hdash
      obtain ⟨rfl, -⟩ := List.cons_prefix_cons.mp htail
      exact hdash List.mem_cons_self
    · exact hdash (hinside.subset List.mem_cons_self)
  have hfound : (o.token ('-' :: s)).isSome = true :=
    token_isSome_iff.mpr ⟨seps, d, hne, hall, hd, List.cons_prefix_cons.mpr ⟨rfl, hstart⟩⟩
  rw [h] at hfound
  cases hfound

section Value

variable (hne : value ≠ []) (hall : ∀ c ∈ value, o.val c = true)
include hne hall

/-- What was set is found. -/
theorem find_set (h : (o.find s).isSome = true) : o.find (o.set value s) = some value := by
  induction s using token_induction (o := o) with
  | hnil => cases h
  | hkeep c t hnone ih =>
    rw [find_keep hnone] at h
    rw [set_keep hnone, find_keep (token_set_eq_none hnone), ih h]
  | htoken seps v t hseg hends ih =>
    rw [set_token hseg hends, find_token (isToken_equals hne hall) (ends_set hends)]

theorem set_set : o.set value (o.set value s) = o.set value s := by
  induction s using token_induction (o := o) with
  | hnil => rfl
  | hkeep c t hnone ih => rw [set_keep hnone, set_keep (token_set_eq_none hnone), ih]
  | htoken seps v t hseg hends ih =>
    rw [set_token hseg hends, set_token (isToken_equals hne hall) (ends_set hends), ih]

end Value

theorem set_of_find (h : o.find s = none) : o.set value s = s := by
  induction s using token_induction (o := o) with
  | hnil => rfl
  | hkeep c t hnone ih =>
    rw [find_keep hnone] at h
    rw [set_keep hnone, ih h]
  | htoken seps v t hseg hends ih =>
    rw [find_token hseg hends] at h
    cases h

/-! ## Texts that are left as they are -/

/-- All options of the text have this value, after one equals sign. -/
def Spells (o : OptionSyntax) (value line : Str) : Prop :=
  ∀ seps v t, o.name ++ (seps ++ (v ++ t)) <:+ line → o.IsToken seps v → o.Ends t →
    seps = ['='] ∧ v = value

theorem spells_of_suffix (h : o.Spells value s) (hsuffix : t <:+ s) : o.Spells value t :=
  fun seps v u hu => h seps v u (hu.trans hsuffix)

/-- An option does not start among characters that are no dashes. -/
theorem suffix_of_dash {a : Str} (ha : '-' ∉ a) (h : '-' :: s <:+ a ++ t) : '-' :: s <:+ t := by
  induction a with
  | nil => exact h
  | cons c a ih =>
    rw [List.mem_cons, not_or] at ha
    obtain heq | hinside := List.suffix_cons_iff.mp h
    · exact absurd (List.cons.inj heq).1 ha.1
    · exact ih ha.2 hinside

theorem IsToken.dash_seps (h : o.IsToken seps v) : '-' ∉ seps := by
  intro hmem
  have hsep := h.seps_all _ hmem
  rw [o.dash_sep] at hsep
  cases hsep

theorem IsToken.dash_value (h : o.IsToken seps v) : '-' ∉ v := by
  intro hmem
  have hval := h.value_all _ hmem
  rw [o.dash_val] at hval
  cases hval

/-- An option that starts in another one is that one, or comes after it. -/
theorem suffix_token {u : Str} (h : o.IsToken seps v)
    (hu : o.name ++ u <:+ o.name ++ (seps ++ (v ++ t))) :
    u = seps ++ (v ++ t) ∨ o.name ++ u <:+ t := by
  rw [name_append, name_append] at hu
  obtain heq | hinside := List.suffix_cons_iff.mp hu
  · exact Or.inl (List.append_cancel_left (List.cons.inj (List.cons.inj heq).2).2)
  · obtain ⟨f, stem, hstem⟩ := List.exists_cons_of_ne_nil o.stem_ne
    have hf : f ≠ '-' := by
      rintro rfl
      exact o.dash_stem (hstem ▸ List.mem_cons_self)
    obtain heq | hinside := List.suffix_cons_iff.mp hinside
    · have hsecond := (List.cons.inj heq).2
      rw [hstem] at hsecond
      exact absurd (List.cons.inj hsecond).1.symm hf
    · right
      rw [name_append]
      have hplain : '-' ∉ o.stem ++ (seps ++ v) := by
        simp only [List.mem_append, not_or]
        exact ⟨o.dash_stem, h.dash_seps, h.dash_value⟩
      apply suffix_of_dash hplain
      simpa using hinside

/-- Only a text that has the value already is left as it is. -/
theorem set_eq_self_iff (hne : value ≠ []) (hall : ∀ c ∈ value, o.val c = true) :
    o.set value s = s ↔ o.Spells value s := by
  have hnew := isToken_equals hne hall
  induction s using token_induction (o := o) with
  | hnil =>
    constructor
    · intro _ seps v t hsuffix
      rw [name_append] at hsuffix
      cases List.suffix_nil.mp hsuffix
    · intro _
      rfl
  | hkeep c t hnone ih =>
    rw [set_keep hnone]
    constructor
    · intro h seps v u hsuffix hseg hends
      obtain heq | hinside := List.suffix_cons_iff.mp hsuffix
      · rw [← heq, token_append hseg hends] at hnone
        cases hnone
      · exact ih.mp (List.cons.inj h).2 seps v u hinside hseg hends
    · intro h
      rw [ih.mpr (spells_of_suffix h (List.suffix_cons _ _))]
  | htoken seps v t hseg hends ih =>
    rw [set_token hseg hends]
    constructor
    · intro h
      have hrest := List.append_cancel_left h
      have hseps : ['='] = seps := by
        have htake := congrArg (List.takeWhile o.sep) hrest
        rw [takeWhile_run hnew.seps_all hnew.value_head,
          takeWhile_run hseg.seps_all hseg.value_head] at htake
        exact htake
      subst hseps
      have hvalues := List.append_cancel_left hrest
      have hvalue : value = v := by
        have htake := congrArg (List.takeWhile o.val) hvalues
        rw [takeWhile_run hall (ends_set hends), takeWhile_run hseg.value_all hends] at htake
        exact htake
      subst hvalue
      have hspells := ih.mp (List.append_cancel_left hvalues)
      intro seps' v' u hsuffix hseg' hends'
      obtain heq | hinside := suffix_token hseg hsuffix
      · have hfirst := token_append hseg hends
        rw [← heq, token_append hseg' hends'] at hfirst
        have hv := (Prod.mk.inj (Option.some.inj hfirst)).2
        subst hv
        have htake := congrArg (List.takeWhile o.sep) heq
        rw [takeWhile_run hseg'.seps_all hseg'.value_head,
          takeWhile_run hseg.seps_all hseg.value_head] at htake
        exact ⟨htake, rfl⟩
      · exact hspells seps' v' u hinside hseg' hends'
    · intro h
      obtain ⟨rfl, rfl⟩ := h seps v t (List.suffix_refl _) hseg hends
      have htail : t <:+ o.name ++ (['='] ++ (v ++ t)) := ⟨o.name ++ (['='] ++ v), by simp⟩
      rw [ih.mpr (spells_of_suffix h htail)]

/-! ## Characters and words -/

theorem set_cons_of_ne (hc : c ≠ '-') : o.set value (c :: s) = c :: o.set value s :=
  set_keep (token_eq_none_of_ne hc)

/-- A dash at the start stays there. -/
theorem set_dash (s : Str) : ∃ t, o.set value ('-' :: s) = '-' :: t := by
  cases h : o.token ('-' :: s) with
  | none => exact ⟨_, set_keep h⟩
  | some found =>
    obtain ⟨_, v⟩ := found
    obtain ⟨seps, t, hs, hseg, hends, -⟩ := token_some h
    rw [hs, set_token hseg hends]
    exact ⟨_, name_append _⟩

theorem mem_set (h : c ∈ o.set value s) : c ∈ s ∨ c ∈ o.name ++ '=' :: value := by
  refine mem_substitute matcher_proper ?_ h
  intro prev u n r hmatch d hd
  obtain ⟨⟨k, v⟩, -, hr⟩ := Option.map_eq_some_iff.mp hmatch
  obtain ⟨-, rfl⟩ := Prod.mk.inj hr
  exact Or.inr hd

/-- A character that options do not have is there as often as before. -/
theorem count_set (hname : c ∉ o.name) (hsep : o.sep c = false) (hval : o.val c = false)
    (hvalue : c ∉ value) : (o.set value s).count c = s.count c := by
  induction s using token_induction (o := o) with
  | hnil => rfl
  | hkeep d t hnone ih => rw [set_keep hnone, List.count_cons, List.count_cons, ih]
  | htoken seps v t hseg hends ih =>
    have hequals : c ∉ ['='] := by
      rw [List.mem_singleton]
      rintro rfl
      rw [o.equals_sep] at hsep
      cases hsep
    have hseps : c ∉ seps := by
      intro hmem
      rw [hseg.seps_all c hmem] at hsep
      cases hsep
    have hv : c ∉ v := by
      intro hmem
      rw [hseg.value_all c hmem] at hval
      cases hval
    rw [set_token hseg hends]
    simp only [List.count_append, List.count_eq_zero_of_not_mem hname,
      List.count_eq_zero_of_not_mem hequals, List.count_eq_zero_of_not_mem hseps,
      List.count_eq_zero_of_not_mem hv, List.count_eq_zero_of_not_mem hvalue, ih]

theorem find_cons_of_ne (hc : c ≠ '-') : o.find (c :: s) = o.find s :=
  find_keep (token_eq_none_of_ne hc)

theorem find_append {a : Str} (ha : '-' ∉ a) : o.find (a ++ s) = o.find s := by
  induction a with
  | nil => rfl
  | cons c a ih =>
    rw [List.mem_cons, not_or] at ha
    rw [List.cons_append, find_cons_of_ne (Ne.symm ha.1), ih ha.2]

theorem set_append {a : Str} (ha : '-' ∉ a) : o.set value (a ++ s) = a ++ o.set value s := by
  induction a with
  | nil => rfl
  | cons c a ih =>
    rw [List.mem_cons, not_or] at ha
    rw [List.cons_append, set_cons_of_ne (Ne.symm ha.1), ih ha.2, List.cons_append]

/-- What the whitespace is followed by starts as before. -/
theorem head_lstrip_set : (lstrip (o.set value s)).head? = (lstrip s).head? := by
  induction s with
  | nil => rfl
  | cons c s ih =>
    by_cases hc : c = '-'
    · subst hc
      obtain ⟨t, ht⟩ : ∃ t, o.set value ('-' :: s) = '-' :: t := set_dash s
      have hdash : isSpace '-' = false := by decide
      rw [ht, lstrip_cons hdash, lstrip_cons hdash]
      rfl
    · rw [set_cons_of_ne hc]
      cases hspace : isSpace c with
      | true =>
        rw [lstrip, lstrip, List.dropWhile_cons_of_pos hspace, List.dropWhile_cons_of_pos hspace]
        exact ih
      | false =>
        rw [lstrip_cons hspace, lstrip_cons hspace]
        rfl

theorem lstrip_set (h : lstrip s = c :: t) (hc : c ≠ '-') :
    lstrip (o.set value s) = c :: o.set value t := by
  induction s with
  | nil => cases h
  | cons d s ih =>
    cases hspace : isSpace d with
    | true =>
      have hd : d ≠ '-' := by
        rintro rfl
        exact absurd hspace (by decide)
      rw [lstrip, List.dropWhile_cons_of_pos hspace] at h
      rw [set_cons_of_ne hd, lstrip, List.dropWhile_cons_of_pos hspace]
      exact ih h
    | false =>
      rw [lstrip_cons hspace] at h
      obtain ⟨rfl, rfl⟩ := List.cons.inj h
      rw [set_cons_of_ne hc, lstrip_cons hspace]

/-- No option starts in a word that neither starts one nor goes on after one. -/
theorem token_append_eq_none {u : Str} (hstart : ¬ u <+: o.name) (hlong : ¬ o.name <+: u) :
    o.token (u ++ s) = none := by
  cases h : o.token (u ++ s) with
  | none => rfl
  | some found =>
    obtain ⟨_, v⟩ := found
    obtain ⟨seps, t, hs, -⟩ := token_some h
    have hname : o.name <+: u ++ s := ⟨_, hs.symm⟩
    obtain hle | hle := List.prefix_or_prefix_of_prefix hname (List.prefix_append u s)
    · exact absurd hle hlong
    · exact absurd hle hstart

/-- A word is kept when no option starts in it, and when it has none of the
characters of a value and some character that options do not have. -/
theorem infix_set {w : Str} (hstart : ∀ u s, u ≠ [] → u <:+ w → o.token (u ++ s) = none)
    (hval : ∀ c ∈ w, o.val c = false) (hother : ∃ c ∈ w, c ∉ o.name ∧ o.sep c = false)
    (h : w <:+: s) : w <:+: o.set value s := by
  refine infix_substitute matcher_proper ?_ ?_ h
  · intro prev u s hu hsuffix
    rw [matcher, hstart u s hu hsuffix]
    rfl
  · intro prev seg t r hmatch hw
    obtain ⟨⟨k, v⟩, htoken, hr⟩ := Option.map_eq_some_iff.mp hmatch
    obtain ⟨hk, -⟩ := Prod.mk.inj hr
    obtain ⟨seps, rest, hs, hseg, hends, hlen⟩ := token_some htoken
    have hlength : seg.length = (o.name ++ (seps ++ v)).length := by
      rw [List.length_append, List.length_append, ← hk]
      dsimp only
      omega
    have hsplit : seg ++ t = (o.name ++ (seps ++ v)) ++ rest := by
      rw [hs]
      simp
    obtain ⟨rfl, rfl⟩ := List.append_inj hsplit hlength
    -- the word does not reach over the last character of the value
    obtain ⟨v, d, rfl⟩ := (List.eq_nil_or_concat v).resolve_left hseg.value_ne
    rw [List.concat_eq_append] at hseg hw
    have hd : d ∉ w := by
      intro hmem
      have htrue := hseg.value_all d (List.mem_append_right _ (List.mem_singleton.mpr rfl))
      rw [hval d hmem] at htrue
      cases htrue
    have hw' : w <:+: (o.name ++ (seps ++ v)) ++ d :: t := by
      simpa using hw
    obtain hinside | hafter := infix_append_sep hd hw'
    · obtain ⟨c, hc, hname, hsep⟩ := hother
      have hmem := hinside.subset hc
      rw [List.mem_append, List.mem_append] at hmem
      obtain hmem | hmem | hmem := hmem
      · exact absurd hmem hname
      · rw [hseg.seps_all c hmem] at hsep
        cases hsep
      · have htrue := hseg.value_all c (List.mem_append_left _ hmem)
        rw [hval c hc] at htrue
        cases htrue
    · exact hafter

end OptionSyntax

end Text
