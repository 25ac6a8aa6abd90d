import PveZfsTool.Lib.Text

/-!
# The `LIKE` operator of SQLite

In a pattern `%` stands for any text and `_` for any character.  The case of
ASCII letters does not count.  With `ESCAPE` the character after the escape
character stands for itself.

* `like_escape`: a text that is escaped and has `%` after it is found at the
  front of a text, but for case.
* `Blurs` is what a text that is not escaped is found as, and `like_blurs`
  says so.
-/

namespace Like

open Text

/-! ## Patterns -/

inductive Item where
  | lit (c : Char)
  /-- `_` -/
  | one
  /-- `%` -/
  | any
  deriving DecidableEq

/-- A character that is not escaped. -/
def item (c : Char) : Item := if c = '%' then .any else if c = '_' then .one else .lit c

/-- The items of a pattern.  SQLite finds nothing with a pattern that ends in
its escape character, and the answer for it is `none`. -/
def parse (esc : Option Char) : Str → Option (List Item)
  | [] => some []
  | [c] => if esc = some c then none else some [item c]
  | c :: d :: s =>
      if esc = some c then (parse esc s).map (Item.lit d :: ·)
      else (parse esc (d :: s)).map (item c :: ·)

/-- The items stand for the text. -/
def accepts : List Item → Str → Bool
  | [], s => s.isEmpty
  | .lit _ :: _, [] => false
  | .lit c :: p, d :: s => c.toLower == d.toLower && accepts p s
  | .one :: _, [] => false
  | .one :: p, _ :: s => accepts p s
  | .any :: p, s => s.tails.any (accepts p)

/-- `s LIKE pattern`, with `ESCAPE` where there is an escape character. -/
def like (esc : Option Char) (pattern s : Str) : Bool :=
  match parse esc pattern with
  | some items => accepts items s
  | none => false

/-- A text with a backslash before the characters that are special in a
pattern, and before the backslash. -/
def escape (s : Str) : Str :=
  s.flatMap (fun c => if c = '\\' ∨ c = '%' ∨ c = '_' then ['\\', c] else [c])

example : like none "my_host:%" "MYXHOST:rpool" = true := by decide

/-! ## Reading patterns -/

theorem parse_cons {esc : Option Char} {c : Char} {s : Str} (h : esc ≠ some c) :
    parse esc (c :: s) = (parse esc s).map (item c :: ·) := by
  cases s with
  | nil =>
    show (if esc = some c then none else some [item c]) = some [item c]
    rw [if_neg h]
  | cons d s => rw [parse, if_neg h]

theorem parse_none {s : Str} : parse none s = some (s.map item) := by
  induction s with
  | nil => rfl
  | cons c s ih =>
    rw [parse_cons (by simp), ih]
    rfl

/-- An escaped text is read as itself. -/
theorem parse_escape {s t : Str} :
    parse (some '\\') (escape s ++ t) =
      (parse (some '\\') t).map (fun items => s.map Item.lit ++ items) := by
  induction s with
  | nil => simp [escape]
  | cons c s ih =>
    have hcons : escape (c :: s) ++ t =
        (if c = '\\' ∨ c = '%' ∨ c = '_' then ['\\', c] else [c]) ++ (escape s ++ t) := by
      rw [escape, List.flatMap_cons, List.append_assoc]
      rfl
    rw [hcons]
    by_cases hc : c = '\\' ∨ c = '%' ∨ c = '_'
    · rw [if_pos hc]
      show parse (some '\\') ('\\' :: c :: (escape s ++ t)) = _
      rw [parse, if_pos rfl, ih, Option.map_map]
      rfl
    · rw [if_neg hc]
      simp only [not_or] at hc
      obtain ⟨hslash, hpercent, hunder⟩ := hc
      have hne : some '\\' ≠ some c := fun h => hslash (Option.some.inj h).symm
      have hitem : item c = .lit c := by rw [item, if_neg hpercent, if_neg hunder]
      show parse (some '\\') (c :: (escape s ++ t)) = _
      rw [parse_cons hne, ih, Option.map_map, hitem]
      rfl

/-! ## What is found -/

theorem accepts_any {s : Str} : accepts [.any] s = true := by
  rw [accepts, List.any_eq_true]
  exact ⟨[], (List.mem_tails [] s).mpr (List.nil_suffix), rfl⟩

theorem accepts_lits {p s : Str} :
    accepts (p.map Item.lit ++ [.any]) s = true ↔ lower p <+: lower s := by
  induction p generalizing s with
  | nil => simp [accepts_any, lower]
  | cons c p ih =>
    cases s with
    | nil => simp [accepts, lower]
    | cons d s =>
      show (c.toLower == d.toLower && accepts (p.map Item.lit ++ [.any]) s) = true ↔
        c.toLower :: lower p <+: d.toLower :: lower s
      rw [Bool.and_eq_true, beq_iff_eq, ih, List.cons_prefix_cons]

/-- An escaped text with `%` after it is found at the front. -/
theorem like_escape {p s : Str} :
    like (some '\\') (escape p ++ ':' :: ['%']) s = true ↔ lower (p ++ [':']) <+: lower s := by
  have hparse : parse (some '\\') (escape p ++ ':' :: ['%']) =
      some ((p ++ [':']).map Item.lit ++ [.any]) := by
    rw [parse_escape]
    show some (p.map Item.lit ++ [.lit ':', .any]) = _
    simp
  rw [like, hparse]
  exact accepts_lits

/-- The text can be taken for `p` when `_` stands for any character and `%`
for any text, and the case of letters does not count. -/
inductive Blurs : Str → Str → Prop
  | nil : Blurs [] []
  | same {c d : Char} {p s : Str} : c.toLower = d.toLower → Blurs p s → Blurs (c :: p) (d :: s)
  | one {d : Char} {p s : Str} : Blurs p s → Blurs ('_' :: p) (d :: s)
  | any {u p s : Str} : Blurs p s → Blurs ('%' :: p) (u ++ s)

theorem Blurs.refl (s : Str) : Blurs s s := by
  induction s with
  | nil => exact .nil
  | cons c s ih => exact .same rfl ih

theorem Blurs.cons {c : Char} {p s : Str} (h : Blurs (c :: p) s) :
    (∃ d t, s = d :: t ∧ c.toLower = d.toLower ∧ Blurs p t) ∨
      (c = '_' ∧ ∃ d t, s = d :: t ∧ Blurs p t) ∨ (c = '%' ∧ ∃ u t, s = u ++ t ∧ Blurs p t) := by
  generalize hq : c :: p = q at h
  cases h with
  | nil => cases hq
  | same hcase hrest =>
    obtain ⟨hc, hp⟩ := List.cons.inj hq
    exact .inl ⟨_, _, rfl, hc ▸ hcase, hp ▸ hrest⟩
  | one hrest =>
    obtain ⟨hc, hp⟩ := List.cons.inj hq
    exact .inr (.inl ⟨hc, _, _, rfl, hp ▸ hrest⟩)
  | any hrest =>
    obtain ⟨hc, hp⟩ := List.cons.inj hq
    exact .inr (.inr ⟨hc, _, _, rfl, hp ▸ hrest⟩)

theorem accepts_any_cons {p : List Item} {s : Str} :
    accepts (.any :: p) s = true ↔ ∃ u v, s = u ++ v ∧ accepts p v = true := by
  rw [accepts, List.any_eq_true]
  constructor
  · intro ⟨v, hv, hp⟩
    obtain ⟨u, hu⟩ := (List.mem_tails v s).mp hv
    exact ⟨u, v, hu.symm, hp⟩
  · intro ⟨u, v, hs, hp⟩
    exact ⟨v, (List.mem_tails v s).mpr ⟨u, hs.symm⟩, hp⟩

theorem accepts_items {p s : Str} : accepts (p.map item) s = true ↔ Blurs p s := by
  induction p generalizing s with
  | nil =>
    rw [List.map_nil, accepts, List.isEmpty_iff]
    constructor
    · intro h
      rw [h]
      exact .nil
    · intro h
      cases h
      rfl
  | cons c p ih =>
    rw [List.map_cons]
    by_cases hpercent : c = '%'
    · subst hpercent
      show accepts (.any :: p.map item) s = true ↔ _
      rw [accepts_any_cons]
      constructor
      · intro ⟨u, v, hs, hp⟩
        rw [hs]
        exact .any (ih.mp hp)
      · intro h
        rcases h.cons with ⟨d, t, hs, -, ht⟩ | ⟨hunder, -⟩ | ⟨-, u, t, hs, ht⟩
        · exact ⟨[d], t, hs, ih.mpr ht⟩
        · cases hunder
        · exact ⟨u, t, hs, ih.mpr ht⟩
    · by_cases hunder : c = '_'
      · subst hunder
        have hitem : item '_' = .one := by decide
        rw [hitem]
        constructor
        · intro h
          cases s with
          | nil => cases h
          | cons d s => exact .one (ih.mp h)
        · intro h
          rcases h.cons with ⟨d, t, hs, -, ht⟩ | ⟨-, d, t, hs, ht⟩ | ⟨hpercent, -⟩
          · rw [hs]
            exact ih.mpr ht
          · rw [hs]
            exact ih.mpr ht
          · cases hpercent
      · have hitem : item c = .lit c := by rw [item, if_neg hpercent, if_neg hunder]
        rw [hitem]
        constructor
        · intro h
          cases s with
          | nil => cases h
          | cons d s =>
            rw [accepts, Bool.and_eq_true, beq_iff_eq] at h
            exact .same h.1 (ih.mp h.2)
        · intro h
          rcases h.cons with ⟨d, t, hs, hcase, ht⟩ | ⟨hbad, -⟩ | ⟨hbad, -⟩
          · rw [hs, accepts, Bool.and_eq_true, beq_iff_eq]
            exact ⟨hcase, ih.mpr ht⟩
          · exact absurd hbad hunder
          · exact absurd hbad hpercent

theorem accepts_append_any {items : List Item} {s : Str} :
    accepts (items ++ [.any]) s = true ↔ ∃ u v, s = u ++ v ∧ accepts items u = true := by
  induction items generalizing s with
  | nil =>
    constructor
    · intro _
      exact ⟨[], s, rfl, rfl⟩
    · intro _
      exact accepts_any
  | cons i items ih =>
    rw [List.cons_append]
    cases i with
    | any =>
      rw [accepts_any_cons]
      constructor
      · intro ⟨w, t, hs, ht⟩
        obtain ⟨u, v, huv, hu⟩ := ih.mp ht
        refine ⟨w ++ u, v, by rw [hs, huv, List.append_assoc], ?_⟩
        exact accepts_any_cons.mpr ⟨w, u, rfl, hu⟩
      · intro ⟨u, v, hs, hu⟩
        obtain ⟨w, t, huw, ht⟩ := accepts_any_cons.mp hu
        refine ⟨w, t ++ v, by rw [hs, huw, List.append_assoc], ?_⟩
        exact ih.mpr ⟨t, v, rfl, ht⟩
    | one =>
      constructor
      · intro h
        cases s with
        | nil => cases h
        | cons d s =>
          obtain ⟨u, v, hs, hu⟩ := ih.mp h
          exact ⟨d :: u, v, by rw [hs, List.cons_append], hu⟩
      · intro ⟨u, v, hs, hu⟩
        cases u with
        | nil => cases hu
        | cons d u =>
          rw [hs]
          exact ih.mpr ⟨u, v, rfl, hu⟩
    | lit c =>
      constructor
      · intro h
        cases s with
        | nil => cases h
        | cons d s =>
          rw [accepts, Bool.and_eq_true] at h
          obtain ⟨u, v, hs, hu⟩ := ih.mp h.2
          refine ⟨d :: u, v, by rw [hs, List.cons_append], ?_⟩
          rw [accepts, h.1, hu]
          rfl
      · intro ⟨u, v, hs, hu⟩
        cases u with
        | nil => cases hu
        | cons d u =>
          rw [accepts, Bool.and_eq_true] at hu
          rw [hs, List.cons_append, accepts, hu.1, ih.mpr ⟨u, v, rfl, hu.2⟩]
          rfl

/-- A text that is not escaped and has `%` after it is found at the front as
what it can be taken for. -/
theorem like_blurs {p s : Str} :
    like none (p ++ ['%']) s = true ↔ ∃ u v, s = u ++ v ∧ Blurs p u := by
  have hitems : (p ++ ['%']).map item = p.map item ++ [.any] := by simp [item]
  rw [like, parse_none]
  show accepts ((p ++ ['%']).map item) s = true ↔ _
  rw [hitems, accepts_append_any]
  simp only [accepts_items]

end Like
