import Mathlib.Algebra.Group.Defs
import PveZfsTool.Lib.Dialogue

/-!
# What the requests of a program add up to

A weight gives each answered request an entry of a ledger, a value of an additive
monoid.  `total` is what a history adds up to.

`p.Books w Post m` judges a program by the ledger: begun when it stands at `m`, every
outcome meets `Post` with what the ledger stands at then.  `Books.bind` is the
sequencing rule, and `Books.sound` reads a judgement as a fact about every run.
-/

namespace Dialogue

variable {Q A Q' A' M ε γ α β : Type} [AddMonoid M] {w : Q → A → M} {m : M}

/-- What the history adds to the ledger. -/
def total (w : Q → A → M) : History Q A → M
  | [] => 0
  | e :: h => w e.1 e.2 + total w h

namespace Prog

def Books (w : Q → A → M) (Post : Except ε α → M → Prop) : Prog Q A ε α → M → Prop
  | .ret value, m => Post (.ok value) m
  | .raise error, m => Post (.error error) m
  | .ask request next, m => ∀ a, (next a).Books w Post (m + w request a)

@[simp] theorem books_ret {Post : Except ε α → M → Prop} {value : α} :
    (.ret value : Prog Q A ε α).Books w Post m ↔ Post (.ok value) m := Iff.rfl

@[simp] theorem books_raise {Post : Except ε α → M → Prop} {error : ε} :
    (.raise error : Prog Q A ε α).Books w Post m ↔ Post (.error error) m := Iff.rfl

@[simp] theorem books_ask {Post : Except ε α → M → Prop} {request : Q} {next : A → Prog Q A ε α} :
    (Prog.ask request next).Books w Post m ↔ ∀ a, (next a).Books w Post (m + w request a) := Iff.rfl

/-- The postcondition may be weakened. -/
theorem Books.mono {Post Post' : Except ε α → M → Prop} {p : Prog Q A ε α} (hp : p.Books w Post m)
    (himp : ∀ o n, Post o n → Post' o n) : p.Books w Post' m := by
  induction p generalizing m with
  | ret value => exact himp _ _ hp
  | raise error => exact himp _ _ hp
  | ask request next ih => exact fun a => ih a (hp a)

/-- The sequencing rule. -/
theorem Books.bind {Mid : Except ε α → M → Prop} {Post : Except ε β → M → Prop} {p : Prog Q A ε α}
    {f : α → Prog Q A ε β} (hp : p.Books w Mid m) (hf : ∀ a n, Mid (.ok a) n → (f a).Books w Post n)
    (hraise : ∀ e n, Mid (.error e) n → Post (.error e) n) : (p >>= f).Books w Post m := by
  induction p generalizing m with
  | ret value => exact hf value m hp
  | raise error => exact hraise error m hp
  | ask request next ih => exact fun a => ih a (hp a)

/-- The rule for `try: p except e`. -/
theorem Books.attempt {Post : Except ε α → M → Prop} {p : Prog Q A ε α} (hp : p.Books w Post m) :
    (p.attempt : Prog Q A γ (Except ε α)).Books w (fun o n => ∃ r, o = .ok r ∧ Post r n) m := by
  induction p generalizing m with
  | ret value => exact ⟨.ok value, rfl, hp⟩
  | raise error => exact ⟨.error error, rfl, hp⟩
  | ask request next ih => exact fun a => ih a (hp a)

/-- The rule for a sequence that starts with `try: p except e`. -/
theorem Books.attempt_bind {Mid : Except ε α → M → Prop} {Post : Except γ β → M → Prop} {p : Prog Q A ε α}
    {f : Except ε α → Prog Q A γ β} (hp : p.Books w Mid m) (hf : ∀ r n, Mid r n → (f r).Books w Post n) :
    (p.attempt >>= f).Books w Post m := by
  refine hp.attempt.bind ?_ ?_
  · rintro r n ⟨_, ⟨⟩, hr⟩
    exact hf r n hr
  · rintro e n ⟨_, ⟨⟩, -⟩

theorem Books.sound {Post : Except ε α → M → Prop} {p : Prog Q A ε α} {tr : History Q A} {o : Except ε α}
    (hp : p.Books w Post m) (hrun : p.Run tr o) : Post o (m + total w tr) := by
  induction p generalizing m tr with
  | ret value =>
    obtain ⟨rfl, rfl⟩ := hrun
    rw [total, add_zero]
    exact hp
  | raise error =>
    obtain ⟨rfl, rfl⟩ := hrun
    rw [total, add_zero]
    exact hp
  | ask request next ih =>
    obtain ⟨a, rest, rfl, hrest⟩ := run_ask.mp hrun
    rw [total, ← add_assoc]
    exact ih a (hp a) hrest

/-! ## A program among the requests of a larger one -/

/-- The same program with its requests mapped, and the answers mapped back. -/
def through (f : Q → Q') (g : A' → A) : Prog Q A ε α → Prog Q' A' ε α
  | .ret value => .ret value
  | .raise error => .raise error
  | .ask request next => .ask (f request) (fun a => (next (g a)).through f g)

/-- A program books the same there when its requests weigh the same. -/
theorem Books.through {f : Q → Q'} {g : A' → A} {w' : Q' → A' → M} {Post : Except ε α → M → Prop}
    {p : Prog Q A ε α} (hp : p.Books w Post m) (hw : ∀ q a, w' (f q) a = w q (g a)) :
    (p.through f g).Books w' Post m := by
  induction p generalizing m with
  | ret value => exact hp
  | raise error => exact hp
  | ask request next ih =>
    intro a
    rw [hw]
    exact ih (g a) (hp (g a))

end Prog

end Dialogue
