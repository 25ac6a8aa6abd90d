import PveZfsTool.Lib.Dialogue

/-!
# Programs on a fixed environment

A table gives one answer to each request.  `Prog.on` runs a program on it, and
`run_on_iff` says that this is the run of the program on an environment that does
not change while the program runs.

`on_bind` takes a sequence apart, so that two programs which share their first
steps are compared step by step.
-/

namespace Dialogue

variable {Q A ε α β : Type}

/-- The outcome of the program when each request is answered by the table. -/
def Prog.on (table : Q → A) : Prog Q A ε α → Except ε α
  | .ret value => .ok value
  | .raise error => .error error
  | .ask request next => (next (table request)).on table

namespace Prog

variable {table : Q → A}

@[simp] theorem on_ret {value : α} : (.ret value : Prog Q A ε α).on table = .ok value := rfl

@[simp] theorem on_raise {error : ε} : (.raise error : Prog Q A ε α).on table = .error error := rfl

@[simp] theorem on_ask {request : Q} {next : A → Prog Q A ε α} :
    (Prog.ask request next).on table = (next (table request)).on table := rfl

theorem on_bind (p : Prog Q A ε α) (f : α → Prog Q A ε β) :
    (p >>= f).on table = (p.on table).bind (fun a => (f a).on table) := by
  induction p with
  | ret value => rfl
  | raise error => rfl
  | ask request next ih => exact ih (table request)

/-- The second step of a sequence runs on the value of the first. -/
theorem on_bind_ok {p : Prog Q A ε α} {f : α → Prog Q A ε β} {a : α} (h : p.on table = .ok a) :
    (p >>= f).on table = (f a).on table := by
  rw [on_bind, h]
  rfl

/-- A program that cannot raise has a value. -/
theorem NeverRaises.on {p : Prog Q A ε α} (h : p.NeverRaises) : ∃ a, p.on table = .ok a := by
  induction p with
  | ret value => exact ⟨value, rfl⟩
  | raise error => exact h.elim
  | ask request next ih => exact ih (table request) (h (table request))

/-- The outcome is that of the run whose answers are those of the table. -/
theorem run_on_iff {p : Prog Q A ε α} {o : Except ε α} :
    (∃ tr, p.Run tr o ∧ ∀ e ∈ tr, e.2 = table e.1) ↔ p.on table = o := by
  induction p with
  | ret value =>
    constructor
    · rintro ⟨tr, ⟨-, rfl⟩, -⟩
      rfl
    · rintro rfl
      exact ⟨[], ⟨rfl, rfl⟩, fun e he => absurd he List.not_mem_nil⟩
  | raise error =>
    constructor
    · rintro ⟨tr, ⟨-, rfl⟩, -⟩
      rfl
    · rintro rfl
      exact ⟨[], ⟨rfl, rfl⟩, fun e he => absurd he List.not_mem_nil⟩
  | ask request next ih =>
    rw [on_ask, ← ih (table request)]
    constructor
    · rintro ⟨tr, hrun, htable⟩
      obtain ⟨a, rest, rfl, hrest⟩ := run_ask.mp hrun
      obtain ⟨ha, htable⟩ := List.forall_mem_cons.mp htable
      exact ⟨rest, ha ▸ hrest, htable⟩
    · rintro ⟨rest, hrest, htable⟩
      exact ⟨_, run_ask.mpr ⟨_, rest, rfl, hrest⟩, List.forall_mem_cons.mpr ⟨rfl, htable⟩⟩

end Prog

end Dialogue
