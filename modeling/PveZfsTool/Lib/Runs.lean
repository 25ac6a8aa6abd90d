import Mathlib.Data.List.Induction
import Mathlib.Data.Option.Basic

/-!
# Runs of a system

A system takes a step for an event, or refuses it.  `run` takes the steps of
a list of events.  `Each P` says that every step of a run is taken in a
state where it meets `P`, and `run_preserves` carries an invariant along
such a run.  `run_induction` is for an invariant that speaks of the events, too.
-/

namespace Runs

variable {σ ε : Type} (step : σ → ε → Option σ)

/-- The state after the events, `none` when one of them is refused. -/
def run : σ → List ε → Option σ
  | s, [] => some s
  | s, e :: es => (step s e).bind (fun s' => run s' es)

/-- Each event meets `P` in the state it comes in. -/
def Each (P : σ → ε → Prop) : σ → List ε → Prop
  | _, [] => True
  | s, e :: es => P s e ∧ ∀ s', step s e = some s' → Each P s' es

instance decidableEach {P : σ → ε → Prop} [∀ s e, Decidable (P s e)] :
    ∀ s es, Decidable (Each step P s es)
  | _, [] => .isTrue trivial
  | s, e :: es =>
      have : Decidable (∀ s', step s e = some s' → Each step P s' es) :=
        match h : step s e with
        | none => .isTrue (by
            intro s' hs'
            cases hs')
        | some s₁ =>
            have := decidableEach (P := P) s₁ es
            decidable_of_iff (Each step P s₁ es) (by
              constructor
              · intro heach s' hs'
                exact Option.some.inj hs' ▸ heach
              · intro hall
                exact hall s₁ rfl)
      inferInstanceAs (Decidable (P s e ∧ _))

variable {step} {s s' : σ} {es : List ε}

@[simp] theorem run_nil : run step s [] = some s := rfl

theorem run_cons_iff {e : ε} :
    run step s (e :: es) = some s' ↔ ∃ s₁, step s e = some s₁ ∧ run step s₁ es = some s' :=
  Option.bind_eq_some_iff

theorem run_append_iff {fs : List ε} :
    run step s (es ++ fs) = some s' ↔ ∃ s₁, run step s es = some s₁ ∧ run step s₁ fs = some s' := by
  induction es generalizing s with
  | nil => simp
  | cons e es ih =>
    rw [List.cons_append, run_cons_iff]
    simp only [ih, run_cons_iff]
    constructor
    · rintro ⟨s₁, hs₁, s₂, hs₂, h⟩
      exact ⟨s₂, ⟨s₁, hs₁, hs₂⟩, h⟩
    · rintro ⟨s₂, ⟨s₁, hs₁, hs₂⟩, h⟩
      exact ⟨s₁, hs₁, s₂, hs₂, h⟩

/-- What holds of the events so far and the state they lead to, step by step. -/
theorem run_induction {I : List ε → σ → Prop} (hs : I [] s)
    (hstep : ∀ es e s₁ s₂, I es s₁ → step s₁ e = some s₂ → I (es ++ [e]) s₂)
    (hrun : run step s es = some s') : I es s' := by
  induction es using List.reverseRecOn generalizing s' with
  | nil =>
    cases hrun
    exact hs
  | append_singleton es e ih =>
    obtain ⟨s₁, hs₁, hlast⟩ := run_append_iff.mp hrun
    obtain ⟨s₂, hs₂, hend⟩ := run_cons_iff.mp hlast
    cases hend
    exact hstep es e s₁ s' (ih hs₁) hs₂

/-- What every step that meets `P` keeps holds after a run of such steps. -/
theorem run_preserves {I : σ → Prop} {P : σ → ε → Prop}
    (hstep : ∀ s e s', I s → P s e → step s e = some s' → I s') (hs : I s)
    (heach : Each step P s es) (hrun : run step s es = some s') : I s' := by
  induction es generalizing s with
  | nil =>
    cases hrun
    exact hs
  | cons e es ih =>
    obtain ⟨s₁, hs₁, hrun⟩ := run_cons_iff.mp hrun
    exact ih (hstep s e s₁ hs heach.1 hs₁) (heach.2 s₁ hs₁) hrun

/-- When each step that meets `P` keeps the invariant and does what `R` says,
so does each step of a run of such steps. -/
theorem each_preserves {I : σ → Prop} {P : σ → ε → Prop} {R : σ → ε → σ → Prop}
    (hstep : ∀ s e s', I s → P s e → step s e = some s' → I s' ∧ R s e s') (hs : I s)
    (heach : Each step P s es) : Each step (fun s e => ∀ s', step s e = some s' → R s e s') s es := by
  induction es generalizing s with
  | nil => exact trivial
  | cons e es ih =>
    refine ⟨fun s₁ hs₁ => (hstep s e s₁ hs heach.1 hs₁).2, fun s₁ hs₁ => ?_⟩
    exact ih (hstep s e s₁ hs heach.1 hs₁).1 (heach.2 s₁ hs₁)

/-- The last event of a run. -/
theorem each_last {P : σ → ε → Prop} {e : ε} (heach : Each step P s (es ++ [e]))
    (hrun : run step s es = some s') : P s' e := by
  induction es generalizing s with
  | nil =>
    cases hrun
    exact heach.1
  | cons e' es ih =>
    obtain ⟨s₁, hs₁, hrun⟩ := run_cons_iff.mp hrun
    exact ih (heach.2 s₁ hs₁) hrun

end Runs
