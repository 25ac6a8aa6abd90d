import Mathlib.Data.List.Induction
import Mathlib.Logic.Function.Basic

/-!
# Machines that answer each input

A step takes a state and an input to a state and an output.  `turns` is the
run over a list of inputs, one `Turn` for each input, with the state the
machine was in when the input came.  `after` is the state the run ends in.

* `turns_append_iff` cuts a run wherever its list of turns is cut.
* `turn_of_cut` says what state a turn starts from.
* `before_of_keeps` and `before_of_keeps_between`: what every turn keeps.
* `after_remembers`: a machine that keeps its last input shows that input.
* `keyed` runs one machine for each key over a shared store.
  `turnsAt_eq_turns` says that the turns of one key are a run of the single
  machine over the inputs with that key.
-/

namespace Transducer

variable {σ ι ω κ : Type}

/-- One input of a run, with the state before it and what was put out. -/
structure Turn (σ ι ω : Type) where
  before : σ
  input : ι
  output : ω

variable (step : σ → ι → σ × ω)

/-- The state after a run. -/
def after : σ → List ι → σ
  | s, [] => s
  | s, i :: is => after (step s i).1 is

/-- The turns of a run, oldest first. -/
def turns : σ → List ι → List (Turn σ ι ω)
  | _, [] => []
  | s, i :: is => ⟨s, i, (step s i).2⟩ :: turns (step s i).1 is

variable {step} {s : σ} {is js : List ι}

@[simp] theorem after_nil : after step s [] = s := rfl

@[simp] theorem after_cons {i : ι} : after step s (i :: is) = after step (step s i).1 is := rfl

@[simp] theorem turns_nil : turns step s [] = [] := rfl

@[simp] theorem turns_cons {i : ι} :
    turns step s (i :: is) = ⟨s, i, (step s i).2⟩ :: turns step (step s i).1 is := rfl

theorem after_append : after step s (is ++ js) = after step (after step s is) js := by
  induction is generalizing s with
  | nil => rfl
  | cons i is ih => exact ih

theorem turns_append :
    turns step s (is ++ js) = turns step s is ++ turns step (after step s is) js := by
  induction is generalizing s with
  | nil => rfl
  | cons i is ih => simp [ih]

/-- A cut of the turns is a cut of the inputs. -/
theorem turns_append_iff {ts us : List (Turn σ ι ω)} :
    turns step s is = ts ++ us ↔
      ∃ is₁ is₂, is = is₁ ++ is₂ ∧ turns step s is₁ = ts ∧
        turns step (after step s is₁) is₂ = us := by
  constructor
  · intro h
    induction ts generalizing s is with
    | nil => exact ⟨[], is, rfl, rfl, h⟩
    | cons t ts ih =>
      cases is with
      | nil => simp at h
      | cons i is =>
        simp only [turns_cons, List.cons_append, List.cons.injEq] at h
        obtain ⟨is₁, is₂, rfl, h₁, h₂⟩ := ih h.2
        exact ⟨i :: is₁, is₂, rfl, by simp [h.1, h₁], h₂⟩
  · rintro ⟨is₁, is₂, rfl, h₁, h₂⟩
    rw [turns_append, h₁, h₂]

theorem turns_cons_iff {t : Turn σ ι ω} {us : List (Turn σ ι ω)} :
    turns step s is = t :: us ↔
      ∃ i is', is = i :: is' ∧ t = ⟨s, i, (step s i).2⟩ ∧ turns step (step s i).1 is' = us := by
  cases is with
  | nil => simp
  | cons i is => simp [eq_comm]

@[simp] theorem map_input_turns : (turns step s is).map Turn.input = is := by
  induction is generalizing s with
  | nil => rfl
  | cons i is ih => simp [ih]

theorem exists_turn (step : σ → ι → σ × ω) (s : σ) {i : ι} (h : i ∈ is) :
    ∃ t ∈ turns step s is, t.input = i := by
  rw [← List.mem_map, map_input_turns]
  exact h

/-- A turn is a step of the state that the turns before it lead to. -/
theorem turn_of_cut {t : Turn σ ι ω} {ts us : List (Turn σ ι ω)}
    (h : turns step s is = ts ++ t :: us) :
    t.before = after step s (ts.map Turn.input) ∧ t.output = (step t.before t.input).2 := by
  rw [turns_append_iff] at h
  obtain ⟨is₁, is₂, -, rfl, h⟩ := h
  rw [turns_cons_iff] at h
  obtain ⟨i, is, -, rfl, -⟩ := h
  rw [map_input_turns]
  exact ⟨rfl, rfl⟩

/-- The turns after a turn are a run of the state that it leads to. -/
theorem rest_of_cut {t : Turn σ ι ω} {ts us : List (Turn σ ι ω)}
    (h : turns step s is = ts ++ t :: us) : ∃ js, turns step (step t.before t.input).1 js = us := by
  rw [turns_append_iff] at h
  obtain ⟨is₁, is₂, -, -, h⟩ := h
  rw [turns_cons_iff] at h
  obtain ⟨i, js, -, rfl, hrest⟩ := h
  exact ⟨js, hrest⟩

/-- A machine that keeps what it read from its last input. -/
theorem after_remembers {β : Type} {view : σ → Option β} {seen : ι → β}
    (hview : ∀ s i, view (step s i).1 = some (seen i)) (hs : view s = none) (is : List ι) :
    view (after step s is) = is.getLast?.map seen := by
  induction is using List.reverseRecOn with
  | nil => simpa using hs
  | append_singleton is i _ =>
    rw [after_append]
    simpa using hview _ _

/-! ## Properties of the state -/

section Keeps

variable {Q : σ → Prop} {t u : Turn σ ι ω} {ts us between : List (Turn σ ι ω)}

/-- What holds at the start and is kept by the turns before `u`. -/
theorem before_of_keeps (h : turns step s is = ts ++ u :: us) (hs : Q s)
    (hstep : ∀ v ∈ ts, Q v.before → Q (step v.before v.input).1) : Q u.before := by
  induction ts generalizing s is with
  | nil =>
    obtain ⟨i, is', -, rfl, -⟩ := turns_cons_iff.mp h
    exact hs
  | cons v ts ih =>
    obtain ⟨i, is', -, rfl, hrest⟩ := turns_cons_iff.mp h
    refine ih hrest (hstep _ List.mem_cons_self hs) (fun v hv => hstep v (List.mem_cons_of_mem _ hv))

/-- What holds after `t` and is kept by the turns up to `u`. -/
theorem before_of_keeps_between (h : turns step s is = ts ++ t :: (between ++ u :: us))
    (ht : Q (step t.before t.input).1)
    (hstep : ∀ v ∈ between, Q v.before → Q (step v.before v.input).1) : Q u.before := by
  rw [turns_append_iff] at h
  obtain ⟨is₁, is₂, -, -, h⟩ := h
  rw [turns_cons_iff] at h
  obtain ⟨i, is', -, rfl, hrest⟩ := h
  exact before_of_keeps hrest ht hstep

end Keeps

/-! ## One machine for each key -/

section Keyed

variable [DecidableEq κ] (key : ι → κ)

/-- The step of a store that holds one state for each key. -/
def keyed (step : σ → ι → σ × ω) (m : κ → σ) (i : ι) : (κ → σ) × ω :=
  (Function.update m (key i) (step (m (key i)) i).1, (step (m (key i)) i).2)

/-- A turn of the store, seen by one key. -/
def Turn.at (k : κ) (t : Turn (κ → σ) ι ω) : Turn σ ι ω :=
  ⟨t.before k, t.input, t.output⟩

/-- The turns of a store that one key takes part in. -/
def turnsAt (step : σ → ι → σ × ω) (k : κ) (m : κ → σ) (is : List ι) : List (Turn σ ι ω) :=
  ((turns (keyed key step) m is).filter (fun t => key t.input = k)).map (Turn.at k)

theorem turnsAt_eq_turns (step : σ → ι → σ × ω) (k : κ) (m : κ → σ) (is : List ι) :
    turnsAt key step k m is = turns step (m k) (is.filter (fun i => key i = k)) := by
  unfold turnsAt
  induction is generalizing m with
  | nil => rfl
  | cons i is ih =>
    by_cases hk : key i = k
    · subst hk
      simp [ih, keyed, Turn.at]
    · have hrest : (keyed key step m i).1 k = m k := Function.update_of_ne (Ne.symm hk) _ _
      simp [hk, ih, hrest]

/-- The state of one key after a run. -/
theorem after_keyed (step : σ → ι → σ × ω) (k : κ) (m : κ → σ) (is : List ι) :
    after (keyed key step) m is k = after step (m k) (is.filter (fun i => key i = k)) := by
  induction is generalizing m with
  | nil => rfl
  | cons i is ih =>
    rw [after_cons, ih]
    by_cases hk : key i = k
    · subst hk
      simp [keyed]
    · have hrest : (keyed key step m i).1 k = m k := Function.update_of_ne (Ne.symm hk) _ _
      simp [hk, hrest]

end Keyed

end Transducer
