import PveZfsTool.Lib.Dialogue

/-!
# The environment a program talks to

`Env` says how the state of the environment may change when a request is
answered, and when another party moves.  An `Event` is one such step.  A
`Trail` is a sequence of events, each with the state it leads to, and
`Env.Path` says that the environment allows the trail.

* `Drives p tr o`: the requests of the trail, in their order, are a run of
  `p` that ends with `o`.  `drives_bind` and `drives_issue` cut the trail of
  a sequence into the trails of its parts.
* `Execution env p`: a run of `p` that the environment allows.
* `play`: the run against one way to answer.  `exists_execution` makes it an
  execution.
* `Interleaves p tr`: the same for a run that may have been cut off
  anywhere.  It covers every interleaving of `p` with the other parties, at
  every moment of the run.
* `Path.preserves` carries an invariant along a trail, and `exists_split`
  finds the moment at which a request was answered.
-/

namespace Dialogue

variable {Q A M W ε α β : Type}

/-- One step of a system: a request of the program with its answer, or a
move of another party. -/
inductive Event (Q A M : Type) where
  | request (q : Q) (a : A)
  | move (m : M)
  deriving DecidableEq

/-- Events, each with the state after it. -/
abbrev Trail (Q A M W : Type) := List (Event Q A M × W)

/-- How the environment may change.  Both parts are relations: one answer
can leave the environment in several states. -/
structure Env (W Q A M : Type) where
  respond : W → Q → A → W → Prop
  move : W → M → W → Prop

namespace Env

/-- One event leads from `w` to `w'`. -/
def Step (env : Env W Q A M) (w : W) : Event Q A M → W → Prop
  | .request q a, w' => env.respond w q a w'
  | .move m, w' => env.move w m w'

/-- The trail leads from `w` to `w'`. -/
def Path (env : Env W Q A M) : W → Trail Q A M W → W → Prop
  | w, [], w' => w = w'
  | w, (e, w₁) :: tr, w' => env.Step w e w₁ ∧ env.Path w₁ tr w'

variable {env : Env W Q A M} {w w' : W} {tr tr' : Trail Q A M W}

@[simp] theorem path_nil : env.Path w [] w' ↔ w = w' := Iff.rfl

@[simp] theorem path_cons {e : Event Q A M} {w₁ : W} :
    env.Path w ((e, w₁) :: tr) w' ↔ env.Step w e w₁ ∧ env.Path w₁ tr w' := Iff.rfl

theorem path_append :
    env.Path w (tr ++ tr') w' ↔ ∃ w₁, env.Path w tr w₁ ∧ env.Path w₁ tr' w' := by
  induction tr generalizing w with
  | nil => simp
  | cons step tr ih =>
    obtain ⟨e, w₁⟩ := step
    simp only [List.cons_append, path_cons, ih]
    constructor
    · rintro ⟨hstep, w₂, h₁, h₂⟩
      exact ⟨w₂, ⟨hstep, h₁⟩, h₂⟩
    · rintro ⟨w₂, ⟨hstep, h₁⟩, h₂⟩
      exact ⟨hstep, w₂, h₁, h₂⟩

end Env

/-- The state a trail ends in when it starts in `w`. -/
def stateAfter (w : W) : Trail Q A M W → W
  | [] => w
  | (_, w₁) :: tr => stateAfter w₁ tr

@[simp] theorem stateAfter_append {w : W} {tr tr' : Trail Q A M W} :
    stateAfter w (tr ++ tr') = stateAfter (stateAfter w tr) tr' := by
  induction tr generalizing w with
  | nil => rfl
  | cons step tr ih => exact ih

@[simp] theorem stateAfter_nil {w : W} : stateAfter w ([] : Trail Q A M W) = w := rfl

@[simp] theorem stateAfter_cons {w w₁ : W} {e : Event Q A M} {tr : Trail Q A M W} :
    stateAfter w ((e, w₁) :: tr) = stateAfter w₁ tr := rfl

/-- Every step of a trail that starts in `w` meets `P` in the state before
it. -/
def EachStep (P : W → Event Q A M → Prop) : W → Trail Q A M W → Prop
  | _, [] => True
  | w, (e, w₁) :: tr => P w e ∧ EachStep P w₁ tr

theorem eachStep_append {P : W → Event Q A M → Prop} {w : W} {tr tr' : Trail Q A M W} :
    EachStep P w (tr ++ tr') ↔ EachStep P w tr ∧ EachStep P (stateAfter w tr) tr' := by
  induction tr generalizing w with
  | nil => simp [EachStep]
  | cons step tr ih =>
    obtain ⟨e, w₁⟩ := step
    simp [EachStep, ih, and_assoc]

theorem eachStep_mono {P P' : W → Event Q A M → Prop} {w : W} {tr : Trail Q A M W}
    (himp : ∀ u e, P u e → P' u e) (h : EachStep P w tr) : EachStep P' w tr := by
  induction tr generalizing w with
  | nil => trivial
  | cons step tr ih => exact ⟨himp _ _ h.1, ih h.2⟩

theorem eachStep_iff {P : W → Event Q A M → Prop} {w : W} {tr : Trail Q A M W} :
    EachStep P w tr ↔ ∀ t₁ e u t₂, tr = t₁ ++ (e, u) :: t₂ → P (stateAfter w t₁) e := by
  induction tr generalizing w with
  | nil => simp [EachStep]
  | cons step tr ih =>
    obtain ⟨e₁, w₁⟩ := step
    rw [EachStep, ih]
    constructor
    · rintro ⟨hfirst, hrest⟩ t₁ e u t₂ heq
      cases t₁ with
      | nil =>
        simp only [List.nil_append, List.cons.injEq, Prod.mk.injEq] at heq
        exact heq.1.1 ▸ hfirst
      | cons step' t₁ =>
        simp only [List.cons_append, List.cons.injEq] at heq
        obtain ⟨rfl, heq⟩ := heq
        exact hrest t₁ e u t₂ heq
    · intro hall
      refine ⟨hall [] e₁ w₁ tr rfl, fun t₁ e u t₂ heq => ?_⟩
      exact hall ((e₁, w₁) :: t₁) e u t₂ (by rw [heq]; rfl)

/-- Every step of a trail that starts in `w` meets `P`, with the state before
it and the state after it. -/
def EachChange (P : W → Event Q A M → W → Prop) : W → Trail Q A M W → Prop
  | _, [] => True
  | w, (e, w₁) :: tr => P w e w₁ ∧ EachChange P w₁ tr

theorem eachChange_append {P : W → Event Q A M → W → Prop} {w : W} {tr tr' : Trail Q A M W} :
    EachChange P w (tr ++ tr') ↔ EachChange P w tr ∧ EachChange P (stateAfter w tr) tr' := by
  induction tr generalizing w with
  | nil => simp [EachChange]
  | cons step tr ih =>
    obtain ⟨e, w₁⟩ := step
    simp [EachChange, ih, and_assoc]

/-- The moves of the other parties on a trail. -/
def movesOf : Trail Q A M W → List M
  | [] => []
  | (.request _ _, _) :: tr => movesOf tr
  | (.move m, _) :: tr => m :: movesOf tr

theorem mem_movesOf {m : M} {tr : Trail Q A M W} :
    m ∈ movesOf tr ↔ ∃ w, (Event.move m, w) ∈ tr := by
  induction tr with
  | nil => simp [movesOf]
  | cons step tr ih =>
    obtain ⟨e, w⟩ := step
    cases e <;> simp [movesOf, ih, exists_or]

/-- The requests of a history, each with the state after it. -/
def withStates (h : History Q A) (states : List W) : Trail Q A M W :=
  (h.zip states).map (fun step => (.request step.1.1 step.1.2, step.2))

namespace Env

variable {env : Env W Q A M} {w w' : W} {tr tr' : Trail Q A M W}

/-- A path ends in the state after its trail. -/
theorem Path.end_eq (hp : env.Path w tr w') : w' = stateAfter w tr := by
  induction tr generalizing w with
  | nil => exact hp.symm
  | cons step tr ih => exact ih hp.2

/-- The invariant rule.  What each event of a trail keeps holds in every
state on it.  An event may use where on the trail it stands. -/
theorem Path.invariant {I : W → Prop} (hp : env.Path w tr w') (hw : I w)
    (hstep : ∀ l₁ e u l₂, tr = l₁ ++ (e, u) :: l₂ → I (stateAfter w l₁) →
      env.Step (stateAfter w l₁) e u → I u) :
    ∀ l₁ l₂, tr = l₁ ++ l₂ → I (stateAfter w l₁) := by
  induction tr generalizing w with
  | nil =>
    intro l₁ l₂ heq
    obtain ⟨rfl, -⟩ := List.append_eq_nil_iff.mp heq.symm
    exact hw
  | cons step tr ih =>
    obtain ⟨e₁, w₁⟩ := step
    obtain ⟨h₁, hrest⟩ := hp
    intro l₁ l₂ heq
    cases l₁ with
    | nil => exact hw
    | cons step' l₁ =>
      simp only [List.cons_append, List.cons.injEq] at heq
      obtain ⟨rfl, heq⟩ := heq
      refine ih hrest (hstep [] e₁ w₁ tr rfl hw h₁) (fun k₁ e u k₂ hk => ?_) l₁ l₂ heq
      exact hstep ((e₁, w₁) :: k₁) e u k₂ (by simp [hk])

/-- The invariant rule for events that keep `I` wherever they stand: `I`
holds in every state on the trail and at its end. -/
theorem Path.preserves {I : W → Prop} (hp : env.Path w tr w') (hw : I w)
    (hstep : ∀ e u, (e, u) ∈ tr → ∀ u₀, I u₀ → env.Step u₀ e u → I u) :
    (∀ e u, (e, u) ∈ tr → I u) ∧ I w' := by
  have hall := hp.invariant hw (fun l₁ e u l₂ heq => hstep e u (by simp [heq]) _)
  constructor
  · intro e u hmem
    obtain ⟨l₁, l₂, heq⟩ := List.append_of_mem hmem
    simpa using hall (l₁ ++ [(e, u)]) l₂ (by simp [heq])
  · rw [hp.end_eq]
    exact hall tr [] (by simp)

/-- A path through one event: up to it, the event itself, and after it. -/
theorem Path.cut {e : Event Q A M} {u : W} (hp : env.Path w (tr ++ (e, u) :: tr') w') :
    env.Path w tr (stateAfter w tr) ∧ env.Step (stateAfter w tr) e u ∧ env.Path u tr' w' := by
  obtain ⟨w₁, hfront, hstep, hback⟩ := path_append.mp hp
  rw [← hfront.end_eq]
  exact ⟨hfront, hstep, hback⟩

end Env

/-! ## Cutting a sequence -/

/-- A sequence with one entry that meets `P` is cut at it in one way. -/
theorem split_unique {X : Type} {P : X → Prop} {l₁ l₂ m₁ m₂ : List X} {x y : X}
    (h : l₁ ++ x :: l₂ = m₁ ++ y :: m₂) (h₁ : ∀ z ∈ l₁, ¬ P z) (h₂ : ∀ z ∈ l₂, ¬ P z)
    (hy : P y) : l₁ = m₁ ∧ x = y ∧ l₂ = m₂ := by
  induction l₁ generalizing m₁ with
  | nil =>
    cases m₁ with
    | nil => simpa using h
    | cons z m₁ =>
      simp only [List.nil_append, List.cons_append, List.cons.injEq] at h
      exact absurd hy (h₂ y (by simp [h.2]))
  | cons z l₁ ih =>
    cases m₁ with
    | nil =>
      simp only [List.cons_append, List.nil_append, List.cons.injEq] at h
      exact absurd hy (h.1 ▸ h₁ z (by simp))
    | cons z' m₁ =>
      simp only [List.cons_append, List.cons.injEq] at h
      obtain ⟨rfl, hrest⟩ := h
      obtain ⟨rfl, rfl, rfl⟩ := ih hrest (fun u hu => h₁ u (List.mem_cons_of_mem _ hu))
      exact ⟨rfl, rfl, rfl⟩

/-- An entry that meets `P` stands after a front that does not. -/
theorem split_after {X : Type} {P : X → Prop} {l₁ l₂ m₁ m₂ : List X} {y : X}
    (h : l₁ ++ l₂ = m₁ ++ y :: m₂) (h₁ : ∀ z ∈ l₁, ¬ P z) (hy : P y) :
    ∃ k, m₁ = l₁ ++ k ∧ l₂ = k ++ y :: m₂ := by
  induction l₁ generalizing m₁ with
  | nil => exact ⟨m₁, rfl, h⟩
  | cons z l₁ ih =>
    cases m₁ with
    | nil =>
      simp only [List.cons_append, List.nil_append, List.cons.injEq] at h
      exact absurd hy (h.1 ▸ h₁ z (by simp))
    | cons z' m₁ =>
      simp only [List.cons_append, List.cons.injEq] at h
      obtain ⟨rfl, hrest⟩ := h
      obtain ⟨k, rfl, hk⟩ := ih hrest (fun u hu => h₁ u (List.mem_cons_of_mem _ hu))
      exact ⟨k, rfl, hk⟩

/-! ## The program's side of a trail -/

/-- The requests of a trail, each with its answer. -/
def answered : Trail Q A M W → History Q A
  | [] => []
  | (.request q a, _) :: tr => (q, a) :: answered tr
  | (.move _, _) :: tr => answered tr

variable {tr tr' : Trail Q A M W} {p : Prog Q A ε α}

@[simp] theorem answered_nil : answered ([] : Trail Q A M W) = [] := rfl

@[simp] theorem answered_request {q : Q} {a : A} {w : W} :
    answered ((.request q a, w) :: tr) = (q, a) :: answered tr := rfl

@[simp] theorem answered_move {m : M} {w : W} :
    answered ((.move m, w) :: tr) = answered tr := rfl

@[simp] theorem answered_append :
    answered (tr ++ tr') = answered tr ++ answered tr' := by
  induction tr with
  | nil => rfl
  | cons step tr ih => obtain ⟨e, w⟩ := step; cases e <;> simp [ih]

theorem mem_answered {q : Q} {a : A} :
    (q, a) ∈ answered tr ↔ ∃ w, (Event.request q a, w) ∈ tr := by
  induction tr with
  | nil => simp
  | cons step tr ih =>
    obtain ⟨e, w⟩ := step
    cases e <;> simp [ih, exists_or]

/-- The moment a request was answered: the trail before it and after it has
the requests before it and after it. -/
theorem exists_split {pre post : History Q A} {q : Q} {a : A}
    (h : answered tr = pre ++ (q, a) :: post) :
    ∃ t₁ w t₂, tr = t₁ ++ (.request q a, w) :: t₂ ∧ answered t₁ = pre ∧ answered t₂ = post := by
  induction tr generalizing pre with
  | nil => simp at h
  | cons step tr ih =>
    obtain ⟨e, w⟩ := step
    cases e with
    | move m =>
      obtain ⟨t₁, w₁, t₂, rfl, hpre, hpost⟩ := ih h
      exact ⟨(.move m, w) :: t₁, w₁, t₂, rfl, hpre, hpost⟩
    | request q' a' =>
      cases pre with
      | nil =>
        simp only [answered_request, List.nil_append, List.cons.injEq, Prod.mk.injEq] at h
        obtain ⟨⟨rfl, rfl⟩, hpost⟩ := h
        exact ⟨[], w, tr, rfl, rfl, hpost⟩
      | cons entry pre =>
        simp only [answered_request, List.cons_append, List.cons.injEq] at h
        obtain ⟨rfl, hrest⟩ := h
        obtain ⟨t₁, w₁, t₂, rfl, hpre, hpost⟩ := ih hrest
        exact ⟨(.request q' a', w) :: t₁, w₁, t₂, rfl, by simp [hpre], hpost⟩

/-- The moment the first request was answered. -/
theorem exists_first {post : History Q A} {q : Q} {a : A} (h : answered tr = (q, a) :: post) :
    ∃ t₁ w t₂, tr = t₁ ++ (.request q a, w) :: t₂ ∧ answered t₁ = [] ∧ answered t₂ = post := by
  have hsplit : answered tr = [] ++ (q, a) :: post := h
  exact exists_split hsplit

/-- A trail without requests has moves only. -/
theorem move_of_answered_eq_nil (h : answered tr = []) {e : Event Q A M} {w : W}
    (hmem : (e, w) ∈ tr) : ∃ m, e = .move m := by
  cases e with
  | move m => exact ⟨m, rfl⟩
  | request q a =>
    have hans : (q, a) ∈ answered tr := mem_answered.mpr ⟨w, hmem⟩
    simp [h] at hans

/-- A step of a trail that answers `q`. -/
def Answers (q : Q) (step : Event Q A M × W) : Prop := ∃ a, step.1 = .request q a

/-- Without `q` among its requests, no step of a trail answers it. -/
theorem not_answers {q : Q} (h : ∀ a, (q, a) ∉ answered tr) : ∀ step ∈ tr, ¬ Answers q step := by
  intro step hmem hans
  obtain ⟨e, w⟩ := step
  obtain ⟨a, rfl⟩ := hans
  exact h a (mem_answered.mpr ⟨w, hmem⟩)

/-- A cut through the requests of a trail cuts the trail. -/
theorem exists_append {h₁ h₂ : History Q A} (h : answered tr = h₁ ++ h₂) :
    ∃ t₁ t₂, tr = t₁ ++ t₂ ∧ answered t₁ = h₁ ∧ answered t₂ = h₂ := by
  cases h₂ with
  | nil => exact ⟨tr, [], by simp, by simpa using h, rfl⟩
  | cons entry h₂ =>
    obtain ⟨q, a⟩ := entry
    obtain ⟨t₁, w, t₂, rfl, hpre, hpost⟩ := exists_split h
    exact ⟨t₁, _, rfl, hpre, by simp [hpost]⟩

/-- The requests of the trail are a run of `p` that ends with `o`. -/
def Drives (p : Prog Q A ε α) (tr : Trail Q A M W) (o : Except ε α) : Prop :=
  p.Run (answered tr) o

/-- The trail of a sequence is a trail of its first part, followed by a
trail of the rest when the first part returned. -/
theorem drives_bind {f : α → Prog Q A ε β} {o : Except ε β} (h : Drives (p >>= f) tr o) :
    (∃ t₁ t₂ value, tr = t₁ ++ t₂ ∧ Drives p t₁ (.ok value) ∧ Drives (f value) t₂ o) ∨
      ∃ error, Drives p tr (.error error) ∧ o = .error error := by
  rcases Prog.run_bind.mp h with ⟨h₁, h₂, value, heq, hp, hf⟩ | herr
  · obtain ⟨t₁, t₂, rfl, rfl, rfl⟩ := exists_append heq
    exact Or.inl ⟨t₁, t₂, value, rfl, hp, hf⟩
  · exact Or.inr herr

/-- The trail of a sequence that starts with `try: p except e`. -/
theorem drives_attempt_bind {γ : Type} {f : Except ε α → Prog Q A γ β} {o : Except γ β}
    (h : Drives (p.attempt >>= f) tr o) :
    ∃ t₁ t₂ r, tr = t₁ ++ t₂ ∧ Drives p t₁ r ∧ Drives (f r) t₂ o := by
  obtain ⟨h₁, h₂, r, heq, hp, hf⟩ := Prog.run_attempt_bind.mp h
  obtain ⟨t₁, t₂, rfl, rfl, rfl⟩ := exists_append heq
  exact ⟨t₁, t₂, r, rfl, hp, hf⟩

/-- Without other parties a trail without requests is empty. -/
theorem eq_nil_of_answered [IsEmpty M] (h : answered tr = []) : tr = [] := by
  cases tr with
  | nil => rfl
  | cons step tr =>
    obtain ⟨m, -⟩ := move_of_answered_eq_nil h (e := step.1) (w := step.2) List.mem_cons_self
    exact isEmptyElim m

/-- Without other parties a program that asks starts with the request. -/
theorem drives_ask [IsEmpty M] {q : Q} {next : A → Prog Q A ε α} {o : Except ε α}
    (h : Drives (.ask q next) tr o) :
    ∃ a u t, tr = (.request q a, u) :: t ∧ Drives (next a) t o := by
  obtain ⟨a, rest, hans, hrun⟩ := Prog.run_ask.mp h
  obtain ⟨t₁, u, t₂, rfl, h₁, h₂⟩ := exists_first hans
  rw [eq_nil_of_answered h₁]
  refine ⟨a, u, t₂, rfl, ?_⟩
  rw [Drives, h₂]
  exact hrun

/-- Every request of a trail lies in the set that its program keeps to. -/
theorem Drives.uses {S : Q → Prop} {o : Except ε α} (h : Drives p tr o) (hp : p.Uses S) {q : Q}
    {a : A} (hmem : (q, a) ∈ answered tr) : S q :=
  hp.sound h (q, a) hmem

/-- A run of `p` in the environment, from its first state to its last. -/
structure Execution (env : Env W Q A M) (p : Prog Q A ε α) where
  before : W
  trail : Trail Q A M W
  after : W
  outcome : Except ε α
  path : env.Path before trail after
  drives : Drives p trail outcome

/-- A program against an environment that answers each request in one way: how
it ends, and the last state. -/
def Prog.play (step : W → Q → A × W) : Prog Q A ε α → W → Except ε α × W
  | .ret value, w => (.ok value, w)
  | .raise error, w => (.error error, w)
  | .ask request next, w => (next (step w request).1).play step (step w request).2

theorem Prog.play_bind {step : W → Q → A × W} {p : Prog Q A ε α} {f : α → Prog Q A ε β} {w w' : W}
    {value : α} (h : p.play step w = (.ok value, w')) : (p >>= f).play step w = (f value).play step w' := by
  induction p generalizing w with
  | ret v =>
    obtain ⟨hvalue, hstate⟩ := Prod.mk.inj h
    rw [Prog.ret_bind, Except.ok.inj hvalue, hstate]
  | raise e => exact absurd (Prod.mk.inj h).1 (by simp)
  | ask request next ih => exact ih _ h

/-- Where its answers are allowed, this is an execution. -/
theorem exists_execution {env : Env W Q A M} {step : W → Q → A × W}
    (h : ∀ w q, env.respond w q (step w q).1 (step w q).2) (p : Prog Q A ε α) (w : W) :
    ∃ X : Execution env p, X.before = w ∧ X.after = (p.play step w).2 ∧
      X.outcome = (p.play step w).1 := by
  have hrun : ∃ tr : Trail Q A M W, env.Path w tr (p.play step w).2 ∧ Drives p tr (p.play step w).1 := by
    induction p generalizing w with
    | ret value => exact ⟨[], rfl, rfl, rfl⟩
    | raise error => exact ⟨[], rfl, rfl, rfl⟩
    | ask request next ih =>
      obtain ⟨tr, hpath, hdrives⟩ := ih (step w request).1 (step w request).2
      exact ⟨(.request request (step w request).1, (step w request).2) :: tr, ⟨h w request, hpath⟩,
        rfl, hdrives⟩
  obtain ⟨tr, hpath, hdrives⟩ := hrun
  exact ⟨⟨w, tr, _, _, hpath, hdrives⟩, rfl, rfl, rfl⟩

/-- `tr` is a trail of `p`, possibly cut off, interleaved with moves of
other parties. -/
def Interleaves (p : Prog Q A ε α) (tr : Trail Q A M W) : Prop :=
  ∃ rest o, p.Run (answered tr ++ rest) o

/-- A request of an interleaving meets the precondition the program's
rules give it, in the history before it. -/
theorem Interleaves.meets {G : History Q A → Q → Prop}
    {Post : History Q A → Except ε α → Prop} {q : Q} {a : A} {w : W}
    (h : Interleaves p (tr ++ (.request q a, w) :: tr')) (hp : p.Meets G Post []) :
    G (answered tr) q := by
  obtain ⟨rest, o, hrun⟩ := h
  have hsplit : answered (tr ++ (.request q a, w) :: tr') ++ rest =
      answered tr ++ (q, a) :: (answered tr' ++ rest) := by simp
  rw [hsplit] at hrun
  simpa using (hp.sound hrun).1 _ _ _ _ rfl

/-- Every request of an interleaving lies in the set the program keeps to. -/
theorem Interleaves.uses {S : Q → Prop} (h : Interleaves p tr) (hp : p.Uses S)
    {q : Q} {a : A} {w : W} (hmem : (Event.request q a, w) ∈ tr) : S q := by
  obtain ⟨rest, o, hrun⟩ := h
  exact hp.sound hrun (q, a) (List.mem_append_left _ (mem_answered.mpr ⟨w, hmem⟩))

end Dialogue
