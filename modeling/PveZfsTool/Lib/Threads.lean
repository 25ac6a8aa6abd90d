import PveZfsTool.Lib.Environment

/-!
# Threads

Several programs may talk to one environment at the same time.  Each request
of their trail carries the thread that issued it, and `part` is the history of
one thread.  Nothing is said about the order in which the threads take their
turns.

* `relabel`: a program among the requests of a larger one.
* `mem_part`, `part_tag`: from the trail of all threads to the history of one,
  and from the trail of one program to a trail of threads.
* `Path.exists_change`: what a path changes is changed by one of its steps.
* `Leads`: the environment may let a program end this way.
-/

namespace Dialogue

variable {Q Q' A M W T ε α β : Type}

/-! ## Requests of another kind -/

namespace Prog

/-- The same program with its requests mapped. -/
def relabel (f : Q → Q') : Prog Q A ε α → Prog Q' A ε α
  | .ret value => .ret value
  | .raise error => .raise error
  | .ask request next => .ask (f request) (fun answer => (next answer).relabel f)

theorem Uses.relabel {S : Q' → Prop} {f : Q → Q'} {p : Prog Q A ε α}
    (hp : p.Uses (fun q => S (f q))) : (p.relabel f).Uses S := by
  induction p with
  | ret value => trivial
  | raise error => trivial
  | ask request next ih => exact ⟨hp.1, fun a => ih a (hp.2 a)⟩

theorem NeverRaises.relabel {f : Q → Q'} {p : Prog Q A ε α} (hp : p.NeverRaises) :
    (p.relabel f).NeverRaises := by
  induction p with
  | ret value => trivial
  | raise error => exact hp.elim
  | ask request next ih => exact fun a => ih a (hp a)

end Prog

/-! ## The requests of one thread -/

/-- The environment as several threads see it. -/
def Env.threads (T : Type) (env : Env W Q A M) : Env W (T × Q) A M where
  respond w q := env.respond w q.2
  move := env.move

section Part

variable [DecidableEq T]

/-- The history of one thread. -/
def part (t : T) (h : History (T × Q) A) : History Q A :=
  h.filterMap (fun e => if e.1.1 = t then some (e.1.2, e.2) else none)

theorem mem_part {t : T} {h : History (T × Q) A} {q : Q} {a : A} :
    (q, a) ∈ part t h ↔ ((t, q), a) ∈ h := by
  unfold part
  rw [List.mem_filterMap]
  constructor
  · intro ⟨e, he, heq⟩
    by_cases ht : e.1.1 = t
    · rw [if_pos ht] at heq
      cases heq
      rw [← ht]
      exact he
    · rw [if_neg ht] at heq
      cases heq
  · intro h
    exact ⟨((t, q), a), h, if_pos rfl⟩

theorem part_append {t : T} {h h' : History (T × Q) A} :
    part t (h ++ h') = part t h ++ part t h' :=
  List.filterMap_append

end Part

/-- An event of the thread. -/
def Event.tag (t : T) : Event Q A M → Event (T × Q) A M
  | .request q a => .request (t, q) a
  | .move m => .move m

/-- The trail of a program that runs as the thread. -/
def tag (t : T) (tr : Trail Q A M W) : Trail (T × Q) A M W :=
  tr.map (fun step => (step.1.tag t, step.2))

theorem answered_tag {t : T} {tr : Trail Q A M W} :
    answered (tag t tr) = (answered tr).map (fun e => ((t, e.1), e.2)) := by
  induction tr with
  | nil => rfl
  | cons step tr ih =>
    obtain ⟨e, w⟩ := step
    cases e with
    | request q a =>
      show ((t, q), a) :: answered (tag t tr) = _
      rw [ih]
      rfl
    | move m =>
      show answered (tag t tr) = _
      rw [ih]
      rfl

theorem part_tag [DecidableEq T] {t : T} {tr : Trail Q A M W} :
    part t (answered (tag t tr)) = answered tr := by
  have hsome : (fun e : (T × Q) × A => if e.1.1 = t then some (e.1.2, e.2) else none) ∘
      (fun e : Q × A => ((t, e.1), e.2)) = some := by
    funext e
    exact if_pos rfl
  rw [answered_tag]
  unfold part
  rw [List.filterMap_map, hsome, List.filterMap_some]

theorem part_tag_of_ne [DecidableEq T] {t s : T} (h : t ≠ s) {tr : Trail Q A M W} :
    part s (answered (tag t tr)) = [] := by
  rw [answered_tag]
  unfold part
  rw [List.filterMap_map, List.filterMap_eq_nil_iff]
  intro e _
  exact if_neg h

/-! ## Paths -/

variable {env : Env W Q A M} {w w' w₁ : W} {tr : Trail Q A M W}

theorem Env.Path.tag {t : T} (hp : env.Path w tr w') :
    (env.threads T).Path w (tag t tr) w' := by
  induction tr generalizing w with
  | nil => exact hp
  | cons step tr ih =>
    obtain ⟨e, u⟩ := step
    obtain ⟨hstep, hrest⟩ := hp
    refine ⟨?_, ih hrest⟩
    cases e with
    | request q a => exact hstep
    | move m => exact hstep

/-- Each request of a path was answered in some state. -/
theorem Env.Path.respond_of_mem (hp : env.Path w tr w') {q : Q} {a : A}
    (h : (q, a) ∈ answered tr) : ∃ w₁ w₂, env.respond w₁ q a w₂ := by
  obtain ⟨u, hmem⟩ := mem_answered.mp h
  obtain ⟨t₁, t₂, rfl⟩ := List.append_of_mem hmem
  obtain ⟨w₁, -, hstep, -⟩ := Env.path_append.mp hp
  exact ⟨w₁, u, hstep⟩

/-- What holds before a path and not after it ends at one of its steps. -/
theorem Env.Path.exists_change {P : W → Prop} (hp : env.Path w tr w') (hw : P w)
    (hw' : ¬ P w') : ∃ e w₁ u, (e, u) ∈ tr ∧ env.Step w₁ e u ∧ P w₁ ∧ ¬ P u := by
  induction tr generalizing w with
  | nil =>
    rw [Env.path_nil.mp hp] at hw
    exact absurd hw hw'
  | cons step tr ih =>
    obtain ⟨e, u⟩ := step
    obtain ⟨hstep, hrest⟩ := hp
    by_cases hu : P u
    · obtain ⟨e', w₁, u', hmem, hchange⟩ := ih hrest hu
      exact ⟨e', w₁, u', List.mem_cons_of_mem _ hmem, hchange⟩
    · exact ⟨e, w, u, List.mem_cons_self, hstep, hw, hu⟩

/-! ## Runs that may happen -/

/-- The environment may let the program end with `o`, and be in `w'` then. -/
def Env.Leads (env : Env W Q A M) (p : Prog Q A ε α) (w : W) (o : Except ε α) (w' : W) : Prop :=
  ∃ tr, Drives p tr o ∧ env.Path w tr w'

theorem Env.leads_ret {value : α} : env.Leads (.ret value : Prog Q A ε α) w (.ok value) w :=
  ⟨[], ⟨rfl, rfl⟩, rfl⟩

theorem Env.leads_ask {q : Q} {a : A} {next : A → Prog Q A ε α} {o : Except ε α}
    (hstep : env.respond w q a w₁) (hrest : env.Leads (next a) w₁ o w') :
    env.Leads (.ask q next) w o w' := by
  obtain ⟨tr, hdrives, hpath⟩ := hrest
  exact ⟨(.request q a, w₁) :: tr, ⟨rfl, hdrives⟩, hstep, hpath⟩

theorem Env.leads_bind {p : Prog Q A ε α} {f : α → Prog Q A ε β} {value : α} {o : Except ε β}
    (hp : env.Leads p w (.ok value) w₁) (hf : env.Leads (f value) w₁ o w') :
    env.Leads (p >>= f) w o w' := by
  obtain ⟨tr₁, hdrives₁, hpath₁⟩ := hp
  obtain ⟨tr₂, hdrives₂, hpath₂⟩ := hf
  refine ⟨tr₁ ++ tr₂, ?_, Env.path_append.mpr ⟨w₁, hpath₁, hpath₂⟩⟩
  unfold Drives
  rw [answered_append]
  exact Prog.run_bind.mpr (.inl ⟨_, _, value, rfl, hdrives₁, hdrives₂⟩)

theorem Env.exists_leads_bind {p : Prog Q A ε α} {f : α → Prog Q A ε β} {value : α}
    (hp : env.Leads p w (.ok value) w₁) (hf : ∃ result, env.Leads (f value) w₁ (.ok result) w') :
    ∃ result, env.Leads (p >>= f) w (.ok result) w' := by
  obtain ⟨result, hrest⟩ := hf
  exact ⟨result, Env.leads_bind hp hrest⟩

theorem Env.leads_attempt {γ : Type} {p : Prog Q A ε α} {o : Except ε α}
    (hp : env.Leads p w o w') :
    env.Leads (p.attempt : Prog Q A γ (Except ε α)) w (.ok o) w' := by
  obtain ⟨tr, hdrives, hpath⟩ := hp
  exact ⟨tr, Prog.run_attempt.mpr ⟨o, hdrives, rfl⟩, hpath⟩

/-- Where each request may be answered without a change, a program may end
without one. -/
theorem Env.exists_leads (hquiet : ∀ q, ∃ a, env.respond w q a w) (p : Prog Q A ε α) :
    ∃ o, env.Leads p w o w := by
  induction p with
  | ret value => exact ⟨.ok value, Env.leads_ret⟩
  | raise error => exact ⟨.error error, [], ⟨rfl, rfl⟩, rfl⟩
  | ask request next ih =>
    obtain ⟨a, hstep⟩ := hquiet request
    obtain ⟨o, hrest⟩ := ih a
    exact ⟨o, Env.leads_ask hstep hrest⟩

/-- A program that never raises then ends with a value. -/
theorem Env.exists_leads_ok (hquiet : ∀ q, ∃ a, env.respond w q a w) {p : Prog Q A ε α}
    (hp : p.NeverRaises) : ∃ value, env.Leads p w (.ok value) w := by
  obtain ⟨o, tr, hdrives, hpath⟩ := Env.exists_leads hquiet p
  obtain ⟨value, rfl⟩ := hp.sound hdrives
  exact ⟨value, tr, hdrives, hpath⟩

end Dialogue
