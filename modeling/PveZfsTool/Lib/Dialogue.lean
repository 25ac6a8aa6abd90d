import Mathlib.Data.List.Basic

/-!
# Programs that talk to an environment

A `Prog` is a program that issues requests and reads one answer to each.
It ends with a value or it raises.  Nothing is assumed about the answers:
a fact about every run of a program is a fact about every sequence of
answers the environment may give.

* `Run p tr o`: against the request/answer pairs `tr` the program `p` ends
  with `o`.  `run_bind` and `run_issue_bind` take a run of a sequence apart.
* `transcript`: the run of a program on a list of answers, for concrete
  runs.
* `EachRequest P h`: every request of `h` meets `P` with the history before
  it.  It is decidable when `P` is.
* `Meets`: the rules of pre- and postconditions.  A request is judged by
  the history it is issued in, and an outcome by the history it ends.
  `Meets.sound` reads such a judgement as a fact about every run.
* `Uses`: every request a program can issue lies in one set.
-/

namespace Dialogue

/-- A program that issues requests of type `Q` and reads an answer of type
`A` to each.  It ends with a value of type `α`, or it raises. -/
inductive Prog (Q A ε α : Type) where
  | ret (value : α)
  | raise (error : ε)
  | ask (request : Q) (next : A → Prog Q A ε α)

/-- The requests issued so far, each with its answer. -/
abbrev History (Q A : Type) := List (Q × A)

variable {Q A ε α β γ : Type}

/-! ## Requests and what came before them -/

/-- Every request of the history meets `P`, with the history before it. -/
def EachRequest (P : History Q A → Q → Prop) (h : History Q A) : Prop :=
  ∀ pre q a post, h = pre ++ (q, a) :: post → P pre q

@[simp] theorem eachRequest_nil {P : History Q A → Q → Prop} : EachRequest P [] := by
  intro pre q a post h
  simp at h

@[simp] theorem eachRequest_cons {P : History Q A → Q → Prop} {q : Q} {a : A}
    {h : History Q A} :
    EachRequest P ((q, a) :: h) ↔ P [] q ∧ EachRequest (fun pre => P ((q, a) :: pre)) h := by
  constructor
  · intro hall
    exact ⟨hall [] q a h rfl, fun pre q' a' post heq => hall ((q, a) :: pre) q' a' post (by simp [heq])⟩
  · rintro ⟨hfirst, hrest⟩ pre q' a' post heq
    cases pre with
    | nil =>
      simp only [List.nil_append, List.cons.injEq, Prod.mk.injEq] at heq
      obtain ⟨⟨rfl, rfl⟩, rfl⟩ := heq
      exact hfirst
    | cons entry pre =>
      simp only [List.cons_append, List.cons.injEq] at heq
      obtain ⟨rfl, rfl⟩ := heq
      exact hrest pre q' a' post rfl

instance decidableEachRequest : (P : History Q A → Q → Prop) →
    [∀ pre q, Decidable (P pre q)] → (h : History Q A) → Decidable (EachRequest P h)
  | _, _, [] => isTrue eachRequest_nil
  | P, _, (q, a) :: h =>
      have := decidableEachRequest (fun pre => P ((q, a) :: pre)) h
      decidable_of_iff _ eachRequest_cons.symm

namespace Prog

/-- Run `p`, then go on with its value.  A raise ends the sequence. -/
def bind : Prog Q A ε α → (α → Prog Q A ε β) → Prog Q A ε β
  | .ret value, f => f value
  | .raise error, _ => .raise error
  | .ask request next, f => .ask request (fun answer => (next answer).bind f)

instance : Monad (Prog Q A ε) where
  pure := .ret
  bind := bind

/-- Issue one request and return its answer. -/
def issue (request : Q) : Prog Q A ε A := .ask request .ret

/-- `try: p finally: f`.  `f` runs however `p` ends, and its own raise
replaces the outcome of `p`. -/
def tryFinally (p : Prog Q A ε α) (f : Prog Q A ε β) : Prog Q A ε (α × β) :=
  match p with
  | .ret value => f.bind (fun b => .ret (value, b))
  | .raise error => f.bind (fun _ => .raise error)
  | .ask request next => .ask request (fun answer => (next answer).tryFinally f)

/-- `try: p except e`.  The error of `p` becomes a value. -/
def attempt : Prog Q A ε α → Prog Q A γ (Except ε α)
  | .ret value => .ret (.ok value)
  | .raise error => .ret (.error error)
  | .ask request next => .ask request (fun answer => (next answer).attempt)

@[simp] theorem pure_eq (value : α) : (pure value : Prog Q A ε α) = .ret value := rfl

@[simp] theorem ret_bind (value : α) (f : α → Prog Q A ε β) :
    (.ret value >>= f) = f value := rfl

@[simp] theorem raise_bind (error : ε) (f : α → Prog Q A ε β) :
    (.raise error >>= f) = .raise error := rfl

@[simp] theorem ask_bind (request : Q) (next : A → Prog Q A ε α) (f : α → Prog Q A ε β) :
    (.ask request next >>= f) = .ask request (fun answer => next answer >>= f) := rfl

@[simp] theorem issue_bind (request : Q) (f : A → Prog Q A ε β) :
    (issue request >>= f) = .ask request f := rfl

/-! ## Runs -/

/-- Against the history `tr` the program ends with the given outcome. -/
def Run : Prog Q A ε α → History Q A → Except ε α → Prop
  | .ret value, tr, o => tr = [] ∧ o = .ok value
  | .raise error, tr, o => tr = [] ∧ o = .error error
  | .ask _ _, [], _ => False
  | .ask request next, (q, a) :: tr, o => q = request ∧ (next a).Run tr o

@[simp] theorem run_ret {value : α} {tr : History Q A} {o : Except ε α} :
    (Prog.ret value).Run tr o ↔ tr = [] ∧ o = .ok value := Iff.rfl

@[simp] theorem run_raise {error : ε} {tr : History Q A} {o : Except ε α} :
    (Prog.raise error).Run tr o ↔ tr = [] ∧ o = .error error := Iff.rfl

@[simp] theorem run_ask {request : Q} {next : A → Prog Q A ε α} {tr : History Q A}
    {o : Except ε α} :
    (Prog.ask request next).Run tr o ↔
      ∃ a tr', tr = (request, a) :: tr' ∧ (next a).Run tr' o := by
  cases tr with
  | nil => simp [Run]
  | cons entry tr =>
    obtain ⟨q, a⟩ := entry
    constructor
    · rintro ⟨rfl, h⟩
      exact ⟨a, tr, rfl, h⟩
    · rintro ⟨a', tr', heq, h⟩
      simp only [List.cons.injEq, Prod.mk.injEq] at heq
      obtain ⟨⟨rfl, rfl⟩, rfl⟩ := heq
      exact ⟨rfl, h⟩

/-- A run of a sequence is a run of its first part, followed by a run of
the rest when the first part returned. -/
theorem run_bind {p : Prog Q A ε α} {f : α → Prog Q A ε β} {tr : History Q A}
    {o : Except ε β} :
    (p >>= f).Run tr o ↔
      (∃ tr₁ tr₂ value, tr = tr₁ ++ tr₂ ∧ p.Run tr₁ (.ok value) ∧ (f value).Run tr₂ o) ∨
        ∃ error, p.Run tr (.error error) ∧ o = .error error := by
  induction p generalizing tr with
  | ret value =>
    simp only [ret_bind, run_ret, Except.ok.injEq, reduceCtorEq, and_false, false_and,
      exists_false, or_false]
    constructor
    · intro h
      exact ⟨[], tr, value, rfl, ⟨rfl, rfl⟩, h⟩
    · rintro ⟨tr₁, tr₂, v, rfl, ⟨rfl, rfl⟩, h⟩
      exact h
  | raise error =>
    simp only [raise_bind, run_raise, reduceCtorEq, and_false, false_and, exists_false,
      Except.error.injEq, false_or]
    constructor
    · rintro ⟨rfl, rfl⟩
      exact ⟨error, ⟨rfl, rfl⟩, rfl⟩
    · rintro ⟨e, ⟨rfl, rfl⟩, rfl⟩
      exact ⟨rfl, rfl⟩
  | ask request next ih =>
    simp only [ask_bind, run_ask]
    constructor
    · rintro ⟨a, tr', rfl, h⟩
      rcases (ih a).mp h with ⟨tr₁, tr₂, v, rfl, h₁, h₂⟩ | ⟨e, he, rfl⟩
      · exact Or.inl ⟨(request, a) :: tr₁, tr₂, v, rfl, ⟨a, tr₁, rfl, h₁⟩, h₂⟩
      · exact Or.inr ⟨e, ⟨a, tr', rfl, he⟩, rfl⟩
    · rintro (⟨_, tr₂, v, rfl, ⟨a, tr₁, rfl, h₁⟩, h₂⟩ | ⟨e, ⟨a, tr', rfl, he⟩, rfl⟩)
      · exact ⟨a, tr₁ ++ tr₂, rfl, (ih a).mpr (Or.inl ⟨tr₁, tr₂, v, rfl, h₁, h₂⟩)⟩
      · exact ⟨a, tr', rfl, (ih a).mpr (Or.inr ⟨e, he, rfl⟩)⟩

/-- A run of a sequence that returns: its first part returned. -/
theorem run_bind_ok {p : Prog Q A ε α} {f : α → Prog Q A ε β} {tr : History Q A} {b : β}
    (h : (p >>= f).Run tr (.ok b)) :
    ∃ tr₁ tr₂ value, tr = tr₁ ++ tr₂ ∧ p.Run tr₁ (.ok value) ∧ (f value).Run tr₂ (.ok b) := by
  rcases run_bind.mp h with hok | ⟨e, -, herr⟩
  · exact hok
  · cases herr

/-- A run of `try: p finally: f` is a run of `p`, however it ends, and then a
run of `f`. -/
theorem run_tryFinally {p : Prog Q A ε α} {f : Prog Q A ε β} {tr : History Q A}
    {o : Except ε (α × β)} (h : (p.tryFinally f).Run tr o) :
    ∃ tr₁ tr₂ o₁ o₂, tr = tr₁ ++ tr₂ ∧ p.Run tr₁ o₁ ∧ f.Run tr₂ o₂ ∧
      o = (match o₂ with
        | .ok b => o₁.map (fun a => (a, b))
        | .error e => .error e) := by
  induction p generalizing tr with
  | ret value =>
    rcases run_bind.mp h with ⟨tr₁, tr₂, b, rfl, hf, hret⟩ | ⟨e, hf, rfl⟩
    · obtain ⟨rfl, rfl⟩ := hret
      exact ⟨[], tr₁, .ok value, .ok b, by simp, ⟨rfl, rfl⟩, hf, rfl⟩
    · exact ⟨[], tr, .ok value, .error e, rfl, ⟨rfl, rfl⟩, hf, rfl⟩
  | raise error =>
    rcases run_bind.mp h with ⟨tr₁, tr₂, b, rfl, hf, hret⟩ | ⟨e, hf, rfl⟩
    · obtain ⟨rfl, rfl⟩ := hret
      exact ⟨[], tr₁, .error error, .ok b, by simp, ⟨rfl, rfl⟩, hf, rfl⟩
    · exact ⟨[], tr, .error error, .error e, rfl, ⟨rfl, rfl⟩, hf, rfl⟩
  | ask request next ih =>
    obtain ⟨a, tr', rfl, hrest⟩ := run_ask.mp h
    obtain ⟨tr₁, tr₂, o₁, o₂, rfl, hp, hf, rfl⟩ := ih a hrest
    exact ⟨(request, a) :: tr₁, tr₂, o₁, o₂, rfl, ⟨rfl, hp⟩, hf, rfl⟩

/-- `try: p except e` runs as `p` does. -/
theorem run_attempt {p : Prog Q A ε α} {tr : History Q A} {o : Except γ (Except ε α)} :
    (p.attempt : Prog Q A γ (Except ε α)).Run tr o ↔ ∃ r, p.Run tr r ∧ o = .ok r := by
  induction p generalizing tr with
  | ret value => simp [attempt]
  | raise error => simp [attempt]
  | ask request next ih =>
    simp only [attempt, run_ask, ih]
    constructor
    · rintro ⟨a, tr', rfl, r, hr, rfl⟩
      exact ⟨r, ⟨a, tr', rfl, hr⟩, rfl⟩
    · rintro ⟨r, ⟨a, tr', rfl, hr⟩, rfl⟩
      exact ⟨a, tr', rfl, r, hr, rfl⟩

theorem run_attempt_bind {p : Prog Q A ε α} {f : Except ε α → Prog Q A γ β} {tr : History Q A}
    {o : Except γ β} :
    (p.attempt >>= f).Run tr o ↔
      ∃ tr₁ tr₂ r, tr = tr₁ ++ tr₂ ∧ p.Run tr₁ r ∧ (f r).Run tr₂ o := by
  rw [run_bind]
  constructor
  · rintro (⟨tr₁, tr₂, r, rfl, hp, hf⟩ | ⟨e, hp, -⟩)
    · obtain ⟨r', hr, heq⟩ := run_attempt.mp hp
      cases heq
      exact ⟨tr₁, tr₂, r, rfl, hr, hf⟩
    · obtain ⟨r, -, heq⟩ := run_attempt.mp hp
      cases heq
  · rintro ⟨tr₁, tr₂, r, rfl, hp, hf⟩
    exact .inl ⟨tr₁, tr₂, r, rfl, run_attempt.mpr ⟨r, hp, rfl⟩, hf⟩

/-- The run of a program on a list of answers.  `none` when the answers do
not last exactly as long as the run. -/
def transcript : Prog Q A ε α → List A → Option (History Q A × Except ε α)
  | .ret value, [] => some ([], .ok value)
  | .raise error, [] => some ([], .error error)
  | .ask request next, a :: answers =>
      ((next a).transcript answers).map (fun r => ((request, a) :: r.1, r.2))
  | _, _ => none

/-- A transcript is a run. -/
theorem run_of_transcript {p : Prog Q A ε α} {answers : List A} {tr : History Q A}
    {o : Except ε α} (h : p.transcript answers = some (tr, o)) : p.Run tr o := by
  induction p generalizing answers tr with
  | ret value =>
    cases answers with
    | nil =>
      simp only [transcript, Option.some.injEq, Prod.mk.injEq] at h
      exact ⟨h.1.symm, h.2.symm⟩
    | cons a answers => simp [transcript] at h
  | raise error =>
    cases answers with
    | nil =>
      simp only [transcript, Option.some.injEq, Prod.mk.injEq] at h
      exact ⟨h.1.symm, h.2.symm⟩
    | cons a answers => simp [transcript] at h
  | ask request next ih =>
    cases answers with
    | nil => simp [transcript] at h
    | cons a answers =>
      simp only [transcript, Option.map_eq_some_iff, Prod.mk.injEq] at h
      obtain ⟨⟨tr', o'⟩, hrec, rfl, rfl⟩ := h
      exact ⟨rfl, ih a hrec⟩

/-- A transcript whose outcome passes a test is a run with such an outcome. -/
theorem exists_run_of_test {p : Prog Q A ε α} (test : Except ε α → Bool) (answers : List A)
    {tr : History Q A}
    (h : (p.transcript answers).map (fun r => (r.1, test r.2)) = some (tr, true)) :
    ∃ o, p.Run tr o ∧ test o = true := by
  obtain ⟨⟨tr', o⟩, hr, heq⟩ := Option.map_eq_some_iff.mp h
  simp only [Prod.mk.injEq] at heq
  obtain ⟨rfl, htest⟩ := heq
  exact ⟨o, run_of_transcript hr, htest⟩

/-- The requests of a transcript are those of a run. -/
theorem exists_run_of_transcript {p : Prog Q A ε α} (answers : List A) {tr : History Q A}
    (h : (p.transcript answers).map Prod.fst = some tr) : ∃ o, p.Run tr o := by
  obtain ⟨r, hr, rfl⟩ := Option.map_eq_some_iff.mp h
  exact ⟨r.2, run_of_transcript hr⟩

/-- A program runs to its end against an environment that answers each
request by a function. -/
theorem exists_run (p : Prog Q A ε α) (f : Q → A) :
    ∃ tr o, p.Run tr o ∧ ∀ entry ∈ tr, entry.2 = f entry.1 := by
  induction p with
  | ret value => exact ⟨[], .ok value, ⟨rfl, rfl⟩, by simp⟩
  | raise error => exact ⟨[], .error error, ⟨rfl, rfl⟩, by simp⟩
  | ask request next ih =>
    obtain ⟨tr, o, hrun, hall⟩ := ih (f request)
    refine ⟨(request, f request) :: tr, o, ⟨rfl, hrun⟩, ?_⟩
    exact List.forall_mem_cons.mpr ⟨rfl, hall⟩

/-! ## Pre- and postconditions over histories -/

/-- Started in history `h`, every request `p` issues meets `G` in the
history it is issued in, and every outcome meets `Post` in the history it
ends. -/
def Meets (G : History Q A → Q → Prop) (Post : History Q A → Except ε α → Prop) :
    Prog Q A ε α → History Q A → Prop
  | .ret value, h => Post h (.ok value)
  | .raise error, h => Post h (.error error)
  | .ask request next, h => G h request ∧ ∀ a, (next a).Meets G Post (h ++ [(request, a)])

variable {G : History Q A → Q → Prop} {h : History Q A}

@[simp] theorem meets_ret {Post : History Q A → Except ε α → Prop} {value : α} :
    (Prog.ret value).Meets G Post h ↔ Post h (.ok value) := Iff.rfl

@[simp] theorem meets_raise {Post : History Q A → Except ε α → Prop} {error : ε} :
    (Prog.raise error).Meets G Post h ↔ Post h (.error error) := Iff.rfl

@[simp] theorem meets_ask {Post : History Q A → Except ε α → Prop} {request : Q}
    {next : A → Prog Q A ε α} :
    (Prog.ask request next).Meets G Post h ↔
      G h request ∧ ∀ a, (next a).Meets G Post (h ++ [(request, a)]) := Iff.rfl

/-- The postcondition may be weakened. -/
theorem Meets.mono {Post Post' : History Q A → Except ε α → Prop} {p : Prog Q A ε α}
    (hp : p.Meets G Post h) (himp : ∀ h' o, Post h' o → Post' h' o) :
    p.Meets G Post' h := by
  induction p generalizing h with
  | ret value => exact himp _ _ hp
  | raise error => exact himp _ _ hp
  | ask request next ih => exact ⟨hp.1, fun a => ih a (hp.2 a)⟩

/-- The sequencing rule. -/
theorem Meets.bind {Post : History Q A → Except ε α → Prop}
    {Post' : History Q A → Except ε β → Prop} {p : Prog Q A ε α} {f : α → Prog Q A ε β}
    (hp : p.Meets G Post h)
    (hf : ∀ h' value, Post h' (.ok value) → (f value).Meets G Post' h')
    (hraise : ∀ h' error, Post h' (.error error) → Post' h' (.error error)) :
    (p >>= f).Meets G Post' h := by
  induction p generalizing h with
  | ret value => exact hf _ _ hp
  | raise error => exact hraise _ _ hp
  | ask request next ih => exact ⟨hp.1, fun a => ih a (hp.2 a)⟩

/-- The rule for one request. -/
theorem Meets.issue {request : Q} (hreq : G h request) :
    (Prog.issue request : Prog Q A ε A).Meets G
      (fun h' o => ∃ a, h' = h ++ [(request, a)] ∧ o = .ok a) h :=
  ⟨hreq, fun a => ⟨a, rfl, rfl⟩⟩

/-- The rule for `try: p except e`. -/
theorem Meets.attempt {Post : History Q A → Except ε α → Prop} {p : Prog Q A ε α}
    (hp : p.Meets G Post h) :
    (p.attempt : Prog Q A γ (Except ε α)).Meets G (fun h' o => ∃ r, o = .ok r ∧ Post h' r) h := by
  induction p generalizing h with
  | ret value => exact ⟨.ok value, rfl, hp⟩
  | raise error => exact ⟨.error error, rfl, hp⟩
  | ask request next ih => exact ⟨hp.1, fun a => ih a (hp.2 a)⟩

/-- What a judgement says about a run: every request of the run meets `G`
in the history before it, and the outcome meets `Post`. -/
theorem Meets.sound {Post : History Q A → Except ε α → Prop} {p : Prog Q A ε α}
    {tr : History Q A} {o : Except ε α} (hp : p.Meets G Post h) (hrun : p.Run tr o) :
    EachRequest (fun pre q => G (h ++ pre) q) tr ∧ Post (h ++ tr) o := by
  induction p generalizing h tr with
  | ret value =>
    obtain ⟨rfl, rfl⟩ := hrun
    exact ⟨eachRequest_nil, by simpa using hp⟩
  | raise error =>
    obtain ⟨rfl, rfl⟩ := hrun
    exact ⟨eachRequest_nil, by simpa using hp⟩
  | ask request next ih =>
    obtain ⟨a, tr', rfl, hrest⟩ := run_ask.mp hrun
    obtain ⟨hreq, hpost⟩ := ih a (hp.2 a) hrest
    refine ⟨eachRequest_cons.mpr ⟨by simpa using hp.1, by simpa using hreq⟩, by simpa using hpost⟩

/-! ## Programs that do not raise -/

/-- The program never raises, whatever the answers are. -/
def NeverRaises : Prog Q A ε α → Prop
  | .ret _ => True
  | .raise _ => False
  | .ask _ next => ∀ a, (next a).NeverRaises

theorem NeverRaises.bind {p : Prog Q A ε α} {f : α → Prog Q A ε β} (hp : p.NeverRaises)
    (hf : ∀ value, (f value).NeverRaises) : (p >>= f).NeverRaises := by
  induction p with
  | ret value => exact hf value
  | raise error => exact hp.elim
  | ask request next ih => exact fun a => ih a (hp a)

theorem NeverRaises.attempt (p : Prog Q A ε α) :
    (p.attempt : Prog Q A γ (Except ε α)).NeverRaises := by
  induction p with
  | ret value => trivial
  | raise error => trivial
  | ask request next ih => exact fun a => ih a

theorem NeverRaises.sound {p : Prog Q A ε α} {tr : History Q A} {o : Except ε α}
    (hp : p.NeverRaises) (hrun : p.Run tr o) : ∃ value, o = .ok value := by
  induction p generalizing tr with
  | ret value => exact ⟨value, hrun.2⟩
  | raise error => exact hp.elim
  | ask request next ih =>
    obtain ⟨a, tr', rfl, hrest⟩ := run_ask.mp hrun
    exact ih a (hp a) hrest

/-! ## The requests a program can issue -/

/-- Every request `p` can issue lies in `S`. -/
def Uses (S : Q → Prop) : Prog Q A ε α → Prop
  | .ret _ => True
  | .raise _ => True
  | .ask request next => S request ∧ ∀ a, (next a).Uses S

@[simp] theorem uses_ret {S : Q → Prop} {value : α} :
    (Prog.ret value : Prog Q A ε α).Uses S ↔ True := Iff.rfl

@[simp] theorem uses_raise {S : Q → Prop} {error : ε} :
    (Prog.raise error : Prog Q A ε α).Uses S ↔ True := Iff.rfl

@[simp] theorem uses_ask {S : Q → Prop} {request : Q} {next : A → Prog Q A ε α} :
    (Prog.ask request next).Uses S ↔ S request ∧ ∀ a, (next a).Uses S := Iff.rfl

theorem Uses.bind {S : Q → Prop} {p : Prog Q A ε α} {f : α → Prog Q A ε β}
    (hp : p.Uses S) (hf : ∀ value, (f value).Uses S) : (p >>= f).Uses S := by
  induction p with
  | ret value => exact hf value
  | raise error => trivial
  | ask request next ih => exact ⟨hp.1, fun a => ih a (hp.2 a)⟩

/-- The sequencing rule for a rest that depends on what the first part can
return. -/
theorem Uses.bind_run {S : Q → Prop} {p : Prog Q A ε α} {f : α → Prog Q A ε β}
    (hp : p.Uses S) (hf : ∀ tr value, p.Run tr (.ok value) → (f value).Uses S) :
    (p >>= f).Uses S := by
  induction p with
  | ret value => exact hf [] value ⟨rfl, rfl⟩
  | raise error => trivial
  | ask request next ih =>
    refine ⟨hp.1, fun a => ih a (hp.2 a) (fun tr value hrun => ?_)⟩
    exact hf ((request, a) :: tr) value ⟨rfl, hrun⟩

theorem Uses.tryFinally {S : Q → Prop} {p : Prog Q A ε α} {f : Prog Q A ε β}
    (hp : p.Uses S) (hf : f.Uses S) : (p.tryFinally f).Uses S := by
  induction p with
  | ret value => exact hf.bind (fun _ => trivial)
  | raise error => exact hf.bind (fun _ => trivial)
  | ask request next ih => exact ⟨hp.1, fun a => ih a (hp.2 a)⟩

theorem Uses.attempt {S : Q → Prop} {p : Prog Q A ε α} (hp : p.Uses S) :
    (p.attempt : Prog Q A γ (Except ε α)).Uses S := by
  induction p with
  | ret value => trivial
  | raise error => trivial
  | ask request next ih => exact ⟨hp.1, fun a => ih a (hp.2 a)⟩

theorem Uses.mono {S S' : Q → Prop} {p : Prog Q A ε α} (hp : p.Uses S)
    (himp : ∀ q, S q → S' q) : p.Uses S' := by
  induction p with
  | ret value => trivial
  | raise error => trivial
  | ask request next ih => exact ⟨himp _ hp.1, fun a => ih a (hp.2 a)⟩

theorem uses_true (p : Prog Q A ε α) : p.Uses (fun _ => True) := by
  induction p with
  | ret value => trivial
  | raise error => trivial
  | ask request next ih => exact ⟨trivial, ih⟩

/-- Every request of a run lies in the set the program keeps to. -/
theorem Uses.sound {S : Q → Prop} {p : Prog Q A ε α} {tr : History Q A} {o : Except ε α}
    (hp : p.Uses S) (hrun : p.Run tr o) : ∀ entry ∈ tr, S entry.1 := by
  induction p generalizing tr with
  | ret value =>
    obtain ⟨rfl, rfl⟩ := hrun
    simp
  | raise error =>
    obtain ⟨rfl, rfl⟩ := hrun
    simp
  | ask request next ih =>
    obtain ⟨a, tr', rfl, hrest⟩ := run_ask.mp hrun
    intro entry hmem
    rcases List.mem_cons.mp hmem with rfl | hmem
    · exact hp.1
    · exact ih a (hp.2 a) hrest entry hmem

/-- The rule for a quiet part of a program.  Where its requests meet `G`
after any quiet history, it meets `G`, and it adds quiet requests only. -/
theorem Uses.meets {S : Q → Prop} {p : Prog Q A ε α} (hp : p.Uses S)
    (hG : ∀ ext q, (∀ entry ∈ ext, S (Prod.fst entry)) → S q → G (h ++ ext) q) :
    p.Meets G (fun h' _ => ∃ ext, h' = h ++ ext ∧ ∀ entry ∈ ext, S (Prod.fst entry)) h := by
  induction p generalizing h with
  | ret value => exact ⟨[], by simp, by simp⟩
  | raise error => exact ⟨[], by simp, by simp⟩
  | ask request next ih =>
    refine ⟨by simpa using hG [] request (by simp) hp.1, fun a => ?_⟩
    have hG' : ∀ ext q, (∀ entry ∈ ext, S (Prod.fst entry)) → S q →
        G (h ++ [(request, a)] ++ ext) q := by
      intro ext q hext hq
      have hcons := hG ((request, a) :: ext) q (List.forall_mem_cons.mpr ⟨hp.1, hext⟩) hq
      simpa using hcons
    refine (ih a (hp.2 a) hG').mono ?_
    rintro h' o ⟨ext, rfl, hext⟩
    exact ⟨(request, a) :: ext, by simp, List.forall_mem_cons.mpr ⟨hp.1, hext⟩⟩

end Prog

end Dialogue
