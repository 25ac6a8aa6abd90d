import PveZfsTool.Lib.Environment

/-!
# Programs that read a file and write it anew

`FileOps` says what the requests of a program mean for the files of its
environment.  A read of a file may fail, at any place of a run, and then the
answer does not carry the content.

* `GuardedFrom`: each write of a file that exists comes right after a read of
  the same file that delivered its content.
* `AllDelivered`: no read of a file that exists failed.
* `guarded_rewrite`: a read and the write after it.  `guarded_append` and
  `guarded_of_writeless` compose the runs of a longer program from these.
-/

namespace Dialogue

/-- What requests and answers mean for the files `P` with contents in `C`. -/
structure FileOps (P C Q A : Type) where
  /-- The file that a request reads. -/
  reads : Q → Option P
  /-- The file that a request writes. -/
  writes : Q → Option P
  /-- The answer carries the content. -/
  Delivers : Q → A → C → Prop
  /-- The answer of a request that failed, or that brought nothing. -/
  Fails : A → Prop

/-- The files that exist, with their contents. -/
abbrev Files (P C : Type) := P → Option C

namespace FileOps

variable {P C Q A ε α : Type} (ops : FileOps P C Q A)

/-- A read of a file that exists delivers or fails, and a read of another file
fails.  A write may leave anything in its file and changes no other file. -/
def env : Env (Files P C) Q A Empty where
  respond w q a w' :=
    (∀ p, ops.reads q = some p → ops.Fails a ∨ ∃ c, w p = some c ∧ ops.Delivers q a c) ∧
      ∀ p, ops.writes q ≠ some p → w' p = w p
  move _ _ _ := False

/-- If the file of the request exists, the answer carries its content. -/
def Delivered (w : Files P C) : Event Q A Empty → Prop
  | .request q a => ∀ p c, ops.reads q = some p → w p = some c → ops.Delivers q a c
  | .move _ => True

/-- No read of a file that exists failed. -/
def AllDelivered (w : Files P C) (tr : Trail Q A Empty (Files P C)) : Prop :=
  EachStep ops.Delivered w tr

/-- The request before `q` was a read that delivered the file that `q` writes,
if `q` writes one that exists. -/
def Covered (prev : Option (Q × A)) (w : Files P C) (q : Q) : Prop :=
  ∀ p c, ops.writes q = some p → w p = some c →
    ∃ r a, prev = some (r, a) ∧ ops.reads r = some p ∧ ops.Delivers r a c

/-- Each write of a file that exists comes right after a read that delivered
it.  `prev` is the request before the trail. -/
def GuardedFrom : Option (Q × A) → Files P C → Trail Q A Empty (Files P C) → Prop
  | _, _, [] => True
  | prev, w, (.request q a, w₁) :: tr =>
      ops.Covered prev w q ∧ GuardedFrom (some (q, a)) w₁ tr
  | prev, _, (.move _, w₁) :: tr => GuardedFrom prev w₁ tr

variable {ops} {prev : Option (Q × A)} {w u v w' : Files P C} {q r : Q} {a b : A} {p : P}
  {tr tr' : Trail Q A Empty (Files P C)}

theorem covered_of_writes_none (h : ops.writes q = none) : ops.Covered prev w q := by
  intro p c hp
  rw [h] at hp
  exact absurd hp (by simp)

/-- A trail that is guarded whatever came before it can follow any other. -/
theorem guarded_append (h₁ : ops.GuardedFrom prev w tr)
    (h₂ : ∀ prev, ops.GuardedFrom prev (stateAfter w tr) tr') :
    ops.GuardedFrom prev w (tr ++ tr') := by
  induction tr generalizing prev w with
  | nil => exact h₂ prev
  | cons step tr ih =>
    obtain ⟨e, w₁⟩ := step
    cases e with
    | request q a => exact ⟨h₁.1, ih h₁.2 h₂⟩
    | move m => exact m.elim

/-- What precedes a trail is guarded if the whole is. -/
theorem guarded_right (h : ops.GuardedFrom prev w (tr ++ tr')) :
    ∃ prev, ops.GuardedFrom prev (stateAfter w tr) tr' := by
  induction tr generalizing prev w with
  | nil => exact ⟨prev, h⟩
  | cons step tr ih =>
    obtain ⟨e, w₁⟩ := step
    cases e with
    | request q a => exact ih h.2
    | move m => exact m.elim

theorem guarded_of_writeless (h : ∀ q a, (q, a) ∈ answered tr → ops.writes q = none) :
    ops.GuardedFrom prev w tr := by
  induction tr generalizing prev w with
  | nil => trivial
  | cons step tr ih =>
    obtain ⟨e, w₁⟩ := step
    cases e with
    | request q a =>
      refine ⟨covered_of_writes_none (h q a List.mem_cons_self), ih (fun q' a' hmem => ?_)⟩
      exact h q' a' (List.mem_cons_of_mem _ hmem)
    | move m => exact m.elim

theorem allDelivered_of_readless (h : ∀ q a, (q, a) ∈ answered tr → ops.reads q = none) :
    ops.AllDelivered w tr := by
  induction tr generalizing w with
  | nil => trivial
  | cons step tr ih =>
    obtain ⟨e, w₁⟩ := step
    cases e with
    | request q a =>
      refine ⟨fun p c hp => ?_, ih (fun q' a' hmem => h q' a' (List.mem_cons_of_mem _ hmem))⟩
      rw [h q a List.mem_cons_self] at hp
      exact absurd hp (by simp)
    | move m => exact m.elim

/-- A file that is read, and then written whatever the answer was: the write is
guarded if and only if the read delivered. -/
theorem guarded_rewrite (hr : ops.reads r = some p) (hrw : ops.writes r = none)
    (hq : ops.writes q = some p) (hstep : ops.env.Step w (.request r a) u)
    (hrest : ∀ q a, (q, a) ∈ answered tr → ops.writes q = none) :
    ops.GuardedFrom prev w ((.request r a, u) :: (.request q b, v) :: tr) ↔
      ops.Delivered w (.request r a) := by
  have hsame : u p = w p := hstep.2 p (by simp [hrw])
  constructor
  · rintro ⟨-, hcovered, -⟩ p' c hp' hc
    obtain rfl : p = p' := Option.some.inj (hr.symm.trans hp')
    obtain ⟨r', a', hprev, -, hdelivers⟩ := hcovered p c hq (hsame.trans hc)
    obtain ⟨rfl, rfl⟩ := Prod.mk.inj (Option.some.inj hprev)
    exact hdelivers
  · intro hdelivered
    refine ⟨covered_of_writes_none hrw, fun p' c hp' hc => ?_, guarded_of_writeless hrest⟩
    obtain rfl : p = p' := Option.some.inj (hq.symm.trans hp')
    exact ⟨r, a, rfl, hr, hdelivered p c hr (hsame.symm.trans hc)⟩

/-- Of such requests, all reads delivered if and only if the first did. -/
theorem allDelivered_rewrite (hq : ops.reads q = none)
    (hrest : ∀ q a, (q, a) ∈ answered tr → ops.reads q = none) :
    ops.AllDelivered w ((.request r a, u) :: (.request q b, v) :: tr) ↔
      ops.Delivered w (.request r a) := by
  have hwrite : ops.Delivered u (.request q b) := by
    intro p c hp
    rw [hq] at hp
    exact absurd hp (by simp)
  constructor
  · intro hall
    exact hall.1
  · intro hread
    exact ⟨hread, hwrite, allDelivered_of_readless hrest⟩

/-- Each write of the run on a file that exists comes right after a read that
delivered the file. -/
def Guarded (ops : FileOps P C Q A) {p : Prog Q A ε α} (R : Execution ops.env p) : Prop :=
  ops.GuardedFrom none R.before R.trail

end FileOps

end Dialogue
