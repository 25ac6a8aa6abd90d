import PveZfsTool.Lib.Environment

/-!
# Programs that look for a path before they write it

`ProbeOps` says which paths the requests of a program look for, and which they
write.  The environment is the set of paths that are there.  Nothing is assumed
about the answers, so a check may fail at any place of a run.

* `Spared`: nothing is written to a path that is there.
* `AllAnswered`: each check of a path that is there was answered with yes.
* `spared_iff_answered`: the two for a check and the write after it.
* `absent_of_unanswered`: what a check without a yes is worth later in a run.
-/

namespace Dialogue

structure ProbeOps (P Q A : Type) where
  /-- The request asks whether the path is there, or one of several. -/
  probes : Q → P → Prop
  /-- The answer says that one of the paths is there. -/
  Positive : Q → A → Prop
  writes : Q → P → Prop
  /-- The request may make the path or take it away. -/
  touches : Q → P → Prop

namespace ProbeOps

variable {P Q A ε α : Type} (ops : ProbeOps P Q A)

/-- Only the paths that a request touches change. -/
def env : Env (P → Prop) Q A Empty where
  respond w q _ w' := ∀ p, ¬ ops.touches q p → (w' p ↔ w p)
  move _ _ _ := False

/-- A check of a path that is there was answered with yes. -/
def Answered (w : P → Prop) : Event Q A Empty → Prop
  | .request q a => ∀ p, ops.probes q p → w p → ops.Positive q a
  | .move _ => True

/-- The request writes no path that is there. -/
def Spares (w : P → Prop) : Event Q A Empty → Prop
  | .request q _ => ∀ p, ops.writes q p → ¬ w p
  | .move _ => True

def AllAnswered (w : P → Prop) (tr : Trail Q A Empty (P → Prop)) : Prop :=
  EachStep ops.Answered w tr

def Spared (w : P → Prop) (tr : Trail Q A Empty (P → Prop)) : Prop := EachStep ops.Spares w tr

variable {ops} {w w' : P → Prop} {c q : Q} {a : A} {p : P} {tr : Trail Q A Empty (P → Prop)}
  {o : Except ε α}

/-- A path that no request touches stays as it is. -/
theorem present_iff (hpath : ops.env.Path w tr w')
    (h : ∀ q a, (q, a) ∈ answered tr → ¬ ops.touches q p) : w' p ↔ w p := by
  induction tr generalizing w with
  | nil =>
    obtain rfl : w = w' := hpath
    rfl
  | cons step tr ih =>
    obtain ⟨e, w₁⟩ := step
    cases e with
    | request q a =>
      have hfirst : w₁ p ↔ w p := hpath.1 p (h q a List.mem_cons_self)
      exact (ih hpath.2 (fun q' a' hmem => h q' a' (List.mem_cons_of_mem _ hmem))).trans hfirst
    | move m => exact m.elim

/-- After a check without a yes, where every check is answered, its paths are
not there as long as no request touches them. -/
theorem absent_of_unanswered (hpath : ops.env.Path w tr w') (hall : ops.AllAnswered w tr)
    (hmem : (c, a) ∈ answered tr) (hno : ¬ ops.Positive c a) (hprobes : ops.probes c p)
    (h : ∀ q a, (q, a) ∈ answered tr → ¬ ops.touches q p) : ¬ w' p := by
  obtain ⟨u, hstep⟩ := mem_answered.mp hmem
  obtain ⟨t₁, t₂, rfl⟩ := List.append_of_mem hstep
  have hthen : ¬ stateAfter w t₁ p := fun hp =>
    hno (eachStep_iff.mp hall t₁ _ u t₂ rfl p hprobes hp)
  obtain ⟨hfront, -, -⟩ := hpath.cut
  have hfirst : stateAfter w t₁ p ↔ w p :=
    present_iff hfront (fun q a hq => h q a (by simp [hq]))
  have hlast : w' p ↔ w p := present_iff hpath h
  intro hp
  exact hthen (hfirst.mpr (hlast.mp hp))

/-- A program that gives up after a yes and writes otherwise spares what is
there if and only if its check is answered. -/
theorem spared_iff_answered {next : A → Prog Q A ε α} (hcheck : ∀ p, ops.probes c p ↔ ops.writes q p)
    (hquiet : ∀ p, ¬ ops.writes c p ∧ ¬ ops.touches c p ∧ ¬ ops.probes q p)
    (hyes : ∀ a, ops.Positive c a → ∃ v, next a = .ret v)
    (hno : ∀ a, ¬ ops.Positive c a → ∃ f, next a = .ask q f ∧ ∀ b, ∃ v, f b = .ret v)
    (hpath : ops.env.Path w tr w') (h : Drives (.ask c next) tr o) :
    ops.Spared w tr ↔ ops.AllAnswered w tr := by
  obtain ⟨a, u, tr, rfl, hnext⟩ := drives_ask h
  have hc : ops.Spares w (.request c a) := fun p hp => absurd hp (hquiet p).1
  by_cases hpos : ops.Positive c a
  · obtain ⟨v, hret⟩ := hyes a hpos
    rw [hret] at hnext
    obtain rfl : tr = [] := eq_nil_of_answered hnext.1
    exact iff_of_true ⟨hc, trivial⟩ ⟨fun _ _ _ => hpos, trivial⟩
  · obtain ⟨f, hask, hret⟩ := hno a hpos
    rw [hask] at hnext
    obtain ⟨b, v, tr, rfl, hlast⟩ := drives_ask hnext
    obtain ⟨value, hvalue⟩ := hret b
    rw [hvalue] at hlast
    obtain rfl : tr = [] := eq_nil_of_answered hlast.1
    have hsame : ∀ p, u p ↔ w p := fun p => hpath.1 p (hquiet p).2.1
    constructor
    · rintro ⟨-, hspares, -⟩
      refine ⟨fun p hp hw => absurd ((hsame p).mpr hw) (hspares p ((hcheck p).mp hp)), ?_⟩
      exact ⟨fun p hp => absurd hp (hquiet p).2.2, trivial⟩
    · rintro ⟨hanswered, -⟩
      refine ⟨hc, fun p hp hu => hpos (hanswered p ((hcheck p).mpr hp) ((hsame p).mp hu)), trivial⟩

end ProbeOps

end Dialogue
