import PveZfsTool.Lib.Environment
import PveZfsTool.Lib.Paths

/-!
# A table of mounts

The mounts of a host, the newest first.  Several can stand on one directory,
and then taking one off takes the newest of them.  A `Change` is one entry more
or one entry less.

* `mountsAt_apply_of_ne`: a change leaves the other directories alone.
* `mountsAt_path`: a program whose answered requests change the table, among
  other parties that keep away from one directory, leaves there what its own
  changes make of it.
-/

namespace Mounts

open Dialogue Text Paths

/-- A device on a directory, which is named by the path from the root. -/
structure Mount where
  device : Str
  target : List Str
  readOnly : Bool
  deriving DecidableEq

abbrev MountTable := List Mount

/-- The mounts on one directory. -/
def mountsAt (target : List Str) (t : MountTable) : MountTable := t.filter (fun m => m.target = target)

inductive Change where
  | mount (m : Mount)
  | takeOff (target : List Str)
  deriving DecidableEq

namespace Change

def target : Change → List Str
  | .mount m => m.target
  | .takeOff target => target

def apply : Change → MountTable → MountTable
  | .mount m, t => m :: t
  | .takeOff target, t => t.eraseP (fun m => m.target = target)

end Change

/-- What a request with its answer does to the table. -/
def applied : Option Change → MountTable → MountTable
  | none, t => t
  | some c, t => c.apply t

/-! ## One directory -/

variable {target : List Str} {t t' : MountTable} {c : Change}

@[simp] theorem mountsAt_cons {m : Mount} :
    mountsAt target (m :: t) = if m.target = target then m :: mountsAt target t else mountsAt target t := by
  by_cases h : m.target = target <;> simp [mountsAt, h]

theorem mountsAt_takeOff : mountsAt target (t.eraseP (fun m => m.target = target)) =
    (mountsAt target t).tail := by
  induction t with
  | nil => rfl
  | cons m t ih =>
    by_cases h : m.target = target
    · rw [List.eraseP_cons_of_pos (by simpa using h), mountsAt_cons, if_pos h]
      rfl
    · rw [List.eraseP_cons_of_neg (by simpa using h), mountsAt_cons, mountsAt_cons, if_neg h, if_neg h, ih]

theorem mountsAt_apply_of_ne (h : c.target ≠ target) : mountsAt target (c.apply t) = mountsAt target t := by
  cases c with
  | mount m => exact mountsAt_cons.trans (if_neg h)
  | takeOff other =>
    show mountsAt target (t.eraseP (fun m => m.target = other)) = _
    induction t with
    | nil => rfl
    | cons m t ih =>
      by_cases hm : m.target = other
      · rw [List.eraseP_cons_of_pos (by simpa using hm), mountsAt_cons, if_neg]
        rw [hm]
        exact h
      · rw [List.eraseP_cons_of_neg (by simpa using hm), mountsAt_cons, mountsAt_cons, ih]

/-- What a change makes of one directory depends on that directory only. -/
theorem mountsAt_apply_congr (h : mountsAt target t = mountsAt target t') :
    mountsAt target (c.apply t) = mountsAt target (c.apply t') := by
  by_cases hc : c.target = target
  · subst hc
    cases c with
    | mount m =>
      show mountsAt m.target (m :: t) = mountsAt m.target (m :: t')
      rw [mountsAt_cons, mountsAt_cons, show mountsAt m.target t = mountsAt m.target t' from h]
    | takeOff target =>
      exact mountsAt_takeOff.trans ((congrArg List.tail h).trans mountsAt_takeOff.symm)
  · rw [mountsAt_apply_of_ne hc, mountsAt_apply_of_ne hc, h]

/-! ## A program and the other parties -/

section Path

variable {Q A M W : Type} {env : Env W Q A M} {table : W → MountTable} {change : Q → A → Option Change}
  {moved : M → Option Change} {tr : Trail Q A M W} {w w' : W}

/-- The table after the answered requests. -/
def replay (change : Q → A → Option Change) (h : History Q A) (t : MountTable) : MountTable :=
  h.foldl (fun t qa => applied (change qa.1 qa.2) t) t

@[simp] theorem replay_nil : replay change ([] : History Q A) t = t := rfl

@[simp] theorem replay_cons {q : Q} {a : A} {h : History Q A} :
    replay change ((q, a) :: h) t = replay change h (applied (change q a) t) := rfl

/-- The moves of a trail keep away from a directory. -/
def KeepAway (moved : M → Option Change) (target : List Str) (tr : Trail Q A M W) : Prop :=
  ∀ m ∈ movesOf tr, ∀ c, moved m = some c → c.target ≠ target

theorem mountsAt_path
    (hrespond : ∀ w q a w', env.respond w q a w' → table w' = applied (change q a) (table w))
    (hmove : ∀ w m w', env.move w m w' → table w' = applied (moved m) (table w))
    (hp : env.Path w tr w') (hquiet : KeepAway moved target tr) :
    mountsAt target (table w') = mountsAt target (replay change (answered tr) (table w)) := by
  suffices hgen : ∀ t, mountsAt target (table w) = mountsAt target t →
      mountsAt target (table w') = mountsAt target (replay change (answered tr) t) from hgen _ rfl
  induction tr generalizing w with
  | nil =>
    intro t ht
    rw [← show w = w' from hp]
    exact ht
  | cons step tr ih =>
    obtain ⟨e, w₁⟩ := step
    obtain ⟨hstep, hrest⟩ := hp
    intro t ht
    cases e with
    | request q a =>
      rw [answered_request, replay_cons]
      refine ih hrest hquiet _ ?_
      rw [hrespond _ _ _ _ hstep]
      cases change q a with
      | none => exact ht
      | some c => exact mountsAt_apply_congr ht
    | move m =>
      refine ih hrest (fun m' hm' => hquiet m' (List.mem_cons_of_mem _ hm')) t ?_
      rw [hmove _ _ _ hstep]
      cases hm : moved m with
      | none => exact ht
      | some c => exact (mountsAt_apply_of_ne (hquiet m List.mem_cons_self c hm)).trans ht

/-- Requests that do not change the table. -/
theorem replay_of_none {h : History Q A} (hnone : ∀ qa ∈ h, change qa.1 qa.2 = none) :
    replay change h t = t := by
  induction h with
  | nil => rfl
  | cons qa h ih =>
    obtain ⟨q, a⟩ := qa
    rw [replay_cons, hnone (q, a) List.mem_cons_self]
    exact ih fun qa hqa => hnone qa (List.mem_cons_of_mem _ hqa)

/-- A program runs against answers of one kind while the others do nothing. -/
theorem exists_undisturbed {ε α : Type} {step : W → Q → A × W}
    (hstep : ∀ w q, env.respond w q (step w q).1 (step w q).2) (p : Prog Q A ε α) (w : W) :
    ∃ X : Execution env p, X.before = w ∧ movesOf X.trail = [] ∧
      ∀ qa ∈ answered X.trail, ∃ u, qa.2 = (step u qa.1).1 := by
  have hrun : ∃ (tr : Trail Q A M W) (w' : W) (o : Except ε α), env.Path w tr w' ∧ Drives p tr o ∧
      movesOf tr = [] ∧ ∀ qa ∈ answered tr, ∃ u, qa.2 = (step u qa.1).1 := by
    induction p generalizing w with
    | ret value => exact ⟨[], w, .ok value, rfl, ⟨rfl, rfl⟩, rfl, by simp⟩
    | raise error => exact ⟨[], w, .error error, rfl, ⟨rfl, rfl⟩, rfl, by simp⟩
    | ask request next ih =>
      obtain ⟨tr, w', o, hpath, hdrives, hmoves, hanswers⟩ := ih (step w request).1 (step w request).2
      refine ⟨(.request request (step w request).1, (step w request).2) :: tr, w', o,
        ⟨hstep w request, hpath⟩, ⟨rfl, hdrives⟩, hmoves, ?_⟩
      rw [answered_request]
      exact List.forall_mem_cons.mpr ⟨⟨w, rfl⟩, hanswers⟩
  obtain ⟨tr, w', o, hpath, hdrives, hmoves, hanswers⟩ := hrun
  exact ⟨⟨w, tr, w', o, hpath, hdrives⟩, rfl, hmoves, hanswers⟩

end Path

/-! ## A directory right below another one -/

/-- One more name on a path. -/
theorem resolve_child {dir name : Str} (hslash : '/' ∉ name) (hne : name ≠ []) (hdot : name ≠ ".")
    (hdots : name ≠ "..") : resolve (dir ++ '/' :: name) = resolve dir ++ [name] := by
  rw [resolve_slash, splitOn_of_not_mem hslash, walk_cons, walk_nil, enter,
    if_neg (not_or.mpr ⟨hne, hdot⟩), if_neg hdots]

end Mounts
