import PveZfsTool.Migrate.CutoverRun

/-!
# Where a cutover may start the guest

The start on the target is safe only in a state in which the source guest is
down and kept from starting.  `cutover_async` stops the guest, transfers its
disks, writes the config and locks the source, in this order, and the
operator may start the guest on the source at any moment in between.

`cutover_safe_iff` says exactly which interleavings are safe: the status
answer that ended the stop is positive, no start on the source goes through
after it, and the source is locked after the lock script.  `cutover_blind`
is a run in which every answer fails and the guest ends up running on both
hosts.
-/

namespace PveZfsTool

open Dialogue Text

/-- The source answered positively that it is down, and it is down and
locked.  `tr` is the trail so far. -/
def MayStart (source : Host) (q : CutoverRequest) (w : Guests) (tr : GuestTrail) : Prop :=
  ConfirmedStopped (sourceStatus source q) (answered tr) ∧
    (stateAfter w tr source).running = false ∧ (stateAfter w tr source).locked = true

/-- The guest is started on the target only where it may be, and it never
runs on both hosts. -/
def CutoverSafe (source target : Host) (q : CutoverRequest) (w : Guests) (tr : GuestTrail) :
    Prop :=
  (∀ t₁ r a u t₂, tr = t₁ ++ (.request r a, u) :: t₂ → r.host = target → r.cmd.starts = true →
    MayStart source q w t₁) ∧
  ∀ e u, (e, u) ∈ tr → ¬ ((u source).running = true ∧ (u target).running = true)

/-- The status answers of the source that let the cutover go on are
positive, the source is locked after the lock script, and the starts of the
operator after such an answer are refused. -/
structure StartCondition (source : Host) (q : CutoverRequest) (tr : GuestTrail) : Prop where
  confirmed : ∀ s v, (.request (sourceStatus source q) s, v) ∈ tr → saysRunning s = false →
    confirmsStopped s = true
  locked : ∀ b v, (.request (lockRequest source q) b, v) ∈ tr → (v source).locked = true
  refused : ∀ k₁ s v k₂ m v' k₃,
    tr = k₁ ++ (.request (sourceStatus source q) s, v) :: (k₂ ++ (.move m, v') :: k₃) →
    saysRunning s = false → (stateAfter v k₂ source).startable = false

/-- The condition holds before each start on the target. -/
def CutoverCondition (source target : Host) (q : CutoverRequest) (tr : GuestTrail) : Prop :=
  ∀ t₁ r a u t₂, tr = t₁ ++ (.request r a, u) :: t₂ → r.host = target → r.cmd.starts = true →
    StartCondition source q t₁

/-! ## The trail up to the start -/

/-- The trail up to the start on the target. -/
structure LockedTrail (source target : Host) (q : CutoverRequest) (tr : GuestTrail) where
  before : GuestTrail
  answer : Answer
  atAnswer : Guests
  moving : GuestTrail
  lock : Answer
  atLock : Guests
  waiting : GuestTrail
  eq : tr = before ++ (.request (sourceStatus source q) answer, atAnswer) ::
    (moving ++ (.request (lockRequest source q) lock, atLock) :: waiting)
  notRunning : saysRunning answer = false
  before_running : ∀ a u, (.request (sourceStatus source q) a, u) ∈ before → saysRunning a = true
  before_quiet : ∀ r a u, (.request r a, u) ∈ before → r.cmd.starts = false ∧ r.cmd.locks = false
  moving_quiet : ∀ r a u, (.request r a, u) ∈ moving → movesData r ∨ writesConfig target r
  waiting_moves : answered waiting = []

theorem LockedLog.exists_trail {source target : Host} {q : CutoverRequest} {tr : GuestTrail}
    (l : LockedLog source target q (answered tr)) : Nonempty (LockedTrail source target q tr) := by
  obtain ⟨before, answer, moving, lock, heq, hnot, hbefore, hquiet, hmoving⟩ := l
  obtain ⟨t₁, u, t₂, rfl, rfl, h₂⟩ := exists_split heq
  obtain ⟨t₂, u', t₃, rfl, rfl, h₃⟩ := exists_split h₂
  refine ⟨⟨t₁, answer, u, t₂, lock, u', t₃, rfl, hnot, ?_, ?_, ?_, h₃⟩⟩
  · exact fun a v hmem => hbefore a (mem_answered.mpr ⟨v, hmem⟩)
  · exact fun r a v hmem => hquiet (r, a) (mem_answered.mpr ⟨v, hmem⟩)
  · exact fun r a v hmem => hmoving (r, a) (mem_answered.mpr ⟨v, hmem⟩)

/-- The log up to the start holds no start. -/
theorem LockedLog.startsNothing {source target : Host} {q : CutoverRequest} {log : Log}
    (l : LockedLog source target q log) : StartsNothing log := by
  obtain ⟨before, answer, moving, lock, rfl, -, -, hquiet, hmoving⟩ := l
  intro entry hmem
  simp only [List.mem_append, List.mem_cons, List.not_mem_nil, or_false] at hmem
  rcases hmem with hmem | rfl | hmem | rfl
  · exact (hquiet entry hmem).1
  · rfl
  · rcases hmoving entry hmem with hdata | ⟨-, hconf⟩
    · exact (movesData_quiet hdata).1
    · exact confRequest_starts hconf
  · rfl

/-- A start on a trail of the cutover stands after a stop and a lock, and it
is the last request. -/
theorem exists_lockedTrail {source target : Host} {q : CutoverRequest} {t₁ t₂ : GuestTrail}
    {r : Request} {a : Answer} {u : Guests}
    (h : Interleaves (cutoverJob source target q) (t₁ ++ (.request r a, u) :: t₂))
    (hr : r.cmd.starts = true) :
    r = startRequest target q ∧ Nonempty (LockedTrail source target q t₁) ∧
      StartsNothing (answered t₁) ∧ answered t₂ = [] := by
  obtain ⟨rest, o, hrun⟩ := h
  have hlog : answered (t₁ ++ (.request r a, u) :: t₂) ++ rest =
      answered t₁ ++ (r, a) :: (answered t₂ ++ rest) := by simp
  rw [hlog] at hrun
  rcases run_cutoverJob hrun with hnone | ⟨pre, b, heq, ⟨l⟩⟩
  · have hstart := hnone (r, a) (by simp)
    rw [hr] at hstart
    cases hstart
  · have hpre := l.startsNothing
    obtain ⟨rfl, hentry, hafter⟩ := split_unique (P := fun entry => entry.1.cmd.starts = true)
      heq.symm (fun entry hmem => by simp [hpre entry hmem]) (by simp) hr
    simp only [Prod.mk.injEq] at hentry
    exact ⟨hentry.1.symm, l.exists_trail, hpre, (List.append_eq_nil_iff.mp hafter.symm).1⟩

namespace LockedTrail

variable {source target : Host} {q : CutoverRequest} {tr : GuestTrail} {w w' : Guests}

/-- The trail after the status answer. -/
def rest (c : LockedTrail source target q tr) : GuestTrail :=
  c.moving ++ (.request (lockRequest source q) c.lock, c.atLock) :: c.waiting

theorem eq_rest (c : LockedTrail source target q tr) :
    tr = c.before ++ (.request (sourceStatus source q) c.answer, c.atAnswer) :: c.rest :=
  c.eq

theorem mem_iff (c : LockedTrail source target q tr)
    {step : Event Request Answer OperatorMove × Guests} :
    step ∈ tr ↔ step ∈ c.before ++
      (.request (sourceStatus source q) c.answer, c.atAnswer) :: c.rest := by
  conv_lhs => rw [c.eq_rest]

/-- What can stand after the status answer. -/
theorem mem_rest (c : LockedTrail source target q tr) {e : Event Request Answer OperatorMove}
    {u : Guests} (h : (e, u) ∈ c.rest) :
    (∃ m, e = .move m) ∨ (e = .request (lockRequest source q) c.lock ∧ u = c.atLock) ∨
      ∃ r a, e = .request r a ∧ (movesData r ∨ writesConfig target r) := by
  simp only [rest, List.mem_append, List.mem_cons, Prod.mk.injEq] at h
  rcases h with h | ⟨rfl, rfl⟩ | h
  · cases e with
    | move m => exact Or.inl ⟨m, rfl⟩
    | request r a => exact Or.inr (Or.inr ⟨r, a, rfl, c.moving_quiet r a u h⟩)
  · exact Or.inr (Or.inl ⟨rfl, rfl⟩)
  · exact Or.inl (move_of_answered_eq_nil c.waiting_moves h)

/-- Only one status answer lets the cutover go on. -/
theorem answer_split (c : LockedTrail source target q tr) {k₁ k₂ : GuestTrail} {s : Answer}
    {v : Guests} (h : tr = k₁ ++ (.request (sourceStatus source q) s, v) :: k₂)
    (hs : saysRunning s = false) :
    k₁ = c.before ∧ s = c.answer ∧ v = c.atAnswer ∧ k₂ = c.rest := by
  have hbefore : ∀ step ∈ c.before, ¬ ∃ a, step.1 = .request (sourceStatus source q) a ∧
      saysRunning a = false := by
    intro step hmem hans
    obtain ⟨e, u⟩ := step
    obtain ⟨a, rfl, ha⟩ := hans
    rw [c.before_running a u hmem] at ha
    cases ha
  have hrest : ∀ step ∈ c.rest, ¬ ∃ a, step.1 = .request (sourceStatus source q) a ∧
      saysRunning a = false := by
    intro step hmem hans
    obtain ⟨e, u⟩ := step
    obtain ⟨a, rfl, -⟩ := hans
    rcases c.mem_rest hmem with ⟨m, hm⟩ | ⟨hlock, -⟩ | ⟨r, b, heq, hr⟩
    · cases hm
    · simp [sourceStatus, statusRequest, lockRequest] at hlock
    · simp only [Event.request.injEq] at heq
      rw [← heq.1] at hr
      simp [sourceStatus, statusRequest, movesData, writesConfig] at hr
  obtain ⟨hfront, hstep, hafter⟩ :=
    split_unique (c.eq_rest.symm.trans h) hbefore hrest ⟨s, rfl, hs⟩
  simp only [Prod.mk.injEq, Event.request.injEq, true_and] at hstep
  exact ⟨hfront.symm, hstep.1.symm, hstep.2.symm, hafter.symm⟩

/-- The lock script stands once on the trail. -/
theorem lock_unique (c : LockedTrail source target q tr) {b : Answer} {v : Guests}
    (h : (.request (lockRequest source q) b, v) ∈ tr) : v = c.atLock := by
  rcases List.mem_append.mp (c.mem_iff.mp h) with h | h
  · have hquiet := (c.before_quiet _ _ _ h).2
    simp [lockRequest, Cmd.locks] at hquiet
  · rcases List.mem_cons.mp h with heq | h
    · simp [sourceStatus, statusRequest, lockRequest] at heq
    · rcases c.mem_rest h with ⟨m, hm⟩ | ⟨-, rfl⟩ | ⟨r, a, heq, hr⟩
      · cases hm
      · rfl
      · simp only [Event.request.injEq] at heq
        rw [← heq.1] at hr
        simp [lockRequest, movesData, writesConfig] at hr

/-- After the status answer the source guest is changed by the operator
only, apart from its lock. -/
theorem source_step (c : LockedTrail source target q tr) (hne : source ≠ target)
    {e : Event Request Answer OperatorMove} {u₀ u : Guests} (hmem : (e, u) ∈ c.rest)
    (hstep : (guestEnv source).Step u₀ e u) :
    (∃ m, e = .move m) ∧ u source = (u₀ source).start ∨
      (u source).running = (u₀ source).running := by
  rcases c.mem_rest hmem with ⟨m, rfl⟩ | ⟨rfl, -⟩ | ⟨r, a, rfl, hr⟩
  · exact Or.inl ⟨⟨m, rfl⟩, guestEnv_move hstep⟩
  · have hguest : u source = { u₀ source with locked := (u source).locked } := hstep.2.1
    have hrunning : (u source).running = (u₀ source).running := by rw [hguest]
    exact Or.inr hrunning
  · refine Or.inr ?_
    by_cases hhost : source = r.host
    · obtain ⟨-, hguest⟩ := hstep
      rcases hr with hdata | ⟨htarget, -⟩
      · rw [hhost, Guest.step_eq_self (movesData_quiet hdata).2 hguest]
      · exact absurd (hhost.trans htarget) hne
    · rw [guestEnv_other hstep hhost]

/-- The path of the environment after the status answer. -/
theorem path_rest (c : LockedTrail source target q tr)
    (hpath : (guestEnv source).Path w tr w') :
    (guestEnv source).Path c.atAnswer c.rest w' := by
  rw [c.eq_rest] at hpath
  exact hpath.cut.2.2

theorem stateAfter_eq (c : LockedTrail source target q tr) :
    stateAfter w tr = stateAfter c.atAnswer c.rest := by
  conv_lhs => rw [c.eq_rest]
  simp

/-- Nobody changes the lock while the cutover waits to start the guest. -/
theorem locked_eq (c : LockedTrail source target q tr)
    (hpath : (guestEnv source).Path w tr w') :
    (stateAfter w tr source).locked = (c.atLock source).locked := by
  have hrest : (guestEnv source).Path c.atLock c.waiting w' := (c.path_rest hpath).cut.2.2
  have hall := hrest.preserves (I := fun v => (v source).locked = (c.atLock source).locked) rfl ?_
  · rw [← hpath.end_eq]
    exact hall.2
  · intro e u hmem u₀ hu₀ hstep
    obtain ⟨m, rfl⟩ := move_of_answered_eq_nil c.waiting_moves hmem
    rw [guestEnv_move hstep, Guest.start_locked, hu₀]

/-- Refused starts leave a stopped source stopped. -/
theorem stopped_rest (c : LockedTrail source target q tr) (hne : source ≠ target)
    (hpath : (guestEnv source).Path w tr w') (hstopped : (c.atAnswer source).running = false)
    (hmoves : ∀ k₂ m v' k₃, c.rest = k₂ ++ (.move m, v') :: k₃ →
      (stateAfter c.atAnswer k₂ source).startable = false) :
    (stateAfter w tr source).running = false := by
  have hall := (c.path_rest hpath).invariant (I := fun v => (v source).running = false)
    hstopped ?_
  · rw [c.stateAfter_eq]
    exact hall c.rest [] (by simp)
  · intro l₁ e u l₂ heq hl₁ hstep
    rcases c.source_step hne (by simp [heq]) hstep with ⟨⟨m, rfl⟩, hstart⟩ | hsame
    · rw [hstart, Guest.start_eq_self (hmoves l₁ m u l₂ heq), hl₁]
    · rw [hsame, hl₁]

/-- A start that went through leaves the source running. -/
theorem running_rest (c : LockedTrail source target q tr) (hne : source ≠ target)
    (hpath : (guestEnv source).Path w tr w') {k₂ k₃ : GuestTrail} {m : OperatorMove} {v : Guests}
    (heq : c.rest = k₂ ++ (.move m, v) :: k₃)
    (hstart : (stateAfter c.atAnswer k₂ source).startable = true) :
    (stateAfter w tr source).running = true := by
  have hrest := c.path_rest hpath
  rw [heq] at hrest
  obtain ⟨-, hmove, htail⟩ := hrest.cut
  have hrunning : (v source).running = true := by
    rw [guestEnv_move hmove, Guest.start_running, hstart, Bool.true_or]
  have hall := htail.preserves (I := fun v => (v source).running = true) hrunning ?_
  · rw [← hpath.end_eq]
    exact hall.2
  · intro e u hmem u₀ hu₀ hstep
    have hmem' : (e, u) ∈ c.rest := by
      rw [heq]
      exact List.mem_append_right _ (List.mem_cons_of_mem _ hmem)
    rcases c.source_step hne hmem' hstep with ⟨-, hstart⟩ | hsame
    · rw [hstart, Guest.start_running, hu₀, Bool.or_true]
    · rw [hsame, hu₀]

end LockedTrail

/-! ## The target guest -/

/-- Without a start the target guest does not begin to run. -/
theorem target_stopped {source target : Host} {w w' : Guests} {tr : GuestTrail}
    (hne : source ≠ target) (hpath : (guestEnv source).Path w tr w')
    (hnone : StartsNothing (answered tr)) (hw : (w target).running = false) :
    (∀ e u, (e, u) ∈ tr → (u target).running = false) ∧ (w' target).running = false := by
  refine hpath.preserves (I := fun v => (v target).running = false) hw ?_
  intro e u hmem u₀ hu₀ hstep
  cases e with
  | move m =>
    have hu : u = Function.update u₀ source (u₀ source).start := hstep
    rw [hu, Function.update_of_ne hne.symm, hu₀]
  | request r a =>
    by_cases hhost : target = r.host
    · have hquiet : r.cmd.starts = false := hnone (r, a) (mem_answered.mpr ⟨u, hmem⟩)
      subst hhost
      exact Guest.step_not_running hquiet hu₀ hstep.2
    · rw [guestEnv_other hstep hhost, hu₀]

/-- After a start with the source down and locked, the source stays down. -/
theorem source_stays {source target : Host} {w u w' : Guests} {r : Request} {a : Answer}
    {t₂ : GuestTrail} (hne : source ≠ target) (hr : r.host = target)
    (hstep : (guestEnv source).Step w (.request r a) u)
    (hpath : (guestEnv source).Path u t₂ w') (hmoves : answered t₂ = [])
    (hstopped : (w source).running = false) (hlocked : (w source).locked = true) :
    (u source).running = false ∧ ∀ e v, (e, v) ∈ t₂ → (v source).running = false := by
  have hu : u source = w source := guestEnv_other hstep (hr ▸ hne)
  have hall := hpath.preserves
    (I := fun v => (v source).running = false ∧ (v source).locked = true)
    (by rw [hu]; exact ⟨hstopped, hlocked⟩) ?_
  · rw [hu]
    exact ⟨hstopped, fun e v hmem => (hall.1 e v hmem).1⟩
  · intro e v hmem u₀ hu₀ hmove
    obtain ⟨m, rfl⟩ := move_of_answered_eq_nil hmoves hmem
    rw [guestEnv_move hmove, Guest.start_eq_self (by simp [Guest.startable, hu₀.2])]
    exact hu₀

/-- Where every start on the target finds the source down and locked, the
guest never runs on both hosts. -/
theorem never_both {source target : Host} {q : CutoverRequest} {w w' : Guests}
    {tr : GuestTrail} (hne : source ≠ target) (hpath : (guestEnv source).Path w tr w')
    (hrun : Interleaves (cutoverJob source target q) tr) (hw : (w target).running = false)
    (hstart : ∀ t₁ r a u t₂, tr = t₁ ++ (.request r a, u) :: t₂ → r.host = target →
      r.cmd.starts = true →
      (stateAfter w t₁ source).running = false ∧ (stateAfter w t₁ source).locked = true) :
    ∀ e u, (e, u) ∈ tr → ¬ ((u source).running = true ∧ (u target).running = true) := by
  by_cases hnone : StartsNothing (answered tr)
  · intro e u hmem hboth
    have hdown := (target_stopped hne hpath hnone hw).1 e u hmem
    rw [hboth.2] at hdown
    cases hdown
  · -- cut the trail at its one start
    simp only [StartsNothing, not_forall] at hnone
    obtain ⟨⟨r, a⟩, hmem, hr⟩ := hnone
    obtain ⟨u, hmem⟩ := mem_answered.mp hmem
    obtain ⟨t₁, t₂, rfl⟩ := List.append_of_mem hmem
    obtain ⟨rfl, -, hquiet, hmoves⟩ := exists_lockedTrail hrun (by simpa using hr)
    obtain ⟨hstopped, hlocked⟩ := hstart t₁ _ a u t₂ rfl rfl rfl
    obtain ⟨hfront, hstep, hback⟩ := hpath.cut
    have hbefore := (target_stopped hne hfront hquiet hw).1
    obtain ⟨hat, hafter⟩ := source_stays hne rfl hstep hback hmoves hstopped hlocked
    intro e v hmem hboth
    rcases List.mem_append.mp hmem with hmem | hmem
    · have hdown := hbefore e v hmem
      rw [hboth.2] at hdown
      cases hdown
    · have hdown : (v source).running = false := by
        rcases List.mem_cons.mp hmem with heq | hmem
        · simp only [Prod.mk.injEq] at heq
          rw [heq.2]
          exact hat
        · exact hafter e v hmem
      rw [hboth.1] at hdown
      cases hdown

/-! ## The cutover -/

/-- What the condition says about the trail up to one start. -/
theorem mayStart_iff {source target : Host} {q : CutoverRequest} {w w' : Guests}
    {t₁ : GuestTrail} (hne : source ≠ target) (c : LockedTrail source target q t₁)
    (hpath : (guestEnv source).Path w t₁ w') :
    MayStart source q w t₁ ↔ StartCondition source q t₁ := by
  constructor
  · rintro ⟨⟨⟨r, s₀⟩, hmem, rfl, hconf⟩, hstopped, hlocked⟩
    have hs₀ : saysRunning s₀ = false := by
      simp only [confirmsStopped, Bool.and_eq_true, Bool.not_eq_true'] at hconf
      exact hconf.2
    obtain ⟨v₀, hmem⟩ := mem_answered.mp hmem
    obtain ⟨k₁, k₂, heq⟩ := List.append_of_mem hmem
    obtain ⟨-, rfl, -, -⟩ := c.answer_split heq hs₀
    refine ⟨?_, ?_, ?_⟩
    · intro s v hmem hs
      obtain ⟨k₁, k₂, heq⟩ := List.append_of_mem hmem
      obtain ⟨-, rfl, -, -⟩ := c.answer_split heq hs
      exact hconf
    · intro b v hmem
      rw [c.lock_unique hmem, ← c.locked_eq hpath, hlocked]
    · intro k₁ s v k₂ m v' k₃ heq hs
      obtain ⟨-, -, rfl, hrest⟩ := c.answer_split heq hs
      by_contra hstart
      have hrunning := c.running_rest hne hpath hrest.symm (by simpa using hstart)
      rw [hstopped] at hrunning
      cases hrunning
  · rintro ⟨hconf, hlock, hmoves⟩
    have hmem : (.request (sourceStatus source q) c.answer, c.atAnswer) ∈ t₁ :=
      c.mem_iff.mpr (by simp)
    have hpos := hconf c.answer c.atAnswer hmem c.notRunning
    refine ⟨⟨_, mem_answered.mpr ⟨_, hmem⟩, rfl, hpos⟩, ?_, ?_⟩
    · refine c.stopped_rest hne hpath ?_ ?_
      · -- a positive answer is true
        rw [c.eq_rest] at hpath
        obtain ⟨hsame, htrue⟩ := hpath.cut.2.1.2
        have hat : (c.atAnswer source) = _ := hsame
        rw [hat]
        exact htrue hpos
      · intro k₂ m v' k₃ hrest
        refine hmoves c.before c.answer c.atAnswer k₂ m v' k₃ ?_ c.notRunning
        rw [← hrest]
        exact c.eq_rest
    · rw [c.locked_eq hpath]
      refine hlock c.lock c.atLock (c.mem_iff.mpr ?_)
      simp [LockedTrail.rest]

/-- In every interleaving of the cutover with the operator, the guest is
started on the target only after a positive status answer and with the source
down and locked, and never runs on both hosts, if and only if before each
start on the target the status answers are positive, the lock took, and the
operator's starts were refused. -/
theorem cutover_safe_iff {source target : Host} {q : CutoverRequest} {w w' : Guests}
    {tr : GuestTrail} (hne : source ≠ target) (hpath : (guestEnv source).Path w tr w')
    (hrun : Interleaves (cutoverJob source target q) tr) (hw : (w target).running = false) :
    CutoverSafe source target q w tr ↔ CutoverCondition source target q tr := by
  constructor
  · rintro ⟨hsafe, -⟩ t₁ r a u t₂ rfl hr hstarts
    obtain ⟨-, ⟨c⟩, -, -⟩ := exists_lockedTrail hrun hstarts
    exact (mayStart_iff hne c hpath.cut.1).mp (hsafe t₁ r a u t₂ rfl hr hstarts)
  · intro hcond
    have hstart : ∀ t₁ r a u t₂, tr = t₁ ++ (.request r a, u) :: t₂ → r.host = target →
        r.cmd.starts = true → MayStart source q w t₁ := by
      rintro t₁ r a u t₂ rfl hr hstarts
      obtain ⟨-, ⟨c⟩, -, -⟩ := exists_lockedTrail hrun hstarts
      exact (mayStart_iff hne c hpath.cut.1).mpr (hcond t₁ r a u t₂ rfl hr hstarts)
    refine ⟨hstart, never_both hne hpath hrun hw ?_⟩
    exact fun t₁ r a u t₂ heq hr hstarts => (hstart t₁ r a u t₂ heq hr hstarts).2

/-! ## Two cutovers -/

/-- A cutover in which the guest is stopped and locked. -/
def cutoverStopped : GuestTrail :=
  withStates (cutoverLog configOne (prints "status: stopped\n") (prints "__OK__\n"))
    [guestsOn ⟨true, true, false⟩ .gone, guestsOn ⟨true, true, false⟩ .gone,
      guestsOn ⟨true, false, false⟩ .gone, guestsOn ⟨true, false, false⟩ .gone,
      guestsOn ⟨true, false, false⟩ .gone, guestsOn ⟨true, false, false⟩ .gone,
      guestsOn ⟨true, false, false⟩ .gone, guestsOn ⟨true, false, false⟩ ⟨true, false, false⟩,
      guestsOn ⟨true, false, true⟩ ⟨true, false, false⟩,
      guestsOn ⟨true, false, true⟩ ⟨true, true, false⟩]

theorem cutover_safe_stopped :
    CutoverSafe hostA hostB cutoverOne (guestsOn ⟨true, true, false⟩ .gone) cutoverStopped := by
  have hrun : ∃ o, (cutoverJob hostA hostB cutoverOne).Run
      (cutoverLog configOne (prints "status: stopped\n") (prints "__OK__\n")) o :=
    Prog.exists_run_of_transcript
      ((cutoverLog configOne (prints "status: stopped\n") (prints "__OK__\n")).map Prod.snd)
      (by decide)
  obtain ⟨o, hrun⟩ := hrun
  have hpath : (guestEnv hostA).Path (guestsOn ⟨true, true, false⟩ .gone) cutoverStopped
      (guestsOn ⟨true, false, true⟩ ⟨true, true, false⟩) := by
    refine ⟨⟨fun _ _ => rfl, rfl⟩, ⟨fun _ _ => rfl, rfl⟩,
      ⟨fun _ hne => guestsOn_of_ne_hostA hne, Or.inr rfl⟩, ⟨fun _ _ => rfl, rfl, fun _ => rfl⟩,
      ⟨fun _ _ => rfl, rfl⟩, ⟨fun _ _ => rfl, rfl⟩, ⟨fun _ _ => rfl, rfl⟩,
      ⟨fun _ hne => guestsOn_of_ne_hostB hne, Or.inr ?_⟩,
      ⟨fun _ hne => guestsOn_of_ne_hostA hne, rfl, fun _ => rfl⟩,
      ⟨fun _ hne => guestsOn_of_ne_hostB hne, Or.inr ?_⟩, rfl⟩
    all_goals decide
  have hinter : Interleaves (cutoverJob hostA hostB cutoverOne) cutoverStopped :=
    ⟨[], o, (List.append_nil _).symm ▸ hrun⟩
  refine (cutover_safe_iff (by decide) hpath hinter rfl).mpr ?_
  intro t₁ r a u t₂ heq _ _
  have hmem : ∀ step ∈ t₁, step ∈ cutoverStopped := by
    intro step hmem
    rw [heq]
    exact List.mem_append_left _ hmem
  refine ⟨?_, ?_, ?_⟩
  · intro s v hs _
    have hs := hmem _ hs
    simp [cutoverStopped, withStates, cutoverLog, sourceStatus, statusRequest, lockRequest,
      startRequest] at hs
    rw [hs.1]
    decide
  · intro b v hv
    have hv := hmem _ hv
    simp [cutoverStopped, withStates, cutoverLog, sourceStatus, statusRequest, lockRequest,
      startRequest] at hv
    rw [hv.2]
    decide
  · intro k₁ s v k₂ m v' k₃ hk _
    have hv := hmem (.move m, v') (by rw [hk]; simp)
    simp [cutoverStopped, withStates, cutoverLog] at hv

/-- A cutover in which the status command and the lock script fail. -/
def cutoverBlind : GuestTrail :=
  withStates (cutoverLog configOne noAnswer noAnswer)
    [guestsOn ⟨true, true, false⟩ .gone, guestsOn ⟨true, true, false⟩ .gone,
      guestsOn ⟨true, true, false⟩ .gone, guestsOn ⟨true, true, false⟩ .gone,
      guestsOn ⟨true, true, false⟩ .gone, guestsOn ⟨true, true, false⟩ .gone,
      guestsOn ⟨true, true, false⟩ .gone, guestsOn ⟨true, true, false⟩ ⟨true, false, false⟩,
      guestsOn ⟨true, true, false⟩ ⟨true, false, false⟩,
      guestsOn ⟨true, true, false⟩ ⟨true, true, false⟩]

/-- The guest ends up running on both hosts. -/
theorem cutover_blind :
    ∃ w tr w' o, (guestEnv hostA).Path w tr w' ∧ (w hostB).running = false ∧
      Drives (cutoverJob hostA hostB cutoverOne) tr o ∧
      ¬ CutoverSafe hostA hostB cutoverOne w tr := by
  have hrun : ∃ o, (cutoverJob hostA hostB cutoverOne).Run (cutoverLog configOne noAnswer noAnswer) o :=
    Prog.exists_run_of_transcript
      ((cutoverLog configOne noAnswer noAnswer).map Prod.snd) (by decide)
  obtain ⟨o, hrun⟩ := hrun
  have hnot : confirmsStopped noAnswer = false := by decide
  have hpath : (guestEnv hostA).Path (guestsOn ⟨true, true, false⟩ .gone) cutoverBlind
      (guestsOn ⟨true, true, false⟩ ⟨true, true, false⟩) := by
    refine ⟨⟨fun _ _ => rfl, rfl⟩, ⟨fun _ _ => rfl, rfl⟩, ⟨fun _ _ => rfl, Or.inl rfl⟩,
      ⟨fun _ _ => rfl, rfl, fun h => ?_⟩, ⟨fun _ _ => rfl, rfl⟩, ⟨fun _ _ => rfl, rfl⟩,
      ⟨fun _ _ => rfl, rfl⟩, ⟨fun _ hne => guestsOn_of_ne_hostB hne, Or.inr ?_⟩,
      ⟨fun _ _ => rfl, rfl, fun h => ?_⟩, ⟨fun _ hne => guestsOn_of_ne_hostB hne, Or.inr ?_⟩, rfl⟩
    · rw [hnot] at h
      cases h
    · decide
    · have : saysOk noAnswer = false := by decide
      rw [this] at h
      cases h
    · decide
  refine ⟨_, cutoverBlind, _, o, hpath, rfl, hrun, fun hsafe => ?_⟩
  refine hsafe.2 (.request (startRequest hostB cutoverOne) (prints []))
    (guestsOn ⟨true, true, false⟩ ⟨true, true, false⟩) ?_ (by decide)
  simp [cutoverBlind, withStates, cutoverLog]

end PveZfsTool
