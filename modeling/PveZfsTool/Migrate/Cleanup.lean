import PveZfsTool.Migrate.Rollback

/-!
# What a cleanup of the source may destroy

`cleanup_source` removes the migrated guest and its datasets.  It refuses
while a status answer says that the guest runs, and clears the guest's lock
before the destruction.

A run is safe when each destruction follows a positive status answer, and
the guest could not be started in any state from that answer on.
`cleanup_safe_iff` says exactly when that is so: the answer is positive, the
guest is locked at that answer, and the script that clears the lock does not
free it.  `cleanup_unsafe` is a run that destroys a guest after a failed
status answer.
-/

namespace PveZfsTool

open Dialogue Text

/-- The request destroys the guest or a dataset of the source. -/
def destroysSource (source : Host) (q : Request) : Bool :=
  q.host = source && match q.cmd with
    | .guestDestroy _ _ => true
    | .zfsDestroyTree _ => true
    | _ => false

/-- Each destruction follows a positive status answer, and the guest cannot
be started in any state from that answer on. -/
def CleanupSafe (source : Host) (status : Request) (tr : GuestTrail) : Prop :=
  ∀ t₁ q a w t₂, tr = t₁ ++ (.request q a, w) :: t₂ → destroysSource source q = true →
    ∃ u₁ s w₁ u₂, t₁ = u₁ ++ (.request status s, w₁) :: u₂ ∧ confirmsStopped s = true ∧
      (w₁ source).startable = false ∧ ∀ step ∈ u₂, (step.2 source).startable = false

/-- The status answer that lets the cleanup go on is positive, the guest
cannot be started at that answer, and it cannot be started after the script
that clears its lock. -/
def CleanupCondition (source : Host) (status : Request) (tr : GuestTrail) : Prop :=
  (∀ s w, (.request status s, w) ∈ tr → saysRunning s = false →
    confirmsStopped s = true ∧ (w source).startable = false) ∧
  ∀ path b w, (.request ⟨source, .setLock path none⟩ b, w) ∈ tr → (w source).startable = false

/-- The dataset loop only lists and destroys datasets. -/
theorem uses_destroyDatasets (source : Host) (datasets : List Str) :
    (destroyDatasets source datasets).Uses (fun q =>
      (∃ ds, q = ⟨source, .zfsListName ds⟩) ∨ ∃ ds, q = ⟨source, .zfsDestroyTree ds⟩) := by
  induction datasets with
  | nil => simp [destroyDatasets]
  | cons ds rest ih =>
    refine Prog.Uses.bind ?_ (fun here => ih.bind (fun _ => trivial))
    simp only [destroyDataset, datasetExists, runCommand, Prog.issue_bind, Prog.ask_bind,
      Prog.ret_bind, Prog.pure_eq, Prog.uses_ask]
    refine ⟨Or.inl ⟨ds, rfl⟩, fun a => ?_⟩
    split
    · exact ⟨Or.inr ⟨ds, rfl⟩, fun _ => trivial⟩
    · trivial

/-- The requests of a cleanup that is not refused. -/
theorem run_cleanupSource {source : Host} {vmid gtype v : Str} {datasets : List Str}
    {log : Log} {o : Except Exn (Except Str CleanupResult)}
    (hv : validateVmid vmid = .ok v) (hds : validateDatasets datasets = .ok ())
    (h : (cleanupSource source vmid gtype datasets).Run log o) :
    ∃ s, (log = [(statusRequest source v gtype, s)] ∧ saysRunning s = true) ∨
      ∃ b c rest, saysRunning s = false ∧
        log = (statusRequest source v gtype, s) ::
          (⟨source, .setLock (confPath (Tool.ofGtype gtype) v) none⟩, b) ::
          (⟨source, .guestDestroy (Tool.ofGtype gtype) v⟩, c) :: rest ∧
        ∀ entry ∈ rest, (∃ ds, entry.1 = ⟨source, .zfsListName ds⟩) ∨
          ∃ ds, entry.1 = ⟨source, .zfsDestroyTree ds⟩ := by
  simp only [cleanupSource, hv, hds, guestIsRunning, runCommand, Prog.issue_bind, Prog.ask_bind,
    Prog.ret_bind, Prog.pure_eq, Prog.run_ask] at h
  obtain ⟨s, tr, rfl, h⟩ := h
  refine ⟨s, ?_⟩
  cases hs : saysRunning s with
  | true =>
    simp only [hs, if_true, Prog.run_ret] at h
    exact Or.inl ⟨by rw [h.1]; rfl, rfl⟩
  | false =>
    simp only [hs, Bool.false_eq_true, if_false, cleanupSteps, setGuestLock,
      validateVmid_idem hv, runCommand, Prog.issue_bind, Prog.ask_bind, Prog.ret_bind,
      Prog.pure_eq, Prog.run_ask] at h
    obtain ⟨b, _, rfl, c, rest, rfl, h⟩ := h
    refine Or.inr ⟨b, c, rest, rfl, rfl, ?_⟩
    refine Prog.Uses.sound (((uses_destroyDatasets source datasets).bind ?_).bind ?_) h
    all_goals simp

/-- A step that is neither a status nor a lock command leaves a guest that
cannot be started as it is, as far as the cleanup's commands go. -/
theorem startable_step {source : Host} {w w' : Guests} {e : Event Request Answer OperatorMove}
    (hw : (w source).startable = false) (hstep : (guestEnv source).Step w e w')
    (he : ∀ q a, e = .request q a →
      (∃ tool v, q.cmd = .guestDestroy tool v) ∨ (∃ ds, q.cmd = .zfsListName ds) ∨
        ∃ ds, q.cmd = .zfsDestroyTree ds) :
    (w' source).startable = false := by
  cases e with
  | move m => rw [guestEnv_move hstep, Guest.start_eq_self hw, hw]
  | request q a =>
    by_cases hhost : source = q.host
    · obtain ⟨-, hguest⟩ := hstep
      subst hhost
      rcases he q a rfl with ⟨tool, v, hcmd⟩ | ⟨ds, hcmd⟩ | ⟨ds, hcmd⟩
      · simp only [hcmd, Guest.Step] at hguest
        rcases hguest with hgone | ⟨hsame, -⟩
        · rw [hgone]; rfl
        · rw [hsame, hw]
      · simp only [hcmd, Guest.Step] at hguest
        rw [hguest, hw]
      · simp only [hcmd, Guest.Step] at hguest
        rw [hguest, hw]
    · rw [guestEnv_other hstep hhost, hw]

/-- A trail of a cleanup that goes on: its status answer, the script that
clears the lock and the destruction of the guest, with nothing but moves
between them. -/
structure CleanupTrail (source : Host) (v gtype : Str) (tr : GuestTrail) where
  before : GuestTrail
  answer : Answer
  atAnswer : Guests
  untilUnlock : GuestTrail
  unlock : Answer
  atUnlock : Guests
  untilDestroy : GuestTrail
  destroy : Answer
  atDestroy : Guests
  after : GuestTrail
  eq : tr = before ++ (.request (statusRequest source v gtype) answer, atAnswer) ::
    (untilUnlock ++ (.request ⟨source, .setLock (confPath (Tool.ofGtype gtype) v) none⟩ unlock,
      atUnlock) :: (untilDestroy ++
        (.request ⟨source, .guestDestroy (Tool.ofGtype gtype) v⟩ destroy, atDestroy) :: after))
  notRunning : saysRunning answer = false
  before_moves : answered before = []
  untilUnlock_moves : answered untilUnlock = []
  untilDestroy_moves : answered untilDestroy = []
  after_requests : ∀ entry ∈ answered after, (∃ ds, entry.1 = ⟨source, .zfsListName ds⟩) ∨
    ∃ ds, entry.1 = ⟨source, .zfsDestroyTree ds⟩

namespace CleanupTrail

variable {source : Host} {v gtype : Str} {tr : GuestTrail}

/-- The trail after the status answer. -/
def rest (c : CleanupTrail source v gtype tr) : GuestTrail :=
  c.untilUnlock ++ (.request ⟨source, .setLock (confPath (Tool.ofGtype gtype) v) none⟩ c.unlock,
    c.atUnlock) :: (c.untilDestroy ++
      (.request ⟨source, .guestDestroy (Tool.ofGtype gtype) v⟩ c.destroy, c.atDestroy) :: c.after)

/-- What can stand after the status answer. -/
theorem mem_rest (c : CleanupTrail source v gtype tr) {e : Event Request Answer OperatorMove}
    {w : Guests} (h : (e, w) ∈ c.rest) :
    (∃ m, e = .move m) ∨
      (e = .request ⟨source, .setLock (confPath (Tool.ofGtype gtype) v) none⟩ c.unlock ∧
        w = c.atUnlock) ∨
      ∃ q a, e = .request q a ∧ ((∃ tool u, q = ⟨source, .guestDestroy tool u⟩) ∨
        (∃ ds, q = ⟨source, .zfsListName ds⟩) ∨ ∃ ds, q = ⟨source, .zfsDestroyTree ds⟩) := by
  simp only [rest, List.mem_append, List.mem_cons, Prod.mk.injEq] at h
  rcases h with h | ⟨rfl, rfl⟩ | h | ⟨rfl, rfl⟩ | h
  · exact Or.inl (move_of_answered_eq_nil c.untilUnlock_moves h)
  · exact Or.inr (Or.inl ⟨rfl, rfl⟩)
  · exact Or.inl (move_of_answered_eq_nil c.untilDestroy_moves h)
  · exact Or.inr (Or.inr ⟨_, _, rfl, Or.inl ⟨_, _, rfl⟩⟩)
  · cases e with
    | move m => exact Or.inl ⟨m, rfl⟩
    | request q a =>
      exact Or.inr (Or.inr ⟨q, a, rfl,
        Or.inr (c.after_requests (q, a) (mem_answered.mpr ⟨w, h⟩))⟩)

/-- The trail up to the status answer. -/
theorem eq_rest (c : CleanupTrail source v gtype tr) :
    tr = c.before ++ (.request (statusRequest source v gtype) c.answer, c.atAnswer) :: c.rest :=
  c.eq

/-- The steps of the trail. -/
theorem mem_iff (c : CleanupTrail source v gtype tr)
    {step : Event Request Answer OperatorMove × Guests} :
    step ∈ tr ↔ step ∈ c.before ++
      (.request (statusRequest source v gtype) c.answer, c.atAnswer) :: c.rest := by
  conv_lhs => rw [c.eq_rest]

/-- What can stand on the trail. -/
theorem mem_cases (c : CleanupTrail source v gtype tr) {e : Event Request Answer OperatorMove}
    {w : Guests} (h : (e, w) ∈ tr) :
    (∃ m, e = .move m) ∨
      (e = .request (statusRequest source v gtype) c.answer ∧ w = c.atAnswer) ∨
      (e = .request ⟨source, .setLock (confPath (Tool.ofGtype gtype) v) none⟩ c.unlock ∧
        w = c.atUnlock) ∨
      ∃ q a, e = .request q a ∧ ((∃ tool u, q = ⟨source, .guestDestroy tool u⟩) ∨
        (∃ ds, q = ⟨source, .zfsListName ds⟩) ∨ ∃ ds, q = ⟨source, .zfsDestroyTree ds⟩) := by
  have hmem := c.mem_iff.mp h
  simp only [List.mem_append, List.mem_cons, Prod.mk.injEq] at hmem
  rcases hmem with hmem | hstatus | hmem
  · exact Or.inl (move_of_answered_eq_nil c.before_moves hmem)
  · exact Or.inr (Or.inl hstatus)
  · rcases c.mem_rest hmem with hmove | hunlock | hrest
    · exact Or.inl hmove
    · exact Or.inr (Or.inr (Or.inl hunlock))
    · exact Or.inr (Or.inr (Or.inr hrest))

/-- The status answer is on the trail. -/
theorem mem_answer (c : CleanupTrail source v gtype tr) :
    (.request (statusRequest source v gtype) c.answer, c.atAnswer) ∈ tr :=
  c.mem_iff.mpr (by simp)

/-- The status answer stands once on the trail. -/
theorem status_unique (c : CleanupTrail source v gtype tr) {t₁ t₂ : GuestTrail} {s : Answer}
    {w : Guests} (h : tr = t₁ ++ (.request (statusRequest source v gtype) s, w) :: t₂) :
    t₁ = c.before ∧ s = c.answer ∧ w = c.atAnswer ∧ t₂ = c.rest := by
  have hbefore : ∀ step ∈ c.before, ¬ Answers (statusRequest source v gtype) step :=
    not_answers (by simp [c.before_moves])
  have hrest : ∀ step ∈ c.rest, ¬ Answers (statusRequest source v gtype) step := by
    intro step hmem hans
    obtain ⟨e, u⟩ := step
    obtain ⟨a, rfl⟩ := hans
    rcases c.mem_rest hmem with ⟨m, hm⟩ | ⟨hlock, -⟩ | ⟨q, b, heq, hq⟩
    · cases hm
    · simp [statusRequest] at hlock
    · simp only [Event.request.injEq] at heq
      rw [← heq.1] at hq
      simp [statusRequest] at hq
  obtain ⟨hfront, hstep, hafter⟩ := split_unique (c.eq_rest.symm.trans h) hbefore hrest ⟨s, rfl⟩
  simp only [Prod.mk.injEq, Event.request.injEq, true_and] at hstep
  exact ⟨hfront.symm, hstep.1.symm, hstep.2.symm, hafter.symm⟩

/-- On a safe trail the guest cannot be started at the answer, nor after the
lock was cleared: both stand before the destruction. -/
theorem condition_of_safe (c : CleanupTrail source v gtype tr)
    (h : CleanupSafe source (statusRequest source v gtype) tr) :
    CleanupCondition source (statusRequest source v gtype) tr := by
  have hdestroy : tr = (c.before ++
      (.request (statusRequest source v gtype) c.answer, c.atAnswer) :: (c.untilUnlock ++
        (.request ⟨source, .setLock (confPath (Tool.ofGtype gtype) v) none⟩ c.unlock,
          c.atUnlock) :: c.untilDestroy)) ++
      (.request ⟨source, .guestDestroy (Tool.ofGtype gtype) v⟩ c.destroy, c.atDestroy) ::
        c.after := by
    refine c.eq.trans ?_
    simp
  obtain ⟨u₁, s, w₁, u₂, hcut, hconf, hstart, hall⟩ :=
    h _ _ _ _ _ hdestroy (by simp [destroysSource])
  -- the answer found before the destruction is the one of the trail
  have hwhole : tr = u₁ ++ (.request (statusRequest source v gtype) s, w₁) ::
      (u₂ ++ (.request ⟨source, .guestDestroy (Tool.ofGtype gtype) v⟩ c.destroy, c.atDestroy) ::
        c.after) := by
    refine hdestroy.trans ?_
    rw [hcut]
    simp
  obtain ⟨rfl, rfl, rfl, hrest⟩ := c.status_unique hwhole
  have hu₂ : u₂ = c.untilUnlock ++
      (.request ⟨source, .setLock (confPath (Tool.ofGtype gtype) v) none⟩ c.unlock,
        c.atUnlock) :: c.untilDestroy := by
    simpa using hcut.symm
  constructor
  · intro s' w hmem _
    obtain ⟨t₁, t₂, heq⟩ := List.append_of_mem hmem
    obtain ⟨-, rfl, rfl, -⟩ := c.status_unique heq
    exact ⟨hconf, hstart⟩
  · intro path b w hmem
    rcases c.mem_cases hmem with ⟨m, hm⟩ | ⟨hstatus, -⟩ | ⟨-, rfl⟩ | ⟨q, b', heq', hq⟩
    · cases hm
    · simp [statusRequest] at hstatus
    · exact hall (.request ⟨source, .setLock (confPath (Tool.ofGtype gtype) v) none⟩ c.unlock,
        c.atUnlock) (by simp [hu₂])
    · simp only [Event.request.injEq] at heq'
      rw [← heq'.1] at hq
      simp at hq

/-- Under the condition the guest cannot be started in any state after the
answer. -/
theorem startable_rest (c : CleanupTrail source v gtype tr) {w₀ w' : Guests}
    (hpath : (guestEnv source).Path w₀ tr w')
    (h : CleanupCondition source (statusRequest source v gtype) tr) :
    ∀ step ∈ c.rest, (step.2 source).startable = false := by
  obtain ⟨-, hstart⟩ := h.1 _ _ c.mem_answer c.notRunning
  rw [c.eq_rest] at hpath
  obtain ⟨w₁, -, -, hrest⟩ := Env.path_append.mp hpath
  have hall := Env.Path.preserves (I := fun w => (w source).startable = false) hrest hstart ?_
  · intro step hmem
    exact hall.1 step.1 step.2 hmem
  · intro e u hmem u₀ hu₀ hstep
    rcases c.mem_rest hmem with ⟨m, rfl⟩ | ⟨rfl, rfl⟩ | ⟨q, a, rfl, hq⟩
    · exact startable_step hu₀ hstep (by simp)
    · refine h.2 (confPath (Tool.ofGtype gtype) v) c.unlock c.atUnlock ?_
      exact c.mem_iff.mpr (List.mem_append_right _ (List.mem_cons_of_mem _ hmem))
    · refine startable_step hu₀ hstep ?_
      intro q' a' heq
      simp only [Event.request.injEq] at heq
      rw [← heq.1]
      rcases hq with ⟨tool, u, rfl⟩ | ⟨ds, rfl⟩ | ⟨ds, rfl⟩
      · exact Or.inl ⟨tool, u, rfl⟩
      · exact Or.inr (Or.inl ⟨ds, rfl⟩)
      · exact Or.inr (Or.inr ⟨ds, rfl⟩)

/-- The condition makes a trail safe. -/
theorem safe_of_condition (c : CleanupTrail source v gtype tr) {w₀ w' : Guests}
    (hpath : (guestEnv source).Path w₀ tr w')
    (h : CleanupCondition source (statusRequest source v gtype) tr) :
    CleanupSafe source (statusRequest source v gtype) tr := by
  intro t₁ q a w t₂ heq hdestroys
  -- no destruction stands at or before the answer
  have hfront : ∀ step ∈ c.before ++
      [(.request (statusRequest source v gtype) c.answer, c.atAnswer)],
      ¬ ∃ q b, step.1 = .request q b ∧ destroysSource source q = true := by
    intro step hmem hbad
    obtain ⟨q', b, hreq, hdes⟩ := hbad
    rcases List.mem_append.mp hmem with hmem | hmem
    · obtain ⟨m, hm⟩ := move_of_answered_eq_nil c.before_moves (e := step.1) (w := step.2) hmem
      rw [hreq] at hm
      cases hm
    · rw [List.mem_singleton.mp hmem] at hreq
      simp only [Event.request.injEq] at hreq
      rw [← hreq.1] at hdes
      simp [destroysSource, statusRequest] at hdes
  have hcut : (c.before ++ [(.request (statusRequest source v gtype) c.answer, c.atAnswer)]) ++
      c.rest = t₁ ++ (.request q a, w) :: t₂ := by
    rw [← heq]
    refine Eq.trans ?_ c.eq_rest.symm
    simp
  obtain ⟨k, rfl, hk⟩ := split_after hcut hfront ⟨q, a, rfl, hdestroys⟩
  obtain ⟨hconf, hstart⟩ := h.1 _ _ c.mem_answer c.notRunning
  refine ⟨c.before, c.answer, c.atAnswer, k, by simp, hconf, hstart, ?_⟩
  intro step hmem
  refine c.startable_rest hpath h step ?_
  rw [hk]
  exact List.mem_append_left _ hmem

end CleanupTrail

/-- A cleanup whose trail is not over after a refusal goes through the
status answer, the script that clears the lock and the destruction. -/
theorem exists_cleanupTrail {source : Host} {v gtype : Str} {tr : GuestTrail}
    {s b c : Answer} {rest : Log} (hs : saysRunning s = false)
    (h : answered tr = (statusRequest source v gtype, s) ::
      (⟨source, .setLock (confPath (Tool.ofGtype gtype) v) none⟩, b) ::
      (⟨source, .guestDestroy (Tool.ofGtype gtype) v⟩, c) :: rest)
    (hrest : ∀ entry ∈ rest, (∃ ds, entry.1 = ⟨source, .zfsListName ds⟩) ∨
      ∃ ds, entry.1 = ⟨source, .zfsDestroyTree ds⟩) :
    Nonempty (CleanupTrail source v gtype tr) := by
  obtain ⟨t₀, w, t₁, rfl, h₀, h⟩ := exists_first h
  obtain ⟨t₁, w', t₂, rfl, h₁, h⟩ := exists_first h
  obtain ⟨t₂, w'', t₃, rfl, h₂, h⟩ := exists_first h
  exact ⟨⟨t₀, s, w, t₁, b, w', t₂, c, w'', t₃, rfl, hs, h₀, h₁, h₂, h ▸ hrest⟩⟩

/-- A trail that destroys nothing and whose one status answer says that the
guest runs is safe, and meets the condition. -/
theorem cleanup_refused {source : Host} {v gtype : Str} {tr : GuestTrail}
    (h : ∀ q a, (q, a) ∈ answered tr → q = statusRequest source v gtype ∧ saysRunning a = true) :
    CleanupSafe source (statusRequest source v gtype) tr ∧
      CleanupCondition source (statusRequest source v gtype) tr := by
  constructor
  · intro t₁ q a w t₂ heq hdes
    obtain ⟨rfl, -⟩ := h q a (mem_answered.mpr ⟨w, by simp [heq]⟩)
    simp [destroysSource, statusRequest] at hdes
  · constructor
    · intro s w hmem hs
      obtain ⟨-, hrun⟩ := h _ _ (mem_answered.mpr ⟨w, hmem⟩)
      rw [hs] at hrun
      cases hrun
    · intro path b w hmem
      obtain ⟨hq, -⟩ := h _ _ (mem_answered.mpr ⟨w, hmem⟩)
      simp [statusRequest] at hq

/-- A run of `cleanup_source`, with the operator starting the guest at any
moment, destroys only after a positive status answer and with the guest kept
from starting since, if and only if the status answer it goes on after is
positive, the guest cannot be started there, and clearing the lock does not
change that. -/
theorem cleanup_safe_iff {source : Host} {vmid gtype : Str} {datasets : List Str}
    {w w' : Guests} {tr : GuestTrail} {o : Except Exn (Except Str CleanupResult)}
    (hpath : (guestEnv source).Path w tr w')
    (h : Drives (cleanupSource source vmid gtype datasets) tr o) :
    CleanupSafe source (statusRequest source (strip vmid) gtype) tr ↔
      CleanupCondition source (statusRequest source (strip vmid) gtype) tr := by
  unfold Drives at h
  have hempty : answered tr = [] →
      (CleanupSafe source (statusRequest source (strip vmid) gtype) tr ↔
        CleanupCondition source (statusRequest source (strip vmid) gtype) tr) := by
    intro hnil
    have hrefused : ∀ q a, (q, a) ∈ answered tr →
        q = statusRequest source (strip vmid) gtype ∧ saysRunning a = true := by simp [hnil]
    obtain ⟨hsafe, hcond⟩ := cleanup_refused hrefused
    exact iff_of_true hsafe hcond
  cases hv : validateVmid vmid with
  | error e =>
    simp only [cleanupSource, hv, Prog.pure_eq, Prog.run_ret] at h
    exact hempty h.1
  | ok v =>
    cases hds : validateDatasets datasets with
    | error e =>
      simp only [cleanupSource, hv, hds, Prog.pure_eq, Prog.run_ret] at h
      exact hempty h.1
    | ok u =>
      obtain rfl := (validateVmid_ok hv).1
      obtain ⟨s, ⟨hlog, hs⟩ | ⟨b, c, rest, hs, hlog, hrest⟩⟩ := run_cleanupSource hv hds h
      · have hrefused : ∀ q a, (q, a) ∈ answered tr →
            q = statusRequest source (strip vmid) gtype ∧ saysRunning a = true := by
          simp [hlog, hs]
        obtain ⟨hsafe, hcond⟩ := cleanup_refused hrefused
        exact iff_of_true hsafe hcond
      · obtain ⟨trail⟩ := exists_cleanupTrail hs hlog hrest
        exact ⟨trail.condition_of_safe, trail.safe_of_condition hpath⟩

/-! ## Two cleanups -/

/-- A cleanup of a guest that stays locked: the script that clears the lock
fails. -/
def cleanupLocked : GuestTrail :=
  [(.request (statusRequest hostA "100" "qemu") (prints "status: stopped\n"),
      guestsOn ⟨true, false, true⟩ .gone),
    (.request ⟨hostA, .setLock "/etc/pve/qemu-server/100.conf" none⟩ noAnswer,
      guestsOn ⟨true, false, true⟩ .gone),
    (.request ⟨hostA, .guestDestroy .qm "100"⟩ (prints []), guestsOn .gone .gone)]

theorem cleanup_safe_locked :
    CleanupSafe hostA (statusRequest hostA (strip "100") "qemu") cleanupLocked := by
  have hrun : ∃ o, Drives (cleanupSource hostA "100" "qemu" []) cleanupLocked o :=
    Prog.exists_run_of_transcript [prints "status: stopped\n", noAnswer, prints []]
      (by decide)
  obtain ⟨o, hrun⟩ := hrun
  have hstrip : strip "100" = ("100" : Str) := by decide
  have hpath : (guestEnv hostA).Path (guestsOn ⟨true, false, true⟩ .gone) cleanupLocked
      (guestsOn .gone .gone) := by
    refine ⟨⟨fun _ _ => rfl, rfl, fun _ => rfl⟩, ⟨fun _ _ => rfl, rfl, ?_⟩,
      ⟨fun h hne => ?_, Or.inl rfl⟩, rfl⟩
    · intro hok
      have : saysOk noAnswer = false := by decide
      simp [this] at hok
    · exact guestsOn_of_ne_hostA hne
  refine (cleanup_safe_iff hpath hrun).mpr ?_
  rw [hstrip]
  refine ⟨?_, ?_⟩
  · intro s w hmem _
    simp [cleanupLocked, statusRequest] at hmem
    rw [hmem.1, hmem.2]
    decide
  · intro path b w hmem
    simp [cleanupLocked, statusRequest] at hmem
    rw [hmem.2]
    decide

/-- A cleanup of a running guest: the status command fails, and the
destruction goes through. -/
def cleanupBlind : GuestTrail :=
  [(.request (statusRequest hostA "100" "qemu") noAnswer, guestsOn ⟨true, true, false⟩ .gone),
    (.request ⟨hostA, .setLock "/etc/pve/qemu-server/100.conf" none⟩ noAnswer,
      guestsOn ⟨true, true, false⟩ .gone),
    (.request ⟨hostA, .guestDestroy .qm "100"⟩ (prints []), guestsOn .gone .gone)]

theorem cleanup_unsafe :
    ∃ w tr w' o, (guestEnv hostA).Path w tr w' ∧
      Drives (cleanupSource hostA "100" "qemu" []) tr o ∧
      ¬ CleanupSafe hostA (statusRequest hostA (strip "100") "qemu") tr := by
  have hrun : ∃ o, Drives (cleanupSource hostA "100" "qemu" []) cleanupBlind o :=
    Prog.exists_run_of_transcript [noAnswer, noAnswer, prints []]
      (by decide)
  obtain ⟨o, hrun⟩ := hrun
  have hpath : (guestEnv hostA).Path (guestsOn ⟨true, true, false⟩ .gone) cleanupBlind
      (guestsOn .gone .gone) := by
    refine ⟨⟨fun _ _ => rfl, rfl, fun hok => ?_⟩, ⟨fun _ _ => rfl, rfl, fun hok => ?_⟩,
      ⟨fun h hne => ?_, Or.inl rfl⟩, rfl⟩
    · have : confirmsStopped noAnswer = false := by decide
      simp [this] at hok
    · have : saysOk noAnswer = false := by decide
      simp [this] at hok
    · exact guestsOn_of_ne_hostA hne
  refine ⟨_, _, _, _, hpath, hrun, fun hsafe => ?_⟩
  obtain ⟨u₁, s, w₁, u₂, hcut, hconf, -⟩ :=
    hsafe [_, _] ⟨hostA, .guestDestroy .qm "100"⟩ _ _ [] rfl (by decide)
  have hmem : (.request (statusRequest hostA (strip "100") "qemu") s, w₁) ∈
      cleanupBlind.take 2 := by
    change _ ∈ [_, _]
    rw [hcut]
    simp
  simp [cleanupBlind, statusRequest] at hmem
  rw [hmem.1.2] at hconf
  revert hconf
  decide

end PveZfsTool
