import PveZfsTool.Reports.Schedules

/-!
# The periods of a report schedule

A schedule is unchanged over one of its periods, and the clock does not go back.

* `fires_once`: it fires at most once in the period.
* `fires_of_quiet`: it fires when the process has been up since before the
  target and no save has seeded its run key.
* `firesRight_iff`: it fires on time exactly when no save of the config comes
  between the target and the first tick, in a process that remembers no run of
  the schedule.
-/

namespace PveZfsTool.Reports

open Text Calendar Transducer

abbrev SchedulerTurn := Turn RunKeys Event (List ReportRun)

/-- A run of the scheduler and one period of one schedule. -/
structure ScheduleRun where
  events : List Event
  ordered : events.Pairwise (fun a b => a.now ≤ b.now)
  entry : ScheduleEntry
  /-- A time in the period. -/
  day : DateTime
  unchanged : ∀ ev ∈ events, periodRunKey ev.now entry.interval = periodRunKey day entry.interval →
    entry ∈ getActiveSchedules ev.config

namespace ScheduleRun

variable (R : ScheduleRun)

def turns : List SchedulerTurn := Transducer.turns step (fun _ => none) R.events

/-- The run key of the period. -/
def period : Str := periodRunKey R.day R.entry.interval

def InPeriod (ev : Event) : Prop := periodRunKey ev.now R.entry.interval = R.period

/-- The event is in the period and at its target or after it. -/
def Past (ev : Event) : Prop :=
  R.InPeriod ev ∧ periodTargetPassed ev.now R.entry.toReportSchedule = true

/-- The event is a tick of the target day, at the target or after it. -/
def AtTarget (ev : Event) : Prop :=
  ev.kind = .tick ∧ R.InPeriod ev ∧ R.entry.enabled = true ∧ isTime ev.now R.entry.toReportSchedule = true

instance (ev : Event) : Decidable (R.InPeriod ev) := inferInstanceAs (Decidable (_ = _))

instance (ev : Event) : Decidable (R.AtTarget ev) := inferInstanceAs (Decidable (_ ∧ _))

/-- One process runs from `u`, before the target, to `t`, a tick of the target
day. -/
structure Watched (u : SchedulerTurn) (between : List SchedulerTurn) (t : SchedulerTurn) : Prop where
  inRun : ∃ earlier later, R.turns = earlier ++ u :: (between ++ t :: later)
  early : ¬ R.Past u.input
  running : ∀ s ∈ between, s.input.kind ≠ .restart
  tick : R.AtTarget t.input

/-- The schedule fires at most once in the period, and it fires if the process
was up before the target and has a tick after it. -/
structure FiresRight : Prop where
  atMostOnce : ∀ earlier t between u later, R.turns = earlier ++ t :: (between ++ u :: later) →
    R.InPeriod t.input → R.InPeriod u.input → Fires R.entry.key t.output → ¬ Fires R.entry.key u.output
  noneTwice : ∀ t ∈ R.turns, (t.output.map ReportRun.key).Nodup
  onTime : ∀ u between t, R.Watched u between t →
    ∃ w ∈ R.turns, R.InPeriod w.input ∧ Fires R.entry.key w.output

/-- No save of the config comes between the target and the tick while the
process remembers no run of the schedule. -/
def Undisturbed : Prop :=
  ∀ u between t, R.Watched u between t → ∀ s ∈ between, s.input.kind = .save → R.Past s.input →
    s.before R.entry.key ≠ none

variable {R}
variable {ev : Event} {keys : RunKeys} {earlier between later : List SchedulerTurn} {s t u v : SchedulerTurn}

/-! ## One event -/

theorem past_of_le {ev' : Event} (h : R.Past ev) (hle : ev.now ≤ ev'.now) (hin : R.InPeriod ev') :
    R.Past ev' :=
  ⟨hin, periodTargetPassed_mono hle (h.1.trans hin.symm) h.2⟩

theorem past_between {ev' ev'' : Event} (h : R.Past ev) (hle : ev.now ≤ ev'.now)
    (hle' : ev'.now ≤ ev''.now) (hin : R.InPeriod ev'') : R.Past ev' :=
  past_of_le h hle ((periodRunKey_between hle hle' (h.1.trans hin.symm)).trans hin)

theorem past_of_atTarget (h : R.AtTarget ev) : R.Past ev :=
  ⟨h.2.1, periodTargetPassed_of_isTime h.2.2.2⟩

/-- A run key of the period is written only in the period. -/
theorem inPeriod_of_key {i : Str} (h : periodRunKey ev.now i = R.period) : R.InPeriod ev := by
  have hi := weekly_of_periodRunKey_eq h
  rw [periodRunKey_congr hi] at h
  exact h

/-- Before the target the schedule does not become done. -/
theorem step_ne_of_not_past (hev : ev ∈ R.events) (hpast : ¬ R.Past ev)
    (h : keys R.entry.key ≠ some R.period) : (step keys ev).1 R.entry.key ≠ some R.period := by
  by_cases hin : R.InPeriod ev
  · have hpassed : periodTargetPassed ev.now R.entry.toReportSchedule = false := by
      rw [← Bool.not_eq_true]
      exact fun hpassed => hpast ⟨hin, hpassed⟩
    have htime : isTime ev.now R.entry.toReportSchedule = false := by
      rw [← Bool.not_eq_true]
      exact fun htime => hpast ⟨hin, periodTargetPassed_of_isTime htime⟩
    rw [step_at (R.unchanged ev hev hin)]
    unfold nextRunKey due
    cases ev.kind <;> simp [hpassed, htime, h]
  · refine step_keeps (Q := fun key => key ≠ some R.period) (fun _ h => by cases h) (fun i hi => ?_) h
    exact hin (inPeriod_of_key (Option.some.inj hi))

/-- After the target a schedule that is done stays done. -/
theorem step_eq_of_past (hev : ev ∈ R.events) (hpast : R.Past ev) (henabled : R.entry.enabled = true)
    (h : keys R.entry.key = some R.period) : (step keys ev).1 R.entry.key = some R.period := by
  have hin : periodRunKey ev.now R.entry.interval = R.period := hpast.1
  rw [step_at (R.unchanged ev hev hin)]
  unfold nextRunKey due
  cases ev.kind <;> simp [hpast.2, henabled, hin, h]

/-- A schedule that is not done fires, and is done then. -/
theorem fires_iff_of_inPeriod (hev : ev ∈ R.events) (hin : R.InPeriod ev) :
    Fires R.entry.key (step keys ev).2 ↔ R.AtTarget ev ∧ keys R.entry.key ≠ some R.period := by
  rw [fires_iff (R.unchanged ev hev hin)]
  have hkey : periodRunKey ev.now R.entry.interval = R.period := hin
  unfold due AtTarget
  rw [hkey]
  simp only [Bool.and_eq_true, decide_eq_true_eq, hin, true_and, and_assoc]

theorem step_eq_of_atTarget (hev : ev ∈ R.events) (h : R.AtTarget ev) :
    (step keys ev).1 R.entry.key = some R.period := by
  have hkey : periodRunKey ev.now R.entry.interval = R.period := h.2.1
  rw [step_at (R.unchanged ev hev hkey)]
  unfold nextRunKey due
  rw [h.1, hkey]
  by_cases hdone : keys R.entry.key = some R.period
  · simp [hdone]
  · simp [hdone, h.2.2.1, h.2.2.2]

/-- A save that finds no run key. -/
theorem step_eq_of_save (hev : ev ∈ R.events) (hsave : ev.kind = .save) (hpast : R.Past ev)
    (henabled : R.entry.enabled = true) (h : keys R.entry.key = none) :
    (step keys ev).1 R.entry.key = some R.period := by
  have hkey : periodRunKey ev.now R.entry.interval = R.period := hpast.1
  rw [step_at (R.unchanged ev hev hkey)]
  unfold nextRunKey
  rw [hsave, hkey]
  simp [henabled, hpast.2, h]

/-! ## Runs -/

theorem sorted : R.turns.Pairwise (fun a b => a.input.now ≤ b.input.now) := by
  have h := R.ordered
  rw [← @map_input_turns _ _ _ step (fun _ => none) R.events, List.pairwise_map] at h
  exact h

theorem input_mem (h : t ∈ R.turns) : t.input ∈ R.events := by
  rw [← @map_input_turns _ _ _ step (fun _ => none) R.events]
  exact List.mem_map_of_mem h

/-- The turns of a cut are in the order of their times. -/
theorem now_le (h : R.turns = earlier ++ t :: later) :
    (∀ s ∈ earlier, s.input.now ≤ t.input.now) ∧ ∀ s ∈ later, t.input.now ≤ s.input.now := by
  have hsorted := R.sorted
  rw [h, List.pairwise_append, List.pairwise_cons] at hsorted
  exact ⟨fun s hs => hsorted.2.2 s hs t List.mem_cons_self, hsorted.2.1.1⟩

theorem output_eq (h : t ∈ R.turns) : t.output = (step t.before t.input).2 := by
  obtain ⟨earlier, later, hcut⟩ := List.append_of_mem h
  exact (turn_of_cut hcut).2

/-- A schedule that is done stays so up to the last event of the period. -/
theorem done_stays (hcut : R.turns = earlier ++ t :: (between ++ u :: later)) (ht : R.Past t.input)
    (henabled : R.entry.enabled = true)
    (hdone : (step t.before t.input).1 R.entry.key = some R.period) (hu : R.InPeriod u.input) :
    u.before R.entry.key = some R.period := by
  refine before_of_keeps_between (Q := fun keys => keys R.entry.key = some R.period) hcut hdone ?_
  intro v hv
  have hvMem : v ∈ R.turns := by
    rw [hcut]
    exact List.mem_append_right _ (List.mem_cons_of_mem _ (List.mem_append_left _ hv))
  have htv : t.input.now ≤ v.input.now := (now_le hcut).2 v (List.mem_append_left _ hv)
  have hvu : v.input.now ≤ u.input.now := by
    have hcut' : R.turns = (earlier ++ t :: between) ++ u :: later := by
      rw [hcut, List.append_assoc, List.cons_append]
    exact (now_le hcut').1 v (List.mem_append_right _ (List.mem_cons_of_mem _ hv))
  exact step_eq_of_past (input_mem hvMem) (past_between ht htv hvu hu) henabled

/-- The schedule is fired by a tick, which makes it done. -/
theorem atTarget_of_fires (h : t ∈ R.turns) (hin : R.InPeriod t.input)
    (hfires : Fires R.entry.key t.output) :
    R.AtTarget t.input ∧ t.before R.entry.key ≠ some R.period := by
  rw [output_eq h] at hfires
  exact (fires_iff_of_inPeriod (input_mem h) hin).mp hfires

theorem fires_once (hcut : R.turns = earlier ++ t :: (between ++ u :: later))
    (ht : R.InPeriod t.input) (hu : R.InPeriod u.input) (hfires : Fires R.entry.key t.output) :
    ¬ Fires R.entry.key u.output := by
  intro hagain
  have htMem : t ∈ R.turns := by
    rw [hcut]
    exact List.mem_append_right _ List.mem_cons_self
  have huMem : u ∈ R.turns := by
    rw [hcut]
    exact List.mem_append_right _ (List.mem_cons_of_mem _ (List.mem_append_right _ List.mem_cons_self))
  obtain ⟨htick, -⟩ := atTarget_of_fires htMem ht hfires
  obtain ⟨-, hne⟩ := atTarget_of_fires huMem hu hagain
  exact hne (done_stays hcut (past_of_atTarget htick) htick.2.2.1
    (step_eq_of_atTarget (input_mem htMem) htick) hu)

/-- Nothing before the target makes the schedule done. -/
theorem before_ne_of_watched (h : R.Watched u between t) :
    (step u.before u.input).1 R.entry.key ≠ some R.period := by
  obtain ⟨earlier, later, hcut⟩ := h.inRun
  have hle := now_le hcut
  have hmem : ∀ v ∈ earlier ++ [u], v ∈ R.turns := by
    intro v hv
    rw [hcut]
    rcases List.mem_append.mp hv with hv | hv
    · exact List.mem_append_left _ hv
    · rw [List.mem_singleton.mp hv]
      exact List.mem_append_right _ List.mem_cons_self
  have hut : u.input.now ≤ t.input.now := hle.2 t (List.mem_append_right _ List.mem_cons_self)
  have hbefore : u.before R.entry.key ≠ some R.period := by
    refine before_of_keeps (Q := fun keys => keys R.entry.key ≠ some R.period) hcut (by simp) ?_
    intro v hv
    refine step_ne_of_not_past (input_mem (hmem v (List.mem_append_left _ hv))) (fun hpast => h.early ?_)
    exact past_between hpast (hle.1 v hv) hut h.tick.2.1
  exact step_ne_of_not_past (input_mem (hmem u (List.mem_append_right _ List.mem_cons_self))) h.early hbefore

/-- A turn between that is neither a restart nor a tick of the target day, nor
a save that finds no run key. -/
theorem step_ne_of_quiet (hmem : s ∈ R.turns) (hrestart : s.input.kind ≠ .restart)
    (htick : ¬ R.AtTarget s.input)
    (hsave : s.input.kind = .save → R.Past s.input → s.before R.entry.key ≠ none)
    (h : s.before R.entry.key ≠ some R.period) :
    (step s.before s.input).1 R.entry.key ≠ some R.period := by
  by_cases hpast : R.Past s.input
  · have hkey : periodRunKey s.input.now R.entry.interval = R.period := hpast.1
    rw [step_at (R.unchanged _ (input_mem hmem) hkey)]
    unfold nextRunKey
    cases hkind : s.input.kind with
    | tick =>
      have hdue : due s.input.now R.entry (s.before R.entry.key) = false := by
        rw [← Bool.not_eq_true]
        intro hdue
        unfold due at hdue
        simp only [Bool.and_eq_true] at hdue
        exact htick ⟨hkind, hpast.1, hdue.1.1, hdue.1.2⟩
      simp [hdue, h]
    | save =>
      obtain ⟨key, hsome⟩ := Option.ne_none_iff_exists'.mp (hsave hkind hpast)
      rw [hsome] at h ⊢
      simp [h]
    | restart => exact absurd hkind hrestart
  · exact step_ne_of_not_past (input_mem hmem) hpast h

/-- The first tick of the target day fires the schedule if no save has seeded
it. -/
theorem fires_of_quiet (h : R.Watched u between t)
    (hsave : ∀ s ∈ between, s.input.kind = .save → R.Past s.input → s.before R.entry.key ≠ none) :
    ∃ w ∈ R.turns, R.InPeriod w.input ∧ Fires R.entry.key w.output := by
  obtain ⟨earlier, later, hcut⟩ := h.inRun
  obtain ⟨w, hw⟩ : ∃ w, (between ++ [t]).find? (fun s => R.AtTarget s.input) = some w := by
    rw [← Option.isSome_iff_exists, List.find?_isSome]
    exact ⟨t, List.mem_append_right _ List.mem_cons_self, decide_eq_true h.tick⟩
  rw [List.find?_eq_some_iff_append] at hw
  obtain ⟨htarget, quiet, rest, hsplit, hfirst⟩ := hw
  rw [decide_eq_true_eq] at htarget
  have hcut' : R.turns = earlier ++ u :: (quiet ++ w :: (rest ++ later)) := by
    rw [hcut, ← List.singleton_append (l := later), ← List.append_assoc between, hsplit,
      List.append_assoc, List.cons_append]
  have hwMem : w ∈ R.turns := by
    rw [hcut']
    exact List.mem_append_right _ (List.mem_cons_of_mem _ (List.mem_append_right _ List.mem_cons_self))
  have hne : w.before R.entry.key ≠ some R.period := by
    refine before_of_keeps_between (Q := fun keys => keys R.entry.key ≠ some R.period) hcut'
      (before_ne_of_watched h) (fun s hs => ?_)
    have htick : ¬ R.AtTarget s.input := by simpa using hfirst s hs
    have hbetween : s ∈ between := by
      have hmem : s ∈ between ++ [t] := by
        rw [hsplit]
        exact List.mem_append_left _ hs
      rcases List.mem_append.mp hmem with hmem | hmem
      · exact hmem
      · rw [List.mem_singleton.mp hmem] at htick
        exact absurd h.tick htick
    have hsMem : s ∈ R.turns := by
      rw [hcut]
      exact List.mem_append_right _ (List.mem_cons_of_mem _ (List.mem_append_left _ hbetween))
    exact step_ne_of_quiet hsMem (h.running s hbetween) htick (hsave s hbetween)
  refine ⟨w, hwMem, htarget.2.1, ?_⟩
  rw [output_eq hwMem]
  exact (fires_iff_of_inPeriod (input_mem hwMem) htarget.2.1).mpr ⟨htarget, hne⟩

/-- A save that seeds the run key of the period keeps the schedule from firing
in it. -/
theorem not_fires_of_save (h : R.Watched u between t) (hs : s ∈ between)
    (hsave : s.input.kind = .save) (hpast : R.Past s.input) (hnone : s.before R.entry.key = none)
    {w : SchedulerTurn} (hw : w ∈ R.turns) (hin : R.InPeriod w.input) :
    ¬ Fires R.entry.key w.output := by
  intro hfires
  obtain ⟨htick, hne⟩ := atTarget_of_fires hw hin hfires
  obtain ⟨earlier, later, hcut⟩ := h.inRun
  obtain ⟨before, after, rfl⟩ := List.append_of_mem hs
  have hcut' : R.turns = (earlier ++ u :: before) ++ s :: (after ++ t :: later) := by
    rw [hcut]
    simp only [List.append_assoc, List.cons_append]
  have hsMem : s ∈ R.turns := by
    rw [hcut']
    exact List.mem_append_right _ List.mem_cons_self
  have hwPlace := hw
  rw [hcut', List.mem_append, List.mem_cons] at hwPlace
  rcases hwPlace with hwBefore | rfl | hwAfter
  · rcases List.mem_append.mp hwBefore with hwEarly | hwEarly
    · -- The target would have passed before the process was up.
      exact h.early (past_between (past_of_atTarget htick) ((now_le hcut).1 w hwEarly)
        ((now_le hcut).2 t (List.mem_append_right _ List.mem_cons_self)) h.tick.2.1)
    · rcases List.mem_cons.mp hwEarly with rfl | hwBetween
      · exact h.early (past_of_atTarget htick)
      · obtain ⟨before₁, before₂, rfl⟩ := List.append_of_mem hwBetween
        have hcutW : R.turns = (earlier ++ u :: before₁) ++ w :: (before₂ ++ s :: (after ++ t :: later)) := by
          rw [hcut']
          simp only [List.append_assoc, List.cons_append]
        have hdone := done_stays hcutW (past_of_atTarget htick) htick.2.2.1
          (step_eq_of_atTarget (input_mem hw) htick) hpast.1
        rw [hnone] at hdone
        cases hdone
  · rw [htick.1] at hsave
    cases hsave
  · obtain ⟨after₁, after₂, hafter⟩ := List.append_of_mem hwAfter
    rw [hafter] at hcut'
    exact hne (done_stays hcut' hpast h.tick.2.2.1
      (step_eq_of_save (input_mem hsMem) hsave hpast h.tick.2.2.1 hnone) hin)

/-- A schedule fires at most once in a period, and it fires on time if and only
if no save of the config seeds it between the target and the first tick. -/
theorem firesRight_iff (R : ScheduleRun) : R.FiresRight ↔ R.Undisturbed := by
  constructor
  · intro h u between t hwatched s hs hsave hpast hnone
    obtain ⟨w, hw, hin, hfires⟩ := h.onTime u between t hwatched
    exact not_fires_of_save hwatched hs hsave hpast hnone hw hin hfires
  · intro h
    refine ⟨fun earlier t between u later hcut => fires_once hcut, fun t ht => ?_,
      fun u between t hwatched => fires_of_quiet hwatched (h u between t hwatched)⟩
    rw [output_eq ht]
    exact nodup_runs

end ScheduleRun

/-! ## A save just after the target -/

def morning (hour minute second : Nat) (hhour : hour < 24) (hminute : minute < 60)
    (hsecond : second < 60) : DateTime where
  year := 2026
  month := 3
  day := 2
  hour := hour
  minute := minute
  second := second
  microsecond := 0
  year_bounds := year_2026_bounds
  month_bounds := by decide
  day_bounds := by decide
  hour_lt := hhour
  minute_lt := hminute
  second_lt := hsecond
  microsecond_lt := microsecond_zero_lt

def dailyAtSix : ReportSchedule where
  enabled := true
  interval := "daily"
  hour := 6
  weekday := 0
  hour_bounds := by decide

def onlyAllHosts : ReportConfig := ⟨some dailyAtSix, Dict.empty⟩

def startUp : Event :=
  ⟨.restart, morning 5 59 50 (by decide) (by decide) (by decide), onlyAllHosts⟩

def firstTick : Event := { startUp with kind := .tick }

def configSave : Event :=
  ⟨.save, morning 6 0 10 (by decide) (by decide) (by decide), onlyAllHosts⟩

def secondTick : Event :=
  ⟨.tick, morning 6 0 20 (by decide) (by decide) (by decide), onlyAllHosts⟩

/-- The process starts ten seconds before the target, and the config is saved
ten seconds after it. -/
def savedAfterTarget : ScheduleRun where
  events := [startUp, firstTick, configSave, secondTick]
  ordered := by decide
  entry := { toReportSchedule := dailyAtSix, key := allKey, host := none, label := "all_hosts" }
  day := secondTick.now
  unchanged := by decide

/-- The turn of an event after the events before it. -/
def turnAfter (events : List Event) (ev : Event) : SchedulerTurn :=
  let keys := after step (fun _ => none) events
  ⟨keys, ev, (step keys ev).2⟩

theorem watched_savedAfterTarget : savedAfterTarget.Watched (turnAfter [startUp] firstTick)
    [turnAfter [startUp, firstTick] configSave]
    (turnAfter [startUp, firstTick, configSave] secondTick) where
  inRun := ⟨[turnAfter [] startUp], [], rfl⟩
  early := fun h => absurd h.2 (by decide)
  running := fun s hs => by
    rw [List.mem_singleton.mp hs]
    decide
  tick := by decide

/-- The report of the day is never made. -/
theorem saved_after_target_never_fires : ¬ ∀ R : ScheduleRun, R.FiresRight := by
  intro hclaim
  have hquiet : ∀ t ∈ savedAfterTarget.turns, t.output = [] := by decide
  obtain ⟨w, hw, -, r, hr, -⟩ := (hclaim savedAfterTarget).onTime _ _ _ watched_savedAfterTarget
  rw [hquiet w hw] at hr
  cases hr

end PveZfsTool.Reports
