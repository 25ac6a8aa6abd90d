import PveZfsTool.HostBackups.Scheduler

/-!
# Runs of the scheduler

A run starts without backups and makes one tick after the other.  Its
`history` has the state in the end and the attempts of each tick.

There are four groups.

* The periods.  `samePeriod_mid` says that a period has no holes.
* One tick.  `tick_at` says that a tick is a visit for each host: visits of
  other hosts leave its directory and its last attempt alone, and no exception
  ends the loop.
* The invariant.  `runInv_concat` is the step: the names that are stored are
  those of earlier ticks, and a name at least as great as that of each
  backup that has succeeded is still there.
* The assembly, `scheduled_backups`, and a run in which an interval that is no
  text stops the scheduler.
-/

namespace PveZfsTool.HostBackups

open Text Newest Calendar Ssh Backups

/-! ## Periods -/

theorem samePeriod_toSecond {d now : DateTime} {period : Interval} :
    samePeriod d.toSecond now period = samePeriod d now period := by
  cases period <;> rfl

/-- What comes between two times of a period is in it. -/
theorem samePeriod_mid {d e f : DateTime} {period : Interval} (hde : d ≤ e) (hef : e ≤ f)
    (h : samePeriod d f period = true) : samePeriod e f period = true := by
  have hlower := DateTime.le_cases hde
  have hupper := DateTime.le_cases hef
  cases period with
  | daily =>
    simp only [samePeriod, decide_eq_true_iff] at h ⊢
    omega
  | monthly =>
    simp only [samePeriod, decide_eq_true_iff] at h ⊢
    omega
  | weekly =>
    simp only [samePeriod, decide_eq_true_iff, DateTime.isoCalendar_eq_iff] at h ⊢
    have hmonday := DateTime.monday_le hde
    have hmonday' := DateTime.monday_le hef
    omega

theorem samePeriod_of_common {d e f : DateTime} {period : Interval}
    (hd : samePeriod d f period = true) (he : samePeriod e f period = true) :
    samePeriod d e period = true := by
  cases period with
  | daily =>
    simp only [samePeriod, decide_eq_true_iff] at hd he ⊢
    omega
  | monthly =>
    simp only [samePeriod, decide_eq_true_iff] at hd he ⊢
    omega
  | weekly =>
    simp only [samePeriod, decide_eq_true_iff] at hd he ⊢
    exact hd.trans he.symm

/-! ## The newest backup -/

theorem backupFilenameDt_backupName (d : DateTime) (includePriv : Bool) :
    backupFilenameDt (backupName d includePriv) = some d.toSecond := by
  unfold backupFilenameDt
  rw [fileStamp?_backupName]
  exact d.strptime_digits

/-- The newest backup is that with the greatest name. -/
theorem newestBackupDt_eq {store : BackupStore} {a m : Str} {d : DateTime}
    (hm : m ∈ (store (hostDir a)).names) (hvalid : isValidBackupName m = true)
    (hgreatest : ∀ n ∈ (store (hostDir a)).names, n ≤ m) (hd : backupFilenameDt m = some d) :
    newestBackupDt store a = some d := by
  unfold newestBackupDt listBackups
  have hsorted := List.pairwise_insertionSort (· ≥ ·)
    ((store (hostDir a)).names.filter isValidBackupName)
  have hmem : m ∈ ((store (hostDir a)).names.filter isValidBackupName).insertionSort (· ≥ ·) := by
    rw [List.mem_insertionSort, List.mem_filter]
    exact ⟨hm, hvalid⟩
  have hall : ∀ n ∈ ((store (hostDir a)).names.filter isValidBackupName).insertionSort (· ≥ ·),
      n ≤ m := by
    intro n hn
    rw [List.mem_insertionSort, List.mem_filter] at hn
    exact hgreatest n hn.1
  generalize ((store (hostDir a)).names.filter isValidBackupName).insertionSort (· ≥ ·) = names
    at hsorted hmem hall
  cases names with
  | nil => cases hmem
  | cons n rest =>
    have hfirst : n = m := by
      rcases List.mem_cons.mp hmem with heq | hrest
      · exact heq.symm
      · exact le_antisymm (hall n List.mem_cons_self) (List.rel_of_pairwise_cons hsorted hrest)
    rw [List.findSome?_cons, hfirst, hd]

/-- A backup is due only in another period than that of the newest one. -/
theorem not_samePeriod_of_due {newest : Option DateTime} {now d : DateTime} {sched : Schedule}
    (hdue : backupDue newest now sched = some true) (hnewest : newest = some d) :
    samePeriod d now sched.period = false := by
  unfold backupDue at hdue
  rw [hnewest] at hdue
  by_contra hsame
  rw [if_pos (by simpa using hsame)] at hdue
  cases hdue

/-! ## One tick -/

/-- The states have the same files and the same last attempt for a host. -/
def SameFor (a : Str) (s s' : SchedulerState) : Prop :=
  s.store (hostDir a) = s'.store (hostDir a) ∧ s.lastAttempt a = s'.lastAttempt a

section

variable {a b : Str} {t : Tick} {sched : Schedule} {s s' : SchedulerState} {done : Option Bool}

theorem attempt_other {r : Reading} (hab : a ≠ b) (hdir : hostDir a ≠ hostDir b) :
    SameFor a (attempt r b sched s).1 s := by
  have hstore : ∀ (store : BackupStore) change, store.update (hostDir b) change (hostDir a) =
      store (hostDir a) := fun _ _ => update_other hdir
  unfold attempt SameFor
  dsimp only
  split
  · dsimp only
    refine ⟨?_, Function.update_of_ne hab ..⟩
    unfold pruneBackups
    rw [hstore, hstore]
  · exact ⟨rfl, Function.update_of_ne hab ..⟩
  · dsimp only
    exact ⟨hstore _ _, Function.update_of_ne hab ..⟩
  · dsimp only
    exact ⟨hstore _ _, Function.update_of_ne hab ..⟩

/-- A visit of another host, with another directory if its schedule is enabled,
changes nothing for this one. -/
theorem visit_other (hab : a ≠ b) (hdir : sched.enabled = true → hostDir a ≠ hostDir b)
    (h : visit t b sched s = some (s', done)) : SameFor a s' s := by
  rcases visit_cases h with ⟨rfl, -⟩ | ⟨henabled, -, rfl, -⟩
  · exact ⟨rfl, rfl⟩
  · exact attempt_other hab (hdir henabled)

/-- An attempt is the same in states that are the same for the host. -/
theorem attempt_congr {r : Reading} {s₁ s₂ : SchedulerState} (h : SameFor a s₁ s₂) :
    (attempt r a sched s₁).2 = (attempt r a sched s₂).2 ∧
      SameFor a (attempt r a sched s₁).1 (attempt r a sched s₂).1 := by
  unfold attempt SameFor pruneBackups
  generalize r.outcome = outcome
  rcases outcome with _ | _ | _ | _
  all_goals simp only [update_self, Function.update_self, h.1, and_self]

theorem newestBackupDt_congr {s₁ s₂ : SchedulerState} (h : SameFor a s₁ s₂) :
    newestBackupDt s₁.store a = newestBackupDt s₂.store a := by
  unfold newestBackupDt listBackups
  rw [h.1]

/-- A visit is the same in states that are the same for the host. -/
theorem visit_congr {s₁ s₂ s₁' : SchedulerState} (h : SameFor a s₁ s₂)
    (hvisit : visit t a sched s₁ = some (s₁', done)) :
    ∃ s₂', visit t a sched s₂ = some (s₂', done) ∧ SameFor a s₁' s₂' := by
  obtain ⟨hdone, hsame⟩ : (attempt (t.reading a) a sched s₁).2 = (attempt (t.reading a) a sched s₂).2 ∧
      SameFor a (attempt (t.reading a) a sched s₁).1 (attempt (t.reading a) a sched s₂).1 :=
    attempt_congr h
  unfold visit at hvisit ⊢
  dsimp only at hvisit ⊢
  rw [newestBackupDt_congr h, h.2] at hvisit
  split at hvisit
  · next hdisabled =>
    cases hvisit
    exact ⟨s₂, if_pos hdisabled, h⟩
  · next henabled =>
    rw [if_neg henabled]
    split at hvisit
    · cases hvisit
      exact ⟨s₂, rfl, h⟩
    · split at hvisit
      · next hstandby =>
        cases hvisit
        exact ⟨s₂, if_pos hstandby, h⟩
      · next hstandby =>
        rw [if_neg hstandby]
        split at hvisit
        · cases hvisit
        · cases hvisit
          exact ⟨s₂, rfl, h⟩
        · split at hvisit
          · next hthrottle =>
            cases hvisit
            exact ⟨s₂, if_pos hthrottle, h⟩
          · next hthrottle =>
            cases hvisit
            exact ⟨_, by rw [if_neg hthrottle, hdone], hsame⟩

/-- A visit raises nothing, when its interval can be looked up. -/
theorem exists_visit (t : Tick) (a : Str) (s : SchedulerState)
    (h : sched.enabled = true → sched.hashable = true) :
    ∃ s' done, visit t a sched s = some (s', done) := by
  unfold visit
  dsimp only
  split
  · exact ⟨_, _, rfl⟩
  · next henabled =>
    rw [Bool.not_eq_true', Bool.not_eq_false] at henabled
    split
    · exact ⟨_, _, rfl⟩
    · split
      · exact ⟨_, _, rfl⟩
      · split
        · next hraises =>
          unfold backupDue at hraises
          rw [h henabled] at hraises
          split at hraises <;> cases hraises
        · exact ⟨_, _, rfl⟩
        · split
          · exact ⟨_, _, rfl⟩
          · exact ⟨_, _, rfl⟩

end

/-! ## All visits of a tick -/

/-- The intervals of the enabled schedules can be looked up, and no two of
them are of hosts with one directory. -/
structure Sound (entries : List (Str × Schedule)) : Prop where
  hashable : ∀ p ∈ entries, p.2.enabled = true → p.2.hashable = true
  apart : ∀ p ∈ entries, ∀ q ∈ entries, p.2.enabled = true → q.2.enabled = true →
    p.1 ≠ q.1 → hostDir p.1 ≠ hostDir q.1

theorem Sound.tail {p : Str × Schedule} {entries : List (Str × Schedule)} (h : Sound (p :: entries)) :
    Sound entries where
  hashable q hq := h.hashable q (List.mem_cons_of_mem _ hq)
  apart q hq q' hq' := h.apart q (List.mem_cons_of_mem _ hq) q' (List.mem_cons_of_mem _ hq')

/-- The attempts of a host in what a tick logs. -/
def attemptsOf (a : Str) (log : List (Str × Bool)) : List (Str × Bool) :=
  log.filter (fun p => p.1 = a)

section

variable {a : Str} {t : Tick} {sched : Schedule} {entries : List (Str × Schedule)}

theorem attemptsOf_self {done : Option Bool} {log : List (Str × Bool)} :
    attemptsOf a (done.toList.map (Prod.mk a) ++ log) =
      done.toList.map (Prod.mk a) ++ attemptsOf a log := by
  unfold attemptsOf
  rw [List.filter_append, List.filter_eq_self.mpr]
  intro p hp
  obtain ⟨b, -, rfl⟩ := List.mem_map.mp hp
  exact decide_eq_true rfl

theorem attemptsOf_other {b : Str} {done : Option Bool} {log : List (Str × Bool)} (h : a ≠ b) :
    attemptsOf a (done.toList.map (Prod.mk b) ++ log) = attemptsOf a log := by
  unfold attemptsOf
  rw [List.filter_append, List.filter_eq_nil_iff.mpr, List.nil_append]
  intro p hp
  obtain ⟨c, -, rfl⟩ := List.mem_map.mp hp
  rw [decide_eq_true_iff]
  exact Ne.symm h

/-- The visits of the other hosts: nothing changes for this one. -/
theorem visitAll_others (s : SchedulerState)
    (hother : ∀ p ∈ entries, p.1 ≠ a ∧ (p.2.enabled = true → hostDir a ≠ hostDir p.1)) :
    SameFor a (visitAll t entries s).1 s ∧ attemptsOf a (visitAll t entries s).2 = [] := by
  induction entries generalizing s with
  | nil => exact ⟨⟨rfl, rfl⟩, rfl⟩
  | cons p rest ih =>
    obtain ⟨b, sched⟩ := p
    obtain ⟨hne, hdir⟩ := hother (b, sched) List.mem_cons_self
    unfold visitAll
    split
    · exact ⟨⟨rfl, rfl⟩, rfl⟩
    · next s₁ done hvisit =>
      obtain ⟨hsame, hlog⟩ := ih s₁ (fun q hq => hother q (List.mem_cons_of_mem _ hq))
      have hfirst := visit_other (Ne.symm hne) hdir hvisit
      dsimp only
      rw [attemptsOf_other (Ne.symm hne)]
      exact ⟨⟨hsame.1.trans hfirst.1, hsame.2.trans hfirst.2⟩, hlog⟩

/-- A tick visits the host once, as if it visited no other. -/
theorem visitAll_at (s : SchedulerState) (hsound : Sound entries)
    (hdistinct : (entries.map Prod.fst).Nodup) (hmem : (a, sched) ∈ entries)
    (henabled : sched.enabled = true) :
    ∃ s' done, visit t a sched s = some (s', done) ∧ SameFor a (visitAll t entries s).1 s' ∧
      attemptsOf a (visitAll t entries s).2 = done.toList.map (Prod.mk a) := by
  induction entries generalizing s with
  | nil => cases hmem
  | cons p rest ih =>
    obtain ⟨b, schedB⟩ := p
    rw [List.map_cons, List.nodup_cons] at hdistinct
    obtain ⟨s₁, done, hvisit⟩ := exists_visit t b s (hsound.hashable (b, schedB) List.mem_cons_self)
    unfold visitAll
    rw [hvisit]
    dsimp only
    by_cases hab : a = b
    · subst hab
      have hsched : sched = schedB := by
        rcases List.mem_cons.mp hmem with heq | hrest
        · exact (Prod.mk.inj heq).2
        · exact absurd (List.mem_map.mpr ⟨_, hrest, rfl⟩) hdistinct.1
      subst hsched
      have hothers : SameFor a (visitAll t rest s₁).1 s₁ ∧
          attemptsOf a (visitAll t rest s₁).2 = [] := visitAll_others s₁ (by
        intro q hq
        have hne : q.1 ≠ a := fun heq => hdistinct.1 (List.mem_map.mpr ⟨q, hq, heq⟩)
        refine ⟨hne, fun hq' => ?_⟩
        exact hsound.apart (a, sched) List.mem_cons_self q (List.mem_cons_of_mem _ hq) henabled hq'
          (Ne.symm hne))
      refine ⟨s₁, done, hvisit, hothers.1, ?_⟩
      rw [attemptsOf_self, hothers.2, List.append_nil]
    · have hrest : (a, sched) ∈ rest := by
        rcases List.mem_cons.mp hmem with heq | hrest
        · exact absurd (Prod.mk.inj heq).1 hab
        · exact hrest
      have hfirst : SameFor a s₁ s := visit_other hab (fun hb =>
        hsound.apart (a, sched) hmem (b, schedB) List.mem_cons_self henabled hb hab) hvisit
      obtain ⟨s₂, done', hvisit', hsame, hlog⟩ := ih s₁ hsound.tail hdistinct.2 hrest
      obtain ⟨s', hvisit'', hsame'⟩ := visit_congr hfirst hvisit'
      refine ⟨s', done', hvisit'', ⟨hsame.1.trans hsame'.1, hsame.2.trans hsame'.2⟩, ?_⟩
      rw [attemptsOf_other hab, hlog]

end

/-! ## Runs -/

/-- A tick and its attempts. -/
abbrev Entry := Tick × List (Str × Bool)

/-- A tick of a run: the state after it, and the history with it. -/
def stepHistory (schedules : Schedules) (run : SchedulerState × List Entry) (t : Tick) :
    SchedulerState × List Entry :=
  let r := schedulerTick schedules t run.1
  (r.1, run.2 ++ [(t, r.2)])

/-- The state after the ticks, and the attempts of each of them. -/
def history (schedules : Schedules) (ticks : List Tick) : SchedulerState × List Entry :=
  ticks.foldl (stepHistory schedules) (emptyStore, [])

/-- The local times that a run reads never go back. -/
structure InOrder (ticks : List Tick) : Prop where
  within : ∀ t ∈ ticks, ∀ a, t.now ≤ (t.reading a).created
  between : ticks.Pairwise (fun t u => ∀ a, (t.reading a).created ≤ u.now)

/-- A backup of the host has succeeded in the tick. -/
def Entry.succeeded (e : Entry) (a : Str) : Prop := (a, true) ∈ e.2

/-- A backup of the host was attempted in the tick. -/
def Entry.attempted (e : Entry) (a : Str) : Bool := attemptsOf a e.2 ≠ []

/-- When the last attempt for the host was noted, if there was one. -/
def lastNoted (entries : List Entry) (a : Str) : Option Rat :=
  (entries.filter (fun e => e.attempted a)).getLast?.map (fun e => (e.1.reading a).noted)

/-- The time of the tick, or of its backup, is in the period. -/
def Entry.within (e : Entry) (a : Str) (now : DateTime) (period : Interval) : Prop :=
  samePeriod e.1.now now period = true ∨ samePeriod (e.1.reading a).created now period = true

/-- Two ticks in which a backup of the host succeeds are of different periods,
and no tick has two. -/
def AtMostOnce (schedules : Schedules) (ticks : List Tick) (a : Str) (period : Interval) : Prop :=
  (∀ e ∈ (history schedules ticks).2, (attemptsOf a e.2).length ≤ 1) ∧
    (history schedules ticks).2.Pairwise (fun e e' => e.succeeded a → e'.succeeded a →
      ¬ e.within a e'.1.now period ∧ ¬ e.within a (e'.1.reading a).created period)

/-- No backup that is stored for the host is of the period. -/
def NoneOfPeriod (s : SchedulerState) (a : Str) (now : DateTime) (period : Interval) : Prop :=
  ∀ n ∈ listBackups s.store a, ∀ d, backupFilenameDt n = some d → samePeriod d now period = false

/-- A backup of the host is attempted in each tick that is late enough in a
period without one, and late enough after the last attempt. -/
def OnTime (schedules : Schedules) (ticks : List Tick) (a : Str) (sched : Schedule) : Prop :=
  ∀ before t after, ticks = before ++ t :: after →
    (∃ host, registered t.hosts a = some host ∧ host.standby ≠ some true) →
    sched.preferred t.now = true →
    NoneOfPeriod (history schedules before).1 a t.now sched.period →
    (∀ noted, lastNoted (history schedules before).2 a = some noted →
      retryThrottle ≤ (t.reading a).clock - noted) →
    attemptsOf a (schedulerTick schedules t (history schedules before).1).2 ≠ []

theorem history_concat {schedules : Schedules} {ticks : List Tick} {t : Tick} :
    history schedules (ticks ++ [t]) = stepHistory schedules (history schedules ticks) t :=
  List.foldl_concat ..

/-- What holds of a host after each tick of a run. -/
structure RunInv (schedules : Schedules) (a : Str) (sched : Schedule) (ticks : List Tick) : Prop where
  names : ∀ n ∈ ((history schedules ticks).1.store (hostDir a)).names,
    ∃ u ∈ ticks, n = backupName (u.reading a).created sched.includePriv
  newest : ∀ e ∈ (history schedules ticks).2, e.succeeded a →
    ∃ n ∈ ((history schedules ticks).1.store (hostDir a)).names,
      backupName (e.1.reading a).created sched.includePriv ≤ n
  last : (history schedules ticks).1.lastAttempt a =
    (lastNoted (history schedules ticks).2 a).getD 0
  ticks_eq : (history schedules ticks).2.map Prod.fst = ticks

section

variable {schedules : Schedules} {a : Str} {sched : Schedule} {ticks : List Tick} {t : Tick}
  {s : SchedulerState}

/-- An attempt adds no file but that of the new backup. -/
theorem mem_of_mem_attempt {r : Reading} {n : Str}
    (hn : n ∈ ((attempt r a sched s).1.store (hostDir a)).names) :
    n ∈ (s.store (hostDir a)).names ∨ n = backupName r.created sched.includePriv := by
  unfold attempt at hn
  dsimp only at hn
  split at hn
  · dsimp only at hn
    rw [mem_pruneBackups, update_self] at hn
    exact mem_add.mp hn.1
  · exact .inl hn
  · dsimp only at hn
    rw [update_self] at hn
    exact .inl (mem_remove.mp hn).1
  · dsimp only at hn
    rw [update_self] at hn
    exact mem_add.mp hn

/-- No attempt loses the newest backup.  A file that a failed fetch removes was
not there before. -/
theorem exists_ge_of_attempt {r : Reading} {n : Str} (hkeep : 1 ≤ sched.keep)
    (hnew : backupName r.created sched.includePriv ∉ (s.store (hostDir a)).names)
    (hn : n ∈ (s.store (hostDir a)).names ∨
      n = backupName r.created sched.includePriv ∧ (attempt r a sched s).2 = true) :
    ∃ m ∈ ((attempt r a sched s).1.store (hostDir a)).names, n ≤ m := by
  unfold attempt at hn ⊢
  dsimp only at hn ⊢
  split at hn
  · dsimp only
    -- The greatest of all files stays, since nothing is newer.
    have hmem : n ∈ ((s.store (hostDir a)).add (backupName r.created sched.includePriv)).names :=
      mem_add.mpr (hn.imp_right And.left)
    obtain ⟨m, hm, hgreatest⟩ := exists_greatest (List.ne_nil_of_mem hmem)
    refine ⟨m, ?_, hgreatest n hmem⟩
    rw [mem_pruneBackups, update_self]
    refine ⟨hm, fun hgone => ?_⟩
    have hnone : newerThan m ((s.store (hostDir a)).add
        (backupName r.created sched.includePriv)) = [] := by
      apply above_greatest
      intro y hy
      exact hgreatest y (List.mem_filter.mp hy).1
    have hcount := hgone.1.2
    rw [hnone, List.length_nil] at hcount
    omega
  · exact ⟨n, hn.resolve_right (fun h => by cases h.2), le_refl n⟩
  · have hold := hn.resolve_right (fun h => by cases h.2)
    refine ⟨n, ?_, le_refl n⟩
    dsimp only
    rw [update_self, mem_remove]
    exact ⟨hold, decide_eq_false (fun heq => hnew (heq ▸ hold))⟩
  · refine ⟨n, ?_, le_refl n⟩
    dsimp only
    rw [update_self, mem_add]
    exact .inl (hn.resolve_right (fun h => by cases h.2))

/-- When a backup is due, no time up to that of a backup in the store, or of one
with a lesser name, is in the period. -/
theorem not_samePeriod_of_stored (hinv : RunInv schedules a sched ticks) {now c d : DateTime}
    {n : Str} (hbefore : ∀ u ∈ ticks, (u.reading a).created ≤ now)
    (hdue : backupDue (newestBackupDt (history schedules ticks).1.store a) now sched = some true)
    (hn : n ∈ ((history schedules ticks).1.store (hostDir a)).names)
    (hc : backupName c sched.includePriv ≤ n) (hd : d ≤ c) :
    samePeriod d now sched.period = false := by
  obtain ⟨m, hm, hgreatest⟩ := exists_greatest (List.ne_nil_of_mem hn)
  obtain ⟨u, hu, rfl⟩ := hinv.names m hm
  have hnewest := newestBackupDt_eq hm (isValid_backupName _ _) hgreatest
    (backupFilenameDt_backupName _ _)
  have hdifferent := not_samePeriod_of_due hdue hnewest
  have hlate : c.toSecond ≤ (u.reading a).created.toSecond := by
    by_contra hearly
    have hlt := backupName_lt (p := sched.includePriv) (q := sched.includePriv) (not_le.mp hearly)
    exact absurd (hc.trans (hgreatest n hn)) (not_le.mpr hlt)
  by_contra hsame
  have hsame' : samePeriod d.toSecond now sched.period = true := by
    rw [samePeriod_toSecond]
    simpa using hsame
  have hmid := samePeriod_mid ((DateTime.toSecond_mono hd).trans hlate)
    (DateTime.toSecond_le.trans (hbefore u hu)) hsame'
  rw [hmid] at hdifferent
  cases hdifferent

theorem attempted_iff {e : Entry} {done : Option Bool}
    (hlog : attemptsOf a e.2 = done.toList.map (Prod.mk a)) : e.attempted a = done.isSome := by
  unfold Entry.attempted
  rw [hlog]
  cases done <;> rfl

theorem succeeded_iff {e : Entry} {done : Option Bool}
    (hlog : attemptsOf a e.2 = done.toList.map (Prod.mk a)) : e.succeeded a ↔ done = some true := by
  have hmem : (a, true) ∈ e.2 ↔ (a, true) ∈ attemptsOf a e.2 := by
    unfold attemptsOf
    rw [List.mem_filter]
    simp
  unfold Entry.succeeded
  rw [hmem, hlog]
  cases done <;> simp [eq_comm]

/-- A tick after a run is one visit of the host. -/
theorem tick_at (hsound : Sound schedules.entries) (hget : schedules.get? a = some sched)
    (henabled : sched.enabled = true) (s : SchedulerState) (t : Tick) :
    ∃ s' done, visit t a sched s = some (s', done) ∧
      SameFor a (schedulerTick schedules t s).1 s' ∧
      attemptsOf a (schedulerTick schedules t s).2 = done.toList.map (Prod.mk a) :=
  visitAll_at s hsound schedules.distinct (Dict.mem_entries.mpr hget) henabled

theorem lastNoted_concat {entries : List Entry} {e : Entry} :
    lastNoted (entries ++ [e]) a =
      if e.attempted a then some (e.1.reading a).noted else lastNoted entries a := by
  unfold lastNoted
  rw [List.filter_append]
  cases h : e.attempted a
  · simp [h]
  · simp [h]

/-- The new backup of an attempt was not stored before. -/
theorem new_not_mem (hinv : RunInv schedules a sched ticks) (horder : InOrder (ticks ++ [t]))
    (hdue : backupDue (newestBackupDt (history schedules ticks).1.store a) t.now sched = some true) :
    backupName (t.reading a).created sched.includePriv ∉
      ((history schedules ticks).1.store (hostDir a)).names := by
  intro hmem
  have hbefore : ∀ u ∈ ticks, (u.reading a).created ≤ t.now := fun u hu =>
    (List.pairwise_append.mp horder.between).2.2 u hu t List.mem_cons_self a
  have hnow : t.now ≤ (t.reading a).created := horder.within t (by simp) a
  have hdifferent := not_samePeriod_of_stored hinv hbefore hdue hmem (le_refl _) hnow
  have hsame : samePeriod t.now t.now sched.period = true := by
    cases sched.period <;> simp [samePeriod]
  rw [hsame] at hdifferent
  cases hdifferent

/-- A tick keeps the invariant. -/
theorem runInv_concat (hsound : Sound schedules.entries) (hget : schedules.get? a = some sched)
    (henabled : sched.enabled = true) (hkeep : 1 ≤ sched.keep) (horder : InOrder (ticks ++ [t]))
    (hinv : RunInv schedules a sched ticks) : RunInv schedules a sched (ticks ++ [t]) := by
  obtain ⟨s', done, hvisit, hsame, hlog⟩ :=
    tick_at hsound hget henabled (history schedules ticks).1 t
  have hsucceeded := succeeded_iff (e := (t, _)) hlog
  have hattempted := attempted_iff (e := (t, _)) hlog
  have hstore : (history schedules (ticks ++ [t])).1.store (hostDir a) = s'.store (hostDir a) := by
    rw [history_concat]
    exact hsame.1
  have hentries : (history schedules (ticks ++ [t])).2 =
      (history schedules ticks).2 ++ [(t, (schedulerTick schedules t (history schedules ticks).1).2)] := by
    rw [history_concat]
    rfl
  refine ⟨?_, ?_, ?_, ?_⟩
  · intro n hn
    rw [hstore] at hn
    rcases visit_cases hvisit with ⟨rfl, -⟩ | ⟨-, -, rfl, -⟩
    · obtain ⟨u, hu, hname⟩ := hinv.names n hn
      exact ⟨u, List.mem_append_left _ hu, hname⟩
    · rcases mem_of_mem_attempt hn with hold | hnew
      · obtain ⟨u, hu, hname⟩ := hinv.names n hold
        exact ⟨u, List.mem_append_left _ hu, hname⟩
      · exact ⟨t, by simp, hnew⟩
  · intro e he hsucc
    rw [hentries, List.mem_append, List.mem_singleton] at he
    rw [hstore]
    rcases visit_cases hvisit with ⟨rfl, rfl⟩ | ⟨-, hdue, rfl, rfl⟩
    · rcases he with hold | rfl
      · exact hinv.newest e hold hsucc
      · cases hsucceeded.mp hsucc
    · have hnew := new_not_mem hinv horder hdue
      rcases he with hold | rfl
      · obtain ⟨n, hn, hle⟩ := hinv.newest e hold hsucc
        obtain ⟨m, hm, hnm⟩ := exists_ge_of_attempt hkeep hnew (.inl hn)
        exact ⟨m, hm, hle.trans hnm⟩
      · exact exists_ge_of_attempt hkeep hnew
          (.inr ⟨rfl, Option.some.inj (hsucceeded.mp hsucc)⟩)
  · rw [hentries, lastNoted_concat, hattempted]
    have hlast : (history schedules (ticks ++ [t])).1.lastAttempt a = s'.lastAttempt a := by
      rw [history_concat]
      exact hsame.2
    rw [hlast]
    rcases visit_cases hvisit with ⟨rfl, rfl⟩ | ⟨-, -, rfl, rfl⟩
    · exact hinv.last
    · show _ = (t.reading a).noted
      unfold attempt
      dsimp only
      split <;> exact Function.update_self ..
  · rw [hentries, List.map_append, hinv.ticks_eq]
    rfl

theorem runInv_nil : RunInv schedules a sched [] where
  names _ hn := absurd hn List.not_mem_nil
  newest _ he := absurd he List.not_mem_nil
  last := rfl
  ticks_eq := rfl

theorem InOrder.prefix {post : List Tick} (h : InOrder (ticks ++ post)) : InOrder ticks where
  within t ht := h.within t (List.mem_append_left _ ht)
  between := (List.pairwise_append.mp h.between).1

theorem runInv (hsound : Sound schedules.entries) (hget : schedules.get? a = some sched)
    (henabled : sched.enabled = true) (hkeep : 1 ≤ sched.keep) (horder : InOrder ticks) :
    RunInv schedules a sched ticks := by
  induction ticks using List.reverseRecOn with
  | nil => exact runInv_nil
  | append_singleton ticks t ih =>
    exact runInv_concat hsound hget henabled hkeep horder (ih horder.prefix)

/-! ## The two properties -/

theorem atMostOnce (hsound : Sound schedules.entries) (hget : schedules.get? a = some sched)
    (henabled : sched.enabled = true) (hkeep : 1 ≤ sched.keep) (horder : InOrder ticks) :
    AtMostOnce schedules ticks a sched.period := by
  induction ticks using List.reverseRecOn with
  | nil => exact ⟨fun e he => absurd he List.not_mem_nil, List.Pairwise.nil⟩
  | append_singleton ticks t ih =>
    have hinv := runInv hsound hget henabled hkeep horder.prefix
    obtain ⟨hone, hpairwise⟩ := ih horder.prefix
    obtain ⟨s', done, hvisit, -, hlog⟩ := tick_at hsound hget henabled (history schedules ticks).1 t
    have hsucceeded := succeeded_iff (e := (t, _)) hlog
    have hentries : (history schedules (ticks ++ [t])).2 =
        (history schedules ticks).2 ++ [(t, (schedulerTick schedules t (history schedules ticks).1).2)] := by
      rw [history_concat]
      rfl
    unfold AtMostOnce
    rw [hentries]
    constructor
    · intro e he
      rw [List.mem_append, List.mem_singleton] at he
      rcases he with hold | rfl
      · exact hone e hold
      · dsimp only
        rw [hlog, List.length_map]
        cases done <;> simp
    · rw [List.pairwise_append]
      refine ⟨hpairwise, List.pairwise_singleton _ _, ?_⟩
      intro e he e' he' hsucc hsucc'
      rw [List.mem_singleton] at he'
      subst he'
      have hdue : backupDue (newestBackupDt (history schedules ticks).1.store a) t.now sched =
          some true := by
        rcases visit_cases hvisit with ⟨-, hnone⟩ | ⟨-, hdue, -⟩
        · rw [hnone] at hsucceeded
          cases hsucceeded.mp hsucc'
        · exact hdue
      have hbefore : ∀ u ∈ ticks, (u.reading a).created ≤ t.now := fun u hu =>
        (List.pairwise_append.mp horder.between).2.2 u hu t List.mem_cons_self a
      have hmem : e.1 ∈ ticks := by
        rw [← hinv.ticks_eq]
        exact List.mem_map_of_mem he
      have hstarted : e.1.now ≤ (e.1.reading a).created :=
        horder.within e.1 (List.mem_append_left _ hmem) a
      obtain ⟨n, hn, hle⟩ := hinv.newest e he hsucc
      have hapart : ∀ d, d ≤ (e.1.reading a).created → samePeriod d t.now sched.period = false :=
        fun d hd => not_samePeriod_of_stored hinv hbefore hdue hn hle hd
      have hnow : ¬ e.within a t.now sched.period := by
        intro hor
        rcases hor with h | h
        · rw [hapart _ hstarted] at h
          cases h
        · rw [hapart _ (le_refl _)] at h
          cases h
      refine ⟨hnow, fun hor => hnow ?_⟩
      -- The tick is between the two in time, so it is of their common period.
      have hcreated : t.now ≤ (t.reading a).created := horder.within t (by simp) a
      have hlate := hbefore e.1 hmem
      rcases hor with h | h
      · have hmid := samePeriod_mid (hstarted.trans hlate) hcreated h
        exact .inl (samePeriod_of_common h hmid)
      · have hmid := samePeriod_mid hlate hcreated h
        exact .inr (samePeriod_of_common h hmid)

theorem onTime (hsound : Sound schedules.entries) (hget : schedules.get? a = some sched)
    (henabled : sched.enabled = true) (hkeep : 1 ≤ sched.keep) (horder : InOrder ticks) :
    OnTime schedules ticks a sched := by
  intro before t after hticks hhost hpreferred hnone hclock
  obtain ⟨host, hregistered, hstandby⟩ := hhost
  have hinv : RunInv schedules a sched before := by
    rw [hticks] at horder
    exact runInv hsound hget henabled hkeep horder.prefix
  obtain ⟨s', done, hvisit, -, hlog⟩ := tick_at hsound hget henabled (history schedules before).1 t
  have hhashable : sched.hashable = true :=
    hsound.hashable (a, sched) (Dict.mem_entries.mpr hget) henabled
  have hdue : backupDue (newestBackupDt (history schedules before).1.store a) t.now sched =
      some true := by
    have hother : (newestBackupDt (history schedules before).1.store a).any
        (fun d => samePeriod d t.now sched.period) = false := by
      cases hnewest : newestBackupDt (history schedules before).1.store a with
      | none => rfl
      | some d =>
        obtain ⟨n, hn, hd⟩ := List.exists_of_findSome?_eq_some hnewest
        exact hnone n hn d hd
    unfold backupDue
    rw [hother, hhashable, hpreferred]
    rfl
  have hthrottle : retryThrottle ≤
      (t.reading a).clock - (history schedules before).1.lastAttempt a := by
    rw [hinv.last]
    cases hnoted : lastNoted (history schedules before).2 a with
    | none =>
      rw [Option.getD_none, sub_zero]
      exact (t.reading a).clock_late
    | some noted => exact hclock noted hnoted
  have hattempt := visit_eq_attempt henabled hregistered hstandby hdue hthrottle
  rw [hvisit] at hattempt
  rw [hlog, (Prod.mk.inj (Option.some.inj hattempt)).2]
  simp

/-- When all intervals can be looked up and the hosts have different
directories, a host has at most one backup in a period, and one is attempted in
each tick that is late enough in a period without one. -/
theorem scheduled_backups (hsound : Sound schedules.entries) (hget : schedules.get? a = some sched)
    (henabled : sched.enabled = true) (hkeep : 1 ≤ sched.keep) (horder : InOrder ticks) :
    AtMostOnce schedules ticks a sched.period ∧ OnTime schedules ticks a sched :=
  ⟨atMostOnce hsound hget henabled hkeep horder, onTime hsound hget henabled hkeep horder⟩

end

/-! ## A schedule that raises -/

/-- The schedules of one host. -/
def oneSchedule (sched : Schedule) : Schedules := ⟨[("pve1", sched)], List.nodup_singleton _⟩

theorem sound_daily : Sound (oneSchedule (dailySchedule 1)).entries where
  hashable p hp _ := by
    rw [List.mem_singleton.mp hp]
    rfl
  apart p hp q hq _ _ hne := by
    rw [List.mem_singleton.mp hp, List.mem_singleton.mp hq] at hne
    exact absurd rfl hne

theorem inOrder_goodTicks : InOrder [goodTick 2 (by decide), goodTick 3 (by decide)] where
  within t ht a := by
    simp only [List.mem_cons, List.not_mem_nil, or_false] at ht
    rcases ht with rfl | rfl <;> exact le_refl _
  between := by
    refine List.Pairwise.cons ?_ (List.pairwise_singleton ..)
    intro u hu a
    rw [List.mem_singleton.mp hu]
    show earlyMorning 2 (by decide) ≤ earlyMorning 3 (by decide)
    decide

theorem scheduled_backups_daily :
    AtMostOnce (oneSchedule (dailySchedule 1))
      [goodTick 2 (by decide), goodTick 3 (by decide)] "pve1" .daily ∧
    OnTime (oneSchedule (dailySchedule 1))
      [goodTick 2 (by decide), goodTick 3 (by decide)] "pve1" (dailySchedule 1) :=
  scheduled_backups sound_daily
    (show (oneSchedule (dailySchedule 1)).get? "pve1" = some (dailySchedule 1) from rfl)
    rfl (by decide) inOrder_goodTicks

/-- What the client sends with a list for the interval. -/
def clientListInterval : List (Str × Json) :=
  [("enabled", .bool true), ("interval", .list []), ("hour", .int 3), ("keep", .int 1)]

def listSchedule : Schedule where
  enabled := true
  interval := .list []
  hour := 3
  weekday := 0
  keep := 1
  includePriv := false

/-- The look-up of such an interval raises in each tick, so no backup is ever
attempted. -/
theorem list_interval_stops : ¬ ∀ (client : List (Str × Json)) (sched : Schedule) (a : Str)
    (ticks : List Tick), setSchedule client = some sched → sched.enabled = true →
      1 ≤ sched.keep → InOrder ticks → OnTime (oneSchedule sched) ticks a sched := by
  intro hclaim
  have hboth : InOrder ([goodTick 2 (by decide)] ++ [goodTick 3 (by decide)]) := inOrder_goodTicks
  have horder : InOrder [goodTick 2 (by decide)] := hboth.prefix
  have htime := hclaim clientListInterval listSchedule "pve1" [goodTick 2 (by decide)]
    rfl rfl (by decide) horder
  refine htime [] (goodTick 2 (by decide)) [] rfl ?_ (by decide) ?_ ?_ ?_
  · exact ⟨plainHost "pve1", rfl, by decide⟩
  · intro n hn
    exact absurd hn List.not_mem_nil
  · intro noted hnoted
    cases hnoted
  · rfl

end PveZfsTool.HostBackups
