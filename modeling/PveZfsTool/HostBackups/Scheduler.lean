import PveZfsTool.Backups.Listing
import PveZfsTool.HostBackups.Store

/-!
# The scheduler of the config backups

This models `set_schedule`, `backup_filename_dt`, `_same_period`, `backup_due`,
`_newest_backup_dt` and `_scheduler_tick` of `hostbackup.py`.

A schedule keeps its interval as the client has sent it, since only the other
fields are converted.  What a tick takes from outside is in `Tick`: the clocks,
the registered hosts, and for each host how its backup goes.  The
notifications and the log are left out.

* `visit_cases`: what a tick does for one host.
* `mem_stored_of_visit`: what is stored after a backup and the pruning.
-/

namespace PveZfsTool.HostBackups

open Text Newest Calendar Ssh Backups

/-! ## Schedules -/

/-- A schedule as `set_schedule` stores it. -/
structure Schedule where
  enabled : Bool
  interval : Json
  hour : Int
  weekday : Int
  keep : Nat
  includePriv : Bool

/-- `sched.get(key, default)` -/
def getOr (sched : List (Str × Json)) (key : Str) (default : Json) : Json :=
  (sched.lookup key).getD default

/-- The schedule that `set_schedule` stores.  `none` where `int` raises. -/
def setSchedule (sched : List (Str × Json)) : Option Schedule := do
  let hour ← (getOr sched "hour" (.int 3)).toInt?
  let weekday ← (getOr sched "weekday" (.int 0)).toInt?
  let keep ← (getOr sched "keep" (.int 8)).toInt?
  return {
    enabled := (getOr sched "enabled" .null).truthy
    interval := getOr sched "interval" (.str "weekly")
    hour := hour
    weekday := weekday
    keep := keep.toNat
    includePriv := (getOr sched "include_priv" (.bool false)).truthy }

/-- The three intervals that are told apart. -/
inductive Interval where
  | daily
  | weekly
  | monthly
  deriving DecidableEq

/-- Anything but `weekly` and `monthly` counts as daily. -/
def Schedule.period (sched : Schedule) : Interval :=
  match sched.interval with
  | .str s => if s = "weekly" then .weekly else if s = "monthly" then .monthly else .daily
  | _ => .daily

/-- `_same_period` -/
def samePeriod (d now : DateTime) : Interval → Bool
  | .weekly => d.isoCalendar = now.isoCalendar
  | .monthly => d.year = now.year ∧ d.month = now.month
  | .daily => d.year = now.year ∧ d.month = now.month ∧ d.day = now.day

/-- `_INTERVAL_SECONDS` -/
def Interval.seconds : Interval → Nat
  | .daily => 86400
  | .weekly => 604800
  | .monthly => 2592000

/-- The interval can be looked up in a dictionary. -/
def Schedule.hashable (sched : Schedule) : Bool :=
  match sched.interval with
  | .list _ | .dict _ => false
  | _ => true

/-- On or after the preferred weekday, at or after the preferred hour. -/
def Schedule.preferred (sched : Schedule) (now : DateTime) : Bool :=
  (sched.period ≠ .weekly || sched.weekday ≤ now.weekday) && sched.hour ≤ now.hour

/-- `backup_due`.  `none` where the look-up of the interval raises
`TypeError`. -/
def backupDue (newest : Option DateTime) (now : DateTime) (sched : Schedule) : Option Bool :=
  if newest.any (fun d => samePeriod d now sched.period) then some false
  else if sched.hashable then
    let overdue := newest.all (fun d => sched.period.seconds * (3 / 2 : Rat) < now.seconds - d.seconds)
    some (sched.preferred now || overdue)
  else none

/-- `backup_filename_dt` -/
def backupFilenameDt (filename : Str) : Option DateTime :=
  (fileStamp? filename).bind (fun p => strptime (p.1 ++ p.2.1))

/-- `_newest_backup_dt` -/
def newestBackupDt (store : BackupStore) (address : Str) : Option DateTime :=
  (listBackups store address).findSome? backupFilenameDt

/-! ## Ticks -/

/-- How `create_backup` ends.  After a failed fetch the file is removed, where
the file system can remove it. -/
inductive Outcome where
  | stored
  | notBuilt
  | notFetched (removed : Bool)
  deriving DecidableEq

/-- `_RETRY_THROTTLE_SEC` -/
def retryThrottle : Rat := 1800

/-- What a tick meets at one host. -/
structure Reading where
  /-- `time.time()` at the throttle, and when the attempt is noted.  It counts
  from 1970. -/
  clock : Rat
  clock_late : retryThrottle ≤ clock
  noted : Rat
  /-- The local time that `create_backup` reads. -/
  created : DateTime
  outcome : Outcome
  /-- The files that `os.remove` can remove. -/
  removable : Str → Bool

/-- One call of `_scheduler_tick`. -/
structure Tick where
  now : DateTime
  hosts : HostsFile
  reading : Str → Reading

structure SchedulerState where
  store : BackupStore
  /-- `_last_attempt.get(address, 0)` -/
  lastAttempt : Str → Rat

/-- The last of the entries with the address: a later one overwrites it. -/
def registered (hosts : HostsFile) (address : Str) : Option HostRecord :=
  (hosts.filter (fun h => h.address = address)).getLast?

/-- `create_backup` and what follows it.  The answer says whether it has
succeeded. -/
def attempt (r : Reading) (address : Str) (sched : Schedule) (s : SchedulerState) :
    SchedulerState × Bool :=
  let name := backupName r.created sched.includePriv
  let lastAttempt := Function.update s.lastAttempt address r.noted
  let added := s.store.update (hostDir address) (fun f => f.add name)
  match r.outcome with
  | .stored => (⟨pruneBackups r.removable added address sched.keep, lastAttempt⟩, true)
  | .notBuilt => (⟨s.store, lastAttempt⟩, false)
  | .notFetched true =>
      (⟨s.store.update (hostDir address) (fun f => f.remove (· = name)), lastAttempt⟩, false)
  | .notFetched false => (⟨added, lastAttempt⟩, false)

/-- What a tick does for one schedule: the state, and whether a backup was
attempted and has succeeded.  `none` where it raises `TypeError`. -/
def visit (t : Tick) (address : Str) (sched : Schedule) (s : SchedulerState) :
    Option (SchedulerState × Option Bool) :=
  let r := t.reading address
  if !sched.enabled then some (s, none)
  else match registered t.hosts address with
    | none => some (s, none)
    | some host =>
        if host.standby = some true then some (s, none)
        else match backupDue (newestBackupDt s.store address) t.now sched with
          | none => none
          | some false => some (s, none)
          | some true =>
              if r.clock - s.lastAttempt address < retryThrottle then some (s, none)
              else
                let (s', succeeded) := attempt r address sched s
                some (s', some succeeded)

/-- The loop of `_scheduler_tick`: the state, and the attempts with their
addresses.  An exception ends the loop. -/
def visitAll (t : Tick) : List (Str × Schedule) → SchedulerState →
    SchedulerState × List (Str × Bool)
  | [], s => (s, [])
  | (address, sched) :: rest, s =>
      match visit t address sched s with
      | none => (s, [])
      | some (s', done) =>
          let (s'', log) := visitAll t rest s'
          (s'', (done.toList.map (Prod.mk address)) ++ log)

/-- `schedules` of the config file. -/
abbrev Schedules := Dict Str Schedule

/-- `_scheduler_tick` -/
def schedulerTick (schedules : Schedules) (t : Tick) (s : SchedulerState) :
    SchedulerState × List (Str × Bool) :=
  visitAll t schedules.entries s

/-! ## The backup of one visit -/

/-- The files of the host after `create_backup` has stored one. -/
def withNew (r : Reading) (address : Str) (sched : Schedule) (s : SchedulerState) : Folder :=
  (s.store (hostDir address)).add (backupName r.created sched.includePriv)

theorem mem_add {f : Folder} {name n : Str} : n ∈ (f.add name).names ↔ n ∈ f.names ∨ n = name := by
  unfold Folder.add
  split_ifs with h
  · constructor
    · exact .inl
    · intro hor
      rcases hor with hmem | rfl
      · exact hmem
      · exact h
  · rw [List.mem_append, List.mem_singleton]

theorem mem_remove {f : Folder} {gone : Str → Bool} {n : Str} :
    n ∈ (f.remove gone).names ↔ n ∈ f.names ∧ gone n = false := by
  unfold Folder.remove
  rw [List.mem_filter, Bool.not_eq_true']

/-- A visit attempts a backup, or it changes nothing. -/
theorem visit_cases {t : Tick} {address : Str} {sched : Schedule} {s s' : SchedulerState}
    {done : Option Bool} (h : visit t address sched s = some (s', done)) :
    (s' = s ∧ done = none) ∨
      (sched.enabled = true ∧ backupDue (newestBackupDt s.store address) t.now sched = some true ∧
        s' = (attempt (t.reading address) address sched s).1 ∧
        done = some (attempt (t.reading address) address sched s).2) := by
  unfold visit at h
  dsimp only at h
  split at h
  · cases h
    exact .inl ⟨rfl, rfl⟩
  · next henabled =>
    rw [Bool.not_eq_true', Bool.not_eq_false] at henabled
    split at h
    · cases h
      exact .inl ⟨rfl, rfl⟩
    · split at h
      · cases h
        exact .inl ⟨rfl, rfl⟩
      · split at h
        · cases h
        · cases h
          exact .inl ⟨rfl, rfl⟩
        · next hdue =>
          split at h
          · cases h
            exact .inl ⟨rfl, rfl⟩
          · cases h
            exact .inr ⟨henabled, hdue, rfl, rfl⟩

/-- A visit of a host that is due and not throttled. -/
theorem visit_eq_attempt {t : Tick} {address : Str} {sched : Schedule} {s : SchedulerState}
    {host : HostRecord} (henabled : sched.enabled = true)
    (hhost : registered t.hosts address = some host) (hstandby : host.standby ≠ some true)
    (hdue : backupDue (newestBackupDt s.store address) t.now sched = some true)
    (hclock : retryThrottle ≤ (t.reading address).clock - s.lastAttempt address) :
    visit t address sched s = some ((attempt (t.reading address) address sched s).1,
      some (attempt (t.reading address) address sched s).2) := by
  unfold visit
  dsimp only
  rw [henabled, hhost, hdue]
  dsimp only
  rw [if_neg (by decide), if_neg hstandby, if_neg (not_lt.mpr hclock)]

theorem attempt_stored {r : Reading} {address : Str} {sched : Schedule} {s : SchedulerState}
    (h : (attempt r address sched s).2 = true) :
    (attempt r address sched s).1.store =
      pruneBackups r.removable (s.store.update (hostDir address)
        (fun f => f.add (backupName r.created sched.includePriv))) address sched.keep := by
  unfold attempt at h ⊢
  dsimp only at h ⊢
  split at h <;> first
    | rfl
    | cases h

/-- The backup is older than the `keep` newest of the files, by name. -/
def BeyondKeep (keep : Nat) (f : Folder) (n : Str) : Prop :=
  isValidBackupName n = true ∧ keep ≤ (newerThan n f).length

theorem mem_pruneBackups {removable : Str → Bool} {store : BackupStore} {address n : Str}
    {keep : Nat} :
    n ∈ (pruneBackups removable store address keep (hostDir address)).names ↔
      n ∈ (store (hostDir address)).names ∧
        ¬ (BeyondKeep keep (store (hostDir address)) n ∧ removable n = true) := by
  unfold pruneBackups BeyondKeep
  rw [update_self, mem_remove]
  constructor
  · intro ⟨hmem, hkept⟩
    refine ⟨hmem, fun hgone => ?_⟩
    have hselected : n ∈ selectPrunable (store (hostDir address)).names keep :=
      mem_selectPrunable.mpr ⟨hmem, hgone.1.1, by exact_mod_cast hgone.1.2⟩
    rw [List.contains_iff_mem.mpr hselected, hgone.2] at hkept
    cases hkept
  · intro ⟨hmem, hkept⟩
    refine ⟨hmem, ?_⟩
    rw [Bool.and_eq_false_iff]
    by_cases hremovable : removable n = true
    · left
      rw [← Bool.not_eq_true, List.contains_iff_mem]
      intro hselected
      obtain ⟨-, hvalid, hcount⟩ := mem_selectPrunable.mp hselected
      exact hkept ⟨⟨hvalid, by exact_mod_cast hcount⟩, hremovable⟩
    · exact .inr (Bool.not_eq_true _ ▸ hremovable)

/-- What the client sends for a schedule of one host. -/
def clientSchedule (keep : Int) : List (Str × Json) :=
  [("enabled", .bool true), ("interval", .str "daily"), ("keep", .int keep)]

def dailySchedule (keep : Nat) : Schedule where
  enabled := true
  interval := .str "daily"
  hour := 3
  weekday := 0
  keep := keep
  includePriv := false

def emptyStore : SchedulerState where
  store := fun _ => ⟨[], List.nodup_nil⟩
  lastAttempt := fun _ => 0

/-- The third hour of a day of January 2026. -/
def earlyMorning (day : Nat) (h : 1 ≤ day ∧ day ≤ 31) : DateTime where
  year := 2026
  month := 1
  day := day
  hour := 3
  minute := 0
  second := 0
  microsecond := 0
  year_bounds := year_2026_bounds
  month_bounds := by decide
  day_bounds := h
  hour_lt := by decide
  minute_lt := minute_zero_lt
  second_lt := minute_zero_lt
  microsecond_lt := microsecond_zero_lt

/-- A tick that finds one host, whose backup succeeds. -/
def goodTick (day : Nat) (h : 1 ≤ day ∧ day ≤ 31) : Tick where
  now := earlyMorning day h
  hosts := [plainHost "pve1"]
  reading := fun _ =>
    { clock := 1800
      clock_late := le_refl _
      noted := 1800
      created := earlyMorning day h
      outcome := .stored
      removable := fun _ => true }

theorem visit_goodTick (keep : Nat) :
    visit (goodTick 2 (by decide)) "pve1" (dailySchedule keep) emptyStore =
      some ((attempt ((goodTick 2 (by decide)).reading "pve1") "pve1" (dailySchedule keep)
        emptyStore).1, some true) :=
  have hhost : registered (goodTick 2 (by decide)).hosts "pve1" = some (plainHost "pve1") := rfl
  visit_eq_attempt rfl hhost (by decide) rfl (by
    show retryThrottle ≤ (1800 : Rat) - 0
    rw [sub_zero]
    exact le_refl _)

end PveZfsTool.HostBackups
