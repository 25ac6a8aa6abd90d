import PveZfsTool.Lib.Calendar
import PveZfsTool.Lib.Dict
import PveZfsTool.Lib.Transducer
import PveZfsTool.Lib.Words

/-!
# The schedules of the AI reports

`_scheduler_loop` of `app/ai_reports.py` fires a schedule in the first tick at
or after its hour, and remembers the period of that run in `_last_run_keys`.
`start_scheduler` runs when the process starts and after every save of the
config.  It enters the current period for the schedules whose target has passed
and that have no entry.

The fields of a schedule are of the types that the settings page sends.  A
tick is one step, with all of its reports.

* `periodRunKey_weekly` and `periodRunKey_daily`: the run key tells the week,
  or the day.
* `step_at`: what an event does to the run key of one schedule.
* `fires_iff`: when a schedule fires.
-/

namespace PveZfsTool.Reports

open Text Calendar Transducer

/-! ## Schedules -/

structure ReportSchedule where
  enabled : Bool
  interval : Str
  hour : Int
  weekday : Int
  /-- `now.replace` raises for any other hour. -/
  hour_bounds : 0 ≤ hour ∧ hour < 24
  deriving DecidableEq

/-- `schedule` and `schedules` of the config file. -/
structure ReportConfig where
  allHosts : Option ReportSchedule
  hosts : Dict Str ReportSchedule

/-- An entry of `get_active_schedules`. -/
structure ScheduleEntry extends ReportSchedule where
  key : Str
  host : Option Str
  label : Str
  deriving DecidableEq

def allKey : Str := "__all__"

/-- `get_active_schedules`, without the times that the page shows -/
def getActiveSchedules (config : ReportConfig) : List ScheduleEntry :=
  (config.allHosts.toList.map fun s =>
    { toReportSchedule := s, key := allKey, host := none, label := "all_hosts" }) ++
  config.hosts.entries.map fun e =>
    { toReportSchedule := e.2, key := "host:" ++ e.1, host := some e.1, label := e.1 }

/-- `strftime("%Y-%m-%d")` -/
def dateText (now : DateTime) : Str := pad 4 now.year ++ '-' :: (pad 2 now.month ++ '-' :: pad 2 now.day)

/-- `_period_run_key` -/
def periodRunKey (now : DateTime) (interval : Str) : Str :=
  if interval = "weekly" then
    ofNat now.isoCalendar.1 ++ '-' :: 'W' :: ofNat now.isoCalendar.2
  else dateText now

/-- `_period_target_passed` -/
def periodTargetPassed (now : DateTime) (s : ReportSchedule) : Bool :=
  if s.interval = "weekly" then
    if s.weekday < now.weekday then true
    else decide (now.weekday = s.weekday ∧ s.hour ≤ now.hour)
  else decide (s.hour ≤ now.hour)

/-- The schedule may fire at this time: it is its day, and not too early. -/
def isTime (now : DateTime) (s : ReportSchedule) : Bool :=
  decide (s.hour ≤ now.hour) &&
    (s.interval = "daily" || s.interval = "weekly" && decide (now.weekday = s.weekday))

/-! ## Events -/

/-- `_last_run_keys` -/
abbrev RunKeys := Str → Option Str

/-- `_seed_elapsed_schedules` -/
def seedElapsedSchedules (config : ReportConfig) (now : DateTime) (keys : RunKeys) : RunKeys :=
  (getActiveSchedules config).foldl (fun keys e =>
    if e.enabled && periodTargetPassed now e.toReportSchedule && (keys e.key).isNone then
      Function.update keys e.key (some (periodRunKey now e.interval))
    else keys) keys

/-- The entries that want to fire in a tick. -/
def dueEntries (config : ReportConfig) (now : DateTime) (keys : RunKeys) : List ScheduleEntry :=
  (getActiveSchedules config).filter fun e =>
    e.enabled && isTime now e.toReportSchedule && keys e.key ≠ some (periodRunKey now e.interval)

/-- A report that a tick makes, or leaves to that of all hosts. -/
structure ReportRun where
  key : Str
  host : Option Str
  covered : Bool
  deriving DecidableEq

/-- One tick of `_scheduler_loop`. -/
def schedulerTick (config : ReportConfig) (now : DateTime) (keys : RunKeys) :
    RunKeys × List ReportRun :=
  let due := dueEntries config now keys
  let allHostsDue := due.any (fun e => e.key = allKey)
  (due.foldl (fun keys e => Function.update keys e.key (some (periodRunKey now e.interval))) keys,
    due.map fun e => ⟨e.key, e.host, allHostsDue && e.key ≠ allKey⟩)

inductive EventKind where
  | tick
  | save
  | restart
  deriving DecidableEq

/-- An event, with the time and the config that it reads. -/
structure Event where
  kind : EventKind
  now : DateTime
  config : ReportConfig

/-- What an event does.  A new process has no entries. -/
def step (keys : RunKeys) (ev : Event) : RunKeys × List ReportRun :=
  match ev.kind with
  | .tick => schedulerTick ev.config ev.now keys
  | .save => (seedElapsedSchedules ev.config ev.now keys, [])
  | .restart => (seedElapsedSchedules ev.config ev.now (fun _ => none), [])

/-! ## Periods -/

section Periods

variable {t u v : DateTime} {i j : Str} {s : ReportSchedule}

theorem dateText_eq_iff : dateText t = dateText u ↔ t.date = u.date := by
  rw [DateTime.date_eq_iff]
  constructor
  · intro h
    obtain ⟨hyear, hrest⟩ := List.append_inj h (by rw [length_pad, length_pad])
    obtain ⟨hmonth, hday⟩ := List.append_inj (List.cons.inj hrest).2 (by rw [length_pad, length_pad])
    have ht := t.year_bounds.2
    have hu := u.year_bounds.2
    have htMonth := t.month_bounds.2
    have huMonth := u.month_bounds.2
    have htDay := t.day_le
    have huDay := u.day_le
    exact ⟨pad_inj (by omega) (by omega) hyear, pad_inj (by omega) (by omega) hmonth,
      pad_inj (by omega) (by omega) (List.cons.inj hday).2⟩
  · intro ⟨hyear, hmonth, hday⟩
    rw [dateText, dateText, hyear, hmonth, hday]

theorem ofNat_inj {m n : Nat} (h : ofNat m = ofNat n) : m = n := by
  have hvalue := congrArg (fun s => Nat.ofDigitChars 10 s 0) h
  simpa [ofNat] using hvalue

theorem not_mem_pad {c : Char} {width n : Nat} (hc : isAsciiDigit c = false) : c ∉ pad width n := by
  induction width generalizing n with
  | zero => exact List.not_mem_nil
  | succ width ih =>
    intro hmem
    rcases List.mem_append.mp hmem with hmem | hmem
    · exact ih hmem
    · rw [List.mem_singleton.mp hmem, isAsciiDigit_digitChar (Nat.mod_lt _ (by omega))] at hc
      cases hc

theorem not_mem_dateText : 'W' ∉ dateText t := by
  have hpad : ∀ width n, 'W' ∉ pad width n := fun width n => not_mem_pad (by decide)
  intro hmem
  simp only [dateText, List.mem_append, List.mem_cons, hpad, false_or, or_false] at hmem
  revert hmem
  decide

/-- A week has a `W` in its key, and a day has none. -/
theorem weekly_of_periodRunKey_eq (h : periodRunKey t i = periodRunKey u j) :
    i = "weekly" ↔ j = "weekly" := by
  by_cases hi : i = "weekly"
  · by_cases hj : j = "weekly"
    · exact iff_of_true hi hj
    · rw [periodRunKey, if_pos hi, periodRunKey, if_neg hj] at h
      exact absurd (h ▸ by simp) (not_mem_dateText (t := u))
  · by_cases hj : j = "weekly"
    · rw [periodRunKey, if_neg hi, periodRunKey, if_pos hj] at h
      exact absurd (h ▸ by simp) (not_mem_dateText (t := t))
    · exact iff_of_false hi hj

/-- The run key depends on the interval only by whether it is weekly. -/
theorem periodRunKey_congr (h : i = "weekly" ↔ j = "weekly") : periodRunKey t i = periodRunKey t j := by
  unfold periodRunKey
  rw [if_congr h rfl rfl]

theorem periodRunKey_weekly (hi : i = "weekly") :
    periodRunKey t i = periodRunKey u i ↔ t.monday = u.monday := by
  rw [← DateTime.isoCalendar_eq_iff, periodRunKey, periodRunKey, if_pos hi, if_pos hi]
  constructor
  · intro h
    have hdash : ∀ n, '-' ∉ ofNat n := fun n hmem =>
      absurd (isAsciiDigit_of_mem_ofNat hmem) (by decide)
    have hyear := congrArg (beforeFirst '-') h
    have hweek := congrArg (afterFirst '-') h
    rw [beforeFirst_append (hdash _), beforeFirst_append (hdash _)] at hyear
    rw [afterFirst_append (hdash _), afterFirst_append (hdash _)] at hweek
    exact Prod.ext (ofNat_inj hyear) (ofNat_inj (List.cons.inj hweek).2)
  · intro h
    rw [h]

theorem periodRunKey_daily (hi : i ≠ "weekly") :
    periodRunKey t i = periodRunKey u i ↔ t.date = u.date := by
  rw [periodRunKey, periodRunKey, if_neg hi, if_neg hi, dateText_eq_iff]

/-- What lies between two times of a period is in it. -/
theorem periodRunKey_between (htu : t ≤ u) (huv : u ≤ v) (h : periodRunKey t i = periodRunKey v i) :
    periodRunKey u i = periodRunKey v i := by
  by_cases hi : i = "weekly"
  · rw [periodRunKey_weekly hi] at h ⊢
    have htu := DateTime.monday_le htu
    have huv := DateTime.monday_le huv
    omega
  · rw [periodRunKey_daily hi] at h ⊢
    exact DateTime.date_between htu huv h

/-- Within a period the target stays passed. -/
theorem periodTargetPassed_mono (htu : t ≤ u) (h : periodRunKey t s.interval = periodRunKey u s.interval)
    (hpassed : periodTargetPassed t s = true) : periodTargetPassed u s = true := by
  unfold periodTargetPassed at hpassed ⊢
  by_cases hi : s.interval = "weekly"
  · rw [if_pos hi] at hpassed ⊢
    rw [periodRunKey_weekly hi] at h
    unfold DateTime.monday at h
    have hordinal := DateTime.ordinal_le htu
    have hfirst := t.ordinal_bounds.1
    have hweekday : t.weekday ≤ u.weekday := by
      unfold DateTime.weekday at h ⊢
      omega
    by_cases hlater : s.weekday < u.weekday
    · rw [if_pos hlater]
    · rw [if_neg hlater]
      rw [if_neg (by omega), decide_eq_true_eq] at hpassed
      have hsame : t.ordinal = u.ordinal := by
        unfold DateTime.weekday at h hpassed hlater hweekday
        omega
      have hhour := DateTime.hour_le htu (DateTime.date_eq_of_ordinal_eq htu hsame)
      rw [decide_eq_true_eq]
      omega
  · rw [if_neg hi, decide_eq_true_eq] at hpassed ⊢
    rw [periodRunKey_daily hi] at h
    have hhour := DateTime.hour_le htu h
    omega

/-- A schedule fires only after its target. -/
theorem periodTargetPassed_of_isTime (h : isTime t s = true) : periodTargetPassed t s = true := by
  unfold isTime at h
  unfold periodTargetPassed
  simp only [Bool.and_eq_true, Bool.or_eq_true, decide_eq_true_eq] at h
  obtain ⟨hhour, hday | ⟨hweekly, hweekday⟩⟩ := h
  · rw [if_neg (by rw [hday]; decide), decide_eq_true_eq]
    exact hhour
  · rw [if_pos hweekly, if_neg (by omega), decide_eq_true_eq]
    exact ⟨hweekday, hhour⟩

end Periods

/-! ## One schedule -/

section Step

variable {config : ReportConfig} {keys : RunKeys} {e : ScheduleEntry} {es : List ScheduleEntry}
  {ev : Event} {k : Str}

theorem nodup_keys (config : ReportConfig) : ((getActiveSchedules config).map ScheduleEntry.key).Nodup := by
  have hhosts : (config.hosts.entries.map fun e => ("host:" : Str) ++ e.1).Nodup := by
    have hmap := config.hosts.distinct.map (f := fun name => ("host:" : Str) ++ name)
      (fun a b hab => List.append_cancel_left hab)
    rw [List.map_map] at hmap
    exact hmap
  unfold getActiveSchedules
  rw [List.map_append, List.map_map, List.map_map]
  refine List.Nodup.append ?_ hhosts ?_
  · cases config.allHosts with
    | none => exact List.nodup_nil
    | some s => exact List.nodup_singleton _
  · intro k hall hhost
    obtain ⟨s, -, rfl⟩ := List.mem_map.mp hall
    obtain ⟨host, -, hk⟩ := List.mem_map.mp hhost
    exact absurd (List.cons.inj hk).1 (by decide)

/-! A loop over the schedules, each of which changes its own run key. -/

section Loop

variable {f : RunKeys → ScheduleEntry → RunKeys} {g : ScheduleEntry → Option Str → Option Str}

theorem foldl_of_not_mem (hother : ∀ keys e k, k ≠ e.key → f keys e k = keys k)
    (h : k ∉ es.map ScheduleEntry.key) : es.foldl f keys k = keys k := by
  induction es generalizing keys with
  | nil => rfl
  | cons e es ih =>
    rw [List.map_cons, List.mem_cons, not_or] at h
    rw [List.foldl_cons, ih h.2, hother keys e k h.1]

theorem foldl_of_mem (hother : ∀ keys e k, k ≠ e.key → f keys e k = keys k)
    (hself : ∀ keys e, f keys e e.key = g e (keys e.key))
    (hnodup : (es.map ScheduleEntry.key).Nodup) (he : e ∈ es) :
    es.foldl f keys e.key = g e (keys e.key) := by
  induction es generalizing keys with
  | nil => cases he
  | cons e' es ih =>
    rw [List.map_cons, List.nodup_cons] at hnodup
    rw [List.foldl_cons]
    rcases List.mem_cons.mp he with rfl | he
    · rw [foldl_of_not_mem hother hnodup.1, hself]
    · have hne : e.key ≠ e'.key := fun h => hnodup.1 (h ▸ List.mem_map_of_mem he)
      rw [ih hnodup.2 he, hother keys e' e.key hne]

/-- What holds of a run key and of all that the loop writes. -/
theorem foldl_keeps {Q : Option Str → Prop} (hstep : ∀ keys e, Q (keys k) → Q (f keys e k))
    (h : Q (keys k)) : Q (es.foldl f keys k) := by
  induction es generalizing keys with
  | nil => exact h
  | cons e es ih => exact ih (hstep keys e h)

end Loop

/-- The schedule fires in a tick at this time. -/
def due (now : DateTime) (e : ScheduleEntry) (last : Option Str) : Bool :=
  e.enabled && isTime now e.toReportSchedule && last ≠ some (periodRunKey now e.interval)

/-- The run key of a schedule after an event. -/
def nextRunKey (ev : Event) (e : ScheduleEntry) (last : Option Str) : Option Str :=
  let period := some (periodRunKey ev.now e.interval)
  match ev.kind with
  | .tick => if due ev.now e last then period else last
  | .save =>
      if e.enabled && periodTargetPassed ev.now e.toReportSchedule && last.isNone then period else last
  | .restart => if e.enabled && periodTargetPassed ev.now e.toReportSchedule then period else none

theorem seedElapsedSchedules_at {now : DateTime} (he : e ∈ getActiveSchedules config) :
    seedElapsedSchedules config now keys e.key =
      if e.enabled && periodTargetPassed now e.toReportSchedule && (keys e.key).isNone then
        some (periodRunKey now e.interval)
      else keys e.key := by
  unfold seedElapsedSchedules
  refine foldl_of_mem (g := fun e last =>
    if e.enabled && periodTargetPassed now e.toReportSchedule && last.isNone then
      some (periodRunKey now e.interval)
    else last) ?_ ?_ (nodup_keys config) he
  · intro keys e k hne
    split_ifs
    · exact Function.update_of_ne hne _ _
    · rfl
  · intro keys e
    split_ifs
    · exact Function.update_self _ _ _
    · rfl

theorem mem_dueEntries {now : DateTime} :
    e ∈ dueEntries config now keys ↔ e ∈ getActiveSchedules config ∧ due now e (keys e.key) = true := by
  unfold dueEntries due
  rw [List.mem_filter]

theorem nodup_dueEntries {now : DateTime} :
    ((dueEntries config now keys).map ScheduleEntry.key).Nodup :=
  (nodup_keys config).sublist (List.filter_sublist.map _)

/-- An event treats every schedule by itself. -/
theorem step_at (he : e ∈ getActiveSchedules ev.config) :
    (step keys ev).1 e.key = nextRunKey ev e (keys e.key) := by
  unfold step nextRunKey
  cases ev.kind with
  | tick =>
    show (dueEntries ev.config ev.now keys).foldl _ keys e.key = _
    have hother : ∀ (keys : RunKeys) (e : ScheduleEntry) (k : Str), k ≠ e.key →
        Function.update keys e.key (some (periodRunKey ev.now e.interval)) k = keys k :=
      fun keys e k hne => Function.update_of_ne hne _ _
    dsimp only
    by_cases hdue : due ev.now e (keys e.key) = true
    · rw [if_pos hdue]
      exact foldl_of_mem (g := fun e _ => some (periodRunKey ev.now e.interval)) hother
        (fun keys e => Function.update_self _ _ _) nodup_dueEntries (mem_dueEntries.mpr ⟨he, hdue⟩)
    · rw [if_neg hdue]
      refine foldl_of_not_mem hother (fun hmem => ?_)
      obtain ⟨e', he', hkey⟩ := List.mem_map.mp hmem
      have hsame : e' = e :=
        List.inj_on_of_nodup_map (nodup_keys ev.config) (mem_dueEntries.mp he').1 he hkey
      rw [hsame] at he'
      exact hdue (mem_dueEntries.mp he').2
  | save => exact seedElapsedSchedules_at he
  | restart =>
    show seedElapsedSchedules ev.config ev.now (fun _ => none) e.key = _
    rw [seedElapsedSchedules_at he]
    simp only [Option.isNone_none, Bool.and_true]

/-- An event writes keys of its own time only. -/
theorem step_keeps {Q : Option Str → Prop} (hrestart : ev.kind = .restart → Q none)
    (hkey : ∀ i, Q (some (periodRunKey ev.now i))) (h : Q (keys k)) : Q ((step keys ev).1 k) := by
  have hwrite : ∀ (keys : RunKeys) (e : ScheduleEntry), Q (keys k) →
      Q (Function.update keys e.key (some (periodRunKey ev.now e.interval)) k) := by
    intro keys e h
    by_cases hk : k = e.key
    · rw [hk, Function.update_self]
      exact hkey _
    · rw [Function.update_of_ne hk]
      exact h
  have hseed : ∀ keys : RunKeys, Q (keys k) → Q (seedElapsedSchedules ev.config ev.now keys k) := by
    intro keys h
    refine foldl_keeps (fun keys e h => ?_) h
    split_ifs
    · exact hwrite keys e h
    · exact h
  unfold step
  cases hkind : ev.kind with
  | tick => exact foldl_keeps hwrite h
  | save => exact hseed keys h
  | restart => exact hseed _ (hrestart hkind)

/-! ## Reports -/

/-- The schedule fires, or the run of all hosts in the same tick covers it. -/
def Fires (k : Str) (runs : List ReportRun) : Prop :=
  ∃ r ∈ runs, r.key = k ∧ (r.covered = true → ∃ all ∈ runs, all.key = allKey ∧ all.covered = false)

theorem step_runs : (step keys ev).2 =
    if ev.kind = .tick then
      (dueEntries ev.config ev.now keys).map fun e =>
        ⟨e.key, e.host, (dueEntries ev.config ev.now keys).any (fun e => e.key = allKey) && e.key ≠ allKey⟩
    else [] := by
  unfold step
  cases ev.kind <;> rfl

/-- No schedule has two reports in a tick. -/
theorem nodup_runs : ((step keys ev).2.map ReportRun.key).Nodup := by
  rw [step_runs]
  split_ifs
  · rw [List.map_map]
    exact nodup_dueEntries
  · exact List.nodup_nil

theorem fires_iff (he : e ∈ getActiveSchedules ev.config) :
    Fires e.key (step keys ev).2 ↔ ev.kind = .tick ∧ due ev.now e (keys e.key) = true := by
  rw [step_runs]
  by_cases hkind : ev.kind = .tick
  · rw [if_pos hkind]
    constructor
    · intro ⟨r, hr, hkey, _⟩
      obtain ⟨e', he', rfl⟩ := List.mem_map.mp hr
      have hsame : e' = e :=
        List.inj_on_of_nodup_map (nodup_keys ev.config) (mem_dueEntries.mp he').1 he hkey
      rw [hsame] at he'
      exact ⟨hkind, (mem_dueEntries.mp he').2⟩
    · intro h
      refine ⟨_, List.mem_map_of_mem (mem_dueEntries.mpr ⟨he, h.2⟩), rfl, fun hcovered => ?_⟩
      rw [Bool.and_eq_true, List.any_eq_true] at hcovered
      obtain ⟨⟨all, hall, hkey⟩, -⟩ := hcovered
      rw [decide_eq_true_eq] at hkey
      exact ⟨_, List.mem_map_of_mem hall, hkey, by simp [hkey]⟩
  · rw [if_neg hkind]
    exact iff_of_false (fun ⟨r, hr, _⟩ => by cases hr) (fun h => hkind h.1)

end Step

end PveZfsTool.Reports
