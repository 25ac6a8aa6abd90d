import PveZfsTool.Lib.Transducer
import PveZfsTool.Monitor.State
import Mathlib.Data.Rat.Defs
import Mathlib.Algebra.Order.Ring.Rat

/-!
# The fill level of a pool

`check_capacity` of `app/monitor.py` gets the fill of each pool of a host
and tells about a pool that rose to the warning or to the critical level.
The row of a pool holds the level of its last sample and the time of the
last notification, and a notification within twelve hours of the last one
is held back.

A level is recorded whether or not the rise to it was told about, so a rise
that was held back is not told about later.  `capacity_escalates_iff` says
for which runs no escalation is lost.

* `capacityStep_value`, `capacityStep_sends`: what one sample records and
  when it sends.
* `capacityTurn_sends`: the same for a sample in a run, by the level of the
  sample before it.
-/

namespace PveZfsTool

open Text Transducer

/-! ## Levels -/

/-- The bands of `_LEVEL_ORDER`. -/
inductive Level where
  | belowWarn
  | warn
  | crit
  deriving DecidableEq

/-- `_LEVEL_ORDER` -/
def Level.order : Level → Nat
  | .belowWarn => 0
  | .warn => 1
  | .crit => 2

/-- The two limits.  A warning level above the critical one cannot be
built. -/
structure Thresholds where
  warnPct : Rat
  critPct : Rat
  ordered : warnPct ≤ critPct

/-- A threshold in the configuration.  `bad` is one that `float` refuses. -/
inductive Setting where
  | missing
  | number (pct : Rat)
  | bad

def Setting.getD : Setting → Rat → Rat
  | .number pct, _ => pct
  | _, default => default

/-- The limits as the configuration has them.  The first bad one ends the
reading. -/
def readThresholds : Setting → Setting → Rat × Rat
  | .bad, _ => (70, 80)
  | warn, .bad => (warn.getD 70, 80)
  | warn, crit => (warn.getD 70, crit.getD 80)

def clampPct (pct : Rat) : Rat := min (max pct 1) 100

/-- `capacity_thresholds` -/
def capacityThresholds (warn crit : Setting) : Thresholds :=
  let critPct := clampPct (readThresholds warn crit).2
  ⟨min (clampPct (readThresholds warn crit).1) critPct, critPct, min_le_right _ _⟩

/-- `capacity_level` -/
def capacityLevel (cap : Rat) (th : Thresholds) : Level :=
  if th.critPct ≤ cap then .crit else if th.warnPct ≤ cap then .warn else .belowWarn

/-- `should_alert_capacity`.  A row with a value outside `_LEVEL_ORDER` is
handled as no row. -/
def shouldAlertCapacity (prev : Option Level) (now : Level) : Bool :=
  if now = .belowWarn then false
  else
    match prev with
    | none => true
    | some prev => prev.order < now.order

/-! ## The check -/

/-- The format `.0f`: to the nearest integer, and to the even one of two. -/
def fixed0 (q : Rat) : Str :=
  let a := if q < 0 then -q else q
  let floor := a.floor.toNat
  let up := 1 / 2 < a - floor ∨ a - floor = 1 / 2 ∧ floor % 2 = 1
  (if q < 0 then "-" else "") ++ ofNat (if up then floor + 1 else floor)

/-- The fill of one pool, with the clock when it is looked at and after its
notification. -/
structure Sample where
  host : MonitoredHost
  pool : Str
  cap : Rat
  thresholds : Thresholds
  now : Nat
  sentAt : Nat

/-- The key of the row in the scope `capacity`. -/
def Sample.key (s : Sample) : Str := s.host.address ++ ":" ++ s.pool

def Sample.level (s : Sample) : Level := capacityLevel s.cap s.thresholds

def capacityNotice (s : Sample) (level : Level) : Notification where
  eventType := "health_warning"
  title := "Capacity " ++ (if level = .crit then "Critical" else "Warning") ++ ": " ++ s.pool
  message := "Pool '" ++ s.pool ++ "' on " ++ s.host.label ++ " is at " ++ fixed0 s.cap ++
    "% (threshold " ++
    fixed0 (if level = .crit then s.thresholds.critPct else s.thresholds.warnPct) ++ "%).\n\n" ++
    "Snapshots often account for the difference between used data " ++
    "and pool usage -- check the snapshot list if this is unexpected."
  priority := if level = .crit then 9 else 7
  host := some s.host.address

/-- `CAPACITY_ALERT_COOLDOWN` -/
def capacityAlertCooldown : Nat := 12 * 3600

/-- The body of the loop of `check_capacity`, on the row of the pool. -/
def capacityStep (row : Option (Row Level)) (s : Sample) :
    Option (Row Level) × Option Notification :=
  if shouldAlertCapacity (row.map Row.value) s.level &&
      cooldownOk (row.bind Row.lastAlertTs) s.now capacityAlertCooldown then
    (some (stateSet row s.level (some s.sentAt)), some (capacityNotice s s.level))
  else (some (stateSet row s.level none), none)

/-- A pool as the caller lists it.  `cap` is `none` where the fill is missing
or no number. -/
structure PoolReading where
  name : Str
  cap : Option Rat
  now : Nat
  sentAt : Nat

/-- The arguments of one call, with the limits it reads. -/
structure CapacityCall where
  host : MonitoredHost
  thresholds : Thresholds
  pools : List PoolReading

/-- The pools a call does not skip. -/
def CapacityCall.samples (c : CapacityCall) : List Sample :=
  c.pools.filterMap fun p =>
    if p.name = [] then none
    else p.cap.map fun cap => ⟨c.host, p.name, cap, c.thresholds, p.now, p.sentAt⟩

/-- `check_capacity`: the loop over the pools, on the rows of the scope. -/
def checkCapacity (rows : Str → Option (Row Level)) (c : CapacityCall) :
    (Str → Option (Row Level)) × List Notification :=
  (after (keyed Sample.key capacityStep) rows c.samples,
    (turns (keyed Sample.key capacityStep) rows c.samples).filterMap Turn.output)

/-- Calls one after the other are one loop over their pools. -/
theorem after_checkCapacity {rows : Str → Option (Row Level)} {calls : List CapacityCall} :
    after checkCapacity rows calls =
      after (keyed Sample.key capacityStep) rows (calls.flatMap CapacityCall.samples) := by
  induction calls generalizing rows with
  | nil => rfl
  | cons c calls ih =>
    rw [after_cons, ih, List.flatMap_cons, after_append]
    rfl

/-! ## Runs -/

/-- One sample of a run, with the row it found. -/
abbrev CapacityTurn := Turn (Option (Row Level)) Sample (Option Notification)

/-- The samples that calls take of one pool. -/
def capacityTurns (calls : List CapacityCall) (key : Str) : List CapacityTurn :=
  turnsAt Sample.key capacityStep key (fun _ => none) (calls.flatMap CapacityCall.samples)

namespace CapacityTurn

def level (t : CapacityTurn) : Level := t.input.level

/-- A notification of the level went out. -/
def Says (t : CapacityTurn) (l : Level) : Prop := t.output = some (capacityNotice t.input l)

/-- The last notification for the pool is twelve hours old, or there is
none. -/
def CooldownOver (t : CapacityTurn) : Prop :=
  cooldownOk (t.before.bind Row.lastAlertTs) t.input.now capacityAlertCooldown = true

end CapacityTurn

/-- After `earlier` the pool rose to the level, and it has stayed there in
`stay` for longer than the cooldown. -/
structure Stay (l : Level) (earlier stay : List CapacityTurn) : Prop where
  rose : ∀ t ∈ earlier.getLast?, t.level.order < l.order
  stays : ∀ t ∈ stay, l.order ≤ t.level.order
  pastCooldown : ∃ first ∈ stay.head?, ∃ t ∈ stay,
    first.input.now + capacityAlertCooldown ≤ t.input.now

/-- Each stay at a level has been told about, at that level or above. -/
def EscalationsHeard (ts : List CapacityTurn) : Prop :=
  ∀ l, l ≠ .belowWarn → ∀ earlier stay later, ts = earlier ++ stay ++ later →
    Stay l earlier stay → ∃ t ∈ stay, ∃ l' : Level, l.order ≤ l'.order ∧ t.Says l'

/-- In each stay some sample that rises above the one before it comes when
the cooldown is over.  The first sample of a stay is one that rises. -/
def RisesOutsideCooldown (ts : List CapacityTurn) : Prop :=
  ∀ l, l ≠ .belowWarn → ∀ earlier stay later, ts = earlier ++ stay ++ later →
    Stay l earlier stay → ∃ before t rest, stay = before ++ t :: rest ∧
      (∀ u ∈ before.getLast?, u.level.order < t.level.order) ∧ t.CooldownOver

section Step

variable {row : Option (Row Level)} {s : Sample}

theorem capacityStep_value : (capacityStep row s).1.map Row.value = some s.level := by
  unfold capacityStep
  split <;> rfl

theorem shouldAlertCapacity_iff {prev : Option Level} {now : Level} :
    shouldAlertCapacity prev now = true ↔
      now ≠ .belowWarn ∧ ∀ p ∈ prev, p.order < now.order := by
  unfold shouldAlertCapacity
  cases prev with
  | none => simp
  | some p => simp

theorem capacityStep_sends :
    (capacityStep row s).2 = some (capacityNotice s s.level) ↔
      shouldAlertCapacity (row.map Row.value) s.level = true ∧
        cooldownOk (row.bind Row.lastAlertTs) s.now capacityAlertCooldown = true := by
  unfold capacityStep
  rw [← Bool.and_eq_true]
  split <;> simp_all

theorem capacityStep_notice {n : Notification} (h : (capacityStep row s).2 = some n) :
    n = capacityNotice s s.level := by
  unfold capacityStep at h
  split at h
  · simpa using h.symm
  · cases h

end Step

section

variable {samples : List Sample} {earlier later : List CapacityTurn} {t : CapacityTurn}

/-- A sample sends when it rises above the sample before it and the cooldown
is over. -/
theorem capacityTurn_sends
    (hcut : turns capacityStep none samples = earlier ++ t :: later) :
    t.Says t.level ↔
      (t.level ≠ .belowWarn ∧ ∀ u ∈ earlier.getLast?, u.level.order < t.level.order) ∧
        t.CooldownOver := by
  obtain ⟨hbefore, hout⟩ := turn_of_cut hcut
  have hvalue : t.before.map Row.value = (earlier.map Turn.input).getLast?.map Sample.level := by
    rw [hbefore]
    exact after_remembers (by intro _ _; exact capacityStep_value) rfl _
  rw [CapacityTurn.Says, hout, CapacityTurn.level, capacityStep_sends, hvalue,
    shouldAlertCapacity_iff, List.getLast?_map]
  simp [CapacityTurn.level, CapacityTurn.CooldownOver]

theorem capacityTurn_told {l : Level}
    (hcut : turns capacityStep none samples = earlier ++ t :: later) (h : t.Says l) :
    t.Says t.level := by
  obtain ⟨-, hout⟩ := turn_of_cut hcut
  rw [CapacityTurn.Says, hout] at h ⊢
  rw [h]
  exact congrArg some (capacityStep_notice h)

end

/-- The rises that the cooldown holds back are the only ones that are lost. -/
theorem escalationsHeard_iff (samples : List Sample) :
    EscalationsHeard (turns capacityStep none samples) ↔
      RisesOutsideCooldown (turns capacityStep none samples) := by
  constructor
  · intro h l hl earlier stay later hcut hstay
    obtain ⟨t, ht, l', -, htold⟩ := h l hl earlier stay later hcut hstay
    obtain ⟨before, rest, rfl⟩ := List.mem_iff_append.mp ht
    have hcut' : turns capacityStep none samples = (earlier ++ before) ++ t :: (rest ++ later) := by
      rw [hcut]
      simp
    obtain ⟨⟨-, hrise⟩, hover⟩ := (capacityTurn_sends hcut').mp (capacityTurn_told hcut' htold)
    refine ⟨before, t, rest, rfl, fun u hu => hrise u ?_, hover⟩
    rw [List.getLast?_append, hu]
    rfl
  · intro h l hl earlier stay later hcut hstay
    obtain ⟨before, t, rest, rfl, hrise, hover⟩ := h l hl earlier stay later hcut hstay
    have ht : t ∈ before ++ t :: rest := by simp
    have hlevel := hstay.stays t ht
    have hcut' : turns capacityStep none samples = (earlier ++ before) ++ t :: (rest ++ later) := by
      rw [hcut]
      simp
    refine ⟨t, ht, t.level, hlevel, (capacityTurn_sends hcut').mpr ⟨⟨?_, ?_⟩, hover⟩⟩
    · intro hbelow
      rw [hbelow] at hlevel
      cases l <;> simp_all [Level.order]
    · intro u hu
      cases hlast : before.getLast? with
      | none =>
        rw [List.getLast?_append, hlast] at hu
        exact lt_of_lt_of_le (hstay.rose u hu) hlevel
      | some v =>
        rw [List.getLast?_append, hlast] at hu
        cases hu
        exact hrise u hlast

/-- Over every run of calls, each escalation of a pool has been told about
once the cooldown is past if and only if each stay has a rise that the
cooldown does not hold back. -/
theorem capacity_escalates_iff (calls : List CapacityCall) (key : Str) :
    EscalationsHeard (capacityTurns calls key) ↔ RisesOutsideCooldown (capacityTurns calls key) := by
  unfold capacityTurns
  rw [turnsAt_eq_turns]
  exact escalationsHeard_iff _

/-- A pool that is at 75 % and an hour later at 85 %, and stays there for
two days. -/
def filling : List CapacityCall :=
  [(75, 0), (85, 3600), (85, 90000), (85, 180000)].map fun (cap, ts) =>
    ⟨⟨"10.0.0.9", "pve2", false⟩, capacityThresholds .missing .missing,
      [⟨"tank", some cap, 1000000 + ts, 1000000 + ts⟩]⟩

/-- Nobody is told that it is critical. -/
theorem capacity_swallowed : ¬ EscalationsHeard (capacityTurns filling "10.0.0.9:tank") := by
  intro h
  have hcut : capacityTurns filling "10.0.0.9:tank" = [_] ++ [_, _, _] ++ [] := rfl
  have hsilent : ∀ t ∈ (capacityTurns filling "10.0.0.9:tank").tail, t.output = none := by
    decide
  have hstay := h .crit (by decide) _ _ _ hcut
    ⟨by decide, by decide, _, rfl, _, List.mem_of_getLast? rfl, by decide⟩
  obtain ⟨t, ht, l, -, htold⟩ := hstay
  rw [CapacityTurn.Says, hsilent t ht] at htold
  cases htold

end PveZfsTool
