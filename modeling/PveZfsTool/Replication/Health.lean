import PveZfsTool.Lib.Transducer
import PveZfsTool.Monitor.State

/-!
# The health of a replication pair

`app/replication_monitor.py` classifies each pair by the age of its newest
replica snapshot and keeps the last status of the pair in the scope `repl`.
`expandField` and `cronIntervalSeconds` read the schedule, `checkPair` makes
the snapshot of one cycle, and `maybeAlert` compares its status with the one
in the row.

`maybeAlert` tells about a change to `warn` or `crit`, about a change from
one of these to `ok`, and again about a pair that stays at `crit`.  The row
gets the status of every cycle, also of one that told nothing.

* `maybeAlert_status`: the row holds the status of the last cycle.
* `pairTurn_faulty`, `pairTurn_healthy`: what a cycle sends, by the status
  of the cycle before it.
* `open_iff_faulty`: an alert is unanswered exactly when the last status is
  a fault, in the runs that `Steady` describes.
-/

namespace PveZfsTool

open Text Transducer

/-! ## The schedule -/

/-- `range(start, stop + 1, step)`, cut to the values from `lo` to `hi`. -/
def cronRange (start stop : Int) (step : Nat) (lo hi : Int) : List Int :=
  let count := if start ≤ stop then (stop - start).toNat / step + 1 else 0
  ((List.range count).map (fun i => start + i * step)).filter (fun v => lo ≤ v ∧ v ≤ hi)

/-- One part of a cron field.  `none` where `int` raises. -/
def expandPart (part : Str) (lo hi : Int) : Option (List Int) := do
  let base := beforeFirst '/' part
  let step ← if '/' ∈ part then (toInt? (afterFirst '/' part)).map (fun n => max n 1) else some 1
  if base = "*" then return cronRange lo hi step.toNat lo hi
  else if '-' ∈ base then do
    let a ← toInt? (beforeFirst '-' base)
    let b ← toInt? (afterFirst '-' base)
    return cronRange a b step.toNat lo hi
  else do
    let v ← toInt? base
    return cronRange v v step.toNat lo hi

/-- `_expand_field` -/
def expandField (field : Str) (lo hi : Int) : Option (List Int) := do
  let parts ← (splitOn ',' field).mapM (fun part => expandPart part lo hi)
  return (parts.flatten.dedup).mergeSort (fun a b => a ≤ b)

/-- The differences of neighbours. -/
def gaps (times : List Int) : List Int := (times.zip times.tail).map (fun (a, b) => b - a)

/-- `cron_interval_seconds` -/
def cronIntervalSeconds (expr : Str) : Option Int :=
  match splitWords (strip expr) with
  | [minute, hour, _, _, _] =>
      match expandField minute 0 59, expandField hour 0 23 with
      | some minutes, some hours =>
          let times := (hours.flatMap (fun h => minutes.map (fun m => h * 3600 + m * 60))).mergeSort
            (fun a b => a ≤ b)
          match times with
          | [] => none
          | [_] => some 86400
          | first :: rest =>
              let last := rest.getLast?.getD first
              ((86400 - last + first) :: gaps times).min?
      | _, _ => none
  | _ => none

/-! ## The snapshot of a cycle -/

inductive PairStatus where
  | ok
  | warn
  | crit
  | pending
  | noSchedule
  | standby
  deriving DecidableEq

/-- The status in capitals, as the messages have it. -/
def PairStatus.upper : PairStatus → Str
  | .ok => "OK"
  | .warn => "WARN"
  | .crit => "CRIT"
  | .pending => "PENDING"
  | .noSchedule => "NO_SCHEDULE"
  | .standby => "STANDBY"

/-- `new_status in ("warn", "crit")` -/
def PairStatus.isFault : PairStatus → Bool
  | .warn | .crit => true
  | _ => false

/-- `DEFAULT_INTERVAL_SECONDS` -/
def defaultIntervalSeconds : Int := 3600

/-- `_classify`, with the factors 2 and 4. -/
def classify (lagSeconds : Option Int) (intervalSeconds : Int) : PairStatus :=
  let interval := if intervalSeconds ≤ 0 then defaultIntervalSeconds else intervalSeconds
  match lagSeconds with
  | none => .pending
  | some lag => if lag ≤ interval * 2 then .ok else if lag ≤ interval * 4 then .warn else .crit

/-- The snapshot that `_check_pair` returns. -/
structure PairSnapshot where
  hostAddress : Str
  hostName : Str
  configPath : Str
  source : Str
  target : Str
  schedule : Option Str
  intervalSeconds : Option Int
  newestSnapshot : Option Str
  lastSyncTs : Option Int
  lagSeconds : Option Int
  status : PairStatus
  checkedAt : Int
  deriving DecidableEq

/-- The entry of a config that `_check_pair` reads. -/
structure PairConfig where
  path : Str
  source : Str
  target : Str

/-- A timestamp or an interval that is missing or zero does not count. -/
def nonzero (n : Option Int) : Option Int := n.filter (· ≠ 0)

/-- `_check_pair`, after the reads of the schedule and of the newest
snapshot.  A read that fails is `none`. -/
def checkPair (address name : Str) (cfg : PairConfig) (schedule : Option Str)
    (newest : Option (Str × Int)) (now : Int) : PairSnapshot :=
  let schedule' := schedule.filter (· ≠ [])
  let interval := schedule'.bind cronIntervalSeconds
  let newest' := if strip cfg.target = [] then none else newest
  let lastSync := newest'.map Prod.snd
  let lag := (nonzero lastSync).map (fun ts => now - ts)
  let status :=
    if schedule' = none then
      if nonzero lastSync = none then .noSchedule else classify lag defaultIntervalSeconds
    else classify lag ((nonzero interval).getD defaultIntervalSeconds)
  { hostAddress := address
    hostName := name
    configPath := cfg.path
    source := strip cfg.source
    target := strip cfg.target
    schedule
    intervalSeconds := interval
    newestSnapshot := newest'.map Prod.fst
    lastSyncTs := lastSync
    lagSeconds := lag
    status
    checkedAt := now }

/-- What `run_checks_for_host` makes of the snapshot of a pair whose source
is marked standby. -/
def PairSnapshot.judge (s : PairSnapshot) (standbySource : Bool) : PairSnapshot :=
  if standbySource then { s with status := .standby } else s

/-! ## The alert -/

/-- `_state_value` -/
structure PairState where
  status : PairStatus
  lastSyncTs : Option Int
  lagSeconds : Option Int
  schedule : Option Str
  source : Str
  target : Str
  deriving DecidableEq

def PairSnapshot.stateValue (s : PairSnapshot) : PairState :=
  ⟨s.status, s.lastSyncTs, s.lagSeconds, s.schedule, s.source, s.target⟩

/-- `_state_key` -/
def PairSnapshot.stateKey (s : PairSnapshot) : Str := s.hostAddress ++ "::" ++ s.configPath

inductive Severity where
  | info
  | warning
  | error
  deriving DecidableEq

/-- `ALERT_COOLDOWN_SECONDS` -/
def alertCooldownSeconds : Nat := 6 * 3600

/-- What `_maybe_alert_locked` decides: the severity and the start of the
title. -/
def pairAlert (prev : Option PairStatus) (new : PairStatus) (lastAlertTs : Option Nat)
    (now : Nat) : Option (Severity × Str) :=
  if prev ≠ some new ∧ new.isFault then
    some (if new = .warn then .warning else .error, "Replikation " ++ new.upper)
  else if prev ≠ some new ∧ new = .ok ∧ (prev = some .warn ∨ prev = some .crit) then
    some (.info, "Replikation OK")
  else if new = .crit ∧ cooldownOk lastAlertTs now alertCooldownSeconds then
    some (.error, "Replikation weiterhin CRIT")
  else none

/-- One call of `_maybe_alert`.  `sourceMuted` says that the source is a
muted host.  `delivered` says that `send_notification` sends: the event is
on, the target host is not muted and nothing raises. -/
structure Cycle where
  snap : PairSnapshot
  now : Nat
  sentAt : Nat
  sourceMuted : Bool
  delivered : Bool

/-- No message about the pair leaves the tool. -/
def Cycle.muted (c : Cycle) : Bool := c.sourceMuted || !c.delivered

section

variable (localTime : Int → Str)

/-- The lines of the message.  `localTime` is the rendering of a time in the
local zone. -/
def pairMessage (s : PairSnapshot) : Str :=
  join "\n"
    ["Host: " ++ (if s.hostName = [] then s.hostAddress else s.hostName),
      "Config: " ++ s.configPath,
      "Quelle: " ++ s.source,
      "Ziel: " ++ s.target,
      "Status: " ++ s.status.upper,
      match nonzero s.lagSeconds with
      | some lag => "Lag: " ++ ofInt (lag / 3600) ++ " h"
      | none => "Lag: kein Replikat-Snapshot",
      "Cron: " ++ ((s.schedule.filter (· ≠ [])).getD "(kein Cron)"),
      "Letzter Sync: " ++ ((nonzero s.lastSyncTs).map localTime).getD "—"]

def pairNotice (s : PairSnapshot) (title : Str) : Notification where
  eventType := "replication_lag"
  title := title ++ ": " ++ s.source ++ " → " ++ s.target
  message := pairMessage localTime s
  priority := if s.status = .crit then 8 else 5
  host := some s.hostAddress

/-- `_maybe_alert_locked`, on the row of the pair.  The row is written
before the decision, and a second time after an attempt to send. -/
def maybeAlert (row : Option (Row PairState)) (c : Cycle) :
    Option (Row PairState) × Option (Severity × Notification) :=
  let lastAlertTs := row.bind Row.lastAlertTs
  let saved : Row PairState := ⟨c.snap.stateValue, lastAlertTs⟩
  match pairAlert (row.map (fun r => r.value.status)) c.snap.status lastAlertTs c.now with
  | none => (some saved, none)
  | some (severity, title) =>
      if c.sourceMuted then (some saved, none)
      else
        (some { saved with lastAlertTs := some c.sentAt },
          if c.delivered then some (severity, pairNotice localTime c.snap title) else none)

end

/-! ## Runs -/

/-- One call for a pair, with the row it found. -/
abbrev PairTurn := Turn (Option (Row PairState)) Cycle (Option (Severity × Notification))

namespace PairTurn

def status (t : PairTurn) : PairStatus := t.input.snap.status

def Faulty (t : PairTurn) : Prop := t.status.isFault = true

/-- A warning or an error went out. -/
def SaysFault (t : PairTurn) : Prop := ∃ n, t.output = some (.warning, n) ∨ t.output = some (.error, n)

/-- The recovery went out. -/
def SaysRecovery (t : PairTurn) : Prop := ∃ n, t.output = some (.info, n)

end PairTurn

/-- An alert went out, and no recovery has answered it since. -/
def Unanswered (earlier : List PairTurn) : Prop :=
  ∃ before u since, earlier = before ++ u :: since ∧ u.SaysFault ∧ ∀ v ∈ since, ¬ v.SaysRecovery

/-- A recovery goes out at a change to `ok` exactly when an alert is
unanswered. -/
def RecoveriesMatch (ts : List PairTurn) : Prop :=
  ∀ earlier t later, ts = earlier ++ t :: later → t.status = .ok →
    (∀ u ∈ earlier.getLast?, u.status ≠ .ok) → (t.SaysRecovery ↔ Unanswered earlier)

/-- An alert went out since the pair was last `ok` or on standby. -/
def OpenAlert (earlier : List PairTurn) : Prop :=
  ∃ before u since, earlier = before ++ u :: since ∧ u.SaysFault ∧
    ∀ v ∈ since, v.status ≠ .ok ∧ v.status ≠ .standby

/-- While the pair is muted nothing goes out, and at a cycle that is `ok`
and not muted a recovery goes out exactly when an alert is open. -/
def RecoveriesAnswer (ts : List PairTurn) : Prop :=
  ∀ earlier t later, ts = earlier ++ t :: later →
    (t.input.muted = true → t.output = none) ∧
      (t.status = .ok → t.input.muted = false → (t.SaysRecovery ↔ OpenAlert earlier))

/-- The runs in which every faulty pair can be read until it is judged
again, and in which no fault begins while the pair is muted. -/
def Steady (ts : List PairTurn) : Prop :=
  ∀ earlier t later, ts = earlier ++ t :: later →
    ((∃ u ∈ earlier.getLast?, u.Faulty) → t.status ≠ .pending ∧ t.status ≠ .noSchedule) ∧
      (t.Faulty → (∀ u ∈ earlier.getLast?, ¬ u.Faulty) → t.input.muted = false)

section Step

variable {localTime : Int → Str} {row : Option (Row PairState)} {c : Cycle}

theorem maybeAlert_status :
    (maybeAlert localTime row c).1.map (fun r => r.value.status) = some c.snap.status := by
  unfold maybeAlert
  dsimp only
  split
  · rfl
  · split <;> rfl

/-- What a cycle sends. -/
theorem maybeAlert_output :
    (maybeAlert localTime row c).2 =
      if c.muted then none
      else (pairAlert (row.map (fun r => r.value.status)) c.snap.status
        (row.bind Row.lastAlertTs) c.now).map
          (fun (severity, title) => (severity, pairNotice localTime c.snap title)) := by
  unfold maybeAlert Cycle.muted
  dsimp only
  split
  · next h => simp [h]
  · next h =>
    rw [h]
    cases c.sourceMuted <;> cases c.delivered <;> rfl

variable {prev : Option PairStatus} {new : PairStatus} {ts : Option Nat} {now : Nat}

theorem isFault_iff : new.isFault = true ↔ new = .warn ∨ new = .crit := by
  cases new <;> simp [PairStatus.isFault]

/-- The return of a faulty pair is told about. -/
theorem pairAlert_recovers {p : PairStatus} (hp : p.isFault = true) :
    ∃ title, pairAlert (some p) .ok ts now = some (.info, title) := by
  refine ⟨"Replikation OK", ?_⟩
  unfold pairAlert
  rcases isFault_iff.mp hp with rfl | rfl
  · rw [if_neg (by simp [PairStatus.isFault]), if_pos (by simp)]
  · rw [if_neg (by simp [PairStatus.isFault]), if_pos (by simp)]

theorem pairAlert_stays_ok (hprev : ∀ p ∈ prev, p.isFault = false) :
    pairAlert prev .ok ts now = none := by
  unfold pairAlert
  rw [if_neg (by simp [PairStatus.isFault]), if_neg, if_neg (by simp)]
  rintro ⟨-, -, h⟩
  rcases h with rfl | rfl
  · exact absurd (hprev _ rfl) (by decide)
  · exact absurd (hprev _ rfl) (by decide)

/-- A pair that was no fault and is one now is told about. -/
theorem pairAlert_begins (h : new.isFault = true) (hprev : ∀ p ∈ prev, p.isFault = false) :
    ∃ severity title, pairAlert prev new ts now = some (severity, title) ∧
      (severity = .warning ∨ severity = .error) := by
  have hne : prev ≠ some new := by
    intro heq
    rw [hprev new heq] at h
    cases h
  refine ⟨if new = .warn then .warning else .error, "Replikation " ++ new.upper, ?_, ?_⟩
  · unfold pairAlert
    rw [if_pos ⟨hne, h⟩]
  · split <;> simp

/-- Only a fault is told about with a warning or an error. -/
theorem pairAlert_fault {severity : Severity} {title : Str}
    (h : pairAlert prev new ts now = some (severity, title)) (hs : severity ≠ .info) :
    new.isFault = true := by
  unfold pairAlert at h
  split at h
  · next hfault => exact hfault.2
  · split at h
    · cases h
      exact absurd rfl hs
    · split at h
      · next hcrit =>
        rw [hcrit.1]
        rfl
      · cases h

end Step

section

variable {localTime : Int → Str} {cycles : List Cycle} {earlier later : List PairTurn}
  {t : PairTurn}

/-- What a cycle of a run sends, by the status of the cycle before it. -/
theorem pairTurn_output
    (hcut : turns (maybeAlert localTime) none cycles = earlier ++ t :: later) :
    t.output =
      if t.input.muted then none
      else (pairAlert (earlier.getLast?.map PairTurn.status) t.status
        (t.before.bind Row.lastAlertTs) t.input.now).map
          (fun (severity, title) => (severity, pairNotice localTime t.input.snap title)) := by
  obtain ⟨hbefore, hout⟩ := turn_of_cut hcut
  have hvalue : t.before.map (fun r => r.value.status) =
      (earlier.map Turn.input).getLast?.map (fun c => c.snap.status) := by
    rw [hbefore]
    exact after_remembers (by intro _ _; exact maybeAlert_status) rfl _
  rw [hout, maybeAlert_output, hvalue, List.getLast?_map, Option.map_map]
  rfl

/-- A fault that begins in sight sends an alert. -/
theorem pairTurn_begins
    (hcut : turns (maybeAlert localTime) none cycles = earlier ++ t :: later) (hf : t.Faulty)
    (hprev : ∀ u ∈ earlier.getLast?, ¬ u.Faulty) (hseen : t.input.muted = false) :
    t.SaysFault := by
  have hp : ∀ p ∈ earlier.getLast?.map PairTurn.status, p.isFault = false := by
    intro p hp
    obtain ⟨u, hu, rfl⟩ := Option.map_eq_some_iff.mp hp
    exact Bool.eq_false_iff.mpr (hprev u hu)
  obtain ⟨severity, title, halert, hs⟩ := pairAlert_begins hf hp
  have hout := pairTurn_output hcut
  rw [hseen, halert] at hout
  rcases hs with rfl | rfl
  · exact ⟨_, .inl hout⟩
  · exact ⟨_, .inr hout⟩

/-- An alert comes from a fault. -/
theorem pairTurn_fault
    (hcut : turns (maybeAlert localTime) none cycles = earlier ++ t :: later)
    (h : t.SaysFault) : t.Faulty := by
  obtain ⟨n, hn⟩ := h
  have hout := pairTurn_output hcut
  cases hmuted : t.input.muted with
  | true =>
    rw [hout, hmuted] at hn
    simp at hn
  | false =>
    rw [hmuted] at hout
    simp only [Bool.false_eq_true, if_false] at hout
    cases halert : pairAlert (earlier.getLast?.map PairTurn.status) t.status
        (t.before.bind Row.lastAlertTs) t.input.now with
    | none =>
      rw [hout, halert] at hn
      simp at hn
    | some a =>
      obtain ⟨severity, title⟩ := a
      refine pairAlert_fault halert ?_
      rw [hout, halert] at hn
      rcases hn with hn | hn <;> (cases hn; simp)

/-- A cycle that is `ok` and not muted sends the recovery of a fault. -/
theorem pairTurn_recovers
    (hcut : turns (maybeAlert localTime) none cycles = earlier ++ t :: later)
    (hok : t.status = .ok) (hseen : t.input.muted = false) :
    t.SaysRecovery ↔ ∃ u ∈ earlier.getLast?, u.Faulty := by
  have hout := pairTurn_output hcut
  rw [hseen, hok] at hout
  constructor
  · rintro ⟨n, hn⟩
    by_contra hlast
    have hprev : ∀ p ∈ earlier.getLast?.map PairTurn.status, p.isFault = false := by
      intro p hp
      obtain ⟨u, hu, rfl⟩ := Option.map_eq_some_iff.mp hp
      exact Bool.eq_false_iff.mpr (fun hf => hlast ⟨u, hu, hf⟩)
    rw [hout, pairAlert_stays_ok hprev] at hn
    cases hn
  · rintro ⟨u, hu, hf⟩
    obtain ⟨title, halert⟩ : ∃ title, pairAlert (some u.status) .ok
        (t.before.bind Row.lastAlertTs) t.input.now = some (.info, title) :=
      pairAlert_recovers hf
    rw [Option.mem_def.mp hu, Option.map_some, halert] at hout
    exact ⟨_, hout⟩

theorem openAlert_append {u : PairTurn} :
    OpenAlert (earlier ++ [u]) ↔
      u.SaysFault ∨ OpenAlert earlier ∧ u.status ≠ .ok ∧ u.status ≠ .standby := by
  constructor
  · rintro ⟨before, v, since, hcut, htold, hsince⟩
    rcases List.eq_nil_or_concat since with rfl | ⟨since, w, rfl⟩
    · obtain ⟨-, hu⟩ := List.append_inj' hcut rfl
      cases hu
      exact .inl htold
    · rw [List.concat_eq_append, ← List.cons_append, ← List.append_assoc] at hcut
      obtain ⟨rfl, hu⟩ := List.append_inj' hcut rfl
      cases hu
      rw [List.concat_eq_append] at hsince
      exact .inr ⟨⟨before, v, since, rfl, htold, fun x hx => hsince x (by simp [hx])⟩,
        hsince u (by simp)⟩
  · rintro (htold | ⟨⟨before, v, since, rfl, htold, hsince⟩, hu⟩)
    · exact ⟨earlier, u, [], rfl, htold, by simp⟩
    · refine ⟨before, v, since ++ [u], by simp, htold, ?_⟩
      intro x hx
      rcases List.mem_append.mp hx with hx | hx
      · exact hsince x hx
      · rw [List.mem_singleton.mp hx]
        exact hu

/-- The invariant of a steady run: an alert is open exactly when the last
cycle found a fault. -/
theorem open_iff_faulty (hsteady : Steady (turns (maybeAlert localTime) none cycles))
    (hcut : turns (maybeAlert localTime) none cycles = earlier ++ later) :
    OpenAlert earlier ↔ ∃ u ∈ earlier.getLast?, u.Faulty := by
  induction earlier using List.reverseRecOn generalizing later with
  | nil => simp [OpenAlert]
  | append_singleton earlier u ih =>
    rw [List.append_assoc, List.singleton_append] at hcut
    have ih := ih hcut
    obtain ⟨hread, hbegins⟩ := hsteady _ _ _ hcut
    rw [openAlert_append, ih, List.getLast?_concat]
    simp only [Option.mem_def, Option.some.injEq, exists_eq_left']
    constructor
    · rintro (htold | ⟨hlast, hok, hstandby⟩)
      · exact pairTurn_fault hcut htold
      · obtain ⟨hpending, hnone⟩ := hread hlast
        unfold PairTurn.Faulty
        cases hstatus : u.status <;> simp_all [PairStatus.isFault]
    · intro hf
      by_cases hlast : ∃ v ∈ earlier.getLast?, v.Faulty
      · refine .inr ⟨hlast, ?_, ?_⟩ <;>
          (intro hstatus; simp [PairTurn.Faulty, hstatus, PairStatus.isFault] at hf)
      · have hquiet : ∀ v ∈ earlier.getLast?, ¬ v.Faulty := fun v hv hvf => hlast ⟨v, hv, hvf⟩
        exact .inl (pairTurn_begins hcut hf hquiet (hbegins hf hquiet))

end

theorem recoveriesAnswer_of_steady {localTime : Int → Str} {cycles : List Cycle}
    (hsteady : Steady (turns (maybeAlert localTime) none cycles)) :
    RecoveriesAnswer (turns (maybeAlert localTime) none cycles) := by
  intro earlier t later hcut
  refine ⟨?_, fun hok hseen => ?_⟩
  · intro hmuted
    rw [pairTurn_output hcut, if_pos hmuted]
  · rw [pairTurn_recovers hcut hok hseen, open_iff_faulty hsteady hcut]

/-- The turns of one pair in a run over all pairs. -/
def pairTurns (localTime : Int → Str) (cycles : List Cycle) (key : Str) : List PairTurn :=
  turnsAt (fun c => c.snap.stateKey) (maybeAlert localTime) key (fun _ => none) cycles

/-- Over every run of cycles of all pairs: for a pair whose faults can be
read until they are judged again and do not begin while it is muted, each
recovery answers an alert and each alert gets its recovery. -/
theorem pair_recoveries_answer (localTime : Int → Str) (cycles : List Cycle) (key : Str)
    (hsteady : Steady (pairTurns localTime cycles key)) :
    RecoveriesAnswer (pairTurns localTime cycles key) := by
  unfold pairTurns at hsteady ⊢
  rw [turnsAt_eq_turns] at hsteady ⊢
  exact recoveriesAnswer_of_steady hsteady

/-- Cycles of one pair, an hour apart and not muted. -/
def hourly (statuses : List PairStatus) : List Cycle :=
  statuses.zipIdx.map fun (status, i) =>
    let snap : PairSnapshot :=
      ⟨"10.0.0.9", "pve2", "/etc/bashclub/10.0.0.5.conf", "root@10.0.0.5", "tank/repl",
        some "0 * * * *", some 3600, some "tank/repl@auto-1", some 1700000000, some 90000,
        status, 1700090000⟩
    ⟨snap, 1700090000 + 3600 * i, 1700090000 + 3600 * i, false, true⟩

theorem pair_recoveries_answer_crit :
    RecoveriesAnswer (pairTurns (fun _ => []) (hourly [.crit, .ok])
      "10.0.0.9::/etc/bashclub/10.0.0.5.conf") := by
  apply pair_recoveries_answer
  have hcut : pairTurns (fun _ => []) (hourly [.crit, .ok])
      "10.0.0.9::/etc/bashclub/10.0.0.5.conf" = [_, _] := rfl
  intro earlier t later h
  rw [hcut] at h
  rcases earlier with _ | ⟨a, _ | ⟨b, earlier⟩⟩
  · cases h
    exact ⟨by simp, fun _ _ => rfl⟩
  · cases h
    exact ⟨fun _ => ⟨by decide, by decide⟩, fun _ _ => rfl⟩
  · simp at h

/-- A pair that was told to be critical and then had its source marked
standby is not told to be back. -/
theorem pair_recovery_missing :
    ¬ RecoveriesMatch (pairTurns (fun _ => []) (hourly [.crit, .standby, .ok])
      "10.0.0.9::/etc/bashclub/10.0.0.5.conf") := by
  intro h
  have hcut : pairTurns (fun _ => []) (hourly [.crit, .standby, .ok])
      "10.0.0.9::/etc/bashclub/10.0.0.5.conf" = [_, _] ++ _ :: [] := rfl
  have hmatch := h _ _ _ hcut rfl (by intro u hu; cases hu; decide)
  obtain ⟨n, hn⟩ := hmatch.mpr ⟨[], _, [_], rfl, ⟨_, .inr rfl⟩, by
    intro v hv
    rw [List.mem_singleton.mp hv]
    rintro ⟨n, hn⟩
    cases hn⟩
  cases hn

end PveZfsTool
