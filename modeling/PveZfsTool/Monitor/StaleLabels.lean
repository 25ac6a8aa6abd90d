import PveZfsTool.Lib.Dict
import PveZfsTool.Lib.Transducer
import PveZfsTool.Monitor.State
import Mathlib.Data.Rat.Defs
import Mathlib.Algebra.Order.Ring.Rat

/-!
# Stale snapshots

`check_auto_snapshots` of `app/monitor.py` goes over the labels that are
monitored and tells about a label whose newest snapshots are too old.  A host
that has been up for less than the threshold of a label is not judged on it, and
neither is one whose snapshots could not be listed.

The row of a label holds the time of its last notification, and for a day no
other one is sent.  A label that is not stale loses its row, and the time goes
with it.  `staleAlerts_throttled_iff` says for which runs the day is kept.

* `staleStep_unjudged`, `staleStep_fresh`, `staleStep_kept`, `staleStep_sent`:
  what one check does.
* `exists_alert`: a time in a row is that of a notification.
* `kept_or_cleared`: what becomes of the time until the next notification.
-/

namespace PveZfsTool

open Text Transducer

/-! ## The check -/

/-- The labels of `STALE_THRESHOLDS`. -/
inductive StaleLabel where
  | frequent
  | hourly
  | daily
  | weekly
  | monthly
  deriving DecidableEq

namespace StaleLabel

def name : StaleLabel → Str
  | .frequent => "frequent"
  | .hourly => "hourly"
  | .daily => "daily"
  | .weekly => "weekly"
  | .monthly => "monthly"

/-- The seconds in `STALE_THRESHOLDS`. -/
def threshold : StaleLabel → Nat
  | .frequent => 2 * 3600
  | .hourly => 4 * 3600
  | .daily => 30 * 3600
  | .weekly => 9 * 86400
  | .monthly => 33 * 86400

end StaleLabel

/-- `STALE_THRESHOLDS`, in its order. -/
def staleThresholds : List StaleLabel := [.frequent, .hourly, .daily, .weekly, .monthly]

/-- `STALE_ALERT_COOLDOWN` -/
def staleAlertCooldown : Nat := 24 * 3600

/-- An entry of `stale_datasets`: a name, a dict with these two fields, or
something else. -/
inductive StaleEntry where
  | name (dataset : Str)
  | record (dataset note : Str)
  | other

/-- The datasets that count as stale. -/
def staleNames (stale : List StaleEntry) : List Str :=
  stale.filterMap fun
    | .name dataset => some dataset
    | .record dataset note => if dataset ≠ [] ∧ note = [] then some dataset else none
    | .other => none

/-- What one call finds.  `perLabel` is `none` where the call ends before it has
an analysis, and `uptime` where it could not be read.  The clock is read once
for the whole call and again at each label. -/
structure StaleRound where
  host : MonitoredHost
  perLabel : Option (Dict Str (List StaleEntry))
  uptime : Option Rat
  now : Nat
  clock : StaleLabel → Nat
  now_pos : 0 < now
  now_le : ∀ label, now ≤ clock label

def staleNotice (host : MonitoredHost) (label : Str) (datasets : List Str) : Notification where
  eventType := "auto_snapshot"
  title := "Stale " ++ label ++ " snapshots on " ++ host.label
  message := ofNat datasets.length ++ " dataset(s) have no recent '" ++ label ++
    "' snapshot on " ++ host.label ++ " (" ++ host.address ++ "):\n" ++
    join ", " (datasets.take 6) ++
    (if 6 < datasets.length then (" (+" : Str) ++ ofNat (datasets.length - 6) ++ " more)" else [])
  priority := 5
  host := some host.address

/-- One turn of the loop over the labels. -/
structure LabelCheck where
  round : StaleRound
  label : StaleLabel

namespace LabelCheck

/-- The key of the row in the scope `stale_snap`. -/
def key (c : LabelCheck) : Str := c.round.host.address ++ ":" ++ c.label.name

/-- There is an analysis, and the host has been up for long enough. -/
def judged (c : LabelCheck) : Bool :=
  c.round.perLabel.isSome && !c.round.uptime.any (fun uptime => uptime < (c.label.threshold : Rat))

def stale (c : LabelCheck) : List Str :=
  staleNames ((c.round.perLabel.bind (fun info => info.get? c.label.name)).getD [])

def checkedAt (c : LabelCheck) : Nat := c.round.clock c.label

def notice (c : LabelCheck) : Notification := staleNotice c.round.host c.label.name c.stale

end LabelCheck

/-- The body of the loop, on the row of the label.  The value of a row is the
count of datasets. -/
def staleStep (row : Option (Row Nat)) (c : LabelCheck) : Option (Row Nat) × Option Notification :=
  if c.judged = false then (row, none)
  else if c.stale = [] then (none, none)
  else if cooldownOk (row.bind Row.lastAlertTs) c.checkedAt staleAlertCooldown = false then
    (some (stateSet row c.stale.length (row.bind Row.lastAlertTs)), none)
  else (some (stateSet row c.stale.length (some c.round.now)), some c.notice)

def StaleRound.checks (r : StaleRound) : List LabelCheck := staleThresholds.map (LabelCheck.mk r)

/-- `check_auto_snapshots`, on the rows of the scope. -/
def checkAutoSnapshots (rows : Str → Option (Row Nat)) (r : StaleRound) :
    (Str → Option (Row Nat)) × List Notification :=
  if r.perLabel.isNone then (rows, [])
  else
    (after (keyed LabelCheck.key staleStep) rows r.checks,
      (turns (keyed LabelCheck.key staleStep) rows r.checks).filterMap Turn.output)

/-! ## Runs -/

/-- One check of a run, with the row it found. -/
abbrev StaleTurn := Turn (Option (Row Nat)) LabelCheck (Option Notification)

namespace StaleTurn

/-- The time the call goes by. -/
def time (t : StaleTurn) : Nat := t.input.round.now

/-- The time in the row. -/
def alert? (t : StaleTurn) : Option Nat := t.before.bind Row.lastAlertTs

def IsStale (t : StaleTurn) : Prop := t.input.judged = true ∧ t.input.stale ≠ []

def IsFresh (t : StaleTurn) : Prop := t.input.judged = true ∧ t.input.stale = []

/-- A notification went out. -/
def Says (t : StaleTurn) : Prop := t.output = some t.input.notice

end StaleTurn

/-- The checks of a run of calls that are about one label of one host. -/
def staleTurns (rounds : List StaleRound) (address : Str) (label : StaleLabel) : List StaleTurn :=
  ((turns (keyed LabelCheck.key staleStep) (fun _ => none) (rounds.flatMap StaleRound.checks)).filter
    (fun t => t.input.round.host.address = address ∧ t.input.label = label)).map
      (Turn.at (address ++ ":" ++ label.name))

/-- Two notifications are at least a cooldown apart, and a label that is stale
in every call is told about in the first one after the cooldown. -/
structure Throttled (ts : List StaleTurn) : Prop where
  apart : ∀ earlier a between b later, ts = earlier ++ a :: (between ++ b :: later) →
    a.Says → b.Says → a.time + staleAlertCooldown ≤ b.time
  again : ∀ earlier a between b later, ts = earlier ++ a :: (between ++ b :: later) → a.Says →
    (∀ t ∈ between ++ [b], t.IsStale) → (∀ t ∈ between, t.time < a.time + staleAlertCooldown) →
      a.time + staleAlertCooldown ≤ b.time → b.Says

/-- No cooldown ends between the two times of one call, and a label that loses
the time of its last notification is not stale again before the cooldown is
over. -/
structure KeepsCooldown (ts : List StaleTurn) : Prop where
  oneTime : ∀ t ∈ ts, t.IsStale → ∀ alert ∈ t.alert?,
    alert + staleAlertCooldown ≤ t.input.checkedAt → alert + staleAlertCooldown ≤ t.time
  cleared : ∀ earlier t between b later, ts = earlier ++ t :: (between ++ b :: later) →
    t.IsFresh → (∀ u ∈ between, ¬ u.IsStale) → b.IsStale → ∀ alert ∈ t.alert?,
      alert + staleAlertCooldown ≤ b.time

/-! ## One check -/

section Step

variable {row : Option (Row Nat)} {c : LabelCheck}

theorem staleStep_unjudged (h : ¬ c.judged = true) : staleStep row c = (row, none) :=
  if_pos (Bool.not_eq_true _ ▸ h)

theorem staleStep_fresh (hjudged : c.judged = true) (h : c.stale = []) :
    staleStep row c = (none, none) := by
  rw [staleStep, if_neg (by rw [hjudged]; decide), if_pos h]

theorem staleStep_kept (hjudged : c.judged = true) (h : c.stale ≠ [])
    (hcool : ¬ cooldownOk (row.bind Row.lastAlertTs) c.checkedAt staleAlertCooldown = true) :
    staleStep row c =
      (some (stateSet row c.stale.length (row.bind Row.lastAlertTs)), none) := by
  rw [staleStep, if_neg (by rw [hjudged]; decide), if_neg h, if_pos (by simpa using hcool)]

theorem staleStep_sent (hjudged : c.judged = true) (h : c.stale ≠ [])
    (hcool : cooldownOk (row.bind Row.lastAlertTs) c.checkedAt staleAlertCooldown = true) :
    staleStep row c =
      (some (stateSet row c.stale.length (some c.round.now)), some c.notice) := by
  rw [staleStep, if_neg (by rw [hjudged]; decide), if_neg h, if_neg (by rw [hcool]; decide)]

/-- The time stays in the row where nothing is sent. -/
theorem lastAlertTs_kept :
    (stateSet row c.stale.length (row.bind Row.lastAlertTs)).lastAlertTs = row.bind Row.lastAlertTs := by
  simp only [stateSet]
  cases row.bind Row.lastAlertTs with
  | none => rfl
  | some ts => rfl

theorem staleStep_says_iff : (staleStep row c).2 = some c.notice ↔
    (c.judged = true ∧ c.stale ≠ []) ∧
      cooldownOk (row.bind Row.lastAlertTs) c.checkedAt staleAlertCooldown = true := by
  constructor
  · intro h
    by_cases hjudged : c.judged = true
    · by_cases hstale : c.stale = []
      · rw [staleStep_fresh hjudged hstale] at h
        cases h
      · by_cases hcool : cooldownOk (row.bind Row.lastAlertTs) c.checkedAt staleAlertCooldown = true
        · exact ⟨⟨hjudged, hstale⟩, hcool⟩
        · rw [staleStep_kept hjudged hstale hcool] at h
          cases h
    · rw [staleStep_unjudged hjudged] at h
      cases h
  · intro ⟨⟨hjudged, hstale⟩, hcool⟩
    rw [staleStep_sent hjudged hstale hcool]

theorem cooldownOk_iff {ts : Option Nat} {now : Nat} :
    cooldownOk ts now staleAlertCooldown = true ↔
      ∀ alert ∈ ts, alert = 0 ∨ alert + staleAlertCooldown ≤ now := by
  cases ts with
  | none => simp [cooldownOk]
  | some alert =>
    simp only [cooldownOk, isAlerted, Option.getD_some, Bool.or_eq_true, Bool.not_eq_true',
      bne_eq_false_iff_eq, decide_eq_true_eq, Option.mem_some_iff, forall_eq']
    have hpos : 0 < staleAlertCooldown := by decide
    omega

end Step

/-! ## Runs of one label -/

section Run

variable {row : Option (Row Nat)} {checks : List LabelCheck} {earlier between later : List StaleTurn}
  {t a b : StaleTurn} {alert : Nat}

theorem says_iff (hcut : turns staleStep row checks = earlier ++ t :: later) :
    t.Says ↔ t.IsStale ∧ cooldownOk t.alert? t.input.checkedAt staleAlertCooldown = true := by
  obtain ⟨-, hout⟩ := turn_of_cut hcut
  rw [StaleTurn.Says, hout]
  exact staleStep_says_iff

theorem alert_behind_notice (hcut : turns staleStep row checks = earlier ++ t :: later) (h : t.Says) :
    (staleStep t.before t.input).1.bind Row.lastAlertTs = some t.time := by
  obtain ⟨⟨hjudged, hstale⟩, hcool⟩ := (says_iff hcut).mp h
  rw [staleStep_sent hjudged hstale hcool]
  rfl

/-- A time in the row is that of a notification. -/
theorem exists_alert
    (h : (after staleStep none checks).bind Row.lastAlertTs = some alert) :
    ∃ a ∈ turns staleStep none checks, StaleTurn.Says a ∧ StaleTurn.time a = alert := by
  induction checks using List.reverseRecOn with
  | nil => cases h
  | append_singleton checks c ih =>
    rw [turns_append]
    rw [after_append, after_cons, after_nil] at h
    by_cases hjudged : c.judged = true
    · by_cases hstale : c.stale = []
      · rw [staleStep_fresh hjudged hstale] at h
        cases h
      · by_cases hcool : cooldownOk ((after staleStep none checks).bind Row.lastAlertTs) c.checkedAt
            staleAlertCooldown = true
        · rw [staleStep_sent hjudged hstale hcool] at h
          cases h
          refine ⟨_, List.mem_append_right _ List.mem_cons_self, ?_, rfl⟩
          exact staleStep_says_iff.mpr ⟨⟨hjudged, hstale⟩, hcool⟩
        · rw [staleStep_kept hjudged hstale hcool, Option.bind_some, lastAlertTs_kept] at h
          obtain ⟨a, ha, hsays⟩ := ih h
          exact ⟨a, List.mem_append_left _ ha, hsays⟩
    · rw [staleStep_unjudged hjudged] at h
      obtain ⟨a, ha, hsays⟩ := ih h
      exact ⟨a, List.mem_append_left _ ha, hsays⟩

theorem exists_says_of_alert (hcut : turns staleStep none checks = earlier ++ t :: later)
    (h : alert ∈ t.alert?) : ∃ front a back, earlier = front ++ a :: back ∧ a.Says ∧ a.time = alert := by
  obtain ⟨hbefore, -⟩ := turn_of_cut hcut
  rw [turns_append_iff] at hcut
  obtain ⟨before, rest, -, hturns, -⟩ := hcut
  rw [← hturns, map_input_turns] at hbefore
  have halert : (after staleStep none before).bind Row.lastAlertTs = some alert := by
    rw [← hbefore]
    exact h
  obtain ⟨a, ha, hsays, htime⟩ := exists_alert halert
  rw [hturns] at ha
  obtain ⟨front, back, heq⟩ := List.append_of_mem ha
  exact ⟨front, a, back, heq, hsays, htime⟩

/-- Without a row each check that finds the label stale is told about. -/
theorem not_stale_of_silent (hcut : turns staleStep none checks = between ++ later)
    (hsilent : ∀ u ∈ between, ¬ u.Says) : ∀ u ∈ between, ¬ u.IsStale := by
  induction between generalizing checks with
  | nil => intro u hu; cases hu
  | cons u between ih =>
    obtain ⟨c, rest, -, rfl, hrest⟩ := turns_cons_iff.mp hcut
    have hfirst : ¬ (c.judged = true ∧ c.stale ≠ []) := by
      intro hstale
      exact hsilent _ List.mem_cons_self (staleStep_says_iff.mpr ⟨hstale, rfl⟩)
    have hnone : (staleStep none c).1 = none := by
      by_cases hjudged : c.judged = true
      · rw [staleStep_fresh hjudged (not_not.mp (fun h => hfirst ⟨hjudged, h⟩))]
      · rw [staleStep_unjudged hjudged]
    rw [hnone] at hrest
    have htail := ih hrest (fun u hu => hsilent u (List.mem_cons_of_mem _ hu))
    intro u hu
    rcases List.mem_cons.mp hu with rfl | hu
    · exact hfirst
    · exact htail u hu

/-- Up to the next notification the time stays in the row, or a check that
finds the label fresh takes it away. -/
theorem kept_or_cleared (hcut : turns staleStep row checks = between ++ b :: later)
    (hrow : row.bind Row.lastAlertTs = some alert) (hsilent : ∀ u ∈ between, ¬ u.Says) :
    alert ∈ b.alert? ∨ ∃ front t back, between = front ++ t :: back ∧ t.IsFresh ∧
      alert ∈ t.alert? ∧ ∀ u ∈ back, ¬ u.IsStale := by
  induction between generalizing row checks with
  | nil =>
    obtain ⟨c, rest, -, rfl, -⟩ := turns_cons_iff.mp hcut
    exact .inl hrow
  | cons u between ih =>
    obtain ⟨c, rest, -, rfl, hrest⟩ := turns_cons_iff.mp hcut
    have hsilent' : ∀ u ∈ between, ¬ u.Says := fun u hu => hsilent u (List.mem_cons_of_mem _ hu)
    have hstays : (staleStep row c).1.bind Row.lastAlertTs = some alert →
        alert ∈ b.alert? ∨ ∃ front t back,
          (⟨row, c, (staleStep row c).2⟩ :: between : List StaleTurn) = front ++ t :: back ∧
            t.IsFresh ∧ alert ∈ t.alert? ∧ ∀ u ∈ back, ¬ u.IsStale := by
      intro hstep
      rcases ih hrest hstep hsilent' with hb | ⟨front, t, back, heq, hrest⟩
      · exact .inl hb
      · exact .inr ⟨_ :: front, t, back, by rw [heq]; rfl, hrest⟩
    by_cases hjudged : c.judged = true
    · by_cases hstale : c.stale = []
      · rw [staleStep_fresh hjudged hstale] at hrest
        exact .inr ⟨[], _, between, rfl, ⟨hjudged, hstale⟩, hrow, not_stale_of_silent hrest hsilent'⟩
      · by_cases hcool : cooldownOk (row.bind Row.lastAlertTs) c.checkedAt staleAlertCooldown = true
        · exact absurd (staleStep_says_iff.mpr ⟨⟨hjudged, hstale⟩, hcool⟩) (hsilent _ List.mem_cons_self)
        · refine hstays ?_
          rw [staleStep_kept hjudged hstale hcool, Option.bind_some, lastAlertTs_kept, hrow]
    · refine hstays ?_
      rw [staleStep_unjudged hjudged, hrow]

theorem apart_of_keepsCooldown (hkeeps : KeepsCooldown (turns staleStep none checks))
    (hcut : turns staleStep none checks = earlier ++ a :: (between ++ b :: later)) (ha : a.Says)
    (hb : b.Says) : a.time + staleAlertCooldown ≤ b.time := by
  induction hlen : between.length using Nat.strong_induction_on
    generalizing earlier a between b later with
  | _ n ih =>
    by_cases hmiddle : ∃ u ∈ between, u.Says
    · -- each of the two halves is shorter
      obtain ⟨u, hu, hsays⟩ := hmiddle
      obtain ⟨front, back, rfl⟩ := List.append_of_mem hu
      rw [List.length_append, List.length_cons] at hlen
      have hcut₁ : turns staleStep none checks =
          earlier ++ a :: (front ++ u :: (back ++ b :: later)) := by
        rw [hcut]
        simp
      have hcut₂ : turns staleStep none checks =
          (earlier ++ a :: front) ++ u :: (back ++ b :: later) := by
        rw [hcut]
        simp
      have hfirst := ih front.length (by omega) hcut₁ ha hsays rfl
      have hsecond := ih back.length (by omega) hcut₂ hsays hb rfl
      omega
    · have hsilent : ∀ u ∈ between, ¬ u.Says := fun u hu hsays => hmiddle ⟨u, hu, hsays⟩
      have hcutb : turns staleStep none checks = (earlier ++ a :: between) ++ b :: later := by
        rw [hcut]
        simp
      obtain ⟨hstale, hcool⟩ := (says_iff hcutb).mp hb
      have hpos : a.time ≠ 0 := Nat.ne_of_gt a.input.round.now_pos
      have hafter := alert_behind_notice hcut ha
      obtain ⟨rest, hrest⟩ := rest_of_cut hcut
      rcases kept_or_cleared hrest hafter hsilent with
        hkept | ⟨front, t, back, rfl, hfresh, halert, hback⟩
      · have hover := (cooldownOk_iff.mp hcool _ hkept).resolve_left hpos
        exact hkeeps.oneTime b (by rw [hcutb]; simp) hstale _ hkept hover
      · refine hkeeps.cleared (earlier ++ a :: front) t back b later ?_ hfresh hback hstale _ halert
        rw [hcut]
        simp

theorem again_of_keepsCooldown (hkeeps : KeepsCooldown (turns staleStep none checks))
    (hcut : turns staleStep none checks = earlier ++ a :: (between ++ b :: later)) (ha : a.Says)
    (hstale : ∀ t ∈ between ++ [b], t.IsStale)
    (hbefore : ∀ t ∈ between, t.time < a.time + staleAlertCooldown)
    (hover : a.time + staleAlertCooldown ≤ b.time) : b.Says := by
  have hcutb : turns staleStep none checks = (earlier ++ a :: between) ++ b :: later := by
    rw [hcut]
    simp
  have halert : b.alert? = some a.time := by
    refine before_of_keeps_between (Q := fun row => row.bind Row.lastAlertTs = some a.time) hcut
      (alert_behind_notice hcut ha) ?_
    intro v hv hrow
    obtain ⟨hjudged, hne⟩ := hstale v (List.mem_append_left _ hv)
    have hcool : ¬ cooldownOk (v.before.bind Row.lastAlertTs) v.input.checkedAt
        staleAlertCooldown = true := by
      intro hcool
      have hover := (cooldownOk_iff.mp hcool _ hrow).resolve_left (Nat.ne_of_gt a.input.round.now_pos)
      have hv' : v ∈ turns staleStep none checks := by
        rw [hcut]
        simp [hv]
      have hlate := hkeeps.oneTime v hv' ⟨hjudged, hne⟩ _ hrow hover
      have := hbefore v hv
      omega
    rw [staleStep_kept hjudged hne hcool, Option.bind_some, lastAlertTs_kept, hrow]
  refine (says_iff hcutb).mpr ⟨hstale b (by simp), cooldownOk_iff.mpr fun alert hmem => ?_⟩
  rw [halert] at hmem
  cases hmem
  exact .inr (hover.trans (b.input.round.now_le b.input.label))

theorem keepsCooldown_of_apart
    (h : ∀ earlier a between b later, turns staleStep none checks = earlier ++ a :: (between ++ b :: later) →
      StaleTurn.Says a → StaleTurn.Says b → a.time + staleAlertCooldown ≤ b.time) :
    KeepsCooldown (turns staleStep none checks) := by
  constructor
  · intro t ht hstale alert halert hover
    obtain ⟨earlier, later, hcut⟩ := List.append_of_mem ht
    obtain ⟨front, a, back, rfl, ha, rfl⟩ := exists_says_of_alert hcut halert
    have hsays : t.Says := by
      refine (says_iff hcut).mpr ⟨hstale, cooldownOk_iff.mpr fun alert hmem => .inr ?_⟩
      rw [Option.mem_unique hmem halert]
      exact hover
    exact h front a back t later (by rw [hcut]; simp) ha hsays
  · intro earlier t between b later hcut hfresh hnot hstale alert halert
    obtain ⟨front, a, back, rfl, ha, rfl⟩ := exists_says_of_alert hcut halert
    -- the row is gone, and none of the checks in between makes one
    have hnone : b.before = none := by
      refine before_of_keeps_between (Q := fun row => row = none) hcut ?_ ?_
      · rw [staleStep_fresh hfresh.1 hfresh.2]
      · intro v hv hrow
        by_cases hjudged : v.input.judged = true
        · rw [staleStep_fresh hjudged (not_not.mp fun hne => hnot v hv ⟨hjudged, hne⟩)]
        · rw [staleStep_unjudged hjudged, hrow]
    have hcutb : turns staleStep none checks = (front ++ a :: back ++ t :: between) ++ b :: later := by
      rw [hcut]
      simp
    have hsays : b.Says := by
      refine (says_iff hcutb).mpr ⟨hstale, ?_⟩
      rw [StaleTurn.alert?, hnone]
      rfl
    exact h front a (back ++ t :: between) b later (by rw [hcut]; simp) ha hsays

theorem throttled_iff : Throttled (turns staleStep none checks) ↔
    KeepsCooldown (turns staleStep none checks) :=
  ⟨fun h => keepsCooldown_of_apart h.apart, fun hkeeps =>
    ⟨fun _ _ _ _ _ hcut => apart_of_keepsCooldown hkeeps hcut,
      fun _ _ _ _ _ hcut => again_of_keepsCooldown hkeeps hcut⟩⟩

end Run

/-! ## Runs of calls -/

theorem name_injective {label label' : StaleLabel} (h : label.name = label'.name) : label = label' := by
  revert h
  cases label <;> cases label' <;> decide

/-- A colon ends the address, for no label has one. -/
theorem key_eq_iff {c : LabelCheck} {address : Str} {label : StaleLabel} :
    c.key = address ++ ":" ++ label.name ↔ c.round.host.address = address ∧ c.label = label := by
  have hcolon : ∀ label : StaleLabel, ':' ∉ label.name := by
    intro label
    cases label <;> decide
  have hsplit : ∀ (address : Str) (label : StaleLabel),
      address ++ ":" ++ label.name = address ++ ':' :: label.name :=
    fun address label => List.append_cons _ _ _ |>.symm
  constructor
  · intro h
    rw [LabelCheck.key, hsplit, hsplit] at h
    have hname : c.label.name = label.name := by
      rw [← afterLast_append (hcolon c.label), h, afterLast_append (hcolon label)]
    rw [hname] at h
    exact ⟨List.append_cancel_right h, name_injective hname⟩
  · intro ⟨haddress, hlabel⟩
    rw [LabelCheck.key, haddress, hlabel]

variable {rows : Str → Option (Row Nat)} {rounds : List StaleRound}

theorem staleTurns_eq {address : Str} {label : StaleLabel} : staleTurns rounds address label =
    turns staleStep none ((rounds.flatMap StaleRound.checks).filter
      (fun c => c.key = address ++ ":" ++ label.name)) := by
  rw [← turnsAt_eq_turns LabelCheck.key staleStep _ (fun _ => none), turnsAt, staleTurns]
  congr 2
  funext t
  exact decide_eq_decide.mpr key_eq_iff.symm

/-- A call without an analysis is one that judges no label. -/
theorem checkAutoSnapshots_eq {r : StaleRound} : checkAutoSnapshots rows r =
    (after (keyed LabelCheck.key staleStep) rows r.checks,
      (turns (keyed LabelCheck.key staleStep) rows r.checks).filterMap Turn.output) := by
  unfold checkAutoSnapshots
  split
  · next hnone =>
    have hskip : ∀ checks : List LabelCheck, (∀ c ∈ checks, ¬ c.judged = true) →
        after (keyed LabelCheck.key staleStep) rows checks = rows ∧
          (turns (keyed LabelCheck.key staleStep) rows checks).filterMap Turn.output = [] := by
      intro checks hchecks
      induction checks with
      | nil => exact ⟨rfl, rfl⟩
      | cons c checks ih =>
        have hstep : keyed LabelCheck.key staleStep rows c = (rows, none) := by
          rw [keyed, staleStep_unjudged (hchecks c List.mem_cons_self), Function.update_eq_self]
        obtain ⟨hafter, houts⟩ := ih (fun d hd => hchecks d (List.mem_cons_of_mem _ hd))
        rw [after_cons, turns_cons, hstep, List.filterMap_cons]
        exact ⟨hafter, houts⟩
    obtain ⟨hafter, houts⟩ := hskip r.checks (by
      intro c hc
      obtain ⟨label, -, rfl⟩ := List.mem_map.mp hc
      simp [LabelCheck.judged, Option.isNone_iff_eq_none.mp hnone])
    rw [hafter, houts]
  · rfl

/-- Calls one after the other are one loop over their labels. -/
theorem turns_checkAutoSnapshots :
    after checkAutoSnapshots rows rounds =
        after (keyed LabelCheck.key staleStep) rows (rounds.flatMap StaleRound.checks) ∧
      (turns checkAutoSnapshots rows rounds).flatMap Turn.output =
        (turns (keyed LabelCheck.key staleStep) rows (rounds.flatMap StaleRound.checks)).filterMap
          Turn.output := by
  induction rounds generalizing rows with
  | nil => exact ⟨rfl, rfl⟩
  | cons r rounds ih =>
    obtain ⟨hafter, houts⟩ := @ih (checkAutoSnapshots rows r).1
    rw [after_cons, turns_cons, List.flatMap_cons, List.flatMap_cons, hafter, houts,
      checkAutoSnapshots_eq, after_append, turns_append, List.filterMap_append]
    exact ⟨rfl, rfl⟩

/-- Over every run of calls, the notifications for a label of a host keep the
cooldown if and only if it ends in none of the calls and no label loses the time
of its last notification and is stale again before the cooldown is over. -/
theorem staleAlerts_throttled_iff (rounds : List StaleRound) (address : Str) (label : StaleLabel) :
    Throttled (staleTurns rounds address label) ↔ KeepsCooldown (staleTurns rounds address label) := by
  rw [staleTurns_eq]
  exact throttled_iff

/-! ## A label that flaps -/

def flapRound (now : Nat) (h : 0 < now) (stale : List StaleEntry) : StaleRound where
  host := ⟨"10.0.0.7", "pve-test", false⟩
  perLabel := some (Dict.empty.set "hourly" stale)
  uptime := none
  now := now
  clock := fun _ => now
  now_pos := h
  now_le := fun _ => le_refl now

theorem million_pos : 0 < 1000000 := by decide

/-- Stale, a quarter of an hour later fresh, and stale again. -/
def flapping : List StaleRound :=
  [flapRound 1000000 million_pos [.record "rpool/data" ""], flapRound 1000900 (by decide) [],
    flapRound 1001800 (by decide) [.record "rpool/data" ""]]

/-- The second notification comes half an hour after the first. -/
theorem flapping_tells_twice : ¬ Throttled (staleTurns flapping "10.0.0.7" .hourly) := by
  intro h
  have hcut : staleTurns flapping "10.0.0.7" .hourly = [] ++ _ :: ([_] ++ _ :: []) := rfl
  have hapart := h.apart _ _ _ _ _ hcut rfl rfl
  exact absurd hapart (by decide)

end PveZfsTool
