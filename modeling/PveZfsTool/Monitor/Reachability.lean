import PveZfsTool.Lib.Transducer
import PveZfsTool.Monitor.State

/-!
# Offline and back online

`check_host_reachability` of `app/monitor.py` gets one probe result of a
host.  It tells about a host that went down and about a host that came
back, and it says nothing about a host marked standby.

The offline alert leaves its time in the row, and the recovery looks for
that time.  A recovery under standby does not clear it.
`reachability_paired_iff` says which down phases this breaks: those that
start under standby while the time of an older alert is still there.

* `checkHostReachability_value`: a row holds what the last probe said.
* `after_down`: a down phase leaves the row as its first probe left it.
* `phase_marker`, `phase_announced`: what a whole down phase leaves behind.
-/

namespace PveZfsTool

open Text Transducer

/-- The values of the scope `host`. -/
inductive Reach where
  | up
  | down
  deriving DecidableEq

/-- One probe.  The clock reads seconds since the epoch, which lies in the
past. -/
structure Probe where
  host : MonitoredHost
  reachable : Bool
  now : Nat
  now_pos : 0 < now

def Probe.value (p : Probe) : Reach := if p.reachable then .up else .down

def hostOffline (h : MonitoredHost) : Notification where
  eventType := "host_offline"
  title := "Host Offline"
  message := h.label ++ " (" ++ h.address ++ ") is not reachable via SSH."
  priority := 8
  state := "new"
  key := some ("host_offline:" ++ h.address)
  host := some h.label

def hostBackOnline (h : MonitoredHost) : Notification where
  eventType := "host_offline"
  title := "Host Back Online"
  message := h.label ++ " (" ++ h.address ++ ") is reachable again."
  priority := 3
  state := "resolved"
  key := some ("host_offline:" ++ h.address)
  host := some h.label

/-- `check_host_reachability`, on the row of the host. -/
def checkHostReachability (row : Option (Row Reach)) (p : Probe) :
    Option (Row Reach) × Option Notification :=
  if p.host.standby then (some (stateSet row p.value none), none)
  else
    match row with
    | none => (some (stateSet row p.value none), none)
    | some prev =>
        if prev.value = p.value then (row, none)
        else if !p.reachable then
          (some (stateSet row p.value (some p.now)), some (hostOffline p.host))
        else
          (some (stateSet row p.value (some 0)),
            if isAlerted prev.lastAlertTs then some (hostBackOnline p.host) else none)

/-- One call, with the row it found. -/
abbrev ReachTurn := Turn (Option (Row Reach)) Probe (Option Notification)

namespace ReachTurn

def Down (t : ReachTurn) : Prop := t.input.reachable = false

def Up (t : ReachTurn) : Prop := t.input.reachable = true

def Standby (t : ReachTurn) : Prop := t.input.host.standby = true

/-- The offline notification went out. -/
def SaysOffline (t : ReachTurn) : Prop := t.output = some (hostOffline t.input.host)

/-- The back online notification went out. -/
def SaysBack (t : ReachTurn) : Prop := t.output = some (hostBackOnline t.input.host)

/-- The row the call found has the time of an offline alert. -/
def Marked (t : ReachTurn) : Prop := isAlerted (t.before.bind Row.lastAlertTs) = true

end ReachTurn

/-- `first :: rest` is a down phase after `earlier`, and `back` is the
probe that ends it on a host that is not marked standby. -/
structure Recovery (earlier : List ReachTurn) (first : ReachTurn) (rest : List ReachTurn)
    (back : ReachTurn) : Prop where
  wasUp : ∀ t ∈ earlier.getLast?, t.Up
  goesDown : first.Down
  staysDown : ∀ t ∈ rest, t.Down
  comesUp : back.Up
  inSight : ¬ back.Standby

/-- Each recovery is told about exactly when its down phase was, and under
standby nothing is told. -/
def Paired (ts : List ReachTurn) : Prop :=
  (∀ earlier first rest back later, ts = earlier ++ first :: rest ++ back :: later →
    Recovery earlier first rest back →
      (back.SaysBack ↔ ∃ t ∈ first :: rest, t.SaysOffline)) ∧
  ∀ t ∈ ts, t.Standby → t.output = none

/-- No down phase that ends in plain sight starts under standby with the
time of an older alert in the row. -/
def NoStaleMarker (ts : List ReachTurn) : Prop :=
  ∀ earlier first rest back later, ts = earlier ++ first :: rest ++ back :: later →
    Recovery earlier first rest back → ¬ (first.Standby ∧ first.Marked)

/-! ## One call -/

section Step

variable {row : Option (Row Reach)} {p : Probe}

theorem checkHostReachability_value :
    (checkHostReachability row p).1.map Row.value = some p.value := by
  unfold checkHostReachability
  split
  · rfl
  · split
    · rfl
    · next prev =>
      by_cases hsame : prev.value = p.value
      · simp [hsame]
      · simp only [hsame, if_false]
        split <;> rfl

theorem checkHostReachability_standby (h : p.host.standby = true) :
    checkHostReachability row p = (some (stateSet row p.value none), none) := by
  simp [checkHostReachability, h]

theorem value_down (h : p.reachable = false) : p.value = .down := by simp [Probe.value, h]

theorem value_up (h : p.reachable = true) : p.value = .up := by simp [Probe.value, h]

/-- A host that is down stays as it is while the probes fail. -/
theorem checkHostReachability_stays {r : Row Reach} (hr : r.value = .down)
    (h : p.reachable = false) : checkHostReachability (some r) p = (some r, none) := by
  obtain ⟨value, ts⟩ := r
  subst hr
  unfold checkHostReachability
  split
  · simp [stateSet, value_down h]
  · simp [value_down h]

/-- The first failed probe of a host that was up is told about. -/
theorem checkHostReachability_falls {r : Row Reach} (hr : r.value = .up)
    (h : p.reachable = false) (hs : ¬ p.host.standby = true) :
    checkHostReachability (some r) p =
      (some (stateSet (some r) .down (some p.now)), some (hostOffline p.host)) := by
  simp [checkHostReachability, hs, hr, value_down h, h]

/-- The probe that finds a host up again looks for the time of the alert. -/
theorem checkHostReachability_rises {r : Row Reach} (hr : r.value = .down)
    (h : p.reachable = true) (hs : ¬ p.host.standby = true) :
    checkHostReachability (some r) p =
      (some (stateSet (some r) .up (some 0)),
        if isAlerted r.lastAlertTs then some (hostBackOnline p.host) else none) := by
  simp [checkHostReachability, hs, hr, value_up h, h]

end Step

/-! ## A down phase -/

section Phase

variable {row : Option (Row Reach)} {probes : List Probe}

/-- Failed probes of a host that is down change nothing. -/
theorem run_down {r : Row Reach} (hr : r.value = .down) (h : ∀ p ∈ probes, p.reachable = false) :
    after checkHostReachability (some r) probes = some r ∧
      ∀ t ∈ turns checkHostReachability (some r) probes, t.output = none := by
  induction probes with
  | nil => simp
  | cons p probes ih =>
    have hp := checkHostReachability_stays hr (h p List.mem_cons_self)
    have hrest := ih (fun q hq => h q (List.mem_cons_of_mem _ hq))
    simpa [hp] using hrest

variable {first : Probe}

/-- What the first failed probe of a phase leaves in the row. -/
theorem first_down (hup : ∀ r ∈ row, r.value = .up) (h : first.reachable = false) :
    ∃ r, (checkHostReachability row first).1 = some r ∧ r.value = .down ∧
      (isAlerted r.lastAlertTs = true ↔
        (checkHostReachability row first).2 = some (hostOffline first.host) ∨
          first.host.standby = true ∧ isAlerted (row.bind Row.lastAlertTs) = true) := by
  by_cases hs : first.host.standby = true
  · rw [checkHostReachability_standby hs]
    exact ⟨_, rfl, value_down h, by simp [hs]⟩
  · cases row with
    | none =>
      have hstep : checkHostReachability none first =
          (some (stateSet none first.value none), none) := by simp [checkHostReachability, hs]
      rw [hstep]
      exact ⟨_, rfl, value_down h, by simp [hs]⟩
    | some r =>
      rw [checkHostReachability_falls (hup r rfl) h hs]
      have hnow := first.now_pos
      exact ⟨_, rfl, rfl, by simp; omega⟩

/-- Only the first failed probe of a phase can be told about. -/
theorem phase_announced (hup : ∀ r ∈ row, r.value = .up) (hfirst : first.reachable = false)
    (hrest : ∀ p ∈ probes, p.reachable = false) :
    (∃ t ∈ turns checkHostReachability row (first :: probes), ReachTurn.SaysOffline t) ↔
      (checkHostReachability row first).2 = some (hostOffline first.host) := by
  obtain ⟨r, hr, hdown, -⟩ := first_down hup hfirst
  obtain ⟨-, hnone⟩ := run_down hdown hrest
  rw [turns_cons, hr]
  constructor
  · rintro ⟨t, ht, htold⟩
    rcases List.mem_cons.mp ht with rfl | ht
    · exact htold
    · rw [ReachTurn.SaysOffline, hnone t ht] at htold
      cases htold
  · intro htold
    exact ⟨_, List.mem_cons_self, htold⟩

/-- The recovery is told about when the first failed probe was, and also
when that probe came under standby and found the time of an older alert. -/
theorem phase_recovery {back : Probe} (hup : ∀ r ∈ row, r.value = .up)
    (hfirst : first.reachable = false) (hrest : ∀ p ∈ probes, p.reachable = false)
    (hback : back.reachable = true) (hs : ¬ back.host.standby = true) :
    (checkHostReachability (after checkHostReachability row (first :: probes)) back).2 =
        some (hostBackOnline back.host) ↔
      (checkHostReachability row first).2 = some (hostOffline first.host) ∨
        first.host.standby = true ∧ isAlerted (row.bind Row.lastAlertTs) = true := by
  obtain ⟨r, hr, hdown, hmark⟩ := first_down hup hfirst
  obtain ⟨hafter, -⟩ := run_down hdown hrest
  rw [after_cons, hr, hafter, checkHostReachability_rises hdown hback hs, ← hmark]
  split <;> simp_all

end Phase

/-! ## The recovery that ends a phase -/

section

variable {probes : List Probe} {earlier rest later : List ReachTurn} {first back : ReachTurn}

/-- The row a phase starts from says up, or there is none. -/
theorem wasUp_of_last (h : ∀ t ∈ earlier.getLast?, ReachTurn.Up t) :
    ∀ r ∈ after checkHostReachability none (earlier.map Turn.input), r.value = .up := by
  intro r hr
  have hvalue : (after checkHostReachability none (earlier.map Turn.input)).map Row.value =
      (earlier.map Turn.input).getLast?.map Probe.value :=
    after_remembers (by intro _ _; exact checkHostReachability_value) rfl _
  rw [hr, List.getLast?_map] at hvalue
  cases hlast : earlier.getLast? with
  | none => simp [hlast] at hvalue
  | some t => simpa [hlast, value_up (h t hlast)] using hvalue

/-- A recovery is told about when the offline alert of its phase went out,
and also when an older alert left its time to a phase that started under
standby. -/
theorem recovery_cases
    (hcut : turns checkHostReachability none probes = earlier ++ first :: rest ++ back :: later)
    (h : Recovery earlier first rest back) :
    (back.SaysBack ↔ (∃ t ∈ first :: rest, t.SaysOffline) ∨ first.Standby ∧ first.Marked) ∧
      (first.Standby → ¬ ∃ t ∈ first :: rest, t.SaysOffline) := by
  rw [List.append_assoc, turns_append_iff] at hcut
  obtain ⟨before, probes, rfl, rfl, hcut⟩ := hcut
  have hup := wasUp_of_last h.wasUp
  rw [map_input_turns] at hup
  generalize after checkHostReachability none before = row at hcut hup
  rw [turns_append_iff] at hcut
  obtain ⟨phase, probes, rfl, hphase, hcut⟩ := hcut
  rw [turns_cons_iff] at hcut hphase
  obtain ⟨p, fails, rfl, rfl, rfl⟩ := hphase
  obtain ⟨q, probes, rfl, rfl, -⟩ := hcut
  have hfails : ∀ f ∈ fails, f.reachable = false := by
    intro f hf
    obtain ⟨t, ht, rfl⟩ := exists_turn checkHostReachability _ hf
    exact h.staysDown t ht
  have hannounced := phase_announced hup h.goesDown hfails
  rw [turns_cons] at hannounced
  refine ⟨?_, ?_⟩
  · rw [hannounced]
    exact phase_recovery hup h.goesDown hfails h.comesUp h.inSight
  · intro hs htold
    have hfirst := hannounced.mp htold
    rw [checkHostReachability_standby hs] at hfirst
    cases hfirst

end

/-! ## The whole run -/

theorem paired_iff (probes : List Probe) :
    Paired (turns checkHostReachability none probes) ↔
      NoStaleMarker (turns checkHostReachability none probes) := by
  have hquiet : ∀ t ∈ turns checkHostReachability none probes, ReachTurn.Standby t →
      t.output = none := by
    intro t ht hs
    obtain ⟨l, r, hcut⟩ := List.mem_iff_append.mp ht
    rw [turns_append_iff] at hcut
    obtain ⟨before, probes, -, -, hcut⟩ := hcut
    rw [turns_cons_iff] at hcut
    obtain ⟨p, probes, -, rfl, -⟩ := hcut
    exact congrArg Prod.snd (checkHostReachability_standby hs)
  constructor
  · rintro ⟨hpaired, -⟩ earlier first rest back later hcut h ⟨hs, hm⟩
    obtain ⟨hback, hsilent⟩ := recovery_cases hcut h
    exact hsilent hs ((hpaired _ _ _ _ _ hcut h).mp (hback.mpr (.inr ⟨hs, hm⟩)))
  · intro hfresh
    refine ⟨fun earlier first rest back later hcut h => ?_, hquiet⟩
    obtain ⟨hback, -⟩ := recovery_cases hcut h
    rw [hback]
    exact or_iff_left (hfresh _ _ _ _ _ hcut h)

/-- Over every run of probes of all hosts, the notifications of a host are
paired if and only if no down phase of it starts under standby with the
time of an older alert still in its row. -/
theorem reachability_paired_iff (probes : List Probe) (address : Str) :
    Paired (turnsAt (fun p => p.host.address) checkHostReachability address
        (fun _ => none) probes) ↔
      NoStaleMarker (turnsAt (fun p => p.host.address) checkHostReachability address
        (fun _ => none) probes) := by
  rw [turnsAt_eq_turns]
  exact paired_iff _

/-- A host that is marked standby while it is down, comes back, goes down
again and loses the mark. -/
def hiddenReturn : List Probe :=
  [⟨⟨"10.0.0.9", "pve2", false⟩, true, 100, by decide⟩,
    ⟨⟨"10.0.0.9", "pve2", false⟩, false, 200, by decide⟩,
    ⟨⟨"10.0.0.9", "pve2", true⟩, true, 300, by decide⟩,
    ⟨⟨"10.0.0.9", "pve2", true⟩, false, 400, by decide⟩,
    ⟨⟨"10.0.0.9", "pve2", false⟩, true, 500, by decide⟩]

/-- Its second return is told about, although nobody was told that it went. -/
theorem reachability_unpaired :
    ¬ Paired (turnsAt (fun p => p.host.address) checkHostReachability "10.0.0.9"
      (fun _ => none) hiddenReturn) := by
  have hall : hiddenReturn.filter (fun p => p.host.address = ("10.0.0.9" : Str)) =
      hiddenReturn := by
    simp [hiddenReturn]
  rw [turnsAt_eq_turns, hall]
  rintro ⟨hpaired, -⟩
  have hcut : turns checkHostReachability none hiddenReturn =
      [_, _, _] ++ _ :: [] ++ _ :: [] := rfl
  have hphase := hpaired _ _ _ _ _ hcut ⟨by simp [ReachTurn.Up], rfl, by simp, rfl, by
    simp [ReachTurn.Standby]⟩
  obtain ⟨t, ht, htold⟩ := hphase.mp rfl
  rw [List.mem_singleton.mp ht] at htold
  cases htold

end PveZfsTool
