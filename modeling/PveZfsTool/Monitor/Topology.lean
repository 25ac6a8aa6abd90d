import PveZfsTool.Monitor.PoolRows
import PveZfsTool.Zfs.PoolTopology

/-!
# Pools that one failure destroys

`check_pool_topology` of `app/monitor.py` tells about vdevs without redundancy
whose loss takes the pool with it.  The row of a pool holds the findings of its
last sample, as one text, and a sample that changes the text is told about with
all the findings it has.

So a finding that stays is told about again when another one comes or goes.
`new_risks_told_iff` says for which runs every notification is about new
findings only.

* `topologyStep_sends`: when a sample sends.
* `sends_of_cut`: the same in a run, by the sample before it.
-/

namespace PveZfsTool

open Text Transducer

/-! ## The check -/

def Tier.name : Tier → Str
  | .data => "data"
  | .log => "log"
  | .cache => "cache"
  | .special => "special"
  | .dedup => "dedup"
  | .spare => "spare"

/-- The status of a pool as the caller has it.  There is no text where the
status is no dictionary or has none. -/
structure StatusReport where
  name : Str
  statusText : Option Str
  now : Nat

/-- One pool that a call does not skip. -/
structure TopologySample where
  host : MonitoredHost
  pool : Str
  text : Str
  now : Nat

namespace TopologySample

/-- What the row of the pool is about. -/
def item (s : TopologySample) : Watched := .pool .topology s.host.address s.pool

def findings (s : TopologySample) : List Finding :=
  (redundancyFindings (parseTopology s.text)).filter fun f =>
    f.severity = .crit ∧ f.pool = s.pool

/-- A finding by the tier and the name of its vdev. -/
def risks (s : TopologySample) : List (Tier × Str) := s.findings.map fun f => (f.tier, f.vdev)

end TopologySample

/-- A finding of the list as text. -/
def riskText (r : Tier × Str) : Str := r.1.name ++ ':' :: r.2

/-- Findings in order, with commas between them. -/
def listing (risks : List (Tier × Str)) : Str :=
  join [','] ((risks.map riskText).insertionSort (fun a b => le a b = true))

/-- The vdevs of the notification. -/
def TopologySample.vdevs (s : TopologySample) : Str := join ", " (s.findings.map Finding.vdev)

def noRedundancy (s : TopologySample) : Notification where
  eventType := "health_warning"
  title := "Pool " ++ s.pool ++ ": no redundancy on " ++ s.vdevs
  message := "Pool '" ++ s.pool ++ "' on " ++ s.host.label ++
    " now has a vdev without redundancy: " ++ s.vdevs ++
    ".\n\nThese hold data the rest of the pool cannot be read without -- " ++
    "losing one of these devices loses the entire pool, and it will " ++
    "report ONLINE until it does."
  priority := 8
  host := some s.host.address

/-- The body of the loop of `check_pool_topology`, on the row of the pool. -/
def topologyStep (row : Option (Row Str)) (s : TopologySample) :
    Option (Row Str) × Option Notification :=
  let marker := listing s.risks
  if row.map Row.value = some marker then (row, none)
  else
    (some (stateSet row marker (some s.now)),
      if marker = [] ∨ row = none then none else some (noRedundancy s))

/-- The pools that a call does not skip. -/
def topologySamples (host : MonitoredHost) (pools : List StatusReport) : List TopologySample :=
  pools.filterMap fun p =>
    match p.statusText with
    | none => none
    | some [] => none
    | some (c :: text) => some ⟨host, p.name, c :: text, p.now⟩

/-- The rows of `pool_topology`. -/
def topologyCheck : RowCheck TopologySample where
  scope := .topology
  item := TopologySample.item
  step := topologyStep
  inScope := fun _ => rfl
  keeps := by
    intro row s hnone
    unfold topologyStep at hnone
    dsimp only at hnone
    split at hnone
    · exact hnone
    · cases hnone

/-- `check_pool_topology` -/
def checkPoolTopology (host : MonitoredHost) (pools : List StatusReport) (t : Table) :
    Table × List Notification :=
  topologyCheck.loop t (topologySamples host pools)

/-- Calls one after the other are one loop over their events. -/
theorem after_checkPoolTopology {t : Table} {calls : List (PoolCall (List StatusReport))} :
    after (topologyCheck.call checkPoolTopology) t calls =
        after topologyCheck.run t (calls.flatMap (PoolCall.events topologySamples)) ∧
      (turns (topologyCheck.call checkPoolTopology) t calls).flatMap Turn.output =
        (turns topologyCheck.run t (calls.flatMap (PoolCall.events topologySamples))).flatMap
          Turn.output :=
  after_call

/-! ## Runs -/

abbrev TopologyTurn := RowTurn TopologySample

/-- What calls do to the row of one pool. -/
def topologyTurns (calls : List (PoolCall (List StatusReport))) (key : Str) : List TopologyTurn :=
  topologyCheck.turnsAt topologySamples calls key

/-- The sample has no vdev of this name without redundancy. -/
def RedundantOrAbsent (s : TopologySample) (vdev : Str) : Prop :=
  ∀ v ∈ ((parseTopology s.text).get? s.pool).getD [], v.name = vdev → v.redundancy ≠ .none

/-- The turn is a sample of the pool. -/
def TopologyTurn.Sees (t : TopologyTurn) (s : TopologySample) : Prop := t.input = .sample s

/-- Someone is told about the findings of the turn's sample. -/
def TopologyTurn.Tells (t : TopologyTurn) (s : TopologySample) : Prop :=
  t.input = .sample s ∧ t.output = some (noRedundancy s)

/-- Each vdev that is told about had redundancy or was absent at the sample
before, and each finding that the sample before did not have is told about. -/
def NewRisksTold (ts : List TopologyTurn) : Prop :=
  ∀ earlier t later, ts = earlier ++ t :: later → ∀ s,
    (t.Tells s → ∃ u ∈ earlier.getLast?, ∃ prev, u.Sees prev ∧
      ∀ f ∈ s.findings, RedundantOrAbsent prev f.vdev) ∧
    (t.Sees s → ∀ u ∈ earlier.getLast?, ∀ prev, u.Sees prev →
      ∀ f ∈ s.findings, (f.tier, f.vdev) ∉ prev.risks → t.Tells s)

/-- A sample whose findings read like those of the sample before has none that
is new, and one whose findings read otherwise has no vdev that had no
redundancy then. -/
def RisksChangeWhole (ts : List TopologyTurn) : Prop :=
  ∀ earlier u t later, ts = earlier ++ u :: t :: later → ∀ prev s, u.Sees prev → t.Sees s →
    (listing s.risks = listing prev.risks → ∀ r ∈ s.risks, r ∈ prev.risks) ∧
    (listing s.risks ≠ listing prev.risks → ∀ r ∈ s.risks, RedundantOrAbsent prev r.2)

/-! ## One event -/

section Step

variable {row : Option (Row Str)} {s : TopologySample}

theorem listing_eq_nil {risks : List (Tier × Str)} : listing risks = [] ↔ risks = [] := by
  constructor
  · intro hempty
    by_contra hne
    have hperm := List.perm_insertionSort (fun a b => le a b = true) (risks.map riskText)
    unfold listing at hempty
    generalize (risks.map riskText).insertionSort (fun a b => le a b = true) = sorted at hperm hempty
    cases sorted with
    | nil => exact hne (List.map_eq_nil_iff.mp hperm.nil_eq.symm)
    | cons text rest =>
      have htext : text ∈ risks.map riskText := hperm.mem_iff.mp List.mem_cons_self
      obtain ⟨r, -, rfl⟩ := List.mem_map.mp htext
      have hcolon : ':' ∈ join [','] (riskText r :: rest) := by
        cases rest with
        | nil => simp [join, riskText]
        | cons next rest => simp [join, riskText]
      rw [hempty] at hcolon
      cases hcolon
  · rintro rfl
    rfl

/-- A sample sends when it has findings and they read other than the row. -/
theorem topologyStep_sends :
    (topologyStep row s).2 = some (noRedundancy s) ↔
      s.findings ≠ [] ∧ ∃ text ∈ row.map Row.value, text ≠ listing s.risks := by
  have hempty : listing s.risks = [] ↔ s.findings = [] := listing_eq_nil.trans List.map_eq_nil_iff
  unfold topologyStep
  dsimp only
  cases row with
  | none => simp
  | some prev =>
    rw [Option.map_some]
    by_cases hsame : prev.value = listing s.risks
    · rw [if_pos (congrArg some hsame)]
      constructor
      · intro h
        cases h
      · intro ⟨_, text, htext, hne⟩
        exact absurd ((Option.some.inj htext).symm.trans hsame) hne
    · rw [if_neg (fun h => hsame (Option.some.inj h))]
      by_cases hnone : s.findings = []
      · rw [if_pos (Or.inl (hempty.mpr hnone))]
        constructor
        · intro h
          cases h
        · intro ⟨hsome, _⟩
          exact absurd hnone hsome
      · rw [if_neg (by simp [hempty, hnone])]
        exact ⟨fun _ => ⟨hnone, prev.value, rfl, hsame⟩, fun _ => rfl⟩

/-- What a sample leaves in the row. -/
def listingOf : RowEvent TopologySample → Option Str
  | .sample s => some (listing s.risks)
  | .dropped => none

theorem topologyCheck_value (e : RowEvent TopologySample) :
    (topologyCheck.rowStep row e).1.map Row.value = listingOf e := by
  cases e with
  | dropped => rfl
  | sample s =>
    show (topologyStep row s).1.map Row.value = some (listing s.risks)
    unfold topologyStep
    dsimp only
    split
    · next hsame => exact hsame
    · rfl

end Step

/-! ## An event in a run -/

section

variable {events : List (RowEvent TopologySample)} {earlier later : List TopologyTurn}
  {t : TopologyTurn}

/-- A sample is told about when it has findings and they read other than those
of the sample before. -/
theorem sends_of_cut (hcut : turns topologyCheck.rowStep none events = earlier ++ t :: later)
    {s : TopologySample} :
    t.Tells s ↔ t.Sees s ∧ s.findings ≠ [] ∧ ∃ u ∈ earlier.getLast?, ∃ prev, u.Sees prev ∧
      listing prev.risks ≠ listing s.risks := by
  obtain ⟨hvalue, hout⟩ := row_of_cut (fun _ e => topologyCheck_value e) hcut
  apply and_congr_right
  intro hsees
  rw [hout, hsees]
  show (topologyStep t.before s).2 = some (noRedundancy s) ↔ _
  rw [topologyStep_sends, hvalue]
  apply and_congr_right
  intro _
  constructor
  · intro ⟨text, htext, hne⟩
    obtain ⟨u, hu, hlisting⟩ := Option.bind_eq_some_iff.mp htext
    refine ⟨u, hu, ?_⟩
    cases hinput : u.input with
    | dropped =>
      rw [hinput] at hlisting
      cases hlisting
    | sample prev =>
      rw [hinput] at hlisting
      exact ⟨prev, hinput, Option.some.inj hlisting ▸ hne⟩
  · intro ⟨u, hu, prev, hprev, hne⟩
    refine ⟨listing prev.risks, Option.bind_eq_some_iff.mpr ⟨u, hu, ?_⟩, hne⟩
    rw [hprev]
    rfl

end

theorem sees_inj {t : TopologyTurn} {s s' : TopologySample} (h : t.Sees s) (h' : t.Sees s') :
    s = s' := RowEvent.sample.inj (h.symm.trans h')

/-- A list that is cut before `t` with `u` last ends in `u` and `t`. -/
theorem cut_getLast {ts earlier later : List TopologyTurn} {u t : TopologyTurn}
    (hcut : ts = earlier ++ t :: later) (hu : u ∈ earlier.getLast?) :
    ∃ before, ts = before ++ u :: t :: later := by
  obtain ⟨before, rfl⟩ := List.getLast?_eq_some_iff.mp hu
  exact ⟨before, by rw [hcut, List.append_assoc]; rfl⟩

theorem newRisksTold_iff (events : List (RowEvent TopologySample)) :
    NewRisksTold (turns topologyCheck.rowStep none events) ↔
      RisksChangeWhole (turns topologyCheck.rowStep none events) := by
  constructor
  · intro h earlier u t later hcut prev s hprev hs
    have hcut' : turns topologyCheck.rowStep none events = (earlier ++ [u]) ++ t :: later := by
      rw [hcut, List.append_assoc]
      rfl
    have hlast : u ∈ (earlier ++ [u]).getLast? := List.getLast?_concat
    obtain ⟨honlyNew, hallNew⟩ := h _ t later hcut' s
    constructor
    · intro hsame r hr
      obtain ⟨f, hf, rfl⟩ := List.mem_map.mp hr
      by_contra hnew
      have htells := hallNew hs u hlast prev hprev f hf hnew
      obtain ⟨-, -, u', hu', prev', hprev', hne⟩ := (sends_of_cut hcut').mp htells
      obtain rfl := Option.some.inj (hlast.symm.trans hu')
      obtain rfl := sees_inj hprev hprev'
      exact hne hsame.symm
    · intro hne r hr
      obtain ⟨f, hf, rfl⟩ := List.mem_map.mp hr
      have htells := (sends_of_cut hcut').mpr
        ⟨hs, List.ne_nil_of_mem hf, u, hlast, prev, hprev, fun heq => hne heq.symm⟩
      obtain ⟨u', hu', prev', hprev', hall⟩ := honlyNew htells
      obtain rfl := Option.some.inj (hlast.symm.trans hu')
      obtain rfl := sees_inj hprev hprev'
      exact hall f hf
  · intro h earlier t later hcut s
    constructor
    · intro htells
      obtain ⟨hs, -, u, hu, prev, hprev, hne⟩ := (sends_of_cut hcut).mp htells
      obtain ⟨before, hcut'⟩ := cut_getLast hcut hu
      refine ⟨u, hu, prev, hprev, fun f hf => ?_⟩
      exact (h before u t later hcut' prev s hprev hs).2 (fun heq => hne heq.symm) (f.tier, f.vdev)
        (List.mem_map.mpr ⟨f, hf, rfl⟩)
    · intro hs u hu prev hprev f hf hnew
      obtain ⟨before, hcut'⟩ := cut_getLast hcut hu
      have hne : listing prev.risks ≠ listing s.risks := by
        intro heq
        exact hnew ((h before u t later hcut' prev s hprev hs).1 heq.symm _
          (List.mem_map.mpr ⟨f, hf, rfl⟩))
      exact (sends_of_cut hcut).mpr ⟨hs, List.ne_nil_of_mem hf, u, hu, prev, hprev, hne⟩

/-- Over every run of checks and clean-ups, the notifications of a pool are
about new findings, and all of them, if and only if findings never come or go
one by one. -/
theorem new_risks_told_iff (calls : List (PoolCall (List StatusReport))) (key : Str) :
    NewRisksTold (topologyTurns calls key) ↔ RisksChangeWhole (topologyTurns calls key) := by
  unfold topologyTurns
  rw [turnsAt_eq]
  exact newRisksTold_iff _

/-- The status of a pool of one mirror and a bare special vdev, with more rows
behind it. -/
def withSpecial (rows : Str) : TopologySample where
  host := ⟨"10.0.0.9", "pve2", false⟩
  pool := "tank"
  text := ("  pool: tank\nconfig:\n\ttank ONLINE\n\t  mirror-0 ONLINE\n\t    sda ONLINE\n" : Str) ++
    ("\t    sdb ONLINE\n\tspecial\n\t  nvme0 ONLINE\n" : Str) ++ rows
  now := 1000

/-- The pool, and after that the pool with a bare dedup vdev as well. -/
def secondRisk : List (PoolCall (List StatusReport)) :=
  [("" : Str), "\tdedup\n\t  nvme1 ONLINE\n"].map fun rows =>
    .check (withSpecial rows).host [⟨"tank", some (withSpecial rows).text, 1000⟩]

/-- The notification names the special vdev again. -/
theorem old_risk_told : ¬ NewRisksTold (topologyTurns secondRisk "10.0.0.9:tank") := by
  have hevents : topologyTurns secondRisk "10.0.0.9:tank" =
      turns topologyCheck.rowStep none
        [.sample (withSpecial []), .sample (withSpecial "\tdedup\n\t  nvme1 ONLINE\n")] := by
    unfold topologyTurns
    rw [turnsAt_eq]
    rfl
  rw [hevents]
  intro h
  have hold : (withSpecial []).risks = [(.special, ("nvme0" : Str))] := by decide
  have hnew : (withSpecial "\tdedup\n\t  nvme1 ONLINE\n").risks =
      [(.special, ("nvme0" : Str)), (.dedup, ("nvme1" : Str))] := by decide
  obtain ⟨f, hf, hvdev⟩ : ∃ f ∈ (withSpecial "\tdedup\n\t  nvme1 ONLINE\n").findings,
      (f.tier, f.vdev) = (.special, ("nvme0" : Str)) :=
    List.mem_map.mp (hnew ▸ List.mem_cons_self : (Tier.special, ("nvme0" : Str)) ∈ TopologySample.risks _)
  have hcut : turns topologyCheck.rowStep none
      [.sample (withSpecial []), .sample (withSpecial "\tdedup\n\t  nvme1 ONLINE\n")] =
        [_] ++ _ :: [] := rfl
  have hne : listing (withSpecial []).risks ≠
      listing (withSpecial "\tdedup\n\t  nvme1 ONLINE\n").risks := by
    rw [hold, hnew]
    decide
  have htells := (sends_of_cut hcut).mpr ⟨rfl, List.ne_nil_of_mem hf, _, rfl, _, rfl, hne⟩
  obtain ⟨u, hu, prev, hprev, hall⟩ := (h _ _ _ hcut _).1 htells
  obtain rfl := Option.some.inj hu
  obtain rfl := RowEvent.sample.inj hprev
  have hbare : (⟨.special, "nvme0", .none, "ONLINE", [("nvme0" : Str)]⟩ : Vdev) ∈
      ((parseTopology (withSpecial []).text).get? "tank").getD [] := by decide
  exact hall f hf _ hbare (Prod.mk.inj hvdev).2.symm rfl

end PveZfsTool
