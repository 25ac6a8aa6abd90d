import PveZfsTool.Monitor.Rounds

/-!
# When a host is announced offline

`_sample_and_monitor` of `app/metrics.py` probes a host, lets `confirm_offline` probe once
more where the first probe failed, and makes the checks with what came of it.

`offline_announced_iff` says in which passes of a run the offline alert of a host goes out:
those in which no probe is answered, after a pass that ended with the host reached.  What
happens to other hosts in between does not matter.

* `hostRow_pass`, `hostRow_removed`, `hostRow_foreign`: what one event does to the row.
* `hostRow_run`: the row of a host shows how its last pass ended.
* `Elsewhere`: the other checks neither touch that row nor speak for it.
-/

namespace PveZfsTool

open Text Transducer

/-! ## A pass of the sampler -/

/-- The probes of a host and the checks after them.  `again` is what the re-probe would
answer.  Whether the checks find the host reachable is left to the probes. -/
structure Pass where
  checks : Checks
  answers : Bool
  again : Bool

namespace Pass

def address (p : Pass) : Str := p.checks.host.address

/-- What the probes come to. -/
def reached (confirmSec : Int) (p : Pass) (t : Table) : Bool :=
  p.answers || confirmOffline confirmSec p.address p.again t

end Pass

/-- `_sample_and_monitor`, as far as the monitor goes. -/
def sampleAndMonitor (confirmSec : Int) (p : Pass) (t : Table) : Table × List Notification :=
  runChecks { p.checks with reachable := p.reached confirmSec t } t

inductive SamplerEvent where
  | pass (p : Pass)
  | removed (address : Str)

def SamplerEvent.address : SamplerEvent → Str
  | .pass p => p.address
  | .removed address => address

def samplerStep (confirmSec : Int) (t : Table) : SamplerEvent → Table × List Notification
  | .pass p => sampleAndMonitor confirmSec p t
  | .removed address => ((clearHostState address t).2, [])

abbrev SamplerTurn := Turn Table SamplerEvent (List Notification)

namespace SamplerTurn

/-- An offline alert goes out. -/
def AnnouncesOffline (t : SamplerTurn) : Prop := ∃ n ∈ t.output, n.eventType = "host_offline" ∧ n.state = "new"

/-- The turn is a pass, and it ends with the host reached. -/
def Reaches (confirmSec : Int) (t : SamplerTurn) : Prop :=
  ∃ p, t.input = .pass p ∧ p.reached confirmSec t.before = true

end SamplerTurn

/-- The last turn about the host is a pass that reached it. -/
def LeftReached (confirmSec : Int) (address : Str) (ts : List SamplerTurn) : Prop :=
  ∃ u ∈ (ts.filter fun t => t.input.address = address).getLast?, SamplerTurn.Reaches confirmSec u

/-! ## The row of a host -/

/-- The rows of the scope `host`. -/
def hostRows (t : Table) : List StateEntry := t.entries.filter (fun e => e.item.scope = "host")

def hostRow (t : Table) (address : Str) : Option Str := (stateGet t "host" address).map Row.value

section HostRows

variable {t u : Table} {i : Watched} {row : Row Str} {address scope key : Str}

theorem stateGet_hostRows (h : hostRows t = hostRows u) : stateGet t "host" address = stateGet u "host" address := by
  have hfind : ∀ t : Table, t.entries.find? (fun e => e.item.scope = ("host" : Str) ∧ e.item.key = address) =
      (hostRows t).find? (fun e => e.item.scope = ("host" : Str) ∧ e.item.key = address) := by
    intro t
    rw [hostRows, List.find?_filter]
    congr 1
    funext e
    by_cases he : e.item.scope = ("host" : Str) <;> simp [he]
  rw [stateGet, stateGet, hfind, hfind, h]

theorem hostRows_stateDelete (hscope : scope ≠ "host") : hostRows (stateDelete t scope key) = hostRows t := by
  rw [hostRows, hostRows, stateDelete, Table.deleteWhere, List.filter_filter]
  refine List.filter_congr fun e _ => ?_
  by_cases he : e.item.scope = ("host" : Str)
  · have hne : (("host" : Str) == scope) = false := beq_eq_false_iff_ne.mpr (Ne.symm hscope)
    rw [decide_eq_true he, Bool.true_and, he, hne, Bool.false_and]
    rfl
  · rw [decide_eq_false he, Bool.false_and]

theorem hostRows_put (hscope : i.scope ≠ "host") : hostRows (t.put i row) = hostRows t := by
  have hput : hostRows (t.put i row) = hostRows (stateDelete t i.scope i.key) := by
    rw [hostRows, Table.put, List.filter_cons_of_neg (by rw [decide_eq_true_eq]; exact hscope)]
    rfl
  rw [hput, hostRows_stateDelete hscope]

theorem stateGet_put_host : stateGet (t.put (.host address) row) "host" address = some row := by
  have hget : stateGet (t.put (.host address) row) (Watched.host address).scope address =
      if (Watched.host address).key = address then some row else stateGet t (Watched.host address).scope address :=
    stateGet_put rfl
  exact hget.trans (if_pos rfl)

theorem hostStep_value (row : Option (Row Str)) (p : Probe) : (hostStep row p).1.map Row.value = some p.value.text := by
  unfold hostStep
  split
  · rfl
  · split
    · rfl
    · next prev =>
      split
      · next hsame => exact congrArg some hsame
      · split <;> rfl

theorem hostRow_hostStep (p : Probe) :
    hostRow (checkHostReachabilityOn p t).1 p.host.address = some p.value.text := by
  have hvalue := hostStep_value (stateGet t "host" p.host.address) p
  unfold hostRow checkHostReachabilityOn onRow
  dsimp only
  split
  · next row hrow =>
    have hget : stateGet t (Watched.host p.host.address).scope (Watched.host p.host.address).key =
        stateGet t "host" p.host.address := rfl
    rw [hget] at hrow
    rw [hrow] at hvalue
    rw [stateGet_put_host]
    exact hvalue
  · next hnone =>
    have hget : stateGet t (Watched.host p.host.address).scope (Watched.host p.host.address).key =
        stateGet t "host" p.host.address := rfl
    rw [hget] at hnone
    rw [hnone] at hvalue
    cases hvalue

end HostRows

/-! ## The other checks -/

/-- The operation leaves the rows of the hosts alone, and sends nothing of their kind. -/
structure Elsewhere (f : Table → Table × List Notification) : Prop where
  leaves : ∀ t, hostRows (f t).1 = hostRows t
  silent : ∀ t, ∀ n ∈ (f t).2, n.eventType ≠ "host_offline"

namespace Elsewhere

theorem skip : Elsewhere (fun t => (t, [])) := ⟨fun _ => rfl, fun _ _ hn => by cases hn⟩

theorem sweep {ι : Type} {step : Table → ι → Table × List Notification} {is : List ι}
    (h : ∀ i ∈ is, Elsewhere (step · i)) : Elsewhere (sweep step is) := by
  induction is with
  | nil => exact skip
  | cons i is ih =>
    have hi := h i List.mem_cons_self
    have his := ih fun j hj => h j (List.mem_cons_of_mem _ hj)
    rw [sweep_cons]
    refine ⟨fun t => (his.leaves _).trans (hi.leaves t), fun t n hn => ?_⟩
    rcases List.mem_append.mp hn with hn | hn
    · exact hi.silent t n hn
    · exact his.silent _ n hn

theorem onRow {i : Watched} {step : Option (Row Str) → Option (Row Str) × Option Notification}
    (hscope : i.scope ≠ "host") (hsilent : ∀ row, ∀ n ∈ (step row).2, n.eventType ≠ "host_offline") :
    Elsewhere (onRow i step) := by
  refine ⟨fun t => ?_, fun t n hn => hsilent _ n (Option.mem_toList.mp hn)⟩
  rw [PveZfsTool.onRow]
  dsimp only
  split
  · exact hostRows_put hscope
  · exact hostRows_stateDelete hscope

theorem scope_ne (s : PoolScope) : s.name ≠ "host" := by cases s <;> decide

theorem loop {ι : Type} {c : RowCheck ι} {samples : List ι}
    (hsilent : ∀ row s, ∀ n ∈ (c.step row s).2, n.eventType ≠ "host_offline") :
    Elsewhere (fun t => c.loop t samples) := by
  have hsweep : (fun t => c.loop t samples) = Transducer.sweep c.run (samples.map TableEvent.sample) := rfl
  rw [hsweep]
  refine sweep fun e he => ?_
  obtain ⟨s, -, rfl⟩ := List.mem_map.mp he
  refine ⟨fun t => ?_, fun t n hn => hsilent _ s n (Option.mem_toList.mp hn)⟩
  rw [RowCheck.run]
  dsimp only
  split
  · exact hostRows_put (c.inScope s ▸ scope_ne c.scope)
  · rfl

variable {host : MonitoredHost} {current : List Str}

/-- The rows of the hosts are those of `t`, and what was sent is of another kind. -/
structure Cleared (t : Table) (c : Clearing) : Prop where
  leaves : hostRows c.table = hostRows t
  silent : ∀ n ∈ c.sent, n.eventType ≠ "host_offline"

theorem Cleared.rows {t : Table} {scope : Str} (hscope : scope ≠ "host") {rows : List (Str × Str)} {c : Clearing}
    (h : Cleared t c) : Cleared t (rows.foldl (clearRow host current scope) c) := by
  induction rows generalizing c with
  | nil => exact h
  | cons r rows ih =>
    refine ih ?_
    unfold clearRow
    dsimp only
    split
    · exact h
    · refine ⟨(hostRows_stateDelete hscope).trans h.leaves, ?_⟩
      dsimp only
      split
      · intro n hn
        rcases List.mem_append.mp hn with hn | hn
        · exact h.silent n hn
        · obtain rfl := List.mem_singleton.mp hn
          exact (by decide : ("pool_error" : Str) ≠ "host_offline")
      · exact h.silent

theorem Cleared.scopes {t : Table} {ss : List PoolScope} {c : Clearing} (h : Cleared t c) :
    Cleared t (ss.foldl (clearScope host current) c) := by
  induction ss generalizing c with
  | nil => exact h
  | cons s ss ih => exact ih (h.rows (scope_ne s))

theorem clearVanished {pools : List Str} : Elsewhere (clearVanishedOn host pools) := by
  have hall : ∀ t, Cleared t (clearVanishedPoolState host pools t) := by
    intro t
    obtain ⟨ss, hfold⟩ := exists_scopes host pools
    have hstart : Cleared t ⟨t, []⟩ := ⟨rfl, fun _ hn => by cases hn⟩
    rw [hfold]
    exact hstart.scopes
  refine ⟨fun t => ?_, fun t => ?_⟩
  · rw [clearVanishedOn]
    dsimp only
    rw [(hall t).leaves]
  · rw [clearVanishedOn]
    dsimp only
    exact (hall t).silent

/-- The checks after the one of the host itself. -/
theorem parts {c : Checks} : ∀ part ∈ c.parts.tail, Elsewhere part := by
  have hhealth : ∀ pools, Elsewhere (checkPoolHealth c.host pools) := fun pools => loop fun row s n hn => by
    have hn : n ∈ (healthStep row s).2 := hn
    unfold healthStep at hn
    split at hn
    · cases hn
    · split at hn
      · cases hn
      · dsimp only at hn
        split at hn
        · cases hn
          exact (by decide : ("pool_error" : Str) ≠ "host_offline")
        · split at hn
          · cases hn
            exact (by decide : ("pool_error" : Str) ≠ "host_offline")
          · cases hn
  have hcapacity : ∀ call, Elsewhere (checkCapacityOn call) := fun call => loop fun row s n hn => by
    have hn : n ∈ (capacityTextStep row s).2 := hn
    unfold capacityTextStep at hn
    split at hn
    · cases hn
      exact (by decide : ("health_warning" : Str) ≠ "host_offline")
    · cases hn
  have herrors : ∀ pools, Elsewhere (checkPoolErrors c.host pools) := fun pools => loop fun row s n hn => by
    have hn : n ∈ (errorStep row s).2 := hn
    unfold errorStep at hn
    split at hn
    · cases hn
    · split at hn
      · cases hn
        exact (by decide : ("health_warning" : Str) ≠ "host_offline")
      · cases hn
  have htopology : ∀ pools, Elsewhere (checkPoolTopology c.host pools) := fun pools => loop fun row s n hn => by
    have hn : n ∈ (topologyStep row s).2 := hn
    unfold topologyStep at hn
    dsimp only at hn
    split at hn
    · cases hn
    · dsimp only at hn
      split at hn
      · cases hn
      · cases hn
        exact (by decide : ("health_warning" : Str) ≠ "host_offline")
  have hstale : Elsewhere (checkAutoSnapshotsOn c.stale) := by
    unfold checkAutoSnapshotsOn
    split
    · exact skip
    · refine sweep fun l _ => onRow (by decide : ("stale_snap" : Str) ≠ "host") fun row n hn => ?_
      unfold staleTextStep at hn
      split at hn
      · cases hn
      · split at hn
        · cases hn
        · split at hn
          · cases hn
          · cases hn
            exact (by decide : ("auto_snapshot" : Str) ≠ "host_offline")
  intro part hpart
  rw [Checks.parts, List.tail_cons] at hpart
  split at hpart
  · rcases List.mem_append.mp hpart with hpart | hpart
    · split at hpart
      · obtain rfl := List.mem_singleton.mp hpart
        exact clearVanished
      · cases hpart
    · simp only [List.mem_cons, List.not_mem_nil, or_false] at hpart
      rcases hpart with rfl | rfl | rfl | rfl | rfl
      · exact hhealth _
      · exact hcapacity _
      · exact herrors _
      · exact htopology _
      · exact hstale
  · cases hpart

end Elsewhere

/-! ## One event -/

section Event

variable {confirmSec : Int} {t : Table} {p : Pass} {address : Str}

/-- What the row of a host holds after its pass. -/
def reachText (b : Bool) : Str := if b then "up" else "down"

theorem runChecks_eq {c : Checks} : runChecks c = followedBy
    (checkHostReachabilityOn ⟨c.host, c.reachable, c.now, c.now_pos⟩)
    (sweep (fun t part => part t) c.parts.tail) := rfl

theorem elsewhere_tail {c : Checks} : Elsewhere (sweep (fun t part => part t) c.parts.tail) :=
  .sweep Elsewhere.parts

theorem hostRow_pass : hostRow (sampleAndMonitor confirmSec p t).1 p.address =
    some (reachText (p.reached confirmSec t)) := by
  have hfirst := @hostRow_hostStep t
    ⟨p.checks.host, p.reached confirmSec t, p.checks.now, p.checks.now_pos⟩
  rw [sampleAndMonitor, runChecks_eq, followedBy, hostRow, stateGet_hostRows (elsewhere_tail.leaves _)]
  refine hfirst.trans (congrArg some ?_)
  unfold Probe.value reachText
  dsimp only
  split <;> rfl

theorem hostRow_removed : hostRow (clearHostState address t).2 address = none := by
  rw [hostRow, Option.map_eq_none_iff, Option.eq_none_iff_forall_not_mem]
  intro row hrow
  obtain ⟨e, he, ⟨hscope, hkey⟩, -⟩ := stateGet_eq_some.mp hrow
  have hout := (mem_clearHostState.mp he).2.1
  obtain ⟨a, ha⟩ := Watched.scope_eq_host.mp hscope
  rw [ha] at hkey hout
  exact hout (congrArg Watched.host hkey)

theorem leaves_samplerStep {e : SamplerEvent} (hplain : PlainAddress e.address) :
    restOf e.address (samplerStep confirmSec t e).1 = restOf e.address t := by
  cases e with
  | pass p => exact (confined_runChecks (c := { p.checks with reachable := p.reached confirmSec t }) hplain).leaves t
  | removed address => exact confined_clearHostState.leaves t

/-- An event about another host. -/
theorem hostRow_foreign {e : SamplerEvent} (hplain : PlainAddress e.address)
    (hapart : AddressesApart address e.address) :
    hostRow (samplerStep confirmSec t e).1 address = hostRow t address := by
  have hrows := rowsOf_of_restOf hapart (@leaves_samplerStep confirmSec t e hplain)
  rw [hostRow, stateGet_rowsOf ownsKey_host hrows]
  rfl

/-- When the check of a host announces it offline. -/
theorem hostStep_announces {row : Option (Row Str)} {q : Probe} :
    (∃ n ∈ (hostStep row q).2, n.eventType = "host_offline" ∧ n.state = "new") ↔
      q.host.standby = false ∧ q.reachable = false ∧ ∃ r ∈ row, r.value ≠ "down" := by
  unfold hostStep
  by_cases hstandby : q.host.standby = true
  · rw [if_pos hstandby, hstandby]
    constructor
    · rintro ⟨n, hn, -⟩
      cases hn
    · rintro ⟨h, -⟩
      cases h
  · rw [if_neg hstandby, Bool.not_eq_true] at *
    cases row with
    | none =>
      constructor
      · rintro ⟨n, hn, -⟩
        cases hn
      · rintro ⟨-, -, r, hr, -⟩
        cases hr
    | some prev =>
      dsimp only
      cases hreach : q.reachable with
      | true =>
        have hup : q.value.text = "up" := by rw [Probe.value, hreach]; rfl
        constructor
        · rintro ⟨n, hn, -, hstate⟩
          split at hn
          · cases hn
          · rw [if_neg (by decide)] at hn
            dsimp only at hn
            split at hn
            · cases hn
              exact absurd hstate (by decide : ("resolved" : Str) ≠ "new")
            · cases hn
        · rintro ⟨-, h, -⟩
          cases h
      | false =>
        have hdown : q.value.text = "down" := by rw [Probe.value, hreach]; rfl
        rw [hdown]
        by_cases hsame : prev.value = ("down" : Str)
        · rw [if_pos hsame]
          constructor
          · rintro ⟨n, hn, -⟩
            cases hn
          · rintro ⟨-, -, r, ⟨⟩, hne⟩
            exact absurd hsame hne
        · rw [if_neg hsame, if_pos (by decide)]
          exact ⟨fun _ => ⟨hstandby, rfl, prev, rfl, hsame⟩, fun _ => ⟨_, rfl, rfl, rfl⟩⟩

end Event

/-! ## Runs -/

section Runs

variable {confirmSec : Int} {address : Str} {events : List SamplerEvent}

/-- What the row of its host holds after a turn. -/
def SamplerTurn.leavesRow (confirmSec : Int) (t : SamplerTurn) : Option Str :=
  match t.input with
  | .pass p => some (reachText (p.reached confirmSec t.before))
  | .removed _ => none

/-- The row of a host shows how the last turn about it ended. -/
theorem hostRow_run (hplain : ∀ e ∈ events, PlainAddress e.address)
    (hapart : ∀ e ∈ events, e.address ≠ address → AddressesApart address e.address) :
    hostRow (after (samplerStep confirmSec) emptyTable events) address =
      ((turns (samplerStep confirmSec) emptyTable events).filter
        fun t => t.input.address = address).getLast?.bind (SamplerTurn.leavesRow confirmSec) := by
  induction events using List.reverseRecOn with
  | nil => rfl
  | append_singleton events e ih =>
    have hrec := ih (fun e he => hplain e (List.mem_append_left _ he)) fun e he => hapart e (List.mem_append_left _ he)
    have he : e ∈ events ++ [e] := List.mem_append_right _ List.mem_cons_self
    rw [after_append, turns_append, List.filter_append, turns_cons, turns_nil]
    by_cases hown : e.address = address
    · rw [List.filter_cons_of_pos (by rw [decide_eq_true_eq]; exact hown), List.filter_nil, List.getLast?_concat]
      cases e with
      | pass p =>
        obtain rfl : p.address = address := hown
        exact hostRow_pass
      | removed a =>
        obtain rfl : a = address := hown
        exact hostRow_removed
    · rw [List.filter_cons_of_neg (by rw [decide_eq_true_eq]; exact hown), List.filter_nil, List.append_nil, ← hrec]
      exact hostRow_foreign (hplain e he) (hapart e he hown)

theorem leavesRow_up {t : SamplerTurn} :
    SamplerTurn.leavesRow confirmSec t = some ("up" : Str) ↔ SamplerTurn.Reaches confirmSec t := by
  obtain ⟨before, input, output⟩ := t
  cases input with
  | pass p =>
    have hup : ∀ b, some (reachText b) = some ("up" : Str) ↔ b = true := by decide
    exact (hup _).trans ⟨fun h => ⟨p, rfl, h⟩, fun ⟨q, hq, h⟩ => by cases hq; exact h⟩
  | removed a => exact ⟨fun h => (nomatch h), fun ⟨_, hq, _⟩ => (nomatch hq)⟩

/-- A row that is there and does not say down says up. -/
theorem leavesRow_not_down {t : SamplerTurn} {v : Str} (h : SamplerTurn.leavesRow confirmSec t = some v)
    (hv : v ≠ "down") : v = "up" := by
  obtain ⟨before, input, output⟩ := t
  cases input with
  | pass p =>
    obtain rfl := Option.some.inj h
    unfold reachText at hv ⊢
    split
    · rfl
    · next hb => exact absurd (if_neg hb) hv
  | removed a => cases h

end Runs

/-- A pass in which nothing answers. -/
def silentPass : Pass := ⟨bareRound "pve1" true, false, false⟩

/-- One host goes down while another one is there. -/
def goesDown : List SamplerEvent :=
  [.pass ⟨bareRound "pve1" true, true, true⟩, .pass ⟨bareRound "pve2" true, true, true⟩,
    .pass silentPass]

end PveZfsTool
