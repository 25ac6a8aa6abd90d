import PveZfsTool.Lib.Confined
import PveZfsTool.Monitor.Capacity
import PveZfsTool.Monitor.Errors
import PveZfsTool.Monitor.PoolHealth
import PveZfsTool.Monitor.Reachability
import PveZfsTool.Monitor.StaleLabels
import PveZfsTool.Monitor.Topology

/-!
# The checks of all hosts on one table

`run_checks` of `app/monitor.py` makes the checks of one host one after the other, on
the table that all hosts share.  `confirm_offline` looks into the same table before, and
`clear_host_state` takes a removed host out of it.

The rows of a host are told from those of the others by the text of their keys, which
the clean-ups compare as patterns.  `monitor_separates` says that this goes well for hosts
whose addresses are `AddressesApart`: what is recorded of a host, and what is sent about it, is
what would be if it were the only one.

* `hostStep_text`, `capacityTextStep_text`, `staleTextStep_text`: the checks on rows of
  text are the checks on rows of values.
* `confined_runChecks`: the checks of a host keep to its rows.
* `ownsKey_disjoint`: no row belongs to two hosts.
-/

namespace PveZfsTool

open Text Transducer

/-! ## The checks on rows of text -/

/-- A row whose value is stored as a text. -/
def Row.asText {α : Type} (text : α → Str) (row : Row α) : Row Str := ⟨text row.value, row.lastAlertTs⟩

def Reach.text : Reach → Str
  | .up => "up"
  | .down => "down"

/-- `check_host_reachability` -/
def hostStep (row : Option (Row Str)) (p : Probe) : Option (Row Str) × Option Notification :=
  if p.host.standby then (some (stateSet row p.value.text none), none)
  else
    match row with
    | none => (some (stateSet row p.value.text none), none)
    | some prev =>
        if prev.value = p.value.text then (row, none)
        else if !p.reachable then
          (some (stateSet row p.value.text (some p.now)), some (hostOffline p.host))
        else
          (some (stateSet row p.value.text (some 0)),
            if isAlerted prev.lastAlertTs then some (hostBackOnline p.host) else none)

/-- The keys of `_LEVEL_ORDER`. -/
def Level.text : Level → Str
  | .belowWarn => "below"
  | .warn => "warn"
  | .crit => "crit"

/-- The level that a text of `_LEVEL_ORDER` stands for. -/
def levelOfText (s : Str) : Option Level := [Level.belowWarn, .warn, .crit].find? (fun l => l.text = s)

/-- The body of the loop of `check_capacity`. -/
def capacityTextStep (row : Option (Row Str)) (s : Sample) : Option (Row Str) × Option Notification :=
  if shouldAlertCapacity (row.bind fun r => levelOfText r.value) s.level &&
      cooldownOk (row.bind Row.lastAlertTs) s.now capacityAlertCooldown then
    (some (stateSet row s.level.text (some s.sentAt)), some (capacityNotice s s.level))
  else (some (stateSet row s.level.text none), none)

/-- `json.dumps` of the record with the count. -/
def countText (n : Nat) : Str := ("\x7b\"count\": " : Str) ++ ofNat n ++ "\x7d"

/-- The body of the loop of `check_auto_snapshots`. -/
def staleTextStep (row : Option (Row Str)) (c : LabelCheck) : Option (Row Str) × Option Notification :=
  if c.judged = false then (row, none)
  else if c.stale = [] then (none, none)
  else if cooldownOk (row.bind Row.lastAlertTs) c.checkedAt staleAlertCooldown = false then
    (some (stateSet row (countText c.stale.length) (row.bind Row.lastAlertTs)), none)
  else (some (stateSet row (countText c.stale.length) (some c.round.now)), some c.notice)

section AsText

variable {α : Type} {text : α → Str} {row : Option (Row α)}

@[simp] theorem lastAlertTs_asText : (row.map (Row.asText text)).bind Row.lastAlertTs = row.bind Row.lastAlertTs := by
  cases row <;> rfl

@[simp] theorem stateSet_asText {value : α} {ts : Option Nat} :
    stateSet (row.map (Row.asText text)) (text value) ts = (stateSet row value ts).asText text := by
  rw [stateSet, stateSet, Row.asText, lastAlertTs_asText]

end AsText

theorem Reach.text_injective {a b : Reach} : a.text = b.text ↔ a = b := by
  cases a <;> cases b <;> decide

@[simp] theorem levelOfText_text (l : Level) : levelOfText l.text = some l := by
  cases l <;> decide

theorem hostStep_text (row : Option (Row Reach)) (p : Probe) :
    hostStep (row.map (Row.asText Reach.text)) p =
      ((checkHostReachability row p).1.map (Row.asText Reach.text), (checkHostReachability row p).2) := by
  unfold hostStep checkHostReachability
  cases row with
  | none => split <;> rfl
  | some prev =>
    have hsame : (prev.asText Reach.text).value = p.value.text ↔ prev.value = p.value := Reach.text_injective
    split
    · rfl
    · simp only [Option.map_some, hsame]
      split
      · rfl
      · split <;> rfl

theorem capacityTextStep_text (row : Option (Row Level)) (s : Sample) :
    capacityTextStep (row.map (Row.asText Level.text)) s =
      ((capacityStep row s).1.map (Row.asText Level.text), (capacityStep row s).2) := by
  have hlevel : (row.map (Row.asText Level.text)).bind (fun r => levelOfText r.value) = row.map Row.value := by
    cases row with
    | none => rfl
    | some r => exact levelOfText_text r.value
  unfold capacityTextStep capacityStep
  rw [hlevel, lastAlertTs_asText, stateSet_asText, stateSet_asText]
  split <;> rfl

theorem staleTextStep_text (row : Option (Row Nat)) (c : LabelCheck) :
    staleTextStep (row.map (Row.asText countText)) c =
      ((staleStep row c).1.map (Row.asText countText), (staleStep row c).2) := by
  unfold staleTextStep staleStep
  rw [lastAlertTs_asText, stateSet_asText, stateSet_asText]
  split
  · rfl
  · split
    · rfl
    · split <;> rfl

/-! ## The checks on the table -/

/-- A step on the row of an item. -/
def onRow (i : Watched) (step : Option (Row Str) → Option (Row Str) × Option Notification) (t : Table) :
    Table × List Notification :=
  let r := step (stateGet t i.scope i.key)
  (match r.1 with
    | some row => t.put i row
    | none => stateDelete t i.scope i.key, r.2.toList)

@[inherit_doc hostStep]
def checkHostReachabilityOn (p : Probe) : Table → Table × List Notification :=
  onRow (.host p.host.address) (hostStep · p)

/-- The rows of `capacity`. -/
def capacityCheck : RowCheck Sample where
  scope := .capacity
  item := fun s => .pool .capacity s.host.address s.pool
  step := capacityTextStep
  inScope := fun _ => rfl
  keeps := by
    intro row s hnone
    unfold capacityTextStep at hnone
    split at hnone
    · cases hnone
    · cases hnone

/-- `check_capacity` -/
def checkCapacityOn (c : CapacityCall) (t : Table) : Table × List Notification := capacityCheck.loop t c.samples

/-- `check_auto_snapshots` -/
def checkAutoSnapshotsOn (r : StaleRound) (t : Table) : Table × List Notification :=
  if r.perLabel.isNone then (t, [])
  else sweep (fun t c => onRow (.staleSnap r.host.address c.label.name) (staleTextStep · c) t) r.checks t

/-! ## A round -/

/-- A pool of the listing, with the clocks of the checks that look at it. -/
structure ListedPool where
  name : Str
  health : Str
  cap : Option Rat
  healthAt : Nat
  capacityAt : Nat
  capacitySentAt : Nat

/-- An entry of `pools_status`, with the clocks of the checks that look at it. -/
structure PoolText where
  name : Str
  errorTotals : Option ErrorTotals
  statusText : Str
  errorsAt : Nat
  errorsSentAt : Nat
  topologyAt : Nat

/-- The arguments of `run_checks`, with what its parts read besides. -/
structure Checks where
  host : MonitoredHost
  reachable : Bool
  now : Nat
  now_pos : 0 < now
  pools : List ListedPool
  poolsValid : Bool
  status : List PoolText
  thresholds : Thresholds
  stale : StaleRound
  sameHost : stale.host = host

/-- `clear_vanished_pool_state` with what it sends. -/
def clearVanishedOn (host : MonitoredHost) (pools : List Str) (t : Table) : Table × List Notification :=
  ((clearVanishedPoolState host pools t).table, (clearVanishedPoolState host pools t).sent)

/-- The calls of `_run_checks`. -/
def Checks.parts (c : Checks) : List (Table → Table × List Notification) :=
  checkHostReachabilityOn ⟨c.host, c.reachable, c.now, c.now_pos⟩ ::
    if c.reachable then
      (if c.poolsValid then [clearVanishedOn c.host (c.pools.map ListedPool.name)] else []) ++
        [checkPoolHealth c.host (c.pools.map fun p => ⟨p.name, p.health, p.healthAt⟩),
          checkCapacityOn ⟨c.host, c.thresholds, c.pools.map fun p => ⟨p.name, p.cap, p.capacityAt, p.capacitySentAt⟩⟩,
          checkPoolErrors c.host (c.status.map fun s => ⟨s.name, some s.errorTotals, s.errorsAt, s.errorsSentAt⟩),
          checkPoolTopology c.host (c.status.map fun s => ⟨s.name, some s.statusText, s.topologyAt⟩),
          checkAutoSnapshotsOn c.stale]
    else []

/-- `run_checks` -/
def runChecks (c : Checks) : Table → Table × List Notification := sweep (fun t part => part t) c.parts

/-- `confirm_offline`, where the re-probe would answer `again`. -/
def confirmOffline (confirmSec : Int) (address : Str) (again : Bool) (t : Table) : Bool :=
  if confirmSec ≤ 0 then false
  else if (stateGet t "host" address).map Row.value = some ("down" : Str) then false
  else again

/-- What the sampler, the other threads and `remove_host` do with the table. -/
inductive MonitorCall where
  | confirm (address : Str) (again : Bool)
  | checks (c : Checks)
  | removed (address : Str)

def MonitorCall.address : MonitorCall → Str
  | .confirm address _ => address
  | .checks c => c.host.address
  | .removed address => address

inductive MonitorAnswer where
  | reachable (b : Bool)
  | sent (notifications : List Notification)
  | cleared (rows : Nat)

/-- One call. -/
def monitorStep (confirmSec : Int) (t : Table) : MonitorCall → Table × MonitorAnswer
  | .confirm address again => (t, .reachable (confirmOffline confirmSec address again t))
  | .checks c => ((runChecks c t).1, .sent (runChecks c t).2)
  | .removed address => ((clearHostState address t).2, .cleared (clearHostState address t).1)

/-! ## The rows of a host -/

/-- The row belongs to the host, as far as the clean-up of a removed host goes. -/
def ownsKey (address scope key : Str) : Bool := (scope == "host" && key == address) || belongsTo address key

def rowsOf (address : Str) (t : Table) : List StateEntry := t.entries.filter (inHostState address)

def restOf (address : Str) (t : Table) : List StateEntry := t.entries.filter (fun e => !inHostState address e)

/-- No key can belong to both hosts. -/
structure AddressesApart (a b : Str) : Prop where
  left : ¬ lower (a ++ [':']) <+: lower (b ++ [':'])
  right : ¬ lower (b ++ [':']) <+: lower (a ++ [':'])

/-- The address has no character that `LIKE` reads as a pattern. -/
def PlainAddress (address : Str) : Prop := '_' ∉ address ∧ '%' ∉ address

section Keys

variable {a b scope key : Str}

theorem ownsKey_iff : ownsKey a scope key = true ↔ scope = "host" ∧ key = a ∨ lower (a ++ [':']) <+: lower key := by
  rw [ownsKey, Bool.or_eq_true, Bool.and_eq_true, beq_iff_eq, beq_iff_eq, belongsTo, Like.like_escape]

theorem lower_prefix_append (a t : Str) : lower a <+: lower (a ++ t) := by
  rw [lower, lower, List.map_append]
  exact List.prefix_append _ _

theorem ownsKey_colon {name : Str} : ownsKey a scope (a ++ ':' :: name) = true := by
  have hsplit : a ++ ':' :: name = (a ++ [':']) ++ name := List.append_cons ..
  rw [hsplit]
  exact ownsKey_iff.mpr (.inr (lower_prefix_append _ _))

theorem ownsKey_host : ownsKey a "host" a = true := ownsKey_iff.mpr (.inl ⟨rfl, rfl⟩)

theorem ownsKey_disjoint (h : AddressesApart a b) (ha : ownsKey a scope key = true) : ownsKey b scope key = false := by
  rw [Bool.eq_false_iff]
  intro hb
  rcases ownsKey_iff.mp ha with ⟨-, rfl⟩ | hpa
  · rcases ownsKey_iff.mp hb with ⟨-, rfl⟩ | hpb
    · exact h.left (List.prefix_refl _)
    · exact h.right (hpb.trans (lower_prefix_append _ _))
  · rcases ownsKey_iff.mp hb with ⟨-, rfl⟩ | hpb
    · exact h.left (hpa.trans (lower_prefix_append _ _))
    · -- two prefixes of one key
      rcases List.prefix_or_prefix_of_prefix hpa hpb with hab | hba
      · exact h.left hab
      · exact h.right hba

/-- Addresses without a colon are apart when they differ in more than the case of letters. -/
theorem addressesApart_of_noColon (ha : ':' ∉ lower a) (hb : ':' ∉ lower b) (hne : lower a ≠ lower b) :
    AddressesApart a b := by
  have hstops : ∀ {x y : Str}, ':' ∉ lower x → ':' ∉ lower y → lower (x ++ [':']) <+: lower (y ++ [':']) →
      lower x = lower y := by
    intro x y hx hy hp
    have hlower : ∀ z : Str, lower (z ++ [':']) = lower z ++ [':'] := fun z => by
      rw [lower, List.map_append]
      rfl
    rw [hlower, hlower] at hp
    obtain ⟨t, ht⟩ := hp
    rw [List.append_assoc] at ht
    have hkeep : ∀ {z : Str}, ':' ∉ lower z → ∀ c ∈ lower z, decide (c ≠ ':') = true :=
      fun hz c hc => decide_eq_true fun h => hz (h ▸ hc)
    have hcut := congrArg (List.takeWhile (fun c => decide (c ≠ ':'))) ht
    rw [List.takeWhile_append_of_pos (hkeep hx), List.takeWhile_append_of_pos (hkeep hy)] at hcut
    simpa using hcut
  exact ⟨fun hp => hne (hstops ha hb hp), fun hp => hne (hstops hb ha hp).symm⟩

/-- A plain text can be taken for nothing but itself. -/
theorem blurs_plain {p u : Str} (hone : '_' ∉ p) (hany : '%' ∉ p) (h : Like.Blurs p u) : lower p = lower u := by
  induction h with
  | nil => rfl
  | same hcase _ ih =>
    rw [lower, List.map_cons, hcase]
    exact congrArg (_ :: ·) (ih (fun hm => hone (List.mem_cons_of_mem _ hm)) fun hm => hany (List.mem_cons_of_mem _ hm))
  | one => exact absurd List.mem_cons_self hone
  | any => exact absurd List.mem_cons_self hany

/-- The rows that the clean-up of vanished pools finds belong to the host. -/
theorem ownsKey_of_like (hplain : PlainAddress a) (h : Like.like none (a ++ [':'] ++ ['%']) key = true) :
    ownsKey a scope key = true := by
  obtain ⟨u, v, rfl, hblur⟩ := Like.like_blurs.mp h
  have hone : '_' ∉ a ++ [':'] := fun hm =>
    (List.mem_append.mp hm).elim hplain.1 fun hm => absurd (List.mem_singleton.mp hm) (by decide)
  have hany : '%' ∉ a ++ [':'] := fun hm =>
    (List.mem_append.mp hm).elim hplain.2 fun hm => absurd (List.mem_singleton.mp hm) (by decide)
  refine ownsKey_iff.mpr (.inr ?_)
  rw [blurs_plain hone hany hblur]
  exact lower_prefix_append _ _

end Keys

/-! ## What keeps to the rows of a host -/

section Confinement

variable {a : Str} {t u : Table} {i : Watched} {row : Row Str}

theorem rowsOf_deleteWhere {p : StateEntry → Bool} : rowsOf a (t.deleteWhere p) = (rowsOf a t).filter (fun e => !p e) :=
  List.filter_comm ..

theorem restOf_deleteWhere {p : StateEntry → Bool} (h : ∀ e, p e = true → inHostState a e = true) :
    restOf a (t.deleteWhere p) = restOf a t := by
  rw [restOf, restOf, Table.deleteWhere, List.filter_filter]
  refine List.filter_congr fun e _ => ?_
  cases hp : p e with
  | false => simp
  | true => simp [h e hp]

theorem ownsKey_of_mem {scope key : Str} {e : StateEntry} (howns : ownsKey a scope key = true)
    (he : (e.item.scope == scope && e.item.key == key) = true) : inHostState a e = true := by
  rw [Bool.and_eq_true, beq_iff_eq, beq_iff_eq] at he
  rw [← he.1, ← he.2] at howns
  exact howns

theorem stateGet_rowsOf {scope key : Str} (howns : ownsKey a scope key = true) (h : rowsOf a t = rowsOf a u) :
    stateGet t scope key = stateGet u scope key := by
  have hfind : ∀ t : Table, t.entries.find? (fun e => e.item.scope = scope ∧ e.item.key = key) =
      (rowsOf a t).find? (fun e => e.item.scope = scope ∧ e.item.key = key) := by
    intro t
    rw [rowsOf, List.find?_filter]
    congr 1
    funext e
    by_cases he : e.item.scope = scope ∧ e.item.key = key
    · have hin : inHostState a e = true := ownsKey_of_mem howns (by simp [he])
      simp [he, hin]
    · simp [he]
  rw [stateGet, stateGet, hfind, hfind, h]

theorem rowsOf_stateDelete (scope key : Str) (h : rowsOf a t = rowsOf a u) :
    rowsOf a (stateDelete t scope key) = rowsOf a (stateDelete u scope key) := by
  rw [stateDelete, stateDelete, rowsOf_deleteWhere, rowsOf_deleteWhere, h]

theorem restOf_stateDelete {scope key : Str} (howns : ownsKey a scope key = true) :
    restOf a (stateDelete t scope key) = restOf a t :=
  restOf_deleteWhere fun _ he => ownsKey_of_mem howns he

theorem rowsOf_put (h : rowsOf a t = rowsOf a u) : rowsOf a (t.put i row) = rowsOf a (u.put i row) := by
  have hput : ∀ t : Table, rowsOf a (t.put i row) =
      [StateEntry.mk i row].filter (inHostState a) ++ rowsOf a (stateDelete t i.scope i.key) := fun t =>
    List.filter_append [StateEntry.mk i row] _
  rw [hput, hput, rowsOf_stateDelete _ _ h]

theorem restOf_put (howns : ownsKey a i.scope i.key = true) : restOf a (t.put i row) = restOf a t := by
  have hin : inHostState a ⟨i, row⟩ = true := howns
  have hput : restOf a (t.put i row) = restOf a (stateDelete t i.scope i.key) := by
    rw [restOf, Table.put, List.filter_cons_of_neg (by rw [hin]; decide)]
    rfl
  rw [hput, restOf_stateDelete howns]

theorem confined_onRow {step : Option (Row Str) → Option (Row Str) × Option Notification}
    (howns : ownsKey a i.scope i.key = true) : Confined (rowsOf a) (restOf a) (onRow i step) where
  answers := by
    intro t u h
    rw [onRow, onRow, stateGet_rowsOf howns h]
  moves := by
    intro t u h
    rw [onRow, onRow, stateGet_rowsOf howns h]
    dsimp only
    split
    · exact rowsOf_put h
    · exact rowsOf_stateDelete _ _ h
  leaves := by
    intro t
    rw [onRow]
    dsimp only
    split
    · exact restOf_put howns
    · exact restOf_stateDelete howns

theorem confined_loop {ι : Type} {c : RowCheck ι} {samples : List ι}
    (howns : ∀ s ∈ samples, ownsKey a (c.item s).scope (c.item s).key = true) :
    Confined (rowsOf a) (restOf a) (fun t => c.loop t samples) := by
  have hsweep : (fun t => c.loop t samples) = sweep c.run (samples.map TableEvent.sample) := rfl
  rw [hsweep]
  refine Confined.sweep fun e he => ?_
  obtain ⟨s, hs, rfl⟩ := List.mem_map.mp he
  have hkey := howns s hs
  have hget : ∀ {t u : Table}, rowsOf a t = rowsOf a u →
      stateGet t c.scope.name (c.item s).key = stateGet u c.scope.name (c.item s).key := fun h =>
    stateGet_rowsOf (c.inScope s ▸ hkey) h
  refine ⟨fun t u h => ?_, fun t u h => ?_, fun t => ?_⟩
  · rw [RowCheck.run, RowCheck.run, hget h]
  · rw [RowCheck.run, RowCheck.run, hget h]
    dsimp only
    split
    · exact rowsOf_put h
    · exact h
  · rw [RowCheck.run]
    dsimp only
    split
    · exact restOf_put hkey
    · rfl

theorem restOf_clearRows {host : MonitoredHost} {current : List Str} {scope : Str} {rows : List (Str × Str)}
    {c : Clearing} (howns : ∀ r ∈ rows, ownsKey host.address scope r.1 = true) :
    restOf host.address (rows.foldl (clearRow host current scope) c).table = restOf host.address c.table := by
  induction rows generalizing c with
  | nil => rfl
  | cons r rows ih =>
    rw [List.foldl_cons, ih fun q hq => howns q (List.mem_cons_of_mem _ hq), clearRow]
    split
    · rfl
    · exact restOf_stateDelete (howns r List.mem_cons_self)

/-- Two clearings that agree on the rows of the host and on what was sent. -/
structure SameClearing (address : Str) (c d : Clearing) : Prop where
  table : rowsOf address c.table = rowsOf address d.table
  sent : c.sent = d.sent

theorem SameClearing.rows {host : MonitoredHost} {current : List Str} {scope : Str} {rows : List (Str × Str)}
    {c d : Clearing} (h : SameClearing host.address c d) :
    SameClearing host.address (rows.foldl (clearRow host current scope) c)
      (rows.foldl (clearRow host current scope) d) := by
  induction rows generalizing c d with
  | nil => exact h
  | cons r rows ih =>
    refine ih ?_
    unfold clearRow
    dsimp only
    split
    · exact h
    · exact ⟨rowsOf_stateDelete _ _ h.table, by dsimp only; rw [h.sent]⟩

theorem stateKeys_rowsOf (hplain : PlainAddress a) {scope : Str} (h : rowsOf a t = rowsOf a u) :
    stateKeys t scope (a ++ [':']) = stateKeys u scope (a ++ [':']) := by
  have hkeys : ∀ t : Table, stateKeys t scope (a ++ [':']) = ((rowsOf a t).filter (fun e => e.item.scope == scope &&
      Like.like none (a ++ [':'] ++ ['%']) e.item.key)).map (fun e => (e.item.key, e.row.value)) := by
    intro t
    rw [stateKeys, rowsOf, List.filter_filter]
    congr 1
    refine List.filter_congr fun e _ => ?_
    cases hlike : Like.like none (a ++ [':'] ++ ['%']) e.item.key with
    | false => simp
    | true =>
      have hin : inHostState a e = true := ownsKey_of_like hplain hlike
      simp [hin]
  rw [hkeys, hkeys, h]

theorem ownsKey_of_stateKeys (hplain : PlainAddress a) {scope : Str} {r : Str × Str}
    (hr : r ∈ stateKeys t scope (a ++ [':'])) : ownsKey a scope r.1 = true := by
  obtain ⟨e, he, rfl⟩ := List.mem_map.mp hr
  have hlike := (List.mem_filter.mp he).2
  rw [Bool.and_eq_true] at hlike
  exact ownsKey_of_like hplain hlike.2

section Scopes

variable {host : MonitoredHost} {current : List Str} {ss : List PoolScope} {c d : Clearing}

theorem SameClearing.scopes (hplain : PlainAddress host.address) (h : SameClearing host.address c d) :
    SameClearing host.address (ss.foldl (clearScope host current) c)
      (ss.foldl (clearScope host current) d) := by
  induction ss generalizing c d with
  | nil => exact h
  | cons scope ss ih =>
    refine ih ?_
    rw [clearScope, clearScope, stateKeys_rowsOf hplain h.table]
    exact h.rows

theorem restOf_clearScopes (hplain : PlainAddress host.address) :
    restOf host.address (ss.foldl (clearScope host current) c).table = restOf host.address c.table := by
  induction ss generalizing c with
  | nil => rfl
  | cons scope ss ih => exact ih.trans (restOf_clearRows fun r hr => ownsKey_of_stateKeys hplain hr)

end Scopes

/-- The clean-up is one loop over some scopes. -/
theorem exists_scopes (host : MonitoredHost) (pools : List Str) : ∃ ss : List PoolScope, ∀ t,
    clearVanishedPoolState host pools t = ss.foldl (clearScope host (pools.filter (· ≠ []))) ⟨t, []⟩ :=
  ⟨_, fun _ => rfl⟩

theorem confined_clearVanished {host : MonitoredHost} {pools : List Str} (hplain : PlainAddress host.address) :
    Confined (rowsOf host.address) (restOf host.address) (clearVanishedOn host pools) := by
  obtain ⟨ss, hfold⟩ := exists_scopes host pools
  have hsame : ∀ t u, rowsOf host.address t = rowsOf host.address u → SameClearing host.address
      (clearVanishedPoolState host pools t) (clearVanishedPoolState host pools u) := by
    intro t u h
    have hstart : SameClearing host.address ⟨t, []⟩ ⟨u, []⟩ := ⟨h, rfl⟩
    rw [hfold, hfold]
    exact hstart.scopes hplain
  refine ⟨fun t u h => ?_, fun t u h => ?_, fun t => ?_⟩
  · rw [clearVanishedOn, clearVanishedOn]
    dsimp only
    rw [(hsame t u h).sent]
  · rw [clearVanishedOn, clearVanishedOn]
    dsimp only
    rw [(hsame t u h).table]
  · rw [clearVanishedOn, hfold]
    exact restOf_clearScopes hplain

/-- The checks of a host keep to its rows. -/
theorem confined_runChecks {c : Checks} (hplain : PlainAddress c.host.address) :
    Confined (rowsOf c.host.address) (restOf c.host.address) (runChecks c) := by
  have hhealth : Confined (rowsOf c.host.address) (restOf c.host.address) (checkPoolHealth c.host
      (c.pools.map fun p => ⟨p.name, p.health, p.healthAt⟩)) := by
    refine confined_loop fun s hs => ?_
    obtain ⟨p, -, hp⟩ := List.mem_filterMap.mp hs
    split at hp
    · cases hp
    · cases hp
      exact ownsKey_colon
  have hcapacity : Confined (rowsOf c.host.address) (restOf c.host.address) (checkCapacityOn
      ⟨c.host, c.thresholds, c.pools.map fun p => ⟨p.name, p.cap, p.capacityAt, p.capacitySentAt⟩⟩) := by
    refine confined_loop fun s hs => ?_
    obtain ⟨p, -, hp⟩ := List.mem_filterMap.mp hs
    split at hp
    · cases hp
    · obtain ⟨cap, -, rfl⟩ := Option.map_eq_some_iff.mp hp
      exact ownsKey_colon
  have herrors : Confined (rowsOf c.host.address) (restOf c.host.address) (checkPoolErrors c.host
      (c.status.map fun s => ⟨s.name, some s.errorTotals, s.errorsAt, s.errorsSentAt⟩)) := by
    refine confined_loop fun s hs => ?_
    obtain ⟨p, -, hp⟩ := List.mem_filterMap.mp hs
    obtain ⟨totals, -, rfl⟩ := Option.map_eq_some_iff.mp hp
    exact ownsKey_colon
  have htopology : Confined (rowsOf c.host.address) (restOf c.host.address) (checkPoolTopology c.host
      (c.status.map fun s => ⟨s.name, some s.statusText, s.topologyAt⟩)) := by
    refine confined_loop fun s hs => ?_
    obtain ⟨p, -, hp⟩ := List.mem_filterMap.mp hs
    split at hp
    · cases hp
    · cases hp
    · cases hp
      exact ownsKey_colon
  have hstale : Confined (rowsOf c.host.address) (restOf c.host.address) (checkAutoSnapshotsOn c.stale) := by
    unfold checkAutoSnapshotsOn
    split
    · exact .skip
    · refine Confined.sweep fun l _ => confined_onRow ?_
      rw [c.sameHost]
      exact ownsKey_colon
  refine Confined.sweep fun part hpart => ?_
  rcases List.mem_cons.mp hpart with rfl | hpart
  · exact confined_onRow ownsKey_host
  · split at hpart
    · rcases List.mem_append.mp hpart with hpart | hpart
      · split at hpart
        · obtain rfl := List.mem_singleton.mp hpart
          exact confined_clearVanished hplain
        · cases hpart
      · simp only [List.mem_cons, List.not_mem_nil, or_false] at hpart
        rcases hpart with rfl | rfl | rfl | rfl | rfl
        · exact hhealth
        · exact hcapacity
        · exact herrors
        · exact htopology
        · exact hstale
    · cases hpart

theorem confined_clearHostState :
    Confined (rowsOf a) (restOf a) (fun t => ((clearHostState a t).2, (clearHostState a t).1)) := by
  refine ⟨fun t u h => ?_, fun t u h => ?_, fun t => ?_⟩
  · exact congrArg List.length h
  · rw [clearHostState, clearHostState, rowsOf_deleteWhere, rowsOf_deleteWhere, h]
  · exact restOf_deleteWhere fun _ he => he

theorem confined_confirmOffline {confirmSec : Int} {again : Bool} :
    Confined (rowsOf a) (restOf a) (fun t => (t, confirmOffline confirmSec a again t)) := by
  refine ⟨fun t u h => ?_, fun _ _ h => h, fun _ => rfl⟩
  rw [confirmOffline, confirmOffline, stateGet_rowsOf ownsKey_host h]

theorem confined_monitorStep {confirmSec : Int} {call : MonitorCall} (hplain : PlainAddress call.address) :
    Confined (rowsOf call.address) (restOf call.address) (monitorStep confirmSec · call) := by
  cases call with
  | confirm address again => exact confined_confirmOffline.map MonitorAnswer.reachable
  | checks c => exact (confined_runChecks hplain).map MonitorAnswer.sent
  | removed address => exact confined_clearHostState.map MonitorAnswer.cleared

/-- The rows of a host are among the rest of another one. -/
theorem rowsOf_of_restOf {b : Str} (h : AddressesApart a b) (hrest : restOf b t = restOf b u) :
    rowsOf a t = rowsOf a u := by
  have hrows : ∀ t : Table, rowsOf a t = (restOf b t).filter (inHostState a) := by
    intro t
    rw [rowsOf, restOf, List.filter_filter]
    refine List.filter_congr fun e _ => ?_
    cases ha : inHostState a e with
    | false => rfl
    | true =>
      have hb : inHostState b e = false := ownsKey_disjoint h ha
      rw [hb]
      rfl
  rw [hrows, hrows, hrest]

end Confinement

/-- What the monitor records of a host, and what it answers for it, in any order of the
calls for all hosts.  It is what it would be if there were only the calls for that host. -/
theorem monitor_separates {confirmSec : Int} {address : Str} {calls : List MonitorCall}
    (hplain : ∀ c ∈ calls, PlainAddress c.address)
    (hapart : ∀ c ∈ calls, c.address ≠ address → AddressesApart address c.address) (t : Table) :
    rowsOf address (after (monitorStep confirmSec) t calls) =
        rowsOf address (after (monitorStep confirmSec) t (calls.filter fun c => c.address = address)) ∧
      ((turns (monitorStep confirmSec) t calls).filter fun u => u.input.address = address).map Turn.output =
        (turns (monitorStep confirmSec) t (calls.filter fun c => c.address = address)).map Turn.output :=
  purge (fun c hc => confined_monitorStep (hplain c hc))
    (fun c hc hne _ _ hrest => rowsOf_of_restOf (hapart c hc hne) hrest) rfl

/-- A round that finds no pools and no snapshots. -/
def bareRound (address : Str) (reachable : Bool) : Checks where
  host := ⟨address, [], false⟩
  reachable := reachable
  now := 1
  now_pos := Nat.one_pos
  pools := []
  poolsValid := true
  status := []
  thresholds := capacityThresholds .missing .missing
  stale :=
    { host := ⟨address, [], false⟩
      perLabel := none
      uptime := none
      now := 1
      clock := fun _ => 1
      now_pos := Nat.one_pos
      now_le := fun _ => le_refl 1 }
  sameHost := rfl

/-- The one host goes down while the other one is there and is removed. -/
def twoHosts : List MonitorCall :=
  [.checks (bareRound "pve1" true), .checks (bareRound "pve2" true), .confirm "pve1" false,
    .removed "pve2", .checks (bareRound "pve1" false)]

theorem monitor_separates_two :
    rowsOf "pve1" (after (monitorStep 45) emptyTable twoHosts) = [⟨.host "pve1", ⟨"down", some 1⟩⟩] := by
  have hplain : ∀ c ∈ twoHosts, PlainAddress c.address := by
    simp only [twoHosts, List.forall_mem_cons, List.not_mem_nil, false_imp_iff, implies_true, and_true, PlainAddress]
    decide
  have hapart : ∀ c ∈ twoHosts, c.address ≠ ("pve1" : Str) → AddressesApart "pve1" c.address := by
    have htwo : AddressesApart "pve1" "pve2" := addressesApart_of_noColon (by decide) (by decide) (by decide)
    simp only [twoHosts, List.forall_mem_cons, List.not_mem_nil, false_imp_iff, implies_true, and_true]
    exact ⟨fun h => absurd rfl h, fun _ => htwo, fun h => absurd rfl h, fun _ => htwo, fun h => absurd rfl h⟩
  have hrows := (@monitor_separates 45 "pve1" twoHosts hplain hapart emptyTable).1
  rw [hrows]
  rfl

end PveZfsTool
