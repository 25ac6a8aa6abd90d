import PveZfsTool.Lib.Transducer
import PveZfsTool.Monitor.Cleanup

/-!
# Checks with a row for each pool

The checks of `app/monitor.py` on pools keep one row for each pool, each check
in a scope of its own, and the two clean-ups of `PveZfsTool.Monitor.Cleanup`
delete such rows.  A `RowCheck` is such a check, given by what it does to the
row of one pool.

A run is a list of calls, in any order: the check with what it samples, the
clean-up after a listing of the pools, and the removal of a host.

* `after_call`: the calls are one loop over their events.
* `seen_turns`: a run on the table, seen by one key, is a run on the row of
  that key.
-/

namespace PveZfsTool

open Text Transducer

/-! ## The rows of the table -/

/-- `_state_get` -/
def stateGet (t : Table) (scope key : Str) : Option (Row Str) :=
  (t.entries.find? (fun e => e.item.scope = scope ∧ e.item.key = key)).map StateEntry.row

/-- The row of the item is written.  The rows have no order. -/
def Table.put (t : Table) (i : Watched) (row : Row Str) : Table where
  entries := ⟨i, row⟩ :: (stateDelete t i.scope i.key).entries
  unique := by
    rw [List.map_cons, List.nodup_cons]
    refine ⟨?_, (stateDelete t i.scope i.key).unique⟩
    intro hmem
    obtain ⟨e, he, hkey⟩ := List.mem_map.mp hmem
    obtain ⟨-, hnot⟩ := Table.mem_deleteWhere.mp he
    obtain ⟨hscope, hkey⟩ := Prod.mk.inj hkey
    rw [hscope, hkey, beq_self_eq_true, beq_self_eq_true] at hnot
    cases hnot

section Rows

variable {t : Table} {scope key : Str} {i : Watched} {row : Row Str}

theorem stateGet_eq_some :
    stateGet t scope key = some row ↔
      ∃ e ∈ t.entries, (e.item.scope = scope ∧ e.item.key = key) ∧ e.row = row := by
  unfold stateGet
  rw [Option.map_eq_some_iff]
  constructor
  · intro ⟨e, hfind, hrow⟩
    have hkey := List.find?_some hfind
    exact ⟨e, List.mem_of_find?_eq_some hfind, of_decide_eq_true hkey, hrow⟩
  · intro ⟨e, he, hkey, hrow⟩
    cases hfind : t.entries.find? (fun e => e.item.scope = scope ∧ e.item.key = key) with
    | none =>
      have hnone := List.find?_eq_none.mp hfind e he
      simp [hkey] at hnone
    | some e' =>
      have hkey' : e'.item.scope = scope ∧ e'.item.key = key := by simpa using List.find?_some hfind
      have hsame : e' = e := by
        apply List.inj_on_of_nodup_map t.unique (List.mem_of_find?_eq_some hfind) he
        rw [hkey.1, hkey.2, hkey'.1, hkey'.2]
      exact ⟨e', rfl, by rw [hsame, hrow]⟩

theorem stateGet_put (hscope : i.scope = scope) :
    stateGet (t.put i row) scope key = if i.key = key then some row else stateGet t scope key := by
  ext r
  rw [stateGet_eq_some]
  by_cases hkey : i.key = key
  · rw [if_pos hkey, Option.some.injEq]
    simp only [Table.put, stateDelete, List.mem_cons, Table.mem_deleteWhere]
    constructor
    · rintro ⟨e, rfl | ⟨-, hnot⟩, he, rfl⟩
      · rfl
      · simp [he, hscope, hkey] at hnot
    · rintro rfl
      exact ⟨⟨i, row⟩, Or.inl rfl, ⟨hscope, hkey⟩, rfl⟩
  · rw [if_neg hkey, stateGet_eq_some]
    simp only [Table.put, stateDelete, List.mem_cons, Table.mem_deleteWhere]
    constructor
    · rintro ⟨e, rfl | ⟨hmem, -⟩, he, hrow⟩
      · exact absurd he.2 hkey
      · exact ⟨e, hmem, he, hrow⟩
    · rintro ⟨e, hmem, he, hrow⟩
      refine ⟨e, Or.inr ⟨hmem, ?_⟩, he, hrow⟩
      simp [he, Ne.symm hkey]

/-- What a clean-up leaves of the row of a key, when it decides by the key. -/
theorem stateGet_cleared {t' : Table} (kept : Bool)
    (h : ∀ e, e.item.scope = scope → e.item.key = key →
      (e ∈ t'.entries ↔ e ∈ t.entries ∧ kept = true)) :
    stateGet t' scope key = if kept then stateGet t scope key else none := by
  ext r
  rw [stateGet_eq_some]
  cases kept with
  | true =>
    rw [if_pos rfl, stateGet_eq_some]
    constructor
    · rintro ⟨e, hmem, he, hrow⟩
      exact ⟨e, ((h e he.1 he.2).mp hmem).1, he, hrow⟩
    · rintro ⟨e, hmem, he, hrow⟩
      exact ⟨e, (h e he.1 he.2).mpr ⟨hmem, rfl⟩, he, hrow⟩
  | false =>
    constructor
    · rintro ⟨e, hmem, he, -⟩
      cases ((h e he.1 he.2).mp hmem).2
    · intro hnone
      cases hnone

end Rows

/-! ## The clean-ups -/

/-- The key looks like that of a pool that the listing does not have. -/
def vanishes (host : MonitoredHost) (pools : List Str) (key : Str) : Bool :=
  Like.like none (host.address ++ [':'] ++ ['%']) key &&
    !(pools.filter (· ≠ [])).contains (key.drop (host.address ++ [':']).length)

/-- The key looks like that of a pool of the removed host. -/
def belongsTo (address key : Str) : Bool :=
  Like.like (some '\\') (Like.escape address ++ ':' :: ['%']) key

section Cleared

variable {t : Table} {scope : PoolScope} {key : Str}

theorem stateGet_listed {host : MonitoredHost} {pools : List Str} :
    stateGet (clearVanishedPoolState host pools t).table scope.name key =
      if vanishes host pools key then none else stateGet t scope.name key := by
  have hvanishes : vanishes host pools key = true ↔
      LooksVanished host (pools.filter (· ≠ [])) key := by
    rw [vanishes, LooksVanished, Bool.and_eq_true, Like.like_blurs, Bool.not_eq_true',
      Bool.eq_false_iff, Ne, List.contains_iff_mem]
  rw [stateGet_cleared (t := t) (!vanishes host pools key)]
  · cases vanishes host pools key <;> rfl
  · intro e hscope hkey
    rw [mem_clearVanished, hscope, hkey, Bool.not_eq_true', Bool.eq_false_iff, Ne, hvanishes]
    constructor
    · intro ⟨he, hall⟩
      exact ⟨he, fun hlooks => hall scope ⟨rfl, hlooks⟩⟩
    · intro ⟨he, hnot⟩
      exact ⟨he, fun s hlooks => hnot hlooks.2⟩

theorem stateGet_removed {address : Str} :
    stateGet (clearHostState address t).2 scope.name key =
      if belongsTo address key then none else stateGet t scope.name key := by
  rw [stateGet_cleared (t := t) (!belongsTo address key)]
  · cases belongsTo address key <;> rfl
  · intro e hscope hkey
    have hhost : (scope.name == ("host" : Str)) = false := by cases scope <;> decide
    unfold clearHostState
    rw [Table.mem_deleteWhere, inHostState, hscope, hkey, hhost, Bool.false_and, Bool.false_or,
      Bool.not_eq_true', belongsTo]

end Cleared

/-! ## Checks -/

/-- A check that keeps rows in a scope.  It never deletes one. -/
structure RowCheck (ι : Type) where
  scope : PoolScope
  /-- What the row of a sample is about. -/
  item : ι → Watched
  step : Option (Row Str) → ι → Option (Row Str) × Option Notification
  inScope : ∀ i, (item i).scope = scope.name
  keeps : ∀ row i, (step row i).1 = none → row = none

/-- What works on the rows: a sample of one pool, or a clean-up. -/
inductive TableEvent (ι : Type) where
  | sample (i : ι)
  | listed (host : MonitoredHost) (pools : List Str)
  | removed (address : Str)

/-- What happens to the row of one pool: a sample, or a deletion. -/
inductive RowEvent (ι : Type) where
  | sample (i : ι)
  | dropped

/-- A call, with the argument `α` of the check. -/
inductive PoolCall (α : Type) where
  | check (host : MonitoredHost) (pools : α)
  | listed (host : MonitoredHost) (pools : List Str)
  | removed (address : Str)

/-- One event of a run, with the row it found. -/
abbrev RowTurn (ι : Type) := Turn (Option (Row Str)) (RowEvent ι) (Option Notification)

namespace RowCheck

variable {ι α : Type} (c : RowCheck ι)

/-- One event on the table. -/
def run (t : Table) : TableEvent ι → Table × List Notification
  | .sample i =>
      let r := c.step (stateGet t c.scope.name (c.item i).key) i
      (match r.1 with
        | some row => t.put (c.item i) row
        | none => t, r.2.toList)
  | .listed host pools =>
      let cleared := clearVanishedPoolState host pools t
      (cleared.table, cleared.sent)
  | .removed address => ((clearHostState address t).2, [])

/-- One event on the row of a pool. -/
def rowStep (row : Option (Row Str)) : RowEvent ι → Option (Row Str) × Option Notification
  | .sample i => c.step row i
  | .dropped => (none, none)

/-- What an event on the table is for the row of a key. -/
def eventsAt (key : Str) : TableEvent ι → List (RowEvent ι)
  | .sample i => if (c.item i).key = key then [.sample i] else []
  | .listed host pools => if vanishes host pools key then [.dropped] else []
  | .removed address => if belongsTo address key then [.dropped] else []

/-- A turn of the table, seen by one key. -/
def seen (key : Str) (t : Turn Table (TableEvent ι) (List Notification)) : List (RowTurn ι) :=
  (c.eventsAt key t.input).map fun e =>
    ⟨stateGet t.before c.scope.name key, e,
      match e with
      | .sample _ => t.output.head?
      | .dropped => none⟩

/-- The loop of the check over its samples. -/
def loop (t : Table) (samples : List ι) : Table × List Notification :=
  (after c.run t (samples.map .sample),
    (turns c.run t (samples.map .sample)).flatMap Turn.output)

/-- One call on the table. -/
def call (check : MonitoredHost → α → Table → Table × List Notification) (t : Table) :
    PoolCall α → Table × List Notification
  | .check host pools => check host pools t
  | .listed host pools => c.run t (.listed host pools)
  | .removed address => c.run t (.removed address)

end RowCheck

/-- The events of a call. -/
def PoolCall.events {ι α : Type} (samples : MonitoredHost → α → List ι) :
    PoolCall α → List (TableEvent ι)
  | .check host pools => (samples host pools).map .sample
  | .listed host pools => [.listed host pools]
  | .removed address => [.removed address]

/-- The table before the first call. -/
def emptyTable : Table := ⟨[], List.nodup_nil⟩

/-! ## Runs -/

section Runs

variable {ι α : Type} {c : RowCheck ι} {t : Table} {key : Str}

/-- Calls one after the other are one loop over their events. -/
theorem after_call {samples : MonitoredHost → α → List ι} {calls : List (PoolCall α)} :
    after (c.call (fun host pools t => c.loop t (samples host pools))) t calls =
        after c.run t (calls.flatMap (PoolCall.events samples)) ∧
      (turns (c.call (fun host pools t => c.loop t (samples host pools))) t calls).flatMap
          Turn.output =
        (turns c.run t (calls.flatMap (PoolCall.events samples))).flatMap Turn.output := by
  induction calls generalizing t with
  | nil => exact ⟨rfl, rfl⟩
  | cons call calls ih =>
    have hcall : c.call (fun host pools t => c.loop t (samples host pools)) t call =
        (after c.run t (call.events samples),
          (turns c.run t (call.events samples)).flatMap Turn.output) := by
      cases call with
      | check host pools => rfl
      | listed host pools => simp [RowCheck.call, PoolCall.events]
      | removed address => simp [RowCheck.call, PoolCall.events]
    rw [after_cons, turns_cons, List.flatMap_cons, List.flatMap_cons, after_append, turns_append,
      List.flatMap_append, hcall]
    exact ⟨ih.1, by rw [ih.2]⟩

theorem run_sample {i : ι} :
    stateGet (c.run t (.sample i)).1 c.scope.name key =
      if (c.item i).key = key then (c.step (stateGet t c.scope.name key) i).1
      else stateGet t c.scope.name key := by
  unfold RowCheck.run
  dsimp only
  split
  · next row hrow =>
    rw [stateGet_put (c.inScope i)]
    by_cases hkey : (c.item i).key = key
    · rw [if_pos hkey, if_pos hkey, ← hkey, hrow]
    · rw [if_neg hkey, if_neg hkey]
  · next hnone =>
    by_cases hkey : (c.item i).key = key
    · rw [if_pos hkey, ← hkey, hnone]
      exact c.keeps _ i hnone
    · rw [if_neg hkey]

/-- One event, seen by one key. -/
theorem seen_event (c : RowCheck ι) (t : Table) (key : Str) (e : TableEvent ι) :
    stateGet (c.run t e).1 c.scope.name key =
        after c.rowStep (stateGet t c.scope.name key) (c.eventsAt key e) ∧
      c.seen key ⟨t, e, (c.run t e).2⟩ =
        turns c.rowStep (stateGet t c.scope.name key) (c.eventsAt key e) := by
  cases e with
  | sample i =>
    rw [run_sample, RowCheck.seen, RowCheck.eventsAt]
    by_cases hkey : (c.item i).key = key
    · rw [if_pos hkey, if_pos hkey]
      refine ⟨rfl, ?_⟩
      simp [RowCheck.run, RowCheck.rowStep, hkey]
    · rw [if_neg hkey, if_neg hkey]
      exact ⟨rfl, rfl⟩
  | listed host pools =>
    have hrow : stateGet (c.run t (.listed host pools)).1 c.scope.name key =
        if vanishes host pools key then none else stateGet t c.scope.name key := stateGet_listed
    rw [hrow, RowCheck.seen, RowCheck.eventsAt]
    by_cases hgone : vanishes host pools key = true
    · rw [if_pos hgone, if_pos hgone]
      exact ⟨rfl, rfl⟩
    · rw [if_neg hgone, if_neg hgone]
      exact ⟨rfl, rfl⟩
  | removed address =>
    have hrow : stateGet (c.run t (.removed address)).1 c.scope.name key =
        if belongsTo address key then none else stateGet t c.scope.name key := stateGet_removed
    rw [hrow, RowCheck.seen, RowCheck.eventsAt]
    by_cases hgone : belongsTo address key = true
    · rw [if_pos hgone, if_pos hgone]
      exact ⟨rfl, rfl⟩
    · rw [if_neg hgone, if_neg hgone]
      exact ⟨rfl, rfl⟩

/-- A run on the table, seen by one key, is a run on the row of the key. -/
theorem seen_turns {events : List (TableEvent ι)} :
    (turns c.run t events).flatMap (c.seen key) =
      turns c.rowStep (stateGet t c.scope.name key) (events.flatMap (c.eventsAt key)) := by
  induction events generalizing t with
  | nil => rfl
  | cons e events ih =>
    obtain ⟨hrow, hturns⟩ := seen_event c t key e
    rw [turns_cons, List.flatMap_cons, List.flatMap_cons, turns_append, hturns, ih, hrow]

/-- What a run of calls on an empty table does to the row of a key. -/
def RowCheck.turnsAt (c : RowCheck ι) (samples : MonitoredHost → α → List ι)
    (calls : List (PoolCall α)) (key : Str) : List (RowTurn ι) :=
  (turns c.run emptyTable (calls.flatMap (PoolCall.events samples))).flatMap (c.seen key)

theorem turnsAt_eq {samples : MonitoredHost → α → List ι} {calls : List (PoolCall α)} :
    c.turnsAt samples calls key =
      turns c.rowStep none ((calls.flatMap (PoolCall.events samples)).flatMap (c.eventsAt key)) :=
  seen_turns

/-- A check whose rows hold what the last event had: the row that a turn of a
run finds has what the turn before it had. -/
theorem row_of_cut {seen : RowEvent ι → Option Str}
    (hseen : ∀ row e, (c.rowStep row e).1.map Row.value = seen e) {events : List (RowEvent ι)}
    {earlier later : List (RowTurn ι)} {t : RowTurn ι}
    (hcut : turns c.rowStep none events = earlier ++ t :: later) :
    t.before.map Row.value = earlier.getLast?.bind (fun u => seen u.input) ∧
      t.output = (c.rowStep t.before t.input).2 := by
  have hafter : ∀ es : List (RowEvent ι),
      (after c.rowStep none es).map Row.value = es.getLast?.bind seen := by
    intro es
    induction es using List.reverseRecOn with
    | nil => rfl
    | append_singleton es e _ =>
      rw [after_append, after_cons, after_nil, hseen, List.getLast?_concat]
      rfl
  obtain ⟨hbefore, hout⟩ := turn_of_cut hcut
  refine ⟨?_, hout⟩
  rw [hbefore, hafter, List.getLast?_map, Option.bind_map]
  rfl

end Runs

end PveZfsTool
