import PveZfsTool.Monitor.State
import PveZfsTool.Lib.Like

/-!
# Clearing the rows of a host

`app/monitor.py` drops the rows of a host that is removed from the tool, and
those of a pool that is gone from its host.  A row is known by its scope and a
text key, which starts with the address of the host, and both functions find
the rows of a host with `LIKE`.

`Watched` is what a row is about, and its key is made from it.  A `Table` has
no scope and key twice, which the primary key of the table sees to.

* `mem_clearHostState`, `mem_clearVanished`: which rows stay.
* `host_cleared_iff`: removing a host leaves the rows of the others alone when
  and only when none of their keys starts with its address and `:`, but for
  the case of letters.
* `pools_cleared_iff`: the same for vanished pools, where the address is not
  escaped.
-/

namespace PveZfsTool

open Text

/-! ## The table -/

/-- The scopes whose rows are about a pool. -/
inductive PoolScope where
  | health
  | capacity
  | errors
  | topology
  deriving DecidableEq

def PoolScope.name : PoolScope → Str
  | .health => "pool_health"
  | .capacity => "capacity"
  | .errors => "pool_errors"
  | .topology => "pool_topology"

/-- What a row is about. -/
inductive Watched where
  | host (address : Str)
  | pool (scope : PoolScope) (address name : Str)
  | staleSnap (address label : Str)
  | repl (address cfgPath : Str)
  deriving DecidableEq

namespace Watched

def address : Watched → Str
  | .host address => address
  | .pool _ address _ => address
  | .staleSnap address _ => address
  | .repl address _ => address

/-- The column `scope`. -/
def scope : Watched → Str
  | .host _ => "host"
  | .pool s .. => s.name
  | .staleSnap _ _ => "stale_snap"
  | .repl _ _ => "repl"

/-- The column `key`. -/
def key : Watched → Str
  | .host address => address
  | .pool _ address name => address ++ ':' :: name
  | .staleSnap address label => address ++ ':' :: label
  | .repl address cfgPath => address ++ ':' :: ':' :: cfgPath

theorem scope_eq_host {i : Watched} : i.scope = "host" ↔ ∃ address, i = .host address := by
  cases i with
  | host address => exact ⟨fun _ => ⟨address, rfl⟩, fun _ => rfl⟩
  | pool s address name =>
    have hname : s.name ≠ "host" := by cases s <;> decide
    exact ⟨fun h => absurd h hname, fun ⟨_, h⟩ => by cases h⟩
  | staleSnap address label =>
    exact ⟨fun h => absurd h (by decide : ("stale_snap" : Str) ≠ "host"), fun ⟨_, h⟩ => by cases h⟩
  | repl address cfgPath =>
    exact ⟨fun h => absurd h (by decide : ("repl" : Str) ≠ "host"), fun ⟨_, h⟩ => by cases h⟩

end Watched

structure StateEntry where
  item : Watched
  row : Row Str
  deriving DecidableEq

/-- The table `monitor_state`, with its primary key. -/
structure Table where
  entries : List StateEntry
  unique : (entries.map (fun e => (e.item.scope, e.item.key))).Nodup

/-- `DELETE FROM monitor_state WHERE p` -/
def Table.deleteWhere (t : Table) (p : StateEntry → Bool) : Table where
  entries := t.entries.filter (fun e => !p e)
  unique := t.unique.sublist (List.Sublist.map _ List.filter_sublist)

@[simp] theorem Table.mem_deleteWhere {t : Table} {p : StateEntry → Bool} {e : StateEntry} :
    e ∈ (t.deleteWhere p).entries ↔ e ∈ t.entries ∧ p e = false := by
  simp [Table.deleteWhere]

/-- `_state_delete` -/
def stateDelete (t : Table) (scope key : Str) : Table :=
  t.deleteWhere (fun e => e.item.scope == scope && e.item.key == key)

/-- `_state_keys`: the keys of the scope that `LIKE` finds, with their
values. -/
def stateKeys (t : Table) (scope front : Str) : List (Str × Str) :=
  (t.entries.filter (fun e => e.item.scope == scope && Like.like none (front ++ ['%']) e.item.key)).map
    (fun e => (e.item.key, e.row.value))

/-! ## A removed host -/

/-- The rows that `clear_host_state` deletes. -/
def inHostState (address : Str) (e : StateEntry) : Bool :=
  (e.item.scope == "host" && e.item.key == address) ||
    Like.like (some '\\') (Like.escape address ++ ':' :: ['%']) e.item.key

/-- `clear_host_state`, with the number of rows that it removed. -/
def clearHostState (address : Str) (t : Table) : Nat × Table :=
  ((t.entries.filter (inHostState address)).length, t.deleteWhere (inHostState address))

/-! ## Vanished pools -/

/-- `BAD_HEALTH` -/
def badHealth : List Str := ["DEGRADED", "FAULTED", "UNAVAIL", "REMOVED", "SUSPENDED"]

/-- The state on the way: the table, and what has been sent. -/
structure Clearing where
  table : Table
  sent : List Notification

def removedNotice (host : MonitoredHost) (pool value : Str) : Notification where
  eventType := "pool_error"
  title := "Pool " ++ pool ++ ": removed while " ++ value
  message := "Pool '" ++ pool ++ "' on " ++ host.label ++ " is no longer present; its " ++
    "last known state was " ++ value ++ ". Monitoring state cleared."
  priority := 6
  host := some host.address

/-- One row of the inner loop.  The name of the pool is what stands after the
address and the colon. -/
def clearRow (host : MonitoredHost) (current : List Str) (scope : Str) (c : Clearing)
    (row : Str × Str) : Clearing :=
  let pool := row.1.drop (host.address ++ [':']).length
  if current.contains pool then c
  else
    { table := stateDelete c.table scope row.1
      sent := if scope = "pool_health" ∧ badHealth.contains (row.2.map Char.toUpper) = true then
          c.sent ++ [removedNotice host pool row.2] else c.sent }

/-- The rows of one scope. -/
def clearScope (host : MonitoredHost) (current : List Str) (c : Clearing) (scope : PoolScope) :
    Clearing :=
  (stateKeys c.table scope.name (host.address ++ [':'])).foldl (clearRow host current scope.name) c

/-- `clear_vanished_pool_state`, for the names that the pools of the listing
have. -/
def clearVanishedPoolState (host : MonitoredHost) (pools : List Str) (t : Table) : Clearing :=
  let current := pools.filter (· ≠ [])
  [PoolScope.health, .capacity, .errors, .topology].foldl (clearScope host current) ⟨t, []⟩

/-! ## Which rows stay -/

theorem mem_clearHostState {address : Str} {t : Table} {e : StateEntry} :
    e ∈ (clearHostState address t).2.entries ↔
      e ∈ t.entries ∧ e.item ≠ .host address ∧
        ¬ lower (address ++ [':']) <+: lower e.item.key := by
  have hhost : (e.item.scope == "host" && e.item.key == address) = true ↔ e.item = .host address := by
    rw [Bool.and_eq_true, beq_iff_eq, beq_iff_eq]
    constructor
    · intro ⟨hscope, hkey⟩
      obtain ⟨a, ha⟩ := Watched.scope_eq_host.mp hscope
      rw [ha] at hkey ⊢
      rw [show a = address from hkey]
    · intro h
      rw [h]
      exact ⟨rfl, rfl⟩
  unfold clearHostState
  rw [Table.mem_deleteWhere, inHostState, Bool.or_eq_false_iff]
  constructor
  · intro ⟨he, hnot, hlike⟩
    refine ⟨he, fun h => ?_, fun h => ?_⟩
    · rw [hhost.mpr h] at hnot
      cases hnot
    · rw [Like.like_escape.mpr h] at hlike
      cases hlike
  · intro ⟨he, hnot, hlike⟩
    refine ⟨he, ?_, ?_⟩
    · by_contra h
      exact hnot (hhost.mp (by simpa using h))
    · by_contra h
      exact hlike (Like.like_escape.mp (by simpa using h))

/-- The loop deletes the row of the scope. -/
def ClearsKey (host : MonitoredHost) (current : List Str) (scope key : Str) (e : StateEntry) : Prop :=
  e.item.scope = scope ∧ e.item.key = key ∧ key.drop (host.address ++ [':']).length ∉ current

theorem clearRow_table {host : MonitoredHost} {current : List Str} {scope : Str} {c : Clearing}
    {row : Str × Str} :
    (clearRow host current scope c row).table =
      if current.contains (row.1.drop (host.address ++ [':']).length) then c.table
      else stateDelete c.table scope row.1 := by
  unfold clearRow
  dsimp only
  split
  · rfl
  · rfl

/-- What one round of the inner loop removes. -/
theorem mem_clearRow {host : MonitoredHost} {current : List Str} {scope : Str} {c : Clearing}
    {row : Str × Str} {e : StateEntry} :
    e ∈ (clearRow host current scope c row).table.entries ↔
      e ∈ c.table.entries ∧ ¬ ClearsKey host current scope row.1 e := by
  rw [clearRow_table]
  unfold ClearsKey
  by_cases hpool : current.contains (row.1.drop (host.address ++ [':']).length) = true
  · have hmem := List.contains_iff_mem.mp hpool
    rw [if_pos hpool]
    exact ⟨fun he => ⟨he, fun h => h.2.2 hmem⟩, fun h => h.1⟩
  · have hmem : row.1.drop (host.address ++ [':']).length ∉ current :=
      fun h => hpool (List.contains_iff_mem.mpr h)
    rw [if_neg hpool, stateDelete, Table.mem_deleteWhere, Bool.and_eq_false_iff,
      beq_eq_false_iff_ne, beq_eq_false_iff_ne]
    constructor
    · intro ⟨he, hne⟩
      refine ⟨he, fun h => ?_⟩
      rcases hne with hscope | hkey
      · exact hscope h.1
      · exact hkey h.2.1
    · intro ⟨he, hne⟩
      refine ⟨he, ?_⟩
      by_cases hscope : e.item.scope = scope
      · exact .inr (fun hkey => hne ⟨hscope, hkey, hmem⟩)
      · exact .inl hscope

theorem mem_clearRows {host : MonitoredHost} {current : List Str} {scope : Str} {c : Clearing}
    {rows : List (Str × Str)} {e : StateEntry} :
    e ∈ (rows.foldl (clearRow host current scope) c).table.entries ↔
      e ∈ c.table.entries ∧ ∀ row ∈ rows, ¬ ClearsKey host current scope row.1 e := by
  induction rows generalizing c with
  | nil => simp
  | cons row rows ih =>
    rw [List.foldl_cons, ih, mem_clearRow, List.forall_mem_cons, and_assoc]

/-- The key stands for a pool of the host, as far as `LIKE` can tell, and the
listing does not have that pool. -/
def LooksVanished (host : MonitoredHost) (current : List Str) (key : Str) : Prop :=
  (∃ u v, key = u ++ v ∧ Like.Blurs (host.address ++ [':']) u) ∧
    key.drop (host.address ++ [':']).length ∉ current

theorem mem_clearScope {host : MonitoredHost} {current : List Str} {c : Clearing}
    {scope : PoolScope} {e : StateEntry} :
    e ∈ (clearScope host current c scope).table.entries ↔
      e ∈ c.table.entries ∧
        ¬ (e.item.scope = scope.name ∧ LooksVanished host current e.item.key) := by
  have hrows : ∀ row : Str × Str,
      row ∈ stateKeys c.table scope.name (host.address ++ [':']) ↔ ∃ e' ∈ c.table.entries,
        e'.item.scope = scope.name ∧
          (∃ u v, e'.item.key = u ++ v ∧ Like.Blurs (host.address ++ [':']) u) ∧
            (e'.item.key, e'.row.value) = row := by
    intro row
    unfold stateKeys
    simp only [List.mem_map, List.mem_filter, Bool.and_eq_true, beq_iff_eq, Like.like_blurs,
      and_assoc]
  unfold clearScope
  rw [mem_clearRows]
  constructor
  · intro ⟨he, hall⟩
    refine ⟨he, fun ⟨hscope, hfound, hgone⟩ => ?_⟩
    exact hall (e.item.key, e.row.value) ((hrows _).mpr ⟨e, he, hscope, hfound, rfl⟩)
      ⟨hscope, rfl, hgone⟩
  · intro ⟨he, hnot⟩
    refine ⟨he, fun row hrow ⟨hscope, hkey, hgone⟩ => ?_⟩
    obtain ⟨e', _, _, hfound, heq⟩ := (hrows row).mp hrow
    have hkey' : e'.item.key = e.item.key := by
      rw [hkey, ← heq]
    rw [hkey'] at hfound
    rw [← hkey] at hgone
    exact hnot ⟨hscope, hfound, hgone⟩

theorem mem_clearVanished {host : MonitoredHost} {pools : List Str} {t : Table} {e : StateEntry} :
    e ∈ (clearVanishedPoolState host pools t).table.entries ↔
      e ∈ t.entries ∧ ∀ s : PoolScope,
        ¬ (e.item.scope = s.name ∧ LooksVanished host (pools.filter (· ≠ [])) e.item.key) := by
  have hscopes : ∀ (scopes : List PoolScope) (c : Clearing),
      e ∈ (scopes.foldl (clearScope host (pools.filter (· ≠ []))) c).table.entries ↔
        e ∈ c.table.entries ∧ ∀ s ∈ scopes,
          ¬ (e.item.scope = s.name ∧ LooksVanished host (pools.filter (· ≠ [])) e.item.key) := by
    intro scopes
    induction scopes with
    | nil => simp
    | cons s scopes ih =>
      intro c
      rw [List.foldl_cons, ih, mem_clearScope, List.forall_mem_cons, and_assoc]
  have hall : ∀ s : PoolScope, s ∈ [PoolScope.health, .capacity, .errors, .topology] := by
    intro s
    cases s <;> decide
  unfold clearVanishedPoolState
  rw [hscopes]
  exact ⟨fun ⟨he, h⟩ => ⟨he, fun s => h s (hall s)⟩, fun ⟨he, h⟩ => ⟨he, fun s _ => h s⟩⟩

/-! ## When the right rows go -/

/-- The rows of the removed host are gone, and those of every other address
are there. -/
def HostCleared (address : Str) (t : Table) : Prop :=
  ∀ e ∈ t.entries, e ∈ (clearHostState address t).2.entries ↔ e.item.address ≠ address

/-- The rows of the vanished pools of the host are gone, and every other row
is there. -/
def PoolsCleared (host : MonitoredHost) (pools : List Str) (t : Table) : Prop :=
  ∀ e ∈ t.entries, e ∈ (clearVanishedPoolState host pools t).table.entries ↔
    ¬ ∃ s name, e.item = .pool s host.address name ∧ name ∉ pools.filter (· ≠ [])

/-- No key of another address starts with the address and a colon, whatever
the case of the letters is. -/
def HostCondition (address : Str) (t : Table) : Prop :=
  ∀ e ∈ t.entries, e.item.address ≠ address → ¬ lower (address ++ [':']) <+: lower e.item.key

/-- No pool of another address looks like a vanished pool of the host. -/
def PoolCondition (host : MonitoredHost) (pools : List Str) (t : Table) : Prop :=
  ∀ e ∈ t.entries, ∀ s address name, e.item = .pool s address name → address ≠ host.address →
    ¬ LooksVanished host (pools.filter (· ≠ [])) e.item.key

/-- A key starts with the address it belongs to. -/
theorem Watched.key_of_ne_host {i : Watched} (h : i ≠ .host i.address) :
    ∃ rest, i.key = i.address ++ ':' :: rest := by
  cases i with
  | host address => exact absurd rfl h
  | pool s address name => exact ⟨name, rfl⟩
  | staleSnap address label => exact ⟨label, rfl⟩
  | repl address cfgPath => exact ⟨':' :: cfgPath, rfl⟩

/-- The rows of the host itself always go. -/
theorem host_row_cleared {t : Table} {e : StateEntry} :
    e ∉ (clearHostState e.item.address t).2.entries := by
  intro h
  obtain ⟨-, hhost, hfront⟩ := mem_clearHostState.mp h
  obtain ⟨rest, hkey⟩ := Watched.key_of_ne_host hhost
  apply hfront
  have hsplit : e.item.key = (e.item.address ++ [':']) ++ rest := by
    rw [hkey, List.append_assoc]
    rfl
  have hlower : lower e.item.key = lower (e.item.address ++ [':']) ++ lower rest := by
    rw [hsplit]
    exact List.map_append
  rw [hlower]
  exact List.prefix_append _ _

theorem host_cleared_iff {address : Str} {t : Table} :
    HostCleared address t ↔ HostCondition address t := by
  constructor
  · intro hcleared e he hother
    have hkept := (hcleared e he).mpr hother
    exact (mem_clearHostState.mp hkept).2.2
  · intro hcondition e he
    constructor
    · intro hkept haddress
      rw [← haddress] at hkept
      exact host_row_cleared hkept
    · intro hother
      refine mem_clearHostState.mpr ⟨he, fun hhost => ?_, hcondition e he hother⟩
      rw [hhost] at hother
      exact hother rfl

/-- A key of the host looks vanished when its pool is. -/
theorem looksVanished_own {host : MonitoredHost} {current : List Str} {name : Str} :
    LooksVanished host current (host.address ++ ':' :: name) ↔ name ∉ current := by
  have hsplit : host.address ++ ':' :: name = (host.address ++ [':']) ++ name := by
    rw [List.append_assoc]
    rfl
  unfold LooksVanished
  rw [hsplit, List.drop_left]
  constructor
  · intro h
    exact h.2
  · intro h
    exact ⟨⟨host.address ++ [':'], name, rfl, Like.Blurs.refl _⟩, h⟩

theorem Watched.scope_eq_pool {i : Watched} {s : PoolScope} (h : i.scope = s.name) :
    ∃ address name, i = .pool s address name := by
  have hnames : ∀ s s' : PoolScope, s.name = s'.name → s = s' := by
    intro s s'
    cases s <;> cases s' <;> decide
  cases i with
  | host address =>
    have hname : ("host" : Str) ≠ s.name := by cases s <;> decide
    exact absurd h hname
  | pool s' address name => exact ⟨address, name, by rw [hnames s' s h]⟩
  | staleSnap address label =>
    have hname : ("stale_snap" : Str) ≠ s.name := by cases s <;> decide
    exact absurd h hname
  | repl address cfgPath =>
    have hname : ("repl" : Str) ≠ s.name := by cases s <;> decide
    exact absurd h hname

theorem pools_cleared_iff {host : MonitoredHost} {pools : List Str} {t : Table} :
    PoolsCleared host pools t ↔ PoolCondition host pools t := by
  constructor
  · intro hcleared e he s address name hitem hother hlooks
    have hkept : e ∈ (clearVanishedPoolState host pools t).table.entries := by
      apply (hcleared e he).mpr
      intro ⟨s', name', hitem', _⟩
      rw [hitem] at hitem'
      exact hother (Watched.pool.inj hitem').2.1
    apply (mem_clearVanished.mp hkept).2 s
    refine ⟨?_, hlooks⟩
    rw [hitem]
    rfl
  · intro hcondition e he
    rw [mem_clearVanished]
    constructor
    · intro ⟨_, hall⟩ ⟨s, name, hitem, hgone⟩
      apply hall s
      rw [hitem]
      exact ⟨rfl, looksVanished_own.mpr hgone⟩
    · intro hnot
      refine ⟨he, fun s ⟨hscope, hlooks⟩ => ?_⟩
      obtain ⟨address, name, hitem⟩ := Watched.scope_eq_pool hscope
      by_cases haddress : address = host.address
      · rw [haddress] at hitem
        rw [hitem] at hlooks
        exact hnot ⟨s, name, hitem, looksVanished_own.mp hlooks⟩
      · exact hcondition e he s address name hitem haddress hlooks

/-- Both ways of clearing remove the rows they are about, and they leave every
other row alone when and only when no other key looks like one of them. -/
theorem cleared_iff (address : Str) (host : MonitoredHost) (pools : List Str) (t : Table) :
    (HostCleared address t ↔ HostCondition address t) ∧
      (PoolsCleared host pools t ↔ PoolCondition host pools t) :=
  ⟨host_cleared_iff, pools_cleared_iff⟩

/-- The pool `tank` of `myXhost`, and the host `PVE1`. -/
def mixedTable : Table where
  entries := [⟨.pool .health "myXhost" "tank", ⟨"ONLINE", none⟩⟩,
    ⟨.pool .capacity "PVE1" "rpool", ⟨"ok", none⟩⟩]
  unique := by decide

/-- A listing of `my_host` removes the row of `myXhost`, and removing `pve1`
removes the row of `PVE1`. -/
theorem cleared_others :
    ¬ HostCleared "pve1" mixedTable ∧
      ¬ PoolsCleared ⟨"my_host", "my_host", false⟩ ["rpool"] mixedTable := by
  constructor
  · intro h
    have hrow := (h ⟨.pool .capacity "PVE1" "rpool", ⟨"ok", none⟩⟩ (by decide)).mpr (by decide)
    revert hrow
    decide
  · intro h
    have hrow := (h ⟨.pool .health "myXhost" "tank", ⟨"ONLINE", none⟩⟩ (by decide)).mpr ?_
    · revert hrow
      decide
    · intro ⟨s, name, hitem, _⟩
      cases hitem

end PveZfsTool
