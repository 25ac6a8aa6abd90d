import PveZfsTool.Backups.Listing
import PveZfsTool.Monitor.Cleanup

/-!
# Reading the rows of the monitor

`app/analytics.py` shows rows of `monitor_state` on the dashboard and as
Prometheus metrics.  It has only the keys, which the monitor has made of an
address and a pool or label with a colon between them, and cuts them at the
first colon.

* `partition_key`: when a key is cut where it was joined.
* `promLine_inj`: a line of the metrics has the labels it was made of.
* `rows_shown_iff`: every row is shown under its own address and label when
  and only when no address has a colon.
-/

namespace PveZfsTool

open Text
open Backups (Json PyJson getField)

/-! ## The maps -/

/-- What `_monitor_state_map` has for a key. -/
structure StateValue where
  value : Str
  updatedTs : Nat

/-- `key.partition(":")`, without the colon -/
def partitionKey (key : Str) : Str × Str :=
  (key.takeWhile (· ≠ ':'), (key.dropWhile (· ≠ ':')).drop 1)

/-- `_monitor_state_map`, where `updatedTs` is the column `updated_ts`. -/
def monitorStateMap (updatedTs : StateEntry → Nat) (t : Table) (scope : Str) :
    List (Str × StateValue) :=
  (t.entries.filter (fun e => e.item.scope = scope)).map fun e =>
    (e.item.key, ⟨e.row.value, updatedTs e⟩)

/-! ## Stale snapshots -/

structure StaleDetail where
  hostAddress : Str
  hostName : Str
  label : Str
  count : Json
  updatedTs : Nat

/-- One row of the list.  The count is `None` where the value has none. -/
def staleDetail (J : PyJson) (nameByAddr : List (Str × Str)) (entry : Str × StateValue) :
    StaleDetail where
  hostAddress := (partitionKey entry.1).1
  hostName := (nameByAddr.lookup (partitionKey entry.1).1).getD (partitionKey entry.1).1
  label := (partitionKey entry.1).2
  count :=
    match J.loads (if entry.2.value = [] then "\x7b\x7d" else entry.2.value) with
    | some (.dict entries) => getField entries "count"
    | _ => .null
  updatedTs := entry.2.updatedTs

/-- The order of the list: newest first, then by name and label. -/
def StaleDetail.le (a b : StaleDetail) : Bool :=
  if a.updatedTs = b.updatedTs then
    if a.hostName = b.hostName then Text.le a.label b.label else Text.le a.hostName b.hostName
  else b.updatedTs < a.updatedTs

/-- `build_stale_detail` -/
def buildStaleDetail (J : PyJson) (staleState : List (Str × StateValue))
    (nameByAddr : List (Str × Str)) : List StaleDetail :=
  (staleState.map (staleDetail J nameByAddr)).insertionSort (fun a b => a.le b = true)

/-! ## Bad pools -/

structure BadPool where
  host : Str
  pool : Str
  health : Str
  updatedTs : Nat

/-- `bad_pools` of `dashboard` -/
def badPools (poolHealthState : List (Str × StateValue)) : List BadPool :=
  poolHealthState.filterMap fun (key, v) =>
    let health := v.value.map Char.toUpper
    if health ≠ [] ∧ health ≠ "ONLINE" then
      some ⟨(partitionKey key).1, (partitionKey key).2, health, v.updatedTs⟩
    else none

/-! ## Metrics -/

/-- One character of `_prom_escape`. -/
def promEscapeChar (c : Char) : Str :=
  if c = '\\' then ['\\', '\\']
  else if c = '\n' then ['\\', 'n']
  else if c = '"' then ['\\', '"']
  else [c]

/-- `_prom_escape` -/
def promEscape (s : Str) : Str := s.flatMap promEscapeChar

/-- `_prom_line`, of a metric with labels -/
def promLine (metric : Str) (labels : List (Str × Str)) (value : Str) : Str :=
  metric ++ '\x7b' ::
    (join [','] (labels.map fun (k, v) => k ++ '=' :: '"' :: (promEscape v ++ ['"'])) ++
      '\x7d' :: ' ' :: value)

/-- The line of one pool. -/
def poolErrorLine (host pool : Str) (n : Int) : Str :=
  promLine "pvezfs_pool_error_total_sum" [("host", host), ("pool", pool)] (ofInt n)

/-- `int(v.get("value") or 0)`, and zero for what is no number -/
def errorCount (value : Str) : Int := (toInt? value).getD 0

/-- The error totals of `prometheus_metrics`. -/
def poolErrorLines (errState : List (Str × StateValue)) : List Str :=
  errState.map fun (key, v) =>
    poolErrorLine (partitionKey key).1 (partitionKey key).2 (errorCount v.value)

/-! ## What is shown -/

/-- Each row that the readers show is there under its own address and label. -/
structure RowsShown (J : PyJson) (nameByAddr : List (Str × Str)) (updatedTs : StateEntry → Nat)
    (t : Table) : Prop where
  stale : ∀ e ∈ t.entries, ∀ address label, e.item = .staleSnap address label →
    ∃ d ∈ buildStaleDetail J (monitorStateMap updatedTs t "stale_snap") nameByAddr,
      d.hostAddress = address ∧ d.label = label ∧ d.updatedTs = updatedTs e
  bad : ∀ e ∈ t.entries, ∀ address pool, e.item = .pool .health address pool →
    e.row.value.map Char.toUpper ≠ [] → e.row.value.map Char.toUpper ≠ "ONLINE" →
      ⟨address, pool, e.row.value.map Char.toUpper, updatedTs e⟩ ∈
        badPools (monitorStateMap updatedTs t "pool_health")
  errors : ∀ e ∈ t.entries, ∀ address pool, e.item = .pool .errors address pool →
    poolErrorLine address pool (errorCount e.row.value) ∈
      poolErrorLines (monitorStateMap updatedTs t "pool_errors")

/-- A row that one of the readers shows. -/
def IsShown (e : StateEntry) : Prop :=
  match e.item with
  | .staleSnap .. => True
  | .pool .errors .. => True
  | .pool .health .. => e.row.value.map Char.toUpper ≠ [] ∧ e.row.value.map Char.toUpper ≠ "ONLINE"
  | _ => False

/-! ## Keys -/

theorem colon_not_mem_partition (key : Str) : ':' ∉ (partitionKey key).1 := by
  intro h
  have hne := List.mem_takeWhile_imp h
  exact of_decide_eq_true hne rfl

/-- A key is cut where it was joined when the address has no colon. -/
theorem partition_key {address label : Str} (h : ':' ∉ address) :
    partitionKey (address ++ ':' :: label) = (address, label) := by
  have hall : ∀ c ∈ address, decide (c ≠ ':') = true := by
    intro c hc
    apply decide_eq_true
    rintro rfl
    exact h hc
  rw [partitionKey, List.takeWhile_append_of_pos hall, List.dropWhile_append_of_pos hall,
    List.takeWhile_cons, List.dropWhile_cons, if_neg (by decide), if_neg (by decide),
    List.append_nil, List.drop_one, List.tail_cons]

/-! ## Lines of the metrics -/

/-- The first character of what a character is escaped to, and the second
where there is one, say which it is. -/
theorem promEscapeChar_inj {c d : Char} {x y : Str}
    (h : promEscapeChar c ++ x = promEscapeChar d ++ y) : c = d ∧ x = y := by
  unfold promEscapeChar at h
  split_ifs at h <;> grind

theorem promEscapeChar_ne_quote {c : Char} {x y : Str} : promEscapeChar c ++ x ≠ '"' :: y := by
  unfold promEscapeChar
  split_ifs <;> simp_all

/-- An escaped text ends at the first quote without a backslash. -/
theorem promEscape_inj {s t x y : Str} (h : promEscape s ++ '"' :: x = promEscape t ++ '"' :: y) :
    s = t ∧ x = y := by
  induction s generalizing t with
  | nil =>
    cases t with
    | nil => exact ⟨rfl, (List.cons.inj h).2⟩
    | cons d t =>
      rw [promEscape, promEscape, List.flatMap_nil, List.nil_append, List.flatMap_cons,
        List.append_assoc] at h
      exact absurd h.symm promEscapeChar_ne_quote
  | cons c s ih =>
    cases t with
    | nil =>
      rw [promEscape, promEscape, List.flatMap_nil, List.nil_append, List.flatMap_cons,
        List.append_assoc] at h
      exact absurd h promEscapeChar_ne_quote
    | cons d t =>
      rw [promEscape, promEscape, List.flatMap_cons, List.flatMap_cons, List.append_assoc,
        List.append_assoc] at h
      obtain ⟨rfl, hrest⟩ := promEscapeChar_inj h
      obtain ⟨rfl, htail⟩ := ih hrest
      exact ⟨rfl, htail⟩

/-- The line has the host and the pool that it was made of. -/
theorem poolErrorLine_inj {host pool host' pool' : Str} {n n' : Int}
    (h : poolErrorLine host pool n = poolErrorLine host' pool' n') : host = host' ∧ pool = pool' := by
  have hline : ∀ host pool n, poolErrorLine host pool n =
      ("pvezfs_pool_error_total_sum\x7bhost=\"" : Str) ++ (promEscape host ++ '"' ::
        (",pool=\"" : Str) ++ (promEscape pool ++ '"' :: '\x7d' :: ' ' :: ofInt n)) := by
    intro host pool n
    simp [poolErrorLine, promLine, join]
  rw [hline, hline] at h
  obtain ⟨hhost, hrest⟩ := promEscape_inj (by simpa using h)
  obtain ⟨hpool, -⟩ := promEscape_inj (by simpa using hrest)
  exact ⟨hhost, hpool⟩

/-! ## The rows -/

section Shown

variable {J : PyJson} {nameByAddr : List (Str × Str)} {updatedTs : StateEntry → Nat} {t : Table}
  {e : StateEntry}

theorem mem_monitorStateMap (updatedTs : StateEntry → Nat) (he : e ∈ t.entries) :
    (e.item.key, ⟨e.row.value, updatedTs e⟩) ∈ monitorStateMap updatedTs t e.item.scope :=
  List.mem_map.mpr ⟨e, List.mem_filter.mpr ⟨he, decide_eq_true rfl⟩, rfl⟩

theorem mem_buildStaleDetail {staleState : List (Str × StateValue)} {d : StaleDetail} :
    d ∈ buildStaleDetail J staleState nameByAddr ↔ ∃ entry ∈ staleState, staleDetail J nameByAddr entry = d := by
  rw [buildStaleDetail, List.mem_insertionSort, List.mem_map]

/-- Every row is shown under its own address and label if and only if no
address of a row that is shown has a colon. -/
theorem rows_shown_iff (J : PyJson) (nameByAddr : List (Str × Str)) (updatedTs : StateEntry → Nat)
    (t : Table) :
    RowsShown J nameByAddr updatedTs t ↔ ∀ e ∈ t.entries, IsShown e → ':' ∉ e.item.address := by
  constructor
  · intro h e he hshown hcolon
    unfold IsShown at hshown
    cases hitem : e.item with
    | host address =>
      rw [hitem] at hshown
      exact hshown
    | repl address cfgPath =>
      rw [hitem] at hshown
      exact hshown
    | staleSnap address label =>
      obtain ⟨d, hd, haddress, -⟩ := h.stale e he address label hitem
      obtain ⟨entry, -, rfl⟩ := mem_buildStaleDetail.mp hd
      rw [hitem, Watched.address, ← haddress] at hcolon
      exact colon_not_mem_partition entry.1 hcolon
    | pool scope address name =>
      rw [hitem] at hshown
      cases scope with
      | capacity => exact hshown
      | topology => exact hshown
      | health =>
        have hrow := h.bad e he address name hitem hshown.1 hshown.2
        obtain ⟨entry, -, hentry⟩ := List.mem_filterMap.mp hrow
        dsimp only at hentry
        split at hentry
        · have haddress : (partitionKey entry.1).1 = address :=
            congrArg BadPool.host (Option.some.inj hentry)
          rw [hitem, Watched.address, ← haddress] at hcolon
          exact colon_not_mem_partition entry.1 hcolon
        · cases hentry
      | errors =>
        obtain ⟨entry, -, hentry⟩ := List.mem_map.mp (h.errors e he address name hitem)
        obtain ⟨haddress, -⟩ := poolErrorLine_inj hentry
        rw [hitem, Watched.address, ← haddress] at hcolon
        exact colon_not_mem_partition entry.1 hcolon
  · intro h
    constructor
    · intro e he address label hitem
      have hcolon : ':' ∉ address := by
        have haddress := h e he (by rw [IsShown, hitem]; trivial)
        rwa [hitem] at haddress
      have hmap := mem_monitorStateMap updatedTs he
      rw [hitem] at hmap
      refine ⟨_, mem_buildStaleDetail.mpr ⟨_, hmap, rfl⟩, ?_, ?_, rfl⟩
      · exact congrArg Prod.fst (partition_key hcolon)
      · exact congrArg Prod.snd (partition_key hcolon)
    · intro e he address pool hitem hhealth honline
      have hcolon : ':' ∉ address := by
        have haddress := h e he (by rw [IsShown, hitem]; exact ⟨hhealth, honline⟩)
        rwa [hitem] at haddress
      have hmap := mem_monitorStateMap updatedTs he
      rw [hitem] at hmap
      refine List.mem_filterMap.mpr ⟨_, hmap, ?_⟩
      dsimp only [Watched.key]
      rw [if_pos ⟨hhealth, honline⟩, partition_key hcolon]
    · intro e he address pool hitem
      have hcolon : ':' ∉ address := by
        have haddress := h e he (by rw [IsShown, hitem]; trivial)
        rwa [hitem] at haddress
      have hmap := mem_monitorStateMap updatedTs he
      rw [hitem] at hmap
      refine List.mem_map.mpr ⟨_, hmap, ?_⟩
      dsimp only [Watched.key]
      rw [partition_key hcolon]

end Shown

/-- A host with an IPv6 address and a row about its hourly snapshots. -/
def ipv6Table : Table where
  entries := [⟨.staleSnap "fd00::10" "hourly", ⟨"\x7b\"count\": 3\x7d", some 100⟩⟩]
  unique := by decide

/-- The row is shown under the host `fd00`. -/
theorem ipv6_row_cut :
    ¬ ∀ J, RowsShown J [("fd00::10", "pve6")] (fun _ => 100) ipv6Table := by
  intro h
  obtain ⟨d, hd, haddress, -⟩ := (h ⟨fun _ => none, fun _ => []⟩).stale _ List.mem_cons_self _ _ rfl
  obtain ⟨entry, hentry, rfl⟩ := mem_buildStaleDetail.mp hd
  have hkey : entry.1 ∈ [("fd00::10:hourly" : Str)] := List.mem_map_of_mem (f := Prod.fst) hentry
  have hcut : (partitionKey entry.1).1 = "fd00" := by
    rw [List.mem_singleton.mp hkey]
    decide
  exact absurd (hcut.symm.trans haddress) (by decide)

end PveZfsTool
