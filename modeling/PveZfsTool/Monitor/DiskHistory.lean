import PveZfsTool.Lib.LatestRows
import PveZfsTool.Lib.Text
import Mathlib.Data.List.Sort

/-!
# The disks of a host

Each sampling cycle of `app/metrics.py` stores a row for each disk of a host in
`disk_metrics`.  `latest_disks` shows the newest row of each disk, which is told
from others by its device and its serial, and marks it stale when the cycle of
that row is not the newest one that has a row.  `forget_disk` deletes the rows
of a disk up to a time.

The newest cycle with a row need not be the last one: that one may have found no
disk, or its disks may have been forgotten.  `disksRight_iff` says that this is
all that can go wrong.

* `Kept`: what every run keeps of the rows of a host.
* `kept_of_run`: it holds after every run.
* `stale_iff_of_kept`: what a mark says then.
-/

namespace PveZfsTool

open Text LatestRows

/-! ## The table -/

/-- A record of `collect_smart`. -/
structure DiskSample where
  device : Str
  type : Str
  model : Option Str
  serial : Option Str
  tempC : Option Int
  powerOnHours : Option Int
  healthPassed : Option Bool
  reallocSectors : Option Int
  pendingSectors : Option Int
  wearPct : Option Int
  deriving DecidableEq

/-- The device and the serial, which is empty where there is none. -/
def DiskSample.key (d : DiskSample) : Str × Str := (d.device, d.serial.getD [])

/-- A row of `disk_metrics`. -/
structure DiskRow where
  timestamp : Nat
  host : Str
  disk : DiskSample
  deriving DecidableEq

def DiskRow.key (r : DiskRow) : Str × Str := r.disk.key

abbrev DiskTable := List DiskRow

/-- `_store_disk_metrics` -/
def storeDiskMetrics (table : DiskTable) (host : Str) (disks : List DiskSample) (now : Nat) :
    DiskTable :=
  if disks = [] then table else table ++ disks.map (DiskRow.mk now host)

/-- A row as `latest_disks` shows it. -/
structure DiskTile where
  row : DiskRow
  stale : Bool
  deriving DecidableEq

def DiskTile.key (t : DiskTile) : Str × Str := t.row.key

def ofHost (host : Str) (table : DiskTable) : DiskTable := table.filter (fun r => r.host = host)

/-- `ORDER BY device, timestamp DESC` -/
def tileOrder (r s : DiskRow) : Prop :=
  if r.disk.device = s.disk.device then s.timestamp ≤ r.timestamp
  else le r.disk.device s.disk.device = true

instance : DecidableRel tileOrder := fun r s => by
  unfold tileOrder
  infer_instance

/-- `latest_disks` -/
def latestDisks (table : DiskTable) (host : Str) : List DiskTile :=
  let rows := (latest DiskRow.key DiskRow.timestamp (ofHost host table) (ofHost host table)).insertionSort
    tileOrder
  let newest := (rows.map DiskRow.timestamp).foldr max 0
  rows.map (fun r => ⟨r, r.timestamp < newest⟩)

/-- The condition of the `DELETE`. -/
def isForgotten (host device : Str) (serial : Option Str) (before : Int) (r : DiskRow) : Bool :=
  r.host = host ∧ r.key = (device, serial.getD []) ∧ (r.timestamp : Int) ≤ before

/-- `forget_disk`: the table without the rows, and how many there were. -/
def forgetDisk (table : DiskTable) (host device : Str) (serial : Option Str) (before : Int) :
    DiskTable × Nat :=
  (table.filter (fun r => !isForgotten host device serial before r),
    (table.filter (isForgotten host device serial before)).length)

/-! ## Runs -/

inductive DiskEvent where
  | cycle (host : Str) (now : Nat) (disks : List DiskSample)
  | forget (host device : Str) (serial : Option Str) (before : Int)

def diskStep (table : DiskTable) : DiskEvent → DiskTable
  | .cycle host now disks => storeDiskMetrics table host disks now
  | .forget host device serial before => (forgetDisk table host device serial before).1

/-- The times and the disks of the cycles of a host. -/
def cyclesOf (host : Str) (events : List DiskEvent) : List (Nat × List DiskSample) :=
  events.filterMap fun
    | .cycle h now disks => if h = host then some (now, disks) else none
    | .forget .. => none

/-- Cycles and forgotten disks.  No cycle has two disks with one device and
serial, and the cycles of a host come at increasing times. -/
structure DiskRun where
  events : List DiskEvent
  distinct : ∀ host, ∀ c ∈ cyclesOf host events, (c.2.map DiskSample.key).Nodup
  increasing : ∀ host, ((cyclesOf host events).map Prod.fst).Pairwise (· < ·)

namespace DiskRun

def table (R : DiskRun) : DiskTable := R.events.foldl diskStep []

def lastCycle (R : DiskRun) (host : Str) : Option (Nat × List DiskSample) :=
  (cyclesOf host R.events).getLast?

/-- What `latest_disks` and `forget_disk` do after the run. -/
structure Right (R : DiskRun) (host : Str) : Prop where
  once : ((latestDisks R.table host).map DiskTile.key).Nodup
  listed : ∀ r ∈ R.table, r.host = host → ∃ t ∈ latestDisks R.table host, t.key = r.key
  newest : ∀ t ∈ latestDisks R.table host, t.row ∈ R.table ∧ t.row.host = host ∧
    ∀ r ∈ R.table, r.host = host → r.key = t.key → r.timestamp ≤ t.row.timestamp
  stale : ∀ t ∈ latestDisks R.table host,
    (t.stale = true ↔ ∀ c ∈ R.lastCycle host, t.key ∉ c.2.map DiskSample.key)
  forgets : ∀ device serial before, ∀ r ∈ R.table,
    r ∉ (forgetDisk R.table host device serial before).1 →
      r.host = host ∧ r.key = (device, serial.getD []) ∧ (r.timestamp : Int) ≤ before

/-- The last cycle of the host has a row in the table, or the host has none. -/
def LastCycleStored (R : DiskRun) (host : Str) : Prop :=
  (∀ r ∈ R.table, r.host ≠ host) ∨
    ∃ c ∈ R.lastCycle host, ∃ r ∈ R.table, r.host = host ∧ r.timestamp = c.1

end DiskRun

/-! ## The rows of a host -/

variable {host : Str} {table rows : DiskTable} {r : DiskRow} {last : Option (Nat × List DiskSample)}

theorem mem_ofHost : r ∈ ofHost host table ↔ r ∈ table ∧ r.host = host := by
  rw [ofHost, List.mem_filter, decide_eq_true_eq]

theorem ofHost_cycle {h : Str} {now : Nat} {disks : List DiskSample} :
    ofHost host (diskStep table (.cycle h now disks)) =
      if h = host then ofHost host table ++ disks.map (DiskRow.mk now host) else ofHost host table := by
  have hstore : diskStep table (.cycle h now disks) = table ++ disks.map (DiskRow.mk now h) := by
    show storeDiskMetrics table h disks now = _
    unfold storeDiskMetrics
    split
    · next hnil => rw [hnil, List.map_nil, List.append_nil]
    · rfl
  rw [hstore, ofHost, List.filter_append, ofHost]
  by_cases hh : h = host
  · subst hh
    rw [if_pos rfl, List.append_cancel_left_eq, List.filter_eq_self]
    intro r hr
    obtain ⟨d, -, rfl⟩ := List.mem_map.mp hr
    exact decide_eq_true rfl
  · have hnil : (disks.map (DiskRow.mk now h)).filter (fun r => r.host = host) = [] := by
      refine List.filter_eq_nil_iff.mpr fun r hr => ?_
      obtain ⟨d, -, rfl⟩ := List.mem_map.mp hr
      simpa using hh
    rw [if_neg hh, hnil, List.append_nil]

theorem ofHost_forget {h device : Str} {serial : Option Str} {before : Int} :
    ofHost host (diskStep table (.forget h device serial before)) =
      (ofHost host table).filter (fun r => !isForgotten h device serial before r) := by
  simp only [diskStep, forgetDisk, ofHost, List.filter_filter, Bool.and_comm]

/-- What every run keeps of the rows of a host, with its last cycle. -/
structure Kept (rows : DiskTable) (last : Option (Nat × List DiskSample)) : Prop where
  distinct : (rows.map (fun r => (r.key, r.timestamp))).Nodup
  bounded : ∀ r ∈ rows, ∃ c ∈ last, r.timestamp ≤ c.1
  stored : ∀ c ∈ last, ∀ r ∈ rows, r.timestamp = c.1 → r.key ∈ c.2.map DiskSample.key
  present : ∀ c ∈ last, ∀ r ∈ rows, r.key ∈ c.2.map DiskSample.key →
    ∃ s ∈ rows, s.key = r.key ∧ s.timestamp = c.1

theorem Kept.empty : Kept [] none where
  distinct := List.nodup_nil
  bounded := fun _ hr => by cases hr
  stored := fun _ hc => by cases hc
  present := fun _ hc => by cases hc

/-- The rows of a cycle are newer than the others. -/
theorem Kept.cycle (h : Kept rows last) {now : Nat} {disks : List DiskSample}
    (hdistinct : (disks.map DiskSample.key).Nodup) (hnow : ∀ c ∈ last, c.1 < now) :
    Kept (rows ++ disks.map (DiskRow.mk now host)) (some (now, disks)) := by
  have hold : ∀ r ∈ rows, r.timestamp < now := by
    intro r hr
    obtain ⟨c, hc, hle⟩ := h.bounded r hr
    have := hnow c hc
    omega
  constructor
  · rw [List.map_append, List.nodup_append]
    refine ⟨h.distinct, ?_, ?_⟩
    · rw [List.map_map]
      have hpairs : (disks.map DiskSample.key).map (fun k => (k, now)) =
          disks.map ((fun r => (r.key, r.timestamp)) ∘ DiskRow.mk now host) := by
        rw [List.map_map]
        rfl
      rw [← hpairs]
      exact hdistinct.map (fun _ _ heq => (Prod.mk.inj heq).1)
    · intro p hp q hq heq
      obtain ⟨r, hr, rfl⟩ := List.mem_map.mp hp
      obtain ⟨s, hs, rfl⟩ := List.mem_map.mp hq
      obtain ⟨d, -, rfl⟩ := List.mem_map.mp hs
      exact absurd (Prod.mk.inj heq).2 (Nat.ne_of_lt (hold r hr))
  · intro r hr
    refine ⟨_, rfl, ?_⟩
    rcases List.mem_append.mp hr with hr | hr
    · exact (hold r hr).le
    · obtain ⟨d, -, rfl⟩ := List.mem_map.mp hr
      exact le_refl now
  · intro c hc r hr htime
    cases hc
    rcases List.mem_append.mp hr with hr | hr
    · exact absurd htime (Nat.ne_of_lt (hold r hr))
    · obtain ⟨d, hd, rfl⟩ := List.mem_map.mp hr
      exact List.mem_map_of_mem hd
  · intro c hc r _ hkey
    cases hc
    obtain ⟨d, hd, heq⟩ := List.mem_map.mp hkey
    exact ⟨⟨now, host, d⟩, List.mem_append_right _ (List.mem_map_of_mem hd), heq, rfl⟩

/-- A disk whose row of the last cycle is forgotten loses its older rows too. -/
theorem Kept.forget (h : Kept rows last) {device : Str} {serial : Option Str} {before : Int}
    (hhost : ∀ r ∈ rows, r.host = host) :
    Kept (rows.filter (fun r => !isForgotten host device serial before r)) last := by
  constructor
  · exact h.distinct.sublist (List.filter_sublist.map _)
  · exact fun r hr => h.bounded r (List.mem_of_mem_filter hr)
  · exact fun c hc r hr => h.stored c hc r (List.mem_of_mem_filter hr)
  · intro c hc r hr hkey
    obtain ⟨hr, hstays⟩ := List.mem_filter.mp hr
    obtain ⟨s, hs, hskey, hstime⟩ := h.present c hc r hr hkey
    refine ⟨s, List.mem_filter.mpr ⟨hs, ?_⟩, hskey, hstime⟩
    rw [Bool.not_eq_true', Bool.eq_false_iff] at hstays ⊢
    intro hgone
    obtain ⟨c', hc', hle⟩ := h.bounded r hr
    cases Option.mem_unique hc hc'
    obtain ⟨-, hkey', hbefore⟩ := of_decide_eq_true hgone
    exact hstays (decide_eq_true ⟨hhost r hr, hskey ▸ hkey', by omega⟩)

theorem cyclesOf_cycle {h : Str} {now : Nat} {disks : List DiskSample} {events : List DiskEvent} :
    cyclesOf host (.cycle h now disks :: events) =
      if h = host then (now, disks) :: cyclesOf host events else cyclesOf host events := by
  simp only [cyclesOf, List.filterMap_cons]
  by_cases hh : h = host
  · rw [if_pos hh, if_pos hh]
  · rw [if_neg hh, if_neg hh]

theorem cyclesOf_append {events more : List DiskEvent} :
    cyclesOf host (events ++ more) = cyclesOf host events ++ cyclesOf host more :=
  List.filterMap_append

theorem kept_of_run {events : List DiskEvent}
    (hdistinct : ∀ c ∈ cyclesOf host events, (c.2.map DiskSample.key).Nodup)
    (hincreasing : ((cyclesOf host events).map Prod.fst).Pairwise (· < ·)) :
    Kept (ofHost host (events.foldl diskStep [])) (cyclesOf host events).getLast? := by
  induction events using List.reverseRecOn with
  | nil => exact Kept.empty
  | append_singleton events e ih =>
    rw [cyclesOf_append] at hdistinct hincreasing ⊢
    rw [List.map_append, List.pairwise_append] at hincreasing
    obtain ⟨hbefore, -, hlater⟩ := hincreasing
    have hkept := ih (fun c hc => hdistinct c (List.mem_append_left _ hc)) hbefore
    rw [List.foldl_append, List.foldl_cons, List.foldl_nil, List.getLast?_append]
    cases e with
    | cycle h now disks =>
      rw [ofHost_cycle]
      by_cases hh : h = host
      · have hcycle : cyclesOf host [.cycle h now disks] = [(now, disks)] := by
          rw [cyclesOf_cycle, if_pos hh]
          rfl
        rw [hcycle] at hdistinct hlater ⊢
        rw [if_pos hh]
        refine hkept.cycle (hdistinct (now, disks) (by simp)) fun c hc => ?_
        exact hlater c.1 (List.mem_map_of_mem (List.mem_of_getLast? hc)) now (by simp)
      · have hcycle : cyclesOf host [.cycle h now disks] = [] := by
          rw [cyclesOf_cycle, if_neg hh]
          rfl
        rw [hcycle, if_neg hh]
        exact hkept
    | forget h device serial before =>
      have hcycle : cyclesOf host [.forget h device serial before] = [] := rfl
      rw [ofHost_forget, hcycle]
      by_cases hh : h = host
      · subst hh
        exact hkept.forget fun r hr => (mem_ofHost.mp hr).2
      · have hall : (ofHost host (events.foldl diskStep [])).filter
            (fun r => !isForgotten h device serial before r) = ofHost host (events.foldl diskStep []) := by
          refine List.filter_eq_self.mpr fun r hr => ?_
          have hne : ¬ r.host = h := fun heq => hh (heq.symm.trans (mem_ofHost.mp hr).2)
          simp [isForgotten, hne]
        rw [hall]
        exact hkept

/-! ## The tiles -/

theorem lt_foldr_max {l : List Nat} {n : Nat} : n < l.foldr max 0 ↔ ∃ m ∈ l, n < m := by
  induction l with
  | nil => simp
  | cons m l ih =>
    rw [List.foldr_cons, List.exists_mem_cons_iff, ← ih]
    omega

theorem mem_latestDisks {t : DiskTile} : t ∈ latestDisks table host ↔
    t.row ∈ latest DiskRow.key DiskRow.timestamp (ofHost host table) (ofHost host table) ∧
      (t.stale = true ↔ ∃ r ∈ ofHost host table, t.row.timestamp < r.timestamp) := by
  have hnewest : ∀ n, n < (((latest DiskRow.key DiskRow.timestamp (ofHost host table)
      (ofHost host table)).insertionSort tileOrder).map DiskRow.timestamp).foldr max 0 ↔
        ∃ r ∈ ofHost host table, n < r.timestamp := by
    intro n
    simp only [lt_foldr_max, List.mem_map, List.mem_insertionSort]
    constructor
    · intro ⟨_, ⟨r, hr, rfl⟩, hlt⟩
      exact ⟨r, (mem_latest.mp hr).1, hlt⟩
    · intro ⟨r, hr, hlt⟩
      obtain ⟨s, hs, hkey⟩ := exists_latest DiskRow.key DiskRow.timestamp (fun _ h => h) hr
      have hle := (mem_latest.mp hs).2.2 r hr hkey.symm
      exact ⟨_, ⟨s, hs, rfl⟩, by omega⟩
  simp only [latestDisks, List.mem_map, List.mem_insertionSort]
  constructor
  · intro ⟨r, hr, heq⟩
    cases heq
    exact ⟨hr, by rw [decide_eq_true_iff]; exact hnewest r.timestamp⟩
  · intro ⟨hrow, hstale⟩
    refine ⟨t.row, hrow, ?_⟩
    obtain ⟨row, stale⟩ := t
    have hmark : decide (row.timestamp < (((latest DiskRow.key DiskRow.timestamp (ofHost host table)
        (ofHost host table)).insertionSort tileOrder).map DiskRow.timestamp).foldr max 0) = stale := by
      rw [Bool.eq_iff_iff, decide_eq_true_iff, hnewest]
      exact hstale.symm
    rw [hmark]

theorem map_key_latestDisks : ((latestDisks table host).map DiskTile.key).Perm
    ((latest DiskRow.key DiskRow.timestamp (ofHost host table) (ofHost host table)).map DiskRow.key) := by
  rw [latestDisks, List.map_map]
  exact (List.perm_insertionSort tileOrder _).map DiskRow.key

namespace DiskRun

variable {R : DiskRun}

theorem kept (R : DiskRun) (host : Str) : Kept (ofHost host R.table) (R.lastCycle host) :=
  kept_of_run (R.distinct host) (R.increasing host)

theorem once (R : DiskRun) (host : Str) : ((latestDisks R.table host).map DiskTile.key).Nodup :=
  map_key_latestDisks.nodup_iff.mpr (nodup_latest (R.kept host).distinct)

theorem listed (hr : r ∈ ofHost host R.table) : ∃ t ∈ latestDisks R.table host, t.key = r.key := by
  obtain ⟨s, hs, hkey⟩ := exists_latest DiskRow.key DiskRow.timestamp (fun _ h => h) hr
  have hmem : s.key ∈ (latestDisks R.table host).map DiskTile.key :=
    map_key_latestDisks.mem_iff.mpr (List.mem_map_of_mem hs)
  obtain ⟨t, ht, heq⟩ := List.mem_map.mp hmem
  exact ⟨t, ht, heq.trans hkey⟩

theorem removed_of_forget {device : Str} {serial : Option Str} {before : Int} (hr : r ∈ table)
    (hgone : r ∉ (forgetDisk table host device serial before).1) :
    r.host = host ∧ r.key = (device, serial.getD []) ∧ (r.timestamp : Int) ≤ before := by
  by_contra hstays
  refine hgone (List.mem_filter.mpr ⟨hr, ?_⟩)
  rw [Bool.not_eq_true']
  exact decide_eq_false hstays

theorem not_stale_of_present (hkept : Kept (ofHost host R.table) (R.lastCycle host)) {t : DiskTile}
    (ht : t ∈ latestDisks R.table host) {c : Nat × List DiskSample} (hc : c ∈ R.lastCycle host)
    (hkey : t.key ∈ c.2.map DiskSample.key) : ¬ t.stale = true := by
  obtain ⟨hrow, hstale⟩ := mem_latestDisks.mp ht
  obtain ⟨hmem, -, hgreatest⟩ := mem_latest.mp hrow
  obtain ⟨s, hs, hskey, hstime⟩ := hkept.present c hc t.row hmem hkey
  rw [hstale]
  intro ⟨r, hr, hlt⟩
  obtain ⟨c', hc', hle⟩ := hkept.bounded r hr
  cases Option.mem_unique hc hc'
  have := hgreatest s hs hskey
  omega

theorem right_of_stored (h : R.LastCycleStored host) : R.Right host where
  once := R.once host
  listed := fun r hr hhost => listed (mem_ofHost.mpr ⟨hr, hhost⟩)
  newest := fun t ht => by
    obtain ⟨hmem, -, hgreatest⟩ := mem_latest.mp (mem_latestDisks.mp ht).1
    obtain ⟨hmem, hhost⟩ := mem_ofHost.mp hmem
    exact ⟨hmem, hhost, fun r hr hh hkey => hgreatest r (mem_ofHost.mpr ⟨hr, hh⟩) hkey⟩
  stale := fun t ht => by
    obtain ⟨hrow, hstale⟩ := mem_latestDisks.mp ht
    have hmem := (mem_latest.mp hrow).1
    constructor
    · intro hmarked c hc hkey
      exact not_stale_of_present (R.kept host) ht hc hkey hmarked
    · intro hmissing
      rcases h with hnone | ⟨c, hc, r, hr, hhost, htime⟩
      · exact absurd (mem_ofHost.mp hmem).2 (hnone t.row (mem_ofHost.mp hmem).1)
      · refine hstale.mpr ⟨r, mem_ofHost.mpr ⟨hr, hhost⟩, ?_⟩
        obtain ⟨c', hc', hle⟩ := (R.kept host).bounded t.row hmem
        cases Option.mem_unique hc hc'
        refine htime ▸ lt_of_le_of_ne hle fun heq => ?_
        exact hmissing c hc ((R.kept host).stored c hc t.row hmem heq)
  forgets := fun _ _ _ _ hr hgone => removed_of_forget hr hgone

theorem stored_of_right (h : R.Right host) : R.LastCycleStored host := by
  by_cases hnone : ∀ r ∈ R.table, r.host ≠ host
  · exact .inl hnone
  · right
    push Not at hnone
    obtain ⟨r, hr, hhost⟩ := hnone
    -- the newest row of the host is not marked, so its disk is in the last cycle
    obtain ⟨s, hs, -, hall⟩ := LatestRows.exists_greatest (fun _ => ()) DiskRow.timestamp
      (mem_ofHost.mpr ⟨hr, hhost⟩)
    obtain ⟨t, ht, hkey⟩ := listed hs
    obtain ⟨hrow, hstale⟩ := mem_latestDisks.mp ht
    obtain ⟨hmem, -, hgreatest⟩ := mem_latest.mp hrow
    have hunmarked : ¬ t.stale = true := by
      rw [hstale]
      intro ⟨u, hu, hlt⟩
      have hus := hall u hu rfl
      have hst := hgreatest s hs hkey.symm
      omega
    rw [h.stale t ht] at hunmarked
    push Not at hunmarked
    obtain ⟨c, hc, hin⟩ := hunmarked
    obtain ⟨u, hu, -, htime⟩ := (R.kept host).present c hc t.row hmem hin
    exact ⟨c, hc, u, (mem_ofHost.mp hu).1, (mem_ofHost.mp hu).2, htime⟩

/-- After every run, the disks of a host are shown right if and only if its last
cycle has a row in the table, or it has none at all. -/
theorem shownRight_iff (R : DiskRun) (host : Str) : R.Right host ↔ R.LastCycleStored host :=
  ⟨stored_of_right, right_of_stored⟩

end DiskRun

/-! ## A host whose disks vanish -/

def sda : DiskSample :=
  ⟨"sda", "hdd", some "WD Red", some "WD-1", some 30, some 100, some true, some 0, some 0, none⟩

/-- The only disk is there in one cycle and is gone in the next. -/
def vanished : DiskRun where
  events := [.cycle "10.0.0.1" 1000 [sda], .cycle "10.0.0.1" 1900 []]
  distinct := fun host => by
    by_cases h : ("10.0.0.1" : Str) = host
    · subst h
      decide
    · rw [cyclesOf_cycle, if_neg h, cyclesOf_cycle, if_neg h]
      exact fun c hc => by cases hc
  increasing := fun host => by
    by_cases h : ("10.0.0.1" : Str) = host
    · subst h
      decide
    · rw [cyclesOf_cycle, if_neg h, cyclesOf_cycle, if_neg h]
      exact List.Pairwise.nil

/-- Its tile is not marked. -/
theorem vanished_not_stale : ¬ ∀ (R : DiskRun) (host : Str), R.Right host := by
  intro hclaim
  have hstale := (hclaim vanished "10.0.0.1").stale ⟨⟨1000, "10.0.0.1", sda⟩, false⟩ (by decide)
  have hmissing : ∀ c ∈ vanished.lastCycle "10.0.0.1", sda.key ∉ c.2.map DiskSample.key := by
    intro c hc
    cases hc
    exact List.not_mem_nil
  cases hstale.mpr hmissing

end PveZfsTool
