import PveZfsTool.Lib.Exposition
import PveZfsTool.Lib.LatestRows
import PveZfsTool.Monitor.Analytics

/-!
# The metrics payload

`prometheus_metrics` of `app/analytics.py` writes the families of the payload one
after the other.  Their series come from the registry, from the newest rows of
`pool_metrics` and from the keys of `monitor_state`.

A scraper reads back each label that was written.  It takes a series once, and
`scrapeRight_iff` says when the payload has none twice: no pool has two rows of
its newest second, and no two keys are cut into the same address and pool.

* `undoes_promEscape`: the escape is undone by the format.
* `pairwise_samples_iff`: the families do not meet, so each is looked at alone.
* `nodup_latestPoolRows_iff`, `nodup_partitionKey_iff`: the two sources that may
  give a series twice.
-/

namespace PveZfsTool

open Text LatestRows Exposition

/-! ## The families -/

/-- A number, as an f-string writes it. -/
structure NumText where
  text : Str
  isWord : IsWordText text

def NumText.ofNat (n : Nat) : NumText := ⟨Text.ofNat n, isWordText_ofNat⟩

theorem isWordText_ofInt (n : Int) : IsWordText (ofInt n) := by
  cases n with
  | ofNat n => exact isWordText_ofNat
  | negSucc n =>
    refine ⟨List.cons_ne_nil _ _, fun c hc => ?_⟩
    rcases List.mem_cons.mp hc with rfl | hc
    · decide
    · exact isWordText_ofNat.plain c hc

def NumText.ofInt (n : Int) : NumText := ⟨Text.ofInt n, isWordText_ofInt n⟩

/-- A row of `pool_metrics`. -/
structure PoolMetric where
  timestamp : Nat
  host : Str
  pool : Str
  sizeBytes : Option NumText
  allocBytes : Option NumText
  freeBytes : Option NumText
  fragPct : Option NumText
  capPct : Option NumText
  health : Option Str
  dedupRatio : Option NumText

def PoolMetric.key (r : PoolMetric) : Str × Str := (r.host, r.pool)

/-- `LATEST_POOL_MAX_AGE` -/
def latestPoolMaxAge : Int := 6 * 3600

/-- The rows that the inner query of `latest_pool_rows` is about. -/
def sampledSince (maxAge : Option Int) (now : Int) (table : List PoolMetric) : List PoolMetric :=
  match maxAge with
  | none => table
  | some age => table.filter (fun r => now - age ≤ (r.timestamp : Int))

/-- `latest_pool_rows` -/
def latestPoolRows (maxAge : Option Int) (now : Int) (table : List PoolMetric) : List PoolMetric :=
  latest PoolMetric.key PoolMetric.timestamp (sampledSince maxAge now table) table

/-- What `prometheus_metrics` reads: the registry, two scopes of `monitor_state`,
the table, and the clock twice.  `forecast` is `forecast_days_until_full`,
`none` also where it raises. -/
structure PromInput where
  hosts : List MonitoredHost
  hostState : Dict Str StateValue
  errState : Dict Str StateValue
  poolMetrics : List PoolMetric
  forecast : Str → Str → Option NumText
  now : Int
  scrapedAt : Nat

namespace PromInput

/-- `hosts_cfg` -/
def hostsCfg (I : PromInput) : Dict Str MonitoredHost :=
  I.hosts.foldl (fun d h => d.set h.address h) Dict.empty

def poolRows (I : PromInput) : List PoolMetric :=
  latestPoolRows (some latestPoolMaxAge) I.now I.poolMetrics

end PromInput

/-- The names of the labels of a line. -/
inductive LabelNames where
  | none
  | host
  | pool
  | poolState

def LabelNames.names : LabelNames → List Str
  | .none => []
  | .host => ["host", "name"]
  | .pool => ["host", "pool"]
  | .poolState => ["host", "pool", "state"]

/-- What is fixed of a family: the texts of its header, and the labels of its
lines. -/
structure FamilyText where
  metric : Str
  help : Str
  labels : LabelNames
  isMetric : IsName isMetricChar metric
  noBreak : '\n' ∉ help

/-- The labels of a line and its value. -/
structure Point where
  labels : List (Str × Str)
  value : NumText

structure Family where
  about : FamilyText
  points : List Point

/-- `_prom_line` -/
def promSampleLine (metric : Str) (labels : List (Str × Str)) (value : Str) : Str :=
  if labels = [] then metric ++ ' ' :: value else promLine metric labels value

def Family.lines (f : Family) : List Str :=
  ("# HELP " ++ f.about.metric ++ ' ' :: f.about.help) :: ("# TYPE " ++ f.about.metric ++ " gauge") ::
    f.points.map (fun p => promSampleLine f.about.metric p.labels p.value.text)

def hostLabels (address : Str) (h : MonitoredHost) : List (Str × Str) :=
  [("host", address), ("name", if h.name = [] then address else h.name)]

def poolLabels (host pool : Str) : List (Str × Str) := [("host", host), ("pool", pool)]

section Texts

def hostReachable : FamilyText where
  metric := "pvezfs_host_reachable"
  help := "1 if SSH probe succeeded on last sample, 0 otherwise"
  labels := .host
  isMetric := by decide
  noBreak := by decide

def hostLastSample : FamilyText where
  metric := "pvezfs_host_last_sample_timestamp_seconds"
  help := "Unix ts of last reachability check"
  labels := .host
  isMetric := by decide
  noBreak := by decide

def poolSize : FamilyText where
  metric := "pvezfs_pool_size_bytes"
  help := "Pool total size in bytes"
  labels := .pool
  isMetric := by decide
  noBreak := by decide

def poolAlloc : FamilyText where
  metric := "pvezfs_pool_alloc_bytes"
  help := "Pool allocated bytes"
  labels := .pool
  isMetric := by decide
  noBreak := by decide

def poolFree : FamilyText where
  metric := "pvezfs_pool_free_bytes"
  help := "Pool free bytes"
  labels := .pool
  isMetric := by decide
  noBreak := by decide

def poolCapacity : FamilyText where
  metric := "pvezfs_pool_capacity_percent"
  help := "Pool capacity percent used"
  labels := .pool
  isMetric := by decide
  noBreak := by decide

def poolFragmentation : FamilyText where
  metric := "pvezfs_pool_fragmentation_percent"
  help := "Pool fragmentation percent (free-space frag; expected high on SSD)"
  labels := .pool
  isMetric := by decide
  noBreak := by decide

def poolDedupRatio : FamilyText where
  metric := "pvezfs_pool_dedup_ratio"
  help := "Pool dedup ratio"
  labels := .pool
  isMetric := by decide
  noBreak := by decide

def poolHealthText : FamilyText where
  metric := "pvezfs_pool_health"
  help := "Current pool health (one-hot per state)"
  labels := .poolState
  isMetric := by decide
  noBreak := by decide

def poolErrorTotal : FamilyText where
  metric := "pvezfs_pool_error_total_sum"
  help := "Sum of read+write+cksum errors from zpool status"
  labels := .pool
  isMetric := by decide
  noBreak := by decide

def poolForecast : FamilyText where
  metric := "pvezfs_pool_forecast_days_until_full"
  help := "Linear forecast; -1 if unknown"
  labels := .pool
  isMetric := by decide
  noBreak := by decide

def samplerPools : FamilyText where
  metric := "pvezfs_sampler_pools_total"
  help := "Current number of pools tracked"
  labels := .none
  isMetric := by decide
  noBreak := by decide

def scrapeTimestamp : FamilyText where
  metric := "pvezfs_scrape_timestamp_seconds"
  help := "Time when this payload was generated"
  labels := .none
  isMetric := by decide
  noBreak := by decide

end Texts

/-- `states` -/
def healthStates : List Str :=
  ["ONLINE", "DEGRADED", "FAULTED", "UNAVAIL", "REMOVED", "SUSPENDED", "OFFLINE"]

namespace PromInput

def reachablePoints (I : PromInput) : List Point :=
  I.hostsCfg.entries.map fun (addr, h) =>
    ⟨hostLabels addr h,
      NumText.ofNat (if (I.hostState.get? addr).map StateValue.value = some "up" then 1 else 0)⟩

def lastSamplePoints (I : PromInput) : List Point :=
  I.hostsCfg.entries.map fun (addr, h) =>
    ⟨hostLabels addr h, NumText.ofNat (((I.hostState.get? addr).map StateValue.updatedTs).getD 0)⟩

/-- One of `gauges`: the rows that have a value in the column. -/
def gaugePoints (I : PromInput) (col : PoolMetric → Option NumText) : List Point :=
  I.poolRows.filterMap fun r => (col r).map (Point.mk (poolLabels r.host r.pool))

/-- `(r.get("health") or "").upper() or "UNKNOWN"` -/
def currentHealth (r : PoolMetric) : Str :=
  let health := (r.health.getD []).map Char.toUpper
  if health = [] then "UNKNOWN" else health

def healthPoints (I : PromInput) : List Point :=
  I.poolRows.flatMap fun r => healthStates.map fun s =>
    ⟨poolLabels r.host r.pool ++ [(("state" : Str), s)], NumText.ofNat (if currentHealth r = s then 1 else 0)⟩

def errorPoints (I : PromInput) : List Point :=
  I.errState.entries.map fun (key, v) =>
    ⟨poolLabels (partitionKey key).1 (partitionKey key).2, NumText.ofInt (errorCount v.value)⟩

def forecastPoints (I : PromInput) : List Point :=
  I.poolRows.map fun r =>
    ⟨poolLabels r.host r.pool, (I.forecast r.host r.pool).getD (NumText.ofInt (-1))⟩

def families (I : PromInput) : List Family :=
  [⟨hostReachable, I.reachablePoints⟩,
    ⟨hostLastSample, I.lastSamplePoints⟩,
    ⟨poolSize, I.gaugePoints PoolMetric.sizeBytes⟩,
    ⟨poolAlloc, I.gaugePoints PoolMetric.allocBytes⟩,
    ⟨poolFree, I.gaugePoints PoolMetric.freeBytes⟩,
    ⟨poolCapacity, I.gaugePoints PoolMetric.capPct⟩,
    ⟨poolFragmentation, I.gaugePoints PoolMetric.fragPct⟩,
    ⟨poolDedupRatio, I.gaugePoints PoolMetric.dedupRatio⟩,
    ⟨poolHealthText, I.healthPoints⟩,
    ⟨poolErrorTotal, I.errorPoints⟩,
    ⟨poolForecast, I.forecastPoints⟩,
    ⟨samplerPools, [⟨[], NumText.ofNat I.poolRows.length⟩]⟩,
    ⟨scrapeTimestamp, [⟨[], NumText.ofNat I.scrapedAt⟩]⟩]

end PromInput

/-- `prometheus_metrics` -/
def prometheusMetrics (I : PromInput) : Str :=
  join ['\n'] (I.families.flatMap Family.lines) ++ ['\n']

/-! ## What a scraper reads -/

/-- The samples of a family, with the labels as they were before the escape. -/
def Family.samples (f : Family) : List SampleLine :=
  f.points.map fun p => ⟨f.about.metric, p.labels, p.value.text⟩

def PromInput.samples (I : PromInput) : List SampleLine := I.families.flatMap Family.samples

/-- The payload is read back, and it has no series twice. -/
structure ScrapeRight (I : PromInput) : Prop where
  read : parse (prometheusMetrics I) = some I.samples
  once : I.samples.Pairwise (fun s t => ¬ s.SameSeries t)

/-- No pool has two rows of one time that is its newest and in the window. -/
def OneNewestRow (now : Int) (table : List PoolMetric) : Prop :=
  table.Pairwise fun r s => r.key = s.key → r.timestamp = s.timestamp →
    (r.timestamp : Int) < now - latestPoolMaxAge ∨
      ∃ u ∈ table, u.key = r.key ∧ r.timestamp < u.timestamp

/-- No key without a colon has a second one, with a colon behind it. -/
def KeysApart (errState : Dict Str StateValue) : Prop :=
  ∀ key ∈ errState.keys, ':' ∉ key → key ++ [':'] ∉ errState.keys

/-! ## The payload is read back -/

theorem readValue_plain {c : Char} {s : Str} (hquote : c ≠ '"') (hslash : c ≠ '\\') :
    readValue (c :: s) = (readValue s).map fun (v, rest) => (c :: v, rest) := by
  rw [readValue]
  · exact hquote
  · intro _ heq _
    exact hslash heq
  · intro _ heq _
    exact hslash heq
  · intro _ heq _
    exact hslash heq
  · exact hslash

/-- Each escaped character is read back. -/
theorem undoes_promEscape : Undoes promEscape := by
  intro v rest
  induction v with
  | nil => rfl
  | cons c v ih =>
    have hcons : promEscape (c :: v) ++ '"' :: rest = promEscapeChar c ++ (promEscape v ++ '"' :: rest) := by
      rw [promEscape, List.flatMap_cons, List.append_assoc]
      rfl
    rw [hcons, promEscapeChar]
    by_cases hslash : c = '\\'
    · rw [if_pos hslash, hslash]
      show (readValue (promEscape v ++ '"' :: rest)).map _ = _
      rw [ih]
      rfl
    · by_cases hnewline : c = '\n'
      · rw [if_neg hslash, if_pos hnewline, hnewline]
        show (readValue (promEscape v ++ '"' :: rest)).map _ = _
        rw [ih]
        rfl
      · by_cases hquote : c = '"'
        · rw [if_neg hslash, if_neg hnewline, if_pos hquote, hquote]
          show (readValue (promEscape v ++ '"' :: rest)).map _ = _
          rw [ih]
          rfl
        · rw [if_neg hslash, if_neg hnewline, if_neg hquote, List.singleton_append,
            readValue_plain hquote hslash, ih]
          rfl

theorem newline_not_mem_promEscape (v : Str) : '\n' ∉ promEscape v := by
  intro h
  obtain ⟨c, -, hc⟩ := List.mem_flatMap.mp h
  unfold promEscapeChar at hc
  split_ifs at hc with h₁ h₂ h₃
  · revert hc
    decide
  · revert hc
    decide
  · revert hc
    decide
  · exact h₂ (List.mem_singleton.mp hc).symm

theorem promSampleLine_eq {metric value : Str} {labels : List (Str × Str)} :
    promSampleLine metric labels value = lineText promEscape ⟨metric, labels, value⟩ := by
  unfold promSampleLine lineText
  cases labels with
  | nil => rfl
  | cons p labels => rfl

/-- The labels of every line have the names of their family. -/
theorem names_of_mem {I : PromInput} {f : Family} (hf : f ∈ I.families) {p : Point} (hp : p ∈ f.points) :
    p.labels.map Prod.fst = f.about.labels.names := by
  have hgauge : ∀ col, ∀ p ∈ I.gaugePoints col, p.labels.map Prod.fst = LabelNames.pool.names := by
    intro col p hp
    obtain ⟨r, -, hr⟩ := List.mem_filterMap.mp hp
    obtain ⟨v, -, rfl⟩ := Option.map_eq_some_iff.mp hr
    rfl
  simp only [PromInput.families, List.mem_cons, List.not_mem_nil, or_false] at hf
  rcases hf with rfl | rfl | rfl | rfl | rfl | rfl | rfl | rfl | rfl | rfl | rfl | rfl | rfl
  · obtain ⟨⟨addr, h⟩, -, rfl⟩ := List.mem_map.mp hp
    rfl
  · obtain ⟨⟨addr, h⟩, -, rfl⟩ := List.mem_map.mp hp
    rfl
  · exact hgauge _ p hp
  · exact hgauge _ p hp
  · exact hgauge _ p hp
  · exact hgauge _ p hp
  · exact hgauge _ p hp
  · exact hgauge _ p hp
  · obtain ⟨r, -, hp⟩ := List.mem_flatMap.mp hp
    obtain ⟨s, -, rfl⟩ := List.mem_map.mp hp
    rfl
  · obtain ⟨⟨key, v⟩, -, rfl⟩ := List.mem_map.mp hp
    rfl
  · obtain ⟨r, -, rfl⟩ := List.mem_map.mp hp
    rfl
  · cases List.mem_singleton.mp hp
    rfl
  · cases List.mem_singleton.mp hp
    rfl

theorem isName_of_mem_names {n : LabelNames} {l : Str} (h : l ∈ n.names) : IsName isWord l := by
  revert l
  cases n <;> decide

theorem nodup_names (n : LabelNames) : n.names.Nodup := by
  cases n <;> decide

theorem isPlain_of_mem {I : PromInput} {f : Family} (hf : f ∈ I.families) {s : SampleLine}
    (hs : s ∈ f.samples) : s.IsPlain := by
  obtain ⟨p, hp, rfl⟩ := List.mem_map.mp hs
  refine ⟨f.about.isMetric, fun q hq => ?_, p.value.isWord⟩
  refine @isName_of_mem_names f.about.labels q.1 ?_
  rw [← names_of_mem hf hp]
  exact List.mem_map_of_mem hq

def Family.block (f : Family) : Block where
  comments := [("# HELP " ++ f.about.metric ++ ' ' :: f.about.help),
    ("# TYPE " ++ f.about.metric ++ " gauge")]
  samples := f.samples

theorem lines_eq (f : Family) :
    f.lines = f.block.comments ++ f.block.samples.map (lineText promEscape) := by
  simp only [Family.lines, Family.block, Family.samples, promSampleLine_eq, List.map_map]
  rfl

theorem comment_of_mem {f : Family} {c : Str} (hc : c ∈ f.block.comments) :
    isSkipped c = true ∧ '\n' ∉ c := by
  have hmetric := newline_not_mem_name f.about.isMetric (by decide)
  simp only [Family.block, List.mem_cons, List.not_mem_nil, or_false] at hc
  rcases hc with rfl | rfl
  · refine ⟨rfl, ?_⟩
    simp [hmetric, f.about.noBreak]
  · refine ⟨rfl, ?_⟩
    simp [hmetric]

theorem parse_prometheusMetrics (I : PromInput) : parse (prometheusMetrics I) = some I.samples := by
  have hpayload : prometheusMetrics I = payload promEscape (I.families.map Family.block) := by
    rw [prometheusMetrics, payload, List.flatMap_map, List.flatMap_congr fun f _ => lines_eq f]
  rw [hpayload, parse_payload undoes_promEscape newline_not_mem_promEscape]
  · rw [List.flatMap_map]
    rfl
  · intro b hb c hc
    obtain ⟨f, -, rfl⟩ := List.mem_map.mp hb
    exact comment_of_mem hc
  · intro b hb s hs
    obtain ⟨f, hf, rfl⟩ := List.mem_map.mp hb
    exact isPlain_of_mem hf hs
  · exact List.cons_ne_nil _ _

/-! ## No series twice -/

/-- The labels of the lines of a family have the same names, so two lines are of
one series when they have the same labels. -/
theorem Family.pairwise_samples_iff {I : PromInput} {f : Family} (hf : f ∈ I.families) :
    f.samples.Pairwise (fun s t => ¬ s.SameSeries t) ↔ (f.points.map Point.labels).Nodup := by
  rw [Family.samples, List.Nodup, List.pairwise_map, List.pairwise_map]
  refine List.Pairwise.iff_of_mem fun {p q} hp hq => not_congr ?_
  constructor
  · rintro ⟨-, hsame⟩
    have hnames := names_of_mem hf hp
    refine eq_of_same_labels (hnames.trans (names_of_mem hf hq).symm) ?_ hsame
    rw [hnames]
    exact nodup_names f.about.labels
  · intro heq
    exact ⟨rfl, fun r => iff_of_eq (congrArg (r ∈ ·) heq)⟩

theorem nodup_metrics (I : PromInput) : (I.families.map (fun f => f.about.metric)).Nodup := by
  show List.Nodup [hostReachable.metric, hostLastSample.metric, poolSize.metric, poolAlloc.metric,
    poolFree.metric, poolCapacity.metric, poolFragmentation.metric, poolDedupRatio.metric,
    poolHealthText.metric, poolErrorTotal.metric, poolForecast.metric, samplerPools.metric,
    scrapeTimestamp.metric]
  decide

/-- Each family has a metric of its own, so the families do not meet. -/
theorem pairwise_samples_iff (I : PromInput) : I.samples.Pairwise (fun s t => ¬ s.SameSeries t) ↔
    ∀ f ∈ I.families, (f.points.map Point.labels).Nodup := by
  have hapart : I.families.Pairwise
      (fun f g => ∀ s ∈ f.samples, ∀ t ∈ g.samples, ¬ s.SameSeries t) := by
    have hmetrics := nodup_metrics I
    rw [List.Nodup, List.pairwise_map] at hmetrics
    refine hmetrics.imp fun hne s hs t ht hsame => hne ?_
    obtain ⟨p, -, rfl⟩ := List.mem_map.mp hs
    obtain ⟨q, -, rfl⟩ := List.mem_map.mp ht
    exact hsame.1
  rw [PromInput.samples, List.pairwise_flatMap, and_iff_left hapart]
  exact forall₂_congr fun f hf => Family.pairwise_samples_iff hf

theorem nodup_map_of_imp {α β γ : Type} {l : List α} {f : α → β} {g : α → γ} (hg : (l.map g).Nodup)
    (h : ∀ a b, f a = f b → g a = g b) : (l.map f).Nodup := by
  rw [List.Nodup, List.pairwise_map] at hg ⊢
  exact hg.imp fun hne heq => hne (h _ _ heq)

theorem poolLabels_inj {host pool host' pool' : Str} :
    poolLabels host pool = poolLabels host' pool' ↔ (host, pool) = (host', pool') := by
  simp [poolLabels]

namespace PromInput

variable {I : PromInput}

/-- Each address stands once in the registry as it is read. -/
theorem nodup_hostLabels (I : PromInput) :
    (I.hostsCfg.entries.map (fun e => hostLabels e.1 e.2)).Nodup := by
  refine nodup_map_of_imp I.hostsCfg.nodup_keys fun a b heq => ?_
  exact (Prod.mk.inj (List.cons.inj heq).1).2

theorem nodup_gauge (h : (I.poolRows.map PoolMetric.key).Nodup) (col : PoolMetric → Option NumText) :
    ((I.gaugePoints col).map Point.labels).Nodup := by
  rw [List.Nodup, List.pairwise_map] at h ⊢
  refine List.Pairwise.filterMap _ ?_ h
  intro r s hne p hp q hq heq
  obtain ⟨v, -, rfl⟩ := Option.map_eq_some_iff.mp hp
  obtain ⟨w, -, rfl⟩ := Option.map_eq_some_iff.mp hq
  exact hne (poolLabels_inj.mp heq)

theorem nodup_health (h : (I.poolRows.map PoolMetric.key).Nodup) :
    (I.healthPoints.map Point.labels).Nodup := by
  rw [List.Nodup, List.pairwise_map] at h ⊢
  refine List.pairwise_flatMap.mpr ⟨fun r _ => ?_, h.imp fun hne p hp q hq heq => hne ?_⟩
  · have hstates : healthStates.Nodup := by decide
    refine List.pairwise_map.mpr (hstates.imp fun hne heq => hne ?_)
    simpa [poolLabels] using heq
  · obtain ⟨s, -, rfl⟩ := List.mem_map.mp hp
    obtain ⟨t, -, rfl⟩ := List.mem_map.mp hq
    exact poolLabels_inj.mp (List.append_inj heq rfl).1

theorem forecastLabels_iff : (I.forecastPoints.map Point.labels).Nodup ↔
    (I.poolRows.map PoolMetric.key).Nodup := by
  rw [forecastPoints, List.map_map, List.Nodup, List.Nodup, List.pairwise_map, List.pairwise_map]
  exact List.Pairwise.iff fun {r s} => not_congr poolLabels_inj

theorem errorLabels_iff : (I.errorPoints.map Point.labels).Nodup ↔
    (I.errState.keys.map partitionKey).Nodup := by
  rw [errorPoints, Dict.keys, List.map_map, List.map_map, List.Nodup, List.Nodup, List.pairwise_map,
    List.pairwise_map]
  exact List.Pairwise.iff fun {r s} => not_congr poolLabels_inj

/-- The newest rows and the keys of the error counts are the sources that may
give a series twice. -/
theorem once_iff : I.samples.Pairwise (fun s t => ¬ s.SameSeries t) ↔
    (I.poolRows.map PoolMetric.key).Nodup ∧ (I.errState.keys.map partitionKey).Nodup := by
  rw [pairwise_samples_iff]
  constructor
  · intro h
    constructor
    · exact forecastLabels_iff.mp (h ⟨poolForecast, I.forecastPoints⟩ (by simp [families]))
    · exact errorLabels_iff.mp (h ⟨poolErrorTotal, I.errorPoints⟩ (by simp [families]))
  · rintro ⟨hrows, herr⟩ f hf
    simp only [families, List.mem_cons, List.not_mem_nil, or_false] at hf
    have hhosts := nodup_hostLabels I
    rcases hf with rfl | rfl | rfl | rfl | rfl | rfl | rfl | rfl | rfl | rfl | rfl | rfl | rfl
    · rw [reachablePoints, List.map_map]
      exact hhosts
    · rw [lastSamplePoints, List.map_map]
      exact hhosts
    · exact nodup_gauge hrows _
    · exact nodup_gauge hrows _
    · exact nodup_gauge hrows _
    · exact nodup_gauge hrows _
    · exact nodup_gauge hrows _
    · exact nodup_gauge hrows _
    · exact nodup_health hrows
    · exact errorLabels_iff.mpr herr
    · exact forecastLabels_iff.mpr hrows
    · exact List.nodup_singleton _
    · exact List.nodup_singleton _

end PromInput

/-! ## The newest rows -/

theorem mem_latestPoolRows {now age : Int} {table : List PoolMetric} {r : PoolMetric} :
    r ∈ latestPoolRows (some age) now table ↔ r ∈ table ∧ now - age ≤ r.timestamp ∧
      ∀ s ∈ table, s.key = r.key → s.timestamp ≤ r.timestamp := by
  have hsince : ∀ s, s ∈ sampledSince (some age) now table ↔
      s ∈ table ∧ now - age ≤ (s.timestamp : Int) := by
    intro s
    rw [sampledSince, List.mem_filter, decide_eq_true_eq]
  rw [latestPoolRows, mem_latest]
  refine and_congr_right fun hr => ?_
  constructor
  · rintro ⟨⟨s, hs, -, htime⟩, hall⟩
    have hwindow : now - age ≤ (r.timestamp : Int) := htime ▸ ((hsince s).mp hs).2
    refine ⟨hwindow, fun u hu hkey => ?_⟩
    by_cases hut : u.timestamp ≤ r.timestamp
    · exact hut
    · exact hall u ((hsince u).mpr ⟨hu, by omega⟩) hkey
  · rintro ⟨hwindow, hall⟩
    exact ⟨⟨r, (hsince r).mpr ⟨hr, hwindow⟩, rfl, rfl⟩, fun s hs hkey => hall s ((hsince s).mp hs).1 hkey⟩

/-- A pool stands twice among the newest rows when its newest second has two. -/
theorem nodup_latestPoolRows_iff {now : Int} {table : List PoolMetric} :
    ((latestPoolRows (some latestPoolMaxAge) now table).map PoolMetric.key).Nodup ↔
      OneNewestRow now table := by
  have hnot : ∀ r ∈ table, r ∉ latestPoolRows (some latestPoolMaxAge) now table ↔
      (r.timestamp : Int) < now - latestPoolMaxAge ∨
        ∃ u ∈ table, u.key = r.key ∧ r.timestamp < u.timestamp := by
    intro r hr
    rw [mem_latestPoolRows]
    constructor
    · intro h
      by_contra hneither
      obtain ⟨hwindow, hnewest⟩ := not_or.mp hneither
      refine h ⟨hr, by omega, fun s hs hkey => ?_⟩
      by_contra hlt
      exact hnewest ⟨s, hs, hkey, by omega⟩
    · rintro hor ⟨-, hwindow, hall⟩
      rcases hor with hold | ⟨u, hu, hkey, hlt⟩
      · omega
      · have hle := hall u hu hkey
        omega
  rw [latestPoolRows, nodup_latest_iff]
  refine List.Pairwise.iff_of_mem fun {r s} hr _ => ?_
  exact forall₂_congr fun _ _ => hnot r hr

/-! ## The keys of the error counts -/

theorem partitionKey_of_no_colon {key : Str} (h : ':' ∉ key) : partitionKey key = (key, []) := by
  have hall : ∀ c ∈ key, decide (c ≠ ':') = true :=
    fun c hc => decide_eq_true fun heq => h (heq ▸ hc)
  rw [partitionKey, List.takeWhile_eq_self_iff.mpr hall, List.dropWhile_eq_nil_iff.mpr hall, List.drop_nil]

theorem partitionKey_cases (key : Str) : (':' ∉ key ∧ partitionKey key = (key, [])) ∨
    ∃ address pool, ':' ∉ address ∧ key = address ++ ':' :: pool ∧ partitionKey key = (address, pool) := by
  by_cases h : ':' ∈ key
  · obtain ⟨address, pool, rfl, hnot⟩ := List.eq_append_cons_of_mem h
    exact .inr ⟨address, pool, hnot, rfl, partition_key hnot⟩
  · exact .inl ⟨h, partitionKey_of_no_colon h⟩

/-- Two keys are cut alike when one has no colon and the other is the same with a
colon behind it. -/
theorem eq_or_colon_of_partitionKey_eq {key key' : Str} (h : partitionKey key = partitionKey key') :
    key = key' ∨ (':' ∉ key ∧ key' = key ++ [':']) ∨ (':' ∉ key' ∧ key = key' ++ [':']) := by
  rcases partitionKey_cases key with ⟨hnot, hcut⟩ | ⟨address, pool, hnot, hkey, hcut⟩
  · rcases partitionKey_cases key' with ⟨hnot', hcut'⟩ | ⟨address', pool', hnot', hkey', hcut'⟩
    · exact .inl (Prod.mk.inj (hcut.symm.trans (h.trans hcut'))).1
    · obtain ⟨rfl, rfl⟩ := Prod.mk.inj (hcut.symm.trans (h.trans hcut'))
      exact .inr (.inl ⟨hnot, hkey'⟩)
  · rcases partitionKey_cases key' with ⟨hnot', hcut'⟩ | ⟨address', pool', hnot', hkey', hcut'⟩
    · obtain ⟨rfl, rfl⟩ := Prod.mk.inj (hcut.symm.trans (h.trans hcut'))
      exact .inr (.inr ⟨hnot', hkey⟩)
    · obtain ⟨rfl, rfl⟩ := Prod.mk.inj (hcut.symm.trans (h.trans hcut'))
      exact .inl (hkey.trans hkey'.symm)

theorem nodup_partitionKey_iff {errState : Dict Str StateValue} :
    (errState.keys.map partitionKey).Nodup ↔ KeysApart errState := by
  rw [List.nodup_map_iff_inj_on errState.nodup_keys]
  constructor
  · intro h key hkey hnot hcolon
    have hcut : partitionKey key = partitionKey (key ++ [':']) := by
      rw [partitionKey_of_no_colon hnot, partition_key hnot]
    exact absurd (h key hkey _ hcolon hcut) (by simp)
  · intro h key hkey key' hkey' hcut
    rcases eq_or_colon_of_partitionKey_eq hcut with heq | ⟨hnot, rfl⟩ | ⟨hnot, rfl⟩
    · exact heq
    · exact absurd hkey' (h key hkey hnot)
    · exact absurd hkey (h key' hkey' hnot)

/-- A scraper gets what was written, and each series once, if and only if no
pool has two rows of its newest second and no two keys of the error counts are
cut alike. -/
theorem scrapeRight_iff (I : PromInput) :
    ScrapeRight I ↔ OneNewestRow I.now I.poolMetrics ∧ KeysApart I.errState := by
  have honce : I.samples.Pairwise (fun s t => ¬ s.SameSeries t) ↔
      OneNewestRow I.now I.poolMetrics ∧ KeysApart I.errState :=
    PromInput.once_iff.trans (and_congr nodup_latestPoolRows_iff nodup_partitionKey_iff)
  exact ⟨fun h => honce.mp h.once, fun h => ⟨parse_prometheusMetrics I, honce.mpr h⟩⟩

/-! ## A pool that is sampled twice in a second -/

def tankRow : PoolMetric where
  timestamp := 1700000000
  host := "10.0.0.7"
  pool := "tank"
  sizeBytes := some (NumText.ofNat 1000)
  allocBytes := some (NumText.ofNat 250)
  freeBytes := some (NumText.ofNat 750)
  fragPct := some (NumText.ofNat 3)
  capPct := some (NumText.ofNat 25)
  health := some "ONLINE"
  dedupRatio := none

/-- The round of the sampler and a sample on request have both stored the pool. -/
def sampledTwice : PromInput where
  hosts := []
  hostState := Dict.empty
  errState := Dict.empty
  poolMetrics := [tankRow, { tankRow with allocBytes := some (NumText.ofNat 251) }]
  forecast := fun _ _ => none
  now := 1700000060
  scrapedAt := 1700000060

/-- Both rows are the newest, and each series of the pool is there twice. -/
theorem sampledTwice_not_right : ¬ ScrapeRight sampledTwice := by
  intro h
  have hrows := nodup_latestPoolRows_iff.mp (PromInput.once_iff.mp h.once).1
  obtain ⟨hfirst, -⟩ := List.pairwise_cons.mp hrows
  rcases hfirst _ List.mem_cons_self rfl rfl with hold | ⟨u, hu, -, hlt⟩
  · exact absurd hold (by decide)
  · rcases List.mem_cons.mp hu with rfl | hu
    · exact absurd hlt (by decide)
    · cases List.mem_singleton.mp hu
      exact absurd hlt (by decide)

end PveZfsTool
