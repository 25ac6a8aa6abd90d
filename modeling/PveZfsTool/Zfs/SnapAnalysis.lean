import PveZfsTool.Lib.Rounding
import PveZfsTool.Lib.Tally
import PveZfsTool.Zfs.SnapAges

/-!
# The snapshot check

`analyze_snapshots` of `app/snapshot_analysis.py` goes over the groups that
`get_snapshot_ages` has filed, a dataset and a label each, and makes statistics
for each label.  In the timestamps of a group it looks for gaps: intervals that
are much longer than the one in the middle.

* `groupGaps_spec`, `length_groupGaps` and `groupGaps_even` are about the gaps of
  one group.
* `get?_perLabel` says that the statistics of a label are those of its groups,
  one after the other.
* `counted` and `gapsRight` are the results about the whole report.

The hours are exact here, where the code rounds floating-point numbers.
-/

namespace PveZfsTool

open Text Median Rounding

/-! ## Constants -/

/-- `MAX_AGE` -/
def maxAges : List (Str × Int) :=
  [("frequent", 3600), ("hourly", 7200), ("daily", 90000), ("weekly", 691200), ("monthly", 2764800)]

/-- `GAP_FACTOR` -/
def gapFactor : Rat := 3 / 2

/-- `GAP_MIN_DELTAS` -/
def gapMinDeltas : Nat := 3

/-- `REPLICA_STALE_FACTOR` -/
def replicaStaleFactor : Int := 2

/-- `LEADING_GAP_TOLERANCE` -/
def leadingGapTolerance : Int := 3600

/-- `format_age` -/
def formatAge (seconds : Int) : Str :=
  if seconds < 0 then "0s"
  else if seconds < 60 then ofInt seconds ++ "s"
  else if seconds < 3600 then ofInt (seconds / 60) ++ "m"
  else if seconds < 86400 then
    ofInt (seconds / 3600) ++ "h " ++ ofInt (seconds % 3600 / 60) ++ "m"
  else ofInt (seconds / 86400) ++ "d " ++ ofInt (seconds % 86400 / 3600) ++ "h"

/-! ## The report -/

/-- The arguments of `analyze_snapshots`, and the clock. -/
structure AnalysisConfig where
  retentionCfg : Dict Str Int
  autosnapDisabled : List Str
  datasetCreation : Dict Str Int
  now : Int

structure CountMismatch where
  dataset : Str
  actual : Nat
  configured : Int

structure StaleDataset where
  dataset : Str
  age : Str
  ageSec : Int
  threshold : Str
  thresholdSec : Int

structure SnapshotGap where
  dataset : Str
  gapHours : Rat
  fromEpoch : Int
  toEpoch : Int
  fromAge : Str
  toAge : Str
  thresholdHours : Rat

/-- The statistics of a label.  The last two are set in the end. -/
structure LabelStats where
  totalSnapshots : Nat
  datasetCount : Nat
  configuredKeep : Option Int
  oldestAgeSec : Int
  newestAgeSec : Int
  countMismatches : List CountMismatch
  excludedDatasets : Nat
  staleDatasets : List StaleDataset
  gaps : List SnapshotGap
  perDatasetAvg : Int
  newestAgeHuman : Str

structure ManualExample where
  dataset : Str
  name : Str
  age : Str
  ageSec : Int
  creation : Int

structure ManualSummary where
  totalCount : Nat
  datasetCount : Nat
  examples : List ManualExample

/-- The result of `analyze_snapshots`.  `manualSnapshots` is empty where there
are no manual snapshots. -/
structure SnapshotReport where
  perLabel : Dict Str LabelStats
  missingLabels : Dict Str (Nat × List Str)
  manualSnapshots : Option ManualSummary
  datasetsAnalyzed : Nat
  timestamp : Int

/-! ## Gaps -/

/-- Each two timestamps that follow one another. -/
def intervals (timestamps : List Int) : List (Int × Int) := timestamps.zip timestamps.tail

def width (span : Int × Int) : Int := span.2 - span.1

/-- `deltas` -/
def deltas (timestamps : List Int) : List Int := (intervals timestamps).map width

/-- `cadence`: the upper of the two in the middle -/
def cadence? (timestamps : List Int) : Option Int :=
  (sorted (deltas timestamps))[(deltas timestamps).length / 2]?

/-- The snapshot is at the creation of the dataset or before. -/
def isColdStart (cfg : AnalysisConfig) (dataset : Str) (timestamp : Int) : Bool :=
  (cfg.datasetCreation.get? dataset).any (fun creation => timestamp ≤ creation + leadingGapTolerance)

def snapshotGap (cfg : AnalysisConfig) (dataset : Str) (threshold : Rat) (span : Int × Int) :
    SnapshotGap where
  dataset := dataset
  gapHours := roundTenth (width span / 3600)
  fromEpoch := span.1
  toEpoch := span.2
  fromAge := formatAge (cfg.now - span.1)
  toAge := formatAge (cfg.now - span.2)
  thresholdHours := roundTenth (threshold / 3600)

/-- The gaps in the timestamps of a group. -/
def groupGaps (cfg : AnalysisConfig) (dataset : Str) (timestamps : List Int) : List SnapshotGap :=
  if gapMinDeltas ≤ (deltas timestamps).length then
    match cadence? timestamps with
    | none => []
    | some cadence =>
        let threshold : Rat := cadence * gapFactor
        if 0 < threshold then
          (intervals timestamps).filterMap (fun span =>
            if (width span : Rat) ≤ threshold then none
            else if isColdStart cfg dataset span.1 = true then none
            else some (snapshotGap cfg dataset threshold span))
        else []
  else []

/-! ## The loop over the groups -/

/-- The statistics before the first group of a label. -/
def LabelStats.start (cfg : AnalysisConfig) (label : Str) (ageSec : Int) : LabelStats where
  totalSnapshots := 0
  datasetCount := 0
  configuredKeep := cfg.retentionCfg.get? label
  oldestAgeSec := 0
  newestAgeSec := ageSec
  countMismatches := []
  excludedDatasets := 0
  staleDatasets := []
  gaps := []
  perDatasetAvg := 0
  newestAgeHuman := []

/-- The entry of a dataset whose count is not the configured one. -/
def countMismatch (cfg : AnalysisConfig) (dataset label : Str) (info : AgeInfo) : List CountMismatch :=
  match cfg.retentionCfg.get? label with
  | none => []
  | some configured =>
      if configured ≠ 0 ∧ (info.count : Int) ≠ configured then
        [{ dataset := dataset, actual := info.count, configured := configured }]
      else []

/-- The entry of a dataset whose newest snapshot is too old. -/
def staleDataset (cfg : AnalysisConfig) (dataset label : Str) (ageSec : Int) : List StaleDataset :=
  let maxAge := (maxAges.lookup label).getD 2764800
  let threshold := if dataset ∈ cfg.autosnapDisabled then maxAge * replicaStaleFactor else maxAge
  if threshold < ageSec then
    [{ dataset := dataset
       age := formatAge ageSec
       ageSec := ageSec
       threshold := formatAge threshold
       thresholdSec := threshold }]
  else []

/-- A dataset, a label and what is filed under them. -/
structure Group where
  dataset : Str
  label : Str
  info : AgeInfo

/-- The statistics with one more group. -/
def LabelStats.add (stats : LabelStats) (cfg : AnalysisConfig) (g : Group) : LabelStats :=
  let ageSec := cfg.now - g.info.newest
  let disabled := decide (g.dataset ∈ cfg.autosnapDisabled)
  { stats with
    totalSnapshots := stats.totalSnapshots + g.info.count
    datasetCount := stats.datasetCount + 1
    newestAgeSec := if ageSec < stats.newestAgeSec then ageSec else stats.newestAgeSec
    oldestAgeSec := if stats.oldestAgeSec < ageSec then ageSec else stats.oldestAgeSec
    excludedDatasets := if disabled then stats.excludedDatasets + 1 else stats.excludedDatasets
    countMismatches := stats.countMismatches ++
      (if disabled then [] else countMismatch cfg g.dataset g.label g.info)
    staleDatasets := stats.staleDatasets ++ staleDataset cfg g.dataset g.label ageSec
    gaps := stats.gaps ++ groupGaps cfg g.dataset g.info.timestamps }

/-- The statistics of a label after one more group of it. -/
def addGroup (cfg : AnalysisConfig) (stats : Option LabelStats) (g : Group) : LabelStats :=
  (stats.getD (.start cfg g.label (cfg.now - g.info.newest))).add cfg g

/-- The groups in the order of the two loops. -/
def SnapshotAges.groups (ages : SnapshotAges) : List Group :=
  ages.datasets.entries.flatMap (fun e => e.2.entries.map (fun f => ⟨e.1, f.1, f.2⟩))

/-- `label_global` after the loops -/
def labelGlobal (cfg : AnalysisConfig) (ages : SnapshotAges) : Dict Str LabelStats :=
  ages.groups.foldl (fun d g => d.alter g.label (fun stats => addGroup cfg stats g)) Dict.empty

/-- The average and the age in words. -/
def LabelStats.summarize (stats : LabelStats) : LabelStats :=
  { stats with
    perDatasetAvg := roundEven ((stats.totalSnapshots : Rat) / (max stats.datasetCount 1 : Nat))
    newestAgeHuman := formatAge stats.newestAgeSec }

/-- `datasets_without_labels`.  The order of the expected labels is that of a
set. -/
def datasetsWithoutLabels (cfg : AnalysisConfig) (ages : SnapshotAges) : Dict Str (List Str) :=
  (ages.datasets.entries.flatMap (fun e =>
      (cfg.retentionCfg.keys.filter (fun label => label ∉ e.2.keys)).map (fun label =>
        (label, e.1)))).foldl (fun d p => d.push p.1 p.2) Dict.empty

/-- `manual_summary` -/
def manualSummary (now : Int) (manual : Dict Str (List (Str × Int))) : Option ManualSummary :=
  if manual.entries = [] then none
  else some
    { totalCount := (manual.entries.map (fun e => e.2.length)).sum
      datasetCount := manual.entries.length
      examples := ((manual.entries.take 15).flatMap (fun e =>
        (e.2.take 5).map (fun s =>
          { dataset := e.1
            name := s.1
            age := formatAge (now - s.2)
            ageSec := now - s.2
            creation := s.2 }))).take 20 }

/-- `analyze_snapshots` -/
def analyzeSnapshots (cfg : AnalysisConfig) (ages : SnapshotAges) : SnapshotReport where
  perLabel := (labelGlobal cfg ages).mapValues LabelStats.summarize
  missingLabels := (datasetsWithoutLabels cfg ages).mapValues (fun ds => (ds.length, ds.take 10))
  manualSnapshots := manualSummary cfg.now ages.manual
  datasetsAnalyzed := ages.datasets.entries.length
  timestamp := cfg.now

/-! ## The gaps of one group -/

section Gaps

variable {cfg : AnalysisConfig} {dataset : Str} {timestamps : List Int} {gap : SnapshotGap}

/-- A group with a gap has enough intervals, and a middle one above zero. -/
theorem exists_cadence (hgap : gap ∈ groupGaps cfg dataset timestamps) :
    ∃ cadence, gapMinDeltas ≤ (deltas timestamps).length ∧ cadence? timestamps = some cadence ∧
      0 < (cadence : Rat) * gapFactor ∧
      groupGaps cfg dataset timestamps = (intervals timestamps).filterMap (fun span =>
        if (width span : Rat) ≤ cadence * gapFactor then none
        else if isColdStart cfg dataset span.1 = true then none
        else some (snapshotGap cfg dataset (cadence * gapFactor) span)) := by
  unfold groupGaps at hgap ⊢
  by_cases hlength : gapMinDeltas ≤ (deltas timestamps).length
  · rw [if_pos hlength] at hgap ⊢
    cases hcadence : cadence? timestamps with
    | none =>
      rw [hcadence] at hgap
      cases hgap
    | some cadence =>
      rw [hcadence] at hgap
      dsimp only at hgap ⊢
      by_cases hpos : 0 < (cadence : Rat) * gapFactor
      · exact ⟨cadence, hlength, rfl, hpos, if_pos hpos⟩
      · rw [if_neg hpos] at hgap
        cases hgap
  · rw [if_neg hlength] at hgap
    cases hgap

theorem groupGaps_spec (hgap : gap ∈ groupGaps cfg dataset timestamps) :
    gap.dataset = dataset ∧ 3 ≤ (deltas timestamps).length ∧ ∃ cadence,
      cadence? timestamps = some cadence ∧ (gap.fromEpoch, gap.toEpoch) ∈ intervals timestamps ∧
        (cadence : Rat) * (3 / 2) < (gap.toEpoch - gap.fromEpoch : Int) := by
  obtain ⟨cadence, hlength, hcadence, -, heq⟩ := exists_cadence hgap
  rw [heq] at hgap
  obtain ⟨span, hspan, hsome⟩ := List.mem_filterMap.mp hgap
  split_ifs at hsome with hshort hcold
  obtain rfl := Option.some.inj hsome
  exact ⟨rfl, hlength, cadence, hcadence, hspan, not_le.mp hshort⟩

/-- Fewer than half of the intervals are reported. -/
theorem length_groupGaps (hne : deltas timestamps ≠ []) :
    2 * (groupGaps cfg dataset timestamps).length < (deltas timestamps).length := by
  have hpos := List.length_pos_iff.mpr hne
  by_cases hnil : groupGaps cfg dataset timestamps = []
  · rw [hnil, List.length_nil]
    omega
  · obtain ⟨gap, hgap⟩ := List.exists_mem_of_ne_nil _ hnil
    obtain ⟨cadence, -, hcadence, hcpos, heq⟩ := exists_cadence hgap
    have hupper : 2 * (deltas timestamps).countP (cadence < ·) < (deltas timestamps).length :=
      countP_lt_upper hcadence
    -- what is reported is wider than the middle one
    have hle : (groupGaps cfg dataset timestamps).length ≤ (deltas timestamps).countP (cadence < ·) := by
      rw [heq, List.length_filterMap_eq_countP, deltas, List.countP_map]
      refine List.countP_mono_left (fun span _ hsome => ?_)
      have hwide : (cadence : Rat) * gapFactor < width span := by
        by_contra hshort
        rw [if_pos (not_lt.mp hshort)] at hsome
        cases hsome
      have hcast : (cadence : Rat) < width span := by
        rw [gapFactor] at hwide hcpos
        linarith
      exact decide_eq_true (show cadence < width span by exact_mod_cast hcast)
    omega

/-- An evenly spaced series has no gap. -/
theorem groupGaps_even {d : Int} (heven : ∀ w ∈ deltas timestamps, w = d) :
    groupGaps cfg dataset timestamps = [] := by
  by_contra hne
  obtain ⟨gap, hgap⟩ := List.exists_mem_of_ne_nil _ hne
  obtain ⟨cadence, -, hcadence, hpos, -⟩ := exists_cadence hgap
  obtain ⟨-, -, cadence', hcadence', hspan, hwide⟩ := groupGaps_spec hgap
  obtain rfl := Option.some.inj (hcadence.symm.trans hcadence')
  have hmiddle : cadence = d := by
    have hmem : cadence ∈ sorted (deltas timestamps) := List.mem_of_getElem? hcadence
    exact heven cadence ((perm_sorted _).mem_iff.mp hmem)
  have hwidth : gap.toEpoch - gap.fromEpoch = d := heven _ (List.mem_map_of_mem (f := width) hspan)
  rw [hwidth, ← hmiddle] at hwide
  rw [gapFactor] at hpos
  linarith

end Gaps

/-! ## The statistics of a label -/

section Labels

variable {cfg : AnalysisConfig} {ages : SnapshotAges} {label dataset : Str}

/-- The groups of a label. -/
def groupsOf (label : Str) (gs : List Group) : List Group := gs.filter (fun g => g.label = label)

/-- The statistics after some groups of a label. -/
def statsOf (cfg : AnalysisConfig) (gs : List Group) : Option LabelStats :=
  gs.foldl (fun stats g => some (addGroup cfg stats g)) none

theorem statsOf_append (gs : List Group) (g : Group) :
    statsOf cfg (gs ++ [g]) = some (addGroup cfg (statsOf cfg gs) g) := by
  rw [statsOf, List.foldl_append]
  rfl

theorem get?_labelGlobal : (labelGlobal cfg ages).get? label = statsOf cfg (groupsOf label ages.groups) := by
  unfold labelGlobal
  induction ages.groups using List.reverseRecOn with
  | nil => rfl
  | append_singleton gs g ih =>
    rw [List.foldl_append, List.foldl_cons, List.foldl_nil, Dict.get?_alter]
    by_cases hlabel : label = g.label
    · subst hlabel
      have hone : groupsOf g.label (gs ++ [g]) = groupsOf g.label gs ++ [g] := by
        simp [groupsOf]
      rw [if_pos rfl, hone, statsOf_append, ih]
    · have hsame : groupsOf label (gs ++ [g]) = groupsOf label gs := by
        simp [groupsOf, Ne.symm hlabel]
      rw [if_neg hlabel, hsame, ih]

/-- The statistics have the snapshots and the gaps of all groups. -/
theorem statsOf_spec {gs : List Group} {stats : LabelStats} (h : statsOf cfg gs = some stats) :
    stats.totalSnapshots = (gs.map (fun g => g.info.count)).sum ∧
      stats.gaps = gs.flatMap (fun g => groupGaps cfg g.dataset g.info.timestamps) := by
  induction gs using List.reverseRecOn generalizing stats with
  | nil => cases h
  | append_singleton gs g ih =>
    rw [statsOf_append] at h
    obtain rfl := Option.some.inj h
    rw [List.map_append, List.sum_append, List.flatMap_append, List.map_singleton, List.sum_singleton,
      List.flatMap_singleton]
    cases hbefore : statsOf cfg gs with
    | none =>
      have hnil : gs = [] := by
        obtain rfl | ⟨init, last, rfl⟩ := List.eq_nil_or_concat gs
        · rfl
        · rw [List.concat_eq_append, statsOf_append] at hbefore
          cases hbefore
      subst hnil
      exact ⟨rfl, rfl⟩
    | some before =>
      obtain ⟨htotal, hgaps⟩ := ih hbefore
      rw [← htotal, ← hgaps]
      exact ⟨rfl, rfl⟩

theorem get?_perLabel {stats : LabelStats}
    (h : (analyzeSnapshots cfg ages).perLabel.get? label = some stats) :
    stats.totalSnapshots = ((groupsOf label ages.groups).map (fun g => g.info.count)).sum ∧
      stats.gaps = (groupsOf label ages.groups).flatMap (fun g =>
        groupGaps cfg g.dataset g.info.timestamps) := by
  have hget : ((labelGlobal cfg ages).get? label).map LabelStats.summarize = some stats :=
    Dict.get?_mapValues.symm.trans h
  obtain ⟨before, hbefore, rfl⟩ := Option.map_eq_some_iff.mp hget
  have hspec := statsOf_spec (get?_labelGlobal.symm.trans hbefore)
  exact ⟨hspec.1, hspec.2⟩

theorem mem_groups {g : Group} : g ∈ ages.groups ↔ ages.info? g.dataset g.label = some g.info := by
  unfold SnapshotAges.groups SnapshotAges.info?
  rw [List.mem_flatMap, Option.bind_eq_some_iff]
  constructor
  · rintro ⟨⟨ds, labels⟩, he, hg⟩
    obtain ⟨⟨label, info⟩, hf, rfl⟩ := List.mem_map.mp hg
    exact ⟨labels, Dict.mem_entries.mp he, Dict.mem_entries.mp hf⟩
  · rintro ⟨labels, hds, hlabel⟩
    exact ⟨(g.dataset, labels), Dict.mem_entries.mpr hds,
      List.mem_map.mpr ⟨(g.label, g.info), Dict.mem_entries.mpr hlabel, rfl⟩⟩

/-- A dataset and a label make one group. -/
theorem nodup_groups (ages : SnapshotAges) :
    (ages.groups.map (fun g => (g.dataset, g.label))).Nodup := by
  have hmap : ages.groups.map (fun g => (g.dataset, g.label)) =
      ages.datasets.entries.flatMap (fun e => e.2.keys.map (fun label => (e.1, label))) := by
    rw [SnapshotAges.groups, List.map_flatMap]
    simp only [List.map_map, Dict.keys]
    rfl
  rw [hmap, List.nodup_flatMap]
  constructor
  · intro e _
    exact (Dict.nodup_keys e.2).map (fun _ _ h => (Prod.mk.inj h).2)
  · have hdistinct := ages.datasets.distinct
    rw [List.Nodup, List.pairwise_map] at hdistinct
    refine hdistinct.imp (fun {e e'} hne => ?_)
    intro p hp hp'
    obtain ⟨_, -, rfl⟩ := List.mem_map.mp hp
    obtain ⟨_, -, heq⟩ := List.mem_map.mp hp'
    exact hne (Prod.mk.inj heq).1.symm

theorem nodup_groupsOf (ages : SnapshotAges) (label : Str) :
    ((groupsOf label ages.groups).map Group.dataset).Nodup := by
  have hsub : ((groupsOf label ages.groups).map (fun g => (g.dataset, g.label))).Nodup :=
    (nodup_groups ages).sublist (List.Sublist.map _ List.filter_sublist)
  have hpairs : (groupsOf label ages.groups).map (fun g => (g.dataset, g.label)) =
      ((groupsOf label ages.groups).map Group.dataset).map (fun ds => (ds, label)) := by
    rw [List.map_map]
    refine List.map_congr_left (fun g hg => ?_)
    have hlabel : g.label = label := by simpa using (List.mem_filter.mp hg).2
    rw [← hlabel]
    rfl
  rw [hpairs] at hsub
  exact hsub.of_map _

/-- Of gaps that are listed by groups, those of one dataset are the gaps of its
group. -/
theorem filter_flatMap_groups {gs : List Group} (hdistinct : (gs.map Group.dataset).Nodup) {g : Group}
    (hg : g ∈ gs) :
    (gs.flatMap (fun g => groupGaps cfg g.dataset g.info.timestamps)).filter
        (fun gap => gap.dataset = g.dataset) = groupGaps cfg g.dataset g.info.timestamps := by
  have hown : ∀ g' : Group, ∀ gap ∈ groupGaps cfg g'.dataset g'.info.timestamps,
      gap.dataset = g'.dataset := fun g' gap hgap => (groupGaps_spec hgap).1
  induction gs with
  | nil => cases hg
  | cons g' gs ih =>
    rw [List.map_cons, List.nodup_cons] at hdistinct
    rw [List.flatMap_cons, List.filter_append]
    by_cases hsame : g'.dataset = g.dataset
    · have hfirst : g = g' := by
        obtain rfl | hg := List.mem_cons.mp hg
        · rfl
        · exact absurd (hsame ▸ List.mem_map_of_mem hg) hdistinct.1
      subst hfirst
      have hkeep : (groupGaps cfg g.dataset g.info.timestamps).filter
          (fun gap => gap.dataset = g.dataset) = groupGaps cfg g.dataset g.info.timestamps :=
        List.filter_eq_self.mpr (fun gap hgap => decide_eq_true (hown g gap hgap))
      have hdrop : (gs.flatMap (fun g => groupGaps cfg g.dataset g.info.timestamps)).filter
          (fun gap => gap.dataset = g.dataset) = [] := by
        rw [List.filter_eq_nil_iff]
        intro gap hgap heq
        obtain ⟨g', hg', hgap'⟩ := List.mem_flatMap.mp hgap
        have hdataset : g'.dataset = g.dataset := (hown g' gap hgap').symm.trans (of_decide_eq_true heq)
        exact hdistinct.1 (hdataset ▸ List.mem_map_of_mem hg')
      rw [hkeep, hdrop, List.append_nil]
    · have hg : g ∈ gs := by
        obtain rfl | hg := List.mem_cons.mp hg
        · exact absurd rfl hsame
        · exact hg
      have hdrop : (groupGaps cfg g'.dataset g'.info.timestamps).filter
          (fun gap => gap.dataset = g.dataset) = [] := by
        rw [List.filter_eq_nil_iff]
        intro gap hgap heq
        exact hsame ((hown g' gap hgap).symm.trans (of_decide_eq_true heq))
      rw [hdrop, List.nil_append, ih hdistinct.2 hg]

/-- The gaps that the report has for a label and a dataset are those of the
group. -/
theorem filter_gaps {stats : LabelStats} {info : AgeInfo}
    (h : (analyzeSnapshots cfg ages).perLabel.get? label = some stats)
    (hinfo : ages.info? dataset label = some info) :
    stats.gaps.filter (fun gap => gap.dataset = dataset) = groupGaps cfg dataset info.timestamps := by
  have hg : (⟨dataset, label, info⟩ : Group) ∈ groupsOf label ages.groups :=
    List.mem_filter.mpr ⟨mem_groups.mpr hinfo, by simp⟩
  rw [(get?_perLabel h).2]
  exact filter_flatMap_groups (nodup_groupsOf ages label) hg

end Labels

/-! ## The whole report -/

section Report

variable {cfg : AnalysisConfig} {tags : List Str} {stdout label dataset : Str}

/-- The number that the report has for a label. -/
def SnapshotReport.total (report : SnapshotReport) (label : Str) : Nat :=
  ((report.perLabel.get? label).map LabelStats.totalSnapshots).getD 0

/-- The number of manual snapshots in the report. -/
def SnapshotReport.manualTotal (report : SnapshotReport) : Nat :=
  (report.manualSnapshots.map ManualSummary.totalCount).getD 0

theorem countP_labelled (snaps : List ListedSnapshot) :
    (labelled tags snaps dataset label).length =
      (snaps.filter (fun s => labelOf tags s.name = some label)).countP (fun s => s.dataset = dataset) := by
  rw [labelled, List.countP_eq_length_filter, List.filter_filter]

/-- The groups of a label have all snapshots with the label. -/
theorem sum_groupsOf :
    ((groupsOf label (listingAges tags stdout).groups).map (fun g => g.info.count)).sum =
      (listedSnapshots stdout).countP (fun s => labelOf tags s.name = some label) := by
  have hgroup : ∀ g ∈ groupsOf label (listingAges tags stdout).groups,
      (listingAges tags stdout).info? g.dataset label = some g.info := by
    intro g hg
    obtain ⟨hmem, hlabel⟩ := List.mem_filter.mp hg
    rw [← of_decide_eq_true hlabel]
    exact mem_groups.mp hmem
  have hcount : (groupsOf label (listingAges tags stdout).groups).map (fun g => g.info.count) =
      ((groupsOf label (listingAges tags stdout).groups).map Group.dataset).map (fun ds =>
        ((listedSnapshots stdout).filter (fun s => labelOf tags s.name = some label)).countP
          (fun s => s.dataset = ds)) := by
    rw [List.map_map]
    refine List.map_congr_left (fun g hg => ?_)
    obtain ⟨hconsistent, hperm⟩ := info?_spec (hgroup g hg)
    show g.info.count = List.countP _ _
    rw [hconsistent.count, hperm.length_eq, List.length_map, countP_labelled]
  have hcover : ∀ s ∈ (listedSnapshots stdout).filter (fun s => labelOf tags s.name = some label),
      s.dataset ∈ (groupsOf label (listingAges tags stdout).groups).map Group.dataset := by
    intro s hs
    obtain ⟨hlisted, hlabel⟩ := List.mem_filter.mp hs
    cases hinfo : (listingAges tags stdout).info? s.dataset label with
    | none =>
      have hmem : s ∈ labelled tags (listedSnapshots stdout) s.dataset label :=
        List.mem_filter.mpr ⟨hlisted, by simpa using hlabel⟩
      rw [info?_eq_none.mp hinfo] at hmem
      cases hmem
    | some info =>
      have hmem : (⟨s.dataset, label, info⟩ : Group) ∈
          groupsOf label (listingAges tags stdout).groups :=
        List.mem_filter.mpr ⟨mem_groups.mpr hinfo, by simp⟩
      exact List.mem_map_of_mem (f := Group.dataset) hmem
  have hsum := Tally.sum_countP_key (nodup_groupsOf (listingAges tags stdout) label)
    (fun s hs => iff_of_true (hcover s hs) (rfl : (fun _ => true) s = true))
  rw [hcount, hsum, List.countP_true, List.countP_eq_length_filter]

theorem total_eq (cfg : AnalysisConfig) : (analyzeSnapshots cfg (listingAges tags stdout)).total label =
    (listedSnapshots stdout).countP (fun s => labelOf tags s.name = some label) := by
  rw [← sum_groupsOf, SnapshotReport.total]
  cases hstats : (analyzeSnapshots cfg (listingAges tags stdout)).perLabel.get? label with
  | some stats => exact (get?_perLabel hstats).1
  | none =>
    have hget : ((labelGlobal cfg (listingAges tags stdout)).get? label).map LabelStats.summarize = none :=
      Dict.get?_mapValues.symm.trans hstats
    rw [Option.map_eq_none_iff, get?_labelGlobal] at hget
    obtain hnil | ⟨init, last, hlast⟩ :=
      List.eq_nil_or_concat (groupsOf label (listingAges tags stdout).groups)
    · rw [hnil]
      rfl
    · rw [hlast, List.concat_eq_append, statsOf_append] at hget
      cases hget

theorem manualTotal_eq : (analyzeSnapshots cfg (listingAges tags stdout)).manualTotal =
    (listedSnapshots stdout).countP (fun s => labelOf tags s.name = none) := by
  have hsum : (analyzeSnapshots cfg (listingAges tags stdout)).manualTotal =
      ((listingAges tags stdout).manual.entries.map (fun e => e.2.length)).sum := by
    show ((manualSummary cfg.now (listingAges tags stdout).manual).map ManualSummary.totalCount).getD 0 = _
    unfold manualSummary
    split_ifs with hnil
    · rw [hnil]
      rfl
    · rfl
  have hcount : (listingAges tags stdout).manual.entries.map (fun e => e.2.length) =
      (listingAges tags stdout).manual.keys.map (fun ds =>
        ((listedSnapshots stdout).filter (fun s => labelOf tags s.name = none)).countP
          (fun s => s.dataset = ds)) := by
    rw [Dict.keys, List.map_map]
    refine List.map_congr_left (fun e he => ?_)
    have hget : (listingAges tags stdout).manual.get? e.1 = some e.2 := Dict.mem_entries.mp he
    have hmanual : ((listingAges tags stdout).manual.get? e.1).getD [] =
        (manualOf tags (listedSnapshots stdout) e.1).map (fun s => (s.name, s.creation)) :=
      manual_listingAges
    rw [hget, Option.getD_some] at hmanual
    show e.2.length = List.countP _ _
    rw [hmanual, List.length_map, manualOf, List.countP_eq_length_filter, List.filter_filter]
  have hcover : ∀ s ∈ (listedSnapshots stdout).filter (fun s => labelOf tags s.name = none),
      s.dataset ∈ (listingAges tags stdout).manual.keys := by
    intro s hs
    obtain ⟨hlisted, hlabel⟩ := List.mem_filter.mp hs
    have hmem : s ∈ manualOf tags (listedSnapshots stdout) s.dataset :=
      List.mem_filter.mpr ⟨hlisted, by simpa using hlabel⟩
    have hmanual : ((listingAges tags stdout).manual.get? s.dataset).getD [] =
        (manualOf tags (listedSnapshots stdout) s.dataset).map (fun s => (s.name, s.creation)) :=
      manual_listingAges
    rw [← Dict.get?_isSome]
    cases hget : (listingAges tags stdout).manual.get? s.dataset with
    | some _ => rfl
    | none =>
      rw [hget, Option.getD_none] at hmanual
      rw [List.map_eq_nil_iff.mp hmanual.symm] at hmem
      cases hmem
  have htally := Tally.sum_countP_key (Dict.nodup_keys (listingAges tags stdout).manual)
    (fun s hs => iff_of_true (hcover s hs) (rfl : (fun _ => true) s = true))
  rw [hsum, hcount, htally, List.countP_true, List.countP_eq_length_filter]

/-- The labels of the report are those of the snapshots. -/
theorem mem_keys_perLabel (cfg : AnalysisConfig) {s : ListedSnapshot} (hs : s ∈ listedSnapshots stdout)
    (hlabel : labelOf tags s.name = some label) :
    label ∈ (analyzeSnapshots cfg (listingAges tags stdout)).perLabel.keys := by
  have hpos : 0 < (listedSnapshots stdout).countP (fun s => labelOf tags s.name = some label) :=
    List.countP_pos_iff.mpr ⟨s, hs, decide_eq_true hlabel⟩
  rw [← total_eq cfg, SnapshotReport.total] at hpos
  rw [← Dict.get?_isSome]
  cases hget : (analyzeSnapshots cfg (listingAges tags stdout)).perLabel.get? label with
  | some _ => rfl
  | none =>
    rw [hget] at hpos
    cases hpos

/-- Each valid line is counted once, under its label or under manual. -/
theorem sum_totals :
    ((analyzeSnapshots cfg (listingAges tags stdout)).perLabel.entries.map (fun e =>
        e.2.totalSnapshots)).sum + (analyzeSnapshots cfg (listingAges tags stdout)).manualTotal =
      (listedSnapshots stdout).length := by
  have hdistinct : ((analyzeSnapshots cfg (listingAges tags stdout)).perLabel.keys.map some).Nodup :=
    (Dict.nodup_keys _).map (fun _ _ h => Option.some.inj h)
  have hcount : (analyzeSnapshots cfg (listingAges tags stdout)).perLabel.entries.map (fun e =>
        e.2.totalSnapshots) =
      ((analyzeSnapshots cfg (listingAges tags stdout)).perLabel.keys.map some).map (fun label =>
        (listedSnapshots stdout).countP (fun s => labelOf tags s.name = label)) := by
    rw [Dict.keys, List.map_map, List.map_map]
    refine List.map_congr_left (fun e he => ?_)
    have hget := Dict.mem_entries.mp he
    have htotal : (analyzeSnapshots cfg (listingAges tags stdout)).total e.1 = e.2.totalSnapshots := by
      rw [SnapshotReport.total, hget]
      rfl
    rw [← htotal, total_eq]
    rfl
  have hkeys : ∀ s ∈ listedSnapshots stdout,
      labelOf tags s.name ∈ (analyzeSnapshots cfg (listingAges tags stdout)).perLabel.keys.map some ↔
        (!decide (labelOf tags s.name = none)) = true := by
    intro s hs
    cases hlabel : labelOf tags s.name with
    | none => simp
    | some label =>
      have hmem := mem_keys_perLabel cfg hs hlabel
      simpa using hmem
  have hnot : (listedSnapshots stdout).countP (fun s => !decide (labelOf tags s.name = none)) =
      (listedSnapshots stdout).countP (fun s => ¬ (decide (labelOf tags s.name = none)) = true) :=
    List.countP_congr (fun s _ => by simp)
  rw [hcount, Tally.sum_countP_key hdistinct hkeys, manualTotal_eq, Nat.add_comm, hnot,
    ← List.length_eq_countP_add_countP]

/-- Every snapshot of the listing is counted once, under its dataset and its
label or manual. -/
structure Counted (tags : List Str) (snaps : List ListedSnapshot) (ages : SnapshotAges)
    (report : SnapshotReport) : Prop where
  group : ∀ dataset label, ((ages.info? dataset label).map AgeInfo.count).getD 0 =
    (labelled tags snaps dataset label).length
  manual : ∀ dataset, (ages.manual.get? dataset).getD [] =
    (manualOf tags snaps dataset).map (fun s => (s.name, s.creation))
  total : ∀ label, report.total label = snaps.countP (fun s => labelOf tags s.name = some label)
  manualTotal : report.manualTotal = snaps.countP (fun s => labelOf tags s.name = none)
  all : (report.perLabel.entries.map (fun e => e.2.totalSnapshots)).sum + report.manualTotal =
    snaps.length

theorem counted (cfg : AnalysisConfig) (tags : List Str) (stdout : Str) :
    Counted tags (listedSnapshots stdout) (listingAges tags stdout)
      (analyzeSnapshots cfg (listingAges tags stdout)) where
  group dataset label := by
    cases hinfo : (listingAges tags stdout).info? dataset label with
    | none =>
      rw [info?_eq_none.mp hinfo]
      rfl
    | some info =>
      obtain ⟨hconsistent, hperm⟩ := info?_spec hinfo
      show info.count = _
      rw [hconsistent.count, hperm.length_eq, List.length_map]
  manual _ := manual_listingAges
  total _ := total_eq cfg
  manualTotal := manualTotal_eq
  all := sum_totals

/-- A gap of the report is a long interval of its group, the gaps of a group are
fewer than half of its intervals, and an even series has none. -/
structure GapsRight (ages : SnapshotAges) (report : SnapshotReport) : Prop where
  long : ∀ label stats, report.perLabel.get? label = some stats → ∀ gap ∈ stats.gaps,
    ∃ info cadence, ages.info? gap.dataset label = some info ∧ 3 ≤ (deltas info.timestamps).length ∧
      cadence? info.timestamps = some cadence ∧
      (gap.fromEpoch, gap.toEpoch) ∈ intervals info.timestamps ∧
      (cadence : Rat) * (3 / 2) < (gap.toEpoch - gap.fromEpoch : Int)
  few : ∀ label stats dataset info, report.perLabel.get? label = some stats →
    ages.info? dataset label = some info → deltas info.timestamps ≠ [] →
      2 * (stats.gaps.filter (fun gap => gap.dataset = dataset)).length <
        (deltas info.timestamps).length
  even : ∀ label stats dataset info d, report.perLabel.get? label = some stats →
    ages.info? dataset label = some info → (∀ w ∈ deltas info.timestamps, w = d) →
      stats.gaps.filter (fun gap => gap.dataset = dataset) = []

theorem gapsRight (cfg : AnalysisConfig) (ages : SnapshotAges) :
    GapsRight ages (analyzeSnapshots cfg ages) where
  long label stats hstats gap hgap := by
    rw [(get?_perLabel hstats).2] at hgap
    obtain ⟨g, hg, hgap⟩ := List.mem_flatMap.mp hgap
    obtain ⟨hmem, hlabel⟩ := List.mem_filter.mp hg
    obtain ⟨hdataset, hlength, cadence, hcadence, hspan, hwide⟩ := groupGaps_spec hgap
    refine ⟨g.info, cadence, ?_, hlength, hcadence, hspan, hwide⟩
    rw [hdataset, ← of_decide_eq_true hlabel]
    exact mem_groups.mp hmem
  few _ _ _ _ hstats hinfo hne := by
    rw [filter_gaps hstats hinfo]
    exact length_groupGaps hne
  even _ _ _ _ _ hstats hinfo heven := by
    rw [filter_gaps hstats hinfo]
    exact groupGaps_even heven

end Report

end PveZfsTool
