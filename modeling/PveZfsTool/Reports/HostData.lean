import PveZfsTool.Zfs.RetentionReaders
import PveZfsTool.Zfs.SnapAnalysis

/-!
# What a report collects about a host

`collect_host_data` of `ai_reports.py` fills a record for each host, section by
section.  Here are the sections on the retention of the snapshots and on the
state of `zfs-auto-snapshot`, for one host: the others, on pools, datasets,
snapshots, ARC, events and SMART, fill other fields and are left out.

The section on the retention reads the policy out of the record, and the
section that writes it there comes after it.

* `configuredKeep_perLabel`, `countMismatches_perLabel` and
  `missingLabels_eq_nil`: what the policy does in an analysis.
* `run_collectHost`: the record, by the answers.
* `analysisRight_iff`: the analysis in the record is the one with the policy of
  the record only where the policy makes no difference.
-/

namespace PveZfsTool.Reports

open Text Dialogue

/-! ## The analysis in the report -/

/-- An entry of a list, or the note that stands for those that were cut. -/
inductive Shortened (α : Type) where
  | item (a : α)
  | note (text : Str)
  deriving DecidableEq

/-- A list without the items after the fifth. -/
def shorten {α : Type} (items : List α) : List (Shortened α) :=
  if 5 < items.length then
    (items.take 5).map .item ++ [.note ("... and " ++ ofNat (items.length - 5) ++ " more")]
  else items.map .item

/-- The statistics of a label with shortened lists. -/
structure ShortStats where
  totalSnapshots : Nat
  datasetCount : Nat
  configuredKeep : Option Int
  oldestAgeSec : Int
  newestAgeSec : Int
  countMismatches : List (Shortened CountMismatch)
  excludedDatasets : Nat
  staleDatasets : List (Shortened StaleDataset)
  gaps : List (Shortened SnapshotGap)
  perDatasetAvg : Int
  newestAgeHuman : Str

def shortStats (stats : LabelStats) : ShortStats where
  totalSnapshots := stats.totalSnapshots
  datasetCount := stats.datasetCount
  configuredKeep := stats.configuredKeep
  oldestAgeSec := stats.oldestAgeSec
  newestAgeSec := stats.newestAgeSec
  countMismatches := shorten stats.countMismatches
  excludedDatasets := stats.excludedDatasets
  staleDatasets := shorten stats.staleDatasets
  gaps := shorten stats.gaps
  perDatasetAvg := stats.perDatasetAvg
  newestAgeHuman := stats.newestAgeHuman

structure ShortReport where
  perLabel : Dict Str ShortStats
  missingLabels : Dict Str (Nat × List Str)
  manualSnapshots : Option ManualSummary
  datasetsAnalyzed : Nat
  timestamp : Int

/-- `truncate_for_ai` -/
def truncateForAi (analysis : SnapshotReport) : ShortReport where
  perLabel := analysis.perLabel.mapValues shortStats
  missingLabels := analysis.missingLabels
  manualSnapshots := analysis.manualSnapshots.map fun ms => { ms with examples := ms.examples.take 10 }
  datasetsAnalyzed := analysis.datasetsAnalyzed
  timestamp := analysis.timestamp

/-! ## The state of `zfs-auto-snapshot` -/

/-- `(?=[\s=]|$)` -/
def endsOption : Str → Bool
  | [] => true
  | c :: _ => isSpace c || c == '='

/-- A cluster of short options with an `e`.  A letter `e` ends each of the two
classes of the pattern, so there is one. -/
def isExcludeCluster : Str → Bool
  | '-' :: s =>
      let letters := s.takeWhile isAsciiAlpha
      decide (letters.count 'e' = 1) && !letters.contains 'E' && endsOption (s.drop letters.length)
  | _ => false

def startsExclude (s : Str) : Bool :=
  (s.dropPrefix? "--default-exclude").any endsOption || isExcludeCluster s

/-- An option stands after a whitespace character. -/
def excludesLater : Str → Bool
  | [] => false
  | c :: s => (isSpace c && startsExclude s) || excludesLater s

/-- `parse_default_exclude` -/
def parseDefaultExclude (cronRaw : Str) : Bool :=
  (splitLines cronRaw).any fun line =>
    let s := strip line
    contains s "zfs-auto-snapshot" && !startsWith s "#" && (startsExclude s || excludesLater s)

/-- The result of `get_auto_snapshot_status`. -/
structure AutoSnapStatus where
  installed : Bool
  cronConfig : Str
  retentionPolicy : Dict Str Int
  defaultExclude : Bool

/-- The commands of the two sections. -/
inductive CollectCmd where
  | snapshotTimes
  | autosnapProperty
  | datasetCreations
  | whichAutoSnapshot
  | cronFiles
  deriving DecidableEq

def CollectCmd.text : CollectCmd → Str
  | .snapshotTimes => "zfs list -t snapshot -Hpo name,creation"
  | .autosnapProperty => "zfs get -Hpo name,value com.sun:auto-snapshot"
  | .datasetCreations => "zfs list -Hpo name,creation -t filesystem,volume"
  | .whichAutoSnapshot => "which zfs-auto-snapshot 2>/dev/null && echo INSTALLED || echo NOT_INSTALLED"
  | .cronFiles =>
      "cat /etc/cron.d/zfs-auto-snapshot 2>/dev/null; " ++
      "for d in frequent hourly daily weekly monthly; do " ++
      "  f=/etc/cron.$d/zfs-auto-snapshot; " ++
      "  if [ -f \"$f\" ]; then echo \"=== $d ===\"; cat \"$f\"; fi; " ++
      "done; " ++
      "crontab -l 2>/dev/null | grep zfs-auto-snapshot"

abbrev CollectJob (ε α : Type) := Prog CollectCmd Answer ε α

/-- `get_auto_snapshot_status` -/
def getAutoSnapshotStatus : CollectJob Exn AutoSnapStatus := do
  let result ← Prog.issue .whichAutoSnapshot
  let cronResult ← Prog.issue .cronFiles
  match readPolicy (splitLines cronResult.stdout) Dict.empty with
  | .error e => .raise e
  | .ok policy => return {
      installed := contains result.stdout "INSTALLED"
      cronConfig := cronResult.stdout
      retentionPolicy := policy
      defaultExclude := parseDefaultExclude cronResult.stdout }

/-! ## The sections -/

/-- `get_autosnap_disabled_datasets` -/
def autosnapDisabledDatasets (result : Answer) : List Str :=
  if result.success then
    (splitLines result.stdout).filterMap fun line =>
      match splitOn '\t' line with
      | name :: value :: _ => if strip value = "false" then some (strip name) else none
      | _ => none
  else []

/-- `get_dataset_creations` -/
def datasetCreations (result : Answer) : Dict Str Int :=
  if result.success then
    ((splitLines result.stdout).filterMap fun line =>
      match splitOn '\t' line with
      | name :: creation :: _ => (toInt? creation).map fun n => (strip name, n)
      | _ => none).foldl (fun d e => d.set e.1 e.2) Dict.empty
  else Dict.empty

/-- The fields of `host_data` that the two sections use.  An error has the
section and the exception. -/
structure HostData where
  autoSnapshot : Option AutoSnapStatus := none
  retentionAnalysis : Option ShortReport := none
  errors : List (Str × Exn) := []

/-- The arguments of the analysis in a report. -/
def analysisConfig (now : Int) (retentionCfg : Dict Str Int) (disabled creations : Answer) :
    AnalysisConfig where
  retentionCfg := retentionCfg
  autosnapDisabled := autosnapDisabledDatasets disabled
  datasetCreation := datasetCreations creations
  now := now

/-- The section on the retention.  `tags` are the tags of the host and `now` is
the clock. -/
def analyzeRetention (tags : List Str) (now : Int) (data : HostData) : CollectJob Exn HostData := do
  let snapAgeData ← Prog.issue .snapshotTimes
  let retentionCfg := (data.autoSnapshot.map AutoSnapStatus.retentionPolicy).getD Dict.empty
  let disabled ← Prog.issue .autosnapProperty
  let creations ← Prog.issue .datasetCreations
  return { data with
    retentionAnalysis := some (truncateForAi (analyzeSnapshots
      (analysisConfig now retentionCfg disabled creations) (getSnapshotAges tags snapAgeData))) }

/-- The section on `zfs-auto-snapshot`. -/
def readAutoSnapshot (data : HostData) : CollectJob Exn HostData := do
  let status ← getAutoSnapshotStatus
  return { data with autoSnapshot := some status }

/-- `try` a section.  The exception goes into the record. -/
def trySection (title : Str) (collect : HostData → CollectJob Exn HostData) (data : HostData) :
    CollectJob Empty HostData := do
  match ← (collect data).attempt with
  | .ok data => return data
  | .error e => return { data with errors := data.errors ++ [(title, e)] }

/-- The body of the loop of `collect_host_data`. -/
def collectHost (tags : List Str) (now : Int) : CollectJob Empty HostData := do
  let data ← trySection "Retention analysis" (analyzeRetention tags now) {}
  trySection "Auto-snapshot" readAutoSnapshot data

/-- The analysis that `check_auto_snapshots` of `monitor.py` makes with a
policy, if it makes one. -/
def monitorAnalysis (ages : SnapshotAges) (policy : Dict Str Int) (disabled : Answer) (now : Int) :
    Option SnapshotReport :=
  if ages.datasets.entries = [] then none
  else some (analyzeSnapshots
    { retentionCfg := policy
      autosnapDisabled := autosnapDisabledDatasets disabled
      datasetCreation := Dict.empty
      now := now } ages)

/-! ## What the policy does in an analysis -/

section Analysis

variable {cfg : AnalysisConfig} {ages : SnapshotAges} {label : Str}

theorem statsOf_eq_none {gs : List Group} : statsOf cfg gs = none ↔ gs = [] := by
  obtain rfl | ⟨init, g, rfl⟩ := List.eq_nil_or_concat gs
  · exact iff_of_true rfl rfl
  · rw [List.concat_eq_append, statsOf_append]
    simp

/-- The mismatch of a group, if it has one. -/
def mismatchOf (cfg : AnalysisConfig) (g : Group) : List CountMismatch :=
  if g.dataset ∈ cfg.autosnapDisabled then [] else countMismatch cfg g.dataset g.label g.info

/-- The statistics of a label have the keep number of the policy and the
mismatches of all groups. -/
theorem statsOf_policy {gs : List Group} {stats : LabelStats} (hlabel : ∀ g ∈ gs, g.label = label)
    (h : statsOf cfg gs = some stats) :
    stats.configuredKeep = cfg.retentionCfg.get? label ∧
      stats.countMismatches = gs.flatMap (mismatchOf cfg) := by
  induction gs using List.reverseRecOn generalizing stats with
  | nil => cases h
  | append_singleton gs g ih =>
    rw [statsOf_append] at h
    obtain rfl := Option.some.inj h
    have hlast : g.label = label := hlabel g (List.mem_append_right _ (List.mem_singleton.mpr rfl))
    rw [List.flatMap_append, List.flatMap_singleton]
    cases hbefore : statsOf cfg gs with
    | none =>
      rw [statsOf_eq_none.mp hbefore, ← hlast]
      refine ⟨rfl, ?_⟩
      unfold addGroup LabelStats.add LabelStats.start mismatchOf
      simp
    | some before =>
      obtain ⟨hkeep, hmismatches⟩ := ih (fun g hg => hlabel g (List.mem_append_left _ hg)) hbefore
      refine ⟨hkeep, ?_⟩
      rw [← hmismatches]
      unfold addGroup LabelStats.add mismatchOf
      simp

theorem get?_perLabel_eq : (analyzeSnapshots cfg ages).perLabel.get? label =
    (statsOf cfg (groupsOf label ages.groups)).map LabelStats.summarize := by
  rw [← get?_labelGlobal]
  exact Dict.get?_mapValues

theorem label_of_groupsOf {g : Group} (hg : g ∈ groupsOf label ages.groups) : g.label = label :=
  of_decide_eq_true (List.mem_filter.mp hg).2

theorem configuredKeep_perLabel :
    ((analyzeSnapshots cfg ages).perLabel.get? label).map LabelStats.configuredKeep =
      if groupsOf label ages.groups = [] then none else some (cfg.retentionCfg.get? label) := by
  rw [get?_perLabel_eq]
  cases hstats : statsOf cfg (groupsOf label ages.groups) with
  | none => rw [if_pos (statsOf_eq_none.mp hstats)]; rfl
  | some stats =>
    rw [if_neg (fun hnil => by rw [statsOf_eq_none.mpr hnil] at hstats; cases hstats),
      ← (statsOf_policy (fun g hg => label_of_groupsOf hg) hstats).1]
    rfl

theorem countMismatches_perLabel :
    ((analyzeSnapshots cfg ages).perLabel.get? label).map LabelStats.countMismatches =
      if groupsOf label ages.groups = [] then none
      else some ((groupsOf label ages.groups).flatMap (mismatchOf cfg)) := by
  rw [get?_perLabel_eq]
  cases hstats : statsOf cfg (groupsOf label ages.groups) with
  | none => rw [if_pos (statsOf_eq_none.mp hstats)]; rfl
  | some stats =>
    rw [if_neg (fun hnil => by rw [statsOf_eq_none.mpr hnil] at hstats; cases hstats),
      ← (statsOf_policy (fun g hg => label_of_groupsOf hg) hstats).2]
    rfl

/-- The creation times of the datasets have to do with the gaps only. -/
theorem countMismatches_congr {cfg' : AnalysisConfig} (hpolicy : cfg.retentionCfg = cfg'.retentionCfg)
    (hdisabled : cfg.autosnapDisabled = cfg'.autosnapDisabled) (label : Str) :
    ((analyzeSnapshots cfg ages).perLabel.get? label).map LabelStats.countMismatches =
      ((analyzeSnapshots cfg' ages).perLabel.get? label).map LabelStats.countMismatches := by
  have hsame : mismatchOf cfg = mismatchOf cfg' := by
    funext g
    unfold mismatchOf countMismatch
    rw [hpolicy, hdisabled]
  rw [countMismatches_perLabel, countMismatches_perLabel, hsame]

theorem missingLabels_congr {cfg' : AnalysisConfig} (hpolicy : cfg.retentionCfg = cfg'.retentionCfg) :
    (analyzeSnapshots cfg ages).missingLabels = (analyzeSnapshots cfg' ages).missingLabels := by
  unfold analyzeSnapshots datasetsWithoutLabels
  dsimp only
  rw [hpolicy]

theorem get?_truncateForAi {analysis : SnapshotReport} :
    (truncateForAi analysis).perLabel.get? label = (analysis.perLabel.get? label).map shortStats :=
  Dict.get?_mapValues

/-- A label that a dataset is without is among the missing labels. -/
theorem mem_missingLabels {dataset : Str} {labels : Dict Str AgeInfo}
    (hdataset : (dataset, labels) ∈ ages.datasets.entries) (hlabel : label ∈ cfg.retentionCfg.keys)
    (hmissing : label ∉ labels.keys) : label ∈ (analyzeSnapshots cfg ages).missingLabels.keys := by
  show label ∈ ((datasetsWithoutLabels cfg ages).mapValues _).keys
  rw [Dict.keys_mapValues]
  refine Dict.mem_keys_foldl_push.mpr (.inr ⟨(label, dataset), ?_, rfl⟩)
  refine List.mem_flatMap.mpr ⟨_, hdataset, List.mem_map.mpr ⟨label, ?_, rfl⟩⟩
  exact List.mem_filter.mpr ⟨hlabel, decide_eq_true hmissing⟩

theorem missingLabels_empty (hpolicy : cfg.retentionCfg = Dict.empty) :
    (analyzeSnapshots cfg ages).missingLabels.keys = [] := by
  show ((datasetsWithoutLabels cfg ages).mapValues _).keys = []
  have hnone : ages.datasets.entries.flatMap (fun e =>
      ((Dict.empty : Dict Str Int).keys.filter (fun label => label ∉ e.2.keys)).map (fun label =>
        (label, e.1))) = [] := List.flatMap_eq_nil_iff.mpr (fun e _ => rfl)
  rw [Dict.keys_mapValues, datasetsWithoutLabels, hpolicy, hnone]
  rfl

/-- A label of the policy that a dataset has shows its keep number, and one
that it does not have is missing: the analysis without a policy has neither. -/
theorem truncateForAi_ne {cfg' : AnalysisConfig} (hpolicy : cfg.retentionCfg.entries ≠ [])
    (hempty : cfg'.retentionCfg = Dict.empty) (hages : ages.datasets.entries ≠ []) :
    truncateForAi (analyzeSnapshots cfg' ages) ≠ truncateForAi (analyzeSnapshots cfg ages) := by
  intro heq
  obtain ⟨⟨label, keep⟩, hkeep⟩ := List.exists_mem_of_ne_nil _ hpolicy
  obtain ⟨⟨dataset, labels⟩, hdataset⟩ := List.exists_mem_of_ne_nil _ hages
  by_cases hlabel : label ∈ labels.keys
  · obtain ⟨info, hinfo⟩ := Option.isSome_iff_exists.mp (Dict.get?_isSome.mpr hlabel)
    have hgroup : groupsOf label ages.groups ≠ [] := by
      refine List.ne_nil_of_mem (a := (⟨dataset, label, info⟩ : Group)) (List.mem_filter.mpr ⟨?_, by simp⟩)
      refine mem_groups.mpr ?_
      unfold SnapshotAges.info?
      rw [Dict.mem_entries.mp hdataset]
      exact hinfo
    have hkeeps := congrArg (fun r => (r.perLabel.get? label).map ShortStats.configuredKeep) heq
    have hconfigured : ∀ c : AnalysisConfig,
        ((truncateForAi (analyzeSnapshots c ages)).perLabel.get? label).map ShortStats.configuredKeep =
          some (c.retentionCfg.get? label) := by
      intro c
      have h := @configuredKeep_perLabel c ages label
      rw [if_neg hgroup] at h
      rw [get?_truncateForAi, Option.map_map]
      exact h
    rw [hconfigured cfg', hconfigured cfg, hempty, Dict.mem_entries.mp hkeep] at hkeeps
    cases Option.some.inj hkeeps
  · have hmissing : label ∈ (analyzeSnapshots cfg ages).missingLabels.keys :=
      mem_missingLabels hdataset (List.mem_map_of_mem (f := Prod.fst) hkeep) hlabel
    have hkeys : (analyzeSnapshots cfg' ages).missingLabels = (analyzeSnapshots cfg ages).missingLabels :=
      congrArg ShortReport.missingLabels heq
    rw [← hkeys, missingLabels_empty hempty] at hmissing
    cases hmissing

/-- Without a dataset there is nothing to compare with the policy. -/
theorem analyzeSnapshots_of_nil {cfg' : AnalysisConfig} (hages : ages.datasets.entries = [])
    (hnow : cfg.now = cfg'.now) : analyzeSnapshots cfg ages = analyzeSnapshots cfg' ages := by
  have hgroups : ages.groups = [] := by
    rw [SnapshotAges.groups, hages]
    rfl
  unfold analyzeSnapshots labelGlobal datasetsWithoutLabels
  rw [hgroups, hages, hnow]
  rfl

end Analysis

/-! ## What is filed -/

theorem datasets_fileSnapshots {tags : List Str} {snaps : List ListedSnapshot} {ages : SnapshotAges} :
    (snaps.foldl (fileSnapshot tags) ages).datasets.entries = [] ↔
      ages.datasets.entries = [] ∧ ∀ s ∈ snaps, labelOf tags s.name = none := by
  induction snaps generalizing ages with
  | nil => simp
  | cons s snaps ih =>
    rw [List.foldl_cons, ih, List.forall_mem_cons, fileSnapshot]
    cases hlabel : labelOf tags s.name with
    | none => simp
    | some label =>
      constructor
      · intro ⟨h, _⟩
        exact absurd h Dict.alterEntries_ne_nil
      · intro ⟨_, h, _⟩
        cases h

/-- The listing fails, or no snapshot of it has a label. -/
def Unlabelled (tags : List Str) (listing : Answer) : Prop :=
  listing.success = true → ∀ s ∈ listedSnapshots listing.stdout, labelOf tags s.name = none

theorem datasets_eq_nil {tags : List Str} {listing : Answer} :
    (getSnapshotAges tags listing).datasets.entries = [] ↔ Unlabelled tags listing := by
  unfold getSnapshotAges Unlabelled
  cases listing.success with
  | false => exact iff_of_true rfl (fun h => by cases h)
  | true =>
    rw [if_pos rfl]
    show List.map _ _ = [] ↔ (true = true → _)
    rw [forall_prop_of_true rfl]
    rw [List.map_eq_nil_iff, datasets_fileSnapshots]
    exact and_iff_right rfl

/-- The policy is empty exactly when no line gives a label a retention. -/
theorem policy_eq_nil {lines : List Str} {policy : Dict Str Int}
    (h : readPolicy lines Dict.empty = .ok policy) :
    policy.entries = [] ↔ ∀ line ∈ lines, ∀ label, namesLabel label line = false := by
  constructor
  · intro hnil line hline label
    rw [← Bool.not_eq_true]
    intro hnames
    have hget : policy.get? label = none := by
      rw [Dict.eq_empty hnil]
      rfl
    rw [get?_readPolicy h] at hget
    have hne : lines.filter (namesLabel label) ≠ [] :=
      List.ne_nil_of_mem (List.mem_filter.mpr ⟨hline, hnames⟩)
    rw [List.getLast?_eq_some_getLast hne, Option.elim_some] at hget
    obtain ⟨hlast, hnamesLast⟩ := List.mem_filter.mp (List.getLast_mem hne)
    obtain ⟨hstatus, hlabel, hsome⟩ := namesLabel_iff.mp hnamesLast
    obtain ⟨digits, hkeep⟩ := Option.isSome_iff_exists.mp hsome
    have hint := readPolicy_isOk.mp ⟨policy, h⟩ _ hlast hstatus (by rw [hlabel]; rfl) digits hkeep
    rw [keepNumber, hkeep, Option.bind_some] at hget
    rw [hget] at hint
    cases hint
  · intro hnone
    by_contra hne
    obtain ⟨⟨label, keep⟩, hkeep⟩ := List.exists_mem_of_ne_nil _ hne
    have hget := Dict.mem_entries.mp hkeep
    rw [get?_readPolicy h, List.filter_eq_nil_iff.mpr (fun line hline => by
      rw [hnone line hline label]; decide)] at hget
    cases hget

/-! ## One collection -/

/-- The status that the cron files give, if `int` takes all their numbers. -/
def statusOf (installation cron : Answer) : Option AutoSnapStatus :=
  (readPolicy (splitLines cron.stdout) Dict.empty).toOption.map fun policy =>
    { installed := contains installation.stdout "INSTALLED"
      cronConfig := cron.stdout
      retentionPolicy := policy
      defaultExclude := parseDefaultExclude cron.stdout }

theorem run_getAutoSnapshotStatus {trail : History CollectCmd Answer} {r : Except Exn AutoSnapStatus}
    (h : getAutoSnapshotStatus.Run trail r) : ∃ installation cron,
      trail = [(.whichAutoSnapshot, installation), (.cronFiles, cron)] ∧
        r.toOption = statusOf installation cron := by
  unfold getAutoSnapshotStatus at h
  rw [Prog.issue_bind] at h
  obtain ⟨installation, _, rfl, hcron⟩ := Prog.run_ask.mp h
  rw [Prog.issue_bind] at hcron
  obtain ⟨cron, _, rfl, hend⟩ := Prog.run_ask.mp hcron
  refine ⟨installation, cron, ?_⟩
  unfold statusOf
  cases hpolicy : readPolicy (splitLines cron.stdout) Dict.empty with
  | error e =>
    rw [hpolicy] at hend
    obtain ⟨rfl, rfl⟩ := Prog.run_raise.mp hend
    exact ⟨rfl, rfl⟩
  | ok policy =>
    rw [hpolicy] at hend
    obtain ⟨rfl, rfl⟩ := Prog.run_ret.mp hend
    exact ⟨rfl, rfl⟩

/-- The section on the retention runs before there is a policy. -/
theorem run_collectHost {tags : List Str} {now : Int} {trail : History CollectCmd Answer}
    {data : HostData} (h : (collectHost tags now).Run trail (.ok data)) :
    ∃ listing disabled creations installation cron,
      trail = [(.snapshotTimes, listing), (.autosnapProperty, disabled),
        (.datasetCreations, creations), (.whichAutoSnapshot, installation), (.cronFiles, cron)] ∧
      data.retentionAnalysis = some (truncateForAi (analyzeSnapshots
        (analysisConfig now Dict.empty disabled creations) (getSnapshotAges tags listing))) ∧
      data.autoSnapshot = statusOf installation cron := by
  unfold collectHost at h
  obtain ⟨trail₁, trail₂, first, rfl, hfirst, hsecond⟩ := Prog.run_bind_ok h
  obtain ⟨trail₁, rest, r, rfl, hretention, hend⟩ := Prog.run_attempt_bind.mp hfirst
  unfold analyzeRetention at hretention
  rw [Prog.issue_bind] at hretention
  obtain ⟨listing, _, rfl, hages⟩ := Prog.run_ask.mp hretention
  rw [Prog.issue_bind] at hages
  obtain ⟨disabled, _, rfl, hdisabled⟩ := Prog.run_ask.mp hages
  rw [Prog.issue_bind] at hdisabled
  obtain ⟨creations, _, rfl, hcreations⟩ := Prog.run_ask.mp hdisabled
  obtain ⟨rfl, rfl⟩ := Prog.run_ret.mp hcreations
  obtain ⟨rfl, hdata⟩ := Prog.run_ret.mp hend
  obtain rfl := Except.ok.inj hdata
  obtain ⟨trail₃, rest, r, rfl, hstatus, hend⟩ := Prog.run_attempt_bind.mp hsecond
  unfold readAutoSnapshot at hstatus
  rcases Prog.run_bind.mp hstatus with ⟨_, _, status, rfl, hread, hret⟩ | ⟨e, hread, rfl⟩
  · obtain ⟨installation, cron, rfl, heq⟩ := run_getAutoSnapshotStatus hread
    obtain ⟨rfl, rfl⟩ := Prog.run_ret.mp hret
    obtain ⟨rfl, hdata⟩ := Prog.run_ret.mp hend
    obtain rfl := Except.ok.inj hdata
    exact ⟨listing, disabled, creations, installation, cron, rfl, rfl, heq⟩
  · obtain ⟨installation, cron, rfl, heq⟩ := run_getAutoSnapshotStatus hread
    obtain ⟨rfl, hdata⟩ := Prog.run_ret.mp hend
    obtain rfl := Except.ok.inj hdata
    exact ⟨listing, disabled, creations, installation, cron, rfl, rfl, heq⟩

/-- The collection of the data of one host. -/
structure Collection where
  tags : List Str
  now : Int
  trail : History CollectCmd Answer
  data : HostData
  run : (collectHost tags now).Run trail (.ok data)

namespace Collection

variable (C : Collection)

/-- The answer to a command. -/
def answer (cmd : CollectCmd) : Answer := (C.trail.lookup cmd).getD noAnswer

def ages : SnapshotAges := getSnapshotAges C.tags (C.answer .snapshotTimes)

/-- `analyze_snapshots` with a policy. -/
def analysis (policy : Dict Str Int) : SnapshotReport :=
  analyzeSnapshots
    (analysisConfig C.now policy (C.answer .autosnapProperty) (C.answer .datasetCreations)) C.ages

def monitored (policy : Dict Str Int) : Option SnapshotReport :=
  monitorAnalysis C.ages policy (C.answer .autosnapProperty) C.now

/-- The analysis in the report is the one with the policy, and it has the
mismatches and the missing labels of the monitor. -/
structure HasAnalysis (policy : Dict Str Int) : Prop where
  analysis : C.data.retentionAnalysis = some (truncateForAi (C.analysis policy))
  mismatches : ∀ report, C.data.retentionAnalysis = some report →
    ∀ monitor, C.monitored policy = some monitor → ∀ label,
      (report.perLabel.get? label).map ShortStats.countMismatches =
        ((monitor.perLabel.get? label).map LabelStats.countMismatches).map shorten
  missing : ∀ report, C.data.retentionAnalysis = some report →
    ∀ monitor, C.monitored policy = some monitor → report.missingLabels = monitor.missingLabels

/-- The analysis is the one with the policy that the collection reports. -/
def AnalysisRight : Prop :=
  ∀ status, C.data.autoSnapshot = some status → C.HasAnalysis status.retentionPolicy

def cronLines : List Str := splitLines (C.answer .cronFiles).stdout

/-- The cron files give no label a retention or have a number that `int` does
not take, or there is no snapshot with a label. -/
def PolicyIdle : Prop :=
  (∀ line ∈ C.cronLines, ∀ label, namesLabel label line = false) ∨ ¬ PolicyReadable C.cronLines ∨
    Unlabelled C.tags (C.answer .snapshotTimes)

variable {C}

theorem data_eq (C : Collection) :
    C.data.retentionAnalysis = some (truncateForAi (C.analysis Dict.empty)) ∧
      C.data.autoSnapshot = statusOf (C.answer .whichAutoSnapshot) (C.answer .cronFiles) := by
  obtain ⟨tags, now, trail, data, run⟩ := C
  obtain ⟨listing, disabled, creations, installation, cron, rfl, hanalysis, hstatus⟩ :=
    run_collectHost run
  exact ⟨hanalysis, hstatus⟩

theorem hasAnalysis_iff {policy : Dict Str Int} : C.HasAnalysis policy ↔
    truncateForAi (C.analysis Dict.empty) = truncateForAi (C.analysis policy) := by
  constructor
  · intro h
    exact Option.some.inj (C.data_eq.1.symm.trans h.analysis)
  · intro h
    have hanalysis := C.data_eq.1.trans (congrArg some h)
    refine ⟨hanalysis, fun report hreport monitor hmonitor label => ?_,
      fun report hreport monitor hmonitor => ?_⟩
    · obtain rfl := Option.some.inj (hanalysis.symm.trans hreport)
      unfold monitored monitorAnalysis at hmonitor
      split_ifs at hmonitor
      obtain rfl := Option.some.inj hmonitor
      rw [get?_truncateForAi, Option.map_map]
      show ((C.analysis policy).perLabel.get? label).map (shorten ∘ LabelStats.countMismatches) = _
      rw [← Option.map_map]
      refine congrArg (Option.map shorten) ?_
      apply countMismatches_congr <;> rfl
    · obtain rfl := Option.some.inj (hanalysis.symm.trans hreport)
      unfold monitored monitorAnalysis at hmonitor
      split_ifs at hmonitor
      obtain rfl := Option.some.inj hmonitor
      exact missingLabels_congr rfl

theorem hasAnalysis_iff_nil {policy : Dict Str Int} : C.HasAnalysis policy ↔
    policy.entries = [] ∨ C.ages.datasets.entries = [] := by
  rw [hasAnalysis_iff]
  constructor
  · intro h
    by_contra hne
    rw [not_or] at hne
    exact truncateForAi_ne hne.1 rfl hne.2 h
  · rintro (hpolicy | hages)
    · rw [Dict.eq_empty hpolicy]
    · exact congrArg truncateForAi (analyzeSnapshots_of_nil hages rfl)

/-- The analysis in the report is the one with the policy of the collection if
and only if that policy makes no difference to it. -/
theorem analysisRight_iff (C : Collection) : C.AnalysisRight ↔ C.PolicyIdle := by
  unfold AnalysisRight PolicyIdle
  rw [C.data_eq.2]
  unfold statusOf
  cases hpolicy : readPolicy (splitLines (C.answer .cronFiles).stdout) Dict.empty with
  | error e =>
    refine iff_of_true (fun status hstatus => by cases hstatus) (.inr (.inl fun hreadable => ?_))
    obtain ⟨final, hfinal⟩ := readPolicy_isOk.mpr hreadable
    cases hpolicy.symm.trans hfinal
  | ok policy =>
    have hreadable : PolicyReadable C.cronLines := readPolicy_isOk.mp ⟨policy, hpolicy⟩
    have hstatus : (∀ status, (Except.toOption (.ok policy : Except Exn (Dict Str Int))).map (fun policy =>
        ({ installed := contains (C.answer .whichAutoSnapshot).stdout "INSTALLED"
           cronConfig := (C.answer .cronFiles).stdout
           retentionPolicy := policy
           defaultExclude := parseDefaultExclude (C.answer .cronFiles).stdout } : AutoSnapStatus)) =
          some status → C.HasAnalysis status.retentionPolicy) ↔ C.HasAnalysis policy :=
      ⟨fun h => h _ rfl, fun h status hstatus => by obtain rfl := Option.some.inj hstatus; exact h⟩
    rw [hstatus, hasAnalysis_iff_nil, policy_eq_nil hpolicy, ages, datasets_eq_nil]
    constructor
    · rintro (hnone | hages)
      · exact .inl hnone
      · exact .inr (.inr hages)
    · rintro (hnone | hnot | hages)
      · exact .inl hnone
      · exact absurd hreadable hnot
      · exact .inr hages

end Collection

/-! ## A host with one daily snapshot -/

/-- The cron file keeps seven daily snapshots, and there is one. -/
def dailyHost : CollectCmd → Answer
  | .snapshotTimes => prints "tank/a@zfs-auto-snap_daily-2024-05-01-0425\t1714530300\n"
  | .autosnapProperty => prints "tank/a\t-\n"
  | .datasetCreations => prints "tank/a\t1700000000\n"
  | .whichAutoSnapshot => prints "/sbin/zfs-auto-snapshot\nINSTALLED\n"
  | .cronFiles =>
      prints "=== daily ===\nexec zfs-auto-snapshot --quiet --syslog --label=daily --keep=7 //\n"

/-- The report does not show that six daily snapshots are missing. -/
theorem daily_mismatch_unseen : ¬ ∀ C : Collection, C.AnalysisRight := by
  intro hclaim
  obtain ⟨trail, o, hrun, hanswers⟩ := Prog.exists_run (collectHost defaultTags 1714600000) dailyHost
  cases o with
  | error e => exact e.elim
  | ok data =>
    have hC := hclaim ⟨_, _, _, _, hrun⟩
    obtain ⟨listing, disabled, creations, installation, cron, rfl, -, hstatus⟩ := run_collectHost hrun
    have hlisting : listing = dailyHost .snapshotTimes := hanswers (.snapshotTimes, listing) (by simp)
    have hcron : cron = dailyHost .cronFiles := hanswers (.cronFiles, cron) (by simp)
    subst hlisting hcron
    have hpolicy : readPolicy (splitLines (dailyHost .cronFiles).stdout) Dict.empty =
        .ok ⟨[("daily", 7)], by decide⟩ := by decide
    unfold statusOf at hstatus
    rw [hpolicy] at hstatus
    rcases Collection.hasAnalysis_iff_nil.mp (hC _ hstatus) with hnil | hnil
    · cases hnil
    · have hlabel : ∀ s ∈ listedSnapshots (dailyHost .snapshotTimes).stdout,
          labelOf defaultTags s.name = none := datasets_eq_nil.mp hnil rfl
      revert hlabel
      decide

end PveZfsTool.Reports
