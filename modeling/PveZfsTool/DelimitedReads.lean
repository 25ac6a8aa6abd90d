import PveZfsTool.Replication.CronListing
import PveZfsTool.Zfs.RetentionListing

/-!
# Several files in one round trip

`list_configs`, `_find_zsync_cron_lines` and `get_retention` each read several
files of a host with one command and cut its output apart again.

`readExactly_iff` says for which files each of them is read as if it were alone:
those that end where the command prints the next delimiter on a line of its own
(`EndsWell`).
-/

namespace PveZfsTool

open Text Dialogue Replication

/-! ## The files of a host -/

/-- The files that the three functions read.  For a config file with a path that
the shell does not leave as it is `unquoted` is what `echo` and `cat` print. -/
structure HostFiles where
  configs : List PathFile
  unquoted : Str → Str × Str
  crontab : Str
  cronD : List PathFile
  scripts : SnapLevel → Option Str
  installed : Bool
  cronDir : ∀ f ∈ cronD, ("/etc/cron.d/" : Str) <+: f.1
  distinct : (cronD.map Prod.fst).Nodup

namespace HostFiles

/-- The file of a level.  The one of `frequent` is in `/etc/cron.d`. -/
def level (h : HostFiles) : SnapLevel → Option Str
  | .frequent => (h.cronD.find? (fun f => f.1 = SnapLevel.file .frequent)).map Prod.snd
  | level => h.scripts level

/-! ### The answers -/

def configAnswer (h : HostFiles) (_ : ConfigListCmd) : Answer :=
  prints (configListing h.unquoted h.configs)

def cronAnswer (h : HostFiles) : Answer := prints (tableListing h.crontab h.cronD)

def retentionAnswer (h : HostFiles) : RetentionCmd → Answer
  | .findTool => prints (if h.installed then "INSTALLED\n" else "NO\n")
  | .printFiles => prints (levelListing h.level)

/-- Each function has of each file what its parser has of the file alone. -/
structure ReadExactly (h : HostFiles) : Prop where
  configs : ∀ log o, listConfigs.Run log o → (∀ e ∈ log, e.2 = h.configAnswer e.1) →
    o = .ok (h.configs.map (fun f => configEntry f.1 (parseConfig f.2).values))
  cron : ∀ path log o, (findZsyncCronLines path).Run log o → (∀ e ∈ log, e.2 = h.cronAnswer) →
    o = .ok (tableEntries path "crontab" h.crontab ++
      h.cronD.flatMap (fun f => tableEntries path f.1 f.2))
  levels : ∀ log o, getRetention.Run log o → (∀ e ∈ log, e.2 = h.retentionAnswer e.1) →
    let files := retentionFiles (h.retentionAnswer .printFiles).stdout
    o = (parseRetention files).map (Retention.mk h.installed) ∧
      ∀ level, levelState level (files level) = levelState level (h.level level)

/-! ### The files -/

/-- No line of a file equals a delimiter of its reader. -/
structure NoDelimiters (h : HostFiles) : Prop where
  configs : ∀ f ∈ h.configs, ∀ l ∈ splitLines f.2, IsConfigText l
  crontab : ∀ l ∈ splitLines h.crontab, IsTableText l
  cronD : ∀ f ∈ h.cronD, ∀ l ∈ splitLines f.2, IsTableText l
  levels : ∀ level text, h.level level = some text → ∀ l ∈ splitOn '\n' text,
    (∀ other, l ≠ levelMarker other) ∧ l ≠ fileEnd

/-- The paths are printed and read back as they are, and no line of a level's
file is a delimiter with blanks around it. -/
structure Plain (h : HostFiles) : Prop where
  configs : ∀ f ∈ h.configs, isPlainPath f.1 = true
  cronD : ∀ f ∈ h.cronD, NoBreak f.1 ∧ strip f.1 = f.1
  levels : ∀ level text, h.level level = some text → ∀ l ∈ splitOn '\n' text,
    (∀ other, strip l = levelMarker other → l = levelMarker other) ∧
      (strip l = fileEnd → l = fileEnd)

/-- The config files end in a line break or are empty.  Behind a table that does
not, nothing of its last line and of the next table is an entry.  The file of a
level ends in a newline, blanks behind it apart, or has no command line. -/
structure EndsWell (h : HostFiles) : Prop where
  configs : ∀ f ∈ h.configs, Ended f.2
  cron : ∀ path, TablesEnd path "crontab" h.crontab h.cronD
  levels : ∀ level text, h.level level = some text →
    EndsBlank text ∨ ∀ l ∈ splitLines text, isCommandLine l level.label = false

/-! ## The outcomes -/

section Outcomes

variable {h : HostFiles}

theorem run_listConfigs {log : History ConfigListCmd Answer} {o : Except Exn (List ConfigEntry)}
    (hplain : h.Plain) (hmarkers : h.NoDelimiters) (hrun : listConfigs.Run log o)
    (hanswers : ∀ e ∈ log, e.2 = h.configAnswer e.1) :
    o = .ok ((h.configs.filter (fun f => Ended f.2)).map
      (fun f => configEntry f.1 (parseConfig f.2).values)) := by
  rw [listConfigs, Prog.issue_bind, Prog.run_ask] at hrun
  obtain ⟨a, log, rfl, hrun⟩ := hrun
  obtain rfl : a = h.configAnswer .listConfigs := hanswers _ List.mem_cons_self
  have hscan := @out_scan_listing {} h.configs h.unquoted hplain.configs hmarkers.configs
  split_ifs at hrun with hprinted
  · rw [Prog.pure_eq, Prog.run_ret] at hrun
    rw [hrun.2]
    exact congrArg Except.ok hscan
  · rw [Prog.pure_eq, Prog.run_ret] at hrun
    have hnil : configListing h.unquoted h.configs = [] := by
      by_contra hne
      exact hprinted ⟨rfl, hne⟩
    rw [hnil] at hscan
    rw [hrun.2]
    exact congrArg Except.ok hscan

theorem run_findZsyncCronLines {path : Str} {log : History ReplCmd Answer}
    {o : Except Exn (List CronEntry)} (hrun : (findZsyncCronLines path).Run log o)
    (hanswers : ∀ e ∈ log, e.2 = h.cronAnswer) :
    o = .ok (readTables path "crontab" h.crontab h.cronD) := by
  rw [findZsyncCronLines, Replication.run, Prog.issue_bind, Prog.run_ask] at hrun
  obtain ⟨a, log, rfl, hrun⟩ := hrun
  obtain rfl : a = h.cronAnswer := hanswers _ List.mem_cons_self
  rw [Prog.pure_eq, Prog.run_ret] at hrun
  rw [hrun.2, ← cronEntries_tableListing]
  rfl

theorem run_getRetention {log : History RetentionCmd Answer} {o : Except Exn Retention}
    (hrun : getRetention.Run log o) (hanswers : ∀ e ∈ log, e.2 = h.retentionAnswer e.1) :
    o = (parseRetention (retentionFiles (levelListing h.level))).map (Retention.mk h.installed) := by
  rw [getRetention, Prog.issue_bind, Prog.run_ask] at hrun
  obtain ⟨a, log, rfl, hrun⟩ := hrun
  obtain rfl : a = h.retentionAnswer .findTool := hanswers _ List.mem_cons_self
  rw [Prog.issue_bind, Prog.run_ask] at hrun
  obtain ⟨b, log, rfl, hrun⟩ := hrun
  obtain rfl : b = h.retentionAnswer .printFiles :=
    hanswers _ (List.mem_cons_of_mem _ List.mem_cons_self)
  have hinstalled : contains (h.retentionAnswer .findTool).stdout "INSTALLED" = h.installed := by
    show contains (if h.installed then "INSTALLED\n" else "NO\n") "INSTALLED" = _
    cases h.installed <;> decide
  have hprinted : (h.retentionAnswer .printFiles).stdout = levelListing h.level := rfl
  rw [hprinted] at hrun
  cases hparse : parseRetention (retentionFiles (levelListing h.level)) with
  | error e =>
    rw [hparse] at hrun
    exact hrun.2
  | ok levels =>
    rw [hparse, hinstalled] at hrun
    exact hrun.2

theorem areTables (hplain : h.Plain) (hmarkers : h.NoDelimiters) : AreTables h.crontab h.cronD where
  first := hmarkers.crontab
  others := hmarkers.cronD
  paths := hplain.cronD

theorem nodup_origins (h : HostFiles) : (("crontab" : Str) :: h.cronD.map Prod.fst).Nodup := by
  refine List.nodup_cons.mpr ⟨fun hmem => ?_, h.distinct⟩
  obtain ⟨f, hf, hpath⟩ := List.mem_map.mp hmem
  have hdir := h.cronDir f hf
  rw [hpath] at hdir
  exact absurd hdir (by decide)

theorem retentionFiles_eq (hplain : h.Plain) (hmarkers : h.NoDelimiters) (level : SnapLevel) :
    retentionFiles (levelListing h.level) level = levelText ((h.level level).getD []) := by
  refine retentionFiles_levelListing (fun level l hl => ?_)
  cases htext : h.level level with
  | none =>
    rw [htext] at hl
    obtain rfl := List.mem_singleton.mp hl
    exact ⟨by decide, by decide⟩
  | some text =>
    rw [htext] at hl
    obtain ⟨hmarker, hend⟩ := hplain.levels level text htext l hl
    obtain ⟨hnoMarker, hnoEnd⟩ := hmarkers.levels level text htext l hl
    refine ⟨List.find?_eq_none.mpr (fun other _ hother => ?_), fun h => hnoEnd (hend h)⟩
    exact hnoMarker other (hmarker other (of_decide_eq_true hother))

/-- A missing file is read as one that is empty. -/
theorem levelState_retentionFiles (hplain : h.Plain) (hmarkers : h.NoDelimiters) (level : SnapLevel) :
    levelState level (retentionFiles (levelListing h.level) level) =
        levelState level (h.level level) ↔
      ∀ text, h.level level = some text →
        EndsBlank text ∨ ∀ l ∈ splitLines text, isCommandLine l level.label = false := by
  rw [retentionFiles_eq hplain hmarkers]
  cases htext : h.level level with
  | none => exact iff_of_true rfl (fun _ hnone => by cases hnone)
  | some text =>
    rw [Option.getD_some, levelState_levelText]
    simp only [Option.some.injEq, forall_eq']

end Outcomes

/-- The files are read exactly if they end well. -/
theorem readExactly_iff (h : HostFiles) (hmarkers : h.NoDelimiters) (hplain : h.Plain) :
    h.ReadExactly ↔ h.EndsWell := by
  constructor
  · intro hread
    refine ⟨fun f hf => ?_, fun path => ?_, fun level => ?_⟩
    · obtain ⟨log, o, hrun, hanswers⟩ := Prog.exists_run listConfigs h.configAnswer
      have hlisted := Except.ok.inj ((run_listConfigs hplain hmarkers hrun hanswers).symm.trans
        (hread.configs log o hrun hanswers))
      have hlength := congrArg List.length hlisted
      rw [List.length_map, List.length_map] at hlength
      have hall := List.length_filter_eq_length_iff.mp hlength f hf
      exact of_decide_eq_true hall
    · obtain ⟨log, o, hrun, hanswers⟩ :=
        Prog.exists_run (findZsyncCronLines path) (fun _ => h.cronAnswer)
      have hfound := Except.ok.inj ((run_findZsyncCronLines hrun hanswers).symm.trans
        (hread.cron path log o hrun hanswers))
      exact (readTables_eq_iff (areTables hplain hmarkers) h.nodup_origins).mp hfound
    · obtain ⟨log, o, hrun, hanswers⟩ := Prog.exists_run getRetention h.retentionAnswer
      have hlevel := (hread.levels log o hrun hanswers).2 level
      exact (levelState_retentionFiles hplain hmarkers level).mp hlevel
  · intro hends
    refine ⟨fun log o hrun hanswers => ?_, fun path log o hrun hanswers => ?_,
      fun log o hrun hanswers => ⟨run_getRetention hrun hanswers, fun level => ?_⟩⟩
    · have hall : h.configs.filter (fun f => Ended f.2) = h.configs :=
        List.filter_eq_self.mpr (fun f hf => decide_eq_true (hends.configs f hf))
      rw [run_listConfigs hplain hmarkers hrun hanswers, hall]
    · rw [run_findZsyncCronLines hrun hanswers,
        (readTables_eq_iff (areTables hplain hmarkers) h.nodup_origins).mpr (hends.cron path)]
    · exact (levelState_retentionFiles hplain hmarkers level).mpr (hends.levels level)

/-- A host with one config file. -/
def ofConfig (text : Str) : HostFiles where
  configs := [("/etc/bashclub/10.0.0.1.conf", text)]
  unquoted := fun path => (path, [])
  crontab := []
  cronD := []
  scripts := fun _ => none
  installed := true
  cronDir := by simp
  distinct := List.nodup_nil

theorem noDelimiters_ofConfig {text : Str} (h : ∀ l ∈ splitLines text, IsConfigText l) :
    (ofConfig text).NoDelimiters where
  configs := by
    intro f hf l hl
    obtain rfl := List.mem_singleton.mp hf
    exact h l hl
  crontab := fun l hl => absurd hl List.not_mem_nil
  cronD := fun f hf => absurd hf List.not_mem_nil
  levels := by
    intro level text hlevel
    cases level <;> cases hlevel

theorem plain_ofConfig (text : Str) : (ofConfig text).Plain where
  configs := by
    intro f hf
    obtain rfl := List.mem_singleton.mp hf
    show isPlainPath "/etc/bashclub/10.0.0.1.conf" = true
    decide
  cronD := fun f hf => absurd hf List.not_mem_nil
  levels := by
    intro level text hlevel
    cases level <;> cases hlevel

/-- A config file as `write_config` writes it. -/
theorem readExactly_iff_written : (ofConfig "source=root@10.0.0.1
").ReadExactly ↔
    (ofConfig "source=root@10.0.0.1
").EndsWell :=
  readExactly_iff (ofConfig "source=root@10.0.0.1
")
    (noDelimiters_ofConfig (by decide)) (plain_ofConfig _)

/-- A config file without a newline at its end is not listed. -/
theorem open_config_dropped : ¬ ∀ h : HostFiles, h.NoDelimiters → h.ReadExactly := by
  intro hall
  have hread := hall (ofConfig "source=root@10.0.0.1") (noDelimiters_ofConfig (by decide))
  obtain ⟨log, o, hrun, hanswers⟩ :=
    Prog.exists_run listConfigs (ofConfig "source=root@10.0.0.1").configAnswer
  have hlisted := Except.ok.inj ((run_listConfigs (plain_ofConfig _)
    (noDelimiters_ofConfig (by decide)) hrun hanswers).symm.trans (hread.configs log o hrun hanswers))
  have hlength := congrArg List.length hlisted
  rw [List.length_map, List.length_map] at hlength
  have hended := List.length_filter_eq_length_iff.mp hlength _ List.mem_cons_self
  exact absurd (of_decide_eq_true hended) (by decide)

end HostFiles

end PveZfsTool
