import PveZfsTool.Replication.ImportSafety

/-!
# Scheduling a config twice

`set_cron` drops the tool's own line for the config from root's crontab and
adds a new one, and `get_cron` and `remove_cron` read the line and drop it.

`CronContract` is what the three promise together: one own line after a
successful `set_cron`, the schedule read back, every other line left alone, no
change from a second `set_cron`, and the old table without own lines after
`remove_cron`.

* `setCronDone_iff`: what a successful `set_cron` leaves in the table.
* `otherLines_eq_self`: no rewrite drops a line without a `]`.
* `cron_contract_never`: the line that `set_cron` adds has none, so a second
  `set_cron` adds it again, after every successful one.
-/

namespace PveZfsTool.Replication

open Dialogue Text

/-! ## Reading and removing the schedule -/

/-- An entry of `CRON_PRESETS`. -/
structure CronPreset where
  id : Str
  label : Str
  schedule : Str
  deriving DecidableEq

/-- `CRON_PRESETS` -/
def cronPresets : List CronPreset :=
  [⟨"bashclub_default", "repl_cron_preset_default", "20 0-22 * * *"⟩,
    ⟨"every_15min", "repl_cron_preset_15min", "*/15 * * * *"⟩,
    ⟨"every_30min", "repl_cron_preset_30min", "*/30 * * * *"⟩,
    ⟨"hourly", "repl_cron_preset_hourly", "0 * * * *"⟩,
    ⟨"every_2h", "repl_cron_preset_2h", "0 */2 * * *"⟩,
    ⟨"every_6h", "repl_cron_preset_6h", "0 */6 * * *"⟩,
    ⟨"daily_0300", "repl_cron_preset_daily", "0 3 * * *"⟩]

/-- Every preset passes the check of `set_cron`. -/
theorem validateCron_presets : ∀ p ∈ cronPresets, validateCron p.schedule = true := by
  decide +kernel

structure InstalledCron where
  schedule : Str
  command : Str
  raw : Str
  deriving DecidableEq

structure CronStatus where
  installed : Bool
  entry : Option InstalledCron
  configPath : Str
  presets : List CronPreset
  deriving DecidableEq

/-- The line that `get_cron` stops at: the first one that is no comment and
has the marker in it. -/
def markedLine (path raw : Str) : Option Str :=
  ((splitLines raw).map strip).find?
    (fun s => s != [] && !startsWith s "#" && contains s (cronMarker path))

/-- The five fields of a line and what stands after them. -/
def installedCron (s : Str) : Option InstalledCron :=
  match splitWordsMax 5 s with
  | [a, b, c, d, e, command] => some ⟨join " " [a, b, c, d, e], command, s⟩
  | _ => none

/-- `get_cron`, on the answer to `crontab -l`. -/
def getCron (source : Str) (r : Answer) : CronStatus :=
  let entry := (markedLine (configPathFor source) r.stdout).bind installedCron
  { installed := entry.isSome, entry, configPath := configPathFor source, presets := cronPresets }

structure RemoveCronResult where
  success : Bool
  error : Option Str := none
  stderr : Str := []
  deriving DecidableEq

/-- `remove_cron`, where no source is the empty text. -/
def removeCron (source : Str) : ReplJob RemoveCronResult :=
  if source = [] then return { success := false, error := some "source required" }
  else do
    let r ← run (.rewriteCrontab (configPathFor source) none [] true)
    return { success := r.success && confirmed r, stderr := r.stderr }

/-! ## The contract -/

/-- The redirect of the tool: `>> log 2>&1` for a log file. -/
def isToolRedirect (s : Str) : Bool :=
  startsWith s " >> " && decide ((" 2>&1" : Str) <:+ s) &&
    isLogPath ((s.drop 4).take (s.length - 9))

/-- The line is the tool's own for the config: it is no comment, and after its
five fields it runs bashclub-zsync with the path, with nothing after it but
the redirect of the tool. -/
def isOwnLine (path line : Str) : Bool :=
  !startsWith (strip line) "#" &&
    match splitWordsMax 5 (strip line) with
    | [_, _, _, _, _, command] =>
        startsWith command (cronMarker path) &&
          (command.drop (cronMarker path).length == [] ||
            isToolRedirect (command.drop (cronMarker path).length))
    | _ => false

/-- The line that `set_cron` adds is one. -/
example : isOwnLine "/etc/bashclub/10.0.0.5.conf"
    (cronLine "17 * * * *" "/etc/bashclub/10.0.0.5.conf" logPath) = true := by decide +kernel

variable (D : CronDaemon) (schedule source log : Str)

/-- A `set_cron` that reports success takes the host from `w` to `w'`. -/
def SetCronDone (w w' : ReplHost) : Prop :=
  ∃ tr r, Drives (setCron schedule source log) tr (.ok r) ∧ r.success = true ∧
    (replEnv D).Path w tr w'

/-- A `remove_cron` that reports success takes the host from `w` to `w'`. -/
def RemoveCronDone (w w' : ReplHost) : Prop :=
  ∃ tr r, Drives (removeCron source) tr (.ok r) ∧ r.success = true ∧ (replEnv D).Path w tr w'

/-- What holds after a successful `set_cron` that took the host from `w` to
`w'`. -/
structure CronContract (w w' : ReplHost) : Prop where
  one : ((fileLines (w'.cron "crontab")).filter (isOwnLine (configPathFor source))).length = 1
  read : (getCron source (prints (w'.cron "crontab"))).entry.map InstalledCron.schedule =
    some schedule
  others : (fileLines (w'.cron "crontab")).filter (fun l => !isOwnLine (configPathFor source) l) =
    (fileLines (w.cron "crontab")).filter (fun l => !isOwnLine (configPathFor source) l)
  again : ∀ w₂, SetCronDone D schedule source log w' w₂ → w₂.cron "crontab" = w'.cron "crontab"
  removed : ∀ w₂, RemoveCronDone D source w' w₂ → fileLines (w₂.cron "crontab") =
    (fileLines (w.cron "crontab")).filter (fun l => !isOwnLine (configPathFor source) l)

variable {D schedule source log} {w w' : ReplHost}

/-! ## What a successful change leaves -/

/-- The table that `set_cron` installs. -/
def scheduled (schedule source log table : Str) : Str :=
  rewritten (configPathFor source) (some (cronLine schedule (configPathFor source) log)) table

theorem setCronDone_iff :
    SetCronDone D schedule source log w w' ↔ setCronError schedule source log = none ∧
      w'.files = w.files ∧ (∀ o : Str, o ≠ "crontab" → w'.cron o = w.cron o) ∧
      w'.cron "crontab" = scheduled schedule source log (w.cron "crontab") ∧
      D.accepts (cronLine schedule (configPathFor source) log) := by
  constructor
  · intro ⟨tr, r, hrun, hsuccess, hpath⟩
    cases herror : setCronError schedule source log with
    | some error =>
      rw [setCron, herror] at hrun
      rw [Except.ok.inj hrun.2] at hsuccess
      cases hsuccess
    | none =>
      rw [setCron, herror] at hrun
      obtain ⟨a, u, t, htr, hret⟩ := drives_ask hrun
      have ht : t = [] := eq_nil_of_answered hret.1
      rw [htr, ht] at hpath
      obtain ⟨⟨hfiles, hothers, hcron⟩, hend⟩ := hpath
      have hend : u = w' := hend
      rw [Except.ok.inj hret.2] at hsuccess
      simp only [Bool.and_eq_true] at hsuccess
      rw [← hend]
      rcases hcron with ⟨hcron, haccepts⟩ | ⟨-, hunconfirmed⟩
      · exact ⟨rfl, hfiles, hothers, hcron, haccepts _ rfl⟩
      · rw [hsuccess.2] at hunconfirmed
        cases hunconfirmed
  · intro ⟨herror, hfiles, hothers, hcron, haccepts⟩
    let q : ReplCmd := .rewriteCrontab (configPathFor source)
      (some (cronLine schedule (configPathFor source) log))
      (if Paths.dirname log = "/var/log" then [] else Paths.dirname log) true
    refine ⟨[(.request q (prints "__OK__\n"), w')],
      { success := true, schedule := strip schedule, configPath := configPathFor source
        command := cronLine schedule (configPathFor source) log }, ?_, rfl, ?_, rfl⟩
    · rw [setCron, herror]
      refine ⟨rfl, rfl, ?_⟩
      have hconfirmed : confirmed (prints "__OK__\n") = true := by decide +kernel
      show Except.ok _ = Except.ok _
      rw [hconfirmed]
      rfl
    · refine ⟨hfiles, hothers, .inl ⟨hcron, ?_⟩⟩
      intro line hline
      rw [← Option.some.inj hline]
      exact haccepts

/-! ## The second time -/

theorem bracket_not_mem_cronLine (h : setCronError schedule source log = none) :
    ']' ∉ cronLine schedule (configPathFor source) log := by
  unfold setCronError at h
  split at h
  · cases h
  · rename_i hvalid
    split at h
    · cases h
    · rename_i hlog
      have hconst : ∀ s : Str, s.contains ']' = false → ']' ∉ s := by
        intro s hs hmem
        rw [List.contains_iff_mem.mpr hmem] at hs
        cases hs
      intro hmem
      rcases List.mem_append.mp hmem with hmem | hend
      · rcases List.mem_append.mp hmem with hmem | hmem
        · rcases List.mem_append.mp hmem with hmem | happend
          · rcases List.mem_append.mp hmem with hmem | hpath
            · rcases List.mem_append.mp hmem with hschedule | htool
              · have hvalid : validateCron schedule = true := by simpa using hvalid
                simp only [validateCron, Bool.and_eq_true] at hvalid
                have hchar := List.all_eq_true.mp hvalid.1.2 ']' hschedule
                revert hchar
                decide +kernel
              · exact hconst _ (by decide +kernel) htool
            · rcases mem_configPathFor hpath with hname | hslash
              · revert hname
                decide
              · cases hslash
          · exact hconst _ (by decide +kernel) happend
        · have hgood : atDollar isLogPath log = true := by simpa using hlog
          have hpath : ∀ t, isLogPath t = true → ']' ∉ t := by
            intro t ht hbracket
            simp only [isLogPath, Bool.and_eq_true] at ht
            have hchar := List.all_eq_true.mp ht.2 ']' hbracket
            revert hchar
            decide
          rcases atDollar_cases hgood with hall | ⟨t, hend, ht⟩
          · exact hpath log hall hmem
          · rw [hend] at hmem
            rcases List.mem_append.mp hmem with hfront | hnewline
            · exact hpath t ht hfront
            · exact hconst _ (by decide) hnewline
      · exact hconst _ (by decide +kernel) hend

/-- No rewrite drops a line without a `]`. -/
theorem otherLines_eq_self {path text : Str} (h : ∀ l ∈ fileLines text, ownCronLine path l = false) :
    otherLines path text = fileLines text :=
  List.filter_eq_self.mpr (fun l hl => by simp [h l hl])

/-- The table that a rewrite with a new line installs ends in that line. -/
theorem fileLines_scheduled {table : Str} :
    fileLines (scheduled schedule source log table) =
      otherLines (configPathFor source) table ++
        fileLines (cronLine schedule (configPathFor source) log ++ ['\n']) := by
  rw [scheduled, rewritten, fileLines_append terminated_unlines, fileLines_unlines]
  intro l hl
  exact not_mem_of_mem_fileLines (List.mem_filter.mp hl).1

/-- Scheduling once more adds the line once more. -/
theorem scheduled_twice {table : Str} (h : setCronError schedule source log = none) :
    scheduled schedule source log (scheduled schedule source log table) =
      scheduled schedule source log table ++
        (cronLine schedule (configPathFor source) log ++ ['\n']) := by
  have hkept : otherLines (configPathFor source) (scheduled schedule source log table) =
      fileLines (scheduled schedule source log table) := by
    apply otherLines_eq_self
    rw [fileLines_scheduled]
    intro l hl
    rcases List.mem_append.mp hl with hother | hnew
    · simpa using (List.mem_filter.mp hother).2
    · by_contra hown
      have hbracket := mem_of_mem_fileLines hnew (mem_of_ownCronLine (by simpa using hown))
      rcases List.mem_append.mp hbracket with hline | hnewline
      · exact bracket_not_mem_cronLine h hline
      · revert hnewline
        decide
  have hterminated : Terminated (scheduled schedule source log table) := terminated_line
  rw [scheduled, rewritten, hkept, unlines_fileLines hterminated]

/-- The host after a successful `set_cron`. -/
def reschedule (schedule source log : Str) (w : ReplHost) : ReplHost :=
  { w with
    cron := Function.update w.cron "crontab" (scheduled schedule source log (w.cron "crontab")) }

theorem reschedule_crontab :
    (reschedule schedule source log w).cron "crontab" =
      scheduled schedule source log (w.cron "crontab") :=
  Function.update_self ("crontab" : Str) _ w.cron

theorem setCronDone_reschedule (herror : setCronError schedule source log = none)
    (haccepts : D.accepts (cronLine schedule (configPathFor source) log)) :
    SetCronDone D schedule source log w (reschedule schedule source log w) := by
  apply setCronDone_iff.mpr
  refine ⟨herror, rfl, fun o ho => ?_, reschedule_crontab, haccepts⟩
  exact Function.update_of_ne ho _ w.cron

/-- After every successful `set_cron` a second one changes the table. -/
theorem cron_contract_never (h : SetCronDone D schedule source log w w') :
    ¬ CronContract D schedule source log w w' := by
  intro hcontract
  obtain ⟨herror, -, -, hcron, haccepts⟩ := setCronDone_iff.mp h
  have hsame := hcontract.again _ (setCronDone_reschedule herror haccepts)
  rw [reschedule_crontab, hcron, scheduled_twice herror] at hsame
  have hlength := congrArg List.length hsame
  simp only [List.length_append, List.length_cons, List.length_nil] at hlength
  omega

/-- A host with no cron tables. -/
def noCron : ReplHost := ⟨fun _ => none, fun _ => []⟩

theorem setCronDone_noCron :
    SetCronDone plainCron "17 * * * *" "10.0.0.5" logPath noCron
      (reschedule "17 * * * *" "10.0.0.5" logPath noCron) :=
  setCronDone_reschedule (by decide +kernel) trivial

/-- The table gets the line of the config twice. -/
theorem cron_contract_broken :
    ∃ w', SetCronDone plainCron "17 * * * *" "10.0.0.5" logPath noCron w' ∧
      ¬ CronContract plainCron "17 * * * *" "10.0.0.5" logPath noCron w' := by
  refine ⟨_, setCronDone_noCron, fun hcontract => ?_⟩
  have hsame := hcontract.again _ (setCronDone_reschedule (by decide +kernel) trivial)
  revert hsame
  decide +kernel

theorem cron_contract_never_first :
    ¬ CronContract plainCron "17 * * * *" "10.0.0.5" logPath noCron
      (reschedule "17 * * * *" "10.0.0.5" logPath noCron) :=
  cron_contract_never setCronDone_noCron

end PveZfsTool.Replication
