import PveZfsTool.Replication.ConfigFile
import PveZfsTool.Lib.Ere
import PveZfsTool.Lib.LineFile
import PveZfsTool.Lib.Lines
import PveZfsTool.Lib.Paths

/-!
# The cron lines of bashclub-zsync

`app/replication.py` schedules a config with one line in root's crontab, and
`findZsyncCronLines`, `setCron` and `removeCronLine` read and change it.

The scripts find the tool's own line with `grep -E`.  `ownCronLinePattern` is
the pattern that they send, and `ownCronLine` is what `grep -E` answers.

The pattern is made from a template in which `[^#{ws}]` stands for the first
character of a line that is no comment.  With `[[:space:]]` for `{ws}` this
becomes `[^#[[:space:]]]`, a bracket expression that ends one bracket earlier,
and a bracket after it.

* `parse_ownCronLinePattern`: what the pattern is, for every path.
* `mem_of_ownCronLine`: a line that it matches has a `]` in it.

`CronDaemon` stands for cron and for `crontab`, and `replEnv` says what the
commands do to the config files and to the cron tables:

* a rewrite of root's crontab that is not confirmed may have been done, and one
  of a file in `/etc/cron.d` may have been cut off as well, since the file is
  written in place;
* a rename is done or not done.
-/

namespace PveZfsTool.Replication

open Dialogue Text

/-! ## The pattern of the tool's own line -/

/-- `_OWN_CRON_LINE_TEMPLATE` -/
def ownCronLineTemplate (ws path : Str) : Str :=
  "^" ++ ws ++ "*[^#" ++ ws ++ "].*" ++ ws ++ "(/usr/bin/)?bashclub-zsync -c " ++ path ++
    "(" ++ ws ++ "+>>.*)?" ++ ws ++ "*$"

/-- `own_cron_line_pattern` in its `ere` flavour.  `_ere_escape` is
`Ere.escape`. -/
def ownCronLinePattern (path : Str) : Str := ownCronLineTemplate "[[:space:]]" (Ere.escape path)

/-- `grep -E` takes the line for the tool's own line for the config. -/
def ownCronLine (path line : Str) : Bool := Ere.grepLine (ownCronLinePattern path) line

/-- `[[:space:]]` -/
def blankSet : Ere.CharSet := .bracket false [.space]

/-- The pattern up to the second bracket of `[^#[[:space:]]]`. -/
def lineStart : Ere.Pattern :=
  .seq (.seq (.seq .empty (.many blankSet)) (.one (.bracket true [.char '#', .char '[', .space])))
    (.one (.lit ']'))

/-- The pattern up to the config path. -/
def toolCall : Ere.Pattern :=
  (Ere.Pattern.seq (.seq (.seq lineStart (.many .any)) (.one blankSet))
    (.opt (Ere.Pattern.lits .empty "/usr/bin/"))).lits "bashclub-zsync -c "

/-- What may follow the config path. -/
def redirect : Ere.Pattern :=
  .opt (.seq (Ere.Pattern.lits (.seq .empty (.seq (.one blankSet) (.many blankSet))) ">>")
    (.many .any))

/-- The pattern as `grep -E` reads it. -/
def ownLine (path : Str) : Ere.Pattern :=
  .seq (.seq (toolCall.lits path) redirect) (.many blankSet)

/-- The reader before the config path. -/
theorem read_toolCall :
    ∃ r, Ere.read {} ("[[:space:]]*[^#[[:space:]]].*[[:space:]](/usr/bin/)?bashclub-zsync -c " : Str) =
      some r ∧ r.mode = .plain ∧ r.outer = [] ∧ r.flush = toolCall := by
  refine ⟨⟨.plain, [], (Ere.Pattern.seq (.seq (.seq lineStart (.many .any)) (.one blankSet))
    (.opt (Ere.Pattern.lits .empty "/usr/bin/"))).lits "bashclub-zsync -c", some (.set (.lit ' '))⟩,
    ?_, rfl, rfl, ?_⟩
  · decide +kernel
  · decide +kernel

/-- The reader after the config path. -/
theorem read_redirect {r : Ere.Reader} (hmode : r.mode = .plain) (houter : r.outer = []) :
    (Ere.read r ("([[:space:]]+>>.*)?[[:space:]]*$" : Str)).bind Ere.finish =
      some (.seq (.seq r.flush redirect) (.many blankSet)) := by
  have htext : ("([[:space:]]+>>.*)?[[:space:]]*$" : Str) =
      '(' :: ("[[:space:]]+>>.*)?[[:space:]]*$" : Str) := by decide +kernel
  have hopen : Ere.step r '(' = some ⟨.plain, [r.flush], .empty, none⟩ := by
    rw [Ere.step, hmode]
    show some { r with outer := r.flush :: r.outer, cur := .empty, last := none } = _
    rw [hmode, houter]
  rw [htext, Ere.read, List.foldlM_cons, hopen]
  rfl

theorem parse_ownCronLinePattern (path : Str) :
    Ere.parse (ownCronLinePattern path) = some (ownLine path) := by
  have hfront : ("^" : Str) ++ ("[[:space:]]" : Str) ++ ("*[^#" : Str) ++ ("[[:space:]]" : Str) ++
      ("].*" : Str) ++ ("[[:space:]]" : Str) ++ ("(/usr/bin/)?bashclub-zsync -c " : Str) =
      '^' :: ("[[:space:]]*[^#[[:space:]]].*[[:space:]](/usr/bin/)?bashclub-zsync -c " : Str) := by
    decide +kernel
  have htail : ("([[:space:]]+>>.*)?[[:space:]]*$" : Str) =
      ("(" : Str) ++ (("[[:space:]]" : Str) ++ (("+>>.*)?" : Str) ++ (("[[:space:]]" : Str) ++
        ("*$" : Str)))) := by
    decide +kernel
  have hassoc : ∀ a b c d e f g : Str,
      a ++ b ++ c ++ d ++ e ++ f ++ g = a ++ (b ++ (c ++ (d ++ (e ++ (f ++ g))))) := by
    simp
  have htext : ownCronLinePattern path =
      '^' :: (("[[:space:]]*[^#[[:space:]]].*[[:space:]](/usr/bin/)?bashclub-zsync -c " : Str) ++
        (Ere.escape path ++ ("([[:space:]]+>>.*)?[[:space:]]*$" : Str))) :=
    (hassoc _ _ _ _ _ _ _).trans
      (congrArg₂ (· ++ ·) hfront (congrArg (Ere.escape path ++ ·) htail.symm))
  obtain ⟨r, hread, hmode, houter, hflush⟩ := read_toolCall
  obtain ⟨r', hread', hmode', houter', hflush', -⟩ := Ere.read_escaped (s := path) hmode
  rw [htext, Ere.parse, Ere.read_append, hread]
  show ((Ere.read r (Ere.escape path ++ _)).bind Ere.finish) = _
  rw [Ere.read_append, hread']
  show (Ere.read r' _).bind Ere.finish = _
  rw [read_redirect hmode' (houter'.trans houter), hflush', hflush]
  rfl

/-- `grep -E` only takes a line that has a `]` after its first character. -/
theorem mem_of_ownCronLine {path line : Str} (h : ownCronLine path line = true) : ']' ∈ line := by
  have hmatch : (ownLine path).Matches line :=
    (Ere.grepLine_iff (parse_ownCronLinePattern path)).mp h
  have hleads : Ere.Leads lineStart (ownLine path) :=
    ((((Ere.Leads.refl.seq.seq.seq).lits).lits).seq).seq
  obtain ⟨u, v, rfl, u₁, u₂, rfl, -, c, rfl, hc⟩ := hleads line hmatch
  have hbracket : c = ']' := by simpa [Ere.CharSet.mem] using hc
  simp [hbracket]

/-- The tool's own line is not matched. -/
example : ownCronLine "/etc/bashclub/10.0.0.5.conf"
    "17 * * * * bashclub-zsync -c /etc/bashclub/10.0.0.5.conf" = false := by decide +kernel

/-! ## The command lines -/

/-- `LOG_DIR` -/
def logDir : Str := "/var/log/bashclub-zsync"

/-- `LOG_PATH` -/
def logPath : Str := "/var/log/bashclub-zsync/zsync.log"

/-- The part of the rewrite that adds a line. -/
def appendScript : Option Str → Str
  | none => []
  | some line =>
      "echo " ++ shlexQuote (base64 (utf8 line)) ++
        " | base64 -d >> \"$TMP\"; printf '\\n' >> \"$TMP\"; "

/-- `_crontab_rewrite_script` -/
def crontabRewriteScript (path : Str) (append : Option Str) : Str :=
  "RE=$(echo " ++ shlexQuote (base64 (utf8 (ownCronLinePattern path))) ++ " | base64 -d); " ++
  "TMP=$(mktemp); CUR=\"$TMP.cur\"; ERR=\"$TMP.err\"; " ++
  "if crontab -l > \"$CUR\" 2> \"$ERR\"; then :; " ++
  "elif grep -qi 'no crontab for' \"$ERR\"; then : > \"$CUR\"; " ++
  "else echo __CRONTAB_UNREADABLE__; cat \"$ERR\"; rm -f \"$TMP\" \"$CUR\" \"$ERR\"; exit 1; fi; " ++
  "if [ -s \"$CUR\" ]; then cp \"$CUR\" \"$\x7bHOME:-/root\x7d/crontab.bak-$(date +%Y%m%d-%H%M%S)\"; fi; " ++
  "grep -vE -- \"$RE\" \"$CUR\" > \"$TMP\" || true; " ++
  appendScript append ++
  "crontab \"$TMP\"; rm -f \"$TMP\" \"$CUR\" \"$ERR\"; "

/-- `_cron_reload_snippet` -/
def cronReloadSnippet : Str :=
  "if command -v systemctl >/dev/null 2>&1; then " ++
  "  systemctl reload cron 2>/dev/null || " ++
  "  systemctl reload crond 2>/dev/null || " ++
  "  systemctl reload-or-restart cron 2>/dev/null || true; " ++
  "elif command -v service >/dev/null 2>&1; then " ++
  "  service cron reload 2>/dev/null || service cron restart 2>/dev/null || true; " ++
  "fi; "

/-- The command line that is sent to the host. -/
def ReplCmd.text : ReplCmd → Str
  | .catFile path => "cat " ++ shlexQuote path ++ " 2>/dev/null"
  | .pathProbe path => "[ -e " ++ shlexQuote path ++ " ] && echo __YES__ || echo __NO__"
  | .zfsListTagged tag =>
      "zfs list -H -o name,type," ++ shlexQuote tag ++ " -t filesystem,volume"
  | .writeFile path text => writeScript path text
  | .listCron =>
      "echo __CRONTAB__; crontab -l 2>/dev/null; " ++
      "for f in /etc/cron.d/*; do [ -f \"$f\" ] || continue; " ++
      "echo \"__CROND__ $f\"; cat \"$f\"; done 2>/dev/null"
  | .rewriteCrontab path append logDir reload =>
      let mkdir : Str := if logDir = [] then [] else "mkdir -p " ++ shlexQuote logDir ++ "; "
      let reloads : Str := if reload then cronReloadSnippet else []
      "set -e; " ++ mkdir ++ crontabRewriteScript path append ++ reloads ++ "echo __OK__"
  | .rewriteCronD file path =>
      "RE=$(echo " ++ shlexQuote (base64 (utf8 (ownCronLinePattern path))) ++ " | base64 -d); F=" ++
      shlexQuote file ++ "; TMP=$(mktemp); " ++
      "cp \"$F\" \"$F.bak-$(date +%Y%m%d-%H%M%S)\"; " ++
      "grep -vE -- \"$RE\" \"$F\" > \"$TMP\" || true; cat \"$TMP\" > \"$F\" && " ++
      "rm -f \"$TMP\" && echo __OK__"
  | .park path =>
      "P=" ++ shlexQuote path ++ "; N=\"$P.imported-$(date +%Y%m%d%H%M%S)\"; " ++
      "mv \"$P\" \"$N\" && echo \"__PARKED__ $N\""

/-! ## Reading the schedules -/

/-- `_cron_marker` -/
def cronMarker (path : Str) : Str := "bashclub-zsync -c " ++ path

/-- `[\s\d\*/,\-]` -/
def isCronChar (c : Char) : Bool :=
  isSpace c || isDecimal c || c == '*' || c == '/' || c == ',' || c == '-'

/-- `_validate_cron` -/
def validateCron (schedule : Str) : Bool :=
  strip schedule != [] && (strip schedule).all isCronChar &&
    (splitWords (strip schedule)).length == 5

/-- An entry of `_find_zsync_cron_lines`.  `origin` is its `where`. -/
structure CronEntry where
  origin : Str
  schedule : Str
  user : Str
  command : Str
  raw : Str
  deriving DecidableEq

/-- One line of a cron table, without whitespace around it.  In `/etc/cron.d`
the sixth field is the user. -/
def cronEntry (path origin s : Str) : Option CronEntry :=
  if s = [] ∨ startsWith s "#" = true ∨ contains s (cronMarker path) = false then none
  else if origin = "crontab" then
    match splitWordsMax 5 s with
    | [a, b, c, d, e, command] => some ⟨origin, join " " [a, b, c, d, e], [], command, s⟩
    | _ => none
  else match splitWordsMax 6 s with
    | [a, b, c, d, e, user, command] => some ⟨origin, join " " [a, b, c, d, e], user, command, s⟩
    | _ => none

/-- The lines of the listing from a place in the table `origin` on. -/
def cronEntries (path : Str) : Str → List Str → List CronEntry
  | _, [] => []
  | origin, line :: lines =>
      if line = "__CRONTAB__" then cronEntries path "crontab" lines
      else if startsWith line "__CROND__ " then cronEntries path (strip (line.drop 10)) lines
      else (cronEntry path origin (strip line)).toList ++ cronEntries path origin lines

theorem noBreak_schedule_of_mem_toList {path origin s : Str} {c : CronEntry} (hs : NoBreak s)
    (h : c ∈ (cronEntry path origin s).toList) : NoBreak c.schedule := by
  have hwords : ∀ n ws, splitWordsMax n s = ws → ∀ parts, parts.Sublist ws →
      NoBreak (join " " parts) := by
    intro n ws hws parts hsub d hd
    rcases mem_join hd with hspace | ⟨p, hp, hdp⟩
    · rw [List.mem_singleton.mp hspace]
      rfl
    · exact hs d (mem_of_mem_splitWordsMax (hws ▸ hsub.subset hp) hdp)
  unfold cronEntry at h
  split at h
  · cases h
  · split at h
    · split at h
      · rename_i hws
        rw [List.mem_singleton.mp h]
        exact hwords 5 _ hws _ (by simp)
      · cases h
    · split at h
      · rename_i hws
        rw [List.mem_singleton.mp h]
        exact hwords 6 _ hws _ (by simp)
      · cases h

theorem noBreak_schedule {path origin : Str} {lines : List Str} {c : CronEntry}
    (hlines : ∀ l ∈ lines, NoBreak l) (h : c ∈ cronEntries path origin lines) :
    NoBreak c.schedule := by
  induction lines generalizing origin with
  | nil => cases h
  | cons l lines ih =>
    have hrest : ∀ l ∈ lines, NoBreak l := fun l' hl' => hlines l' (List.mem_cons_of_mem _ hl')
    rw [cronEntries] at h
    by_cases hcrontab : l = "__CRONTAB__"
    · rw [if_pos hcrontab] at h
      exact ih hrest h
    · rw [if_neg hcrontab] at h
      by_cases hcrond : startsWith l "__CROND__ " = true
      · rw [if_pos hcrond] at h
        exact ih hrest h
      · rw [if_neg hcrond] at h
        rcases List.mem_append.mp h with hfirst | htail
        · refine noBreak_schedule_of_mem_toList (fun d hd => ?_) hfirst
          exact hlines l List.mem_cons_self d (mem_of_mem_strip hd)
        · exact ih hrest htail

/-- `_find_zsync_cron_lines` -/
def findZsyncCronLines (path : Str) : ReplJob (List CronEntry) := do
  let r ← run .listCron
  return cronEntries path "crontab" (splitLines r.stdout)

/-! ## Changing the schedules -/

/-- The script printed its last word. -/
def confirmed (a : Answer) : Bool := contains a.stdout "__OK__"

/-- `_CROND_PATH_RE`, for a text without a newline at its end. -/
def isCronDPath (file : Str) : Bool :=
  startsWith file "/etc/cron.d/" && file.drop 12 != [] && (file.drop 12).all isFileNameChar

structure CronRemoval where
  success : Bool
  stderr : Str
  deriving DecidableEq

def removalResult (r : Answer) : CronRemoval :=
  ⟨confirmed r, if confirmed r then [] else if r.stderr ≠ [] then r.stderr else r.stdout⟩

/-- `_remove_cron_line` -/
def removeCronLine (origin path : Str) : ReplJob CronRemoval :=
  if origin = "crontab" then do
    let r ← run (.rewriteCrontab path none [] false)
    return removalResult r
  else if !isCronDPath origin then return ⟨false, "invalid cron.d path"⟩
  else do
    let r ← run (.rewriteCronD origin path)
    return removalResult r

/-- The line that `set_cron` installs. -/
def cronLine (schedule path logPath : Str) : Str :=
  strip schedule ++ " bashclub-zsync -c " ++ path ++ " >> " ++ logPath ++ " 2>&1"

/-- The characters of a line that `set_cron` installs for its log file. -/
theorem mem_cronLine {schedule source : Str} {c : Char}
    (h : c ∈ cronLine schedule (configPathFor source) logPath) :
    c ∈ strip schedule ∨ isFileNameChar c = true ∨ c ∈ ['/', ' ', '>', '&'] := by
  have hconst : ∀ s : Str, s.all (fun c => isFileNameChar c || ['/', ' ', '>', '&'].contains c) = true →
      c ∈ s → isFileNameChar c = true ∨ c ∈ ['/', ' ', '>', '&'] := by
    intro s hall hc
    simpa [Bool.or_eq_true] using List.all_eq_true.mp hall c hc
  unfold cronLine at h
  rcases List.mem_append.mp h with h | hend
  · rcases List.mem_append.mp h with h | hlog
    · rcases List.mem_append.mp h with h | happend
      · rcases List.mem_append.mp h with h | hpath
        · rcases List.mem_append.mp h with hschedule | htool
          · exact .inl hschedule
          · exact .inr (hconst _ (by decide +kernel) htool)
        · rcases mem_configPathFor hpath with hname | hslash
          · exact .inr (.inl hname)
          · exact .inr (.inr (by simp [hslash]))
      · exact .inr (hconst _ (by decide +kernel) happend)
    · exact .inr (hconst logPath (by decide +kernel) hlog)
  · exact .inr (hconst _ (by decide +kernel) hend)

/-- No rewrite drops the line that `set_cron` installs. -/
theorem not_ownCronLine_cronLine {schedule source path : Str}
    (hvalid : validateCron schedule = true) :
    ownCronLine path (cronLine schedule (configPathFor source) logPath) = false := by
  by_contra hown
  have hbracket := mem_of_ownCronLine (by simpa using hown)
  rcases mem_cronLine hbracket with hschedule | hname | hconst
  · simp only [validateCron, Bool.and_eq_true] at hvalid
    have hchar := List.all_eq_true.mp hvalid.1.2 ']' hschedule
    revert hchar
    decide +kernel
  · revert hname
    decide
  · revert hconst
    decide

theorem newline_not_mem_cronLine {schedule source : Str} (h : NoBreak schedule) :
    '\n' ∉ cronLine schedule (configPathFor source) logPath := by
  intro hmem
  rcases mem_cronLine hmem with hschedule | hname | hconst
  · have hbreak := h '\n' (mem_of_mem_strip hschedule)
    revert hbreak
    decide
  · revert hname
    decide
  · revert hconst
    decide

structure SetCronResult where
  success : Bool
  error : Option Str := none
  schedule : Str := []
  command : Str := []
  configPath : Str := []
  stderr : Str := []
  deriving DecidableEq

/-- The characters that a log path may have. -/
def isLogPath (p : Str) : Bool := p != [] && p.all (fun c => isFileNameChar c || c == '/')

/-- The refusals of `set_cron`, which come before its command. -/
def setCronError (schedule source log : Str) : Option Str :=
  if !validateCron schedule then some "invalid cron schedule (expected 5 fields, digits / * - , /)"
  else if !atDollar isLogPath log then some "invalid log path"
  else if Paths.normpath log ≠ log ∨ startsWith (Paths.normpath log) (logDir ++ ['/']) = false ∨
      Paths.normpath log = logDir ++ ['/'] then
    some "log path must be a file under /var/log/bashclub-zsync"
  else if source = [] then
    some "source required -- the tool does not schedule the legacy /etc/bashclub/zsync.conf"
  else none

/-- `set_cron`, where no source is the empty text. -/
def setCron (schedule source log : Str) : ReplJob SetCronResult :=
  match setCronError schedule source log with
  | some error => return { success := false, error := some error }
  | none => do
      let path := configPathFor source
      let line := cronLine schedule path log
      let dir := Paths.dirname log
      let r ← run (.rewriteCrontab path (some line) (if dir = "/var/log" then [] else dir) true)
      return { success := r.success && confirmed r, schedule := strip schedule, command := line,
               configPath := path, stderr := r.stderr }

/-! ## What the commands do -/

/-- The config files of a host and its cron tables.  The table `crontab` is
root's, and the others are the files in `/etc/cron.d`. -/
structure ReplHost where
  files : Str → Option Str
  cron : Str → Str

/-- cron, and the check that `crontab` makes before it installs a table. -/
structure CronDaemon where
  /-- `crontab` installs a table with this line. -/
  accepts : Str → Prop
  /-- This line of a table runs bashclub-zsync with this config file. -/
  runs : Str → Str → Str → Prop
  runs_cronLine : ∀ schedule source, validateCron schedule = true →
    accepts (cronLine schedule (configPathFor source) logPath) → ∀ p,
      runs "crontab" (cronLine schedule (configPathFor source) logPath) p ↔ p = configPathFor source

/-- The lines that `grep -vE` prints. -/
def otherLines (path text : Str) : List Str :=
  (fileLines text).filter (fun l => !ownCronLine path l)

/-- The table that `_crontab_rewrite_script` installs. -/
def rewritten (path : Str) (append : Option Str) (text : Str) : Str :=
  unlines (otherLines path text) ++ match append with
    | none => []
    | some line => line ++ ['\n']

theorem fileLines_rewritten {path text : Str} {append : Option Str}
    (h : ∀ line, append = some line → '\n' ∉ line) :
    fileLines (rewritten path append text) = otherLines path text ++ append.toList := by
  have hlines : rewritten path append text = unlines (otherLines path text ++ append.toList) := by
    cases append with
    | none => simp [rewritten]
    | some line => simp [rewritten, unlines]
  rw [hlines, fileLines_unlines]
  intro l hl
  rcases List.mem_append.mp hl with hother | hnew
  · exact not_mem_of_mem_fileLines (List.mem_filter.mp hother).1
  · exact h l (Option.mem_toList.mp hnew)

/-- What a command does. -/
def replRespond (D : CronDaemon) (w : ReplHost) : ReplCmd → Answer → ReplHost → Prop
  | .catFile p, a, w' => (a.success = true → w.files p = some a.stdout) ∧ w' = w
  | .pathProbe _, _, w' => w' = w
  | .zfsListTagged _, _, w' => w' = w
  | .listCron, _, w' => w' = w
  | .writeFile p text, a, w' =>
      w'.cron = w.cron ∧ (∀ q, isConfPath q = true → q ≠ p → w'.files q = w.files q) ∧
        (a.success = true → w'.files p = some text)
  | .rewriteCrontab p append _ _, a, w' =>
      w'.files = w.files ∧ (∀ o : Str, o ≠ "crontab" → w'.cron o = w.cron o) ∧
        (w'.cron "crontab" = rewritten p append (w.cron "crontab") ∧
            (∀ line, append = some line → D.accepts line) ∨
          w'.cron "crontab" = w.cron "crontab" ∧ confirmed a = false)
  | .rewriteCronD file p, a, w' =>
      w'.files = w.files ∧ (∀ o, o ≠ file → w'.cron o = w.cron o) ∧
        (w'.cron file = rewritten p none (w.cron file) ∨
          confirmed a = false ∧
            (w'.cron file = w.cron file ∨ w'.cron file <+: rewritten p none (w.cron file)))
  | .park p, a, w' =>
      w'.cron = w.cron ∧ (∀ q, isConfPath q = true → q ≠ p → w'.files q = w.files q) ∧
        (w'.files p = none ∨
          w'.files p = w.files p ∧ contains a.stdout "__PARKED__" = false)

/-- The host of the configs.  Nobody else changes them during an import. -/
def replEnv (D : CronDaemon) : Env ReplHost ReplCmd Answer Empty where
  respond := replRespond D
  move _ m _ := m.elim

end PveZfsTool.Replication
