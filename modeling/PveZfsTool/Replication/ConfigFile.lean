import PveZfsTool.Host

/-!
# The config files of bashclub-zsync

`app/replication.py` keeps one config file for each replication source, at
`/etc/bashclub/<source>.conf`.  A config is shell text with `key=value` lines.

`parseConfig` and `serializeConfig` read and write the text.  `writeConfig`
replaces the values in the file and keeps its comments and its order.

`ReplCmd` has one constructor for each command line that the module builds,
and `ReplCmd.text` is the command line itself.  The patterns of the crontab
scripts are in `Replication/Cron.lean`, so a command carries the config path
it is about.
-/

namespace PveZfsTool.Replication

open Dialogue Text

/-! ## Paths -/

/-- `CONFIG_DIR` -/
def configDir : Str := "/etc/bashclub"

/-- `CONFIG_PATH` -/
def configPath : Str := "/etc/bashclub/zsync.conf"

/-- `_extract_ip` -/
def extractIp (source : Str) : Str := afterFirst '@' (strip source)

/-- `[A-Za-z0-9._-]` -/
def isFileNameChar (c : Char) : Bool :=
  isAsciiAlnum c || c == '.' || c == '_' || c == '-'

/-- `_safe_filename` -/
def safeFilename (name : Str) : Str := name.map (fun c => if isFileNameChar c then c else '_')

/-- `config_path_for`, where no source is the empty text. -/
def configPathFor (source : Str) : Str :=
  if extractIp source = [] then configPath
  else configDir ++ '/' :: (safeFilename (extractIp source) ++ ".conf")

/-- `_CONF_PATH_RE`, for a text without a newline at its end. -/
def isConfPath (path : Str) : Bool :=
  let name := path.drop (configDir.length + 1)
  startsWith path (configDir ++ ['/']) && name.all isFileNameChar &&
    decide ((".conf" : Str) <:+ name) && decide (5 < name.length)

theorem isFileNameChar_of_mem_safeFilename {name : Str} {c : Char} (h : c ∈ safeFilename name) :
    isFileNameChar c = true := by
  obtain ⟨d, -, hd⟩ := List.mem_map.mp h
  rw [← hd]
  by_cases hsafe : isFileNameChar d = true
  · rw [if_pos hsafe]
    exact hsafe
  · rw [if_neg hsafe]
    rfl

theorem mem_configPathFor {source : Str} {c : Char} (h : c ∈ configPathFor source) :
    isFileNameChar c = true ∨ c = '/' := by
  have hconst : ∀ s : Str, s.all (fun c => isFileNameChar c || c == '/') = true → c ∈ s →
      isFileNameChar c = true ∨ c = '/' := by
    intro s hall hc
    simpa using List.all_eq_true.mp hall c hc
  unfold configPathFor at h
  by_cases hip : extractIp source = []
  · rw [if_pos hip] at h
    exact hconst configPath (by decide) h
  · rw [if_neg hip] at h
    rcases List.mem_append.mp h with hdir | hname
    · exact hconst configDir (by decide) hdir
    · rcases List.mem_cons.mp hname with hslash | hname
      · exact .inr hslash
      · rcases List.mem_append.mp hname with hsafe | hconf
        · exact .inl (isFileNameChar_of_mem_safeFilename hsafe)
        · exact hconst ".conf" (by decide) hconf

/-- The tool's own path for a source is a config path. -/
theorem isConfPath_configPathFor {source : Str} (hip : extractIp source ≠ []) :
    isConfPath (configPathFor source) = true := by
  have hpath : configPathFor source =
      configDir ++ ['/'] ++ (safeFilename (extractIp source) ++ ".conf") := by
    rw [configPathFor, if_neg hip, List.append_assoc]
    rfl
  have hname : (configPathFor source).drop (configDir.length + 1) =
      safeFilename (extractIp source) ++ ".conf" := by
    rw [hpath]
    exact List.drop_left' (by rw [List.length_append]; rfl)
  have hlength : 0 < (safeFilename (extractIp source)).length := by
    rw [safeFilename, List.length_map]
    exact List.length_pos_iff.mpr hip
  have hstart : startsWith (configPathFor source) (configDir ++ ['/']) = true := by
    rw [hpath]
    exact List.isPrefixOf_iff_prefix.mpr (List.prefix_append _ _)
  unfold isConfPath
  rw [hname, hstart]
  simp only [Bool.true_and, Bool.and_eq_true, decide_eq_true_eq, List.all_eq_true]
  refine ⟨⟨fun c hc => ?_, List.suffix_append _ _⟩, ?_⟩
  · rcases List.mem_append.mp hc with hsafe | hconf
    · exact isFileNameChar_of_mem_safeFilename hsafe
    · exact List.all_eq_true.mp (by decide : (".conf" : Str).all isFileNameChar = true) c hconf
  · rw [List.length_append]
    have hconf : (".conf" : Str).length = 5 := by decide
    omega

/-- `_validate_conf_path` -/
def validateConfPath (path : Str) : Except Exn Str :=
  if !isConfPath (strip path) || contains (strip path) ".." then
    .error (.valueError "config path must be /etc/bashclub/<name>.conf")
  else .ok (strip path)

theorem isSpace_of_isFileNameChar {c : Char} (h : isFileNameChar c = true) : isSpace c = false := by
  have hrange : 33 ≤ c.toNat ∧ c.toNat ≤ 126 := by
    simp only [isFileNameChar, isAsciiAlnum, isAsciiAlpha, isAsciiLower, isAsciiUpper, isAsciiDigit,
      Bool.or_eq_true, Bool.and_eq_true, decide_eq_true_eq, beq_iff_eq] at h
    rcases h with (((((h | h) | h) | h) | h) | h)
    · exact ⟨Nat.le_trans (by decide) h.1, Nat.le_trans h.2 (by decide)⟩
    · exact ⟨Nat.le_trans (by decide) h.1, Nat.le_trans h.2 (by decide)⟩
    · exact ⟨Nat.le_trans (by decide) h.1, Nat.le_trans h.2 (by decide)⟩
    · rw [h]; decide
    · rw [h]; decide
    · rw [h]; decide
  simp only [isSpace, Bool.or_eq_false_iff, Bool.and_eq_false_iff, decide_eq_false_iff_not,
    beq_eq_false_iff_ne]
  omega

/-- A config path has no whitespace. -/
theorem strip_of_isConfPath {path : Str} (h : isConfPath path = true) : strip path = path := by
  unfold isConfPath at h
  simp only [Bool.and_eq_true] at h
  obtain ⟨⟨⟨hstart, hname⟩, -⟩, -⟩ := h
  obtain ⟨name, hpath⟩ := List.isPrefixOf_iff_prefix.mp hstart
  have hdrop : path.drop (configDir.length + 1) = name := by
    rw [← hpath]
    exact List.drop_left' (by rw [List.length_append]; rfl)
  rw [hdrop] at hname
  apply strip_eq_self
  intro c hc
  rw [← hpath] at hc
  rcases List.mem_append.mp hc with hdir | hc
  · have hall : (configDir ++ ['/']).all (fun c => !isSpace c) = true := by decide
    simpa using List.all_eq_true.mp hall c hdir
  · exact isSpace_of_isFileNameChar (List.all_eq_true.mp hname c hc)

theorem validateConfPath_ok {path p : Str} (h : validateConfPath path = .ok p) :
    isConfPath p = true ∧ validateConfPath p = .ok p := by
  unfold validateConfPath at h
  split at h
  · cases h
  · rename_i hgood
    rw [← Except.ok.inj h]
    have hconf : isConfPath (strip path) = true := by
      by_contra hbad
      exact hgood (by simp [hbad])
    refine ⟨hconf, ?_⟩
    rw [validateConfPath, strip_of_isConfPath hconf, if_neg hgood]

/-! ## The text of a config -/

/-- A dictionary of settings, in the order in which they were first set. -/
abbrev Values := List (Str × Str)

/-- `values.get(key)` -/
def Values.get? (values : Values) (key : Str) : Option Str := values.lookup key

/-- `(values.get(key) or "")` -/
def Values.getD (values : Values) (key : Str) : Str := (values.get? key).getD []

/-- `values[key] = value` -/
def Values.set (values : Values) (key value : Str) : Values :=
  if (values.get? key).isSome then
    values.map (fun entry => if entry.1 = key then (key, value) else entry)
  else values ++ [(key, value)]

/-- A line of a config. -/
inductive ConfLine where
  | raw (text : Str)
  | kv (key value : Str)
  deriving DecidableEq

/-- `_KV_RE.match(raw)`: the key, and the value without whitespace around
it. -/
def kvMatch (raw : Str) : Option (Str × Str) :=
  match lstrip raw with
  | [] => none
  | c :: s =>
      if isAsciiAlpha c || c == '_' then
        match lstrip (s.dropWhile isWord) with
        | '=' :: value => some (c :: s.takeWhile isWord, strip value)
        | _ => none
      else none

/-- Strip one layer of matching quotes. -/
def stripQuotes (value : Str) : Str :=
  match value with
  | c :: d :: s =>
      if (d :: s).getLast? = some c ∧ (c = '\'' ∨ c = '"') then (d :: s).dropLast else value
  | _ => value

/-- One line of `_parse_config`. -/
def parseLine (raw : Str) : ConfLine :=
  if strip raw = [] ∨ startsWith (strip raw) "#" then .raw raw
  else match kvMatch raw with
    | none => .raw raw
    | some (key, value) => .kv key (stripQuotes value)

structure ParsedConfig where
  values : Values
  lines : List ConfLine
  deriving DecidableEq

def ConfLine.store (values : Values) : ConfLine → Values
  | .raw _ => values
  | .kv key value => values.set key value

/-- `_parse_config` -/
def parseConfig (text : Str) : ParsedConfig :=
  let lines := (splitLines text).map parseLine
  ⟨lines.foldl ConfLine.store [], lines⟩

/-- `_escape`.  The backslash is replaced first, so the four replacements are
one pass. -/
def escape (s : Str) : Str :=
  s.flatMap (fun c => if c = '\\' ∨ c = '"' ∨ c = '$' ∨ c = '`' then ['\\', c] else [c])

/-- `key="value"` -/
def kvLine (key value : Str) : Str := key ++ "=\"" ++ escape value ++ "\""

/-- What becomes of a line that the file has.  A key that has no value any
more loses its line. -/
def ConfLine.rewrite (values : Values) : ConfLine → List Str
  | .raw text => [text]
  | .kv key _ => match values.get? key with
      | some value => [kvLine key value]
      | none => []

/-- The line sets the key. -/
def ConfLine.sets (key : Str) : ConfLine → Bool
  | .raw _ => false
  | .kv key' _ => key' = key

/-- `_serialize_config` -/
def serializeConfig (values : Values) (existingLines : Option (List ConfLine)) : Str :=
  let lines := existingLines.getD []
  let new := values.filter (fun entry => !lines.any (ConfLine.sets entry.1))
  join ['\n'] (lines.flatMap (ConfLine.rewrite values) ++ new.map (fun e => kvLine e.1 e.2)) ++ ['\n']

example : serializeConfig [("source", "root@10.0.0.5")] (some [.raw "# pull", .kv "source" "old"]) =
    ("# pull\nsource=\"root@10.0.0.5\"\n" : Str) := by decide

/-! ## The commands -/

/-- The command lines that an import sends to the target host. -/
inductive ReplCmd where
  | catFile (path : Str)
  /-- `[ -e path ]` -/
  | pathProbe (path : Str)
  | zfsListTagged (tag : Str)
  /-- The script of `write_config`. -/
  | writeFile (path text : Str)
  /-- The listing of `_find_zsync_cron_lines`. -/
  | listCron
  /-- `_crontab_rewrite_script`, after the `mkdir -p` of `logDir` when it is
  not empty, and before the reload of cron when `reload` is set. -/
  | rewriteCrontab (path : Str) (append : Option Str) (logDir : Str) (reload : Bool)
  /-- The rewrite of one file in `/etc/cron.d`. -/
  | rewriteCronD (file path : Str)
  /-- The rename of an imported config. -/
  | park (path : Str)
  deriving DecidableEq

/-- A function of the module that runs commands. -/
abbrev ReplJob (α : Type) := Prog ReplCmd Answer Exn α

/-- `run_command` -/
def run (cmd : ReplCmd) : ReplJob Answer := Prog.issue cmd

/-- The script of `write_config`. -/
def writeScript (path text : Str) : Str :=
  "mkdir -p " ++ shlexQuote configDir ++ " && " ++
  "if [ -f " ++ shlexQuote path ++ " ]; then " ++
  "cp -a " ++ shlexQuote path ++ " " ++ shlexQuote path ++ ".bak.$(date +%Y%m%d%H%M%S); " ++
  "fi && " ++
  "echo " ++ shlexQuote (base64 (utf8 text)) ++ " | base64 -d > " ++ shlexQuote path ++ " && " ++
  "chmod 0640 " ++ shlexQuote path

/-! ## Reading and writing -/

structure ConfigRead where
  present : Bool
  values : Values := []
  raw : Str := []
  configPath : Str
  deriving DecidableEq

/-- `_read_config_file` -/
def readConfigFile (path : Str) : ReplJob ConfigRead := do
  let r ← run (.catFile path)
  if !r.success || r.stdout = [] then return { present := false, configPath := path }
  else return { present := true, values := (parseConfig r.stdout).values, raw := r.stdout,
                configPath := path }

/-- `read_config_path` -/
def readConfigPath (path : Str) : ReplJob ConfigRead :=
  match validateConfPath path with
  | .error e => .raise e
  | .ok path => readConfigFile path

/-- A dataset of `list_tagged_datasets`. -/
structure TaggedDataset where
  name : Str
  dtype : Str
  tagged : Bool
  value : Str
  deriving DecidableEq

/-- One line of `zfs list`.  A line with fewer than three columns is passed
over. -/
def taggedDataset (line : Str) : Option TaggedDataset :=
  match splitOn '\t' line with
  | name :: dtype :: value :: _ =>
      some ⟨name, dtype, value = "all", if value = "-" then [] else value⟩
  | _ => none

structure TaggedList where
  datasets : List TaggedDataset
  tag : Str
  error : Option Str := none
  deriving DecidableEq

/-- `[A-Za-z0-9_.:-]+` -/
def isTag (tag : Str) : Bool :=
  tag != [] && tag.all (fun c => isAsciiAlnum c || c == '_' || c == '.' || c == ':' || c == '-')

/-- `list_tagged_datasets` -/
def listTaggedDatasets (tag : Str) : ReplJob TaggedList :=
  if !atDollar isTag tag then return { datasets := [], tag, error := some "invalid tag format" }
  else do
    let r ← run (.zfsListTagged tag)
    if !r.success then
      return { datasets := [], tag
               error := some (strip (if r.stderr ≠ [] then r.stderr else r.stdout)) }
    else return { datasets := (splitLines r.stdout).filterMap taggedDataset, tag }

/-- `_is_same_host` -/
def isSameHost (host : Host) (srcIp : Str) : Bool :=
  srcIp != [] && (srcIp = host.address || srcIp = "127.0.0.1" || srcIp = "localhost")

structure WriteResult where
  success : Bool
  configPath : Str
  stderr : Str
  errorCode : Option Str := none
  targetPool : Option Str := none
  sourcePools : Option (List Str) := none
  deriving DecidableEq

/-- The pools that have a tagged dataset. -/
def sourcePools (datasets : List TaggedDataset) : List Str :=
  sortedSet ((datasets.filter (fun d => d.tagged && d.name != [])).map
    (fun d => beforeFirst '/' d.name))

/-- The refusal of the same-host guard. -/
def samePool (path targetPool : Str) (pools : List Str) : WriteResult :=
  { success := false
    configPath := path
    stderr := "refusing same-host write: target pool '" ++ targetPool ++
      "' is also a source pool (replica on the same vdevs is not a backup)"
    errorCode := some "same_pool"
    targetPool := some targetPool
    sourcePools := some pools }

/-- The same-host guard of `write_config`.  `some` when the write is
refused. -/
def poolGuard (host : Host) (path : Str) (values : Values) (source : Str) :
    ReplJob (Option WriteResult) :=
  let targetDs := strip (values.getD "target")
  let tag := strip (values.getD "tag")
  if targetDs ≠ [] ∧ '/' ∈ targetDs ∧ isSameHost host (extractIp (strip source)) = true then do
    let listed ← listTaggedDatasets (if tag = [] then "bashclub:zsync" else tag)
    let pools := sourcePools listed.datasets
    if pools.contains (beforeFirst '/' targetDs) then
      return some (samePool path (beforeFirst '/' targetDs) pools)
    else return none
  else return none

/-- Read the existing file to keep its layout, and write it with the new
values. -/
def replaceConfig (path : Str) (values : Values) : ReplJob WriteResult := do
  let r ← run (.catFile path)
  let existing := if r.success && r.stdout ≠ [] then some (parseConfig r.stdout).lines else none
  let cleaned := values.filter (fun entry => entry.2 ≠ [])
  let w ← run (.writeFile path (serializeConfig cleaned existing))
  return { success := w.success, configPath := path, stderr := w.stderr }

/-- `source or values.get("source")` -/
def sourceOr (source : Str) (values : Values) : Str :=
  if source ≠ [] then source else values.getD "source"

/-- `write_config` -/
def writeConfig (host : Host) (values : Values) (source : Str) : ReplJob WriteResult := do
  let path := configPathFor (sourceOr source values)
  let refusal ← poolGuard host path values (sourceOr source values)
  match refusal with
  | some refusal => return refusal
  | none => replaceConfig path values

end PveZfsTool.Replication
