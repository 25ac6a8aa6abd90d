import PveZfsTool.Replication.Cron

/-!
# The import of a config

`import_config` of `app/replication.py` moves a config that grew outside the
tool to the path that the tool uses for its source: it writes the new file,
takes over the schedule and renames the old file.

`importConfigPreview` reads what there is, and `adoptCron` changes the cron
tables.
-/

namespace PveZfsTool.Replication

open Dialogue Text

/-! ## The preview -/

structure ImportPreview where
  path : Str
  canonicalPath : Str
  canonicalExists : Bool
  source : Str
  sourceUser : Str
  target : Str
  values : Values
  cron : List CronEntry
  deriving DecidableEq

/-- The source that a config names. -/
def configSource (values : Values) : Str := strip (values.getD "source")

/-- The preview of a config that names its source. -/
def previewConfig (path : Str) (values : Values) : ReplJob (Except Str ImportPreview) := do
  let source := configSource values
  let ex ← run (.pathProbe (configPathFor source))
  let cron ← findZsyncCronLines path
  return .ok {
    path
    canonicalPath := configPathFor source
    canonicalExists := contains ex.stdout "__YES__"
    source
    sourceUser := if '@' ∈ source then beforeFirst '@' source else "root"
    target := strip (values.getD "target")
    values
    cron }

/-- The refusal of a config, by the values it has. -/
def previewError (path : Str) (values : Values) : Option Str :=
  if extractIp (configSource values) = [] then some
    ("config has no 'source' -- it relies on zsync's local " ++
    "mode, which upstream removed after 1.0.19. Set " ++
    "source=root@<this host's address> in the file, " ++ "run it once, then import")
  else if configPathFor (configSource values) = path then
    some "already at the tool's path; open it instead"
  else none

/-- The preview of what was read at a path. -/
def previewRead (path : Str) (cfg : ConfigRead) : ReplJob (Except Str ImportPreview) :=
  if !cfg.present then return .error (path ++ " not found or empty")
  else match previewError path cfg.values with
    | some error => return .error error
    | none => previewConfig path cfg.values

/-- `import_config_preview`.  The error is the text that the caller gets. -/
def importConfigPreview (path : Str) : ReplJob (Except Str ImportPreview) :=
  match validateConfPath path with
  | .error (.valueError message) => return .error message
  | .error e => .raise e
  | .ok path => do
      let cfg ← readConfigPath path
      previewRead path cfg

/-! ## The import -/

/-- What became of the schedule. -/
inductive CronOutcome where
  | skipped
  | adopted
  | adoptedOldKept
  | failed
  | ambiguous
  | none
  deriving DecidableEq

def CronOutcome.name : CronOutcome → Str
  | .skipped => "skipped"
  | .adopted => "adopted"
  | .adoptedOldKept => "adopted_old_kept"
  | .failed => "failed"
  | .ambiguous => "ambiguous"
  | .none => "none"

structure ImportStep where
  step : Str
  success : Bool
  detail : Str
  deriving DecidableEq

structure ImportResult where
  success : Bool
  error : Option Str := none
  errorCode : Option Str := none
  steps : List ImportStep := []
  configPath : Str := []
  parked : Str := []
  cron : Option CronOutcome := none
  cronLines : List CronEntry := []
  deriving DecidableEq

/-- Take over the schedule of the one line that was found. -/
def adoptLine (path source : Str) (c : CronEntry) : ReplJob (CronOutcome × List ImportStep) := do
  let s ← setCron c.schedule source logPath
  if s.success then do
    let rm ← removeCronLine c.origin path
    return (if rm.success then .adopted else .adoptedOldKept,
      [⟨"set_cron", true, c.schedule⟩, ⟨"remove_old_cron", rm.success, c.raw⟩])
  else return (.failed, [⟨"set_cron", false, c.schedule⟩])

/-- The part of the import that changes cron tables. -/
def adoptCron (pv : ImportPreview) (adopt : Bool) : ReplJob (CronOutcome × List ImportStep) :=
  if adopt then
    match pv.cron with
    | [] => return (.none, [])
    | [c] => adoptLine pv.path pv.source c
    | _ => return (.ambiguous, [])
  else return (.skipped, [])

/-- The name that the last `__PARKED__` line gives. -/
def parkedName (out : Str) : Str :=
  (splitLines out).foldl
    (fun parked l => if startsWith l "__PARKED__ " then strip (l.drop 11) else parked) []

/-- What follows the new config: the schedule, and then the old file. -/
def finishImport (pv : ImportPreview) (adopt : Bool) (written : ImportStep) :
    ReplJob ImportResult := do
  let (cron, steps) ← adoptCron pv adopt
  let mv ← run (.park pv.path)
  let parked := parkedName mv.stdout
  return { success := true
           configPath := pv.canonicalPath
           parked
           cron := some cron
           cronLines := pv.cron
           steps := written :: steps ++ [⟨"park_old_config", parked != [], parked⟩] }

/-- The import of a config that was read. -/
def importPreviewed (host : Host) (pv : ImportPreview) (adopt : Bool) : ReplJob ImportResult :=
  if pv.canonicalExists then
    return { success := false
             errorCode := some "exists"
             error := some (pv.canonicalPath ++ " already exists -- refusing to overwrite it") }
  else do
    let w ← writeConfig host pv.values pv.source
    let written : ImportStep :=
      ⟨"write_config", w.success, if w.stderr ≠ [] then w.stderr else pv.canonicalPath⟩
    if w.success then finishImport pv adopt written
    else return { success := false
                  steps := [written]
                  error := some ("writing the new config failed: " ++
                    if w.stderr ≠ [] then w.stderr else "unknown error") }

/-- What follows the preview. -/
def importAfter (host : Host) (adopt : Bool) : Except Str ImportPreview → ReplJob ImportResult
  | .error error => return { success := false, error := some error }
  | .ok pv => importPreviewed host pv adopt

/-- `import_config` -/
def importConfig (host : Host) (path : Str) (adopt : Bool) : ReplJob ImportResult := do
  let pv ← importConfigPreview path
  importAfter host adopt pv

end PveZfsTool.Replication
