import PveZfsTool.Backups.Listing
import PveZfsTool.Host

/-!
# The retention of automatic snapshots

`app/autosnap.py` reads and writes the retention of `zfs-auto-snapshot`, which
is in the cron files themselves: the `--keep` option of a command line says how
many snapshots a level keeps, and a command line in a comment is a disabled
level.

The reader cuts a file with `splitlines`, the writer at newlines.
-/

namespace PveZfsTool

open Text Dialogue
open Backups (Json)

/-! ## Command lines -/

/-- `LEVELS` -/
inductive SnapLevel where
  | frequent
  | hourly
  | daily
  | weekly
  | monthly
  deriving DecidableEq

namespace SnapLevel

def all : List SnapLevel := [.frequent, .hourly, .daily, .weekly, .monthly]

def label : SnapLevel → Str
  | .frequent => "frequent"
  | .hourly => "hourly"
  | .daily => "daily"
  | .weekly => "weekly"
  | .monthly => "monthly"

/-- `LEVEL_FILES` -/
def file : SnapLevel → Str
  | .frequent => "/etc/cron.d/zfs-auto-snapshot"
  | .hourly => "/etc/cron.hourly/zfs-auto-snapshot"
  | .daily => "/etc/cron.daily/zfs-auto-snapshot"
  | .weekly => "/etc/cron.weekly/zfs-auto-snapshot"
  | .monthly => "/etc/cron.monthly/zfs-auto-snapshot"

/-- `LEVEL_INTERVAL` -/
def interval : SnapLevel → Str
  | .frequent => "every 15 min"
  | .hourly => "hourly"
  | .daily => "daily"
  | .weekly => "weekly"
  | .monthly => "monthly"

end SnapLevel

/-- `KEEP_MIN` -/
def keepMin : Int := 0

/-- `KEEP_MAX` -/
def keepMax : Int := 100000

/-- `[=\s]` -/
def isOptionSep (c : Char) : Bool := c == '=' || isSpace c

/-- `_KEEP_RE` at the start of a text: the length of the match, and the
digits. -/
def keepToken (s : Str) : Option (Nat × Str) :=
  match s.dropPrefix? "--keep" with
  | none => none
  | some rest =>
      let seps := rest.takeWhile isOptionSep
      let digits := (rest.dropWhile isOptionSep).takeWhile isDecimal
      if seps = [] ∨ digits = [] then none else some (6 + seps.length + digits.length, digits)

/-- `_KEEP_RE.search(line)`: the digits of the first match. -/
def findKeep : Str → Option Str
  | [] => none
  | c :: s =>
      match keepToken (c :: s) with
      | some (_, digits) => some digits
      | none => findKeep s

/-- `_KEEP_RE.sub(f"--keep={keep}", line)` -/
def subKeep (keep : Int) (line : Str) : Str :=
  substitute (fun _ s => (keepToken s).map fun t => (t.1, ("--keep=" : Str) ++ ofInt keep)) none 0 line

/-- `_is_command_line` -/
def isCommandLine (line label : Str) : Bool :=
  let body := strip ((lstrip line).dropWhile (· = '#'))
  contains body "zfs-auto-snapshot" && contains body ("--label=" ++ label)

/-- `_line_is_commented` -/
def lineIsCommented (line : Str) : Bool := startsWith (lstrip line) "#"

/-! ## The reader -/

/-- The entry of `parse_level`. -/
structure LevelState where
  keep : Option Int
  enabled : Bool
  deriving DecidableEq

/-- The value of the keep option of a line.  `int` raises for a number that is
too long. -/
def keepOf (line : Str) : Except Exn (Option Int) :=
  match findKeep line with
  | none => .ok none
  | some digits =>
      match toInt? digits with
      | some n => .ok (some n)
      | none => .error (.invalidInt digits)

/-- The loop of `parse_level`. -/
def parseLevelLines (label : Str) : Option LevelState → List Str →
    Except Exn (Option LevelState)
  | candidate, [] => .ok candidate
  | candidate, line :: lines =>
      if !isCommandLine line label then parseLevelLines label candidate lines
      else match keepOf line with
        | .error e => .error e
        | .ok keep =>
            if lineIsCommented line then
              parseLevelLines label (candidate.or (some ⟨keep, false⟩)) lines
            else .ok (some ⟨keep, true⟩)

/-- `parse_level` -/
def parseLevel (content label : Str) : Except Exn (Option LevelState) :=
  parseLevelLines label none (splitLines content)

/-- An entry of `parse_retention`. -/
structure RetentionEntry where
  label : Str
  interval : Str
  file : Str
  installed : Bool
  keep : Option Int
  enabled : Bool
  deriving DecidableEq

/-- The entry of one level.  There is no content where the file is missing. -/
def retentionEntry (level : SnapLevel) (content : Option Str) : Except Exn RetentionEntry :=
  match content.elim (.ok none) (parseLevel · level.label) with
  | .error e => .error e
  | .ok parsed =>
      .ok
        { label := level.label
          interval := level.interval
          file := level.file
          installed := parsed.isSome
          keep := parsed.bind LevelState.keep
          enabled := (parsed.map LevelState.enabled).getD false }

/-- `parse_retention` -/
def parseRetention (files : SnapLevel → Option Str) : Except Exn (List RetentionEntry) :=
  SnapLevel.all.mapM fun level => retentionEntry level (files level)

/-! ## The writer -/

/-- `_set_line_enabled` -/
def setLineEnabled (line : Str) (enabled : Bool) : Str :=
  let indent := line.takeWhile isSpace
  match lstrip line, enabled with
  | '#' :: ' ' :: body, true => indent ++ body
  | '#' :: body, true => indent ++ body
  | stripped, false => if lineIsCommented line then line else indent ++ ('#' :: ' ' :: stripped)
  | _, true => line

/-- What the writer makes of a command line of the level. -/
def rewriteCommand (keep : Option Int) (enabled : Option Bool) (line : Str) : Str :=
  let line :=
    match keep with
    | some n => if (findKeep line).isSome then subKeep n line else line
    | none => line
  match enabled with
  | some b => setLineEnabled line b
  | none => line

/-- `update_level_content` -/
def updateLevelContent (content label : Str) (keep : Option Int) (enabled : Option Bool) : Str :=
  join ['\n'] ((splitOn '\n' content).map fun line =>
    if isCommandLine line label then rewriteCommand keep enabled line else line)

/-! ## Saving -/

/-- The commands of `set_retention`. -/
inductive SnapCmd where
  | catFile (path : Str)
  | writeFile (path text : Str)
  deriving DecidableEq

/-- The command line that is sent to the host. -/
def SnapCmd.text : SnapCmd → Str
  | .catFile path => "cat " ++ shlexQuote path ++ " 2>/dev/null"
  | .writeFile path text =>
      "cp -a " ++ shlexQuote path ++ " " ++ shlexQuote path ++ ".bak.$(date +%Y%m%d%H%M%S) && " ++
        "echo " ++ shlexQuote (base64 (utf8 text)) ++ " | base64 -d > " ++ shlexQuote path ++
        " && echo __OK__"

/-- A change that is asked for. -/
structure LevelChange where
  label : Str
  keep : Json
  enabled : Json

structure LevelResult where
  label : Str
  success : Bool
  error : Option Str := none
  unchanged : Bool := false
  keep : Option Int := none
  enabled : Option Bool := none
  stderr : Option Str := none
  deriving DecidableEq

abbrev SnapJob (α : Type) := Prog SnapCmd Answer Exn α

/-- The keep value of a change, or the message that refuses it. -/
def LevelChange.checkKeep (ch : LevelChange) : Except Str (Option Int) :=
  match ch.keep with
  | .null => .ok none
  | keep =>
      match keep.toInt? with
      | none => .error "keep not an integer"
      | some n =>
          if keepMin ≤ n ∧ n ≤ keepMax then .ok (some n)
          else .error ("keep out of range (" ++ ofInt keepMin ++ "-" ++ ofInt keepMax ++ ")")

/-- `bool(enabled)`, if it is there -/
def LevelChange.flag (ch : LevelChange) : Option Bool :=
  match ch.enabled with
  | .null => none
  | enabled => some enabled.truthy

/-- Write the changed content of a file. -/
def saveLevel (label path content : Str) (keep : Option Int) (enabled : Option Bool) :
    SnapJob LevelResult := do
  let rw ← Prog.issue (.writeFile path content)
  return { label, success := contains rw.stdout "__OK__", keep, enabled,
           stderr := some ((strip rw.stderr).take 200) }

/-- Read the file of a level and save it with the change. -/
def changeLevel (level : SnapLevel) (keep : Option Int) (enabled : Option Bool) :
    SnapJob LevelResult := do
  let r ← Prog.issue (.catFile level.file)
  let content := if r.success then r.stdout else []
  if strip content = [] then
    return { label := level.label, success := false
             error := some "cron file not found (level not installed)" }
  else if keep.isSome ∧ ¬ (splitOn '\n' content).any
      (fun line => isCommandLine line level.label && (findKeep line).isSome) = true then
    return { label := level.label, success := false
             error := some ("no --keep= option in this level's cron command; " ++
               "cannot set retention count") }
  else
    let newContent := updateLevelContent content level.label keep enabled
    if newContent = content then return { label := level.label, success := true, unchanged := true }
    else saveLevel level.label level.file newContent keep enabled

/-- The body of the loop of `set_retention`. -/
def setLevel (ch : LevelChange) : SnapJob LevelResult :=
  match SnapLevel.all.find? (fun level => level.label = ch.label) with
  | none => return { label := ch.label, success := false, error := some "unknown level" }
  | some level =>
      match ch.checkKeep with
      | .error message => return { label := ch.label, success := false, error := some message }
      | .ok keep => changeLevel level keep ch.flag

structure RetentionResult where
  success : Bool
  results : List LevelResult
  deriving DecidableEq

def setLevels : List LevelChange → SnapJob (List LevelResult)
  | [] => return []
  | ch :: changes => do
      let result ← setLevel ch
      return result :: (← setLevels changes)

/-- `set_retention` -/
def setRetention (changes : List LevelChange) : SnapJob RetentionResult := do
  let results ← setLevels changes
  return { success := results.all LevelResult.success, results }

end PveZfsTool
