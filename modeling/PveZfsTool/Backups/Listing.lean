import PveZfsTool.Host
import PveZfsTool.Lib.Dict

/-!
# Backup storages and their volumes

This models the parsers of `backups.py`: what `pvesh` lists of the storages of
a node and of the backups on them, and the jobs of `/etc/pve/jobs.cfg`.

`PyJson` takes `json.loads`, and `str` of a value that is no text, as
parameters.  Nothing is asked of them.
-/

namespace PveZfsTool.Backups

open Text

/-! ## JSON -/

/-- A value of `json.loads`.  A float is its value. -/
inductive Json where
  | null
  | bool (b : Bool)
  | int (n : Int)
  | float (x : Rat)
  | str (s : Str)
  | list (xs : List Json)
  | dict (entries : List (Str × Json))

/-- What Python does with JSON: `json.loads`, with `none` where it raises
`ValueError`, and `str` of a value that is no text. -/
structure PyJson where
  loads : Str → Option Json
  repr : Json → Str

/-- `d.get(key)` of the entries of a dictionary. -/
def getField (row : List (Str × Json)) (key : Str) : Json := (row.lookup key).getD .null

/-- The value counts as true. -/
def Json.truthy : Json → Bool
  | .null => false
  | .bool b => b
  | .int n => n ≠ 0
  | .float x => x ≠ 0
  | .str s => s ≠ []
  | .list xs => !xs.isEmpty
  | .dict entries => !entries.isEmpty

/-- `str(value or "")` -/
def PyJson.text (J : PyJson) (value : Json) : Str :=
  if value.truthy then
    match value with
    | .str s => s
    | v => J.repr v
  else []

/-- `_as_int` -/
def asInt (value : Json) (default : Int) : Int :=
  match value with
  | .bool b => if b then 1 else 0
  | .int n => n
  | .float x => x.num.tdiv x.den
  | .str s => (toInt? s).getD default
  | _ => default

/-- `int(value)`.  `none` where it raises `TypeError` or `ValueError`. -/
def Json.toInt? : Json → Option Int
  | .bool b => some (if b then 1 else 0)
  | .int n => some n
  | .float x => some (x.num.tdiv x.den)
  | .str s => Text.toInt? s
  | _ => none

/-- `text.find(c)`, where it is greater than zero. -/
def findAfterStart (c : Char) (text : Str) : Option Nat :=
  let i := text.idxOf c
  if 0 < i && i < text.length then some i else none

/-- The list that a text holds, also after leading noise or under `data`.
`none` for anything else. -/
def PyJson.list? (J : PyJson) (text : Str) : Option (List Json) :=
  let text := strip text
  let data := (J.loads text).orElse (fun _ =>
    match findAfterStart '[' text, findAfterStart '\x7b' text with
    | some i, some j => J.loads (text.drop (min i j))
    | some i, none => J.loads (text.drop i)
    | none, some j => J.loads (text.drop j)
    | none, none => none)
  match data with
  | some (.dict entries) =>
      match getField entries "data" with
      | .list xs => some xs
      | _ => none
  | some (.list xs) => some xs
  | _ => none

/-- The entries of a value that is a dictionary. -/
def Json.dict? : Json → Option (List (Str × Json))
  | .dict entries => some entries
  | _ => none

/-- `_load_json_list` -/
def PyJson.loadJsonList (J : PyJson) (text : Str) : List (List (Str × Json)) :=
  ((J.list? text).getD []).filterMap Json.dict?

/-! ## Storages -/

structure BackupStorage where
  storage : Str
  type : Str
  enabled : Bool
  active : Bool
  total : Int
  used : Int
  avail : Int
  deriving DecidableEq

/-- One row of the list of storages. -/
def parseStorageRow (J : PyJson) (row : List (Str × Json)) : Option BackupStorage :=
  let sid := strip (J.text (getField row "storage"))
  if sid = [] then none
  else some
    { storage := sid
      type := J.text (getField row "type")
      enabled := asInt (getField row "enabled") 1 ≠ 0
      active := asInt (getField row "active") 0 ≠ 0
      total := asInt (getField row "total") 0
      used := asInt (getField row "used") 0
      avail := asInt (getField row "avail") 0 }

/-- `parse_storage_list` -/
def parseStorageList (J : PyJson) (text : Str) : List BackupStorage :=
  ((J.loadJsonList text).filterMap (parseStorageRow J)).insertionSort
    (fun s t => le s.storage t.storage = true)

/-! ## Volumes -/

structure Volume where
  volid : Str
  storage : Str
  storageType : Str
  verifies : Bool
  vmid : Str
  ctime : Int
  size : Int
  format : Str
  subtype : Str
  verify : Option Str
  isProtected : Bool
  notes : Str
  deriving DecidableEq

/-- The outcome of a verification, `none` where there is none. -/
def verifyOutcome (J : PyJson) (verification : Json) : Option Str :=
  let outcome := match verification with
    | .dict entries => lower (strip (J.text (getField entries "state")))
    | .str s => lower (strip s)
    | _ => []
  if outcome = [] then none else some outcome

/-- One row of the content of a storage. -/
def parseVolumeRow (J : PyJson) (storage storageType : Str) (row : List (Str × Json)) :
    Option Volume :=
  let volid := strip (J.text (getField row "volid"))
  if volid = [] then none
  else some
    { volid := volid
      storage := if storage = [] then beforeFirst ':' volid else storage
      storageType := storageType
      verifies := storageType = "pbs"
      vmid := strip (J.text (getField row "vmid"))
      ctime := asInt (getField row "ctime") 0
      size := asInt (getField row "size") 0
      format := J.text (getField row "format")
      subtype := J.text (getField row "subtype")
      verify := verifyOutcome J (getField row "verification")
      isProtected := asInt (getField row "protected") 0 ≠ 0
      notes := (J.text (getField row "notes")).take 200 }

/-- `(v["vmid"], -v["ctime"])` of `v` is at most that of `w`. -/
def volumeLe (v w : Volume) : Bool :=
  if v.vmid = w.vmid then w.ctime ≤ v.ctime else le v.vmid w.vmid

/-- `parse_backup_content` -/
def parseBackupContent (J : PyJson) (text storage storageType : Str) : List Volume :=
  ((J.loadJsonList text).filterMap (parseVolumeRow J storage storageType)).insertionSort
    (fun v w => volumeLe v w = true)

/-! ## Jobs -/

structure BackupJob where
  id : Str
  storage : Str := []
  schedule : Str := []
  enabled : Bool := true
  all : Bool := false
  vmid : List Str := []
  exclude : List Str := []
  mode : Str := []
  pool : Str := []
  deriving DecidableEq

/-- The pieces between commas, semicolons and whitespace. -/
def splitIdsAux : Str → Str → List Str
  | cur, [] => if cur = [] then [] else [cur.reverse]
  | cur, c :: s =>
      if c == ',' || c == ';' || isSpace c then
        if cur = [] then splitIdsAux [] s else cur.reverse :: splitIdsAux [] s
      else splitIdsAux (c :: cur) s

/-- `_split_ids` -/
def splitIds (value : Str) : List Str := splitIdsAux [] value

/-- `[A-Za-z0-9_-]` -/
def isSectionChar (c : Char) : Bool := isAsciiAlnum c || c == '_' || c == '-'

/-- `^([A-Za-z0-9_-]+):\s*(\S+)\s*$`: the type of a section and its name. -/
def sectionHeader (raw : Str) : Option (Str × Str) :=
  let kind := raw.takeWhile isSectionChar
  match raw.drop kind.length with
  | ':' :: rest =>
      let name := strip rest
      if kind ≠ [] && name ≠ [] && name.all (fun c => !isSpace c) then some (kind, name) else none
  | _ => none

/-- `[a-z0-9-]` -/
def isKeyChar (c : Char) : Bool := isAsciiLower c || isAsciiDigit c || c == '-'

/-- `^\s+([a-z0-9-]+)\s+(.*)$`, the value stripped. -/
def jobProperty (raw : Str) : Option (Str × Str) :=
  let rest := lstrip raw
  let key := rest.takeWhile isKeyChar
  let value := rest.drop key.length
  if rest ≠ raw && key ≠ [] && value.head?.any isSpace then some (key, strip value) else none

/-- One property of a job. -/
def BackupJob.setProperty (job : BackupJob) (key value : Str) : BackupJob :=
  if key = "storage".toList then { job with storage := value }
  else if key = "schedule".toList then { job with schedule := value }
  else if key = "enabled".toList then { job with enabled := asInt (.str value) 1 ≠ 0 }
  else if key = "all".toList then { job with all := asInt (.str value) 0 ≠ 0 }
  else if key = "vmid".toList then { job with vmid := splitIds value }
  else if key = "exclude".toList then { job with exclude := splitIds value }
  else if key = "mode".toList then { job with mode := value }
  else if key = "pool".toList then { job with pool := value }
  else job

/-- The lines of the file.  `cur` is the section at hand, `none` in one of
another type. -/
def parseJobLines : Option BackupJob → List Str → List BackupJob
  | cur, [] => cur.toList
  | cur, raw :: lines =>
      match sectionHeader raw with
      | some (kind, name) =>
          if kind = "vzdump".toList then cur.toList ++ parseJobLines (some { id := name }) lines
          else cur.toList ++ parseJobLines none lines
      | none =>
          match cur, jobProperty raw with
          | some job, some (key, value) => parseJobLines (some (job.setProperty key value)) lines
          | cur, _ => parseJobLines cur lines

/-- `parse_backup_jobs` -/
def parseBackupJobs (text : Str) : List BackupJob := parseJobLines none (splitLines text)

/-- `job_covers` -/
def jobCovers (job : BackupJob) (vmid : Str) : Bool :=
  if vmid = [] || !job.enabled then false
  else if job.all then vmid ∉ job.exclude
  else vmid ∈ job.vmid

end PveZfsTool.Backups
