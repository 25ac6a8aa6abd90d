import PveZfsTool.Lib.Text
import PveZfsTool.Host

/-!
# Guest configs and storage definitions

The pure helpers of `app/migrate.py`: reading the disks of a guest config,
naming volumes and datasets, reading `storage.cfg`, and rewriting a guest
config for the target host.
-/

namespace PveZfsTool

open Text

/-! ## Reading a guest config -/

/-- `split_main_section`: the config up to the first line that starts with
`[`. -/
def splitMainSection (text : Str) : Str :=
  join "\n" ((splitLines text).takeWhile (fun line => !startsWith line "["))

/-- The name of a snapshot section that starts at this `[`, which is not
part of `s`.  A `]` must follow the name, and only whitespace may follow it
on its line. -/
def sectionAt (s : Str) : Option Str :=
  let name := s.takeWhile (· ≠ ']')
  match s.dropWhile (· ≠ ']') with
  | [] => none
  | _ :: rest =>
      if name = [] then none
      else match rest.dropWhile (fun c => isSpace c && c != '\n') with
        | [] => some name
        | c :: _ => if c = '\n' then some name else none

/-- The section names from here on.  `bol` tells whether this is the start
of a line, and `skip` counts the characters of the last match that are
still to be passed over. -/
def sectionNames : Bool → Nat → Str → List Str
  | _, _, [] => []
  | _, skip + 1, c :: s => sectionNames (c == '\n') skip s
  | bol, 0, c :: s =>
      if bol && c == '[' then
        match sectionAt s with
        | some name => name :: sectionNames false (name.length + 1) s
        | none => sectionNames false 0 s
      else sectionNames (c == '\n') 0 s

/-- `config_snapshot_sections` -/
def configSnapshotSections (text : Str) : List Str := sectionNames true 0 text

/-- `^([a-z]+\d*):(.*)` of one line: the key and the text after the colon. -/
def keyLine (line : Str) : Option (Str × Str) :=
  let letters := line.takeWhile isAsciiLower
  let afterLetters := line.dropWhile isAsciiLower
  let digits := afterLetters.takeWhile isDecimal
  match afterLetters.dropWhile isDecimal with
  | ':' :: value => if letters = [] then none else some (letters ++ digits, value)
  | _ => none

/-- A key that is one of `names` followed by at least one digit. -/
def isNumberedKey (names : List Str) (key : Str) : Bool :=
  names.any (fun n => startsWith key n && key.length != n.length &&
    (key.drop n.length).all isDecimal)

/-- `_QEMU_DISK_KEY_RE` -/
def isQemuDiskKey (key : Str) : Bool :=
  isNumberedKey ["scsi", "virtio", "sata", "ide", "efidisk", "tpmstate"] key

/-- `_LXC_DISK_KEY_RE` -/
def isLxcDiskKey (key : Str) : Bool := key = ("rootfs" : Str) || isNumberedKey ["mp"] key

/-- The disk keys of a guest type. -/
def isDiskKey (gtype key : Str) : Bool :=
  if gtype = ("lxc" : Str) then isLxcDiskKey key else isQemuDiskKey key

/-- The disk of one config line, if it has one: its key and volume id. -/
def diskOfLine (gtype line : Str) : Option (Str × Str) :=
  match keyLine (strip line) with
  | none => none
  | some (key, rest) =>
      let value := strip rest
      let volid := strip (beforeFirst ',' value)
      if rest = [] ∨ ¬ isDiskKey gtype key ∨ volid = [] ∨ volid = ("none" : Str) ∨
          contains value "media=cdrom" ∨ ':' ∉ volid then none
      else some (key, volid)

/-- `parse_guest_config_disks`: the key and volume id of every attached
disk. -/
def parseGuestConfigDisks (text gtype : Str) : List (Str × Str) :=
  (splitLines (splitMainSection text)).filterMap (diskOfLine gtype)

/-- The characters of a bridge name. -/
def isBridgeChar (c : Char) : Bool := isAsciiAlnum c || "_.-".toList.contains c

/-- The matches of `bridge=([A-Za-z0-9_.-]+)` from here on. -/
def findBridges : Nat → Str → List Str
  | _, [] => []
  | skip + 1, _ :: s => findBridges skip s
  | 0, c :: s =>
      let name := ((c :: s).drop 7).takeWhile isBridgeChar
      if startsWith (c :: s) "bridge=" && name != [] then
        name :: findBridges (6 + name.length) s
      else findBridges 0 s

/-- `parse_config_bridges` -/
def parseConfigBridges (text : Str) : List Str :=
  sortedSet (findBridges 0 (splitMainSection text))

/-- `config_storage_ids` -/
def configStorageIds (text gtype : Str) : List Str :=
  sortedSet ((parseGuestConfigDisks text gtype).map (fun d => beforeFirst ':' d.2))

/-! ## Volumes and datasets -/

/-- `dataset_from_pvesm_path` -/
def datasetFromPvesmPath (path : Str) : Str :=
  let p := strip path
  if startsWith p "/dev/zvol/" then p.drop 10
  else if startsWith p "/" then p.dropWhile (· = '/')
  else []

/-- `volume_basename` -/
def volumeBasename (volidOrDataset : Str) : Str := afterLast '/' (afterFirst ':' volidOrDataset)

/-- The characters of `_DS_RE` after the first one. -/
def isDatasetChar (c : Char) : Bool := isAsciiAlnum c || "_.:/-".toList.contains c

/-- `_DS_RE` of `migrate.py`. -/
def matchesDataset : Str → Bool := atDollar fun s =>
  match s with
  | [] => false
  | c :: s => isAsciiAlpha c && s.all isDatasetChar

/-! ## `storage.cfg` -/

/-- One `zfspool` entry of `storage.cfg`. -/
structure ZfsStorage where
  storage : Str
  pool : Str
  content : List Str
  nodes : List Str
  deriving DecidableEq

/-- The class `\w+` followed by a colon at the start of a line, and the one
word after it. -/
def storageHeader (line : Str) : Option (Str × Str) :=
  let kind := line.takeWhile isWord
  match line.dropWhile isWord with
  | ':' :: rest =>
      let name := strip rest
      if kind = [] ∨ name = [] ∨ name.any isSpace then none else some (kind, name)
  | _ => none

/-- `^\s+(\w+)\s+(.*)$`: an indented property line. -/
def storageProperty (line : Str) : Option (Str × Str) :=
  let afterIndent := line.dropWhile isSpace
  let key := afterIndent.takeWhile isWord
  let rest := afterIndent.dropWhile isWord
  if (line.takeWhile isSpace) = [] ∨ key = [] ∨ rest.takeWhile isSpace = [] then none
  else some (key, strip rest)

/-- The comma separated words of a property value. -/
def commaWords (value : Str) : List Str :=
  ((splitOn ',' value).map strip).filter (· ≠ [])

/-- One property of the entry that is being read. -/
def ZfsStorage.setProperty (s : ZfsStorage) (key value : Str) : ZfsStorage :=
  if key = ("pool" : Str) then { s with pool := value }
  else if key = ("content" : Str) then { s with content := commaWords value }
  else if key = ("nodes" : Str) then { s with nodes := commaWords value }
  else s

/-- The entries from here on.  `cur` is the `zfspool` entry that is being
read. -/
def parseStorageLines : Option ZfsStorage → List Str → List ZfsStorage
  | cur, [] => cur.toList
  | cur, line :: lines =>
      match storageHeader line with
      | some (kind, name) =>
          cur.toList ++ parseStorageLines
            (if kind = ("zfspool" : Str) then some ⟨name, [], [], []⟩ else none) lines
      | none =>
          match cur, storageProperty line with
          | some s, some (key, value) => parseStorageLines (some (s.setProperty key value)) lines
          | cur, _ => parseStorageLines cur lines

/-- `parse_zfs_storages` -/
def parseZfsStorages (text : Str) : List ZfsStorage := parseStorageLines none (splitLines text)

/-- `usable_guest_storages` -/
def usableGuestStorages (storages : List ZfsStorage) (node : Str) : List ZfsStorage :=
  storages.filter fun s =>
    s.pool != [] &&
    (s.content == [] || s.content.contains ("images" : Str) || s.content.contains ("rootdir" : Str)) &&
    (s.nodes == [] || node == [] || s.nodes.contains node)

/-- The first of `base-n`, `base-(n+1)`, … that is not taken.  One of the
first `fuel` is free when `fuel` exceeds the number of taken names. -/
def firstFree (base : Str) (taken : List Str) : Nat → Nat → Str
  | 0, n => base ++ "-" ++ ofNat n
  | fuel + 1, n =>
      if base ++ "-" ++ ofNat n ∈ taken then firstFree base taken fuel (n + 1)
      else base ++ "-" ++ ofNat n

/-- The characters of a storage id. -/
def isStorageIdChar (c : Char) : Bool :=
  isAsciiLower c || isAsciiDigit c || "._-".toList.contains c

/-- `str.strip(chars)` -/
def stripChars (chars s : Str) : Str :=
  ((s.dropWhile chars.contains).reverse.dropWhile chars.contains).reverse

/-- `suggest_storage_id` -/
def suggestStorageId (dataset : Str) (existing : List Str) : Str :=
  let leaf := lower (afterLast '/' (dataset.reverse.dropWhile (· = '/')).reverse)
  let base := stripChars "-." (leaf.map (fun c => if isStorageIdChar c then c else '-'))
  let base :=
    if base = [] then ("zfs-storage" : Str)
    else if ¬ base.head?.any isAsciiLower then stripChars "-" ("zfs-" ++ base)
    else base
  let base := base.take 56
  if base ∈ existing then firstFree base existing existing.length 2 else base

/-- `check_storage_match`: whether the target storage writes into the
target dataset, the reason, and the storages that do. -/
def checkStorageMatch (storages : List ZfsStorage) (targetStorage targetRoot : Str) :
    Bool × Str × List Str :=
  let matching := (storages.filter (fun s => s.pool = targetRoot)).map ZfsStorage.storage
  if targetStorage = [] then
    if matching ≠ [] then
      (false, "pick the target storage (matching: " ++ join ", " matching ++ ")", matching)
    else
      (false, "no ZFS storage on the target writes into " ++ targetRoot ++
        " -- create one in PVE first, or pick a different target dataset", [])
  else match storages.find? (fun s => s.storage = targetStorage) with
    | none =>
        (false, "storage " ++ targetStorage ++ " does not exist on the target", matching)
    | some st =>
        if st.pool ≠ targetRoot then
          (false, "storage " ++ targetStorage ++ " writes into " ++ st.pool ++
            ", but the disks go to " ++ targetRoot ++ " -- the guest would not find them",
            matching)
        else (true, targetStorage ++ " → " ++ targetRoot, matching)

/-! ## Rewriting a guest config -/

/-- The volume kinds of PVE, in the order of the alternation. -/
def volumeKinds : List Str := ["vm", "subvol", "base", "basevol"]

/-- The first of `words` that the text starts with. -/
def leadingWord (words : List Str) (s : Str) : Option Str := words.find? (fun w => startsWith s w)

/-- `(^|[\s:,])old:(?=\S)`, replaced by the group, `new` and a colon. -/
def storageMatcher (old new : Str) (prev : Option Char) (s : Str) : Option (Nat × Str) :=
  let volume := fun (r : Str) =>
    startsWith r (old ++ ":") && (r.drop (old.length + 1)).head?.any (fun c => !isSpace c)
  if prev = none ∧ volume s then some (old.length + 1, new ++ ":")
  else match s with
    | [] => none
    | c :: r =>
        if (isSpace c || c == ':' || c == ',') && volume r then
          some (old.length + 2, c :: new ++ ":")
        else none

/-- `bridge=old\b`, replaced by a text that the template already gave. -/
def bridgeMatcher (old replacement : Str) (s : Str) : Option (Nat × Str) :=
  let whole : Str := "bridge=" ++ old
  if startsWith s whole && isBoundary whole.getLast? (s.drop whole.length).head? then
    some (whole.length, replacement)
  else none

/-- `\b(vm|subvol|base|basevol)-old-disk-`: the kind that matched. -/
def volumeMatch (old : Str) (prev : Option Char) (s : Str) : Option Str :=
  if isBoundary prev s.head? then
    leadingWord (volumeKinds.map (fun k => k ++ "-" ++ old ++ "-disk-")) s
  else none

/-- One storage of the map applied to a line. -/
def rewriteStorage (line : Str) (m : Str × Str) : Str :=
  if m.1 = [] ∨ m.2 = [] then line else substitute (storageMatcher m.1 m.2) none 0 line

/-- One bridge of the map applied to a line.  The new name is part of a
replacement template, which `re` may refuse. -/
def rewriteBridge (line : Str) (m : Str × Str) : Except Exn Str :=
  if m.1 = [] ∨ m.2 = [] then .ok line
  else
    -- `re` parses the template before it looks for the first match.
    let group := fun n => if n = 0 then some ("bridge=" ++ m.1 : Str) else none
    match expandTemplate group 0 ("bridge=" ++ m.2) with
    | none => .error .reError
    | some r => .ok (substitute (fun _ s => bridgeMatcher m.1 r s) none 0 line)

/-- The kind of a match of `volumeMatch`. -/
def kindOf (whole : Str) : Str := beforeFirst '-' whole

/-- The volume names of `old` renamed to `new` in a line. -/
def rewriteVmid (old new line : Str) : Except Exn Str :=
  let template : Str := "\\1-" ++ new ++ "-disk-"
  let group := fun (whole : Str) n =>
    if n = 0 then some whole else if n = 1 then some (kindOf whole) else none
  if (expandTemplate (group []) 0 template).isNone then .error .reError
  else .ok (substitute (fun prev s => do
    let whole ← volumeMatch old prev s
    return (whole.length, ← expandTemplate (group whole) 0 template)) none 0 line)

/-- One line of the config. -/
def rewriteLine (storageMap bridgeMap : List (Str × Str)) (oldVmid newVmid : Option Str)
    (line : Str) : Except Exn Str := do
  let line := storageMap.foldl rewriteStorage line
  let line ← bridgeMap.foldlM rewriteBridge line
  match oldVmid, newVmid with
  | some old, some new =>
      if old = [] ∨ new = [] ∨ old = new then return line else rewriteVmid old new line
  | _, _ => return line

/-- `rewrite_guest_config`.  A `lock:` line is dropped. -/
def rewriteGuestConfig (text : Str) (storageMap bridgeMap : List (Str × Str))
    (oldVmid newVmid : Option Str) : Except Exn Str := do
  let lines ← ((splitLines text).filter (fun line => !startsWith line "lock:")).mapM
    (rewriteLine storageMap bridgeMap oldVmid newVmid)
  return join "\n" lines ++ (if text ≠ [] ∧ text.getLast? ≠ some '\n' then ("\n" : Str) else [])

end PveZfsTool
