import PveZfsTool.GuestConfig
import PveZfsTool.Lib.Unquote

/-!
# The config of a recovery guest

The pure helpers of `app/recovery_guest.py`: the names of the clones and
their storage, the marker that makes a guest recognisable, and the config
built from the config of the original.

The time and the two UUIDs that a config gets are parameters.
-/

namespace PveZfsTool

open Text

/-- `MARKER` -/
def recoveryMarker : Str := "pve-zfs-tool-clone"

/-- `LEGACY_MARKERS` -/
def legacyMarkers : List Str := ["pve-zfs-tool-recovery"]

/-- `RECOVERY_LEAF` -/
def recoveryLeaf : Str := "clone"

/-- `HOLD_TAG` -/
def holdTag : Str := "pve-zfs-tool-recovery"

/-- `recovery_root` -/
def recoveryRoot (pool : Str) : Str := pool ++ "/" ++ recoveryLeaf

/-- `recovery_storage_id` -/
def recoveryStorageId (pool : Str) : Str :=
  let safe := (lower (pool ++ "-" ++ recoveryLeaf)).map
    (fun c => if isStorageIdChar c then c else '-')
  let sid := stripChars "-." safe
  (if sid.head?.any isAsciiLower then sid else "zfs-" ++ sid).take 63

/-! ## Clones -/

/-- The text without a newline at its end, where `$` also matches. -/
def beforeDollar (s : Str) : Str :=
  match s.reverse with
  | '\n' :: r => r.reverse
  | _ => s

/-- `^(vm|subvol|base|basevol)-\d+-(disk-\d+)$`: the kind and the disk. -/
def guestVolume (base : Str) : Option (Str × Str) :=
  volumeKinds.findSome? fun kind =>
    let r := base.drop (kind.length + 1)
    let afterVmid := r.dropWhile isDecimal
    let index := beforeDollar (afterVmid.drop 6)
    if startsWith base (kind ++ "-") && r.takeWhile isDecimal != [] &&
        startsWith afterVmid "-disk-" && index != [] && index.all isDecimal then
      some (kind, "disk-" ++ index)
    else none

/-- The kind of a clone: it is not a template. -/
def cloneKind (kind : Str) : Str :=
  if kind = ("base" : Str) then "vm" else if kind = ("basevol" : Str) then "subvol" else kind

/-- `clone_volume_name`.  It raises for a dataset that is no guest volume. -/
def cloneVolumeName (dataset newVmid : Str) : Except Exn Str :=
  match guestVolume (volumeBasename dataset) with
  | none => .error (.valueError ("not a PVE guest volume: " ++ dataset))
  | some (kind, disk) => .ok (cloneKind kind ++ "-" ++ newVmid ++ "-" ++ disk)

/-- One comma separated part of a value, if it is a size. -/
def sizeOfPart (part : Str) : Option Str :=
  let size := part.drop 5
  let unit := size.dropWhile isAsciiDigit
  if startsWith part "size=" && size.takeWhile isAsciiDigit != [] &&
      (unit == [] || unit.length == 1 && unit.all "KMGTP".toList.contains) then some size
  else none

/-- `_size_from_value` -/
def sizeFromValue (value : Str) : Str := ((splitOn ',' value).findSome? sizeOfPart).getD []

/-- The size on one config line, with its volume id. -/
def sizeOfLine (line : Str) : Option (Str × Str) :=
  match keyLine (strip line) with
  | none => none
  | some (_, rest) =>
      let volid := strip (beforeFirst ',' (lstrip rest))
      let size := sizeFromValue (lstrip rest)
      if volid = [] ∨ size = [] then none else some (volid, size)

/-- `disk_sizes` -/
def diskSizes (text : Str) : List (Str × Str) :=
  (splitLines (splitMainSection text)).filterMap sizeOfLine

/-- `d.get(key)` of a dictionary that was filled in this order. -/
def lookupLast (entries : List (Str × Str)) (key : Str) : Option Str :=
  (entries.reverse.find? (fun e => e.1 = key)).map Prod.snd

/-- `CLONE_PROPS` -/
def cloneProps : Str := "-o com.sun:auto-snapshot=false -o refreservation=none"

/-- The `-o` words of `clone_command`. -/
def cloneWords (gtype size : Str) : Str :=
  if gtype = ("lxc" : Str) then
    cloneProps ++ " -o acltype=posixacl -o xattr=sa" ++
      (if size = [] then [] else (" -o refquota=" : Str) ++ shlexQuote size)
  else cloneProps

/-! ## Entries that are bound to the host -/

/-- An entry of a config that points at the host. -/
structure HostEntry where
  key : Str
  value : Str
  reason : Str
  deriving DecidableEq

/-- The reason a `key: value` line points at the host, if it does. -/
def hostReason (gtype key value : Str) : Option Str :=
  let first := strip (beforeFirst ',' value)
  if gtype = ("lxc" : Str) then
    if isNumberedKey ["mp"] key && !first.contains ':' then some "bind_mount"
    else if isNumberedKey ["dev"] key then some "device"
    else none
  else if isNumberedKey ["hostpci"] key then some "passthrough"
  else if isNumberedKey ["usb"] key &&
      (splitOn ',' value).any (fun p => startsWith p "host=" || startsWith p "mapping=") then
    some "passthrough"
  else if isNumberedKey ["scsi", "virtio", "sata", "ide"] key && startsWith first "/" &&
      !contains value "media=cdrom" then some "passthrough"
  else if isNumberedKey ["serial", "parallel"] key && startsWith first "/dev/" then some "device"
  else none

/-- The entry of one stripped line, if it points at the host. -/
def hostBoundEntry (gtype s : Str) : Option HostEntry :=
  if s = [] ∨ startsWith s "#" then none
  else if gtype = ("lxc" : Str) ∧ startsWith s "lxc.mount.entry:" then
    some ⟨"lxc.mount.entry", strip (afterFirst ':' s), "bind_mount"⟩
  else if gtype = ("lxc" : Str) ∧ (startsWith s "lxc.cgroup.devices.allow:" ∨
      startsWith s "lxc.cgroup2.devices.allow:") then
    some ⟨beforeFirst ':' s, strip (afterFirst ':' s), "device"⟩
  else match keyLine s with
    | none => none
    | some (key, rest) =>
        (hostReason gtype key (strip rest)).map (fun reason => ⟨key, strip rest, reason⟩)

/-- `host_bound_entries` -/
def hostBoundEntries (text gtype : Str) : List HostEntry :=
  (splitLines (splitMainSection text)).filterMap (fun line => hostBoundEntry gtype (strip line))

/-! ## The marker -/

/-- `marker_line`.  `created` is the formatted time. -/
def markerLine (originVmid snapshot created : Str) : Str :=
  "#" ++ recoveryMarker ++ " origin=" ++ originVmid ++ " snapshot=" ++ snapshot ++ " created=" ++
    created

/-- The fields of a marker. -/
structure Marker where
  origin : Str
  snapshot : Str
  created : Str
  deriving DecidableEq

/-- The matches of `(\w+)=(\S+)` from here on.  `skip` counts the characters
that belong to the last match, or to a word that is no key. -/
def findFields : Nat → Str → List (Str × Str)
  | _, [] => []
  | skip + 1, _ :: s => findFields skip s
  | 0, c :: s =>
      let key := (c :: s).takeWhile isWord
      let value := (((c :: s).drop key.length).drop 1).takeWhile (fun c => !isSpace c)
      if key = [] then findFields 0 s
      else if ((c :: s).drop key.length).head? = some '=' ∧ value ≠ [] then
        (key, value) :: findFields (key.length + value.length) s
      else findFields (key.length - 1) s

/-- The marker on one line, if it has one. -/
def markerOfLine (line : Str) : Option Marker :=
  match line with
  | '#' :: rest =>
      let dec := unquote rest
      if (recoveryMarker :: legacyMarkers).any (startsWith dec) then
        let field := fun (name : Str) => (lookupLast (findFields 0 dec) name).getD []
        some ⟨field "origin", field "snapshot", field "created"⟩
      else none
  | _ => none

/-- `parse_marker` -/
def parseMarker (text : Str) : Option Marker := (splitLines text).findSome? markerOfLine

/-! ## The config of the clone -/

/-- The values a new config takes from the clock and from `uuid4`. -/
structure Fresh where
  created : Str
  smbios : Str
  vmgenid : Str
  deriving DecidableEq

/-- `_DROP_RE` -/
def isDropped (s : Str) : Bool :=
  let key := beforeFirst ':' s
  s.contains ':' && (isNumberedKey ["net", "unused"] key ||
    (["lock", "parent", "onboot", "startup", "hookscript", "vmgenid", "smbios1", "template",
      "protection"].map String.toList).contains key)

/-- The text after the first colon, empty when there is none. -/
def afterColon (s : Str) : Str := if s.contains ':' then afterFirst ':' s else []

/-- One stripped line of the origin's config in the config of the clone. -/
def recoveryLine (gtype : Str) (leftOut : List HostEntry) (volidMap : List (Str × Str))
    (s : Str) : Option Str :=
  if s = [] ∨ startsWith s "#" ∨ isDropped s then none
  else if leftOut.any (fun e => e.key = strip (beforeFirst ':' s) ∧ e.value = strip (afterColon s))
  then none
  else match keyLine s with
    | none => some s
    | some (key, rest) =>
        let value := lstrip rest
        let volid := strip (beforeFirst ',' value)
        match lookupLast volidMap volid with
        | some clone => some (key ++ ": " ++ clone ++ value.drop volid.length)
        | none =>
            if key = ("name" : Str) ∧ gtype ≠ ("lxc" : Str) then
              some ("name: " ++ strip value ++ "-clone")
            else if key = ("hostname" : Str) ∧ gtype = ("lxc" : Str) then
              some ("hostname: " ++ strip value ++ "-clone")
            else some s

/-- `build_recovery_config` -/
def buildRecoveryConfig (text gtype : Str) (volidMap : List (Str × Str))
    (originVmid snapshot : Str) (fresh : Fresh) : Str :=
  let lines := (splitLines (splitMainSection text)).filterMap
    (fun line => recoveryLine gtype (hostBoundEntries text gtype) volidMap (strip line))
  let ids : List Str :=
    if gtype = ("lxc" : Str) then []
    else ["smbios1: uuid=" ++ fresh.smbios, "vmgenid: " ++ fresh.vmgenid]
  join "\n" (markerLine originVmid snapshot fresh.created :: lines ++
    ("onboot: 0" : Str) :: ids) ++ "\n"

end PveZfsTool
