import PveZfsTool.Backups.Listing
import PveZfsTool.Lib.Dict
import PveZfsTool.Host

/-!
# The limit of the ARC

`app/tuning.py` keeps the limits of the ARC in `/etc/modprobe.d/zfs.conf`.  It
reads the file and writes it anew, with the other parameters of the module and
the other lines of the file as they were read.

One script reads the file and some values of the host, and prints the file
last, behind a marker.
-/

namespace PveZfsTool

open Text Dialogue
open Backups (Json)

/-! ## `zfs.conf` -/

/-- `ARC_CONF_PATH` -/
def arcConfPath : Str := "/etc/modprobe.d/zfs.conf"

/-- `ARC_MIN_BYTES` -/
def arcMinBytes : Int := 64 * 1024 * 1024

/-- The parameters of the module, in the order in which they were first set. -/
abbrev ZfsParams := Dict Str Str

/-- `k, v = tok.split("=", 1)`, if the token has an equals sign -/
def paramOf (tok : Str) : Option (Str × Str) :=
  if '=' ∈ tok then some (beforeFirst '=' tok, afterFirst '=' tok) else none

/-- The parameters on one line, which are set over those before. -/
def lineParams (params : ZfsParams) (line : Str) : ZfsParams :=
  ((splitWords ((strip line).drop 11)).filterMap paramOf).foldl (fun d p => d.set p.1 p.2) params

/-- The line is one of `options zfs`. -/
def isOptionsLine (line : Str) : Bool := startsWith (strip line) "options zfs"

/-- `_collect_zfs_params` -/
def collectZfsParams (text : Str) : ZfsParams × List Str :=
  (((splitLines text).filter isOptionsLine).foldl lineParams Dict.empty,
    (splitLines text).filter (fun line => !isOptionsLine line))

/-- `params.pop(key, None)` -/
def popParam (params : ZfsParams) (key : Str) : ZfsParams where
  entries := params.entries.filter (fun e => e.1 ≠ key)
  distinct := params.distinct.sublist (List.Sublist.map _ List.filter_sublist)

/-- Set the parameter to a number above zero. -/
def setLimit (params : ZfsParams) (key : Str) (n : Option Int) : ZfsParams :=
  match n with
  | none => params
  | some n => if 0 < n then params.set key (ofInt n) else params

/-- `build_arc_conf` -/
def buildArcConf (existingText : Str) (arcMax arcMin : Option Int) : Str :=
  let (params, other) := collectZfsParams existingText
  let params := popParam (popParam params "zfs_arc_max") "zfs_arc_min"
  let params := setLimit (setLimit params "zfs_arc_max" arcMax) "zfs_arc_min" arcMin
  let opts := join [' '] (params.entries.map (fun e => e.1 ++ '=' :: e.2))
  let out := if params.entries = [] then other else other ++ [("options zfs " : Str) ++ opts]
  let body := strip (join ['\n'] out)
  if body = [] then [] else body ++ ['\n']

/-! ## The probe -/

/-- What `_parse_arc_probe` makes of the output. -/
structure ArcProbe where
  runtimeMax : Option Int
  runtimeMin : Option Int
  totalRamBytes : Option Int
  currentSize : Option Int
  poolSum : Int
  confText : Str
  deriving DecidableEq

/-- The line that the file follows. -/
def isConfMarker (line : Str) : Bool := strip line = "__ZFSCONF__"

/-- The values before the marker. -/
def probeScalars (lines : List Str) : Dict Str Str :=
  (lines.filterMap paramOf).foldl (fun d p => d.set (strip p.1) (strip p.2)) Dict.empty

/-- `int(v) if v.isdigit()`, for ASCII digits -/
def digitsInt? (v : Str) : Option Int :=
  if v ≠ [] ∧ v.all isAsciiDigit = true then toInt? v else none

/-- `_parse_arc_probe` -/
def parseArcProbe (output : Str) : ArcProbe :=
  let lines := splitLines output
  let scalars := probeScalars (lines.takeWhile (fun l => !isConfMarker l))
  let int := fun key => digitsInt? ((scalars.get? key).getD [])
  { runtimeMax := int "RUNTIME_MAX"
    runtimeMin := int "RUNTIME_MIN"
    totalRamBytes := (int "MEMTOTAL_KB").map (· * 1024)
    currentSize := int "ARC_SIZE"
    poolSum := (int "POOL_SUM").getD 0
    confText := join ['\n'] ((lines.dropWhile (fun l => !isConfMarker l)).drop 1) }

/-! ## Setting the limit -/

/-- The commands of `set_arc_limit`. -/
inductive ArcCmd where
  /-- The script of `_arc_probe_script`. -/
  | probe
  /-- The backup and the new text of the file. -/
  | writeConf (text : Str)
  | updateInitramfs
  | setRuntime (arcMin : Option Int) (arcMax : Int)
  deriving DecidableEq

/-- `_arc_probe_script` -/
def arcProbeScript : Str :=
  "printf 'RUNTIME_MAX=%s\\n' \"$(cat /sys/module/zfs/parameters/zfs_arc_max 2>/dev/null)\"\n" ++
  "printf 'RUNTIME_MIN=%s\\n' \"$(cat /sys/module/zfs/parameters/zfs_arc_min 2>/dev/null)\"\n" ++
  "printf 'MEMTOTAL_KB=%s\\n' \"$(awk '/^MemTotal:/\x7bprint $2\x7d' /proc/meminfo 2>/dev/null)\"\n" ++
  "printf 'ARC_SIZE=%s\\n' \"$(awk '/^size /\x7bprint $3\x7d' /proc/spl/kstat/zfs/arcstats 2>/dev/null)\"\n" ++
  "printf 'POOL_SUM=%s\\n' \"$(zpool list -Hp -o size 2>/dev/null | awk '\x7bs+=$1\x7d END\x7bprint s+0\x7d')\"\n" ++
  "printf '__ZFSCONF__\\n'\n" ++
  "cat " ++ shlexQuote arcConfPath ++ " 2>/dev/null\n"

/-- The command line that is sent to the host. -/
def ArcCmd.text : ArcCmd → Str
  | .probe => "bash -s <<'EOF'\n" ++ arcProbeScript ++ "\nEOF"
  | .writeConf text =>
      "if [ -f " ++ shlexQuote arcConfPath ++ " ]; then cp -a " ++ shlexQuote arcConfPath ++ " " ++
        shlexQuote arcConfPath ++ ".bak.$(date +%Y%m%d%H%M%S); fi && echo " ++
        shlexQuote (base64 (utf8 text)) ++ " | base64 -d > " ++ shlexQuote arcConfPath ++
        " && echo __WROTE__"
  | .updateInitramfs => "update-initramfs -u -k all 2>&1; echo __EXIT=$?"
  | .setRuntime arcMin arcMax =>
      (match arcMin with
        | some n =>
            if n = 0 then []
            else ("echo " : Str) ++ ofInt n ++ " > /sys/module/zfs/parameters/zfs_arc_min && "
        | none => []) ++
      ("echo " : Str) ++ ofInt arcMax ++ " > /sys/module/zfs/parameters/zfs_arc_max && echo __RT_OK__"

abbrev ArcJob (α : Type) := Prog ArcCmd Answer Exn α

/-- The dictionary that `set_arc_limit` returns.  The fields below `error` are
set when there is none. -/
structure ArcResult where
  success : Bool
  error : Option Str := none
  persistentWritten : Bool := false
  initramfsUpdated : Bool := false
  runtimeApplied : Bool := false
  runtimeError : Str := []
  rebootRecommended : Bool := false
  arcMax : Option Int := none
  arcMin : Option Int := none
  confPath : Option Str := none
  deriving DecidableEq

def ArcResult.failed (error : Str) : ArcResult := { success := false, error := some error }

/-- The limits that are asked for, or the message that refuses them. -/
def checkLimits (arcMax arcMin : Json) : Except Str (Int × Option Int) :=
  match arcMax.toInt? with
  | none => .error "arc_max must be an integer (bytes)"
  | some max =>
      if max ≠ 0 ∧ max < arcMinBytes then
        .error ("arc_max must be 0 (reset) or >= " ++ ofInt arcMinBytes ++ " bytes (64 MiB)")
      else match arcMin with
        | .null => .ok (max, none)
        | .str [] => .ok (max, none)
        | arcMin =>
            match arcMin.toInt? with
            | none => .error "arc_min must be an integer (bytes)"
            | some min =>
                if min < 0 then .error "arc_min must be >= 0"
                else if max ≠ 0 ∧ max ≤ min then .error "arc_min must be smaller than arc_max"
                else .ok (max, some min)

/-- `total_ram and arc_max > total_ram` -/
def exceedsRam (probe : ArcProbe) (arcMax : Int) : Bool :=
  probe.totalRamBytes.any (fun ram => ram ≠ 0 && ram < arcMax)

/-- Rebuild the initramfs and set the limits of the running module. -/
def applyLimits (arcMax : Int) (arcMin : Option Int) : ArcJob ArcResult := do
  let ri ← Prog.issue .updateInitramfs
  let done : ArcResult :=
    { success := true
      persistentWritten := true
      initramfsUpdated := contains ri.stdout "__EXIT=0"
      rebootRecommended := true
      arcMax := some arcMax
      arcMin := arcMin
      confPath := some arcConfPath }
  if arcMax ≠ 0 ∧ arcMinBytes ≤ arcMax then
    let rr ← Prog.issue (.setRuntime arcMin arcMax)
    if contains rr.stdout "__RT_OK__" then return { done with runtimeApplied := true }
    else
      return { done with
        runtimeError := (strip (if rr.stderr ≠ [] then rr.stderr else rr.stdout)).take 200 }
  else return done

/-- Write the new text of the file and apply the limits. -/
def saveLimits (text : Str) (arcMax : Int) (arcMin : Option Int) : ArcJob ArcResult := do
  let rw ← Prog.issue (.writeConf text)
  if contains rw.stdout "__WROTE__" then applyLimits arcMax arcMin
  else
    return .failed (("failed to write " : Str) ++ arcConfPath ++ ": " ++ (strip rw.stderr).take 200)

/-- `set_arc_limit` -/
def setArcLimit (arcMax arcMin : Json) : ArcJob ArcResult :=
  match checkLimits arcMax arcMin with
  | .error message => return .failed message
  | .ok (max, min) => do
      let r ← Prog.issue .probe
      let probe := parseArcProbe r.stdout
      if exceedsRam probe max then return .failed "arc_max exceeds total RAM"
      else
        saveLimits (buildArcConf probe.confText (if max = 0 then none else some max) min) max min

end PveZfsTool
