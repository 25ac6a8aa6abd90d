import Mathlib.Data.List.ModifyLast
import PveZfsTool.Lib.Dict
import PveZfsTool.Lib.Lines

/-!
# How a pool is built

`app/pool_topology.py` reads the device tree out of the output of
`zpool status` and lists the vdevs whose loss costs more than it looks like.

The parser goes over the lines with a state of its own, `Parser`.  A line
opens a pool, starts or ends the device tree, or is an entry of the tree.

* `step_opens`, `step_config`, `step_errors`, `step_skips`, `step_entry`: what
  each kind of line does.
-/

namespace PveZfsTool

open Text

/-! ## Names -/

/-- A letter of a pattern under `re.IGNORECASE`.  Besides its two cases, the
pattern letter `i` matches the dotted and the dotless letter of Turkish. -/
def sameLetter (p c : Char) : Bool :=
  c.toLower == p || (p == 'i' && (c.toNat == 0x130 || c.toNat == 0x131))

/-- What is left of a name after a word that it starts with, but for the case
of letters. -/
def dropFolded : Str → Str → Option Str
  | [], s => some s
  | _ :: _, [] => none
  | p :: ps, c :: s => if sameLetter p c then dropFolded ps s else none

/-- `(-\d+)?$`, at the end of a word -/
def optIndex : Str → Bool
  | [] => true
  | c :: digits => c == '-' && digits ≠ [] && digits.all isDecimal

/-- What a container says about redundancy. -/
inductive Redundancy where
  | mirror
  | raidz (parity : Char)
  | draid
  | none
  deriving DecidableEq

/-- The parity of `_RAIDZ_RE`. -/
def raidzParity (name : Str) : Option Char :=
  match dropFolded "raidz" name with
  | none => none
  | some [] => some '1'
  | some (c :: rest) =>
      if c == '1' || c == '2' || c == '3' then if optIndex rest then some c else none
      else if optIndex (c :: rest) then some '1' else none

/-- `_redundancy`, of a word -/
def redundancy (name : Str) : Redundancy :=
  if (dropFolded "mirror" name).any optIndex then .mirror
  else match raidzParity name with
    | some parity => .raidz parity
    | none =>
        if (dropFolded "draid" name).any (fun rest => rest.all (fun c => !isSpace c)) then .draid
        else .none

inductive Tier where
  | data
  | log
  | cache
  | special
  | dedup
  | spare
  deriving DecidableEq

/-- `_TIER_HEADERS` -/
def tierHeaders : List (Str × Tier) :=
  [("logs", .log), ("log", .log), ("cache", .cache), ("special", .special), ("dedup", .dedup),
    ("spares", .spare), ("spare", .spare)]

/-- `_STATES` -/
def vdevStates : List Str :=
  ["ONLINE", "DEGRADED", "FAULTED", "UNAVAIL", "OFFLINE", "REMOVED", "AVAIL", "INUSE",
    "SUSPENDED", "SPLIT"]

/-- The letters that one character becomes in capitals.  Besides the ASCII
letters, these are the ones that become ASCII letters. -/
def upperChar (c : Char) : Str :=
  if c.toNat = 0x131 then "I"
  else if c.toNat = 0x17F then "S"
  else if c.toNat = 0xDF then "SS"
  else if c.toNat = 0xFB00 then "FF"
  else if c.toNat = 0xFB01 then "FI"
  else if c.toNat = 0xFB02 then "FL"
  else if c.toNat = 0xFB03 then "FFI"
  else if c.toNat = 0xFB04 then "FFL"
  else if c.toNat = 0xFB05 ∨ c.toNat = 0xFB06 then "ST"
  else [c.toUpper]

/-- `str.upper`, for a text that is compared with ASCII letters -/
def upper (s : Str) : Str := s.flatMap upperChar

/-! ## Lines -/

/-- `_indent` -/
def indent (line : Str) : Nat :=
  ((line.flatMap (fun c => if c = '\t' then "    " else [c])).takeWhile (· = ' ')).length

/-- What follows a keyword that the line starts with, but for whitespace. -/
def afterKeyword (keyword raw : Str) : Option Str := (lstrip raw).dropPrefix? keyword

/-- `^\s*pool:\s*(\S+)` -/
def poolHeader (raw : Str) : Option Str :=
  match (afterKeyword "pool:" raw).map (fun rest => (lstrip rest).takeWhile (fun c => !isSpace c)) with
  | none => none
  | some [] => none
  | some (c :: name) => some (c :: name)

/-- `^\s*config:\s*$` -/
def isConfigLine (raw : Str) : Bool :=
  (afterKeyword "config:" raw).any (fun rest => rest.all isSpace)

/-- `^\s*errors:` -/
def isErrorsLine (raw : Str) : Bool := (afterKeyword "errors:" raw).isSome

/-! ## The parser -/

/-- A top-level entry of the device tree. -/
structure Vdev where
  tier : Tier
  name : Str
  redundancy : Redundancy
  state : Str
  devices : List Str
  deriving DecidableEq

/-- The topology of the pools by name. -/
abbrev Topology := Dict Str (List Vdev)

/-- The variables of the loop of `parse_topology`.  `current` is the last vdev
of the pool, and here it says whether there is one. -/
structure Parser where
  pools : Topology := Dict.empty
  pool : Option Str := none
  inConfig : Bool := false
  tier : Tier := .data
  poolIndent : Option Nat := none
  vdevIndent : Option Nat := none
  current : Bool := false

namespace Parser

/-- `pool: name` -/
def openPool (p : Parser) (name : Str) : Parser where
  pools := p.pools.setdefault name []
  pool := some name

/-- `pools[pool].append(current)` -/
def addVdev (p : Parser) (pool : Str) (v : Vdev) : Parser :=
  { p with pools := p.pools.push pool v, current := true }

/-- `current["devices"].append(name)` -/
def addDevice (p : Parser) (pool name : Str) : Parser :=
  { p with pools := p.pools.alter pool fun vdevs =>
      (vdevs.getD []).modifyLast fun v => { v with devices := v.devices ++ [name] } }

/-- An entry with a state, below the pool's own line. -/
def device (p : Parser) (pool name state : Str) (depth : Nat) : Parser :=
  let top := p.vdevIndent.getD depth
  let p := { p with vdevIndent := some top }
  if depth ≤ top then
    p.addVdev pool
      ⟨p.tier, name, redundancy name, state, if redundancy name = .none then [name] else []⟩
  else if p.current then p.addDevice pool name
  else p

/-- A line of the device tree.  `column` is the word after the name. -/
def entry (p : Parser) (pool name : Str) (column : Option Str) (depth : Nat) : Parser :=
  let state := upper (column.getD [])
  let hasState := vdevStates.contains state
  if name = "NAME" then p
  else if name = pool ∧ hasState = true ∧ p.poolIndent = none then
    { p with poolIndent := some depth }
  else if p.poolIndent = none then p
  else if hasState then p.device pool name state depth
  else match tierHeaders.lookup (lower name) with
    | some tier => { p with tier := tier, current := false }
    | none => p

/-- The body of the loop of `parse_topology`. -/
def step (p : Parser) (raw : Str) : Parser :=
  match poolHeader raw with
  | some name => p.openPool name
  | none =>
      if isConfigLine raw then { p with inConfig := true }
      else if isErrorsLine raw then { p with inConfig := false, current := false }
      else match p.inConfig, p.pool, splitWords (strip raw) with
        | true, some pool, name :: words => p.entry pool name words.head? (indent raw)
        | _, _, _ => p

end Parser

/-- `parse_topology` -/
def parseTopology (statusText : Str) : Topology :=
  ((splitLines statusText).foldl Parser.step {}).pools

/-! ## Findings -/

inductive FindingSeverity where
  | crit
  | warn
  deriving DecidableEq

inductive LossReason where
  | poolLoss
  | syncWrites
  deriving DecidableEq

structure Finding where
  pool : Str
  vdev : Str
  tier : Tier
  severity : FindingSeverity
  reason : LossReason
  deriving DecidableEq

/-- `FATAL_TIERS` -/
def fatalTiers : List Tier := [.data, .special, .dedup]

/-- What is found about one vdev. -/
def findingOf (pool : Str) (v : Vdev) : Option Finding :=
  if v.redundancy ≠ .none then none
  else if v.tier = .cache ∨ v.tier = .spare then none
  else
    some
      { pool := pool
        vdev := v.name
        tier := v.tier
        severity := if v.tier ∈ fatalTiers then .crit else .warn
        reason := if v.tier ∈ fatalTiers then .poolLoss else .syncWrites }

/-- `redundancy_findings` -/
def redundancyFindings (topology : Topology) : List Finding :=
  (topology.entries.insertionSort (fun a b => le a.1 b.1 = true)).flatMap fun e =>
    e.2.filterMap (findingOf e.1)

end PveZfsTool
