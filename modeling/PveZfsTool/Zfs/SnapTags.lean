import PveZfsTool.Lib.Text

/-!
# The tag of a snapshot name

This models `extract_tag` of `snaptags.py`.
-/

namespace PveZfsTool

open Text

/-- `DEFAULT_TAGS` -/
def defaultTags : List Str :=
  ["frequent", "hourly", "daily", "weekly", "monthly", "yearly", "backup-zfs", "bashclub-zfs"]

/-- `TAG_RE` -/
def matchesTag : Str → Bool
  | [] => false
  | c :: s => isAsciiAlnum c && s.length ≤ 63 &&
      s.all (fun d => isAsciiAlnum d || d == '.' || d == '_' || d == '-')

/-- `is_valid_tag` -/
def isValidTag (tag : Str) : Bool := tag ≠ [] && atDollar matchesTag tag

/-- `_AUTOSNAP_RE.search`: the label of the leftmost match. -/
def autosnapLabel : Str → Option Str
  | [] => none
  | c :: s =>
      let label := ((c :: s).drop 14).takeWhile isAsciiAlnum
      if startsWith (c :: s) "zfs-auto-snap_" && label ≠ [] then some label else autosnapLabel s

/-- `\d{4}` at the beginning. -/
def startsWithYear (s : Str) : Bool := (s.take 4).length = 4 && (s.take 4).all isDecimal

/-- `[-_.]?\d{4}` at the beginning. -/
def startsWithStamp : Str → Bool
  | [] => false
  | c :: s => if c == '-' || c == '_' || c == '.' then startsWithYear s else startsWithYear (c :: s)

/-- `_PREFIX_RE.match`: the shortest text before a stamp.  The dot of the
pattern matches no newline. -/
def stampPrefix : Str → Option Str
  | [] => none
  | c :: s =>
      if startsWithStamp (c :: s) then some []
      else if c = '\n' then none
      else (stampPrefix s).map (c :: ·)

/-- `s.rstrip("-_.")` -/
def rstripSeparators (s : Str) : Str :=
  (s.reverse.dropWhile (fun c => c == '-' || c == '_' || c == '.')).reverse

/-- `extract_tag` -/
def extractTag (snapName : Str) : Option Str :=
  match autosnapLabel snapName with
  | some label => some label
  | none =>
      match defaultTags.find? (contains snapName) with
      | some tag => some tag
      | none =>
          match stampPrefix snapName with
          | some pre => if isValidTag (rstripSeparators pre) then some (rstripSeparators pre) else none
          | none => none

example : extractTag "zfs-auto-snap_hourly-2026-01-02-0300" = some "hourly".toList := by decide

example : extractTag "nas_2026-01-02" = some "nas".toList := by decide

end PveZfsTool
