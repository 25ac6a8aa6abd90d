import PveZfsTool.Dr.BackupRestore
import PveZfsTool.Lib.Markers
import PveZfsTool.Lib.Numbers
import PveZfsTool.Lib.Threads
import PveZfsTool.Lib.Unquote

/-!
# Reinstalling the packages of a backup

`reinstall_packages_async` of `app/dr.py` restores the package sources of a backup,
asks `apt` for the packages that the backup names, and reads from one output how
that went: the exit code of `apt-get`, and the packages that are still missing.

`AptRun` is what the script meets on the host, and `AptRun.output` is what it prints
then.  `reinstall_honest` says that the job reports what happened, and that it
reports success exactly when `apt-get` succeeded and every package is there.
-/

namespace PveZfsTool

open Dialogue Text

/-! ## The packages of a backup -/

/-- The text of the first file at a path of the archive, `""` when it cannot be
read. -/
def archiveText (archive : Archive) (path : Str) : Str :=
  match archive with
  | .error _ => []
  | .ok members =>
    match members.find? (fun m => m.isFile && rel m.name = path) with
    | none => []
    | some m =>
      match m.data with
      | .error _ => []
      | .ok data => decodeUtf8 0 (data.map UInt8.toNat)

/-- `read_dpkg_selections` -/
def readDpkgSelections (archive : Archive) : Str := archiveText archive "cmd/dpkg-selections.txt"

/-- `read_apt_manual` -/
def readAptManual (archive : Archive) : List Str :=
  sortedSet (((splitLines (archiveText archive "cmd/apt-manual.txt")).filter (fun ln => strip ln ≠ [])).map
    (fun ln => beforeFirst ':' (strip ln)))

/-- The first and the last word of a line of at least two. -/
def selection (ln : Str) : Option (Str × Str) :=
  match splitWords ln with
  | name :: state :: states => some (name, (state :: states).getLast (List.cons_ne_nil _ _))
  | _ => none

/-- `_filter_selections` -/
def filterSelections (text : Str) : Str :=
  join "\n" ((splitLines text).filterMap (fun ln => (selection ln).bind (fun e =>
    if e.2 = ("install" : Str) ∨ e.2 = ("hold" : Str) then some (e.1 ++ '\t' :: e.2) else none)))

/-- `_install_package_names` -/
def installPackageNames (selections : Str) : List Str :=
  sortedSet ((splitLines selections).filterMap (fun ln => (selection ln).bind (fun e =>
    if e.2 = ("install" : Str) then some (beforeFirst ':' e.1) else none)))

/-- The packages that are asked for. -/
def wantedPackages (archive : Archive) : List Str :=
  if readAptManual archive ≠ [] then readAptManual archive
  else installPackageNames (filterSelections (readDpkgSelections archive))

/-! ## The output of the script -/

/-- `int(m.group(1))`, which raises on more digits than it converts. -/
def groupInt (digits : Str) : Except Exn Int :=
  match toInt? digits with
  | some n => .ok n
  | none => .error (.invalidInt digits)

/-- `__exit=(\d+)\s*$` -/
def exitIn (out : Str) : Except Exn (Option Int) :=
  match splitExitMarker (strip out) with
  | none => .ok none
  | some (_, digits) => (groupInt digits).map some

/-- The digits after the word, when it stands here. -/
def digitsAfter (word s : Str) : Option Str :=
  if word <+: s ∧ (s.drop word.length).takeWhile isDecimal ≠ [] then
    some ((s.drop word.length).takeWhile isDecimal)
  else none

/-- `__missing_count=(\d+)` -/
def missingCountIn (out : Str) : Except Exn (Option Int) :=
  match searchAt (digitsAfter "__missing_count=") out with
  | none => .ok none
  | some digits => (groupInt digits).map some

/-- The group of `__missing_begin\n(.*?)\n?__missing_end`, when it matches here. -/
def missingBlock (s : Str) : Option Str :=
  if ("__missing_begin\n" : Str) <+: s then untilWord "__missing_end" (s.drop 16) else none

/-- The packages that the output names. -/
def missingIn (out : Str) : List Str :=
  ((splitLines ((searchAt missingBlock out).getD [])).map strip).filter (fun ln => ln ≠ [])

/-- `__exit=\d+\s*$`, when it matches here. -/
def endsInExit (s : Str) : Bool :=
  ("__exit=" : Str).isPrefixOf s && ((s.drop 7).takeWhile isDecimal != [] &&
    ((s.drop 7).dropWhile isDecimal).all isSpace)

/-- `__missing_count=.*?__exit=\d+\s*$`, when it matches here. -/
def isMarkerBlock (s : Str) : Bool :=
  ("__missing_count=" : Str).isPrefixOf s && (s.drop 16).tails.any endsInExit

/-- The output without the marker block, and without a newline before it. -/
def beforeMarkers : Str → Str
  | [] => []
  | c :: s =>
    if isMarkerBlock (c :: s) || (c = '\n' && isMarkerBlock s) then [] else c :: beforeMarkers s

/-- What the job returns.  `error` is empty where the dictionary has none. -/
structure ReinstallResult where
  success : Bool
  error : Str
  exitCode : Option Int
  requested : Nat
  aptRestored : Nat
  missingCount : Option Int
  missing : List Str
  logTail : Str
  deriving DecidableEq

/-- The result, read from the answer to the script. -/
def reinstallResult (restored requested : Nat) (r : Answer) : Except Exn ReinstallResult := do
  let exitCode ← exitIn r.stdout
  let missingCount ← missingCountIn r.stdout
  return {
    success := (r.success && exitCode = some 0) && missingCount = some 0
    error := []
    exitCode := exitCode
    requested := requested
    aptRestored := restored
    missingCount := missingCount
    missing := missingIn r.stdout
    logTail := lastN 4000 (strip (beforeMarkers r.stdout)) }

/-! ## The job -/

inductive PackageReq where
  | restore (q : Host × RestoreCmd)
  | install (host : Host) (names : List Str)
  deriving DecidableEq

/-- The script that asks `apt` for the packages. -/
def installScript (names : List Str) : Str :=
  "echo " ++ shlexQuote (base64 (utf8 (join "\n" names ++ "\n"))) ++
    " | base64 -d | sort -u > /tmp/.pvezfs_req\n" ++
  "DEBIAN_FRONTEND=noninteractive apt-get update -qq || true\n" ++
  "apt-cache pkgnames 2>/dev/null | sort -u > /tmp/.pvezfs_avail\n" ++
  "grep -Fxf /tmp/.pvezfs_avail /tmp/.pvezfs_req > /tmp/.pvezfs_inst 2>/dev/null || true\n" ++
  "if [ -s /tmp/.pvezfs_inst ]; then\n" ++
  "  DEBIAN_FRONTEND=noninteractive xargs apt-get install -y " ++
  "-o Dpkg::Options::=--force-confold < /tmp/.pvezfs_inst 2>&1\n" ++
  "  EC=$?\n" ++
  "else EC=0; echo 'no requested package is available from the repos'; fi\n" ++
  "dpkg-query -W -f='$\x7bPackage\x7d\\n' 2>/dev/null | sort -u > /tmp/.pvezfs_have\n" ++
  "grep -Fxv -f /tmp/.pvezfs_have /tmp/.pvezfs_req > /tmp/.pvezfs_miss 2>/dev/null || true\n" ++
  "echo \"__missing_count=$(grep -c . /tmp/.pvezfs_miss 2>/dev/null || echo 0)\"\n" ++
  "echo __missing_begin\n" ++
  "head -60 /tmp/.pvezfs_miss 2>/dev/null || true\n" ++
  "echo __missing_end\n" ++
  "rm -f /tmp/.pvezfs_req /tmp/.pvezfs_avail /tmp/.pvezfs_inst /tmp/.pvezfs_have /tmp/.pvezfs_miss\n" ++
  "echo __exit=$EC\n"

abbrev PackageJob (α : Type) := Prog PackageReq Answer Exn α

/-- The job of `reinstall_packages_async`. -/
def reinstallPackages (host : Host) (archive : Archive) : PackageJob ReinstallResult := do
  let apt ← (restoreBackupCategory host archive "apt" true).relabel .restore
  let want := wantedPackages archive
  if want = [] then
    return ⟨false, "no installable package selections", none, 0, apt.restored, none, [], []⟩
  else do
    let r ← Prog.issue (.install host want)
    match reinstallResult apt.restored want.length r with
    | .ok result => return result
    | .error e => .raise e

/-! ## What the script meets -/

/-- The characters of a package name. -/
def isPackageChar (c : Char) : Bool := isAsciiAlnum c || c == '+' || c == '-' || c == '.'

structure IsPackageName (p : Str) : Prop where
  nonempty : p ≠ []
  plain : ∀ c ∈ p, isPackageChar c = true

/-- A run of the script.  `requested` is the sorted file of the names it is given,
`log` are the lines that `apt-get` prints, and `installed` are the packages that are
there after it. -/
structure AptRun where
  requested : List Str
  available : List Str
  log : List Str
  installExit : Nat
  installed : List Str

namespace AptRun

/-- `grep -Fxf avail req` -/
def installable (w : AptRun) : List Str := w.requested.filter (fun p => p ∈ w.available)

/-- `grep -Fxv -f have req` -/
def missing (w : AptRun) : List Str := w.requested.filter (fun p => p ∉ w.installed)

/-- `grep -c .` -/
def missingCount (w : AptRun) : Nat := w.missing.countP (fun p => p ≠ [])

def exitCode (w : AptRun) : Nat := if w.installable = [] then 0 else w.installExit

/-- What is printed up to the markers. -/
def printed (w : AptRun) : List Str :=
  w.log ++ if w.installable = [] then [("no requested package is available from the repos" : Str)] else []

/-- `grep` fails when it counts none, and then the zero is printed twice. -/
def countLines (w : AptRun) : List Str :=
  (("__missing_count=" : Str) ++ ofNat w.missingCount) :: if w.missingCount = 0 then [("0" : Str)] else []

/-- The markers from the list of the missing packages on. -/
def listLines (w : AptRun) : List Str :=
  ("__missing_begin" : Str) :: (w.missing.take 60 ++ [("__missing_end" : Str), "__exit=" ++ ofNat w.exitCode])

def output (w : AptRun) : Str := unlines (w.printed ++ w.countLines ++ w.listLines)

/-- The script ran for these packages.  `apt-get` prints no marker, and `int`
converts the two numbers. -/
structure RanFor (w : AptRun) (want : List Str) : Prop where
  requested : w.requested.Perm want
  names : ∀ p ∈ want, IsPackageName p
  log : ∀ l ∈ w.log, ¬ ("__missing_" : Str) <:+: l
  exitConverts : (ofNat w.exitCode).length ≤ 4300
  countConverts : (ofNat w.missingCount).length ≤ 4300

end AptRun

/-! ## Reading the markers -/

theorem notMem_packageName {p : Str} {d : Char} (h : IsPackageName p) (hd : isPackageChar d = false) : d ∉ p := by
  intro hmem
  rw [h.plain d hmem] at hd
  cases hd

theorem isSpace_of_isPackageChar {c : Char} (h : isPackageChar c = true) : isSpace c = false := by
  rw [isPackageChar, Bool.or_eq_true, Bool.or_eq_true, Bool.or_eq_true, beq_iff_eq, beq_iff_eq, beq_iff_eq] at h
  rcases h with ((h | rfl) | rfl) | rfl
  · exact isSpace_of_isAsciiAlnum h
  · decide
  · decide
  · decide

theorem IsPackageName.isWordText {p : Str} (h : IsPackageName p) : IsWordText p :=
  ⟨h.nonempty, fun c hc => isSpace_of_isPackageChar (h.plain c hc)⟩

/-- The digits at the end of a text are cut off behind the marker. -/
theorem splitExitMarker_digits {front digits : Str} (h : IsDigits digits) :
    splitExitMarker (front ++ ("__exit=" ++ digits)) = some (front, digits) := by
  have hdecimal : ∀ c ∈ digits.reverse, isDecimal c = true := fun c hc =>
    isDecimal_of_isAsciiDigit (h.isDigit c (List.mem_reverse.mp hc))
  have hreverse : (front ++ ("__exit=" ++ digits)).reverse = digits.reverse ++ '=' :: ("tixe__" ++ front.reverse) := by
    simp
  have htake : (front ++ ("__exit=" ++ digits)).reverse.takeWhile isDecimal = digits.reverse := by
    rw [hreverse, List.takeWhile_append_of_pos hdecimal, List.takeWhile_cons_of_neg (by decide), List.append_nil]
  have hdrop : (front ++ ("__exit=" ++ digits)).reverse.dropWhile isDecimal = '=' :: ("tixe__" ++ front.reverse) := by
    rw [hreverse, List.dropWhile_append_of_pos hdecimal, List.dropWhile_cons_of_neg (by decide)]
  have hfront : ('=' :: ("tixe__" ++ front.reverse) : Str).reverse = front ++ "__exit=" := by simp
  unfold splitExitMarker
  rw [htake, hdrop, hfront, List.reverse_reverse]
  rw [if_pos ⟨h.nonempty, List.suffix_append _ _⟩]
  simp

theorem isWordText_exit (n : Nat) : IsWordText ("__exit=" ++ ofNat n) where
  nonempty := List.cons_ne_nil _ _
  plain := by
    refine List.forall_mem_append.mpr ⟨by decide, fun c hc => ?_⟩
    exact isSpace_of_isAsciiDigit (isAsciiDigit_of_mem_ofNat hc)

/-- The exit code at the end of an output is read. -/
theorem exitIn_marker {front : Str} {n : Nat} (hn : (ofNat n).length ≤ 4300) :
    exitIn (front ++ ("__exit=" ++ ofNat n) ++ ['\n']) = .ok (some (n : Int)) := by
  have hword := isWordText_exit n
  have hend : rstrip (front ++ ("__exit=" ++ ofNat n) ++ ['\n']) = front ++ ("__exit=" ++ ofNat n) := by
    rw [rstrip_append_eq, if_pos (by decide), hword.rstrip_append]
  have hstrip : ∃ t, strip (front ++ ("__exit=" ++ ofNat n) ++ ['\n']) = t ++ ("__exit=" ++ ofNat n) := by
    rw [← strip_rstrip, hend, strip, lstrip_append_eq]
    split
    · exact ⟨[], strip_eq_self hword.plain⟩
    · exact ⟨lstrip front, hword.rstrip_append⟩
  obtain ⟨t, ht⟩ := hstrip
  rw [exitIn, ht, splitExitMarker_digits isDigits_ofNat]
  dsimp only
  rw [groupInt, toInt?_ofNat hn]
  rfl

theorem needsWord_digitsAfter (word : Str) : NeedsWord (digitsAfter word) word := by
  intro s h
  rw [digitsAfter] at h
  split at h
  · rename_i hword
    exact hword.1
  · cases h

theorem needsWord_missingBlock : NeedsWord missingBlock "__missing_begin" := by
  intro s h
  rw [missingBlock] at h
  split at h
  · rename_i hword
    exact (by decide : ("__missing_begin" : Str) <+: "__missing_begin\n").trans hword
  · cases h

theorem digitsAfter_here {word rest : Str} {n : Nat} :
    digitsAfter word (word ++ ofNat n ++ '\n' :: rest) = some (ofNat n) := by
  have hdigits : ∀ c ∈ ofNat n, isDecimal c = true := fun c hc =>
    isDecimal_of_isAsciiDigit (isAsciiDigit_of_mem_ofNat hc)
  have htake : ((word ++ ofNat n ++ '\n' :: rest).drop word.length).takeWhile isDecimal = ofNat n := by
    rw [List.append_assoc, List.drop_left, List.takeWhile_append_of_pos hdigits,
      List.takeWhile_cons_of_neg (by decide), List.append_nil]
  have hword : word <+: word ++ ofNat n ++ '\n' :: rest := by
    rw [List.append_assoc]
    exact List.prefix_append _ _
  rw [digitsAfter, htake, if_pos ⟨hword, isDigits_ofNat.nonempty⟩]

/-- The list of the missing packages is read whole. -/
theorem missingBlock_here {names : List Str} {rest : Str} (h : ∀ p ∈ names, IsPackageName p) :
    missingBlock ("__missing_begin" ++ '\n' :: (unlines names ++ ("__missing_end" ++ rest))) =
      some (join ['\n'] names) := by
  have hword : ("__missing_begin\n" : Str) <+:
      "__missing_begin" ++ '\n' :: (unlines names ++ ("__missing_end" ++ rest)) := ⟨_, rfl⟩
  rw [missingBlock, if_pos hword]
  refine untilWord_unlines (by decide) (List.prefix_append _ _) fun p hp => ?_
  exact ⟨notMem_packageName (h p hp) (by decide), notMem_packageName (h p hp) (by decide)⟩

theorem splitLines_names {names : List Str} (h : ∀ p ∈ names, IsPackageName p) :
    ((splitLines (join ['\n'] names)).map strip).filter (fun ln => ln ≠ []) = names := by
  rw [(splitLines_join_self (fun p hp => (h p hp).isWordText.noBreak) (fun p hp => (h p hp).nonempty)).1]
  have hstrip : names.map strip = names := by
    rw [List.map_congr_left fun p hp => strip_eq_self (h p hp).isWordText.plain]
    exact List.map_id names
  rw [hstrip, List.filter_eq_self]
  exact fun p hp => decide_eq_true (h p hp).nonempty

/-! ## What is reported -/

namespace AptRun

variable {w : AptRun} {want : List Str}

theorem RanFor.missingNames (h : w.RanFor want) : ∀ p ∈ w.missing, IsPackageName p := fun p hp =>
  h.names p (h.requested.mem_iff.mp (List.mem_filter.mp hp).1)

theorem RanFor.missingCount_eq (h : w.RanFor want) : w.missingCount = w.missing.length :=
  List.countP_eq_length.mpr fun p hp => decide_eq_true (h.missingNames p hp).nonempty

/-- Nothing that is printed before the markers has one. -/
theorem RanFor.not_marker (h : w.RanFor want) {marker : Str} (hmarker : ("__missing_" : Str) <:+: marker)
    (hnotice : ¬ marker <:+: ("no requested package is available from the repos" : Str)) :
    ∀ l ∈ w.printed, ¬ marker <:+: l := by
  intro l hl hinfix
  rcases List.mem_append.mp hl with hl | hl
  · exact h.log l hl (hmarker.trans hinfix)
  · split at hl
    · rw [List.mem_singleton.mp hl] at hinfix
      exact hnotice hinfix
    · cases hl

theorem RanFor.exitIn_output (h : w.RanFor want) : exitIn w.output = .ok (some (w.exitCode : Int)) := by
  have houtput : ∃ front, w.output = front ++ ("__exit=" ++ ofNat w.exitCode) ++ ['\n'] := by
    refine ⟨unlines (w.printed ++ w.countLines ++ (("__missing_begin" : Str) :: (w.missing.take 60 ++
      [("__missing_end" : Str)]))), ?_⟩
    simp only [output, listLines, unlines_append, unlines_cons, unlines_nil, List.append_assoc, List.cons_append,
      List.nil_append]
  obtain ⟨front, houtput⟩ := houtput
  rw [houtput]
  exact exitIn_marker h.exitConverts

theorem RanFor.missingCountIn_output (h : w.RanFor want) :
    missingCountIn w.output = .ok (some (w.missing.length : Int)) := by
  have hlines := @RanFor.not_marker w want h "__missing_count=" (by decide) (by decide)
  have houtput : ∃ rest, w.output =
      unlines w.printed ++ ("__missing_count=" ++ ofNat w.missingCount ++ '\n' :: rest) := by
    refine ⟨unlines ((if w.missingCount = 0 then [("0" : Str)] else []) ++ w.listLines), ?_⟩
    simp only [output, countLines, unlines_append, unlines_cons, List.append_assoc, List.cons_append]
  obtain ⟨rest, houtput⟩ := houtput
  rw [missingCountIn, houtput, searchAt_unlines (needsWord_digitsAfter _) (by decide) (by decide) hlines,
    searchAt_of_some digitsAfter_here]
  dsimp only
  rw [groupInt, toInt?_ofNat h.countConverts, h.missingCount_eq]
  rfl

/-- The lines of the count do not have the marker of the list. -/
theorem not_begin_countLines : ∀ l ∈ w.countLines, ¬ ("__missing_begin" : Str) <:+: l := by
  have hb : ∀ l : Str, 'b' ∉ l → ¬ ("__missing_begin" : Str) <:+: l := fun l hl h =>
    hl (h.subset (by decide))
  refine List.forall_mem_cons.mpr ⟨hb _ fun hmem => ?_, fun l hl => ?_⟩
  · rcases List.mem_append.mp hmem with hmem | hmem
    · exact absurd hmem (by decide)
    · exact absurd (isAsciiDigit_of_mem_ofNat hmem) (by decide)
  · split at hl
    · rw [List.mem_singleton.mp hl]
      exact hb _ (by decide)
    · cases hl

theorem RanFor.missingIn_output (h : w.RanFor want) : missingIn w.output = w.missing.take 60 := by
  have hnames : ∀ p ∈ w.missing.take 60, IsPackageName p := fun p hp =>
    h.missingNames p (List.mem_of_mem_take hp)
  have hlines : ∀ l ∈ w.printed ++ w.countLines, ¬ ("__missing_begin" : Str) <:+: l :=
    List.forall_mem_append.mpr ⟨h.not_marker (by decide) (by decide), not_begin_countLines⟩
  have houtput : ∃ rest, w.output = unlines (w.printed ++ w.countLines) ++
      ("__missing_begin" ++ '\n' :: (unlines (w.missing.take 60) ++ ("__missing_end" ++ rest))) := by
    refine ⟨'\n' :: unlines [("__exit=" : Str) ++ ofNat w.exitCode], ?_⟩
    simp only [output, listLines, unlines_append, unlines_cons, List.append_assoc]
  obtain ⟨rest, houtput⟩ := houtput
  rw [missingIn, houtput, searchAt_unlines needsWord_missingBlock (by decide) (by decide) hlines,
    searchAt_of_some (missingBlock_here hnames)]
  exact splitLines_names hnames

end AptRun

/-! ## The selections -/

/-- The lines that are kept name the same packages when they are read again. -/
theorem installPackageNames_filterSelections (text : Str) :
    installPackageNames (filterSelections text) = installPackageNames text := by
  have hword : ∀ ln e, selection ln = some e → IsWordText e.1 ∧ IsWordText e.2 := by
    intro ln e h
    rw [selection] at h
    split at h
    · rename_i name state states hwords
      cases h
      refine ⟨isWordText_of_mem_splitWords (hwords ▸ List.mem_cons_self), ?_⟩
      exact isWordText_of_mem_splitWords (hwords ▸ List.mem_cons_of_mem _ (List.getLast_mem _))
    · cases h
  have hself : ∀ a b, IsWordText a → IsWordText b → selection (a ++ '\t' :: b) = some (a, b) := by
    intro a b ha hb
    have hwords : splitWords (a ++ '\t' :: b) = [a, b] := by
      rw [splitWords_word ha (by decide), splitWords_self hb]
    rw [selection, hwords]
    rfl
  have hline : ∀ l ∈ (splitLines text).filterMap (fun ln => (selection ln).bind (fun e =>
      if e.2 = ("install" : Str) ∨ e.2 = ("hold" : Str) then some (e.1 ++ '\t' :: e.2) else none)),
      NoBreak l ∧ l ≠ [] := by
    intro l hl
    obtain ⟨ln, -, hkept⟩ := List.mem_filterMap.mp hl
    obtain ⟨e, he, hkept⟩ := Option.bind_eq_some_iff.mp hkept
    split at hkept
    · cases hkept
      obtain ⟨ha, hb⟩ := hword ln e he
      have htab : NoBreak ('\t' :: e.2) := List.forall_mem_cons.mpr ⟨by decide, hb.noBreak⟩
      exact ⟨noBreak_append_iff.mpr ⟨ha.noBreak, htab⟩, by simp⟩
    · cases hkept
  have hlines := (splitLines_join_self (fun l hl => (hline l hl).1) (fun l hl => (hline l hl).2)).1
  rw [installPackageNames, filterSelections, show ("\n" : Str) = ['\n'] from rfl, hlines, installPackageNames,
    List.filterMap_filterMap]
  refine congrArg sortedSet (List.filterMap_congr fun ln _ => ?_)
  cases he : selection ln with
  | none => rfl
  | some e =>
    obtain ⟨ha, hb⟩ := hword ln e he
    rw [Option.bind_some, Option.bind_some]
    split
    · rw [Option.bind_some, hself e.1 e.2 ha hb, Option.bind_some]
    · rename_i hneither
      rw [if_neg fun h => hneither (.inl h)]
      rfl

/-! ## The job -/

theorem neverRaises_restoreBackupFile (host : Host) (archive : Archive) (member : Str) (force : Bool) (node : Str) :
    (restoreBackupFile host archive member force (some node)).NeverRaises := by
  rw [restoreBackupFile]
  split
  · trivial
  · rw [Prog.pure_eq, Prog.ret_bind, restoreFor]
    split
    · trivial
    · rw [writeMember]
      refine Prog.NeverRaises.bind (fun _ => trivial) fun ex => ?_
      dsimp only
      split
      · trivial
      · exact fun _ => trivial

theorem neverRaises_restoreBackupCategory (host : Host) (archive : Archive) (category : Str) (force : Bool) :
    (restoreBackupCategory host archive category force).NeverRaises := by
  have heach : ∀ node members, (restoreEach host archive force node members).NeverRaises := by
    intro node members
    induction members with
    | nil => trivial
    | cons m members ih =>
      rw [restoreEach]
      exact (neverRaises_restoreBackupFile host archive m.1 force node).bind fun _ => ih.bind fun _ => trivial
  rw [restoreBackupCategory, restoreWhere]
  split
  · trivial
  · rw [restoreMemberList]
    split
    · trivial
    · exact fun a => (heach _ _).bind fun _ => trivial

/-- Where the script runs to its end, the job reports how that went: the exit code
of `apt-get` and the packages that are still missing.  It reports success exactly
when `apt-get` succeeded and every package of the backup is installed. -/
theorem reinstall_honest {host : Host} {archive : Archive} {w : AptRun} (hwant : wantedPackages archive ≠ [])
    (hran : w.RanFor (wantedPackages archive)) {tr : History PackageReq Answer} {o : Except Exn ReinstallResult}
    (hrun : (reinstallPackages host archive).Run tr o)
    (hanswer : ∀ a, (.install host (wantedPackages archive), a) ∈ tr → a = prints w.output) :
    ∃ r, o = .ok r ∧ r.requested = (wantedPackages archive).length ∧ r.exitCode = some (w.exitCode : Int) ∧
      r.missingCount = some (w.missing.length : Int) ∧ r.missing = w.missing.take 60 ∧
      (r.success = true ↔ w.exitCode = 0 ∧ ∀ p ∈ wantedPackages archive, p ∈ w.installed) := by
  have hmissing : w.missing = [] ↔ ∀ p ∈ wantedPackages archive, p ∈ w.installed := by
    rw [AptRun.missing, List.filter_eq_nil_iff]
    constructor
    · intro h p hp
      simpa using h p (hran.requested.mem_iff.mpr hp)
    · intro h p hp
      simpa using h p (hran.requested.mem_iff.mp hp)
  unfold reinstallPackages at hrun
  rcases Prog.run_bind.mp hrun with ⟨tr₁, tr₂, apt, rfl, -, hrest⟩ | ⟨e, hrestore, -⟩
  · dsimp only at hrest
    rw [if_neg hwant, Prog.issue_bind] at hrest
    obtain ⟨a, tr, rfl, hlast⟩ := Prog.run_ask.mp hrest
    obtain rfl := hanswer a (List.mem_append_right _ List.mem_cons_self)
    have hresult : ∃ log, reinstallResult apt.restored (wantedPackages archive).length (prints w.output) =
        .ok ⟨(true && some (w.exitCode : Int) = some 0) && some (w.missing.length : Int) = some 0, [],
          some (w.exitCode : Int), (wantedPackages archive).length, apt.restored,
          some (w.missing.length : Int), w.missing.take 60, log⟩ := by
      refine ⟨lastN 4000 (strip (beforeMarkers w.output)), ?_⟩
      rw [reinstallResult, show (prints w.output).stdout = w.output from rfl, hran.exitIn_output,
        hran.missingCountIn_output, hran.missingIn_output]
      rfl
    obtain ⟨log, hresult⟩ := hresult
    rw [hresult] at hlast
    refine ⟨_, hlast.2, rfl, rfl, rfl, rfl, ?_⟩
    rw [← hmissing, ← List.length_eq_zero_iff]
    simp
  · have hnever : ((restoreBackupCategory host archive "apt" true).relabel PackageReq.restore).NeverRaises :=
      (neverRaises_restoreBackupCategory host archive "apt" true).relabel
    obtain ⟨_, ⟨⟩⟩ := hnever.sound hrestore

/-- A backup that names two packages. -/
def twoPackages : Archive :=
  .ok [⟨"./cmd/apt-manual.txt", true, 0, .ok [99, 117, 114, 108, 10, 118, 105, 109, 10]⟩]

/-- The sources have one of them. -/
def oneFound : AptRun where
  requested := ["curl", "vim"]
  available := ["bash", "curl"]
  log := ["Setting up curl ..."]
  installExit := 0
  installed := ["bash", "curl"]

theorem wantedPackages_two : wantedPackages twoPackages = [("curl" : Str), ("vim" : Str)] := by decide

theorem oneFound_ranFor : oneFound.RanFor [("curl" : Str), ("vim" : Str)] where
  requested := List.Perm.refl _
  names := by
    refine List.forall_mem_cons.mpr ⟨⟨by decide, by decide⟩, List.forall_mem_singleton.mpr ⟨by decide, by decide⟩⟩
  log := by decide
  exitConverts := by decide
  countConverts := by decide

theorem reinstall_honest_two : ∃ r, (∃ tr, (reinstallPackages hostA twoPackages).Run tr (.ok r)) ∧
    r.exitCode = some 0 ∧ r.missing = [("vim" : Str)] ∧ r.success = false := by
  obtain ⟨tr, o, hrun, hall⟩ := Prog.exists_run (reinstallPackages hostA twoPackages) (fun _ => prints oneFound.output)
  have hran : oneFound.RanFor (wantedPackages twoPackages) := wantedPackages_two ▸ oneFound_ranFor
  have hwant : wantedPackages twoPackages ≠ [] := by
    rw [wantedPackages_two]
    decide
  obtain ⟨r, rfl, -, hexit, -, hmissing, hsuccess⟩ :=
    reinstall_honest hwant hran hrun (fun a ha => hall _ ha)
  refine ⟨r, ⟨tr, hrun⟩, hexit, hmissing, ?_⟩
  rw [Bool.eq_false_iff]
  intro h
  have hvim := (hsuccess.mp h).2 "vim" (by rw [wantedPackages_two]; decide)
  exact absurd hvim (by decide)

end PveZfsTool
