import PveZfsTool.Lib.Dict
import PveZfsTool.Lib.Infixes
import PveZfsTool.Zfs.AutoSnap

/-!
# The two readers of the retention

`get_auto_snapshot_status` of `app/zfs_commands.py` prints all cron files after
one another and takes the retention of a label from the last line that names
it.  `parse_retention` of `app/autosnap.py` reads the file of each level and
takes the first line.  `readers_agree_iff` says for which files they agree.

The root's crontab has no line about `zfs-auto-snapshot`, so `crontab -l | grep`
prints nothing.
-/

namespace PveZfsTool

open Text

/-! ## The status -/

/-- `--label[=\s]+(\S+)` at the start of a text.  Where nothing follows the
separators, the last equals sign of them is the label. -/
def labelToken (s : Str) : Option Str :=
  match s.dropPrefix? "--label" with
  | none => none
  | some rest =>
      let seps := rest.takeWhile isOptionSep
      let value := (rest.dropWhile isOptionSep).takeWhile (fun c => !isSpace c)
      if seps = [] then none
      else if value ≠ [] then some value
      else if '=' ∈ seps.tail then some ['=']
      else none

/-- `re.search(r'--label[=\s]+(\S+)', line)` -/
def findLabel : Str → Option Str
  | [] => none
  | c :: s =>
      match labelToken (c :: s) with
      | some label => some label
      | none => findLabel s

/-- The line is about `zfs-auto-snapshot` and not in a comment. -/
def isStatusLine (line : Str) : Bool :=
  contains line "zfs-auto-snapshot" && !startsWith (strip line) "#"

/-- The loop over the lines. -/
def readPolicy : List Str → Dict Str Int → Except Exn (Dict Str Int)
  | [], policy => .ok policy
  | line :: lines, policy =>
      if !isStatusLine line then readPolicy lines policy
      else match findLabel line, findKeep line with
        | some label, some digits =>
            match toInt? digits with
            | some keep => readPolicy lines (policy.set label keep)
            | none => .error (.invalidInt digits)
        | _, _ => readPolicy lines policy

/-- The files that `get_auto_snapshot_status` prints.  Apart from the files of
the levels it looks for a script in `/etc/cron.frequent`. -/
structure CronFiles where
  level : SnapLevel → Option Str
  frequentScript : Option Str

/-- What the loop of the command prints for one directory. -/
def cronSection (dir : Str) (content : Option Str) : Str :=
  content.elim [] fun text => ("=== " : Str) ++ dir ++ " ===\n" ++ text

/-- `cron_raw` -/
def cronListing (files : CronFiles) : Str :=
  (files.level .frequent).getD [] ++ cronSection "frequent" files.frequentScript ++
    [SnapLevel.hourly, .daily, .weekly, .monthly].flatMap fun level =>
      cronSection level.label (files.level level)

/-- The `retention_policy` of `get_auto_snapshot_status`. -/
def retentionPolicy (files : CronFiles) : Except Exn (Dict Str Int) :=
  readPolicy (splitLines (cronListing files)) Dict.empty

/-! ## Agreement -/

/-- For each level the status has the keep number of the entry when the level
is enabled, and nothing when it is not. -/
def ReadersAgree (files : CronFiles) : Prop :=
  ∃ policy entries, retentionPolicy files = .ok policy ∧
    parseRetention files.level = .ok entries ∧
      ∀ entry ∈ entries, policy.get? entry.label = if entry.enabled then entry.keep else none

/-- `int` accepts the keep number of the line, if it has one. -/
def IsReadable (line : Str) : Prop := ∀ digits, findKeep line = some digits → (toInt? digits).isSome = true

def keepNumber (line : Str) : Option Int := (findKeep line).bind toInt?

/-- The line gives a label a retention, for the status. -/
def namesLabel (label line : Str) : Bool :=
  isStatusLine line && decide (findLabel line = some label) && (findKeep line).isSome

/-- The last line that gives the label a retention. -/
def listedLine (files : CronFiles) (label : Str) : Option Str :=
  ((splitLines (cronListing files)).filter (namesLabel label)).getLast?

def firstActive (label : Str) (lines : List Str) : Option Str :=
  lines.find? fun line => isCommandLine line label && !lineIsCommented line

/-- The first active command line in the file of the level. -/
def ownLine (files : CronFiles) (level : SnapLevel) : Option Str :=
  (files.level level).bind fun content => firstActive level.label (splitLines content)

/-- The command lines up to the first active one. -/
def commandLinesRead (label : Str) : List Str → List Str
  | [] => []
  | line :: lines =>
      if !isCommandLine line label then commandLinesRead label lines
      else if lineIsCommented line then line :: commandLinesRead label lines
      else [line]

/-- All numbers that the readers convert are accepted. -/
structure NumbersAccepted (files : CronFiles) : Prop where
  listed : ∀ line ∈ splitLines (cronListing files), isStatusLine line = true →
    (findLabel line).isSome = true → IsReadable line
  own : ∀ level content, files.level level = some content →
    ∀ line ∈ commandLinesRead level.label (splitLines content), IsReadable line

section Status

variable {label : Str} {lines : List Str} {policy : Dict Str Int}

/-- A line that gives no label a retention is passed over. -/
theorem readPolicy_skip {line : Str}
    (h : ∀ label digits, isStatusLine line = true → findLabel line = some label →
      findKeep line ≠ some digits) :
    readPolicy (line :: lines) policy = readPolicy lines policy := by
  rw [readPolicy]
  cases hstatus : isStatusLine line with
  | false => rfl
  | true =>
    rw [if_neg (by decide)]
    split
    · next label digits hlabel hkeep => exact absurd hkeep (h label digits hstatus hlabel)
    · rfl

/-- A line that names a label sets its retention, or `int` raises. -/
theorem readPolicy_names {line digits : Str} (hstatus : isStatusLine line = true)
    (hlabel : findLabel line = some label) (hkeep : findKeep line = some digits) :
    readPolicy (line :: lines) policy =
      match toInt? digits with
      | some keep => readPolicy lines (policy.set label keep)
      | none => .error (.invalidInt digits) := by
  rw [readPolicy, hstatus, if_neg (by decide), hlabel, hkeep]

theorem names_cases (line : Str) :
    (∃ label digits, isStatusLine line = true ∧ findLabel line = some label ∧
        findKeep line = some digits) ∨
      ∀ label digits, isStatusLine line = true → findLabel line = some label →
        findKeep line ≠ some digits := by
  by_cases h : ∃ label digits, isStatusLine line = true ∧ findLabel line = some label ∧
      findKeep line = some digits
  · exact Or.inl h
  · exact Or.inr (fun label digits hstatus hlabel hkeep => h ⟨label, digits, hstatus, hlabel, hkeep⟩)

theorem namesLabel_iff {line : Str} : namesLabel label line = true ↔
    isStatusLine line = true ∧ findLabel line = some label ∧ (findKeep line).isSome = true := by
  rw [namesLabel, Bool.and_eq_true, Bool.and_eq_true, decide_eq_true_iff, and_assoc]

/-- The numbers that the status converts are accepted. -/
def PolicyReadable (lines : List Str) : Prop :=
  ∀ line ∈ lines, isStatusLine line = true → (findLabel line).isSome = true → IsReadable line

theorem readPolicy_isOk : (∃ final, readPolicy lines policy = .ok final) ↔ PolicyReadable lines := by
  induction lines generalizing policy with
  | nil => exact iff_of_true ⟨policy, rfl⟩ (fun line hline => absurd hline List.not_mem_nil)
  | cons line lines ih =>
    unfold PolicyReadable at ih ⊢
    rw [List.forall_mem_cons]
    obtain ⟨l, digits, hstatus, hlabel, hkeep⟩ | hskip := names_cases line
    · rw [readPolicy_names hstatus hlabel hkeep]
      cases hint : toInt? digits with
      | some keep =>
        have hline : IsReadable line := by
          intro d hd
          obtain rfl : digits = d := Option.some.inj (hkeep.symm.trans hd)
          rw [hint]
          rfl
        dsimp only
        rw [ih]
        exact ⟨fun h => ⟨fun _ _ => hline, h⟩, fun h => h.2⟩
      | none =>
        constructor
        · intro ⟨final, h⟩
          cases h
        · intro ⟨h, _⟩
          have hsome := h hstatus (by rw [hlabel]; rfl) digits hkeep
          rw [hint] at hsome
          cases hsome
    · rw [readPolicy_skip hskip, ih]
      refine ⟨fun h => ⟨fun hstatus hsome digits hkeep => ?_, h⟩, fun h => h.2⟩
      obtain ⟨l, hlabel⟩ := Option.isSome_iff_exists.mp hsome
      exact absurd hkeep (hskip l digits hstatus hlabel)

/-- The last line of a label decides. -/
theorem get?_readPolicy {final : Dict Str Int} (h : readPolicy lines policy = .ok final) :
    final.get? label =
      (lines.filter (namesLabel label)).getLast?.elim (policy.get? label) keepNumber := by
  induction lines generalizing policy with
  | nil =>
    obtain rfl := Except.ok.inj h
    rfl
  | cons line lines ih =>
    obtain ⟨l, digits, hstatus, hlabel, hkeep⟩ | hskip := names_cases line
    · rw [readPolicy_names hstatus hlabel hkeep] at h
      cases hint : toInt? digits with
      | none =>
        rw [hint] at h
        cases h
      | some keep =>
        rw [hint] at h
        rw [ih h, Dict.get?_set]
        by_cases heq : l = label
        · subst heq
          have hnames : namesLabel l line = true :=
            namesLabel_iff.mpr ⟨hstatus, hlabel, by rw [hkeep]; rfl⟩
          have hnumber : keepNumber line = some keep := by
            rw [keepNumber, hkeep]
            exact hint
          rw [if_pos rfl, List.filter_cons_of_pos hnames, List.getLast?_cons]
          cases (lines.filter (namesLabel l)).getLast? with
          | none => exact hnumber.symm
          | some last => rfl
        · have hnames : ¬ namesLabel label line = true := by
            intro hnames
            have hother := (namesLabel_iff.mp hnames).2.1
            exact heq (Option.some.inj (hlabel.symm.trans hother))
          rw [if_neg (Ne.symm heq), List.filter_cons_of_neg hnames]
    · rw [readPolicy_skip hskip] at h
      have hnames : ¬ namesLabel label line = true := by
        intro hnames
        obtain ⟨hstatus, hlabel, hsome⟩ := namesLabel_iff.mp hnames
        obtain ⟨digits, hkeep⟩ := Option.isSome_iff_exists.mp hsome
        exact hskip label digits hstatus hlabel hkeep
      rw [ih h, List.filter_cons_of_neg hnames]

end Status

section Own

variable {label : Str} {lines : List Str} {candidate parsed : Option LevelState}

theorem keepOf_isOk {line : Str} : (∃ keep, keepOf line = .ok keep) ↔ IsReadable line := by
  unfold keepOf IsReadable
  cases findKeep line with
  | none => simp
  | some digits =>
    cases h : toInt? digits with
    | none => simp [h]
    | some keep => simp [h]

theorem keepOf_ok {line : Str} {keep : Option Int} (h : keepOf line = .ok keep) :
    keep = keepNumber line := by
  unfold keepOf at h
  unfold keepNumber
  cases hkeep : findKeep line with
  | none =>
    rw [hkeep] at h
    exact (Except.ok.inj h).symm
  | some digits =>
    rw [hkeep] at h
    dsimp only at h
    cases hint : toInt? digits with
    | none =>
      rw [hint] at h
      cases h
    | some n =>
      rw [hint] at h
      rw [Option.bind_some, hint]
      exact (Except.ok.inj h).symm

theorem parseLevelLines_isOk : (∃ parsed, parseLevelLines label candidate lines = .ok parsed) ↔
    ∀ line ∈ commandLinesRead label lines, IsReadable line := by
  induction lines generalizing candidate with
  | nil => exact iff_of_true ⟨candidate, rfl⟩ (fun line hline => absurd hline List.not_mem_nil)
  | cons line lines ih =>
    rw [parseLevelLines, commandLinesRead]
    cases hcommand : isCommandLine line label with
    | false => exact ih
    | true =>
      rw [if_neg (by decide), if_neg (by decide)]
      cases hkeep : keepOf line with
      | error e =>
        have hnot : ¬ IsReadable line := by
          rw [← keepOf_isOk]
          intro ⟨keep, h⟩
          rw [hkeep] at h
          cases h
        refine iff_of_false (fun ⟨_, h⟩ => by cases h) (fun h => hnot (h line ?_))
        split <;> exact List.mem_cons_self
      | ok keep =>
        have hline : IsReadable line := keepOf_isOk.mp ⟨keep, hkeep⟩
        dsimp only
        cases hcomment : lineIsCommented line with
        | true =>
          rw [if_pos rfl, if_pos rfl, ih, List.forall_mem_cons]
          exact (and_iff_right hline).symm
        | false =>
          rw [if_neg (by decide), if_neg (by decide)]
          refine iff_of_true ⟨_, rfl⟩ (fun l hl => ?_)
          rw [List.mem_singleton.mp hl]
          exact hline

/-- The keep number of an enabled level, and nothing for a disabled one. -/
def retained (parsed : Option LevelState) : Option Int :=
  parsed.bind fun state => if state.enabled then state.keep else none

/-- The first active command line decides. -/
theorem retained_parseLevelLines (hdisabled : ∀ state ∈ candidate, state.enabled = false)
    (h : parseLevelLines label candidate lines = .ok parsed) :
    retained parsed = (firstActive label lines).bind keepNumber := by
  induction lines generalizing candidate with
  | nil =>
    obtain rfl := Except.ok.inj h
    cases candidate with
    | none => rfl
    | some state =>
      rw [retained, Option.bind_some, hdisabled state rfl]
      rfl
  | cons line lines ih =>
    rw [parseLevelLines] at h
    rw [firstActive, List.find?_cons]
    cases hcommand : isCommandLine line label with
    | false =>
      rw [hcommand] at h
      exact ih hdisabled h
    | true =>
      rw [hcommand, if_neg (by decide)] at h
      cases hkeep : keepOf line with
      | error e =>
        rw [hkeep] at h
        cases h
      | ok keep =>
        rw [hkeep] at h
        dsimp only at h
        cases hcomment : lineIsCommented line with
        | true =>
          rw [hcomment, if_pos rfl] at h
          refine ih (fun state hstate => ?_) h
          cases candidate with
          | none =>
            obtain rfl := Option.some.inj hstate
            rfl
          | some first => exact hdisabled state hstate
        | false =>
          rw [hcomment, if_neg (by decide)] at h
          obtain rfl := Except.ok.inj h
          exact keepOf_ok hkeep

end Own

/-! ## All levels -/

section Levels

variable {ε α β : Type} {f : α → Except ε β} {xs : List α} {ys : List β}

theorem mapM_cons_ok {x : α} : (x :: xs).mapM f = .ok ys ↔
    ∃ y rest, f x = .ok y ∧ xs.mapM f = .ok rest ∧ ys = y :: rest := by
  rw [List.mapM_cons]
  cases hx : f x with
  | error e => exact iff_of_false (fun h => by cases h) (by rintro ⟨_, _, h, -⟩; cases h)
  | ok y =>
    cases hrest : xs.mapM f with
    | error e => exact iff_of_false (fun h => by cases h) (by rintro ⟨_, _, -, h, -⟩; cases h)
    | ok rest =>
      constructor
      · intro h
        exact ⟨y, rest, rfl, rfl, (Except.ok.inj h).symm⟩
      · rintro ⟨y', rest', hy, hrest, rfl⟩
        obtain rfl := Except.ok.inj hy
        obtain rfl := Except.ok.inj hrest
        rfl

theorem mapM_isOk : (∃ ys, xs.mapM f = .ok ys) ↔ ∀ x ∈ xs, ∃ y, f x = .ok y := by
  induction xs with
  | nil => exact iff_of_true ⟨[], rfl⟩ (fun x hx => absurd hx List.not_mem_nil)
  | cons x xs ih =>
    rw [List.forall_mem_cons, ← ih]
    simp only [mapM_cons_ok]
    constructor
    · rintro ⟨_, y, rest, hy, hrest, -⟩
      exact ⟨⟨y, hy⟩, rest, hrest⟩
    · rintro ⟨⟨y, hy⟩, rest, hrest⟩
      exact ⟨_, y, rest, hy, hrest, rfl⟩

/-- What holds of the results holds of what was mapped. -/
theorem forall_mapM {P : β → Prop} (h : xs.mapM f = .ok ys) :
    (∀ y ∈ ys, P y) ↔ ∀ x ∈ xs, ∀ y, f x = .ok y → P y := by
  induction xs generalizing ys with
  | nil =>
    obtain rfl := Except.ok.inj h
    simp
  | cons x xs ih =>
    obtain ⟨y, rest, hy, hrest, rfl⟩ := mapM_cons_ok.mp h
    rw [List.forall_mem_cons, List.forall_mem_cons, ih hrest]
    apply and_congr_left'
    constructor
    · intro hP y' hy'
      obtain rfl := Except.ok.inj (hy.symm.trans hy')
      exact hP
    · intro hP
      exact hP y hy

end Levels

section Entries

variable {files : CronFiles} {level : SnapLevel} {entry : RetentionEntry}

theorem retentionEntry_isOk : (∃ entry, retentionEntry level (files.level level) = .ok entry) ↔
    ∀ content, files.level level = some content →
      ∀ line ∈ commandLinesRead level.label (splitLines content), IsReadable line := by
  unfold retentionEntry
  cases hfile : files.level level with
  | none => simp
  | some content =>
    have hread : (∃ parsed, parseLevelLines level.label none (splitLines content) = .ok parsed) ↔
        ∀ line ∈ commandLinesRead level.label (splitLines content), IsReadable line :=
      parseLevelLines_isOk
    simp only [Option.some.injEq, forall_eq', Option.elim, parseLevel]
    rw [← hread]
    cases parseLevelLines level.label none (splitLines content) with
    | error e => simp
    | ok parsed => simp

/-- The entry of a level has the number of its own line. -/
theorem retentionEntry_keep (h : retentionEntry level (files.level level) = .ok entry) :
    entry.label = level.label ∧
      (if entry.enabled = true then entry.keep else none) = (ownLine files level).bind keepNumber := by
  unfold retentionEntry at h
  unfold ownLine
  cases hfile : files.level level with
  | none =>
    rw [hfile] at h
    obtain rfl := Except.ok.inj h
    exact ⟨rfl, rfl⟩
  | some content =>
    rw [hfile] at h
    simp only [Option.elim] at h
    cases hparse : parseLevel content level.label with
    | error e =>
      rw [hparse] at h
      cases h
    | ok parsed =>
      rw [hparse] at h
      obtain rfl := Except.ok.inj h
      have hown := retained_parseLevelLines (fun _ hnone => by cases hnone) hparse
      refine ⟨rfl, ?_⟩
      rw [Option.bind_some, ← hown]
      cases parsed with
      | none => rfl
      | some state => rfl

end Entries

/-- The readers agree if and only if they accept all numbers and, for each
level, the last listed line of its label and the first active command line of
its own file carry the same number, or none. -/
theorem readers_agree_iff (files : CronFiles) : ReadersAgree files ↔
    NumbersAccepted files ∧ ∀ level : SnapLevel,
      (listedLine files level.label).bind keepNumber = (ownLine files level).bind keepNumber := by
  have hall : ∀ level : SnapLevel, level ∈ SnapLevel.all := by
    intro level
    cases level <;> decide
  have hentries : (∃ entries, parseRetention files.level = .ok entries) ↔
      ∀ level content, files.level level = some content →
        ∀ line ∈ commandLinesRead level.label (splitLines content), IsReadable line := by
    unfold parseRetention
    rw [mapM_isOk]
    constructor
    · intro h level
      exact retentionEntry_isOk.mp (h level (hall level))
    · intro h level _
      exact retentionEntry_isOk.mpr (h level)
  have hpolicy : ∀ {policy}, retentionPolicy files = .ok policy → ∀ label,
      policy.get? label = (listedLine files label).bind keepNumber := by
    intro policy h label
    rw [get?_readPolicy h, listedLine, Dict.get?_empty]
    cases ((splitLines (cronListing files)).filter (namesLabel label)).getLast? <;> rfl
  constructor
  · rintro ⟨policy, entries, hstatus, hparse, hagree⟩
    refine ⟨⟨readPolicy_isOk.mp ⟨policy, hstatus⟩, hentries.mp ⟨entries, hparse⟩⟩, fun level => ?_⟩
    have hlevels := (forall_mapM hparse).mp hagree
    obtain ⟨entry, hentry⟩ := retentionEntry_isOk.mpr (hentries.mp ⟨entries, hparse⟩ level)
    obtain ⟨hlabel, hkeep⟩ := retentionEntry_keep hentry
    rw [← hpolicy hstatus, ← hlabel, hlevels level (hall level) entry hentry, hkeep]
  · rintro ⟨haccepted, hlines⟩
    obtain ⟨policy, hstatus⟩ := readPolicy_isOk.mpr haccepted.listed
    obtain ⟨entries, hparse⟩ := hentries.mpr haccepted.own
    refine ⟨policy, entries, hstatus, hparse, (forall_mapM hparse).mpr ?_⟩
    intro level _ entry hentry
    obtain ⟨hlabel, hkeep⟩ := retentionEntry_keep hentry
    rw [hkeep, hlabel, hpolicy hstatus, hlines level]

/-- Only the hourly script is there, and it writes its label with a blank. -/
def spacedLabel : CronFiles where
  level := fun level =>
    if level = .hourly then some "#!/bin/sh\nzfs-auto-snapshot --label hourly --keep 24 //\n" else none
  frequentScript := none

theorem spaced_label_disagrees : ¬ ∀ files : CronFiles, ReadersAgree files := by
  intro h
  obtain ⟨policy, entries, hstatus, hparse, hagree⟩ := h spacedLabel
  have hlisted : policy.get? "hourly" = some 24 := by
    rw [get?_readPolicy hstatus]
    decide
  have hlevels := (forall_mapM hparse).mp hagree
  have hentry : retentionEntry .hourly (spacedLabel.level .hourly) =
      .ok ⟨"hourly", "hourly", "/etc/cron.hourly/zfs-auto-snapshot", false, none, false⟩ := by
    decide
  have hown := hlevels .hourly (by decide) _ hentry
  rw [hlisted] at hown
  cases hown

end PveZfsTool
