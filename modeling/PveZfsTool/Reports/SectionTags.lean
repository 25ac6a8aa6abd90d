import PveZfsTool.Lib.Words
import PveZfsTool.Reports.HostData
import PveZfsTool.Zfs.PoolTopology

/-!
# The marks of a status report

A language model writes the text of a report, in seven numbered sections.
`_compute_section_statuses` of `ai_reports.py` judges the sections by the
collected data, `_inject_section_tags` writes the judgements into the headings,
and `_render_markdown` of `ai_pdf.py` draws a mark for the tag of a heading.

The value of `_pct` is a field of the data here, as it is a float in the source.
The headings are read from the text of the report, before `_sanitize_for_pdf`.

* `verdict_iff`: which facts about the hosts make which verdict.
* `marks_follow_facts`: the headings of the sections show the judgement on the
  facts, whatever tag the text had, every other line is left as it is, and a
  second pass changes nothing.
-/

namespace PveZfsTool.Reports

open Text

/-! ## The judgement -/

inductive SectionStatus where
  | ok
  | warn
  | crit
  deriving DecidableEq

/-- `_STATUS_ORDER` -/
def SectionStatus.order : SectionStatus → Nat
  | .ok => 0
  | .warn => 1
  | .crit => 2

def worsen (cur new : SectionStatus) : SectionStatus := if cur.order < new.order then new else cur

/-- What a report reads of a pool. -/
structure PoolFacts where
  cap : Option Rat
  health : Str
  lastScan : Str

/-- What a report reads of a host: `disks` are the states of its disks, pool by
pool. -/
structure HostFacts where
  pools : List PoolFacts
  disks : List (List Str)
  retention : Option ShortReport
  errors : List Str

/-- The five sections that are judged. -/
structure Sections where
  cap : SectionStatus := .ok
  scrub : SectionStatus := .ok
  snap : SectionStatus := .ok
  smart : SectionStatus := .ok
  anom : SectionStatus := .ok
  deriving DecidableEq

def capStatus (p : PoolFacts) : SectionStatus :=
  match p.cap with
  | none => .ok
  | some c => if 95 ≤ c then .crit else if 80 ≤ c then .warn else .ok

def unhealthy (p : PoolFacts) : Bool :=
  (["DEGRADED", "FAULTED", "UNAVAIL", "SUSPENDED", "REMOVED"] : List Str).contains (upper p.health)

def neverScrubbed (p : PoolFacts) : Bool := contains (lower p.lastScan) "none requested"

def failedDisk (st : Str) : Bool := contains (upper st) "FAIL"

/-- `lg.get("stale_datasets") or lg.get("count_mismatches") or lg.get("gaps")` -/
def labelIssue (lg : ShortStats) : Bool :=
  !lg.staleDatasets.isEmpty || !lg.countMismatches.isEmpty || !lg.gaps.isEmpty

def snapIssue (ra : ShortReport) : Bool :=
  ra.perLabel.entries.any (fun e => labelIssue e.2) || !ra.missingLabels.entries.isEmpty

/-- The loop over the pools. -/
def judgePool (s : Sections) (p : PoolFacts) : Sections :=
  { s with
    cap := worsen s.cap (capStatus p)
    anom := if unhealthy p then worsen s.anom .crit else s.anom
    scrub := if neverScrubbed p then worsen s.scrub .warn else s.scrub }

/-- The loop over the disks. -/
def judgeDisk (s : Sections) (st : Str) : Sections :=
  if failedDisk st then { s with smart := worsen s.smart .crit } else s

/-- The loop over the hosts. -/
def judgeHost (s : Sections) (h : HostFacts) : Sections :=
  let s := h.pools.foldl judgePool s
  let s := h.disks.flatten.foldl judgeDisk s
  let s := if h.retention.any snapIssue then { s with snap := worsen s.snap .warn } else s
  if h.errors ≠ [] then { s with anom := worsen s.anom .warn } else s

/-- `_compute_section_statuses` -/
def computeSectionStatuses (hosts : List HostFacts) : Sections := hosts.foldl judgeHost {}

namespace Sections

def judged (s : Sections) : List SectionStatus := [s.cap, s.scrub, s.snap, s.smart, s.anom]

def overall (s : Sections) : SectionStatus := s.judged.foldl worsen .ok

/-- The status of a section by its number. -/
def status (s : Sections) : Nat → Option SectionStatus
  | 1 => some s.overall
  | 2 => some s.cap
  | 3 => some s.scrub
  | 4 => some s.snap
  | 5 => some s.smart
  | 6 => some s.anom
  | 7 => some .ok
  | _ => none

end Sections

/-! ## The headings -/

/-- `_TAG_FOR_STATUS` -/
def SectionStatus.tag : SectionStatus → Str
  | .ok => "OK"
  | .warn => "WARN"
  | .crit => "CRIT"

/-- What `re.IGNORECASE` makes of a character. -/
def foldCase (c : Char) : Char :=
  if c = Char.ofNat 0x212A then 'k'
  else if c = Char.ofNat 0x130 || c = Char.ofNat 0x131 then 'i'
  else c.toLower

/-- `OK|WARN|WARNING|CRIT|CRITICAL` -/
def isTagWord (w : Str) : Bool :=
  (["ok", "warn", "warning", "crit", "critical"] : List Str).contains (w.map foldCase)

/-- `\*{0,2}` -/
def dropStars : Str → Str
  | '*' :: '*' :: s => s
  | '*' :: s => s
  | s => s

/-- `\[\s*(OK|WARN|WARNING|CRIT|CRITICAL)\s*\]` at the start, with the rest. -/
def tagGroup : Str → Option (Str × Str)
  | '[' :: s =>
      let w := (lstrip s).takeWhile (fun c => !isSpace c && c ≠ ']')
      match lstrip ((lstrip s).drop w.length) with
      | ']' :: rest => if isTagWord w then some (w, rest) else none
      | _ => none
  | _ => none

/-- A tag and the whitespace after it, if there is one. -/
def skipTag (s : Str) : Str :=
  match tagGroup s with
  | some (_, rest) => lstrip rest
  | none => s

def startsSpace : Str → Bool
  | [] => false
  | c :: _ => isSpace c

/-- `^(#{1,4})\s+` -/
def headingMark (s : Str) : Option (Str × Str) :=
  let hashes := s.takeWhile (· = '#')
  let rest := s.drop hashes.length
  if 1 ≤ hashes.length && hashes.length ≤ 4 && startsSpace rest then some (hashes, lstrip rest) else none

/-- `(\d+)\.\s+(.*)$` -/
def numbered (s : Str) : Option (Str × Str) :=
  let digits := s.takeWhile isDecimal
  match s.drop digits.length with
  | '.' :: rest => if digits ≠ [] && startsSpace rest then some (digits, lstrip rest) else none
  | _ => none

/-- `_HEADING_NUM_RE` on a stripped line: the hashes, the number and the title. -/
def sectionHeading (s : Str) : Option (Str × Str × Str) :=
  match headingMark s with
  | none => none
  | some (hashes, rest) =>
    match numbered (skipTag (lstrip (dropStars rest))) with
    | none => none
    | some (digits, title) => some (hashes, digits, title)

/-- A heading with the tag of its section. -/
def taggedHeading (hashes : Str) (st : SectionStatus) (n : Nat) (title : Str) : Str :=
  hashes ++ " [" ++ st.tag ++ "] " ++ ofNat n ++ ". " ++ title

/-- One line of `_inject_section_tags`.  `none` where `int` raises. -/
def injectLine (statuses : Nat → Option SectionStatus) (line : Str) : Option Str :=
  match sectionHeading (strip line) with
  | none => some line
  | some (hashes, digits, title) =>
    match unsignedValue digits with
    | none => none
    | some n =>
      match statuses n with
      | none => some line
      | some st => some (taggedHeading hashes st n title)

/-- `_inject_section_tags` -/
def injectSectionTags (statuses : Nat → Option SectionStatus) (content : Str) : Option Str :=
  if content = [] then some []
  else ((splitOn '\n' content).mapM (injectLine statuses)).map (join "\n")

/-! ## The marks -/

/-- A heading as `_render_heading` gets it, with its text before `_strip_md`. -/
structure ShownHeading where
  level : Nat
  status : Option SectionStatus
  text : Str
  deriving DecidableEq

/-- The status that a tag stands for. -/
def tagStatus (w : Str) : SectionStatus :=
  if startsWith (lower w) "crit" then .crit else if startsWith (lower w) "warn" then .warn else .ok

/-- The part of `_render_markdown` on headings, on a stripped line.  The rest of
such a line is not empty. -/
def shownHeading (s : Str) : Option ShownHeading :=
  match headingMark s with
  | none => none
  | some (hashes, rest) =>
    match tagGroup (lstrip (dropStars rest)) with
    | none => some ⟨hashes.length, none, rest⟩
    | some (w, text) => some ⟨hashes.length, some (tagStatus w), lstrip (dropStars (lstrip text))⟩

/-! ## The report -/

/-- The block at the end of the model's answer. -/
structure VerdictMeta where
  verdict : SectionStatus
  criticalFindings : Nat
  warnings : Nat

/-- The fields of a report that come from its text and from the judgement. -/
structure StatusReport where
  content : Str
  verdict : SectionStatus
  criticalFindings : Nat
  warningsCount : Nat
  fromFacts : Bool
  sectionStatuses : Sections

/-- `generate_report` after the collection of the data.  The answer is the result
of `call_llm`, with its text cut into the report and the block. -/
def generateReport (hosts : List HostFacts) (answer : Except Str (Str × Option VerdictMeta)) :
    Option (Except Str StatusReport) :=
  if hosts = [] then some (.error "Host not found or no hosts configured")
  else
    match answer with
    | .error e => some (.error e)
    | .ok (cleaned, block) =>
      let sections := computeSectionStatuses hosts
      let critCount := sections.judged.count .crit
      let warnCount := sections.judged.count .warn
      (injectSectionTags sections.status cleaned).map fun content =>
        if sections.overall = .ok && critCount = 0 && warnCount = 0 && hosts.isEmpty then
          match block with
          | some b => .ok ⟨content, b.verdict, b.criticalFindings, b.warnings, false, sections⟩
          | none => .ok ⟨content, sections.overall, critCount, warnCount, true, sections⟩
        else .ok ⟨content, sections.overall, critCount, warnCount, true, sections⟩

/-! ## The verdict -/

/-- A fact that makes a section critical. -/
def HostFacts.Critical (h : HostFacts) : Prop :=
  (∃ p ∈ h.pools, capStatus p = .crit ∨ unhealthy p = true) ∨ ∃ st ∈ h.disks.flatten, failedDisk st = true

/-- A fact that makes a section a warning at least. -/
def HostFacts.Warning (h : HostFacts) : Prop :=
  (∃ p ∈ h.pools, capStatus p = .warn ∨ neverScrubbed p = true) ∨ h.retention.any snapIssue = true ∨
    h.errors ≠ []

section Verdict

/-- Statuses from some status on. -/
structure Threshold (T : SectionStatus → Prop) : Prop where
  worsen_iff : ∀ a b, T (worsen a b) ↔ T a ∨ T b
  not_ok : ¬ T .ok
  crit : T .crit

theorem threshold_crit : Threshold (· = .crit) where
  worsen_iff a b := by cases a <;> cases b <;> decide
  not_ok := by decide
  crit := rfl

theorem threshold_ne_ok : Threshold (· ≠ .ok) where
  worsen_iff a b := by cases a <;> cases b <;> decide
  not_ok := by decide
  crit := by decide

variable {T : SectionStatus → Prop} {s : Sections}

/-- A section reaches the threshold. -/
def Sections.Reaches (T : SectionStatus → Prop) (s : Sections) : Prop :=
  T s.cap ∨ T s.scrub ∨ T s.snap ∨ T s.smart ∨ T s.anom

theorem foldl_worsen_iff (hT : Threshold T) {l : List SectionStatus} {a : SectionStatus} :
    T (l.foldl worsen a) ↔ T a ∨ ∃ x ∈ l, T x := by
  induction l generalizing a with
  | nil => simp
  | cons x l ih =>
    rw [List.foldl_cons, ih, hT.worsen_iff, or_assoc]
    simp

theorem overall_iff (hT : Threshold T) : T s.overall ↔ s.Reaches T := by
  rw [Sections.overall, foldl_worsen_iff hT]
  simp [Sections.judged, Sections.Reaches, hT.not_ok]

theorem ite_worsen_iff (hT : Threshold T) {c : Prop} [Decidable c] {a b : SectionStatus} :
    T (if c then worsen a b else a) ↔ T a ∨ c ∧ T b := by
  split_ifs with hc
  · rw [hT.worsen_iff, and_iff_right hc]
  · simp [hc]

theorem reaches_judgePool (hT : Threshold T) (s : Sections) (p : PoolFacts) : (judgePool s p).Reaches T ↔
    s.Reaches T ∨ T (capStatus p) ∨ unhealthy p = true ∨ neverScrubbed p = true ∧ T .warn := by
  unfold judgePool Sections.Reaches
  dsimp only
  rw [hT.worsen_iff, ite_worsen_iff hT, ite_worsen_iff hT, and_iff_left hT.crit]
  tauto

theorem reaches_judgeDisk (hT : Threshold T) (s : Sections) (st : Str) :
    (judgeDisk s st).Reaches T ↔ s.Reaches T ∨ failedDisk st = true := by
  unfold judgeDisk Sections.Reaches
  split_ifs with h
  · dsimp only
    rw [hT.worsen_iff, or_iff_right_of_imp fun _ => hT.crit]
    exact iff_of_true (.inr (.inr (.inr (.inl hT.crit)))) (.inr h)
  · simp [h]

theorem reaches_foldl {β : Type} {step : Sections → β → Sections} {P : β → Prop}
    (hstep : ∀ s b, (step s b).Reaches T ↔ s.Reaches T ∨ P b) {l : List β} :
    (l.foldl step s).Reaches T ↔ s.Reaches T ∨ ∃ b ∈ l, P b := by
  induction l generalizing s with
  | nil => simp
  | cons b l ih =>
    rw [List.foldl_cons, ih, hstep, or_assoc]
    simp

/-- What a host adds. -/
def HostFacts.Reaches (T : SectionStatus → Prop) (h : HostFacts) : Prop :=
  (∃ p ∈ h.pools, T (capStatus p) ∨ unhealthy p = true ∨ neverScrubbed p = true ∧ T .warn) ∨
    (∃ st ∈ h.disks.flatten, failedDisk st = true) ∨
    (h.retention.any snapIssue = true ∨ h.errors ≠ []) ∧ T .warn

theorem reaches_pools (hT : Threshold T) {l : List PoolFacts} :
    (l.foldl judgePool s).Reaches T ↔ s.Reaches T ∨
      ∃ p ∈ l, T (capStatus p) ∨ unhealthy p = true ∨ neverScrubbed p = true ∧ T .warn :=
  reaches_foldl (reaches_judgePool hT)

theorem reaches_disks (hT : Threshold T) {l : List Str} :
    (l.foldl judgeDisk s).Reaches T ↔ s.Reaches T ∨ ∃ st ∈ l, failedDisk st = true :=
  reaches_foldl (reaches_judgeDisk hT)

theorem reaches_ite {c : Prop} [Decidable c] {s' : Sections} {q : Prop}
    (h : s'.Reaches T ↔ s.Reaches T ∨ q) :
    (if c then s' else s).Reaches T ↔ s.Reaches T ∨ c ∧ q := by
  split_ifs with hc
  · rw [h, and_iff_right hc]
  · simp [hc]

theorem reaches_judgeHost (hT : Threshold T) (s : Sections) (h : HostFacts) :
    (judgeHost s h).Reaches T ↔ s.Reaches T ∨ h.Reaches T := by
  have hsnap : ∀ s : Sections, ({ s with snap := worsen s.snap .warn } : Sections).Reaches T ↔
      s.Reaches T ∨ T .warn := by
    intro s
    unfold Sections.Reaches
    dsimp only
    rw [hT.worsen_iff]
    tauto
  have hanom : ∀ s : Sections, ({ s with anom := worsen s.anom .warn } : Sections).Reaches T ↔
      s.Reaches T ∨ T .warn := by
    intro s
    unfold Sections.Reaches
    dsimp only
    rw [hT.worsen_iff]
    tauto
  unfold judgeHost
  dsimp only
  rw [reaches_ite (hanom _), reaches_ite (hsnap _), reaches_disks hT, reaches_pools hT]
  unfold HostFacts.Reaches
  simp only [or_and_right, or_assoc]

theorem reaches_computeSectionStatuses (hT : Threshold T) {hosts : List HostFacts} :
    (computeSectionStatuses hosts).Reaches T ↔ ∃ h ∈ hosts, h.Reaches T := by
  refine (reaches_foldl (reaches_judgeHost hT)).trans (or_iff_right ?_)
  simp [Sections.Reaches, hT.not_ok]

theorem crit_mem_iff : .crit ∈ s.judged ↔ s.Reaches (· = .crit) := by
  simp [Sections.judged, Sections.Reaches, eq_comm]

theorem found_iff : .crit ∈ s.judged ∨ .warn ∈ s.judged ↔ s.Reaches (· ≠ .ok) := by
  have hcases : ∀ x : SectionStatus, x ≠ .ok ↔ .crit = x ∨ .warn = x := by
    intro x
    cases x <;> decide
  simp only [Sections.judged, Sections.Reaches, hcases, List.mem_cons, List.not_mem_nil, or_false]
  tauto

theorem overall_crit_iff {hosts : List HostFacts} :
    (computeSectionStatuses hosts).overall = .crit ↔ ∃ h ∈ hosts, h.Critical := by
  rw [overall_iff threshold_crit, reaches_computeSectionStatuses threshold_crit]
  simp [HostFacts.Reaches, HostFacts.Critical]

theorem overall_ok_iff {hosts : List HostFacts} :
    (computeSectionStatuses hosts).overall = .ok ↔ ∀ h ∈ hosts, ¬ h.Critical ∧ ¬ h.Warning := by
  have hcap : ∀ p, capStatus p ≠ .ok ↔ capStatus p = .crit ∨ capStatus p = .warn := by
    intro p
    cases capStatus p <;> decide
  have hhost : ∀ h : HostFacts, h.Reaches (· ≠ .ok) ↔ h.Critical ∨ h.Warning := by
    intro h
    unfold HostFacts.Reaches HostFacts.Critical HostFacts.Warning
    simp only [hcap, ne_eq, reduceCtorEq, not_false_eq_true, and_true]
    constructor
    · rintro (⟨p, hp, (hc | hc) | hc | hc⟩ | hd | hr)
      · exact .inl (.inl ⟨p, hp, .inl hc⟩)
      · exact .inr (.inl ⟨p, hp, .inl hc⟩)
      · exact .inl (.inl ⟨p, hp, .inr hc⟩)
      · exact .inr (.inl ⟨p, hp, .inr hc⟩)
      · exact .inl (.inr hd)
      · exact .inr (.inr hr)
    · rintro ((⟨p, hp, hc | hc⟩ | hd) | (⟨p, hp, hc | hc⟩ | hr))
      · exact .inl ⟨p, hp, .inl (.inl hc)⟩
      · exact .inl ⟨p, hp, .inr (.inl hc)⟩
      · exact .inr (.inl hd)
      · exact .inl ⟨p, hp, .inl (.inr hc)⟩
      · exact .inl ⟨p, hp, .inr (.inr hc)⟩
      · exact .inr (.inr hr)
  rw [← not_iff_not, ← ne_eq, overall_iff threshold_ne_ok, reaches_computeSectionStatuses threshold_ne_ok]
  simp only [hhost, not_forall, not_and_or, not_not, exists_prop]

theorem generateReport_ok {hosts : List HostFacts} {cleaned : Str} {block : Option VerdictMeta}
    {r : StatusReport} (h : generateReport hosts (.ok (cleaned, block)) = some (.ok r)) :
    ∃ content, injectSectionTags (computeSectionStatuses hosts).status cleaned = some content ∧
      r = ⟨content, (computeSectionStatuses hosts).overall, (computeSectionStatuses hosts).judged.count .crit,
        (computeSectionStatuses hosts).judged.count .warn, true, computeSectionStatuses hosts⟩ := by
  unfold generateReport at h
  by_cases hhosts : hosts = []
  · rw [if_pos hhosts] at h
    cases Option.some.inj h
  · rw [if_neg hhosts] at h
    obtain ⟨content, hcontent, heq⟩ := Option.map_eq_some_iff.mp h
    -- The fallback is for a report without hosts, and there is none.
    rw [if_neg (by simp [hhosts])] at heq
    cases heq
    exact ⟨content, hcontent, rfl⟩

/-- The verdict of a report is the one on the facts, whatever the model answered:
critical when a host has a critical fact, `ok` when none has a fact at all.  The
numbers of findings agree with it. -/
theorem verdict_iff {hosts : List HostFacts} {cleaned : Str} {block : Option VerdictMeta} {r : StatusReport}
    (h : generateReport hosts (.ok (cleaned, block)) = some (.ok r)) :
    r.fromFacts = true ∧ (r.verdict = .crit ↔ ∃ h ∈ hosts, h.Critical) ∧
      (r.verdict = .ok ↔ ∀ h ∈ hosts, ¬ h.Critical ∧ ¬ h.Warning) ∧
      (0 < r.criticalFindings ↔ r.verdict = .crit) ∧
      (0 < r.criticalFindings + r.warningsCount ↔ r.verdict ≠ .ok) := by
  obtain ⟨content, -, rfl⟩ := generateReport_ok h
  refine ⟨rfl, overall_crit_iff, overall_ok_iff, ?_, ?_⟩
  · exact List.count_pos_iff.trans (crit_mem_iff.trans (overall_iff threshold_crit).symm)
  · rw [add_pos_iff, List.count_pos_iff, List.count_pos_iff]
    exact found_iff.trans (overall_iff threshold_ne_ok).symm

/-- A degraded pool makes the report critical, and the model's own block is not read. -/
theorem verdict_iff_degraded :
    (⟨"Fine.", .crit, 1, 0, true, { anom := .crit }⟩ : StatusReport).verdict = .crit ↔
      ∃ h ∈ [(⟨[⟨some 40, "DEGRADED", "scrub repaired 0B"⟩], [["PASSED"]], none, []⟩ : HostFacts)],
        h.Critical :=
  (@verdict_iff [⟨[⟨some 40, "DEGRADED", "scrub repaired 0B"⟩], [["PASSED"]], none, []⟩] "Fine."
    (some ⟨.ok, 0, 0⟩) _ rfl).2.1

end Verdict

/-! ## The headings of a text -/

/-- The section that a line is the heading of, with its status. -/
def sectionOf (statuses : Nat → Option SectionStatus) (s : Str) :
    Option (Str × SectionStatus × Nat × Str) :=
  (sectionHeading s).bind fun h => (unsignedValue h.2.1).bind fun n =>
    (statuses n).map fun st => (h.1, st, n, h.2.2)

/-- The heading that a line should show: a section its status, any other heading
what its text says. -/
def dueHeading (statuses : Nat → Option SectionStatus) (s : Str) : Option ShownHeading :=
  match sectionOf statuses s with
  | some (hashes, st, n, title) => some ⟨hashes.length, some st, ofNat n ++ ". " ++ title⟩
  | none => shownHeading s

/-- What `_render_markdown` makes of the lines, where `heading` reads a heading:
nothing is one within a code block. -/
def renderHeadings (heading : Str → Option ShownHeading) : Bool → List Str → List (Option ShownHeading)
  | _, [] => []
  | inCode, line :: lines =>
      if startsWith (strip line) "```" then none :: renderHeadings heading (!inCode) lines
      else (if inCode then none else heading (strip line)) :: renderHeadings heading inCode lines

section Headings

variable {statuses : Nat → Option SectionStatus} {s line out hashes digits title rest : Str}
  {st : SectionStatus} {n : Nat}

/-- The parts of a heading: one to four hashes, and a title that is not empty and
has no whitespace at its ends. -/
structure IsHeading (hashes title : Str) : Prop where
  hashes_eq : ∀ c ∈ hashes, c = '#'
  one_le : 1 ≤ hashes.length
  le_four : hashes.length ≤ 4
  ne_nil : title ≠ []
  head : ∀ c ∈ title.head?, isSpace c = false
  last : ∀ c ∈ title.getLast?, isSpace c = false
  noNewline : '\n' ∉ title

theorem headingMark_eq_some (h : headingMark s = some (hashes, rest)) :
    (∀ c ∈ hashes, c = '#') ∧ 1 ≤ hashes.length ∧ hashes.length ≤ 4 ∧
      ∃ t, s = hashes ++ t ∧ rest = lstrip t := by
  unfold headingMark at h
  dsimp only at h
  split_ifs at h with hcond
  simp only [Bool.and_eq_true, decide_eq_true_eq] at hcond
  obtain ⟨rfl, rfl⟩ := Prod.mk.inj (Option.some.inj h)
  refine ⟨fun c hc => by simpa using List.mem_takeWhile_imp hc, hcond.1.1, hcond.1.2, _, ?_, rfl⟩
  exact (List.prefix_iff_eq_append.mp (List.takeWhile_prefix _)).symm

theorem isSuffix_lstrip : lstrip s <:+ s := List.dropWhile_suffix _

theorem isSuffix_dropStars : dropStars s <:+ s := by
  unfold dropStars
  split
  · exact ⟨['*', '*'], rfl⟩
  · exact ⟨['*'], rfl⟩
  · exact List.suffix_rfl

theorem isSuffix_skipTag : skipTag s <:+ s := by
  unfold skipTag
  split
  · next w rest h =>
    refine isSuffix_lstrip.trans ?_
    unfold tagGroup at h
    split at h
    · next t =>
      dsimp only at h
      split at h
      · next rest' hclose =>
        split_ifs at h
        obtain ⟨-, rfl⟩ := Prod.mk.inj (Option.some.inj h)
        have hrest : rest' <:+ ']' :: rest' := List.suffix_cons _ _
        rw [← hclose] at hrest
        exact hrest.trans (isSuffix_lstrip.trans ((List.drop_suffix _ _).trans
          (isSuffix_lstrip.trans (List.suffix_cons _ _))))
      · cases h
    · cases h
  · exact List.suffix_rfl

theorem numbered_eq_some (h : numbered s = some (digits, title)) :
    ∃ t, title = lstrip t ∧ startsSpace t = true ∧ t <:+ s := by
  unfold numbered at h
  dsimp only at h
  split at h
  · next t hdot =>
    split_ifs at h with hcond
    rw [Bool.and_eq_true] at hcond
    obtain ⟨-, rfl⟩ := Prod.mk.inj (Option.some.inj h)
    have ht : t <:+ '.' :: t := List.suffix_cons _ _
    rw [← hdot] at ht
    exact ⟨t, rfl, hcond.2, ht.trans (List.drop_suffix _ _)⟩
  · cases h

theorem isHeading_of_sectionHeading (hs : strip s = s) (hnl : '\n' ∉ s)
    (h : sectionHeading s = some (hashes, digits, title)) : IsHeading hashes title := by
  unfold sectionHeading at h
  split at h
  · cases h
  · next hashes' rest hmark =>
    split at h
    · cases h
    · next digits' title' hnumbered =>
      cases h
      obtain ⟨hhash, hone, hfour, t, rfl, rfl⟩ := headingMark_eq_some hmark
      obtain ⟨u, rfl, hspace, hu⟩ := numbered_eq_some hnumbered
      have hsuffix : u <:+ hashes ++ t := hu.trans (isSuffix_skipTag.trans (isSuffix_lstrip.trans
        (isSuffix_dropStars.trans (isSuffix_lstrip.trans (List.suffix_append _ _)))))
      have hune : u ≠ [] := by
        rintro rfl
        cases hspace
      have hlast : ∀ c ∈ u.getLast?, isSpace c = false := by
        obtain ⟨v, hv⟩ := hsuffix
        intro c hc
        refine isSpace_getLast_strip (s := hashes ++ t) ?_
        rw [hs, ← hv, List.getLast?_append_of_ne_nil v hune]
        exact hc
      have htitle : lstrip u ≠ [] := by
        intro hnil
        have hall := List.dropWhile_eq_nil_iff.mp hnil _ (List.getLast_mem hune)
        rw [hlast _ (List.getLast?_eq_some_getLast hune)] at hall
        cases hall
      refine ⟨hhash, hone, hfour, htitle, fun c hc => ?_, fun c hc => hlast c ?_, fun hmem => hnl ?_⟩
      · have hhead := List.head?_dropWhile_not isSpace u
        rw [show (u.dropWhile isSpace).head? = some c from hc] at hhead
        simpa using hhead
      · obtain ⟨v, hv⟩ := isSuffix_lstrip (s := u)
        rw [← hv, List.getLast?_append_of_ne_nil v htitle]
        exact hc
      · exact (isSuffix_lstrip.trans hsuffix).subset hmem

/-! ### A heading with its tag -/

theorem taggedHeading_eq : taggedHeading hashes st n title =
    hashes ++ ' ' :: '[' :: (st.tag ++ ']' :: ' ' :: (ofNat n ++ '.' :: ' ' :: title)) := by
  simp [taggedHeading]

theorem headingMark_append (hhash : ∀ c ∈ hashes, c = '#') (hone : 1 ≤ hashes.length)
    (hfour : hashes.length ≤ 4) {c : Char} {t : Str} (hc : isSpace c = false) :
    headingMark (hashes ++ ' ' :: c :: t) = some (hashes, c :: t) := by
  have htake : (hashes ++ ' ' :: c :: t).takeWhile (· = '#') = hashes := by
    rw [takeWhile_append_cons (by decide), List.takeWhile_eq_self_iff]
    exact fun d hd => by simpa using hhash d hd
  have hspace : lstrip (' ' :: c :: t) = c :: t := by
    rw [lstrip, List.dropWhile_cons_of_pos (by decide)]
    exact lstrip_cons hc
  unfold headingMark
  dsimp only
  rw [htake, List.drop_left, if_pos, hspace]
  simp only [hone, hfour, decide_true, Bool.true_and]
  rfl

theorem tagGroup_tag (x : Str) : tagGroup ('[' :: (st.tag ++ ']' :: x)) = some (st.tag, x) := by
  cases st <;> rfl

theorem tagStatus_tag : tagStatus st.tag = st := by
  cases st <;> decide

theorem lstrip_number {t : Str} : lstrip (' ' :: (ofNat n ++ t)) = ofNat n ++ t := by
  rw [lstrip, List.dropWhile_cons_of_pos (by decide)]
  exact isWordText_ofNat.lstrip_append

theorem dropStars_cons {c : Char} (hc : c ≠ '*') : dropStars (c :: s) = c :: s := by
  unfold dropStars
  split
  · next heq => exact absurd (List.cons.inj heq).1 hc
  · next heq => exact absurd (List.cons.inj heq).1 hc
  · rfl

theorem dropStars_number {t : Str} : dropStars (ofNat n ++ t) = ofNat n ++ t := by
  cases hdigits : ofNat n with
  | nil => exact absurd hdigits isWordText_ofNat.nonempty
  | cons c d =>
    refine dropStars_cons ?_
    rintro rfl
    have hstar : isAsciiDigit '*' = true := isAsciiDigit_of_mem_ofNat (hdigits ▸ List.mem_cons_self)
    exact absurd hstar (by decide)

theorem numbered_number (htitle : lstrip title = title) :
    numbered (ofNat n ++ '.' :: ' ' :: title) = some (ofNat n, title) := by
  have htake : (ofNat n ++ '.' :: ' ' :: title).takeWhile isDecimal = ofNat n := by
    rw [takeWhile_append_cons (by decide), List.takeWhile_eq_self_iff]
    exact fun c hc => isDecimal_of_isAsciiDigit (isAsciiDigit_of_mem_ofNat hc)
  have hspace : lstrip (' ' :: title) = title := by
    rw [lstrip, List.dropWhile_cons_of_pos (by decide)]
    exact htitle
  have hdigits : (decide (ofNat n ≠ []) && startsSpace (' ' :: title)) = true := by
    rw [decide_eq_true isWordText_ofNat.nonempty]
    rfl
  unfold numbered
  dsimp only
  rw [htake, List.drop_left]
  show (if (decide (ofNat n ≠ []) && startsSpace (' ' :: title)) = true then
    some (ofNat n, lstrip (' ' :: title)) else none) = _
  rw [if_pos hdigits, hspace]

theorem lstrip_eq_of_head (h : ∀ c ∈ s.head?, isSpace c = false) : lstrip s = s := by
  cases s with
  | nil => rfl
  | cons c s => exact lstrip_cons (h c rfl)

theorem IsHeading.head_tagged (h : IsHeading hashes title) :
    ∀ c ∈ (taggedHeading hashes st n title).head?, isSpace c = false := by
  intro c hc
  obtain ⟨d, rest, rfl⟩ := List.exists_cons_of_ne_nil (List.ne_nil_of_length_pos h.one_le)
  rw [taggedHeading_eq] at hc
  cases Option.some.inj hc
  rw [h.hashes_eq c List.mem_cons_self]
  decide

theorem IsHeading.last_tagged (h : IsHeading hashes title) :
    ∀ c ∈ (taggedHeading hashes st n title).getLast?, isSpace c = false := by
  intro c hc
  rw [taggedHeading, List.getLast?_append_of_ne_nil _ h.ne_nil] at hc
  exact h.last c hc

theorem IsHeading.strip_tagged (h : IsHeading hashes title) :
    strip (taggedHeading hashes st n title) = taggedHeading hashes st n title :=
  isStripped_of_ends h.head_tagged h.last_tagged

theorem IsHeading.noNewline_tagged (h : IsHeading hashes title) :
    '\n' ∉ taggedHeading hashes st n title := by
  have hhashes : '\n' ∉ hashes := fun hmem => absurd (h.hashes_eq _ hmem) (by decide)
  have htag : '\n' ∉ st.tag := by cases st <;> decide
  have hnumber : '\n' ∉ ofNat n := fun hmem => absurd (isAsciiDigit_of_mem_ofNat hmem) (by decide)
  rw [taggedHeading_eq]
  simp [hhashes, htag, hnumber, h.noNewline]

/-- A tagged heading is read back. -/
theorem sectionHeading_tagged (h : IsHeading hashes title) :
    sectionHeading (taggedHeading hashes st n title) = some (hashes, ofNat n, title) := by
  unfold sectionHeading
  rw [taggedHeading_eq, headingMark_append h.hashes_eq h.one_le h.le_four (by decide)]
  dsimp only
  rw [dropStars_cons (by decide), lstrip_cons (by decide), skipTag, tagGroup_tag]
  dsimp only
  rw [lstrip_number, numbered_number (lstrip_eq_of_head h.head)]

/-- And shows its status. -/
theorem shownHeading_tagged (h : IsHeading hashes title) :
    shownHeading (taggedHeading hashes st n title) =
      some ⟨hashes.length, some st, ofNat n ++ ". " ++ title⟩ := by
  unfold shownHeading
  rw [taggedHeading_eq, headingMark_append h.hashes_eq h.one_le h.le_four (by decide)]
  dsimp only
  rw [dropStars_cons (by decide), lstrip_cons (by decide), tagGroup_tag]
  dsimp only
  rw [lstrip_number, dropStars_number, isWordText_ofNat.lstrip_append, tagStatus_tag]
  simp

/-! ### One line -/

theorem injectLine_eq_some (h : injectLine statuses line = some out) :
    (sectionOf statuses (strip line) = none ∧ out = line) ∨ ∃ hashes digits st n title,
      sectionHeading (strip line) = some (hashes, digits, title) ∧
        sectionOf statuses (strip line) = some (hashes, st, n, title) ∧ statuses n = some st ∧
        out = taggedHeading hashes st n title := by
  unfold injectLine at h
  unfold sectionOf
  cases hheading : sectionHeading (strip line) with
  | none =>
    rw [hheading] at h
    exact .inl ⟨rfl, (Option.some.inj h).symm⟩
  | some parts =>
    obtain ⟨hashes, digits, title⟩ := parts
    rw [hheading] at h
    dsimp only at h
    cases hn : unsignedValue digits with
    | none =>
      rw [hn] at h
      cases h
    | some n =>
      rw [hn] at h
      dsimp only at h
      cases hst : statuses n with
      | none =>
        rw [hst] at h
        exact .inl ⟨by simp [hn, hst], (Option.some.inj h).symm⟩
      | some st =>
        rw [hst] at h
        exact .inr ⟨hashes, digits, st, n, title, rfl, by simp [hn, hst], hst, (Option.some.inj h).symm⟩

theorem not_fence (h : IsHeading hashes title) {t : Str} : startsWith (hashes ++ t) "```" = false := by
  cases hashes with
  | nil => exact absurd h.one_le (by decide)
  | cons c hashes =>
    rw [h.hashes_eq c List.mem_cons_self]
    rfl

/-- What the delivered line has to do with the line of the model. -/
structure Follows (statuses : Nat → Option SectionStatus) (line out : Str) : Prop where
  fence : startsWith (strip out) "```" = startsWith (strip line) "```"
  heading : shownHeading (strip out) = dueHeading statuses (strip line)
  kept : sectionOf statuses (strip line) = none → out = line
  again : injectLine statuses out = some out
  noNewline : '\n' ∉ out

theorem exists_of_sectionHeading (h : sectionHeading s = some (hashes, digits, title)) :
    ∃ t, s = hashes ++ t := by
  unfold sectionHeading at h
  split at h
  · cases h
  · next hmark =>
    split at h
    · cases h
    · cases h
      obtain ⟨-, -, -, t, ht, -⟩ := headingMark_eq_some hmark
      exact ⟨t, ht⟩

theorem follows_of_injectLine (hread : ∀ n st, statuses n = some st → unsignedValue (ofNat n) = some n)
    (hnl : '\n' ∉ line) (h : injectLine statuses line = some out) : Follows statuses line out := by
  rcases injectLine_eq_some h with ⟨hnone, rfl⟩ | ⟨hashes, digits, st, n, title, hheading, hsection, hst, rfl⟩
  · exact ⟨rfl, by rw [dueHeading, hnone], fun _ => rfl, h, hnl⟩
  · have hstrip : '\n' ∉ strip line := fun hmem => hnl (mem_of_mem_strip hmem)
    have hparts := isHeading_of_sectionHeading (strip_strip line) hstrip hheading
    refine ⟨?_, ?_, ?_, ?_, hparts.noNewline_tagged⟩
    · obtain ⟨t, ht⟩ := exists_of_sectionHeading hheading
      rw [hparts.strip_tagged, taggedHeading_eq, ht, not_fence hparts, not_fence hparts]
    · rw [hparts.strip_tagged, shownHeading_tagged hparts, dueHeading, hsection]
    · intro hnone
      rw [hsection] at hnone
      cases hnone
    · unfold injectLine
      rw [hparts.strip_tagged, sectionHeading_tagged hparts]
      dsimp only
      rw [hread n st hst]
      dsimp only
      rw [hst]

/-! ### All lines -/

theorem forall₂_mapM {α β : Type} {f : α → Option β} {as : List α} {bs : List β}
    (h : as.mapM f = some bs) : List.Forall₂ (fun a b => f a = some b) as bs := by
  induction as generalizing bs with
  | nil =>
    cases Option.some.inj h
    exact .nil
  | cons a as ih =>
    rw [List.mapM_cons] at h
    obtain ⟨b, hb, h⟩ := Option.bind_eq_some_iff.mp h
    obtain ⟨bs', hbs, h⟩ := Option.bind_eq_some_iff.mp h
    cases Option.some.inj h
    exact .cons hb (ih hbs)

theorem mapM_self {α : Type} {f : α → Option α} {as : List α} (h : ∀ a ∈ as, f a = some a) :
    as.mapM f = some as := by
  induction as with
  | nil => rfl
  | cons a as ih =>
    rw [List.mapM_cons, h a List.mem_cons_self, ih fun b hb => h b (List.mem_cons_of_mem a hb)]
    rfl

variable {lines outs : List Str}

theorem forall₂_follows (hread : ∀ n st, statuses n = some st → unsignedValue (ofNat n) = some n)
    (hnl : ∀ line ∈ lines, '\n' ∉ line) (h : lines.mapM (injectLine statuses) = some outs) :
    List.Forall₂ (Follows statuses) lines outs :=
  ((List.forall₂_and_left lines outs).mpr ⟨hnl, forall₂_mapM h⟩).imp fun _ _ hline =>
    follows_of_injectLine hread hline.1 hline.2

theorem renderHeadings_follows (h : List.Forall₂ (Follows statuses) lines outs) (inCode : Bool) :
    renderHeadings shownHeading inCode outs = renderHeadings (dueHeading statuses) inCode lines := by
  induction h generalizing inCode with
  | nil => rfl
  | cons hline _ ih => rw [renderHeadings, renderHeadings, hline.fence, hline.heading, ih, ih]

theorem delivered_lines (h : List.Forall₂ (Follows statuses) lines outs) :
    ∀ out ∈ outs, '\n' ∉ out ∧ injectLine statuses out = some out :=
  ((List.forall₂_and_left outs lines).mp (List.Forall₂.imp
    (fun _ _ (hline : flip (Follows statuses) _ _) => ⟨⟨hline.noNewline, hline.again⟩, hline⟩) h.flip)).1

theorem injectSectionTags_eq (content : Str) : injectSectionTags statuses content =
    ((splitOn '\n' content).mapM (injectLine statuses)).map (join "\n") := by
  unfold injectSectionTags
  split_ifs with hempty
  · rw [hempty]
    rfl
  · rfl

/-- The numbers of the sections are short enough for `int`. -/
theorem unsignedValue_section {sections : Sections} (h : sections.status n = some st) :
    unsignedValue (ofNat n) = some n := by
  unfold Sections.status at h
  split at h
  case h_8 => cases h
  all_goals decide

/-- In a report the headings of the sections show the judgement on the facts, whatever
the model wrote there, every other line is kept, and the text is not changed again. -/
theorem marks_follow_facts {hosts : List HostFacts} {cleaned : Str} {block : Option VerdictMeta}
    {r : StatusReport} (h : generateReport hosts (.ok (cleaned, block)) = some (.ok r)) :
    renderHeadings shownHeading false (splitOn '\n' r.content) =
        renderHeadings (dueHeading (computeSectionStatuses hosts).status) false (splitOn '\n' cleaned) ∧
      List.Forall₂ (fun line out => sectionOf (computeSectionStatuses hosts).status (strip line) = none →
        out = line) (splitOn '\n' cleaned) (splitOn '\n' r.content) ∧
      injectSectionTags (computeSectionStatuses hosts).status r.content = some r.content := by
  obtain ⟨content, hinject, rfl⟩ := generateReport_ok h
  rw [injectSectionTags_eq] at hinject
  obtain ⟨outs, hmap, rfl⟩ := Option.map_eq_some_iff.mp hinject
  have hlines := forall₂_follows (fun _ _ => unsignedValue_section) (fun _ => not_mem_of_mem_splitOn) hmap
  have houts := delivered_lines hlines
  have hne : outs ≠ [] := by
    rintro rfl
    exact splitOn_ne_nil '\n' cleaned (List.forall₂_nil_right_iff.mp hlines)
  have hsplit : splitOn '\n' (join "\n" outs) = outs :=
    splitOn_join (fun out hout => (houts out hout).1) hne
  dsimp only
  rw [injectSectionTags_eq, hsplit]
  refine ⟨renderHeadings_follows hlines false, hlines.imp fun _ _ hline => hline.kept, ?_⟩
  rw [mapM_self fun out hout => (houts out hout).2, Option.map_some]

/-- A degraded pool marks the anomalies, whatever tag the model chose. -/
theorem marks_follow_facts_degraded :
    renderHeadings shownHeading false (splitOn '\n' "## [CRIT] 6. Anomalies\nNone.") =
      renderHeadings (dueHeading (computeSectionStatuses
        [⟨[⟨some 40, "DEGRADED", "scrub repaired 0B"⟩], [["PASSED"]], none, []⟩]).status) false
        (splitOn '\n' "## [OK] 6. Anomalies\nNone.") :=
  (@marks_follow_facts [⟨[⟨some 40, "DEGRADED", "scrub repaired 0B"⟩], [["PASSED"]], none, []⟩]
    "## [OK] 6. Anomalies\nNone." none ⟨"## [CRIT] 6. Anomalies\nNone.", .crit, 1, 0, true, { anom := .crit }⟩
    rfl).1

end Headings

end PveZfsTool.Reports
