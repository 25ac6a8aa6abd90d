import PveZfsTool.Backups.Listing
import PveZfsTool.Lib.LineFile
import PveZfsTool.Lib.Strip
import PveZfsTool.Lib.Words

/-!
# The file of the backup jobs

`JobsFile` is a `jobs.cfg` as PVE writes it: sections of a header and of
properties, one on each line, with blank lines between the sections.  PVE takes
no property twice in a section and writes a switch as 0 or 1.

* `parseBackupJobs_text`: `parse_backup_jobs` gives one job for each `vzdump`
  section, with the properties of that section.
* `field_job`: what a field of the job is read from.
* `jobCovers_iff`: a job covers the guests that its section selects.
-/

namespace PveZfsTool.Backups

open Text

/-! ## The format -/

/-- A line with no setting: blank, or a comment. -/
structure NoteLine where
  text : Str
  note : ∀ c ∈ (lstrip text).head?, c = '#'
  oneLine : NoBreak text

/-- A property, with the whitespace around it. -/
structure PropertyLine where
  indent : Str
  key : Str
  gap : Str
  value : Str
  trail : Str
  indent_ne : indent ≠ []
  indent_space : ∀ c ∈ indent, isSpace c = true
  key_word : IsWordText key
  gap_ne : gap ≠ []
  gap_space : ∀ c ∈ gap, isSpace c = true
  value_ne : value ≠ []
  value_stripped : IsStripped value
  trail_space : ∀ c ∈ trail, isSpace c = true
  oneLine : NoBreak (indent ++ (key ++ (gap ++ (value ++ trail))))

def PropertyLine.text (p : PropertyLine) : Str := p.indent ++ (p.key ++ (p.gap ++ (p.value ++ p.trail)))

inductive BodyLine where
  | note (n : NoteLine)
  | property (p : PropertyLine)

def BodyLine.text : BodyLine → Str
  | .note n => n.text
  | .property p => p.text

def BodyLine.property? : BodyLine → Option PropertyLine
  | .note _ => none
  | .property p => some p

/-- A section: its type and name, the lines in it, and the lines up to the next
one. -/
structure JobSection where
  kind : Str
  gap : Str
  id : Str
  trail : Str
  body : List BodyLine
  after : List NoteLine
  kind_ne : kind ≠ []
  kind_chars : ∀ c ∈ kind, isSectionChar c = true
  gap_space : ∀ c ∈ gap, isSpace c = true
  id_word : IsWordText id
  trail_space : ∀ c ∈ trail, isSpace c = true
  oneLine : NoBreak (kind ++ ':' :: (gap ++ (id ++ trail)))
  distinct : ((body.filterMap BodyLine.property?).map PropertyLine.key).Nodup
  switches : ∀ p ∈ body.filterMap BodyLine.property?,
    p.key = "enabled" ∨ p.key = "all" → p.value = "0" ∨ p.value = "1"

namespace JobSection

def header (s : JobSection) : Str := s.kind ++ ':' :: (s.gap ++ (s.id ++ s.trail))

def properties (s : JobSection) : List PropertyLine := s.body.filterMap BodyLine.property?

def lines (s : JobSection) : List Str :=
  s.header :: (s.body.map BodyLine.text ++ s.after.map NoteLine.text)

/-- The value of a property. -/
def get (s : JobSection) (key : Str) : Option Str :=
  (s.properties.find? (fun p => p.key = key)).map PropertyLine.value

def isSeparator (c : Char) : Bool := c = ',' || c = ';' || isSpace c

/-- The entries of a list of guests. -/
def ids (s : JobSection) (key : Str) : List Str :=
  (((s.get key).getD []).splitOnP isSeparator).filter (· ≠ [])

/-- The section is a backup job that is switched on and selects the guest. -/
def Selects (s : JobSection) (vmid : Str) : Prop :=
  s.kind = "vzdump" ∧ s.get "enabled" ≠ some "0" ∧
    if s.get "all" = some "1" then vmid ∉ s.ids "exclude" else vmid ∈ s.ids "vmid"

/-- The job runs on the node. -/
def RunsOn (s : JobSection) (node : Str) : Prop := ∀ n, s.get "node" = some n → n = node

/-- The job backs the guest up on the node, and it is not for a pool. -/
def BacksUp (s : JobSection) (node vmid : Str) : Prop :=
  s.Selects vmid ∧ s.RunsOn node ∧ s.get "pool" = none

end JobSection

structure JobsFile where
  before : List NoteLine
  sections : List JobSection

def JobsFile.lines (f : JobsFile) : List Str :=
  f.before.map NoteLine.text ++ f.sections.flatMap JobSection.lines

def JobsFile.text (f : JobsFile) : Str := unlines f.lines

/-- The properties of a section, set one after another. -/
def setAll (job : BackupJob) (properties : List PropertyLine) : BackupJob :=
  properties.foldl (fun job p => job.setProperty p.key p.value) job

/-- The job of a section. -/
def JobSection.job (s : JobSection) : BackupJob := setAll { id := s.id } s.properties

/-! ## The lines -/

section Lines

variable {cur : Option BackupJob} {job : BackupJob} {lines : List Str} {notes : List NoteLine}
  {body : List BodyLine}

theorem strip_between {a b c : Str} (ha : ∀ d ∈ a, isSpace d = true) (hne : b ≠ [])
    (hb : IsStripped b) (hc : ∀ d ∈ c, isSpace d = true) : strip (a ++ (b ++ c)) = b := by
  have hrest : rstrip c = [] := by
    rw [rstrip, List.reverse_eq_nil_iff, List.dropWhile_eq_nil_iff]
    exact fun d hd => hc d (List.mem_reverse.mp hd)
  have hhead : ∀ d ∈ b.head?, isSpace d = false := fun d hd => isSpace_head_strip (by rw [hb]; exact hd)
  have hlast : ∀ d ∈ b.getLast?, isSpace d = false :=
    fun d hd => isSpace_getLast_strip (by rw [hb]; exact hd)
  rw [strip, lstrip_spaces a ha, ← strip, strip_append_of_ends hne hhead hlast, hrest, List.append_nil]

theorem isStripped_word {w : Str} (h : IsWordText w) : IsStripped w := strip_eq_self h.plain

theorem isAsciiAlnum_of_isSpace {c : Char} (h : isSpace c = true) : isAsciiAlnum c = false := by
  rw [← Bool.not_eq_true]
  intro halnum
  rw [isSpace_of_isAsciiAlnum halnum] at h
  cases h

theorem isSectionChar_of_isSpace {c : Char} (h : isSpace c = true) : isSectionChar c = false ∧ c ≠ ':' := by
  have hne : ∀ d, isSpace d = false → c ≠ d := by
    intro d hd heq
    rw [heq, hd] at h
    cases h
  refine ⟨?_, hne ':' (by decide)⟩
  unfold isSectionChar
  rw [isAsciiAlnum_of_isSpace h, beq_false_of_ne (hne '_' (by decide)),
    beq_false_of_ne (hne '-' (by decide))]
  rfl

theorem isKeyChar_of_isSpace {c : Char} (h : isSpace c = true) : isKeyChar c = false := by
  rw [← Bool.not_eq_true]
  intro hkey
  have hsection : isSectionChar c = true := by
    unfold isKeyChar at hkey
    unfold isSectionChar isAsciiAlnum isAsciiAlpha
    simp only [Bool.or_eq_true] at hkey ⊢
    tauto
  rw [(isSectionChar_of_isSpace h).1] at hsection
  cases hsection

/-- A line that does not begin like a section is no header. -/
theorem sectionHeader_of_head {raw : Str} (h : ∀ c ∈ raw.head?, isSectionChar c = false ∧ c ≠ ':') :
    sectionHeader raw = none := by
  cases raw with
  | nil => rfl
  | cons c s =>
    obtain ⟨hchar, hcolon⟩ := h c rfl
    unfold sectionHeader
    dsimp only
    rw [List.takeWhile_cons, if_neg (by rw [hchar]; decide)]
    split
    · next heq => exact absurd (List.cons.inj heq).1 hcolon
    · rfl

theorem sectionHeader_header (s : JobSection) : sectionHeader s.header = some (s.kind, s.id) := by
  have hkind : s.header.takeWhile isSectionChar = s.kind := by
    unfold JobSection.header
    rw [takeWhile_append_cons (by decide), List.takeWhile_eq_self_iff]
    exact s.kind_chars
  have hname : strip (s.gap ++ (s.id ++ s.trail)) = s.id :=
    strip_between s.gap_space s.id_word.nonempty (isStripped_word s.id_word) s.trail_space
  have hplain : s.id.all (fun c => !isSpace c) = true := by
    rw [List.all_eq_true]
    intro c hc
    rw [s.id_word.plain c hc]
    rfl
  unfold sectionHeader
  dsimp only
  rw [hkind]
  unfold JobSection.header
  rw [List.drop_left]
  show (if _ then some (s.kind, strip (s.gap ++ (s.id ++ s.trail))) else none) = _
  rw [hname, if_pos (by simp [s.kind_ne, s.id_word.nonempty, hplain])]

theorem sectionHeader_note (n : NoteLine) : sectionHeader n.text = none := by
  apply sectionHeader_of_head
  intro c hc
  by_cases hspace : isSpace c = true
  · exact isSectionChar_of_isSpace hspace
  · have hlstrip : lstrip n.text = n.text := by
      obtain ⟨t, ht⟩ : ∃ t, n.text = c :: t := by
        cases htext : n.text with
        | nil => rw [htext] at hc; cases hc
        | cons d t => rw [htext] at hc; exact ⟨t, by rw [Option.some.inj hc]⟩
      rw [ht]
      exact lstrip_cons (Bool.not_eq_true _ ▸ hspace)
    have hhash := n.note c (by rw [hlstrip]; exact hc)
    rw [hhash]
    decide

theorem jobProperty_note (n : NoteLine) : jobProperty n.text = none := by
  have hkey : (lstrip n.text).takeWhile isKeyChar = [] := by
    cases hrest : lstrip n.text with
    | nil => rfl
    | cons c t =>
      have hhash := n.note c (by rw [hrest]; rfl)
      rw [hhash]
      rfl
  unfold jobProperty
  dsimp only
  rw [hkey]
  exact if_neg (by simp)

theorem head_text (p : PropertyLine) : ∃ c t, p.text = c :: t ∧ isSpace c = true := by
  cases hindent : p.indent with
  | nil => exact absurd hindent p.indent_ne
  | cons c t =>
    refine ⟨c, t ++ (p.key ++ (p.gap ++ (p.value ++ p.trail))), ?_, ?_⟩
    · unfold PropertyLine.text
      rw [hindent]
      rfl
    · exact p.indent_space c (by rw [hindent]; exact List.mem_cons_self)

theorem sectionHeader_property (p : PropertyLine) : sectionHeader p.text = none := by
  obtain ⟨c, t, htext, hc⟩ := head_text p
  apply sectionHeader_of_head
  intro d hd
  rw [htext] at hd
  rw [← Option.some.inj hd]
  exact isSectionChar_of_isSpace hc

theorem lstrip_text (p : PropertyLine) : lstrip p.text = p.key ++ (p.gap ++ (p.value ++ p.trail)) := by
  unfold PropertyLine.text
  rw [lstrip_spaces _ p.indent_space, p.key_word.lstrip_append]

/-- A property whose name has the characters of one is read, and another one is
not. -/
theorem jobProperty_text (p : PropertyLine) :
    jobProperty p.text = if p.key.all isKeyChar then some (p.key, p.value) else none := by
  have hne : lstrip p.text ≠ p.text := by
    obtain ⟨c, t, htext, hc⟩ := head_text p
    intro h
    rw [htext] at h
    rw [isSpace_of_lstrip h] at hc
    cases hc
  obtain ⟨g, gs, hgap⟩ := List.exists_cons_of_ne_nil p.gap_ne
  have hg : isSpace g = true := p.gap_space g (by rw [hgap]; exact List.mem_cons_self)
  have hvalue : strip (p.gap ++ (p.value ++ p.trail)) = p.value :=
    strip_between p.gap_space p.value_ne p.value_stripped p.trail_space
  unfold jobProperty
  dsimp only
  rw [lstrip_text] at hne ⊢
  by_cases hall : p.key.all isKeyChar = true
  · have hkey : (p.key ++ (p.gap ++ (p.value ++ p.trail))).takeWhile isKeyChar = p.key := by
      rw [hgap, List.cons_append, takeWhile_append_cons (isKeyChar_of_isSpace hg),
        List.takeWhile_eq_self_iff]
      exact List.all_eq_true.mp hall
    have hspace : (p.gap ++ (p.value ++ p.trail)).head?.any isSpace = true := by
      rw [hgap]
      exact hg
    rw [hkey, List.drop_left, if_pos hall, hvalue, hspace, Bool.and_true, if_pos]
    rw [Bool.and_eq_true]
    exact ⟨decide_eq_true hne, decide_eq_true p.key_word.nonempty⟩
  · have hdrop : ∀ l : Str, l.drop (l.takeWhile isKeyChar).length = l.dropWhile isKeyChar := by
      intro l
      nth_rewrite 2 [← List.takeWhile_append_dropWhile (p := isKeyChar) (l := l)]
      exact List.drop_left
    obtain ⟨c, t, hcut⟩ : ∃ c t, p.key.dropWhile isKeyChar = c :: t := by
      apply List.exists_cons_of_ne_nil
      rw [ne_eq, List.dropWhile_eq_nil_iff]
      exact fun h => hall (List.all_eq_true.mpr h)
    have hc : isSpace c = false := by
      refine p.key_word.plain c ((List.dropWhile_suffix isKeyChar).subset ?_)
      rw [hcut]
      exact List.mem_cons_self
    rw [if_neg hall, hdrop, List.dropWhile_append, hcut]
    exact if_neg (by simp [hc])

/-! What `parse_backup_jobs` does with one line. -/

section Line

variable {raw kind name key value : Str}

theorem parse_header (h : sectionHeader raw = some (kind, name)) : parseJobLines cur (raw :: lines) =
    cur.toList ++ parseJobLines (if kind = "vzdump".toList then some { id := name } else none) lines := by
  conv_lhs => unfold parseJobLines
  rw [h]
  dsimp only
  split_ifs <;> rfl

theorem parse_plain (h : sectionHeader raw = none) (hproperty : jobProperty raw = none) :
    parseJobLines cur (raw :: lines) = parseJobLines cur lines := by
  conv_lhs => unfold parseJobLines
  rw [h, hproperty]
  cases cur <;> rfl

theorem parse_set (h : sectionHeader raw = none) (hproperty : jobProperty raw = some (key, value)) :
    parseJobLines (some job) (raw :: lines) = parseJobLines (some (job.setProperty key value)) lines := by
  conv_lhs => unfold parseJobLines
  rw [h, hproperty]

theorem parse_outside (h : sectionHeader raw = none) :
    parseJobLines none (raw :: lines) = parseJobLines none lines := by
  conv_lhs => unfold parseJobLines
  rw [h]

end Line

theorem parse_note (n : NoteLine) : parseJobLines cur (n.text :: lines) = parseJobLines cur lines :=
  parse_plain (sectionHeader_note n) (jobProperty_note n)

theorem parse_notes (notes : List NoteLine) :
    parseJobLines cur (notes.map NoteLine.text ++ lines) = parseJobLines cur lines := by
  induction notes with
  | nil => rfl
  | cons n notes ih => rw [List.map_cons, List.cons_append, parse_note, ih]

/-- The known keys have the characters of one. -/
theorem setProperty_of_not_key {key value : Str} (h : ¬ key.all isKeyChar = true) :
    job.setProperty key value = job := by
  have hne : ∀ known : Str, known.all isKeyChar = true → key ≠ known := fun known hknown heq =>
    h (heq ▸ hknown)
  unfold BackupJob.setProperty
  rw [if_neg (hne _ (by decide)), if_neg (hne _ (by decide)), if_neg (hne _ (by decide)),
    if_neg (hne _ (by decide)), if_neg (hne _ (by decide)), if_neg (hne _ (by decide)),
    if_neg (hne _ (by decide)), if_neg (hne _ (by decide))]

/-- A property line sets its property. -/
theorem parse_property (p : PropertyLine) : parseJobLines (some job) (p.text :: lines) =
    parseJobLines (some (job.setProperty p.key p.value)) lines := by
  have htext := jobProperty_text p
  by_cases hkey : p.key.all isKeyChar = true
  · rw [if_pos hkey] at htext
    exact parse_set (sectionHeader_property p) htext
  · rw [if_neg hkey] at htext
    rw [parse_plain (sectionHeader_property p) htext, setProperty_of_not_key hkey]

theorem parse_foreign (p : PropertyLine) :
    parseJobLines none (p.text :: lines) = parseJobLines none lines :=
  parse_outside (sectionHeader_property p)

theorem parse_body : parseJobLines (some job) (body.map BodyLine.text ++ lines) =
    parseJobLines (some (setAll job (body.filterMap BodyLine.property?))) lines := by
  induction body generalizing job with
  | nil => rfl
  | cons b body ih =>
    cases b with
    | note n => exact (parse_note n).trans ih
    | property p => exact (parse_property p).trans ih

theorem parse_foreign_body :
    parseJobLines none (body.map BodyLine.text ++ lines) = parseJobLines none lines := by
  induction body with
  | nil => rfl
  | cons b body ih =>
    cases b with
    | note n => exact (parse_note n).trans ih
    | property p => exact (parse_foreign p).trans ih

/-- A section ends the one before it. -/
theorem parse_section (s : JobSection) : parseJobLines cur (s.lines ++ lines) =
    cur.toList ++ parseJobLines (if s.kind = "vzdump" then some s.job else none) lines := by
  unfold JobSection.lines
  rw [List.cons_append, parse_header (sectionHeader_header s), List.append_assoc]
  by_cases hkind : s.kind = "vzdump"
  · rw [if_pos hkind, if_pos hkind, parse_body, parse_notes]
    rfl
  · rw [if_neg hkind, if_neg hkind, parse_foreign_body, parse_notes]

theorem parse_sections (sections : List JobSection) :
    parseJobLines cur (sections.flatMap JobSection.lines) =
      cur.toList ++ (sections.filter (fun s => s.kind = ("vzdump" : Str))).map JobSection.job := by
  induction sections generalizing cur with
  | nil => simp [parseJobLines]
  | cons s sections ih =>
    rw [List.flatMap_cons, parse_section, ih]
    by_cases hkind : s.kind = "vzdump"
    · rw [if_pos hkind, List.filter_cons_of_pos (by simpa using hkind)]
      rfl
    · rw [if_neg hkind, List.filter_cons_of_neg (by simpa using hkind)]
      rfl

end Lines

theorem noBreak_lines (f : JobsFile) : ∀ l ∈ f.lines, NoBreak l := by
  intro l hl
  rcases List.mem_append.mp hl with hl | hl
  · obtain ⟨n, -, rfl⟩ := List.mem_map.mp hl
    exact n.oneLine
  · obtain ⟨s, -, hl⟩ := List.mem_flatMap.mp hl
    rcases List.mem_cons.mp hl with rfl | hl
    · exact s.oneLine
    · rcases List.mem_append.mp hl with hl | hl
      · obtain ⟨b, -, rfl⟩ := List.mem_map.mp hl
        cases b with
        | note n => exact n.oneLine
        | property p => exact p.oneLine
      · obtain ⟨n, -, rfl⟩ := List.mem_map.mp hl
        exact n.oneLine

/-- The jobs of the file are those of its `vzdump` sections. -/
theorem parseBackupJobs_text (f : JobsFile) :
    parseBackupJobs f.text = (f.sections.filter (fun s => s.kind = ("vzdump" : Str))).map JobSection.job := by
  unfold parseBackupJobs JobsFile.text
  rw [splitLines_unlines (noBreak_lines f), JobsFile.lines, parse_notes, parse_sections]
  rfl

/-! ## The fields of a job -/

section Fields

variable {s : JobSection} {vmid : Str} {α : Type}

theorem setAll_field {field : BackupJob → α} {known : Str} {read : Str → α}
    (hset : ∀ job key value,
      field (job.setProperty key value) = if key = known then read value else field job)
    {properties : List PropertyLine} (hdistinct : (properties.map PropertyLine.key).Nodup)
    (job : BackupJob) : field (setAll job properties) =
      ((properties.find? (fun p => p.key = known)).map (fun p => read p.value)).getD (field job) := by
  unfold setAll
  induction properties generalizing job with
  | nil => rfl
  | cons p properties ih =>
    rw [List.map_cons, List.nodup_cons] at hdistinct
    rw [List.foldl_cons, ih hdistinct.2, hset]
    by_cases hkey : p.key = known
    · have hnone : properties.find? (fun p => p.key = known) = none := by
        rw [List.find?_eq_none]
        intro q hq hqkey
        exact hdistinct.1 (hkey ▸ of_decide_eq_true hqkey ▸ List.mem_map_of_mem hq)
      rw [hnone, if_pos hkey, List.find?_cons_of_pos (by simpa using hkey)]
      rfl
    · rw [if_neg hkey, List.find?_cons_of_neg (by simpa using hkey)]

/-- A field that one property sets is read from that property. -/
theorem field_job {field : BackupJob → α} {known : Str} {read : Str → α}
    (hset : ∀ job key value,
      field (job.setProperty key value) = if key = known then read value else field job)
    (s : JobSection) : field s.job = ((s.get known).map read).getD (field { id := s.id }) := by
  have hfield := setAll_field hset s.distinct { id := s.id }
  unfold JobSection.job JobSection.get
  rw [Option.map_map]
  exact hfield

theorem enabled_job (s : JobSection) :
    s.job.enabled = ((s.get "enabled").map (fun v => decide (asInt (.str v) 1 ≠ 0))).getD true := by
  have hset : ∀ (job : BackupJob) (key value : Str), (job.setProperty key value).enabled =
      if key = ("enabled" : Str) then decide (asInt (.str value) 1 ≠ 0) else job.enabled := by
    intro job key value
    unfold BackupJob.setProperty
    split_ifs <;> first
      | rfl
      | simp_all
  exact field_job hset s

theorem all_job (s : JobSection) :
    s.job.all = ((s.get "all").map (fun v => decide (asInt (.str v) 0 ≠ 0))).getD false := by
  have hset : ∀ (job : BackupJob) (key value : Str), (job.setProperty key value).all =
      if key = ("all" : Str) then decide (asInt (.str value) 0 ≠ 0) else job.all := by
    intro job key value
    unfold BackupJob.setProperty
    split_ifs <;> first
      | rfl
      | simp_all
  exact field_job hset s

theorem vmid_job (s : JobSection) : s.job.vmid = ((s.get "vmid").map splitIds).getD [] := by
  have hset : ∀ (job : BackupJob) (key value : Str), (job.setProperty key value).vmid =
      if key = ("vmid" : Str) then splitIds value else job.vmid := by
    intro job key value
    unfold BackupJob.setProperty
    split_ifs <;> first
      | rfl
      | simp_all
  exact field_job hset s

theorem exclude_job (s : JobSection) : s.job.exclude = ((s.get "exclude").map splitIds).getD [] := by
  have hset : ∀ (job : BackupJob) (key value : Str), (job.setProperty key value).exclude =
      if key = ("exclude" : Str) then splitIds value else job.exclude := by
    intro job key value
    unfold BackupJob.setProperty
    split_ifs <;> first
      | rfl
      | simp_all
  exact field_job hset s

theorem modifyHead_nil_append (ls : List Str) :
    ls.modifyHead (fun l => ([] : Str).reverse ++ l) = ls := by
  cases ls <;> rfl

theorem splitIdsAux_eq (cur value : Str) : splitIdsAux cur value =
    ((value.splitOnP JobSection.isSeparator).modifyHead (cur.reverse ++ ·)).filter (· ≠ []) := by
  induction value generalizing cur with
  | nil =>
    rw [splitIdsAux, List.splitOnP_nil, List.modifyHead_cons, List.append_nil]
    cases cur with
    | nil => rfl
    | cons c cur => simp
  | cons c value ih =>
    have hsep : (c == ',' || c == ';' || isSpace c) = JobSection.isSeparator c := rfl
    rw [splitIdsAux, hsep, List.splitOnP_cons_eq_if_modifyHead]
    by_cases hc : JobSection.isSeparator c = true
    · rw [if_pos hc, if_pos hc, List.modifyHead_cons, List.append_nil, ih, modifyHead_nil_append]
      cases cur with
      | nil => rfl
      | cons c cur => simp
    · rw [if_neg hc, if_neg hc, ih]
      congr 1
      cases value.splitOnP JobSection.isSeparator with
      | nil => rfl
      | cons l ls => simp

theorem splitIds_eq (value : Str) :
    splitIds value = (value.splitOnP JobSection.isSeparator).filter (· ≠ []) := by
  rw [splitIds, splitIdsAux_eq, modifyHead_nil_append]

theorem ids_eq (key : Str) : ((s.get key).map splitIds).getD [] = s.ids key := by
  unfold JobSection.ids
  cases s.get key with
  | none => rfl
  | some value => exact splitIds_eq value

/-- A switch is written as 0 or 1. -/
theorem get_switch {key value : Str} (hkey : key = "enabled".toList ∨ key = "all".toList)
    (h : s.get key = some value) : value = "0" ∨ value = "1" := by
  obtain ⟨p, hp, rfl⟩ := Option.map_eq_some_iff.mp h
  have hname : p.key = key := by simpa using List.find?_some hp
  exact s.switches p (List.mem_of_find?_eq_some hp) (by rw [hname]; exact hkey)

/-- A job covers the guests that its section selects. -/
theorem jobCovers_iff (hvmid : vmid ≠ []) (hkind : s.kind = "vzdump") :
    jobCovers s.job vmid = true ↔ s.Selects vmid := by
  have henabled : s.job.enabled = true ↔ s.get "enabled" ≠ some "0" := by
    rw [enabled_job]
    cases hget : s.get "enabled" with
    | none => simp
    | some value => rcases get_switch (.inl rfl) hget with rfl | rfl <;> decide
  have hall : s.job.all = true ↔ s.get "all" = some "1" := by
    rw [all_job]
    cases hget : s.get "all" with
    | none => simp
    | some value => rcases get_switch (.inr rfl) hget with rfl | rfl <;> decide
  unfold jobCovers JobSection.Selects
  rw [vmid_job, exclude_job, ids_eq, ids_eq, ← henabled]
  by_cases hon : s.job.enabled = true
  · rw [if_neg (by simp [hvmid, hon])]
    by_cases heach : s.job.all = true
    · rw [if_pos heach, if_pos (hall.mp heach), decide_eq_true_eq]
      exact ⟨fun h => ⟨hkind, hon, h⟩, fun h => h.2.2⟩
    · rw [if_neg heach, if_neg (fun h => heach (hall.mpr h)), decide_eq_true_eq]
      exact ⟨fun h => ⟨hkind, hon, h⟩, fun h => h.2.2⟩
  · rw [if_pos (by simp [hon])]
    exact iff_of_false (by decide) (fun h => hon h.2.1)

end Fields

end PveZfsTool.Backups
