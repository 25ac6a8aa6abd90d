import PveZfsTool.Lib.LineFile
import PveZfsTool.Ssh.HostIdentity

/-!
# Fields without a newline between them

The probe prints its fields on lines of their own, and where newlines are
missing several stand on one line.  A missing newline is made good where the
next key is cut off and nothing before it is (`GluesWell`).

* `probeFields_group`: fields that glue well are read as on lines of their own.
* `fields_of_opensKey`: after a value that opens a key, the end of the value is
  lost.
* `ne_os_of_mem_glued`: the key `OS` is too short to be cut off.
-/

namespace PveZfsTool

open Text

/-! ## The output of the probe -/

/-- A field of the probe.  The value has no newline and no `NAME=` text, and
does not end in an uppercase letter or an underscore. -/
structure ProbeField where
  key : ProbeKey
  value : Str
  line : '\n' ∉ value
  noName : ∀ t, t <:+ value → startsField t = false
  ends : ∀ c ∈ value.getLast?, isFieldLetter c = false

/-- `KEY=value` -/
def ProbeField.text (f : ProbeField) : Str := f.key.text ++ '=' :: f.value

/-- Fields on one line. -/
def groupText (group : List ProbeField) : Str := group.flatMap ProbeField.text

/-- The fields that were printed, those on one line together. -/
structure ProbeOutput where
  groups : List (List ProbeField)
  distinct : (groups.flatten.map ProbeField.key).Nodup

/-- The output with the newlines that are there. -/
def ProbeOutput.glued (o : ProbeOutput) : Str := unlines (o.groups.map groupText)

/-- The output with all newlines. -/
def ProbeOutput.separated (o : ProbeOutput) : Str := unlines (o.groups.flatten.map ProbeField.text)

/-- Both texts are parsed to the same dictionary. -/
def ProbeOutput.ReadAlike (o : ProbeOutput) : Prop :=
  ∀ key, (parseLines o.glued).get? key = (parseLines o.separated).get? key

/-- In the run of `[A-Z0-9_]` at the end of the value stands an uppercase letter
that does not come after another one or an underscore. -/
def ProbeField.OpensKey (f : ProbeField) : Prop :=
  ∃ a c b, f.value = a ++ c :: b ∧ isAsciiUpper c = true ∧ (∀ d ∈ b, isFieldChar d = true) ∧
    ∀ d ∈ a.getLast?, isFieldLetter d = false

/-- The second field may stand on the line of the first. -/
structure GluesWell (f next : ProbeField) : Prop where
  notOs : next.key ≠ .os
  closed : ¬ f.OpensKey

/-- All missing newlines are between such fields. -/
def ProbeOutput.Recovers (o : ProbeOutput) : Prop := ∀ group ∈ o.groups, group.IsChain GluesWell

/-- The values are single lines. -/
def ProbeOutput.SingleLines (o : ProbeOutput) : Prop := ∀ f ∈ o.groups.flatten, NoBreak f.value

/-! ## Keys -/

section Keys

variable {key : ProbeKey} {s : Str}

theorem exists_key_text (key : ProbeKey) : ∃ c run, key.text = c :: run ∧ isAsciiUpper c = true ∧
    (∀ d ∈ run, isFieldLetter d = true) ∧ (key ≠ .os → 2 ≤ run.length) := by
  cases key <;> exact ⟨_, _, rfl, by decide, by decide, by decide⟩

theorem key_text_injective : Function.Injective ProbeKey.text := by
  intro a b h
  cases a <;> cases b <;> first | rfl | exact absurd h (by decide)

theorem isSpace_of_isFieldChar {c : Char} (h : isFieldChar c = true) : isSpace c = false := by
  cases hspace : isSpace c with
  | false => rfl
  | true =>
    rw [(isFieldChar_eq_false hspace).1] at h
    cases h

theorem isFieldChar_of_isFieldLetter {c : Char} (h : isFieldLetter c = true) :
    isFieldChar c = true := by
  rw [isFieldChar, h, Bool.true_or]

theorem not_mem_of_isFieldChar (h : ∀ c ∈ s, isFieldChar c = true) : '=' ∉ s :=
  fun hmem => absurd (h '=' hmem) (by decide)

theorem isFieldChar_of_mem_key {c : Char} (h : c ∈ key.text) : isFieldChar c = true := by
  obtain ⟨c, run, htext, hupper, hrun, -⟩ := exists_key_text key
  rw [htext] at h
  rcases List.mem_cons.mp h with rfl | h
  · exact isFieldChar_of_isAsciiUpper hupper
  · exact isFieldChar_of_isFieldLetter (hrun _ h)

theorem isWordText_key : IsWordText key.text := by
  refine ⟨?_, fun c hc => isSpace_of_isFieldChar (isFieldChar_of_mem_key hc)⟩
  obtain ⟨c, run, htext, -⟩ := exists_key_text key
  rw [htext]
  exact List.cons_ne_nil c run

theorem not_mem_key : '=' ∉ key.text :=
  not_mem_of_isFieldChar (fun _ hc => isFieldChar_of_mem_key hc)

theorem startsField_key (h : key ≠ .os) : startsField (key.text ++ '=' :: s) = true := by
  obtain ⟨c, run, htext, hupper, hrun, hlength⟩ := exists_key_text key
  rw [startsField_iff]
  exact ⟨c, run, s, by rw [htext, List.cons_append], hupper, hlength h,
    fun d hd => isFieldChar_of_isFieldLetter (hrun d hd)⟩

theorem fieldOf_key : fieldOf (key.text ++ '=' :: s) = some (key.text, strip s) :=
  fieldOf_entry isWordText_key not_mem_key

end Keys

/-! ## Fields that glue well -/

section Glue

variable {f next : ProbeField} {rest : Str} {group : List ProbeField}

theorem joinsAfter_text : joinsAfter isFieldLetter false f.text = false := by
  rw [ProbeField.text, joinsAfter_append]
  exact joinsAfter_eq_false_iff.mpr f.ends

theorem startsField_groupText (h : next.key ≠ .os) :
    startsField (groupText (next :: group)) = true := by
  rw [groupText, List.flatMap_cons, ProbeField.text, List.append_assoc, List.cons_append]
  exact startsField_key h

/-- A place in the field is not moved by what follows. -/
theorem startsField_text_append (h : ¬ f.OpensKey) {d e : Str} {c : Char}
    (hsplit : f.text = d ++ c :: e) (hafter : joinsAfter isFieldLetter false d = false) :
    startsField (c :: e ++ rest) = startsField (c :: e) := by
  by_cases hall : ∀ x ∈ e, isFieldChar x = true
  · have hupper : isAsciiUpper c = false := by
      rw [ProbeField.text] at hsplit
      rcases List.append_eq_append_iff.mp hsplit with ⟨t, hd, ht⟩ | ⟨t, hkey, ht⟩
      · cases t with
        | nil =>
          obtain ⟨rfl, -⟩ := List.cons.inj ht
          decide
        | cons x a =>
          obtain ⟨rfl, hvalue⟩ := List.cons.inj ht
          rw [hd, joinsAfter_append] at hafter
          refine Bool.eq_false_iff.mpr (fun hc => h ⟨a, c, e, hvalue, hc, hall, ?_⟩)
          exact joinsAfter_eq_false_iff.mp hafter
      · cases t with
        | nil =>
          obtain ⟨rfl, -⟩ := List.cons.inj ht
          decide
        | cons x t =>
          obtain ⟨-, rfl⟩ := List.cons.inj ht
          exact absurd (hall '=' (by simp)) (by decide)
    rw [List.cons_append, startsField, startsField, hupper, Bool.false_and, Bool.false_and,
      Bool.false_and, Bool.false_and]
  · push Not at hall
    obtain ⟨x, hx, hfield⟩ := hall
    exact startsField_append_of_mem ⟨x, hx, Bool.eq_false_iff.mpr hfield⟩

/-- Fields that glue well are read as on lines of their own. -/
theorem probeFields_group (h : group.IsChain GluesWell) :
    probeFields (groupText group) = group.flatMap (fun f => probeFields f.text) := by
  induction group with
  | nil => rfl
  | cons f group ih =>
    cases group with
    | nil => rw [groupText, List.flatMap_singleton, List.flatMap_singleton]
    | cons next group =>
      obtain ⟨hglue, hrest⟩ := List.isChain_cons_cons.mp h
      have hwhole : groupText (f :: next :: group) = f.text ++ groupText (next :: group) := rfl
      rw [hwhole, probeFields_glued joinsAfter_text (startsField_groupText hglue.notOs)
        (fun d c e hsplit hafter => startsField_text_append hglue.closed hsplit hafter), ih hrest]
      rfl

theorem probeFields_unlines (lines : List Str) :
    probeFields (unlines lines) = lines.flatMap probeFields := by
  induction lines with
  | nil => rfl
  | cons l lines ih =>
    rw [unlines_cons, probeFields_newline, ih]
    rfl

theorem probeFields_separated (o : ProbeOutput) : probeFields o.separated =
    o.groups.flatMap (fun group => group.flatMap (fun f => probeFields f.text)) := by
  rw [ProbeOutput.separated, probeFields_unlines, List.flatMap_map, List.flatten_eq_flatMap,
    List.flatMap_assoc]
  rfl

theorem probeFields_printed (o : ProbeOutput) : probeFields o.glued =
    o.groups.flatMap (fun group => probeFields (groupText group)) := by
  rw [ProbeOutput.glued, probeFields_unlines, List.flatMap_map]

theorem readAlike_of_recovers {o : ProbeOutput} (h : o.Recovers) : o.ReadAlike := by
  have hfields : probeFields o.glued = probeFields o.separated := by
    rw [probeFields_printed, probeFields_separated]
    exact List.flatMap_congr (fun group hgroup => probeFields_group (h group hgroup))
  intro key
  rw [parseLines, parseLines, hfields]

end Glue

/-! ## What a bad newline loses -/

section Loss

variable {f next : ProbeField} {rest : Str} {group : List ProbeField}

theorem probeFields_of_noBreak {s : Str} (h : NoBreak s) :
    probeFields s = (splitGlued s).filterMap fieldOf := by
  rw [probeFields_eq, List.splitOnP_eq_singleton h, List.flatMap_singleton, lineFields_eq]

/-- The first piece of a field's line starts with its key. -/
theorem fields_of_text {p : Str} {pieces : List Str}
    (h : cuts isFieldLetter startsField false (f.value ++ rest) = p :: pieces) :
    (splitGlued (f.text ++ rest)).filterMap fieldOf =
      (f.key.text, strip p) :: pieces.filterMap fieldOf := by
  obtain ⟨c, run, htext, hupper, hrun, -⟩ := exists_key_text f.key
  have hletter : isFieldLetter c = true := by rw [isFieldLetter, hupper, Bool.true_or]
  have hinner : cuts isFieldLetter startsField (isFieldLetter c)
      ((run ++ ['=']) ++ (f.value ++ rest)) = ((run ++ ['=']) ++ p) :: pieces := by
    rw [hletter]
    refine cuts_of_no_start (fun d x e hsplit hafter => ?_) ?_
    · -- a proper start of the key ends in a letter
      rcases List.append_eq_append_iff.mp hsplit with ⟨t, hd, ht⟩ | ⟨t, hd, -⟩
      · cases t with
        | nil =>
          obtain ⟨rfl, -⟩ := List.cons.inj ht
          exact startsField_of_not_key (by decide)
        | cons y t => simp at ht
      · have hall : joinsAfter isFieldLetter true d = true :=
          joinsAfter_of_all (fun x hx => hrun x (by rw [hd]; exact List.mem_append_left _ hx))
        rw [hafter] at hall
        cases hall
    · rw [joinsAfter_append]
      exact h
  have hline : f.text ++ rest = c :: ((run ++ ['=']) ++ (f.value ++ rest)) := by
    rw [ProbeField.text, htext]
    simp
  have hpiece : c :: ((run ++ ['=']) ++ p) = f.key.text ++ '=' :: p := by
    rw [htext]
    simp
  rw [splitGlued, hline, cuts_cons hinner, hpiece]
  split_ifs
  · rw [List.filterMap_cons_none (show fieldOf [] = none from rfl),
      List.filterMap_cons_some fieldOf_key]
  · rw [List.filterMap_cons_some fieldOf_key]

theorem noBreak_text (h : NoBreak f.value) : NoBreak f.text := by
  intro c hc
  rcases List.mem_append.mp hc with hc | hc
  · exact isWordText_key.noBreak c hc
  · rcases List.mem_cons.mp hc with rfl | hc
    · decide
    · exact h c hc

theorem noBreak_groupText (h : ∀ f ∈ group, NoBreak f.value) : NoBreak (groupText group) := by
  intro c hc
  obtain ⟨f, hf, hc⟩ := List.mem_flatMap.mp hc
  exact noBreak_text (h f hf) c hc

/-- A field on a line of its own. -/
theorem probeFields_text (h : NoBreak f.value) : probeFields f.text = [(f.key.text, strip f.value)] := by
  have hone : cuts isFieldLetter startsField false (f.value ++ []) = [f.value ++ []] := by
    refine cuts_of_no_start (fun d c e hsplit _ => ?_) rfl
    rw [List.append_nil]
    exact f.noName _ (by rw [hsplit]; exact List.suffix_append _ _)
  have hfields := fields_of_text hone
  rw [List.append_nil, List.append_nil] at hfields
  rw [probeFields_of_noBreak (noBreak_text h), hfields]
  rfl

/-- The key of a piece that was cut off. -/
theorem fieldOf_of_isPrefix {t q : Str} {e : Str × Str} (ht : startsField t = true) (hq : q <+: t)
    (he : fieldOf q = some e) : startsField q = true ∧ 3 ≤ e.1.length := by
  obtain ⟨c, run, rest, rfl, hupper, hlength, hrun⟩ := startsField_iff.mp ht
  have hkey : ∀ d ∈ c :: run, isFieldChar d = true := by
    intro d hd
    rcases List.mem_cons.mp hd with rfl | hd
    · exact isFieldChar_of_isAsciiUpper hupper
    · exact hrun d hd
  have hword : IsWordText (c :: run) :=
    ⟨List.cons_ne_nil c run, fun d hd => isSpace_of_isFieldChar (hkey d hd)⟩
  have hsep := not_mem_of_isFieldChar hkey
  rcases prefix_separator (a := c :: run) hq with hshort | ⟨u, rfl, -⟩
  · rw [fieldOf_of_not_mem (fun hmem => hsep (hshort.subset hmem))] at he
    cases he
  · rw [fieldOf_entry hword hsep] at he
    obtain rfl := Option.some.inj he
    exact ⟨startsField_iff.mpr ⟨c, run, u, rfl, hupper, hlength, hrun⟩, Nat.succ_le_succ hlength⟩

theorem startsField_append_of_starts {s t : Str} (h : startsField s = true) :
    startsField (s ++ t) = true := by
  obtain ⟨c, run, u, rfl, hupper, hlength, hrun⟩ := startsField_iff.mp h
  exact startsField_iff.mpr ⟨c, run, u ++ t, by simp, hupper, hlength, hrun⟩

/-- After a value that opens a key, the end of the value is lost. -/
theorem fields_of_opensKey (hopens : f.OpensKey) (hrest : startsField rest = true) :
    ∃ p c d, f.value = p ++ d ∧ c ∈ d ∧ isSpace c = false ∧
      (splitGlued (f.text ++ rest)).filterMap fieldOf =
        (f.key.text, strip p) :: (splitGlued rest).filterMap fieldOf := by
  obtain ⟨a, c, b, hvalue, hupper, hb, hletter⟩ := hopens
  have hne : rest ≠ [] := by
    rintro rfl
    cases hrest
  have hkey : ∀ x ∈ c :: b, isFieldChar x = true := by
    intro x hx
    rcases List.mem_cons.mp hx with rfl | hx
    · exact isFieldChar_of_isAsciiUpper hupper
    · exact hb x hx
  -- the end of the value and the next key are one key to the pattern
  have hplace : startsField (c :: b ++ rest) = true := by
    obtain ⟨x, run, t, rfl, hx, hlength, hrun⟩ := startsField_iff.mp hrest
    refine startsField_iff.mpr ⟨c, b ++ x :: run, t, by simp, hupper, ?_, fun y hy => ?_⟩
    · rw [List.length_append, List.length_cons]
      omega
    · rcases List.mem_append.mp hy with hy | hy
      · exact hb y hy
      · rcases List.mem_cons.mp hy with rfl | hy
        · exact isFieldChar_of_isAsciiUpper hx
        · exact hrun y hy
  have hends : joinsAfter isFieldLetter false (c :: b) = false := by
    have hlast := joinsAfter_eq_false_iff.mpr f.ends
    rw [hvalue, joinsAfter_append] at hlast
    exact hlast
  obtain ⟨p, pieces, hflatten, hcuts⟩ := cuts_append (b := c :: b ++ rest)
    (joinsAfter_eq_false_iff.mpr hletter) hplace (List.cons_ne_nil c (b ++ rest))
  obtain ⟨q, parts, hparts, htail⟩ := cuts_append hends hrest hne
  -- no piece before the next key has an equals sign at the end of a key
  have hdropped : (q :: parts).filterMap fieldOf = [] := by
    apply List.filterMap_eq_nil_iff.mpr
    intro r hr
    refine fieldOf_of_not_mem (not_mem_of_isFieldChar (fun x hx => hkey x ?_))
    rw [← hparts]
    exact List.mem_flatten.mpr ⟨r, hr, hx⟩
  have hinner : pieces.filterMap fieldOf = [] := by
    apply List.filterMap_eq_nil_iff.mpr
    intro r hr
    by_contra hsome
    obtain ⟨e, he⟩ := Option.ne_none_iff_exists'.mp hsome
    obtain ⟨t, ht, hprefix⟩ := (prefix_of_mem_cuts hcuts).2 r (List.mem_append_left _ hr)
    have hstart := (fieldOf_of_isPrefix ht hprefix he).1
    obtain ⟨front, back, hpieces⟩ := List.append_of_mem hr
    have hsuffix : r ++ (back.flatten ++ c :: b) <:+ f.value := by
      refine ⟨p ++ front.flatten, ?_⟩
      rw [hvalue, ← hflatten, hpieces]
      simp
    have hnone := f.noName _ hsuffix
    rw [startsField_append_of_starts hstart] at hnone
    cases hnone
  have hplaces : (cuts isFieldLetter startsField false (c :: b ++ rest)).tail.filterMap fieldOf =
      (splitGlued rest).filterMap fieldOf := by
    have hsplit : splitGlued rest = [] :: (splitGlued rest).tail := cuts_of_starts rfl hrest hne
    rw [List.filterMap_eq_nil_iff] at hdropped
    have hparts : parts.filterMap fieldOf = [] :=
      List.filterMap_eq_nil_iff.mpr (fun r hr => hdropped r (List.mem_cons_of_mem q hr))
    rw [htail, List.cons_append, List.tail_cons, List.filterMap_append, hparts, hsplit]
    rfl
  refine ⟨p, c, pieces.flatten ++ c :: b, ?_, by simp, isSpace_of_isFieldChar
    (isFieldChar_of_isAsciiUpper hupper), ?_⟩
  · rw [hvalue, ← hflatten, List.flatten_cons, List.append_assoc]
  · have hfield : cuts isFieldLetter startsField false (f.value ++ rest) =
        p :: (pieces ++ (cuts isFieldLetter startsField false (c :: b ++ rest)).tail) := by
      rw [hvalue, List.append_assoc]
      exact hcuts
    rw [fields_of_text hfield, List.filterMap_append, hinner, hplaces, List.nil_append]

/-- The fields that are cut off stay as they are. -/
theorem fields_append {a : Str} (hlast : joinsAfter isFieldLetter false a = false)
    (hrest : startsField rest = true) :
    ∃ lost, (splitGlued (a ++ rest)).filterMap fieldOf =
      lost ++ (splitGlued rest).filterMap fieldOf := by
  have hne : rest ≠ [] := by
    rintro rfl
    cases hrest
  obtain ⟨p, pieces, -, hcuts⟩ := cuts_append hlast hrest hne
  have hsplit : splitGlued rest = [] :: (splitGlued rest).tail := cuts_of_starts rfl hrest hne
  refine ⟨(p :: pieces).filterMap fieldOf, ?_⟩
  rw [splitGlued, hcuts, List.filterMap_append, hsplit]
  rfl

/-- The value of a field is set to another one, and not set again. -/
def Misread (f : ProbeField) (fields : List (Str × Str)) : Prop :=
  ∃ before value after, fields = before ++ (f.key.text, value) :: after ∧ value ≠ strip f.value ∧
    ∀ e ∈ after, e.1 ≠ f.key.text

theorem Misread.append_left {fields : List (Str × Str)} (h : Misread f fields)
    (before : List (Str × Str)) : Misread f (before ++ fields) := by
  obtain ⟨b, value, after, rfl, hne, hafter⟩ := h
  exact ⟨before ++ b, value, after, (List.append_assoc _ _ _).symm, hne, hafter⟩

theorem Misread.append_right {fields after : List (Str × Str)} (h : Misread f fields)
    (hafter : ∀ e ∈ after, e.1 ≠ f.key.text) : Misread f (fields ++ after) := by
  obtain ⟨b, value, a, rfl, hne, ha⟩ := h
  refine ⟨b, value, a ++ after, by simp, hne, fun e he => ?_⟩
  rcases List.mem_append.mp he with he | he
  · exact ha e he
  · exact hafter e he

/-- The keys that are read from fields that glue well. -/
theorem key_of_mem_fields {e : Str × Str} (hsingle : ∀ f ∈ group, NoBreak f.value)
    (he : e ∈ group.flatMap (fun f => probeFields f.text)) : ∃ f ∈ group, e.1 = f.key.text := by
  obtain ⟨f, hf, he⟩ := List.mem_flatMap.mp he
  rw [probeFields_text (hsingle f hf), List.mem_singleton] at he
  exact ⟨f, hf, by rw [he]⟩

/-- In a line on which `OS` is not glued, the last field that does not glue well
is misread. -/
theorem misread_of_group (hsingle : ∀ f ∈ group, NoBreak f.value)
    (hdistinct : (group.map ProbeField.key).Nodup) (hos : ∀ f ∈ group.tail, f.key ≠ .os)
    (hbad : ¬ group.IsChain GluesWell) :
    ∃ f ∈ group, Misread f (probeFields (groupText group)) := by
  induction group with
  | nil => exact absurd .nil hbad
  | cons f group ih =>
    cases group with
    | nil => exact absurd (.singleton f) hbad
    | cons next group =>
      have hrest : ∀ g ∈ next :: group, NoBreak g.value :=
        fun g hg => hsingle g (List.mem_cons_of_mem f hg)
      have hnext : next.key ≠ .os := hos next List.mem_cons_self
      have hstart : startsField (groupText (next :: group)) = true := startsField_groupText hnext
      rw [List.map_cons, List.nodup_cons] at hdistinct
      have hwhole : groupText (f :: next :: group) = f.text ++ groupText (next :: group) := rfl
      rw [probeFields_of_noBreak (noBreak_groupText hsingle), hwhole]
      by_cases hchain : (next :: group).IsChain GluesWell
      · have hopens : f.OpensKey := by
          by_contra hclosed
          exact hbad (List.isChain_cons_cons.mpr ⟨⟨hnext, hclosed⟩, hchain⟩)
        obtain ⟨p, c, d, hvalue, hc, hspace, hfields⟩ := fields_of_opensKey hopens hstart
        rw [hfields, ← probeFields_of_noBreak (noBreak_groupText hrest), probeFields_group hchain]
        refine ⟨f, List.mem_cons_self, [], strip p, _, rfl, ?_, fun e he => ?_⟩
        · rw [hvalue]
          exact strip_ne_of_append hc hspace
        · obtain ⟨g, hg, hkey⟩ := key_of_mem_fields hrest he
          rw [hkey]
          intro heq
          exact hdistinct.1 (key_text_injective heq ▸ List.mem_map_of_mem hg)
      · obtain ⟨g, hg, hmisread⟩ := ih hrest hdistinct.2
          (fun g hg => hos g (List.mem_cons_of_mem next hg)) hchain
        obtain ⟨lost, hlost⟩ := fields_append joinsAfter_text hstart
        rw [probeFields_of_noBreak (noBreak_groupText hrest)] at hmisread
        rw [hlost]
        exact ⟨g, List.mem_cons_of_mem f hg, hmisread.append_left lost⟩

theorem misread_of_groups {groups : List (List ProbeField)}
    (hsingle : ∀ f ∈ groups.flatten, NoBreak f.value)
    (hdistinct : (groups.flatten.map ProbeField.key).Nodup)
    (hos : ∀ group ∈ groups, ∀ f ∈ group.tail, f.key ≠ .os)
    (hbad : ¬ ∀ group ∈ groups, group.IsChain GluesWell) :
    ∃ f ∈ groups.flatten, Misread f (groups.flatMap (fun group => probeFields (groupText group))) := by
  induction groups with
  | nil => exact absurd (by simp) hbad
  | cons group groups ih =>
    rw [List.flatten_cons, List.map_append, List.nodup_append'] at hdistinct
    obtain ⟨hfirst, hothers, hdisjoint⟩ := hdistinct
    have hrest : ∀ f ∈ groups.flatten, NoBreak f.value := by
      intro f hf
      exact hsingle f (List.mem_append_right _ hf)
    rw [List.flatMap_cons, List.flatten_cons]
    by_cases hchain : ∀ g ∈ groups, g.IsChain GluesWell
    · have hgroup : ¬ group.IsChain GluesWell :=
        fun h => hbad (List.forall_mem_cons.mpr ⟨h, hchain⟩)
      obtain ⟨f, hf, hmisread⟩ := misread_of_group
        (fun f hf => hsingle f (List.mem_append_left _ hf)) hfirst (hos group List.mem_cons_self) hgroup
      refine ⟨f, List.mem_append_left _ hf, hmisread.append_right (fun e he => ?_)⟩
      obtain ⟨g, hg, he⟩ := List.mem_flatMap.mp he
      rw [probeFields_group (hchain g hg)] at he
      obtain ⟨f', hf', hkey⟩ := key_of_mem_fields
        (fun f hf => hrest f (List.mem_flatten.mpr ⟨g, hg, hf⟩)) he
      rw [hkey]
      intro heq
      refine hdisjoint (List.mem_map_of_mem hf) ?_
      rw [← key_text_injective heq]
      exact List.mem_map_of_mem (List.mem_flatten.mpr ⟨g, hg, hf'⟩)
    · obtain ⟨f, hf, hmisread⟩ := ih hrest hothers
        (fun g hg => hos g (List.mem_cons_of_mem group hg)) hchain
      exact ⟨f, List.mem_append_right _ hf, hmisread.append_left _⟩

/-! ### `OS` -/

/-- The keys on a line are that of its first field, and longer ones than `OS`. -/
theorem key_of_mem_group {e : Str × Str} (hsingle : ∀ g ∈ f :: group, NoBreak g.value)
    (he : e ∈ probeFields (groupText (f :: group))) : e.1 = f.key.text ∨ 3 ≤ e.1.length := by
  rw [probeFields_of_noBreak (noBreak_groupText hsingle)] at he
  obtain ⟨q, hq, he⟩ := List.mem_filterMap.mp he
  obtain ⟨p, pieces, hcuts⟩ := exists_cuts isFieldLetter startsField false (groupText (f :: group))
  obtain ⟨hp, hpieces⟩ := prefix_of_mem_cuts hcuts
  rw [splitGlued, hcuts] at hq
  rcases List.mem_cons.mp hq with rfl | hq
  · have hline : groupText (f :: group) = f.key.text ++ '=' :: (f.value ++ groupText group) := by
      rw [groupText, List.flatMap_cons, ProbeField.text, List.append_assoc]
      rfl
    rw [hline] at hp
    rcases prefix_separator hp with hshort | ⟨u, rfl, -⟩
    · rw [fieldOf_of_not_mem (fun hmem => not_mem_key (hshort.subset hmem))] at he
      cases he
    · rw [fieldOf_key] at he
      obtain rfl := Option.some.inj he
      exact .inl rfl
  · obtain ⟨t, ht, hprefix⟩ := hpieces q hq
    exact .inr (fieldOf_of_isPrefix ht hprefix he).2

theorem ne_os_of_mem_glued {o : ProbeOutput} (hsingle : o.SingleLines) {line : List ProbeField}
    (hline : line ∈ o.groups) (hf : f ∈ line.tail) (hos : f.key = .os) :
    ∀ e ∈ probeFields o.glued, e.1 ≠ ProbeKey.os.text := by
  intro e he hkey
  rw [probeFields_printed] at he
  obtain ⟨other, hother, he⟩ := List.mem_flatMap.mp he
  cases other with
  | nil => cases he
  | cons first fields =>
    have hfirst : first.key = .os := by
      rcases key_of_mem_group (fun g hg => hsingle g (List.mem_flatten.mpr ⟨_, hother, hg⟩)) he with
        heq | hlength
      · exact key_text_injective (heq.symm.trans hkey)
      · rw [hkey] at hlength
        exact absurd hlength (by decide)
    have hdistinct := o.distinct
    obtain ⟨before, after, hgroups⟩ := List.append_of_mem hother
    rw [hgroups] at hline hdistinct
    rw [List.flatten_append, List.flatten_cons, List.cons_append, List.map_append, List.map_cons,
      List.nodup_middle, List.nodup_cons] at hdistinct
    refine hdistinct.1 ?_
    rw [hfirst, ← hos, ← List.map_append]
    apply List.mem_map_of_mem
    rcases List.mem_append.mp hline with hline | hline
    · exact List.mem_append_left _ (List.mem_flatten.mpr ⟨line, hline, List.mem_of_mem_tail hf⟩)
    · rcases List.mem_cons.mp hline with rfl | hline
      · exact List.mem_append_right _ (List.mem_append_left _ hf)
      · exact List.mem_append_right _ (List.mem_append_right _
          (List.mem_flatten.mpr ⟨line, hline, List.mem_of_mem_tail hf⟩))

end Loss

/-! ## The dictionaries -/

section Dictionaries

variable {f : ProbeField} {o : ProbeOutput}

theorem get?_of_last {fields before after : List (Str × Str)} {key value : Str}
    (hfields : fields = before ++ (key, value) :: after) (hafter : ∀ e ∈ after, e.1 ≠ key) :
    (fields.foldl (fun d e => d.set e.1 e.2) (Dict.empty : Dict Str Str)).get? key = some value := by
  have hnone : after.filter (fun e => e.1 = key) = [] :=
    List.filter_eq_nil_iff.mpr (fun e he => by simp [hafter e he])
  rw [Dict.get?_foldl_set, hfields, List.filter_append, List.filter_cons_of_pos (by simp), hnone,
    List.getLast?_concat]
  rfl

theorem get?_separated (hsingle : o.SingleLines) (hf : f ∈ o.groups.flatten) :
    (parseLines o.separated).get? f.key.text = some (strip f.value) := by
  have hfields : probeFields o.separated =
      o.groups.flatten.map (fun f => (f.key.text, strip f.value)) := by
    rw [probeFields_separated, List.flatten_eq_flatMap, List.map_flatMap]
    refine List.flatMap_congr (fun group hgroup => ?_)
    rw [id, List.map_eq_flatMap]
    exact List.flatMap_congr (fun f hf =>
      probeFields_text (hsingle f (List.mem_flatten.mpr ⟨group, hgroup, hf⟩)))
  obtain ⟨before, after, hsplit⟩ := List.append_of_mem hf
  have hdistinct := o.distinct
  rw [hsplit, List.map_append, List.map_cons, List.nodup_middle, List.nodup_cons] at hdistinct
  rw [hsplit, List.map_append, List.map_cons] at hfields
  refine get?_of_last hfields (fun e he => ?_)
  obtain ⟨g, hg, rfl⟩ := List.mem_map.mp he
  intro heq
  refine hdistinct.1 ?_
  rw [← key_text_injective heq]
  exact List.mem_append_right _ (List.mem_map_of_mem hg)

theorem recovers_of_readAlike (hsingle : o.SingleLines) (h : o.ReadAlike) : o.Recovers := by
  by_contra hbad
  by_cases hos : ∀ group ∈ o.groups, ∀ f ∈ group.tail, f.key ≠ .os
  · obtain ⟨f, hf, before, value, after, hfields, hne, hafter⟩ :=
      misread_of_groups hsingle o.distinct hos hbad
    rw [← probeFields_printed] at hfields
    have hkey := h f.key.text
    rw [get?_separated hsingle hf, parseLines, get?_of_last hfields hafter] at hkey
    exact hne (Option.some.inj hkey)
  · push Not at hos
    obtain ⟨group, hgroup, f, hf, hkey⟩ := hos
    have hmissing := ne_os_of_mem_glued hsingle hgroup hf hkey
    have hmem : f ∈ o.groups.flatten :=
      List.mem_flatten.mpr ⟨group, hgroup, List.mem_of_mem_tail hf⟩
    have hnone : (parseLines o.glued).get? f.key.text = none := by
      have hfilter : (probeFields o.glued).filter (fun e => e.1 = f.key.text) = [] :=
        List.filter_eq_nil_iff.mpr (fun e he => by
          rw [hkey]
          simp [hmissing e he])
      rw [parseLines, Dict.get?_foldl_set, hfilter]
      rfl
    have hread := h f.key.text
    rw [hnone, get?_separated hsingle hmem] at hread
    cases hread

end Dictionaries

/-- Missing newlines are made good if the fields around them glue well, and for
values of single lines only then. -/
theorem readAlike_iff_recovers (o : ProbeOutput) :
    (o.Recovers → o.ReadAlike) ∧ (o.SingleLines → o.ReadAlike → o.Recovers) :=
  ⟨readAlike_of_recovers, recovers_of_readAlike⟩

theorem noName_of_tails {value : Str} (h : ∀ t ∈ value.tails, startsField t = false) :
    ∀ t, t <:+ value → startsField t = false :=
  fun t ht => h t ((List.mem_tails t value).mpr ht)

theorem ends_of_last {value : Str} (h : value.getLast?.all (fun c => !isFieldLetter c) = true) :
    ∀ c ∈ value.getLast?, isFieldLetter c = false := by
  intro c hc
  rw [Option.mem_def.mp hc] at h
  simpa using h

/-- A host name, and the system on the same line. -/
def gluedOs : ProbeOutput where
  groups := [[
    { key := .hostname
      value := "pve1"
      line := by decide
      noName := noName_of_tails (by decide)
      ends := ends_of_last (by decide) },
    { key := .os
      value := "Debian"
      line := by decide
      noName := noName_of_tails (by decide)
      ends := ends_of_last (by decide) }]]
  distinct := by decide

/-- The key `OS` is not found behind the host name. -/
theorem glued_os_lost : ¬ ∀ o : ProbeOutput, o.ReadAlike := by
  intro h
  exact absurd (h gluedOs "OS") (by decide)

end PveZfsTool
