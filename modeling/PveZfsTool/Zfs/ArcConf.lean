import PveZfsTool.Zfs.ArcLimit
import PveZfsTool.Lib.Numbers
import PveZfsTool.Lib.Trimmed

/-!
# Building `zfs.conf` and reading it back

`build_arc_conf` drops the parameters of all ZFS lines into one dictionary and
writes them as one line behind the other lines.  `parse_arc_conf` reads that
line back (`parse_build`), and a second build changes nothing (`build_build`).

What counts as a ZFS line is decided by the first eleven characters and not by
the first two words, and a parameter is a word with an equals sign.
`PlainOptions` says when this makes no difference
(`buildsFaithfully_iff`).
-/

namespace PveZfsTool

open Text

/-! ## `parse_arc_conf` -/

/-- The characters of `str.isdigit` that are no decimal digits: superscripts,
subscripts and numbers in circles or brackets. -/
def digitRanges : List (Nat × Nat) :=
  [(0xB2, 0xB3), (0xB9, 0xB9), (0x1369, 0x1371), (0x19DA, 0x19DA), (0x2070, 0x2070),
    (0x2074, 0x2079), (0x2080, 0x2089), (0x2460, 0x2468), (0x2474, 0x247C), (0x2488, 0x2490),
    (0x24EA, 0x24EA), (0x24F5, 0x24FD), (0x24FF, 0x24FF), (0x2776, 0x277E), (0x2780, 0x2788),
    (0x278A, 0x2792), (0x10A40, 0x10A43), (0x10E60, 0x10E68), (0x11052, 0x1105A),
    (0x1F100, 0x1F10A)]

/-- `str.isdigit` of one character -/
def isDigit (c : Char) : Bool :=
  isDecimal c || digitRanges.any (fun r => decide (r.1 ≤ c.toNat) && decide (c.toNat ≤ r.2))

/-- `int(v) if v.isdigit() else None` -/
def digitInt (v : Str) : Except Exn (Option Int) :=
  if v ≠ [] ∧ v.all isDigit = true then
    match toInt? v with
    | some n => .ok (some n)
    | none => .error (.invalidInt v)
  else .ok none

/-- The dictionary that `parse_arc_conf` returns. -/
structure ArcConf where
  arcMax : Option Int
  arcMin : Option Int
  deriving DecidableEq

/-- `parse_arc_conf` -/
def parseArcConf (text : Str) : Except Exn ArcConf := do
  let (params, _) := collectZfsParams text
  let arcMax ← digitInt ((params.get? "zfs_arc_max").getD [])
  let arcMin ← digitInt ((params.get? "zfs_arc_min").getD [])
  return { arcMax := arcMax, arcMin := arcMin }

/-! ## A limit -/

/-- A limit that the builder accepts: none, zero to remove it, or a number that
`str` can write. -/
structure ArcSetting where
  value : Option Int
  valid : ∀ n ∈ value, 0 ≤ n ∧ (ofInt n).length ≤ 4300

/-- What is left of the limit in the file. -/
def ArcSetting.effective (limit : ArcSetting) : Option Int := limit.value.filter (0 < ·)

/-- The entry of a limit in the file. -/
def limitEntry (key : Str) : Option Int → List (Str × Str)
  | none => []
  | some n => if 0 < n then [(key, ofInt n)] else []

theorem setLimit_entries {params : ZfsParams} {key : Str} {n : Option Int} (h : key ∉ params.keys) :
    (setLimit params key n).entries = params.entries ++ limitEntry key n := by
  cases n with
  | none => exact (List.append_nil _).symm
  | some n =>
    rw [setLimit, limitEntry]
    split_ifs
    · exact Dict.entries_set_of_not_mem h
    · exact (List.append_nil _).symm

theorem mem_limitEntry {key : Str} {n : Option Int} {e : Str × Str} (h : e ∈ limitEntry key n) :
    ∃ m : Nat, n = some (m : Int) ∧ 0 < m ∧ e = (key, ofNat m) := by
  cases n with
  | none => cases h
  | some n =>
    rw [limitEntry] at h
    split_ifs at h with hn
    · obtain ⟨m, rfl⟩ := Int.eq_ofNat_of_zero_le (Int.le_of_lt hn)
      exact ⟨m, rfl, by omega, List.mem_singleton.mp h⟩
    · cases h

theorem isDigit_of_mem_ofNat {n : Nat} {c : Char} (h : c ∈ ofNat n) : isDigit c = true := by
  rw [isDigit, isDecimal_of_isAsciiDigit (isAsciiDigit_of_mem_ofNat h), Bool.true_or]

theorem digitInt_ofNat {n : Nat} (h : (ofNat n).length ≤ 4300) :
    digitInt (ofNat n) = .ok (some (n : Int)) := by
  have hall : (ofNat n).all isDigit = true :=
    List.all_eq_true.mpr (fun c hc => isDigit_of_mem_ofNat hc)
  rw [digitInt, if_pos ⟨isWordText_ofNat.nonempty, hall⟩, toInt?_ofNat h]

/-! ## The parameters of a file -/

/-- The words on the lines that the code takes for ZFS lines. -/
def optionWords (text : Str) : List Str :=
  ((splitLines text).filter isOptionsLine).flatMap (fun l => splitWords ((strip l).drop 11))

/-- The parameters are set word by word. -/
theorem collectZfsParams_params {text : Str} :
    (collectZfsParams text).1 =
      ((optionWords text).filterMap paramOf).foldl (fun d e => d.set e.1 e.2) Dict.empty := by
  rw [optionWords, List.filterMap_flatMap, List.foldl_flatMap]
  rfl

theorem paramOf_eq_some {w : Str} {e : Str × Str} (h : paramOf w = some e) :
    '=' ∈ w ∧ e = (beforeFirst '=' w, afterFirst '=' w) := by
  rw [paramOf] at h
  split_ifs at h with hw
  exact ⟨hw, (Option.some.inj h).symm⟩

/-- The entry can be written as one word and read back. -/
structure IsParam (e : Str × Str) : Prop where
  name : '=' ∉ e.1
  namePlain : ∀ c ∈ e.1, isSpace c = false
  valuePlain : ∀ c ∈ e.2, isSpace c = false

/-- The word of an entry. -/
def paramWord (e : Str × Str) : Str := e.1 ++ '=' :: e.2

theorem IsParam.isWordText {e : Str × Str} (h : IsParam e) : IsWordText (paramWord e) := by
  refine ⟨by simp [paramWord], fun c hc => ?_⟩
  rw [paramWord, List.mem_append, List.mem_cons] at hc
  rcases hc with hc | rfl | hc
  · exact h.namePlain c hc
  · decide
  · exact h.valuePlain c hc

theorem IsParam.paramOf_paramWord {e : Str × Str} (h : IsParam e) :
    paramOf (paramWord e) = some e := by
  have hmem : '=' ∈ paramWord e := by simp [paramWord]
  rw [paramOf, if_pos hmem, paramWord, beforeFirst_append h.name, afterFirst_append h.name]

theorem beforeFirst_append_afterFirst {sep : Char} {w : Str} (h : sep ∈ w) :
    beforeFirst sep w ++ sep :: afterFirst sep w = w := by
  obtain ⟨a, b, rfl, ha⟩ := List.eq_append_cons_of_mem h
  rw [beforeFirst_append ha, afterFirst_append ha]

theorem isParam_of_paramOf {w : Str} {e : Str × Str} (hw : IsWordText w) (h : paramOf w = some e) :
    IsParam e := by
  obtain ⟨hmem, rfl⟩ := paramOf_eq_some h
  have hjoin := beforeFirst_append_afterFirst hmem
  refine ⟨not_mem_beforeFirst '=' w, fun c hc => hw.plain c ?_, fun c hc => hw.plain c ?_⟩
  · rw [← hjoin]
    exact List.mem_append_left _ hc
  · rw [← hjoin]
    exact List.mem_append_right _ (List.mem_cons_of_mem _ hc)

/-- Entries as they stand in a dictionary of parameters. -/
structure Writable (es : List (Str × Str)) : Prop where
  distinct : (es.map Prod.fst).Nodup
  params : ∀ e ∈ es, IsParam e

theorem writable_collect (text : Str) : Writable (collectZfsParams text).1.entries := by
  refine ⟨(collectZfsParams text).1.distinct, fun e he => ?_⟩
  have hget := Dict.mem_entries.mp he
  rw [collectZfsParams_params, Dict.get?_foldl_set, Dict.get?_empty, Option.or_none,
    Option.map_eq_some_iff] at hget
  obtain ⟨p, hp, hvalue⟩ := hget
  obtain ⟨hmem, hname⟩ := List.mem_filter.mp (List.mem_of_getLast? hp)
  have hpe : p = e := Prod.ext (by simpa using hname) hvalue
  obtain ⟨w, hw, hparam⟩ := List.mem_filterMap.mp (hpe ▸ hmem)
  obtain ⟨line, -, hword⟩ := List.mem_flatMap.mp hw
  exact isParam_of_paramOf (isWordText_of_mem_splitWords hword) hparam

/-! ## The text that is built -/

/-- The entries without that of a key. -/
def withoutKey (key : Str) (es : List (Str × Str)) : List (Str × Str) :=
  es.filter (fun e => e.1 ≠ key)

/-- The entries without those of the two limits. -/
def otherEntries (es : List (Str × Str)) : List (Str × Str) :=
  withoutKey "zfs_arc_min" (withoutKey "zfs_arc_max" es)

/-- The entries that the builder writes. -/
def builtEntries (es : List (Str × Str)) (arcMax arcMin : Option Int) : List (Str × Str) :=
  otherEntries es ++ limitEntry "zfs_arc_max" arcMax ++ limitEntry "zfs_arc_min" arcMin

/-- The one line of `options zfs`. -/
def optionLine (es : List (Str × Str)) : Str :=
  ("options zfs " : Str) ++ join [' '] (es.map paramWord)

/-- The lines that the builder joins. -/
def confLines (other : List Str) (es : List (Str × Str)) : List Str :=
  if es = [] then other else other ++ [optionLine es]

theorem mem_otherEntries {es : List (Str × Str)} {e : Str × Str} :
    e ∈ otherEntries es ↔ e ∈ es ∧ e.1 ≠ "zfs_arc_max" ∧ e.1 ≠ "zfs_arc_min" := by
  simp only [otherEntries, withoutKey, List.mem_filter, decide_eq_true_eq, and_assoc]

theorem name_of_mem_limitEntry {key : Str} {n : Option Int} {e : Str × Str}
    (h : e ∈ limitEntry key n) : e.1 = key := by
  obtain ⟨m, -, -, rfl⟩ := mem_limitEntry h
  rfl

theorem arcMax_ne_arcMin : ("zfs_arc_max" : Str) ≠ "zfs_arc_min" := by decide

/-- The builder joins the other lines and the option line and strips the text. -/
theorem buildArcConf_eq {text : Str} {arcMax arcMin : Option Int} :
    buildArcConf text arcMax arcMin = unlines (trim (confLines (collectZfsParams text).2
      (builtEntries (collectZfsParams text).1.entries arcMax arcMin))) := by
  have hmax : ("zfs_arc_max" : Str) ∉
      (popParam (popParam (collectZfsParams text).1 "zfs_arc_max") "zfs_arc_min").keys := by
    intro h
    obtain ⟨e, he, hname⟩ := List.mem_map.mp h
    exact (mem_otherEntries.mp he).2.1 hname
  have hentriesMax := setLimit_entries (n := arcMax) hmax
  have hmin : ("zfs_arc_min" : Str) ∉ (setLimit
      (popParam (popParam (collectZfsParams text).1 "zfs_arc_max") "zfs_arc_min")
      "zfs_arc_max" arcMax).keys := by
    intro h
    rw [Dict.keys, hentriesMax] at h
    obtain ⟨e, he, hname⟩ := List.mem_map.mp h
    rcases List.mem_append.mp he with he | he
    · exact (mem_otherEntries.mp he).2.2 hname
    · exact arcMax_ne_arcMin ((name_of_mem_limitEntry he).symm.trans hname)
  have hentries := setLimit_entries (n := arcMin) hmin
  rw [hentriesMax] at hentries
  rw [← strip_join_newline, confLines, builtEntries]
  unfold buildArcConf
  simp only [hentries]
  rfl

/-! ## Reading the built text -/

section OptionLine

variable {es : List (Str × Str)}

theorem Writable.isWordText (h : Writable es) : ∀ w ∈ es.map paramWord, IsWordText w := by
  intro w hw
  obtain ⟨e, he, rfl⟩ := List.mem_map.mp hw
  exact (h.params e he).isWordText

theorem Writable.filterMap_paramOf (h : Writable es) :
    (es.map paramWord).filterMap paramOf = es := by
  have hparams := h.params
  clear h
  induction es with
  | nil => rfl
  | cons e es ih =>
    rw [List.map_cons, List.filterMap_cons_some
      (hparams e List.mem_cons_self).paramOf_paramWord,
      ih (fun e he => hparams e (List.mem_cons_of_mem _ he))]

theorem isWordText_options : IsWordText ("options" : Str) := ⟨by decide, by decide⟩

theorem isWordText_zfs : IsWordText ("zfs" : Str) := ⟨by decide, by decide⟩

theorem spaced_append {a b s : Str} : a ++ ' ' :: (b ++ [' ']) ++ s = a ++ ' ' :: (b ++ ' ' :: s) := by
  simp

theorem optionLine_eq : optionLine es =
    ("options" : Str) ++ ' ' :: (("zfs" : Str) ++ ' ' :: join [' '] (es.map paramWord)) := by
  have hkeywords : ("options zfs " : Str) = ("options" : Str) ++ ' ' :: (("zfs" : Str) ++ [' ']) := by
    decide
  exact (congrArg (· ++ join [' '] (es.map paramWord)) hkeywords).trans spaced_append

theorem splitWords_optionLine (h : Writable es) :
    splitWords (optionLine es) = ("options" : Str) :: ("zfs" : Str) :: es.map paramWord := by
  rw [optionLine_eq, splitWords_word isWordText_options (by decide),
    splitWords_word isWordText_zfs (by decide), splitWords_join h.isWordText]

theorem lstrip_optionLine : lstrip (optionLine es) = optionLine es := by
  rw [optionLine_eq, isWordText_options.lstrip_append]

theorem rstrip_optionLine (h : Writable es) (hne : es ≠ []) :
    rstrip (optionLine es) = optionLine es := by
  obtain ⟨front, w, hw, hjoin⟩ := exists_join_eq (es.map paramWord) (by simpa using hne)
  have hline : optionLine es = ("options zfs " ++ front) ++ w :=
    (congrArg (("options zfs " : Str) ++ ·) hjoin).trans (List.append_assoc _ _ _).symm
  rw [hline, (h.isWordText w hw).rstrip_append]

theorem strip_optionLine (h : Writable es) (hne : es ≠ []) : strip (optionLine es) = optionLine es := by
  rw [strip, lstrip_optionLine, rstrip_optionLine h hne]

theorem optionLine_eq_append :
    optionLine es = ("options zfs" : Str) ++ ' ' :: join [' '] (es.map paramWord) := by
  have hkeyword : ("options zfs " : Str) = ("options zfs" : Str) ++ [' '] := by decide
  exact (congrArg (· ++ join [' '] (es.map paramWord)) hkeyword).trans (List.append_assoc _ _ _)

theorem drop_keywords {rest : Str} : (("options zfs" : Str) ++ rest).drop 11 = rest :=
  List.drop_left' (by decide)

theorem isOptionsLine_optionLine (h : Writable es) (hne : es ≠ []) :
    isOptionsLine (optionLine es) = true := by
  rw [isOptionsLine, strip_optionLine h hne, startsWith, List.isPrefixOf_iff_prefix,
    optionLine_eq_append]
  exact List.prefix_append _ _

theorem noBreak_optionLine (h : Writable es) : NoBreak (optionLine es) := by
  exact noBreak_append_iff.mpr ⟨by decide, noBreak_join h.isWordText⟩

end OptionLine

/-! ## The round trip -/

section RoundTrip

variable {text : Str} {other : List Str} {es : List (Str × Str)} {arcMax arcMin : Option Int}

/-- The lines are none that the code takes for ZFS lines. -/
structure OtherLines (other : List Str) : Prop where
  noBreak : ∀ l ∈ other, NoBreak l
  notOptions : ∀ l ∈ other, isOptionsLine l = false

theorem otherLines_collect (text : Str) : OtherLines (collectZfsParams text).2 := by
  refine ⟨fun l hl => ?_, fun l hl => ?_⟩
  · exact noBreak_of_mem_splitLines (List.mem_filter.mp hl).1
  · simpa using (List.mem_filter.mp hl).2

theorem isOptionsLine_congr {l m : Str} (h : strip l = strip m) :
    isOptionsLine l = isOptionsLine m := by
  rw [isOptionsLine, isOptionsLine, h]

theorem OtherLines.trimFront (h : OtherLines other) : OtherLines (trimFront other) := by
  refine ⟨fun l hl => ?_, fun l hl => ?_⟩
  · obtain ⟨m, hm, hlm⟩ := mem_trimFront hl
    rcases hlm with rfl | rfl
    · exact h.noBreak l hm
    · exact fun c hc => h.noBreak m hm c (mem_of_mem_lstrip hc)
  · obtain ⟨m, hm, hlm⟩ := mem_trimFront hl
    rcases hlm with rfl | rfl
    · exact h.notOptions l hm
    · rw [isOptionsLine_congr (strip_lstrip m)]
      exact h.notOptions m hm

theorem OtherLines.trim (h : OtherLines other) : OtherLines (trim other) := by
  refine ⟨noBreak_of_mem_trim h.noBreak, fun l hl => ?_⟩
  obtain ⟨m, hm, hstrip, -⟩ := mem_trim hl
  rw [isOptionsLine_congr hstrip]
  exact h.notOptions m hm

/-- The other lines as they stand in the built text. -/
def builtOthers (other : List Str) (es : List (Str × Str)) : List Str :=
  if es = [] then trim other else trimFront other

theorem trim_confLines (h : Writable es) :
    trim (confLines other es) = confLines (builtOthers other es) es := by
  rw [confLines, confLines, builtOthers]
  split_ifs with hes
  · rfl
  · have hne : optionLine es ≠ [] := by
      rw [optionLine_eq]
      exact List.append_ne_nil_of_left_ne_nil isWordText_options.nonempty _
    exact trim_append_last hne lstrip_optionLine (rstrip_optionLine h hes)

theorem OtherLines.builtOthers (h : OtherLines other) : OtherLines (builtOthers other es) := by
  rw [PveZfsTool.builtOthers]
  split_ifs
  · exact h.trim
  · exact h.trimFront

/-- The lines of the built text. -/
theorem splitLines_built (hother : OtherLines other) (hes : Writable es) :
    splitLines (unlines (trim (confLines other es))) = confLines (builtOthers other es) es := by
  have hbreak : ∀ l ∈ confLines other es, NoBreak l := by
    intro l hl
    rw [confLines] at hl
    split_ifs at hl
    · exact hother.noBreak l hl
    · rcases List.mem_append.mp hl with hl | hl
      · exact hother.noBreak l hl
      · rw [List.mem_singleton.mp hl]
        exact noBreak_optionLine hes
  rw [splitLines_unlines_trim hbreak, trim_confLines hes]

theorem filter_isOptionsLine (hother : OtherLines other) (hes : Writable es) :
    (confLines other es).filter isOptionsLine = if es = [] then [] else [optionLine es] := by
  have hnone : other.filter isOptionsLine = [] :=
    List.filter_eq_nil_iff.mpr (fun l hl => by simp [hother.notOptions l hl])
  rw [confLines]
  split_ifs with hne
  · exact hnone
  · rw [List.filter_append, hnone, List.filter_cons_of_pos (isOptionsLine_optionLine hes hne)]
    rfl

theorem filter_not_isOptionsLine (hother : OtherLines other) (hes : Writable es) :
    (confLines other es).filter (fun l => !isOptionsLine l) = other := by
  have hall : other.filter (fun l => !isOptionsLine l) = other :=
    List.filter_eq_self.mpr (fun l hl => by simp [hother.notOptions l hl])
  rw [confLines]
  split_ifs with hne
  · exact hall
  · rw [List.filter_append, hall, List.filter_cons_of_neg
      (by simp [isOptionsLine_optionLine hes hne]), List.filter_nil, List.append_nil]

theorem optionWords_built (hother : OtherLines other) (hes : Writable es) :
    optionWords (unlines (trim (confLines other es))) = es.map paramWord := by
  rw [optionWords, splitLines_built hother hes, filter_isOptionsLine hother.builtOthers hes]
  split_ifs with hne
  · rw [hne]
    rfl
  · rw [List.flatMap_singleton, strip_optionLine hes hne, optionLine_eq_append, drop_keywords,
      splitWords_cons_space (by decide), splitWords_join hes.isWordText]

/-- The parameters of the built text are those that were written. -/
theorem entries_built (hother : OtherLines other) (hes : Writable es) :
    (collectZfsParams (unlines (trim (confLines other es)))).1.entries = es := by
  rw [collectZfsParams_params, optionWords_built hother hes, hes.filterMap_paramOf,
    Dict.entries_foldl_set]
  · rfl
  · exact hes.distinct

theorem lines_built (hother : OtherLines other) (hes : Writable es) :
    (collectZfsParams (unlines (trim (confLines other es)))).2 = builtOthers other es := by
  show (splitLines _).filter (fun l => !isOptionsLine l) = _
  rw [splitLines_built hother hes, filter_not_isOptionsLine hother.builtOthers hes]

theorem isParam_ofNat {key : Str} {m : Nat} (hname : '=' ∉ key)
    (hplain : ∀ c ∈ key, isSpace c = false) : IsParam (key, ofNat m) :=
  ⟨hname, hplain, isWordText_ofNat.plain⟩

theorem nodup_limitEntry {key : Str} {n : Option Int} :
    ((limitEntry key n).map Prod.fst).Nodup := by
  cases n with
  | none => exact List.nodup_nil
  | some n =>
    rw [limitEntry]
    split_ifs
    · exact List.nodup_singleton key
    · exact List.nodup_nil

theorem writable_built (arcMax arcMin : Option Int) (h : Writable es) : Writable (builtEntries es arcMax arcMin) := by
  have hother : ((otherEntries es).map Prod.fst).Nodup :=
    h.distinct.sublist ((List.filter_sublist.trans List.filter_sublist).map Prod.fst)
  refine ⟨?_, fun e he => ?_⟩
  · have hne : ∀ {key : Str} {n : Option Int} {k : Str},
        k ∈ (limitEntry key n).map Prod.fst → k = key := by
      intro key n k hk
      obtain ⟨e, he, rfl⟩ := List.mem_map.mp hk
      exact name_of_mem_limitEntry he
    rw [builtEntries, List.map_append, List.map_append]
    refine (hother.append nodup_limitEntry ?_).append nodup_limitEntry ?_
    · intro k hk hlimit
      obtain ⟨e, he, rfl⟩ := List.mem_map.mp hk
      exact (mem_otherEntries.mp he).2.1 (hne hlimit)
    · intro k hk hlimit
      rcases List.mem_append.mp hk with hk | hk
      · obtain ⟨e, he, rfl⟩ := List.mem_map.mp hk
        exact (mem_otherEntries.mp he).2.2 (hne hlimit)
      · exact arcMax_ne_arcMin ((hne hk).symm.trans (hne hlimit))
  · rcases List.mem_append.mp he with he | he
    · rcases List.mem_append.mp he with he | he
      · exact h.params e (mem_otherEntries.mp he).1
      · obtain ⟨m, -, -, rfl⟩ := mem_limitEntry he
        exact isParam_ofNat (by decide) (by decide)
    · obtain ⟨m, -, -, rfl⟩ := mem_limitEntry he
      exact isParam_ofNat (by decide) (by decide)

theorem otherEntries_append {ds : List (Str × Str)} :
    otherEntries (es ++ ds) = otherEntries es ++ otherEntries ds := by
  rw [otherEntries, withoutKey, withoutKey, List.filter_append, List.filter_append]
  rfl

theorem otherEntries_otherEntries : otherEntries (otherEntries es) = otherEntries es := by
  have hkept : ∀ e ∈ otherEntries es, e.1 ≠ "zfs_arc_max" ∧ e.1 ≠ "zfs_arc_min" :=
    fun e he => (mem_otherEntries.mp he).2
  generalize otherEntries es = kept at hkept ⊢
  have hmax : withoutKey "zfs_arc_max" kept = kept :=
    List.filter_eq_self.mpr (fun e he => decide_eq_true (hkept e he).1)
  rw [otherEntries, hmax]
  exact List.filter_eq_self.mpr (fun e he => decide_eq_true (hkept e he).2)

theorem otherEntries_limitEntry {key : Str} {n : Option Int}
    (hkey : key = "zfs_arc_max" ∨ key = "zfs_arc_min") : otherEntries (limitEntry key n) = [] := by
  apply List.eq_nil_iff_forall_not_mem.mpr
  intro e he
  obtain ⟨hmem, hmax, hmin⟩ := mem_otherEntries.mp he
  rw [name_of_mem_limitEntry hmem] at hmax hmin
  exact hkey.elim hmax hmin

/-- The limits are replaced by themselves. -/
theorem builtEntries_built :
    builtEntries (builtEntries es arcMax arcMin) arcMax arcMin = builtEntries es arcMax arcMin := by
  have hother : otherEntries (builtEntries es arcMax arcMin) = otherEntries es := by
    rw [builtEntries, otherEntries_append, otherEntries_append, otherEntries_otherEntries,
      otherEntries_limitEntry (.inl rfl), otherEntries_limitEntry (.inr rfl), List.append_nil,
      List.append_nil]
  rw [builtEntries, hother, builtEntries]

/-- What is built from the built text is the built text. -/
theorem build_build {arcMax arcMin : Option Int} :
    buildArcConf (buildArcConf text arcMax arcMin) arcMax arcMin = buildArcConf text arcMax arcMin := by
  have hother := otherLines_collect text
  have hes := writable_built arcMax arcMin (writable_collect text)
  have htext : buildArcConf text arcMax arcMin = _ := buildArcConf_eq
  rw [htext, buildArcConf_eq, entries_built hother hes, lines_built hother hes, builtEntries_built,
    ← trim_confLines hes, unlines_trim_trim]

theorem digitInt_limit (limit : ArcSetting) (key : Str) {params : ZfsParams}
    (h : ∀ e, e ∈ params.entries ∧ e.1 = key ↔ e ∈ limitEntry key limit.value) :
    digitInt ((params.get? key).getD []) = .ok limit.effective := by
  cases hget : params.get? key with
  | none =>
    have hnone : limit.effective = none := by
      apply Option.filter_eq_none_iff.mpr
      intro n hn hpos
      have hentry : (key, ofInt n) ∈ limitEntry key limit.value := by
        rw [Option.mem_def.mp hn, limitEntry, if_pos (by simpa using hpos)]
        exact List.mem_singleton_self _
      have hmem := Dict.mem_entries.mp ((h (key, ofInt n)).mpr hentry).1
      rw [hget] at hmem
      cases hmem
    rw [hnone]
    rfl
  | some v =>
    obtain ⟨m, hvalue, hpos, he⟩ :=
      mem_limitEntry ((h (key, v)).mp ⟨Dict.mem_entries.mpr hget, rfl⟩)
    obtain ⟨-, rfl⟩ := Prod.mk.inj he
    have hlength := (limit.valid m hvalue).2
    have heffective : limit.effective = some (m : Int) := by
      rw [ArcSetting.effective, hvalue, Option.filter_some, if_pos (by simpa using hpos)]
    rw [heffective]
    exact digitInt_ofNat hlength

theorem mem_builtEntries_arcMax {e : Str × Str} :
    e ∈ builtEntries es arcMax arcMin ∧ e.1 = "zfs_arc_max" ↔ e ∈ limitEntry "zfs_arc_max" arcMax := by
  rw [builtEntries, List.mem_append, List.mem_append]
  constructor
  · rintro ⟨(he | he) | he, hname⟩
    · exact absurd hname (mem_otherEntries.mp he).2.1
    · exact he
    · exact absurd (hname.symm.trans (name_of_mem_limitEntry he)) arcMax_ne_arcMin
  · intro he
    exact ⟨.inl (.inr he), name_of_mem_limitEntry he⟩

theorem mem_builtEntries_arcMin {e : Str × Str} :
    e ∈ builtEntries es arcMax arcMin ∧ e.1 = "zfs_arc_min" ↔ e ∈ limitEntry "zfs_arc_min" arcMin := by
  rw [builtEntries, List.mem_append, List.mem_append]
  constructor
  · rintro ⟨(he | he) | he, hname⟩
    · exact absurd hname (mem_otherEntries.mp he).2.2
    · exact absurd ((name_of_mem_limitEntry he).symm.trans hname) arcMax_ne_arcMin
    · exact he
  · intro he
    exact ⟨.inr he, name_of_mem_limitEntry he⟩

/-- The limits are read back from the built text. -/
theorem parse_build (max min : ArcSetting) :
    parseArcConf (buildArcConf text max.value min.value) =
      .ok { arcMax := max.effective, arcMin := min.effective } := by
  have hother := otherLines_collect text
  have hes := writable_built max.value min.value (writable_collect text)
  have hentries := entries_built hother hes
  rw [← buildArcConf_eq] at hentries
  have hmax := digitInt_limit max "zfs_arc_max"
    (fun e => by rw [hentries]; exact mem_builtEntries_arcMax)
  have hmin := digitInt_limit min "zfs_arc_min"
    (fun e => by rw [hentries]; exact mem_builtEntries_arcMin)
  unfold parseArcConf
  simp only [hmax, hmin]
  rfl

end RoundTrip

/-! ## What the builder is for -/

/-- The first two words of the line are `options` and `zfs`, as modprobe reads it. -/
def IsZfsOptions (line : Str) : Prop := (splitWords line).take 2 = [("options" : Str), ("zfs" : Str)]

instance (line : Str) : Decidable (IsZfsOptions line) :=
  inferInstanceAs (Decidable ((splitWords line).take 2 = _))

/-- The parameters of the module, as modprobe reads them. -/
def zfsWords (text : Str) : List Str :=
  ((splitLines text).filter (fun l => IsZfsOptions l)).flatMap (fun l => (splitWords l).drop 2)

/-- The last setting of a parameter, with its value if it has one. -/
def lastSetting (text name : Str) : Option Str :=
  ((zfsWords text).filter (fun w => beforeFirst '=' w = name)).getLast?

/-- The other lines, without the blank space around them. -/
def otherText (text : Str) : Str :=
  strip (join ['\n'] ((splitLines text).filter (fun l => ¬ IsZfsOptions l)))

/-- The builder sets the two limits and nothing else. -/
structure BuildsFaithfully (text : Str) (max min : ArcSetting) : Prop where
  parsed : parseArcConf (buildArcConf text max.value min.value) =
    .ok { arcMax := max.effective, arcMin := min.effective }
  optionLines : ∀ line ∈ splitLines text, isOptionsLine line = true ↔ IsZfsOptions line
  params : ∀ name : Str, name ≠ "zfs_arc_max" → name ≠ "zfs_arc_min" →
    lastSetting (buildArcConf text max.value min.value) name = lastSetting text name
  others : otherText (buildArcConf text max.value min.value) = otherText text
  twice : buildArcConf (buildArcConf text max.value min.value) max.value min.value =
    buildArcConf text max.value min.value

/-- Nothing but whitespace comes right after `options zfs`, and where these are
the first two words there is one space between them. -/
structure PlainLine (line : Str) : Prop where
  ends : ∀ c rest, strip line = ("options zfs" : Str) ++ c :: rest → isSpace c = true
  gap : ∀ gap rest, strip line = ("options" : Str) ++ gap ++ ("zfs" : Str) ++ rest → gap ≠ [] →
    (∀ c ∈ gap, isSpace c = true) → (∀ c ∈ rest.head?, isSpace c = true) → gap = [' ']

/-- The lines are plain, and the last setting of each other parameter has a value. -/
structure PlainOptions (text : Str) : Prop where
  lines : ∀ line ∈ splitLines text, PlainLine line
  values : ∀ name : Str, name ≠ "zfs_arc_max" → name ≠ "zfs_arc_min" →
    ∀ w ∈ lastSetting text name, '=' ∈ w

theorem keywords_eq : ("options zfs" : Str) = ("options" : Str) ++ ' ' :: ("zfs" : Str) := by decide

theorem plainLine_iff {line : Str} :
    (isOptionsLine line = true ↔ IsZfsOptions line) ↔ PlainLine line := by
  have hstart : isOptionsLine line = true ↔
      ("options" : Str) ++ ' ' :: ("zfs" : Str) <+: strip line := by
    rw [isOptionsLine, startsWith, List.isPrefixOf_iff_prefix, keywords_eq]
  have hwords : IsZfsOptions line ↔
      (splitWords (strip line)).take 2 = [("options" : Str), ("zfs" : Str)] := by
    rw [IsZfsOptions, splitWords_strip]
  rw [hstart, hwords, keywords_iff isWordText_options isWordText_zfs (lstrip_strip line)]
  constructor
  · rintro ⟨hends, hgap⟩
    rw [← keywords_eq] at hends
    exact ⟨hends, hgap⟩
  · rintro ⟨hends, hgap⟩
    rw [keywords_eq] at hends
    exact ⟨hends, hgap⟩

theorem isZfsOptions_congr {l m : Str} (h : strip l = strip m) : IsZfsOptions l ↔ IsZfsOptions m := by
  rw [IsZfsOptions, IsZfsOptions, ← splitWords_strip, h, splitWords_strip]

section Faithful

variable {text name : Str} {max min : ArcSetting} {arcMax arcMin : Option Int}

/-- The code and modprobe agree on the ZFS lines. -/
def OptionLinesAgree (text : Str) : Prop :=
  ∀ line ∈ splitLines text, isOptionsLine line = true ↔ IsZfsOptions line

theorem optionLinesAgree_iff : OptionLinesAgree text ↔ ∀ line ∈ splitLines text, PlainLine line := by
  simp only [OptionLinesAgree, plainLine_iff]

theorem words_of_optionsLine {line : Str} (hline : isOptionsLine line = true)
    (hplain : PlainLine line) : (splitWords line).drop 2 = splitWords ((strip line).drop 11) := by
  obtain ⟨rest, hrest⟩ := List.isPrefixOf_iff_prefix.mp hline
  have hhead : ∀ c ∈ rest.head?, isSpace c = true := by
    intro c hc
    cases rest with
    | nil => cases hc
    | cons d rest => exact Option.some.inj hc ▸ hplain.ends d rest hrest.symm
  have hsplit := take_splitWords_of_keywords [' '] isWordText_options isWordText_zfs
    (by decide) (by decide) hhead
  have hstrip : strip line = ("options" : Str) ++ ([' '] ++ (("zfs" : Str) ++ rest)) :=
    hrest.symm.trans ((congrArg (· ++ rest) keywords_eq).trans (List.append_assoc _ _ _))
  rw [← hrest, drop_keywords, ← splitWords_strip, hstrip, hsplit]
  rfl

theorem zfsWords_eq (h : OptionLinesAgree text) : zfsWords text = optionWords text := by
  have hfilter : (splitLines text).filter (fun l => IsZfsOptions l) =
      (splitLines text).filter isOptionsLine := by
    apply List.filter_congr
    intro l hl
    rw [Bool.eq_iff_iff, decide_eq_true_iff]
    exact (h l hl).symm
  rw [zfsWords, optionWords, hfilter]
  apply List.flatMap_congr
  intro l hl
  obtain ⟨hmem, hline⟩ := List.mem_filter.mp hl
  exact words_of_optionsLine hline (optionLinesAgree_iff.mp h l hmem)

theorem otherText_eq (h : OptionLinesAgree text) :
    otherText text = strip (join ['\n'] (collectZfsParams text).2) := by
  have hfilter : (splitLines text).filter (fun l => ¬ IsZfsOptions l) =
      (splitLines text).filter (fun l => !isOptionsLine l) := by
    apply List.filter_congr
    intro l hl
    rw [Bool.eq_iff_iff, decide_eq_true_iff, ← h l hl]
    simp
  rw [otherText, hfilter]
  rfl

theorem mem_builtOthers {other : List Str} {es : List (Str × Str)} {l : Str}
    (h : l ∈ builtOthers other es) : ∃ m ∈ other, strip l = strip m := by
  rw [builtOthers] at h
  split_ifs at h
  · obtain ⟨m, hm, hstrip, -⟩ := mem_trim h
    exact ⟨m, hm, hstrip⟩
  · obtain ⟨m, hm, hlm⟩ := mem_trimFront h
    rcases hlm with rfl | rfl
    · exact ⟨l, hm, rfl⟩
    · exact ⟨m, hm, strip_lstrip m⟩

/-- What was built keeps the agreement. -/
theorem optionLinesAgree_built (h : OptionLinesAgree text) :
    OptionLinesAgree (buildArcConf text arcMax arcMin) := by
  have hes := writable_built arcMax arcMin (writable_collect text)
  intro line hline
  rw [buildArcConf_eq, splitLines_built (otherLines_collect text) hes, confLines] at hline
  have hkept : ∀ l ∈ builtOthers (collectZfsParams text).2
      (builtEntries (collectZfsParams text).1.entries arcMax arcMin),
      isOptionsLine l = true ↔ IsZfsOptions l := by
    intro l hl
    obtain ⟨m, hm, hstrip⟩ := mem_builtOthers hl
    rw [isOptionsLine_congr hstrip, isZfsOptions_congr hstrip]
    exact h m (List.mem_filter.mp hm).1
  split_ifs at hline with hne
  · exact hkept line hline
  · rcases List.mem_append.mp hline with hline | hline
    · exact hkept line hline
    · rw [List.mem_singleton.mp hline, IsZfsOptions, splitWords_optionLine hes]
      exact iff_of_true (isOptionsLine_optionLine hes hne) rfl

theorem filter_filterMap_paramOf {words : List Str} :
    (words.filterMap paramOf).filter (fun e => e.1 = name) =
      (words.filter (fun w => beforeFirst '=' w = name)).filterMap paramOf := by
  induction words with
  | nil => rfl
  | cons w words ih =>
    rw [List.filter_cons, List.filterMap_cons]
    by_cases hw : '=' ∈ w
    · rw [paramOf, if_pos hw]
      simp only [List.filter_cons, decide_eq_true_eq, ih]
      split_ifs
      · rw [List.filterMap_cons, paramOf, if_pos hw]
      · rfl
    · rw [paramOf, if_neg hw]
      simp only [ih]
      split_ifs
      · rw [List.filterMap_cons, paramOf, if_neg hw]
      · rfl

/-- The dictionary holds the last settings, if these have values. -/
theorem lastSetting_eq (h : OptionLinesAgree text) (hvalue : ∀ w ∈ lastSetting text name, '=' ∈ w) :
    lastSetting text name =
      ((collectZfsParams text).1.get? name).map (fun v => paramWord (name, v)) := by
  rw [collectZfsParams_params, Dict.get?_foldl_set, filter_filterMap_paramOf, Dict.get?_empty,
    Option.or_none]
  rw [lastSetting, zfsWords_eq h] at hvalue ⊢
  obtain hnil | ⟨init, w, hwords⟩ := List.eq_nil_or_concat
    ((optionWords text).filter (fun w => beforeFirst '=' w = name))
  · rw [hnil]
    rfl
  · have hname : beforeFirst '=' w = name := by
      have hmem : w ∈ (optionWords text).filter (fun w => beforeFirst '=' w = name) := by
        rw [hwords]
        simp
      simpa using (List.mem_filter.mp hmem).2
    rw [hwords, List.concat_eq_append, List.getLast?_concat] at hvalue ⊢
    have hw := hvalue w rfl
    rw [List.filterMap_append, List.filterMap_cons_some (f := paramOf) (by rw [paramOf, if_pos hw]),
      List.filterMap_nil, List.getLast?_concat, Option.map_some, Option.map_some, ← hname]
    exact congrArg some (beforeFirst_append_afterFirst hw).symm

theorem mem_builtEntries_of_ne {es : List (Str × Str)} {e : Str × Str} (hmax : e.1 ≠ "zfs_arc_max")
    (hmin : e.1 ≠ "zfs_arc_min") : e ∈ builtEntries es arcMax arcMin ↔ e ∈ es := by
  rw [builtEntries, List.mem_append, List.mem_append, mem_otherEntries]
  constructor
  · rintro ((⟨he, -⟩ | he) | he)
    · exact he
    · exact absurd (name_of_mem_limitEntry he) hmax
    · exact absurd (name_of_mem_limitEntry he) hmin
  · intro he
    exact .inl (.inl ⟨he, hmax, hmin⟩)

/-- The other parameters stay in the dictionary. -/
theorem get?_built (hmax : name ≠ "zfs_arc_max") (hmin : name ≠ "zfs_arc_min") :
    (collectZfsParams (buildArcConf text arcMax arcMin)).1.get? name =
      (collectZfsParams text).1.get? name := by
  have hes := writable_built arcMax arcMin (writable_collect text)
  have hentries := entries_built (otherLines_collect text) hes
  rw [← buildArcConf_eq] at hentries
  ext v
  rw [← Dict.mem_entries, ← Dict.mem_entries, hentries]
  exact mem_builtEntries_of_ne hmax hmin

theorem mem_of_mem_zfsWords_built (h : OptionLinesAgree text) {w : Str}
    (hw : w ∈ zfsWords (buildArcConf text arcMax arcMin)) : '=' ∈ w := by
  have hes := writable_built arcMax arcMin (writable_collect text)
  rw [zfsWords_eq (optionLinesAgree_built h), buildArcConf_eq,
    optionWords_built (otherLines_collect text) hes] at hw
  obtain ⟨e, -, rfl⟩ := List.mem_map.mp hw
  simp [paramWord]

theorem mem_of_lastSetting_built (h : OptionLinesAgree text) {w : Str}
    (hw : w ∈ lastSetting (buildArcConf text arcMax arcMin) name) : '=' ∈ w :=
  mem_of_mem_zfsWords_built h (List.mem_filter.mp (List.mem_of_getLast? hw)).1

theorem strip_join_builtOthers {other : List Str} {es : List (Str × Str)} :
    strip (join ['\n'] (builtOthers other es)) = strip (join ['\n'] other) := by
  rw [builtOthers]
  split_ifs
  · rw [join_trim, strip_strip]
  · rw [join_trimFront, strip_lstrip]

theorem otherText_built (h : OptionLinesAgree text) :
    otherText (buildArcConf text arcMax arcMin) = otherText text := by
  have hes := writable_built arcMax arcMin (writable_collect text)
  have hlines := lines_built (otherLines_collect text) hes
  rw [← buildArcConf_eq] at hlines
  rw [otherText_eq h, otherText_eq (optionLinesAgree_built h), hlines, strip_join_builtOthers]

end Faithful

/-- The builder is faithful exactly to files of plain options. -/
theorem buildsFaithfully_iff (text : Str) (max min : ArcSetting) :
    BuildsFaithfully text max min ↔ PlainOptions text := by
  constructor
  · intro h
    refine ⟨optionLinesAgree_iff.mp h.optionLines, fun name hmax hmin w hw => ?_⟩
    rw [← h.params name hmax hmin] at hw
    exact mem_of_lastSetting_built h.optionLines hw
  · intro h
    have hagree : OptionLinesAgree text := optionLinesAgree_iff.mpr h.lines
    refine ⟨parse_build max min, hagree, fun name hmax hmin => ?_, otherText_built hagree, build_build⟩
    rw [lastSetting_eq hagree (h.values name hmax hmin), lastSetting_eq (optionLinesAgree_built hagree)
      (fun w hw => mem_of_lastSetting_built hagree hw), get?_built hmax hmin]

/-- The options of a module whose name starts with `zfs` are taken for ZFS
options. -/
theorem foreign_module_taken : ¬ ∀ (text : Str) (max min : ArcSetting), BuildsFaithfully text max min := by
  intro h
  have hlines := (h "options zfs_extra debug=1\n" ⟨none, by simp⟩ ⟨none, by simp⟩).optionLines
    "options zfs_extra debug=1" (by decide)
  exact absurd (hlines.mp (by decide)) (by decide)

end PveZfsTool
