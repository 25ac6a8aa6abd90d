import PveZfsTool.Replication.ConfigFile
import PveZfsTool.Lib.LineFile

/-!
# Writing a config and reading it back

`_serialize_config` writes every value in double quotes and puts a backslash
before the characters that a shell treats specially there.  `_parse_config`
takes the quotes off and leaves the backslashes.

`Settings` is a mapping that can be saved, and `savedText` is the text of a
file after it is saved over an earlier text.

* `parseLine_kvLine`: the reader takes the line of a value for the escaped
  value.
* `get?_savedText`: so it does for a whole file, whatever the file had before.
* `config_roundTrip_iff`: a mapping comes back, and saving it again changes
  nothing, when and only when its values have no character that is escaped or
  that ends a line.
-/

namespace PveZfsTool.Replication

open Dialogue Text

/-! ## Mappings that can be saved -/

/-- `[A-Za-z_][A-Za-z0-9_]*` -/
def isShellName : Str → Bool
  | [] => false
  | c :: s => (isAsciiAlpha c || c == '_') && s.all isWord

/-- A mapping of shell names.  No name is in it twice. -/
structure Settings where
  values : Values
  names : ∀ e ∈ values, isShellName e.1 = true
  distinct : (values.map Prod.fst).Nodup

/-- `_escape` puts a backslash before the character. -/
def isEscaped (c : Char) : Bool := c == '\\' || c == '"' || c == '$' || c == '`'

/-- The value has no character that is escaped, and none that ends a line. -/
def isPlainValue (v : Str) : Bool := v.all (fun c => !isEscaped c && !isLineBreak c)

/-- The text of a file after the values are saved over the text `prior`. -/
def savedText (values : Values) (prior : Str) : Str :=
  serializeConfig values (some (parseConfig prior).lines)

/-- The values come back, and saving what came back leaves the text as it
is. -/
def RoundTrips (values : Values) (prior : Str) : Prop :=
  (∀ key, (parseConfig (savedText values prior)).values.get? key = values.get? key) ∧
    savedText (parseConfig (savedText values prior)).values (savedText values prior) =
      savedText values prior

/-- `write_config` saves the values over the text that it reads. -/
theorem replaceConfig_saves {path prior : Str} {values : Values} {w : Answer}
    (hvalues : ∀ e ∈ values, e.2 ≠ []) :
    ((replaceConfig path values).transcript [prints prior, w]).map Prod.fst =
      some [(.catFile path, prints prior), (.writeFile path (savedText values prior), w)] := by
  have hcleaned : values.filter (fun entry => entry.2 ≠ []) = values :=
    List.filter_eq_self.mpr (fun e he => decide_eq_true (hvalues e he))
  have htext : serializeConfig values
      (if (prints prior).success && (prints prior).stdout ≠ [] then
        some (parseConfig (prints prior).stdout).lines else none) = savedText values prior := by
    by_cases hprior : prior = []
    · subst hprior
      rfl
    · rw [if_pos (by simp [prints, hprior])]
      rfl
  unfold replaceConfig
  rw [hcleaned]
  show some [_, (ReplCmd.writeFile path (serializeConfig values _), w)] = _
  rw [htext]

/-! ## Lookups -/

theorem get?_cons {e : Str × Str} {values : Values} {key : Str} :
    Values.get? (e :: values) key = if key = e.1 then some e.2 else values.get? key := by
  unfold Values.get?
  rw [List.lookup_cons]
  by_cases hkey : key = e.1
  · rw [if_pos hkey, hkey, beq_self_eq_true]
  · rw [if_neg hkey, beq_false_of_ne hkey]

theorem get?_append_single {values : Values} {key key' value : Str} :
    Values.get? (values ++ [(key, value)]) key' =
      (values.get? key').or (if key' = key then some value else none) := by
  induction values with
  | nil => exact get?_cons
  | cons e values ih =>
    rw [List.cons_append, get?_cons, get?_cons, ih]
    by_cases hkey : key' = e.1
    · rw [if_pos hkey, if_pos hkey, Option.some_or]
    · rw [if_neg hkey, if_neg hkey]

theorem get?_replace {values : Values} {key key' value : Str} :
    Values.get? (values.map (fun entry => if entry.1 = key then (key, value) else entry)) key' =
      if key' = key then (values.get? key).map (fun _ => value) else values.get? key' := by
  induction values with
  | nil => simp [Values.get?]
  | cons e values ih =>
    rw [List.map_cons, get?_cons, get?_cons, get?_cons, ih]
    by_cases he : e.1 = key
    · by_cases hkey : key' = key
      · simp [he, hkey]
      · simp [he, hkey]
    · by_cases hkey : key' = key
      · have hne : key ≠ e.1 := fun h => he h.symm
        simp [he, hkey, hne]
      · simp [he, hkey]

theorem get?_set {values : Values} {key key' value : Str} :
    (values.set key value).get? key' = if key' = key then some value else values.get? key' := by
  unfold Values.set
  cases hget : values.get? key with
  | none =>
    rw [if_neg (by simp), get?_append_single]
    by_cases hkey : key' = key
    · rw [hkey, hget, if_pos rfl, Option.none_or]
    · rw [if_neg hkey, if_neg hkey, Option.or_none]
  | some old =>
    rw [if_pos (by simp), get?_replace, hget]
    rfl

theorem get?_isSome {values : Values} {key : Str} :
    (values.get? key).isSome = true ↔ key ∈ values.map Prod.fst := by
  induction values with
  | nil => simp [Values.get?]
  | cons e values ih =>
    rw [get?_cons, List.map_cons, List.mem_cons]
    by_cases hkey : key = e.1
    · simp [hkey]
    · rw [if_neg hkey, ih]
      simp [hkey]

theorem get?_of_mem {values : Values} {e : Str × Str} (hdistinct : (values.map Prod.fst).Nodup)
    (he : e ∈ values) : values.get? e.1 = some e.2 := by
  induction values with
  | nil => cases he
  | cons e' values ih =>
    rw [List.map_cons, List.nodup_cons] at hdistinct
    rw [get?_cons]
    rcases List.mem_cons.mp he with heq | hrest
    · rw [heq, if_pos rfl]
    · have hne : e.1 ≠ e'.1 := by
        intro heq
        apply hdistinct.1
        rw [← heq]
        exact List.mem_map_of_mem hrest
      rw [if_neg hne]
      exact ih hdistinct.2 hrest

theorem mem_of_get? {values : Values} {key value : Str} (h : values.get? key = some value) :
    (key, value) ∈ values := by
  induction values with
  | nil => cases h
  | cons e values ih =>
    rw [get?_cons] at h
    by_cases hkey : key = e.1
    · rw [if_pos hkey] at h
      rw [hkey, ← Option.some.inj h]
      exact List.mem_cons_self
    · rw [if_neg hkey] at h
      exact List.mem_cons_of_mem _ (ih h)

/-- Lines that agree on the value of a key set it to that value. -/
theorem get?_store {value : Str → Str} {lines : List ConfLine} (init : Values) (key : Str)
    (hagree : ∀ k v, ConfLine.kv k v ∈ lines → v = value k) :
    (lines.foldl ConfLine.store init).get? key =
      if lines.any (ConfLine.sets key) then some (value key) else init.get? key := by
  induction lines generalizing init with
  | nil => rfl
  | cons line lines ih =>
    have hrest : ∀ k v, ConfLine.kv k v ∈ lines → v = value k :=
      fun k v h => hagree k v (List.mem_cons_of_mem _ h)
    rw [List.foldl_cons, ih (ConfLine.store init line) hrest, List.any_cons]
    cases line with
    | raw text => rfl
    | kv k v =>
      have hv : v = value k := hagree k v List.mem_cons_self
      show (if _ then _ else (init.set k v).get? key) = _
      rw [get?_set, hv]
      by_cases hkey : key = k
      · subst hkey
        simp [ConfLine.sets]
      · have hne : k ≠ key := fun h => hkey h.symm
        simp [ConfLine.sets, hkey, hne]

/-! ## The lines of a file -/

/-- Between double quotes, the reader takes what is there. -/
theorem stripQuotes_quoted (v : Str) : stripQuotes ('"' :: (v ++ ['"'])) = v := by
  cases v with
  | nil => rfl
  | cons c v =>
    unfold stripQuotes
    rw [List.cons_append]
    show (if ((c :: v) ++ ['"']).getLast? = some '"' ∧ _ then ((c :: v) ++ ['"']).dropLast else _) = _
    rw [if_pos ⟨List.getLast?_concat, .inr rfl⟩, List.dropLast_concat]

/-- The reader takes the line of a value for the escaped value. -/
theorem parseLine_kvLine {key value : Str} (hkey : isShellName key = true) :
    parseLine (kvLine key value) = .kv key (escape value) := by
  cases key with
  | nil => cases hkey
  | cons c s =>
    simp only [isShellName, Bool.and_eq_true] at hkey
    obtain ⟨hc, hs⟩ := hkey
    have hname : isFileNameChar c = true := by
      rcases (Bool.or_eq_true _ _).mp hc with halpha | hunder
      · simp [isFileNameChar, isAsciiAlnum, halpha]
      · simp [isFileNameChar, hunder]
    have hspace : isSpace c = false := isSpace_of_isFileNameChar hname
    have hhash : c ≠ '#' := by
      intro h
      rw [h] at hname
      revert hname
      decide
    have hquoted : isSpace '"' = false := by decide
    have htext : kvLine (c :: s) value = c :: ((s ++ '=' :: '"' :: escape value) ++ ['"']) := by
      simp [kvLine]
    have hline : strip (kvLine (c :: s) value) = kvLine (c :: s) value := by
      rw [htext, strip_of_ends hspace hquoted]
    have hstart : startsWith (kvLine (c :: s) value) "#" = false := by
      rw [htext]
      show ('#' == c && _) = false
      rw [beq_false_of_ne (Ne.symm hhash), Bool.false_and]
    have hmatch : kvMatch (kvLine (c :: s) value) =
        some (c :: s, '"' :: (escape value ++ ['"'])) := by
      have hl : lstrip (kvLine (c :: s) value) = c :: (s ++ '=' :: '"' :: (escape value ++ ['"'])) := by
        rw [htext, lstrip, List.dropWhile_cons, if_neg (by simp [hspace])]
        simp
      have hword : isWord '=' = false := by decide
      have hdrop : (s ++ '=' :: '"' :: (escape value ++ ['"'])).dropWhile isWord =
          '=' :: '"' :: (escape value ++ ['"']) := by
        rw [List.dropWhile_append_of_pos (List.all_eq_true.mp hs), List.dropWhile_cons,
          if_neg (by simp [hword])]
      have htake : (s ++ '=' :: '"' :: (escape value ++ ['"'])).takeWhile isWord = s := by
        rw [List.takeWhile_append_of_pos (List.all_eq_true.mp hs), List.takeWhile_cons,
          if_neg (by simp [hword]), List.append_nil]
      have hequals : lstrip ('=' :: '"' :: (escape value ++ ['"'])) =
          '=' :: '"' :: (escape value ++ ['"']) := by
        rw [lstrip, List.dropWhile_cons, if_neg (by decide)]
      unfold kvMatch
      rw [hl]
      show (if (isAsciiAlpha c || c == '_') = true then _ else none) = _
      rw [if_pos hc, hdrop, htake, hequals]
      show some (c :: s, strip ('"' :: (escape value ++ ['"']))) = _
      rw [strip_of_ends hquoted hquoted]
    unfold parseLine
    rw [hline, hstart, if_neg (by simp [htext]), hmatch]
    show ConfLine.kv (c :: s) (stripQuotes ('"' :: (escape value ++ ['"']))) = _
    rw [stripQuotes_quoted]

theorem eq_of_parseLine_raw {line text : Str} (h : parseLine line = .raw text) : text = line := by
  unfold parseLine at h
  split at h
  · exact (ConfLine.raw.inj h).symm
  · split at h
    · exact (ConfLine.raw.inj h).symm
    · cases h

/-- The lines that `_serialize_config` writes. -/
def writtenLines (values : Values) (lines : List ConfLine) : List Str :=
  lines.flatMap (ConfLine.rewrite values) ++
    (values.filter (fun entry => !lines.any (ConfLine.sets entry.1))).map (fun e => kvLine e.1 e.2)

theorem savedText_eq {values : Values} {prior : Str} :
    savedText values prior =
      join ['\n'] (writtenLines values (parseConfig prior).lines) ++ ['\n'] := rfl

theorem mem_rewrite_kv {values : Values} {key old l : Str} :
    l ∈ (ConfLine.kv key old).rewrite values ↔
      ∃ value, values.get? key = some value ∧ l = kvLine key value := by
  rw [ConfLine.rewrite]
  cases values.get? key with
  | none => simp
  | some value => simp

/-- A written line is one that the file had and that sets no key, or the line
of a value. -/
theorem mem_writtenLines {values : Values} {lines : List ConfLine} {l : Str}
    (hdistinct : (values.map Prod.fst).Nodup) :
    l ∈ writtenLines values lines ↔ ConfLine.raw l ∈ lines ∨
      ∃ key value, values.get? key = some value ∧ l = kvLine key value := by
  unfold writtenLines
  rw [List.mem_append, List.mem_flatMap, List.mem_map]
  constructor
  · intro h
    rcases h with ⟨line, hline, hl⟩ | ⟨e, he, hl⟩
    · cases line with
      | raw text =>
        rw [List.mem_singleton.mp hl]
        exact .inl hline
      | kv key old =>
        obtain ⟨value, hget, heq⟩ := mem_rewrite_kv.mp hl
        exact .inr ⟨key, value, hget, heq⟩
    · exact .inr ⟨e.1, e.2, get?_of_mem hdistinct (List.mem_filter.mp he).1, hl.symm⟩
  · intro h
    rcases h with hraw | ⟨key, value, hget, hl⟩
    · exact .inl ⟨.raw l, hraw, List.mem_singleton_self l⟩
    · by_cases hset : lines.any (ConfLine.sets key) = true
      · -- The file sets the key already, so its line is rewritten.
        obtain ⟨line, hline, hkey⟩ := List.any_eq_true.mp hset
        cases line with
        | raw text => cases hkey
        | kv key' old =>
          have heq : key' = key := of_decide_eq_true hkey
          refine .inl ⟨.kv key' old, hline, ?_⟩
          exact mem_rewrite_kv.mpr ⟨value, heq ▸ hget, heq ▸ hl⟩
      · refine .inr ⟨(key, value), List.mem_filter.mpr ⟨mem_of_get? hget, ?_⟩, hl.symm⟩
        simp [hset]

/-! ## Reading a saved file -/

theorem mem_escape {v : Str} {c : Char} (h : c ∈ escape v) : c ∈ v ∨ c = '\\' := by
  obtain ⟨d, hd, hc⟩ := List.mem_flatMap.mp h
  split at hc
  · rcases List.mem_cons.mp hc with hslash | hchar
    · exact .inr hslash
    · exact .inl (List.mem_singleton.mp hchar ▸ hd)
  · exact .inl (List.mem_singleton.mp hc ▸ hd)

theorem noBreak_kvLine {key value : Str} (hkey : isShellName key = true) (hvalue : NoBreak value) :
    NoBreak (kvLine key value) := by
  have hword : ∀ c, isWord c = true → isLineBreak c = false := by
    intro c hc
    have hname : isFileNameChar c = true := by
      rcases (Bool.or_eq_true _ _).mp hc with halnum | hunder
      · simp [isFileNameChar, halnum]
      · simp [isFileNameChar, hunder]
    exact isLineBreak_of_isSpace (isSpace_of_isFileNameChar hname)
  have hname : ∀ c ∈ key, isWord c = true := by
    cases key with
    | nil => cases hkey
    | cons c s =>
      simp only [isShellName, Bool.and_eq_true] at hkey
      intro d hd
      rcases List.mem_cons.mp hd with hfirst | hrest
      · rw [hfirst]
        rcases (Bool.or_eq_true _ _).mp hkey.1 with halpha | hunder
        · simp [isWord, isAsciiAlnum, halpha]
        · simp [isWord, hunder]
      · exact List.all_eq_true.mp hkey.2 d hrest
  intro c hc
  rcases List.mem_append.mp hc with hc | hquote
  · rcases List.mem_append.mp hc with hc | hescaped
    · rcases List.mem_append.mp hc with hc | hequals
      · exact hword c (hname c hc)
      · have hconst : ("=\"" : Str).all (fun c => !isLineBreak c) = true := by decide
        simpa using List.all_eq_true.mp hconst c hequals
    · rcases mem_escape hescaped with hc | hslash
      · exact hvalue c hc
      · rw [hslash]
        decide
  · have hconst : ("\"" : Str).all (fun c => !isLineBreak c) = true := by decide
    simpa using List.all_eq_true.mp hconst c hquote

namespace Settings

variable (S : Settings) {prior : Str}

theorem name_of_get? {key value : Str} (h : S.values.get? key = some value) :
    isShellName key = true := S.names (key, value) (mem_of_get? h)

theorem raw_of_prior {l : Str} (h : ConfLine.raw l ∈ (parseConfig prior).lines) :
    NoBreak l ∧ parseLine l = .raw l := by
  obtain ⟨line, hline, heq⟩ := List.mem_map.mp h
  have hl : l = line := eq_of_parseLine_raw heq
  rw [hl]
  exact ⟨noBreak_of_mem_splitLines hline, hl ▸ heq⟩

/-- The lines of a saved file are those that were written.  A file without any
has one empty line. -/
theorem splitLines_savedText (hbreak : ∀ e ∈ S.values, NoBreak e.2) :
    splitLines (savedText S.values prior) =
      if writtenLines S.values (parseConfig prior).lines = [] then [[]]
      else writtenLines S.values (parseConfig prior).lines := by
  have hlines : ∀ l ∈ writtenLines S.values (parseConfig prior).lines, NoBreak l := by
    intro l hl
    rcases (mem_writtenLines S.distinct).mp hl with hraw | ⟨key, value, hget, heq⟩
    · exact (raw_of_prior hraw).1
    · rw [heq]
      exact noBreak_kvLine (S.name_of_get? hget) (hbreak _ (mem_of_get? hget))
  rw [savedText_eq]
  cases hwritten : writtenLines S.values (parseConfig prior).lines with
  | nil => rfl
  | cons l lines =>
    rw [if_neg (List.cons_ne_nil l lines), join_newline]
    rw [hwritten] at hlines
    exact splitLines_unlines hlines

/-- What the reader makes of a line of a saved file. -/
theorem line_of_saved (hbreak : ∀ e ∈ S.values, NoBreak e.2) {l : Str}
    (h : l ∈ splitLines (savedText S.values prior)) :
    parseLine l = .raw l ∨ ∃ key value, S.values.get? key = some value ∧ l = kvLine key value ∧
      parseLine l = .kv key (escape value) := by
  rw [S.splitLines_savedText hbreak] at h
  split at h
  · rw [List.mem_singleton.mp h]
    exact .inl (by decide)
  · rcases (mem_writtenLines S.distinct).mp h with hraw | ⟨key, value, hget, heq⟩
    · exact .inl (raw_of_prior hraw).2
    · exact .inr ⟨key, value, hget, heq, heq ▸ parseLine_kvLine (S.name_of_get? hget)⟩

/-- The lines of a saved file set the keys of the mapping. -/
theorem sets_savedText (hbreak : ∀ e ∈ S.values, NoBreak e.2) {key : Str} :
    (parseConfig (savedText S.values prior)).lines.any (ConfLine.sets key) =
      (S.values.get? key).isSome := by
  apply Bool.eq_iff_iff.mpr
  constructor
  · intro h
    obtain ⟨line, hline, hsets⟩ := List.any_eq_true.mp h
    obtain ⟨l, hl, hparse⟩ := List.mem_map.mp hline
    rcases S.line_of_saved hbreak hl with hraw | ⟨key', value, hget, -, hkv⟩
    · rw [← hparse, hraw] at hsets
      cases hsets
    · rw [← hparse, hkv] at hsets
      have hkey : key' = key := of_decide_eq_true hsets
      rw [← hkey, hget]
      rfl
  · intro h
    obtain ⟨value, hget⟩ := Option.isSome_iff_exists.mp h
    have hl : kvLine key value ∈ writtenLines S.values (parseConfig prior).lines :=
      (mem_writtenLines S.distinct).mpr (.inr ⟨key, value, hget, rfl⟩)
    have hsplit : kvLine key value ∈ splitLines (savedText S.values prior) := by
      rw [S.splitLines_savedText hbreak, if_neg (List.ne_nil_of_mem hl)]
      exact hl
    refine List.any_eq_true.mpr ⟨_, List.mem_map_of_mem hsplit, ?_⟩
    rw [parseLine_kvLine (S.name_of_get? hget)]
    exact decide_eq_true rfl

/-- The reader takes every value of a saved file for the escaped value. -/
theorem get?_savedText (hbreak : ∀ e ∈ S.values, NoBreak e.2) {key : Str} :
    (parseConfig (savedText S.values prior)).values.get? key =
      (S.values.get? key).map escape := by
  have hagree : ∀ k v, ConfLine.kv k v ∈ (parseConfig (savedText S.values prior)).lines →
      v = escape (S.values.getD k) := by
    intro k v hkv
    obtain ⟨l, hl, hparse⟩ := List.mem_map.mp hkv
    rcases S.line_of_saved hbreak hl with hraw | ⟨key', value, hget, -, heq⟩
    · rw [hraw] at hparse
      cases hparse
    · rw [heq] at hparse
      obtain ⟨hkey, hvalue⟩ := ConfLine.kv.inj hparse
      rw [← hvalue, ← hkey, Values.getD, hget]
      rfl
  have hstore := get?_store [] key hagree
  rw [S.sets_savedText hbreak] at hstore
  refine Eq.trans hstore ?_
  unfold Values.getD
  cases S.values.get? key with
  | none => rfl
  | some value => rfl

/-- Saving what the reader found writes the same lines, when no value is
changed by the quoting. -/
theorem savedText_again (hbreak : ∀ e ∈ S.values, NoBreak e.2)
    (hescape : ∀ e ∈ S.values, escape e.2 = e.2) :
    savedText (parseConfig (savedText S.values prior)).values (savedText S.values prior) =
      savedText S.values prior := by
  have hget : ∀ key value, S.values.get? key = some value →
      (parseConfig (savedText S.values prior)).values.get? key = some value := by
    intro key value h
    rw [S.get?_savedText hbreak, h, Option.map_some, hescape _ (mem_of_get? h)]
  have hkept : (parseConfig (savedText S.values prior)).lines.flatMap
      (ConfLine.rewrite (parseConfig (savedText S.values prior)).values) =
        splitLines (savedText S.values prior) := by
    show ((splitLines (savedText S.values prior)).map parseLine).flatMap _ = _
    rw [List.flatMap_map]
    refine (List.flatMap_congr (fun l hl => ?_)).trans (List.flatMap_singleton' _)
    rcases S.line_of_saved hbreak hl with hraw | ⟨key, value, hval, heq, hparse⟩
    · rw [hraw]
      rfl
    · rw [hparse, ConfLine.rewrite, hget key value hval, heq]
  have hnew : (parseConfig (savedText S.values prior)).values.filter (fun entry =>
      !(parseConfig (savedText S.values prior)).lines.any (ConfLine.sets entry.1)) = [] := by
    apply List.filter_eq_nil_iff.mpr
    intro e he
    have hsome : ((parseConfig (savedText S.values prior)).values.get? e.1).isSome = true :=
      get?_isSome.mpr (List.mem_map_of_mem he)
    rw [S.get?_savedText hbreak, Option.isSome_map] at hsome
    rw [S.sets_savedText hbreak, hsome]
    decide
  have hlines : writtenLines (parseConfig (savedText S.values prior)).values
      (parseConfig (savedText S.values prior)).lines = splitLines (savedText S.values prior) := by
    unfold writtenLines
    rw [hkept, hnew, List.map_nil, List.append_nil]
  rw [savedText_eq, hlines, S.splitLines_savedText hbreak, savedText_eq]
  split
  · rename_i hnil
    rw [hnil]
    rfl
  · rfl

end Settings

/-! ## What a value can look like -/

theorem kv_of_stored {lines : List ConfLine} {init : Values} {key value : Str}
    (h : (lines.foldl ConfLine.store init).get? key = some value) :
    init.get? key = some value ∨ ConfLine.kv key value ∈ lines := by
  induction lines generalizing init with
  | nil => exact .inl h
  | cons line lines ih =>
    rcases ih h with hinit | hline
    · cases line with
      | raw text => exact .inl hinit
      | kv k v =>
        have hset : (init.set k v).get? key = some value := hinit
        rw [get?_set] at hset
        by_cases hkey : key = k
        · rw [if_pos hkey] at hset
          rw [hkey, Option.some.inj hset]
          exact .inr List.mem_cons_self
        · rw [if_neg hkey] at hset
          exact .inl hset
    · exact .inr (List.mem_cons_of_mem _ hline)

theorem mem_of_mem_stripQuotes {v : Str} {c : Char} (h : c ∈ stripQuotes v) : c ∈ v := by
  unfold stripQuotes at h
  split at h
  · split at h
    · exact List.mem_cons_of_mem _ (List.mem_of_mem_dropLast h)
    · exact h
  · exact h

theorem mem_of_mem_kvMatch {raw key value : Str} {c : Char} (h : kvMatch raw = some (key, value))
    (hc : c ∈ value) : c ∈ raw := by
  unfold kvMatch at h
  split at h
  · cases h
  · rename_i d s hstrip
    split at h
    · split at h
      · rename_i rest hequals
        have hvalue : strip rest = value := (Prod.mk.inj (Option.some.inj h)).2
        rw [← hvalue] at hc
        have hrest : c ∈ lstrip (s.dropWhile isWord) := by
          rw [hequals]
          exact List.mem_cons_of_mem _ (mem_of_mem_strip hc)
        have hs : c ∈ s := (List.dropWhile_sublist _).subset (mem_of_mem_lstrip hrest)
        apply mem_of_mem_lstrip
        rw [hstrip]
        exact List.mem_cons_of_mem _ hs
      · cases h
    · cases h

/-- What the reader finds has no line break. -/
theorem noBreak_of_parsed {text key value : Str}
    (h : (parseConfig text).values.get? key = some value) : NoBreak value := by
  rcases kv_of_stored h with hinit | hline
  · cases hinit
  · obtain ⟨l, hl, hparse⟩ := List.mem_map.mp hline
    intro c hc
    apply noBreak_of_mem_splitLines hl
    unfold parseLine at hparse
    split at hparse
    · cases hparse
    · split at hparse
      · cases hparse
      · rename_i k v hmatch
        apply mem_of_mem_kvMatch hmatch
        apply mem_of_mem_stripQuotes
        rw [(ConfLine.kv.inj hparse).2]
        exact hc

theorem escape_cons {c : Char} {v : Str} :
    escape (c :: v) = (if isEscaped c then ['\\', c] else [c]) ++ escape v := by
  unfold escape
  rw [List.flatMap_cons]
  by_cases hc : isEscaped c = true
  · have hcond : c = '\\' ∨ c = '"' ∨ c = '$' ∨ c = '`' := by
      simpa [isEscaped, or_assoc] using hc
    rw [if_pos hcond, if_pos hc]
  · have hcond : ¬ (c = '\\' ∨ c = '"' ∨ c = '$' ∨ c = '`') := by
      simpa [isEscaped, or_assoc] using hc
    rw [if_neg hcond, if_neg hc]

theorem length_le_escape {v : Str} : v.length ≤ (escape v).length := by
  induction v with
  | nil => exact Nat.le_refl 0
  | cons c v ih =>
    rw [escape_cons, List.length_append, List.length_cons]
    by_cases hc : isEscaped c = true
    · rw [if_pos hc]
      show v.length + 1 ≤ 2 + _
      omega
    · rw [if_neg hc]
      show v.length + 1 ≤ 1 + _
      omega

/-- Only a value without such characters is left as it is. -/
theorem escape_eq_self {v : Str} : escape v = v ↔ ∀ c ∈ v, isEscaped c = false := by
  induction v with
  | nil => simp [escape]
  | cons c v ih =>
    rw [escape_cons, List.forall_mem_cons]
    by_cases hc : isEscaped c = true
    · rw [if_pos hc]
      constructor
      · intro h
        have hlength := congrArg List.length h
        simp only [List.length_append, List.length_cons, List.length_nil] at hlength
        have hle := length_le_escape (v := v)
        omega
      · intro ⟨hfalse, _⟩
        rw [hc] at hfalse
        cases hfalse
    · rw [if_neg hc, List.singleton_append, List.cons_inj_right, ih]
      exact ⟨fun h => ⟨by simpa using hc, h⟩, fun h => h.2⟩

/-- A mapping comes back from a file, whatever the file had before, and saving
it again changes nothing, when and only when its values are plain. -/
theorem config_roundTrip_iff (S : Settings) (prior : Str) :
    RoundTrips S.values prior ↔ ∀ e ∈ S.values, isPlainValue e.2 = true := by
  constructor
  · intro ⟨hvalues, _⟩ e he
    have hmine : ∀ e ∈ S.values, (parseConfig (savedText S.values prior)).values.get? e.1 =
        some e.2 := fun e he => (hvalues e.1).trans (get?_of_mem S.distinct he)
    have hbreak : ∀ e ∈ S.values, NoBreak e.2 := fun e he => noBreak_of_parsed (hmine e he)
    have hescape : escape e.2 = e.2 := by
      have hread : (parseConfig (savedText S.values prior)).values.get? e.1 =
          (S.values.get? e.1).map escape := S.get?_savedText hbreak
      rw [hmine e he, get?_of_mem S.distinct he] at hread
      exact (Option.some.inj hread).symm
    apply List.all_eq_true.mpr
    intro c hc
    rw [escape_eq_self.mp hescape c hc, hbreak e he c hc]
    rfl
  · intro hplain
    have hchar : ∀ e ∈ S.values, ∀ c ∈ e.2, isEscaped c = false ∧ isLineBreak c = false := by
      intro e he c hc
      simpa using List.all_eq_true.mp (hplain e he) c hc
    have hbreak : ∀ e ∈ S.values, NoBreak e.2 := fun e he c hc => (hchar e he c hc).2
    have hescape : ∀ e ∈ S.values, escape e.2 = e.2 :=
      fun e he => escape_eq_self.mpr (fun c hc => (hchar e he c hc).1)
    refine ⟨fun key => ?_, S.savedText_again hbreak hescape⟩
    rw [S.get?_savedText hbreak]
    cases hget : S.values.get? key with
    | none => rfl
    | some value => rw [Option.map_some, hescape _ (mem_of_get? hget)]

/-- A mapping with a `"` in its value. -/
def quotedTag : Settings where
  values := [("tag", "a\"b")]
  names := by decide
  distinct := by decide

/-- The value comes back with a backslash in it. -/
theorem config_changed : ¬ RoundTrips quotedTag.values "" := by
  intro h
  have hread := h.1 "tag"
  revert hread
  decide

end PveZfsTool.Replication
