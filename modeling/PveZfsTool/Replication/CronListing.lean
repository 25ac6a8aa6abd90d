import PveZfsTool.Lib.LastLine
import PveZfsTool.Lib.Trimmed
import PveZfsTool.Replication.ConfigListing
import PveZfsTool.Replication.Cron

/-!
# Listing the cron tables

`_find_zsync_cron_lines` reads root's crontab and the files of `/etc/cron.d`
with one script, which prints each table behind a line with its origin.

Behind a table that does not end in a line break that line is not found.  The
tables that follow are then read as part of it, and its last line goes on with
the path of the next one.  `TablesEnd` says when this makes no difference
(`readTables_eq_iff`).
-/

namespace PveZfsTool.Replication

open Text

/-! ## The output of the script -/

def crontabMarker : Str := "__CRONTAB__"

def crondMarker : Str := "__CROND__ "

/-- The part of one file in `/etc/cron.d`. -/
def crondPart (file : PathFile) : Str := crondMarker ++ file.1 ++ '\n' :: file.2

/-- The output of the script. -/
def tableListing (crontab : Str) (files : List PathFile) : Str :=
  crontabMarker ++ '\n' :: (crontab ++ files.flatMap crondPart)

/-- The line is none of the markers. -/
def IsTableText (line : Str) : Prop := line ≠ crontabMarker ∧ startsWith line crondMarker = false

/-- The entries of one table. -/
def tableEntries (path origin text : Str) : List CronEntry :=
  (splitLines text).flatMap (fun l => (cronEntry path origin (strip l)).toList)

/-- What is read from a place in the table `origin` on. -/
def readTables (path origin text : Str) (files : List PathFile) : List CronEntry :=
  cronEntries path origin (splitLines (text ++ files.flatMap crondPart))

/-- Behind a table without a line break at its end neither its last line, with
the path of the next table behind it, nor a line of that table is an entry. -/
def TablesEnd (path : Str) : Str → Str → List PathFile → Prop
  | _, _, [] => True
  | origin, text, (next, nextText) :: files =>
      if Ended text then TablesEnd path next nextText files
      else
        cronEntry path origin (strip (lastLine text ++ (crondMarker ++ next))) = none ∧
          tableEntries path next nextText = [] ∧ tableEntries path origin nextText = [] ∧
          TablesEnd path origin nextText files

/-! ## Entries -/

section Entries

variable {path origin s u : Str} {e : CronEntry}

theorem length_splitWordsMax_append {n : Nat} (h : (splitWordsMax n s).length = n + 1) :
    (splitWordsMax n (s ++ u)).length = n + 1 := by
  have hs : lstrip s ≠ [] := by
    intro hnil
    cases n <;> simp [splitWordsMax, hnil] at h
  have hsu : lstrip (s ++ u) = lstrip s ++ u := by rw [lstrip_append_eq, if_neg hs]
  have hne : lstrip s ++ u ≠ [] := List.append_ne_nil_of_left_ne_nil hs u
  induction n generalizing s with
  | zero => rw [splitWordsMax, hsu, if_neg hne, List.length_singleton]
  | succ n ih =>
    rw [splitWordsMax, if_neg hs, List.length_cons, Nat.add_right_cancel_iff] at h
    have hrest : (lstrip s).dropWhile (fun c => !isSpace c) ≠ [] := by
      intro hnil
      rw [hnil] at h
      cases n <;> simp [splitWordsMax, lstrip] at h
    have hlstrip : lstrip ((lstrip s).dropWhile (fun c => !isSpace c)) ≠ [] := by
      intro hnil
      cases n <;> simp [splitWordsMax, hnil] at h
    rw [splitWordsMax, hsu, if_neg hne, List.length_cons, List.dropWhile_append,
      if_neg (by simpa using hrest)]
    refine congrArg Nat.succ (ih h hlstrip ?_ (List.append_ne_nil_of_left_ne_nil hlstrip u))
    rw [lstrip_append_eq, if_neg hlstrip]

theorem cronEntry_eq_some (h : cronEntry path origin s = some e) : e.origin = origin ∧ e.raw = s ∧
    s ≠ [] ∧ startsWith s "#" = false ∧ contains s (cronMarker path) = true ∧
    if origin = "crontab" then (splitWordsMax 5 s).length = 6 else (splitWordsMax 6 s).length = 7 := by
  rw [cronEntry] at h
  split_ifs at h with hskip horigin
  · simp only [not_or, Bool.not_eq_true, Bool.not_eq_false] at hskip
    split at h
    · next hwords =>
      obtain rfl := Option.some.inj h
      rw [if_pos horigin, hwords]
      exact ⟨rfl, rfl, hskip.1, hskip.2.1, hskip.2.2, rfl⟩
    · cases h
  · simp only [not_or, Bool.not_eq_true, Bool.not_eq_false] at hskip
    split at h
    · next hwords =>
      obtain rfl := Option.some.inj h
      rw [if_neg horigin, hwords]
      exact ⟨rfl, rfl, hskip.1, hskip.2.1, hskip.2.2, rfl⟩
    · cases h

/-- An entry stays one with more text behind it. -/
theorem cronEntry_append_ne_none (h : cronEntry path origin s = some e) :
    cronEntry path origin (s ++ u) ≠ none := by
  obtain ⟨-, -, hne, hcomment, hmarker, hlength⟩ := cronEntry_eq_some h
  have hskip : ¬ (s ++ u = [] ∨ startsWith (s ++ u) "#" = true ∨
      contains (s ++ u) (cronMarker path) = false) := by
    rintro (hnil | hstart | hcontains)
    · exact hne (List.append_eq_nil_iff.mp hnil).1
    · cases s with
      | nil => exact hne rfl
      | cons c s =>
        have hc : startsWith (c :: s) "#" = true := hstart
        rw [hcomment] at hc
        cases hc
    · have hpart : cronMarker path <:+: s := of_decide_eq_true hmarker
      have hwhole : contains (s ++ u) (cronMarker path) = true :=
        decide_eq_true (hpart.trans (List.prefix_append s u).isInfix)
      rw [hcontains] at hwhole
      cases hwhole
  rw [cronEntry, if_neg hskip]
  split_ifs at hlength ⊢ with horigin
  · obtain ⟨a, b, c, d, e, f, hwords⟩ :
        ∃ a b c d e f, splitWordsMax 5 (s ++ u) = [a, b, c, d, e, f] := by
      match splitWordsMax 5 (s ++ u), length_splitWordsMax_append hlength with
      | [a, b, c, d, e, f], _ => exact ⟨a, b, c, d, e, f, rfl⟩
    rw [hwords]
    exact Option.some_ne_none _
  · obtain ⟨a, b, c, d, e, f, g, hwords⟩ :
        ∃ a b c d e f g, splitWordsMax 6 (s ++ u) = [a, b, c, d, e, f, g] := by
      match splitWordsMax 6 (s ++ u), length_splitWordsMax_append hlength with
      | [a, b, c, d, e, f, g], _ => exact ⟨a, b, c, d, e, f, g, rfl⟩
    rw [hwords]
    exact Option.some_ne_none _

end Entries

/-! ## The tables one after another -/

section Tables

variable {path origin text next nextText : Str} {files : List PathFile} {lines : List Str}
  {e : CronEntry}

/-- A line that is no marker. -/
theorem cronEntries_text {line : Str} (h : IsTableText line) (rest : List Str) :
    cronEntries path origin (line :: rest) =
      (cronEntry path origin (strip line)).toList ++ cronEntries path origin rest := by
  have hcons : cronEntries path origin (line :: rest) =
      if line = crontabMarker then cronEntries path "crontab" rest
      else if startsWith line crondMarker then cronEntries path (strip (line.drop 10)) rest
      else (cronEntry path origin (strip line)).toList ++ cronEntries path origin rest := rfl
  rw [hcons, if_neg h.1, if_neg (by rw [h.2]; decide)]

theorem cronEntries_append (h : ∀ l ∈ lines, IsTableText l) (rest : List Str) :
    cronEntries path origin (lines ++ rest) =
      lines.flatMap (fun l => (cronEntry path origin (strip l)).toList) ++
        cronEntries path origin rest := by
  induction lines with
  | nil => rfl
  | cons l lines ih =>
    rw [List.cons_append, cronEntries_text (h l List.mem_cons_self),
      ih (fun l' hl' => h l' (List.mem_cons_of_mem _ hl')), List.flatMap_cons, List.append_assoc]

theorem cronEntries_crond {rest : List Str} :
    cronEntries path origin ((crondMarker ++ next) :: rest) = cronEntries path (strip next) rest := by
  have hne : crondMarker ++ next ≠ crontabMarker := by
    intro heq
    have hprefix : crondMarker <+: crontabMarker := heq ▸ List.prefix_append _ _
    exact absurd hprefix (by decide)
  have hstart : startsWith (crondMarker ++ next) crondMarker = true :=
    List.isPrefixOf_iff_prefix.mpr (List.prefix_append _ _)
  have hdrop : (crondMarker ++ next).drop 10 = next := List.drop_left' (by decide)
  have hcons : cronEntries path origin ((crondMarker ++ next) :: rest) =
      if crondMarker ++ next = crontabMarker then cronEntries path "crontab" rest
      else if startsWith (crondMarker ++ next) crondMarker then
        cronEntries path (strip ((crondMarker ++ next).drop 10)) rest
      else (cronEntry path origin (strip (crondMarker ++ next))).toList ++
        cronEntries path origin rest := rfl
  rw [hcons, if_neg hne, if_pos hstart, hdrop]

/-- The last line with the path of the next table behind it is no marker. -/
theorem isTableText_glued (htext : ∀ l ∈ splitLines text, IsTableText l) (hne : ¬ Ended text) :
    IsTableText (lastLine text ++ (crondMarker ++ next)) := by
  have hlast := htext _ (lastLine_mem_splitLines hne)
  refine ⟨fun heq => ?_, Bool.eq_false_iff.mpr (fun h => ?_)⟩
  · have hmem : ' ' ∈ crontabMarker := by
      rw [← heq]
      exact List.mem_append_right _ (List.mem_append_left _ (by decide))
    exact absurd hmem (by decide)
  · have hglued : ("__CROND__" : Str) ++ [' '] <+: lastLine text ++ (crondMarker ++ next) :=
      List.isPrefixOf_iff_prefix.mp h
    have hblank : ' ' ∉ (crondMarker ++ next).take ("__CROND__" : Str).length := by
      rw [List.take_append_of_le_length (by decide)]
      decide
    have hstart : startsWith (lastLine text) crondMarker = true :=
      List.isPrefixOf_iff_prefix.mpr (prefix_of_glued hblank hne hglued)
    rw [hlast.2] at hstart
    cases hstart

theorem readTables_nil (htext : ∀ l ∈ splitLines text, IsTableText l) :
    readTables path origin text [] = tableEntries path origin text := by
  have hlines : cronEntries path origin (splitLines text ++ []) = _ := cronEntries_append htext []
  rw [List.append_nil] at hlines
  rw [readTables, List.flatMap_nil, List.append_nil, hlines]
  exact List.append_nil _

/-- The next table begins on a line of its own, or in the last line. -/
theorem readTables_cons (htext : ∀ l ∈ splitLines text, IsTableText l) (hbreak : NoBreak next)
    (hstrip : strip next = next) :
    readTables path origin text ((next, nextText) :: files) =
      tableEntries path origin (fullLines text) ++
        if Ended text then readTables path next nextText files
        else (cronEntry path origin (strip (lastLine text ++ (crondMarker ++ next)))).toList ++
          readTables path origin nextText files := by
  have hfull : ∀ l ∈ splitLines (fullLines text), IsTableText l :=
    fun l hl => htext l (mem_splitLines_of_full hl)
  have hparts : text ++ ((next, nextText) :: files).flatMap crondPart =
      text ++ ((crondMarker ++ next) ++ '\n' :: (nextText ++ files.flatMap crondPart)) := by
    rw [List.flatMap_cons, crondPart]
    simp only [List.append_assoc, List.cons_append]
  have hmarker : NoBreak (crondMarker ++ next) := noBreak_append_iff.mpr ⟨by decide, hbreak⟩
  have hne : crondMarker ++ next ≠ [] := List.append_ne_nil_of_left_ne_nil (by decide) next
  rw [readTables, hparts, splitLines_marker hmarker hne, cronEntries_append hfull]
  congr 1
  split_ifs with hended
  · rw [show lastLine text = [] from hended, List.nil_append, cronEntries_crond, hstrip]
    rfl
  · rw [cronEntries_text (isTableText_glued htext hended)]
    rfl

theorem tableEntries_eq : tableEntries path origin text = tableEntries path origin (fullLines text) ++
    if Ended text then [] else (cronEntry path origin (strip (lastLine text))).toList := by
  rw [tableEntries, splitLines_eq text, List.flatMap_append]
  congr 1
  by_cases hended : lastLine text = []
  · rw [if_pos hended, if_pos (show Ended text from hended)]
    rfl
  · rw [if_neg hended, if_neg (show ¬ Ended text from hended), List.flatMap_singleton]

/-! ## Where the entries are from -/

theorem origin_of_mem_tableEntries (h : e ∈ tableEntries path origin text) : e.origin = origin := by
  obtain ⟨l, -, hl⟩ := List.mem_flatMap.mp h
  exact (cronEntry_eq_some (Option.mem_toList.mp hl)).1

/-- Everything that is asked of the tables and their paths. -/
structure AreTables (text : Str) (files : List PathFile) : Prop where
  first : ∀ l ∈ splitLines text, IsTableText l
  others : ∀ f ∈ files, ∀ l ∈ splitLines f.2, IsTableText l
  paths : ∀ f ∈ files, NoBreak f.1 ∧ strip f.1 = f.1

theorem AreTables.tail (h : AreTables text ((next, nextText) :: files)) :
    AreTables nextText files where
  first := h.others _ List.mem_cons_self
  others := fun f hf => h.others f (List.mem_cons_of_mem _ hf)
  paths := fun f hf => h.paths f (List.mem_cons_of_mem _ hf)

theorem AreTables.read_cons (h : AreTables text ((next, nextText) :: files)) :
    readTables path origin text ((next, nextText) :: files) =
      tableEntries path origin (fullLines text) ++
        if Ended text then readTables path next nextText files
        else (cronEntry path origin (strip (lastLine text ++ (crondMarker ++ next)))).toList ++
          readTables path origin nextText files :=
  have hpath := h.paths _ List.mem_cons_self
  readTables_cons h.first hpath.1 hpath.2

theorem origin_of_mem_readTables (h : AreTables text files) (he : e ∈ readTables path origin text files) :
    e.origin ∈ origin :: files.map Prod.fst := by
  induction files generalizing origin text with
  | nil =>
    rw [readTables_nil h.first] at he
    exact List.mem_cons.mpr (.inl (origin_of_mem_tableEntries he))
  | cons f files ih =>
    obtain ⟨next, nextText⟩ := f
    rw [h.read_cons] at he
    rcases List.mem_append.mp he with hfull | hrest
    · exact List.mem_cons.mpr (.inl (origin_of_mem_tableEntries hfull))
    · split_ifs at hrest with hended
      · exact List.mem_cons_of_mem _ (ih h.tail hrest)
      · rcases List.mem_append.mp hrest with hglued | hrest
        · exact List.mem_cons.mpr (.inl (cronEntry_eq_some (Option.mem_toList.mp hglued)).1)
        · rcases List.mem_cons.mp (ih h.tail hrest) with horigin | hfiles
          · exact List.mem_cons.mpr (.inl horigin)
          · exact List.mem_cons_of_mem _ (List.mem_cons_of_mem _ hfiles)

/-- Where the last line has an entry, it also has one with the path behind it,
and not the same. -/
theorem cronEntry_glued {u : Str} (h : cronEntry path origin (strip (lastLine text)) = some e) :
    ∃ g, cronEntry path origin (strip (lastLine text ++ (crondMarker ++ u))) = some g ∧ g ≠ e := by
  obtain ⟨-, hraw, hne, -⟩ := cronEntry_eq_some h
  obtain ⟨v, hv⟩ := exists_strip_append_eq hne (crondMarker ++ u)
  obtain ⟨g, hg⟩ := Option.ne_none_iff_exists'.mp (cronEntry_append_ne_none (u := v) h)
  rw [← hv] at hg
  refine ⟨g, hg, ?_⟩
  rintro rfl
  have hchar : '_' ∈ crondMarker ++ u := List.mem_append_left _ (by decide)
  exact strip_ne_of_append hchar (by decide) (hraw.symm.trans (cronEntry_eq_some hg).2.1)

/-- A table with an entry has one in what is read. -/
theorem exists_origin_readTables (h : AreTables text files) (hne : tableEntries path origin text ≠ []) :
    ∃ e ∈ readTables path origin text files, e.origin = origin := by
  cases files with
  | nil =>
    rw [readTables_nil h.first]
    obtain ⟨e, he⟩ := List.exists_mem_of_ne_nil _ hne
    exact ⟨e, he, origin_of_mem_tableEntries he⟩
  | cons f files =>
    obtain ⟨next, nextText⟩ := f
    obtain ⟨e, he⟩ := List.exists_mem_of_ne_nil _ hne
    rw [h.read_cons]
    rw [tableEntries_eq] at he
    rcases List.mem_append.mp he with hfull | hlast
    · exact ⟨e, List.mem_append_left _ hfull, origin_of_mem_tableEntries hfull⟩
    · split_ifs at hlast with hended
      · cases hlast
      · obtain ⟨g, hg, -⟩ := cronEntry_glued (u := next) (Option.mem_toList.mp hlast)
        refine ⟨g, List.mem_append_right _ ?_, (cronEntry_eq_some hg).1⟩
        rw [if_neg hended, hg]
        exact List.mem_append_left _ List.mem_cons_self

/-- Every table is read as its own exactly if the tables end well. -/
theorem readTables_eq_iff (h : AreTables text files) (hdistinct : (origin :: files.map Prod.fst).Nodup) :
    readTables path origin text files =
        tableEntries path origin text ++ files.flatMap (fun f => tableEntries path f.1 f.2) ↔
      TablesEnd path origin text files := by
  induction files generalizing origin text with
  | nil =>
    rw [readTables_nil h.first, List.flatMap_nil, List.append_nil]
    exact iff_of_true rfl (by unfold TablesEnd; trivial)
  | cons f files ih =>
    obtain ⟨next, nextText⟩ := f
    obtain ⟨hout, hnext⟩ := List.nodup_cons.mp hdistinct
    have hfiles : origin ∉ files.map Prod.fst := fun hm => hout (List.mem_cons_of_mem _ hm)
    have hskip : (origin :: files.map Prod.fst).Nodup :=
      List.nodup_cons.mpr ⟨hfiles, (List.nodup_cons.mp hnext).2⟩
    have hrest : ∀ e ∈ files.flatMap (fun f => tableEntries path f.1 f.2),
        e.origin ∈ files.map Prod.fst := by
      intro e he
      obtain ⟨f, hf, hef⟩ := List.mem_flatMap.mp he
      exact List.mem_map.mpr ⟨f, hf, (origin_of_mem_tableEntries hef).symm⟩
    rw [h.read_cons, @tableEntries_eq path origin text, TablesEnd, List.append_assoc,
      List.append_cancel_left_eq, List.flatMap_cons]
    split_ifs with hended
    · exact ih h.tail hnext
    · rw [← ih h.tail hskip]
      generalize files.flatMap (fun f => tableEntries path f.1 f.2) = rest at hrest
      constructor
      · intro heq
        cases hlast : cronEntry path origin (strip (lastLine text)) with
        | some e =>
          -- the entry of the glued line would be the entry of the last line
          obtain ⟨g, hg, hge⟩ := cronEntry_glued (u := next) hlast
          rw [hlast, hg] at heq
          exact absurd (List.cons.inj heq).1 hge
        | none =>
          rw [hlast, Option.toList_none, List.nil_append] at heq
          have hnone : tableEntries path next nextText = [] := by
            refine List.eq_nil_iff_forall_not_mem.mpr (fun e he => ?_)
            have hmem : e ∈ (cronEntry path origin
                (strip (lastLine text ++ (crondMarker ++ next)))).toList ++
                  readTables path origin nextText files := by
              rw [heq]
              exact List.mem_append_left _ he
            have hplace : e.origin ∈ origin :: files.map Prod.fst := by
              rcases List.mem_append.mp hmem with hglued | hread
              · exact List.mem_cons.mpr (.inl (cronEntry_eq_some (Option.mem_toList.mp hglued)).1)
              · exact origin_of_mem_readTables h.tail hread
            rw [origin_of_mem_tableEntries he] at hplace
            rcases List.mem_cons.mp hplace with hsame | hlater
            · exact hout (hsame ▸ List.mem_cons_self)
            · exact (List.nodup_cons.mp hnext).1 hlater
          have heq : (cronEntry path origin
              (strip (lastLine text ++ (crondMarker ++ next)))).toList ++
                readTables path origin nextText files = rest := by
            rw [heq, hnone]
            rfl
          have hforeign : ∀ e ∈ (cronEntry path origin
              (strip (lastLine text ++ (crondMarker ++ next)))).toList ++
                readTables path origin nextText files, e.origin ≠ origin := by
            intro e he horigin
            rw [heq] at he
            exact hfiles (horigin ▸ hrest e he)
          have hglued : cronEntry path origin
              (strip (lastLine text ++ (crondMarker ++ next))) = none := by
            refine Option.eq_none_iff_forall_not_mem.mpr (fun g hg => ?_)
            have hmem := List.mem_append_left (readTables path origin nextText files)
              (Option.mem_toList.mpr hg)
            exact hforeign g hmem (cronEntry_eq_some hg).1
          rw [hglued] at heq
          have hown : tableEntries path origin nextText = [] := by
            by_contra hne
            obtain ⟨e, he, horigin⟩ := exists_origin_readTables h.tail hne
            exact hforeign e (List.mem_append_right _ he) horigin
          refine ⟨hglued, hnone, hown, ?_⟩
          rw [hown]
          exact heq
      · rintro ⟨hglued, hnone, hown, hread⟩
        have hlast : cronEntry path origin (strip (lastLine text)) = none := by
          refine Option.eq_none_iff_forall_not_mem.mpr (fun e he => ?_)
          obtain ⟨g, hg, -⟩ := cronEntry_glued (u := next) he
          rw [hglued] at hg
          cases hg
        rw [hglued, hlast, hnone, hread, hown]

/-- The output of the script, read from the root's crontab on. -/
theorem cronEntries_tableListing :
    cronEntries path "crontab" (splitLines (tableListing text files)) =
      readTables path "crontab" text files := by
  have hlines : splitLines (tableListing text files) =
      crontabMarker :: splitLines (text ++ files.flatMap crondPart) := by
    rw [tableListing, splitLines, splitLinesAux_line (by decide)]
    rfl
  have hcons : ∀ rest, cronEntries path "crontab" (crontabMarker :: rest) =
      if crontabMarker = crontabMarker then cronEntries path "crontab" rest
      else if startsWith crontabMarker crondMarker then
        cronEntries path (strip (crontabMarker.drop 10)) rest
      else (cronEntry path "crontab" (strip crontabMarker)).toList ++
        cronEntries path "crontab" rest := fun _ => rfl
  rw [hlines, hcons, if_pos rfl, readTables]

end Tables

end PveZfsTool.Replication
