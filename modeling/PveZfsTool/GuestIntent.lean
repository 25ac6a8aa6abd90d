import PveZfsTool.Host
import PveZfsTool.Lib.Dict
import PveZfsTool.Lib.Strip
import PveZfsTool.Replication.Inventory

/-!
# Declared exceptions

A guest that is left without a backup or a replica on purpose carries a tag in
Proxmox.  `app/guest_intent.py` reads the tags of a guest, sets or removes its
own two among them, and writes the whole list back.

* `newTags_eq` says what the new list is: the tags of others, then the tags of
  the tool that are asked for.
* `tagsOf_join` reads a list back from the text that is written.
* `setException_meets` is the run of `set_exception` as one judgement.
-/

namespace PveZfsTool.GuestIntent

open Text Dialogue

/-! ## The tags of the tool -/

/-- `KINDS` -/
inductive Kind where
  | backup
  | replication
  deriving DecidableEq

def Kind.text : Kind → Str
  | .backup => "backup"
  | .replication => "replication"

def kinds : List Kind := [.backup, .replication]

/-- `TAG_NO_BACKUP` and `TAG_NO_REPLICATION` -/
def Kind.tag : Kind → Str
  | .backup => "no-backup"
  | .replication => "no-replication"

/-- `_TAG_RE` -/
def isTag (s : Str) : Bool :=
  match s with
  | [] => false
  | c :: t => isWord c && atDollar (fun t => t.all (fun d => isWord d || "-+.".toList.contains d)) t

/-- `_valid_tag` -/
def validTag (tag : Option Str) : Option Str :=
  let tag := strip (tag.getD [])
  if tag ≠ [] ∧ isTag tag = true then some tag else none

/-- `tag_names`, with the tags of the config -/
def tagNames (configured : Kind → Option Str) (kind : Kind) : Str :=
  (validTag (configured kind)).getD kind.tag

/-- The tag of a kind where the config names none. -/
def toolTag (kind : Kind) : Str := tagNames (fun _ => none) kind

/-- `str.lower`, of which it is known that it keeps the two tags apart. -/
structure Lowering where
  lower : Str → Str
  apart : lower (toolTag .backup) ≠ lower (toolTag .replication)

/-! ## Reading -/

/-- The pieces of `re.split(r"[;,]", s)`, stripped and without the empty ones. -/
def tagsOf (s : Str) : List Str :=
  (((splitOn ';' s).flatMap (splitOn ',')).map strip).filter (fun t => t ≠ [])

/-- The tags on the first line of them before a section. -/
def tagsBeforeSection : List Str → List Str
  | [] => []
  | line :: rest =>
      if startsWith line "[" then []
      else if startsWith line "tags:" then tagsOf (line.drop 5)
      else tagsBeforeSection rest

/-- `parse_current_tags` -/
def parseCurrentTags (stdout : Str) : List Str := tagsBeforeSection (splitLines stdout)

/-- `/(\d+)\.conf$` in a path -/
def pathVmid (path : Str) : Option Str :=
  let file := afterLast '/' path
  let vmid := file.take (file.length - 5)
  if '/' ∈ path ∧ file = vmid ++ (".conf" : Str) ∧ vmid ≠ [] ∧ vmid.all isDecimal = true then
    some vmid
  else none

/-- The guest of a line and its tags. -/
def tagLine (line : Str) : Option (Str × List Str) :=
  let rest := strip (afterFirst '\t' line)
  if '\t' ∈ line ∧ startsWith rest "tags:" = true then
    (pathVmid (strip (beforeFirst '\t' line))).map (fun vmid => (vmid, tagsOf (rest.drop 5)))
  else none

/-- `parse_tag_lines` -/
def parseTagLines (stdout : Str) : Dict Str (List Str) :=
  ((splitLines stdout).filterMap tagLine).foldl (fun d p => d.set p.1 p.2) Dict.empty

/-- The exceptions of one guest. -/
structure Flags where
  noBackup : Bool
  noReplication : Bool
  deriving DecidableEq

/-- A tag of the list is the tag of the kind, whatever its case. -/
def declares (L : Lowering) (tags : List Str) (kind : Kind) : Bool :=
  tags.any (fun t => L.lower t = L.lower (toolTag kind))

def flagsOf (L : Lowering) (tags : List Str) : Flags where
  noBackup := declares L tags .backup
  noReplication := declares L tags .replication

/-- `exceptions_from_tags` -/
def exceptionsFromTags (L : Lowering) (tagsByVmid : Dict Str (List Str)) : List (Str × Flags) :=
  (tagsByVmid.entries.map (fun e => (e.1, flagsOf L e.2))).filter
    (fun e => e.2.noBackup || e.2.noReplication)

/-! ## Writing -/

/-- `apply_tag` -/
def applyTag (L : Lowering) (current : List Str) (tag : Str) (enable : Bool) : List Str :=
  let kept := current.filter
    (fun t => strip t ≠ [] && decide (L.lower (strip t) ≠ L.lower (strip tag)))
  if enable then kept ++ [tag] else kept

/-- The kinds of the request that the tool knows. -/
def knownKinds (requested : List Str) : List Str :=
  requested.filter (fun k => (kinds.map Kind.text).contains k)

/-- The loop of `set_exception` over the names. -/
def newTags (L : Lowering) (cur requested : List Str) : List Str :=
  kinds.foldl (fun new kind => applyTag L new (toolTag kind) (requested.contains kind.text)) cur

/-- The lists differ in more than order and case. -/
def differs (L : Lowering) (new cur : List Str) : Bool :=
  (new.map L.lower).insertionSort (fun s t => le s t = true) ≠
    (cur.map L.lower).insertionSort (fun s t => le s t = true)

/-- The record of `save_reason`, without the time. -/
structure Reason where
  kinds : List Str
  reason : Str
  by_ : Str
  deriving DecidableEq

/-- The commands of `set_exception`, and the two ways to keep its reason. -/
inductive IntentCmd where
  | guestType (vmid : Str)
  | readConfig (tool : Tool) (vmid : Str)
  | setTags (tool : Tool) (vmid tags : Str)
  | saveReason (vmid : Str) (record : Reason)
  | dropReason (vmid : Str)
  deriving DecidableEq

/-- The command line that is sent to the host. -/
def IntentCmd.text : IntentCmd → Option Str
  | .guestType vmid =>
      some ("[ -e /etc/pve/qemu-server/" ++ shlexQuote vmid ++ ".conf ] && echo qemu || \x7b [ -e " ++
        "/etc/pve/lxc/" ++ shlexQuote vmid ++ ".conf ] && echo lxc; \x7d")
  | .readConfig tool vmid =>
      some ("cat /etc/pve/" ++ tool.subdir ++ "/" ++ shlexQuote vmid ++ ".conf 2>/dev/null")
  | .setTags tool vmid tags =>
      some (tool.name ++ " set " ++ shlexQuote vmid ++ " --tags " ++ shlexQuote tags)
  | .saveReason .. => none
  | .dropReason _ => none

abbrev IntentJob (α : Type) := Prog IntentCmd Answer Exn α

/-- The dictionary that `set_exception` returns. -/
inductive SetResult where
  | failed (error : Str)
  | done (tags kinds : List Str)
  deriving DecidableEq

/-- Every guest type but `qemu` is handled as a container. -/
def toolOf (gtype : Str) : Tool := if gtype = "qemu" then .qm else .pct

/-- `save_reason`, or `drop_reason` where no kind is left -/
def keepReason (vmid : Str) (requested : List Str) (reason by_ : Str) : IntentJob Unit := do
  let _ ← Prog.issue
    (if requested ≠ [] then
      .saveReason vmid
        { kinds := sortedSet (knownKinds requested)
          reason := (strip reason).take 500
          by_ := (strip by_).take 100 }
    else .dropReason vmid)

/-- Write the tags, if they changed. -/
def writeTags (L : Lowering) (tool : Tool) (vmid : Str) (cur new : List Str) :
    IntentJob (Option Str) := do
  if differs L new cur = true then
    let r ← Prog.issue (.setTags tool vmid (join [';'] new))
    if r.success then return none
    else return some ((strip (if r.stderr = [] then "tag update failed" else r.stderr)).take 300)
  else return none

/-- `set_exception`, from the tags on -/
def updateTags (L : Lowering) (tool : Tool) (vmid : Str) (requested : List Str) (reason by_ : Str)
    (cur : List Str) : IntentJob SetResult := do
  let new := newTags L cur requested
  match ← writeTags L tool vmid cur new with
  | some error => return .failed error
  | none =>
      keepReason vmid requested reason by_
      return .done new requested

/-- `set_exception` -/
def setException (L : Lowering) (vmid : Str) (requested : List Str) (reason by_ : Str) :
    IntentJob SetResult := do
  let vmid := strip vmid
  if Replication.isDigitText vmid = true then
    let requested := knownKinds requested
    let probe ← Prog.issue (.guestType vmid)
    let gtype := if probe.success then strip probe.stdout else []
    if gtype = [] then
      return .failed (("guest " : Str) ++ vmid ++ " not found on this host")
    else
      let config ← Prog.issue (.readConfig (toolOf gtype) vmid)
      if config.success then
        updateTags L (toolOf gtype) vmid requested reason by_ (parseCurrentTags config.stdout)
      else return .failed "could not read the guest's current tags"
  else return .failed "invalid vmid"

/-! ## The text of a tag -/

/-- A tag as it is read from a config line. -/
structure TagText (t : Str) : Prop where
  stripped : IsStripped t
  nonempty : t ≠ []
  semicolon : ';' ∉ t
  comma : ',' ∉ t
  noBreak : NoBreak t

theorem tagText_toolTag (kind : Kind) : TagText (toolTag kind) := by
  cases kind <;> exact ⟨by decide, by decide, by decide, by decide, by decide⟩

theorem tagText_of_mem_tagsOf {s t : Str} (hs : NoBreak s) (h : t ∈ tagsOf s) : TagText t := by
  obtain ⟨hmem, hne⟩ := List.mem_filter.mp h
  obtain ⟨raw, hraw, rfl⟩ := List.mem_map.mp hmem
  obtain ⟨piece, hpiece, hpart⟩ := List.mem_flatMap.mp hraw
  have hchars : ∀ c ∈ raw, c ∈ piece := fun c hc => mem_of_mem_splitOn hpart hc
  have hline : ∀ c ∈ piece, c ∈ s := fun c hc => mem_of_mem_splitOn hpiece hc
  refine ⟨isStripped_strip raw, by simpa using hne, ?_, ?_, ?_⟩
  · exact fun hc => not_mem_of_mem_splitOn hpiece (hchars _ (mem_of_mem_strip hc))
  · exact fun hc => not_mem_of_mem_splitOn hpart (mem_of_mem_strip hc)
  · exact fun c hc => hs c (hline c (hchars c (mem_of_mem_strip hc)))

theorem exists_line_of_mem {lines : List Str} {t : Str} (h : t ∈ tagsBeforeSection lines) :
    ∃ line ∈ lines, t ∈ tagsOf (line.drop 5) := by
  induction lines with
  | nil => cases h
  | cons line rest ih =>
    rw [tagsBeforeSection] at h
    by_cases hsection : startsWith line "[" = true
    · rw [if_pos hsection] at h
      cases h
    · rw [if_neg hsection] at h
      by_cases htags : startsWith line "tags:" = true
      · rw [if_pos htags] at h
        exact ⟨line, List.mem_cons_self, h⟩
      · rw [if_neg htags] at h
        obtain ⟨line', hmem, ht⟩ := ih h
        exact ⟨line', List.mem_cons_of_mem _ hmem, ht⟩

theorem tagText_of_mem {stdout t : Str} (h : t ∈ parseCurrentTags stdout) : TagText t := by
  obtain ⟨line, hline, ht⟩ := exists_line_of_mem h
  have hbreak : NoBreak line := noBreak_of_mem_splitLines hline
  exact tagText_of_mem_tagsOf (fun c hc => hbreak c (List.mem_of_mem_drop hc)) ht

theorem tagsOf_cons_space (s : Str) : tagsOf (' ' :: s) = tagsOf s := by
  obtain ⟨part, parts, hs, hcons⟩ := splitOn_append_left (show ';' ∉ [' '] by decide) s
  obtain ⟨p, ps, hpart, hpcons⟩ := splitOn_append_left (show ',' ∉ [' '] by decide) part
  have hstrip : strip (' ' :: p) = strip p := strip_cons_space (by decide)
  rw [List.singleton_append] at hcons hpcons
  rw [List.singleton_append] at hcons hpcons
  rw [tagsOf, tagsOf, hs, hcons, List.flatMap_cons, List.flatMap_cons, hpart, hpcons,
    List.cons_append, List.cons_append, List.map_cons, List.map_cons, hstrip]

/-- The tags are read back from the text that is written for them. -/
theorem tagsOf_join {tags : List Str} (h : ∀ t ∈ tags, TagText t) : tagsOf (join [';'] tags) = tags := by
  have hcommas : ∀ ts : List Str, (∀ t ∈ ts, TagText t) → ts.flatMap (splitOn ',') = ts := by
    intro ts hts
    induction ts with
    | nil => rfl
    | cons t ts ih =>
      rw [List.flatMap_cons, splitOn_of_not_mem (hts t List.mem_cons_self).comma,
        ih (fun t ht => hts t (List.mem_cons_of_mem _ ht)), List.singleton_append]
  have hstrips : tags.map strip = tags := by
    calc tags.map strip = tags.map id := List.map_congr_left (fun t ht => (h t ht).stripped)
      _ = tags := List.map_id tags
  have hfilter : tags.filter (fun t => t ≠ []) = tags :=
    List.filter_eq_self.mpr (fun t ht => by simpa using (h t ht).nonempty)
  by_cases hne : tags = []
  · rw [hne]
    rfl
  · rw [tagsOf, splitOn_join (fun t ht => (h t ht).semicolon) hne, hcommas tags h, hstrips, hfilter]

/-- The line that holds the tags. -/
def tagsLine (tags : List Str) : Str := ("tags:" : Str) ++ ' ' :: join [';'] tags

theorem noBreak_tagsLine {tags : List Str} (h : ∀ t ∈ tags, TagText t) : NoBreak (tagsLine tags) := by
  intro c hc
  obtain hc | hc := List.mem_append.mp hc
  · exact (show NoBreak "tags:" by decide) c hc
  · obtain rfl | hc := List.mem_cons.mp hc
    · decide
    · obtain hsep | ⟨t, ht, hct⟩ := mem_join hc
      · exact (show NoBreak [';'] by decide) c hsep
      · exact (h t ht).noBreak c hct

theorem parseCurrentTags_tagsLine {tags : List Str} (h : ∀ t ∈ tags, TagText t) :
    parseCurrentTags (tagsLine tags) = tags := by
  have hlines : splitLines (tagsLine tags) = [tagsLine tags] :=
    splitLines_line (noBreak_tagsLine h) (List.cons_ne_nil _ _)
  have hsection : ¬ startsWith (tagsLine tags) "[" = true := Bool.false_ne_true
  have htags : startsWith (tagsLine tags) "tags:" = true := rfl
  rw [parseCurrentTags, hlines, tagsBeforeSection, if_neg hsection, if_pos htags]
  show tagsOf (' ' :: join [';'] tags) = tags
  rw [tagsOf_cons_space, tagsOf_join h]

/-! ## The new list -/

section Merge

variable (L : Lowering)

/-- A tag that is none of the tool's. -/
def isForeign (t : Str) : Bool := kinds.all (fun kind => L.lower t ≠ L.lower (toolTag kind))

/-- The tags of the kinds in the request. -/
def askedTags (requested : List Str) : List Str :=
  (kinds.filter (fun kind => requested.contains kind.text)).map toolTag

variable {L}

theorem lower_toolTag_inj {k k' : Kind} (h : L.lower (toolTag k) = L.lower (toolTag k')) : k = k' := by
  cases k with
  | backup =>
    cases k' with
    | backup => rfl
    | replication => exact absurd h L.apart
  | replication =>
    cases k' with
    | backup => exact absurd h.symm L.apart
    | replication => rfl

theorem mem_kinds (kind : Kind) : kind ∈ kinds := by
  cases kind <;> decide

theorem not_isForeign_toolTag (kind : Kind) : isForeign L (toolTag kind) = false := by
  rw [isForeign, List.all_eq_false]
  exact ⟨kind, mem_kinds kind, by simp⟩

theorem mem_askedTags {requested : List Str} {t : Str} :
    t ∈ askedTags requested ↔ ∃ kind : Kind, kind.text ∈ requested ∧ toolTag kind = t := by
  rw [askedTags, List.mem_map]
  constructor
  · rintro ⟨kind, hkind, ht⟩
    exact ⟨kind, by simpa using (List.mem_filter.mp hkind).2, ht⟩
  · rintro ⟨kind, hkind, ht⟩
    exact ⟨kind, List.mem_filter.mpr ⟨mem_kinds kind, by simpa using hkind⟩, ht⟩

theorem applyTag_of_tagText {cur : List Str} (h : ∀ t ∈ cur, TagText t) (kind : Kind) (enable : Bool) :
    applyTag L cur (toolTag kind) enable =
      cur.filter (fun t => L.lower t ≠ L.lower (toolTag kind)) ++
        if enable then [toolTag kind] else [] := by
  have hkept : cur.filter (fun t => strip t ≠ [] &&
        decide (L.lower (strip t) ≠ L.lower (strip (toolTag kind)))) =
      cur.filter (fun t => L.lower t ≠ L.lower (toolTag kind)) := by
    refine List.filter_congr (fun t ht => ?_)
    have htool : strip (toolTag kind) = toolTag kind := (tagText_toolTag kind).stripped
    have hstrip : strip t = t := (h t ht).stripped
    simp [hstrip, htool, (h t ht).nonempty]
  rw [applyTag, hkept]
  cases enable with
  | false => simp
  | true => rfl

/-- The new list: the tags of others as they were, then the tags of the tool. -/
theorem newTags_eq {cur : List Str} (h : ∀ t ∈ cur, TagText t) (requested : List Str) :
    newTags L cur requested = cur.filter (isForeign L) ++ askedTags requested := by
  have hfirst : ∀ t ∈ applyTag L cur (toolTag .backup) (requested.contains Kind.backup.text),
      TagText t := by
    rw [applyTag_of_tagText h]
    intro t ht
    obtain ht | ht := List.mem_append.mp ht
    · exact h t (List.mem_of_mem_filter ht)
    · by_cases hasked : requested.contains Kind.backup.text = true
      · rw [if_pos hasked, List.mem_singleton] at ht
        exact ht ▸ tagText_toolTag .backup
      · rw [if_neg hasked] at ht
        cases ht
  have hforeign : cur.filter (isForeign L) =
      (cur.filter (fun t => L.lower t ≠ L.lower (toolTag .backup))).filter
        (fun t => L.lower t ≠ L.lower (toolTag .replication)) := by
    rw [List.filter_filter]
    refine List.filter_congr (fun t _ => ?_)
    simp [isForeign, kinds, Bool.and_comm]
  -- the tag for the backup survives the second step
  have hkept : ∀ b : Bool, (if b then [toolTag .backup] else []).filter
      (fun t => L.lower t ≠ L.lower (toolTag .replication)) = if b then [toolTag .backup] else [] := by
    intro b
    cases b with
    | false => rfl
    | true => simp [L.apart]
  have hasked : askedTags requested =
      (if requested.contains Kind.backup.text then [toolTag .backup] else []) ++
        if requested.contains Kind.replication.text then [toolTag .replication] else [] := by
    rw [askedTags, kinds, List.filter_cons, List.filter_cons, List.filter_nil]
    by_cases hb : requested.contains Kind.backup.text = true <;>
      by_cases hr : requested.contains Kind.replication.text = true <;>
      simp only [if_pos, hb, hr, List.map_cons, List.map_nil] <;> rfl
  show applyTag L (applyTag L cur (toolTag .backup) (requested.contains Kind.backup.text))
    (toolTag .replication) (requested.contains Kind.replication.text) = _
  rw [applyTag_of_tagText hfirst, applyTag_of_tagText h, List.filter_append, hkept, hforeign, hasked,
    List.append_assoc]

theorem tagText_of_mem_newTags {cur requested : List Str} (h : ∀ t ∈ cur, TagText t) {t : Str}
    (ht : t ∈ newTags L cur requested) : TagText t := by
  rw [newTags_eq h] at ht
  obtain ht | ht := List.mem_append.mp ht
  · exact h t (List.mem_of_mem_filter ht)
  · obtain ⟨kind, -, rfl⟩ := mem_askedTags.mp ht
    exact tagText_toolTag kind

theorem filter_isForeign_askedTags (requested : List Str) :
    (askedTags requested).filter (isForeign L) = [] := by
  rw [List.filter_eq_nil_iff]
  intro t ht
  obtain ⟨kind, -, rfl⟩ := mem_askedTags.mp ht
  rw [not_isForeign_toolTag]
  exact Bool.false_ne_true

theorem foreign_newTags {cur : List Str} (h : ∀ t ∈ cur, TagText t) (requested : List Str) :
    (newTags L cur requested).filter (isForeign L) = cur.filter (isForeign L) := by
  rw [newTags_eq h, List.filter_append, filter_isForeign_askedTags, List.append_nil, List.filter_filter]
  exact List.filter_congr (fun t _ => Bool.and_self _)

/-- The same change once more leaves the list as it is. -/
theorem newTags_newTags {cur : List Str} (h : ∀ t ∈ cur, TagText t) (requested : List Str) :
    newTags L (newTags L cur requested) requested = newTags L cur requested := by
  calc newTags L (newTags L cur requested) requested
      = (newTags L cur requested).filter (isForeign L) ++ askedTags requested :=
        newTags_eq (fun t ht => tagText_of_mem_newTags h ht) requested
    _ = cur.filter (isForeign L) ++ askedTags requested := by rw [foreign_newTags h]
    _ = newTags L cur requested := (newTags_eq h requested).symm

theorem declares_iff {tags : List Str} {kind : Kind} :
    declares L tags kind = true ↔ L.lower (toolTag kind) ∈ tags.map L.lower := by
  rw [declares, List.any_eq_true, List.mem_map]
  simp only [decide_eq_true_eq]

theorem declares_newTags {cur : List Str} (h : ∀ t ∈ cur, TagText t) (requested : List Str)
    (kind : Kind) : declares L (newTags L cur requested) kind = true ↔ kind.text ∈ requested := by
  rw [declares, List.any_eq_true]
  constructor
  · rintro ⟨t, ht, hlower⟩
    rw [decide_eq_true_eq] at hlower
    rw [newTags_eq h] at ht
    obtain ht | ht := List.mem_append.mp ht
    · have hforeign := List.all_eq_true.mp (List.mem_filter.mp ht).2 kind (mem_kinds kind)
      exact absurd hlower (by simpa using hforeign)
    · obtain ⟨k, hk, rfl⟩ := mem_askedTags.mp ht
      rwa [← lower_toolTag_inj hlower]
  · intro hkind
    refine ⟨toolTag kind, ?_, by simp⟩
    rw [newTags_eq h]
    exact List.mem_append_right _ (mem_askedTags.mpr ⟨kind, hkind, rfl⟩)

theorem toolTag_mem_newTags {cur : List Str} (h : ∀ t ∈ cur, TagText t) (requested : List Str)
    (kind : Kind) : toolTag kind ∈ newTags L cur requested ↔ kind.text ∈ requested := by
  constructor
  · intro hmem
    exact (declares_newTags h requested kind).mp (declares_iff.mpr (List.mem_map_of_mem hmem))
  · intro hkind
    rw [newTags_eq h]
    exact List.mem_append_right _ (mem_askedTags.mpr ⟨kind, hkind, rfl⟩)

/-- Lists that do not differ declare the same. -/
theorem declares_of_not_differs {new cur : List Str} (h : differs L new cur = false) (kind : Kind) :
    declares L new kind = true ↔ declares L cur kind = true := by
  have hsort : (new.map L.lower).insertionSort (fun s t => le s t = true) =
      (cur.map L.lower).insertionSort (fun s t => le s t = true) := by
    simpa [differs] using h
  have hnew := List.perm_insertionSort (fun s t => le s t = true) (new.map L.lower)
  rw [hsort] at hnew
  have hperm : (new.map L.lower).Perm (cur.map L.lower) :=
    hnew.symm.trans (List.perm_insertionSort _ _)
  rw [declares_iff, declares_iff, hperm.mem_iff]

end Merge

/-! ## Reading the written tags -/

theorem isSpace_getLast_join {tags : List Str} (h : ∀ t ∈ tags, TagText t) :
    ∀ d ∈ (join [';'] tags).getLast?, isSpace d = false := by
  induction tags with
  | nil =>
    intro d hd
    cases hd
  | cons t tags ih =>
    cases tags with
    | nil =>
      intro d hd
      have ht : strip t = t := (h t List.mem_cons_self).stripped
      have hlast : d ∈ (strip t).getLast? := by
        rw [ht]
        exact hd
      exact isSpace_getLast_strip hlast
    | cons u tags =>
      intro d hd
      have hrest := ih (fun t ht => h t (List.mem_cons_of_mem _ ht))
      have hd' : d ∈ (t ++ [';'] ++ join [';'] (u :: tags)).getLast? := hd
      rw [Option.mem_def, List.getLast?_append] at hd'
      cases hjoin : (join [';'] (u :: tags)).getLast? with
      | some e =>
        rw [hjoin, Option.some_or] at hd'
        exact hrest d (hjoin.trans hd')
      | none =>
        rw [hjoin, Option.none_or, List.getLast?_append] at hd'
        obtain rfl : ';' = d := Option.some.inj hd'
        decide

/-- The tags as the other reader cuts them out of the line. -/
theorem tagsOf_strip_tagsLine {tags : List Str} (h : ∀ t ∈ tags, TagText t) :
    startsWith (strip (tagsLine tags)) "tags:" = true ∧
      tagsOf ((strip (tagsLine tags)).drop 5) = tags := by
  have hhead : ∀ c ∈ ("tags:" : Str).head?, isSpace c = false := by
    intro c hc
    obtain rfl : 't' = c := Option.some.inj hc
    decide
  have hlast : ∀ c ∈ ("tags:" : Str).getLast?, isSpace c = false := by
    intro c hc
    obtain rfl : ':' = c := Option.some.inj hc
    decide
  have hstrip : strip (tagsLine tags) = "tags:" ++ rstrip (' ' :: join [';'] tags) :=
    strip_append_of_ends (List.cons_ne_nil _ _) hhead hlast
  have hdrop : (strip (tagsLine tags)).drop 5 = rstrip (' ' :: join [';'] tags) := by
    rw [hstrip]
    rfl
  refine ⟨by rw [hstrip]; rfl, ?_⟩
  rw [hdrop]
  cases hjoin : join [';'] tags with
  | nil =>
    have hread := tagsOf_join h
    rw [hjoin] at hread
    exact hread
  | cons c s =>
    have hlast : ∀ d ∈ (' ' :: c :: s).getLast?, isSpace d = false := by
      intro d hd
      rw [List.getLast?_cons_cons, ← hjoin] at hd
      exact isSpace_getLast_join h d hd
    have hkept := rstrip_append_of_getLast (t := []) (List.cons_ne_nil ' ' (c :: s)) hlast
    rw [List.append_nil, show rstrip [] = [] from rfl, List.append_nil] at hkept
    rw [hkept, tagsOf_cons_space, ← hjoin, tagsOf_join h]

section Collect

variable {vmid : Str}

/-- The directory of the configs, up to its slash. -/
def confDir (tool : Tool) : Str := ("/etc/pve/" : Str) ++ tool.subdir

theorem confPath_eq (tool : Tool) (vmid : Str) :
    confPath tool vmid = confDir tool ++ '/' :: (vmid ++ (".conf" : Str)) := by
  have hassoc : ∀ dir v conf : Str, dir ++ ['/'] ++ v ++ conf = dir ++ '/' :: (v ++ conf) := by
    intro dir v conf
    simp
  exact hassoc (confDir tool) vmid ".conf"

theorem pathVmid_confPath (tool : Tool) (hne : vmid ≠ []) (hvmid : ∀ c ∈ vmid, isDecimal c = true) :
    pathVmid (confPath tool vmid) = some vmid := by
  have hslash : '/' ∉ vmid ++ (".conf" : Str) := by
    intro hmem
    obtain hmem | hmem := List.mem_append.mp hmem
    · have hdecimal := hvmid _ hmem
      revert hdecimal
      decide
    · revert hmem
      decide
  have hfile : afterLast '/' (confPath tool vmid) = vmid ++ (".conf" : Str) := by
    rw [confPath_eq, afterLast_append hslash]
  have htake : (vmid ++ (".conf" : Str)).take ((vmid ++ (".conf" : Str)).length - 5) = vmid := by
    have hlength : (vmid ++ (".conf" : Str)).length - 5 = vmid.length := by
      rw [List.length_append, show (".conf" : Str).length = 5 from rfl]
      omega
    rw [hlength, List.take_left]
  have hmem : '/' ∈ confPath tool vmid := by
    rw [confPath_eq]
    exact List.mem_append_right _ List.mem_cons_self
  simp only [pathVmid, hfile, htake]
  rw [if_pos ⟨hmem, trivial, hne, List.all_eq_true.mpr hvmid⟩]

theorem isSpace_confPath (tool : Tool) (hvmid : ∀ c ∈ vmid, isDecimal c = true) :
    ∀ c ∈ confPath tool vmid, isSpace c = false := by
  intro c hc
  rw [confPath_eq] at hc
  obtain hc | hc := List.mem_append.mp hc
  · have hdir : ∀ d ∈ confDir tool, isSpace d = false := by
      cases tool <;> decide
    exact hdir c hc
  · obtain rfl | hc := List.mem_cons.mp hc
    · decide
    · obtain hc | hc := List.mem_append.mp hc
      · exact isSpace_of_isDecimal (hvmid c hc)
      · have hconf : ∀ d ∈ (".conf" : Str), isSpace d = false := by decide
        exact hconf c hc

/-- The line that the command prints for a guest. -/
def readTagsLine (tool : Tool) (vmid : Str) (tags : List Str) : Str :=
  confPath tool vmid ++ '\t' :: tagsLine tags

theorem tagLine_readTagsLine {tool : Tool} {tags : List Str} (hne : vmid ≠ [])
    (hvmid : ∀ c ∈ vmid, isDecimal c = true) (h : ∀ t ∈ tags, TagText t) :
    tagLine (readTagsLine tool vmid tags) = some (vmid, tags) := by
  have hspace := isSpace_confPath tool hvmid
  have htab : '\t' ∉ confPath tool vmid := by
    intro hmem
    have htab := hspace _ hmem
    revert htab
    decide
  obtain ⟨hstart, htags⟩ := tagsOf_strip_tagsLine h
  have hmem : '\t' ∈ readTagsLine tool vmid tags := List.mem_append_right _ List.mem_cons_self
  simp only [tagLine, readTagsLine, beforeFirst_append htab, afterFirst_append htab]
  rw [if_pos ⟨hmem, hstart⟩, strip_eq_self hspace, pathVmid_confPath tool hne hvmid, Option.map_some,
    htags]

theorem parseTagLines_readTagsLine {tool : Tool} {tags : List Str} (hne : vmid ≠ [])
    (hvmid : ∀ c ∈ vmid, isDecimal c = true) (h : ∀ t ∈ tags, TagText t) :
    (parseTagLines (readTagsLine tool vmid tags)).entries = [(vmid, tags)] := by
  have hbreak : NoBreak (readTagsLine tool vmid tags) := by
    intro c hc
    obtain hc | hc := List.mem_append.mp hc
    · exact isLineBreak_of_isSpace (isSpace_confPath tool hvmid c hc)
    · obtain rfl | hc := List.mem_cons.mp hc
      · decide
      · exact noBreak_tagsLine h c hc
  have hlines : splitLines (readTagsLine tool vmid tags) = [readTagsLine tool vmid tags] :=
    splitLines_line hbreak (by simp [readTagsLine])
  rw [parseTagLines, hlines, List.filterMap_cons, tagLine_readTagsLine hne hvmid h]
  rfl

end Collect

/-! ## Setting an exception -/

/-- The entry of a guest with the kinds of a request, if there are any. -/
def askedEntry (vmid : Str) (requested : List Str) : List (Str × Flags) :=
  let flags : Flags :=
    { noBackup := requested.contains Kind.backup.text
      noReplication := requested.contains Kind.replication.text }
  if flags.noBackup || flags.noReplication then [(vmid, flags)] else []

/-- What the new list of tags is to the list before and to the request. -/
structure Merged (L : Lowering) (tool : Tool) (vmid : Str) (cur requested new : List Str) : Prop where
  /-- The tags of others are there as before, in their order. -/
  foreign : new.filter (isForeign L) = cur.filter (isForeign L)
  tag_mem : ∀ kind : Kind, toolTag kind ∈ new ↔ kind.text ∈ requested
  again : newTags L new requested = new
  /-- The config text with the tags reads as the list. -/
  reread : parseCurrentTags (tagsLine new) = new
  readBack : exceptionsFromTags L (Dict.empty.set vmid new) = askedEntry vmid requested
  /-- So does the line of the command that reads the tags of all guests. -/
  collected : vmid ≠ [] → (∀ c ∈ vmid, isDecimal c = true) →
    exceptionsFromTags L (parseTagLines (readTagsLine tool vmid new)) = askedEntry vmid requested

section Runs

variable {L : Lowering} {tool : Tool} {vmid : Str} {requested : List Str} {h : History IntentCmd Answer}

theorem contains_knownKinds (kind : Kind) :
    kind.text ∈ knownKinds requested ↔ kind.text ∈ requested := by
  have hknown : (kinds.map Kind.text).contains kind.text = true := by
    simpa using List.mem_map_of_mem (f := Kind.text) (mem_kinds kind)
  rw [knownKinds, List.mem_filter]
  exact and_iff_left hknown

/-- The exceptions of one guest with the new list. -/
theorem exceptionsFromTags_newTags {cur : List Str} (hcur : ∀ t ∈ cur, TagText t)
    {d : Dict Str (List Str)} (hd : d.entries = [(vmid, newTags L cur requested)]) :
    exceptionsFromTags L d = askedEntry vmid requested := by
  have hflags : ∀ kind : Kind,
      declares L (newTags L cur requested) kind = requested.contains kind.text := by
    intro kind
    rw [Bool.eq_iff_iff, declares_newTags hcur, List.contains_iff_mem]
  rw [exceptionsFromTags, hd, List.map_singleton, flagsOf, hflags, hflags, List.filter_singleton,
    cond_eq_ite, askedEntry]

theorem merged_newTags {cur : List Str} (hcur : ∀ t ∈ cur, TagText t) :
    Merged L tool vmid cur requested (newTags L cur requested) where
  foreign := foreign_newTags hcur requested
  tag_mem := toolTag_mem_newTags hcur requested
  again := newTags_newTags hcur requested
  reread := parseCurrentTags_tagsLine (fun _ ht => tagText_of_mem_newTags hcur ht)
  readBack := exceptionsFromTags_newTags hcur rfl
  collected hne hvmid := exceptionsFromTags_newTags hcur
    (parseTagLines_readTagsLine hne hvmid (fun _ ht => tagText_of_mem_newTags hcur ht))

/-- The unknown kinds of a request change nothing. -/
theorem newTags_knownKinds (cur : List Str) :
    newTags L cur (knownKinds requested) = newTags L cur requested := by
  have hcontains : ∀ kind : Kind,
      (knownKinds requested).contains kind.text = requested.contains kind.text := by
    intro kind
    rw [Bool.eq_iff_iff, List.contains_iff_mem, List.contains_iff_mem, contains_knownKinds]
  simp only [newTags, hcontains]

variable (L requested) in
/-- What is written is the new list for the tags that were read. -/
def WritesMerged (pre : History IntentCmd Answer) (q : IntentCmd) : Prop :=
  ∀ tool vmid text, q = .setTags tool vmid text →
    ∃ config, (IntentCmd.readConfig tool vmid, config) ∈ pre ∧ ∃ new, text = join [';'] new ∧
      Merged L tool vmid (parseCurrentTags config.stdout) requested new

variable (L requested) in
/-- A successful result is the new list, and the guest has it or declared the
kinds of the request before. -/
def EndsMerged (tr : History IntentCmd Answer) (o : Except Exn SetResult) : Prop :=
  ∀ tags ks, o = .ok (.done tags ks) →
    ∃ tool vmid config, (IntentCmd.readConfig tool vmid, config) ∈ tr ∧
      Merged L tool vmid (parseCurrentTags config.stdout) requested tags ∧
      ((∃ a, (IntentCmd.setTags tool vmid (join [';'] tags), a) ∈ tr ∧ a.success = true) ∨
        ∀ kind : Kind, declares L (parseCurrentTags config.stdout) kind = true ↔
          kind.text ∈ requested)

theorem writesMerged_of_ne {q : IntentCmd} (hq : ∀ tool vmid text, q ≠ .setTags tool vmid text) :
    WritesMerged L requested h q := fun tool vmid text heq => absurd heq (hq tool vmid text)

theorem meets_writeTags {config : Answer} (hread : (IntentCmd.readConfig tool vmid, config) ∈ h) :
    (writeTags L tool vmid (parseCurrentTags config.stdout)
        (newTags L (parseCurrentTags config.stdout) requested)).Meets (WritesMerged L requested)
      (fun h' o => (∃ ext, h' = h ++ ext) ∧ (o = .ok none →
        (∃ a, (IntentCmd.setTags tool vmid
            (join [';'] (newTags L (parseCurrentTags config.stdout) requested)), a) ∈ h' ∧
          a.success = true) ∨
        ∀ kind : Kind, declares L (parseCurrentTags config.stdout) kind = true ↔
          kind.text ∈ requested)) h := by
  have hcur : ∀ t ∈ parseCurrentTags config.stdout, TagText t := fun t ht => tagText_of_mem ht
  rw [writeTags]
  by_cases hdiff : differs L (newTags L (parseCurrentTags config.stdout) requested)
      (parseCurrentTags config.stdout) = true
  · rw [if_pos hdiff]
    refine (Prog.Meets.issue ?_).bind (fun h' r hpost => ?_) (fun h' e hpost => ?_)
    · intro tool' vmid' text heq
      obtain ⟨rfl, rfl, rfl⟩ := IntentCmd.setTags.inj heq
      exact ⟨config, hread, _, rfl, merged_newTags hcur⟩
    · obtain ⟨a, rfl, hr⟩ := hpost
      obtain rfl := Except.ok.inj hr
      by_cases hok : r.success = true
      · rw [if_pos hok]
        refine ⟨⟨_, rfl⟩, fun _ => .inl ⟨r, List.mem_append_right _ (List.mem_singleton.mpr rfl), hok⟩⟩
      · rw [if_neg hok]
        refine ⟨⟨_, rfl⟩, fun heq => ?_⟩
        cases heq
    · obtain ⟨a, -, hr⟩ := hpost
      cases hr
  · rw [if_neg hdiff]
    refine ⟨⟨[], (List.append_nil h).symm⟩, fun _ => .inr (fun kind => ?_)⟩
    have hsame := declares_of_not_differs (eq_false_of_ne_true hdiff) kind
    rw [← hsame, declares_newTags hcur]

theorem meets_updateTags {reason by_ : Str} {config : Answer}
    (hread : (IntentCmd.readConfig tool vmid, config) ∈ h) :
    (updateTags L tool vmid (knownKinds requested) reason by_ (parseCurrentTags config.stdout)).Meets
      (WritesMerged L requested) (EndsMerged L requested) h := by
  have hcur : ∀ t ∈ parseCurrentTags config.stdout, TagText t := fun t ht => tagText_of_mem ht
  rw [updateTags, newTags_knownKinds]
  refine (meets_writeTags hread).bind (fun h' written hpost => ?_) (fun h' e _ tags ks heq => ?_)
  · obtain ⟨⟨ext, rfl⟩, hwritten⟩ := hpost
    cases written with
    | some error =>
      intro tags ks heq
      cases heq
    | none =>
      refine ⟨writesMerged_of_ne ?_, fun a tags ks heq => ?_⟩
      · intro tool' vmid' text
        by_cases hkinds : knownKinds requested ≠ []
        · rw [if_pos hkinds]
          exact IntentCmd.noConfusion
        · rw [if_neg hkinds]
          exact IntentCmd.noConfusion
      · obtain ⟨rfl, -⟩ := SetResult.done.inj (Except.ok.inj heq)
        refine ⟨tool, vmid, config, List.mem_append_left _ (List.mem_append_left _ hread),
          merged_newTags hcur, ?_⟩
        obtain ⟨r, hr, hok⟩ | hdeclared := hwritten rfl
        · exact .inl ⟨r, List.mem_append_left _ hr, hok⟩
        · exact .inr hdeclared
  · cases heq

/-- `set_exception` writes the new list only, and ends with it. -/
theorem setException_meets {reason by_ : Str} :
    (setException L vmid requested reason by_).Meets (WritesMerged L requested)
      (EndsMerged L requested) [] := by
  have hfail : ∀ (h : History IntentCmd Answer) (error : Str),
      EndsMerged L requested h (.ok (.failed error)) := by
    intro h error tags ks heq
    cases heq
  rw [setException]
  by_cases hvmid : Replication.isDigitText (strip vmid) = true
  · rw [if_pos hvmid]
    refine ⟨writesMerged_of_ne (fun _ _ _ => IntentCmd.noConfusion), fun probe => ?_⟩
    show Prog.Meets _ _
      (if (if probe.success = true then strip probe.stdout else []) = [] then _ else _) _
    by_cases hgtype : (if probe.success = true then strip probe.stdout else []) = []
    · rw [if_pos hgtype]
      exact hfail _ _
    · rw [if_neg hgtype]
      refine ⟨writesMerged_of_ne (fun _ _ _ => IntentCmd.noConfusion), fun config => ?_⟩
      show Prog.Meets _ _ (if config.success = true then _ else _) _
      by_cases hread : config.success = true
      · rw [if_pos hread]
        exact meets_updateTags (List.mem_append_right _ (List.mem_singleton.mpr rfl))
      · rw [if_neg hread]
        exact hfail _ _
  · rw [if_neg hvmid]
    exact hfail _ _

end Runs

/-- `str.lower` on ASCII text. -/
def asciiLowering : Lowering := ⟨lower, by decide⟩

/-- A guest with a tag of the tool in capitals, which is asked for the other. -/
def webRun : History IntentCmd Answer :=
  [(.guestType "100", { success := true, stdout := "qemu\n", stderr := [] }),
    (.readConfig .qm "100",
      { success := true, stdout := "tags: db;NO-Backup, web\n[s]\ntags: no-backup\n", stderr := [] }),
    (.setTags .qm "100" "db;web;no-replication", { success := true, stdout := [], stderr := [] }),
    (.saveReason "100" { kinds := ["replication".toList], reason := "scratch", by_ := "admin" },
      { success := true, stdout := [], stderr := [] })]

end PveZfsTool.GuestIntent
