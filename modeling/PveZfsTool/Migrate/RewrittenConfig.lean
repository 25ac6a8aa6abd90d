import PveZfsTool.Migrate.LineRewrites

/-!
# The rewritten config

`parse_rewritten` says which disks the config reader finds in the text that
`rewrite_guest_config` returns, line by line.  The lines of the current state are
`IsPveLine`s.

* `lineKey_rewritten`: a line keeps its key, and gets none.
* `startsWith_rewritten`: a line starts no section.
* `rewriteGuestConfig_eq`: nothing is raised.
-/

namespace PveZfsTool

open Text

/-! ## The lines of a config -/

/-- The lines of the current state. -/
def currentLines (text : Str) : List Str :=
  (splitLines text).takeWhile (fun line => !startsWith line "[")

/-- A line of the current state as PVE writes it. -/
inductive IsPveLine : Str → Prop where
  | empty : IsPveLine []
  | comment (s : Str) : IsPveLine ('#' :: s)
  | entry (name value : Str) (hne : name ≠ []) (hname : ∀ c ∈ name, isStorageChar c = true) :
      IsPveLine (name ++ ':' :: ' ' :: value)

/-- The key of a line, as the config reader finds it. -/
def lineKey (line : Str) : Option Str := (keyLine (strip line)).map Prod.fst

section

variable {gtype text line key volid name v : Str} {S B : IdMap} {vmid : Vmid} {newVmid : Option Vmid}

theorem diskOfLine_nil (gtype : Str) : diskOfLine gtype [] = none := rfl

theorem noBreak_of_mem_currentLines (h : line ∈ currentLines text) : NoBreak line :=
  noBreak_of_mem_splitLines (List.takeWhile_subset _ h)

theorem parseGuestConfigDisks_eq (text gtype : Str) :
    parseGuestConfigDisks text gtype = (currentLines text).filterMap (diskOfLine gtype) := by
  have hbreak : ∀ l ∈ currentLines text, NoBreak l := fun l hl => noBreak_of_mem_currentLines hl
  have hlines := filterMap_splitLines_join hbreak (.inl rfl) (diskOfLine_nil gtype)
  rw [List.append_nil] at hlines
  exact hlines

theorem lineKey_of_disk (h : diskOfLine gtype line = some (key, volid)) : lineKey line = some key := by
  unfold diskOfLine at h
  rw [lineKey]
  split at h
  · cases h
  · rename_i k rest hkey
    rw [hkey]
    dsimp only at h
    split at h
    · cases h
    · rw [(Prod.mk.inj (Option.some.inj h)).1]
      rfl

theorem isDiskKey_of_disk (h : diskOfLine gtype line = some (key, volid)) : isDiskKey gtype key = true := by
  unfold diskOfLine at h
  split at h
  · cases h
  · rename_i k rest hkey
    dsimp only at h
    split at h
    · cases h
    · rename_i hdisk
      rw [← (Prod.mk.inj (Option.some.inj h)).1]
      by_contra hno
      exact hdisk (.inr (.inl hno))

/-- The key of a line that starts with a name and a colon. -/
theorem keyLine_strip_named (hne : name ≠ []) (hname : ∀ c ∈ name, isStorageChar c = true) :
    keyLine (strip (name ++ ':' :: v)) =
      if (name.dropWhile isAsciiLower).dropWhile isDecimal = [] ∧ name.takeWhile isAsciiLower ≠ []
      then some (name, rstrip v) else none := by
  obtain ⟨c, name, rfl⟩ := List.exists_cons_of_ne_nil hne
  have hc := isSpace_of_isVolumeChar (isVolumeChar_of_isStorageChar (hname c List.mem_cons_self))
  have hstrip : strip (c :: name ++ ':' :: v) = c :: name ++ ':' :: rstrip v := by
    rw [strip, List.cons_append, lstrip_cons hc, ← List.cons_append, rstrip_append_cons (by decide)]
  rw [hstrip, keyLine_append (not_mem_of_all hname (by decide))]

/-- A line that is dropped holds no disk. -/
theorem not_locked_of_disk (h : diskOfLine gtype line = some (key, volid)) :
    startsWith line "lock:" = false := by
  rw [Bool.eq_false_iff]
  intro hlock
  obtain ⟨v, rfl⟩ := List.isPrefixOf_iff_prefix.mp hlock
  have hkey : lineKey (("lock" : Str) ++ ':' :: v) = some "lock" := by
    rw [lineKey, keyLine_strip_named (by decide) (by decide), if_pos ⟨by decide, by decide⟩]
    rfl
  have hdisk := isDiskKey_of_disk h
  obtain rfl : ("lock" : Str) = key := Option.some.inj (hkey.symm.trans (lineKey_of_disk h))
  unfold isDiskKey at hdisk
  split at hdisk <;> revert hdisk <;> decide

/-- A line keeps its key, and gets none. -/
theorem lineKey_rewritten (hline : IsPveLine line)
    (h : lineKey (rewrittenLine S B vmid newVmid line) = some key) : lineKey line = some key := by
  cases hline with
  | empty =>
    rw [rewrittenLine_nil] at h
    exact h
  | comment s =>
    obtain ⟨t, ht⟩ := @rewrittenLine_head '#' S B vmid newVmid s (by decide) (by decide)
    rw [ht, lineKey, strip_cons (by decide)] at h
    cases h
  | entry name value hne hname =>
    obtain ⟨v', hv'⟩ := rewrittenLine_named S B vmid newVmid value hne hname
    have hne' : renameFor vmid newVmid name ≠ [] := renameFor_ne_nil hne
    have hname' : ∀ c ∈ renameFor vmid newVmid name, isStorageChar c = true := by
      intro c hc
      rcases mem_renameFor hc with hc | hc
      · exact hname c hc
      · exact isStorageChar_of_renamed hc
    rw [hv', lineKey, keyLine_strip_named hne' hname'] at h
    rw [lineKey, keyLine_strip_named hne hname]
    split at h
    · rename_i hkey
      have hdash : '-' ∉ renameFor vmid newVmid name := by
        intro hmem
        rw [← List.takeWhile_append_dropWhile (p := isAsciiLower) (l := renameFor vmid newVmid name)] at hmem
        rcases List.mem_append.mp hmem with hmem | hmem
        · exact absurd (List.mem_takeWhile_imp hmem) (by decide)
        · exact absurd (List.dropWhile_eq_nil_iff.mp hkey.1 _ hmem) (by decide)
      have hsame : renameFor vmid newVmid name = name := renameFor_eq_self hdash
      rw [hsame] at h hkey
      rw [if_pos hkey]
      exact h
    · cases h

/-- Lines before a section keep their places when the dropped ones are taken out
and each of the others is rewritten. -/
theorem takeWhile_map_filter {α β : Type} {xs : List α} {p q : α → Bool} {p' : β → Bool} {f : α → β}
    (hinside : ∀ x ∈ xs.takeWhile p, p' (f x) = true) (hend : ∀ x, p x = false → q x = true ∧ p' (f x) = false) :
    ((xs.filter q).map f).takeWhile p' = ((xs.takeWhile p).filter q).map f := by
  induction xs with
  | nil => rfl
  | cons x xs ih =>
    cases hp : p x with
    | true =>
      rw [List.takeWhile_cons_of_pos hp] at hinside ⊢
      obtain ⟨hx, hxs⟩ := List.forall_mem_cons.mp hinside
      cases hq : q x with
      | true =>
        rw [List.filter_cons_of_pos hq, List.filter_cons_of_pos hq, List.map_cons, List.map_cons,
          List.takeWhile_cons_of_pos hx, ih hxs]
      | false =>
        rw [List.filter_cons_of_neg (by simp [hq]), List.filter_cons_of_neg (by simp [hq]), ih hxs]
    | false =>
      obtain ⟨hq, hx⟩ := hend x hp
      rw [List.takeWhile_cons_of_neg (by simp [hp]), List.filter_cons_of_pos hq, List.map_cons,
        List.takeWhile_cons_of_neg (by simp [hx])]
      rfl

/-- An empty line at the end holds nothing. -/
theorem filterMap_takeWhile_append_nil {α : Type} {xs : List Str} {p : Str → Bool} {read : Str → Option α}
    (hread : read [] = none) :
    ((xs ++ [[]]).takeWhile p).filterMap read = (xs.takeWhile p).filterMap read := by
  induction xs with
  | nil =>
    rw [List.nil_append, List.takeWhile_cons]
    split
    · exact List.filterMap_cons_none hread
    · rfl
  | cons x xs ih =>
    rw [List.cons_append, List.takeWhile_cons, List.takeWhile_cons]
    split
    · rw [List.filterMap_cons, List.filterMap_cons, ih]
    · rfl

theorem parse_join {lines : List Str} {tail : Str} (hbreak : ∀ l ∈ lines, NoBreak l)
    (htail : tail = [] ∨ tail = ['\n']) (gtype : Str) :
    parseGuestConfigDisks (join "\n" lines ++ tail) gtype =
      (lines.takeWhile (fun line => !startsWith line "[")).filterMap (diskOfLine gtype) := by
  have hcases : splitLines (join "\n" lines ++ tail) = lines ∨
      splitLines (join "\n" lines ++ tail) ++ [[]] = lines ∨
        splitLines (join "\n" lines ++ tail) = lines ++ [[]] := splitLines_join hbreak htail
  rw [parseGuestConfigDisks_eq, currentLines]
  rcases hcases with heq | heq | heq
  · rw [heq]
  · rw [← filterMap_takeWhile_append_nil (diskOfLine_nil gtype), heq]
  · rw [heq, filterMap_takeWhile_append_nil (diskOfLine_nil gtype)]

/-- A line of the current state starts no section on the target. -/
theorem startsWith_rewritten (hline : IsPveLine line) :
    startsWith (rewrittenLine S B vmid newVmid line) "[" = false := by
  rw [Bool.eq_false_iff]
  intro hstart
  obtain ⟨t, ht⟩ := List.isPrefixOf_iff_prefix.mp hstart
  cases hline with
  | empty =>
    rw [rewrittenLine_nil] at ht
    cases ht
  | comment s =>
    obtain ⟨t', ht'⟩ := @rewrittenLine_head '#' S B vmid newVmid s (by decide) (by decide)
    rw [ht'] at ht
    cases ht
  | entry name value hne hname =>
    obtain ⟨v', hv'⟩ := rewrittenLine_named S B vmid newVmid value hne hname
    obtain ⟨c, u, hc⟩ := List.exists_cons_of_ne_nil (@renameFor_ne_nil _ vmid newVmid hne)
    rw [hv', hc] at ht
    obtain rfl : '[' = c := (List.cons.inj ht).1
    have hmem : '[' ∈ renameFor vmid newVmid name := hc ▸ List.mem_cons_self
    rcases mem_renameFor hmem with hmem | hmem
    · exact absurd (hname _ hmem) (by decide)
    · exact absurd (isStorageChar_of_renamed hmem) (by decide)

theorem rewriteGuestConfig_eq (text : Str) (S B : IdMap) (vmid : Vmid) (newVmid : Option Vmid) :
    rewriteGuestConfig text S.entries B.entries (some vmid.text) (newVmid.map Vmid.text) =
      .ok (join "\n" ((unlockedLines text).map (rewrittenLine S B vmid newVmid)) ++
        (if text ≠ [] ∧ text.getLast? ≠ some '\n' then ("\n" : Str) else [])) := by
  have hlines : (fun line => rewriteLine S.entries B.entries (some vmid.text) (newVmid.map Vmid.text) line) =
      fun line => pure (rewrittenLine S B vmid newVmid line) := funext (rewriteLine_eq S B vmid newVmid)
  rw [rewriteGuestConfig]
  show ((unlockedLines text).mapM (fun line => rewriteLine _ _ _ _ line) >>= _) = _
  rw [hlines, List.mapM_pure]
  rfl

/-- The disks of the rewritten config are those of the rewritten lines. -/
theorem parse_rewritten (S B : IdMap) (vmid : Vmid) (newVmid : Option Vmid) (gtype : Str)
    (h : ∀ line ∈ currentLines text, IsPveLine line) :
    ∃ text', rewriteGuestConfig text S.entries B.entries (some vmid.text) (newVmid.map Vmid.text) = .ok text' ∧
      parseGuestConfigDisks text' gtype =
        ((currentLines text).filter (fun line => !startsWith line "lock:")).filterMap
          (fun line => diskOfLine gtype (rewrittenLine S B vmid newVmid line)) := by
  refine ⟨_, rewriteGuestConfig_eq text S B vmid newVmid, ?_⟩
  have hbreak : ∀ l ∈ (unlockedLines text).map (rewrittenLine S B vmid newVmid), NoBreak l := by
    intro l hl
    obtain ⟨line, hline, rfl⟩ := List.mem_map.mp hl
    exact noBreak_rewrittenLine (noBreak_of_mem_splitLines (List.mem_of_mem_filter hline))
  have hsections : ((unlockedLines text).map (rewrittenLine S B vmid newVmid)).takeWhile
      (fun line => !startsWith line "[") =
        ((currentLines text).filter (fun line => !startsWith line "lock:")).map (rewrittenLine S B vmid newVmid) := by
    refine takeWhile_map_filter (fun line hline => ?_) fun line hline => ?_
    · rw [startsWith_rewritten (h line hline)]
      rfl
    · rw [Bool.not_eq_false'] at hline
      obtain ⟨t, rfl⟩ := List.isPrefixOf_iff_prefix.mp hline
      obtain ⟨u, hu⟩ := @rewrittenLine_head '[' S B vmid newVmid t (by decide) (by decide)
      refine ⟨rfl, ?_⟩
      show (!startsWith (rewrittenLine S B vmid newVmid ('[' :: t)) "[") = false
      rw [hu]
      rfl
  have htail : (if text ≠ [] ∧ text.getLast? ≠ some '\n' then ("\n" : Str) else []) = [] ∨
      (if text ≠ [] ∧ text.getLast? ≠ some '\n' then ("\n" : Str) else []) = ['\n'] := by
    split
    · exact .inr rfl
    · exact .inl rfl
  rw [parse_join hbreak htail, hsections, List.filterMap_map]
  rfl

end

end PveZfsTool
