import PveZfsTool.Migrate.ConfigLines
import PveZfsTool.Migrate.IdMaps
import PveZfsTool.Migrate.VolumeNames

/-!
# The lines of a rewritten config

`rewrittenLine` is the loop body of `rewrite_guest_config`, for maps and VMIDs
that raise nothing (`rewriteLine_eq`).

* `rewrittenLine_head`: a comment stays one, and so does the start of a section.
* `rewrittenLine_named`: a line `name: value` stays one.
* `rewrittenLine_disk`: a disk line stays one.  Its storage goes through the
  entries of the map, and the storage, the base and the leaf are renamed for the
  VMID, each of them alone.
-/

namespace PveZfsTool

open Text

/-! ## What the patterns match -/

/-- The characters a storage may stand behind. -/
def isPrefixChar (c : Char) : Bool := isSpace c || c == ':' || c == ','

section

variable {old new s r x t name v w : Str} {prev : Option Char} {n : Nat} {c d : Char} {m : Str × Str}
  {ms : List (Str × Str)} {line : Str}

theorem isBridgeChar_eq (c : Char) : isBridgeChar c = isStorageChar c := by
  rw [Bool.eq_iff_iff]
  simp [isBridgeChar, isStorageChar, isKeyChar, or_assoc]

theorem isPrefixChar_of_isBridgeChar (h : isBridgeChar c = true) : isPrefixChar c = false := by
  have hvolume := isVolumeChar_of_isStorageChar (isBridgeChar_eq c ▸ h)
  simp only [isVolumeChar, Bool.and_eq_true, Bool.not_eq_true', bne_iff_ne] at hvolume
  simp [isPrefixChar, hvolume.1.1, hvolume.1.2, hvolume.2]

theorem opensAt_iff : opensAt old r = true ↔
    ∃ x, r = old ++ ':' :: x ∧ x.head?.any (fun c => !isSpace c) = true := by
  have hdrop : ∀ x : Str, (old ++ ":" ++ x).drop (old.length + 1) = x := fun x =>
    List.drop_left' (by simp)
  rw [opensAt, Bool.and_eq_true, startsWith, List.isPrefixOf_iff_prefix]
  constructor
  · rintro ⟨⟨x, rfl⟩, h⟩
    rw [hdrop] at h
    exact ⟨x, by simp, h⟩
  · rintro ⟨x, rfl, h⟩
    have hx := hdrop x
    have htext : old ++ ":" ++ x = old ++ ':' :: x := by simp
    rw [htext] at hx
    exact ⟨⟨x, htext⟩, by rwa [hx]⟩

/-- A match is the storage with the colon behind it, at the start of the line or
with a separator before it. -/
theorem storageMatcher_some (h : storageMatcher old new prev s = some (n, r)) :
    (∃ x, s = (old ++ ":" : Str) ++ x ∧ prev = none ∧ x.head?.any (fun c => !isSpace c) = true ∧
        n = (old ++ ":" : Str).length ∧ r = new ++ ":") ∨
      ∃ c x, s = (c :: (old ++ ":" : Str)) ++ x ∧ isPrefixChar c = true ∧
        x.head?.any (fun c => !isSpace c) = true ∧ n = (c :: (old ++ ":" : Str)).length ∧
          r = c :: (new ++ ":" : Str) := by
  have hcons : ∀ c s, (if (isPrefixChar c && opensAt old s) = true then
      some (old.length + 2, c :: new ++ ":") else none) = some (n, r) →
      ∃ x, c :: s = (c :: (old ++ ":" : Str)) ++ x ∧ isPrefixChar c = true ∧
        x.head?.any (fun c => !isSpace c) = true ∧ n = (c :: (old ++ ":" : Str)).length ∧
          r = c :: (new ++ ":" : Str) := by
    intro c s h
    split at h
    · rename_i hmatch
      obtain ⟨hc, hopens⟩ := (Bool.and_eq_true _ _).mp hmatch
      obtain ⟨x, rfl, hx⟩ := opensAt_iff.mp hopens
      obtain ⟨rfl, rfl⟩ := Prod.mk.inj (Option.some.inj h)
      exact ⟨x, by simp, hc, hx, by simp, rfl⟩
    · cases h
  cases prev with
  | some d =>
    cases s with
    | nil => cases h
    | cons c s =>
      rw [storageMatcher_cons] at h
      obtain ⟨x, heq, hrest⟩ := hcons c s h
      exact .inr ⟨c, x, heq, hrest⟩
  | none =>
    rw [storageMatcher_start] at h
    split at h
    · rename_i hopens
      obtain ⟨x, rfl, hx⟩ := opensAt_iff.mp hopens
      obtain ⟨rfl, rfl⟩ := Prod.mk.inj (Option.some.inj h)
      exact .inl ⟨x, by simp, rfl, hx, by simp, rfl⟩
    · cases s with
      | nil => cases h
      | cons c s =>
        rw [storageMatcher_cons] at h
        obtain ⟨x, heq, hrest⟩ := hcons c s h
        exact .inr ⟨c, x, heq, hrest⟩

theorem storageMatcher_proper (old new : Str) : Matcher.Proper (storageMatcher old new) := by
  intro prev s n r h
  rcases storageMatcher_some h with ⟨x, rfl, -, -, rfl, -⟩ | ⟨c, x, rfl, -, -, rfl, -⟩
  · simp only [List.length_append]
    exact ⟨by simp, by omega⟩
  · simp only [List.length_append]
    exact ⟨by simp, by omega⟩

theorem bridgeSub_some (h : bridgeSub m prev s = some (n, r)) :
    ∃ x, s = ("bridge=" ++ m.1) ++ x ∧ n = ("bridge=" ++ m.1 : Str).length ∧ r = "bridge=" ++ m.2 := by
  rw [bridgeSub, bridgeMatcher] at h
  split at h
  · rename_i hmatch
    obtain ⟨x, hx⟩ := List.isPrefixOf_iff_prefix.mp ((Bool.and_eq_true _ _).mp hmatch).1
    obtain ⟨rfl, rfl⟩ := Prod.mk.inj (Option.some.inj h)
    exact ⟨x, hx.symm, rfl, rfl⟩
  · cases h

theorem bridgeSub_proper (m : Str × Str) : (bridgeSub m).Proper := by
  intro prev s n r h
  obtain ⟨x, rfl, rfl, -⟩ := bridgeSub_some h
  have hlength : 0 < ("bridge=" ++ m.1 : Str).length := by
    rw [List.length_append]
    exact Nat.add_pos_left (by decide) _
  exact ⟨hlength, (List.prefix_append _ x).length_le⟩

end

/-! ## A line without the exceptions -/

/-- One bridge of the map applied to a line. -/
def bridgedLine (line : Str) (m : Str × Str) : Str :=
  if m.1 = [] ∨ m.2 = [] then line else substitute (bridgeSub m) none 0 line

/-- A line after the entries of the two maps. -/
def mappedLine (S B : IdMap) (line : Str) : Str :=
  B.entries.foldl bridgedLine (S.entries.foldl rewriteStorage line)

/-- What `rewrite_guest_config` makes of a line. -/
def rewrittenLine (S B : IdMap) (vmid : Vmid) (newVmid : Option Vmid) (line : Str) : Str :=
  renameFor vmid newVmid (mappedLine S B line)

section

variable {s r x t name v w line : Str} {prev : Option Char} {n : Nat} {c d : Char} {m : Str × Str}
  {ms : List (Str × Str)} {S B : IdMap} {vmid : Vmid} {newVmid : Option Vmid}

theorem rewriteBridge_eq (hm : IsEntry m) (line : Str) : rewriteBridge line m = .ok (bridgedLine line m) := by
  rw [rewriteBridge, bridgedLine]
  split_ifs
  · rfl
  · have hliteral : '\\' ∉ ("bridge=" ++ m.2 : Str) := by
      intro hmem
      rcases List.mem_append.mp hmem with hmem | hmem
      · exact absurd hmem (by decide)
      · exact (isBridgeChar_plain (hm.value _ hmem)).2.2 rfl
    simp only [expandTemplate_literal hliteral]
    rfl

theorem foldlM_rewriteBridge_eq (hms : ∀ m ∈ ms, IsEntry m) (line : Str) :
    ms.foldlM rewriteBridge line = .ok (ms.foldl bridgedLine line) := by
  induction ms generalizing line with
  | nil => rfl
  | cons m ms ih =>
    obtain ⟨hm, hms⟩ := List.forall_mem_cons.mp hms
    rw [List.foldlM_cons, rewriteBridge_eq hm]
    exact ih hms _

theorem rewriteLine_eq (S B : IdMap) (vmid : Vmid) (newVmid : Option Vmid) (line : Str) :
    rewriteLine S.entries B.entries (some vmid.text) (newVmid.map Vmid.text) line =
      .ok (rewrittenLine S B vmid newVmid line) := by
  rw [rewriteLine, rewrittenLine, mappedLine]
  show (B.entries.foldlM rewriteBridge _ >>= _) = _
  rw [foldlM_rewriteBridge_eq B.entry]
  cases newVmid with
  | none => rfl
  | some new =>
    show (if _ ∨ _ ∨ vmid.text = new.text then _ else _) = _
    by_cases hsame : new = vmid
    · rw [if_pos (.inr (.inr (congrArg Vmid.text hsame.symm))), renameFor, if_pos hsame]
      rfl
    · rw [if_neg, rewriteVmid_eq, renameFor, if_neg hsame]
      rintro (h | h | h)
      · exact vmid.ne_nil h
      · exact new.ne_nil h
      · exact hsame (Vmid.ext h.symm)

/-! ## The characters of a rewritten line -/

/-- A character that the rewrite may put into a line. -/
def IsNewChar (c : Char) : Prop := isStorageChar c = true ∨ c = ':' ∨ c = '='

theorem mem_rewriteStorage (hm : IsEntry m) (h : c ∈ rewriteStorage line m) : c ∈ line ∨ IsNewChar c := by
  rw [rewriteStorage] at h
  split at h
  · exact .inl h
  · refine mem_substitute (P := IsNewChar) (storageMatcher_proper _ _) (fun prev s n r hmatch d hd => ?_) h
    have hnew : d ∈ (m.2 ++ ":" : Str) → IsNewChar d := by
      intro hd
      rcases List.mem_append.mp hd with hd | hd
      · exact .inl (isBridgeChar_eq d ▸ hm.value d hd)
      · exact .inr (.inl (List.mem_singleton.mp hd))
    rcases storageMatcher_some hmatch with ⟨x, rfl, -, -, -, rfl⟩ | ⟨e, x, rfl, -, -, -, rfl⟩
    · exact .inr (hnew hd)
    · rcases List.mem_cons.mp hd with rfl | hd
      · exact .inl (by simp)
      · exact .inr (hnew hd)

theorem mem_bridgedLine (hm : IsEntry m) (h : c ∈ bridgedLine line m) : c ∈ line ∨ IsNewChar c := by
  rw [bridgedLine] at h
  split at h
  · exact .inl h
  · refine mem_substitute (P := IsNewChar) (bridgeSub_proper m) (fun prev s n r hmatch d hd => ?_) h
    obtain ⟨x, rfl, -, rfl⟩ := bridgeSub_some hmatch
    rcases List.mem_append.mp hd with hd | hd
    · exact .inl (List.mem_append_left _ (List.mem_append_left _ hd))
    · exact .inr (.inl (isBridgeChar_eq d ▸ hm.value d hd))

theorem isStorageChar_of_renamed (h : isWord c = true ∨ c = '-') : isStorageChar c = true := by
  rcases h with h | rfl
  · rw [isWord, Bool.or_eq_true, beq_iff_eq] at h
    rcases h with h | rfl
    · simp [isStorageChar, isKeyChar, h]
    · decide
  · decide

/-- What holds of a line, and stays when an entry of a map is applied, holds
after the maps. -/
theorem mappedLine_induction {P : Str → Prop} (hline : P line)
    (hstorage : ∀ l m, IsEntry m → P l → P (rewriteStorage l m))
    (hbridge : ∀ l m, IsEntry m → P l → P (bridgedLine l m)) : P (mappedLine S B line) := by
  have hstorages : P (S.entries.foldl rewriteStorage line) :=
    List.foldlRecOn S.entries rewriteStorage hline fun l hl m hm => hstorage l m (S.entry m hm) hl
  exact List.foldlRecOn B.entries bridgedLine hstorages fun l hl m hm => hbridge l m (B.entry m hm) hl

theorem mem_rewrittenLine (h : c ∈ rewrittenLine S B vmid newVmid line) : c ∈ line ∨ IsNewChar c := by
  have hmapped : ∀ c ∈ mappedLine S B line, c ∈ line ∨ IsNewChar c := by
    refine mappedLine_induction (P := fun l => ∀ c ∈ l, c ∈ line ∨ IsNewChar c) (fun c hc => .inl hc) ?_ ?_
    · intro l m hm hl c hc
      exact (mem_rewriteStorage hm hc).elim (hl c) .inr
    · intro l m hm hl c hc
      exact (mem_bridgedLine hm hc).elim (hl c) .inr
  rcases mem_renameFor h with h | h
  · exact hmapped c h
  · exact .inr (.inl (isStorageChar_of_renamed h))

theorem isLineBreak_of_isNewChar (h : IsNewChar c) : isLineBreak c = false := by
  rcases h with h | rfl | rfl
  · exact (isBridgeChar_plain (isBridgeChar_eq c ▸ h)).2.1
  · decide
  · decide

theorem noBreak_rewrittenLine (h : NoBreak line) : NoBreak (rewrittenLine S B vmid newVmid line) := by
  intro c hc
  rcases mem_rewrittenLine hc with hc | hc
  · exact h c hc
  · exact isLineBreak_of_isNewChar hc

/-! ## Comments and sections -/

theorem rewriteStorage_head (hm : IsEntry m) (hc : isStorageChar c = false) (hsep : isPrefixChar c = false) :
    ∃ t, rewriteStorage (c :: s) m = c :: t := by
  rw [rewriteStorage]
  split
  · exact ⟨s, rfl⟩
  · refine exists_substitute_cons (storageMatcher_proper _ _) fun n r hmatch => ?_
    rcases storageMatcher_some hmatch with ⟨x, heq, -⟩ | ⟨e, x, heq, he, -⟩
    · obtain ⟨d, u, hd⟩ := List.exists_cons_of_ne_nil hm.key_ne
      rw [hd] at heq
      obtain ⟨rfl, -⟩ := List.cons.inj heq
      have hkey := hm.key c (hd ▸ List.mem_cons_self)
      rw [isBridgeChar_eq, hc] at hkey
      cases hkey
    · obtain ⟨rfl, -⟩ := List.cons.inj heq
      rw [hsep] at he
      cases he

theorem bridgedLine_head (hc : isStorageChar c = false) : ∃ t, bridgedLine (c :: s) m = c :: t := by
  rw [bridgedLine]
  split
  · exact ⟨s, rfl⟩
  · refine exists_substitute_cons (bridgeSub_proper m) fun n r hmatch => ?_
    obtain ⟨x, heq, -⟩ := bridgeSub_some hmatch
    obtain rfl : c = 'b' := (List.cons.inj heq).1
    exact absurd hc (by decide)

theorem renameFor_head (hc : isStorageChar c = false) : ∃ t, renameFor vmid newVmid (c :: s) = c :: t := by
  rcases renameFor_cases vmid newVmid with ⟨-, h⟩ | ⟨new, -, -, h⟩
  · exact ⟨s, h _⟩
  · rw [h]
    refine exists_substitute_cons (volumeMatcher_proper _ _) fun n r hmatch => ?_
    obtain ⟨k, hk, x, heq, -⟩ := volumeMatcher_some hmatch
    have hne : diskStem k vmid.text ≠ [] := List.ne_nil_of_mem (dash_mem_diskStem _ _)
    obtain ⟨d, u, hd⟩ := List.exists_cons_of_ne_nil hne
    rw [hd] at heq
    obtain ⟨rfl, -⟩ := List.cons.inj heq
    have hstem := isStorageChar_of_renamed (diskStem_chars hk vmid c (hd ▸ List.mem_cons_self))
    rw [hc] at hstem
    cases hstem

/-- A line that starts with none of the characters of an id keeps its start. -/
theorem rewrittenLine_head (S B : IdMap) (vmid : Vmid) (newVmid : Option Vmid) (s : Str) (hc : isStorageChar c = false) (hsep : isPrefixChar c = false) :
    ∃ t, rewrittenLine S B vmid newVmid (c :: s) = c :: t := by
  have hmapped : ∃ t, mappedLine S B (c :: s) = c :: t := by
    refine mappedLine_induction (P := fun l => ∃ t, l = c :: t) ⟨s, rfl⟩ ?_ ?_
    · rintro _ m hm ⟨t, rfl⟩
      exact rewriteStorage_head hm hc hsep
    · rintro _ m - ⟨t, rfl⟩
      exact bridgedLine_head hc
  obtain ⟨t, ht⟩ := hmapped
  rw [rewrittenLine, ht]
  exact renameFor_head hc

theorem rewrittenLine_nil : rewrittenLine S B vmid newVmid [] = [] := by
  have hmapped : mappedLine S B [] = [] := by
    refine mappedLine_induction (P := fun l => l = []) rfl ?_ ?_
    · rintro _ m - rfl
      exact ite_self []
    · rintro _ m - rfl
      exact ite_self []
  rw [rewrittenLine, hmapped, renameFor_nil]

/-! ## Lines with a name -/

theorem not_mem_of_storageChars (h : ∀ c ∈ s, isStorageChar c = true) (hc : isStorageChar c = false) : c ∉ s :=
  not_mem_of_all h hc

theorem storageMatcher_eq_none {old new : Str} (h : ∀ n r, storageMatcher old new prev s ≠ some (n, r)) :
    storageMatcher old new prev s = none :=
  Option.eq_none_iff_forall_ne_some.mpr fun p => h p.1 p.2

/-- A name is passed over, with the colon and the blank behind it. -/
theorem substitute_storage_name (hm : IsEntry m) (hne : name ≠ [])
    (hname : ∀ c ∈ name, isStorageChar c = true) :
    substitute (storageMatcher m.1 m.2) none 0 (name ++ ':' :: ' ' :: v) =
      name ++ ':' :: substitute (storageMatcher m.1 m.2) (some ':') 0 (' ' :: v) := by
  have hkey : ∀ c ∈ m.1, isStorageChar c = true := fun c hc => isBridgeChar_eq c ▸ hm.key c hc
  have hother : ∀ c ∈ name, isPrefixChar c = false := fun c hc =>
    isPrefixChar_of_isBridgeChar ((isBridgeChar_eq c).trans (hname c hc))
  have hpass := @substitute_stretch (storageMatcher m.1 m.2) none (name ++ [':']) (' ' :: v) ?_ ?_
  · have hlast : lastOr none (name ++ [':']) = some ':' := by
      rw [lastOr, List.getLast?_concat]
      rfl
    rw [hlast] at hpass
    simpa using hpass
  · intro _
    refine storageMatcher_eq_none fun n r hmatch => ?_
    rcases storageMatcher_some hmatch with ⟨x, heq, -, hx, -⟩ | ⟨c, x, heq, hc, -⟩
    · rw [List.append_assoc, List.append_assoc] at heq
      obtain ⟨-, -, rfl⟩ := word_inj hname hkey (by decide) (by decide) heq
      have hblank : (some ' ').any (fun c => !isSpace c) = true := hx
      exact absurd hblank (by decide)
    · obtain ⟨d, name', rfl⟩ := List.exists_cons_of_ne_nil hne
      obtain ⟨rfl, -⟩ := List.cons.inj heq
      rw [hother d List.mem_cons_self] at hc
      cases hc
  · intro d t hne' ht
    refine storageMatcher_eq_none fun n r hmatch => ?_
    rcases storageMatcher_some hmatch with ⟨x, -, hprev, -⟩ | ⟨c, x, heq, hc, -⟩
    · cases hprev
    · rcases List.suffix_concat_iff.mp ht with rfl | ⟨t', rfl, ht'⟩
      · exact hne' rfl
      · cases t' with
        | nil =>
          obtain ⟨e, u, he⟩ := List.exists_cons_of_ne_nil hm.key_ne
          rw [he] at heq
          obtain rfl : ' ' = e := (List.cons.inj (List.cons.inj heq).2).1
          exact absurd (hkey ' ' (he ▸ List.mem_cons_self)) (by decide)
        | cons e t' =>
          obtain ⟨rfl, -⟩ := List.cons.inj heq
          rw [hother e (ht'.subset List.mem_cons_self)] at hc
          cases hc

theorem rewriteStorage_named (hm : IsEntry m) (hne : name ≠ []) (hname : ∀ c ∈ name, isStorageChar c = true) :
    ∃ v', rewriteStorage (name ++ ':' :: ' ' :: v) m = name ++ ':' :: ' ' :: v' := by
  rw [rewriteStorage]
  split
  · exact ⟨v, rfl⟩
  · obtain ⟨v', hv'⟩ := @exists_substitute_cons _ (storageMatcher_proper m.1 m.2) (some ':') ' ' v fun n r hmatch => by
      rcases storageMatcher_some hmatch with ⟨x, -, hprev, -⟩ | ⟨c, x, heq, -, -, -, rfl⟩
      · cases hprev
      · obtain ⟨rfl, -⟩ := List.cons.inj heq
        exact ⟨_, rfl⟩
    exact ⟨v', by rw [substitute_storage_name hm hne hname, hv']⟩

theorem bridgedLine_named (hname : ∀ c ∈ name, isStorageChar c = true) :
    ∃ v', bridgedLine (name ++ ':' :: ' ' :: v) m = name ++ ':' :: ' ' :: v' := by
  rw [bridgedLine]
  split
  · exact ⟨v, rfl⟩
  · have hnone : ∀ prev t, t ≠ [] → t <:+ name ++ [':', ' '] → bridgeSub m prev (t ++ v) = none := by
      intro prev t hne ht
      refine Option.eq_none_iff_forall_ne_some.mpr fun p hmatch => ?_
      obtain ⟨x, heq, -⟩ := bridgeSub_some (n := p.1) (r := p.2) hmatch
      have hlast : name ++ [':', ' '] = (name ++ [':']) ++ [' '] := by simp
      rw [hlast] at ht
      rcases List.suffix_concat_iff.mp ht with rfl | ⟨t', rfl, ht'⟩
      · exact hne rfl
      · have hstart : ("bridge=" : Str) <+: t' ++ ' ' :: v := ⟨m.1 ++ x, by simpa using heq.symm⟩
        have hmem : '=' ∈ name ++ [':'] :=
          ht'.subset ((prefix_append_sep (by decide) hstart).subset (by decide))
        rcases List.mem_append.mp hmem with hmem | hmem
        · exact absurd (hname _ hmem) (by decide)
        · exact absurd hmem (by decide)
    have hpass := @substitute_stretch (bridgeSub m) none (name ++ [':', ' ']) v
      (fun hne => hnone none _ hne (List.suffix_refl _)) (fun c t hne ht => hnone (some c) t hne ht)
    exact ⟨_, by simpa using hpass⟩

/-- A line with a name keeps it, but for the VMID. -/
theorem rewrittenLine_named (S B : IdMap) (vmid : Vmid) (newVmid : Option Vmid) (v : Str) (hne : name ≠ []) (hname : ∀ c ∈ name, isStorageChar c = true) :
    ∃ v', rewrittenLine S B vmid newVmid (name ++ ':' :: ' ' :: v) =
      renameFor vmid newVmid name ++ ':' :: ' ' :: v' := by
  have hmapped : ∃ v', mappedLine S B (name ++ ':' :: ' ' :: v) = name ++ ':' :: ' ' :: v' := by
    refine mappedLine_induction (P := fun l => ∃ v', l = name ++ ':' :: ' ' :: v') ⟨v, rfl⟩ ?_ ?_
    · rintro _ m hm ⟨v', rfl⟩
      exact rewriteStorage_named hm hne hname
    · rintro _ m - ⟨v', rfl⟩
      exact bridgedLine_named hname
  obtain ⟨v', hv'⟩ := hmapped
  have hblank := renameFor_split vmid newVmid [] v' (show isWord ' ' = false by decide) (by decide)
  rw [renameFor_nil] at hblank
  rw [rewrittenLine, hv', renameFor_split vmid newVmid _ _ (by decide) (by decide)]
  exact ⟨_, congrArg (fun t => _ ++ ':' :: t) hblank⟩

/-! ## Disk lines -/

/-- A word with an equals sign and no separator is not made. -/
theorem not_infix_rewriteStorage (hm : IsEntry m) (hw : ∀ c ∈ w, isPrefixChar c = false) (hequals : '=' ∈ w)
    (h : ¬ w <:+: line) : ¬ w <:+: rewriteStorage line m := by
  have hcolon : ':' ∉ w := not_mem_of_all (p := fun c => !isPrefixChar c) (by simpa using hw) (by decide)
  have hnew : ∀ t, ¬ w <:+: t → ¬ w <:+: (m.2 ++ ":" : Str) ++ t := by
    intro t ht hpart
    rw [List.append_assoc] at hpart
    rcases infix_append_sep hcolon hpart with hpart | hpart
    · exact absurd (hm.value '=' (hpart.subset hequals)) (by decide)
    · exact ht hpart
  rw [rewriteStorage]
  split
  · exact h
  · refine not_infix_substitute (storageMatcher_proper _ _) ?_ [] (fun _ => rfl) h
    intro prev seg s r a t hmatch hstart hseg ht
    rcases storageMatcher_some hmatch with ⟨x, -, hprev, -, -, rfl⟩ | ⟨c, x, heq, hc, -, hlength, rfl⟩
    · rw [hstart hprev]
      exact hnew t ht
    · obtain ⟨rfl, -⟩ := List.append_inj heq hlength
      intro hpart
      have hnot : c ∉ w := fun hmem => by
        rw [hw c hmem] at hc
        cases hc
      rcases infix_append_sep hnot hpart with hpart | hpart
      · exact hseg (hpart.trans (List.prefix_append _ _).isInfix)
      · exact hnew t ht hpart

/-- The storage of a volume id is renamed, and the volume stays. -/
theorem substitute_storage_volume {storage volume tail : Str} (hm : IsEntry m) (hvalue : m.2 ≠ [])
    (hstorage : ∀ c ∈ storage, isStorageChar c = true) (hvolume : ∀ c ∈ volume, isVolumeChar c = true)
    (hne : volume ≠ []) (htail : tail = [] ∨ ∃ o, tail = ',' :: o) :
    ∃ e, substitute (storageMatcher m.1 m.2) (some ':') 0 (' ' :: (storage ++ ':' :: (volume ++ tail))) =
      ' ' :: (renameStorage storage m ++ ':' ::
        (volume ++ substitute (storageMatcher m.1 m.2) (some e) 0 tail)) := by
  have hkey : ∀ c ∈ m.1, isStorageChar c = true := fun c hc => isBridgeChar_eq c ▸ hm.key c hc
  have hother : ∀ c ∈ volume, isPrefixChar c = false := by
    intro c hc
    have hplain := hvolume c hc
    simp only [isVolumeChar, Bool.and_eq_true, Bool.not_eq_true', bne_iff_ne] at hplain
    simp [isPrefixChar, hplain.1.1, hplain.1.2, hplain.2]
  have hpass : ∃ e, substitute (storageMatcher m.1 m.2) (some ':') 0 (volume ++ tail) =
      volume ++ substitute (storageMatcher m.1 m.2) (some e) 0 tail := by
    have hnone : ∀ d t, t ≠ [] → t <:+ volume → storageMatcher m.1 m.2 (some d) (t ++ tail) = none := by
      intro d t hne ht
      obtain ⟨c, t, rfl⟩ := List.exists_cons_of_ne_nil hne
      refine storageMatcher_eq_none fun n r hmatch => ?_
      rcases storageMatcher_some hmatch with ⟨x, -, hprev, -⟩ | ⟨e, x, heq, he, -⟩
      · cases hprev
      · obtain ⟨rfl, -⟩ := List.cons.inj heq
        rw [hother c (ht.subset List.mem_cons_self)] at he
        cases he
    obtain ⟨e, he⟩ := exists_lastOr ':' volume
    refine ⟨e, ?_⟩
    rw [← he]
    exact substitute_stretch (fun hne => hnone _ _ hne (List.suffix_refl _)) (fun d t hne ht => hnone d t hne ht)
  obtain ⟨e, hpass⟩ := hpass
  refine ⟨e, ?_⟩
  by_cases hsame : storage = m.1
  · subst hsame
    have hhead : (volume ++ tail).head?.any (fun c => !isSpace c) = true := by
      obtain ⟨c, t, rfl⟩ := List.exists_cons_of_ne_nil hne
      simp [isSpace_of_isVolumeChar (hvolume c List.mem_cons_self)]
    have hmatch : storageMatcher m.1 m.2 (some ':') ((' ' :: (m.1 ++ [':'])) ++ (volume ++ tail)) =
        some ((' ' :: (m.1 ++ [':'])).length, ' ' :: m.2 ++ ":") := by
      have hopens : opensAt m.1 (m.1 ++ [':'] ++ (volume ++ tail)) = true :=
        opensAt_iff.mpr ⟨volume ++ tail, by simp, hhead⟩
      rw [List.cons_append, storageMatcher_cons, hopens]
      simp [isSpace]
    have hsub := substitute_match (List.cons_ne_nil _ _) hmatch
    have hlast : lastOr (some ':') (' ' :: (m.1 ++ [':'])) = some ':' := by
      rw [lastOr_cons, lastOr, List.getLast?_concat]
      rfl
    rw [hlast, hpass] at hsub
    rw [renameStorage, if_pos ⟨rfl, hvalue⟩]
    simpa using hsub
  · have hfirst : storageMatcher m.1 m.2 (some ':') (' ' :: (storage ++ ':' :: (volume ++ tail))) = none := by
      refine storageMatcher_eq_none fun n r hmatch => ?_
      rcases storageMatcher_some hmatch with ⟨x, -, hprev, -⟩ | ⟨c, x, heq, -⟩
      · cases hprev
      · have heq : storage ++ ':' :: (volume ++ tail) = (m.1 ++ ":" : Str) ++ x := (List.cons.inj heq).2
        rw [List.append_assoc] at heq
        exact hsame (word_inj hstorage hkey (by decide) (by decide) heq).1
    have hcolon : ∀ d, storageMatcher m.1 m.2 (some d) (':' :: (volume ++ tail)) = none := by
      intro d
      refine storageMatcher_eq_none fun n r hmatch => ?_
      rcases storageMatcher_some hmatch with ⟨x, -, hprev, -⟩ | ⟨c, x, heq, -⟩
      · cases hprev
      · have heq : volume ++ tail = (m.1 ++ ":" : Str) ++ x := (List.cons.inj heq).2
        have hstart : (m.1 ++ ":" : Str) <+: volume := by
          rcases htail with rfl | ⟨o, rfl⟩
          · exact ⟨x, by rw [← heq, List.append_nil]⟩
          · refine @prefix_append_sep _ volume o ',' ?_ ⟨x, heq.symm⟩
            intro hmem
            rcases List.mem_append.mp hmem with hmem | hmem
            · exact absurd (hkey _ hmem) (by decide)
            · exact absurd hmem (by decide)
        exact absurd (hvolume ':' (hstart.subset (by simp))) (by decide)
    obtain ⟨d, hd⟩ := exists_lastOr ' ' storage
    rw [renameStorage, if_neg (fun h => hsame h.1), substitute_keep hfirst,
      substitute_storage_word (fun c hc => (isBridgeChar_eq c).trans (hstorage c hc)), hd,
      substitute_keep (hcolon d), hpass]

theorem DiskLine.noBreak_text {gtype : Str} (d : DiskLine gtype) : NoBreak d.text := by
  intro c hc
  rcases List.mem_append.mp hc with hc | hc
  · exact isLineBreak_of_isSpace (isSpace_of_isVolumeChar (isVolumeChar_of_isKeyChar (d.keyChars c hc)))
  · rcases List.mem_cons.mp hc with rfl | hc
    · decide
    · rcases List.mem_cons.mp hc with rfl | hc
      · decide
      · rcases List.mem_append.mp hc with hc | hc
        · exact isLineBreak_of_isSpace (d.volid_space c hc)
        · exact d.noBreak c hc

theorem tail_infix_text (p : DiskParts) : p.tail <:+: p.text := by
  refine List.IsSuffix.isInfix ⟨p.key ++ ':' :: ' ' :: p.volid, ?_⟩
  simp [DiskParts.text]

/-- An entry of the storage map renames the storage of a disk. -/
theorem rewriteStorage_disk {gtype : Str} (d : DiskLine gtype) (hm : IsEntry m) :
    ∃ (d' : DiskLine gtype) (o : Option Str), rewriteStorage d.text m = d'.text ∧
      d'.toDiskParts = { d.toDiskParts with storage := renameStorage d.storage m, options := o } := by
  by_cases hvalue : m.2 = []
  · refine ⟨d, d.options, ?_, ?_⟩
    · rw [rewriteStorage, if_pos (.inr hvalue)]
    · rw [renameStorage, if_neg (fun h => h.2 hvalue)]
  · have hname : ∀ c ∈ d.key, isStorageChar c = true := fun c hc => isStorageChar_of_isKeyChar (d.keyChars c hc)
    have htail : d.tail = [] ∨ ∃ o, d.tail = ',' :: o := by
      unfold DiskParts.tail
      split
      · exact .inl rfl
      · exact .inr ⟨_, rfl⟩
    obtain ⟨e, he⟩ := substitute_storage_volume hm hvalue d.storageChars d.volumeChars d.volume_ne htail
    have hoptions : ∃ o : Option Str, substitute (storageMatcher m.1 m.2) (some e) 0 d.tail =
        DiskParts.tail { d.toDiskParts with storage := renameStorage d.storage m, options := o } := by
      unfold DiskParts.tail
      cases d.options with
      | none => exact ⟨none, rfl⟩
      | some options =>
        obtain ⟨t, ht⟩ := @exists_substitute_cons _ (storageMatcher_proper m.1 m.2) (some e) ',' options
          fun n r hmatch => by
            rcases storageMatcher_some hmatch with ⟨x, -, hprev, -⟩ | ⟨c, x, heq, -, -, -, rfl⟩
            · cases hprev
            · obtain ⟨rfl, -⟩ := List.cons.inj heq
              exact ⟨_, rfl⟩
        exact ⟨some t, ht⟩
    obtain ⟨o, ho⟩ := hoptions
    have htext : rewriteStorage d.text m =
        DiskParts.text { d.toDiskParts with storage := renameStorage d.storage m, options := o } := by
      rw [rewriteStorage, if_neg (not_or.mpr ⟨hm.key_ne, hvalue⟩)]
      show substitute _ none 0 (d.key ++ ':' :: ' ' :: (d.volid ++ d.tail)) = _
      rw [substitute_storage_name hm d.key_ne hname]
      have hvolid : d.volid ++ d.tail = d.storage ++ ':' :: (d.volume ++ d.tail) := by
        simp [DiskParts.volid]
      rw [hvolid, he, ho]
      simp [DiskParts.text, DiskParts.volid, DiskParts.volume]
    have hclean : ∀ w : Str, (∀ c ∈ w, isPrefixChar c = false) → '=' ∈ w → ¬ w <:+: d.text →
        ¬ w <:+: DiskParts.text { d.toDiskParts with storage := renameStorage d.storage m, options := o } :=
      fun w hw hequals h => htext ▸ not_infix_rewriteStorage hm hw hequals h
    refine ⟨{ toDiskParts := { d.toDiskParts with storage := renameStorage d.storage m, options := o }
              isKey := d.isKey
              keyChars := d.keyChars
              storage_ne := ?_
              storageChars := ?_
              volumeChars := d.volumeChars
              leaf_ne := d.leaf_ne
              leaf_slash := d.leaf_slash
              noBreak := ?_
              noCdrom := hclean _ (by decide) (by decide) d.noCdrom
              noBridge := hclean _ (by decide) (by decide) d.noBridge }, o, htext, rfl⟩
    · exact fun hnil => d.storage_ne ((renameStorage_nil hm).mp hnil)
    · intro c hc
      have hchars := renameStorage_chars hm (fun c hc => (isBridgeChar_eq c).trans (d.storageChars c hc)) c hc
      exact (isBridgeChar_eq c).symm.trans hchars
    · intro c hc
      have hline := (tail_infix_text _).subset hc
      rw [← htext] at hline
      rcases mem_rewriteStorage hm hline with hline | hnew
      · exact d.noBreak_text c hline
      · exact isLineBreak_of_isNewChar hnew

theorem foldl_rewriteStorage_disk {gtype : Str} (hms : ∀ m ∈ ms, IsEntry m) (d : DiskLine gtype) :
    ∃ (d' : DiskLine gtype) (o : Option Str), ms.foldl rewriteStorage d.text = d'.text ∧
      d'.toDiskParts = { d.toDiskParts with storage := ms.foldl renameStorage d.storage, options := o } := by
  induction ms generalizing d with
  | nil => exact ⟨d, d.options, rfl, rfl⟩
  | cons m ms ih =>
    obtain ⟨hm, hms⟩ := List.forall_mem_cons.mp hms
    obtain ⟨d₁, o₁, htext₁, hparts₁⟩ := rewriteStorage_disk d hm
    obtain ⟨d₂, o₂, htext₂, hparts₂⟩ := ih hms d₁
    refine ⟨d₂, o₂, ?_, ?_⟩
    · rw [List.foldl_cons, htext₁, htext₂]
    · rw [hparts₂, hparts₁]
      rfl

/-- A line without a bridge is not looked at. -/
theorem bridgedLine_eq_self (h : ¬ ("bridge=" : Str) <:+: line) : bridgedLine line m = line := by
  rw [bridgedLine]
  split
  · rfl
  · refine substitute_eq_self fun prev t _ ht => ?_
    refine Option.eq_none_iff_forall_ne_some.mpr fun p hmatch => h ?_
    obtain ⟨x, rfl, -⟩ := bridgeSub_some (n := p.1) (r := p.2) hmatch
    rw [List.append_assoc] at ht
    exact (List.prefix_append _ _).isInfix.trans ht.isInfix

theorem mappedLine_disk {gtype : Str} (d : DiskLine gtype) :
    ∃ (d' : DiskLine gtype) (o : Option Str), mappedLine S B d.text = d'.text ∧
      d'.toDiskParts = { d.toDiskParts with storage := S.entries.foldl renameStorage d.storage, options := o } := by
  obtain ⟨d', o, htext, hparts⟩ := foldl_rewriteStorage_disk S.entry d
  refine ⟨d', o, ?_, hparts⟩
  rw [mappedLine, htext]
  exact List.foldlRecOn (motive := fun l => l = d'.text) B.entries bridgedLine rfl
    fun l hl m _ => by rw [hl, bridgedLine_eq_self d'.noBridge]

/-- The parts of a disk line, renamed each alone. -/
def renameParts (vmid : Vmid) (newVmid : Option Vmid) (p : DiskParts) : DiskParts where
  key := p.key
  storage := renameFor vmid newVmid p.storage
  base := p.base.map (renameFor vmid newVmid)
  leaf := renameFor vmid newVmid p.leaf
  options := p.options.map (renameFor vmid newVmid)

theorem volume_renameParts (p : DiskParts) :
    (renameParts vmid newVmid p).volume = renameFor vmid newVmid p.volume := by
  unfold DiskParts.volume renameParts
  cases p.base with
  | none => rfl
  | some base => exact (renameFor_split vmid newVmid base p.leaf (by decide) (by decide)).symm

theorem text_renameParts (vmid : Vmid) (newVmid : Option Vmid) (p : DiskParts) (hkey : '-' ∉ p.key) :
    (renameParts vmid newVmid p).text = renameFor vmid newVmid p.text := by
  have hrest : renameFor vmid newVmid (p.volume ++ p.tail) =
      (renameParts vmid newVmid p).volume ++ (renameParts vmid newVmid p).tail := by
    rw [volume_renameParts]
    unfold DiskParts.tail renameParts
    cases p.options with
    | none => simp
    | some o => exact renameFor_split vmid newVmid p.volume o (by decide) (by decide)
  have hblank : renameFor vmid newVmid (' ' :: (p.volid ++ p.tail)) =
      ' ' :: renameFor vmid newVmid (p.volid ++ p.tail) := by
    have hsplit := renameFor_split vmid newVmid [] (p.volid ++ p.tail) (show isWord ' ' = false by decide) (by decide)
    rwa [renameFor_nil] at hsplit
  have hvolid : p.volid ++ p.tail = p.storage ++ ':' :: (p.volume ++ p.tail) := by
    simp [DiskParts.volid]
  have htext : p.text = p.key ++ ':' :: (' ' :: (p.volid ++ p.tail)) := rfl
  rw [htext, renameFor_split vmid newVmid _ _ (by decide) (by decide), renameFor_of_not_mem hkey, hblank, hvolid,
    renameFor_split vmid newVmid _ _ (by decide) (by decide), hrest]
  simp [DiskParts.text, DiskParts.volid, renameParts]

/-- The names in a disk line are renamed for the VMID. -/
theorem renameFor_disk {gtype : Str} (vmid : Vmid) (newVmid : Option Vmid) (d : DiskLine gtype) :
    ∃ d' : DiskLine gtype, renameFor vmid newVmid d.text = d'.text ∧
      d'.toDiskParts = renameParts vmid newVmid d.toDiskParts := by
  have hkey : '-' ∉ d.key := not_mem_of_all d.keyChars (by decide)
  have htext := text_renameParts vmid newVmid d.toDiskParts hkey
  have hclean : ∀ w : Str, '-' ∉ w → '=' ∈ w → ¬ w <:+: d.text →
      ¬ w <:+: (renameParts vmid newVmid d.toDiskParts).text :=
    fun w hdash hequals h => htext ▸ not_infix_renameFor hdash hequals h
  refine ⟨{ toDiskParts := renameParts vmid newVmid d.toDiskParts
            isKey := d.isKey
            keyChars := d.keyChars
            storage_ne := renameFor_ne_nil d.storage_ne
            storageChars := ?_
            volumeChars := ?_
            leaf_ne := renameFor_ne_nil d.leaf_ne
            leaf_slash := ?_
            noBreak := ?_
            noCdrom := hclean _ (by decide) (by decide) d.noCdrom
            noBridge := hclean _ (by decide) (by decide) d.noBridge }, htext.symm, rfl⟩
  · intro c hc
    rcases mem_renameFor hc with hc | hc
    · exact d.storageChars c hc
    · exact isStorageChar_of_renamed hc
  · intro c hc
    rw [volume_renameParts] at hc
    rcases mem_renameFor hc with hc | hc
    · exact d.volumeChars c hc
    · exact isVolumeChar_of_isStorageChar (isStorageChar_of_renamed hc)
  · intro hslash
    rcases mem_renameFor hslash with hslash | hslash | hslash
    · exact d.leaf_slash hslash
    · exact absurd hslash (by decide)
    · exact absurd hslash (by decide)
  · intro c hc
    have hline := (tail_infix_text _).subset hc
    rw [htext] at hline
    rcases mem_renameFor hline with hline | hnew
    · exact d.noBreak_text c hline
    · exact isLineBreak_of_isNewChar (.inl (isStorageChar_of_renamed hnew))

/-- A disk line on the target. -/
theorem rewrittenLine_disk {gtype : Str} (S B : IdMap) (vmid : Vmid) (newVmid : Option Vmid) (d : DiskLine gtype) :
    ∃ d' : DiskLine gtype, rewrittenLine S B vmid newVmid d.text = d'.text ∧ d'.key = d.key ∧
      d'.storage = renameFor vmid newVmid (S.entries.foldl renameStorage d.storage) ∧
      d'.leaf = renameFor vmid newVmid d.leaf := by
  obtain ⟨d₁, o, htext₁, hparts₁⟩ := mappedLine_disk (S := S) (B := B) d
  obtain ⟨d₂, htext₂, hparts₂⟩ := renameFor_disk vmid newVmid d₁
  refine ⟨d₂, by rw [rewrittenLine, htext₁, htext₂], ?_, ?_, ?_⟩
  · rw [hparts₂, hparts₁]
    rfl
  · rw [hparts₂, hparts₁]
    rfl
  · rw [hparts₂, hparts₁]
    rfl

end

end PveZfsTool
