import Mathlib.Data.List.Find
import PveZfsTool.Lib.Pieces
import PveZfsTool.Lib.Substitute
import PveZfsTool.Migrate.Preflight

/-!
# Names of volumes under another VMID

A migration may give the guest another VMID.  The plan then names a volume by one
pattern, `^(vm|subvol|base|basevol)-old-`, and the config rewrite by another one,
`\b(vm|subvol|base|basevol)-old-disk-`.

* `planBasename_stem`, `planBasename_other`: the name in the plan.
* `renameVolumes`: the rewrite of a text.  `renameVolumes_split` says that it
  works on both sides of a separator alone.
* `renameFor_eq_planBasename_iff`: when the two give a volume the same name.
* `planBasename_eq_iff`: when the plan gives two volumes the same name.
-/

namespace PveZfsTool

open Text

/-! ## VMIDs -/

/-- A VMID that was validated. -/
@[ext] structure Vmid where
  text : Str
  valid : validateVmid text = .ok text
  deriving DecidableEq

namespace Vmid

theorem digits (v : Vmid) : ∀ c ∈ v.text, isAsciiDigit c = true := (validateVmid_ok v.valid).2.2

theorem ne_nil (v : Vmid) : v.text ≠ [] := (validateVmid_ok v.valid).2.1

theorem truthy_text (v : Vmid) : truthy (some v.text) = some v.text := by
  simp [truthy, v.ne_nil]

theorem not_mem (v : Vmid) {c : Char} (hc : isAsciiDigit c = false) : c ∉ v.text := by
  intro hmem
  rw [v.digits c hmem] at hc
  cases hc

end Vmid

/-! ## Stems -/

/-- What the plan looks for at the start of a name. -/
def volumeStem (kind vmid : Str) : Str := kind ++ "-" ++ vmid ++ "-"

/-- What the rewrite looks for. -/
def diskStem (kind vmid : Str) : Str := kind ++ "-" ++ vmid ++ "-disk-"

theorem volumeStem_append (k v x : Str) : volumeStem k v ++ x = k ++ '-' :: (v ++ '-' :: x) := by
  simp [volumeStem]

theorem diskStem_append (k v x : Str) : diskStem k v ++ x = volumeStem k v ++ ("disk-" ++ x) := by
  simp [diskStem, volumeStem]

theorem isAsciiLower_of_mem_kind {k : Str} (hk : k ∈ volumeKinds) : ∀ c ∈ k, isAsciiLower c = true := by
  have hall : ∀ k ∈ volumeKinds, ∀ c ∈ k, isAsciiLower c = true := by decide
  exact hall k hk

section

variable {k k' x x' s w : Str} {v v' : Vmid}

/-- The parts of a stem can be read off. -/
theorem volumeStem_inj (hk : k ∈ volumeKinds) (hk' : k' ∈ volumeKinds)
    (h : volumeStem k v.text ++ x = volumeStem k' v'.text ++ x') : k = k' ∧ v = v' ∧ x = x' := by
  rw [volumeStem_append, volumeStem_append] at h
  obtain ⟨rfl, -, h⟩ := word_inj (isAsciiLower_of_mem_kind hk) (isAsciiLower_of_mem_kind hk')
    (by decide) (by decide) h
  obtain ⟨hv, -, rfl⟩ := word_inj v.digits v'.digits (by decide) (by decide) h
  exact ⟨rfl, Vmid.ext hv, rfl⟩

theorem diskStem_inj (hk : k ∈ volumeKinds) (hk' : k' ∈ volumeKinds)
    (h : diskStem k v.text ++ x = diskStem k' v'.text ++ x') : k = k' ∧ v = v' ∧ x = x' := by
  rw [diskStem_append, diskStem_append] at h
  obtain ⟨hk, hv, h⟩ := volumeStem_inj hk hk' h
  exact ⟨hk, hv, List.append_cancel_left h⟩

/-! ## The words of a pattern -/

theorem leadingWord_some {f : Str → Str} (h : leadingWord (volumeKinds.map f) s = some w) :
    ∃ k ∈ volumeKinds, w = f k ∧ f k <+: s := by
  rw [leadingWord] at h
  obtain ⟨k, hk, rfl⟩ := List.mem_map.mp (List.mem_of_find?_eq_some h)
  have hstart := List.find?_some h
  exact ⟨k, hk, rfl, List.isPrefixOf_iff_prefix.mp hstart⟩

theorem leadingWord_eq_none {f : Str → Str} :
    leadingWord (volumeKinds.map f) s = none ↔ ∀ k ∈ volumeKinds, ¬ f k <+: s := by
  rw [leadingWord, List.find?_eq_none, List.forall_mem_map]
  simp only [startsWith, List.isPrefixOf_iff_prefix]

theorem leadingWord_of_unique {f : Str → Str} (hk : k ∈ volumeKinds) (h : f k <+: s)
    (hunique : ∀ k' ∈ volumeKinds, f k' <+: s → k' = k) :
    leadingWord (volumeKinds.map f) s = some (f k) := by
  cases hfound : leadingWord (volumeKinds.map f) s with
  | none => exact absurd h (leadingWord_eq_none.mp hfound k hk)
  | some w =>
    obtain ⟨k', hk', rfl, hbegins⟩ := leadingWord_some hfound
    rw [hunique k' hk' hbegins]

theorem leadingWord_volumeStem (hk : k ∈ volumeKinds) :
    leadingWord (volumeKinds.map (fun k => volumeStem k v.text)) (volumeStem k v.text ++ x) =
      some (volumeStem k v.text) := by
  refine leadingWord_of_unique hk (List.prefix_append _ _) fun k' hk' ⟨y, hy⟩ => ?_
  exact (volumeStem_inj hk' hk hy).1

theorem leadingWord_diskStem (hk : k ∈ volumeKinds) :
    leadingWord (volumeKinds.map (fun k => diskStem k v.text)) (diskStem k v.text ++ x) =
      some (diskStem k v.text) := by
  refine leadingWord_of_unique hk (List.prefix_append _ _) fun k' hk' ⟨y, hy⟩ => ?_
  exact (diskStem_inj hk' hk hy).1

theorem kindOf_volumeStem (hk : k ∈ volumeKinds) (v : Str) : kindOf (volumeStem k v) = k := by
  have hdash : '-' ∉ k := fun hmem => by
    have := isAsciiLower_of_mem_kind hk _ hmem
    revert this
    decide
  have hstem : volumeStem k v = k ++ '-' :: (v ++ "-") := by simp [volumeStem]
  rw [kindOf, hstem, beforeFirst_append hdash]

theorem kindOf_diskStem (hk : k ∈ volumeKinds) (v : Str) : kindOf (diskStem k v) = k := by
  have hdash : '-' ∉ k := fun hmem => by
    have := isAsciiLower_of_mem_kind hk _ hmem
    revert this
    decide
  have hstem : diskStem k v = k ++ '-' :: (v ++ "-disk-") := by simp [diskStem]
  rw [kindOf, hstem, beforeFirst_append hdash]

end

/-! ## The name in the plan -/

/-- The last part of a dataset or a volume name. -/
structure IsLeaf (leaf : Str) : Prop where
  slash : '/' ∉ leaf
  colon : ':' ∉ leaf

section

variable {k x leaf leaf' : Str} {vmid new : Vmid} {newVmid : Option Vmid}

theorem afterFirst_of_not_mem {sep : Char} {s : Str} (h : sep ∉ s) : afterFirst sep s = s := by
  have hnone : s.dropWhile (· ≠ sep) = [] := List.dropWhile_eq_nil_iff.mpr (ne_sep_of_not_mem h)
  rw [afterFirst, hnone]

theorem volumeBasename_leaf (h : IsLeaf leaf) : volumeBasename leaf = leaf := by
  rw [volumeBasename, afterFirst_of_not_mem h.colon, afterLast_of_not_mem h.slash]

/-- A colon in the pool does no harm. -/
theorem volumeBasename_path (h : IsLeaf leaf) (pool : Str) :
    volumeBasename (pool ++ '/' :: leaf) = leaf := by
  by_cases hcolon : ':' ∈ pool
  · obtain ⟨a, b, rfl, ha⟩ := List.eq_append_cons_of_mem hcolon
    rw [volumeBasename, List.append_assoc, List.cons_append, afterFirst_append ha,
      afterLast_append h.slash]
  · have hnone : ':' ∉ pool ++ '/' :: leaf := by
      simp [hcolon, h.colon]
    rw [volumeBasename, afterFirst_of_not_mem hnone, afterLast_append h.slash]

theorem planBasename_path (h : IsLeaf leaf) (pool vmid : Str) (new : Option Str) :
    planBasename vmid new (pool ++ '/' :: leaf) = planBasename vmid new leaf := by
  rw [planBasename, planBasename, volumeBasename_path h, volumeBasename_leaf h]

/-- The guest keeps its VMID. -/
theorem planBasename_same (h : IsLeaf leaf) (hsame : ∀ n ∈ newVmid, n = vmid) :
    planBasename vmid.text (newVmid.map Vmid.text) leaf = leaf := by
  rw [planBasename, volumeBasename_leaf h]
  cases newVmid with
  | none => rfl
  | some n =>
    obtain rfl := hsame n rfl
    rw [Option.map_some, n.truthy_text]
    exact if_pos rfl

theorem planBasename_stem (h : IsLeaf (volumeStem k vmid.text ++ x)) (hne : new ≠ vmid)
    (hk : k ∈ volumeKinds) :
    planBasename vmid.text (some new.text) (volumeStem k vmid.text ++ x) = volumeStem k new.text ++ x := by
  have hword : leadingWord (volumeKinds.map (fun k => k ++ "-" ++ vmid.text ++ "-"))
      (volumeStem k vmid.text ++ x) = some (volumeStem k vmid.text) := leadingWord_volumeStem hk
  rw [planBasename, volumeBasename_leaf h, new.truthy_text]
  dsimp only
  rw [if_neg (fun heq => hne (Vmid.ext heq)), hword]
  dsimp only
  rw [kindOf_volumeStem hk, List.drop_left]
  rfl

theorem planBasename_other (newVmid : Option Vmid) (h : IsLeaf leaf)
    (hnone : ∀ k ∈ volumeKinds, ¬ volumeStem k vmid.text <+: leaf) :
    planBasename vmid.text (newVmid.map Vmid.text) leaf = leaf := by
  have hword : leadingWord (volumeKinds.map (fun k => k ++ "-" ++ vmid.text ++ "-")) leaf = none :=
    leadingWord_eq_none.mpr hnone
  rw [planBasename, volumeBasename_leaf h]
  cases newVmid with
  | none => rfl
  | some n =>
    rw [Option.map_some, n.truthy_text]
    dsimp only
    rw [hword]
    exact ite_self leaf

/-- The stem of the guest takes the new VMID, and no other name changes. -/
theorem planBasename_cases (h : IsLeaf leaf) (hne : new ≠ vmid) :
    (∃ k ∈ volumeKinds, ∃ x, leaf = volumeStem k vmid.text ++ x ∧
        planBasename vmid.text (some new.text) leaf = volumeStem k new.text ++ x) ∨
      (∀ k ∈ volumeKinds, ¬ volumeStem k vmid.text <+: leaf) ∧
        planBasename vmid.text (some new.text) leaf = leaf := by
  by_cases hstem : ∃ k ∈ volumeKinds, volumeStem k vmid.text <+: leaf
  · obtain ⟨k, hk, x, rfl⟩ := hstem
    exact .inl ⟨k, hk, x, rfl, planBasename_stem h hne hk⟩
  · have hnone : ∀ k ∈ volumeKinds, ¬ volumeStem k vmid.text <+: leaf := fun k hk hstart =>
      hstem ⟨k, hk, hstart⟩
    exact .inr ⟨hnone, planBasename_other (some new) h hnone⟩

/-- Two names are one, or differ in the VMID alone. -/
def Clash (vmid : Vmid) (newVmid : Option Vmid) (leaf leaf' : Str) : Prop :=
  leaf = leaf' ∨ ∃ new ∈ newVmid, ∃ k ∈ volumeKinds, ∃ x,
    (leaf = volumeStem k vmid.text ++ x ∧ leaf' = volumeStem k new.text ++ x) ∨
      (leaf' = volumeStem k vmid.text ++ x ∧ leaf = volumeStem k new.text ++ x)

theorem planBasename_new (hne : new ≠ vmid) (h : IsLeaf (volumeStem k new.text ++ x)) (hk : k ∈ volumeKinds) :
    planBasename vmid.text (some new.text) (volumeStem k new.text ++ x) = volumeStem k new.text ++ x := by
  refine planBasename_other (some new) h fun k' hk' ⟨y, hy⟩ => ?_
  exact hne (volumeStem_inj hk' hk hy).2.1.symm

/-- The plan gives two volumes one name if and only if their names clash. -/
theorem planBasename_eq_iff (h : IsLeaf leaf) (h' : IsLeaf leaf') :
    planBasename vmid.text (newVmid.map Vmid.text) leaf = planBasename vmid.text (newVmid.map Vmid.text) leaf' ↔
      Clash vmid newVmid leaf leaf' := by
  by_cases hsame : ∀ n ∈ newVmid, n = vmid
  · rw [planBasename_same h hsame, planBasename_same h' hsame]
    refine ⟨.inl, ?_⟩
    rintro (heq | ⟨new, hnew, k, -, x, ⟨rfl, rfl⟩ | ⟨rfl, rfl⟩⟩)
    · exact heq
    · rw [hsame new hnew]
    · rw [hsame new hnew]
  · obtain ⟨new, rfl, hne⟩ : ∃ new, newVmid = some new ∧ new ≠ vmid := by simpa using hsame
    rw [Option.map_some]
    constructor
    · intro heq
      rcases planBasename_cases h hne with ⟨k, hk, x, rfl, hplan⟩ | ⟨-, hplan⟩ <;>
        rcases planBasename_cases h' hne with ⟨k', hk', x', rfl, hplan'⟩ | ⟨-, hplan'⟩ <;>
          rw [hplan, hplan'] at heq
      · obtain ⟨rfl, -, rfl⟩ := volumeStem_inj hk hk' heq
        exact .inl rfl
      · exact .inr ⟨new, rfl, k, hk, x, .inl ⟨rfl, heq.symm⟩⟩
      · exact .inr ⟨new, rfl, k', hk', x', .inr ⟨rfl, heq⟩⟩
      · exact .inl heq
    · rintro (rfl | ⟨n, hn, k, hk, x, ⟨rfl, rfl⟩ | ⟨rfl, rfl⟩⟩)
      · rfl
      · obtain rfl := Option.some.inj hn
        rw [planBasename_stem h hne hk, planBasename_new hne h' hk]
      · obtain rfl := Option.some.inj hn
        rw [planBasename_stem h' hne hk, planBasename_new hne h hk]

end

/-! ## The name in the config -/

/-- The pattern of the rewrite, with its replacement. -/
def volumeMatcher (old new : Str) : Matcher := fun prev s =>
  (volumeMatch old prev s).map fun whole => (whole.length, kindOf whole ++ "-" ++ new ++ "-disk-")

/-- The volume names of one VMID in a text, renamed for another one. -/
def renameVolumes (old new s : Str) : Str := substitute (volumeMatcher old new) none 0 s

/-- The pattern of the rewrite occurs. -/
def NamesDisk (vmid : Str) (prev : Option Char) (s : Str) : Prop :=
  ∃ a b, s = a ++ b ∧ volumeMatch vmid (lastOr prev a) b ≠ none

/-- The rewrite finds the stem of the guest where the plan does, and nowhere
else. -/
def NamedAlike (vmid leaf : Str) : Prop :=
  (∃ k ∈ volumeKinds, ∃ x, leaf = diskStem k vmid ++ x ∧ ¬ NamesDisk vmid (some '-') x) ∨
    (∀ k ∈ volumeKinds, ¬ volumeStem k vmid <+: leaf) ∧ ¬ NamesDisk vmid none leaf

section

variable {k x s r leaf : Str} {old new : Str} {vmid v : Vmid} {newVmid : Option Vmid} {prev : Option Char}
  {n : Nat} {sep : Char}

/-- A match is a stem of the old VMID, and the new one takes its place. -/
theorem volumeMatcher_some (h : volumeMatcher old new prev s = some (n, r)) :
    ∃ k ∈ volumeKinds, ∃ x, s = diskStem k old ++ x ∧ n = (diskStem k old).length ∧ r = diskStem k new := by
  obtain ⟨whole, hwhole, heq⟩ := Option.map_eq_some_iff.mp h
  rw [volumeMatch] at hwhole
  split at hwhole
  · obtain ⟨k, hk, rfl, x, hx⟩ := leadingWord_some hwhole
    obtain ⟨rfl, rfl⟩ := Prod.mk.inj heq
    refine ⟨k, hk, x, hx.symm, rfl, ?_⟩
    rw [show k ++ "-" ++ old ++ "-disk-" = diskStem k old from rfl, kindOf_diskStem hk]
    rfl
  · cases hwhole

theorem volumeMatcher_proper (old new : Str) : (volumeMatcher old new).Proper := by
  intro prev s n r h
  obtain ⟨k, hk, x, rfl, rfl, -⟩ := volumeMatcher_some h
  rw [List.length_append]
  have hlength : 0 < (diskStem k old).length :=
    List.length_pos_iff.mpr (List.append_ne_nil_of_right_ne_nil _ (by decide))
  omega

/-- The rewrite raises nothing for a VMID. -/
theorem rewriteVmid_eq (old : Str) (new : Vmid) (line : Str) :
    rewriteVmid old new.text line = .ok (renameVolumes old new.text line) := by
  have hliteral : '\\' ∉ ('-' :: (new.text ++ "-disk-") : Str) := by
    have hnew := new.not_mem (c := '\\') (by decide)
    simp [hnew]
  have hexpand : ∀ (group : Nat → Option Str) g, group 1 = some g →
      expandTemplate group 0 (("\\1-" : Str) ++ new.text ++ "-disk-") = some (g ++ "-" ++ new.text ++ "-disk-") := by
    intro group g hg
    have hone : expandTemplate group 0 (("\\1-" : Str) ++ new.text ++ "-disk-") =
        (do return (← group 1) ++ (← expandTemplate group 0 ('-' :: (new.text ++ "-disk-")))) := by
      have htext : ("\\1-" : Str) ++ new.text ++ "-disk-" = '\\' :: '1' :: '-' :: (new.text ++ "-disk-") := by
        rw [List.append_assoc]
        rfl
      rw [htext]
      rfl
    rw [hone, hg, expandTemplate_literal hliteral]
    simp
  have hmatcher : ∀ group : Str → Nat → Option Str, (∀ whole, group whole 1 = some (kindOf whole)) →
      (fun prev s => do
        let whole ← volumeMatch old prev s
        return (whole.length, ← expandTemplate (group whole) 0 (("\\1-" : Str) ++ new.text ++ "-disk-"))) =
          volumeMatcher old new.text := by
    intro group hgroup
    funext prev s
    show (volumeMatch old prev s >>= fun whole => expandTemplate (group whole) 0 _ >>= fun r =>
      pure (whole.length, r)) = (volumeMatch old prev s).map _
    cases volumeMatch old prev s with
    | none => rfl
    | some whole =>
      show (expandTemplate (group whole) 0 _ >>= fun r => pure (whole.length, r)) = _
      rw [hexpand (group whole) _ (hgroup whole)]
      rfl
  have hgroups := hmatcher (fun whole n => if n = 0 then some whole else if n = 1 then some (kindOf whole) else none)
    fun whole => rfl
  rw [rewriteVmid, renameVolumes, ← hgroups]
  dsimp only
  rw [if_neg]
  rw [hexpand _ _ rfl]
  simp

/-! ## What the rewrite leaves as it is -/

theorem not_mem_diskStem (hk : k ∈ volumeKinds) (v : Vmid) (hword : isWord sep = false) (hdash : sep ≠ '-') :
    sep ∉ diskStem k v.text := by
  have hlower : isAsciiLower sep = false := by
    by_contra hlower
    simp [isWord, isAsciiAlnum, isAsciiAlpha, hlower] at hword
  have hdigit : isAsciiDigit sep = false := by
    by_contra hdigit
    simp [isWord, isAsciiAlnum, hdigit] at hword
  have hkind : sep ∉ k := fun hmem => by
    rw [isAsciiLower_of_mem_kind hk sep hmem] at hlower
    cases hlower
  have hdisk : sep ∉ ("disk" : Str) := fun hmem => by
    have hall : ∀ c ∈ ("disk" : Str), isAsciiLower c = true := by decide
    rw [hall sep hmem] at hlower
    cases hlower
  have hparts : diskStem k v.text = k ++ '-' :: (v.text ++ '-' :: ("disk" ++ ['-'])) := by
    simp [diskStem]
  rw [hparts]
  simp only [List.mem_append, List.mem_cons, List.not_mem_nil, or_false, not_or]
  exact ⟨hkind, hdash, v.not_mem hdigit, hdash, hdisk, hdash⟩

/-- The pattern does not look past a separator. -/
theorem volumeMatcher_splits (old : Vmid) (new : Str) (hword : isWord sep = false) (hdash : sep ≠ '-') :
    (volumeMatcher old.text new).Splits sep where
  start prev b := by
    cases hmatch : volumeMatcher old.text new prev (sep :: b) with
    | none => rfl
    | some found =>
      obtain ⟨k, hk, x, heq, -⟩ := volumeMatcher_some hmatch
      have hne : diskStem k old.text ≠ [] := by simp [diskStem]
      obtain ⟨c, t, ht⟩ := List.exists_cons_of_ne_nil hne
      rw [ht, List.cons_append] at heq
      obtain ⟨rfl, -⟩ := List.cons.inj heq
      exact absurd (ht ▸ List.mem_cons_self) (not_mem_diskStem hk old hword hdash)
  before prev a b hne := by
    have hstart : ∀ k ∈ volumeKinds, startsWith (a ++ sep :: b) (diskStem k old.text) =
        startsWith a (diskStem k old.text) := by
      intro k hk
      rw [startsWith, startsWith, Bool.eq_iff_iff, List.isPrefixOf_iff_prefix, List.isPrefixOf_iff_prefix]
      exact ⟨prefix_append_sep (not_mem_diskStem hk old hword hdash),
        fun h => h.trans (List.prefix_append _ _)⟩
    have hwords : leadingWord (volumeKinds.map (fun k => diskStem k old.text)) (a ++ sep :: b) =
        leadingWord (volumeKinds.map (fun k => diskStem k old.text)) a := by
      rw [leadingWord, leadingWord]
      exact List.find?_congr (List.forall_mem_map.mpr hstart)
    have hhead : (a ++ sep :: b).head? = a.head? := List.head?_append_of_ne_nil _ hne
    rw [volumeMatcher, volumeMatcher, volumeMatch, volumeMatch, hhead]
    exact congrArg _ (if_congr Iff.rfl hwords rfl)
  after s := by
    have hboundary : isBoundary (some sep) s.head? = isBoundary none s.head? := by
      rw [isBoundary, isBoundary, Option.any_some, hword]
      rfl
    rw [volumeMatcher, volumeMatcher, volumeMatch, volumeMatch, hboundary]

theorem renameVolumes_split (old : Vmid) (new a b : Str) (hword : isWord sep = false) (hdash : sep ≠ '-') :
    renameVolumes old.text new (a ++ sep :: b) =
      renameVolumes old.text new a ++ sep :: renameVolumes old.text new b :=
  substitute_split (volumeMatcher_proper _ _) (volumeMatcher_splits old new hword hdash)

/-! ## The two names -/

/-- Another VMID shows in the result. -/
theorem renameVolumes_shows {old new : Vmid} (hne : new ≠ old) (prev : Option Char) (seg t r x : Str)
    (h : volumeMatcher old.text new.text prev (seg ++ t) = some (seg.length, r)) : r ++ x ≠ seg ++ t := by
  obtain ⟨k, hk, y, heq, -, rfl⟩ := volumeMatcher_some h
  rw [heq]
  intro hsame
  exact hne (diskStem_inj hk hk hsame).2.1

theorem substitute_volume_eq_self_iff {old new : Vmid} (hne : new ≠ old) :
    substitute (volumeMatcher old.text new.text) prev 0 s = s ↔ ¬ NamesDisk old.text prev s := by
  rw [substitute_eq_self_iff (volumeMatcher_proper _ _) (renameVolumes_shows hne), NamesDisk]
  simp only [volumeMatcher, Option.map_eq_none_iff, not_exists, not_and, not_not]
  constructor
  · intro h a b heq
    by_cases hb : b = []
    · subst hb
      rw [volumeMatch]
      exact ite_eq_right_iff.mpr fun _ => rfl
    · exact h a b hb heq
  · intro h a b _ heq
    exact h a b heq

theorem boundary_diskStem (hk : k ∈ volumeKinds) (v x : Str) :
    isBoundary none (diskStem k v ++ x).head? = true := by
  have hkinds : ∀ k ∈ volumeKinds, k ≠ [] ∧ isBoundary none k.head? = true := by decide
  obtain ⟨hne, hboundary⟩ := hkinds k hk
  have hstem : diskStem k v ++ x = k ++ ('-' :: (v ++ ("-disk-" ++ x))) := by simp [diskStem]
  rw [hstem, List.head?_append_of_ne_nil _ hne, hboundary]

/-- A stem at the start is renamed. -/
theorem renameVolumes_diskStem (hk : k ∈ volumeKinds) (new : Str) :
    renameVolumes vmid.text new (diskStem k vmid.text ++ x) =
      diskStem k new ++ substitute (volumeMatcher vmid.text new) (some '-') 0 x := by
  have hword : leadingWord (volumeKinds.map (fun k => k ++ "-" ++ vmid.text ++ "-disk-"))
      (diskStem k vmid.text ++ x) = some (diskStem k vmid.text) := leadingWord_diskStem hk
  have hmatch : volumeMatcher vmid.text new none (diskStem k vmid.text ++ x) =
      some ((diskStem k vmid.text).length, diskStem k new) := by
    rw [volumeMatcher, volumeMatch, if_pos (boundary_diskStem hk _ _), hword, Option.map_some, kindOf_diskStem hk]
    rfl
  have hne : diskStem k vmid.text ≠ [] := by simp [diskStem]
  have hlast : lastOr none (diskStem k vmid.text) = some '-' := by
    rw [lastOr, diskStem, List.getLast?_append_of_ne_nil _ (by decide)]
    rfl
  rw [renameVolumes, substitute_match hne hmatch, hlast]

/-- A volume of the guest that is no disk keeps its stem. -/
theorem renameVolumes_volumeStem (hk : k ∈ volumeKinds) (hdisk : ¬ ("disk-" : Str) <+: x) (new : Str) :
    ∃ y, renameVolumes vmid.text new (volumeStem k vmid.text ++ x) = volumeStem k vmid.text ++ y := by
  have hnone : ∀ prev t, t ≠ [] → t <:+ volumeStem k vmid.text →
      volumeMatcher vmid.text new prev (t ++ x) = none := by
    intro prev t hne ⟨a, ha⟩
    cases hmatch : volumeMatcher vmid.text new prev (t ++ x) with
    | none => rfl
    | some found =>
      obtain ⟨k', hk', y, heq, -⟩ := volumeMatcher_some hmatch
      rw [diskStem_append, volumeStem_append] at heq
      have hstem : a ++ t = k ++ ('-' :: (vmid.text ++ ['-'])) := by
        rw [ha]
        simp [volumeStem]
      rcases List.append_eq_append_iff.mp hstem with ⟨k₁, rfl, rfl⟩ | ⟨c, rfl, hc⟩
      · -- the stem starts in the kind
        have hlower : ∀ c ∈ k₁, isAsciiLower c = true := fun c hc =>
          isAsciiLower_of_mem_kind hk c (List.mem_append_right _ hc)
        rw [List.append_assoc, List.cons_append, List.append_assoc] at heq
        obtain ⟨-, -, heq⟩ := word_inj hlower (isAsciiLower_of_mem_kind hk') (by decide) (by decide) heq
        have hrest := (List.cons.inj (List.append_cancel_left heq)).2
        exact absurd ⟨y, hrest.symm⟩ hdisk
      · -- or behind it, where no kind starts
        obtain ⟨d, t, rfl⟩ := List.exists_cons_of_ne_nil hne
        obtain ⟨e, k', rfl⟩ : ∃ e k'', k' = e :: k'' := by
          cases k' with
          | nil => exact absurd hk' (by decide)
          | cons e k'' => exact ⟨e, k'', rfl⟩
        obtain rfl : d = e := (List.cons.inj heq).1
        have hlower := isAsciiLower_of_mem_kind hk' d List.mem_cons_self
        have hd : d ∈ '-' :: (vmid.text ++ ['-']) := by
          rw [hc]
          simp
        have hcases : d = '-' ∨ d ∈ vmid.text := by
          simpa [or_comm, or_assoc] using hd
        rcases hcases with rfl | hd
        · exact absurd hlower (by decide)
        · have hdigit := vmid.digits d hd
          rw [isAsciiDigit, Bool.and_eq_true, decide_eq_true_eq, decide_eq_true_eq] at hdigit
          rw [isAsciiLower, Bool.and_eq_true, decide_eq_true_eq] at hlower
          exact absurd (Char.le_trans hlower.1 hdigit.2) (by decide)
  exact ⟨_, substitute_stretch (fun hne => hnone _ _ hne (List.suffix_refl _))
    (fun c t hne ht => hnone _ t hne ht)⟩

/-- The rewrite gives a volume the name of the plan if and only if it finds the
stem of the guest where the plan does. -/
theorem renameVolumes_eq_planBasename_iff {new : Vmid} (h : IsLeaf leaf) (hne : new ≠ vmid) :
    renameVolumes vmid.text new.text leaf = planBasename vmid.text (some new.text) leaf ↔
      NamedAlike vmid.text leaf := by
  by_cases hstem : ∃ k ∈ volumeKinds, volumeStem k vmid.text <+: leaf
  · obtain ⟨k, hk, y, rfl⟩ := hstem
    rw [planBasename_stem h hne hk]
    by_cases hdisk : ("disk-" : Str) <+: y
    · obtain ⟨x, rfl⟩ := hdisk
      rw [← diskStem_append, ← diskStem_append, renameVolumes_diskStem hk, List.append_right_inj,
        substitute_volume_eq_self_iff hne]
      constructor
      · intro hx
        exact .inl ⟨k, hk, x, rfl, hx⟩
      · rintro (⟨k', hk', x', heq, hx⟩ | ⟨hnone, -⟩)
        · obtain ⟨-, -, rfl⟩ := diskStem_inj hk hk' heq
          exact hx
        · exact absurd ⟨"disk-" ++ x, (diskStem_append _ _ _).symm⟩ (hnone k hk)
    · obtain ⟨z, hz⟩ : ∃ z, renameVolumes vmid.text new.text (volumeStem k vmid.text ++ y) =
          volumeStem k vmid.text ++ z := renameVolumes_volumeStem hk hdisk _
      rw [hz]
      refine iff_of_false ?_ ?_
      · intro heq
        exact hne (volumeStem_inj hk hk heq).2.1.symm
      · rintro (⟨k', hk', x, heq, -⟩ | ⟨hnone, -⟩)
        · rw [diskStem_append] at heq
          obtain ⟨-, -, rfl⟩ := volumeStem_inj hk hk' heq
          exact hdisk ⟨x, rfl⟩
        · exact hnone k hk (List.prefix_append _ _)
  · have hnone : ∀ k ∈ volumeKinds, ¬ volumeStem k vmid.text <+: leaf := fun k hk hstart =>
      hstem ⟨k, hk, hstart⟩
    have hplan : planBasename vmid.text (some new.text) leaf = leaf := planBasename_other (some new) h hnone
    rw [hplan, renameVolumes, substitute_volume_eq_self_iff hne]
    constructor
    · intro hno
      exact .inr ⟨hnone, hno⟩
    · rintro (⟨k, hk, x, rfl, -⟩ | ⟨-, hno⟩)
      · exact absurd ⟨"disk-" ++ x, (diskStem_append _ _ _).symm⟩ (hnone k hk)
      · exact hno

/-! ## A guest and its new VMID -/

/-- The volume names of the guest, renamed if it gets another VMID. -/
def renameFor (vmid : Vmid) (newVmid : Option Vmid) (s : Str) : Str :=
  match newVmid with
  | none => s
  | some new => if new = vmid then s else renameVolumes vmid.text new.text s

theorem renameFor_cases (vmid : Vmid) (newVmid : Option Vmid) :
    ((∀ new ∈ newVmid, new = vmid) ∧ ∀ s, renameFor vmid newVmid s = s) ∨
      ∃ new, newVmid = some new ∧ new ≠ vmid ∧
        ∀ s, renameFor vmid newVmid s = renameVolumes vmid.text new.text s := by
  cases newVmid with
  | none => exact .inl ⟨fun _ h => (nomatch h), fun _ => rfl⟩
  | some new =>
    by_cases hsame : new = vmid
    · refine .inl ⟨fun n hn => (Option.some.inj hn) ▸ hsame, fun s => ?_⟩
      rw [renameFor, if_pos hsame]
    · refine .inr ⟨new, rfl, hsame, fun s => ?_⟩
      rw [renameFor, if_neg hsame]

theorem renameFor_split (vmid : Vmid) (newVmid : Option Vmid) (a b : Str) (hword : isWord sep = false)
    (hdash : sep ≠ '-') :
    renameFor vmid newVmid (a ++ sep :: b) = renameFor vmid newVmid a ++ sep :: renameFor vmid newVmid b := by
  rcases renameFor_cases vmid newVmid with ⟨-, h⟩ | ⟨new, -, -, h⟩
  · rw [h, h, h]
  · rw [h, h, h, renameVolumes_split vmid _ _ _ hword hdash]

theorem renameFor_nil (vmid : Vmid) (newVmid : Option Vmid) : renameFor vmid newVmid [] = [] := by
  rcases renameFor_cases vmid newVmid with ⟨-, h⟩ | ⟨new, -, -, h⟩
  · exact h []
  · rw [h]
    rfl

theorem renameFor_ne_nil (hs : s ≠ []) : renameFor vmid newVmid s ≠ [] := by
  rcases renameFor_cases vmid newVmid with ⟨-, h⟩ | ⟨new, -, -, h⟩
  · rwa [h]
  · rw [h]
    refine substitute_ne_nil (volumeMatcher_proper _ _) (fun prev s n r hmatch => ?_) hs
    obtain ⟨k, -, -, -, -, rfl⟩ := volumeMatcher_some hmatch
    simp [diskStem]

theorem diskStem_chars (hk : k ∈ volumeKinds) (v : Vmid) :
    ∀ c ∈ diskStem k v.text, isWord c = true ∨ c = '-' := by
  intro c hc
  by_contra hno
  obtain ⟨hword, hdash⟩ := not_or.mp hno
  exact not_mem_diskStem hk v (by simpa using hword) hdash hc

theorem mem_renameFor {c : Char} (h : c ∈ renameFor vmid newVmid s) : c ∈ s ∨ isWord c = true ∨ c = '-' := by
  rcases renameFor_cases vmid newVmid with ⟨-, hsame⟩ | ⟨new, -, -, hrename⟩
  · rw [hsame] at h
    exact .inl h
  · rw [hrename] at h
    refine mem_substitute (P := fun c => isWord c = true ∨ c = '-') (volumeMatcher_proper _ _)
      (fun prev s n r hmatch d hd => ?_) h
    obtain ⟨k, hk, -, -, -, rfl⟩ := volumeMatcher_some hmatch
    exact .inr (diskStem_chars hk new d hd)

theorem dash_mem_diskStem (k v : Str) : '-' ∈ diskStem k v := by
  simp [diskStem]

theorem renameFor_of_not_mem (h : '-' ∉ s) : renameFor vmid newVmid s = s := by
  rcases renameFor_cases vmid newVmid with ⟨-, hsame⟩ | ⟨new, -, -, hrename⟩
  · exact hsame s
  · rw [hrename]
    refine substitute_eq_self fun prev t _ ht => ?_
    cases hmatch : volumeMatcher vmid.text new.text prev t with
    | none => rfl
    | some found =>
      obtain ⟨k, -, x, rfl, -⟩ := volumeMatcher_some hmatch
      exact absurd (ht.subset (List.mem_append_left _ (dash_mem_diskStem _ _))) h

/-- A text that was renamed has a dash. -/
theorem renameFor_eq_self (h : '-' ∉ renameFor vmid newVmid s) : renameFor vmid newVmid s = s := by
  rcases renameFor_cases vmid newVmid with ⟨-, hsame⟩ | ⟨new, -, -, hrename⟩
  · exact hsame s
  · rw [hrename] at h ⊢
    refine (mem_substitute_or_eq (volumeMatcher_proper _ _) fun prev s n r hmatch => ?_).resolve_left h
    obtain ⟨k, -, -, -, -, rfl⟩ := volumeMatcher_some hmatch
    exact dash_mem_diskStem _ _

/-- A word with an equals sign and no dash is not made. -/
theorem not_infix_renameFor {w : Str} (hdash : '-' ∉ w) (hequals : '=' ∈ w) (h : ¬ w <:+: s) :
    ¬ w <:+: renameFor vmid newVmid s := by
  rcases renameFor_cases vmid newVmid with ⟨-, hsame⟩ | ⟨new, -, -, hrename⟩
  · rwa [hsame]
  · rw [hrename]
    refine not_infix_substitute (volumeMatcher_proper _ _) ?_ [] (fun _ => rfl) h
    intro prev seg s r a t hmatch _ hseg ht hw
    obtain ⟨k, hk, x, heq, hlength, rfl⟩ := volumeMatcher_some hmatch
    obtain ⟨rfl, -⟩ := List.append_inj heq hlength
    have hparts : a ++ (diskStem k new.text ++ t) =
        (a ++ k) ++ '-' :: (new.text ++ '-' :: ("disk" ++ '-' :: t)) := by
      simp [diskStem]
    rw [hparts] at hw
    rcases infix_append_sep hdash hw with hw | hw
    · have hfront : a ++ k <+: a ++ diskStem k vmid.text := by
        rw [List.prefix_append_right_inj, diskStem, List.append_assoc, List.append_assoc]
        exact List.prefix_append _ _
      exact hseg (hw.trans hfront.isInfix)
    · rcases infix_append_sep hdash hw with hw | hw
      · exact new.not_mem (by decide) (hw.subset hequals)
      · rcases infix_append_sep hdash hw with hw | hw
        · exact absurd (hw.subset hequals) (by decide)
        · exact ht hw

/-- A migration gives a volume one name on both sides if and only if the
rewrite finds the stem of the guest where the plan does. -/
theorem renameFor_eq_planBasename_iff (h : IsLeaf leaf) :
    renameFor vmid newVmid leaf = planBasename vmid.text (newVmid.map Vmid.text) leaf ↔
      ∀ new ∈ newVmid, new ≠ vmid → NamedAlike vmid.text leaf := by
  rcases renameFor_cases vmid newVmid with ⟨hall, hsame⟩ | ⟨new, rfl, hne, hrename⟩
  · rw [hsame, planBasename_same h hall]
    exact iff_of_true rfl fun new hnew hne => absurd (hall new hnew) hne
  · rw [hrename, Option.map_some, renameVolumes_eq_planBasename_iff h hne]
    constructor
    · intro hnamed _ _ _
      exact hnamed
    · intro hall
      exact hall new rfl hne

end

end PveZfsTool
