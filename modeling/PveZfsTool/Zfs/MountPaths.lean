import PveZfsTool.Lib.Substitute
import PveZfsTool.Zfs.RestoreMounts

/-!
# What takes a mount back

The path and the clone that `snapshot_mount` returns come back as arguments:
of `snapshot_browse` and `snapshot_read_file`, which check the path with
`_validated_mount`, and of `snapshot_unmount`.  The names pass two expressions
there that are not the one of the snapshot's name.

`mount_taken_back_iff` says for which snapshots both are accepted, and
`mount_not_taken_back` is a snapshot whose mount can not be looked into.
-/

namespace PveZfsTool

open Dialogue Text

/-- `ZVOL_MOUNT_BASE` -/
def zvolMountBase : Str := "/tmp/zfs-tool-zvol-restore"

/-- `_validated_mount` -/
def validatedMount (mountPath : Str) : Except Str Str :=
  match validatePath mountPath "Mount path" with
  | .error e => .error e
  | .ok mountPath =>
    if startsWith mountPath (restoreMountBase ++ "/") ||
        startsWith mountPath (zvolMountBase ++ "/") then .ok mountPath
    else .error "Mount path: not a snapshot mount of this tool"

/-- `snapshot_unmount` destroys the clone. -/
def Unmounts (host : Host) (ds : Str) : Prop :=
  ∀ log o, (snapshotUnmount host ds).Run log o →
    Requested log host (.destroyClone (shlexQuote (strip ds)) [])

/-- The path of a mount is accepted for browsing and reading, and the clone
for unmounting. -/
def TakenBack (host : Host) (m : Mounted) : Prop :=
  validatedMount m.mountPath = .ok m.mountPath ∧ Unmounts host m.cloneDs

/-- The pool in the name of a snapshot. -/
def snapshotPool (s : Str) : Str := beforeFirst '/' (beforeLast '@' s)

/-- The snapshots whose mounts are taken back. -/
def TakenBackName (s : Str) : Prop :=
  '@' ∈ s ∧ '@' ∉ snapshotPool s ∧ ':' ∉ s ∧ ¬ (".." : Str) <:+: s ∧
    s.length + 30 ≤ maxInputLength ∧ (snapshotPool s).length + s.length + 17 ≤ maxInputLength

instance (s : Str) : Decidable (TakenBackName s) := inferInstanceAs (Decidable (_ ∧ _))

/-! ## The clone's name -/

theorem exists_last {sep : Char} {s : Str} (h : sep ∈ s) :
    s = beforeLast sep s ++ sep :: afterLast sep s ∧ sep ∉ afterLast sep s := by
  obtain ⟨b, a, hs, hb⟩ := List.eq_append_cons_of_mem (List.mem_reverse.mpr h)
  have hsplit : s = a.reverse ++ sep :: b.reverse := by
    rw [← List.reverse_reverse s, hs]
    simp
  have hb' : sep ∉ b.reverse := by simpa using hb
  rw [hsplit, beforeLast_append hb', afterLast_append hb']
  exact ⟨rfl, hb'⟩

section CloneName

variable {ds label : Str}

theorem restoreCloneName_eq :
    restoreCloneName ds label =
      ds.map dashed ++ '-' :: (("restore" : Str) ++ '-' :: label.map dashed) := by
  have hmiddle : ("-restore-" : Str).map dashed = '-' :: (("restore" : Str) ++ ['-']) := by decide
  show (ds ++ "-restore-" ++ label).map dashed = _
  rw [List.map_append, List.map_append, hmiddle]
  simp

theorem length_restoreCloneName :
    (restoreCloneName ds label).length = (ds ++ '@' :: label).length + 8 := by
  rw [restoreCloneName_eq]
  simp
  omega

theorem dashed_eq_self_iff {c d : Char} (hd : d ≠ '-') (hslash : d ≠ '/') (hat : d ≠ '@') :
    dashed c = d ↔ c = d := by
  unfold dashed
  split
  · next h =>
    constructor
    · intro heq
      exact absurd heq.symm hd
    · rintro rfl
      exact absurd h (by simp [hslash, hat])
  · rfl

theorem mem_map_dashed_iff {d : Char} (hd : d ≠ '-') (hslash : d ≠ '/') (hat : d ≠ '@') {s : Str} :
    d ∈ s.map dashed ↔ d ∈ s := by
  simp only [List.mem_map, dashed_eq_self_iff hd hslash hat, exists_eq_right]

theorem dots_map_dashed_iff {s : Str} : (".." : Str) <:+: s.map dashed ↔ (".." : Str) <:+: s := by
  constructor
  · rintro ⟨a, b, h⟩
    obtain ⟨u, v, rfl, hu, -⟩ := List.map_eq_append_iff.mp h.symm
    obtain ⟨p, q, rfl, -, hq⟩ := List.map_eq_append_iff.mp hu
    have hdots : q = (".." : Str) := by
      obtain ⟨c, t, rfl, hc, ht⟩ := List.map_eq_cons_iff.mp hq
      obtain ⟨d, t', rfl, hd, ht'⟩ := List.map_eq_cons_iff.mp ht
      rw [List.map_eq_nil_iff] at ht'
      rw [dashed_eq_self_iff (by decide) (by decide) (by decide)] at hc hd
      rw [hc, hd, ht']
      rfl
    exact ⟨p, v, by rw [hdots]⟩
  · intro h
    exact h.map dashed

theorem colon_mem_restoreCloneName :
    ':' ∈ restoreCloneName ds label ↔ ':' ∈ ds ++ '@' :: label := by
  have hmiddle : ':' ∉ ("restore" : Str) := by decide
  rw [restoreCloneName_eq]
  simp only [List.mem_append, List.mem_cons, hmiddle, false_or,
    mem_map_dashed_iff (by decide : ':' ≠ '-') (by decide) (by decide)]
  simp

/-- Two dots stand in the dataset or in the label. -/
theorem dots_append_iff {a b : Str} {sep : Char} (hsep : sep ≠ '.') :
    (".." : Str) <:+: a ++ sep :: b ↔ (".." : Str) <:+: a ∨ (".." : Str) <:+: b := by
  constructor
  · apply infix_append_sep
    simp [hsep]
  · rintro (h | h)
    · exact h.trans (List.prefix_append _ _).isInfix
    · exact h.trans ((List.suffix_cons _ _).trans (List.suffix_append _ _)).isInfix

theorem dots_restoreCloneName :
    (".." : Str) <:+: restoreCloneName ds label ↔ (".." : Str) <:+: ds ++ '@' :: label := by
  have hmiddle : ¬ (".." : Str) <:+: ("restore" : Str) := by decide
  rw [restoreCloneName_eq, dots_append_iff (by decide), dots_append_iff (by decide),
    dots_append_iff (by decide), dots_map_dashed_iff, dots_map_dashed_iff]
  tauto

end CloneName

/-! ## The checks -/

theorem isZfsNameChar_of_matches {s : Str} (h : matchesZfsName s = true) :
    ∀ c ∈ s, isZfsNameChar c = true := by
  cases s with
  | nil => simp
  | cons c s =>
    simp only [matchesZfsName, Bool.and_eq_true, List.all_eq_true] at h
    refine List.forall_mem_cons.mpr ⟨?_, h.2⟩
    rw [isZfsNameChar, h.1, Bool.true_or]

theorem isSpace_of_isZfsNameChar {c : Char} (h : isZfsNameChar c = true) : isSpace c = false := by
  have hascii := toNat_lt_of_class (by decide) h
  revert h
  exact of_ascii (P := fun c => isZfsNameChar c = true → isSpace c = false) (by decide)
    hascii

theorem isRestoreChar_dashed {c : Char} (h : isZfsNameChar c = true) :
    isRestoreChar (dashed c) = true := by
  have hascii := toNat_lt_of_class (by decide) h
  revert h
  exact of_ascii (P := fun c => isZfsNameChar c = true → isRestoreChar (dashed c) = true)
    (by decide) hascii

theorem isZfsNameChar_of_isRestoreChar {c : Char} (h : isRestoreChar c = true) :
    isZfsNameChar c = true := by
  have hascii := toNat_lt_of_class (by decide) h
  revert h
  exact of_ascii (P := fun c => isRestoreChar c = true → isZfsNameChar c = true)
    (by decide) hascii

theorem isSafePathChar_iff {c : Char} (h : isRestoreChar c = true) :
    isSafePathChar c = true ↔ c ≠ ':' := by
  have hascii := toNat_lt_of_class (by decide) h
  revert h
  exact of_ascii (P := fun c => isRestoreChar c = true → (isSafePathChar c = true ↔ c ≠ ':'))
    (by decide) hascii

theorem isRestoreChar_restoreCloneName {ds label : Str}
    (h : ∀ c ∈ ds ++ '@' :: label, isZfsNameChar c = true) :
    ∀ c ∈ restoreCloneName ds label, isRestoreChar c = true := by
  intro c hc
  obtain ⟨d, hd, rfl⟩ := List.mem_map.mp hc
  apply isRestoreChar_dashed
  rw [List.mem_append, List.mem_append] at hd
  obtain (hd | hd) | hd := hd
  · exact h d (List.mem_append_left _ hd)
  · have hmiddle : ("-restore-" : Str).all isZfsNameChar = true := by decide
    exact List.all_eq_true.mp hmiddle d hd
  · exact h d (List.mem_append_right _ (List.mem_cons_of_mem _ hd))

/-- `validate_path` on a text without whitespace. -/
theorem validatePath_iff {value label : Str} (hne : value ≠ [])
    (hspace : ∀ c ∈ value, isSpace c = false) :
    validatePath value label = .ok value ↔
      value.length ≤ maxInputLength ∧ ¬ (".." : Str) <:+: value ∧
        ∀ c ∈ value, isSafePathChar c = true := by
  have hnull : isSafePathChar (Char.ofNat 0) = false := by decide
  unfold validatePath
  rw [strip_eq_self hspace, if_neg hne]
  split_ifs with h₁ h₂ h₃ h₄
  · refine iff_of_false (by simp) ?_
    omega
  · simp only [contains, decide_eq_true_eq] at h₂
    exact iff_of_false (by simp) (fun h => h.2.1 h₂)
  · simp only [List.contains_iff_mem] at h₃
    refine iff_of_false (by simp) (fun h => ?_)
    rw [h.2.2 _ h₃] at hnull
    cases hnull
  · simp only [contains, decide_eq_true_eq] at h₂
    simp only [List.all_eq_true] at h₄
    exact iff_of_true rfl ⟨not_lt.mp h₁, h₂, h₄.2⟩
  · exact iff_of_false (by simp) (fun h => h₄ ⟨hne, List.all_eq_true.mpr h.2.2⟩)

/-- The path of a mount is accepted when the clone's name is short enough and
has neither a colon nor two dots in a row. -/
theorem validatedMount_iff {name : Str} (hchars : ∀ c ∈ name, isRestoreChar c = true) :
    validatedMount (restoreMountBase ++ "/" ++ name) = .ok (restoreMountBase ++ "/" ++ name) ↔
      name.length + 22 ≤ maxInputLength ∧ ¬ (".." : Str) <:+: name ∧ ':' ∉ name := by
  have hpath : restoreMountBase ++ ("/" : Str) ++ name = restoreMountBase ++ '/' :: name := by simp
  rw [hpath]
  have hspace : ∀ c ∈ restoreMountBase ++ '/' :: name, isSpace c = false := by
    have hbase : (restoreMountBase ++ ['/']).all (fun c => !isSpace c) = true := by decide
    rw [List.append_cons]
    refine List.forall_mem_append.mpr ⟨fun c hc => ?_, fun c hc => ?_⟩
    · simpa using List.all_eq_true.mp hbase c hc
    · exact isSpace_of_isZfsNameChar (isZfsNameChar_of_isRestoreChar (hchars c hc))
  have hvalid : validatedMount (restoreMountBase ++ '/' :: name) =
      .ok (restoreMountBase ++ '/' :: name) ↔
        validatePath (restoreMountBase ++ '/' :: name) "Mount path" =
          .ok (restoreMountBase ++ '/' :: name) := by
    unfold validatedMount
    constructor
    · intro h
      split at h
      · cases h
      · next path hpath =>
        split at h
        · rw [hpath, Except.ok.inj h]
        · cases h
    · intro h
      have hstarts : startsWith (restoreMountBase ++ '/' :: name) (restoreMountBase ++ "/") = true := by
        rw [startsWith, List.isPrefixOf_iff_prefix, List.append_cons]
        exact List.prefix_append _ _
      rw [h]
      dsimp only
      rw [hstarts, Bool.true_or, if_pos rfl]
  have hdots : ¬ (".." : Str) <:+: restoreMountBase := by decide
  have hlen : (restoreMountBase ++ '/' :: name).length = name.length + 22 := by
    have hbase : restoreMountBase.length = 21 := by decide
    rw [List.length_append, List.length_cons, hbase]
    omega
  have hsafe : (∀ c ∈ restoreMountBase ++ '/' :: name, isSafePathChar c = true) ↔ ':' ∉ name := by
    have hall : (restoreMountBase ++ ['/']).all isSafePathChar = true := by decide
    have hbase := List.all_eq_true.mp hall
    rw [List.append_cons, List.forall_mem_append]
    constructor
    · rintro ⟨-, hall⟩ hmem
      exact (isSafePathChar_iff (hchars _ hmem)).mp (hall _ hmem) rfl
    · intro hcolon
      refine ⟨hbase, fun c hc => (isSafePathChar_iff (hchars c hc)).mpr ?_⟩
      exact ne_of_mem_of_not_mem hc hcolon
  rw [hvalid, validatePath_iff (by simp) hspace, hlen, hsafe, dots_append_iff (by decide)]
  simp only [hdots, false_or]

/-- `snapshot_unmount` on any text. -/
theorem unmounts_iff {host : Host} {ds : Str} :
    Unmounts host ds ↔ (strip ds).length ≤ maxInputLength ∧ matchesZfsName (strip ds) = true ∧
      matchesRestoreClone (strip ds) = true := by
  unfold Unmounts snapshotUnmount
  have hrefused : ∀ message, ¬ ∀ log o, (Prog.ret (refusal message) : ZfsJob Answer).Run log o →
      Requested log host (.destroyClone (shlexQuote (strip ds)) []) := by
    intro message h
    obtain ⟨a, hmem⟩ := h [] _ ⟨rfl, rfl⟩
    cases hmem
  cases hname : validateZfsName ds "Clone dataset" with
  | error e =>
    refine iff_of_false (hrefused e) ?_
    rintro ⟨hlen, hmatch, -⟩
    unfold validateZfsName at hname
    split_ifs at hname with h₁ h₂
    · subst h₁
      cases hmatch
    · omega
  | ok name =>
    obtain rfl := validateZfsName_ok hname
    have hmatch := matchesZfsName_of_ok hname
    have hlen : (strip ds).length ≤ maxInputLength := by
      unfold validateZfsName at hname
      split_ifs at hname
      omega
    dsimp only
    by_cases hclone : matchesRestoreClone (strip ds) = true
    · rw [if_pos hclone]
      refine iff_of_true ?_ ⟨hlen, hmatch, hclone⟩
      intro log o hrun
      obtain ⟨a, rest, rfl, -⟩ := Prog.run_ask.mp hrun
      exact ⟨a, List.mem_cons_self⟩
    · rw [if_neg hclone]
      exact iff_of_false (hrefused _) (fun h => hclone h.2.2)

/-! ## The mounts that are taken back -/

/-- The clone and the path of a snapshot. -/
def mountedOf (s : Str) : Mounted :=
  let dsName : Str := if '@' ∈ s then beforeLast '@' s else []
  let snapShort : Str := if '@' ∈ s then afterLast '@' s else []
  let cloneName := restoreCloneName dsName snapShort
  ⟨beforeFirst '/' dsName ++ "/restore-" ++ cloneName, restoreMountBase ++ "/" ++ cloneName, s⟩

/-- A successful mount is the one of a valid name. -/
theorem run_snapshotMount_ok {host : Host} {snapshot : Str} {log : ZfsLog} {m : Mounted}
    (h : (snapshotMount host snapshot).Run log (.ok (.ok m))) :
    m = mountedOf (strip snapshot) ∧ matchesZfsName (strip snapshot) = true := by
  unfold snapshotMount at h
  cases hname : validateZfsName snapshot "Snapshot" with
  | error e =>
    rw [hname] at h
    cases (Prog.run_ret.mp h).2
  | ok name =>
    obtain rfl := validateZfsName_ok hname
    rw [hname] at h
    refine ⟨?_, matchesZfsName_of_ok hname⟩
    unfold mountSnapshot at h
    simp only [runZfs, Prog.issue_bind, Prog.run_ask] at h
    obtain ⟨check, log, rfl, h⟩ := h
    split at h
    · cases (Prog.run_ret.mp h).2
    · obtain ⟨a, log, rfl, hdestroy⟩ := Prog.run_ask.mp h
      obtain ⟨r, log, rfl, hclone⟩ := Prog.run_ask.mp hdestroy
      split at hclone
      · exact Except.ok.inj (Except.ok.inj (Prog.run_ret.mp hclone).2)
      · cases (Prog.run_ret.mp hclone).2

/-- The names that `snapshot_unmount` takes for restore clones. -/
theorem matchesRestoreClone_iff {ds : Str} :
    matchesRestoreClone ds = true ↔
      ∃ pool leaf : Str, pool ≠ [] ∧ '/' ∉ pool ∧ '@' ∉ pool ∧ leaf ≠ [] ∧
        (∀ c ∈ leaf, isRestoreChar c = true) ∧ ds = pool ++ ("/restore-" : Str) ++ leaf := by
  simp only [matchesRestoreClone, Bool.and_eq_true, bne_iff_ne, ne_eq, List.all_eq_true]
  constructor
  · rintro ⟨⟨⟨hpool, hrest⟩, hleaf⟩, hchars⟩
    obtain ⟨leaf, hleaf'⟩ := List.isPrefixOf_iff_prefix.mp hrest
    have hnine : ("/restore-" : Str).length = 9 := by decide
    rw [← hleaf', ← hnine, List.drop_left] at hleaf hchars
    have hstop : ∀ c ∈ ds.takeWhile (fun c => c ≠ '/' ∧ c ≠ '@'), c ≠ '/' ∧ c ≠ '@' := by
      intro c hc
      have hstays := List.mem_takeWhile_imp hc
      simpa using hstays
    refine ⟨_, leaf, hpool, ?_, ?_, hleaf, hchars, ?_⟩
    · exact fun hmem => (hstop _ hmem).1 rfl
    · exact fun hmem => (hstop _ hmem).2 rfl
    · rw [List.append_assoc, hleaf']
      exact (List.prefix_iff_eq_append.mp (List.takeWhile_prefix _)).symm
  · rintro ⟨pool, leaf, hne, hslash, hat, hleaf, hchars, rfl⟩
    have hstop : ∀ c ∈ pool, (decide (c ≠ '/' ∧ c ≠ '@')) = true := by
      intro c hc
      simp only [decide_eq_true_eq]
      exact ⟨ne_of_mem_of_not_mem hc hslash, ne_of_mem_of_not_mem hc hat⟩
    have htake : (pool ++ ("/restore-" : Str) ++ leaf).takeWhile (fun c => c ≠ '/' ∧ c ≠ '@') =
        pool := by
      rw [List.append_assoc, List.takeWhile_append_of_pos hstop]
      simp
    have hnine : ("/restore-" : Str).length = 9 := by decide
    rw [htake, List.append_assoc, List.drop_left, ← hnine, List.drop_left]
    refine ⟨⟨⟨hne, ?_⟩, hleaf⟩, hchars⟩
    exact List.isPrefixOf_iff_prefix.mpr (List.prefix_append _ _)

/-- The unmount accepts the clone when it has a plain pool and is short
enough. -/
theorem cloneDs_unmounts_iff {host : Host} {pool name : Str} (hslash : '/' ∉ pool)
    (hpool : matchesZfsName pool = true) (hne : name ≠ [])
    (hchars : ∀ c ∈ name, isRestoreChar c = true) :
    Unmounts host (pool ++ "/restore-" ++ name) ↔
      '@' ∉ pool ∧ pool.length + name.length + 9 ≤ maxInputLength := by
  have hall : ∀ c ∈ pool ++ "/restore-" ++ name, isZfsNameChar c = true := by
    refine List.forall_mem_append.mpr ⟨List.forall_mem_append.mpr ⟨?_, by decide⟩, ?_⟩
    · exact isZfsNameChar_of_matches hpool
    · exact fun c hc => isZfsNameChar_of_isRestoreChar (hchars c hc)
  have hstrip := strip_eq_self (fun c hc => isSpace_of_isZfsNameChar (hall c hc))
  have hmatch : matchesZfsName (pool ++ "/restore-" ++ name) = true := by
    cases pool with
    | nil => cases hpool
    | cons c pool =>
      simp only [matchesZfsName, Bool.and_eq_true] at hpool
      simp only [List.cons_append, matchesZfsName, Bool.and_eq_true, List.all_eq_true]
      exact ⟨hpool.1, fun d hd => hall d (List.mem_cons_of_mem _ hd)⟩
  have hlen : (pool ++ ("/restore-" : Str) ++ name).length = pool.length + name.length + 9 := by
    have hmiddle : ("/restore-" : Str).length = 9 := by decide
    rw [List.length_append, List.length_append, hmiddle]
    omega
  have hclone : matchesRestoreClone (pool ++ "/restore-" ++ name) = true ↔ '@' ∉ pool := by
    constructor
    · intro hmatches
      obtain ⟨pool', leaf', -, hslash', hat', -, -, heq⟩ := matchesRestoreClone_iff.mp hmatches
      have hbefore := congrArg (beforeFirst '/') heq
      rw [List.append_assoc, List.append_assoc] at hbefore
      have hsame : pool = pool' := by
        calc pool = beforeFirst '/' (pool ++ '/' :: (("restore-" : Str) ++ name)) :=
              (beforeFirst_append hslash).symm
          _ = beforeFirst '/' (pool' ++ '/' :: (("restore-" : Str) ++ leaf')) := hbefore
          _ = pool' := beforeFirst_append hslash'
      rw [hsame]
      exact hat'
    · intro hat
      have hpoolne : pool ≠ [] := by
        rintro rfl
        cases hpool
      exact matchesRestoreClone_iff.mpr ⟨pool, name, hpoolne, hslash, hat, hne, hchars, rfl⟩
  rw [unmounts_iff, hstrip, hlen, hclone]
  simp only [hmatch, true_and]
  exact and_comm

/-- What stands before a separator in a valid name is a valid name. -/
theorem matchesZfsName_left {a b : Str} (h : matchesZfsName (a ++ b) = true)
    (hb : ∀ c ∈ b.head?, isAsciiAlnum c = false) : matchesZfsName a = true := by
  cases a with
  | nil =>
    cases b with
    | nil => exact h
    | cons c b =>
      simp only [List.nil_append, matchesZfsName, Bool.and_eq_true] at h
      rw [hb c (by simp)] at h
      cases h.1
  | cons c a =>
    simp only [List.cons_append, matchesZfsName, Bool.and_eq_true, List.all_eq_true] at h ⊢
    exact ⟨h.1, fun d hd => h.2 d (List.mem_append_left _ hd)⟩

theorem matchesZfsName_snapshotPool {s : Str} (h : matchesZfsName s = true) (hat : '@' ∈ s) :
    matchesZfsName (snapshotPool s) = true := by
  have hds : matchesZfsName (beforeLast '@' s) = true := by
    rw [(exists_last hat).1] at h
    refine matchesZfsName_left h ?_
    intro c hc
    obtain rfl := Option.some.inj hc
    decide
  rw [← List.takeWhile_append_dropWhile (p := (· ≠ '/')) (l := beforeLast '@' s)] at hds
  refine matchesZfsName_left hds ?_
  intro c hc
  have hstop := List.head?_dropWhile_not (fun c => decide (c ≠ '/')) (beforeLast '@' s)
  rw [Option.mem_def.mp hc] at hstop
  simp only [decide_eq_false_iff_not, not_not] at hstop
  rw [hstop]
  decide

/-- The mount of a snapshot is taken back exactly when its name is one of
these. -/
theorem mount_taken_back_iff {host : Host} {snapshot : Str} {log : ZfsLog} {m : Mounted}
    (h : (snapshotMount host snapshot).Run log (.ok (.ok m))) :
    TakenBack host m ↔ TakenBackName (strip snapshot) := by
  obtain ⟨rfl, hvalid⟩ := run_snapshotMount_ok h
  generalize strip snapshot = s at hvalid
  unfold TakenBack TakenBackName
  by_cases hat : '@' ∈ s
  · obtain ⟨hs, hlabel⟩ := exists_last hat
    have hchars : ∀ c ∈ restoreCloneName (beforeLast '@' s) (afterLast '@' s),
        isRestoreChar c = true := by
      apply isRestoreChar_restoreCloneName
      rw [← hs]
      exact isZfsNameChar_of_matches hvalid
    have hlen : (restoreCloneName (beforeLast '@' s) (afterLast '@' s)).length = s.length + 8 := by
      rw [length_restoreCloneName, ← hs]
    have hne : restoreCloneName (beforeLast '@' s) (afterLast '@' s) ≠ [] := by
      intro hnil
      rw [hnil] at hlen
      simp at hlen
    have hpool := matchesZfsName_snapshotPool hvalid hat
    have hslash : '/' ∉ snapshotPool s := not_mem_beforeFirst '/' _
    have hdots : (".." : Str) <:+: restoreCloneName (beforeLast '@' s) (afterLast '@' s) ↔
        (".." : Str) <:+: s := by
      rw [dots_restoreCloneName, ← hs]
    have hcolon : ':' ∈ restoreCloneName (beforeLast '@' s) (afterLast '@' s) ↔ ':' ∈ s := by
      rw [colon_mem_restoreCloneName, ← hs]
    have hmount : mountedOf s = ⟨snapshotPool s ++ "/restore-" ++
        restoreCloneName (beforeLast '@' s) (afterLast '@' s), restoreMountBase ++ "/" ++
          restoreCloneName (beforeLast '@' s) (afterLast '@' s), s⟩ := by
      simp only [mountedOf, if_pos hat, snapshotPool]
    rw [hmount]
    dsimp only
    rw [validatedMount_iff hchars,
      cloneDs_unmounts_iff hslash hpool hne hchars, hlen, hdots, hcolon]
    have harith : s.length + 8 + 22 = s.length + 30 := by omega
    have harith' : (snapshotPool s).length + (s.length + 8) + 9 =
        (snapshotPool s).length + s.length + 17 := by omega
    rw [harith, harith']
    tauto
  · refine iff_of_false ?_ (fun hname => hat hname.1)
    rintro ⟨-, hunmounts⟩
    have hclone : (mountedOf s).cloneDs = ("/restore--restore-" : Str) := by
      simp only [mountedOf, if_neg hat]
      decide
    rw [hclone, unmounts_iff] at hunmounts
    exact absurd hunmounts.2.1 (by decide)

/-- The answers on which a mount succeeds. -/
def mountAnswers : List Answer := [prints "filesystem\n", prints [], prints []]

/-- The snapshot was mounted. -/
def isMounted : Except Exn (Except Str Mounted) → Bool
  | .ok (.ok _) => true
  | _ => false

theorem exists_mounted (snapshot : Str)
    (h : (((snapshotMount hostA snapshot).transcript mountAnswers).map
      (fun r => isMounted r.2)) = some true) :
    ∃ log m, (snapshotMount hostA snapshot).Run log (.ok (.ok m)) := by
  obtain ⟨⟨log, o⟩, htranscript, hmounted⟩ := Option.map_eq_some_iff.mp h
  have hrun := Prog.run_of_transcript htranscript
  match o, hmounted with
  | .ok (.ok m), _ => exact ⟨log, m, hrun⟩

theorem mount_taken_back_daily :
    ∃ log m, (snapshotMount hostA "rpool/data/subvol-100-disk-0@daily").Run log (.ok (.ok m)) ∧
      (TakenBack hostA m ↔ TakenBackName (strip "rpool/data/subvol-100-disk-0@daily")) := by
  obtain ⟨log, m, hrun⟩ :=
    exists_mounted "rpool/data/subvol-100-disk-0@daily" (by decide)
  exact ⟨log, m, hrun, mount_taken_back_iff hrun⟩

/-- The mount of a snapshot with a time in its name can not be looked into. -/
theorem mount_not_taken_back :
    ∃ log m, (snapshotMount hostA "rpool/data/subvol-100-disk-0@auto_12:00:00").Run log
      (.ok (.ok m)) ∧ validateZfsName "rpool/data/subvol-100-disk-0@auto_12:00:00" "Snapshot" =
        .ok "rpool/data/subvol-100-disk-0@auto_12:00:00" ∧ ¬ TakenBack hostA m := by
  obtain ⟨log, m, hrun⟩ :=
    exists_mounted "rpool/data/subvol-100-disk-0@auto_12:00:00" (by decide)
  refine ⟨log, m, hrun, by decide, ?_⟩
  rintro ⟨hpath, -⟩
  rw [(run_snapshotMount_ok hrun).1] at hpath
  revert hpath
  decide +kernel

end PveZfsTool
