import PveZfsTool.Zfs.Snapshots
import PveZfsTool.Lib.Clones

/-!
# What a snapshot destruction takes with it

`destroy_snapshot` goes on to `zfs destroy -R` when the clones that depend on
the snapshot are the tool's own restore clones.  It looks for `/restore-` in
the names of the clones of this one snapshot.  `zfs destroy -R` also takes the
snapshots of that name below the dataset, and it goes on from clone to clone.

`destroySnapshot_safe_iff` says exactly when a run takes restore clones only,
and `destroySnapshot_unsafe` is a run that takes a guest's disk.
-/

open Clones

namespace PveZfsTool

open Dialogue Text

/-! ## The datasets of a host -/

/-- A clone on a host, with the snapshot it was made from. -/
structure Clone where
  name : Str
  dataset : Str
  snap : Str
  deriving DecidableEq

/-- `e` is `d`, or lies below it. -/
def AtOrBelow (e d : Str) : Prop := e = d ∨ d ++ ['/'] <+: e

instance (e d : Str) : Decidable (AtOrBelow e d) := inferInstanceAs (Decidable (_ ∨ _))

theorem AtOrBelow.trans {a b c : Str} (hab : AtOrBelow a b) (hbc : AtOrBelow b c) :
    AtOrBelow a c := by
  rcases hab with rfl | hab
  · exact hbc
  · rcases hbc with rfl | hbc
    · exact Or.inr hab
    · exact Or.inr ((hbc.trans (List.prefix_append b _)).trans hab)

/-- The datasets of a host with these clones. -/
def forest (clones : List Clone) : Forest Str Str where
  below := AtOrBelow
  below_refl _ := Or.inl rfl
  below_trans := AtOrBelow.trans
  origin e s c := ⟨c, e, s⟩ ∈ clones

/-- The dataset in the name of a snapshot. -/
def datasetOf (fullName : Str) : Str := beforeFirst '@' fullName

/-- The snapshot in its full name. -/
def snapOf (fullName : Str) : Str := afterFirst '@' fullName

/-- The clones of one snapshot. -/
def clonesOfSnapshot (clones : List Clone) (fullName : Str) : List Str :=
  (clones.filter (fun c => c.dataset = datasetOf fullName ∧ c.snap = snapOf fullName)).map
    Clone.name

/-- The dataset is named like a restore clone: `<pool>/restore-<leaf>`. -/
def RestoreClone (ds : Str) : Prop :=
  ∃ pool leaf : Str, '/' ∉ pool ∧ '/' ∉ leaf ∧ leaf ≠ [] ∧ ds = pool ++ "/restore-" ++ leaf

/-- A request that destroys a snapshot with all that depends on it removes no
clone but restore clones. -/
def TakesRestoreClonesOnly (clones : List Clone) (cmd : ZfsCmd) : Prop :=
  ∀ fullName, cmd = .destroySnapshot .dependents fullName →
    ∀ c, (forest clones).Removed (datasetOf fullName) (snapOf fullName) c →
      (forest clones).IsClone c → RestoreClone c

/-- The host answers a question for the clones of a snapshot with these
clones. -/
def Reports (clones : List Clone) (log : ZfsLog) : Prop :=
  ∀ host fullName a, ((host, .clonesOf fullName), a) ∈ log → a.success = true →
    ∀ c, c ∈ listedClones a ↔ c ∈ clonesOfSnapshot clones fullName

/-- The answers on which `destroy_snapshot` goes on to `-R`: the first attempt
failed because of clones, and `/restore-` is in the name of each listed
clone. -/
def Escalates (fullName : Str) (log : ZfsLog) : Prop :=
  ∃ host mode r listed, mode ≠ .dependents ∧
    ((host, .destroySnapshot mode fullName), r) ∈ log ∧ saysDependentClones r = true ∧
    ((host, .clonesOf fullName), listed) ∈ log ∧
    listedClones listed ≠ [] ∧ ∀ c ∈ listedClones listed, contains c "/restore-" = true

/-- The clones of the snapshot that have `/restore-` in their names are named
like restore clones. -/
def OwnClonesNamed (clones : List Clone) (fullName : Str) : Prop :=
  ∀ c ∈ clonesOfSnapshot clones fullName, contains c "/restore-" = true → RestoreClone c

/-- So are the clones of the snapshots of the same name below the dataset. -/
def ClonesBelowNamed (clones : List Clone) (fullName : Str) : Prop :=
  ∀ c ∈ clones, datasetOf fullName ++ ['/'] <+: c.dataset → c.snap = snapOf fullName →
    RestoreClone c.name

/-- No other clone depends on a restore clone that goes with the snapshot. -/
def NothingDependsOn (clones : List Clone) (fullName : Str) : Prop :=
  ∀ c, (forest clones).Chain RestoreClone (datasetOf fullName) (snapOf fullName) c →
    ∀ c', (forest clones).Depends c c' → RestoreClone c'

/-! ## The runs of `destroy_snapshot` -/

/-- The mode of the first attempt. -/
def firstMode (recursive : Bool) : DestroyMode := if recursive then .recursive else .single

/-- The logs of `destroy_snapshot` on a valid name. -/
inductive DestroyLog (host : Host) (mode : DestroyMode) (fullName : Str) : ZfsLog → Prop
  | refused : DestroyLog host mode fullName []
  | once (r : Answer) (hfirst : saysDependentClones r = false) :
      DestroyLog host mode fullName [((host, .destroySnapshot mode fullName), r)]
  | kept (r listed : Answer) (hfirst : saysDependentClones r = true)
      (hkept : foreignClones (listedClones listed) ≠ [] ∨ listedClones listed = []) :
      DestroyLog host mode fullName
        [((host, .destroySnapshot mode fullName), r), ((host, .clonesOf fullName), listed)]
  | escalated (r listed a : Answer) (hfirst : saysDependentClones r = true)
      (hforeign : foreignClones (listedClones listed) = [])
      (hlisted : listedClones listed ≠ []) :
      DestroyLog host mode fullName
        [((host, .destroySnapshot mode fullName), r), ((host, .clonesOf fullName), listed),
          ((host, .destroySnapshot .dependents fullName), a)]

theorem run_destroySnapshot {host : Host} {fullName : Str} {recursive : Bool} {log : ZfsLog}
    {o : Except Exn Answer} (h : (destroySnapshot host fullName recursive).Run log o) :
    DestroyLog host (firstMode recursive) (strip fullName) log := by
  unfold destroySnapshot at h
  cases hname : validateZfsName fullName "Snapshot" with
  | error e =>
    rw [hname] at h
    obtain ⟨rfl, -⟩ := Prog.run_ret.mp h
    exact .refused
  | ok full =>
    obtain rfl := validateZfsName_ok hname
    rw [hname] at h
    dsimp only at h
    split at h
    · obtain ⟨rfl, -⟩ := Prog.run_ret.mp h
      exact .refused
    · obtain ⟨r, log, rfl, hrest⟩ := Prog.run_ask.mp h
      change Prog.Run (if saysDependentClones r then _ else _) log o at hrest
      cases hfirst : saysDependentClones r with
      | false =>
        rw [hfirst] at hrest
        obtain ⟨rfl, -⟩ := Prog.run_ret.mp hrest
        exact .once r hfirst
      | true =>
        rw [hfirst] at hrest
        obtain ⟨listed, log, rfl, hclones⟩ := Prog.run_ask.mp hrest
        change Prog.Run (if foreignClones (listedClones listed) ≠ [] then _ else _) log o at hclones
        split at hclones
        · rename_i hforeign
          obtain ⟨rfl, -⟩ := Prog.run_ret.mp hclones
          exact .kept r listed hfirst (Or.inl hforeign)
        · rename_i hforeign
          split at hclones
          · rename_i hlisted
            obtain ⟨a, log, rfl, hret⟩ := Prog.run_ask.mp hclones
            obtain ⟨rfl, -⟩ := Prog.run_ret.mp hret
            exact .escalated r listed a hfirst (by simpa using hforeign) hlisted
          · rename_i hlisted
            obtain ⟨rfl, -⟩ := Prog.run_ret.mp hclones
            exact .kept r listed hfirst (Or.inr (by simpa using hlisted))

/-! ## The clones of the tool -/

/-- What `snapshot_mount` makes is a restore clone. -/
theorem restoreClone_of_snapshotMount {host : Host} {snapshot : Str} {log : ZfsLog} {m : Mounted}
    (h : (snapshotMount host snapshot).Run log (.ok (.ok m))) : RestoreClone m.cloneDs := by
  unfold snapshotMount at h
  split at h
  · cases (Prog.run_ret.mp h).2
  · rename_i name _
    unfold mountSnapshot at h
    generalize (if '@' ∈ name then beforeLast '@' name else []) = dsName at h
    generalize (if '@' ∈ name then afterLast '@' name else []) = snapShort at h
    simp only [runZfs, Prog.issue_bind, Prog.run_ask] at h
    obtain ⟨check, log, rfl, h⟩ := h
    split at h
    · cases (Prog.run_ret.mp h).2
    · obtain ⟨a, log, rfl, hdestroy⟩ := Prog.run_ask.mp h
      obtain ⟨r, log, rfl, hclone⟩ := Prog.run_ask.mp hdestroy
      split at hclone
      · rw [Except.ok.inj (Except.ok.inj (Prog.run_ret.mp hclone).2)]
        refine ⟨beforeFirst '/' dsName, restoreCloneName dsName snapShort,
          not_mem_beforeFirst '/' dsName, ?_, ?_, rfl⟩
        · intro hmem
          obtain ⟨c, -, hc⟩ := List.mem_map.mp hmem
          split at hc
          · cases hc
          · rename_i hother
            exact hother (Or.inl hc)
        · rw [restoreCloneName, Ne, List.map_eq_nil_iff]
          simp
      · cases (Prog.run_ret.mp hclone).2

/-- A restore clone lies directly below its pool. -/
theorem RestoreClone.count_slash {ds : Str} (h : RestoreClone ds) : ds.count '/' = 1 := by
  obtain ⟨pool, leaf, hpool, hleaf, -, rfl⟩ := h
  have hmiddle : List.count '/' ("/restore-" : Str) = 1 := by decide
  rw [List.count_append, List.count_append, List.count_eq_zero.mpr hpool,
    List.count_eq_zero.mpr hleaf, hmiddle]

/-! ## What the escalation takes -/

theorem mem_clonesOfSnapshot {clones : List Clone} {fullName c : Str} :
    c ∈ clonesOfSnapshot clones fullName ↔ ⟨c, datasetOf fullName, snapOf fullName⟩ ∈ clones := by
  simp only [clonesOfSnapshot, List.mem_map, List.mem_filter, decide_eq_true_eq]
  constructor
  · rintro ⟨⟨name, dataset, snap⟩, ⟨hmem, rfl, rfl⟩, rfl⟩
    exact hmem
  · intro hmem
    exact ⟨_, ⟨hmem, rfl, rfl⟩, rfl⟩

/-- The covered snapshots: the snapshot itself, and those of its name below
the dataset. -/
theorem covers_iff {clones : List Clone} {fullName c : Str} :
    (forest clones).Covers (datasetOf fullName) (snapOf fullName) c ↔
      c ∈ clonesOfSnapshot clones fullName ∨
        ∃ clone ∈ clones, datasetOf fullName ++ ['/'] <+: clone.dataset ∧
          clone.snap = snapOf fullName ∧ clone.name = c := by
  rw [mem_clonesOfSnapshot]
  constructor
  · rintro ⟨e, rfl | hbelow, horigin⟩
    · exact Or.inl horigin
    · exact Or.inr ⟨_, horigin, hbelow, rfl, rfl⟩
  · rintro (hown | ⟨clone, hmem, hbelow, hsnap, rfl⟩)
    · exact ⟨_, Or.inl rfl, hown⟩
    · refine ⟨clone.dataset, Or.inr hbelow, ?_⟩
      show Clone.mk clone.name clone.dataset (snapOf fullName) ∈ clones
      rw [← hsnap]
      exact hmem

/-- Where the text check passed for the clones of the snapshot, the escalation
takes restore clones only under these three conditions. -/
theorem takesRestoreClonesOnly_iff {clones : List Clone} {fullName : Str}
    (hchecked : ∀ c ∈ clonesOfSnapshot clones fullName, contains c "/restore-" = true) :
    TakesRestoreClonesOnly clones (.destroySnapshot .dependents fullName) ↔
      OwnClonesNamed clones fullName ∧ ClonesBelowNamed clones fullName ∧
        NothingDependsOn clones fullName := by
  have htakes : TakesRestoreClonesOnly clones (.destroySnapshot .dependents fullName) ↔
      ∀ c, (forest clones).Removed (datasetOf fullName) (snapOf fullName) c →
        (forest clones).IsClone c → RestoreClone c := by
    constructor
    · intro h
      exact h fullName rfl
    · rintro h name heq
      cases heq
      exact h
  rw [htakes, Forest.removed_clones_iff, ← and_assoc]
  refine and_congr_left (fun _ => ?_)
  constructor
  · intro hcovered
    constructor
    · intro c hc _
      exact hcovered c (covers_iff.mpr (Or.inl hc))
    · intro clone hmem hbelow hsnap
      exact hcovered _ (covers_iff.mpr (Or.inr ⟨clone, hmem, hbelow, hsnap, rfl⟩))
  · rintro ⟨hown, hbelow⟩ c hcovers
    rcases covers_iff.mp hcovers with hc | ⟨clone, hmem, hprefix, hsnap, rfl⟩
    · exact hown c hc (hchecked c hc)
    · exact hbelow clone hmem hprefix hsnap

/-- A command without `-R` takes no clone. -/
theorem takesRestoreClonesOnly_of_ne {clones : List Clone} {cmd : ZfsCmd}
    (h : ∀ fullName, cmd ≠ .destroySnapshot .dependents fullName) :
    TakesRestoreClonesOnly clones cmd :=
  fun fullName heq => absurd heq (h fullName)

theorem foreignClones_eq_nil {clones : List Str} :
    foreignClones clones = [] ↔ ∀ c ∈ clones, contains c "/restore-" = true := by
  simp [foreignClones, List.filter_eq_nil_iff]

theorem firstMode_ne (recursive : Bool) : firstMode recursive ≠ .dependents := by
  cases recursive <;> decide

/-- A run of `destroy_snapshot` removes no clone but restore clones, unless it
escalates where one of the three conditions fails. -/
theorem destroySnapshot_safe_iff {clones : List Clone} {host : Host} {fullName : Str}
    {recursive : Bool} {log : ZfsLog} {o : Except Exn Answer}
    (h : (destroySnapshot host fullName recursive).Run log o) (hreports : Reports clones log) :
    (∀ entry ∈ log, TakesRestoreClonesOnly clones entry.1.2) ↔
      (Escalates (strip fullName) log → OwnClonesNamed clones (strip fullName) ∧
        ClonesBelowNamed clones (strip fullName) ∧ NothingDependsOn clones (strip fullName)) := by
  have hne := firstMode_ne recursive
  have hfirstTakes : TakesRestoreClonesOnly clones
      (.destroySnapshot (firstMode recursive) (strip fullName)) :=
    takesRestoreClonesOnly_of_ne (fun name heq => hne (ZfsCmd.destroySnapshot.inj heq).1)
  have hlistTakes : TakesRestoreClonesOnly clones (.clonesOf (strip fullName)) :=
    takesRestoreClonesOnly_of_ne (fun name heq => by cases heq)
  cases run_destroySnapshot h with
  | refused =>
    refine iff_of_true (by simp) ?_
    rintro ⟨host', mode, r, listed, -, hmem, -⟩
    cases hmem
  | once r hfirst =>
    refine iff_of_true (by simpa using hfirstTakes) ?_
    rintro ⟨host', mode, r', listed, -, -, -, hmem, -⟩
    simp at hmem
  | kept r listed hfirst hkept =>
    refine iff_of_true (by simpa using ⟨hfirstTakes, hlistTakes⟩) ?_
    rintro ⟨host', mode, r', listed', -, -, -, hmem, hlisted, hnamed⟩
    simp only [List.mem_cons, Prod.mk.injEq, reduceCtorEq, and_false, false_and, false_or,
      List.not_mem_nil, or_false] at hmem
    obtain ⟨-, rfl⟩ := hmem
    rcases hkept with hforeign | hnil
    · exact absurd (foreignClones_eq_nil.mpr hnamed) hforeign
    · exact absurd hnil hlisted
  | escalated r listed a hfirst hforeign hlisted =>
    have hnamed := foreignClones_eq_nil.mp hforeign
    have hsuccess : listed.success = true := by
      by_contra hfailed
      simp [listedClones, hfailed, splitOn] at hlisted
    have hlist := hreports host (strip fullName) listed (by simp) hsuccess
    have hescalates : Escalates (strip fullName)
        [((host, .destroySnapshot (firstMode recursive) (strip fullName)), r),
          ((host, .clonesOf (strip fullName)), listed),
          ((host, .destroySnapshot .dependents (strip fullName)), a)] :=
      ⟨host, firstMode recursive, r, listed, hne, List.mem_cons_self, hfirst,
        List.mem_cons_of_mem _ List.mem_cons_self, hlisted, hnamed⟩
    have hchecked : ∀ c ∈ clonesOfSnapshot clones (strip fullName),
        contains c "/restore-" = true := fun c hc => hnamed c ((hlist c).mpr hc)
    have hiff := takesRestoreClonesOnly_iff hchecked
    constructor
    · intro hall _
      exact hiff.mp (hall ((host, .destroySnapshot .dependents (strip fullName)), a) (by simp))
    · intro hcond
      have htakes := hiff.mpr (hcond hescalates)
      simpa using ⟨hfirstTakes, hlistTakes, htakes⟩

/-- A dataset with a restore clone, and a disk below it whose snapshot of the
same name is the base of another guest's disk. -/
def linkedClones : List Clone :=
  [⟨"rpool/restore-rpool-data-restore-s1", "rpool/data", "s1"⟩,
    ⟨"rpool/data/vm-200-disk-0", "rpool/data/base-100-disk-0", "s1"⟩]

/-- The answers on which `destroy_snapshot` escalates, with one restore
clone. -/
def escalateAnswers : List Answer :=
  [⟨false, [], "cannot destroy 'rpool/data@s1': snapshot has dependent clones"⟩,
    prints "rpool/restore-rpool-data-restore-s1\n", prints []]

/-- The log of these answers. -/
def escalateLog : ZfsLog :=
  [((hostA, .destroySnapshot .single "rpool/data@s1"),
      ⟨false, [], "cannot destroy 'rpool/data@s1': snapshot has dependent clones"⟩),
    ((hostA, .clonesOf "rpool/data@s1"), prints "rpool/restore-rpool-data-restore-s1\n"),
    ((hostA, .destroySnapshot .dependents "rpool/data@s1"), prints [])]

theorem reports_escalateLog {clones : List Clone}
    (h : clonesOfSnapshot clones "rpool/data@s1" =
      [("rpool/restore-rpool-data-restore-s1" : Str)]) : Reports clones escalateLog := by
  intro host fullName a hmem _ c
  simp only [escalateLog, List.mem_cons, Prod.mk.injEq, reduceCtorEq, and_false, false_and,
    false_or, List.not_mem_nil, or_false, ZfsCmd.clonesOf.injEq] at hmem
  obtain ⟨⟨-, rfl⟩, rfl⟩ := hmem
  have hlisted : listedClones (prints "rpool/restore-rpool-data-restore-s1\n") =
      [("rpool/restore-rpool-data-restore-s1" : Str)] := by decide
  rw [h, hlisted]

theorem destroySnapshot_safe_restore :
    ∃ o, (destroySnapshot hostA "rpool/data@s1" false).Run escalateLog o ∧
      ((∀ entry ∈ escalateLog, TakesRestoreClonesOnly (linkedClones.take 1) entry.1.2) ↔
        (Escalates (strip "rpool/data@s1") escalateLog →
          OwnClonesNamed (linkedClones.take 1) (strip "rpool/data@s1") ∧
            ClonesBelowNamed (linkedClones.take 1) (strip "rpool/data@s1") ∧
              NothingDependsOn (linkedClones.take 1) (strip "rpool/data@s1"))) := by
  have htranscript : ((destroySnapshot hostA "rpool/data@s1" false).transcript
      escalateAnswers).map Prod.fst = some escalateLog := by decide
  obtain ⟨o, hrun⟩ := Prog.exists_run_of_transcript _ htranscript
  exact ⟨o, hrun, destroySnapshot_safe_iff hrun (reports_escalateLog (by decide))⟩

/-- The snapshot of `rpool/data` has a restore clone only, but the one of the
disk below it is the base of guest 200, whose disk goes with it. -/
theorem destroySnapshot_unsafe :
    ∃ o, (destroySnapshot hostA "rpool/data@s1" false).Run escalateLog o ∧
      Reports linkedClones escalateLog ∧
        ¬ ∀ entry ∈ escalateLog, TakesRestoreClonesOnly linkedClones entry.1.2 := by
  have htranscript : ((destroySnapshot hostA "rpool/data@s1" false).transcript
      escalateAnswers).map Prod.fst = some escalateLog := by decide
  obtain ⟨o, hrun⟩ := Prog.exists_run_of_transcript _ htranscript
  refine ⟨o, hrun, reports_escalateLog (by decide), fun hall => ?_⟩
  have htakes := hall ((hostA, .destroySnapshot .dependents "rpool/data@s1"), prints [])
    (by simp [escalateLog])
  have horigin : (forest linkedClones).origin "rpool/data/base-100-disk-0" "s1"
      "rpool/data/vm-200-disk-0" := List.mem_cons_of_mem _ List.mem_cons_self
  have hcovers : (forest linkedClones).Covers (datasetOf "rpool/data@s1") (snapOf "rpool/data@s1")
      "rpool/data/vm-200-disk-0" := by
    refine ⟨"rpool/data/base-100-disk-0", Or.inr ?_, ?_⟩
    · decide
    · have hsnap : snapOf "rpool/data@s1" = ("s1" : Str) := by decide
      rw [hsnap]
      exact horigin
  have hone := (htakes "rpool/data@s1" rfl _ (.clone hcovers) hcovers.isClone).count_slash
  revert hone
  decide

end PveZfsTool
