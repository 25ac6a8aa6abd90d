import PveZfsTool.Zfs.CloneSafety
import PveZfsTool.Lib.Splits

/-!
# The names of restore clones

`snapshot_mount` names its clone and its mount path after the dataset and the
snapshot, with `-` in the place of `/`.  It destroys whatever has the name of
the clone before it makes it.

`mounts_apart_iff` says for which two snapshots this keeps the clone of the
one out of the way of the other, and `mounts_collide` are two for which it
does not.
-/

namespace PveZfsTool

open Dialogue Text Splits

/-! ## The derived names -/

/-- The replacement of the separators. -/
def dashed (c : Char) : Char := if c = '/' ∨ c = '@' then '-' else c

/-- The full name of a snapshot of a host: the dataset, `@` and a label.  The
validator takes it. -/
structure SnapName where
  dataset : Str
  label : Str
  dataset_at : '@' ∉ dataset
  label_at : '@' ∉ label
  label_slash : '/' ∉ label
  valid : validateZfsName (dataset ++ '@' :: label) "Snapshot" = .ok (dataset ++ '@' :: label)

namespace SnapName

def fullName (s : SnapName) : Str := s.dataset ++ '@' :: s.label

/-- `clone_name` of `snapshot_mount` -/
def cloneName (s : SnapName) : Str := restoreCloneName s.dataset s.label

/-- `clone_ds` -/
def cloneDs (s : SnapName) : Str := beforeFirst '/' s.dataset ++ "/restore-" ++ s.cloneName

/-- `mount_path` -/
def mountPath (s : SnapName) : Str := restoreMountBase ++ "/" ++ s.cloneName

end SnapName

theorem beforeLast_append {sep : Char} {a b : Str} (h : sep ∉ b) :
    beforeLast sep (a ++ sep :: b) = a := by
  have hb : sep ∉ b.reverse := by simpa using h
  rw [beforeLast, List.reverse_append, List.reverse_cons, List.append_assoc,
    List.dropWhile_append_of_pos (ne_sep_of_not_mem hb)]
  simp

theorem map_dashed_of_plain {s : Str} (hslash : '/' ∉ s) (hat : '@' ∉ s) : s.map dashed = s := by
  have hself : ∀ c ∈ s, dashed c = id c := by
    intro c hc
    have h₁ : c ≠ '/' := ne_of_mem_of_not_mem hc hslash
    have h₂ : c ≠ '@' := ne_of_mem_of_not_mem hc hat
    simp [dashed, h₁, h₂]
  rw [List.map_congr_left hself, List.map_id]

theorem cloneName_eq (s : SnapName) :
    s.cloneName = s.dataset.map dashed ++ (("-restore-" : Str) ++ s.label) := by
  have hmiddle : ("-restore-" : Str).map dashed = "-restore-" := by decide
  show (s.dataset ++ "-restore-" ++ s.label).map dashed = _
  rw [List.map_append, List.map_append, hmiddle, map_dashed_of_plain s.label_slash s.label_at,
    List.append_assoc]

theorem dashed_ne_slash (c : Char) : dashed c ≠ '/' := by
  unfold dashed
  split
  · decide
  · rename_i hother
    exact fun h => hother (Or.inl h)

theorem slash_not_mem_cloneName (s : SnapName) : '/' ∉ s.cloneName := by
  intro hmem
  obtain ⟨c, -, hc⟩ := List.mem_map.mp hmem
  exact dashed_ne_slash c hc

theorem restoreClone_cloneDs (s : SnapName) : RestoreClone s.cloneDs := by
  refine ⟨beforeFirst '/' s.dataset, s.cloneName, not_mem_beforeFirst '/' _,
    slash_not_mem_cloneName s, ?_, rfl⟩
  rw [cloneName_eq]
  simp

theorem afterLast_cloneDs (s : SnapName) :
    afterLast '/' s.cloneDs = ("restore-" : Str) ++ s.cloneName := by
  have hds : s.cloneDs = beforeFirst '/' s.dataset ++ '/' :: (("restore-" : Str) ++ s.cloneName) := by
    rw [SnapName.cloneDs, List.append_assoc]
    rfl
  have hslash : '/' ∉ ("restore-" : Str) ++ s.cloneName := by
    have hmiddle : '/' ∉ ("restore-" : Str) := by decide
    simpa only [List.mem_append, not_or] using ⟨hmiddle, slash_not_mem_cloneName s⟩
  rw [hds, afterLast_append hslash]

theorem cloneDs_ne {s s' : SnapName} (h : s.cloneName ≠ s'.cloneName) : s.cloneDs ≠ s'.cloneDs := by
  intro heq
  apply h
  have hleaf := congrArg (afterLast '/') heq
  rw [afterLast_cloneDs, afterLast_cloneDs] at hleaf
  exact List.append_cancel_left hleaf

theorem mountPath_ne_iff {s s' : SnapName} :
    s.mountPath ≠ s'.mountPath ↔ s.cloneName ≠ s'.cloneName := by
  unfold SnapName.mountPath
  simp

/-- A restore clone goes with another one only when it is the same. -/
theorem atOrBelow_restoreClone {c d : Str} (hc : RestoreClone c) (hd : RestoreClone d)
    (h : AtOrBelow c d) : c = d := by
  rcases h with rfl | ⟨t, rfl⟩
  · rfl
  · have hcount := hc.count_slash
    rw [List.count_append, List.count_append, hd.count_slash, List.count_singleton_self] at hcount
    omega

/-! ## The runs of `snapshot_mount` -/

/-- The host received this command. -/
def Requested (log : ZfsLog) (host : Host) (cmd : ZfsCmd) : Prop := ∃ a, ((host, cmd), a) ∈ log

/-- The requests that `snapshot_mount` can make. -/
def MountRequest (host : Host) (s : SnapName) (request : Host × ZfsCmd) : Prop :=
  request = (host, .datasetType s.dataset) ∨
    request = (host, .destroyClone s.cloneDs " 2>/dev/null") ∨
      request = (host, .cloneSnapshot s.mountPath s.fullName s.cloneDs)

theorem snapshotMount_eq (host : Host) (s : SnapName) :
    snapshotMount host s.fullName = mountSnapshot host s.fullName := by
  unfold snapshotMount
  rw [show validateZfsName s.fullName "Snapshot" = .ok s.fullName from s.valid]

/-- `mountSnapshot` in the derived names. -/
theorem mountSnapshot_eq (host : Host) (s : SnapName) :
    mountSnapshot host s.fullName = (do
      let typeCheck ← runZfs host (.datasetType s.dataset)
      if typeCheck.success ∧ strip typeCheck.stdout ≠ ("filesystem" : Str) then
        return .error "File restore only works on filesystem datasets (LXC containers)."
      else do
        let _ ← runZfs host (.destroyClone s.cloneDs " 2>/dev/null")
        let r ← runZfs host (.cloneSnapshot s.mountPath s.fullName s.cloneDs)
        if r.success then return .ok ⟨s.cloneDs, s.mountPath, s.fullName⟩
        else return .error r.stderr) := by
  have hat : '@' ∈ s.fullName := by simp [SnapName.fullName]
  have hds : beforeLast '@' s.fullName = s.dataset := beforeLast_append s.label_at
  have hshort : afterLast '@' s.fullName = s.label := afterLast_append s.label_at
  unfold mountSnapshot
  simp only [if_pos hat, hds, hshort]
  rfl

theorem uses_snapshotMount (host : Host) (s : SnapName) :
    (snapshotMount host s.fullName).Uses (MountRequest host s) := by
  rw [snapshotMount_eq, mountSnapshot_eq]
  simp only [runZfs, Prog.issue_bind, Prog.pure_eq, Prog.uses_ask]
  refine ⟨Or.inl rfl, fun typeCheck => ?_⟩
  split
  · trivial
  · refine ⟨Or.inr (Or.inl rfl), fun _ => ⟨Or.inr (Or.inr rfl), fun r => ?_⟩⟩
    dsimp only
    split
    · trivial
    · trivial

/-- On a filesystem the clone is asked for. -/
theorem exists_mount (host : Host) (s : SnapName) :
    ∃ log o, (snapshotMount host s.fullName).Run log o ∧
      Requested log host (.destroyClone s.cloneDs " 2>/dev/null") ∧
        Requested log host (.cloneSnapshot s.mountPath s.fullName s.cloneDs) := by
  rw [snapshotMount_eq, mountSnapshot_eq]
  refine ⟨[((host, .datasetType s.dataset), prints "filesystem"),
    ((host, .destroyClone s.cloneDs " 2>/dev/null"), prints []),
    ((host, .cloneSnapshot s.mountPath s.fullName s.cloneDs), prints [])],
    .ok (.ok ⟨s.cloneDs, s.mountPath, s.fullName⟩), ?_, ⟨prints [], by simp⟩, ⟨prints [], by simp⟩⟩
  exact ⟨rfl, rfl, rfl, rfl, rfl⟩

/-! ## Two mounts -/

/-- Mounting `s'` leaves the clone of `s` alone: it does not destroy it, and it
makes no clone of that name or at that path. -/
def MountsApart (host : Host) (s s' : SnapName) : Prop :=
  ∀ log o log' o', (snapshotMount host s.fullName).Run log o →
    (snapshotMount host s'.fullName).Run log' o' →
      ∀ mountPath snapshot cloneDs, Requested log host (.cloneSnapshot mountPath snapshot cloneDs) →
        (∀ ds redirect, Requested log' host (.destroyClone ds redirect) → ¬ AtOrBelow cloneDs ds) ∧
          ∀ mountPath' snapshot' cloneDs',
            Requested log' host (.cloneSnapshot mountPath' snapshot' cloneDs') →
              mountPath ≠ mountPath' ∧ cloneDs ≠ cloneDs'

theorem requested_mount {host : Host} {s : SnapName} {log : ZfsLog}
    {o : Except Exn (Except Str Mounted)} (h : (snapshotMount host s.fullName).Run log o)
    {cmd : ZfsCmd} (hcmd : Requested log host cmd) :
    cmd = .datasetType s.dataset ∨ cmd = .destroyClone s.cloneDs " 2>/dev/null" ∨
      cmd = .cloneSnapshot s.mountPath s.fullName s.cloneDs := by
  obtain ⟨a, hmem⟩ := hcmd
  have hrequest := (uses_snapshotMount host s).sound h _ hmem
  simpa only [MountRequest, Prod.mk.injEq, true_and] using hrequest

/-- Two mounts are apart when the names of their clones are. -/
theorem mountsApart_iff_cloneName {host : Host} {s s' : SnapName} :
    MountsApart host s s' ↔ s.cloneName ≠ s'.cloneName := by
  constructor
  · intro h
    obtain ⟨log, o, hrun, -, hclone⟩ := exists_mount host s
    obtain ⟨log', o', hrun', -, hclone'⟩ := exists_mount host s'
    have hapart := h log o log' o' hrun hrun' _ _ _ hclone
    exact mountPath_ne_iff.mp (hapart.2 _ _ _ hclone').1
  · intro hne log o log' o' hrun hrun' mountPath snapshot cloneDs hclone
    obtain hcmd | hcmd | hcmd := requested_mount hrun hclone
    · cases hcmd
    · cases hcmd
    · cases hcmd
      have hds := cloneDs_ne hne
      constructor
      · intro ds redirect hdestroy hbelow
        obtain hcmd | hcmd | hcmd := requested_mount hrun' hdestroy
        · cases hcmd
        · cases hcmd
          exact hds (atOrBelow_restoreClone (restoreClone_cloneDs s) (restoreClone_cloneDs s')
            hbelow)
        · cases hcmd
      · intro mountPath' snapshot' cloneDs' hclone'
        obtain hcmd | hcmd | hcmd := requested_mount hrun' hclone'
        · cases hcmd
        · cases hcmd
        · cases hcmd
          exact ⟨mountPath_ne_iff.mpr hne, hds⟩

/-! ## The names that are told apart -/

/-- The texts are the same but for some `/` in the place of `-`. -/
def SameButSlashes (a b : Str) : Prop :=
  List.Forall₂ (fun c d => c = d ∨ (c = '/' ∧ d = '-') ∨ (c = '-' ∧ d = '/')) a b

/-- The dataset of `s'` goes on after that of `s` with a `-restore-` of its
own, behind which the label of `s` says the same again. -/
def GoesOn (s s' : SnapName) : Prop :=
  ∃ p w, s'.dataset = p ++ w ∧ SameButSlashes s.dataset p ∧
    ((∃ x : Str, SameButSlashes (("-restore-" : Str) ++ x) w ∧
        s.label = x ++ (("-restore-" : Str) ++ s'.label)) ∨
      (SameButSlashes "-restore" w ∧ s.label = ("restore-" : Str) ++ s'.label))

/-- `snapshot_mount` derives the same names for the two snapshots. -/
def Confusable (s s' : SnapName) : Prop :=
  (SameButSlashes s.dataset s'.dataset ∧ s.label = s'.label) ∨ GoesOn s s' ∨ GoesOn s' s

theorem dashed_eq_iff {c d : Char} (hc : c ≠ '@') (hd : d ≠ '@') :
    dashed c = dashed d ↔ c = d ∨ (c = '/' ∧ d = '-') ∨ (c = '-' ∧ d = '/') := by
  unfold dashed
  by_cases h₁ : c = '/' <;> by_cases h₂ : d = '/' <;> simp [h₁, h₂, hc, hd, eq_comm]

theorem map_dashed_eq_iff {a b : Str} (ha : '@' ∉ a) (hb : '@' ∉ b) :
    a.map dashed = b.map dashed ↔ SameButSlashes a b := by
  induction a generalizing b with
  | nil => cases b <;> simp [SameButSlashes]
  | cons c a ih =>
    cases b with
    | nil => simp [SameButSlashes]
    | cons d b =>
      simp only [List.mem_cons, not_or] at ha hb
      simp only [List.map_cons, List.cons.injEq, SameButSlashes, List.forall₂_cons]
      exact and_congr (dashed_eq_iff (Ne.symm ha.1) (Ne.symm hb.1)) (ih ha.2 hb.2)

/-- `-restore-` overlaps with itself in all of it or in one `-`. -/
theorem restore_overlap {w y z : Str} (hw : w ≠ []) (hy : ("-restore-" : Str) = w ++ y)
    (hz : ("-restore-" : Str) = y ++ z) :
    (w = ("-restore-" : Str) ∧ z = ("-restore-" : Str)) ∨
      (w = ("-restore" : Str) ∧ z = ("restore-" : Str)) := by
  have hlen := congrArg List.length hy
  have hpos := List.length_pos_of_ne_nil hw
  have hnine : ("-restore-" : Str).length = 9 := by decide
  rw [List.length_append, hnine] at hlen
  have hwlen : 9 - y.length = w.length := by omega
  have hw' : w = ("-restore-" : Str).take (9 - y.length) := by rw [hwlen, hy, List.take_left]
  have hy' : y = ("-restore-" : Str).take y.length := by rw [hz, List.take_left]
  have hz' : z = ("-restore-" : Str).drop y.length := by rw [hz, List.drop_left]
  have hdrop : y = ("-restore-" : Str).drop (9 - y.length) := by rw [hwlen, hy, List.drop_left]
  have hcases : ∀ n < 9, ("-restore-" : Str).take n = ("-restore-" : Str).drop (9 - n) →
      n = 0 ∨ n = 1 := by decide
  obtain hlen₀ | hlen₁ := hcases y.length (by omega) (hy'.symm.trans hdrop)
  · rw [hlen₀] at hw' hz'
    exact Or.inl ⟨hw', hz'⟩
  · rw [hlen₁] at hw' hz'
    exact Or.inr ⟨hw', hz'⟩

theorem map_dashed_restore : ("-restore-" : Str).map dashed = ("-restore-" : Str) := by decide

theorem goesOn_iff {s s' : SnapName} :
    GoesOn s s' ↔ ∃ w, s'.dataset.map dashed = s.dataset.map dashed ++ w ∧
      Shifts ("-restore-" : Str) w s.label s'.label := by
  constructor
  · rintro ⟨p, w, hds, hp, hshift⟩
    have hat := s'.dataset_at
    rw [hds, List.mem_append, not_or] at hat
    refine ⟨w.map dashed, ?_, shifts_iff.mpr ?_⟩
    · rw [hds, List.map_append, (map_dashed_eq_iff s.dataset_at hat.1).mpr hp]
    · obtain ⟨x, hw, hlabel⟩ | ⟨hw, hlabel⟩ := hshift
      · have hx : ∀ c, c ∉ s.label → c ∉ x := by
          intro c hc hmem
          rw [hlabel] at hc
          exact hc (List.mem_append_left _ hmem)
        have hxat := hx '@' s.label_at
        have hmap : w.map dashed = ("-restore-" : Str) ++ x := by
          rw [← (map_dashed_eq_iff (by simpa using hxat) hat.2).mpr hw, List.map_append,
            map_dashed_restore, map_dashed_of_plain (hx '/' s.label_slash) hxat]
        rw [hmap]
        exact ⟨by simp, Or.inl ⟨x, rfl, hlabel⟩⟩
      · have hmap : w.map dashed = ("-restore" : Str) := by
          rw [← (map_dashed_eq_iff (by decide) hat.2).mpr hw]
          decide
        rw [hmap]
        exact ⟨by decide, Or.inr ⟨['-'], ("restore-" : Str), by decide, by decide, hlabel⟩⟩
  · rintro ⟨w, hds, hshift⟩
    obtain ⟨p, v, hsplit, hp, rfl⟩ := List.map_eq_append_iff.mp hds
    have hat := s'.dataset_at
    rw [hsplit, List.mem_append, not_or] at hat
    refine ⟨p, v, hsplit, (map_dashed_eq_iff s.dataset_at hat.1).mp hp.symm, ?_⟩
    obtain ⟨hne, ⟨x, hv, hlabel⟩ | ⟨y, z, hy, hz, hlabel⟩⟩ := shifts_iff.mp hshift
    · have hx : ∀ c, c ∉ s.label → c ∉ x := by
        intro c hc hmem
        rw [hlabel] at hc
        exact hc (List.mem_append_left _ hmem)
      have hxat := hx '@' s.label_at
      refine Or.inl ⟨x, (map_dashed_eq_iff (by simpa using hxat) hat.2).mp ?_, hlabel⟩
      rw [hv, List.map_append, map_dashed_restore, map_dashed_of_plain (hx '/' s.label_slash) hxat]
    · obtain ⟨hv, rfl⟩ | ⟨hv, rfl⟩ := restore_overlap hne hy hz
      · refine Or.inl ⟨[], (map_dashed_eq_iff (by decide) hat.2).mp ?_, hlabel⟩
        rw [hv]
        decide
      · refine Or.inr ⟨(map_dashed_eq_iff (by decide) hat.2).mp ?_, hlabel⟩
        rw [hv]
        decide

theorem cloneName_eq_iff {s s' : SnapName} : s.cloneName = s'.cloneName ↔ Confusable s s' := by
  have hsame := map_dashed_eq_iff s.dataset_at s'.dataset_at
  rw [cloneName_eq, cloneName_eq, joined_eq_iff, hsame, ← goesOn_iff, ← goesOn_iff]
  rfl

/-- Mounting one snapshot leaves the restore clone of another alone exactly
when the two are not confusable. -/
theorem mounts_apart_iff {host : Host} {s s' : SnapName} :
    MountsApart host s s' ↔ ¬ Confusable s s' := by
  rw [mountsApart_iff_cloneName, Ne, cloneName_eq_iff]

/-- A snapshot of `tank/a-b`. -/
def dashSnap : SnapName where
  dataset := "tank/a-b"
  label := "x"
  dataset_at := by decide
  label_at := by decide
  label_slash := by decide
  valid := by decide

/-- A snapshot of the same name of `tank/a/b`. -/
def slashSnap : SnapName where
  dataset := "tank/a/b"
  label := "x"
  dataset_at := by decide
  label_at := by decide
  label_slash := by decide
  valid := by decide

/-- Mounting `tank/a/b@x` destroys the restore clone of `tank/a-b@x`. -/
theorem mounts_collide :
    dashSnap.fullName ≠ slashSnap.fullName ∧ dashSnap.cloneDs = slashSnap.cloneDs ∧
      dashSnap.mountPath = slashSnap.mountPath ∧ ¬ MountsApart hostA dashSnap slashSnap := by
  refine ⟨by decide, by decide, by decide, fun h => ?_⟩
  exact mountsApart_iff_cloneName.mp h (by decide)

end PveZfsTool
