import PveZfsTool.Backups.Verdicts
import PveZfsTool.Lib.Newest

/-!
# The order in which backups are listed

`guest_backup_map` takes the verification of a guest from its newest volume, the
first of those with one creation time.

* `verdict_eq`: a verdict depends on the volumes by `newestOf` alone.
* `verdict_of_older`: a volume older than another one of its guest does not
  change the verdict.
* `verdictsStable_iff`: the verdicts are the same for every order exactly when
  the newest volumes of each guest are verified alike.
-/

namespace PveZfsTool.Backups

open Text Newest

/-! ## Verdicts -/

/-- What `guest_backup_states` is called with, apart from the volumes. -/
structure BackupQuery where
  jobs : List BackupJob
  vmids : List Str
  now : Rat
  warnHours : Rat
  critHours : Rat
  coveredKnown : Bool
  unknown : Bool

/-- The verdict on a guest and its reason, `none` where it has none. -/
def BackupQuery.verdict (q : BackupQuery) (volumes : List Volume) (vmid : Str) :
    Option (Verdict × Reason) :=
  ((guestBackupStates (guestBackupMap volumes q.jobs) q.vmids q.now q.warnHours q.critHours
    q.coveredKnown q.unknown).lookup vmid).map (fun st => (st.state, st.reason))

/-- The verdicts do not depend on the order of the volumes, nor on a volume that
is older than another one of its guest. -/
structure VerdictsStable (q : BackupQuery) (volumes : List Volume) : Prop where
  orderFree : ∀ volumes', volumes'.Perm volumes → ∀ vmid, q.verdict volumes' vmid = q.verdict volumes vmid
  olderFree : ∀ a w b, volumes = a ++ w :: b → (∃ v ∈ a ++ b, v.vmid = w.vmid ∧ w.ctime < v.ctime) →
    ∀ vmid, q.verdict (a ++ b) vmid = q.verdict volumes vmid

/-! ## The newest volume -/

/-- The verification of the volume has failed. -/
def Volume.failed (v : Volume) : Bool := v.verifies && v.verify = some "failed".toList

/-- The volume is not verified yet. -/
def Volume.pending (v : Volume) : Bool := v.verifies && v.verify = none

/-- The volume has a creation time, and no volume of its guest is newer. -/
def IsNewest (volumes : List Volume) (v : Volume) : Prop :=
  v ∈ volumes ∧ 0 < v.ctime ∧ ∀ w ∈ volumes, w.vmid = v.vmid → w.ctime ≤ v.ctime

/-- A backup of that time is not too old. -/
def BackupQuery.Fresh (q : BackupQuery) (ctime : Int) : Prop :=
  max 0 (q.now - ctime) ≤ q.critHours * 3600 ∧ max 0 (q.now - ctime) ≤ q.warnHours * 3600

/-- The newest volumes of a guest have all failed their verification or none
has.  If they are fresh, all await it or none does. -/
def TiesAgree (q : BackupQuery) (volumes : List Volume) : Prop :=
  ∀ v w, IsNewest volumes v → IsNewest volumes w → v.vmid ≠ [] → w.vmid = v.vmid →
    v.failed = w.failed ∧ (q.Fresh v.ctime → v.pending = w.pending)

/-- The volumes of a guest. -/
def guestVolumes (vmid : Str) (volumes : List Volume) : List Volume :=
  volumes.filter (fun v => v.vmid = vmid)

/-- The first of the newest volumes of a guest. -/
def newestOf (volumes : List Volume) : Option Volume :=
  @List.argmax Volume Int Int.instLinearOrder.toPreorder Int.instLinearOrder.toDecidableLT Volume.ctime
    (volumes.filter (fun v => 0 < v.ctime))

/-- The verdict on a guest that has a backup. -/
def BackupQuery.judge (q : BackupQuery) (vmid : Str) : Option Volume → Verdict × Reason
  | none => (.yellow, .noTimestamp)
  | some v =>
      let age := max 0 (q.now - v.ctime)
      if v.failed then (.red, .verifyFailed)
      else if q.critHours * 3600 < age then (.red, .staleCrit)
      else if q.warnHours * 3600 < age then (.yellow, .staleWarn)
      else if v.pending then (.yellow, .verifyPending)
      else if q.coveredKnown && !q.jobs.any (jobCovers · vmid) then (.yellow, .noJob)
      else (.green, .ok)

section

variable {q : BackupQuery} {volumes volumes' : List Volume} {vmid : Str} {v w : Volume}
  {a b : List Volume}

theorem newestOf_concat :
    newestOf (volumes ++ [v]) =
      if (newestOf volumes).elim 0 Volume.ctime < v.ctime then some v else newestOf volumes := by
  unfold newestOf
  rw [List.filter_append]
  by_cases hv : 0 < v.ctime
  · rw [List.filter_cons_of_pos (by simpa using hv), List.filter_nil, List.argmax_concat]
    cases (volumes.filter (fun v => 0 < v.ctime)).argmax Volume.ctime with
    | none => exact (if_pos hv).symm
    | some c => rfl
  · rw [List.filter_cons_of_neg (by simpa using hv), List.filter_nil, List.append_nil, if_neg]
    cases hnewest : (volumes.filter (fun v => 0 < v.ctime)).argmax Volume.ctime with
    | none => exact hv
    | some c =>
      have hc := (List.mem_filter.mp (List.argmax_mem hnewest)).2
      rw [decide_eq_true_eq] at hc
      show ¬ c.ctime < v.ctime
      omega

theorem addVolume_newer {r : BackupRecord} (h : r.newest < v.ctime) :
    (r.addVolume v).newest = v.ctime ∧ (r.addVolume v).newestVerify = v.verify ∧
      (r.addVolume v).newestVerifies = v.verifies := by
  unfold BackupRecord.addVolume
  dsimp only
  rw [if_pos h]
  exact ⟨rfl, rfl, rfl⟩

theorem addVolume_not_newer {r : BackupRecord} (h : ¬ r.newest < v.ctime) :
    (r.addVolume v).newest = r.newest ∧ (r.addVolume v).newestVerify = r.newestVerify ∧
      (r.addVolume v).newestVerifies = r.newestVerifies := by
  unfold BackupRecord.addVolume
  dsimp only
  rw [if_neg h]
  exact ⟨rfl, rfl, rfl⟩

/-- What the record of a guest keeps of its volumes. -/
theorem record_newest (volumes : List Volume) :
    let r := volumes.foldl BackupRecord.addVolume {}
    r.count = volumes.length ∧ r.newest = (newestOf volumes).elim 0 Volume.ctime ∧
      r.newestVerify = (newestOf volumes).bind Volume.verify ∧
      r.newestVerifies = (newestOf volumes).any Volume.verifies := by
  intro r
  induction volumes using List.reverseRecOn with
  | nil => exact ⟨rfl, rfl, rfl, rfl⟩
  | append_singleton volumes v ih =>
    obtain ⟨hcount, hnewest, hverify, hverifies⟩ := ih
    have hr : r = (volumes.foldl BackupRecord.addVolume {}).addVolume v := List.foldl_concat _ _ _ _
    rw [hr, newestOf_concat, List.length_append, List.length_singleton, addVolume_count, hcount,
      ← hnewest]
    by_cases hnewer : (volumes.foldl BackupRecord.addVolume {}).newest < v.ctime
    · obtain ⟨htime, hv, hvs⟩ := addVolume_newer hnewer
      rw [if_pos hnewer, htime, hv, hvs]
      exact ⟨rfl, rfl, rfl, rfl⟩
    · obtain ⟨htime, hv, hvs⟩ := addVolume_not_newer hnewer
      rw [if_neg hnewer, htime, hv, hvs]
      exact ⟨rfl, hnewest, hverify, hverifies⟩

/-- Every guest is folded by itself. -/
theorem get?_foldl_addVolume {d : Dict Str BackupRecord} (hvmid : vmid ≠ []) :
    (volumes.foldl addVolume d).get? vmid =
      (guestVolumes vmid volumes).foldl (fun o v => some ((o.getD {}).addVolume v)) (d.get? vmid) := by
  unfold guestVolumes
  induction volumes generalizing d with
  | nil => rfl
  | cons v volumes ih =>
    rw [List.foldl_cons, ih, addVolume]
    by_cases hv : v.vmid = vmid
    · rw [if_neg (by rw [hv]; exact hvmid), List.filter_cons_of_pos (by simpa using hv),
        List.foldl_cons, Dict.get?_alter, if_pos hv.symm, hv]
    · rw [List.filter_cons_of_neg (by simpa using hv)]
      split_ifs
      · rfl
      · rw [Dict.get?_alter, if_neg (Ne.symm hv)]

theorem foldl_some {r : BackupRecord} :
    volumes.foldl (fun o v => some ((o.getD {}).addVolume v)) (some r) =
      some (volumes.foldl BackupRecord.addVolume r) := by
  induction volumes generalizing r with
  | nil => rfl
  | cons v volumes ih => exact ih

/-- The record of a guest is that of its volumes. -/
theorem guestBackupMap_eq {jobs : List BackupJob} (hvmid : vmid ≠ []) :
    (guestBackupMap volumes jobs).2 vmid =
      if guestVolumes vmid volumes = [] then none
      else some (((guestVolumes vmid volumes).foldl BackupRecord.addVolume {}).finish jobs vmid) := by
  show ((volumes.foldl addVolume Dict.empty).get? vmid).map _ = _
  rw [get?_foldl_addVolume hvmid, Dict.get?_empty]
  cases guestVolumes vmid volumes with
  | nil => rfl
  | cons v rest =>
    rw [List.foldl_cons, foldl_some, if_neg (List.cons_ne_nil _ _)]
    rfl

/-- A record is judged by its newest volume. -/
theorem backupState_judge {r : BackupRecord} (hcount : r.count ≠ 0)
    (hcovered : r.coveredBy = (q.jobs.filter (jobCovers · vmid)).map BackupJob.id)
    (hnewest : r.newest = (newestOf volumes).elim 0 Volume.ctime)
    (hverify : r.newestVerify = (newestOf volumes).bind Volume.verify)
    (hverifies : r.newestVerifies = (newestOf volumes).any Volume.verifies) :
    let st := backupState (some r) q.now q.warnHours q.critHours q.coveredKnown
    (st.state, st.reason) = q.judge vmid (newestOf volumes) := by
  intro st
  have hnone : decide (r.coveredBy = []) = !q.jobs.any (jobCovers · vmid) := by
    have hnil : r.coveredBy = [] ↔ ∀ j ∈ q.jobs, ¬ jobCovers j vmid = true := by
      rw [hcovered, List.map_eq_nil_iff, List.filter_eq_nil_iff]
    cases hany : q.jobs.any (jobCovers · vmid) with
    | true =>
      obtain ⟨j, hj, hcovers⟩ := List.any_eq_true.mp hany
      exact decide_eq_false fun h => hnil.mp h j hj hcovers
    | false => exact decide_eq_true (hnil.mpr (List.any_eq_false.mp hany))
  have hst : st = backupState (some r) q.now q.warnHours q.critHours q.coveredKnown := rfl
  cases hbest : newestOf volumes with
  | none =>
    have htime : r.newest = 0 := by rw [hnewest, hbest]; rfl
    have hnot : r.newestVerifies = false := by rw [hverifies, hbest]; rfl
    unfold backupState at hst
    dsimp only at hst
    rw [if_neg hcount, hnot, htime] at hst
    rw [hst]
    rfl
  | some v =>
    have hpos := (List.mem_filter.mp (List.argmax_mem hbest)).2
    rw [decide_eq_true_eq] at hpos
    have htime : r.newest = v.ctime := by rw [hnewest, hbest]; rfl
    have hv : r.newestVerify = v.verify := by rw [hverify, hbest]; rfl
    have hvs : r.newestVerifies = v.verifies := by rw [hverifies, hbest]; rfl
    have hne : ¬ v.ctime = 0 := by omega
    unfold backupState at hst
    dsimp only at hst
    rw [if_neg hcount, hnone, htime, hv, hvs] at hst
    rw [hst]
    unfold BackupQuery.judge Volume.failed Volume.pending
    dsimp only
    by_cases hfailed : (v.verifies && decide (v.verify = some "failed".toList)) = true
    · rw [if_pos hfailed, if_pos hfailed]
    rw [if_neg hfailed, if_neg hfailed, if_neg hne]
    by_cases hcrit : q.critHours * 3600 < max 0 (q.now - v.ctime)
    · rw [if_pos hcrit, if_pos hcrit]
    rw [if_neg hcrit, if_neg hcrit]
    by_cases hwarn : q.warnHours * 3600 < max 0 (q.now - v.ctime)
    · rw [if_pos hwarn, if_pos hwarn]
    rw [if_neg hwarn, if_neg hwarn]
    by_cases hpending : (v.verifies && decide (v.verify = none)) = true
    · rw [if_pos hpending, if_pos hpending]
    rw [if_neg hpending, if_neg hpending]
    by_cases huncovered : (q.coveredKnown && !q.jobs.any (jobCovers · vmid)) = true
    · rw [if_pos huncovered, if_pos huncovered]
    rw [if_neg huncovered, if_neg huncovered]

theorem lookup_map_self {keys : List Str} {f : Str → BackupState} :
    (keys.map fun k => (k, f k)).lookup vmid = if vmid ∈ keys then some (f vmid) else none := by
  induction keys with
  | nil => rfl
  | cons k keys ih =>
    rw [List.map_cons, List.lookup_cons, ih]
    by_cases hk : vmid = k
    · rw [hk, beq_self_eq_true, if_pos List.mem_cons_self]
    · rw [beq_false_of_ne hk]
      simp only [List.mem_cons, hk, false_or]

/-- The verdict on a guest depends on its newest volume alone, once it is known
to have one. -/
theorem verdict_eq : q.verdict volumes vmid =
    if vmid ≠ [] ∧ (guestVolumes vmid volumes ≠ [] ∨ vmid ∈ q.vmids) then
      some (if q.unknown then (.unknown, .unreadable)
        else if guestVolumes vmid volumes = [] then (.red, .none)
        else q.judge vmid (newestOf (guestVolumes vmid volumes)))
    else none := by
  have hkeys : vmid ∈ ((guestBackupMap volumes q.jobs).1 ++ q.vmids.filter (· ≠ [])).dedup ↔
      vmid ≠ [] ∧ (guestVolumes vmid volumes ≠ [] ∨ vmid ∈ q.vmids) := by
    have hany : (∃ v ∈ volumes, v.vmid = vmid) ↔ guestVolumes vmid volumes ≠ [] := by
      unfold guestVolumes
      rw [ne_eq, List.filter_eq_nil_iff]
      simp
    rw [List.mem_dedup, List.mem_append, mem_keys, hany, List.mem_filter, decide_eq_true_eq, and_comm
      (a := vmid ∈ q.vmids), ← and_or_left]
  unfold BackupQuery.verdict guestBackupStates
  rw [lookup_map_self, if_congr hkeys rfl rfl]
  by_cases hlisted : vmid ≠ [] ∧ (guestVolumes vmid volumes ≠ [] ∨ vmid ∈ q.vmids)
  · rw [if_pos hlisted, if_pos hlisted, Option.map_some]
    by_cases hunknown : q.unknown = true
    · rw [if_pos hunknown, if_pos hunknown]
    · rw [if_neg hunknown, if_neg hunknown, guestBackupMap_eq hlisted.1]
      by_cases hnil : guestVolumes vmid volumes = []
      · rw [if_pos hnil, if_pos hnil]
        rfl
      · rw [if_neg hnil, if_neg hnil]
        obtain ⟨hcount, hnewest, hverify, hverifies⟩ := record_newest (guestVolumes vmid volumes)
        refine congrArg some (backupState_judge ?_ rfl hnewest hverify hverifies)
        show (List.foldl BackupRecord.addVolume {} (guestVolumes vmid volumes)).count ≠ 0
        rw [hcount]
        exact fun h => hnil (List.length_eq_zero_iff.mp h)
  · rw [if_neg hlisted, if_neg hlisted]
    rfl

/-! ## Older volumes -/

theorem newestOf_insert_of_lt (h : ∃ v ∈ a ++ b, w.ctime < v.ctime) :
    newestOf (a ++ w :: b) = newestOf (a ++ b) := by
  unfold newestOf
  rw [List.filter_append, List.filter_append]
  by_cases hw : 0 < w.ctime
  · rw [List.filter_cons_of_pos (by simpa using hw)]
    apply argmax_insert_of_lt
    obtain ⟨v, hv, hlt⟩ := h
    rw [← List.filter_append]
    exact ⟨v, List.mem_filter.mpr ⟨hv, by rw [decide_eq_true_eq]; omega⟩, hlt⟩
  · rw [List.filter_cons_of_neg (by simpa using hw)]

/-- A volume that is older than another one of its guest does not count. -/
theorem verdict_of_older (h : ∃ v ∈ a ++ b, v.vmid = w.vmid ∧ w.ctime < v.ctime) :
    q.verdict (a ++ b) vmid = q.verdict (a ++ w :: b) vmid := by
  obtain ⟨v, hv, hguest, hlt⟩ := h
  rw [verdict_eq, verdict_eq]
  by_cases hw : w.vmid = vmid
  · have hcut : guestVolumes vmid (a ++ w :: b) = guestVolumes vmid a ++ w :: guestVolumes vmid b := by
      unfold guestVolumes
      rw [List.filter_append, List.filter_cons_of_pos (by simpa using hw)]
    have hrest : guestVolumes vmid (a ++ b) = guestVolumes vmid a ++ guestVolumes vmid b :=
      List.filter_append _ _
    have hmem : v ∈ guestVolumes vmid (a ++ b) :=
      List.mem_filter.mpr ⟨hv, by rw [decide_eq_true_eq, hguest, hw]⟩
    have hne : guestVolumes vmid (a ++ w :: b) ≠ [] := by
      rw [hcut]
      exact List.append_ne_nil_of_right_ne_nil _ (List.cons_ne_nil _ _)
    have hsame : newestOf (guestVolumes vmid (a ++ w :: b)) = newestOf (guestVolumes vmid (a ++ b)) := by
      rw [hcut, hrest]
      exact newestOf_insert_of_lt ⟨v, by rw [← hrest]; exact hmem, hlt⟩
    rw [hsame]
    simp only [List.ne_nil_of_mem hmem, hne, ne_eq, not_false_eq_true, true_or, if_false]
  · have hsame : guestVolumes vmid (a ++ w :: b) = guestVolumes vmid (a ++ b) := by
      unfold guestVolumes
      rw [List.filter_append, List.filter_append, List.filter_cons_of_neg (by simpa using hw)]
    rw [hsame]

/-! ## Ties -/

theorem judge_eq_iff (htime : w.ctime = v.ctime) : q.judge vmid (some v) = q.judge vmid (some w) ↔
    v.failed = w.failed ∧ (q.Fresh v.ctime → v.pending = w.pending) := by
  have hpending : ∀ u : Volume, u.failed = true → u.pending = false := by
    intro u hfailed
    unfold Volume.failed at hfailed
    unfold Volume.pending
    simp only [Bool.and_eq_true, decide_eq_true_eq] at hfailed
    rw [hfailed.2]
    simp
  unfold BackupQuery.judge BackupQuery.Fresh
  dsimp only
  rw [htime]
  have hv := hpending v
  have hw := hpending w
  generalize v.failed = vFailed at hv ⊢
  generalize w.failed = wFailed at hw ⊢
  generalize v.pending = vPending at hv ⊢
  generalize w.pending = wPending at hw ⊢
  generalize (q.coveredKnown && !q.jobs.any (jobCovers · vmid)) = uncovered
  cases vFailed <;> cases wFailed
  · simp only [Bool.false_eq_true, if_false, true_and]
    by_cases hcrit : q.critHours * 3600 < max 0 (q.now - v.ctime)
    · rw [if_pos hcrit, if_pos hcrit]
      exact iff_of_true rfl (fun hfresh => absurd hcrit (not_lt.mpr hfresh.1))
    rw [if_neg hcrit, if_neg hcrit]
    by_cases hwarn : q.warnHours * 3600 < max 0 (q.now - v.ctime)
    · rw [if_pos hwarn, if_pos hwarn]
      exact iff_of_true rfl (fun hfresh => absurd hwarn (not_lt.mpr hfresh.2))
    rw [if_neg hwarn, if_neg hwarn]
    simp only [not_lt.mp hcrit, not_lt.mp hwarn, and_self, forall_const]
    cases vPending <;> cases wPending <;> cases uncovered <;> decide
  · simp only [Bool.false_eq_true, if_false, if_true, false_and, iff_false]
    split_ifs <;> decide
  · simp only [Bool.false_eq_true, if_false, if_true, Bool.true_eq_false, false_and, iff_false]
    split_ifs <;> decide
  · simp [hv, hw]

theorem mem_guestVolumes : v ∈ guestVolumes vmid volumes ↔ v ∈ volumes ∧ v.vmid = vmid := by
  unfold guestVolumes
  rw [List.mem_filter, decide_eq_true_eq]

theorem isNewest_of_newestOf (h : newestOf (guestVolumes vmid volumes) = some v) :
    IsNewest volumes v ∧ v.vmid = vmid := by
  have hmem := List.mem_filter.mp (List.argmax_mem h)
  obtain ⟨hv, hguest⟩ := mem_guestVolumes.mp hmem.1
  have hpos := of_decide_eq_true hmem.2
  refine ⟨⟨hv, hpos, fun w hw hvmid => ?_⟩, hguest⟩
  by_cases hwpos : 0 < w.ctime
  · exact List.le_of_mem_argmax (List.mem_filter.mpr
      ⟨mem_guestVolumes.mpr ⟨hw, hvmid.trans hguest⟩, decide_eq_true hwpos⟩) h
  · omega

theorem newestOf_eq_none :
    newestOf (guestVolumes vmid volumes) = none ↔ ∀ v ∈ volumes, v.vmid = vmid → v.ctime ≤ 0 := by
  unfold newestOf
  rw [List.argmax_eq_none, List.filter_eq_nil_iff]
  simp only [mem_guestVolumes, decide_eq_true_eq, not_lt, and_imp]

theorem isNewest_perm (h : volumes'.Perm volumes) : IsNewest volumes' v ↔ IsNewest volumes v := by
  unfold IsNewest
  simp only [h.mem_iff]

theorem verdict_of_newestOf (hunknown : ¬ q.unknown = true) (hvmid : vmid ≠ [])
    (h : newestOf (guestVolumes vmid volumes) = some v) :
    q.verdict volumes vmid = some (q.judge vmid (some v)) := by
  have hne : guestVolumes vmid volumes ≠ [] := by
    intro hnil
    rw [hnil] at h
    cases h
  rw [verdict_eq, if_pos ⟨hvmid, .inl hne⟩, if_neg hunknown, if_neg hne, h]

/-- A newest volume that is listed first is the one that counts. -/
theorem verdict_of_first (hunknown : ¬ q.unknown = true) (hv : IsNewest volumes v) (hvmid : v.vmid ≠ []) :
    q.verdict (v :: volumes.erase v) v.vmid = some (q.judge v.vmid (some v)) := by
  have hfirst : guestVolumes v.vmid (v :: volumes.erase v) =
      v :: guestVolumes v.vmid (volumes.erase v) := List.filter_cons_of_pos (by simp)
  have hnewest : newestOf (v :: guestVolumes v.vmid (volumes.erase v)) = some v := by
    unfold newestOf
    rw [List.filter_cons_of_pos (by simpa using hv.2.1)]
    refine argmax_cons_of_le (fun w hw => ?_)
    obtain ⟨hw, hguest⟩ := mem_guestVolumes.mp (List.mem_filter.mp hw).1
    exact hv.2.2 w (List.mem_of_mem_erase hw) hguest
  exact verdict_of_newestOf hunknown hvmid (hfirst ▸ hnewest)

/-- The newest volumes of a guest are judged alike. -/
theorem verdict_of_perm (hagree : q.unknown = true ∨ TiesAgree q volumes)
    (hperm : volumes'.Perm volumes) (vmid : Str) : q.verdict volumes' vmid = q.verdict volumes vmid := by
  have hguest : (guestVolumes vmid volumes').Perm (guestVolumes vmid volumes) := hperm.filter _
  have hnil : guestVolumes vmid volumes' = [] ↔ guestVolumes vmid volumes = [] := by
    rw [← List.length_eq_zero_iff, hguest.length_eq, List.length_eq_zero_iff]
  rw [verdict_eq, verdict_eq]
  simp only [ne_eq, hnil]
  by_cases hunknown : q.unknown = true
  · simp only [hunknown, if_true]
  by_cases hvmid : vmid = []
  · simp only [hvmid, not_true_eq_false, false_and, if_false]
  have hjudge : q.judge vmid (newestOf (guestVolumes vmid volumes')) =
      q.judge vmid (newestOf (guestVolumes vmid volumes)) := by
    cases hbest' : newestOf (guestVolumes vmid volumes') with
    | none =>
      have hbest : newestOf (guestVolumes vmid volumes) = none := by
        rw [newestOf_eq_none] at hbest' ⊢
        exact fun v hv => hbest' v (hperm.mem_iff.mpr hv)
      rw [hbest]
    | some w =>
      obtain ⟨hw, hwGuest⟩ := isNewest_of_newestOf hbest'
      rw [isNewest_perm hperm] at hw
      cases hbest : newestOf (guestVolumes vmid volumes) with
      | none =>
        have hle := newestOf_eq_none.mp hbest w hw.1 hwGuest
        have hpos := hw.2.1
        omega
      | some v =>
        obtain ⟨hv, hvGuest⟩ := isNewest_of_newestOf hbest
        have hsame : w.vmid = v.vmid := hwGuest.trans hvGuest.symm
        have htime : v.ctime = w.ctime :=
          le_antisymm (hw.2.2 v hv.1 hsame.symm) (hv.2.2 w hw.1 hsame)
        have hagree := hagree.resolve_left hunknown
        exact (judge_eq_iff htime).mpr (hagree w v hw hv (hwGuest ▸ hvmid) hsame.symm)
  rw [hjudge]

end

/-- Older volumes never count, and the order of the volumes does not count if
and only if nothing was read or the newest volumes of each guest are verified
alike. -/
theorem verdictsStable_iff (q : BackupQuery) (volumes : List Volume) :
    VerdictsStable q volumes ↔ q.unknown = true ∨ TiesAgree q volumes := by
  constructor
  · intro h
    by_cases hunknown : q.unknown = true
    · exact .inl hunknown
    refine .inr (fun v w hv hw hvmid hguest => ?_)
    have hfirstV := verdict_of_first hunknown hv hvmid
    have hfirstW := verdict_of_first hunknown hw (hguest ▸ hvmid)
    rw [h.orderFree _ (List.perm_cons_erase hv.1).symm] at hfirstV
    rw [h.orderFree _ (List.perm_cons_erase hw.1).symm, hguest, hfirstV] at hfirstW
    have htime : w.ctime = v.ctime := le_antisymm (hv.2.2 w hw.1 hguest) (hw.2.2 v hv.1 hguest.symm)
    exact (judge_eq_iff htime).mp (Option.some.inj hfirstW)
  · intro h
    exact ⟨fun volumes' hperm => verdict_of_perm h hperm,
      fun a w b hcut hnewer vmid => hcut ▸ verdict_of_older hnewer⟩

/-! ## A synced copy -/

/-- A backup of guest 100 on one of two backup servers. -/
def pbsVolume (storage verify : Str) : Volume where
  volid := storage ++ ":backup/vm/100/2026-03-02T02:00:00Z"
  storage := storage
  storageType := "pbs"
  verifies := true
  vmid := "100"
  ctime := 1772416800
  size := 1
  format := "pbs-vm"
  subtype := "qemu"
  verify := some verify
  isProtected := false
  notes := []

def syncedCopy : List Volume := [pbsVolume "pbs-a" "failed", pbsVolume "pbs-b" "ok"]

/-- Right after the backup, with the default thresholds. -/
def freshQuery : BackupQuery where
  jobs := []
  vmids := ["100"]
  now := 1772416800
  warnHours := 36
  critHours := 168
  coveredKnown := false
  unknown := false

/-- The verdict on the guest depends on which copy is listed first. -/
theorem synced_copy_flips : ¬ ∀ q volumes, VerdictsStable q volumes := by
  intro hclaim
  have hflip := (hclaim freshQuery syncedCopy).orderFree syncedCopy.reverse
    (List.reverse_perm _) "100"
  have hfailed : newestOf (guestVolumes "100" syncedCopy) = some (pbsVolume "pbs-a" "failed") := by decide
  have hok : newestOf (guestVolumes "100" syncedCopy.reverse) = some (pbsVolume "pbs-b" "ok") := by decide
  rw [verdict_of_newestOf (by decide) (by decide) hfailed, verdict_of_newestOf (by decide) (by decide) hok]
    at hflip
  have htime : (pbsVolume "pbs-a" "failed").ctime = (pbsVolume "pbs-b" "ok").ctime := rfl
  have hsame := ((judge_eq_iff htime).mp (Option.some.inj hflip)).1
  revert hsame
  decide

end PveZfsTool.Backups
