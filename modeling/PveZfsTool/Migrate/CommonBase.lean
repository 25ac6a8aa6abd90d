import PveZfsTool.Migrate.SnapshotRecency

/-!
# The base that a cleanup leaves

`cleanup_migration_snapshots` spares the newest migration snapshot of each
dataset on the target: a later migration back is to be sent incrementally
from it.  On the source it spares nothing, so the two sides have no snapshot
in common afterwards.

`after_sweep_iff` says what a cleanup leaves on the two hosts.  From it,
`base_kept_iff` says when a disk keeps a common snapshot: when one of them is
left on the source because the host did not list it or did not destroy it,
and on the target too.  `base_lost` is a cleanup whose commands all succeed.
-/

namespace PveZfsTool

open Dialogue Text

/-! ## The snapshots of the two hosts -/

/-- The snapshots that exist on a host, by their full names. -/
abbrev HostSnapshots := Host → Str → Bool

def HostSnapshots.erase (w : HostSnapshots) (host : Host) (full : Str) : HostSnapshots :=
  fun h f => w h f && !decide (h = host ∧ f = full)

/-- The full name of a migration snapshot of the dataset. -/
def MigrationOf (ds full : Str) : Prop :=
  '@' ∈ full ∧ beforeFirst '@' full = ds ∧ isMigrationSnapshot (afterFirst '@' full) = true

/-- How the registry and the hosts answer: the running tasks, the listings
that come through, and the snapshots that can be destroyed. -/
structure SweepHosts where
  busy : List Str
  heard : Host → Str → Bool
  destroyable : Host → Str → Bool

/-- The migration snapshots of a listing. -/
def sweepListing (a : Answer) : List MigrationSnapshot :=
  (splitLines a.stdout).filterMap parseSnapshotLine

/-- A listing that comes through has the migration snapshots of the dataset.
One that does not is empty. -/
def sweepEnv (hosts : SweepHosts) : Env HostSnapshots SweepReq SweepReply Empty where
  respond w q a w' :=
    match q with
    | .runningTasks _ => a.tasks = hosts.busy ∧ w' = w
    | .list host ds => w' = w ∧ ∀ full, full ∈ (sweepListing a.answer).map (·.full) ↔
        hosts.heard host ds = true ∧ MigrationOf ds full ∧ w host full = true
    | .destroy host full =>
        a.answer.success = (w host full && hosts.destroyable host full) ∧
          w' = if hosts.destroyable host full then w.erase host full else w
  move _ m _ := m.elim

/-- The trail of a cleanup on the two hosts. -/
abbrev HostTrail := Trail SweepReq SweepReply Empty HostSnapshots

section Sweep

variable {hosts : SweepHosts} {host : Host} {w w' : HostSnapshots} {tr : HostTrail}

/-! ## The listings -/

theorem parseSnapshotLine_some {ln : Str} {s : MigrationSnapshot}
    (h : parseSnapshotLine ln = some s) :
    s.dataset = beforeFirst '@' s.full ∧ s.snapshot = afterFirst '@' s.full := by
  unfold parseSnapshotLine at h
  split at h
  · split_ifs at h
    obtain rfl := Option.some.inj h
    exact ⟨rfl, rfl⟩
  · cases h

/-- The full name is one of a migration snapshot that the listings of the
datasets have. -/
def ListedOn (hosts : SweepHosts) (w : HostSnapshots) (host : Host) (datasets : List Str)
    (full : Str) : Prop :=
  ∃ ds ∈ datasets, matchesDataset ds = true ∧ hosts.heard host ds = true ∧ MigrationOf ds full ∧
    w host full = true

theorem path_listMigrationSnapshots {datasets : List Str} {snaps : List MigrationSnapshot}
    (hpath : (sweepEnv hosts).Path w tr w')
    (hrun : Drives (listMigrationSnapshots host datasets) tr (.ok snaps)) :
    w' = w ∧ (∀ s ∈ snaps, s.dataset = beforeFirst '@' s.full ∧ s.snapshot = afterFirst '@' s.full) ∧
      ∀ full, full ∈ snaps.map (·.full) ↔ ListedOn hosts w host datasets full := by
  induction datasets generalizing tr snaps w' with
  | nil =>
    obtain ⟨hnil, hout⟩ := Prog.run_ret.mp hrun
    obtain rfl := Except.ok.inj hout
    obtain rfl := eq_nil_of_answered hnil
    exact ⟨hpath.symm, by simp, by simp [ListedOn]⟩
  | cons ds datasets ih =>
    unfold listMigrationSnapshots at hrun
    split at hrun
    · next hds =>
      simp only [Prog.issue_bind] at hrun
      obtain ⟨a, u, tr₁, rfl, hrest⟩ := drives_ask hrun
      obtain ⟨⟨rfl, hlist⟩, hpath⟩ := hpath
      rcases drives_bind hrest with ⟨t₁, t₂, others, rfl, hothers, hret⟩ | ⟨e, -, he⟩
      · obtain ⟨v, hp₁, hp₂⟩ := Env.path_append.mp hpath
        obtain ⟨rfl, hfields, hfulls⟩ := ih hp₁ hothers
        obtain ⟨hnil, hout⟩ := Prog.run_ret.mp hret
        obtain rfl := Except.ok.inj hout
        obtain rfl := eq_nil_of_answered hnil
        refine ⟨hp₂.symm, ?_, fun full => ?_⟩
        · intro s hs
          rcases List.mem_append.mp hs with hs | hs
          · obtain ⟨ln, -, hln⟩ := List.mem_filterMap.mp hs
            exact parseSnapshotLine_some hln
          · exact hfields s hs
        · have hhere := hlist full
          unfold sweepListing at hhere
          rw [List.map_append, List.mem_append, hhere, hfulls full]
          simp [ListedOn, hds]
      · cases he
    · next hds =>
      obtain ⟨rfl, hfields, hfulls⟩ := ih hpath hrun
      refine ⟨rfl, hfields, fun full => ?_⟩
      rw [hfulls full]
      simp [ListedOn, hds]

theorem neverRaises_listMigrationSnapshots (host : Host) (datasets : List Str) :
    (listMigrationSnapshots host datasets).NeverRaises := by
  induction datasets with
  | nil => trivial
  | cons ds datasets ih =>
    unfold listMigrationSnapshots
    split
    · exact fun _ => ih.bind (fun _ => trivial)
    · exact ih

/-- The listings of a trail that goes on after them. -/
theorem exists_listed {α : Type} {datasets : List Str} {o : Except Exn α}
    {next : List MigrationSnapshot → SweepJob α} (hpath : (sweepEnv hosts).Path w tr w')
    (hrun : Drives (listMigrationSnapshots host datasets >>= next) tr o) :
    ∃ snaps tr', (sweepEnv hosts).Path w tr' w' ∧ Drives (next snaps) tr' o ∧
      (∀ s ∈ snaps, s.dataset = beforeFirst '@' s.full ∧ s.snapshot = afterFirst '@' s.full) ∧
      ∀ full, full ∈ snaps.map (·.full) ↔ ListedOn hosts w host datasets full := by
  rcases drives_bind hrun with ⟨t₁, t₂, snaps, rfl, hlist, hnext⟩ | ⟨e, herr, -⟩
  · obtain ⟨v, hp₁, hp₂⟩ := Env.path_append.mp hpath
    obtain ⟨rfl, hfields, hfulls⟩ := path_listMigrationSnapshots hp₁ hlist
    exact ⟨snaps, t₂, hp₂, hnext, hfields, hfulls⟩
  · obtain ⟨_, hok⟩ := (neverRaises_listMigrationSnapshots host datasets).sound herr
    cases hok

/-! ## The destructions -/

/-- A trail of a job whose value is passed on is one of the job. -/
theorem drives_of_return {α β : Type} {p : SweepJob α} {f : α → β} {o : Except Exn β}
    (h : Drives (p >>= fun value => return f value) tr o) : ∃ r, Drives p tr r := by
  rcases drives_bind h with ⟨t₁, t₂, value, rfl, hp, hret⟩ | ⟨e, herr, -⟩
  · refine ⟨.ok value, ?_⟩
    rw [Drives, answered_append, (Prog.run_ret.mp hret).1, List.append_nil]
    exact hp
  · exact ⟨.error e, herr⟩

/-- The snapshots that are left are those that were not to be destroyed or
could not be. -/
theorem path_destroySnapshots {todo : List (Str × Host × MigrationSnapshot)}
    {o : Except Exn (List SweepResult)} (hpath : (sweepEnv hosts).Path w tr w')
    (hrun : Drives (destroySnapshots todo) tr o) (h : Host) (f : Str) :
    w' h f = true ↔ w h f = true ∧
      ¬ (hosts.destroyable h f = true ∧ ∃ e ∈ todo, e.2.1 = h ∧ e.2.2.full = f) := by
  induction todo generalizing tr w o with
  | nil =>
    obtain rfl := eq_nil_of_answered (Prog.run_ret.mp hrun).1
    obtain rfl : w = w' := hpath
    simp
  | cons e todo ih =>
    obtain ⟨side, host, s⟩ := e
    simp only [destroySnapshots, Prog.issue_bind] at hrun
    obtain ⟨a, u, tr₁, rfl, hrest⟩ := drives_ask hrun
    obtain ⟨⟨-, hu⟩, hpath⟩ := hpath
    obtain ⟨r, hothers⟩ := drives_of_return hrest
    rw [ih hpath hothers]
    by_cases hthis : h = host ∧ f = s.full
    · obtain ⟨rfl, rfl⟩ := hthis
      cases hd : hosts.destroyable h s.full with
      | true => simp [hu, hd, HostSnapshots.erase]
      | false => simp [hu, hd]
    · have hstill : u h f = w h f := by
        rw [hu]
        split
        · simp [HostSnapshots.erase, hthis]
        · rfl
      have hnot : ¬ (host = h ∧ s.full = f) := fun heq => hthis ⟨heq.1.symm, heq.2.symm⟩
      simp [hstill, hnot]

end Sweep

/-! ## What a cleanup leaves -/

section Cleanup

variable {hosts : SweepHosts} {source target : Host} {plan : List PlanItem}

/-- A snapshot of the target that another one of its dataset comes after. -/
def OutdatedOn (hosts : SweepHosts) (w : HostSnapshots) (host : Host) (datasets : List Str)
    (full : Str) : Prop :=
  ListedOn hosts w host datasets full ∧ ∃ newer, ListedOn hosts w host datasets newer ∧
    beforeFirst '@' newer = beforeFirst '@' full ∧ afterFirst '@' full < afterFirst '@' newer

/-- The snapshots that the cleanup is to destroy. -/
def SweptOn (hosts : SweepHosts) (w : HostSnapshots) (source target : Host) (plan : List PlanItem)
    (host : Host) (full : Str) : Prop :=
  host = source ∧ ListedOn hosts w source (plan.map (·.sourceDataset.getD [])) full ∨
    host = target ∧ OutdatedOn hosts w target (plan.map (·.targetDataset.getD [])) full

theorem mem_select_full_iff {w : HostSnapshots} {host : Host} {datasets : List Str}
    {snaps : List MigrationSnapshot}
    (hfields : ∀ s ∈ snaps, s.dataset = beforeFirst '@' s.full ∧ s.snapshot = afterFirst '@' s.full)
    (hfulls : ∀ full, full ∈ snaps.map (·.full) ↔ ListedOn hosts w host datasets full) (full : Str) :
    (∃ s ∈ selectSnapshotsToDelete snaps true, s.full = full) ↔
      OutdatedOn hosts w host datasets full := by
  unfold OutdatedOn
  constructor
  · rintro ⟨s, hs, rfl⟩
    obtain ⟨hmem, t, ht, hds, hlt⟩ := mem_selectSnapshotsToDelete_iff.mp hs
    rw [(hfields s hmem).1, (hfields t ht).1] at hds
    rw [(hfields s hmem).2, (hfields t ht).2] at hlt
    exact ⟨(hfulls _).mp (List.mem_map_of_mem hmem), t.full,
      (hfulls _).mp (List.mem_map_of_mem ht), hds, hlt⟩
  · rintro ⟨hlisted, newer, hnewer, hds, hlt⟩
    obtain ⟨s, hs, rfl⟩ := List.mem_map.mp ((hfulls _).mpr hlisted)
    obtain ⟨t, ht, rfl⟩ := List.mem_map.mp ((hfulls _).mpr hnewer)
    rw [← (hfields s hs).1, ← (hfields t ht).1] at hds
    rw [← (hfields s hs).2, ← (hfields t ht).2] at hlt
    exact ⟨s, mem_selectSnapshotsToDelete_iff.mpr ⟨hs, t, ht, hds, hlt⟩, rfl⟩

/-- A cleanup that is refused leaves everything. -/
theorem after_refused (hbusy : hosts.busy ≠ [])
    (x : Execution (sweepEnv hosts) (cleanupMigrationSnapshots source target plan true)) :
    x.after = x.before := by
  have hrun := x.drives
  have hpath := x.path
  simp only [cleanupMigrationSnapshots, Prog.issue_bind] at hrun
  obtain ⟨a, u, tr, htrail, hrest⟩ := drives_ask hrun
  rw [htrail] at hpath
  obtain ⟨⟨htasks, rfl⟩, hpath⟩ := hpath
  rw [if_pos (htasks ▸ hbusy)] at hrest
  obtain rfl := eq_nil_of_answered (Prog.run_ret.mp hrest).1
  exact hpath.symm

/-- The snapshots that are selected on the two hosts. -/
theorem exists_todo_iff {w : HostSnapshots} {onSource onTarget : List MigrationSnapshot}
    (hsource : ∀ full, full ∈ onSource.map (·.full) ↔
      ListedOn hosts w source (plan.map (·.sourceDataset.getD [])) full)
    (hfields : ∀ s ∈ onTarget,
      s.dataset = beforeFirst '@' s.full ∧ s.snapshot = afterFirst '@' s.full)
    (htarget : ∀ full, full ∈ onTarget.map (·.full) ↔
      ListedOn hosts w target (plan.map (·.targetDataset.getD [])) full)
    {host : Host} {full : Str} :
    (∃ e ∈ (selectSnapshotsToDelete onSource false).map
        (fun s => (("source" : Str), source, s)) ++
      (selectSnapshotsToDelete onTarget true).map (fun s => (("target" : Str), target, s)),
      e.2.1 = host ∧ e.2.2.full = full) ↔ SweptOn hosts w source target plan host full := by
  unfold SweptOn
  rw [← mem_select_full_iff hfields htarget, ← hsource, List.mem_map]
  constructor
  · rintro ⟨e, he, rfl, rfl⟩
    rcases List.mem_append.mp he with he | he
    · obtain ⟨s, hs, rfl⟩ := List.mem_map.mp he
      exact .inl ⟨rfl, s, hs, rfl⟩
    · obtain ⟨s, hs, rfl⟩ := List.mem_map.mp he
      exact .inr ⟨rfl, s, hs, rfl⟩
  · rintro (⟨rfl, s, hs, rfl⟩ | ⟨rfl, s, hs, rfl⟩)
    · exact ⟨(_, host, s), List.mem_append_left _ (List.mem_map_of_mem hs), rfl, rfl⟩
    · exact ⟨(_, host, s), List.mem_append_right _ (List.mem_map_of_mem hs), rfl, rfl⟩

/-- A cleanup leaves the snapshots that it is not to destroy, and those that
the hosts do not destroy. -/
theorem after_sweep_iff (hidle : hosts.busy = [])
    (x : Execution (sweepEnv hosts) (cleanupMigrationSnapshots source target plan true))
    (host : Host) (full : Str) :
    x.after host full = true ↔ x.before host full = true ∧
      ¬ (hosts.destroyable host full = true ∧
        SweptOn hosts x.before source target plan host full) := by
  have hrun := x.drives
  have hpath := x.path
  simp only [cleanupMigrationSnapshots, Prog.issue_bind] at hrun
  obtain ⟨a, u, tr, htrail, hrest⟩ := drives_ask hrun
  rw [htrail] at hpath
  obtain ⟨⟨htasks, rfl⟩, hpath⟩ := hpath
  rw [if_neg (not_not.mpr (htasks.trans hidle))] at hrest
  obtain ⟨onSource, tr₁, hpath₁, hrun₁, -, hsource⟩ := exists_listed hpath hrest
  obtain ⟨onTarget, tr₂, hpath₂, hrun₂, hfields, htarget⟩ := exists_listed hpath₁ hrun₁
  obtain ⟨r, hdestroys⟩ := drives_of_return hrun₂
  rw [path_destroySnapshots hpath₂ hdestroys, exists_todo_iff hsource hfields htarget]

/-- The datasets have a migration snapshot in common. -/
def CommonBase (w : HostSnapshots) (source target : Host) (src tgt : Str) : Prop :=
  ∃ n, isMigrationSnapshot n = true ∧ w source (src ++ "@" ++ n) = true ∧
    w target (tgt ++ "@" ++ n) = true

/-- Each disk whose datasets had a migration snapshot in common still has
one. -/
def BasesKept (w w' : HostSnapshots) (source target : Host) (plan : List PlanItem) : Prop :=
  ∀ p ∈ plan, ∀ src tgt, p.sourceDataset = some src → p.targetDataset = some tgt →
    CommonBase w source target src tgt → CommonBase w' source target src tgt

/-- The host keeps the snapshot: it is not to be destroyed, or can not be. -/
def Spared (hosts : SweepHosts) (w : HostSnapshots) (source target : Host) (plan : List PlanItem)
    (host : Host) (full : Str) : Prop :=
  hosts.destroyable host full = true → ¬ SweptOn hosts w source target plan host full

/-- Each disk whose datasets have a migration snapshot in common has one that
both hosts keep. -/
def BasesSpared (hosts : SweepHosts) (w : HostSnapshots) (source target : Host)
    (plan : List PlanItem) : Prop :=
  ∀ p ∈ plan, ∀ src tgt, p.sourceDataset = some src → p.targetDataset = some tgt →
    CommonBase w source target src tgt →
      ∃ n, isMigrationSnapshot n = true ∧ w source (src ++ "@" ++ n) = true ∧
        w target (tgt ++ "@" ++ n) = true ∧
        Spared hosts w source target plan source (src ++ "@" ++ n) ∧
        Spared hosts w source target plan target (tgt ++ "@" ++ n)

/-- A cleanup leaves each disk a common snapshot if and only if it is refused,
or each disk with a common snapshot has one that both hosts keep. -/
theorem base_kept_iff
    (x : Execution (sweepEnv hosts) (cleanupMigrationSnapshots source target plan true)) :
    BasesKept x.before x.after source target plan ↔
      hosts.busy ≠ [] ∨ BasesSpared hosts x.before source target plan := by
  by_cases hbusy : hosts.busy = []
  · have hleft := after_sweep_iff hbusy x
    rw [or_iff_right (not_not.mpr hbusy)]
    refine forall₂_congr (fun p _ => forall₄_congr (fun src tgt _ _ => ?_))
    refine imp_congr_right (fun _ => exists_congr (fun n => ?_))
    rw [hleft, hleft]
    unfold Spared
    tauto
  · refine iff_of_true ?_ (.inl hbusy)
    rw [after_refused hbusy x]
    exact fun _ _ _ _ _ _ hcommon => hcommon

/-- On the source a migration snapshot that is listed is kept only if the host
does not destroy it. -/
theorem spared_source_iff {w : HostSnapshots} {src n : Str} {p : PlanItem}
    (hp : p ∈ plan) (hsrc : p.sourceDataset = some src) (hds : matchesDataset src = true)
    (hat : '@' ∉ src) (hheard : hosts.heard source src = true) (hn : isMigrationSnapshot n = true)
    (hw : w source (src ++ "@" ++ n) = true) :
    Spared hosts w source target plan source (src ++ "@" ++ n) ↔
      hosts.destroyable source (src ++ "@" ++ n) = false := by
  have hname : src ++ "@" ++ n = src ++ '@' :: n := by simp
  have hswept : SweptOn hosts w source target plan source (src ++ "@" ++ n) := by
    refine .inl ⟨rfl, src, List.mem_map.mpr ⟨p, hp, by rw [hsrc]; rfl⟩, hds, hheard, ?_, hw⟩
    rw [hname, MigrationOf, beforeFirst_append hat, afterFirst_append hat]
    exact ⟨by simp, rfl, hn⟩
  rw [Spared, imp_not_comm, imp_iff_right hswept, Bool.not_eq_true]

end Cleanup

/-! ## A cleanup of one disk -/

/-- The copy of the snapshot on the target. -/
def snapReceived : Str := "tank/vm-100-disk-0@migrate-20260101-000000"

/-- The snapshots after one copy, and those that the target has of them. -/
def copiedSnapshots : HostSnapshots := fun h f =>
  decide (h = hostA ∧ f = snapCopied ∨ h = hostB ∧ f = snapReceived)

@[inherit_doc copiedSnapshots] def receivedSnapshots : HostSnapshots :=
  copiedSnapshots.erase hostA snapCopied

/-- Hosts on which everything works. -/
def willingHosts : SweepHosts := ⟨[], fun _ _ => true, fun _ _ => true⟩

def copiedSweep : History SweepReq SweepReply :=
  [(.runningTasks "guest-migration", {}),
    (.list hostA "rpool/data/vm-100-disk-0", { answer := prints (snapCopied ++ "\t0B\n") }),
    (.list hostB "tank/vm-100-disk-0", { answer := prints (snapReceived ++ "\t0B\n") }),
    (.destroy hostA snapCopied, { answer := prints [] })]

theorem listed_copied : (sweepListing (prints (snapCopied ++ "\t0B\n"))).map (·.full) =
    [snapCopied] := by
  decide

theorem listed_received : (sweepListing (prints (snapReceived ++ "\t0B\n"))).map (·.full) =
    [snapReceived] := by
  decide

theorem path_copiedSweep : (sweepEnv willingHosts).Path copiedSnapshots
    (withStates copiedSweep [copiedSnapshots, copiedSnapshots, copiedSnapshots, receivedSnapshots])
    receivedSnapshots := by
  refine ⟨⟨rfl, rfl⟩, ⟨rfl, fun full => ?_⟩, ⟨rfl, fun full => ?_⟩, ⟨by decide, rfl⟩, rfl⟩
  · rw [listed_copied, List.mem_singleton]
    constructor
    · rintro rfl
      exact ⟨rfl, ⟨by decide, by decide, by decide⟩, by decide⟩
    · rintro ⟨-, -, hw⟩
      rcases of_decide_eq_true hw with ⟨-, hfull⟩ | ⟨hhost, -⟩
      · exact hfull
      · exact absurd hhost (by decide)
  · rw [listed_received, List.mem_singleton]
    constructor
    · rintro rfl
      exact ⟨rfl, ⟨by decide, by decide, by decide⟩, by decide⟩
    · rintro ⟨-, -, hw⟩
      rcases of_decide_eq_true hw with ⟨hhost, -⟩ | ⟨-, hfull⟩
      · exact absurd hhost (by decide)
      · exact hfull

/-- All commands succeed, and the disk has no common snapshot any more. -/
theorem base_lost : ¬ ∀ (hosts : SweepHosts) (source target : Host) (plan : List PlanItem)
    (x : Execution (sweepEnv hosts) (cleanupMigrationSnapshots source target plan true)),
    BasesKept x.before x.after source target plan := by
  intro h
  obtain ⟨o, hrun⟩ :
      ∃ o, (cleanupMigrationSnapshots hostA hostB planCopied true).Run copiedSweep o :=
    Prog.exists_run_of_transcript (copiedSweep.map Prod.snd) (by decide)
  have hcommon : CommonBase copiedSnapshots hostA hostB "rpool/data/vm-100-disk-0"
      "tank/vm-100-disk-0" := ⟨"migrate-20260101-000000", by decide,
        decide_eq_true (.inl ⟨rfl, rfl⟩), decide_eq_true (.inr ⟨rfl, rfl⟩)⟩
  obtain ⟨n, -, hsource, -⟩ := h willingHosts hostA hostB planCopied
    ⟨_, _, _, o, path_copiedSweep, hrun⟩ _ List.mem_cons_self _ _ rfl rfl hcommon
  -- the only snapshot of the source is the one that was destroyed
  obtain ⟨hcopied, hleft⟩ := Bool.and_eq_true_iff.mp hsource
  rcases of_decide_eq_true hcopied with hgone | ⟨hhost, -⟩
  · rw [decide_eq_true hgone] at hleft
    cases hleft
  · exact absurd hhost (by decide)

end PveZfsTool
