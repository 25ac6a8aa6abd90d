import PveZfsTool.Recovery.DestroySafety
import PveZfsTool.Migrate.CutoverData
import PveZfsTool.Migrate.Receives

/-!
# The deltas of repeated pre-copies

`precopy_async` is meant to be run again and again: each run sends only what
changed since the run before, and the cutover sends the rest.  The base of a
stream comes from the plan, and the plan from the one preflight before the
first run.

`sends_deltas_iff` covers every sequence of pre-copies of a guest whose disks
are absent on the target, with the cutover after them.  Each stream of such a
session is a full one, so a later run sends a delta only if it sends nothing.
ZFS refuses the full streams, and `DeltaSession.ends_with_first` says that no
run after the first pre-copy succeeds.  `second_full` is such a session.
-/

namespace PveZfsTool

open Dialogue Text

/-! ## The datasets of the target -/

/-- The datasets of the target that exist, each with its snapshots. -/
abbrev TargetPool := Str → Option (List Str)

/-- ZFS receives the stream: a full one only into a dataset that has no
snapshots, and one from a base only into a dataset whose newest snapshot is
the base. -/
def Receivable (w : TargetPool) (t : Transfer) : Prop :=
  match t.baseSnapshot with
  | none => ∀ snaps, w t.targetDataset = some snaps → snaps = []
  | some base => ∃ snaps, w t.targetDataset = some snaps ∧ snaps.getLast? = some base

/-- The target after the stream was received. -/
def TargetPool.receive (w : TargetPool) (t : Transfer) : TargetPool :=
  Function.update w t.targetDataset
    (some ((w t.targetDataset).getD [] ++ [afterFirst '@' t.srcSnapshot]))

/-- The listing of a dataset that does not exist does not print its name.  A
stream is received or refused, and one that is answered as received was. -/
def poolEnv (target : Host) : Env TargetPool Request Answer Empty where
  respond w q a w' :=
    match q.cmd with
    | .zfsListName ds => w' = w ∧ (q.host = target → w ds = none → strip a.stdout ≠ ds)
    | .sendRecv t => Receivable w t ∧ w' = w.receive t ∨ streamDone a = false ∧ w' = w
    | _ => w' = w
  move _ m _ := m.elim

abbrev PoolTrail := Trail Request Answer Empty TargetPool

/-- The dataset exists and has a snapshot. -/
def Seeded (ds : Str) (w : TargetPool) : Prop := ∃ snaps, w ds = some snaps ∧ snaps ≠ []

section Seeded

variable {target : Host} {ds : Str} {w w' : TargetPool} {tr : PoolTrail}

theorem seeded_receive (w : TargetPool) (t : Transfer) : Seeded t.targetDataset (w.receive t) :=
  ⟨_, Function.update_self _ _ _, by simp⟩

/-- Nothing that a migration does on the target removes a snapshot. -/
theorem seeded_step {e : Event Request Answer Empty} (hstep : (poolEnv target).Step w e w')
    (h : Seeded ds w) : Seeded ds w' := by
  cases e with
  | move m => exact m.elim
  | request q a =>
    obtain ⟨host, cmd⟩ := q
    cases cmd with
    | sendRecv t =>
      rcases hstep with ⟨-, rfl⟩ | ⟨-, rfl⟩
      · by_cases heq : ds = t.targetDataset
        · exact heq ▸ seeded_receive w t
        · obtain ⟨snaps, hw, hne⟩ := h
          exact ⟨snaps, by rw [TargetPool.receive, Function.update_of_ne heq, hw], hne⟩
      · exact h
    | zfsListName d =>
      obtain rfl : w' = w := hstep.1
      exact h
    | _ =>
      obtain rfl : w' = w := hstep
      exact h

theorem seeded_path (hpath : (poolEnv target).Path w tr w') (h : Seeded ds w) : Seeded ds w' :=
  (hpath.preserves h (fun _ _ _ _ hw hstep => seeded_step hstep hw)).2

/-- The request sends a full stream into the dataset. -/
def Fills (ds : Str) (q : Request) : Prop :=
  ∃ t, q.cmd = .sendRecv t ∧ t.targetDataset = ds ∧ t.baseSnapshot = none

/-- A full stream that is done leaves a snapshot. -/
theorem seeded_of_filled (hpath : (poolEnv target).Path w tr w') {q : Request} {a : Answer}
    (hmem : (q, a) ∈ answered tr) (hfills : Fills ds q) (hdone : streamDone a = true) :
    Seeded ds w' := by
  obtain ⟨u, hmem⟩ := mem_answered.mp hmem
  obtain ⟨t₁, t₂, rfl⟩ := List.append_of_mem hmem
  obtain ⟨-, hstep, hrest⟩ := hpath.cut
  obtain ⟨host, cmd⟩ := q
  obtain ⟨t, rfl, rfl, -⟩ := hfills
  rcases hstep with ⟨-, rfl⟩ | ⟨hnot, -⟩
  · exact seeded_path hrest (seeded_receive _ t)
  · rw [hdone] at hnot
    cases hnot

/-- A dataset that has a snapshot takes no full stream. -/
theorem not_filled (hpath : (poolEnv target).Path w tr w') (hseeded : Seeded ds w) {q : Request}
    {a : Answer} (hmem : (q, a) ∈ answered tr) (hfills : Fills ds q) : streamDone a = false := by
  obtain ⟨u, hmem⟩ := mem_answered.mp hmem
  obtain ⟨t₁, t₂, rfl⟩ := List.append_of_mem hmem
  obtain ⟨hfront, hstep, -⟩ := hpath.cut
  obtain ⟨snaps, hsnaps, hne⟩ := seeded_path hfront hseeded
  obtain ⟨host, cmd⟩ := q
  obtain ⟨t, rfl, rfl, hfull⟩ := hfills
  rcases hstep with ⟨hreceivable, -⟩ | ⟨hnot, -⟩
  · rw [Receivable, hfull] at hreceivable
    exact absurd (hreceivable snaps hsnaps) hne
  · exact hnot

end Seeded

/-! ## The plan of the preflight -/

/-- The listing of the dataset was answered with its name. -/
def Listed (target : Host) (log : Log) (ds : Str) : Prop :=
  ∃ a, ((⟨target, .zfsListName ds⟩ : Request), a) ∈ log ∧ strip a.stdout = ds

section Plan

variable {source target : Host} {vmid gtype targetRoot targetStorage : Str} {newVmid : Option Str}

theorem Listed.mono {log log' : Log} {ds : Str} (h : Listed target log ds)
    (hsub : ∀ entry ∈ log, entry ∈ log') : Listed target log' ds := by
  obtain ⟨a, hmem, heq⟩ := h
  exact ⟨a, hsub _ hmem, heq⟩

/-- A disk has a common snapshot in the plan only if its target was listed. -/
theorem run_planDisk {d : Disk} {log : Log} {e : PlanEntry}
    (h : (planDisk source target vmid targetRoot newVmid d).Run log (.ok e))
    (hcommon : e.commonSnapshot ≠ []) : Listed target log e.targetDataset := by
  simp only [planDisk, datasetExists, runCommand, Prog.issue_bind, Prog.ask_bind, Prog.pure_eq,
    Prog.ret_bind, Prog.run_ask] at h
  obtain ⟨a, tail, rfl, hrest⟩ := h
  obtain ⟨mid, last, common, rfl, hfind, hret⟩ := Prog.run_bind_ok hrest
  obtain ⟨rfl, hout⟩ := Prog.run_ret.mp hret
  obtain rfl := Except.ok.inj hout
  refine ⟨a, by simp, ?_⟩
  by_contra habsent
  simp only [findCommon, habsent, decide_false, Bool.false_eq_true, if_false, Prog.pure_eq,
    Prog.run_ret, Except.ok.injEq] at hfind
  exact hcommon hfind.2

theorem run_planDisks {disks : List Disk} {log : Log} {plan : List PlanEntry}
    (h : (planDisks source target vmid targetRoot newVmid disks).Run log (.ok plan)) :
    ∀ e ∈ plan, e.commonSnapshot ≠ [] → Listed target log e.targetDataset := by
  induction disks generalizing log plan with
  | nil =>
    have hout := (Prog.run_ret.mp h).2
    obtain rfl := Except.ok.inj hout
    simp
  | cons d disks ih =>
    obtain ⟨log₁, tail, first, rfl, hfirst, hrest⟩ := Prog.run_bind_ok h
    obtain ⟨log₂, last, rest, rfl, hdisks, hret⟩ := Prog.run_bind_ok hrest
    obtain ⟨rfl, hout⟩ := Prog.run_ret.mp hret
    obtain rfl := Except.ok.inj hout
    intro e he hcommon
    rcases List.mem_cons.mp he with rfl | he
    · exact (run_planDisk hfirst hcommon).mono (by simp +contextual)
    · exact (ih hdisks e he hcommon).mono (by simp +contextual)

/-- The plan of a report is the one that the plan loop returned. -/
theorem run_preflightReport {tgtVmid : Str} {cfg : ConfigFile} {log : Log} {r : PreflightReport}
    (h : (preflightReport source target vmid gtype targetRoot tgtVmid newVmid targetStorage cfg).Run
      log (.ok r)) :
    ∃ front planning disks, log = front ++ planning ∧
      (planDisks source target vmid targetRoot newVmid disks).Run planning (.ok r.plan) := by
  unfold preflightReport at h
  obtain ⟨l₁, _, disc, rfl, -, h⟩ := Prog.run_bind_ok h
  obtain ⟨l₂, _, _, rfl, -, h⟩ := Prog.run_bind_ok h
  obtain ⟨l₃, _, _, rfl, -, h⟩ := Prog.run_bind_ok h
  obtain ⟨l₄, _, _, rfl, -, h⟩ := Prog.run_bind_ok h
  obtain ⟨l₅, _, _, rfl, -, h⟩ := Prog.run_bind_ok h
  obtain ⟨l₆, _, _, rfl, -, h⟩ := Prog.run_bind_ok h
  obtain ⟨l₇, _, _, rfl, -, h⟩ := Prog.run_bind_ok h
  obtain ⟨l₈, _, _, rfl, -, h⟩ := Prog.run_bind_ok h
  obtain ⟨planning, _, plan, rfl, hplan, hret⟩ := Prog.run_bind_ok h
  obtain ⟨rfl, hout⟩ := Prog.run_ret.mp hret
  obtain rfl := Except.ok.inj hout
  refine ⟨l₁ ++ l₂ ++ l₃ ++ l₄ ++ l₅ ++ l₆ ++ l₇ ++ l₈, planning, disc.disks, ?_, hplan⟩
  simp

/-- An entry of the plan has a common snapshot only if its target was
listed. -/
theorem run_preflight {log : Log} {r : PreflightReport}
    (h : (preflight source target vmid gtype targetRoot newVmid targetStorage).Run log
      (.ok (.report r))) :
    ∀ e ∈ r.plan, e.commonSnapshot ≠ [] → Listed target log e.targetDataset := by
  unfold preflight at h
  split at h
  · cases (Prog.run_ret.mp h).2
  · split at h
    · cases (Prog.run_ret.mp h).2
    · split at h
      · cases (Prog.run_ret.mp h).2
      · obtain ⟨_, _, read, rfl, -, h⟩ := Prog.run_bind_ok h
        split at h
        · cases (Prog.run_ret.mp h).2
        · obtain ⟨_, _, report, rfl, hreport, hret⟩ := Prog.run_bind_ok h
          obtain ⟨rfl, hout⟩ := Prog.run_ret.mp hret
          obtain rfl := Preflight.report.inj (Except.ok.inj hout)
          obtain ⟨front, planning, disks, rfl, hplan⟩ := run_preflightReport hreport
          intro e he hcommon
          exact (run_planDisks hplan e he hcommon).mono (by simp +contextual)

theorem uses_readZfsStorages (host : Host) :
    (readZfsStorages host).Uses (fun q => sendsStream q = false) := by
  refine Prog.Uses.bind ⟨rfl, fun _ => trivial⟩ (fun r => ?_)
  split
  · exact ⟨rfl, fun _ => trivial⟩
  · trivial

theorem uses_planDisks (vmid : Str) (disks : List Disk) :
    (planDisks source target vmid targetRoot newVmid disks).Uses
      (fun q => sendsStream q = false) := by
  induction disks with
  | nil => trivial
  | cons d disks ih =>
    have hdisk : (planDisk source target vmid targetRoot newVmid d).Uses
        (fun q => sendsStream q = false) := by
      refine Prog.Uses.bind ⟨rfl, fun _ => trivial⟩ (fun present => ?_)
      refine Prog.Uses.bind ?_ (fun _ => trivial)
      unfold findCommon
      split
      · exact ⟨rfl, fun _ => ⟨rfl, fun _ => trivial⟩⟩
      · trivial
    exact hdisk.bind (fun _ => ih.bind (fun _ => trivial))

/-- A preflight sends no stream. -/
theorem uses_preflight : (preflight source target vmid gtype targetRoot newVmid targetStorage).Uses
    (fun q => sendsStream q = false) := by
  have hread : ∀ (host : Host) (vmid : Str), (readGuestConfig host vmid gtype).Uses
      (fun q => sendsStream q = false) := by
    intro host vmid
    refine (uses_readGuestConfig host vmid gtype).mono ?_
    rintro r ⟨path, rfl⟩
    rfl
  have hdisks : ∀ text, (discoverGuestDisks source gtype text).Uses
      (fun q => sendsStream q = false) := by
    intro text
    refine (uses_discoverDisks source _).mono ?_
    rintro r (⟨volid, rfl⟩ | ⟨ds, rfl⟩) <;> rfl
  have hused : ∀ id, (vmidInUse target id).Uses (fun q => sendsStream q = false) := by
    intro id
    refine (uses_vmidInUse target id).mono ?_
    rintro r ⟨n, rfl⟩
    rfl
  have hpush : ∀ pull, (probePush source target pull).Uses (fun q => sendsStream q = false) := by
    intro pull
    unfold probePush
    split
    · trivial
    · exact ⟨rfl, fun _ => trivial⟩
  unfold preflight
  split
  · trivial
  · split
    · trivial
    · split
      · trivial
      · refine (hread _ _).bind (fun cfg => ?_)
        cases cfg with
        | error e => trivial
        | ok cfg =>
          refine Prog.Uses.bind ?_ (fun _ => trivial)
          refine (hdisks _).bind (fun disc => ?_)
          refine Prog.Uses.bind ⟨rfl, fun _ => trivial⟩ (fun running => ?_)
          refine (hused _).bind (fun used => ?_)
          refine Prog.Uses.bind ⟨rfl, fun _ => trivial⟩ (fun root => ?_)
          refine (uses_readZfsStorages target).bind (fun storages => ?_)
          refine Prog.Uses.bind ⟨rfl, fun _ => trivial⟩ (fun bridges => ?_)
          refine Prog.Uses.bind ⟨rfl, fun _ => trivial⟩ (fun pull => ?_)
          exact (hpush pull).bind (fun push => (uses_planDisks _ _).bind (fun _ => trivial))

end Plan

/-- Without a stream the target stays as it is. -/
theorem eq_of_quiet {target : Host} {w w' : TargetPool} {tr : PoolTrail}
    (hpath : (poolEnv target).Path w tr w')
    (hquiet : ∀ entry ∈ answered tr, sendsStream entry.1 = false) :
    (∀ e u, (e, u) ∈ tr → u = w) ∧ w' = w := by
  refine hpath.preserves (I := fun u => u = w) rfl ?_
  rintro e u hmem u₀ rfl hstep
  cases e with
  | move m => exact m.elim
  | request q a =>
    have hq := hquiet (q, a) (mem_answered.mpr ⟨u, hmem⟩)
    obtain ⟨host, cmd⟩ := q
    cases cmd with
    | sendRecv t => cases hq
    | zfsListName ds => exact hstep.1
    | _ => exact hstep

/-- The plan of a preflight has no common snapshot for a disk that is absent
on the target. -/
theorem commonSnapshot_of_absent {source target : Host} {vmid gtype targetRoot targetStorage : Str}
    {newVmid : Option Str} {w w' : TargetPool} {tr : PoolTrail} {r : PreflightReport}
    (hpath : (poolEnv target).Path w tr w')
    (hrun : Drives (preflight source target vmid gtype targetRoot newVmid targetStorage) tr
      (.ok (.report r))) {e : PlanEntry} (he : e ∈ r.plan) (habsent : w e.targetDataset = none) :
    e.commonSnapshot = [] := by
  by_contra hcommon
  obtain ⟨a, hmem, hlisted⟩ := run_preflight hrun e he hcommon
  obtain ⟨pre, post, heq⟩ := List.append_of_mem hmem
  obtain ⟨t₁, u, t₂, rfl, hpre, -⟩ := exists_split heq
  obtain ⟨hfront, hstep, -⟩ := hpath.cut
  have hquiet : ∀ entry ∈ answered t₁, sendsStream entry.1 = false := by
    intro entry hentry
    exact Prog.Uses.sound uses_preflight hrun entry (by simp [hentry])
  rw [(eq_of_quiet hfront hquiet).2] at hstep
  exact hstep.2 rfl habsent hlisted

/-! ## Sessions -/

/-- One pre-copy of a session. -/
structure PrecopyRun where
  snapName : Str
  pull : Bool
  trail : PoolTrail

/-- A preflight, some pre-copies of its plan that succeed, and the cutover
`q`.  The disks of the guest are absent on the target at the start. -/
structure DeltaSession (source target : Host) (q : CutoverRequest) where
  targetRoot : Str
  targetStorage : Str
  report : PreflightReport
  start : TargetPool
  planning : PoolTrail
  first : PrecopyRun
  precopies : List PrecopyRun
  cutover : PoolTrail
  outcome : Except Exn CutoverResult
  finish : TargetPool
  path : (poolEnv target).Path start
    (planning ++ (first :: precopies).flatMap PrecopyRun.trail ++ cutover) finish
  planned : Drives (preflight source target q.vmid q.gtype targetRoot q.newVmid targetStorage)
    planning (.ok (.report report))
  plan : q.plan = report.plan.map PlanEntry.toItem
  absent : ∀ e ∈ report.plan, start e.targetDataset = none
  precopied : ∀ run ∈ first :: precopies, ∃ r,
    Drives (precopyJob source target q.plan run.pull run.snapName) run.trail (.ok r) ∧
      r.success = true
  finished : Drives (cutoverJob source target q) cutover outcome

/-- The streams of the log have the base. -/
def SendsFrom (base : Str) (log : Log) : Prop :=
  ∀ entry ∈ log, ∀ t, entry.1.cmd = .sendRecv t → t.baseSnapshot = some base

/-- Each run sends from the snapshot of the run before it. -/
def DeltaChain : Str → List (Str × Log) → Prop
  | _, [] => True
  | base, (snapName, log) :: runs => SendsFrom base log ∧ DeltaChain snapName runs

namespace DeltaSession

variable {source target : Host} {q : CutoverRequest} (s : DeltaSession source target q)

/-- The runs after the first one, each with its snapshot. -/
def later : List (Str × Log) :=
  s.precopies.map (fun run => (run.snapName, answered run.trail)) ++
    [(q.snapName, answered s.cutover)]

/-- Each run after the first one sends from the snapshot of the run before
it. -/
def SendsDeltas : Prop := DeltaChain s.first.snapName s.later

end DeltaSession

/-- A log whose streams carry entries without a common snapshot. -/
theorem full_of_carries {plan : List PlanItem} {log : Log}
    (hplan : ∀ p ∈ plan, p.commonSnapshot = []) (h : EachRequest (CarriesPlan plan) log) :
    ∀ entry ∈ log, ∀ t, entry.1.cmd = .sendRecv t → t.baseSnapshot = none := by
  intro entry hentry t ht
  obtain ⟨pre, post, heq⟩ := List.append_of_mem hentry
  obtain ⟨p, hp, -, hbase⟩ := h pre entry.1 entry.2 post heq t ht
  rw [hbase, PlanItem.base, if_pos (hplan p (List.mem_of_getElem? hp))]

/-- A log whose streams are full has a base for them only if it has none. -/
theorem sendsFrom_iff {base : Str} {log : Log}
    (hfull : ∀ entry ∈ log, ∀ t, entry.1.cmd = .sendRecv t → t.baseSnapshot = none) :
    SendsFrom base log ↔ ∀ entry ∈ log, sendsStream entry.1 = false := by
  constructor
  · intro h entry hentry
    unfold sendsStream
    split
    · next t ht =>
      have hbase := h entry hentry t ht
      rw [hfull entry hentry t ht] at hbase
      cases hbase
    · rfl
  · intro h entry hentry t ht
    have hquiet := h entry hentry
    rw [sendsStream, ht] at hquiet
    cases hquiet

theorem deltaChain_iff {base : Str} {runs : List (Str × Log)}
    (hfull : ∀ run ∈ runs, ∀ entry ∈ run.2, ∀ t, entry.1.cmd = .sendRecv t →
      t.baseSnapshot = none) :
    DeltaChain base runs ↔ ∀ run ∈ runs, ∀ entry ∈ run.2, sendsStream entry.1 = false := by
  induction runs generalizing base with
  | nil => simp [DeltaChain]
  | cons run runs ih =>
    obtain ⟨snapName, log⟩ := run
    rw [DeltaChain, List.forall_mem_cons,
      ih (fun run hrun => hfull run (List.mem_cons_of_mem _ hrun)),
      sendsFrom_iff (hfull (snapName, log) List.mem_cons_self)]

namespace DeltaSession

variable {source target : Host} {q : CutoverRequest}

theorem commonSnapshot_eq (s : DeltaSession source target q) :
    ∀ p ∈ q.plan, p.commonSnapshot = [] := by
  intro p hp
  rw [s.plan] at hp
  obtain ⟨e, he, rfl⟩ := List.mem_map.mp hp
  obtain ⟨w, hfront, -⟩ := Env.path_append.mp s.path
  obtain ⟨w', hplanning, -⟩ := Env.path_append.mp hfront
  exact commonSnapshot_of_absent hplanning s.planned he (s.absent e he)

/-- Every stream after the first run is a full one. -/
theorem full_later (s : DeltaSession source target q) : ∀ run ∈ s.later, ∀ entry ∈ run.2, ∀ t,
    entry.1.cmd = .sendRecv t → t.baseSnapshot = none := by
  intro run hrun
  rcases List.mem_append.mp hrun with hrun | hrun
  · obtain ⟨precopy, hmem, rfl⟩ := List.mem_map.mp hrun
    obtain ⟨r, hdrives, -⟩ := s.precopied precopy (List.mem_cons_of_mem _ hmem)
    have hmeets := meets_runTransfer source target q.plan precopy.pull precopy.snapName
      (show streams ([] : Log) = 0 from rfl)
    exact full_of_carries s.commonSnapshot_eq (hmeets.sound hdrives).1
  · obtain rfl := List.mem_singleton.mp hrun
    exact full_of_carries s.commonSnapshot_eq
      ((meets_cutoverJob source target q).sound s.finished).1

end DeltaSession

/-- The runs after the first pre-copy send deltas if and only if they send
nothing. -/
theorem sends_deltas_iff {source target : Host} {q : CutoverRequest}
    (s : DeltaSession source target q) :
    s.SendsDeltas ↔ ∀ run ∈ s.later, ∀ entry ∈ run.2, sendsStream entry.1 = false :=
  deltaChain_iff s.full_later

/-! ## The end of a session -/

/-- The first stream of a transfer that succeeds. -/
theorem run_runTransfer_first {source target : Host} {p : PlanItem} {plan : List PlanItem}
    {pull : Bool} {snapName : Str} {log : Log} {r : TransferRun}
    (h : (runTransfer source target (p :: plan) pull snapName).Run log (.ok r))
    (hsuccess : r.success = true) :
    ∃ driver t a, ((⟨driver, .sendRecv t⟩ : Request), a) ∈ log ∧
      p.targetDataset = some t.targetDataset ∧ t.baseSnapshot = p.base ∧ streamDone a = true := by
  obtain ⟨l₁, _, datasets, rfl, -, h⟩ := Prog.run_bind_ok h
  obtain ⟨l₂, _, snaps, rfl, -, h⟩ := Prog.run_bind_ok h
  dsimp only at h
  split at h
  · have hout := (Prog.run_ret.mp h).2
    rw [Except.ok.inj hout] at hsuccess
    cases hsuccess
  · obtain ⟨l₃, _, src, rfl, -, h⟩ := Prog.run_bind_ok h
    obtain ⟨l₄, _, tgt, rfl, htgt, h⟩ := Prog.run_bind_ok h
    obtain ⟨l₅, l₆, res, rfl, hdisk, h⟩ := Prog.run_bind_ok h
    have hres : res.success = true := by
      by_contra hfailed
      rw [if_neg hfailed] at h
      have hout := (Prog.run_ret.mp h).2
      rw [Except.ok.inj hout] at hsuccess
      cases hsuccess
    obtain ⟨_, _, a, rfl, hsend, hcode⟩ := Prog.run_bind_ok hdisk
    obtain ⟨_, rfl, heq⟩ := run_runCommand.mp hsend
    obtain rfl := Except.ok.inj heq
    obtain ⟨_, _, code, rfl, hexit, hret⟩ := Prog.run_bind_ok hcode
    obtain ⟨rfl, hout⟩ := Prog.run_ret.mp hret
    rw [Except.ok.inj hout, (run_parseExitMarker hexit).2] at hres
    exact ⟨if pull then target else source, transferOf source target src tgt snapName p.base pull,
      a, by simp, (run_getKey htgt).2, rfl, hres⟩

/-- A cutover that succeeds contains a transfer that does. -/
theorem run_cutoverJob_moved {source target : Host} {q : CutoverRequest} {log : Log}
    {r : CutoverSuccess} (h : (cutoverJob source target q).Run log (.ok (.ok r))) :
    ∃ front moving rest res, log = front ++ (moving ++ rest) ∧
      (runTransfer source target q.plan q.pull q.snapName).Run moving (.ok res) ∧
      res.success = true := by
  obtain ⟨l₁, _, used, rfl, -, h⟩ := Prog.run_bind_ok h
  split at h
  · cases (Prog.run_ret.mp h).2
  · obtain ⟨l₂, _, cfg, rfl, -, h⟩ := Prog.run_bind_ok h
    cases cfg with
    | error e => cases (Prog.run_ret.mp h).2
    | ok cfg =>
      obtain ⟨l₃, _, stopped, rfl, -, h⟩ := Prog.run_bind_ok h
      split at h
      · cases (Prog.run_ret.mp h).2
      · obtain ⟨moving, rest, res, rfl, hmoving, h⟩ := Prog.run_bind_ok h
        split at h
        · cases (Prog.run_ret.mp h).2
        · next hsuccess =>
          rw [not_not] at hsuccess
          exact ⟨l₁ ++ l₂ ++ l₃, moving, rest, res, by simp, hmoving, hsuccess⟩

namespace DeltaSession

variable {source target : Host} {q : CutoverRequest}

/-- The target after the first pre-copy has a snapshot of the first disk, and
the session goes on from there. -/
theorem exists_seeded (s : DeltaSession source target q) {p : PlanItem} {plan : List PlanItem}
    (hplan : q.plan = p :: plan) :
    ∃ ds w, p.targetDataset = some ds ∧ Seeded ds w ∧
      (poolEnv target).Path w (s.precopies.flatMap PrecopyRun.trail ++ s.cutover) s.finish := by
  obtain ⟨r, hdrives, hsuccess⟩ := s.precopied s.first List.mem_cons_self
  rw [hplan] at hdrives
  obtain ⟨driver, t, a, hmem, htarget, hbase, hdone⟩ := run_runTransfer_first hdrives hsuccess
  obtain ⟨u, hpath, hcutover⟩ := Env.path_append.mp s.path
  obtain ⟨v, -, hruns⟩ := Env.path_append.mp hpath
  obtain ⟨w, hfirst, hprecopies⟩ := Env.path_append.mp hruns
  have hfull : t.baseSnapshot = none := by
    rw [hbase, PlanItem.base, if_pos (s.commonSnapshot_eq p (by simp [hplan]))]
  exact ⟨t.targetDataset, w, htarget, seeded_of_filled hfirst hmem ⟨t, rfl, rfl, hfull⟩ hdone,
    Env.path_append.mpr ⟨u, hprecopies, hcutover⟩⟩

/-- No later transfer of the plan succeeds. -/
theorem not_transferred (s : DeltaSession source target q) {p : PlanItem} {plan : List PlanItem}
    (hplan : q.plan = p :: plan) {pull : Bool} {snapName : Str} {log : Log} {r : TransferRun}
    (hrun : (runTransfer source target q.plan pull snapName).Run log (.ok r))
    (hlater : ∀ entry ∈ log,
      entry ∈ answered (s.precopies.flatMap PrecopyRun.trail ++ s.cutover)) :
    r.success = false := by
  by_contra hsuccess
  rw [Bool.not_eq_false] at hsuccess
  obtain ⟨ds, w, hds, hseeded, hpath⟩ := s.exists_seeded hplan
  rw [hplan] at hrun
  obtain ⟨driver, t, a, hmem, htarget, hbase, hdone⟩ := run_runTransfer_first hrun hsuccess
  rw [hds, Option.some_inj] at htarget
  have hfull : t.baseSnapshot = none := by
    rw [hbase, PlanItem.base, if_pos (s.commonSnapshot_eq p (by simp [hplan]))]
  rw [not_filled hpath hseeded (hlater _ hmem) ⟨t, rfl, htarget.symm, hfull⟩] at hdone
  cases hdone

/-- A session of a guest with disks ends with its first run: no other
pre-copy and no cutover succeeds after it. -/
theorem ends_with_first (s : DeltaSession source target q) (hplan : q.plan ≠ []) :
    s.precopies = [] ∧ ∀ r, s.outcome ≠ .ok (.ok r) := by
  obtain ⟨p, plan, hcons⟩ := List.exists_cons_of_ne_nil hplan
  constructor
  · by_contra hne
    obtain ⟨run, runs, hruns⟩ := List.exists_cons_of_ne_nil hne
    obtain ⟨r, hdrives, hsuccess⟩ := s.precopied run (by simp [hruns])
    rw [s.not_transferred hcons hdrives (by simp +contextual [hruns])] at hsuccess
    cases hsuccess
  · intro r hout
    have hfinished := s.finished
    rw [hout] at hfinished
    obtain ⟨front, moving, rest, res, hlog, hmoving, hsuccess⟩ := run_cutoverJob_moved hfinished
    rw [s.not_transferred hcons hmoving (by simp +contextual [hlog])] at hsuccess
    cases hsuccess

end DeltaSession

/-! ## A session of one disk -/

/-- The target before the session: its root exists, and nothing below it. -/
def poolEmpty : TargetPool := fun ds => if ds = "tank" then some [] else none

/-- The full stream of the plan of one disk. -/
def fullStream (snapName : Str) : Transfer :=
  transferOf hostA hostB "rpool/data/vm-100-disk-0" "tank/vm-100-disk-0" snapName none true

/-- The target after a pre-copy. -/
def poolSeeded : TargetPool := poolEmpty.receive (fullStream "migrate-0")

/-- The log of the preflight. -/
def planningLog : Log :=
  [(⟨hostA, .catFile "/etc/pve/qemu-server/100.conf"⟩, prints (configOne ++ "\n")),
    (⟨hostA, .pvesmPath "local-zfs:vm-100-disk-0"⟩, prints "/dev/zvol/rpool/data/vm-100-disk-0\n"),
    (⟨hostA, .zfsListUsed "rpool/data/vm-100-disk-0"⟩, prints "rpool/data/vm-100-disk-0\t4G\n"),
    (⟨hostA, .guestStatus .qm "100"⟩, prints "status: running\n"),
    (⟨hostB, .vmidProbe 100⟩, prints "__FREE__\n"),
    (⟨hostB, .zfsListName "tank"⟩, prints "tank\n"),
    (⟨hostB, .catFile "/etc/pve/storage.cfg"⟩,
      prints "zfspool: local-zfs\n\tpool tank\n\tcontent images,rootdir\n"),
    (⟨hostB, .hostname⟩, prints "pve2\n"), (⟨hostB, .lsNet⟩, prints "vmbr0\n"),
    (⟨hostB, .sshProbe hostA.ref⟩, prints "__SSH_OK__\n"),
    (⟨hostB, .zfsListName "tank/vm-100-disk-0"⟩, noAnswer)]

/-- The log of a pre-copy. -/
def precopyZero : Log :=
  [(⟨hostA, .zfsSnapshot "rpool/data/vm-100-disk-0" "migrate-0"⟩, prints []),
    (⟨hostB, .sendRecv (fullStream "migrate-0")⟩, prints "__exit=0\n")]

/-- The log of the cutover after it: its stream is refused. -/
def refusedLog : Log :=
  [(⟨hostB, .vmidProbe 100⟩, prints "__FREE__\n"),
    (⟨hostA, .catFile "/etc/pve/qemu-server/100.conf"⟩, prints (configOne ++ "\n")),
    (⟨hostA, .guestShutdown .qm "100" 120⟩, prints []),
    (⟨hostA, .guestStatus .qm "100"⟩, prints "status: stopped\n"),
    (⟨hostA, .zfsSnapshot "rpool/data/vm-100-disk-0" "migrate-1"⟩, prints []),
    (⟨hostB, .sendRecv (fullStream "migrate-1")⟩,
      prints "cannot receive new filesystem stream: destination has snapshots\n__exit=1\n")]

/-- The trails of the three jobs. -/
def planningTrail : PoolTrail := withStates planningLog (List.replicate 11 poolEmpty)

@[inherit_doc planningTrail] def precopyTrail : PoolTrail :=
  withStates precopyZero [poolEmpty, poolSeeded]

@[inherit_doc planningTrail] def refusedTrail : PoolTrail :=
  withStates refusedLog (List.replicate 6 poolSeeded)

theorem path_planningTrail : (poolEnv hostB).Path poolEmpty planningTrail poolEmpty := by
  refine ⟨rfl, rfl, rfl, rfl, rfl, ⟨rfl, fun _ h => ?_⟩, rfl, rfl, rfl, rfl,
    ⟨rfl, fun _ _ => ?_⟩, rfl⟩
  · cases h
  · decide

theorem path_precopyTrail : (poolEnv hostB).Path poolEmpty precopyTrail poolSeeded := by
  refine ⟨rfl, Or.inl ⟨?_, rfl⟩, rfl⟩
  intro snaps h
  cases h

theorem path_refusedTrail : (poolEnv hostB).Path poolSeeded refusedTrail poolSeeded :=
  ⟨rfl, rfl, rfl, rfl, rfl, Or.inr ⟨by decide, rfl⟩, rfl⟩

/-- The pre-copy succeeds. -/
def transferred : Except Exn TransferRun → Bool
  | .ok r => r.success
  | .error _ => false

theorem exists_planning : ∃ r, Drives
    (preflight hostA hostB "100" "qemu" "tank" none "local-zfs")
      planningTrail (.ok (.report r)) ∧
    r.plan.map PlanEntry.toItem = cutoverOne.plan := by
  obtain ⟨o, hrun, htest⟩ :
      ∃ o, (preflight hostA hostB "100" "qemu" "tank" none "local-zfs").Run planningLog o ∧
        clearsCutover o = true :=
    Prog.exists_run_of_test clearsCutover (planningLog.map Prod.snd) (by decide +kernel)
  match o with
  | .ok (.report r) =>
    simp only [clearsCutover, Bool.and_eq_true, decide_eq_true_eq] at htest
    exact ⟨r, hrun, htest.2⟩

theorem exists_precopy : ∃ r, Drives (precopyJob hostA hostB cutoverOne.plan true "migrate-0")
    precopyTrail (.ok r) ∧ r.success = true := by
  obtain ⟨o, hrun, htest⟩ :
      ∃ o, (precopyJob hostA hostB cutoverOne.plan true "migrate-0").Run precopyZero o ∧
        transferred o = true :=
    Prog.exists_run_of_test transferred (precopyZero.map Prod.snd) (by decide +kernel)
  match o with
  | .ok r => exact ⟨r, hrun, htest⟩

theorem exists_refused : ∃ o, Drives (cutoverJob hostA hostB cutoverOne)
    refusedTrail o :=
  Prog.exists_run_of_transcript (refusedLog.map Prod.snd) (by decide +kernel)

/-- The cutover after a pre-copy sends a full stream. -/
theorem second_full : ¬ ∀ (source target : Host) (q : CutoverRequest)
    (s : DeltaSession source target q), s.SendsDeltas := by
  intro h
  obtain ⟨report, hplanned, hplan⟩ := exists_planning
  obtain ⟨o, hrefused⟩ := exists_refused
  have habsent : ∀ e ∈ report.plan, poolEmpty e.targetDataset = none := by
    intro e he
    have hitem : e.toItem ∈ cutoverOne.plan := hplan ▸ List.mem_map_of_mem he
    have hname := congrArg PlanItem.targetDataset (List.mem_singleton.mp hitem)
    obtain hname : e.targetDataset = "tank/vm-100-disk-0" := Option.some.inj hname
    rw [hname]
    decide
  let s : DeltaSession hostA hostB cutoverOne :=
    { targetRoot := "tank", targetStorage := "local-zfs", report := report, start := poolEmpty
      planning := planningTrail
      first := ⟨"migrate-0", true, precopyTrail⟩
      precopies := []
      cutover := refusedTrail
      outcome := o
      finish := poolSeeded
      path := by
        refine Env.path_append.mpr ⟨poolSeeded, Env.path_append.mpr ⟨poolEmpty, ?_, ?_⟩, ?_⟩
        · exact path_planningTrail
        · simpa using path_precopyTrail
        · exact path_refusedTrail
      planned := hplanned
      plan := hplan.symm
      absent := habsent
      precopied := by
        intro run hrun
        obtain rfl := List.mem_singleton.mp hrun
        exact exists_precopy
      finished := hrefused }
  have hsends : SendsFrom "migrate-0" refusedLog := (h hostA hostB cutoverOne s).1
  have hbase := hsends refusedLog[5] (List.getElem_mem (by decide)) (fullStream "migrate-1") rfl
  cases hbase

end PveZfsTool
