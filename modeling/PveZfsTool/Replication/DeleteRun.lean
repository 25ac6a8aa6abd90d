import PveZfsTool.Replication.Delete

/-!
# Where a destroyed name comes from

`delete_config` and the jobs of its tasks destroy only names that a listing
gave them, and each looks at a listing of its own.

* `meets_deleteConfig`: without a task, the listing of the whole target.
* `meets_snapshotJob`: in a task, the listing of a branch.
* `meets_childrenJob`: for the replicas, the listing of the children.
-/

namespace PveZfsTool.Replication

open Dialogue Text

/-! ## The requests -/

/-- A request that destroys nothing. -/
def Quiet (q : PurgeRequest) : Prop :=
  (∀ name, q.cmd ≠ .destroySnapshot name) ∧ ∀ ds, q.cmd ≠ .destroyTree ds

theorem quiet_repl {host : Host} {cmd : ReplCmd} : Quiet ⟨host, .repl cmd⟩ := by
  constructor
  · intro name h
    cases h
  · intro ds h
    cases h

theorem quiet_list {host : Host} {root : Str} : Quiet ⟨host, .listSnapshots root⟩ := by
  constructor
  · intro name h
    cases h
  · intro ds h
    cases h

/-- The target of a config text. -/
def configTarget (text : Str) : Str := strip ((parseConfig text).values.getD "target")

/-- The target that an answer to `cat` gives. -/
def readTarget (r : Answer) : Str :=
  if !r.success || r.stdout = [] then [] else configTarget r.stdout

section Histories

variable {h h' : History PurgeRequest Answer} {call : DeleteCall} {host : Host} {target : Str}

/-- The config was read, and this is its target. -/
def ReadsTarget (call : DeleteCall) (h : History PurgeRequest Answer) (target : Str) : Prop :=
  ∃ r, (⟨call.host, .repl (.catFile (configPathFor call.source))⟩, r) ∈ h ∧ target = readTarget r

/-- The request destroys a listed snapshot, without a task. -/
def PurgesNow (call : DeleteCall) (h : History PurgeRequest Answer) (q : PurgeRequest) : Prop :=
  call.purgeSnapshots = true ∧ call.purgeAsync = false ∧
    ∃ target listing name, ReadsTarget call h target ∧ targetError target = none ∧
      (⟨call.host, .listSnapshots target⟩, listing) ∈ h ∧ name ∈ splitLines listing.stdout ∧
        isSnapshotName name = true ∧ q = ⟨call.host, .destroySnapshot name⟩

/-- The pools of a task come from an answer of the source host. -/
def PoolsFrom (call : DeleteCall) (h : History PurgeRequest Answer) (sources : SourcePools) : Prop :=
  sources.success = true → call.sourceHost.isSome = true ∧
    ∃ host a, (⟨host, .listPools⟩, a) ∈ h ∧ a.success = true ∧ sources.pools = strippedLines a.stdout

/-- What a task that a deletion starts is started with. -/
structure Launched (call : DeleteCall) (h : History PurgeRequest Answer) (task : PurgeTask) :
    Prop where
  host : task.host = call.host
  read : ReadsTarget call h task.target
  accepted : targetError task.target = none
  pools : PoolsFrom call h task.sources

theorem ReadsTarget.append (hread : ReadsTarget call h target) : ReadsTarget call (h ++ h') target := by
  obtain ⟨r, hmem, htarget⟩ := hread
  exact ⟨r, List.mem_append_left _ hmem, htarget⟩

theorem PoolsFrom.append {sources : SourcePools} (hpools : PoolsFrom call h sources) :
    PoolsFrom call (h ++ h') sources := by
  intro hsuccess
  obtain ⟨hhost, host, a, hmem, hanswer⟩ := hpools hsuccess
  exact ⟨hhost, host, a, List.mem_append_left _ hmem, hanswer⟩

theorem Launched.append {task : PurgeTask} (hlaunched : Launched call h task) :
    Launched call (h ++ h') task where
  host := hlaunched.host
  read := hlaunched.read.append
  accepted := hlaunched.accepted
  pools := hlaunched.pools.append

/-- What `delete_config` asks for. -/
def Asks (call : DeleteCall) (h : History PurgeRequest Answer) (q : PurgeRequest) : Prop :=
  Quiet q ∨ PurgesNow call h q

/-- The rule for the quiet parts. -/
theorem Quiet.meets {α : Type} {p : PurgeJob α} (hp : p.Uses Quiet) :
    p.Meets (Asks call) (fun h' _ => ∃ ext, h' = h ++ ext) h := by
  refine (hp.meets (fun ext q _ hq => .inl hq)).mono ?_
  intro h' o hpost
  obtain ⟨ext, heq, -⟩ := hpost
  exact ⟨ext, heq⟩

theorem uses_onHost {α : Type} (p : ReplJob α) : (onHost host p).Uses Quiet :=
  ((Prog.uses_true p).mono (fun _ _ => quiet_repl)).relabel

theorem uses_cronStep : (cronStep call).Uses Quiet := by
  refine (uses_onHost _).attempt.bind (fun removed => ?_)
  cases removed with
  | ok r => trivial
  | error e => trivial

theorem uses_removeConfigFile {path : Str} : (removeConfigFile host path).Uses Quiet := by
  refine Prog.Uses.bind (p := runPurge host (.moveConfig path))
    ⟨⟨by simp, by simp⟩, fun _ => trivial⟩ (fun rm => ?_)
  split_ifs
  all_goals trivial

theorem uses_configStep {cfg : ConfigRead} : (configStep call cfg).Uses Quiet := by
  unfold configStep
  split
  · exact uses_removeConfigFile
  · trivial

/-- The loop destroys names that passed the check. -/
theorem uses_destroyEach {cmd : Str → PurgeCmd} {valid : Str → Bool} {limit cut : Nat}
    {d : Destroyed} {names : List Str} :
    (destroyEach host cmd valid limit cut d names).Uses
      (fun q => ∃ name ∈ names, valid name = true ∧ q = ⟨host, cmd name⟩) := by
  induction names generalizing d with
  | nil => trivial
  | cons name names ih =>
    have hlater : ∀ q, (∃ n ∈ names, valid n = true ∧ q = ⟨host, cmd n⟩) →
        ∃ n ∈ name :: names, valid n = true ∧ q = (⟨host, cmd n⟩ : PurgeRequest) := by
      intro q ⟨n, hn, hvalid⟩
      exact ⟨n, List.mem_cons_of_mem _ hn, hvalid⟩
    rw [destroyEach]
    by_cases hvalid : valid name = true
    · rw [if_neg (by simp [hvalid])]
      exact ⟨⟨name, List.mem_cons_self, hvalid, rfl⟩, fun rd => ih.mono hlater⟩
    · rw [if_pos (by simp [hvalid])]
      exact ih.mono hlater

/-- A loop whose names come from listings asks for nothing else. -/
theorem meets_destroyEach {G : History PurgeRequest Answer → PurgeRequest → Prop}
    {cmd : Str → PurgeCmd} {valid : Str → Bool} {limit cut : Nat} {d : Destroyed} {names : List Str}
    (hG : ∀ ext, ∀ name ∈ names, valid name = true → G (h ++ ext) ⟨host, cmd name⟩) :
    (destroyEach host cmd valid limit cut d names).Meets G (fun h' _ => ∃ ext, h' = h ++ ext) h := by
  refine (uses_destroyEach.meets (fun ext q _ hq => ?_)).mono (fun h' o hpost => ?_)
  · obtain ⟨name, hname, hvalid, rfl⟩ := hq
    exact hG ext name hname hvalid
  · obtain ⟨ext, rfl, -⟩ := hpost
    exact ⟨ext, rfl⟩

/-! ## The caller -/

theorem meets_sourcePoolNames :
    (sourcePoolNames call.sourceHost).Meets (Asks call)
      (fun h' o => (∃ ext, h' = h ++ ext) ∧ ∀ sources, o = .ok sources → PoolsFrom call h' sources)
      h := by
  have hrefused : ∀ (h : History PurgeRequest Answer) (message : Str) {sources : SourcePools},
      (Except.ok ⟨false, [], message⟩ : Except Exn SourcePools) = .ok sources →
        PoolsFrom call h sources := by
    intro h message sources hsources
    cases hsources
    intro hsuccess
    cases hsuccess
  cases hsource : call.sourceHost with
  | none => exact ⟨⟨[], by simp⟩, fun sources hsources => hrefused _ _ hsources⟩
  | some source =>
    refine (Prog.Meets.issue (.inl ⟨by simp, by simp⟩)).bind (fun h' r hpost => ?_)
      (fun h' e hpost => ?_)
    · obtain ⟨r', rfl, heq⟩ := hpost
      cases heq
      dsimp only
      by_cases hsuccess : r.success = true
      · rw [if_neg (by simp [hsuccess])]
        by_cases hnone : strippedLines r.stdout = []
        · rw [if_pos hnone]
          exact ⟨⟨_, rfl⟩, fun sources hsources => hrefused _ _ hsources⟩
        · rw [if_neg hnone]
          refine ⟨⟨_, rfl⟩, fun sources hsources => ?_⟩
          cases hsources
          exact fun _ => ⟨by simp [hsource], source, r, by simp, hsuccess, rfl⟩
      · rw [if_pos (by simp [hsuccess])]
        exact ⟨⟨_, rfl⟩, fun sources hsources => hrefused _ _ hsources⟩
    · obtain ⟨r', -, heq⟩ := hpost
      cases heq

theorem meets_launchPurge (hread : ReadsTarget call h target) (haccepted : targetError target = none) :
    (launchPurge call.host target call.sourceHost).Meets (Asks call)
      (fun h' o => (∃ ext, h' = h ++ ext) ∧ ∀ task, o = .ok task → Launched call h' task) h := by
  unfold launchPurge
  split
  · refine ⟨⟨[], by simp⟩, fun task htask => ?_⟩
    cases htask
  · split
    · refine ⟨⟨[], by simp⟩, fun task htask => ?_⟩
      cases htask
      refine ⟨rfl, hread, haccepted, fun hsuccess => ?_⟩
      cases hsuccess
    · refine Prog.Meets.bind meets_sourcePoolNames (fun h' sources hpost => ?_) (fun h' e hpost => ?_)
      · obtain ⟨⟨ext, rfl⟩, hpools⟩ := hpost
        refine ⟨⟨ext, rfl⟩, fun task htask => ?_⟩
        cases htask
        exact ⟨rfl, hread.append, haccepted, hpools sources rfl⟩
      · refine ⟨hpost.1, fun task htask => ?_⟩
        cases htask

theorem meets_tryLaunch {p : PurgeJob PurgeTask} {label : Str}
    (hp : p.Meets (Asks call)
      (fun h' o => (∃ ext, h' = h ++ ext) ∧ ∀ task, o = .ok task → Launched call h' task) h) :
    (tryLaunch p label).Meets (Asks call)
      (fun h' o => (∃ ext, h' = h ++ ext) ∧
        ∀ r, o = .ok r → ∀ task, r.1 = some task → Launched call h' task) h := by
  refine hp.attempt.bind (fun h' launched hpost => ?_) (fun h' e hpost => ?_)
  · obtain ⟨r, heq, hext, hlaunched⟩ := hpost
    cases heq
    cases launched with
    | ok task =>
      refine ⟨hext, fun r hr task' htask => ?_⟩
      cases hr
      cases htask
      exact hlaunched task rfl
    | error e =>
      refine ⟨hext, fun r hr task' htask => ?_⟩
      cases hr
      cases htask
  · obtain ⟨r, heq, -⟩ := hpost
    cases heq

theorem meets_purgeNow (hsnap : call.purgeSnapshots = true) (hasync : call.purgeAsync = false)
    (hread : ReadsTarget call h target) (haccepted : targetError target = none) :
    (purgeNow call.host target).Meets (Asks call)
      (fun h' o => (∃ ext, h' = h ++ ext) ∧ ∀ step, o = .ok step → step.task = none) h := by
  refine (Prog.Meets.issue (.inl quiet_list)).bind (fun h' r hpost => ?_) (fun h' e hpost => ?_)
  · obtain ⟨listing, rfl, heq⟩ := hpost
    cases heq
    have hloop : (destroyEach call.host .destroySnapshot isSnapshotName 5 120 {}
        ((splitLines r.stdout).filter (fun l => strip l ≠ []))).Meets (Asks call)
          (fun h' _ => ∃ ext, h' = h ++ ext) (h ++ [(⟨call.host, .listSnapshots target⟩, r)]) := by
      refine (meets_destroyEach (fun ext name hname hvalid => ?_)).mono (fun h' o hpost => ?_)
      · refine .inr ⟨hsnap, hasync, target, r, name, hread.append.append, haccepted, by simp, ?_,
          hvalid, rfl⟩
        exact (List.mem_filter.mp hname).1
      · obtain ⟨ext, rfl⟩ := hpost
        exact ⟨_, List.append_assoc _ _ _⟩
    refine hloop.bind (fun h' d hpost => ⟨hpost, fun step hstep => ?_⟩)
      (fun h' e hpost => ⟨hpost, fun step hstep => ?_⟩)
    · cases hstep
      rfl
    · cases hstep
  · obtain ⟨r, -, heq⟩ := hpost
    cases heq

theorem meets_snapshotStep (hread : ReadsTarget call h target) :
    (snapshotStep call target).Meets (Asks call)
      (fun h' o => (∃ ext, h' = h ++ ext) ∧ ∀ step, o = .ok step → ∀ task, step.task = some task →
        call.purgeSnapshots = true ∧ call.purgeAsync = true ∧ Launched call h' task) h := by
  have hplain : ∀ step : SnapshotStep, step.task = none → ∀ step', (Except.ok step : Except Exn _) =
      .ok step' → ∀ task, step'.task = some task →
        call.purgeSnapshots = true ∧ call.purgeAsync = true ∧ Launched call h task := by
    intro step hnone step' hstep task htask
    cases hstep
    rw [hnone] at htask
    cases htask
  unfold snapshotStep
  split
  · exact ⟨⟨[], by simp⟩, hplain _ rfl⟩
  · rename_i hwanted
    have hsnap : call.purgeSnapshots = true := by
      by_contra hoff
      exact hwanted (by simp [hoff])
    split
    · exact ⟨⟨[], by simp⟩, hplain _ rfl⟩
    · rename_i haccepted
      split
      · rename_i hasync
        refine (meets_tryLaunch (meets_launchPurge hread haccepted)).bind (fun h' r hpost => ?_)
          (fun h' e hpost => ⟨hpost.1, fun step hstep => ?_⟩)
        · refine ⟨hpost.1, fun step hstep task htask => ?_⟩
          cases hstep
          exact ⟨hsnap, hasync, hpost.2 r rfl task htask⟩
        · cases hstep
      · rename_i hnow
        refine (meets_purgeNow hsnap (by simpa using hnow) hread haccepted).mono
          (fun h' o hpost => ⟨hpost.1, fun step hstep task htask => ?_⟩)
        rw [hpost.2 step hstep] at htask
        cases htask

theorem meets_childrenStep (hread : ReadsTarget call h target) :
    (childrenStep call target).Meets (Asks call)
      (fun h' o => (∃ ext, h' = h ++ ext) ∧ ∀ r, o = .ok r → ∀ task, r.1 = some task →
        call.purgeChildren = true ∧ Launched call h' task) h := by
  have hplain : ∀ errors : List Str, ∀ r, (Except.ok (none, errors) :
      Except Exn (Option PurgeTask × List Str)) = .ok r → ∀ task, r.1 = some task →
        call.purgeChildren = true ∧ Launched call h task := by
    intro errors r hr task htask
    cases hr
    cases htask
  unfold childrenStep
  split
  · exact ⟨⟨[], by simp⟩, hplain _⟩
  · rename_i hwanted
    have hchildren : call.purgeChildren = true := by
      by_contra hoff
      exact hwanted (by simp [hoff])
    split
    · exact ⟨⟨[], by simp⟩, hplain _⟩
    · rename_i haccepted
      refine (meets_tryLaunch (meets_launchPurge hread haccepted)).mono
        (fun h' o hpost => ⟨hpost.1, fun r hr task htask => ?_⟩)
      exact ⟨hchildren, hpost.2 r hr task htask⟩

/-- The tasks in the result were started for the target of the config. -/
def StartsTasks (call : DeleteCall) (h : History PurgeRequest Answer)
    (o : Except Exn DeleteResult) : Prop :=
  ∀ out, o = .ok out →
    (∀ task, out.purgeTask = some task →
      call.purgeSnapshots = true ∧ call.purgeAsync = true ∧ Launched call h task) ∧
    ∀ task, out.purgeChildrenTask = some task → call.purgeChildren = true ∧ Launched call h task

theorem meets_deleteRead {cfg : ConfigRead} (hread : ReadsTarget call h cfg.target) :
    (deleteRead call cfg).Meets (Asks call) (StartsTasks call) h := by
  have hraise : ∀ h' e, StartsTasks call h' (.error e) := by
    intro h' e out hout
    cases hout
  refine (Quiet.meets uses_cronStep).bind (fun h₁ cron hpost => ?_) (fun h' e _ => hraise h' e)
  obtain ⟨ext₁, rfl⟩ := hpost
  refine (Quiet.meets uses_configStep).bind (fun h₂ config hpost => ?_) (fun h' e _ => hraise h' e)
  obtain ⟨ext₂, rfl⟩ := hpost
  refine (meets_snapshotStep hread.append.append).bind (fun h₃ snaps hpost => ?_)
    (fun h' e _ => hraise h' e)
  obtain ⟨⟨ext₃, rfl⟩, hsnaps⟩ := hpost
  refine (meets_childrenStep hread.append.append.append).bind (fun h₄ children hpost => ?_)
    (fun h' e _ => hraise h' e)
  obtain ⟨⟨ext₄, rfl⟩, hchildren⟩ := hpost
  intro out hout
  cases hout
  refine ⟨fun task htask => ?_, fun task htask => hchildren children rfl task htask⟩
  obtain ⟨hsnap, hasync, hlaunched⟩ := hsnaps snaps rfl task htask
  exact ⟨hsnap, hasync, hlaunched.append⟩

theorem meets_deleteConfig : (deleteConfig call).Meets (Asks call) (StartsTasks call) [] := by
  unfold deleteConfig
  split
  · intro out hout
    cases hout
    refine ⟨fun task htask => ?_, fun task htask => ?_⟩
    · cases htask
    · cases htask
  · have hcfg : (onHost call.host (readConfig call.source)).Meets (Asks call)
        (fun h' o => ∃ cfg, o = .ok cfg ∧ ReadsTarget call h' cfg.target) [] := by
      refine ⟨.inl quiet_repl, fun r => ?_⟩
      show Prog.Meets _ _ (Prog.relabel _ (if _ then _ else _)) _
      split_ifs with hgone
      · exact ⟨_, rfl, r, List.mem_singleton_self _, by rw [readTarget, if_pos hgone]; rfl⟩
      · exact ⟨_, rfl, r, List.mem_singleton_self _, by rw [readTarget, if_neg hgone]; rfl⟩
    refine hcfg.bind (fun h' cfg hpost => ?_) (fun h' e hpost => ?_)
    · obtain ⟨cfg', heq, hread⟩ := hpost
      cases heq
      exact meets_deleteRead hread
    · obtain ⟨cfg', heq, -⟩ := hpost
      cases heq

/-! ## The tasks -/

/-- What the job of `purge_auto_snapshots_async` asks for. -/
def SnapshotAsks (task : PurgeTask) (h : History PurgeRequest Answer) (q : PurgeRequest) : Prop :=
  Quiet q ∨ task.sources.success = true ∧
    ∃ pool ∈ task.sources.pools, atDollar isPoolName pool = true ∧ ∃ listing l,
      (⟨task.host, .listSnapshots (branchOf task.target pool)⟩, listing) ∈ h ∧
        l ∈ splitLines listing.stdout ∧ isSnapshotName (strip l) = true ∧
          q = ⟨task.host, .destroySnapshot (strip l)⟩

/-- What the job of `purge_replica_children_async` asks for. -/
def ChildrenAsks (task : PurgeTask) (h : History PurgeRequest Answer) (q : PurgeRequest) : Prop :=
  Quiet q ∨ task.sources.success = true ∧ ∃ listing l,
    (⟨task.host, .listChildren task.target⟩, listing) ∈ h ∧ l ∈ splitLines listing.stdout ∧
      isPoolChild task.target task.sources.pools l = true ∧ isNestedDataset l = true ∧
        q = ⟨task.host, .destroyTree l⟩

theorem mem_strippedLines {out l : Str} :
    l ∈ strippedLines out ↔ l ≠ [] ∧ ∃ raw ∈ splitLines out, strip raw = l := by
  unfold strippedLines
  rw [List.mem_filter, List.mem_map, decide_eq_true_eq]
  exact and_comm

/-- A name comes from the listing of a branch. -/
def FromBranch (host : Host) (target : Str) (pools : List Str) (h : History PurgeRequest Answer)
    (name : Str) : Prop :=
  ∃ pool ∈ pools, atDollar isPoolName pool = true ∧ ∃ listing l,
    (⟨host, .listSnapshots (branchOf target pool)⟩, listing) ∈ h ∧ l ∈ splitLines listing.stdout ∧
      strip l = name

theorem FromBranch.mono {pools pools' : List Str} {name : Str} (hpools : pools ⊆ pools') (hh : h ⊆ h')
    (hname : FromBranch host target pools h name) : FromBranch host target pools' h' name := by
  obtain ⟨pool, hpool, hvalid, listing, l, hmem, hl⟩ := hname
  exact ⟨pool, hpools hpool, hvalid, listing, l, hh hmem, hl⟩

theorem meets_branchSnapshots {G : History PurgeRequest Answer → PurgeRequest → Prop}
    (hG : ∀ h q, Quiet q → G h q) {pools : List Str} :
    (branchSnapshots host target pools).Meets G
      (fun h' o => (∃ ext, h' = h ++ ext) ∧
        ∀ names, o = .ok names → ∀ name ∈ names, FromBranch host target pools h' name) h := by
  induction pools generalizing h with
  | nil =>
    refine ⟨⟨[], by simp⟩, fun names hnames name hname => ?_⟩
    cases hnames
    cases hname
  | cons pool pools ih =>
    have hlater : ∀ h₀ : History PurgeRequest Answer, (branchSnapshots host target pools).Meets G
        (fun h' o => (∃ ext, h' = h₀ ++ ext) ∧ ∀ names, o = .ok names → ∀ name ∈ names,
          FromBranch host target (pool :: pools) h' name) h₀ := by
      intro h₀
      refine ih.mono (fun h' o hpost => ⟨hpost.1, fun names hnames name hname => ?_⟩)
      exact (hpost.2 names hnames name hname).mono (List.subset_cons_self _ _) (List.Subset.refl _)
    have hextends : ∀ h₁ h₂ : History PurgeRequest Answer, (∃ ext, h₂ = h ++ h₁ ++ ext) →
        ∃ ext, h₂ = h ++ ext := by
      intro h₁ h₂ hext
      obtain ⟨ext, rfl⟩ := hext
      exact ⟨h₁ ++ ext, List.append_assoc _ _ _⟩
    rw [branchSnapshots]
    by_cases hvalid : atDollar isPoolName pool = true
    · rw [if_neg (by simp [hvalid])]
      refine ⟨hG _ _ ⟨by simp, by simp⟩, fun chk => ?_⟩
      show Prog.Meets G _ (if _ then _ else _) _
      split
      · exact (hlater _).mono (fun h' o hpost => ⟨hextends _ _ hpost.1, hpost.2⟩)
      · refine ⟨hG _ _ quiet_list, fun r => ?_⟩
        refine (hlater _).bind (fun h' rest hpost => ?_) (fun h' e hpost => ?_)
        · obtain ⟨⟨ext, rfl⟩, hrest⟩ := hpost
          refine ⟨⟨_, by simp only [List.append_assoc]; rfl⟩, fun names hnames name hname => ?_⟩
          cases hnames
          rcases List.mem_append.mp hname with hhere | hthere
          · obtain ⟨-, raw, hraw, hstrip⟩ := mem_strippedLines.mp hhere
            exact ⟨pool, List.mem_cons_self, hvalid, r, raw, by simp, hraw, hstrip⟩
          · exact hrest rest rfl name hthere
        · obtain ⟨⟨ext, rfl⟩, -⟩ := hpost
          refine ⟨⟨_, by simp only [List.append_assoc]; rfl⟩, fun names hnames => ?_⟩
          cases hnames
    · rw [if_pos (by simp [hvalid])]
      exact hlater h

theorem meets_snapshotJob {task : PurgeTask} :
    task.snapshotJob.Meets (SnapshotAsks task) (fun _ _ => True) [] := by
  unfold PurgeTask.snapshotJob
  split
  · trivial
  · rename_i hsuccess
    refine (meets_branchSnapshots (fun h q hq => .inl hq)).bind (fun h names hpost => ?_)
      (fun _ _ _ => trivial)
    refine (meets_destroyEach (fun ext name hname hvalid => ?_)).bind (fun _ _ _ => trivial)
      (fun _ _ _ => trivial)
    obtain ⟨pool, hpool, hpoolName, listing, l, hmem, hl, rfl⟩ := hpost.2 names rfl name hname
    refine .inr ⟨by simpa using hsuccess, pool, hpool, hpoolName, listing, l, ?_, hl, hvalid, rfl⟩
    exact List.mem_append_left _ hmem

theorem meets_childrenJob {task : PurgeTask} :
    task.childrenJob.Meets (ChildrenAsks task) (fun _ _ => True) [] := by
  unfold PurgeTask.childrenJob
  split
  · trivial
  · rename_i hsuccess
    refine (Prog.Meets.issue (.inl ⟨by simp, by simp⟩)).bind (fun h r hpost => ?_)
      (fun _ _ _ => trivial)
    obtain ⟨listing, rfl, heq⟩ := hpost
    cases heq
    dsimp only
    refine (meets_destroyEach (fun ext name hname hvalid => ?_)).bind (fun _ _ _ => trivial)
      (fun _ _ _ => trivial)
    obtain ⟨hlisted, hchild⟩ := List.mem_filter.mp hname
    refine .inr ⟨by simpa using hsuccess, r, name, by simp, (List.mem_filter.mp hlisted).1, hchild,
      hvalid, rfl⟩

end Histories

end PveZfsTool.Replication
