import PveZfsTool.Migrate.CutoverRun

/-!
# What a transfer may overwrite

A full stream that is received with `zfs recv -F` replaces the dataset it is
received into.  The rule of the module is that a target dataset which exists
and was not created by the migration itself is refused.  `preflight` checks
that, once; the transfers come with later requests and check nothing.

`session_safe_iff` covers any number of pre-copies and cutovers, one after
another, with the host changed by others in between and meanwhile.  It says
exactly which sessions keep the rule: those in which no entry of a plan
without a common snapshot is transferred onto a dataset that was foreign
when the job began, or was created by another party since.  `precopy_foreign`
is a pre-copy that overwrites a foreign dataset.
-/

namespace PveZfsTool

open Dialogue Text

/-! ## The datasets of the target -/

/-- The datasets of the target host, and which of them this migration's
transfers created. -/
structure TargetState where
  present : Str → Bool
  own : Str → Bool

/-- The dataset exists and is not the migration's own. -/
def TargetState.foreign (w : TargetState) (ds : Str) : Bool := w.present ds && !w.own ds

/-- The state after a stream was received into `ds`. -/
def TargetState.receive (w : TargetState) (ds : Str) : TargetState where
  present := Function.update w.present ds true
  own := Function.update w.own ds (w.own ds || !w.present ds)

/-- A dataset of the target that another party created or destroyed. -/
inductive OutsideMove where
  | created (ds : Str)
  | destroyed (ds : Str)
  deriving DecidableEq

/-- A transfer creates its target dataset, or replaces it, or does nothing.
No other command of a migration touches the datasets of the target. -/
def targetEnv : Env TargetState Request Answer OutsideMove where
  respond w q _ w' :=
    match q.cmd with
    | .sendRecv t => w' = w ∨ w' = w.receive t.targetDataset
    | _ => w' = w
  move w m w' :=
    match m with
    | .created ds => w.present ds = false ∧
        w' = ⟨Function.update w.present ds true, Function.update w.own ds false⟩
    | .destroyed ds => w' = ⟨Function.update w.present ds false, Function.update w.own ds false⟩

abbrev TargetTrail := Trail Request Answer OutsideMove TargetState

/-- Whether `ds` is foreign after the moves, if it was at the start. -/
def foreignAfter (ds : Str) : Bool → List OutsideMove → Bool
  | start, [] => start
  | start, .created d :: moves => foreignAfter ds (start || d = ds) moves
  | start, .destroyed d :: moves => foreignAfter ds (start && d ≠ ds) moves

/-- A dataset that nobody creates does not become foreign. -/
theorem foreignAfter_of_not_created {ds : Str} {moves : List OutsideMove}
    (h : .created ds ∉ moves) : foreignAfter ds false moves = false := by
  induction moves with
  | nil => rfl
  | cons m moves ih =>
    have hrest := ih (fun hmem => h (List.mem_cons_of_mem _ hmem))
    cases m with
    | created d =>
      have hd : d ≠ ds := fun heq => h (by simp [heq])
      simpa [foreignAfter, hd] using hrest
    | destroyed d => simpa [foreignAfter] using hrest

/-- A received stream makes no dataset foreign, and no foreign one its own. -/
theorem foreign_receive (w : TargetState) (t ds : Str) :
    (w.receive t).foreign ds = w.foreign ds := by
  by_cases h : ds = t
  · subst h
    simp only [TargetState.foreign, TargetState.receive, Function.update_self]
    cases w.present ds <;> simp
  · simp [TargetState.foreign, TargetState.receive, Function.update_of_ne h]

/-- An answered request makes no dataset foreign. -/
theorem foreign_request {w w' : TargetState} {q : Request} {a : Answer} (ds : Str)
    (h : targetEnv.Step w (.request q a) w') : w'.foreign ds = w.foreign ds := by
  obtain ⟨host, cmd⟩ := q
  cases cmd with
  | sendRecv t =>
    rcases h with rfl | rfl
    · rfl
    · exact foreign_receive w _ ds
  | _ =>
    have hw : w' = w := h
    rw [hw]

/-- Another party makes a dataset foreign when it creates it. -/
theorem foreign_move {w w' : TargetState} {m : OutsideMove} (ds : Str)
    (h : targetEnv.Step w (.move m) w') :
    w'.foreign ds = foreignAfter ds (w.foreign ds) [m] := by
  cases m with
  | created d =>
    obtain ⟨habsent, rfl⟩ := h
    by_cases hd : ds = d
    · simp [TargetState.foreign, foreignAfter, hd]
    · simp [TargetState.foreign, foreignAfter, Function.update_of_ne hd, Ne.symm hd]
  | destroyed d =>
    have hw : w' = ⟨Function.update w.present d false, Function.update w.own d false⟩ := h
    by_cases hd : ds = d
    · simp [hw, TargetState.foreign, foreignAfter, hd]
    · simp [hw, TargetState.foreign, foreignAfter, Function.update_of_ne hd, Ne.symm hd]

/-- Over a run: what is foreign is decided by the start and by the moves of
the other parties. -/
theorem foreign_path {w w' : TargetState} {tr : TargetTrail} (ds : Str)
    (h : targetEnv.Path w tr w') :
    w'.foreign ds = foreignAfter ds (w.foreign ds) (movesOf tr) := by
  induction tr generalizing w with
  | nil =>
    obtain rfl : w = w' := h
    rfl
  | cons step tr ih =>
    obtain ⟨e, w₁⟩ := step
    obtain ⟨hstep, hrest⟩ := h
    cases e with
    | request q a => rw [ih hrest, foreign_request ds hstep, movesOf]
    | move m =>
      rw [ih hrest, foreign_move ds hstep, movesOf]
      cases m <;> rfl

/-! ## The transfers of a job -/

/-- The request sends a stream. -/
def sendsStream (q : Request) : Bool :=
  match q.cmd with
  | .sendRecv _ => true
  | _ => false

/-- The number of streams that were sent. -/
def streams (log : Log) : Nat := log.countP (fun entry => sendsStream entry.1)

/-- A stream carries the entry of the plan whose turn it is. -/
def CarriesPlan (plan : List PlanItem) (pre : Log) (q : Request) : Prop :=
  ∀ t, q.cmd = .sendRecv t → ∃ p, plan[streams pre]? = some p ∧
    p.targetDataset = some t.targetDataset ∧ t.baseSnapshot = p.base

theorem carriesPlan_of_quiet {plan : List PlanItem} {pre : Log} {q : Request}
    (h : sendsStream q = false) : CarriesPlan plan pre q := by
  intro t ht
  simp [sendsStream, ht] at h

theorem streams_append_quiet {log ext : Log} (h : ∀ entry ∈ ext, sendsStream entry.1 = false) :
    streams (log ++ ext) = streams log := by
  have hext : List.countP (fun entry => sendsStream entry.1) ext = 0 := by
    rw [List.countP_eq_zero]
    intro entry hmem
    simp [h entry hmem]
  simp [streams, hext]

/-- A part of a job that sends no stream keeps the count. -/
theorem meets_quiet {α : Type} {plan : List PlanItem} {p : Job α} {log : Log}
    (hp : p.Uses (fun q => sendsStream q = false)) :
    p.Meets (CarriesPlan plan) (fun log' _ => streams log' = streams log) log := by
  refine (hp.meets (fun ext q _ hq => carriesPlan_of_quiet hq)).mono ?_
  rintro log' o ⟨ext, rfl, hext⟩
  exact streams_append_quiet hext

/-- One transfer sends the stream of its entry. -/
theorem meets_transferDisk {plan : List PlanItem} {p : PlanItem} {log : Log}
    (source target : Host) {src tgt : Str} (snapName : Str) (pull : Bool)
    (hp : plan[streams log]? = some p) (htgt : p.targetDataset = some tgt) :
    (transferDisk source target src tgt snapName p.base pull).Meets (CarriesPlan plan)
      (fun log' _ => streams log' = streams log + 1) log := by
  refine ⟨?_, fun a => ?_⟩
  · intro t ht
    simp only [Cmd.sendRecv.injEq] at ht
    exact ⟨p, hp, by rw [htgt, ← ht]; rfl, by rw [← ht]; rfl⟩
  · show Prog.Meets _ _ (parseExitMarker a.stdout >>= _) _
    refine Prog.Meets.bind (meets_quiet (uses_parseExitMarker a.stdout)) ?_ ?_
    · intro log' code hlog'
      rw [Prog.pure_eq, Prog.meets_ret, hlog']
      simp [streams, sendsStream]
    · intro log' error hlog'
      rw [hlog']
      simp [streams, sendsStream]

/-- The transfer loop sends the entries of the plan in their order. -/
theorem meets_transferPlan (source target : Host) (pull : Bool) (snapName : Str)
    (done plan : List PlanItem) (results : List TransferResult) {log : Log}
    (hlog : streams log = done.length) :
    (transferPlan source target pull snapName results plan).Meets (CarriesPlan (done ++ plan))
      (fun _ _ => True) log := by
  induction plan generalizing done results log with
  | nil => trivial
  | cons p plan ih =>
    unfold transferPlan getKey
    cases hsrc : p.sourceDataset with
    | none => trivial
    | some src =>
      cases htgt : p.targetDataset with
      | none => trivial
      | some tgt =>
        have hp : (done ++ p :: plan)[streams log]? = some p := by simp [hlog]
        show Prog.Meets _ _ (transferDisk source target src tgt snapName p.base pull >>= _) _
        refine Prog.Meets.bind (meets_transferDisk source target snapName pull hp htgt) ?_
          (fun _ _ _ => trivial)
        intro log' res hlog'
        split
        · have hdone : streams log' = (done ++ [p]).length := by
            rw [hlog', hlog, List.length_append, List.length_singleton]
          simpa using ih (done ++ [p]) (results ++ [res]) hdone
        · trivial

theorem uses_snapshotAll_quiet (host : Host) (snapName : Str) (datasets : List Str) :
    (snapshotAll host snapName datasets).Uses (fun q => sendsStream q = false) := by
  induction datasets with
  | nil => trivial
  | cons ds rest ih =>
    exact ⟨rfl, fun _ => ih.bind (fun _ => trivial)⟩

theorem meets_runTransfer (source target : Host) (plan : List PlanItem) (pull : Bool)
    (snapName : Str) {log : Log} (hlog : streams log = 0) :
    (runTransfer source target plan pull snapName).Meets (CarriesPlan plan) (fun _ _ => True)
      log := by
  have hsources : (planSources plan).Uses (fun q => sendsStream q = false) := by
    induction plan with
    | nil => trivial
    | cons p plan ih => exact (uses_getKey _ _).bind (fun _ => ih.bind (fun _ => trivial))
  refine Prog.Meets.bind (meets_quiet hsources) ?_ (fun _ _ _ => trivial)
  intro log₁ datasets h₁
  refine Prog.Meets.bind (meets_quiet (uses_snapshotAll_quiet source snapName datasets)) ?_
    (fun _ _ _ => trivial)
  intro log₂ snaps h₂
  dsimp only
  split
  · trivial
  · have hnone : streams log₂ = ([] : List PlanItem).length := by
      rw [h₂, h₁, hlog, List.length_nil]
    exact meets_transferPlan source target pull snapName [] plan [] hnone

/-- The cutover sends the entries of its plan in their order. -/
theorem meets_cutoverJob (source target : Host) (q : CutoverRequest) :
    (cutoverJob source target q).Meets (CarriesPlan q.plan) (fun _ _ => True) [] := by
  have hprobe : (vmidInUse target q.targetVmid).Uses (fun q => sendsStream q = false) := by
    refine (uses_vmidInUse target q.targetVmid).mono ?_
    rintro r ⟨n, rfl⟩
    rfl
  have hread : (readGuestConfig source q.vmid q.gtype).Uses (fun q => sendsStream q = false) := by
    refine (uses_readGuestConfig source q.vmid q.gtype).mono ?_
    rintro r ⟨path, rfl⟩
    rfl
  have hstop : (stopGuest source q.vmid q.gtype q.shutdownTimeout).Uses
      (fun q => sendsStream q = false) := by
    refine (uses_stopGuest source q.vmid q.gtype q.shutdownTimeout).mono ?_
    rintro r (rfl | rfl | rfl) <;> rfl
  have hfinish : ∀ cfg res, (cutoverFinish source target q cfg res).Uses
      (fun q => sendsStream q = false) := by
    intro cfg res
    refine uses_cutoverFinish res ?_ rfl rfl
    rintro text - ⟨host, cmd⟩ - (⟨dest, rfl⟩ | ⟨dest, rfl⟩) <;> rfl
  refine Prog.Meets.bind (meets_quiet hprobe) ?_ (fun _ _ _ => trivial)
  intro log₁ used h₁
  split
  · trivial
  · refine Prog.Meets.bind (meets_quiet hread) ?_ (fun _ _ _ => trivial)
    intro log₂ cfg h₂
    cases cfg with
    | error e => trivial
    | ok cfg =>
      refine Prog.Meets.bind (meets_quiet hstop) ?_
        (fun _ _ _ => trivial)
      intro log₃ stopped h₃
      split
      · trivial
      · have hnone : streams log₃ = 0 := by
          rw [h₃, h₂, h₁]
          rfl
        refine Prog.Meets.bind (meets_runTransfer source target q.plan q.pull q.snapName hnone)
          ?_ (fun _ _ _ => trivial)
        intro log₄ res _
        split
        · trivial
        · exact (meets_quiet (hfinish cfg res)).mono (fun _ _ _ => trivial)

/-! ## Sessions -/

/-- A job that transfers a plan. -/
inductive MigrationJob where
  | precopy (plan : List PlanItem) (pull : Bool) (snapName : Str)
  | cutover (q : CutoverRequest)

def MigrationJob.plan : MigrationJob → List PlanItem
  | .precopy plan _ _ => plan
  | .cutover q => q.plan

/-- The trail is one of the job, possibly cut off, among the moves of other
parties. -/
def MigrationJob.Runs (source target : Host) : MigrationJob → TargetTrail → Prop
  | .precopy plan pull snapName, tr =>
      Interleaves (precopyJob source target plan pull snapName) tr
  | .cutover q, tr => Interleaves (cutoverJob source target q) tr

theorem MigrationJob.Runs.carries {source target : Host} {j : MigrationJob}
    {t₁ t₂ : TargetTrail} {q : Request} {a : Answer} {u : TargetState}
    (h : j.Runs source target (t₁ ++ (.request q a, u) :: t₂)) :
    CarriesPlan j.plan (answered t₁) q := by
  cases j with
  | precopy plan pull snapName =>
    exact Interleaves.meets h (meets_runTransfer source target plan pull snapName rfl)
  | cutover r => exact Interleaves.meets h (meets_cutoverJob source target r)

/-- No full stream is received into a dataset that is foreign. -/
def ReceivesSafe : TargetState → TargetTrail → Prop :=
  EachStep (fun w e => ∀ q a t, e = .request q a → q.cmd = .sendRecv t →
    t.baseSnapshot = none → w.foreign t.targetDataset = false)

/-- Where an entry of the plan without a common snapshot is transferred, its
target was not foreign when the job began, or another party destroyed it
since, and no other party created it after that. -/
def PlanAllowed (plan : List PlanItem) (w : TargetState) (tr : TargetTrail) : Prop :=
  ∀ t₁ q a u t₂, tr = t₁ ++ (.request q a, u) :: t₂ → sendsStream q = true →
    ∀ p ds, plan[streams (answered t₁)]? = some p → p.commonSnapshot = [] →
      p.targetDataset = some ds → foreignAfter ds (w.foreign ds) (movesOf t₁) = false

/-- One job. -/
theorem job_safe_iff {source target : Host} {j : MigrationJob} {w w' : TargetState}
    {tr : TargetTrail} (hrun : j.Runs source target tr) (hpath : targetEnv.Path w tr w') :
    ReceivesSafe w tr ↔ PlanAllowed j.plan w tr := by
  rw [ReceivesSafe, eachStep_iff]
  constructor
  · intro hsafe t₁ q a u t₂ heq hsends p ds hp hcommon hds
    subst heq
    obtain ⟨t, ht⟩ : ∃ t, q.cmd = .sendRecv t := by
      unfold sendsStream at hsends
      split at hsends
      · exact ⟨_, by assumption⟩
      · cases hsends
    obtain ⟨p', hp', htarget, hbase⟩ := hrun.carries t ht
    rw [hp] at hp'
    obtain rfl := Option.some.inj hp'
    rw [hds] at htarget
    obtain rfl := Option.some.inj htarget
    have hfull : t.baseSnapshot = none := by rw [hbase, PlanItem.base, if_pos hcommon]
    rw [← foreign_path _ hpath.cut.1]
    exact hsafe t₁ _ u t₂ rfl q a t rfl ht hfull
  · intro hallowed t₁ e u t₂ heq q a t he ht hfull
    subst heq he
    obtain ⟨p, hp, htarget, hbase⟩ := hrun.carries t ht
    have hcommon : p.commonSnapshot = [] := by
      by_contra hne
      rw [hfull, PlanItem.base, if_neg hne] at hbase
      cases hbase
    rw [foreign_path _ hpath.cut.1]
    exact hallowed t₁ q a u t₂ rfl (by simp [sendsStream, ht]) p _ hp hcommon htarget

/-- The whole trail of a session. -/
def sessionTrail (runs : List (MigrationJob × TargetTrail)) : TargetTrail :=
  runs.flatMap Prod.snd

/-- The condition on each job of a session, from the state it begins in. -/
def SessionAllowed : TargetState → List (MigrationJob × TargetTrail) → Prop
  | _, [] => True
  | w, (j, tr) :: runs => PlanAllowed j.plan w tr ∧ SessionAllowed (stateAfter w tr) runs

/-- Over any sequence of pre-copies and cutovers, with other parties changing
the target at any moment, no full stream is received into a foreign dataset
if and only if each job transfers its entries without a common snapshot only
where the target was not foreign when the job began, and was not created by
another party since. -/
theorem session_safe_iff {source target : Host} {w w' : TargetState}
    {runs : List (MigrationJob × TargetTrail)}
    (hruns : ∀ r ∈ runs, r.1.Runs source target r.2)
    (hpath : targetEnv.Path w (sessionTrail runs) w') :
    ReceivesSafe w (sessionTrail runs) ↔ SessionAllowed w runs := by
  induction runs generalizing w with
  | nil => simp [sessionTrail, ReceivesSafe, EachStep, SessionAllowed]
  | cons r runs ih =>
    obtain ⟨j, tr⟩ := r
    have hsplit : sessionTrail ((j, tr) :: runs) = tr ++ sessionTrail runs := by
      simp [sessionTrail]
    rw [hsplit] at hpath ⊢
    obtain ⟨w₁, hfirst, hrest⟩ := Env.path_append.mp hpath
    have hend := hfirst.end_eq
    subst hend
    rw [ReceivesSafe, eachStep_append, SessionAllowed]
    have hjob := job_safe_iff (hruns (j, tr) (by simp)) hfirst
    have hlater := ih (fun r hr => hruns r (List.mem_cons_of_mem _ hr)) hrest
    exact and_congr hjob hlater

/-! ## Two pre-copies -/

def planOne : List PlanItem :=
  [⟨some "rpool/data/vm-100-disk-0", some "tank/vm-100-disk-0", []⟩]

/-- The log of a pre-copy of the plan. -/
def precopyLog : Log :=
  [(⟨hostA, .zfsSnapshot "rpool/data/vm-100-disk-0" "migrate-1"⟩, prints []),
    (⟨hostB, .sendRecv (transferOf hostA hostB "rpool/data/vm-100-disk-0" "tank/vm-100-disk-0"
      "migrate-1" none true)⟩, prints "__exit=0\n")]

theorem run_precopyLog : ∃ o, (precopyJob hostA hostB planOne true "migrate-1").Run precopyLog o :=
  Prog.exists_run_of_transcript (precopyLog.map Prod.snd) (by decide)

/-- An empty target. -/
def targetEmpty : TargetState := ⟨fun _ => false, fun _ => false⟩

/-- The target after another dataset was created. -/
def targetOther : TargetState :=
  ⟨Function.update (fun _ => false) "tank/other" true,
    Function.update (fun _ => false) "tank/other" false⟩

/-- A pre-copy onto a target that does not exist, after another dataset was
created. -/
def precopyEmpty : TargetTrail :=
  (.move (.created "tank/other"), targetOther) ::
    withStates precopyLog [targetOther, targetOther.receive "tank/vm-100-disk-0"]

theorem session_safe_empty :
    ReceivesSafe targetEmpty
      (sessionTrail [(.precopy planOne true "migrate-1", precopyEmpty)]) := by
  obtain ⟨o, hrun⟩ := run_precopyLog
  have hruns : ∀ r ∈ [(MigrationJob.precopy planOne true "migrate-1", precopyEmpty)],
      r.1.Runs hostA hostB r.2 := by
    intro r hr
    obtain rfl := List.mem_singleton.mp hr
    exact ⟨[], o, (List.append_nil _).symm ▸ hrun⟩
  have hpath : targetEnv.Path targetEmpty
      (sessionTrail [(MigrationJob.precopy planOne true "migrate-1", precopyEmpty)])
      (targetOther.receive "tank/vm-100-disk-0") :=
    ⟨⟨rfl, rfl⟩, rfl, Or.inr rfl, rfl⟩
  refine (session_safe_iff hruns hpath).mpr ⟨?_, trivial⟩
  intro t₁ q a u t₂ heq _ p ds hp _ hds
  obtain rfl := List.mem_singleton.mp (show p ∈ planOne from List.mem_of_getElem? hp)
  obtain rfl := Option.some.inj hds
  -- the only dataset that appears is another one
  refine foreignAfter_of_not_created (fun hmem => ?_)
  obtain ⟨v, hmem⟩ := mem_movesOf.mp hmem
  have hall : (.move (.created "tank/vm-100-disk-0"), v) ∈ precopyEmpty := by
    rw [heq]
    exact List.mem_append_left _ hmem
  simp [precopyEmpty, withStates, precopyLog] at hall

/-- A target on which the dataset exists that the plan names. -/
def targetTaken : TargetState := ⟨fun ds => ds = "tank/vm-100-disk-0", fun _ => false⟩

/-- The target dataset exists, and the pre-copy replaces it. -/
theorem precopy_foreign :
    ∃ tr w', (MigrationJob.precopy planOne true "migrate-1").Runs hostA hostB tr ∧
      targetEnv.Path targetTaken tr w' ∧ ¬ ReceivesSafe targetTaken tr := by
  obtain ⟨o, hrun⟩ := run_precopyLog
  have hpath : targetEnv.Path targetTaken
      (withStates precopyLog [targetTaken, targetTaken.receive "tank/vm-100-disk-0"])
      (targetTaken.receive "tank/vm-100-disk-0") := ⟨rfl, Or.inr rfl, rfl⟩
  refine ⟨_, _, ⟨[], o, (List.append_nil _).symm ▸ hrun⟩, hpath, fun hsafe => ?_⟩
  have hforeign : targetTaken.foreign "tank/vm-100-disk-0" = false :=
    hsafe.2.1 _ _ (transferOf hostA hostB "rpool/data/vm-100-disk-0" "tank/vm-100-disk-0"
      "migrate-1" none true) rfl rfl rfl
  simp [targetTaken, TargetState.foreign] at hforeign

end PveZfsTool
