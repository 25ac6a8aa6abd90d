import PveZfsTool.Migrate.Guests

/-!
# What a rollback may release

A rollback unlocks the source guest and starts it again.  That is safe only
once the target guest is known to be down.  `guest_is_running` reads a
failed status answer like one that names no running guest, and `rollback`
goes on in either case.

`rollback_safe_iff` says exactly when a run of `rollback` is safe, and
`rollback_unconfirmed` is a run that is not.
-/

namespace PveZfsTool

open Dialogue Text

/-- A positive status answer stands in the log. -/
def ConfirmedStopped (status : Request) (log : Log) : Prop :=
  ∃ entry ∈ log, entry.1 = status ∧ confirmsStopped entry.2 = true

instance (status : Request) (log : Log) : Decidable (ConfirmedStopped status log) :=
  inferInstanceAs (Decidable (∃ entry ∈ log, entry.1 = status ∧ confirmsStopped entry.2 = true))

/-- The request unlocks or starts the guest on the source. -/
def releasesSource (source : Host) (q : Request) : Bool :=
  q.host = source && match q.cmd with
    | .setLock _ none => true
    | .guestStart _ _ => true
    | _ => false

/-- The source is released only after the target was confirmed stopped. -/
def RollbackSafe (source : Host) (status : Request) (log : Log) : Prop :=
  EachRequest (fun pre q => releasesSource source q = true → ConfirmedStopped status pre) log

instance (source : Host) (status : Request) (log : Log) :
    Decidable (RollbackSafe source status log) :=
  inferInstanceAs (Decidable (EachRequest _ log))

/-- The VMID on the target, as `rollback` validates it. -/
def rollbackTargetVmid (vmid : Str) (targetVmid : Option Str) : Str :=
  strip ((truthy targetVmid).getD vmid)

theorem preflightTargetVmid_ok {raw vmid tgt : Str} {newVmid : Option Str}
    (hv : validateVmid raw = .ok vmid) (h : preflightTargetVmid vmid newVmid = .ok tgt) :
    tgt = rollbackTargetVmid raw newVmid := by
  unfold preflightTargetVmid at h
  unfold rollbackTargetVmid
  cases htruthy : truthy newVmid with
  | none =>
    simp only [htruthy, Except.ok.injEq] at h
    rw [← h]
    exact (validateVmid_ok hv).1
  | some new =>
    simp only [htruthy] at h
    exact (validateVmid_ok h).1

/-- The requests of a rollback that gets past its arguments.  The log ends
with the start on the source, if it is wanted. -/
theorem run_rollbackSteps {source target : Host} {vmid gtype tgtVmid : Str}
    {startSource : Bool} {log : Log} {o : Except Exn RollbackResult} {n : Int}
    (hv : validateVmid vmid = .ok vmid) (hn : toInt? tgtVmid = some n)
    (h : (rollbackSteps source target vmid gtype tgtVmid startSource).Run log o) :
    ∃ a status b c rest,
      log = (⟨target, .guestStop (Tool.ofGtype gtype) tgtVmid " 2>/dev/null"⟩, a) ::
        (statusRequest target tgtVmid gtype, status) ::
        (⟨target, .rmConfig (Tool.ofGtype gtype) n⟩, b) ::
        (⟨source, .setLock (confPath (Tool.ofGtype gtype) vmid) none⟩, c) :: rest ∧
      ∀ entry ∈ rest, entry.1 = ⟨source, .guestStart (Tool.ofGtype gtype) vmid⟩ := by
  simp only [rollbackSteps, guestIsRunning, pyInt, hn, setGuestLock, hv, runCommand,
    Prog.issue_bind, Prog.ask_bind, Prog.ret_bind, Prog.pure_eq, Prog.run_ask] at h
  obtain ⟨a, _, rfl, status, _, rfl, b, _, rfl, c, rest, rfl, hrest⟩ := h
  refine ⟨a, status, b, c, rest, rfl, ?_⟩
  unfold startGuest at hrest
  cases startSource with
  | false =>
    simp only [Bool.false_eq_true, if_false, Prog.pure_eq, Prog.ret_bind, Prog.run_ret] at hrest
    simp [hrest.1]
  | true =>
    simp only [if_true, runCommand, Prog.issue_bind, Prog.ask_bind, Prog.ret_bind, Prog.pure_eq,
      Prog.run_ask, Prog.run_ret] at hrest
    obtain ⟨d, _, rfl, rfl, -⟩ := hrest
    simp

/-- When `int` refuses the target VMID the rollback raises before it
touches the source. -/
theorem run_rollbackSteps_raise {source target : Host} {vmid gtype tgtVmid : Str}
    {startSource : Bool} {log : Log} {o : Except Exn RollbackResult}
    (hn : toInt? tgtVmid = none)
    (h : (rollbackSteps source target vmid gtype tgtVmid startSource).Run log o) :
    ∃ a status, log = [(⟨target, .guestStop (Tool.ofGtype gtype) tgtVmid " 2>/dev/null"⟩, a),
      (statusRequest target tgtVmid gtype, status)] := by
  simp only [rollbackSteps, guestIsRunning, pyInt, hn, runCommand, Prog.issue_bind,
    Prog.ask_bind, Prog.ret_bind, Prog.raise_bind, Prog.pure_eq, Prog.run_ask,
    Prog.run_raise] at h
  obtain ⟨a, _, rfl, status, _, rfl, rfl, -⟩ := h
  exact ⟨a, status, rfl⟩

/-- A rollback that gets past its arguments releases the source, and is
safe exactly when its one status answer is positive. -/
theorem rollbackSteps_safe_iff {source target : Host} {vmid gtype tgtVmid : Str}
    {startSource : Bool} {log : Log} {o : Except Exn RollbackResult} {n : Int}
    (hv : validateVmid vmid = .ok vmid) (hn : toInt? tgtVmid = some n)
    (h : (rollbackSteps source target vmid gtype tgtVmid startSource).Run log o) :
    RollbackSafe source (statusRequest target tgtVmid gtype) log ↔
      ∀ a, (statusRequest target tgtVmid gtype, a) ∈ log → confirmsStopped a = true := by
  obtain ⟨a, status, b, c, rest, rfl, hrest⟩ := run_rollbackSteps hv hn h
  have hother : ∀ d, (statusRequest target tgtVmid gtype, d) ∉ rest := by
    intro d hmem
    have hstart := hrest _ hmem
    simp [statusRequest] at hstart
  have honly : (∀ d, (statusRequest target tgtVmid gtype, d) ∈
      (⟨target, .guestStop (Tool.ofGtype gtype) tgtVmid " 2>/dev/null"⟩, a) ::
        (statusRequest target tgtVmid gtype, status) ::
        (⟨target, .rmConfig (Tool.ofGtype gtype) n⟩, b) ::
        (⟨source, .setLock (confPath (Tool.ofGtype gtype) vmid) none⟩, c) :: rest →
      confirmsStopped d = true) ↔ confirmsStopped status = true := by
    simp only [statusRequest] at hother
    simp [statusRequest, hother]
  rw [honly, RollbackSafe]
  simp only [eachRequest_cons]
  constructor
  · rintro ⟨-, -, -, hunlock, -⟩
    obtain ⟨entry, hmem, heq, hconf⟩ := hunlock (by simp [releasesSource])
    simp only [List.mem_cons, List.not_mem_nil, or_false] at hmem
    rcases hmem with rfl | rfl | rfl
    · simp [statusRequest] at heq
    · exact hconf
    · simp [statusRequest] at heq
  · intro hconf
    refine ⟨by simp [releasesSource], by simp [releasesSource, statusRequest],
      by simp [releasesSource], fun _ => ?_, fun pre q d post _ _ => ?_⟩
    all_goals exact ⟨(statusRequest target tgtVmid gtype, status), by simp, rfl, hconf⟩

/-- A run of `rollback` releases the source only after the target was
confirmed stopped, if and only if its status answer is positive, or `int`
refuses the target VMID. -/
theorem rollback_safe_iff {source target : Host} {vmid gtype : Str} {targetVmid : Option Str}
    {startSource : Bool} {log : Log} {o : Except Exn (Except Str RollbackResult)}
    (h : (rollback source target vmid gtype targetVmid startSource).Run log o) :
    RollbackSafe source
        (statusRequest target (rollbackTargetVmid vmid targetVmid) gtype) log ↔
      toInt? (rollbackTargetVmid vmid targetVmid) = none ∨
        ∀ a, (statusRequest target (rollbackTargetVmid vmid targetVmid) gtype, a) ∈ log →
          confirmsStopped a = true := by
  unfold rollback at h
  cases hv : validateVmid vmid with
  | error e =>
    simp only [hv, Prog.pure_eq, Prog.run_ret] at h
    simp [h.1, RollbackSafe]
  | ok v =>
    simp only [hv] at h
    cases ht : preflightTargetVmid v targetVmid with
    | error e =>
      simp only [ht, Prog.pure_eq, Prog.run_ret] at h
      simp [h.1, RollbackSafe]
    | ok t =>
      obtain rfl := preflightTargetVmid_ok hv ht
      obtain ⟨o', hsteps⟩ : ∃ o', (rollbackSteps source target v gtype
          (rollbackTargetVmid vmid targetVmid) startSource).Run log o' := by
        simp only [ht, Prog.pure_eq] at h
        rcases Prog.run_bind.mp h with ⟨log₁, log₂, r, rfl, hsteps, hret⟩ | ⟨e, hsteps, -⟩
        · obtain ⟨rfl, -⟩ := Prog.run_ret.mp hret
          exact ⟨_, by simpa using hsteps⟩
        · exact ⟨_, hsteps⟩
      cases hn : toInt? (rollbackTargetVmid vmid targetVmid) with
      | none =>
        obtain ⟨a, status, rfl⟩ := run_rollbackSteps_raise hn hsteps
        simp [RollbackSafe, releasesSource, statusRequest]
      | some n => simpa using rollbackSteps_safe_iff (validateVmid_idem hv) hn hsteps

/-- A rollback whose target answers that it is stopped. -/
def rollbackConfirmed : Option (Log × Except Exn (Except Str RollbackResult)) :=
  (rollback hostA hostB "100" "qemu" none true).transcript
    [prints [], prints "status: stopped\n", prints "__OK__\n", prints "__OK__\n", prints []]

theorem rollback_safe_confirmed :
    ∃ log o, (rollback hostA hostB "100" "qemu" none true).Run log o ∧
      RollbackSafe hostA (statusRequest hostB "100" "qemu") log := by
  have hsome : rollbackConfirmed.isSome := by decide
  obtain ⟨⟨log, o⟩, hr⟩ := Option.isSome_iff_exists.mp hsome
  have hrun := Prog.run_of_transcript hr
  refine ⟨log, o, hrun, (rollback_safe_iff hrun).mpr (Or.inr ?_)⟩
  have hall : ∀ r ∈ rollbackConfirmed, ∀ entry ∈ r.1,
      entry.1 = statusRequest hostB "100" "qemu" → confirmsStopped entry.2 = true := by
    decide
  exact fun a hmem => hall _ hr _ hmem rfl

/-- Every command of this rollback fails, the status command too.  The
source is unlocked and started all the same. -/
theorem rollback_unconfirmed :
    ∃ log o, (rollback hostA hostB "100" "qemu" none true).Run log o ∧
      ¬ RollbackSafe hostA (statusRequest hostB "100" "qemu") log := by
  have hsome : ((rollback hostA hostB "100" "qemu" none true).transcript
      (List.replicate 5 noAnswer)).isSome := by decide
  refine ⟨_, _, Prog.run_of_transcript (Option.some_get hsome).symm, ?_⟩
  decide

end PveZfsTool
