import PveZfsTool.Zfs.Snapshots

/-!
# Rolling a dataset back under a guest

`rollback_snapshot` of `app/zfs_commands.py`.  It can stop the guest of the
dataset first, and start it again after the rollback.  It goes on with the
rollback whatever the stop was answered.

`guest_guarded_iff` says for which runs the guest is down during the
rollback and back up after it, and `rollback_under_guest` is a run that is
neither.
-/

namespace PveZfsTool

open Dialogue Text

/-- The command lines of `rollback_snapshot`. -/
inductive RollbackCmd where
  | guestStop (tool : Tool) (vmid : Str)
  | rollback (destroyRecent force : Bool) (fullName : Str)
  | guestStart (tool : Tool) (vmid : Str)
  deriving DecidableEq

/-- The command line that is sent to the host. -/
def RollbackCmd.text : RollbackCmd → Str
  | .guestStop tool vmid => tool.name ++ " stop " ++ vmid
  | .rollback destroyRecent force fullName =>
      "zfs rollback" ++ (if destroyRecent then (" -r" : Str) else []) ++
        (if force then (" -f" : Str) else []) ++ " " ++ fullName
  | .guestStart tool vmid => tool.name ++ " start " ++ vmid

abbrev RollbackJob (α : Type) := Prog (Host × RollbackCmd) Answer Exn α

abbrev RollbackLog := History (Host × RollbackCmd) Answer

/-- `guest_actions`.  An output is `none` where its command was not run. -/
structure GuestActions where
  stopped : Bool
  started : Bool
  stopOutput : Option Str
  startOutput : Option Str
  deriving DecidableEq

/-- `stderr or stdout` -/
def Answer.output (r : Answer) : Str := if r.stderr = [] then r.stdout else r.stderr

/-- The tool and the VMID of the guest to stop, if there is one. -/
def rollbackGuest (stopGuest : Bool) (vmid vmType : Option Str) :
    Except Str (Option (Tool × Str)) :=
  match if stopGuest then vmid.filter (· ≠ []) else none with
  | none => .ok none
  | some vmid =>
    match validateVmid vmid, validateVmType (vmType.getD []) with
    | .error e, _ => .error e
    | .ok _, .error e => .error e
    | .ok vmid, .ok vmType => .ok (some (if vmType = "qemu" then .qm else .pct, vmid))

/-- The rollback itself. -/
def rollbackDataset (host : Host) (fullName : Str) (force destroyRecent : Bool) :
    RollbackJob Answer :=
  Prog.issue (host, .rollback destroyRecent force fullName)

/-- `rollback_snapshot` with valid arguments and a guest to stop. -/
def rollbackUnderGuest (host : Host) (fullName : Str) (force destroyRecent : Bool) (tool : Tool)
    (vmid : Str) : RollbackJob (Answer × GuestActions) := do
  let stop ← Prog.issue (host, .guestStop tool vmid)
  let result ← rollbackDataset host fullName force destroyRecent
  if stop.success then
    let start ← Prog.issue (host, .guestStart tool vmid)
    return (result, ⟨true, start.success, some stop.output, some start.output⟩)
  else return (result, ⟨false, false, some stop.output, none⟩)

/-- `rollback_snapshot` -/
def rollbackSnapshot (host : Host) (fullName : Str) (force destroyRecent stopGuest : Bool)
    (vmid vmType : Option Str) : RollbackJob (Except Str (Answer × GuestActions)) :=
  match validateZfsName fullName "Snapshot", rollbackGuest stopGuest vmid vmType with
  | .error e, _ => return .error e
  | .ok _, .error e => return .error e
  | .ok fullName, .ok none => do
    let result ← rollbackDataset host fullName force destroyRecent
    return .ok (result, ⟨false, false, none, none⟩)
  | .ok fullName, .ok (some (tool, vmid)) => do
    let result ← rollbackUnderGuest host fullName force destroyRecent tool vmid
    return .ok result

/-! ## The guest -/

/-- A stop that succeeds leaves the guest down, and a start that succeeds
leaves it up.  One that fails, or whose answer is lost, may have done its
work or not. -/
def rollbackEnv : Env Bool (Host × RollbackCmd) Answer Empty where
  respond running request a running' :=
    match request.2 with
    | .guestStop _ _ => running' = false ∨ a.success = false ∧ running' = running
    | .rollback _ _ _ => running' = running
    | .guestStart _ _ => running' = true ∨ a.success = false ∧ running' = running
  move _ m _ := m.elim

def RollbackCmd.isStop : RollbackCmd → Bool
  | .guestStop _ _ => true
  | _ => false

def RollbackCmd.isRollback : RollbackCmd → Bool
  | .rollback _ _ _ => true
  | _ => false

/-- A stop that was answered as successful stands in the log. -/
def StopSucceeded (log : RollbackLog) : Prop :=
  ∃ entry ∈ log, entry.1.2.isStop = true ∧ entry.2.success = true

instance (log : RollbackLog) : Decidable (StopSucceeded log) :=
  inferInstanceAs (Decidable (∃ entry ∈ log, _))

/-- What a run owes to the guest. -/
structure GuestGuarded {p : RollbackJob (Except Str (Answer × GuestActions))}
    (x : Execution rollbackEnv p) : Prop where
  /-- The dataset is rolled back only after a stop that succeeded. -/
  rollback : EachRequest (fun pre q => q.2.isRollback = true → StopSucceeded pre)
    (answered x.trail)
  /-- A guest that a stop of the run takes down is started later. -/
  restart : ∀ front host tool vmid a rest,
    x.trail = front ++ (.request (host, .guestStop tool vmid) a, false) :: rest →
      stateAfter x.before front = true →
        ∃ b, ((host, RollbackCmd.guestStart tool vmid), b) ∈ answered rest

/-- Every stop of the run was answered as successful. -/
def StopsSucceed (log : RollbackLog) : Prop :=
  ∀ entry ∈ log, entry.1.2.isStop = true → entry.2.success = true

section Guest

variable {host : Host} {fullName : Str} {force destroyRecent : Bool} {tool : Tool} {vmid : Str}

/-- The commands of a rollback with a guest to stop.  The start stands at the
end if the stop succeeded. -/
theorem trail_rollbackUnderGuest {tr : Trail (Host × RollbackCmd) Answer Empty Bool}
    {o : Except Exn (Except Str (Answer × GuestActions))}
    (h : Drives (rollbackUnderGuest host fullName force destroyRecent tool vmid >>= fun result =>
      return .ok result) tr o) :
    ∃ stop u r u' rest,
      tr = (.request (host, .guestStop tool vmid) stop, u) ::
        (.request (host, .rollback destroyRecent force fullName) r, u') :: rest ∧
      if stop.success then ∃ b u'', rest = [(.request (host, .guestStart tool vmid) b, u'')]
      else rest = [] := by
  simp only [rollbackUnderGuest, rollbackDataset, Prog.issue_bind, Prog.ask_bind] at h
  obtain ⟨stop, u, tr₁, rfl, hrest⟩ := drives_ask h
  obtain ⟨r, u', rest, rfl, hlast⟩ := drives_ask hrest
  refine ⟨stop, u, r, u', rest, rfl, ?_⟩
  split_ifs with hstop
  · simp only [hstop, if_true, Prog.ask_bind] at hlast
    obtain ⟨b, u'', tr₂, rfl, hret⟩ := drives_ask hlast
    simp only [Prog.pure_eq, Prog.ret_bind] at hret
    rw [eq_nil_of_answered hret.1]
    exact ⟨b, u'', rfl⟩
  · simp only [hstop, Bool.false_eq_true, if_false, Prog.pure_eq, Prog.ret_bind] at hlast
    exact eq_nil_of_answered hlast.1

/-- With a guest to stop the run is empty, or its first command is the stop. -/
theorem drives_rollbackSnapshot {vmType : Option Str} (hvmid : vmid ≠ [])
    {tr : Trail (Host × RollbackCmd) Answer Empty Bool}
    {o : Except Exn (Except Str (Answer × GuestActions))}
    (h : Drives (rollbackSnapshot host fullName force destroyRecent true (some vmid) vmType) tr o) :
    tr = [] ∨ ∃ name tool id, Drives (rollbackUnderGuest host name force destroyRecent tool id >>=
      fun result => return .ok result) tr o := by
  unfold rollbackSnapshot at h
  split at h
  · exact Or.inl (eq_nil_of_answered h.1)
  · exact Or.inl (eq_nil_of_answered h.1)
  · next hguest =>
    exfalso
    simp only [rollbackGuest, if_true, Option.filter_some, decide_eq_true_eq, hvmid, ne_eq,
      not_false_eq_true] at hguest
    split at hguest <;> simp at hguest
  · next name tool id _ _ => exact Or.inr ⟨name, tool, id, h⟩

end Guest

/-- A run with a guest to stop guards it if and only if its stop was answered
as successful. -/
theorem guest_guarded_iff {host : Host} {fullName vmid : Str} {force destroyRecent : Bool}
    {vmType : Option Str} (hvmid : vmid ≠ [])
    (x : Execution rollbackEnv
      (rollbackSnapshot host fullName force destroyRecent true (some vmid) vmType)) :
    GuestGuarded x ↔ StopsSucceed (answered x.trail) := by
  rcases drives_rollbackSnapshot hvmid x.drives with hnil | ⟨name, tool, id, hrun⟩
  · constructor
    · intro _ entry hentry
      simp [hnil] at hentry
    · intro _
      constructor
      · simp [hnil]
      · intro front host' tool' vmid' a rest htrail
        simp [hnil] at htrail
  obtain ⟨stop, u, r, u', rest, htrail, hrest⟩ := trail_rollbackUnderGuest hrun
  constructor
  · intro h entry hentry hisStop
    have hroll := h.rollback [((host, .guestStop tool id), stop)]
      (host, .rollback destroyRecent force name) r (answered rest) (by simp [htrail]) rfl
    obtain ⟨_, hmem, -, hsucc⟩ := hroll
    rw [List.mem_singleton] at hmem
    rw [hmem] at hsucc
    rw [if_pos hsucc] at hrest
    obtain ⟨b, u'', rfl⟩ := hrest
    simp only [htrail, answered_request, answered_nil, List.mem_cons, List.not_mem_nil,
      or_false] at hentry
    rcases hentry with rfl | rfl | rfl
    · exact hsucc
    · cases hisStop
    · cases hisStop
  · intro hall
    have hsucc : stop.success = true :=
      hall ((host, .guestStop tool id), stop) (by simp [htrail]) rfl
    rw [if_pos hsucc] at hrest
    obtain ⟨b, u'', rfl⟩ := hrest
    constructor
    · simp only [htrail, answered_request, answered_nil, eachRequest_cons, eachRequest_nil, and_true]
      refine ⟨fun h => absurd h Bool.false_ne_true, fun _ => ?_, fun h => absurd h Bool.false_ne_true⟩
      exact ⟨_, List.mem_singleton_self _, rfl, hsucc⟩
    · -- the only stop is the first command, and the start ends the run
      intro front host' tool' vmid' a tail heq hup
      rw [htrail] at heq
      rcases front with _ | ⟨_, _ | ⟨_, _ | ⟨_, _⟩⟩⟩
      · simp only [List.nil_append, List.cons.injEq, Prod.mk.injEq, Event.request.injEq,
          RollbackCmd.guestStop.injEq] at heq
        obtain ⟨⟨⟨⟨rfl, rfl, rfl⟩, -⟩, -⟩, rfl⟩ := heq
        exact ⟨b, by simp⟩
      · simp at heq
      · simp at heq
      · simp at heq

/-- A run whose commands all succeed. -/
def guardedRun : Execution rollbackEnv
    (rollbackSnapshot hostA "tank/vm@a" false false true (some "100") (some "qemu")) where
  before := true
  trail := [(.request (hostA, .guestStop .qm "100") (prints []), false),
    (.request (hostA, .rollback false false "tank/vm@a") (prints []), false),
    (.request (hostA, .guestStart .qm "100") (prints []), true)]
  after := true
  outcome := .ok (.ok (prints [], ⟨true, true, some [], some []⟩))
  path := by simp [rollbackEnv, Env.Step, prints]
  drives := Prog.run_of_transcript
    (show Prog.transcript _ [prints [], prints [], prints []] = some _ from rfl)

theorem guest_guarded_success : GuestGuarded guardedRun := by
  refine (guest_guarded_iff (by decide) guardedRun).mpr ?_
  show StopsSucceed _
  unfold StopsSucceed
  decide

/-- The stop fails and leaves the guest up. -/
def failedStop : Execution rollbackEnv
    (rollbackSnapshot hostA "tank/vm@a" false false true (some "100") (some "qemu")) where
  before := true
  trail := [(.request (hostA, .guestStop .qm "100") noAnswer, true),
    (.request (hostA, .rollback false false "tank/vm@a") (prints []), true)]
  after := true
  outcome := .ok (.ok (prints [], ⟨false, false, some [], none⟩))
  path := by simp [rollbackEnv, Env.Step, noAnswer]
  drives := Prog.run_of_transcript
    (show Prog.transcript _ [noAnswer, prints []] = some _ from rfl)

/-- The dataset is rolled back under the running guest. -/
theorem rollback_under_guest : ¬ ∀ (host : Host) (fullName vmid : Str)
    (force destroyRecent : Bool) (vmType : Option Str), vmid ≠ [] →
    ∀ x : Execution rollbackEnv
      (rollbackSnapshot host fullName force destroyRecent true (some vmid) vmType),
    GuestGuarded x := by
  intro h
  have hroll := (h hostA "tank/vm@a" "100" false false (some "qemu") (by decide) failedStop).rollback
  revert hroll
  decide

end PveZfsTool
