import PveZfsTool.Migrate.Cutover

/-!
# The guest on each host

The state of one guest as the hosts keep it, and what the commands of a
migration can do to it.  The state of a host that the commands of a job
name is the state of the guest the job is about.

An answer is trusted only where it is positive.  A status answer that says
`stopped` is true, and a lock script that prints its marker has run.  After
any other answer a command may have done its work, or not.

The operator may start the guest on the source at any moment.  PVE refuses
the start exactly while the guest carries a lock.
-/

namespace PveZfsTool

open Dialogue Text

/-- A status answer that says that the guest is stopped. -/
def confirmsStopped (a : Answer) : Bool :=
  a.success && contains (lower a.stdout) "stopped" && !saysRunning a

/-- The status command for one guest. -/
def statusRequest (host : Host) (vmid gtype : Str) : Request :=
  ⟨host, .guestStatus (Tool.ofGtype gtype) vmid⟩

/-- The command starts a guest. -/
def Cmd.starts : Cmd → Bool
  | .guestStart _ _ => true
  | _ => false

/-- The command writes the lock of a guest. -/
def Cmd.locks : Cmd → Bool
  | .setLock _ _ => true
  | _ => false

/-- The command can change a guest. -/
def Cmd.changesGuest : Cmd → Bool
  | .guestShutdown _ _ _ | .guestStop _ _ _ | .guestStart _ _ | .setLock _ _
  | .guestDestroy _ _ | .rmConfig _ _ | .confWrite _ _ => true
  | _ => false

/-- A guest on one host. -/
structure Guest where
  present : Bool
  running : Bool
  locked : Bool
  deriving DecidableEq

namespace Guest

/-- No guest. -/
def gone : Guest := ⟨false, false, false⟩

/-- PVE accepts a start. -/
def startable (g : Guest) : Bool := g.present && !g.locked

/-- A start as PVE handles it. -/
def start (g : Guest) : Guest := if g.startable then { g with running := true } else g

/-- The guest can be `g'` after the command was answered. -/
def Step (g : Guest) (c : Cmd) (a : Answer) (g' : Guest) : Prop :=
  match c with
  | .guestStatus _ _ => g' = g ∧ (confirmsStopped a = true → g.running = false)
  | .guestShutdown _ _ _ => g' = g ∨ g' = { g with running := false }
  | .guestStop _ _ _ => g' = g ∨ g' = { g with running := false }
  | .guestStart _ _ => g' = g ∨ g' = g.start
  | .setLock _ lock =>
      g' = { g with locked := g'.locked } ∧ (saysOk a = true → g'.locked = lock.isSome)
  | .guestDestroy _ _ => g' = gone ∨ (g' = g ∧ a.success = false)
  | .rmConfig _ _ => g' = g ∨ g' = { g with present := false, locked := false }
  | .confWrite _ _ => g' = g ∨ g' = { g with present := true, locked := false }
  | _ => g' = g

@[simp] theorem start_locked (g : Guest) : g.start.locked = g.locked := by
  unfold start
  split <;> rfl

/-- A guest that cannot be started is left alone by a start. -/
theorem start_eq_self {g : Guest} (h : g.startable = false) : g.start = g := by
  unfold start
  rw [if_neg (by simp [h])]

/-- Every other command leaves the guest as it is. -/
theorem step_eq_self {g g' : Guest} {c : Cmd} {a : Answer} (hc : c.changesGuest = false)
    (h : g.Step c a g') : g' = g := by
  cases c with
  | guestStatus tool vmid => exact h.1
  | guestShutdown | guestStop | guestStart | setLock | guestDestroy | rmConfig | confWrite =>
    cases hc
  | _ => exact h

/-- Only a start makes a guest run. -/
theorem step_not_running {g g' : Guest} {c : Cmd} {a : Answer} (hc : c.starts = false)
    (hg : g.running = false) (h : g.Step c a g') : g'.running = false := by
  cases c with
  | guestStart => cases hc
  | guestShutdown | guestStop | rmConfig | confWrite => rcases h with rfl | rfl <;> simp [hg]
  | guestDestroy =>
    rcases h with rfl | ⟨rfl, -⟩
    · rfl
    · exact hg
  | setLock =>
    rw [h.1]
    exact hg
  | guestStatus tool vmid => rw [h.1, hg]
  | _ =>
    rw [show g' = g from h]
    exact hg

@[simp] theorem start_running (g : Guest) : g.start.running = (g.startable || g.running) := by
  unfold start
  split
  · simp [*]
  · simp [*]

end Guest

/-- What the operator does while a job runs. -/
inductive OperatorMove where
  | startSource
  deriving DecidableEq

/-- The guest of each host. -/
abbrev Guests := Host → Guest

/-- A command changes the guest of its own host only. -/
def guestEnv (source : Host) : Env Guests Request Answer OperatorMove where
  respond w q a w' := (∀ h, h ≠ q.host → w' h = w h) ∧ (w q.host).Step q.cmd a (w' q.host)
  move w _ w' := w' = Function.update w source (w source).start

/-- A run among the guests. -/
abbrev GuestTrail := Trail Request Answer OperatorMove Guests

/-- A step leaves the guest of every host but its own alone. -/
theorem guestEnv_other {source h : Host} {w w' : Guests} {q : Request} {a : Answer}
    (hstep : (guestEnv source).Step w (.request q a) w') (hne : h ≠ q.host) : w' h = w h :=
  hstep.1 h hne

/-- The operator's start is all that a move does. -/
theorem guestEnv_move {source : Host} {w w' : Guests} {m : OperatorMove}
    (hstep : (guestEnv source).Step w (.move m) w') : w' source = (w source).start := by
  have hw : w' = Function.update w source (w source).start := hstep
  rw [hw, Function.update_self]

/-- The guests of the concrete runs. -/
def guestsOn (a b : Guest) : Guests :=
  fun h => if h = hostA then a else if h = hostB then b else .gone

theorem guestsOn_of_ne_hostA {a a' b : Guest} {h : Host} (hne : h ≠ hostA) :
    guestsOn a' b h = guestsOn a b h := by
  simp [guestsOn, hne]

theorem guestsOn_of_ne_hostB {a b b' : Guest} {h : Host} (hne : h ≠ hostB) :
    guestsOn a b' h = guestsOn a b h := by
  simp [guestsOn, hne]

end PveZfsTool
