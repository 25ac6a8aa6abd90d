import PveZfsTool.Lib.Commits
import PveZfsTool.Lib.Runs
import PveZfsTool.Lib.Text
import Mathlib.Logic.Function.Basic
import Mathlib.Data.Rat.Init
import Mathlib.Data.List.Permutation

/-!
# The registry of hosts

`ssh_manager.py` keeps the registered hosts in `hosts.json`.  `add_host`,
`remove_host`, `set_host_mute`, `set_host_standby` and `update_host_identity`
load the file, change it and save it while they hold a lock.
`ensure_host_mac` of `wol.py` loads and saves it too, but only `save_hosts`
takes the lock there.

A `HostCall` is a call of one of them.  `registryStep` lets any number of calls
take their steps in any order.  A step is a part of a call in which it touches
the file or the lock once.

* `registryStep_inv`: one step keeps what holds of the file, the lock and the
  loaded lists.
* `registry_sequential`: the file is that of the calls in some order, in runs
  where `ensure_host_mac` saves over the list it has loaded.
* `mac_loses_host`: a run without that, which loses a host.
-/

namespace PveZfsTool.Ssh

open Text Runs Commits

/-! ## The file -/

/-- `persisted_fields` of an identity. -/
structure HostIdentity where
  role : Str
  pveVersion : Option Str
  pbsVersion : Option Str
  identityChecked : Int
  deriving DecidableEq

/-- An entry of `hosts.json`.  A field that the entry has not is `none`. -/
structure HostRecord where
  name : Str
  address : Str
  port : Int
  user : Str
  identity : Option HostIdentity := none
  muted : Option Bool := none
  mutedUntil : Option Rat := none
  standby : Option Bool := none
  wolMac : Option Str := none
  deriving DecidableEq

abbrev HostsFile := List HostRecord

/-- The loop of the setters: the first entry with the address is changed.
`none` when there is no such entry. -/
def updateFirst (address : Str) (change : HostRecord → HostRecord) : HostsFile → Option HostsFile
  | [] => none
  | h :: hosts =>
      if h.address = address then some (change h :: hosts)
      else (updateFirst address change hosts).map (h :: ·)

/-- `(time.time() + float(hours) * 3600) if (enable and hours) else None` -/
def muteUntil (now : Rat) (enable : Bool) (hours : Option Rat) : Option Rat :=
  match hours with
  | some h => if enable && h ≠ 0 then some (now + h * 3600) else none
  | none => none

/-! ## The calls -/

inductive HostCall where
  | addHost (entry : HostRecord)
  | removeHost (address : Str)
  | setHostMute (address : Str) (enable : Bool) (hours : Option Rat) (now : Rat)
  | setHostStandby (address : Str) (standby : Bool)
  | updateHostIdentity (address : Str) (identity : HostIdentity)
  /-- `captured` says that the host at hand has a MAC already, `fetched` is
  what `fetch_host_mac` answers. -/
  | ensureHostMac (address : Str) (captured : Bool) (fetched : Option Str)
  deriving DecidableEq

/-- What a call saves after it has loaded the list.  `none` when it saves
nothing. -/
def HostCall.write : HostCall → HostsFile → Option HostsFile
  | .addHost entry, hosts =>
      if hosts.any (fun h => h.address = entry.address) then none else some (hosts ++ [entry])
  | .removeHost address, hosts => some (hosts.filter (fun h => h.address ≠ address))
  | .setHostMute address enable hours now, hosts =>
      updateFirst address
        (fun h => { h with muted := some enable, mutedUntil := muteUntil now enable hours }) hosts
  | .setHostStandby address standby, hosts =>
      updateFirst address (fun h => { h with standby := some standby }) hosts
  | .updateHostIdentity address identity, hosts =>
      updateFirst address (fun h => { h with identity := some identity }) hosts
  | .ensureHostMac address captured fetched, hosts =>
      if captured then none
      else fetched.bind (fun mac =>
        updateFirst address (fun h => { h with wolMac := some mac }) hosts)

/-- The file after a call that runs alone. -/
def applyCall (c : HostCall) (hosts : HostsFile) : HostsFile := (c.write hosts).getD hosts

/-- `with _lock:` around the load and the save. -/
def HostCall.takesLock : HostCall → Bool
  | .ensureHostMac .. => false
  | _ => true

/-- How far a call has come. -/
inductive CallStage where
  | started
  /-- `add_host` has found no entry with the address. -/
  | checked
  | locked
  | loaded (hosts : HostsFile)
  | saved
  | finished
  deriving DecidableEq

/-- Where a call takes the lock. -/
def HostCall.entryStage : HostCall → CallStage
  | .addHost .. => .checked
  | _ => .started

/-! ## The steps -/

inductive RegistryEvent where
  | call (t : Nat) (c : HostCall)
  /-- The first look of `add_host` into the file. -/
  | precheck (t : Nat)
  | acquire (t : Nat)
  | load (t : Nat)
  | save (t : Nat)
  | release (t : Nat)
  deriving DecidableEq

structure RegistryState where
  file : HostsFile
  lock : Option Nat
  calls : Nat → Option (HostCall × CallStage)

def RegistryState.init (file : HostsFile) : RegistryState where
  file := file
  lock := none
  calls := fun _ => none

/-- The call `t` moves on, and the file and the lock become those. -/
def RegistryState.move (s : RegistryState) (t : Nat) (c : HostCall) (stage : CallStage)
    (file : HostsFile) (lock : Option Nat) : RegistryState where
  file := file
  lock := lock
  calls := Function.update s.calls t (some (c, stage))

def registryStep (s : RegistryState) : RegistryEvent → Option RegistryState
  | .call t c =>
      match s.calls t with
      | none => some (s.move t c .started s.file s.lock)
      | some _ => none
  | .precheck t =>
      match s.calls t with
      | some (.addHost entry, .started) =>
          let stage :=
            if s.file.any (fun h => h.address = entry.address) then .finished else .checked
          some (s.move t (.addHost entry) stage s.file s.lock)
      | _ => none
  | .acquire t =>
      match s.calls t with
      | some (c, stage) =>
          if c.takesLock && stage = c.entryStage && s.lock = none then
            some (s.move t c .locked s.file (some t))
          else none
      | none => none
  | .load t =>
      match s.calls t with
      | some (c, .locked) => some (s.move t c (.loaded s.file) s.file s.lock)
      | some (.ensureHostMac address captured fetched, .started) =>
          let stage := if captured || fetched = none then .finished else .loaded s.file
          some (s.move t (.ensureHostMac address captured fetched) stage s.file s.lock)
      | _ => none
  | .save t =>
      match s.calls t with
      | some (c, .loaded hosts) =>
          let stage := if c.takesLock then .saved else .finished
          match c.write hosts with
          | none => some (s.move t c stage s.file s.lock)
          | some file =>
              if c.takesLock || s.lock = none then some (s.move t c stage file s.lock) else none
      | _ => none
  | .release t =>
      match s.calls t with
      | some (c, .saved) => some (s.move t c .finished s.file none)
      | _ => none

/-- Every call has come to its end. -/
def AllFinished (s : RegistryState) : Prop :=
  ∀ t c stage, s.calls t = some (c, stage) → stage = .finished

/-- The file is what all calls make of the initial one in some order. -/
def Sequential (initial : HostsFile) (s : RegistryState) : Prop :=
  Ordered applyCall initial s.file (fun t c => ∃ stage, s.calls t = some (c, stage))

/-- `ensure_host_mac` saves over the list that it has loaded. -/
def SavesLoaded (s : RegistryState) : RegistryEvent → Prop
  | .save t =>
      match s.calls t with
      | some (c, .loaded hosts) => c.takesLock = true ∨ c.write hosts = none ∨ hosts = s.file
      | _ => True
  | _ => True

instance (s : RegistryState) (e : RegistryEvent) : Decidable (SavesLoaded s e) := by
  unfold SavesLoaded
  split
  · split
    · infer_instance
    · infer_instance
  · infer_instance

/-- The call that takes the step. -/
def RegistryEvent.thread : RegistryEvent → Nat
  | .call t _ | .precheck t | .acquire t | .load t | .save t | .release t => t

/-! ## What holds in every state -/

/-- The call has had its effect on the file.  One that saves nothing has it
when it loads. -/
def CallStage.effective (c : HostCall) : CallStage → Bool
  | .saved | .finished => true
  | .loaded hosts => (c.write hosts).isNone
  | _ => false

/-- The call holds the lock. -/
def CallStage.holds (c : HostCall) : CallStage → Bool
  | .locked | .saved => true
  | .loaded _ => c.takesLock
  | _ => false

/-- The call `t` is `c`, and it has had its effect. -/
def Effective (s : RegistryState) (t : Nat) (c : HostCall) : Prop :=
  ∃ stage, s.calls t = some (c, stage) ∧ stage.effective c = true

structure RegistryInv (initial : HostsFile) (s : RegistryState) : Prop where
  ordered : Ordered applyCall initial s.file (Effective s)
  holder : ∀ t c stage, s.calls t = some (c, stage) → stage.holds c = true → s.lock = some t
  loaded : ∀ t c hosts, s.calls t = some (c, .loaded hosts) → c.takesLock = true → hosts = s.file

theorem registryInv_init (initial : HostsFile) :
    RegistryInv initial (RegistryState.init initial) where
  ordered := ordered_init (by
    intro t c ⟨stage, hcall, _⟩
    cases hcall)
  holder t c stage hcall := by cases hcall
  loaded t c hosts hcall := by cases hcall

/-- What a move of the call does to the file: nothing and the call has had its
effect before and after or neither, or the call has its effect now. -/
inductive Effects (s : RegistryState) (t : Nat) (c : HostCall) (stage : CallStage)
    (file : HostsFile) : Prop where
  | before (h : Effective s t c) (hstage : stage.effective c = true) (hfile : file = s.file)
  | later (h : ∀ c', ¬ Effective s t c') (hstage : stage.effective c = false) (hfile : file = s.file)
  | now (h : ∀ c', ¬ Effective s t c') (hstage : stage.effective c = true)
      (hfile : file = applyCall c s.file)

section

variable {initial : HostsFile} {s s' : RegistryState} {t : Nat} {c : HostCall} {stage : CallStage}
  {file : HostsFile} {lock : Option Nat}

theorem move_self : (s.move t c stage file lock).calls t = some (c, stage) :=
  Function.update_self ..

theorem move_other {t' : Nat} (h : t' ≠ t) :
    (s.move t c stage file lock).calls t' = s.calls t' := Function.update_of_ne h ..

theorem effective_self {c' : HostCall} :
    Effective (s.move t c stage file lock) t c' ↔ c' = c ∧ stage.effective c = true := by
  constructor
  · intro ⟨stage', hcall, heff⟩
    rw [move_self] at hcall
    obtain ⟨rfl, rfl⟩ := Prod.mk.inj (Option.some.inj hcall)
    exact ⟨rfl, heff⟩
  · intro ⟨hc, heff⟩
    exact ⟨stage, by rw [move_self, hc], hc ▸ heff⟩

theorem effective_other {t' : Nat} {c' : HostCall} (h : t' ≠ t) :
    Effective (s.move t c stage file lock) t' c' ↔ Effective s t' c' := by
  unfold Effective
  rw [move_other h]

theorem RegistryInv.ordered_move (h : RegistryInv initial s) (heffects : Effects s t c stage file) :
    Ordered applyCall initial file (Effective (s.move t c stage file lock)) := by
  cases heffects with
  | before hdone hstage hfile =>
    rw [hfile]
    apply h.ordered.congr
    intro t' c'
    by_cases ht : t' = t
    · subst ht
      rw [effective_self]
      constructor
      · intro ⟨hc, _⟩
        rw [hc]
        exact hdone
      · intro ⟨stage', hcall, _⟩
        obtain ⟨stage'', hcall', _⟩ := hdone
        rw [hcall] at hcall'
        exact ⟨congrArg Prod.fst (Option.some.inj hcall'), hstage⟩
    · exact effective_other ht
  | later hnot hstage hfile =>
    rw [hfile]
    apply h.ordered.congr
    intro t' c'
    by_cases ht : t' = t
    · subst ht
      rw [effective_self, hstage]
      constructor
      · intro ⟨_, hfalse⟩
        cases hfalse
      · intro hdone
        exact absurd hdone (hnot c')
    · exact effective_other ht
  | now hnot hstage hfile =>
    rw [hfile]
    apply h.ordered.commit hnot
    intro t' c'
    by_cases ht : t' = t
    · subst ht
      rw [effective_self]
      constructor
      · intro ⟨hc, _⟩
        exact .inr ⟨rfl, hc⟩
      · intro hor
        rcases hor with hdone | ⟨-, hc⟩
        · exact absurd hdone (hnot c')
        · exact ⟨hc, hstage⟩
    · rw [effective_other ht]
      constructor
      · exact .inl
      · intro hor
        exact hor.resolve_right (fun heq => ht heq.1)

/-- A call moves on.  `hothers` keeps the lock with the other calls, and
`hsame` keeps the file as a call that holds the lock has loaded it. -/
theorem RegistryInv.move (h : RegistryInv initial s) (heffects : Effects s t c stage file)
    (hothers : ∀ t', t' ≠ t → s.lock = some t' → lock = some t')
    (hself : stage.holds c = true → lock = some t)
    (hsame : file = s.file ∨ ∀ t', t' ≠ t → s.lock ≠ some t')
    (hloaded : ∀ hosts, stage = .loaded hosts → c.takesLock = true → hosts = file) :
    RegistryInv initial (s.move t c stage file lock) where
  ordered := h.ordered_move heffects
  holder t' c' stage' hcall hholds := by
    by_cases ht : t' = t
    · subst ht
      rw [move_self] at hcall
      obtain ⟨rfl, rfl⟩ := Prod.mk.inj (Option.some.inj hcall)
      exact hself hholds
    · rw [move_other ht] at hcall
      exact hothers t' ht (h.holder t' c' stage' hcall hholds)
  loaded t' c' hosts hcall hlock := by
    by_cases ht : t' = t
    · subst ht
      rw [move_self] at hcall
      obtain ⟨rfl, rfl⟩ := Prod.mk.inj (Option.some.inj hcall)
      exact hloaded hosts rfl hlock
    · rw [move_other ht] at hcall
      have hholder := h.holder t' c' _ hcall hlock
      rcases hsame with hfile | hfree
      · show hosts = file
        rw [hfile]
        exact h.loaded t' c' hosts hcall hlock
      · exact absurd hholder (hfree t' ht)

theorem not_effective (hcall : s.calls t = some (c, stage)) (h : stage.effective c = false) :
    ∀ c', ¬ Effective s t c' := by
  intro c' ⟨stage', hcall', heff⟩
  rw [hcall] at hcall'
  obtain ⟨rfl, rfl⟩ := Prod.mk.inj (Option.some.inj hcall')
  rw [h] at heff
  cases heff

theorem effective_of (hcall : s.calls t = some (c, stage)) (h : stage.effective c = true) :
    Effective s t c := ⟨stage, hcall, h⟩

theorem applyCall_of_none {hosts : HostsFile} (h : c.write hosts = none) : applyCall c hosts = hosts := by
  rw [applyCall, h]
  rfl

/-- A call that has just loaded the file has had its effect when it saves
nothing. -/
theorem effects_load (hnot : ∀ c', ¬ Effective s t c') :
    Effects s t c (.loaded s.file) s.file := by
  cases hwrite : c.write s.file with
  | none =>
    refine .now hnot ?_ (applyCall_of_none hwrite).symm
    show (c.write s.file).isNone = true
    rw [hwrite]
    rfl
  | some file =>
    refine .later hnot ?_ rfl
    show (c.write s.file).isNone = false
    rw [hwrite]
    rfl

/-! ## One step -/

theorem inv_call (h : RegistryInv initial s) (hs : registryStep s (.call t c) = some s') :
    RegistryInv initial s' := by
  unfold registryStep at hs
  dsimp only at hs
  split at hs
  · next hnone =>
    cases hs
    apply h.move
    · refine .later ?_ rfl rfl
      intro c' ⟨stage, hcall, _⟩
      rw [hnone] at hcall
      cases hcall
    · exact fun _ _ => id
    · intro hholds
      cases hholds
    · exact .inl rfl
    · intro hosts hstage
      cases hstage
  · cases hs

theorem inv_precheck (h : RegistryInv initial s) (hs : registryStep s (.precheck t) = some s') :
    RegistryInv initial s' := by
  unfold registryStep at hs
  dsimp only at hs
  split at hs
  · next entry hcall =>
    cases hs
    by_cases hexists : s.file.any (fun h => h.address = entry.address) = true
    · have hwrite : (HostCall.addHost entry).write s.file = none := by
        rw [HostCall.write, if_pos hexists]
      rw [if_pos hexists]
      apply h.move
      · exact .now (not_effective hcall rfl) rfl (applyCall_of_none hwrite).symm
      · exact fun _ _ => id
      · intro hholds
        cases hholds
      · exact .inl rfl
      · intro hosts hstage
        cases hstage
    · rw [if_neg hexists]
      apply h.move
      · exact .later (not_effective hcall rfl) rfl rfl
      · exact fun _ _ => id
      · intro hholds
        cases hholds
      · exact .inl rfl
      · intro hosts hstage
        cases hstage
  · cases hs

theorem entryStage_not_effective : c.entryStage.effective c = false := by
  cases c <;> rfl

theorem inv_acquire (h : RegistryInv initial s) (hs : registryStep s (.acquire t) = some s') :
    RegistryInv initial s' := by
  unfold registryStep at hs
  dsimp only at hs
  split at hs
  · next c stage hcall =>
    split at hs
    · next hcond =>
      cases hs
      simp only [Bool.and_eq_true, decide_eq_true_eq] at hcond
      obtain ⟨⟨_, hstage⟩, hfree⟩ := hcond
      rw [hstage] at hcall
      apply h.move
      · exact .later (not_effective hcall entryStage_not_effective) rfl rfl
      · intro t' _ hlock
        rw [hfree] at hlock
        cases hlock
      · exact fun _ => rfl
      · exact .inl rfl
      · intro hosts hstage'
        cases hstage'
    · cases hs
  · cases hs

theorem inv_load (h : RegistryInv initial s) (hs : registryStep s (.load t) = some s') :
    RegistryInv initial s' := by
  unfold registryStep at hs
  dsimp only at hs
  split at hs
  · next c hcall =>
    cases hs
    apply h.move
    · exact effects_load (not_effective hcall rfl)
    · exact fun _ _ => id
    · exact fun _ => h.holder t c .locked hcall rfl
    · exact .inl rfl
    · intro hosts hstage _
      cases hstage
      rfl
  · next address captured fetched hcall =>
    cases hs
    have hnot := not_effective hcall rfl
    by_cases hnothing : (captured || fetched = none) = true
    · have hwrite : (HostCall.ensureHostMac address captured fetched).write s.file = none := by
        rw [Bool.or_eq_true, decide_eq_true_iff] at hnothing
        rcases hnothing with rfl | rfl
        · rfl
        · cases captured <;> rfl
      rw [if_pos hnothing]
      apply h.move
      · exact .now hnot rfl (applyCall_of_none hwrite).symm
      · exact fun _ _ => id
      · intro hholds
        cases hholds
      · exact .inl rfl
      · intro hosts hstage
        cases hstage
    · rw [if_neg hnothing]
      apply h.move
      · exact effects_load hnot
      · exact fun _ _ => id
      · intro hholds
        cases hholds
      · exact .inl rfl
      · intro hosts _ hlock
        cases hlock
  · cases hs

/-- A save writes what the call makes of the file: a call with the lock has
loaded it, and `ensure_host_mac` has by assumption. -/
theorem inv_save (h : RegistryInv initial s) (hin : SavesLoaded s (.save t))
    (hs : registryStep s (.save t) = some s') : RegistryInv initial s' := by
  unfold registryStep at hs
  dsimp only at hs
  split at hs
  · next c hosts hcall =>
    have hstage : ∀ stage, (if c.takesLock = true then CallStage.saved else .finished) = stage →
        stage.effective c = true ∧ (stage.holds c = true → c.takesLock = true) ∧
          ∀ hosts, stage ≠ .loaded hosts := by
      intro stage hstage
      rw [← hstage]
      by_cases hlock : c.takesLock = true
      · rw [if_pos hlock]
        exact ⟨rfl, fun _ => hlock, fun _ heq => by cases heq⟩
      · rw [if_neg hlock]
        exact ⟨rfl, fun hholds => (by cases hholds), fun _ heq => by cases heq⟩
    obtain ⟨heff, hholds, hnot⟩ := hstage _ rfl
    split at hs
    · next hwrite =>
      cases hs
      apply h.move
      · refine .before (effective_of hcall ?_) heff rfl
        show (c.write hosts).isNone = true
        rw [hwrite]
        rfl
      · exact fun _ _ => id
      · exact fun hstage => h.holder t c _ hcall (hholds hstage)
      · exact .inl rfl
      · exact fun hosts hstage => absurd hstage (hnot hosts)
    · next file hwrite =>
      split at hs
      · next hcond =>
        cases hs
        have hfile : hosts = s.file := by
          by_cases hlock : c.takesLock = true
          · exact h.loaded t c hosts hcall hlock
          · simp only [SavesLoaded, hcall, hwrite] at hin
            rcases hin with htakes | hnone | hsame
            · exact absurd htakes hlock
            · cases hnone
            · exact hsame
        apply h.move
        · refine .now (not_effective hcall ?_) heff ?_
          · show (c.write hosts).isNone = false
            rw [hwrite]
            rfl
          · rw [applyCall, ← hfile, hwrite]
            rfl
        · exact fun _ _ => id
        · exact fun hstage => h.holder t c _ hcall (hholds hstage)
        · -- No other call holds the lock: this one does, or nobody.
          refine .inr fun t' ht hlock => ?_
          rw [Bool.or_eq_true, decide_eq_true_iff] at hcond
          rcases hcond with htakes | hfree
          · rw [h.holder t c _ hcall htakes] at hlock
            exact ht (Option.some.inj hlock).symm
          · rw [hfree] at hlock
            cases hlock
        · exact fun hosts hstage => absurd hstage (hnot hosts)
      · cases hs
  · cases hs

theorem inv_release (h : RegistryInv initial s) (hs : registryStep s (.release t) = some s') :
    RegistryInv initial s' := by
  unfold registryStep at hs
  dsimp only at hs
  split at hs
  · next c hcall =>
    cases hs
    have hholder := h.holder t c .saved hcall rfl
    apply h.move
    · exact .before (effective_of hcall rfl) rfl rfl
    · intro t' ht hlock
      rw [hholder] at hlock
      exact absurd (Option.some.inj hlock).symm ht
    · intro hholds
      cases hholds
    · exact .inl rfl
    · intro hosts hstage
      cases hstage
  · cases hs

/-- One step keeps the invariant, when `ensure_host_mac` saves over the list
that it has loaded. -/
theorem registryStep_inv {e : RegistryEvent} (h : RegistryInv initial s) (hin : SavesLoaded s e)
    (hs : registryStep s e = some s') : RegistryInv initial s' := by
  cases e with
  | call t c => exact inv_call h hs
  | precheck t => exact inv_precheck h hs
  | acquire t => exact inv_acquire h hs
  | load t => exact inv_load h hs
  | save t => exact inv_save h hin hs
  | release t => exact inv_release h hs

/-- In a run in which `ensure_host_mac` saves over the list that it has loaded,
the file is in the end what all calls make of it in some order. -/
theorem registry_sequential {events : List RegistryEvent}
    (hin : Each registryStep SavesLoaded (RegistryState.init initial) events)
    (hrun : run registryStep (RegistryState.init initial) events = some s)
    (hfinished : AllFinished s) : Sequential initial s := by
  have hinv : RegistryInv initial s :=
    run_preserves (fun _ _ _ h hin hs => registryStep_inv h hin hs) (registryInv_init initial) hin hrun
  apply hinv.ordered.congr
  intro t c
  constructor
  · intro ⟨stage, hcall⟩
    exact ⟨stage, hcall, by rw [hfinished t c stage hcall]; rfl⟩
  · intro ⟨stage, hcall, _⟩
    exact ⟨stage, hcall⟩

end

/-- A step moves the call that takes it. -/
theorem registryStep_calls {s s' : RegistryState} {e : RegistryEvent}
    (hs : registryStep s e = some s') {t : Nat} (ht : t ≠ e.thread) : s'.calls t = s.calls t := by
  have hmove : ∃ c stage file lock, s' = s.move e.thread c stage file lock := by
    unfold registryStep at hs
    repeat' split at hs
    all_goals cases hs
    all_goals exact ⟨_, _, _, _, rfl⟩
  obtain ⟨c, stage, file, lock, rfl⟩ := hmove
  exact move_other ht

/-- Only the calls of a run are in its states. -/
theorem run_calls {s s' : RegistryState} {events : List RegistryEvent}
    (hrun : run registryStep s events = some s') {t : Nat} (ht : ∀ e ∈ events, t ≠ e.thread) :
    s'.calls t = s.calls t := by
  induction events generalizing s with
  | nil =>
    cases hrun
    rfl
  | cons e events ih =>
    obtain ⟨s₁, hs₁, hrest⟩ := run_cons_iff.mp hrun
    rw [ih hrest (fun e' he' => ht e' (List.mem_cons_of_mem _ he')),
      registryStep_calls hs₁ (ht e List.mem_cons_self)]

/-! ## The run that loses a host -/

def pve1 : HostRecord where
  name := "pve1"
  address := "10.0.0.1"
  port := 22
  user := "root"

def pve2 : HostRecord where
  name := "pve2"
  address := "10.0.0.2"
  port := 22
  user := "root"

/-- The capture of the MAC of the first host. -/
def capture : HostCall := .ensureHostMac "10.0.0.1" false (some "aa:bb:cc:dd:ee:ff".toList)

/-- The second host is added before the MAC of the first one is captured. -/
def addThenCapture : List RegistryEvent :=
  [.call 1 (.addHost pve2), .precheck 1, .acquire 1, .load 1, .save 1, .release 1,
    .call 0 capture, .load 0, .save 0]

/-- The second host is added while the capture has the old list. -/
def addDuringCapture : List RegistryEvent :=
  [.call 0 capture, .load 0,
    .call 1 (.addHost pve2), .precheck 1, .acquire 1, .load 1, .save 1, .release 1,
    .save 0]

/-- Two calls have run to their end, and there are no others. -/
theorem two_finished {s : RegistryState} {events : List RegistryEvent} {file : HostsFile}
    {c₀ c₁ : HostCall}
    (hrun : run registryStep (RegistryState.init file) events = some s)
    (hthreads : ∀ e ∈ events, e.thread = 0 ∨ e.thread = 1)
    (h₀ : s.calls 0 = some (c₀, .finished)) (h₁ : s.calls 1 = some (c₁, .finished))
    {t : Nat} {c : HostCall} {stage : CallStage} :
    s.calls t = some (c, stage) ↔ (t, c) ∈ [(0, c₀), (1, c₁)] ∧ stage = .finished := by
  have hnone : ¬ (t = 0 ∨ t = 1) → s.calls t = none := by
    intro ht
    rw [run_calls hrun]
    · rfl
    · intro e he heq
      exact ht (heq ▸ hthreads e he)
  by_cases ht : t = 0 ∨ t = 1
  · rcases ht with rfl | rfl
    · rw [h₀]
      simp [eq_comm]
    · rw [h₁]
      simp [eq_comm]
  · rw [hnone ht]
    simp at ht
    simp [ht]

theorem addThenCapture_runs :
    ∃ s, run registryStep (RegistryState.init [pve1]) addThenCapture = some s ∧
      s.calls 0 = some (capture, .finished) ∧ s.calls 1 = some (.addHost pve2, .finished) := by
  refine ⟨_, rfl, ?_⟩
  decide

theorem addDuringCapture_runs :
    ∃ s, run registryStep (RegistryState.init [pve1]) addDuringCapture = some s ∧
      s.file = [{ pve1 with wolMac := some "aa:bb:cc:dd:ee:ff".toList }] ∧
      s.calls 0 = some (capture, .finished) ∧ s.calls 1 = some (.addHost pve2, .finished) := by
  refine ⟨_, rfl, ?_⟩
  decide

theorem registry_sequential_addThenCapture :
    ∃ s, run registryStep (RegistryState.init [pve1]) addThenCapture = some s ∧
      Sequential [pve1] s := by
  obtain ⟨s, hrun, h₀, h₁⟩ := addThenCapture_runs
  refine ⟨s, hrun, registry_sequential (by decide) hrun fun t c stage hcall => ?_⟩
  exact ((two_finished hrun (by decide) h₀ h₁).mp hcall).2

/-- The capture saves the list from before the second host was added, which no
order of the two calls does. -/
theorem mac_loses_host :
    ¬ ∀ (initial : HostsFile) (events : List RegistryEvent) (s : RegistryState),
      run registryStep (RegistryState.init initial) events = some s → AllFinished s →
        Sequential initial s := by
  intro hclaim
  obtain ⟨s, hrun, hfile, h₀, h₁⟩ := addDuringCapture_runs
  have htwo : ∀ {t c stage}, s.calls t = some (c, stage) ↔
      (t, c) ∈ [(0, capture), (1, .addHost pve2)] ∧ stage = .finished :=
    two_finished hrun (by decide) h₀ h₁
  obtain ⟨order, hnodup, hmem, hordered⟩ :=
    hclaim _ _ s hrun (fun t c stage hcall => (htwo.mp hcall).2)
  have hperm : order.Perm [(0, capture), (1, .addHost pve2)] := by
    rw [List.perm_ext_iff_of_nodup hnodup.of_map (by decide)]
    intro ⟨t, c⟩
    rw [hmem]
    constructor
    · intro ⟨stage, hcall⟩
      exact (htwo.mp hcall).1
    · intro hpair
      exact ⟨.finished, htwo.mpr ⟨hpair, rfl⟩⟩
  have hlost : ∀ order ∈ [(0, capture), (1, .addHost pve2)].permutations',
      execute applyCall [pve1] order ≠ [{ pve1 with wolMac := some "aa:bb:cc:dd:ee:ff".toList }] := by
    decide
  exact hlost order (List.mem_permutations'.mpr hperm) (hordered.symm.trans hfile)

end PveZfsTool.Ssh
