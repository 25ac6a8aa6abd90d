import PveZfsTool.Recovery.CreateSafety
import PveZfsTool.Lib.Environment
import PveZfsTool.Lib.Surveys

/-!
# The holds of the recovery jobs

`create_job` holds the origin snapshots while it clones them, and both jobs
release the holds of the tool.

* `holdEnv`: the snapshots that carry the hold, and how commands change them.
* `holdsLeft_eq`, `stillHeld_eq`, `originsOf_eq`: the loops over the snapshots
  are surveys, and what they keep stands in the log.
* `run_createJob_holds`, `run_destroyJob_holds`: how a run of a job ends that
  returns.
-/

namespace PveZfsTool

open Dialogue Text

/-! ## The holds on the host -/

/-- The hold of the tool is among the tags of a `zfs holds`. -/
def showsHold (a : Answer) : Bool := (holdTags a.stdout).contains holdTag

/-- The clones in an answer to `zfs get clones`. -/
def clonesIn (a : Answer) : List Str :=
  if a.success then (splitOn ',' (strip a.stdout)).filter (fun c => c ≠ [] ∧ c ≠ ("-" : Str))
  else []

/-- The origin in an answer to `zfs get origin`. -/
def originIn (a : Answer) : Option Str :=
  if a.success ∧ strip a.stdout ≠ [] ∧ strip a.stdout ≠ ("-" : Str) then some (strip a.stdout)
  else none

/-- The snapshots that carry the hold of the tool. -/
abbrev Holds := Str → Bool

/-- The hold of a snapshot is taken or released.  A command that failed, or
whose answer was lost, may have done it or not. -/
def Holds.Becomes (held : Holds) (snap : Str) (b : Bool) (a : Answer) (held' : Holds) : Prop :=
  held' = Function.update held snap b ∨ a.success = false ∧ held' = held

/-- A `zfs holds` that succeeded shows the hold exactly when it is there. -/
def holdEnv : Env Holds Request Answer Empty where
  respond held q a held' :=
    match q.cmd with
    | .zfsHold tag snap => if tag = holdTag then held.Becomes snap true a held' else held' = held
    | .zfsRelease tag snap => if tag = holdTag then held.Becomes snap false a held' else held' = held
    | .zfsHolds snap => held' = held ∧ (a.success = true → (showsHold a = true ↔ held snap = true))
    | _ => held' = held
  move _ m _ := m.elim

/-- What a command has to do with the holds. -/
inductive HoldStep where
  | take
  | release
  | check
  | origin
  | clones
  | destroy
  | write
  | other
  deriving DecidableEq

def Cmd.holdStep : Cmd → HoldStep
  | .zfsHold _ _ => .take
  | .zfsRelease _ _ => .release
  | .zfsHolds _ => .check
  | .zfsOrigin _ => .origin
  | .zfsClones _ => .clones
  | .guestDestroy _ _ => .destroy
  | .confWrite _ _ => .write
  | _ => .other

/-- Commands that neither take nor release a hold leave the holds alone. -/
def Settled (log : Log) : Prop :=
  ∀ entry ∈ log, entry.1.cmd.holdStep ≠ .take ∧ entry.1.cmd.holdStep ≠ .release

theorem step_settled {held held' : Holds} {q : Request} {a : Answer}
    (htake : q.cmd.holdStep ≠ .take) (hrelease : q.cmd.holdStep ≠ .release)
    (h : holdEnv.Step held (.request q a) held') : held' = held := by
  obtain ⟨host, cmd⟩ := q
  cases cmd with
  | zfsHold => exact absurd rfl htake
  | zfsRelease => exact absurd rfl hrelease
  | zfsHolds => exact h.1
  | _ => exact h

theorem path_settled {held held' : Holds} {tr : Trail Request Answer Empty Holds}
    (hpath : holdEnv.Path held tr held') (h : Settled (answered tr)) : held' = held := by
  refine (hpath.preserves (I := fun u => u = held) rfl (fun e u hmem u₀ hu₀ hstep => ?_)).2
  cases e with
  | move m => exact m.elim
  | request q a =>
    obtain ⟨htake, hrelease⟩ := h (q, a) (mem_answered.mpr ⟨u, hmem⟩)
    rw [step_settled htake hrelease hstep, hu₀]

/-- After the last release, a `zfs holds` that succeeded tells whether the
hold is left. -/
theorem showsHold_iff {held held' : Holds} {tr : Trail Request Answer Empty Holds} {host : Host}
    {snap : Str} {a : Answer} (hpath : holdEnv.Path held tr held') (h : Settled (answered tr))
    (hmem : (⟨host, .zfsHolds snap⟩, a) ∈ answered tr) (hsucc : a.success = true) :
    showsHold a = true ↔ held' snap = true := by
  obtain ⟨u, hstep⟩ := mem_answered.mp hmem
  obtain ⟨t₁, t₂, rfl⟩ := List.append_of_mem hstep
  obtain ⟨hfront, hcheck, hback⟩ := hpath.cut
  have hall : held' = held := path_settled hpath h
  have hthen : stateAfter held t₁ = held :=
    path_settled hfront (fun entry hentry => h entry (by simp [hentry]))
  rw [hthen] at hcheck
  rw [hall]
  exact hcheck.2 hsucc

/-! ## The loops over the snapshots -/

section Loops

variable {host : Host}

theorem holdsLeft_eq (snaps : List Str) :
    holdsLeft host snaps = survey (fun snap => ⟨host, .zfsHolds snap⟩)
      (fun snap a => if showsHold a then some snap else none) snaps := by
  induction snaps with
  | nil => rfl
  | cons snap snaps ih =>
    rw [holdsLeft, survey, ih]
    refine congrArg (Prog.ask _) (funext fun a => ?_)
    show (survey _ _ snaps >>= _) = (survey _ _ snaps >>= _)
    refine congrArg (survey _ _ snaps >>= ·) (funext fun left => ?_)
    show (return if showsHold a = true then snap :: left else left) = _
    split <;> rfl

theorem stillHeld_eq (origins : List Str) :
    stillHeld host origins = survey (fun o => ⟨host, .zfsClones o⟩)
      (fun o a => if clonesIn a ≠ [] then some (o, clonesIn a) else none) origins := by
  induction origins with
  | nil => rfl
  | cons o origins ih =>
    rw [stillHeld, survey, ih]
    refine congrArg (Prog.ask _) (funext fun a => ?_)
    show (survey _ _ origins >>= _) = (survey _ _ origins >>= _)
    refine congrArg (survey _ _ origins >>= ·) (funext fun rest => ?_)
    show (return if clonesIn a ≠ [] then (o, clonesIn a) :: rest else rest) = _
    split <;> rfl

theorem originsOf_eq (disks : List Disk) :
    originsOf host disks = survey (fun d => ⟨host, .zfsOrigin d.dataset⟩)
      (fun _ a => originIn a) disks := by
  induction disks with
  | nil => rfl
  | cons d disks ih =>
    rw [originsOf, survey, ih]
    refine congrArg (Prog.ask _) (funext fun a => ?_)
    show (survey _ _ disks >>= _) = (survey _ _ disks >>= _)
    refine congrArg (survey _ _ disks >>= ·) (funext fun rest => ?_)
    unfold originIn
    split_ifs with ho hne hnil
    · rfl
    · exact absurd ho.2.1 hne
    · exact absurd rfl hnil
    · rfl

variable {log : Log}

theorem mem_holdsLeft {snaps left : List Str} (h : (holdsLeft host snaps).Run log (.ok left))
    (snap : Str) :
    snap ∈ left ↔ Said log ⟨host, .zfsHolds snap⟩ (fun a => showsHold a = true) := by
  rw [holdsLeft_eq] at h
  have hask : ∀ x x' : Str, (⟨host, .zfsHolds x⟩ : Request) = ⟨host, .zfsHolds x'⟩ → x = x' := by
    intro x x' heq
    exact Cmd.zfsHolds.inj (congrArg Request.cmd heq)
  rw [said_survey (fun x x' heq => by rw [hask x x' heq]) h]
  constructor
  · rintro ⟨x, a, hmem, hkeep⟩
    split_ifs at hkeep with hshows
    obtain rfl := Option.some.inj hkeep
    exact ⟨a, hmem, hshows⟩
  · rintro ⟨a, hmem, hshows⟩
    exact ⟨snap, a, hmem, if_pos hshows⟩

theorem mem_stillHeld {origins : List Str} {held : List (Str × List Str)}
    (h : (stillHeld host origins).Run log (.ok held)) (o : Str) :
    o ∈ held.map Prod.fst ↔ Said log ⟨host, .zfsClones o⟩ (fun a => clonesIn a ≠ []) := by
  rw [stillHeld_eq] at h
  have hask : ∀ x x' : Str, (⟨host, .zfsClones x⟩ : Request) = ⟨host, .zfsClones x'⟩ → x = x' := by
    intro x x' heq
    exact Cmd.zfsClones.inj (congrArg Request.cmd heq)
  have hsaid := said_survey (fun x x' heq => by rw [hask x x' heq]) h
  rw [List.mem_map]
  constructor
  · rintro ⟨e, he, rfl⟩
    obtain ⟨x, a, hmem, hkeep⟩ := (hsaid e).mp he
    split_ifs at hkeep with hclones
    obtain rfl := Option.some.inj hkeep
    exact ⟨a, hmem, hclones⟩
  · rintro ⟨a, hmem, hclones⟩
    exact ⟨(o, clonesIn a), (hsaid _).mpr ⟨o, a, hmem, if_pos hclones⟩, rfl⟩

theorem mem_originsOf {disks : List Disk} {origins : List Str}
    (h : (originsOf host disks).Run log (.ok origins)) (o : Str) :
    o ∈ origins ↔ ∃ ds, Said log ⟨host, .zfsOrigin ds⟩ (fun a => originIn a = some o) := by
  rw [originsOf_eq] at h
  rw [said_survey (fun _ _ _ => rfl) h]
  constructor
  · rintro ⟨d, hsaid⟩
    exact ⟨d.dataset, hsaid⟩
  · rintro ⟨ds, hsaid⟩
    exact ⟨⟨[], [], ds, []⟩, hsaid⟩

/-! ## What each part has to do with the holds -/

/-- Every command of the program is of this kind. -/
def Steps {α : Type} (step : HoldStep) (p : Job α) : Prop := p.Uses (fun q => q.cmd.holdStep = step)

theorem steps_of_prepares {α : Type} {p : Job α} (h : p.Uses Prepares) : Steps .other p := by
  refine h.mono (fun q hq => ?_)
  obtain ⟨host, cmd⟩ := q
  unfold Prepares at hq
  cases cmd <;> first | rfl | cases hq

theorem steps_holdEach (snaps : List Str) : Steps .take (holdEach host snaps) := by
  induction snaps with
  | nil => trivial
  | cons snap snaps ih => exact ⟨rfl, fun _ => ih⟩

theorem steps_releaseEach (snaps : List Str) : Steps .release (releaseEach host snaps) := by
  induction snaps with
  | nil => trivial
  | cons snap snaps ih => exact ⟨rfl, fun _ => ih⟩

theorem steps_holdsLeft (snaps : List Str) : Steps .check (holdsLeft host snaps) := by
  rw [holdsLeft_eq]
  exact uses_survey (fun _ _ => rfl)

theorem steps_stillHeld (origins : List Str) : Steps .clones (stillHeld host origins) := by
  rw [stillHeld_eq]
  exact uses_survey (fun _ _ => rfl)

theorem steps_originsOf (disks : List Disk) : Steps .origin (originsOf host disks) := by
  rw [originsOf_eq]
  exact uses_survey (fun _ _ => rfl)

theorem steps_destroyEach (datasets : List Str) : Steps .other (destroyEach host datasets) :=
  uses_destroyEach (fun _ _ => rfl)

theorem steps_leftovers (disks : List Disk) : Steps .other (leftovers host disks) := by
  induction disks with
  | nil => trivial
  | cons d disks ih => exact ⟨rfl, fun _ => ih.bind (fun _ => trivial)⟩

theorem steps_stopRecovery (tool : Tool) (vmid : Str) :
    Steps .other (stopRecovery host tool vmid) := by
  refine ⟨rfl, fun a => ?_⟩
  show Prog.Uses _ (if _ then _ else _)
  split
  · exact ⟨rfl, fun _ => trivial⟩
  · trivial

theorem steps_cloneDisks {c : CloneOrder} {made : Clones} {disks : List Disk} :
    Steps .other (cloneDisks host c made disks) := by
  induction disks generalizing made with
  | nil => trivial
  | cons d disks ih =>
    have hname : Steps .other (liftExn (cloneVolumeName d.dataset c.newVmid)) := by
      cases cloneVolumeName d.dataset c.newVmid <;> trivial
    refine hname.bind (fun name => ⟨rfl, fun r => ?_⟩)
    show Prog.Uses _ (if _ then _ else _)
    split
    · exact ih
    · exact (steps_destroyEach _).bind (fun _ => trivial)

/-- A run of a part has answers to commands of its kind only. -/
theorem Steps.sound {α : Type} {step : HoldStep} {p : Job α} {o : Except Exn α} (hp : Steps step p)
    (h : p.Run log o) : ∀ entry ∈ log, entry.1.cmd.holdStep = step := Prog.Uses.sound hp h

end Loops

/-- A command of another kind has no answer in the log. -/
theorem not_said_of_steps {log : Log} {q : Request} {P : Answer → Prop}
    (h : ∀ entry ∈ log, entry.1.cmd.holdStep ≠ q.cmd.holdStep) : ¬ Said log q P :=
  not_said (fun entry hmem heq => h entry hmem (by rw [heq]))

/-! ## Creating -/

/-- The config of the clone was written. -/
def ConfigWritten (host : Host) (log : Log) : Prop :=
  ∃ dest content, Said log ⟨host, .confWrite dest content⟩
    (fun a => contains a.stdout "__OK__" = true)

section Create

variable {host : Host} {log : Log}

theorem not_configWritten (h : ∀ entry ∈ log, entry.1.cmd.holdStep ≠ .write) :
    ¬ ConfigWritten host log := by
  rintro ⟨dest, content, hsaid⟩
  exact not_said_of_steps h hsaid

theorem configWritten_append {front : Log} (h : ∀ entry ∈ front, entry.1.cmd.holdStep ≠ .write) :
    ConfigWritten host (front ++ log) ↔ ConfigWritten host log := by
  refine exists_congr (fun dest => exists_congr (fun content => ?_))
  rw [said_append]
  exact or_iff_right (not_said_of_steps h)

/-- `restore_guest_config` succeeds when it wrote the config. -/
theorem run_restoreGuestConfig {gtype vmid content : Str} {force : Bool} {wr : RestoreResult}
    (h : (restoreGuestConfig host gtype vmid content force).Run log (.ok wr)) :
    (∀ entry ∈ log, entry.1.cmd.holdStep = .other ∨ entry.1.cmd.holdStep = .write) ∧
      (wr.success = true ↔ ConfigWritten host log) := by
  have hlog : ∀ entry ∈ log, entry.1.cmd.holdStep = .other ∨ entry.1.cmd.holdStep = .write := by
    intro entry hmem
    obtain ⟨-, ⟨dest, hcmd⟩ | ⟨dest, hcmd⟩⟩ :=
      (uses_restoreGuestConfig host gtype vmid content force).sound h entry hmem
    · exact .inl (by rw [hcmd]; rfl)
    · exact .inr (by rw [hcmd]; rfl)
  refine ⟨hlog, ?_⟩
  unfold restoreGuestConfig at h
  split at h
  · obtain ⟨rfl, hwr⟩ := Prog.run_ret.mp h
    rw [Except.ok.inj hwr]
    exact iff_of_false Bool.false_ne_true (not_configWritten (by simp))
  · split at h
    · obtain ⟨rfl, hwr⟩ := Prog.run_ret.mp h
      rw [Except.ok.inj hwr]
      exact iff_of_false Bool.false_ne_true (not_configWritten (by simp))
    · obtain ⟨probe, rest, rfl, hrest⟩ := Prog.run_ask.mp h
      change Prog.Run (if _ then _ else _) rest _ at hrest
      split at hrest
      · obtain ⟨rfl, hwr⟩ := Prog.run_ret.mp hrest
        rw [Except.ok.inj hwr]
        refine iff_of_false Bool.false_ne_true (not_configWritten ?_)
        simp [Cmd.holdStep]
      · obtain ⟨a, rest, rfl, hret⟩ := Prog.run_ask.mp hrest
        obtain ⟨rfl, hwr⟩ := Prog.run_ret.mp hret
        rw [Except.ok.inj hwr]
        constructor
        · intro hok
          exact ⟨_, content, a, List.mem_cons_of_mem _ (List.mem_singleton_self _), hok⟩
        · rintro ⟨dest, content', b, hmem, hok⟩
          simp only [List.mem_cons, Prod.mk.injEq, Request.mk.injEq, reduceCtorEq, and_false,
            false_and, List.not_mem_nil, or_false, false_or] at hmem
          rw [hmem.2] at hok
          exact hok

/-- How a run of `create_job` ends that returns.  It fails without a written
config, or it succeeds: then `front` ends with the last release, and the
checks come after it. -/
inductive CreateReturn (host : Host) (log : Log) : CreateResult → Prop
  | failed (e : CreateFailure) (hwritten : ¬ ConfigWritten host log) :
      CreateReturn host log (.error e)
  | done (s : CreateSuccess) (front rest : Log) (hlog : log = front ++ rest)
      (hwritten : ConfigWritten host log)
      (hfront : ∀ entry ∈ front, entry.1.cmd.holdStep ≠ .check) (hrest : Settled rest)
      (hleft : ∀ snap, snap ∈ s.holdsLeft ↔
        Said rest ⟨host, .zfsHolds snap⟩ (fun a => showsHold a = true)) :
      CreateReturn host log (.ok s)

/-- Commands that neither hold nor check may come before. -/
theorem CreateReturn.front {front : Log} {r : CreateResult} (h : CreateReturn host log r)
    (hfront : ∀ entry ∈ front, entry.1.cmd.holdStep = .other) :
    CreateReturn host (front ++ log) r := by
  have hwrite : ∀ entry ∈ front, entry.1.cmd.holdStep ≠ .write :=
    fun entry hmem heq => by rw [hfront entry hmem] at heq; cases heq
  have hcheck : ∀ entry ∈ front, entry.1.cmd.holdStep ≠ .check :=
    fun entry hmem heq => by rw [hfront entry hmem] at heq; cases heq
  cases h with
  | failed e hwritten => exact .failed e (fun h => hwritten ((configWritten_append hwrite).mp h))
  | done s before rest hlog hwritten hbefore hrest hleft =>
    refine .done s (front ++ before) rest (by rw [hlog, List.append_assoc])
      ((configWritten_append hwrite).mpr hwritten) ?_ hrest hleft
    exact List.forall_mem_append.mpr ⟨hcheck, hbefore⟩

theorem run_finishCreate_holds {vmid : Str} {c : CloneOrder} {cfg : ConfigFile}
    {excluded : List Str} {fresh : Fresh} {clones : Clones} {left : List Str} {r : CreateResult}
    (h : (finishCreate host vmid c cfg excluded fresh clones left).Run log (.ok r)) :
    (∀ entry ∈ log, entry.1.cmd.holdStep = .other ∨ entry.1.cmd.holdStep = .write) ∧
      ((∃ s, r = .ok s ∧ s.holdsLeft = left ∧ ConfigWritten host log) ∨
        ∃ e, r = .error e ∧ ¬ ConfigWritten host log) := by
  obtain ⟨log₁, log₂, wr, rfl, hwrite, hrest⟩ := Prog.run_bind_ok h
  obtain ⟨hsteps, hwr⟩ := run_restoreGuestConfig hwrite
  split at hrest
  · next hok =>
    obtain ⟨rfl, hr⟩ := Prog.run_ret.mp hrest
    rw [List.append_nil]
    exact ⟨hsteps, .inl ⟨_, Except.ok.inj hr, rfl, hwr.mp hok⟩⟩
  · next hok =>
    obtain ⟨log₂, log₃, u, rfl, hdestroy, hret⟩ := Prog.run_bind_ok hrest
    obtain ⟨rfl, hr⟩ := Prog.run_ret.mp hret
    have hother := (steps_destroyEach _).sound hdestroy
    rw [List.append_nil]
    refine ⟨List.forall_mem_append.mpr ⟨hsteps, fun entry hmem => .inl (hother entry hmem)⟩,
      .inr ⟨_, Except.ok.inj hr, ?_⟩⟩
    rintro ⟨dest, content, hsaid⟩
    rcases said_append.mp hsaid with hsaid | hsaid
    · exact hok (hwr.mpr ⟨dest, content, hsaid⟩)
    · refine not_said_of_steps (fun entry hmem heq => ?_) hsaid
      rw [hother entry hmem] at heq
      cases heq

theorem run_cloneOrigin_holds {vmid : Str} {origin : Origin} {c : CloneOrder}
    {excluded : List Str} {fresh : Fresh} {r : CreateResult}
    (h : (cloneOrigin host vmid origin c excluded fresh).Run log (.ok r)) :
    CreateReturn host log r := by
  unfold cloneOrigin at h
  obtain ⟨logHold, log₁, u, rfl, hhold, h₁⟩ := Prog.run_bind_ok h
  obtain ⟨log₂, logFinish, ⟨made, left⟩, rfl, hfinally, hfinish⟩ := Prog.run_bind_ok h₁
  obtain ⟨logClone, log₃, cloned, released, rfl, hclone, hrelease, hpair⟩ :=
    Prog.run_tryFinally hfinally
  cases released with
  | error e => cases hpair
  | ok left' =>
  cases cloned with
  | error e => cases hpair
  | ok made' =>
  simp only [Except.map, Except.ok.injEq, Prod.mk.injEq] at hpair
  obtain ⟨rfl, rfl⟩ := hpair
  obtain ⟨logRelease, logCheck, u, rfl, heach, hcheck⟩ := Prog.run_bind_ok hrelease
  have htake := (steps_holdEach _).sound hhold
  have hother := steps_cloneDisks.sound hclone
  have hreleased := (steps_releaseEach _).sound heach
  have hchecked := (steps_holdsLeft _).sound hcheck
  -- nothing before the end of the job writes a config
  have hwrite : ∀ entry ∈ logHold ++ (logClone ++ (logRelease ++ logCheck)),
      entry.1.cmd.holdStep ≠ .write := by
    simp only [List.forall_mem_append]
    exact ⟨fun e he => by simp [htake e he], fun e he => by simp [hother e he],
      fun e he => by simp [hreleased e he], fun e he => by simp [hchecked e he]⟩
  cases made with
  | error e =>
    obtain ⟨rfl, hr⟩ := Prog.run_ret.mp hfinish
    rw [Except.ok.inj hr, List.append_nil]
    exact .failed e (not_configWritten hwrite)
  | ok clones =>
    obtain ⟨hsteps, hend⟩ := run_finishCreate_holds hfinish
    have hassoc : logHold ++ (logClone ++ (logRelease ++ logCheck) ++ logFinish) =
        logHold ++ (logClone ++ (logRelease ++ logCheck)) ++ logFinish := by simp
    rw [hassoc]
    rcases hend with ⟨s, rfl, rfl, hwritten⟩ | ⟨e, rfl, hwritten⟩
    · refine .done s (logHold ++ (logClone ++ logRelease)) (logCheck ++ logFinish) (by simp)
        ((configWritten_append hwrite).mpr hwritten) ?_ ?_ (fun snap => ?_)
      · simp only [List.forall_mem_append]
        exact ⟨fun e he => by simp [htake e he], fun e he => by simp [hother e he],
          fun e he => by simp [hreleased e he]⟩
      · refine List.forall_mem_append.mpr ⟨fun e he => by simp [hchecked e he], fun e he => ?_⟩
        rcases hsteps e he with hstep | hstep <;> simp [hstep]
      · rw [mem_holdsLeft hcheck, said_append]
        refine (or_iff_left (not_said_of_steps (fun e he heq => ?_))).symm
        rcases hsteps e he with hstep | hstep <;> rw [hstep] at heq <;> cases heq
    · exact .failed e (fun h => hwritten ((configWritten_append hwrite).mp h))

theorem run_createGuest_holds {vmid gtype snapshot newVmid : Str} {fresh : Fresh}
    {r : CreateResult} (h : (createGuest host vmid gtype snapshot newVmid fresh).Run log (.ok r)) :
    CreateReturn host log r := by
  have hfailed : ∀ {log : Log} {e : Str}, (∀ entry ∈ log, entry.1.cmd.holdStep = .other) →
      CreateReturn host log (.error ⟨e, []⟩) := by
    intro log e hall
    exact .failed _ (not_configWritten (fun entry hmem => by simp [hall entry hmem]))
  unfold createGuest at h
  obtain ⟨log₁, rest, origin, rfl, horigin, hrest⟩ := Prog.run_bind_ok h
  have h₁ := (steps_of_prepares (prepares_readOrigin host vmid gtype snapshot)).sound horigin
  cases origin with
  | error e =>
    obtain ⟨rfl, hr⟩ := Prog.run_ret.mp hrest
    rw [Except.ok.inj hr, List.append_nil]
    exact hfailed h₁
  | ok origin =>
  refine CreateReturn.front ?_ h₁
  obtain ⟨log₂, rest, chosen, rfl, hchosen, hrest⟩ := Prog.run_bind_ok hrest
  have h₂ := (steps_of_prepares ((prepares_chooseVmid host vmid newVmid).mono
    (fun _ => And.left))).sound hchosen
  cases chosen with
  | error e =>
    obtain ⟨rfl, hr⟩ := Prog.run_ret.mp hrest
    rw [Except.ok.inj hr, List.append_nil]
    exact hfailed h₂
  | ok chosen =>
  refine CreateReturn.front ?_ h₂
  obtain ⟨log₃, rest, prepared, rfl, hprepared, hrest⟩ := Prog.run_bind_ok hrest
  have h₃ := (steps_of_prepares ((prepares_prepareRoot host origin.pool).mono
    (fun _ => And.left))).sound hprepared
  cases prepared with
  | error e =>
    obtain ⟨rfl, hr⟩ := Prog.run_ret.mp hrest
    rw [Except.ok.inj hr, List.append_nil]
    exact hfailed h₃
  | ok prepared => exact (run_cloneOrigin_holds hrest).front h₃

theorem run_createJob_holds {vmid gtype snapshot newVmid : Str} {fresh : Fresh}
    {r : CreateResult} (h : (createJob host vmid gtype snapshot newVmid fresh).Run log (.ok r)) :
    CreateReturn host log r := by
  unfold createJob at h
  cases hv : validateVmid vmid with
  | error e =>
    simp only [hv, validated, Prog.raise_bind, Prog.run_raise, reduceCtorEq, and_false] at h
  | ok v =>
    cases hg : validateVmType gtype with
    | error e =>
      simp only [hv, hg, validated, Prog.pure_eq, Prog.ret_bind, Prog.raise_bind, Prog.run_raise,
        reduceCtorEq, and_false] at h
    | ok g =>
      simp only [hv, hg, validated, Prog.pure_eq, Prog.ret_bind] at h
      split at h
      · exact run_createGuest_holds h
      · obtain ⟨rfl, hr⟩ := Prog.run_ret.mp h
        rw [Except.ok.inj hr]
        exact .failed _ (not_configWritten (by simp))

end Create

/-! ## Destroying -/

/-- The guest was destroyed. -/
def GuestDestroyed (host : Host) (log : Log) : Prop :=
  ∃ tool vmid, Said log ⟨host, .guestDestroy tool vmid⟩ (fun a => a.success = true)

/-- The host named this snapshot as the origin of a disk. -/
def OriginOf (host : Host) (log : Log) (snap : Str) : Prop :=
  ∃ ds, Said log ⟨host, .zfsOrigin ds⟩ (fun a => originIn a = some snap)

section Destroy

variable {host : Host} {log : Log}

theorem not_guestDestroyed (h : ∀ entry ∈ log, entry.1.cmd.holdStep ≠ .destroy) :
    ¬ GuestDestroyed host log := by
  rintro ⟨tool, vmid, hsaid⟩
  exact not_said_of_steps h hsaid

theorem guestDestroyed_append {front : Log}
    (h : ∀ entry ∈ front, entry.1.cmd.holdStep ≠ .destroy) :
    GuestDestroyed host (front ++ log) ↔ GuestDestroyed host log := by
  refine exists_congr (fun tool => exists_congr (fun vmid => ?_))
  rw [said_append]
  exact or_iff_right (not_said_of_steps h)

theorem originOf_append_left {front : Log} {snap : Str}
    (h : ∀ entry ∈ front, entry.1.cmd.holdStep ≠ .origin) :
    OriginOf host (front ++ log) snap ↔ OriginOf host log snap := by
  refine exists_congr (fun ds => ?_)
  rw [said_append]
  exact or_iff_right (not_said_of_steps h)

theorem originOf_append_right {rest : Log} {snap : Str}
    (h : ∀ entry ∈ rest, entry.1.cmd.holdStep ≠ .origin) :
    OriginOf host (log ++ rest) snap ↔ OriginOf host log snap := by
  refine exists_congr (fun ds => ?_)
  rw [said_append]
  exact or_iff_left (not_said_of_steps h)

/-- How a run of `destroy_job` ends that returns.  It fails with the guest not
destroyed, or it succeeds: then `front` ends with the last release, and the
questions about the origins come after it. -/
inductive DestroyReturn (host : Host) (log : Log) : DestroyResult → Prop
  | failed (e : Str) (hdestroyed : ¬ GuestDestroyed host log) : DestroyReturn host log (.error e)
  | done (s : DestroySuccess) (front rest : Log) (hlog : log = front ++ rest)
      (hdestroyed : GuestDestroyed host log)
      (hfront : ∀ entry ∈ front, entry.1.cmd.holdStep ≠ .check ∧ entry.1.cmd.holdStep ≠ .clones)
      (hrest : Settled rest) (horigins : ∀ snap, snap ∈ s.origins ↔ OriginOf host log snap)
      (hleft : ∀ snap, snap ∈ s.holdsLeft ↔
        Said rest ⟨host, .zfsHolds snap⟩ (fun a => showsHold a = true))
      (hheld : ∀ snap, snap ∈ s.stillHeld.map Prod.fst ↔
        Said rest ⟨host, .zfsClones snap⟩ (fun a => clonesIn a ≠ []))
      (hreleased : ∀ snap, snap ∈ s.released ↔
        snap ∈ s.origins ∧ snap ∉ s.stillHeld.map Prod.fst ∧ snap ∉ s.holdsLeft)
      (hasked : ∀ snap ∈ s.origins, Said rest ⟨host, .zfsHolds snap⟩ (fun _ => True) ∧
        Said rest ⟨host, .zfsClones snap⟩ (fun _ => True)) :
      DestroyReturn host log (.ok s)

/-- Preparing commands may come before. -/
theorem DestroyReturn.front {front : Log} {r : DestroyResult} (h : DestroyReturn host log r)
    (hfront : ∀ entry ∈ front, entry.1.cmd.holdStep = .other) :
    DestroyReturn host (front ++ log) r := by
  have hdestroy : ∀ entry ∈ front, entry.1.cmd.holdStep ≠ .destroy :=
    fun entry hmem => by simp [hfront entry hmem]
  have horigin : ∀ entry ∈ front, entry.1.cmd.holdStep ≠ .origin :=
    fun entry hmem => by simp [hfront entry hmem]
  cases h with
  | failed e hdestroyed => exact .failed e (fun h => hdestroyed ((guestDestroyed_append hdestroy).mp h))
  | done s before rest hlog hdestroyed hbefore hrest horigins hleft hheld hreleased hasked =>
    refine .done s (front ++ before) rest (by rw [hlog, List.append_assoc])
      ((guestDestroyed_append hdestroy).mpr hdestroyed) ?_ hrest
      (fun snap => (horigins snap).trans (originOf_append_left horigin).symm) hleft hheld hreleased
      hasked
    exact List.forall_mem_append.mpr ⟨fun entry hmem => by simp [hfront entry hmem], hbefore⟩

theorem run_releaseOrigins {origins left : List Str}
    (h : (releaseOrigins host origins).Run log (.ok left)) :
    ∃ released checked, log = released ++ checked ∧
      (∀ entry ∈ released, entry.1.cmd.holdStep = .release) ∧
      (∀ entry ∈ checked, entry.1.cmd.holdStep = .check) ∧
      (∀ snap, snap ∈ left ↔ Said checked ⟨host, .zfsHolds snap⟩ (fun a => showsHold a = true)) ∧
      ∀ snap ∈ origins, Said checked ⟨host, .zfsHolds snap⟩ (fun _ => True) := by
  unfold releaseOrigins at h
  split_ifs at h with hnil
  · obtain ⟨rfl, hleft⟩ := Prog.run_ret.mp h
    rw [Except.ok.inj hleft, hnil]
    exact ⟨[], [], rfl, by simp, by simp, by simp [Said], by simp⟩
  · obtain ⟨released, checked, u, rfl, heach, hcheck⟩ := Prog.run_bind_ok h
    refine ⟨released, checked, rfl, (steps_releaseEach _).sound heach,
      (steps_holdsLeft _).sound hcheck, mem_holdsLeft hcheck, fun snap hsnap => ?_⟩
    rw [holdsLeft_eq] at hcheck
    exact asked_survey hcheck hsnap

theorem run_destroyGuest_holds {vmid gtype : Str} {mk : Marker} {disks : List Disk}
    {r : DestroyResult} (h : (destroyGuest host vmid gtype mk disks).Run log (.ok r)) :
    DestroyReturn host log r := by
  unfold destroyGuest at h
  obtain ⟨logOrigin, log₁, origins, rfl, horigin, h₁⟩ := Prog.run_bind_ok h
  obtain ⟨logStop, log₂, u, rfl, hstop, h₂⟩ := Prog.run_bind_ok h₁
  obtain ⟨logDestroy, log₃, a, rfl, hdestroy, h₃⟩ := Prog.run_bind_ok h₂
  obtain ⟨b, rfl, hb⟩ := run_runCommand.mp hdestroy
  obtain rfl := Except.ok.inj hb
  have hasked := (steps_originsOf _).sound horigin
  have hstopped := (steps_stopRecovery _ _).sound hstop
  have hbefore : ∀ entry ∈ logOrigin ++ logStop, entry.1.cmd.holdStep ≠ .destroy :=
    List.forall_mem_append.mpr
      ⟨fun e he => by simp [hasked e he], fun e he => by simp [hstopped e he]⟩
  split at h₃
  · next hok =>
    obtain ⟨logLeft, log₄, left, rfl, hleft, h₄⟩ := Prog.run_bind_ok h₃
    obtain ⟨logEach, log₅, u, rfl, heach, h₅⟩ := Prog.run_bind_ok h₄
    obtain ⟨logRelease, log₆, holds, rfl, hrelease, h₆⟩ := Prog.run_bind_ok h₅
    obtain ⟨logHeld, log₇, held, rfl, hheld, hret⟩ := Prog.run_bind_ok h₆
    obtain ⟨rfl, hr⟩ := Prog.run_ret.mp hret
    obtain ⟨released, checked, rfl, hreleased, hchecked, hholds, hsaid⟩ := run_releaseOrigins hrelease
    have hlisted := (steps_leftovers _).sound hleft
    have hgone := (steps_destroyEach _).sound heach
    have hclones := (steps_stillHeld _).sound hheld
    rw [Except.ok.inj hr]
    refine .done _ (logOrigin ++ (logStop ++ ([(⟨host, .guestDestroy (Tool.ofGtype gtype) vmid⟩, a)] ++
      (logLeft ++ (logEach ++ released))))) (checked ++ logHeld) (by simp) ?_ ?_ ?_ ?_ ?_ ?_ ?_ ?_
    · rw [← List.append_assoc, guestDestroyed_append hbefore]
      exact ⟨_, _, a, List.mem_cons_self, hok⟩
    · simp only [List.forall_mem_append, List.forall_mem_singleton]
      exact ⟨fun e he => by simp [hasked e he], fun e he => by simp [hstopped e he],
        by simp [Cmd.holdStep], fun e he => by simp [hlisted e he], fun e he => by simp [hgone e he],
        fun e he => by simp [hreleased e he]⟩
    · exact List.forall_mem_append.mpr
        ⟨fun e he => by simp [hchecked e he], fun e he => by simp [hclones e he]⟩
    · intro snap
      rw [originOf_append_right]
      · exact mem_originsOf horigin snap
      · simp only [List.forall_mem_append, List.forall_mem_singleton]
        exact ⟨fun e he => by simp [hstopped e he], by simp [Cmd.holdStep],
          fun e he => by simp [hlisted e he], fun e he => by simp [hgone e he],
          ⟨fun e he => by simp [hreleased e he], fun e he => by simp [hchecked e he]⟩,
          fun e he => by simp [hclones e he], by simp⟩
    · intro snap
      rw [hholds, said_append]
      refine (or_iff_left (not_said_of_steps (fun e he heq => ?_))).symm
      rw [hclones e he] at heq
      cases heq
    · intro snap
      rw [mem_stillHeld hheld, said_append]
      refine (or_iff_right (not_said_of_steps (fun e he heq => ?_))).symm
      rw [hchecked e he] at heq
      cases heq
    · intro snap
      simp [List.mem_filter]
    · intro snap hsnap
      rw [stillHeld_eq] at hheld
      exact ⟨said_append.mpr (.inl (hsaid snap hsnap)),
        said_append.mpr (.inr (asked_survey hheld hsnap))⟩
  · next hok =>
    obtain ⟨rfl, hr⟩ := Prog.run_ret.mp h₃
    rw [Except.ok.inj hr]
    refine .failed _ ?_
    rw [← List.append_assoc, guestDestroyed_append hbefore]
    rintro ⟨tool, vmid', b, hmem, hsucc⟩
    simp only [List.append_nil, List.mem_singleton, Prod.mk.injEq] at hmem
    rw [hmem.2] at hsucc
    exact hok hsucc

theorem run_destroyJob_holds {vmid gtype : Str} {r : DestroyResult}
    (h : (destroyJob host vmid gtype).Run log (.ok r)) : DestroyReturn host log r := by
  have hfailed : ∀ {log : Log} {e : Str}, (∀ entry ∈ log, entry.1.cmd.holdStep = .other) →
      DestroyReturn host log (.error e) := by
    intro log e hall
    exact .failed _ (not_guestDestroyed (fun entry hmem => by simp [hall entry hmem]))
  unfold destroyJob at h
  cases hv : validateVmid vmid with
  | error e =>
    simp only [hv, validated, Prog.raise_bind, Prog.run_raise, reduceCtorEq, and_false] at h
  | ok v =>
  cases hg : validateVmType gtype with
  | error e =>
    simp only [hv, hg, validated, Prog.pure_eq, Prog.ret_bind, Prog.raise_bind, Prog.run_raise,
      reduceCtorEq, and_false] at h
  | ok g =>
  simp only [hv, hg, validated, Prog.pure_eq, Prog.ret_bind] at h
  obtain ⟨log₁, rest, cfg, rfl, hcfg, hrest⟩ := Prog.run_bind_ok h
  have h₁ := (steps_of_prepares ((prepares_readGuestConfig host v g).mono
    (fun _ => And.left))).sound hcfg
  cases cfg with
  | error e =>
    obtain ⟨rfl, hr⟩ := Prog.run_ret.mp hrest
    rw [Except.ok.inj hr, List.append_nil]
    exact hfailed h₁
  | ok cfg =>
  refine DestroyReturn.front ?_ h₁
  dsimp only at hrest
  cases hmarker : parseMarker cfg.content with
  | none =>
    rw [hmarker] at hrest
    obtain ⟨rfl, hr⟩ := Prog.run_ret.mp hrest
    rw [Except.ok.inj hr]
    exact hfailed (by simp)
  | some mk =>
  rw [hmarker] at hrest
  obtain ⟨log₂, rest, disc, rfl, hdisc, hchecked⟩ := Prog.run_bind_ok hrest
  refine DestroyReturn.front ?_
    ((steps_of_prepares (prepares_discoverDisks host _)).sound hdisc)
  unfold destroyChecked at hchecked
  split at hchecked
  · obtain ⟨rfl, hr⟩ := Prog.run_ret.mp hchecked
    rw [Except.ok.inj hr]
    exact hfailed (by simp)
  · split at hchecked
    · obtain ⟨rfl, hr⟩ := Prog.run_ret.mp hchecked
      rw [Except.ok.inj hr]
      exact hfailed (by simp)
    · exact run_destroyGuest_holds hchecked

end Destroy

end PveZfsTool
