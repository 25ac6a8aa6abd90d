import PveZfsTool.Recovery.HoldRuns

/-!
# What the recovery jobs report about their holds

Whether a hold is left, and whether an origin has clones, the jobs ask the
host.  An answer that failed reads like one that names nothing.

`holds_reported_iff` says for which runs the holds are reported, and
`lost_answers_released` is a cleanup that calls a held origin released.
-/

namespace PveZfsTool

open Dialogue Text

/-! ## What the results say -/

/-- A `zfs holds` of the snapshot succeeded, or showed the hold anyway. -/
def HoldAnswered (host : Host) (log : Log) (snap : Str) : Prop :=
  Said log ⟨host, .zfsHolds snap⟩ (fun a => a.success = true ∨ showsHold a = true)

/-- The host said that the snapshot has neither a hold of the tool nor
clones. -/
structure Freed (host : Host) (log : Log) (snap : Str) : Prop where
  asked : Said log ⟨host, .zfsHolds snap⟩ (fun _ => True) ∧
    Said log ⟨host, .zfsClones snap⟩ (fun _ => True)
  hold : ∀ a, (⟨host, .zfsHolds snap⟩, a) ∈ log → a.success = true ∧ showsHold a = false
  clones : ∀ a, (⟨host, .zfsClones snap⟩, a) ∈ log → a.success = true ∧ clonesIn a = []

section Reports

variable {host : Host} {vmid gtype snapshot newVmid : Str} {fresh : Fresh}

/-- The snapshot of a dataset that the path of a volume named. -/
def OriginSnapshot (log : Log) (label snap : Str) : Prop :=
  ∃ ds ∈ namedDatasets log, snap = ds ++ "@" ++ label

/-- When `create_job` returns, each origin snapshot that is still held is in
`holds_left`. -/
def CreateReportsHolds
    (x : Execution holdEnv (createJob host vmid gtype snapshot newVmid fresh)) : Prop :=
  ∀ r, x.outcome = .ok r → ∀ snap, OriginSnapshot (answered x.trail) (strip snapshot) snap →
    x.after snap = true →
      ∃ s, r = .ok s ∧ snap ∈ s.holdsLeft

/-- An origin snapshot that stays held was asked about, and the clone got its
config. -/
def CreateVerified
    (x : Execution holdEnv (createJob host vmid gtype snapshot newVmid fresh)) : Prop :=
  ∀ r, x.outcome = .ok r → ∀ snap, OriginSnapshot (answered x.trail) (strip snapshot) snap →
    x.after snap = true →
      ConfigWritten host (answered x.trail) ∧ HoldAnswered host (answered x.trail) snap

/-- When `destroy_job` returns, each origin that is still held is in
`holds_left`, and each one in `released` was said to be free. -/
structure DestroyReportsHolds (x : Execution holdEnv (destroyJob host vmid gtype)) : Prop where
  left : ∀ r, x.outcome = .ok r → ∀ snap, OriginOf host (answered x.trail) snap →
    x.after snap = true → ∃ s, r = .ok s ∧ snap ∈ s.holdsLeft
  released : ∀ s, x.outcome = .ok (.ok s) → ∀ snap ∈ s.released,
    Freed host (answered x.trail) snap

/-- An origin that stays held was asked about, and its guest was destroyed.
Of an origin that shows neither hold nor clones all answers succeeded. -/
structure DestroyVerified (x : Execution holdEnv (destroyJob host vmid gtype)) : Prop where
  left : ∀ r, x.outcome = .ok r → ∀ snap, OriginOf host (answered x.trail) snap →
    x.after snap = true →
      GuestDestroyed host (answered x.trail) ∧ HoldAnswered host (answered x.trail) snap
  answered : ∀ r, x.outcome = .ok r → GuestDestroyed host (answered x.trail) →
    ∀ snap, OriginOf host (answered x.trail) snap →
      Said (answered x.trail) ⟨host, .zfsHolds snap⟩ (fun a => showsHold a = true) ∨
      Said (answered x.trail) ⟨host, .zfsClones snap⟩ (fun a => clonesIn a ≠ []) ∨
      (∀ a, (⟨host, .zfsHolds snap⟩, a) ∈ answered x.trail → a.success = true) ∧
        ∀ a, (⟨host, .zfsClones snap⟩, a) ∈ answered x.trail → a.success = true

/-- Behind the last release, a check that succeeded shows each hold that
stays. -/
theorem showsHold_of_left {w w' : Holds} {tr : Trail Request Answer Empty Holds} {front rest : Log}
    {snap : Str} (hpath : holdEnv.Path w tr w') (hlog : answered tr = front ++ rest)
    (hfront : ∀ entry ∈ front, entry.1.cmd.holdStep ≠ .check) (hrest : Settled rest)
    (hheld : w' snap = true) (h : HoldAnswered host (answered tr) snap) :
    Said rest ⟨host, .zfsHolds snap⟩ (fun a => showsHold a = true) := by
  obtain ⟨t₁, t₂, rfl, rfl, rfl⟩ := exists_append hlog
  obtain ⟨w₁, -, hback⟩ := Env.path_append.mp hpath
  rw [HoldAnswered, answered_append, said_append] at h
  obtain ⟨a, hmem, hans⟩ := h.resolve_left (not_said_of_steps hfront)
  refine ⟨a, hmem, ?_⟩
  rcases hans with hsucc | hshows
  · exact (showsHold_iff hback hrest hmem hsucc).mpr hheld
  · exact hshows

theorem create_reports_iff
    (x : Execution holdEnv (createJob host vmid gtype snapshot newVmid fresh)) :
    CreateReportsHolds x ↔ CreateVerified x := by
  refine forall_congr' (fun r => forall_congr' (fun hr => forall_congr' (fun snap =>
    forall_congr' (fun _ => forall_congr' (fun hheld => ?_)))))
  have hrun := x.drives
  rw [Drives, hr] at hrun
  cases run_createJob_holds hrun with
  | failed e hwritten =>
    refine iff_of_false ?_ (fun h => hwritten h.1)
    rintro ⟨s, hs, -⟩
    cases hs
  | done s front rest hlog hwritten hfront hrest hleft =>
    constructor
    · rintro ⟨s', hs, hmem⟩
      obtain rfl := Except.ok.inj hs
      obtain ⟨a, ha, hshows⟩ := (hleft snap).mp hmem
      exact ⟨hwritten, a, by rw [hlog]; exact List.mem_append_right _ ha, .inr hshows⟩
    · rintro ⟨-, hans⟩
      exact ⟨s, rfl, (hleft snap).mpr (showsHold_of_left x.path hlog hfront hrest hheld hans)⟩

theorem destroy_reports_iff (x : Execution holdEnv (destroyJob host vmid gtype)) :
    DestroyReportsHolds x ↔ DestroyVerified x := by
  have hrun : ∀ r, x.outcome = .ok r → DestroyReturn host (answered x.trail) r := by
    intro r hr
    have hdrives := x.drives
    rw [Drives, hr] at hdrives
    exact run_destroyJob_holds hdrives
  constructor
  · intro h
    constructor
    · intro r hr snap horigin hheld
      obtain ⟨s, rfl, hmem⟩ := h.left r hr snap horigin hheld
      cases hrun _ hr with
      | done s front rest hlog hdestroyed hfront hrest horigins hleft hheld' hreleased hasked =>
        obtain ⟨a, ha, hshows⟩ := (hleft snap).mp hmem
        exact ⟨hdestroyed, a, by rw [hlog]; exact List.mem_append_right _ ha, .inr hshows⟩
    · intro r hr hdestroyed snap horigin
      cases hrun _ hr with
      | failed e hnot => exact absurd hdestroyed hnot
      | done s front rest hlog _ hfront hrest horigins hleft hheld hreleased hasked =>
        by_cases hshows : snap ∈ s.holdsLeft
        · obtain ⟨a, ha, hshow⟩ := (hleft snap).mp hshows
          exact .inl ⟨a, by rw [hlog]; exact List.mem_append_right _ ha, hshow⟩
        by_cases hclones : snap ∈ s.stillHeld.map Prod.fst
        · obtain ⟨a, ha, hclone⟩ := (hheld snap).mp hclones
          exact .inr (.inl ⟨a, by rw [hlog]; exact List.mem_append_right _ ha, hclone⟩)
        have hfree := h.released s hr snap
          ((hreleased snap).mpr ⟨(horigins snap).mpr horigin, hclones, hshows⟩)
        exact .inr (.inr ⟨fun a ha => (hfree.hold a ha).1, fun a ha => (hfree.clones a ha).1⟩)
  · intro h
    constructor
    · intro r hr snap horigin hheld
      obtain ⟨hdestroyed, hans⟩ := h.left r hr snap horigin hheld
      cases hrun _ hr with
      | failed e hnot => exact absurd hdestroyed hnot
      | done s front rest hlog _ hfront hrest horigins hleft hheld' hreleased hasked =>
        refine ⟨s, rfl, (hleft snap).mpr ?_⟩
        exact showsHold_of_left x.path hlog (fun entry he => (hfront entry he).1) hrest hheld hans
    · intro s hs snap hmem
      cases hrun _ hs with
      | done s front rest hlog hdestroyed hfront hrest horigins hleft hheld hreleased hasked =>
        obtain ⟨horigin, hclones, hshows⟩ := (hreleased snap).mp hmem
        have hnoHold : ∀ a, (⟨host, .zfsHolds snap⟩, a) ∈ answered x.trail →
            ¬ showsHold a = true := by
          intro a ha hshow
          rw [hlog] at ha
          rcases List.mem_append.mp ha with ha | ha
          · exact (hfront _ ha).1 rfl
          · exact hshows ((hleft snap).mpr ⟨a, ha, hshow⟩)
        have hnoClones : ∀ a, (⟨host, .zfsClones snap⟩, a) ∈ answered x.trail →
            ¬ clonesIn a ≠ [] := by
          intro a ha hclone
          rw [hlog] at ha
          rcases List.mem_append.mp ha with ha | ha
          · exact (hfront _ ha).2 rfl
          · exact hclones ((hheld snap).mpr ⟨a, ha, hclone⟩)
        rcases h.answered _ hs hdestroyed snap ((horigins snap).mp horigin) with
          ⟨a, ha, hshow⟩ | ⟨a, ha, hclone⟩ | ⟨hholds, hall⟩
        · exact absurd hshow (hnoHold a ha)
        · exact absurd hclone (hnoClones a ha)
        · have hsaid := hasked snap horigin
          refine ⟨?_, fun a ha => ⟨hholds a ha, by simpa using hnoHold a ha⟩,
            fun a ha => ⟨hall a ha, by simpa using hnoClones a ha⟩⟩
          rw [hlog, said_append, said_append]
          exact ⟨.inr hsaid.1, .inr hsaid.2⟩

/-- The two jobs report the holds that are left, and call no origin released
that was not said to be free, if and only if the answers about the origins
came back and the work before them succeeded. -/
theorem holds_reported_iff
    (x : Execution holdEnv (createJob host vmid gtype snapshot newVmid fresh))
    (y : Execution holdEnv (destroyJob host vmid gtype)) :
    (CreateReportsHolds x ↔ CreateVerified x) ∧ (DestroyReportsHolds y ↔ DestroyVerified y) :=
  ⟨create_reports_iff x, destroy_reports_iff y⟩

end Reports

/-! ## A cleanup that loses its answers -/

/-- Commands that failed, and those that have nothing to do with holds, can
leave the holds as they are. -/
theorem step_same {held : Holds} {q : Request} {a : Answer}
    (h : a.success = false ∨ q.cmd.holdStep ≠ .take ∧ q.cmd.holdStep ≠ .release ∧
      q.cmd.holdStep ≠ .check) : holdEnv.Step held (.request q a) held := by
  obtain ⟨host, cmd⟩ := q
  rcases h with hfail | ⟨htake, hrelease, hcheck⟩
  · cases cmd with
    | zfsHold tag snap =>
      show if tag = holdTag then _ else _
      split
      · exact .inr ⟨hfail, rfl⟩
      · rfl
    | zfsRelease tag snap =>
      show if tag = holdTag then _ else _
      split
      · exact .inr ⟨hfail, rfl⟩
      · rfl
    | zfsHolds snap => exact ⟨rfl, fun hsucc => by rw [hfail] at hsucc; cases hsucc⟩
    | _ => exact rfl
  · cases cmd with
    | zfsHold => exact absurd rfl htake
    | zfsRelease => exact absurd rfl hrelease
    | zfsHolds => exact absurd rfl hcheck
    | _ => exact rfl

/-- A log that leaves the state as it is. -/
def sameTrail (held : Holds) (log : Log) : Trail Request Answer Empty Holds :=
  log.map (fun entry => (.request entry.1 entry.2, held))

theorem answered_sameTrail (held : Holds) (log : Log) : answered (sameTrail held log) = log := by
  induction log with
  | nil => rfl
  | cons entry log ih => exact congrArg (entry :: ·) ih

theorem path_sameTrail {held : Holds} {log : Log}
    (h : ∀ entry ∈ log, entry.2.success = false ∨ entry.1.cmd.holdStep ≠ .take ∧
      entry.1.cmd.holdStep ≠ .release ∧ entry.1.cmd.holdStep ≠ .check) :
    holdEnv.Path held (sameTrail held log) held := by
  induction log with
  | nil => rfl
  | cons entry log ih =>
    exact ⟨step_same (h entry List.mem_cons_self), ih (fun e he => h e (List.mem_cons_of_mem _ he))⟩

def lostOrigin : Str := "rpool/data/vm-100-disk-0@s1"

/-- The guest is destroyed, and then the host does not answer any more. -/
def lostAnswers : List Answer :=
  [prints "#pve-zfs-tool-clone origin=100 snapshot=s1\nscsi0: rpool-clone:vm-900-disk-0\n",
    prints "/dev/zvol/rpool/clone/vm-900-disk-0\n", prints "rpool/clone/vm-900-disk-0\t1M\n",
    prints (lostOrigin ++ "\n"), prints "status: stopped\n", prints [], noAnswer, noAnswer,
    noAnswer, noAnswer]

/-- The outcome calls the origin released. -/
def callsReleased : Except Exn DestroyResult → Bool
  | .ok (.ok s) => s.released.contains lostOrigin
  | _ => false

/-- The hold of an interrupted creation is still there, and the origin is
called released. -/
theorem lost_answers_released : ¬ ∀ (host : Host) (vmid gtype : Str)
    (x : Execution holdEnv (destroyJob host vmid gtype)), DestroyReportsHolds x := by
  intro h
  have hsome : (((destroyJob hostA "900" "qemu").transcript lostAnswers).map (fun r =>
      callsReleased r.2 && r.1.all (fun entry => entry.2.success == false ||
        (entry.1.cmd.holdStep != .take && entry.1.cmd.holdStep != .release &&
          entry.1.cmd.holdStep != .check)))) = some true := by
    decide
  obtain ⟨⟨log, outcome⟩, hr, htest⟩ := Option.map_eq_some_iff.mp hsome
  rw [Bool.and_eq_true, List.all_eq_true] at htest
  obtain ⟨hcalls, hall⟩ := htest
  obtain ⟨s, rfl⟩ : ∃ s, outcome = .ok (.ok s) := by
    rcases outcome with e | e | s
    · cases hcalls
    · cases hcalls
    · exact ⟨s, rfl⟩
  have hpath : holdEnv.Path (fun snap => snap == lostOrigin) (sameTrail _ log) _ :=
    path_sameTrail (fun entry hentry => by simpa [and_assoc] using hall entry hentry)
  have hdrives : Drives (destroyJob hostA "900" "qemu")
      (sameTrail (fun snap => snap == lostOrigin) log) (.ok (.ok s)) := by
    rw [Drives, answered_sameTrail]
    exact Prog.run_of_transcript hr
  have hreports := h hostA "900" "qemu" ⟨_, _, _, _, hpath, hdrives⟩
  have hfreed := hreports.released s rfl lostOrigin (List.contains_iff_mem.mp hcalls)
  rw [answered_sameTrail] at hfreed
  obtain ⟨a, hmem, -⟩ := hfreed.asked.1
  -- every check of the run failed
  have hfail := hall _ hmem
  rw [(hfreed.hold a hmem).1] at hfail
  cases hfail

end PveZfsTool
