import PveZfsTool.Migrate.CutoverRun

/-!
# What a cutover delivers

After a cutover that reports success, each disk of the config on the target
should hold the data of the source disk as it was when the guest had been
stopped.  The plan that is transferred comes from an earlier preflight, and
the config is read again at the cutover.

`transferPlan_delivers` says what a transfer leaves on the target.  A dataset
holds the snapshot of the last entry of the plan that names it.
`cutover_delivers` needs of the config only that each of its disks is an
entry of the plan.  `cutover_undelivered` is a cutover of a guest that got a
second disk after its preflight.
-/

namespace PveZfsTool

open Dialogue Text

/-! ## The data of the disks -/

variable {C : Type}

/-- The datasets of the source, its snapshots, and the datasets of the
target. -/
structure DataState (C : Type) where
  live : Str → C
  snaps : Str → Option C
  target : Str → Option C

/-- The source guest writes to a dataset. -/
inductive DataMove (C : Type) where
  | write (ds : Str) (content : C)

/-- The exit code that `parse_exit_marker` finds. -/
def exitCode (out : Str) : Option Nat :=
  (splitExitMarker (strip out)).bind (fun m => unsignedValue m.2)

/-- The answer of a transfer that counts as done. -/
def streamDone (a : Answer) : Bool := a.success && exitCode a.stdout = some 0

/-- The name of a snapshot. -/
def snapshotName (ds snap : Str) : Str := ds ++ "@" ++ snap

/-- A snapshot that was answered as made holds the data of its dataset, and a
stream that was answered as done is delivered.  After any other answer the
snapshot was made or not, and the target holds anything. -/
def dataEnv : Env (DataState C) Request Answer (DataMove C) where
  respond w q a w' :=
    match q.cmd with
    | .zfsSnapshot ds snap =>
        w' = { w with snaps := Function.update w.snaps (snapshotName ds snap) (some (w.live ds)) } ∨
          (w' = w ∧ a.success = false)
    | .sendRecv t =>
        ∃ c, w' = { w with target := Function.update w.target t.targetDataset c } ∧
          (streamDone a = true → c = w.snaps t.srcSnapshot)
    | _ => w' = w
  move w m w' :=
    match m with
    | .write ds content => w' = { w with live := Function.update w.live ds content }

/-- A run over the data of the disks. -/
abbrev DataTrail (C : Type) := Trail Request Answer (DataMove C) (DataState C)

/-- The source of the last entry of the plan that goes to a dataset. -/
def planSource : List PlanItem → Str → Option Str
  | [], _ => none
  | p :: plan, dst =>
      match planSource plan dst with
      | some src => some src
      | none => if p.targetDataset = some dst then p.sourceDataset else none

/-! ## The snapshots -/

theorem run_parseExitMarker {out : Str} {log : Log} {code : Option Nat}
    (h : (parseExitMarker out).Run log (.ok code)) : log = [] ∧ code = exitCode out := by
  unfold parseExitMarker at h
  unfold exitCode
  cases hsplit : splitExitMarker (strip out) with
  | none =>
    simp only [hsplit, Prog.pure_eq, Prog.run_ret, Except.ok.injEq] at h
    exact ⟨h.1, h.2⟩
  | some m =>
    obtain ⟨front, digits⟩ := m
    cases hvalue : unsignedValue digits with
    | none => simp [hsplit, hvalue] at h
    | some n =>
      simp only [hsplit, hvalue, Prog.pure_eq, Prog.run_ret, Except.ok.injEq] at h
      simp [h.1, h.2, hvalue]

/-- Two snapshots of one name are of one dataset. -/
theorem snapshotName_inj {ds ds' snap : Str} (h : snapshotName ds snap = snapshotName ds' snap) :
    ds = ds' := by
  simpa [snapshotName] using h

theorem run_getKey {key v : Str} {value : Option Str} {log : Log}
    (h : (getKey key value).Run log (.ok v)) : log = [] ∧ value = some v := by
  cases value with
  | none => cases h.2
  | some v' =>
    obtain ⟨rfl, hv⟩ := Prog.run_ret.mp h
    exact ⟨rfl, by rw [Except.ok.inj hv]⟩

/-- The sources of a plan are the source of each of its entries. -/
theorem run_planSources {plan : List PlanItem} {log : Log} {datasets : List Str}
    (h : (planSources plan).Run log (.ok datasets)) :
    log = [] ∧ plan.map PlanItem.sourceDataset = datasets.map some := by
  induction plan generalizing log datasets with
  | nil =>
    obtain ⟨rfl, hds⟩ := Prog.run_ret.mp h
    rw [Except.ok.inj hds]
    exact ⟨rfl, rfl⟩
  | cons p plan ih =>
    rcases Prog.run_bind.mp h with ⟨log₁, log₂, src, rfl, hsrc, h⟩ | ⟨e, -, he⟩
    · rcases Prog.run_bind.mp h with ⟨log₂, log₃, rest, rfl, hrest, hret⟩ | ⟨e, -, he⟩
      · obtain ⟨rfl, hp⟩ := run_getKey hsrc
        obtain ⟨rfl, hmap⟩ := ih hrest
        obtain ⟨rfl, hds⟩ := Prog.run_ret.mp hret
        rw [Except.ok.inj hds]
        exact ⟨rfl, by rw [List.map_cons, List.map_cons, hp, hmap]⟩
      · cases he
    · cases he

/-- Moves change the live data only. -/
theorem moves_keep {w w' : DataState C} {tr : DataTrail C} (hmoves : answered tr = [])
    (hpath : dataEnv.Path w tr w') : w'.snaps = w.snaps ∧ w'.target = w.target := by
  refine (hpath.preserves (I := fun u => u.snaps = w.snaps ∧ u.target = w.target) ⟨rfl, rfl⟩
    ?_).2
  intro e u hmem u₀ hu₀ hstep
  obtain ⟨⟨ds, content⟩, rfl⟩ := move_of_answered_eq_nil hmoves hmem
  have hu : u = { u₀ with live := Function.update u₀.live ds content } := hstep
  rw [hu]
  exact hu₀

/-- What `_snapshot_all` leaves, when it reports no failure: a snapshot of
each dataset, with the data the dataset had when it was taken. -/
theorem snapshotAll_makes {host : Host} {snapName : Str} {datasets : List Str}
    {tr : DataTrail C} {w w' : DataState C} {made : List SnapshotMade}
    (hpath : dataEnv.Path w tr w')
    (hrun : Drives (snapshotAll host snapName datasets) tr (.ok made))
    (hmade : ∀ s ∈ made, s.success = true) :
    (∀ ds, ds ∉ datasets →
      w'.snaps (snapshotName ds snapName) = w.snaps (snapshotName ds snapName)) ∧
    ∀ ds ∈ datasets, ∃ a u, (.request ⟨host, .zfsSnapshot ds snapName⟩ a, u) ∈ tr ∧
      w'.snaps (snapshotName ds snapName) = some (u.live ds) := by
  unfold Drives at hrun
  induction datasets generalizing tr w made with
  | nil =>
    simp only [snapshotAll, Prog.pure_eq, Prog.run_ret] at hrun
    obtain ⟨hsnaps, -⟩ := moves_keep hrun.1 hpath
    simp [hsnaps]
  | cons ds datasets ih =>
    simp only [snapshotAll, runCommand, Prog.issue_bind, Prog.run_ask] at hrun
    obtain ⟨a, l, hl, hrun⟩ := hrun
    obtain ⟨t₁, u, t₂, rfl, hmoves, rfl⟩ := exists_first hl
    rcases Prog.run_bind.mp hrun with ⟨l₁, l₂, rest, hsplit, hrest, hret⟩ | ⟨e, -, he⟩
    · simp only [Prog.pure_eq, Prog.run_ret, Except.ok.injEq] at hret
      obtain ⟨rfl, rfl⟩ := hret
      rw [List.append_nil] at hsplit
      subst hsplit
      obtain ⟨hfront, hstep, hback⟩ := hpath.cut
      have hsuccess : a.success = true := hmade _ List.mem_cons_self
      obtain ⟨hkeep, htake⟩ := ih hback hrest (fun s hs => hmade s (List.mem_cons_of_mem _ hs))
      -- the snapshot of this dataset was made
      rcases hstep with hu | ⟨-, hfailed⟩
      · obtain ⟨hsnaps, -⟩ := moves_keep hmoves hfront
        have hlive : u.live = (stateAfter w t₁).live := by rw [hu]
        have htaken : u.snaps = Function.update (stateAfter w t₁).snaps
            (snapshotName ds snapName) (some ((stateAfter w t₁).live ds)) := by rw [hu]
        constructor
        · intro ds' hnot
          rw [List.mem_cons, not_or] at hnot
          have hname : snapshotName ds' snapName ≠ snapshotName ds snapName :=
            fun h => hnot.1 (snapshotName_inj h)
          rw [hkeep ds' hnot.2, htaken, Function.update_of_ne hname, hsnaps]
        · intro ds' hmem
          by_cases hlater : ds' ∈ datasets
          · obtain ⟨b, v, hv, hcontent⟩ := htake ds' hlater
            exact ⟨b, v, List.mem_append_right _ (List.mem_cons_of_mem _ hv), hcontent⟩
          · obtain rfl : ds' = ds := (List.mem_cons.mp hmem).resolve_right hlater
            refine ⟨a, u, by simp, ?_⟩
            rw [hkeep ds' hlater, hlive, htaken, Function.update_self]
      · rw [hsuccess] at hfailed
        cases hfailed
    · cases he

/-! ## The transfers -/

/-- One transfer that counts as done delivers its snapshot, and touches no
other dataset of the target. -/
theorem transferDisk_delivers {source target : Host} {src dst snapName : Str}
    {base : Option Str} {pull : Bool} {tr : DataTrail C} {w w' : DataState C}
    {res : TransferResult} (hpath : dataEnv.Path w tr w')
    (hrun : Drives (transferDisk source target src dst snapName base pull) tr (.ok res))
    (hres : res.success = true) :
    w'.snaps = w.snaps ∧
      w'.target = Function.update w.target dst (w.snaps (snapshotName src snapName)) := by
  unfold Drives at hrun
  simp only [transferDisk, runCommand, Prog.issue_bind, Prog.run_ask] at hrun
  obtain ⟨a, l, hl, hrun⟩ := hrun
  obtain ⟨t₁, u, t₂, rfl, hmoves, rfl⟩ := exists_first hl
  rcases Prog.run_bind.mp hrun with ⟨l₁, l₂, code, hsplit, hcode, hret⟩ | ⟨e, -, he⟩
  · obtain ⟨rfl, rfl⟩ := run_parseExitMarker hcode
    simp only [Prog.pure_eq, Prog.run_ret, Except.ok.injEq] at hret
    obtain ⟨rfl, rfl⟩ := hret
    obtain ⟨hfront, ⟨c, hu, hdone⟩, hback⟩ := hpath.cut
    obtain ⟨hsnaps, htarget⟩ := moves_keep hmoves hfront
    obtain ⟨hsnaps', htarget'⟩ := moves_keep hsplit hback
    have hc := hdone hres
    rw [hsnaps', htarget', hu, hc, hsnaps, htarget]
    exact ⟨rfl, rfl⟩
  · cases he

/-- A transfer that reports success leaves on each dataset that the plan
names the snapshot of the last entry for it. -/
theorem transferPlan_delivers {source target : Host} {snapName : Str} {pull : Bool}
    {plan : List PlanItem} {results : List TransferResult} {tr : DataTrail C}
    {w w' : DataState C} {res : TransferRun} (hpath : dataEnv.Path w tr w')
    (hrun : Drives (transferPlan source target pull snapName results plan) tr (.ok res))
    (hres : res.success = true) (dst : Str) :
    w'.target dst = match planSource plan dst with
      | some src => w.snaps (snapshotName src snapName)
      | none => w.target dst := by
  induction plan generalizing tr w results with
  | nil =>
    have hrun : answered tr = [] ∧ _ := hrun
    rw [(moves_keep hrun.1 hpath).2]
    rfl
  | cons p plan ih =>
    rcases drives_bind hrun with ⟨t₀, t, src, rfl, hsrc, hrun⟩ | ⟨e, -, he⟩
    · rcases drives_bind hrun with ⟨t₁, t, tgt, rfl, htgt, hrun⟩ | ⟨e, -, he⟩
      · rcases drives_bind hrun with ⟨t₂, t₃, r, rfl, hfirst, hrest⟩ | ⟨e, -, he⟩
        · obtain ⟨hmoves₀, hsrc⟩ := run_getKey hsrc
          obtain ⟨hmoves₁, htgt⟩ := run_getKey htgt
          obtain ⟨w₀, hp₀, hpath⟩ := Env.path_append.mp hpath
          obtain ⟨w₁, hp₁, hpath⟩ := Env.path_append.mp hpath
          obtain ⟨w₂, hp₂, hp₃⟩ := Env.path_append.mp hpath
          obtain ⟨hsnaps₀, htarget₀⟩ := moves_keep hmoves₀ hp₀
          obtain ⟨hsnaps₁, htarget₁⟩ := moves_keep hmoves₁ hp₁
          split at hrest
          · obtain ⟨hsnaps, htarget⟩ := transferDisk_delivers hp₂ hfirst (by assumption)
            rw [ih hp₃ hrest, hsnaps, htarget, hsnaps₁, hsnaps₀, htarget₁, htarget₀, planSource,
              htgt, hsrc]
            cases planSource plan dst with
            | some src' => rfl
            | none =>
              by_cases hdst : tgt = dst
              · simp [hdst]
              · simp [hdst, Function.update_of_ne (Ne.symm hdst)]
          · -- a failed transfer ends the loop with a failure
            have hfail := (Prog.run_ret.mp hrest).2
            rw [Except.ok.inj hfail] at hres
            cases hres
        · cases he
      · cases he
    · cases he

theorem planSource_mem {plan : List PlanItem} {dst src : Str} (h : planSource plan dst = some src) :
    some src ∈ plan.map PlanItem.sourceDataset := by
  induction plan with
  | nil => cases h
  | cons p plan ih =>
    rw [planSource] at h
    cases hrest : planSource plan dst with
    | some src' =>
      rw [hrest] at h
      exact List.mem_cons_of_mem _ (ih (hrest.trans h))
    | none =>
      rw [hrest] at h
      dsimp only at h
      split at h
      · rw [List.map_cons, h]
        exact List.mem_cons_self
      · cases h

/-- A transfer that reports success leaves on each dataset of its plan the
data that the source had when its snapshot was taken. -/
theorem runTransfer_delivers {source target : Host} {plan : List PlanItem} {pull : Bool}
    {snapName : Str} {tr : DataTrail C} {w w' : DataState C} {res : TransferRun}
    (hpath : dataEnv.Path w tr w')
    (hrun : Drives (runTransfer source target plan pull snapName) tr (.ok res))
    (hres : res.success = true) {src dst : Str} (hsrc : planSource plan dst = some src) :
    ∃ a u, (.request ⟨source, .zfsSnapshot src snapName⟩ a, u) ∈ tr ∧
      w'.target dst = some (u.live src) := by
  rcases drives_bind hrun with ⟨t₁, t, datasets, rfl, hsources, hrun⟩ | ⟨e, -, he⟩
  · rcases drives_bind hrun with ⟨t₂, t₃, snaps, rfl, hsnaps, hrun⟩ | ⟨e, -, he⟩
    · obtain ⟨w₁, hp₁, hpath⟩ := Env.path_append.mp hpath
      obtain ⟨w₂, hp₂, hp₃⟩ := Env.path_append.mp hpath
      dsimp only at hrun
      split at hrun
      · have hfail := (Prog.run_ret.mp hrun).2
        rw [Except.ok.inj hfail] at hres
        cases hres
      · rename_i hnone
        have hmade : ∀ s ∈ snaps, s.success = true := by
          simpa [List.filter_eq_nil_iff] using hnone
        obtain ⟨-, hmap⟩ := run_planSources hsources
        have hmem : src ∈ datasets := by
          have hsome := planSource_mem hsrc
          rw [hmap] at hsome
          simpa using hsome
        obtain ⟨a, u, hu, hcontent⟩ := (snapshotAll_makes hp₂ hsnaps hmade).2 src hmem
        have hdelivered := transferPlan_delivers hp₃ hrun hres dst
        rw [hsrc] at hdelivered
        exact ⟨a, u, by simp [hu], hdelivered.trans hcontent⟩
    · cases he
  · cases he

/-! ## The phases of a cutover -/

/-- A request that neither takes a snapshot nor sends a stream leaves the
target's data alone. -/
theorem target_keeps {tr : DataTrail C} {w w' : DataState C} (hpath : dataEnv.Path w tr w')
    (hquiet : ∀ q a, (q, a) ∈ answered tr → ¬ movesData q) : w'.target = w.target := by
  refine (hpath.preserves (I := fun u => u.target = w.target) rfl ?_).2
  intro e u hmem u₀ hu₀ hstep
  cases e with
  | move m =>
    obtain ⟨ds, content⟩ := m
    have hu : u = { u₀ with live := Function.update u₀.live ds content } := hstep
    rw [hu]
    exact hu₀
  | request q a =>
    have hq := hquiet q a (mem_answered.mpr ⟨u, hmem⟩)
    obtain ⟨host, cmd⟩ := q
    cases cmd with
    | zfsSnapshot ds snap => exact absurd (Or.inl ⟨ds, snap, rfl⟩) hq
    | sendRecv t => exact absurd (Or.inr ⟨t, rfl⟩) hq
    | _ =>
      have hu : u = u₀ := hstep
      rw [hu, hu₀]

/-- The phases of a cutover that reports success. -/
structure CutoverPhases (source target : Host) (q : CutoverRequest) (tr : DataTrail C) where
  probe : DataTrail C
  read : DataTrail C
  stop : DataTrail C
  moving : DataTrail C
  finish : DataTrail C
  cfg : ConfigFile
  res : TransferRun
  result : Except Exn CutoverResult
  eq : tr = probe ++ (read ++ (stop ++ (moving ++ finish)))
  probed : Drives (vmidInUse target q.targetVmid) probe (.ok false)
  wasRead : Drives (readGuestConfig source q.vmid q.gtype) read (.ok (.ok cfg))
  stopped : Drives (stopGuest source q.vmid q.gtype q.shutdownTimeout) stop (.ok true)
  moved : Drives (runTransfer source target q.plan q.pull q.snapName) moving (.ok res)
  success : res.success = true
  finished : Drives (cutoverFinish source target q cfg res) finish result

theorem exists_phases {source target : Host} {q : CutoverRequest} {tr : DataTrail C}
    {r : CutoverSuccess} (h : Drives (cutoverJob source target q) tr (.ok (.ok r))) :
    Nonempty (CutoverPhases source target q tr) := by
  rcases drives_bind h with ⟨t₁, t, used, rfl, h₁, h⟩ | ⟨e, -, he⟩
  · split at h
    · cases (Prog.run_ret.mp h).2
    · rename_i hused
      rcases drives_bind h with ⟨t₂, t, cfg, rfl, h₂, h⟩ | ⟨e, -, he⟩
      · cases cfg with
        | error e => cases (Prog.run_ret.mp h).2
        | ok cfg =>
          rcases drives_bind h with ⟨t₃, t, stopped, rfl, h₃, h⟩ | ⟨e, -, he⟩
          · split at h
            · cases (Prog.run_ret.mp h).2
            · rename_i hstopped
              rcases drives_bind h with ⟨t₄, t₅, res, rfl, h₄, h⟩ | ⟨e, -, he⟩
              · split at h
                · cases (Prog.run_ret.mp h).2
                · rename_i hsuccess
                  rw [Bool.not_eq_true] at hused
                  rw [not_not] at hstopped hsuccess
                  subst hused hstopped
                  exact ⟨⟨t₁, t₂, t₃, t₄, t₅, cfg, res, _, rfl, h₁, h₂, h₃, h₄, hsuccess, h⟩⟩
              · cases he
          · cases he
      · cases he
  · cases he

namespace CutoverPhases

variable {source target : Host} {q : CutoverRequest} {tr : DataTrail C} {w w' : DataState C}

/-- The config was read from the source. -/
theorem read_eq (c : CutoverPhases source target q tr) :
    ∃ path a u, (.request ⟨source, .catFile path⟩ a, u) ∈ c.read ∧ c.cfg.content = a.stdout := by
  obtain ⟨a, hlog, -, hcontent⟩ := run_readGuestConfig c.wasRead
  obtain ⟨t₁, u, t₂, heq, -, -⟩ := exists_first hlog
  refine ⟨confPath (Tool.ofGtype q.gtype) (strip q.vmid), a, u, ?_, hcontent⟩
  rw [heq]
  exact List.mem_append_right _ List.mem_cons_self

/-- The status answer that ended the stop. -/
theorem stop_eq (c : CutoverPhases source target q tr) :
    ∃ t₁ s u t₂, c.stop = t₁ ++ (.request (sourceStatus source q) s, u) :: t₂ ∧
      saysRunning s = false := by
  obtain ⟨front, s, heq, hs, -, -⟩ := run_stopGuest c.stopped
  obtain ⟨t₁, u, t₂, hstop, -, -⟩ := exists_split heq
  exact ⟨t₁, s, u, t₂, hstop, hs⟩

/-- The config that is written is the one that was read, rewritten. -/
theorem written_eq (c : CutoverPhases source target q tr) {dest text : Str} {a : Answer}
    {u : DataState C} (h : (.request ⟨target, .confWrite dest text⟩ a, u) ∈ tr) :
    rewriteGuestConfig c.cfg.content q.storageMap q.bridgeMap (some q.vmid) q.newVmid =
      .ok text := by
  have hans : (⟨target, .confWrite dest text⟩, a) ∈ answered c.probe ++ (answered c.read ++
      (answered c.stop ++ (answered c.moving ++ answered c.finish))) := by
    have hmem := mem_answered.mpr ⟨u, h⟩
    rw [c.eq] at hmem
    simpa using hmem
  simp only [List.mem_append] at hans
  rcases hans with hmem | hmem | hmem | hmem | hmem
  · obtain ⟨n, hn⟩ := (uses_vmidInUse _ _).sound c.probed _ hmem
    cases hn
  · obtain ⟨path, hpath⟩ := (uses_readGuestConfig _ _ _).sound c.wasRead _ hmem
    cases hpath
  · rcases (uses_stopGuest _ _ _ _).sound c.stopped _ hmem with hq | hq | hq <;> cases hq
  · rcases (uses_runTransfer _ _ _ _ _).sound c.moved _ hmem with ⟨ds, snap, hq⟩ | ⟨t, hq⟩ <;>
      cases hq
  · have hfinish : (cutoverFinish source target q c.cfg c.res).Uses
        (fun r => ∀ dest text, r.cmd = .confWrite dest text →
          rewriteGuestConfig c.cfg.content q.storageMap q.bridgeMap (some q.vmid) q.newVmid =
            .ok text) := by
      refine uses_cutoverFinish c.res ?_ ?_ ?_
      · rintro text' hrewrite ⟨host, cmd⟩ - (⟨d, rfl⟩ | ⟨d, rfl⟩) dest' text'' hcmd
        · cases hcmd
        · obtain ⟨-, rfl⟩ := Cmd.confWrite.inj hcmd
          exact hrewrite
      · intro dest' text' hcmd
        cases hcmd
      · intro dest' text' hcmd
        cases hcmd
    exact hfinish.sound c.finished _ hmem dest text rfl

/-- What is delivered by the transfer is there at the end. -/
theorem delivered (c : CutoverPhases source target q tr) (hpath : dataEnv.Path w tr w')
    {src dst : Str} (hsrc : planSource q.plan dst = some src) :
    ∃ a u, (.request ⟨source, .zfsSnapshot src q.snapName⟩ a, u) ∈ c.moving ∧
      w'.target dst = some (u.live src) := by
  rw [c.eq] at hpath
  obtain ⟨w₁, -, hpath⟩ := Env.path_append.mp hpath
  obtain ⟨w₂, -, hpath⟩ := Env.path_append.mp hpath
  obtain ⟨w₃, -, hpath⟩ := Env.path_append.mp hpath
  obtain ⟨w₄, hmoving, hfinish⟩ := Env.path_append.mp hpath
  obtain ⟨a, u, hu, hcontent⟩ := runTransfer_delivers hmoving c.moved c.success hsrc
  have hkeep : w'.target = w₄.target := by
    refine target_keeps hfinish (fun r b hmem => ?_)
    have hquiet : (cutoverFinish source target q c.cfg c.res).Uses (fun r => ¬ movesData r) := by
      refine uses_cutoverFinish c.res ?_ (by simp [movesData, lockRequest])
        (by simp [movesData, startRequest])
      rintro text - ⟨host, cmd⟩ - (⟨d, rfl⟩ | ⟨d, rfl⟩) <;> simp [movesData]
    exact hquiet.sound c.finished _ hmem
  exact ⟨a, u, hu, by rw [hkeep, hcontent]⟩

end CutoverPhases

/-! ## The delivery -/

/-- The text is a config that the run read from the source. -/
def ReadsConfig (source : Host) (tr : DataTrail C) (text : Str) : Prop :=
  ∃ path a u, (.request ⟨source, .catFile path⟩ a, u) ∈ tr ∧ text = a.stdout

/-- The text is a config that the run wrote on the target. -/
def WritesConfig (target : Host) (tr : DataTrail C) (text : Str) : Prop :=
  ∃ dest a u, (.request ⟨target, .confWrite dest text⟩ a, u) ∈ tr

/-- `dst` holds what `src` held at a snapshot after the source was confirmed
stopped. -/
def DeliveredStopped (source : Host) (q : CutoverRequest) (tr : DataTrail C) (w' : DataState C)
    (src dst : Str) : Prop :=
  ∃ t₁ s v t₂, tr = t₁ ++ (.request (sourceStatus source q) s, v) :: t₂ ∧
    confirmsStopped s = true ∧
    ∃ snap a u, (.request ⟨source, .zfsSnapshot src snap⟩ a, u) ∈ t₂ ∧
      w'.target dst = some (u.live src)

/-- Each disk of the written config names a dataset that holds the stopped
data of the source disk.  `resolveSource` and `resolveTarget` are the
storages of the two hosts. -/
def CutoverDelivers (resolveSource resolveTarget : Str → Option Str) (source target : Host)
    (q : CutoverRequest) (tr : DataTrail C) (w' : DataState C) : Prop :=
  ∀ text, WritesConfig target tr text →
    ∀ key volid, (key, volid) ∈ parseGuestConfigDisks text q.gtype →
      ∃ text₀ volid₀ src dst, ReadsConfig source tr text₀ ∧
        (key, volid₀) ∈ parseGuestConfigDisks text₀ q.gtype ∧
        resolveSource volid₀ = some src ∧ resolveTarget volid = some dst ∧
        DeliveredStopped source q tr w' src dst

/-- Each disk of the config, as it is read at the cutover, is the source of
the last entry of the plan for the dataset that the rewritten disk names;
and the status answer that let the cutover go on is positive. -/
structure DeliveryCondition (resolveSource resolveTarget : Str → Option Str) (source : Host)
    (q : CutoverRequest) (tr : DataTrail C) : Prop where
  confirmed : ∀ s v, (.request (sourceStatus source q) s, v) ∈ tr → saysRunning s = false →
    confirmsStopped s = true
  planned : ∀ text₀ text, ReadsConfig source tr text₀ →
    rewriteGuestConfig text₀ q.storageMap q.bridgeMap (some q.vmid) q.newVmid = .ok text →
    ∀ key volid, (key, volid) ∈ parseGuestConfigDisks text q.gtype →
      ∃ volid₀ src dst, (key, volid₀) ∈ parseGuestConfigDisks text₀ q.gtype ∧
        resolveSource volid₀ = some src ∧ resolveTarget volid = some dst ∧
        planSource q.plan dst = some src

/-- A cutover that reports success delivers each disk of the config it wrote,
when each disk of the config it read is one that the plan transfers to where
the rewritten config names it, and the stop was confirmed. -/
theorem cutover_delivers {resolveSource resolveTarget : Str → Option Str}
    {source target : Host} {q : CutoverRequest} {tr : DataTrail C} {w w' : DataState C}
    {r : CutoverSuccess} (hpath : dataEnv.Path w tr w')
    (hrun : Drives (cutoverJob source target q) tr (.ok (.ok r)))
    (hcond : DeliveryCondition resolveSource resolveTarget source q tr) :
    CutoverDelivers resolveSource resolveTarget source target q tr w' := by
  obtain ⟨c⟩ := exists_phases hrun
  intro text ⟨dest, b, v, hwritten⟩ key volid hdisk
  have hread : ReadsConfig source tr c.cfg.content := by
    obtain ⟨path, a, u, hmem, hcontent⟩ := c.read_eq
    refine ⟨path, a, u, ?_, hcontent⟩
    rw [c.eq]
    simp [hmem]
  obtain ⟨volid₀, src, dst, hdisk₀, hsrc, hdst, hplan⟩ :=
    hcond.planned _ text hread (c.written_eq hwritten) key volid hdisk
  refine ⟨_, volid₀, src, dst, hread, hdisk₀, hsrc, hdst, ?_⟩
  obtain ⟨t₁, s, u, t₂, hstop, hs⟩ := c.stop_eq
  obtain ⟨a, u', hmem, hcontent⟩ := c.delivered hpath hplan
  have heq : tr = (c.probe ++ c.read ++ t₁) ++ (.request (sourceStatus source q) s, u) ::
      (t₂ ++ (c.moving ++ c.finish)) := by
    refine c.eq.trans ?_
    rw [hstop]
    simp
  have hpos : confirmsStopped s = true := by
    refine hcond.confirmed s u ?_ hs
    rw [heq]
    simp
  exact ⟨_, s, u, _, heq, hpos, q.snapName, a, u', by simp [hmem], hcontent⟩

/-! ## Two deliveries -/

/-- The storage `local-zfs` of the two hosts of the concrete runs. -/
def resolveA (volid : Str) : Option Str := some ("rpool/data/" ++ afterFirst ':' volid)

@[inherit_doc resolveA] def resolveB (volid : Str) : Option Str :=
  some ("tank/" ++ afterFirst ':' volid)

/-- The run reports success. -/
def reportsSuccess : Except Exn CutoverResult → Bool
  | .ok (.ok _) => true
  | _ => false

theorem exists_success {o : Except Exn CutoverResult} (h : reportsSuccess o = true) :
    ∃ r, o = .ok (.ok r) := by
  match o with
  | .ok (.ok r) => exact ⟨r, rfl⟩

/-- The data of the disks before the cutover, after its snapshot and after
its transfer. -/
def dataBefore : DataState Nat := ⟨fun _ => 7, fun _ => none, fun _ => none⟩

@[inherit_doc dataBefore] def dataTaken : DataState Nat :=
  ⟨fun _ => 7, Function.update (fun _ => none)
    (snapshotName "rpool/data/vm-100-disk-0" "migrate-1") (some 7), fun _ => none⟩

@[inherit_doc dataBefore] def dataMoved : DataState Nat :=
  ⟨fun _ => 7, Function.update (fun _ => none)
    (snapshotName "rpool/data/vm-100-disk-0" "migrate-1") (some 7),
    Function.update (fun _ => none) "tank/vm-100-disk-0" (some 7)⟩

/-- The trail of the cutover of a guest with the given config. -/
def deliveryTrail (config : Str) : DataTrail Nat :=
  withStates (cutoverLog config (prints "status: stopped\n") (prints "__OK__\n"))
    [dataBefore, dataBefore, dataBefore, dataBefore, dataTaken, dataMoved, dataMoved, dataMoved,
      dataMoved, dataMoved]

theorem path_deliveryTrail (config : Str) :
    dataEnv.Path dataBefore (deliveryTrail config) dataMoved := by
  refine ⟨rfl, rfl, rfl, rfl, Or.inl rfl, ⟨some 7, rfl, fun _ => ?_⟩, rfl, rfl, rfl, rfl, rfl⟩
  decide +kernel

/-- A cutover on these answers that reports success is a run along the
trail. -/
theorem exists_run_cutoverLog (config : Str)
    (h : ((cutoverJob hostA hostB cutoverOne).transcript
      ((cutoverLog config (prints "status: stopped\n") (prints "__OK__\n")).map Prod.snd)).map
        (fun r => (r.1, reportsSuccess r.2)) =
      some (cutoverLog config (prints "status: stopped\n") (prints "__OK__\n"), true)) :
    ∃ r, Drives (cutoverJob hostA hostB cutoverOne) (deliveryTrail config) (.ok (.ok r)) := by
  obtain ⟨o, hrun, hsuccess⟩ := Prog.exists_run_of_test _ _ h
  obtain ⟨r, rfl⟩ := exists_success hsuccess
  exact ⟨r, hrun⟩

theorem cutover_delivers_one :
    CutoverDelivers resolveA resolveB hostA hostB cutoverOne (deliveryTrail configOne)
      dataMoved := by
  obtain ⟨r, hrun⟩ := exists_run_cutoverLog configOne (by decide +kernel)
  refine cutover_delivers (path_deliveryTrail configOne) hrun ⟨?_, ?_⟩
  · intro s v hmem _
    simp [deliveryTrail, withStates, cutoverLog, sourceStatus, statusRequest, lockRequest,
      startRequest] at hmem
    rw [hmem.1]
    decide +kernel
  · intro text₀ text hread hrewrite key volid hdisk
    obtain ⟨path, a, u, hmem, htext₀⟩ := hread
    simp [deliveryTrail, withStates, cutoverLog, sourceStatus, statusRequest, lockRequest,
      startRequest] at hmem
    have hconfig : text₀ = configOne ++ "\n" := by
      rw [htext₀, hmem.1.2]
      rfl
    subst hconfig
    have hwritten : text = configOne := by
      have hdone : rewriteGuestConfig (configOne ++ "\n") cutoverOne.storageMap
          cutoverOne.bridgeMap (some cutoverOne.vmid) cutoverOne.newVmid = .ok configOne := by
        decide +kernel
      exact Except.ok.inj (hrewrite.symm.trans hdone)
    subst hwritten
    have hdisks : parseGuestConfigDisks configOne cutoverOne.gtype =
        [(("scsi0" : Str), ("local-zfs:vm-100-disk-0" : Str))] := by decide +kernel
    rw [hdisks] at hdisk
    obtain ⟨rfl, rfl⟩ := Prod.mk.inj (List.mem_singleton.mp hdisk)
    exact ⟨"local-zfs:vm-100-disk-0", "rpool/data/vm-100-disk-0", "tank/vm-100-disk-0",
      by decide +kernel, by decide +kernel, by decide +kernel, by decide +kernel⟩

/-- The config after a second disk was added. -/
def configTwo : Str := configOne ++ "\nscsi1: local-zfs:vm-100-disk-1,size=4G"

/-- The answers to a preflight of the guest while it had one disk. -/
def preflightAnswers : List Answer :=
  [prints (configOne ++ "\n"), prints "/dev/zvol/rpool/data/vm-100-disk-0\n",
    prints "rpool/data/vm-100-disk-0\t4G\n", prints "status: running\n", prints "__FREE__\n",
    prints "tank\n", prints "zfspool: local-zfs\n\tpool tank\n\tcontent images,rootdir\n",
    prints "pve2\n", prints "vmbr0\n", prints "__SSH_OK__\n", noAnswer]

/-- The preflight clears the cutover of its plan. -/
def clearsCutover : Except Exn Preflight → Bool
  | .ok (.report r) => r.canCutover && r.plan.map PlanEntry.toItem = cutoverOne.plan
  | _ => false

/-- The plan is the one of a preflight that cleared the cutover.  The guest
got a second disk since.  The cutover reports success, and the second disk is
not on the target. -/
theorem cutover_undelivered :
    (∃ log o, (preflight hostA hostB "100" "qemu" "tank" none "local-zfs").Run log o ∧
      clearsCutover o = true) ∧
    ∃ w tr w' r, dataEnv.Path w tr w' ∧
      Drives (cutoverJob hostA hostB cutoverOne) tr (.ok (.ok r)) ∧
      ¬ CutoverDelivers (C := Nat) resolveA resolveB hostA hostB cutoverOne tr w' := by
  constructor
  · have hsome : ((preflight hostA hostB "100" "qemu" "tank" none "local-zfs").transcript
        preflightAnswers).any (fun r => clearsCutover r.2) = true := by decide +kernel
    cases hr : (preflight hostA hostB "100" "qemu" "tank" none "local-zfs").transcript
        preflightAnswers with
    | none =>
      rw [hr] at hsome
      cases hsome
    | some r =>
      rw [hr] at hsome
      exact ⟨r.1, r.2, Prog.run_of_transcript hr, hsome⟩
  · obtain ⟨r, hrun⟩ := exists_run_cutoverLog configTwo (by decide +kernel)
    refine ⟨_, _, _, r, path_deliveryTrail configTwo, hrun, fun hdelivers => ?_⟩
    have hwrites : WritesConfig hostB (deliveryTrail configTwo) configTwo := by
      refine ⟨"/etc/pve/qemu-server/100.conf", prints "__OK__\n", dataMoved, ?_⟩
      simp [deliveryTrail, withStates, cutoverLog]
    obtain ⟨text₀, volid₀, src, dst, -, -, -, hdst, hdelivered⟩ :=
      hdelivers configTwo hwrites "scsi1" "local-zfs:vm-100-disk-1" (by decide +kernel)
    obtain ⟨t₁, s, v, t₂, -, -, snap, a, u, -, hcontent⟩ := hdelivered
    have hnone : dataMoved.target "tank/vm-100-disk-1" = none := by decide +kernel
    have hname : dst = ("tank/vm-100-disk-1" : Str) := by
      have hresolved : resolveB "local-zfs:vm-100-disk-1" = some ("tank/vm-100-disk-1" : Str) := by
        decide +kernel
      exact Option.some.inj (hdst.symm.trans hresolved)
    rw [hname, hnone] at hcontent
    cases hcontent

end PveZfsTool
