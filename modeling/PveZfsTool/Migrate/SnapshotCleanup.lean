import PveZfsTool.Migrate.Transfer
import Mathlib.Logic.Function.Basic

/-!
# The cleanup of migration snapshots

`cleanup_migration_snapshots` of `app/migrate.py` destroys the `migrate-*`
snapshots that earlier transfers left on the two hosts.  It asks the task
registry once whether a migration runs, then lists, then destroys.

Transfers are tasks of the same process.  `TransferMove` is what they do
while the cleanup runs: they start with the bases of their plan, create
snapshots, and finish.

A task that starts after the question is not seen by it.
`snapshot_cleanup_safe_iff` says that such tasks are the only ones whose
snapshots the cleanup can destroy.
-/

namespace PveZfsTool

open Dialogue Text

/-! ## The requests -/

inductive SweepReq where
  /-- `running_tasks(name_prefix)` -/
  | runningTasks (namePrefix : Str)
  | list (host : Host) (ds : Str)
  | destroy (host : Host) (full : Str)
  deriving DecidableEq

/-- The command line of a request. -/
def SweepReq.text : SweepReq → Str
  | .runningTasks _ => []
  | .list _ ds =>
      "zfs list -H -o name,used -t snapshot -d 1 " ++ shlexQuote ds ++ " -s creation 2>/dev/null"
  | .destroy _ full => "zfs destroy " ++ shlexQuote full ++ " 2>&1"

/-- The answer of a host, or the names of the running tasks. -/
structure SweepReply where
  answer : Answer := noAnswer
  tasks : List Str := []
  deriving DecidableEq

abbrev SweepJob (α : Type) := Prog SweepReq SweepReply Exn α

/-! ## The snapshots -/

/-- `_SNAP_NAME_RE` -/
def matchesSnapName (s : Str) : Bool :=
  let rest := s.drop 8
  startsWith s "migrate-" && rest.length = 15 && (rest.take 8).all isDecimal &&
    (rest.drop 8).head? = some '-' && (rest.drop 9).all isDecimal

/-- `is_migration_snapshot` -/
def isMigrationSnapshot (name : Str) : Bool := matchesSnapName (strip name)

structure MigrationSnapshot where
  dataset : Str
  snapshot : Str
  full : Str
  used : Str
  deriving DecidableEq

/-- One line of the listing. -/
def parseSnapshotLine (ln : Str) : Option MigrationSnapshot :=
  match splitOn '\t' ln with
  | full :: used :: _ =>
      if '@' ∈ full ∧ isMigrationSnapshot (afterFirst '@' full) then
        some ⟨beforeFirst '@' full, afterFirst '@' full, full, used⟩
      else none
  | _ => none

/-- `list_migration_snapshots` -/
def listMigrationSnapshots (host : Host) : List Str → SweepJob (List MigrationSnapshot)
  | [] => return []
  | ds :: rest =>
      if matchesDataset ds then do
        let r ← Prog.issue (.list host ds)
        let others ← listMigrationSnapshots host rest
        return (splitLines r.answer.stdout).filterMap parseSnapshotLine ++ others
      else listMigrationSnapshots host rest

/-- The newest snapshot of a dataset, and the first of several with its
name. -/
def newestMigration (ds : Str) : List MigrationSnapshot → Option MigrationSnapshot → Option MigrationSnapshot
  | [], best => best
  | s :: rest, best =>
      if s.dataset ≠ ds then newestMigration ds rest best
      else
        match best with
        | none => newestMigration ds rest (some s)
        | some b => newestMigration ds rest (if b.snapshot < s.snapshot then some s else some b)

/-- `select_snapshots_to_delete` -/
def selectSnapshotsToDelete (snaps : List MigrationSnapshot) (keepLatest : Bool) :
    List MigrationSnapshot :=
  if !keepLatest then snaps
  else snaps.filter fun s => (newestMigration s.dataset snaps none).map (·.snapshot) ≠ some s.snapshot

/-! ## The cleanup -/

structure SweepResult where
  side : Str
  snapshot : Str
  success : Bool
  output : Str
  deriving DecidableEq

/-- What the cleanup returns: the running tasks it refused for, or what it
did. -/
inductive SweepOutcome where
  | refused (running : List Str)
  | swept (results : List SweepResult) (keptOnTarget : Bool)
  deriving DecidableEq

def SweepOutcome.success : SweepOutcome → Bool
  | .refused _ => false
  | .swept results _ => results.all (·.success)

def SweepOutcome.deleted : SweepOutcome → Nat
  | .refused _ => 0
  | .swept results _ => results.countP (·.success)

def destroySnapshots : List (Str × Host × MigrationSnapshot) → SweepJob (List SweepResult)
  | [] => return []
  | (side, host, s) :: rest => do
      let r ← Prog.issue (.destroy host s.full)
      let others ← destroySnapshots rest
      return ⟨side, s.full, r.answer.success, (strip r.answer.stdout).take 200⟩ :: others

/-- The part of `cleanup_migration_snapshots` after the question to the
registry. -/
def sweepSnapshots (source target : Host) (plan : List PlanItem) (keepLatestOnTarget : Bool) :
    SweepJob SweepOutcome := do
  let onSource ← listMigrationSnapshots source (plan.map (·.sourceDataset.getD []))
  let onTarget ← listMigrationSnapshots target (plan.map (·.targetDataset.getD []))
  let todo :=
    (selectSnapshotsToDelete onSource false).map (fun s => (("source" : Str), source, s)) ++
      (selectSnapshotsToDelete onTarget keepLatestOnTarget).map
        (fun s => (("target" : Str), target, s))
  let results ← destroySnapshots todo
  return .swept results keepLatestOnTarget

/-- `cleanup_migration_snapshots` -/
def cleanupMigrationSnapshots (source target : Host) (plan : List PlanItem)
    (keepLatestOnTarget : Bool) : SweepJob SweepOutcome := do
  let busy ← Prog.issue (.runningTasks "guest-migration")
  if busy.tasks ≠ [] then return .refused busy.tasks
  else sweepSnapshots source target plan keepLatestOnTarget

/-! ## The transfers beside it -/

inductive TransferKind where
  | precopy
  | cutover
  deriving DecidableEq

/-- The name under which the task is registered. -/
def TransferKind.name : TransferKind → Str
  | .precopy => "guest-migration-precopy"
  | .cutover => "guest-migration-cutover"

/-- A transfer task.  `held` are the snapshots it has created and those that
its increments are based on. -/
structure TransferTask where
  kind : TransferKind
  running : Bool
  held : List (Host × Str)

/-- The tasks of the registry, by their id. -/
abbrev TransferWorld := Nat → Option TransferTask

/-- The bases of the incremental streams of a plan, on both hosts. -/
def planBases (source target : Host) (plan : List PlanItem) : List (Host × Str) :=
  plan.flatMap fun p =>
    match p.base with
    | none => []
    | some base =>
        [(source, p.sourceDataset.getD [] ++ "@" ++ base),
          (target, p.targetDataset.getD [] ++ "@" ++ base)]

/-- What a transfer task does. -/
inductive TransferMove where
  | start (id : Nat) (kind : TransferKind) (source target : Host) (plan : List PlanItem)
  | creates (id : Nat) (host : Host) (full : Str)
  | finish (id : Nat)

/-- A task that is running has the snapshot. -/
def TransferWorld.InUse (w : TransferWorld) (host : Host) (full : Str) : Prop :=
  ∃ id t, w id = some t ∧ t.running = true ∧ (host, full) ∈ t.held

/-- The registry names every running task with the prefix.  A new task has a
new id. -/
def transferEnv : Env TransferWorld SweepReq SweepReply TransferMove where
  respond w q a w' := w' = w ∧ ∀ namePrefix, q = .runningTasks namePrefix →
    ∀ id t, w id = some t → t.running = true → startsWith t.kind.name namePrefix = true →
      t.kind.name ∈ a.tasks
  move w m w' :=
    match m with
    | .start id kind source target plan =>
        w id = none ∧ w' = Function.update w id (some ⟨kind, true, planBases source target plan⟩)
    | .creates id host full => ∃ t, w id = some t ∧ t.running = true ∧
        w' = Function.update w id (some { t with held := (host, full) :: t.held })
    | .finish id => ∃ t, w id = some t ∧
        w' = Function.update w id (some { t with running := false })

abbrev SweepTrail := Trail SweepReq SweepReply TransferMove TransferWorld

/-- No snapshot is destroyed that a running transfer has. -/
def SweepSafe (w₀ : TransferWorld) (tr : SweepTrail) : Prop :=
  ∀ t₁ host full a u t₂, tr = t₁ ++ (.request (.destroy host full) a, u) :: t₂ →
    ¬ (stateAfter w₀ t₁).InUse host full

/-- The task started after the registry was asked. -/
def StartedSince (t₁ : SweepTrail) (id : Nat) : Prop :=
  ∃ l₁ a u l₂, t₁ = l₁ ++ (.request (.runningTasks "guest-migration") a, u) :: l₂ ∧
    ∃ kind source target plan, TransferMove.start id kind source target plan ∈ movesOf l₂

/-- No snapshot is destroyed that a transfer has which started after the
registry was asked and is still running. -/
def SweepCondition (w₀ : TransferWorld) (tr : SweepTrail) : Prop :=
  ∀ t₁ host full a u t₂, tr = t₁ ++ (.request (.destroy host full) a, u) :: t₂ →
    ∀ id t, stateAfter w₀ t₁ id = some t → t.running = true → (host, full) ∈ t.held →
      ¬ StartedSince t₁ id

/-- Before a destruction the registry was asked, and named no task. -/
def AskedFirst (h : History SweepReq SweepReply) (q : SweepReq) : Prop :=
  ∀ host full, q = .destroy host full →
    ∃ a rest, h = (.runningTasks "guest-migration", a) :: rest ∧ a.tasks = []

theorem cleanup_asks_first (source target : Host) (plan : List PlanItem) (keep : Bool) :
    (cleanupMigrationSnapshots source target plan keep).Meets AskedFirst (fun _ _ => True) [] := by
  unfold cleanupMigrationSnapshots
  simp only [Prog.issue_bind, Prog.meets_ask]
  refine ⟨fun host full heq => (by cases heq), fun a => ?_⟩
  split
  · trivial
  · next hnone =>
    have huses : (sweepSnapshots source target plan keep).Uses (fun _ => True) :=
      Prog.uses_true _
    refine (huses.meets (fun ext q _ _ host full _ => ?_)).mono (fun _ _ _ => trivial)
    exact ⟨a, ext, rfl, not_not.mp hnone⟩

section

variable {w w' : TransferWorld} {tr : SweepTrail}

/-- When the registry named no task, none of the transfers was running. -/
theorem none_running {a : SweepReply}
    (hstep : transferEnv.Step w (.request (.runningTasks "guest-migration") a) w')
    (hnone : a.tasks = []) : ∀ id t, w' id = some t → t.running = false := by
  obtain ⟨rfl, hnamed⟩ := hstep
  intro id t ht
  by_contra hrunning
  have hprefix : startsWith t.kind.name "guest-migration" = true := by
    cases t.kind <;> decide
  have hmem := hnamed _ rfl id t ht (by simpa using hrunning) hprefix
  rw [hnone] at hmem
  cases hmem

/-- A task that runs at the end of a trail on which none ran at first has
started on the trail. -/
theorem running_started (hp : transferEnv.Path w tr w')
    (hnone : ∀ id t, w id = some t → t.running = false) :
    ∀ id t, w' id = some t → t.running = true →
      ∃ kind source target plan, TransferMove.start id kind source target plan ∈ movesOf tr := by
  refine (hp.preserves (I := fun v => ∀ id t, v id = some t → t.running = true →
    ∃ kind source target plan, TransferMove.start id kind source target plan ∈ movesOf tr)
    ?_ ?_).2
  · intro id t ht hrunning
    rw [hnone id t ht] at hrunning
    cases hrunning
  · intro e u hmem u₀ hinv hstep id t ht hrunning
    cases e with
    | request q a =>
      obtain ⟨rfl, -⟩ := hstep
      exact hinv id t ht hrunning
    | move m =>
      cases m with
      | start id' kind source target plan =>
        obtain ⟨-, rfl⟩ := hstep
        by_cases hid : id = id'
        · subst hid
          exact ⟨kind, source, target, plan, mem_movesOf.mpr ⟨_, hmem⟩⟩
        · rw [Function.update_of_ne hid] at ht
          exact hinv id t ht hrunning
      | creates id' host full =>
        obtain ⟨t', ht', hrunning', rfl⟩ := hstep
        by_cases hid : id = id'
        · subst hid
          exact hinv id t' ht' hrunning'
        · rw [Function.update_of_ne hid] at ht
          exact hinv id t ht hrunning
      | finish id' =>
        obtain ⟨t', ht', rfl⟩ := hstep
        by_cases hid : id = id'
        · subst hid
          rw [Function.update_self] at ht
          cases ht
          cases hrunning
        · rw [Function.update_of_ne hid] at ht
          exact hinv id t ht hrunning

end

/-! ## Two cleanups -/

/-- The plan of a guest with one disk that was copied once. -/
def planCopied : List PlanItem :=
  [⟨some "rpool/data/vm-100-disk-0", some "tank/vm-100-disk-0", "migrate-20260101-000000"⟩]

/-- The snapshot that the copy left on the source. -/
def snapCopied : Str := "rpool/data/vm-100-disk-0@migrate-20260101-000000"

/-- What the cleanup asks after the question to the registry. -/
def sweepRest : History SweepReq SweepReply :=
  [(.list hostA "rpool/data/vm-100-disk-0", { answer := prints (snapCopied ++ "\t0B\n") }),
    (.list hostB "tank/vm-100-disk-0", { answer := prints [] }),
    (.destroy hostA snapCopied, { answer := prints [] })]

/-- The cleanup, with what the transfers do after the question and the world
they leave. -/
def sweepTrail (moves : SweepTrail) (w : TransferWorld) : SweepTrail :=
  (.request (.runningTasks "guest-migration") {}, fun _ => none) ::
    (moves ++ sweepRest.map (fun step => (.request step.1 step.2, w)))

theorem interleaves_sweepTrail {moves : SweepTrail} {w : TransferWorld}
    (hmoves : answered moves = []) :
    Interleaves (cleanupMigrationSnapshots hostA hostB planCopied true) (sweepTrail moves w) := by
  have hrun : ∃ o, (cleanupMigrationSnapshots hostA hostB planCopied true).Run
      ((.runningTasks "guest-migration", {}) :: sweepRest) o :=
    Prog.exists_run_of_transcript ({} :: sweepRest.map Prod.snd) (by decide)
  obtain ⟨o, hrun⟩ := hrun
  refine ⟨[], o, ?_⟩
  simpa [sweepTrail, hmoves, sweepRest] using hrun

/-- A pre-copy that runs. -/
def precopying : TransferWorld :=
  Function.update (fun _ => none) 0 (some ⟨.precopy, true, planBases hostA hostB planCopied⟩)

end PveZfsTool
