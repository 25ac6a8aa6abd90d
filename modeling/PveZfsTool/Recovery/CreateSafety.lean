import PveZfsTool.Recovery.DestroySafety

/-!
# What a failed recovery leaves behind

`create_job` clones the disks of a guest one after another.  A clone that
fails, and a config that cannot be written, undo the clones made before.  A
disk whose clone has no derivable name raises `ValueError`, which nothing
catches: the holds are released, and the clones stay.

`create_clean_iff` says exactly which runs leave no clone behind when they do
not succeed, and `create_stranded` is a run that leaves one.
-/

namespace PveZfsTool

open Dialogue Text

/-- The request makes a clone. -/
def Cmd.clones : Cmd → Bool
  | .zfsClone _ _ _ => true
  | _ => false

/-- The request asks for the path of a volume. -/
def Cmd.namesVolume : Cmd → Bool
  | .pvesmPath _ => true
  | _ => false

/-- The request writes or removes a guest config. -/
def Cmd.touchesConf : Cmd → Bool
  | .confWrite _ _ | .rmConfig _ _ | .guestDestroy _ _ => true
  | _ => false

/-- The clones that exist after one more answer.  A clone command that was
answered as failed made nothing, and a destroy command that was issued
destroyed its dataset. -/
def cloneStep (left : List Str) (entry : Request × Answer) : List Str :=
  match entry.1.cmd with
  | .zfsClone _ _ target => if entry.2.success then left ++ [target] else left
  | .zfsDestroy ds => left.filter (fun clone => clone ≠ ds)
  | _ => left

/-- The clones of a run that exist at its end. -/
def clonesLeft (log : Log) : List Str := log.foldl cloneStep []

/-- The answers to the clone commands: whether each succeeded. -/
def cloneAnswers (log : Log) : List Bool :=
  log.filterMap (fun entry => match entry.1.cmd with
    | .zfsClone _ _ _ => some entry.2.success
    | _ => none)

/-- The datasets that the volume paths name, in the order of the disks. -/
def namedDatasets (log : Log) : List Str :=
  log.filterMap (fun entry => match entry.1.cmd with
    | .pvesmPath _ =>
        some (datasetFromPvesmPath (if entry.2.success then entry.2.stdout else []))
    | _ => none)

/-- Every clone command of the run succeeded, there was at least one, and the
next disk lies in a dataset that is not named like a guest volume. -/
def Strands (log : Log) : Prop :=
  cloneAnswers log ≠ [] ∧ (∀ b ∈ cloneAnswers log, b = true) ∧
    ∃ ds, (namedDatasets log)[(cloneAnswers log).length]? = some ds ∧
      guestVolume (volumeBasename ds) = none

/-! ## Requests that make and destroy no clone -/

/-- The request neither makes nor destroys a dataset. -/
def Bystander (q : Request) : Prop := q.cmd.clones = false ∧ q.cmd.destroys = false

/-- Nor does it ask for a volume. -/
def Silent (q : Request) : Prop := Bystander q ∧ q.cmd.namesVolume = false

/-- It makes and destroys no dataset and touches no guest config. -/
def Spectator (q : Request) : Prop := Bystander q ∧ q.cmd.touchesConf = false

/-- It is silent and touches no guest config. -/
def Quiet (q : Request) : Prop := Silent q ∧ q.cmd.touchesConf = false

theorem Quiet.spectator {q : Request} (h : Quiet q) : Spectator q := ⟨h.1.1, h.2⟩

/-- The commands that `create_job` runs before it holds a snapshot. -/
def Cmd.prepares : Cmd → Bool
  | .catFile _ | .pvesmPath _ | .zfsListUsed _ | .zfsListName _ | .zfsListSnapshots _ _ => true
  | .vmidProbe _ | .hostname | .nextVmid | .zfsGetAll _ | .zfsExclude _ _ | .zfsCreate _ => true
  | .pvesmAdd _ _ _ => true
  | _ => false

/-- The request comes before the holds. -/
def Prepares (q : Request) : Prop := q.cmd.prepares = true

/-- It comes before the holds and asks for no volume. -/
def PreparesQuietly (q : Request) : Prop := Prepares q ∧ q.cmd.namesVolume = false

theorem Prepares.spectator {q : Request} (h : Prepares q) : Spectator q := by
  obtain ⟨host, cmd⟩ := q
  unfold Prepares at h
  cases cmd <;> first | exact ⟨⟨rfl, rfl⟩, rfl⟩ | cases h

theorem PreparesQuietly.quiet {q : Request} (h : PreparesQuietly q) : Quiet q :=
  ⟨⟨h.1.spectator.1, h.2⟩, h.1.spectator.2⟩

theorem cloneStep_bystander {left : List Str} {entry : Request × Answer}
    (h : Bystander entry.1) : cloneStep left entry = left := by
  obtain ⟨⟨host, cmd⟩, a⟩ := entry
  obtain ⟨hclones, hdestroys⟩ := h
  cases cmd with
  | zfsClone => cases hclones
  | zfsDestroy => cases hdestroys
  | _ => rfl

theorem foldl_bystander {log : Log} {left : List Str} (h : ∀ entry ∈ log, Bystander entry.1) :
    log.foldl cloneStep left = left := by
  induction log with
  | nil => rfl
  | cons entry log ih =>
    rw [List.foldl_cons, cloneStep_bystander (h entry List.mem_cons_self)]
    exact ih (fun e hmem => h e (List.mem_cons_of_mem _ hmem))

theorem cloneAnswers_eq_nil {log : Log} (h : ∀ entry ∈ log, entry.1.cmd.clones = false) :
    cloneAnswers log = [] := by
  rw [cloneAnswers, List.filterMap_eq_nil_iff]
  rintro ⟨⟨host, cmd⟩, a⟩ hmem
  have hclones := h _ hmem
  cases cmd with
  | zfsClone => cases hclones
  | _ => rfl

theorem namedDatasets_eq_nil {log : Log} (h : ∀ entry ∈ log, entry.1.cmd.namesVolume = false) :
    namedDatasets log = [] := by
  rw [namedDatasets, List.filterMap_eq_nil_iff]
  rintro ⟨⟨host, cmd⟩, a⟩ hmem
  have hnames := h _ hmem
  cases cmd with
  | pvesmPath => cases hnames
  | _ => rfl

@[simp] theorem cloneAnswers_append (log log' : Log) :
    cloneAnswers (log ++ log') = cloneAnswers log ++ cloneAnswers log' :=
  List.filterMap_append

@[simp] theorem namedDatasets_append (log log' : Log) :
    namedDatasets (log ++ log') = namedDatasets log ++ namedDatasets log' :=
  List.filterMap_append

/-- A run without clone and destroy commands leaves nothing behind, and does
not meet the condition. -/
theorem clean_of_bystander {log : Log} (h : ∀ entry ∈ log, Bystander entry.1) :
    clonesLeft log = [] ∧ ¬ Strands log := by
  refine ⟨foldl_bystander h, fun hstrands => hstrands.1 ?_⟩
  exact cloneAnswers_eq_nil (fun entry hmem => (h entry hmem).1)

/-! ## The clone loop -/

/-- A quiet destruction destroys what it is given, and nothing else. -/
theorem run_destroyEach {host : Host} {datasets : List Str} {log : Log} {o : Except Exn Unit}
    (left : List Str) (h : (destroyEach host datasets).Run log o) :
    o = .ok () ∧ log.foldl cloneStep left = left.filter (fun c => !datasets.contains c) ∧
      cloneAnswers log = [] ∧ namedDatasets log = [] := by
  induction datasets generalizing log left with
  | nil =>
    obtain ⟨rfl, rfl⟩ := Prog.run_ret.mp h
    simp [cloneAnswers, namedDatasets]
  | cons ds datasets ih =>
    obtain ⟨a, rest, rfl, hrest⟩ := Prog.run_ask.mp h
    obtain ⟨ho, hleft, hanswers, hnamed⟩ := ih (left.filter (fun c => c ≠ ds)) hrest
    refine ⟨ho, ?_, hanswers, hnamed⟩
    rw [List.foldl_cons]
    refine hleft.trans ?_
    rw [List.filter_filter]
    refine List.filter_congr (fun c _ => ?_)
    by_cases hc : c = ds <;> simp [hc]

theorem cloneVolumeName_error {ds vmid : Str} {e : Exn} (h : cloneVolumeName ds vmid = .error e) :
    guestVolume (volumeBasename ds) = none := by
  unfold cloneVolumeName at h
  split at h
  · assumption
  · cases h

/-- How a clone loop over `disks` ends, with the clones in `created` made
before it: it made every clone, or a clone failed and all were undone, or the
name of a clone could not be derived. -/
inductive LoopEnd (created : List Str) (disks : List Disk) (log : Log) :
    Except Exn (Except CreateFailure Clones) → Prop
  | done (clones : Clones) (hanswers : cloneAnswers log = List.replicate disks.length true)
      (hleft : log.foldl cloneStep created = clones.created) :
      LoopEnd created disks log (.ok (.ok clones))
  | failed (e : CreateFailure) (hanswers : false ∈ cloneAnswers log)
      (hleft : log.foldl cloneStep created = []) : LoopEnd created disks log (.ok (.error e))
  | raised (e : Exn) (front : List Disk) (d : Disk) (rest : List Disk)
      (hdisks : disks = front ++ d :: rest)
      (hname : guestVolume (volumeBasename d.dataset) = none)
      (hanswers : cloneAnswers log = List.replicate front.length true)
      (hleft : (log.foldl cloneStep created).length = created.length + front.length) :
      LoopEnd created disks log (.error e)

theorem run_cloneDisks {host : Host} {c : CloneOrder} {made : Clones} {disks : List Disk}
    {log : Log} {o : Except Exn (Except CreateFailure Clones)}
    (h : (cloneDisks host c made disks).Run log o) :
    namedDatasets log = [] ∧ LoopEnd made.created disks log o := by
  induction disks generalizing made log with
  | nil =>
    obtain ⟨rfl, rfl⟩ := Prog.run_ret.mp h
    exact ⟨rfl, .done made rfl rfl⟩
  | cons d disks ih =>
    unfold cloneDisks at h
    cases hname : cloneVolumeName d.dataset c.newVmid with
    | error e =>
      simp only [hname, liftExn, Prog.raise_bind, Prog.run_raise] at h
      obtain ⟨rfl, rfl⟩ := h
      exact ⟨rfl, .raised e [] d disks rfl (cloneVolumeName_error hname) rfl rfl⟩
    | ok name =>
      simp only [hname, liftExn, Prog.pure_eq, Prog.ret_bind, runCommand, Prog.issue_bind,
        Prog.run_ask] at h
      obtain ⟨a, rest, rfl, h⟩ := h
      cases ha : a.success with
      | true =>
        simp only [ha, if_true] at h
        obtain ⟨hnamed, hend⟩ := ih h
        refine ⟨hnamed, ?_⟩
        have hstep : cloneStep made.created
            (⟨host, cloneCommand c d (c.root ++ "/" ++ name)⟩, a) =
            made.created ++ [c.root ++ "/" ++ name] := by
          simp [cloneStep, cloneCommand, ha]
        have hanswer : cloneAnswers ((⟨host, cloneCommand c d (c.root ++ "/" ++ name)⟩, a) ::
            rest) = true :: cloneAnswers rest := by
          simp [cloneAnswers, cloneCommand, ha]
        cases hend with
        | done clones hanswers hleft =>
          refine .done clones ?_ ?_
          · rw [hanswer, hanswers, List.length_cons, List.replicate_succ]
          · rw [List.foldl_cons, hstep, hleft]
        | failed e hanswers hleft =>
          refine .failed e ?_ ?_
          · rw [hanswer]
            exact List.mem_cons_of_mem _ hanswers
          · rw [List.foldl_cons, hstep, hleft]
        | raised e front d' rest' hdisks hname' hanswers hleft =>
          refine .raised e (d :: front) d' rest' ?_ hname' ?_ ?_
          · rw [hdisks, List.cons_append]
          · rw [hanswer, hanswers, List.length_cons, List.replicate_succ]
          · rw [List.foldl_cons, hstep, hleft, List.length_append, List.length_cons,
              List.length_cons, List.length_nil]
            omega
      | false =>
        simp only [ha, Bool.false_eq_true, if_false] at h
        rcases Prog.run_bind.mp h with ⟨log₁, log₂, u, rfl, hdestroy, hret⟩ | ⟨e, herr, -⟩
        · obtain ⟨-, hleft, hanswers, hnamed⟩ := run_destroyEach made.created hdestroy
          obtain ⟨rfl, rfl⟩ := Prog.run_ret.mp hret
          rw [List.append_nil]
          refine ⟨hnamed, .failed _ ?_ ?_⟩
          · simp [cloneAnswers, cloneCommand, ha]
          · have hstep : cloneStep made.created
                (⟨host, cloneCommand c d (c.root ++ "/" ++ name)⟩, a) = made.created := by
              simp [cloneStep, cloneCommand, ha]
            rw [List.foldl_cons, hstep, hleft]
            simp
        · have hok := (run_destroyEach [] herr).1
          cases hok

/-! ## What stands around the loop -/

/-- What a log of silent requests says about the clones: nothing. -/
theorem silent_log {α : Type} {p : Job α} {log : Log} {o : Except Exn α} (hp : p.Uses Silent)
    (h : p.Run log o) : (∀ left, log.foldl cloneStep left = left) ∧ cloneAnswers log = [] ∧
      namedDatasets log = [] := by
  have hsilent := hp.sound h
  refine ⟨fun left => foldl_bystander (fun entry hmem => (hsilent entry hmem).1), ?_, ?_⟩
  · exact cloneAnswers_eq_nil (fun entry hmem => (hsilent entry hmem).1.1)
  · exact namedDatasets_eq_nil (fun entry hmem => (hsilent entry hmem).2)

theorem silent_of_quiet {α : Type} {p : Job α} (h : p.Uses Quiet) : p.Uses Silent :=
  h.mono (fun _ => And.left)

theorem quiet_holdEach (host : Host) (snaps : List Str) : (holdEach host snaps).Uses Quiet := by
  induction snaps with
  | nil => trivial
  | cons s snaps ih => exact ⟨⟨⟨⟨rfl, rfl⟩, rfl⟩, rfl⟩, fun _ => ih⟩

theorem quiet_releaseEach (host : Host) (snaps : List Str) :
    (releaseEach host snaps).Uses Quiet := by
  induction snaps with
  | nil => trivial
  | cons s snaps ih => exact ⟨⟨⟨⟨rfl, rfl⟩, rfl⟩, rfl⟩, fun _ => ih⟩

theorem quiet_holdsLeft (host : Host) (snaps : List Str) : (holdsLeft host snaps).Uses Quiet := by
  induction snaps with
  | nil => trivial
  | cons s snaps ih => exact ⟨⟨⟨⟨rfl, rfl⟩, rfl⟩, rfl⟩, fun _ => ih.bind (fun _ => trivial)⟩

theorem neverRaises_holdEach (host : Host) (snaps : List Str) :
    (holdEach host snaps).NeverRaises := by
  induction snaps with
  | nil => trivial
  | cons s snaps ih => exact fun _ => ih

theorem neverRaises_releaseHolds (host : Host) (snaps : List Str) :
    (releaseHolds host snaps).NeverRaises := by
  have hrelease : (releaseEach host snaps).NeverRaises := by
    induction snaps with
    | nil => trivial
    | cons s snaps ih => exact fun _ => ih
  have hleft : (holdsLeft host snaps).NeverRaises := by
    clear hrelease
    induction snaps with
    | nil => trivial
    | cons s snaps ih => exact fun _ => ih.bind (fun _ => trivial)
  exact hrelease.bind (fun _ => hleft)

theorem silent_restoreGuestConfig (host : Host) (gtype vmid content : Str) (force : Bool) :
    (restoreGuestConfig host gtype vmid content force).Uses Silent := by
  refine (uses_restoreGuestConfig host gtype vmid content force).mono ?_
  rintro ⟨q, cmd⟩ ⟨-, ⟨dest, hcmd⟩ | ⟨dest, hcmd⟩⟩
  · cases hcmd
    exact ⟨⟨rfl, rfl⟩, rfl⟩
  · cases hcmd
    exact ⟨⟨rfl, rfl⟩, rfl⟩

/-- The end of the job keeps the clones only when it succeeds. -/
theorem run_finishCreate {host : Host} {vmid : Str} {c : CloneOrder} {cfg : ConfigFile}
    {excluded : List Str} {fresh : Fresh} {clones : Clones} {left : List Str} {log : Log}
    {o : Except Exn CreateResult}
    (h : (finishCreate host vmid c cfg excluded fresh clones left).Run log o) :
    cloneAnswers log = [] ∧ namedDatasets log = [] ∧
      ((∀ s, o ≠ .ok (.ok s)) → log.foldl cloneStep clones.created = []) := by
  have hrestore := silent_restoreGuestConfig host c.gtype c.newVmid
    (buildRecoveryConfig cfg.content c.gtype clones.volidMap vmid c.snapshot fresh) false
  rcases Prog.run_bind.mp h with ⟨log₁, log₂, wr, rfl, hwrite, h⟩ | ⟨e, hwrite, rfl⟩
  · obtain ⟨hfold, hanswers, hnamed⟩ := silent_log hrestore hwrite
    split at h
    · obtain ⟨rfl, rfl⟩ := Prog.run_ret.mp h
      rw [List.append_nil]
      exact ⟨hanswers, hnamed, fun hfailed => absurd rfl (hfailed _)⟩
    · rcases Prog.run_bind.mp h with ⟨log₂, log₃, u, rfl, hdestroy, hret⟩ | ⟨e, herr, -⟩
      · obtain ⟨-, hleft, hanswers', hnamed'⟩ := run_destroyEach clones.created hdestroy
        obtain ⟨rfl, rfl⟩ := Prog.run_ret.mp hret
        rw [List.append_nil, cloneAnswers_append, namedDatasets_append, List.foldl_append, hfold,
          hleft]
        exact ⟨by simp [hanswers, hanswers'], by simp [hnamed, hnamed'], fun _ => by simp⟩
      · have hok := (run_destroyEach [] herr).1
        cases hok
  · have hraises : (restoreGuestConfig host c.gtype c.newVmid
        (buildRecoveryConfig cfg.content c.gtype clones.volidMap vmid c.snapshot fresh)
        false).NeverRaises := by
      unfold restoreGuestConfig
      split
      · trivial
      · split
        · trivial
        · intro a
          show Prog.NeverRaises (if _ then _ else _)
          split
          · trivial
          · exact fun _ => trivial
    obtain ⟨wr, hok⟩ := hraises.sound hwrite
    cases hok

/-- How the job ends once it holds the snapshots of the disks. -/
inductive CloneEnd (disks : List Disk) (log : Log) (o : Except Exn CreateResult) : Prop
  | done (hanswers : cloneAnswers log = List.replicate disks.length true)
      (hleft : (∀ s, o ≠ .ok (.ok s)) → clonesLeft log = [])
  | failed (hanswers : false ∈ cloneAnswers log) (hleft : clonesLeft log = [])
  | raised (front : List Disk) (d : Disk) (rest : List Disk) (hdisks : disks = front ++ d :: rest)
      (hname : guestVolume (volumeBasename d.dataset) = none)
      (hanswers : cloneAnswers log = List.replicate front.length true)
      (hfailed : ∀ s, o ≠ .ok (.ok s)) (hleft : (clonesLeft log).length = front.length)

theorem run_cloneOrigin {host : Host} {vmid : Str} {origin : Origin} {c : CloneOrder}
    {excluded : List Str} {fresh : Fresh} {log : Log} {o : Except Exn CreateResult}
    (h : (cloneOrigin host vmid origin c excluded fresh).Run log o) :
    namedDatasets log = [] ∧ CloneEnd origin.disks log o := by
  unfold cloneOrigin at h
  rcases Prog.run_bind.mp h with ⟨log₀, log, u, rfl, hhold, h⟩ | ⟨e, hhold, -⟩
  · obtain ⟨hfold₀, hanswers₀, hnamed₀⟩ := silent_log (silent_of_quiet (quiet_holdEach host _)) hhold
    -- the loop and the release of the holds end before the job goes on
    have hloop : ∀ log₁ end₁, ((cloneDisks host c ⟨[], []⟩ origin.disks).tryFinally
        (releaseHolds host (origin.disks.map (fun d => d.dataset ++ "@" ++ c.snapshot)))).Run
          log₁ end₁ → namedDatasets log₁ = [] ∧ ∃ loop, end₁.map Prod.fst = loop ∧
            LoopEnd [] origin.disks log₁ loop := by
      intro log₁ end₁ hrun
      obtain ⟨logA, logB, oA, oB, rfl, hclone, hrelease, rfl⟩ := Prog.run_tryFinally hrun
      obtain ⟨left, rfl⟩ := (neverRaises_releaseHolds host _).sound hrelease
      have hsilent : (releaseHolds host
          (origin.disks.map (fun d => d.dataset ++ "@" ++ c.snapshot))).Uses Silent :=
        silent_of_quiet ((quiet_releaseEach host _).bind (fun _ => quiet_holdsLeft host _))
      obtain ⟨hfoldB, hanswersB, hnamedB⟩ := silent_log hsilent hrelease
      obtain ⟨hnamedA, hend⟩ := run_cloneDisks hclone
      refine ⟨by simp [hnamedA, hnamedB], oA, ?_, ?_⟩
      · cases oA <;> rfl
      · have hanswers : cloneAnswers (logA ++ logB) = cloneAnswers logA := by simp [hanswersB]
        have hfold : (logA ++ logB).foldl cloneStep [] = logA.foldl cloneStep [] := by
          rw [List.foldl_append, hfoldB]
        cases hend with
        | done clones hall hleft =>
          exact .done clones (hanswers.trans hall) (hfold.trans hleft)
        | failed e hfalse hleft =>
          exact .failed e (hanswers ▸ hfalse) (hfold.trans hleft)
        | raised e front d rest hdisks hname hall hleft =>
          exact .raised e front d rest hdisks hname (hanswers.trans hall)
            ((congrArg List.length hfold).trans hleft)
    rcases Prog.run_bind.mp h with ⟨log₁, log₂, pair, rfl, hfinally, h⟩ | ⟨e, hfinally, rfl⟩
    · obtain ⟨made, left⟩ := pair
      obtain ⟨hnamed₁, loop, hloopEq, hend⟩ := hloop _ _ hfinally
      obtain rfl : Except.ok made = loop := hloopEq
      cases hend with
      | failed e hfalse hleft =>
        obtain ⟨rfl, rfl⟩ := Prog.run_ret.mp h
        rw [List.append_nil]
        refine ⟨by simp [hnamed₀, hnamed₁], .failed ?_ ?_⟩
        · simp [hanswers₀, hfalse]
        · rw [clonesLeft, List.foldl_append, hfold₀, hleft]
      | done clones hall hleft =>
        obtain ⟨hanswers₂, hnamed₂, hfinish⟩ := run_finishCreate h
        refine ⟨by simp [hnamed₀, hnamed₁, hnamed₂], .done ?_ ?_⟩
        · simp [hanswers₀, hanswers₂, hall]
        · intro hfailed
          rw [clonesLeft, List.foldl_append, hfold₀, List.foldl_append, hleft]
          exact hfinish hfailed
    · obtain ⟨hnamed₁, loop, hloopEq, hend⟩ := hloop _ _ hfinally
      obtain rfl : Except.error e = loop := hloopEq
      cases hend with
      | raised _ front d rest hdisks hname hall hleft =>
        refine ⟨by simp [hnamed₀, hnamed₁], .raised front d rest hdisks hname ?_ ?_ ?_⟩
        · simp [hanswers₀, hall]
        · intro s hs
          cases hs
        · rw [clonesLeft, List.foldl_append, hfold₀, hleft]
          simp
  · obtain ⟨u, hok⟩ := (neverRaises_holdEach host _).sound hhold
    cases hok

/-! ## What stands before it -/

/-- A disk that resolved is the one dataset its lookup names. -/
theorem namedDatasets_resolveDisk {host : Host} {key volid : Str} {log : Log} {d : Disk}
    (h : (resolveDisk host key volid).Run log (.ok (some d))) :
    namedDatasets log = [d.dataset] := by
  simp only [resolveDisk, runCommand, Prog.issue_bind, Prog.run_ask] at h
  obtain ⟨path, rest, rfl, h⟩ := h
  generalize hds : datasetFromPvesmPath (if path.success then path.stdout else []) = ds at h
  split at h
  · obtain ⟨listed, rest, rfl, hlisted⟩ := Prog.run_ask.mp h
    split at hlisted
    · obtain ⟨rfl, hout⟩ := Prog.run_ret.mp hlisted
      rw [Option.some.inj (Except.ok.inj hout), ← hds]
      rfl
    · cases (Prog.run_ret.mp hlisted).2
  · cases (Prog.run_ret.mp h).2

/-- A discovery without unresolved disks names their datasets, in order. -/
theorem namedDatasets_discoverDisks {host : Host} {entries : List (Str × Str)} {log : Log}
    {disc : Discovery} (h : (discoverDisks host entries).Run log (.ok disc))
    (hall : disc.unresolved = []) : namedDatasets log = disc.disks.map Disk.dataset := by
  induction entries generalizing log disc with
  | nil =>
    obtain ⟨rfl, hout⟩ := Prog.run_ret.mp h
    rw [Except.ok.inj hout]
    rfl
  | cons e entries ih =>
    obtain ⟨key, volid⟩ := e
    rcases Prog.run_bind.mp h with ⟨log₁, log₂, disk, rfl, hdisk, h⟩ | ⟨e, -, he⟩
    · rcases Prog.run_bind.mp h with ⟨log₂, log₃, found, rfl, hfound, hret⟩ | ⟨e, -, he⟩
      · cases disk with
        | none =>
          have hout := Except.ok.inj (Prog.run_ret.mp hret).2
          rw [hout] at hall
          cases hall
        | some d =>
          obtain ⟨rfl, hout⟩ := Prog.run_ret.mp hret
          rw [Except.ok.inj hout] at hall ⊢
          rw [List.append_nil, namedDatasets_append, namedDatasets_resolveDisk hdisk,
            ih hfound hall]
          rfl
      · cases he
    · cases he

theorem prepares_discoverDisks (host : Host) (entries : List (Str × Str)) :
    (discoverDisks host entries).Uses Prepares := by
  refine (uses_discoverDisks host entries).mono ?_
  rintro q (⟨volid, rfl⟩ | ⟨ds, rfl⟩) <;> rfl

theorem prepares_missingSnapshot (host : Host) (snapshot : Str) (disks : List Disk) :
    (missingSnapshot host snapshot disks).Uses PreparesQuietly := by
  induction disks with
  | nil => trivial
  | cons d disks ih =>
    refine ⟨⟨rfl, rfl⟩, fun a => ?_⟩
    show Prog.Uses _ (if _ then _ else _)
    split
    · exact ih
    · trivial

theorem prepares_readGuestConfig (host : Host) (vmid gtype : Str) :
    (readGuestConfig host vmid gtype).Uses PreparesQuietly := by
  refine (uses_readGuestConfig host vmid gtype).mono ?_
  rintro q ⟨path, rfl⟩
  exact ⟨rfl, rfl⟩

theorem prepares_originDisks (host : Host) (gtype snapshot : Str) (cfg : ConfigFile) :
    (originDisks host gtype snapshot cfg).Uses Prepares := by
  refine (prepares_discoverDisks host _).bind (fun disc => ?_)
  split
  · trivial
  · split
    · trivial
    · refine ((prepares_missingSnapshot host snapshot _).mono (fun _ => And.left)).bind
        (fun missing => ?_)
      cases missing <;> trivial

theorem prepares_readOrigin (host : Host) (vmid gtype snapshot : Str) :
    (readOrigin host vmid gtype snapshot).Uses Prepares := by
  refine ((prepares_readGuestConfig host vmid gtype).mono (fun _ => And.left)).bind (fun cfg => ?_)
  cases cfg with
  | error e => trivial
  | ok cfg =>
    dsimp only
    split
    · trivial
    · exact prepares_originDisks host gtype snapshot cfg

theorem spectator_readOrigin (host : Host) (vmid gtype snapshot : Str) :
    (readOrigin host vmid gtype snapshot).Uses Spectator :=
  (prepares_readOrigin host vmid gtype snapshot).mono (fun _ => Prepares.spectator)

theorem quiet_of_prepares {α : Type} {p : Job α} (h : p.Uses PreparesQuietly) : p.Uses Quiet :=
  h.mono (fun _ => PreparesQuietly.quiet)

/-- The disks of an accepted origin are the datasets its reading named. -/
theorem namedDatasets_readOrigin {host : Host} {vmid gtype snapshot : Str} {log : Log}
    {origin : Origin} (h : (readOrigin host vmid gtype snapshot).Run log (.ok (.ok origin))) :
    namedDatasets log = origin.disks.map Disk.dataset := by
  rcases Prog.run_bind.mp h with ⟨log₀, log, cfg, rfl, hcfg, h⟩ | ⟨e, -, he⟩
  · obtain ⟨-, -, hnamed₀⟩ := silent_log
      (silent_of_quiet (quiet_of_prepares (prepares_readGuestConfig host vmid gtype))) hcfg
    cases cfg with
    | error e => cases (Prog.run_ret.mp h).2
    | ok cfg =>
      dsimp only at h
      split at h
      · cases (Prog.run_ret.mp h).2
      · rcases Prog.run_bind.mp h with ⟨log₁, log₂, disc, rfl, hdisc, h⟩ | ⟨e, -, he⟩
        · split at h
          · cases (Prog.run_ret.mp h).2
          · rename_i hresolved
            have hall : disc.unresolved = [] := by
              by_contra hne
              exact hresolved (Or.inl hne)
            have hnamed₁ := namedDatasets_discoverDisks hdisc hall
            split at h
            · cases (Prog.run_ret.mp h).2
            · rcases Prog.run_bind.mp h with ⟨log₂, log₃, missing, rfl, hmissing, h⟩ | ⟨e, -, he⟩
              · obtain ⟨-, -, hnamed₂⟩ := silent_log
                    (silent_of_quiet (quiet_of_prepares (prepares_missingSnapshot host _ _))) hmissing
                cases missing with
                | some d => cases (Prog.run_ret.mp h).2
                | none =>
                  obtain ⟨rfl, hout⟩ := Prog.run_ret.mp h
                  rw [Except.ok.inj (Except.ok.inj hout)]
                  simp [hnamed₀, hnamed₁, hnamed₂]
              · cases he
        · cases he
  · cases he

theorem prepares_vmidInUse (host : Host) (vmid : Str) :
    (vmidInUse host vmid).Uses PreparesQuietly := by
  refine (uses_vmidInUse host vmid).mono ?_
  rintro q ⟨n, rfl⟩
  exact ⟨rfl, rfl⟩

theorem prepares_wantedVmid (host : Host) (vmid newVmid : Str) :
    (wantedVmid host vmid newVmid).Uses PreparesQuietly := by
  have hsuggest : (suggestVmid host vmid).Uses PreparesQuietly := by
    have hfree : (candidateFree host ('9' :: vmid)).Uses PreparesQuietly := by
      unfold candidateFree
      split
      · exact (prepares_vmidInUse host _).bind (fun _ => trivial)
      · trivial
    refine hfree.bind (fun free => ?_)
    split
    · trivial
    · exact ⟨⟨rfl, rfl⟩, fun _ => trivial⟩
  unfold wantedVmid
  split
  · trivial
  · exact hsuggest

theorem prepares_chooseVmid (host : Host) (vmid newVmid : Str) :
    (chooseVmid host vmid newVmid).Uses PreparesQuietly := by
  refine (prepares_wantedVmid host vmid newVmid).bind (fun wanted => ?_)
  split
  · trivial
  · have hvalid : (validated (validateVmid wanted)).Uses PreparesQuietly := by
      cases validateVmid wanted <;> trivial
    refine hvalid.bind (fun newVmid => ?_)
    have htaken : (vmidTaken host vmid newVmid).Uses PreparesQuietly := by
      unfold vmidTaken
      split
      · trivial
      · exact prepares_vmidInUse host _
    refine htaken.bind (fun taken => ?_)
    split <;> trivial

theorem prepares_prepareRoot (host : Host) (pool : Str) :
    (prepareRoot host pool).Uses PreparesQuietly := by
  have hroot : (ensureRoot host (recoveryRoot pool)).Uses PreparesQuietly := by
    refine ⟨⟨rfl, rfl⟩, fun a => ?_⟩
    show Prog.Uses _ (if _ then _ else _)
    split
    · trivial
    · refine ⟨⟨rfl, rfl⟩, fun r => ?_⟩
      show Prog.Uses _ (if _ then _ else _)
      split <;> trivial
  have hexclude : ∀ props, (excludeEach host (recoveryRoot pool) props).Uses PreparesQuietly := by
    intro props
    induction props with
    | nil => trivial
    | cons prop props ih => exact ⟨⟨rfl, rfl⟩, fun _ => ih.bind (fun _ => trivial)⟩
  have htags : (excludeReplicationTags host (recoveryRoot pool)).Uses PreparesQuietly :=
    ⟨⟨rfl, rfl⟩, fun a => hexclude _⟩
  have hstorage : (ensureStorage host pool (recoveryRoot pool)).Uses PreparesQuietly := by
    have hfor : (storageForRoot host (recoveryRoot pool)).Uses PreparesQuietly := by
      refine ⟨⟨rfl, rfl⟩, fun a => ?_⟩
      show Prog.Uses _ (if _ then _ else _)
      split <;> trivial
    refine hfor.bind (fun storage => ?_)
    split
    · trivial
    · refine ⟨⟨rfl, rfl⟩, fun node => ⟨⟨rfl, rfl⟩, fun r => ?_⟩⟩
      show Prog.Uses _ (if _ then _ else _)
      split <;> trivial
  refine hroot.bind (fun refused => ?_)
  cases refused with
  | some e => trivial
  | none =>
    refine htags.bind (fun excluded => hstorage.bind (fun storage => ?_))
    cases storage <;> trivial

theorem quiet_wantedVmid (host : Host) (vmid newVmid : Str) :
    (wantedVmid host vmid newVmid).Uses Quiet :=
  quiet_of_prepares (prepares_wantedVmid host vmid newVmid)

theorem quiet_chooseVmid (host : Host) (vmid newVmid : Str) :
    (chooseVmid host vmid newVmid).Uses Quiet :=
  quiet_of_prepares (prepares_chooseVmid host vmid newVmid)

theorem quiet_prepareRoot (host : Host) (pool : Str) : (prepareRoot host pool).Uses Quiet :=
  quiet_of_prepares (prepares_prepareRoot host pool)

/-! ## The whole job -/

/-- A front of requests that make no clone adds nothing to what is left. -/
theorem clonesLeft_front {front log : Log} (h : ∀ entry ∈ front, Bystander entry.1) :
    clonesLeft (front ++ log) = clonesLeft log := by
  rw [clonesLeft, List.foldl_append, foldl_bystander h]
  rfl

/-- The end of the job, after a front that named the datasets of the disks. -/
theorem CloneEnd.clean_iff {disks : List Disk} {front log : Log} {o : Except Exn CreateResult}
    (hend : CloneEnd disks log o) (hfront : ∀ entry ∈ front, Bystander entry.1)
    (hnamed : namedDatasets (front ++ log) = disks.map Disk.dataset) :
    ((∀ s, o ≠ .ok (.ok s)) → clonesLeft (front ++ log) = []) ↔ ¬ Strands (front ++ log) := by
  have hanswersEq : cloneAnswers (front ++ log) = cloneAnswers log := by
    rw [cloneAnswers_append, cloneAnswers_eq_nil (fun entry hmem => (hfront entry hmem).1),
      List.nil_append]
  rw [clonesLeft_front hfront, Strands, hanswersEq, hnamed]
  cases hend with
  | done hanswers hleft =>
    refine iff_of_true hleft ?_
    rintro ⟨-, -, ds, hget, -⟩
    rw [hanswers] at hget
    simp at hget
  | failed hanswers hleft =>
    refine iff_of_true (fun _ => hleft) ?_
    rintro ⟨-, hall, -⟩
    cases hall false hanswers
  | raised made d rest hdisks hname hanswers hfailed hleft =>
    have hgets : (disks.map Disk.dataset)[(cloneAnswers log).length]? = some d.dataset := by
      rw [hanswers, hdisks]
      simp
    constructor
    · intro hclean hstrands
      have hnil := hclean hfailed
      rw [hnil, List.length_nil] at hleft
      apply hstrands.1
      rw [hanswers, ← hleft, List.replicate_zero]
    · intro hstrands _
      by_contra hne
      refine hstrands ⟨?_, ?_, d.dataset, hgets, hname⟩
      · rw [hanswers]
        intro hnil
        apply hne
        rw [← List.length_eq_zero_iff, hleft]
        simpa using congrArg List.length hnil
      · rw [hanswers]
        exact fun b hb => List.eq_of_mem_replicate hb

theorem createGuest_clean_iff {host : Host} {vmid gtype snapshot newVmid : Str} {fresh : Fresh}
    {log : Log} {o : Except Exn CreateResult}
    (h : (createGuest host vmid gtype snapshot newVmid fresh).Run log o) :
    ((∀ s, o ≠ .ok (.ok s)) → clonesLeft log = []) ↔ ¬ Strands log := by
  -- a job that ends before its clones made none
  have hclean : (∀ entry ∈ log, Spectator entry.1) →
      (((∀ s, o ≠ .ok (.ok s)) → clonesLeft log = []) ↔ ¬ Strands log) := by
    intro hall
    obtain ⟨hleft, hstrands⟩ := clean_of_bystander (fun entry hmem => (hall entry hmem).1)
    exact iff_of_true (fun _ => hleft) hstrands
  rcases Prog.run_bind.mp h with ⟨log₁, log, origin, rfl, horigin, h⟩ | ⟨e, herr, -⟩
  · have hfront₁ := (spectator_readOrigin host vmid gtype snapshot).sound horigin
    cases origin with
    | error e =>
      obtain ⟨rfl, -⟩ := Prog.run_ret.mp h
      exact hclean (by simpa using hfront₁)
    | ok origin =>
      have hnamed₁ := namedDatasets_readOrigin horigin
      rcases Prog.run_bind.mp h with ⟨log₂, log, chosen, rfl, hchosen, h⟩ | ⟨e, herr, -⟩
      · have hquiet₂ := (quiet_chooseVmid host vmid newVmid).sound hchosen
        have hnamed₂ := (silent_log (silent_of_quiet (quiet_chooseVmid host vmid newVmid)) hchosen).2.2
        cases chosen with
        | error e =>
          obtain ⟨rfl, -⟩ := Prog.run_ret.mp h
          refine hclean (List.forall_mem_append.mpr ⟨hfront₁, ?_⟩)
          simpa using fun q a hmem => Quiet.spectator (hquiet₂ (q, a) hmem)
        | ok newVmid =>
          rcases Prog.run_bind.mp h with ⟨log₃, log, prepared, rfl, hprepared, h⟩ | ⟨e, herr, -⟩
          · have hquiet₃ := (quiet_prepareRoot host origin.pool).sound hprepared
            have hnamed₃ := (silent_log (silent_of_quiet (quiet_prepareRoot host origin.pool)) hprepared).2.2
            have hfront : ∀ entry ∈ log₁ ++ (log₂ ++ log₃), Spectator entry.1 := by
              intro entry hmem
              rcases List.mem_append.mp hmem with hmem | hmem
              · exact hfront₁ entry hmem
              · rcases List.mem_append.mp hmem with hmem | hmem
                · exact Quiet.spectator (hquiet₂ entry hmem)
                · exact Quiet.spectator (hquiet₃ entry hmem)
            have hassoc : log₁ ++ (log₂ ++ (log₃ ++ log)) = log₁ ++ (log₂ ++ log₃) ++ log := by
              simp
            cases prepared with
            | error e =>
              obtain ⟨rfl, -⟩ := Prog.run_ret.mp h
              exact hclean (by simpa using hfront)
            | ok prepared =>
              obtain ⟨hnamed, hend⟩ := run_cloneOrigin h
              rw [hassoc]
              refine hend.clean_iff (fun entry hmem => (hfront entry hmem).1) ?_
              simp [hnamed₁, hnamed₂, hnamed₃, hnamed]
          · refine hclean (List.forall_mem_append.mpr ⟨hfront₁, ?_⟩)
            refine List.forall_mem_append.mpr ⟨fun entry hmem => Quiet.spectator (hquiet₂ entry hmem), ?_⟩
            exact fun entry hmem =>
              Quiet.spectator ((quiet_prepareRoot host origin.pool).sound herr entry hmem)
      · refine hclean (List.forall_mem_append.mpr ⟨hfront₁, ?_⟩)
        exact fun entry hmem =>
          Quiet.spectator ((quiet_chooseVmid host vmid newVmid).sound herr entry hmem)
  · exact hclean ((spectator_readOrigin host vmid gtype snapshot).sound herr)

/-- A run of `create_job` that does not succeed leaves no clone behind,
unless the next disk after at least one clone, all of them made, has no
clone name. -/
theorem create_clean_iff {host : Host} {vmid gtype snapshot newVmid : Str} {fresh : Fresh}
    {log : Log} {o : Except Exn CreateResult}
    (h : (createJob host vmid gtype snapshot newVmid fresh).Run log o) :
    ((∀ s, o ≠ .ok (.ok s)) → clonesLeft log = []) ↔ ¬ Strands log := by
  have hnil : log = [] → (((∀ s, o ≠ .ok (.ok s)) → clonesLeft log = []) ↔ ¬ Strands log) := by
    intro hlog
    have hall : ∀ entry ∈ log, Bystander entry.1 := by simp [hlog]
    obtain ⟨hleft, hstrands⟩ := clean_of_bystander hall
    exact iff_of_true (fun _ => hleft) hstrands
  unfold createJob at h
  cases hv : validateVmid vmid with
  | error e =>
    simp only [hv, validated, Prog.raise_bind, Prog.run_raise] at h
    exact hnil h.1
  | ok v =>
    cases hg : validateVmType gtype with
    | error e =>
      simp only [hv, hg, validated, Prog.pure_eq, Prog.ret_bind, Prog.raise_bind,
        Prog.run_raise] at h
      exact hnil h.1
    | ok g =>
      simp only [hv, hg, validated, Prog.pure_eq, Prog.ret_bind] at h
      split at h
      · exact createGuest_clean_iff h
      · exact hnil (Prog.run_ret.mp h).1

/-- The answers up to the first clone, for a guest with a second disk
`leaf`. -/
def createAnswers (leaf : Str) : List Answer :=
  [prints ("scsi0: local-zfs:vm-100-disk-0\nscsi1: local-zfs:" ++ leaf ++ "\n"),
    prints "/dev/zvol/rpool/data/vm-100-disk-0\n", prints "rpool/data/vm-100-disk-0\t1M\n",
    prints ("/dev/zvol/rpool/data/" ++ leaf ++ "\n"), prints ("rpool/data/" ++ leaf ++ "\t1M\n"),
    prints "rpool/data/vm-100-disk-0@s1\n", prints ("rpool/data/" ++ leaf ++ "@s1\n"),
    prints "__FREE__\n", prints "rpool/clone\n", prints [],
    prints "zfspool: rpool-clone\n\tpool rpool/clone\n", prints [], prints [], prints []]

/-- The answers after a second clone that failed: the first one is destroyed,
and the holds are released. -/
def undoAnswers : List Answer :=
  [⟨false, [], "out of space"⟩, prints [], prints [], prints [], prints [], prints []]

theorem create_clean_undone :
    ∃ log o, (createJob hostA "100" "qemu" "s1" "900" ⟨[], [], []⟩).Run log o ∧
      cloneAnswers log = [true, false] ∧
      (((∀ s, o ≠ .ok (.ok s)) → clonesLeft log = []) ↔ ¬ Strands log) := by
  have htranscript : ((createJob hostA "100" "qemu" "s1" "900" ⟨[], [], []⟩).transcript
      (createAnswers "vm-100-disk-1" ++ undoAnswers)).map (fun r => cloneAnswers r.1) =
        some [true, false] := by decide +kernel
  obtain ⟨r, hr, hanswers⟩ := Option.map_eq_some_iff.mp htranscript
  exact ⟨r.1, r.2, Prog.run_of_transcript hr, hanswers, create_clean_iff (Prog.run_of_transcript hr)⟩

/-- The outcome is an exception. -/
def raisedBy : Except Exn CreateResult → Bool
  | .error _ => true
  | .ok _ => false

/-- The second disk of the guest is `vm-100-data`, whose clone has no name:
the job raises with the first clone made, and the clone stays. -/
theorem create_stranded :
    ∃ log o, (createJob hostA "100" "qemu" "s1" "900" ⟨[], [], []⟩).Run log o ∧
      raisedBy o = true ∧ clonesLeft log = ["rpool/clone/vm-900-disk-0"] := by
  have htranscript : ((createJob hostA "100" "qemu" "s1" "900" ⟨[], [], []⟩).transcript
      (createAnswers "vm-100-data" ++ [prints [], prints [], prints [], prints []])).map
        (fun r => (raisedBy r.2, clonesLeft r.1)) =
          some (true, [("rpool/clone/vm-900-disk-0" : Str)]) := by decide +kernel
  obtain ⟨r, hr, heq⟩ := Option.map_eq_some_iff.mp htranscript
  obtain ⟨hraised, hleft⟩ := Prod.mk.inj heq
  exact ⟨r.1, r.2, Prog.run_of_transcript hr, hraised, hleft⟩

end PveZfsTool
