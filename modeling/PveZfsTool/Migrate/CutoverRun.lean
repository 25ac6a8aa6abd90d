import PveZfsTool.Migrate.Rollback

/-!
# The runs of a cutover

What stands in the log of a cutover, stage by stage, and what stands before
the start on the target.
-/

namespace PveZfsTool

open Dialogue Text

/-! ## The requests of each stage -/

/-- `_run_transfer` creates snapshots and sends streams. -/
def movesData (q : Request) : Prop :=
  (∃ ds snap, q.cmd = .zfsSnapshot ds snap) ∨ ∃ t, q.cmd = .sendRecv t

theorem uses_getKey {S : Request → Prop} (key : Str) (value : Option Str) :
    (getKey key value).Uses S := by
  cases value <;> trivial

theorem uses_planSources (plan : List PlanItem) : (planSources plan).Uses movesData := by
  induction plan with
  | nil => trivial
  | cons p plan ih => exact (uses_getKey _ _).bind (fun src => ih.bind (fun _ => trivial))

theorem uses_snapshotAll (host : Host) (snapName : Str) (datasets : List Str) :
    (snapshotAll host snapName datasets).Uses movesData := by
  induction datasets with
  | nil => simp [snapshotAll]
  | cons ds rest ih =>
    simp only [snapshotAll, runCommand, Prog.issue_bind, Prog.uses_ask]
    exact ⟨Or.inl ⟨ds, snapName, rfl⟩, fun _ => ih.bind (fun _ => trivial)⟩

theorem uses_parseExitMarker {S : Request → Prop} (out : Str) : (parseExitMarker out).Uses S := by
  unfold parseExitMarker
  split
  · trivial
  · split <;> trivial

theorem uses_transferDisk (source target : Host) (src tgt snapName : Str) (base : Option Str)
    (pull : Bool) : (transferDisk source target src tgt snapName base pull).Uses movesData := by
  refine ⟨Or.inr ⟨_, rfl⟩, fun a => ?_⟩
  exact (uses_parseExitMarker a.stdout).bind (fun _ => trivial)

theorem uses_transferPlan (source target : Host) (pull : Bool) (snapName : Str)
    (results : List TransferResult) (plan : List PlanItem) :
    (transferPlan source target pull snapName results plan).Uses movesData := by
  induction plan generalizing results with
  | nil => trivial
  | cons p plan ih =>
    refine (uses_getKey _ _).bind (fun src => (uses_getKey _ _).bind (fun tgt => ?_))
    refine (uses_transferDisk source target src tgt snapName p.base pull).bind (fun res => ?_)
    split
    · exact ih _
    · trivial

theorem uses_runTransfer (source target : Host) (plan : List PlanItem) (pull : Bool)
    (snapName : Str) : (runTransfer source target plan pull snapName).Uses movesData := by
  refine (uses_planSources plan).bind (fun datasets => ?_)
  refine (uses_snapshotAll source snapName datasets).bind (fun snaps => ?_)
  dsimp only
  split
  · trivial
  · exact uses_transferPlan source target pull snapName [] plan

/-- `_stop_guest` shuts the guest down, stops it and asks for its status. -/
theorem uses_stopGuest (host : Host) (vmid gtype : Str) (timeout : Int) :
    (stopGuest host vmid gtype timeout).Uses (fun q => q = statusRequest host vmid gtype ∨
      q = ⟨host, .guestShutdown (Tool.ofGtype gtype) vmid timeout⟩ ∨
      q = ⟨host, .guestStop (Tool.ofGtype gtype) vmid []⟩) := by
  refine (uses_runCommand (Or.inr (Or.inl rfl))).bind (fun _ => ?_)
  refine Prog.Uses.bind ⟨Or.inl rfl, fun _ => trivial⟩ (fun running => ?_)
  split
  · trivial
  · exact ⟨Or.inr (Or.inr rfl), fun _ => ⟨Or.inl rfl, fun _ => trivial⟩⟩

/-- The request looks for a config, or writes one. -/
def writesConfig (host : Host) (q : Request) : Prop :=
  q.host = host ∧ ((∃ dest, q.cmd = .confProbe dest) ∨ ∃ dest text, q.cmd = .confWrite dest text)

theorem uses_writesConfig (host : Host) (gtype vmid content : Str) (force : Bool) :
    (restoreGuestConfig host gtype vmid content force).Uses (writesConfig host) := by
  refine (uses_restoreGuestConfig host gtype vmid content force).mono ?_
  rintro q ⟨hhost, hprobe | ⟨dest, hwrite⟩⟩
  · exact ⟨hhost, Or.inl hprobe⟩
  · exact ⟨hhost, Or.inr ⟨dest, content, hwrite⟩⟩

/-! ## The start on the target -/

/-- The script of the cutover that locks the source. -/
def lockRequest (source : Host) (q : CutoverRequest) : Request :=
  ⟨source, .setLock (confPath (Tool.ofGtype q.gtype) (strip q.vmid)) (some "migrate")⟩

/-- The start on the target. -/
def startRequest (target : Host) (q : CutoverRequest) : Request :=
  ⟨target, .guestStart (Tool.ofGtype q.gtype) q.targetVmid⟩

/-- The status command for the source. -/
def sourceStatus (source : Host) (q : CutoverRequest) : Request :=
  statusRequest source q.vmid q.gtype

/-- The end of a cutover writes the rewritten config, locks the source and
starts the target. -/
theorem uses_cutoverFinish {S : Request → Prop} {source target : Host} {q : CutoverRequest}
    {cfg : ConfigFile} (res : TransferRun)
    (hconf : ∀ text, rewriteGuestConfig cfg.content q.storageMap q.bridgeMap (some q.vmid)
      q.newVmid = .ok text → ∀ r : Request, r.host = target →
      (∃ dest, r.cmd = .confProbe dest) ∨ (∃ dest, r.cmd = .confWrite dest text) → S r)
    (hlock : S (lockRequest source q)) (hstart : S (startRequest target q)) :
    (cutoverFinish source target q cfg res).Uses S := by
  have hlocks : (setGuestLock source q.vmid q.gtype (some "migrate")).Uses S := by
    unfold setGuestLock
    cases hv : validateVmid q.vmid with
    | error e => trivial
    | ok v =>
      rw [lockRequest, ← (validateVmid_ok hv).1] at hlock
      exact ⟨hlock, fun _ => trivial⟩
  have hstarts : (startGuest target q.targetVmid q.gtype q.startOnTarget).Uses S := by
    unfold startGuest
    split
    · exact ⟨hstart, fun _ => trivial⟩
    · trivial
  unfold cutoverFinish
  cases hrewrite : rewriteGuestConfig cfg.content q.storageMap q.bridgeMap (some q.vmid)
      q.newVmid with
  | error e => trivial
  | ok text =>
    have hwrite := (uses_restoreGuestConfig target q.gtype q.targetVmid text false).mono
      (fun r hr => hconf text hrewrite r hr.1 hr.2)
    refine hwrite.bind (fun wr => ?_)
    split
    · trivial
    · exact hlocks.bind (fun _ => hstarts.bind (fun _ => trivial))

/-- The log up to the start on the target: the status answer that ended the
stop of the source, the transfer, the config, and the lock. -/
structure LockedLog (source target : Host) (q : CutoverRequest) (log : Log) where
  before : Log
  answer : Answer
  moving : Log
  lock : Answer
  eq : log = before ++ (sourceStatus source q, answer) :: (moving ++ [(lockRequest source q, lock)])
  notRunning : saysRunning answer = false
  before_running : ∀ a, (sourceStatus source q, a) ∈ before → saysRunning a = true
  before_quiet : ∀ entry ∈ before, entry.1.cmd.starts = false ∧ entry.1.cmd.locks = false
  moving_quiet : ∀ entry ∈ moving, movesData entry.1 ∨ writesConfig target entry.1

/-- No request of the log is a start. -/
def StartsNothing (log : Log) : Prop := ∀ entry ∈ log, entry.1.cmd.starts = false

/-- A `_stop_guest` that reports success ends in a status answer that does
not say that the guest runs. -/
theorem run_stopGuest {host : Host} {vmid gtype : Str} {timeout : Int} {log : Log} {b : Bool}
    (h : (stopGuest host vmid gtype timeout).Run log (.ok b)) :
    ∃ front s, log = front ++ [(statusRequest host vmid gtype, s)] ∧ saysRunning s = !b ∧
      (∀ a, (statusRequest host vmid gtype, a) ∈ front → saysRunning a = true) ∧
      ∀ entry ∈ front, entry.1.cmd.starts = false ∧ entry.1.cmd.locks = false := by
  simp only [stopGuest, guestIsRunning, runCommand, Prog.issue_bind, Prog.ask_bind,
    Prog.ret_bind, Prog.pure_eq, Prog.run_ask] at h
  obtain ⟨a, _, rfl, s, log, rfl, h⟩ := h
  cases hs : saysRunning s with
  | false =>
    simp only [hs, Bool.false_eq_true, not_false_eq_true, if_true, Prog.run_ret,
      Except.ok.injEq] at h
    obtain ⟨rfl, rfl⟩ := h
    refine ⟨[(⟨host, .guestShutdown (Tool.ofGtype gtype) vmid timeout⟩, a)], s, rfl, by simp [hs],
      ?_, ?_⟩
    · simp [statusRequest]
    · simp [Cmd.starts, Cmd.locks]
  | true =>
    simp only [hs, not_true_eq_false, if_false, Prog.run_ask, Prog.run_ret, Except.ok.injEq] at h
    obtain ⟨c, _, rfl, s', _, rfl, rfl, rfl⟩ := h
    refine ⟨[(⟨host, .guestShutdown (Tool.ofGtype gtype) vmid timeout⟩, a),
      (statusRequest host vmid gtype, s), (⟨host, .guestStop (Tool.ofGtype gtype) vmid []⟩, c)],
      s', rfl, by simp, ?_, ?_⟩
    · simp [statusRequest, hs]
    · simp [statusRequest, Cmd.starts, Cmd.locks]

/-- `_stop_guest` never raises. -/
theorem neverRaises_stopGuest (host : Host) (vmid gtype : Str) (timeout : Int) :
    (stopGuest host vmid gtype timeout).NeverRaises := by
  refine fun _ s => ?_
  show Prog.NeverRaises (if _ then _ else _)
  split
  · trivial
  · exact fun _ _ => trivial

/-- The end of a cutover: the config, then the lock, then the start. -/
theorem run_cutoverFinish {source target : Host} {q : CutoverRequest} {cfg : ConfigFile}
    {res : TransferRun} {log : Log} {o : Except Exn CutoverResult} {v : Str}
    (hv : validateVmid q.vmid = .ok v)
    (h : (cutoverFinish source target q cfg res).Run log o) :
    ∃ conf rest, log = conf ++ rest ∧
      (∀ entry ∈ conf, writesConfig target entry.1) ∧
      (rest = [] ∨ ∃ lk, rest = [(lockRequest source q, lk)] ∨
        ∃ a, rest = [(lockRequest source q, lk), (startRequest target q, a)]) := by
  unfold cutoverFinish at h
  cases htext : rewriteGuestConfig cfg.content q.storageMap q.bridgeMap (some q.vmid)
      q.newVmid with
  | error e =>
    simp only [htext, liftExn, Prog.raise_bind, Prog.run_raise] at h
    exact ⟨[], [], by simp [h.1], by simp, Or.inl rfl⟩
  | ok text =>
    simp only [htext, liftExn, Prog.pure_eq, Prog.ret_bind] at h
    rcases Prog.run_bind.mp h with ⟨conf, rest, wr, rfl, hconf, hrest⟩ | ⟨e, herr, -⟩
    · refine ⟨conf, rest, rfl, (uses_writesConfig _ _ _ _ _).sound hconf, ?_⟩
      split at hrest
      · exact Or.inl (Prog.run_ret.mp hrest).1
      · have hlock : confPath (Tool.ofGtype q.gtype) v =
            confPath (Tool.ofGtype q.gtype) (strip q.vmid) := by rw [(validateVmid_ok hv).1]
        simp only [setGuestLock, hv, hlock, runCommand, Prog.issue_bind, Prog.ask_bind,
          Prog.run_ask] at hrest
        obtain ⟨lk, rest, rfl, hrest⟩ := hrest
        refine Or.inr ⟨lk, ?_⟩
        cases hstart : q.startOnTarget with
        | false =>
          simp only [startGuest, hstart, Bool.false_eq_true, if_false, Prog.pure_eq,
            Prog.ret_bind, Prog.run_ret] at hrest
          exact Or.inl (by rw [hrest.1]; rfl)
        | true =>
          simp only [startGuest, hstart, if_true, runCommand, Prog.issue_bind, Prog.pure_eq,
            Prog.ask_bind, Prog.ret_bind, Prog.run_ask, Prog.run_ret] at hrest
          obtain ⟨a, _, rfl, rfl, -⟩ := hrest
          exact Or.inr ⟨a, rfl⟩
    · exact ⟨log, [], by simp, (uses_writesConfig _ _ _ _ _).sound herr, Or.inl rfl⟩

theorem movesData_quiet {q : Request} (h : movesData q) :
    q.cmd.starts = false ∧ q.cmd.changesGuest = false := by
  rcases h with ⟨ds, snap, hq⟩ | ⟨t, hq⟩ <;> simp [hq, Cmd.starts, Cmd.changesGuest]

theorem confRequest_starts {c : Cmd}
    (h : (∃ dest, c = .confProbe dest) ∨ ∃ dest text, c = .confWrite dest text) :
    c.starts = false := by
  rcases h with ⟨dest, rfl⟩ | ⟨dest, text, rfl⟩ <;> rfl

/-- A start stands in the log of a cutover only at its end, after the stop
and the lock. -/
def StartsLast (source target : Host) (q : CutoverRequest) (log : Log) : Prop :=
  StartsNothing log ∨ ∃ pre a, log = pre ++ [(startRequest target q, a)] ∧
    Nonempty (LockedLog source target q pre)

theorem StartsLast.prepend {source target : Host} {q : CutoverRequest} {front log : Log}
    (h : StartsLast source target q log)
    (hfront : ∀ entry ∈ front, entry.1.cmd.starts = false ∧ entry.1.cmd.locks = false ∧
      entry.1 ≠ sourceStatus source q) :
    StartsLast source target q (front ++ log) := by
  rcases h with h | ⟨pre, a, rfl, ⟨l⟩⟩
  · refine Or.inl (fun entry hmem => ?_)
    rcases List.mem_append.mp hmem with hmem | hmem
    · exact (hfront entry hmem).1
    · exact h entry hmem
  · refine Or.inr ⟨front ++ pre, a, by simp,
      ⟨⟨front ++ l.before, l.answer, l.moving, l.lock, ?_, l.notRunning, ?_, ?_,
        l.moving_quiet⟩⟩⟩
    · conv_lhs => rw [l.eq]
      simp
    · intro b hmem
      rcases List.mem_append.mp hmem with hmem | hmem
      · exact absurd rfl (hfront _ hmem).2.2
      · exact l.before_running b hmem
    · intro entry hmem
      rcases List.mem_append.mp hmem with hmem | hmem
      · exact ⟨(hfront entry hmem).1, (hfront entry hmem).2.1⟩
      · exact l.before_quiet entry hmem

theorem run_cutoverMove {source target : Host} {q : CutoverRequest} {cfg : ConfigFile}
    {log : Log} {o : Except Exn CutoverResult} {v : Str} (hv : validateVmid q.vmid = .ok v)
    (h : (cutoverMove source target q cfg).Run log o) : StartsLast source target q log := by
  unfold cutoverMove at h
  rcases Prog.run_bind.mp h with ⟨stop, rest, b, rfl, hstop, hrest⟩ | ⟨e, herr, -⟩
  · obtain ⟨front, s, rfl, hs, hrunning, hquiet⟩ := run_stopGuest hstop
    have hstopped : StartsNothing (front ++ [(sourceStatus source q, s)]) := by
      intro entry hmem
      rcases List.mem_append.mp hmem with hmem | hmem
      · exact (hquiet entry hmem).1
      · rw [List.mem_singleton.mp hmem]
        rfl
    have hgo : ∀ {moved : Log}, StartsNothing moved →
        StartsNothing (front ++ [(sourceStatus source q, s)] ++ moved) := by
      intro moved hmoved entry hmem
      rcases List.mem_append.mp hmem with hmem | hmem
      · exact hstopped entry hmem
      · exact hmoved entry hmem
    cases b with
    | false =>
      simp only [Bool.false_eq_true, not_false_eq_true, if_true, Prog.pure_eq,
        Prog.run_ret] at hrest
      obtain ⟨rfl, -⟩ := hrest
      exact Or.inl (hgo (by simp [StartsNothing]))
    | true =>
      simp only [not_true_eq_false, if_false] at hrest
      have hmove : ∀ {moved : Log}, (∀ entry ∈ moved, movesData entry.1) →
          StartsNothing moved := fun h entry hmem => (movesData_quiet (h entry hmem)).1
      rcases Prog.run_bind.mp hrest with ⟨moved, fin, res, rfl, hmoved, hfin⟩ | ⟨e, herr, -⟩
      · have hmoves := (uses_runTransfer _ _ _ _ _).sound hmoved
        split at hfin
        · obtain ⟨rfl, -⟩ := Prog.run_ret.mp hfin
          exact Or.inl (hgo (hmove (by simpa using hmoves)))
        · obtain ⟨conf, rest, rfl, hconf, hend⟩ := run_cutoverFinish hv hfin
          have hmoving : ∀ entry ∈ moved ++ conf, movesData entry.1 ∨
              writesConfig target entry.1 := by
            intro entry hmem
            rcases List.mem_append.mp hmem with hmem | hmem
            · exact Or.inl (hmoves entry hmem)
            · exact Or.inr (hconf entry hmem)
          have hquiet' : StartsNothing (moved ++ conf) := by
            intro entry hmem
            rcases hmoving entry hmem with hdata | ⟨-, hconf⟩
            · exact (movesData_quiet hdata).1
            · exact confRequest_starts hconf
          rcases hend with rfl | ⟨lk, rfl | ⟨a, rfl⟩⟩
          · exact Or.inl (hgo (by simpa using hquiet'))
          · refine Or.inl (hgo (fun entry hmem => ?_))
            rw [← List.append_assoc] at hmem
            rcases List.mem_append.mp hmem with hmem | hmem
            · exact hquiet' entry hmem
            · rw [List.mem_singleton.mp hmem]
              rfl
          · refine Or.inr ⟨front ++ (sourceStatus source q, s) ::
              (moved ++ conf ++ [(lockRequest source q, lk)]), a, by simp [sourceStatus], ⟨?_⟩⟩
            exact ⟨front, s, moved ++ conf, lk, rfl, by simpa using hs, hrunning, hquiet, hmoving⟩
      · exact Or.inl (hgo (hmove ((uses_runTransfer _ _ _ _ _).sound herr)))
  · obtain ⟨b, hb⟩ := (neverRaises_stopGuest _ _ _ _).sound herr
    cases hb

/-- A run of the cutover starts the guest on the target only at its end,
after a status answer of the source that does not say that it runs, and
after the lock. -/
theorem run_cutoverJob {source target : Host} {q : CutoverRequest} {log : Log}
    {o : Except Exn CutoverResult} (h : (cutoverJob source target q).Run log o) :
    StartsLast source target q log := by
  have hnothing : ∀ {front : Log}, (∀ entry ∈ front, entry.1.cmd.starts = false ∧
      entry.1.cmd.locks = false ∧ entry.1 ≠ sourceStatus source q) →
      StartsLast source target q front := fun h => Or.inl (fun entry hmem => (h entry hmem).1)
  unfold cutoverJob at h
  rcases Prog.run_bind.mp h with ⟨probe, rest, used, rfl, hprobe, hrest⟩ | ⟨e, herr, -⟩
  · have hprobes := (uses_vmidInUse target q.targetVmid).sound hprobe
    have hquiet : ∀ entry ∈ probe, entry.1.cmd.starts = false ∧ entry.1.cmd.locks = false ∧
        entry.1 ≠ sourceStatus source q := by
      intro entry hmem
      obtain ⟨n, hn⟩ := hprobes entry hmem
      simp [hn, Cmd.starts, Cmd.locks, sourceStatus, statusRequest]
    split at hrest
    · obtain ⟨rfl, -⟩ := Prog.run_ret.mp hrest
      exact hnothing (by simpa using hquiet)
    · refine StartsLast.prepend ?_ hquiet
      unfold readGuestConfig at hrest
      cases hv : validateVmid q.vmid with
      | error e =>
        simp only [hv, Prog.pure_eq, Prog.ret_bind, Prog.run_ret] at hrest
        exact hnothing (by simp [hrest.1])
      | ok v =>
        simp only [hv, runCommand, Prog.issue_bind, Prog.ask_bind, Prog.run_ask] at hrest
        obtain ⟨a, rest, rfl, hrest⟩ := hrest
        have hcat : ∀ entry ∈ [((⟨source, .catFile (confPath (Tool.ofGtype q.gtype) v)⟩ :
            Request), a)], entry.1.cmd.starts = false ∧ entry.1.cmd.locks = false ∧
            entry.1 ≠ sourceStatus source q := by
          simp [Cmd.starts, Cmd.locks, sourceStatus, statusRequest]
        split at hrest
        · exact StartsLast.prepend (run_cutoverMove hv hrest) hcat
        · obtain ⟨rfl, -⟩ := Prog.run_ret.mp hrest
          exact hnothing hcat
  · refine hnothing (fun entry hmem => ?_)
    obtain ⟨n, hn⟩ := (uses_vmidInUse target q.targetVmid).sound herr entry hmem
    simp [hn, Cmd.starts, Cmd.locks, sourceStatus, statusRequest]

/-! ## A cutover -/

/-- A cutover of VM 100 with one disk. -/
def cutoverOne : CutoverRequest where
  vmid := "100"
  gtype := "qemu"
  plan := [⟨some "rpool/data/vm-100-disk-0", some "tank/vm-100-disk-0", []⟩]
  pull := true
  newVmid := none
  storageMap := []
  bridgeMap := []
  startOnTarget := true
  shutdownTimeout := 120
  snapName := "migrate-1"

def configOne : Str := "scsi0: local-zfs:vm-100-disk-0,size=4G"

/-- The log of the cutover of a guest with the given config, for the two
answers that decide its safety. -/
def cutoverLog (config : Str) (status lock : Answer) : Log :=
  [(⟨hostB, .vmidProbe 100⟩, prints "__FREE__\n"),
    (⟨hostA, .catFile "/etc/pve/qemu-server/100.conf"⟩, prints (config ++ "\n")),
    (⟨hostA, .guestShutdown .qm "100" 120⟩, noAnswer),
    (sourceStatus hostA cutoverOne, status),
    (⟨hostA, .zfsSnapshot "rpool/data/vm-100-disk-0" "migrate-1"⟩, prints []),
    (⟨hostB, .sendRecv (transferOf hostA hostB "rpool/data/vm-100-disk-0" "tank/vm-100-disk-0"
      "migrate-1" none true)⟩, prints "__exit=0\n"),
    (⟨hostB, .confProbe "/etc/pve/qemu-server/100.conf"⟩, prints "__NO__\n"),
    (⟨hostB, .confWrite "/etc/pve/qemu-server/100.conf" config⟩, prints "__OK__\n"),
    (lockRequest hostA cutoverOne, lock),
    (startRequest hostB cutoverOne, prints [])]

end PveZfsTool
