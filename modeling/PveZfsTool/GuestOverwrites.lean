import PveZfsTool.Dr.BackupRestore
import PveZfsTool.Lib.Probes
import PveZfsTool.Migrate.CutoverRun
import PveZfsTool.Recovery.CreateSafety

/-!
# Writes over what is there

`restore_guest_config` and `restore_backup_file` look for the path before they
write it.  The cutover and the recovery guests look for a guest of either type
first.  Each of these takes an answer without its marker for a no, so a check
that failed lets the write through.
-/

namespace PveZfsTool

open Text Dialogue

/-! ## What the commands look for -/

/-- A path on a host. -/
abbrev HostPath := Host × Str

/-- The configs that a guest with the number can have. -/
def IsConfOf (host : Host) (n : Int) (p : HostPath) : Prop :=
  ∃ tool, p = (host, confPath tool (ofInt n))

/-- The commands of the guest modules. -/
def guestOps : ProbeOps HostPath Request Answer where
  probes q p :=
    match q.cmd with
    | .confProbe dest => p = (q.host, dest)
    | .vmidProbe n => IsConfOf q.host n p
    | _ => False
  Positive q a :=
    match q.cmd with
    | .confProbe _ => contains a.stdout "__EXISTS__" = true
    | .vmidProbe _ => contains a.stdout "__USED__" = true
    | _ => True
  writes q p :=
    match q.cmd with
    | .confWrite dest _ => p = (q.host, dest)
    | _ => False
  touches q p :=
    match q.cmd with
    | .confWrite dest _ => p = (q.host, dest)
    | .rmConfig tool n => p = (q.host, confPath tool (ofInt n))
    | .guestDestroy tool vmid => p = (q.host, confPath tool vmid)
    | _ => False

/-- The commands of the restore of a backup.  A write makes the directories
above the file too. -/
def restoreOps : ProbeOps HostPath (Host × RestoreCmd) Answer where
  probes q p :=
    match q.2 with
    | .pathExists dest => p = (q.1, dest)
    | _ => False
  Positive q a :=
    match q.2 with
    | .pathExists _ => contains a.stdout "__EXISTS__" = true
    | _ => True
  writes q p :=
    match q.2 with
    | .writeFile dest _ _ => p = (q.1, dest)
    | _ => False
  touches q p :=
    match q.2 with
    | .writeFile dest _ _ => p.1 = q.1 ∧ p.2 <+: dest
    | _ => False

/-! ## One path -/

/-- `restore_guest_config` without force spares a config that is there if and
only if its check is answered. -/
theorem spared_restoreGuestConfig {host : Host} {gtype vmid content : Str}
    (R : Execution guestOps.env (restoreGuestConfig host gtype vmid content false)) :
    guestOps.Spared R.before R.trail ↔ guestOps.AllAnswered R.before R.trail := by
  obtain ⟨before, trail, after, outcome, hpath, hdrives⟩ := R
  show guestOps.Spared before trail ↔ guestOps.AllAnswered before trail
  unfold restoreGuestConfig runCommand at hdrives
  split at hdrives
  · obtain rfl : trail = [] := eq_nil_of_answered hdrives.1
    exact iff_of_true trivial trivial
  · split at hdrives
    · obtain rfl : trail = [] := eq_nil_of_answered hdrives.1
      exact iff_of_true trivial trivial
    · simp only [Prog.issue_bind] at hdrives
      have hquiet : ∀ dest p, ¬ guestOps.writes ⟨host, .confProbe dest⟩ p ∧
          ¬ guestOps.touches ⟨host, .confProbe dest⟩ p ∧
          ¬ guestOps.probes ⟨host, .confWrite dest content⟩ p := fun _ _ => ⟨id, id, id⟩
      refine ProbeOps.spared_iff_answered (fun p => Iff.rfl) (hquiet _) ?_ ?_ hpath hdrives
      · intro a hpos
        rw [if_pos ⟨hpos, by simp⟩]
        exact ⟨_, rfl⟩
      · intro a hneg
        rw [if_neg (fun h => hneg h.1)]
        exact ⟨_, rfl, fun b => ⟨_, rfl⟩⟩

theorem spared_restoreFor {host : Host} {member node : Str} {file : List UInt8 × Bool}
    {w w' : HostPath → Prop} {t : Trail (Host × RestoreCmd) Answer Empty (HostPath → Prop)}
    {o : Except Exn MemberResult} (hpath : restoreOps.env.Path w t w')
    (h : Drives (restoreFor host member file false node) t o) :
    restoreOps.Spared w t ↔ restoreOps.AllAnswered w t := by
  unfold restoreFor writeMember runRestore at h
  split at h
  · obtain rfl : t = [] := eq_nil_of_answered h.1
    exact iff_of_true trivial trivial
  · simp only [Prog.issue_bind] at h
    have hquiet : ∀ dest p, ¬ restoreOps.writes (host, .pathExists dest) p ∧
        ¬ restoreOps.touches (host, .pathExists dest) p ∧
        ¬ restoreOps.probes (host, .writeFile dest file.1 file.2) p := fun _ _ => ⟨id, id, id⟩
    refine ProbeOps.spared_iff_answered (fun p => Iff.rfl) (hquiet _) ?_ ?_ hpath h
    · intro a hpos
      have hfound : contains a.stdout "__EXISTS__" = true := hpos
      rw [hfound]
      exact ⟨_, rfl⟩
    · intro a hneg
      have hfound : contains a.stdout "__EXISTS__" = false :=
        Bool.eq_false_iff.mpr hneg
      rw [hfound]
      exact ⟨_, rfl, fun b => ⟨_, rfl⟩⟩

/-- So does `restore_backup_file`. -/
theorem spared_restoreBackupFile {host : Host} {archive : Archive} {member : Str}
    {localNode : Option Str}
    (R : Execution restoreOps.env (restoreBackupFile host archive member false localNode)) :
    restoreOps.Spared R.before R.trail ↔ restoreOps.AllAnswered R.before R.trail := by
  obtain ⟨before, trail, after, outcome, hpath, hdrives⟩ := R
  show restoreOps.Spared before trail ↔ restoreOps.AllAnswered before trail
  unfold restoreBackupFile at hdrives
  split at hdrives
  · obtain rfl : trail = [] := eq_nil_of_answered hdrives.1
    exact iff_of_true trivial trivial
  · cases localNode with
    | some node => exact spared_restoreFor hpath hdrives
    | none =>
      simp only [localNodeName, runRestore, Prog.issue_bind, Prog.ask_bind] at hdrives
      obtain ⟨a, u, t, rfl, hnext⟩ := drives_ask hdrives
      have hrest := spared_restoreFor hpath.2 hnext
      constructor
      · rintro ⟨-, hspared⟩
        exact ⟨fun p hp => hp.elim, hrest.mp hspared⟩
      · rintro ⟨-, hanswered⟩
        exact ⟨fun p hp => hp.elim, hrest.mpr hanswered⟩

/-! ## Guests of either type -/

/-- If the request writes a guest config, no guest with its number is there. -/
def SparesGuest (w : HostPath → Prop) : Event Request Answer Empty → Prop
  | .request q _ => ∀ tool v text n, q.cmd = .confWrite (confPath tool v) text →
      toInt? v = some n → ∀ p, IsConfOf q.host n p → ¬ w p
  | .move _ => True

/-- No guest config is written over a config, or over a guest of either type
with its number. -/
def GuestsSpared (w : HostPath → Prop) (tr : Trail Request Answer Empty (HostPath → Prop)) : Prop :=
  guestOps.Spared w tr ∧ EachStep SparesGuest w tr

/-- No guest has been found under the VMID, and no config has been touched. -/
structure FoundFree (host : Host) (vmid : Str) (h : Log) : Prop where
  probed : ∃ n a, toInt? vmid = some n ∧ (⟨host, .vmidProbe n⟩, a) ∈ h ∧
    contains a.stdout "__USED__" = false
  untouched : ∀ entry ∈ h, entry.1.cmd.touchesConf = false

/-- A guest config is written after no guest has been found under its VMID and
no config in its place. -/
def WritesFree (h : Log) (q : Request) : Prop :=
  ∀ dest text, q.cmd = .confWrite dest text →
    ∃ tool v, dest = confPath tool v ∧ FoundFree q.host v h ∧
      ∃ a, (⟨q.host, .confProbe dest⟩, a) ∈ h ∧ contains a.stdout "__EXISTS__" = false

theorem confPath_inj {tool tool' : Tool} {v v' : Str} (h : confPath tool v = confPath tool' v') :
    v = v' := by
  have hcancel : ∀ pre : Str, pre ++ v ++ ".conf" = pre ++ v' ++ ".conf" → v = v' := fun _ heq =>
    List.append_cancel_left (List.append_cancel_right heq)
  cases tool with
  | qm =>
    cases tool' with
    | qm => exact hcancel _ h
    | pct =>
      have hchar := congrArg (fun s => s[9]?) h
      cases hchar
  | pct =>
    cases tool' with
    | qm =>
      have hchar := congrArg (fun s => s[9]?) h
      cases hchar
    | pct => exact hcancel _ h

theorem not_touches {q : Request} {p : HostPath} (h : q.cmd.touchesConf = false) :
    ¬ guestOps.touches q p := by
  obtain ⟨host, cmd⟩ := q
  cases cmd <;> first | exact id | cases h

/-- In a run that writes free VMIDs only, where every check is answered, no
guest is written over. -/
theorem guestsSpared_of_writesFree {α : Type} {p : Job α}
    {Post : Log → Except Exn α → Prop} (hp : p.Meets WritesFree Post [])
    {R : Execution guestOps.env p} (hall : guestOps.AllAnswered R.before R.trail) :
    GuestsSpared R.before R.trail := by
  obtain ⟨w, trail, w', o, hpath, hdrives⟩ := R
  have hfree : EachRequest WritesFree (answered trail) := (hp.sound hdrives).1
  have hsteps : EachStep (fun u e => guestOps.Spares u e ∧ SparesGuest u e) w trail := by
    rw [eachStep_iff]
    intro t₁ e u t₂ heq
    cases e with
    | move m => exact m.elim
    | request q a =>
      subst heq
      obtain ⟨hfront, -, -⟩ := hpath.cut
      have hallFront : guestOps.AllAnswered w t₁ := (eachStep_append.mp hall).1
      have hq : WritesFree (answered t₁) q := hfree _ q a (answered t₂) (by simp)
      -- a check without a yes before the write says that its paths are not there
      have habsent : ∀ c b, (c, b) ∈ answered t₁ → ¬ guestOps.Positive c b →
          (∀ entry ∈ answered t₁, entry.1.cmd.touchesConf = false) →
          ∀ p, guestOps.probes c p → ¬ stateAfter w t₁ p := by
        intro c b hmem hno hquiet p hprobes
        exact ProbeOps.absent_of_unanswered hfront hallFront hmem hno hprobes
          (fun q' a' hmem' => not_touches (hquiet (q', a') hmem'))
      constructor
      · intro p hwrites
        obtain ⟨host, cmd⟩ := q
        cases cmd with
        | confWrite dest text =>
          obtain ⟨tool, v, -, hfound, b, hmem, hno⟩ := hq dest text rfl
          exact habsent ⟨host, .confProbe dest⟩ b hmem (Bool.eq_false_iff.mp hno) hfound.untouched p
            hwrites
        | _ => exact hwrites.elim
      · intro tool v text n hcmd hn p hconf
        obtain ⟨tool', v', hdest, hfound, -⟩ := hq _ text hcmd
        obtain rfl : v = v' := confPath_inj hdest
        obtain ⟨n', b, hn', hmem, hno⟩ := hfound.probed
        obtain rfl : n = n' := Option.some.inj (hn.symm.trans hn')
        exact habsent ⟨q.host, .vmidProbe n⟩ b hmem (Bool.eq_false_iff.mp hno) hfound.untouched p
          hconf
  constructor
  · exact eachStep_mono (fun _ _ h => h.1) hsteps
  · exact eachStep_mono (fun _ _ h => h.2) hsteps

/-! ## The jobs write free VMIDs -/

/-- The request touches no guest config. -/
def LeavesConfs (q : Request) : Prop := q.cmd.touchesConf = false

section

variable {α β : Type} {h : Log} {I : Log → Prop}

theorem writesFree_of_leaves {q : Request} (hq : LeavesConfs q) : WritesFree h q := by
  intro dest text hcmd
  rw [LeavesConfs, hcmd] at hq
  cases hq

/-- A part that touches no config keeps what stays true under such requests. -/
theorem Prog.Uses.keeps {p : Job α} (hp : p.Uses LeavesConfs)
    (hI : ∀ ext, (∀ entry ∈ ext, LeavesConfs entry.1) → I (h ++ ext)) :
    p.Meets WritesFree (fun h' _ => I h') h := by
  refine (hp.meets (fun ext q _ hq => writesFree_of_leaves hq)).mono ?_
  rintro h' o ⟨ext, rfl, hext⟩
  exact hI ext hext

/-- Such a part may end a job. -/
theorem writesFree_end {p : Job α} (hp : p.Uses LeavesConfs) :
    p.Meets WritesFree (fun _ _ => True) h :=
  Prog.Uses.keeps hp (fun _ _ => trivial)

variable {host : Host} {vmid : Str}

theorem FoundFree.append (hfound : FoundFree host vmid h) {ext : Log}
    (hext : ∀ entry ∈ ext, LeavesConfs entry.1) : FoundFree host vmid (h ++ ext) := by
  obtain ⟨⟨n, a, hn, hmem, hno⟩, huntouched⟩ := hfound
  exact ⟨⟨n, a, hn, List.mem_append_left _ hmem, hno⟩,
    List.forall_mem_append.mpr ⟨huntouched, hext⟩⟩

/-- After the VMID was found free, a part that touches no config may come. -/
theorem FoundFree.bind {p : Job α} {f : α → Job β} (hfound : FoundFree host vmid h)
    (hp : p.Uses LeavesConfs)
    (hf : ∀ h' value, FoundFree host vmid h' → (f value).Meets WritesFree (fun _ _ => True) h') :
    (p >>= f).Meets WritesFree (fun _ _ => True) h :=
  (Prog.Uses.keeps hp (fun _ hext => hfound.append hext)).bind (fun h' value hfound' =>
    hf h' value hfound') (fun _ _ _ => trivial)

/-- `vmid_in_use` says no only where it found no guest. -/
theorem writesFree_vmidInUse (huntouched : ∀ entry ∈ h, LeavesConfs entry.1) :
    (vmidInUse host vmid).Meets WritesFree
      (fun h' o => (∀ entry ∈ h', LeavesConfs entry.1) ∧ (o = .ok false → FoundFree host vmid h'))
      h := by
  unfold vmidInUse pyInt
  split
  · rename_i n hn
    refine ⟨writesFree_of_leaves rfl, fun a => ?_⟩
    have hall : ∀ entry ∈ h ++ [((⟨host, .vmidProbe n⟩ : Request), a)], LeavesConfs entry.1 := by
      rw [List.forall_mem_append]
      exact ⟨huntouched, by simp [LeavesConfs, Cmd.touchesConf]⟩
    refine ⟨hall, fun hno => ⟨⟨n, a, hn, by simp, Except.ok.inj hno⟩, hall⟩⟩
  · exact ⟨huntouched, fun hno => by cases hno⟩

theorem exists_tool {gtype subdir : Str} (hsub : restoreSubdir gtype = some subdir) :
    ∃ tool : Tool, subdir = tool.subdir := by
  unfold restoreSubdir at hsub
  split at hsub
  · exact ⟨.pct, (Option.some.inj hsub).symm⟩
  · split at hsub
    · exact ⟨.qm, (Option.some.inj hsub).symm⟩
    · cases hsub

/-- The config of a VMID that was found free may be written. -/
theorem writesFree_restoreGuestConfig {gtype content : Str} (hfound : FoundFree host vmid h) :
    (restoreGuestConfig host gtype vmid content false).Meets WritesFree (fun _ _ => True) h := by
  unfold restoreGuestConfig
  split
  · trivial
  · rename_i subdir hsub
    obtain ⟨tool, rfl⟩ := exists_tool hsub
    split
    · trivial
    · refine ⟨writesFree_of_leaves rfl, fun a => ?_⟩
      show Prog.Meets _ _ (if _ then _ else _) _
      split
      · trivial
      · rename_i hno
        refine ⟨fun dest text hcmd => ?_, fun b => trivial⟩
        obtain ⟨rfl, rfl⟩ := Cmd.confWrite.inj hcmd
        refine ⟨tool, vmid, rfl, hfound.append (by simp [LeavesConfs, Cmd.touchesConf]), a, by simp, ?_⟩
        simpa using hno

/-! ## The cutover -/

theorem writesFree_cutoverFinish {source target : Host} {q : CutoverRequest} {cfg : ConfigFile}
    {res : TransferRun} (hfound : FoundFree target q.targetVmid h) :
    (cutoverFinish source target q cfg res).Meets WritesFree (fun _ _ => True) h := by
  have hlock : (setGuestLock source q.vmid q.gtype (some "migrate")).Uses LeavesConfs := by
    unfold setGuestLock
    split
    · trivial
    · exact ⟨rfl, fun _ => trivial⟩
  have hstart : (startGuest target q.targetVmid q.gtype q.startOnTarget).Uses LeavesConfs := by
    unfold startGuest
    split
    · exact ⟨rfl, fun _ => trivial⟩
    · trivial
  have htext : (liftExn (rewriteGuestConfig cfg.content q.storageMap q.bridgeMap (some q.vmid)
      q.newVmid)).Uses LeavesConfs := by
    cases rewriteGuestConfig cfg.content q.storageMap q.bridgeMap (some q.vmid) q.newVmid <;> trivial
  refine hfound.bind htext (fun h' text hfound' => ?_)
  refine (writesFree_restoreGuestConfig hfound').bind (fun h' wr _ => ?_) (fun _ _ _ => trivial)
  split
  · trivial
  · exact writesFree_end (hlock.bind (fun lk => hstart.bind (fun started => trivial)))

theorem writesFree_cutoverMove {source target : Host} {q : CutoverRequest} {cfg : ConfigFile}
    (hfound : FoundFree target q.targetVmid h) :
    (cutoverMove source target q cfg).Meets WritesFree (fun _ _ => True) h := by
  have hstop : (stopGuest source q.vmid q.gtype q.shutdownTimeout).Uses LeavesConfs := by
    refine (uses_stopGuest source q.vmid q.gtype q.shutdownTimeout).mono ?_
    rintro r (rfl | rfl | rfl) <;> rfl
  have htransfer : (runTransfer source target q.plan q.pull q.snapName).Uses LeavesConfs := by
    refine (uses_runTransfer source target q.plan q.pull q.snapName).mono ?_
    rintro ⟨host, cmd⟩ (⟨ds, snap, hcmd⟩ | ⟨t, hcmd⟩)
    · rw [LeavesConfs, hcmd]
      rfl
    · rw [LeavesConfs, hcmd]
      rfl
  refine hfound.bind hstop (fun h' stopped hfound' => ?_)
  split
  · trivial
  · refine hfound'.bind htransfer (fun h' res hfound' => ?_)
    split
    · trivial
    · exact writesFree_cutoverFinish hfound'

theorem writesFree_cutoverJob {source target : Host} {q : CutoverRequest} :
    (cutoverJob source target q).Meets WritesFree (fun _ _ => True) [] := by
  have hread : (readGuestConfig source q.vmid q.gtype).Uses LeavesConfs := by
    refine (uses_readGuestConfig source q.vmid q.gtype).mono ?_
    rintro r ⟨path, rfl⟩
    rfl
  refine (writesFree_vmidInUse (by simp)).bind (fun h' used hpost => ?_) (fun _ _ _ => trivial)
  cases used with
  | true => trivial
  | false =>
    refine (hpost.2 rfl).bind hread (fun h' cfg hfound => ?_)
    cases cfg with
    | error e => trivial
    | ok cfg => exact writesFree_cutoverMove hfound

/-! ## The recovery guest -/

theorem leaves_cloneDisks {c : CloneOrder} {made : Clones} {disks : List Disk} :
    (cloneDisks host c made disks).Uses LeavesConfs := by
  induction disks generalizing made with
  | nil => trivial
  | cons d disks ih =>
    have hname : (liftExn (cloneVolumeName d.dataset c.newVmid)).Uses LeavesConfs := by
      cases cloneVolumeName d.dataset c.newVmid <;> trivial
    refine hname.bind (fun name => ⟨rfl, fun r => ?_⟩)
    show Prog.Uses _ (if _ then _ else _)
    split
    · exact ih
    · exact (uses_destroyEach (fun _ _ => rfl)).bind (fun _ => trivial)

theorem writesFree_finishCreate {c : CloneOrder} {cfg : ConfigFile} {excluded : List Str}
    {fresh : Fresh} {clones : Clones} {left : List Str} (hfound : FoundFree host c.newVmid h) :
    (finishCreate host vmid c cfg excluded fresh clones left).Meets WritesFree
      (fun _ _ => True) h := by
  refine (writesFree_restoreGuestConfig hfound).bind (fun h' wr _ => ?_) (fun _ _ _ => trivial)
  split
  · trivial
  · exact writesFree_end ((uses_destroyEach (fun _ _ => rfl)).bind (fun _ => trivial))

theorem writesFree_cloneOrigin {origin : Origin} {c : CloneOrder} {excluded : List Str} {fresh : Fresh}
    (hfound : FoundFree host c.newVmid h) :
    (cloneOrigin host vmid origin c excluded fresh).Meets WritesFree (fun _ _ => True) h := by
  have hleaves : ∀ q, Quiet q → LeavesConfs q := fun _ hq => hq.2
  have hrelease : ∀ snaps, (releaseHolds host snaps).Uses LeavesConfs := fun snaps =>
    ((quiet_releaseEach host snaps).bind (fun _ => quiet_holdsLeft host snaps)).mono hleaves
  refine hfound.bind ((quiet_holdEach host _).mono hleaves) (fun h' _ hfound' => ?_)
  refine hfound'.bind (leaves_cloneDisks.tryFinally (hrelease _)) (fun h' made hfound' => ?_)
  obtain ⟨made, left⟩ := made
  cases made with
  | error e => trivial
  | ok clones => exact writesFree_finishCreate hfound'

/-- `create_job` takes a VMID only where it found no guest under it. -/
theorem writesFree_chooseVmid {newVmid : Str} (huntouched : ∀ entry ∈ h, LeavesConfs entry.1) :
    (chooseVmid host vmid newVmid).Meets WritesFree
      (fun h' o => ∀ v, o = .ok (.ok v) → FoundFree host v h') h := by
  have hwanted := (quiet_wantedVmid host vmid newVmid).mono (fun _ hq => hq.2)
  have hkeeps := Prog.Uses.keeps (I := fun h' => ∀ entry ∈ h', LeavesConfs entry.1) hwanted
    (fun ext hext => List.forall_mem_append.mpr ⟨huntouched, hext⟩)
  refine hkeeps.bind (fun h' wanted huntouched' => ?_) (fun h' e _ v hv => by cases hv)
  split
  · intro v hv
    cases hv
  · cases validateVmid wanted with
    | error e =>
      intro v hv
      cases hv
    | ok wanted =>
      show Prog.Meets _ _ (vmidTaken host vmid wanted >>= _) _
      unfold vmidTaken
      split
      · intro v hv
        cases hv
      · refine (writesFree_vmidInUse huntouched').bind (fun h' taken hpost => ?_)
          (fun h' e _ v hv => by cases hv)
        cases taken with
        | true =>
          intro v hv
          cases hv
        | false =>
          intro v hv
          obtain rfl : wanted = v := Except.ok.inj (Except.ok.inj hv)
          exact hpost.2 rfl

theorem writesFree_createGuest {gtype snapshot newVmid : Str} {fresh : Fresh} :
    (createGuest host vmid gtype snapshot newVmid fresh).Meets WritesFree (fun _ _ => True) [] := by
  have horigin := (spectator_readOrigin host vmid gtype snapshot).mono (fun _ hq => hq.2)
  have hkeeps := Prog.Uses.keeps (I := fun h' => ∀ entry ∈ h', LeavesConfs entry.1) (h := [])
    horigin (fun ext hext => hext)
  refine hkeeps.bind (fun h' origin huntouched => ?_) (fun _ _ _ => trivial)
  cases origin with
  | error e => trivial
  | ok origin =>
    refine (writesFree_chooseVmid huntouched).bind (fun h' chosen hchosen => ?_) (fun _ _ _ => trivial)
    cases chosen with
    | error e => trivial
    | ok chosen =>
      have hprepare := (quiet_prepareRoot host origin.pool).mono (fun _ hq => hq.2)
      refine (hchosen chosen rfl).bind hprepare (fun h' prepared hfound => ?_)
      cases prepared with
      | error e => trivial
      | ok prepared => exact writesFree_cloneOrigin hfound

theorem writesFree_createJob {gtype snapshot newVmid : Str} {fresh : Fresh} :
    (createJob host vmid gtype snapshot newVmid fresh).Meets WritesFree (fun _ _ => True) [] := by
  unfold createJob
  cases validateVmid vmid with
  | error e => trivial
  | ok vmid =>
    cases validateVmType gtype with
    | error e => trivial
    | ok gtype =>
      show Prog.Meets _ _ (if _ then _ else _) _
      split
      · exact writesFree_createGuest
      · trivial

end

/-! ## All four -/

/-- A restore of one path without force spares what is there if and only if its
check is answered.  A cutover and a recovery guest spare every guest in each run
in which all checks are answered. -/
theorem guests_spared (host target : Host) (gtype vmid content snapshot newVmid member : Str)
    (archive : Archive) (localNode : Option Str) (q : CutoverRequest) (fresh : Fresh) :
    (∀ R : Execution guestOps.env (restoreGuestConfig host gtype vmid content false),
      guestOps.Spared R.before R.trail ↔ guestOps.AllAnswered R.before R.trail) ∧
    (∀ R : Execution restoreOps.env (restoreBackupFile host archive member false localNode),
      restoreOps.Spared R.before R.trail ↔ restoreOps.AllAnswered R.before R.trail) ∧
    (∀ R : Execution guestOps.env (cutoverJob host target q),
      guestOps.AllAnswered R.before R.trail → GuestsSpared R.before R.trail) ∧
    (∀ R : Execution guestOps.env (createJob host vmid gtype snapshot newVmid fresh),
      guestOps.AllAnswered R.before R.trail → GuestsSpared R.before R.trail) :=
  ⟨fun R => spared_restoreGuestConfig R, fun R => spared_restoreBackupFile R,
    fun _ hall => guestsSpared_of_writesFree writesFree_cutoverJob hall,
    fun _ hall => guestsSpared_of_writesFree writesFree_createJob hall⟩

/-- A cutover of VM 100 to a host that has a container 100. -/
def refusedCutover : Execution guestOps.env (cutoverJob hostA hostB cutoverOne) where
  before := fun p => p = (hostB, confPath .pct "100")
  trail := [(.request ⟨hostB, .vmidProbe 100⟩ (prints "__USED__\n"),
    fun p => p = (hostB, confPath .pct "100"))]
  after := fun p => p = (hostB, confPath .pct "100")
  outcome := .ok (.error ⟨"VMID 100 is in use on the target", [], false, false⟩)
  path := ⟨fun _ _ => Iff.rfl, rfl⟩
  drives := by
    have hrun : (cutoverJob hostA hostB cutoverOne).transcript [prints "__USED__\n"] =
        some ([(⟨hostB, .vmidProbe 100⟩, prints "__USED__\n")],
          .ok (.error ⟨"VMID 100 is in use on the target", [], false, false⟩)) := by rfl
    exact Prog.run_of_transcript hrun

theorem guests_spared_refused : GuestsSpared refusedCutover.before refusedCutover.trail := by
  have hspared :=
    (guests_spared hostA hostB [] [] [] [] [] [] (.ok []) none cutoverOne ⟨[], [], []⟩).2.2.1
  refine hspared refusedCutover ⟨fun p _ _ => ?_, trivial⟩
  show contains ("__USED__\n" : Str) "__USED__" = true
  decide

/-- VM 100 is there, and the check of its config times out. -/
def blindRestore : Execution guestOps.env (restoreGuestConfig hostA "qemu" "100" [] false) where
  before := fun p => p = (hostA, confPath .qm "100")
  trail := [(.request ⟨hostA, .confProbe (confPath .qm "100")⟩ noAnswer,
      fun p => p = (hostA, confPath .qm "100")),
    (.request ⟨hostA, .confWrite (confPath .qm "100") []⟩ (prints "__OK__\n"),
      fun p => p = (hostA, confPath .qm "100"))]
  after := fun p => p = (hostA, confPath .qm "100")
  outcome := .ok ⟨true, false, confPath .qm "100", [], []⟩
  path := ⟨fun _ _ => Iff.rfl, fun _ _ => Iff.rfl, rfl⟩
  drives := by
    have hrun : (restoreGuestConfig hostA "qemu" "100" [] false).transcript
        [noAnswer, prints "__OK__\n"] =
        some ([(⟨hostA, .confProbe (confPath .qm "100")⟩, noAnswer),
            (⟨hostA, .confWrite (confPath .qm "100") []⟩, prints "__OK__\n")],
          .ok ⟨true, false, confPath .qm "100", [], []⟩) := by rfl
    exact Prog.run_of_transcript hrun

theorem guest_overwritten : ¬ ∀ (host : Host) (gtype vmid content : Str)
    (R : Execution guestOps.env (restoreGuestConfig host gtype vmid content false)),
    guestOps.Spared R.before R.trail := by
  intro h
  exact (h _ _ _ _ blindRestore).2.1 (hostA, confPath .qm "100") rfl rfl

end PveZfsTool
