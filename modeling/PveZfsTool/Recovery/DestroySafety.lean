import PveZfsTool.Recovery.Guest

/-!
# What a recovery cleanup may destroy

`destroy_job` destroys a guest and datasets.  `destroy_guarded` is the rule
it keeps to, for every sequence of answers.  Before any destruction the
config of the guest was read and carries the marker, and each of its disks
was resolved to a dataset directly below a recovery root; and the datasets it
destroys are among these.
-/

namespace PveZfsTool

open Dialogue Text

/-- The request destroys a guest or a dataset. -/
def Cmd.destroys : Cmd → Bool
  | .guestDestroy _ _ => true
  | .zfsDestroy _ => true
  | .zfsDestroyTree _ => true
  | _ => false

/-- The log shows that the volume lies in the dataset: its path names it, and
the host lists it. -/
def Resolves (host : Host) (log : Log) (volid ds : Str) : Prop :=
  ∃ path listed, (⟨host, .pvesmPath volid⟩, path) ∈ log ∧ path.success = true ∧
    datasetFromPvesmPath path.stdout = ds ∧
    (⟨host, .zfsListUsed ds⟩, listed) ∈ log ∧ listed.success = true ∧
    (splitOn '\t' (strip listed.stdout)).head? = some ds

/-- The dataset lies directly below the clone container of its pool. -/
def InCloneContainer (ds : Str) : Prop :=
  ∃ pool leaf, '/' ∉ pool ∧ '/' ∉ leaf ∧ ds = recoveryRoot pool ++ "/" ++ leaf

/-- What the log must show before a destruction: the config of the guest with
a marker, and each disk of it in the clone container.  The request destroys
the guest or one of these disks. -/
def Cleared (host : Host) (vmid gtype : Str) (log : Log) (q : Request) : Prop :=
  ∃ cfg, (⟨host, .catFile (confPath (Tool.ofGtype gtype) vmid)⟩, cfg) ∈ log ∧
    cfg.success = true ∧ (parseMarker cfg.stdout).isSome = true ∧
    (∀ key volid, (key, volid) ∈ parseGuestConfigDisks cfg.stdout gtype →
      ∃ ds, Resolves host log volid ds ∧ InCloneContainer ds) ∧
    (q = ⟨host, .guestDestroy (Tool.ofGtype gtype) vmid⟩ ∨
      ∃ key volid ds, (key, volid) ∈ parseGuestConfigDisks cfg.stdout gtype ∧
        Resolves host log volid ds ∧ InCloneContainer ds ∧ q = ⟨host, .zfsDestroy ds⟩)

/-! ## The disks -/

theorem Resolves.mono {host : Host} {log log' : Log} {volid ds : Str}
    (h : Resolves host log volid ds) (hsub : log ⊆ log') : Resolves host log' volid ds := by
  obtain ⟨path, listed, hpath, hok, hds, hlisted, hrest⟩ := h
  exact ⟨path, listed, hsub hpath, hok, hds, hsub hlisted, hrest⟩

/-- A disk that resolved stands in the log with its dataset. -/
theorem run_resolveDisk {host : Host} {key volid : Str} {log : Log} {disk : Option Disk}
    (h : (resolveDisk host key volid).Run log (.ok disk)) (d : Disk) (hd : disk = some d) :
    d.key = key ∧ d.volid = volid ∧ Resolves host log volid d.dataset := by
  subst hd
  simp only [resolveDisk, runCommand, Prog.issue_bind, Prog.run_ask] at h
  obtain ⟨path, log, rfl, h⟩ := h
  cases hok : path.success with
  | false =>
    have hnone : datasetFromPvesmPath [] = [] := rfl
    simp [hok, hnone] at h
  | true =>
    simp only [hok, if_true] at h
    split at h
    · obtain ⟨listed, rest, rfl, hrest⟩ := Prog.run_ask.mp h
      split at hrest
      · rename_i hlisted
        obtain ⟨rfl, hout⟩ := Prog.run_ret.mp hrest
        obtain rfl := Option.some.inj (Except.ok.inj hout)
        exact ⟨rfl, rfl, path, listed, by simp, hok, rfl, by simp, hlisted.1, hlisted.2⟩
      · cases (Prog.run_ret.mp hrest).2
    · cases (Prog.run_ret.mp h).2

/-- The requests of a discovery. -/
theorem uses_discoverDisks (host : Host) (entries : List (Str × Str)) :
    (discoverDisks host entries).Uses (fun q => (∃ volid, q = ⟨host, .pvesmPath volid⟩) ∨
      ∃ ds, q = ⟨host, .zfsListUsed ds⟩) := by
  induction entries with
  | nil => trivial
  | cons e entries ih =>
    obtain ⟨key, volid⟩ := e
    have hdisk : (resolveDisk host key volid).Uses (fun q =>
        (∃ volid, q = ⟨host, .pvesmPath volid⟩) ∨ ∃ ds, q = ⟨host, .zfsListUsed ds⟩) := by
      unfold resolveDisk
      refine Prog.Uses.bind ⟨Or.inl ⟨volid, rfl⟩, fun _ => trivial⟩ (fun path => ?_)
      generalize datasetFromPvesmPath (if path.success then path.stdout else []) = ds
      dsimp only
      split
      · refine Prog.Uses.bind ⟨Or.inr ⟨ds, rfl⟩, fun _ => trivial⟩ (fun listed => ?_)
        split <;> trivial
      · trivial
    refine hdisk.bind (fun disk => ih.bind (fun found => ?_))
    cases disk <;> trivial

/-- A discovery without unresolved disks resolved every entry, and found
nothing else. -/
theorem run_discoverDisks {host : Host} {entries : List (Str × Str)} {log : Log}
    {disc : Discovery} (h : (discoverDisks host entries).Run log (.ok disc))
    (hall : disc.unresolved = []) :
    entries = disc.disks.map (fun d => (d.key, d.volid)) ∧
      ∀ d ∈ disc.disks, Resolves host log d.volid d.dataset := by
  induction entries generalizing log disc with
  | nil =>
    obtain ⟨rfl, hout⟩ := Prog.run_ret.mp h
    rw [Except.ok.inj hout]
    simp
  | cons e entries ih =>
    obtain ⟨key, volid⟩ := e
    rcases Prog.run_bind.mp h with ⟨log₁, log₂, disk, rfl, hdisk, h⟩ | ⟨e, -, he⟩
    · rcases Prog.run_bind.mp h with ⟨log₂, log₃, found, rfl, hfound, hret⟩ | ⟨e, -, he⟩
      · cases disk with
        | none =>
          have hout := Except.ok.inj (Prog.run_ret.mp hret).2
          rw [hout] at hall
          cases hall
        | some d =>
          have hout := Except.ok.inj (Prog.run_ret.mp hret).2
          rw [hout] at hall ⊢
          obtain ⟨hkeys, hresolves⟩ := ih hfound hall
          obtain ⟨hkey, hvolid, hres⟩ := run_resolveDisk hdisk d rfl
          refine ⟨by simp [← hkeys, hkey, hvolid], ?_⟩
          intro d' hmem
          rcases List.mem_cons.mp hmem with rfl | hmem
          · rw [hvolid]
            exact hres.mono (List.subset_append_left _ _)
          · refine (hresolves d' hmem).mono (fun entry hentry => ?_)
            simp [hentry]
      · cases he
    · cases he

/-! ## The container of the clones -/

theorem inCloneContainer {ds : Str} (h : underRecoveryRoot ds = true) : InCloneContainer ds := by
  simp only [underRecoveryRoot, Bool.and_eq_true, decide_eq_true_eq] at h
  obtain ⟨hlen, hmiddle⟩ := h
  obtain ⟨pool, middle, leaf, hparts⟩ := List.length_eq_three.mp hlen
  rw [hparts] at hmiddle
  obtain rfl : middle = recoveryLeaf := Option.some.inj hmiddle
  refine ⟨pool, leaf, ?_, ?_, ?_⟩
  · exact not_mem_of_mem_splitOn (s := ds) (by simp [hparts])
  · exact not_mem_of_mem_splitOn (s := ds) (by simp [hparts])
  · rw [← join_splitOn '/' ds, hparts]
    simp [join, recoveryRoot]

/-! ## The destruction -/

/-- A destruction of a checked guest: the guest itself, or one of its
disks. -/
def DestroysOnly (host : Host) (vmid gtype : Str) (disks : List Disk) (q : Request) : Prop :=
  q.cmd.destroys = true → q = ⟨host, .guestDestroy (Tool.ofGtype gtype) vmid⟩ ∨
    ∃ d ∈ disks, q = ⟨host, .zfsDestroy d.dataset⟩

/-- The requests that destroy nothing. -/
def Harmless (q : Request) : Prop := q.cmd.destroys = false

theorem Harmless.destroysOnly {host : Host} {vmid gtype : Str} {disks : List Disk} {q : Request}
    (h : Harmless q) : DestroysOnly host vmid gtype disks q := by
  intro hq
  rw [h] at hq
  cases hq

theorem uses_originsOf (host : Host) (disks : List Disk) :
    (originsOf host disks).Uses Harmless := by
  induction disks with
  | nil => trivial
  | cons d disks ih =>
    exact ⟨rfl, fun a => ih.bind (fun _ => trivial)⟩

theorem uses_stopRecovery (host : Host) (tool : Tool) (vmid : Str) :
    (stopRecovery host tool vmid).Uses Harmless := by
  refine ⟨rfl, fun a => ?_⟩
  show Prog.Uses _ (if _ then _ else _)
  split
  · exact ⟨rfl, fun _ => trivial⟩
  · trivial

theorem uses_releaseEach (host : Host) (snaps : List Str) :
    (releaseEach host snaps).Uses Harmless := by
  induction snaps with
  | nil => trivial
  | cons s snaps ih => exact ⟨rfl, fun _ => ih⟩

theorem uses_holdsLeft (host : Host) (snaps : List Str) : (holdsLeft host snaps).Uses Harmless := by
  induction snaps with
  | nil => trivial
  | cons s snaps ih => exact ⟨rfl, fun _ => ih.bind (fun _ => trivial)⟩

theorem uses_releaseOrigins (host : Host) (origins : List Str) :
    (releaseOrigins host origins).Uses Harmless := by
  unfold releaseOrigins
  split
  · trivial
  · exact (uses_releaseEach host origins).bind (fun _ => uses_holdsLeft host origins)

theorem uses_stillHeld (host : Host) (origins : List Str) :
    (stillHeld host origins).Uses Harmless := by
  induction origins with
  | nil => trivial
  | cons o origins ih =>
    refine ⟨rfl, fun a => ?_⟩
    exact ih.bind (fun _ => trivial)

theorem uses_destroyEach {S : Request → Prop} {host : Host} {datasets : List Str}
    (h : ∀ ds ∈ datasets, S ⟨host, .zfsDestroy ds⟩) : (destroyEach host datasets).Uses S := by
  induction datasets with
  | nil => trivial
  | cons ds datasets ih =>
    exact ⟨h ds List.mem_cons_self, fun _ => ih (fun ds' hmem => h ds' (List.mem_cons_of_mem _ hmem))⟩

/-- The leftovers are disks of the guest. -/
theorem run_leftovers {host : Host} {disks : List Disk} {log : Log} {left : List Str}
    (h : (leftovers host disks).Run log (.ok left)) : ∀ ds ∈ left, ∃ d ∈ disks, ds = d.dataset := by
  induction disks generalizing log left with
  | nil =>
    rw [Except.ok.inj (Prog.run_ret.mp h).2]
    simp
  | cons d disks ih =>
    rcases Prog.run_bind.mp h with ⟨log₁, log₂, present, rfl, hpresent, h⟩ | ⟨e, -, he⟩
    · rcases Prog.run_bind.mp h with ⟨log₂, log₃, rest, rfl, hrest, hret⟩ | ⟨e, -, he⟩
      · have hleft := Except.ok.inj (Prog.run_ret.mp hret).2
        have hih := ih hrest
        intro ds hmem
        rw [hleft] at hmem
        split at hmem
        · rcases List.mem_cons.mp hmem with rfl | hmem
          · exact ⟨d, List.mem_cons_self, rfl⟩
          · obtain ⟨d', hd', heq⟩ := hih ds hmem
            exact ⟨d', List.mem_cons_of_mem _ hd', heq⟩
        · obtain ⟨d', hd', heq⟩ := hih ds hmem
          exact ⟨d', List.mem_cons_of_mem _ hd', heq⟩
      · cases he
    · cases he

theorem uses_leftovers (host : Host) (disks : List Disk) :
    (leftovers host disks).Uses Harmless := by
  induction disks with
  | nil => trivial
  | cons d disks ih => exact ⟨rfl, fun _ => ih.bind (fun _ => trivial)⟩

/-- The destruction of a checked guest destroys the guest and its disks
only. -/
theorem uses_destroyGuest (host : Host) (vmid gtype : Str) (mk : Marker) (disks : List Disk) :
    (destroyGuest host vmid gtype mk disks).Uses (DestroysOnly host vmid gtype disks) := by
  have hquiet : ∀ {α : Type} {p : Job α}, p.Uses Harmless →
      p.Uses (DestroysOnly host vmid gtype disks) :=
    fun h => h.mono (fun _ => Harmless.destroysOnly)
  refine (hquiet (uses_originsOf host disks)).bind (fun origins => ?_)
  refine (hquiet (uses_stopRecovery host _ vmid)).bind (fun _ => ?_)
  refine Prog.Uses.bind ⟨fun _ => Or.inl rfl, fun _ => trivial⟩ (fun r => ?_)
  split
  · refine (hquiet (uses_leftovers host disks)).bind_run (fun log left hleft => ?_)
    have hdestroy : (destroyEach host left).Uses (DestroysOnly host vmid gtype disks) := by
      refine uses_destroyEach (fun ds hmem _ => ?_)
      obtain ⟨d, hd, rfl⟩ := run_leftovers hleft ds hmem
      exact Or.inr ⟨d, hd, rfl⟩
    refine hdestroy.bind (fun _ => (hquiet (uses_releaseOrigins host origins)).bind (fun _ => ?_))
    exact (hquiet (uses_stillHeld host origins)).bind (fun _ => trivial)
  · trivial

/-- A front of harmless requests is not where a destruction stands. -/
theorem eachRequest_after {P : Log → Request → Prop} {front log : Log}
    (hfront : ∀ entry ∈ front, Harmless entry.1)
    (h : EachRequest (fun pre q => q.cmd.destroys = true → P (front ++ pre) q) log) :
    EachRequest (fun pre q => q.cmd.destroys = true → P pre q) (front ++ log) := by
  intro pre q a post heq hdestroys
  obtain ⟨k, rfl, hk⟩ := split_after (P := fun entry => entry.1.cmd.destroys = true) heq
    (fun entry hmem => by simp [Harmless] at hfront; simp [hfront entry.1 entry.2 hmem]) hdestroys
  exact h k q a post hk hdestroys

/-- A log of harmless requests destroys nothing. -/
theorem eachRequest_harmless {P : Log → Request → Prop} {log : Log}
    (h : ∀ entry ∈ log, Harmless entry.1) :
    EachRequest (fun pre q => q.cmd.destroys = true → P pre q) log := by
  simpa using eachRequest_after (P := P) h eachRequest_nil

/-- The log of a checked guest: the config, the discovery, the destruction. -/
theorem destroyChecked_guarded {host : Host} {vmid gtype : Str} {cfg : Answer} {mk : Marker}
    {disc : Discovery} {discovery log : Log} {o : Except Exn DestroyResult}
    (hcfg : cfg.success = true) (hmarker : parseMarker cfg.stdout = some mk)
    (hdisc : (discoverGuestDisks host gtype cfg.stdout).Run discovery (.ok disc))
    (h : (destroyChecked host vmid gtype mk disc).Run log o) :
    EachRequest (fun pre q => q.cmd.destroys = true →
      Cleared host vmid gtype ((⟨host, .catFile (confPath (Tool.ofGtype gtype) vmid)⟩, cfg) ::
        (discovery ++ pre)) q) log := by
  unfold destroyChecked at h
  split at h
  · rw [(Prog.run_ret.mp h).1]
    exact eachRequest_nil
  · rename_i hunresolved
    split at h
    · rw [(Prog.run_ret.mp h).1]
      exact eachRequest_nil
    · rename_i hfind
      obtain ⟨hkeys, hresolves⟩ := run_discoverDisks hdisc (by simpa using hunresolved)
      have hcontainer : ∀ d ∈ disc.disks, InCloneContainer d.dataset := by
        intro d hd
        have hunder := List.find?_eq_none.mp hfind d hd
        exact inCloneContainer (by simpa using hunder)
      intro pre q a post heq hdestroys
      -- the discovery stands before every request of the destruction
      have hbefore : ∀ d ∈ disc.disks, Resolves host
          ((⟨host, .catFile (confPath (Tool.ofGtype gtype) vmid)⟩, cfg) :: (discovery ++ pre))
          d.volid d.dataset := by
        intro d hd
        refine (hresolves d hd).mono (fun entry hentry => ?_)
        simp [hentry]
      refine ⟨cfg, by simp, hcfg, by simp [hmarker], ?_, ?_⟩
      · intro key volid hmem
        rw [hkeys] at hmem
        obtain ⟨d, hd, heq⟩ := List.mem_map.mp hmem
        obtain ⟨rfl, rfl⟩ := Prod.mk.inj heq
        exact ⟨d.dataset, hbefore d hd, hcontainer d hd⟩
      · have honly := (uses_destroyGuest host vmid gtype mk disc.disks).sound h (q, a)
          (by simp [heq]) hdestroys
        rcases honly with hguest | ⟨d, hd, hq⟩
        · exact Or.inl hguest
        · refine Or.inr ⟨d.key, d.volid, d.dataset, ?_, hbefore d hd, hcontainer d hd, hq⟩
          rw [hkeys]
          exact List.mem_map.mpr ⟨d, hd, rfl⟩

/-- Before each destruction of a run of `destroy_job`, the log shows the
marked config of the guest, with each of its disks in the clone container;
and what is destroyed is the guest or one of these disks. -/
theorem destroy_guarded {host : Host} {vmid gtype : Str} {log : Log}
    {o : Except Exn DestroyResult} (h : (destroyJob host vmid gtype).Run log o) :
    EachRequest (fun pre q => q.cmd.destroys = true → Cleared host (strip vmid) gtype pre q)
      log := by
  unfold destroyJob at h
  cases hv : validateVmid vmid with
  | error e =>
    simp only [hv, validated, Prog.raise_bind, Prog.run_raise] at h
    rw [h.1]
    exact eachRequest_nil
  | ok v =>
    cases hg : validateVmType gtype with
    | error e =>
      simp only [hv, hg, validated, Prog.pure_eq, Prog.ret_bind, Prog.raise_bind,
        Prog.run_raise] at h
      rw [h.1]
      exact eachRequest_nil
    | ok g =>
      simp only [hv, hg, validated, Prog.pure_eq, Prog.ret_bind] at h
      obtain rfl := validateVmType_ok hg
      obtain rfl := (validateVmid_ok hv).1
      have hread := uses_readGuestConfig host (strip vmid) g
      rcases Prog.run_bind.mp h with ⟨log₁, log, cfg, rfl, hcfg, hrest⟩ | ⟨e, herr, -⟩
      · cases cfg with
        | error e =>
          rw [(Prog.run_ret.mp hrest).1, List.append_nil]
          refine eachRequest_harmless (fun entry hmem => ?_)
          obtain ⟨path, hpath⟩ := hread.sound hcfg entry hmem
          simp [Harmless, hpath, Cmd.destroys]
        | ok cfg =>
          obtain ⟨a, rfl, hok, hcontent⟩ := run_readGuestConfig hcfg
          rw [← (validateVmid_ok (validateVmid_idem hv)).1]
          refine eachRequest_after (by simp [Harmless, Cmd.destroys]) ?_
          dsimp only at hrest
          cases hmarker : parseMarker cfg.content with
          | none =>
            rw [hmarker] at hrest
            rw [(Prog.run_ret.mp hrest).1]
            exact eachRequest_nil
          | some mk =>
            rw [hmarker] at hrest
            have hquiet : (discoverGuestDisks host g cfg.content).Uses Harmless := by
              refine (uses_discoverDisks host _).mono ?_
              rintro q (⟨volid, rfl⟩ | ⟨ds, rfl⟩) <;> rfl
            rcases Prog.run_bind.mp hrest with
              ⟨discovery, log, disc, rfl, hdisc, hchecked⟩ | ⟨e, herr, -⟩
            · refine eachRequest_after (hquiet.sound hdisc) ?_
              rw [hcontent] at hmarker hdisc
              exact destroyChecked_guarded hok hmarker hdisc hchecked
            · exact eachRequest_harmless (hquiet.sound herr)
      · refine eachRequest_harmless (fun entry hmem => ?_)
        obtain ⟨path, hpath⟩ := hread.sound herr entry hmem
        simp [Harmless, hpath, Cmd.destroys]

/-- The answers to a cleanup of a recovery guest with one disk, which
survives the destruction of the guest. -/
def destroyAnswers : List Answer :=
  [prints "#pve-zfs-tool-clone origin=100 snapshot=s1\nscsi0: rpool-clone:vm-900-disk-0\n",
    prints "/dev/zvol/rpool/clone/vm-900-disk-0\n", prints "rpool/clone/vm-900-disk-0\t1M\n",
    prints "rpool/data/vm-100-disk-0@s1\n", prints "status: stopped\n", prints [],
    prints "rpool/clone/vm-900-disk-0\n", prints [], prints [], prints [], prints "-\n"]

theorem destroy_guarded_one :
    ∃ log o, (destroyJob hostA "900" "qemu").Run log o ∧
      (∃ a, (⟨hostA, .zfsDestroy "rpool/clone/vm-900-disk-0"⟩, a) ∈ log) ∧
      EachRequest (fun pre q => q.cmd.destroys = true →
        Cleared hostA (strip "900") "qemu" pre q) log := by
  have hsome : ((destroyJob hostA "900" "qemu").transcript destroyAnswers).isSome := by
    decide
  have hrun := Prog.run_of_transcript (Option.some_get hsome).symm
  refine ⟨_, _, hrun, ⟨prints [], ?_⟩, destroy_guarded hrun⟩
  decide

end PveZfsTool
