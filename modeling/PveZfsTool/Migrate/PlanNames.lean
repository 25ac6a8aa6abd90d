import Mathlib.Data.List.Perm.Subperm
import PveZfsTool.Migrate.RewrittenConfig
import PveZfsTool.Recovery.DestroySafety

/-!
# The plan and the rewritten config

`preflight` plans where the data of each disk goes.  `rewrite_guest_config` writes
the volume ids that the guest looks for on the target.  Each of them makes the new
name of a volume out of the old one, in its own way.

A `Move` is a preflight that returned a report, for a config as PVE writes it.
`Move.agrees_iff` says when different volumes go to different datasets and each
volume id of the rewritten config names the dataset of its disk.

* `Move.plan_names`: the plan, if every disk resolved.
* `Move.mem_rewritten_iff`: the disk of a line on the target.
-/

namespace PveZfsTool

open Dialogue Text

/-! ## What a preflight plans -/

/-- The questions that resolve a disk. -/
def Cmd.resolvesDisk : Cmd → Bool
  | .pvesmPath _ => true
  | .zfsListUsed _ => true
  | _ => false

/-- Each of these questions got an answer that resolves the disk. -/
structure AllListed (host : Host) (log : Log) : Prop where
  path : ∀ volid a, (⟨host, .pvesmPath volid⟩, a) ∈ log →
    a.success = true ∧ matchesDataset (datasetFromPvesmPath a.stdout) = true
  listed : ∀ ds a, (⟨host, .zfsListUsed ds⟩, a) ∈ log →
    a.success = true ∧ (splitOn '\t' (strip a.stdout)).head? = some ds

section

variable {host source target : Host} {key volid vmid gtype targetRoot targetStorage tgtVmid : Str}
  {newVmid : Option Str} {log l₁ l₂ : Log} {entries : List (Str × Str)} {disc : Discovery}

theorem allListed_append : AllListed host (l₁ ++ l₂) ↔ AllListed host l₁ ∧ AllListed host l₂ := by
  constructor
  · intro h
    exact ⟨⟨fun v a hmem => h.path v a (List.mem_append_left _ hmem),
        fun ds a hmem => h.listed ds a (List.mem_append_left _ hmem)⟩,
      ⟨fun v a hmem => h.path v a (List.mem_append_right _ hmem),
        fun ds a hmem => h.listed ds a (List.mem_append_right _ hmem)⟩⟩
  · rintro ⟨h₁, h₂⟩
    exact ⟨fun v a hmem => (List.mem_append.mp hmem).elim (h₁.path v a) (h₂.path v a),
      fun ds a hmem => (List.mem_append.mp hmem).elim (h₁.listed ds a) (h₂.listed ds a)⟩

theorem allListed_of_quiet (h : ∀ entry ∈ log, entry.1.cmd.resolvesDisk = false) : AllListed host log :=
  ⟨fun _ _ hmem => absurd (h _ hmem) (by simp [Cmd.resolvesDisk]),
    fun _ _ hmem => absurd (h _ hmem) (by simp [Cmd.resolvesDisk])⟩

theorem allListed_path {a : Answer} : AllListed host ((⟨host, .pvesmPath volid⟩, a) :: log) ↔
    (a.success = true ∧ matchesDataset (datasetFromPvesmPath a.stdout) = true) ∧ AllListed host log := by
  constructor
  · intro h
    exact ⟨h.path volid a List.mem_cons_self, fun v b hmem => h.path v b (List.mem_cons_of_mem _ hmem),
      fun ds b hmem => h.listed ds b (List.mem_cons_of_mem _ hmem)⟩
  · rintro ⟨hok, h⟩
    refine ⟨fun v b hmem => ?_, fun ds b hmem => ?_⟩
    · rcases List.mem_cons.mp hmem with heq | hmem
      · cases heq
        exact hok
      · exact h.path v b hmem
    · rcases List.mem_cons.mp hmem with heq | hmem
      · cases heq
      · exact h.listed ds b hmem

theorem allListed_listed {a : Answer} {ds : Str} : AllListed host ((⟨host, .zfsListUsed ds⟩, a) :: log) ↔
    (a.success = true ∧ (splitOn '\t' (strip a.stdout)).head? = some ds) ∧ AllListed host log := by
  constructor
  · intro h
    exact ⟨h.listed ds a List.mem_cons_self, fun v b hmem => h.path v b (List.mem_cons_of_mem _ hmem),
      fun ds b hmem => h.listed ds b (List.mem_cons_of_mem _ hmem)⟩
  · rintro ⟨hok, h⟩
    refine ⟨fun v b hmem => ?_, fun ds b hmem => ?_⟩
    · rcases List.mem_cons.mp hmem with heq | hmem
      · cases heq
      · exact h.path v b hmem
    · rcases List.mem_cons.mp hmem with heq | hmem
      · cases heq
        exact hok
      · exact h.listed ds b hmem

theorem ne_nil_of_matchesDataset {ds : Str} (h : matchesDataset ds = true) : ds ≠ [] := by
  rintro rfl
  revert h
  decide

/-- A disk resolves if and only if its questions were answered so. -/
theorem run_resolveDisk_iff {disk : Option Disk} (h : (resolveDisk host key volid).Run log (.ok disk)) :
    disk.isSome = true ↔ AllListed host log := by
  simp only [resolveDisk, runCommand, Prog.issue_bind, Prog.run_ask] at h
  obtain ⟨path, log, rfl, h⟩ := h
  rw [allListed_path]
  by_cases hpath : path.success = true ∧ matchesDataset (datasetFromPvesmPath path.stdout) = true
  · obtain ⟨hok, hmatches⟩ := hpath
    simp only [hok, if_true] at h
    rw [if_pos ⟨ne_nil_of_matchesDataset hmatches, hmatches⟩] at h
    obtain ⟨listed, rest, rfl, hrest⟩ := Prog.run_ask.mp h
    rw [allListed_listed]
    split at hrest
    · rename_i hlisted
      obtain ⟨rfl, hout⟩ := Prog.run_ret.mp hrest
      obtain rfl := Except.ok.inj hout
      exact iff_of_true rfl ⟨⟨hok, hmatches⟩, hlisted, allListed_of_quiet (by simp)⟩
    · rename_i hno
      obtain rfl := Except.ok.inj (Prog.run_ret.mp hrest).2
      exact iff_of_false (by simp) fun hall => hno hall.2.1
  · have hno : ¬ (datasetFromPvesmPath (if path.success then path.stdout else []) ≠ [] ∧
        matchesDataset (datasetFromPvesmPath (if path.success then path.stdout else [])) = true) := by
      rintro ⟨-, hmatches⟩
      cases hok : path.success with
      | true =>
        rw [hok, if_pos rfl] at hmatches
        exact hpath ⟨hok, hmatches⟩
      | false =>
        rw [hok, if_neg Bool.false_ne_true] at hmatches
        exact absurd hmatches (by decide)
    rw [if_neg hno] at h
    obtain rfl := Except.ok.inj (Prog.run_ret.mp h).2
    exact iff_of_false (by simp) fun hall => hpath hall.1

/-- A discovery resolves every disk if and only if its questions were answered so. -/
theorem run_discoverDisks_iff (h : (discoverDisks host entries).Run log (.ok disc)) :
    disc.disks.length + disc.unresolved.length = entries.length ∧
      (disc.unresolved = [] ↔ AllListed host log) := by
  induction entries generalizing log disc with
  | nil =>
    obtain ⟨rfl, hout⟩ := Prog.run_ret.mp h
    obtain rfl := Except.ok.inj hout
    exact ⟨rfl, iff_of_true rfl (allListed_of_quiet (by simp))⟩
  | cons e entries ih =>
    obtain ⟨key, volid⟩ := e
    obtain ⟨log₁, _, disk, rfl, hdisk, h⟩ := Prog.run_bind_ok h
    obtain ⟨log₂, _, found, rfl, hfound, hret⟩ := Prog.run_bind_ok h
    obtain ⟨hlength, hall⟩ := ih hfound
    have hone := run_resolveDisk_iff hdisk
    cases disk with
    | none =>
      obtain ⟨rfl, hout⟩ := Prog.run_ret.mp hret
      obtain rfl := Except.ok.inj hout
      refine ⟨?_, iff_of_false (List.cons_ne_nil _ _) fun h => ?_⟩
      · rw [List.length_cons, List.length_cons, ← hlength]
        rfl
      · exact absurd (hone.mpr (allListed_append.mp h).1) (by simp)
    | some d =>
      obtain ⟨rfl, hout⟩ := Prog.run_ret.mp hret
      obtain rfl := Except.ok.inj hout
      refine ⟨?_, ?_⟩
      · rw [List.length_cons, List.length_cons, ← hlength]
        exact Nat.add_right_comm _ _ _
      · rw [List.append_nil, allListed_append, ← hone, ← hall]
        exact ⟨fun h => ⟨rfl, h⟩, fun h => h.2⟩

/-! ## The run of a preflight -/

theorem run_planDisks_names {disks : List Disk} {plan : List PlanEntry}
    (h : (planDisks source target vmid targetRoot newVmid disks).Run log (.ok plan)) :
    plan.map (fun p => (p.key, p.sourceDataset, p.targetDataset)) =
      disks.map fun d => (d.key, d.dataset, targetRoot ++ "/" ++ planBasename vmid newVmid d.dataset) := by
  induction disks generalizing log plan with
  | nil =>
    obtain rfl := Except.ok.inj (Prog.run_ret.mp h).2
    rfl
  | cons d disks ih =>
    obtain ⟨_, _, entry, rfl, hentry, h⟩ := Prog.run_bind_ok h
    obtain ⟨_, _, rest, rfl, hrest, hret⟩ := Prog.run_bind_ok h
    obtain rfl := Except.ok.inj (Prog.run_ret.mp hret).2
    obtain ⟨_, _, present, rfl, -, hentry⟩ := Prog.run_bind_ok hentry
    obtain ⟨_, _, common, rfl, -, hout⟩ := Prog.run_bind_ok hentry
    obtain rfl := Except.ok.inj (Prog.run_ret.mp hout).2
    rw [List.map_cons, List.map_cons, ih hrest]

/-- The requests that ask about no disk. -/
def AsksNoDisk (q : Request) : Prop := q.cmd.resolvesDisk = false

theorem asksNoDisk_planDisks (disks : List Disk) :
    (planDisks source target vmid targetRoot newVmid disks).Uses AsksNoDisk := by
  induction disks with
  | nil => trivial
  | cons d disks ih =>
    have hdisk : (planDisk source target vmid targetRoot newVmid d).Uses AsksNoDisk := by
      refine Prog.Uses.bind ⟨rfl, fun _ => trivial⟩ (fun present => ?_)
      refine Prog.Uses.bind ?_ (fun _ => trivial)
      unfold findCommon
      split
      · exact ⟨rfl, fun _ => ⟨rfl, fun _ => trivial⟩⟩
      · trivial
    exact hdisk.bind (fun _ => ih.bind (fun _ => trivial))

theorem asksNoDisk_readers : (vmidInUse target tgtVmid).Uses AsksNoDisk ∧
    (readZfsStorages target).Uses AsksNoDisk ∧ ∀ pull, (probePush source target pull).Uses AsksNoDisk := by
  refine ⟨?_, ?_, fun pull => ?_⟩
  · refine (uses_vmidInUse target tgtVmid).mono ?_
    rintro q ⟨n, rfl⟩
    rfl
  · refine Prog.Uses.bind ⟨rfl, fun _ => trivial⟩ (fun r => ?_)
    split
    · exact ⟨rfl, fun _ => trivial⟩
    · trivial
  · unfold probePush
    split
    · trivial
    · exact ⟨rfl, fun _ => trivial⟩

/-- A report comes from a discovery, and the plan from the disks that it found. -/
theorem run_preflightReport_plan {cfg : ConfigFile} {r : PreflightReport}
    (h : (preflightReport source target vmid gtype targetRoot tgtVmid newVmid targetStorage cfg).Run
      log (.ok r)) :
    ∃ l₁ l₂ disc, log = l₁ ++ l₂ ∧ (discoverGuestDisks source gtype cfg.content).Run l₁ (.ok disc) ∧
      (∀ entry ∈ l₂, AsksNoDisk entry.1) ∧
      r.plan.map (fun p => (p.key, p.sourceDataset, p.targetDataset)) = disc.disks.map fun d =>
        (d.key, d.dataset, targetRoot ++ "/" ++ planBasename vmid newVmid d.dataset) := by
  obtain ⟨l₁, l₂, disc, rfl, hdisc, h⟩ := Prog.run_bind_ok h
  obtain ⟨hused, hstorages, hpush⟩ := @asksNoDisk_readers source target tgtVmid
  refine ⟨l₁, l₂, disc, rfl, hdisc, Prog.Uses.sound ?_ h, ?_⟩
  · refine Prog.Uses.bind ⟨rfl, fun _ => trivial⟩ (fun running => ?_)
    refine hused.bind (fun used => ?_)
    refine Prog.Uses.bind ⟨rfl, fun _ => trivial⟩ (fun root => ?_)
    refine hstorages.bind (fun storages => ?_)
    refine Prog.Uses.bind ⟨rfl, fun _ => trivial⟩ (fun bridges => ?_)
    refine Prog.Uses.bind ⟨rfl, fun _ => trivial⟩ (fun pull => ?_)
    exact (hpush pull).bind (fun push => (asksNoDisk_planDisks _).bind (fun _ => trivial))
  · obtain ⟨_, _, _, -, -, h⟩ := Prog.run_bind_ok h
    obtain ⟨_, _, _, -, -, h⟩ := Prog.run_bind_ok h
    obtain ⟨_, _, _, -, -, h⟩ := Prog.run_bind_ok h
    obtain ⟨_, _, _, -, -, h⟩ := Prog.run_bind_ok h
    obtain ⟨_, _, _, -, -, h⟩ := Prog.run_bind_ok h
    obtain ⟨_, _, _, -, -, h⟩ := Prog.run_bind_ok h
    obtain ⟨_, _, _, -, -, h⟩ := Prog.run_bind_ok h
    obtain ⟨_, _, plan, -, hplan, hret⟩ := Prog.run_bind_ok h
    obtain rfl := Except.ok.inj (Prog.run_ret.mp hret).2
    exact run_planDisks_names hplan

/-- The config comes first. -/
theorem run_preflight_plan {q : Request} {config : Answer} {r : PreflightReport} {vmid : Vmid}
    (h : (preflight source target vmid.text gtype targetRoot newVmid targetStorage).Run
      ((q, config) :: log) (.ok (.report r))) :
    ∃ l₁ l₂ disc, log = l₁ ++ l₂ ∧ (discoverGuestDisks source gtype config.stdout).Run l₁ (.ok disc) ∧
      (∀ entry ∈ l₂, AsksNoDisk entry.1) ∧
      r.plan.map (fun p => (p.key, p.sourceDataset, p.targetDataset)) = disc.disks.map fun d =>
        (d.key, d.dataset, targetRoot ++ "/" ++ planBasename vmid.text newVmid d.dataset) := by
  rw [preflight, vmid.valid] at h
  dsimp only at h
  split at h
  · cases (Prog.run_ret.mp h).2
  · split at h
    · cases (Prog.run_ret.mp h).2
    · obtain ⟨l₀, l₁, read, heq, hread, h⟩ := Prog.run_bind_ok h
      split at h
      · cases (Prog.run_ret.mp h).2
      · obtain ⟨l₂, l₃, report, rfl, hreport, hret⟩ := Prog.run_bind_ok h
        obtain ⟨rfl, hout⟩ := Prog.run_ret.mp hret
        obtain rfl := Preflight.report.inj (Except.ok.inj hout)
        obtain ⟨a, rfl, -, hcontent⟩ := run_readGuestConfig hread
        rw [List.append_nil, List.singleton_append] at heq
        obtain ⟨hfirst, rfl⟩ := List.cons.inj heq
        rw [(Prod.mk.inj hfirst).2, ← hcontent]
        exact run_preflightReport_plan hreport

end

/-! ## Moves -/

/-- A preflight that returned a report.  The config is as PVE writes it, and the
path of a volume names the pool of its storage and the leaf of the volume. -/
structure Move where
  source : Host
  target : Host
  gtype : Str
  vmid : Vmid
  newVmid : Option Vmid
  targetRoot : Str
  targetStorage : Str
  config : Answer
  log : Log
  report : PreflightReport
  run : (preflight source target vmid.text gtype targetRoot (newVmid.map Vmid.text) targetStorage).Run
    ((⟨source, .catFile (confPath (Tool.ofGtype gtype) vmid.text)⟩, config) :: log) (.ok (.report report))
  lines : ∀ line ∈ currentLines config.stdout, IsPveLine line
  nodup_keys : ((currentLines config.stdout).filterMap lineKey).Nodup
  diskLine : ∀ line ∈ currentLines config.stdout, ∀ key volid ds,
    diskOfLine gtype line = some (key, volid) → Resolves source log volid ds →
      ∃ d : DiskLine gtype, line = d.text
  /-- The pool of each storage of the source. -/
  pools : Str → Str
  volumePath : ∀ volid ds, Resolves source log volid ds →
    ds = pools (beforeFirst ':' volid) ++ '/' :: volumeBasename volid

/-- The volume id names the dataset: the pool of its storage, and its leaf. -/
def NamesDataset (storages : List ZfsStorage) (volid dataset : Str) : Prop :=
  ∃ s, storages.find? (fun s => s.storage = beforeFirst ':' volid) = some s ∧
    dataset = s.pool ++ '/' :: volumeBasename volid

namespace Move

/-- The disks of the guest. -/
def disks (M : Move) : List (Str × Str) := parseGuestConfigDisks M.config.stdout M.gtype

/-- The dataset of a volume of the source. -/
def dataset (M : Move) (volid : Str) : Str := M.pools (beforeFirst ':' volid) ++ '/' :: volumeBasename volid

/-- The storage of a volume id on the target. -/
def storageOf (M : Move) (S : IdMap) (volid : Str) : Str :=
  renameFor M.vmid M.newVmid (S.entries.foldl renameStorage (beforeFirst ':' volid))

/-- Different datasets go to different datasets, and the rewritten config names
for each disk the dataset that the plan sends its data to. -/
structure Agrees (M : Move) (storages : List ZfsStorage) (S B : IdMap) : Prop where
  apart : ∀ p ∈ M.report.plan, ∀ q ∈ M.report.plan, p.sourceDataset ≠ q.sourceDataset →
    p.targetDataset ≠ q.targetDataset
  named : ∃ text', rewriteGuestConfig M.config.stdout S.entries B.entries (some M.vmid.text)
      (M.newVmid.map Vmid.text) = .ok text' ∧
    ∀ d ∈ M.disks, ∃ volid p, (d.1, volid) ∈ parseGuestConfigDisks text' M.gtype ∧
      p ∈ M.report.plan ∧ p.key = d.1 ∧ NamesDataset storages volid p.targetDataset

/-- What the agreement depends on: every disk resolves, its storage on the target
is one that writes into the target root, its name is renamed alike by both
patterns, and no two volumes have names that clash. -/
structure Matched (M : Move) (storages : List ZfsStorage) (S : IdMap) : Prop where
  listed : AllListed M.source M.log
  stored : ∀ d ∈ M.disks, ∃ s, storages.find? (fun s => s.storage = M.storageOf S d.2) = some s ∧
    s.pool = M.targetRoot
  alike : ∀ d ∈ M.disks, ∀ new ∈ M.newVmid, new ≠ M.vmid → NamedAlike M.vmid.text (volumeBasename d.2)
  apart : ∀ d ∈ M.disks, ∀ e ∈ M.disks, M.dataset d.2 ≠ M.dataset e.2 →
    ¬ Clash M.vmid M.newVmid (volumeBasename d.2) (volumeBasename e.2)

end Move

/-! ## The disks of a move -/

namespace DiskLine

variable {gtype : Str} (d : DiskLine gtype)

theorem isLeaf : IsLeaf d.leaf := by
  refine ⟨d.leaf_slash, fun hcolon => ?_⟩
  have hmem : ':' ∈ d.volume := by
    unfold DiskParts.volume
    split
    · exact hcolon
    · exact List.mem_append_right _ (List.mem_cons_of_mem _ hcolon)
  exact absurd (d.volumeChars _ hmem) (by decide)

theorem beforeFirst_volid : beforeFirst ':' d.volid = d.storage :=
  beforeFirst_append d.storage_colon

theorem volumeBasename_volid : volumeBasename d.volid = d.leaf := by
  rw [volumeBasename, DiskParts.volid, afterFirst_append d.storage_colon, DiskParts.volume]
  split
  · exact afterLast_of_not_mem d.leaf_slash
  · exact afterLast_append d.leaf_slash

end DiskLine

/-- Fewer elements are read, and the same ones. -/
theorem sublist_filterMap {α β : Type} {f g : α → Option β} {xs : List α}
    (h : ∀ x, f x = none ∨ f x = g x) : (xs.filterMap f).Sublist (xs.filterMap g) := by
  induction xs with
  | nil => exact List.Sublist.slnil
  | cons x xs ih =>
    rw [List.filterMap_cons, List.filterMap_cons]
    rcases h x with hnone | hsame
    · rw [hnone]
      cases g x with
      | none => exact ih
      | some b => exact ih.cons b
    · rw [hsame]
      cases g x with
      | none => exact ih
      | some b => exact ih.cons_cons b

/-- What is read once comes from one element. -/
theorem eq_of_nodup_filterMap {α β : Type} {f : α → Option β} {xs : List α} {x y : α} {b : β}
    (h : (xs.filterMap f).Nodup) (hx : x ∈ xs) (hy : y ∈ xs) (hfx : f x = some b) (hfy : f y = some b) :
    x = y := by
  induction xs with
  | nil => cases hx
  | cons z xs ih =>
    have hmem : ∀ {w}, w ∈ xs → f w = some b → b ∈ xs.filterMap f := fun hw hf =>
      List.mem_filterMap.mpr ⟨_, hw, hf⟩
    rw [List.filterMap_cons] at h
    rcases List.mem_cons.mp hx with rfl | hx' <;> rcases List.mem_cons.mp hy with rfl | hy'
    · rfl
    · rw [hfx] at h
      exact absurd (hmem hy' hfy) (List.nodup_cons.mp h).1
    · rw [hfy] at h
      exact absurd (hmem hx' hfx) (List.nodup_cons.mp h).1
    · refine ih ?_ hx' hy'
      cases hz : f z with
      | none =>
        rw [hz] at h
        exact h
      | some c =>
        rw [hz] at h
        exact (List.nodup_cons.mp h).2

namespace Move

variable {M : Move} {S B : IdMap} {storages : List ZfsStorage} {line key volid : Str} {d : Str × Str}

theorem mem_disks : d ∈ M.disks ↔ ∃ line ∈ currentLines M.config.stdout, diskOfLine M.gtype line = some d := by
  rw [disks, parseGuestConfigDisks_eq, List.mem_filterMap]

theorem nodup_disks (M : Move) : (M.disks.map Prod.fst).Nodup := by
  rw [disks, parseGuestConfigDisks_eq, List.map_filterMap]
  refine M.nodup_keys.sublist (sublist_filterMap fun line => ?_)
  cases hdisk : diskOfLine M.gtype line with
  | none => exact .inl rfl
  | some d => exact .inr (lineKey_of_disk hdisk).symm

/-- The discovery of the move. -/
theorem exists_discovery (M : Move) : ∃ l disc, (discoverDisks M.source M.disks).Run l (.ok disc) ∧
    l ⊆ M.log ∧ (AllListed M.source l ↔ AllListed M.source M.log) ∧
    M.report.plan.map (fun p => (p.key, p.sourceDataset, p.targetDataset)) = disc.disks.map fun d =>
      (d.key, d.dataset, M.targetRoot ++ "/" ++
        planBasename M.vmid.text (M.newVmid.map Vmid.text) d.dataset) := by
  obtain ⟨l₁, l₂, disc, hlog, hdisc, hquiet, hplan⟩ := run_preflight_plan M.run
  refine ⟨l₁, disc, hdisc, hlog ▸ List.subset_append_left _ _, ?_, hplan⟩
  rw [hlog, allListed_append]
  exact (and_iff_left (allListed_of_quiet hquiet)).symm

/-- A disk that resolves stands in the config as PVE writes it. -/
theorem exists_diskLine (h : AllListed M.source M.log) (hd : d ∈ M.disks) :
    ∃ dl : DiskLine M.gtype, dl.text ∈ currentLines M.config.stdout ∧ d = (dl.key, dl.volid) := by
  obtain ⟨l, disc, hrun, hsub, hlisted, -⟩ := M.exists_discovery
  have hnone := (run_discoverDisks_iff hrun).2.mpr (hlisted.mpr h)
  obtain ⟨hdisks, hresolves⟩ := run_discoverDisks hrun hnone
  rw [hdisks] at hd
  obtain ⟨disk, hdisk, rfl⟩ := List.mem_map.mp hd
  obtain ⟨line, hline, hfound⟩ : ∃ line ∈ currentLines M.config.stdout,
      diskOfLine M.gtype line = some (disk.key, disk.volid) := by
    refine mem_disks.mp ?_
    rw [hdisks]
    exact List.mem_map.mpr ⟨disk, hdisk, rfl⟩
  obtain ⟨dl, rfl⟩ := M.diskLine line hline _ _ _ hfound ((hresolves disk hdisk).mono hsub)
  rw [dl.diskOfLine_text] at hfound
  exact ⟨dl, hline, (Option.some.inj hfound).symm⟩

/-- The plan, if every disk resolved. -/
theorem plan_names (h : AllListed M.source M.log) :
    M.report.plan.map (fun p => (p.key, p.sourceDataset, p.targetDataset)) = M.disks.map fun d =>
      (d.1, M.dataset d.2, M.targetRoot ++ '/' ::
        planBasename M.vmid.text (M.newVmid.map Vmid.text) (volumeBasename d.2)) := by
  obtain ⟨l, disc, hrun, hsub, hlisted, hplan⟩ := M.exists_discovery
  have hnone := (run_discoverDisks_iff hrun).2.mpr (hlisted.mpr h)
  obtain ⟨hdisks, hresolves⟩ := run_discoverDisks hrun hnone
  rw [hplan, hdisks, List.map_map]
  refine List.map_congr_left fun disk hdisk => ?_
  have hdataset : disk.dataset = M.dataset disk.volid :=
    M.volumePath _ _ ((hresolves disk hdisk).mono hsub)
  have hmem : (disk.key, disk.volid) ∈ M.disks := by
    rw [hdisks]
    exact List.mem_map.mpr ⟨disk, hdisk, rfl⟩
  obtain ⟨dl, -, hdl⟩ := exists_diskLine h hmem
  obtain ⟨-, hvolid⟩ := Prod.mk.inj hdl
  have hleaf : IsLeaf (volumeBasename disk.volid) := by
    rw [hvolid, dl.volumeBasename_volid]
    exact dl.isLeaf
  show _ = (disk.key, M.dataset disk.volid, _)
  rw [← hdataset, hdataset, dataset, planBasename_path hleaf]
  simp

/-- The disk of a line on the target. -/
theorem mem_rewritten_iff {text' : Str} {dl : DiskLine M.gtype} (hdl : dl.text ∈ currentLines M.config.stdout)
    (htext : rewriteGuestConfig M.config.stdout S.entries B.entries (some M.vmid.text)
      (M.newVmid.map Vmid.text) = .ok text') :
    ∃ d' : DiskLine M.gtype, (∀ volid, (dl.key, volid) ∈ parseGuestConfigDisks text' M.gtype ↔ volid = d'.volid) ∧
      d'.storage = M.storageOf S dl.volid ∧ d'.leaf = renameFor M.vmid M.newVmid dl.leaf := by
  obtain ⟨d', hline, hkey, hstorage, hleaf⟩ := rewrittenLine_disk S B M.vmid M.newVmid dl
  refine ⟨d', fun volid => ?_, ?_, hleaf⟩
  · obtain ⟨text₁, htext₁, hparse⟩ := parse_rewritten S B M.vmid M.newVmid M.gtype M.lines
    obtain rfl := Except.ok.inj (htext.symm.trans htext₁)
    rw [hparse, List.mem_filterMap]
    constructor
    · rintro ⟨line, hmem, hdisk⟩
      have hmem := List.mem_of_mem_filter hmem
      have hold : lineKey line = some dl.key := lineKey_rewritten (M.lines line hmem) (lineKey_of_disk hdisk)
      have hsame : line = dl.text := by
        refine eq_of_nodup_filterMap M.nodup_keys hmem hdl hold ?_
        exact lineKey_of_disk dl.diskOfLine_text
      rw [hsame, hline, d'.diskOfLine_text] at hdisk
      exact (Prod.mk.inj (Option.some.inj hdisk)).2.symm
    · rintro rfl
      refine ⟨dl.text, List.mem_filter.mpr ⟨hdl, ?_⟩, ?_⟩
      · rw [not_locked_of_disk dl.diskOfLine_text]
        rfl
      · rw [hline, d'.diskOfLine_text, hkey]
  · rw [hstorage, storageOf, dl.beforeFirst_volid]

/-! ## The agreement -/

theorem slash_planBasename {leaf : Str} {vmid : Vmid} {newVmid : Option Vmid} (h : IsLeaf leaf) :
    '/' ∉ planBasename vmid.text (newVmid.map Vmid.text) leaf := by
  by_cases hsame : ∀ n ∈ newVmid, n = vmid
  · rw [planBasename_same h hsame]
    exact h.slash
  · obtain ⟨new, rfl, hne⟩ : ∃ new, newVmid = some new ∧ new ≠ vmid := by simpa using hsame
    rw [Option.map_some]
    rcases planBasename_cases h hne with ⟨k, hk, x, rfl, hplan⟩ | ⟨-, hplan⟩
    · have hkind : '/' ∉ k := fun hmem => absurd (isAsciiLower_of_mem_kind hk _ hmem) (by decide)
      have hnew : '/' ∉ new.text := new.not_mem (by decide)
      have hx : '/' ∉ x := fun hmem => h.slash (List.mem_append_right _ hmem)
      rw [hplan, volumeStem_append]
      simp [hkind, hnew, hx]
    · rw [hplan]
      exact h.slash

/-- The last part of a path can be read off. -/
theorem path_inj {a b x y : Str} (ha : '/' ∉ a) (hb : '/' ∉ b) :
    x ++ '/' :: a = y ++ '/' :: b ↔ x = y ∧ a = b := by
  constructor
  · intro h
    have hlast : a = b := by rw [← @afterLast_append '/' x a ha, h, afterLast_append hb]
    subst hlast
    exact ⟨List.append_cancel_right h, rfl⟩
  · rintro ⟨rfl, rfl⟩
    rfl

/-- A volume id on the target names the dataset of the plan. -/
theorem names_iff {dl d' : DiskLine M.gtype} (hstorage : d'.storage = M.storageOf S dl.volid)
    (hleaf : d'.leaf = renameFor M.vmid M.newVmid dl.leaf) :
    NamesDataset storages d'.volid (M.targetRoot ++ '/' ::
        planBasename M.vmid.text (M.newVmid.map Vmid.text) (volumeBasename dl.volid)) ↔
      (∃ s, storages.find? (fun s => s.storage = M.storageOf S dl.volid) = some s ∧ s.pool = M.targetRoot) ∧
        ∀ new ∈ M.newVmid, new ≠ M.vmid → NamedAlike M.vmid.text (volumeBasename dl.volid) := by
  have hslash := @slash_planBasename _ M.vmid M.newVmid dl.isLeaf
  rw [NamesDataset, d'.beforeFirst_volid, d'.volumeBasename_volid, hstorage, dl.volumeBasename_volid,
    ← renameFor_eq_planBasename_iff dl.isLeaf, ← hleaf]
  simp only [path_inj hslash d'.leaf_slash]
  constructor
  · rintro ⟨s, hs, hpool, hname⟩
    exact ⟨⟨s, hs, hpool.symm⟩, hname.symm⟩
  · rintro ⟨⟨s, hs, hpool⟩, hname⟩
    exact ⟨s, hs, hpool.symm, hname.symm⟩

/-- The rewritten config names the dataset of a disk. -/
theorem named_iff (hall : AllListed M.source M.log) (hd : d ∈ M.disks) {text' : Str}
    (htext : rewriteGuestConfig M.config.stdout S.entries B.entries (some M.vmid.text)
      (M.newVmid.map Vmid.text) = .ok text') :
    (∃ volid p, (d.1, volid) ∈ parseGuestConfigDisks text' M.gtype ∧ p ∈ M.report.plan ∧ p.key = d.1 ∧
        NamesDataset storages volid p.targetDataset) ↔
      (∃ s, storages.find? (fun s => s.storage = M.storageOf S d.2) = some s ∧ s.pool = M.targetRoot) ∧
        ∀ new ∈ M.newVmid, new ≠ M.vmid → NamedAlike M.vmid.text (volumeBasename d.2) := by
  obtain ⟨dl, hline, rfl⟩ := exists_diskLine hall hd
  obtain ⟨d', hvolid, hstorage, hleaf⟩ := mem_rewritten_iff hline htext
  have hplan := plan_names hall
  rw [← names_iff hstorage hleaf]
  constructor
  · rintro ⟨volid, p, hmem, hp, hkey, hnames⟩
    obtain rfl := (hvolid volid).mp hmem
    have hentry : (p.key, p.sourceDataset, p.targetDataset) ∈
        M.report.plan.map (fun p => (p.key, p.sourceDataset, p.targetDataset)) := List.mem_map.mpr ⟨p, hp, rfl⟩
    rw [hplan] at hentry
    obtain ⟨e, he, heq⟩ := List.mem_map.mp hentry
    obtain ⟨hkey', hrest⟩ := Prod.mk.inj heq
    -- the key occurs once
    have hsame : e = (dl.key, dl.volid) := List.inj_on_of_nodup_map M.nodup_disks he hd (hkey'.trans hkey)
    rw [hsame] at hrest
    rwa [(Prod.mk.inj hrest).2]
  · intro hnames
    have hentry := congrArg (fun l => (dl.key, M.dataset dl.volid, M.targetRoot ++ '/' ::
      planBasename M.vmid.text (M.newVmid.map Vmid.text) (volumeBasename dl.volid)) ∈ l) hplan
    obtain ⟨p, hp, heq⟩ := List.mem_map.mp (hentry.mpr (List.mem_map.mpr ⟨_, hd, rfl⟩))
    obtain ⟨hkey, hrest⟩ := Prod.mk.inj heq
    refine ⟨d'.volid, p, (hvolid _).mpr rfl, hp, hkey, ?_⟩
    rw [(Prod.mk.inj hrest).2]
    exact hnames

/-- A disk that did not resolve is not in the plan. -/
theorem allListed_of_planned (h : ∀ d ∈ M.disks, ∃ p ∈ M.report.plan, p.key = d.1) :
    AllListed M.source M.log := by
  obtain ⟨l, disc, hrun, -, hlisted, hplan⟩ := M.exists_discovery
  obtain ⟨hlength, hnone⟩ := run_discoverDisks_iff hrun
  have hkeys : M.report.plan.map PlanEntry.key = disc.disks.map Disk.key := by
    have hfirst := congrArg (List.map Prod.fst) hplan
    rw [List.map_map, List.map_map] at hfirst
    exact hfirst
  have hsub : M.disks.map Prod.fst ⊆ disc.disks.map Disk.key := by
    intro key hkey
    obtain ⟨d, hd, rfl⟩ := List.mem_map.mp hkey
    obtain ⟨p, hp, hpkey⟩ := h d hd
    rw [← hkeys]
    exact List.mem_map.mpr ⟨p, hp, hpkey⟩
  have hle := (List.Nodup.subperm M.nodup_disks hsub).length_le
  rw [List.length_map, List.length_map] at hle
  exact hlisted.mp (hnone.mp (List.eq_nil_of_length_eq_zero (by omega)))

theorem apart_iff (hall : AllListed M.source M.log) :
    (∀ p ∈ M.report.plan, ∀ q ∈ M.report.plan, p.sourceDataset ≠ q.sourceDataset →
        p.targetDataset ≠ q.targetDataset) ↔
      ∀ d ∈ M.disks, ∀ e ∈ M.disks, M.dataset d.2 ≠ M.dataset e.2 →
        ¬ Clash M.vmid M.newVmid (volumeBasename d.2) (volumeBasename e.2) := by
  have hplan := plan_names hall
  have hentries : (∀ p ∈ M.report.plan, ∀ q ∈ M.report.plan, p.sourceDataset ≠ q.sourceDataset →
      p.targetDataset ≠ q.targetDataset) ↔
        ∀ t ∈ M.report.plan.map (fun p => (p.key, p.sourceDataset, p.targetDataset)),
          ∀ u ∈ M.report.plan.map (fun p => (p.key, p.sourceDataset, p.targetDataset)),
            t.2.1 ≠ u.2.1 → t.2.2 ≠ u.2.2 := by
    simp only [List.forall_mem_map]
  rw [hentries, hplan]
  simp only [List.forall_mem_map]
  refine forall₂_congr fun d hd => forall₂_congr fun e he => imp_congr_right fun _ => ?_
  obtain ⟨dl, -, rfl⟩ := exists_diskLine hall hd
  obtain ⟨el, -, rfl⟩ := exists_diskLine hall he
  rw [dl.volumeBasename_volid, el.volumeBasename_volid, ← planBasename_eq_iff dl.isLeaf el.isLeaf,
    ne_eq, path_inj (slash_planBasename dl.isLeaf) (slash_planBasename el.isLeaf)]
  exact not_congr (and_iff_right rfl)

/-- The plan and the rewritten config agree if and only if the names match. -/
theorem agrees_iff (M : Move) (storages : List ZfsStorage) (S B : IdMap) :
    M.Agrees storages S B ↔ M.Matched storages S := by
  obtain ⟨text', htext, -⟩ := parse_rewritten S B M.vmid M.newVmid M.gtype M.lines
  constructor
  · rintro ⟨hapart, text₁, htext₁, hnamed⟩
    have hall : AllListed M.source M.log := by
      refine allListed_of_planned fun d hd => ?_
      obtain ⟨-, p, -, hp, hkey, -⟩ := hnamed d hd
      exact ⟨p, hp, hkey⟩
    exact ⟨hall, fun d hd => ((named_iff hall hd htext₁).mp (hnamed d hd)).1,
      fun d hd => ((named_iff hall hd htext₁).mp (hnamed d hd)).2, (apart_iff hall).mp hapart⟩
  · rintro ⟨hall, hstored, halike, hapart⟩
    exact ⟨(apart_iff hall).mpr hapart, text', htext,
      fun d hd => (named_iff hall hd htext).mpr ⟨hstored d hd, halike d hd⟩⟩

end Move

/-! ## A volume that is no disk -/

/-- The line of a disk with a name of its own. -/
def dataLine : DiskLine "qemu" where
  key := "scsi0"
  storage := "local-zfs"
  base := none
  leaf := "vm-100-data"
  options := some "size=4G"
  isKey := by decide
  keyChars := by decide
  storage_ne := by decide
  storageChars := by decide
  volumeChars := by decide
  leaf_ne := by decide
  leaf_slash := by decide
  noBreak := by decide
  noCdrom := by decide
  noBridge := by decide

/-- The log of its preflight, after the config. -/
def dataLog : Log :=
  [(⟨hostA, .pvesmPath "local-zfs:vm-100-data"⟩, prints "/dev/zvol/rpool/data/vm-100-data\n"),
    (⟨hostA, .zfsListUsed "rpool/data/vm-100-data"⟩, prints "rpool/data/vm-100-data\t4G\n"),
    (⟨hostA, .guestStatus .qm "100"⟩, prints "status: running\n"),
    (⟨hostB, .vmidProbe 110⟩, prints "__FREE__\n"),
    (⟨hostB, .zfsListName "tank"⟩, prints "tank\n"),
    (⟨hostB, .catFile "/etc/pve/storage.cfg"⟩,
      prints "zfspool: local-zfs\n\tpool tank\n\tcontent images,rootdir\n"),
    (⟨hostB, .hostname⟩, prints "pve2\n"), (⟨hostB, .lsNet⟩, prints "vmbr0\n"),
    (⟨hostB, .sshProbe hostA.ref⟩, prints "__SSH_OK__\n"),
    (⟨hostB, .zfsListName "tank/vm-110-data"⟩, noAnswer)]

/-- The preflight returned a report. -/
def isReport : Except Exn Preflight → Bool
  | .ok (.report _) => true
  | _ => false

theorem resolves_dataLog {volid ds : Str} (h : Resolves hostA dataLog volid ds) :
    volid = "local-zfs:vm-100-data" ∧ ds = "rpool/data/vm-100-data" := by
  obtain ⟨path, listed, hpath, -, rfl, -⟩ := h
  have hentry : ((⟨hostA, .pvesmPath volid⟩ : Request), path) =
      (⟨hostA, .pvesmPath "local-zfs:vm-100-data"⟩, prints "/dev/zvol/rpool/data/vm-100-data\n") := by
    simpa [dataLog] using hpath
  cases hentry
  exact ⟨rfl, by decide⟩

/-- The plan renames the volume, and the config rewrite does not. -/
theorem exists_drift : ∃ (M : Move) (storages : List ZfsStorage) (S B : IdMap), ¬ M.Agrees storages S B := by
  obtain ⟨o, hrun, htest⟩ : ∃ o, (preflight hostA hostB "100" "qemu" "tank" (some "110") "local-zfs").Run
      ((⟨hostA, .catFile "/etc/pve/qemu-server/100.conf"⟩, prints (dataLine.text ++ "\n")) :: dataLog) o ∧
        isReport o = true :=
    Prog.exists_run_of_test isReport (prints (dataLine.text ++ "\n") :: dataLog.map Prod.snd) (by decide +kernel)
  obtain ⟨report, rfl⟩ : ∃ report, o = .ok (.report report) := by
    match o with
    | .ok (.report r) => exact ⟨r, rfl⟩
  have hlines : currentLines (dataLine.text ++ "\n") = [dataLine.text] := by decide
  let M : Move :=
    { source := hostA, target := hostB, gtype := "qemu", vmid := ⟨"100", by decide⟩
      newVmid := some ⟨"110", by decide⟩, targetRoot := "tank", targetStorage := "local-zfs"
      config := prints (dataLine.text ++ "\n"), log := dataLog, report := report
      run := hrun
      lines := by
        intro line hline
        obtain rfl := List.mem_singleton.mp (hlines ▸ hline)
        exact .entry "scsi0" "local-zfs:vm-100-data,size=4G" (by decide) (by decide)
      nodup_keys := by decide
      diskLine := by
        intro line hline _ _ _ _ _
        exact ⟨dataLine, List.mem_singleton.mp (hlines ▸ hline)⟩
      pools := fun _ => "rpool/data"
      volumePath := by
        intro volid ds hresolves
        obtain ⟨rfl, rfl⟩ := resolves_dataLog hresolves
        decide }
  let S : IdMap := ⟨⟨[], List.nodup_nil⟩, by simp⟩
  refine ⟨M, [⟨"local-zfs", "tank", [], []⟩], S, S, fun hagrees => ?_⟩
  have hdisks : (("scsi0" : Str), ("local-zfs:vm-100-data" : Str)) ∈
      parseGuestConfigDisks (dataLine.text ++ "\n") "qemu" := by decide
  have hnew : ("110" : Str) ≠ "100" := by decide
  have hstem : volumeStem "vm" "100" <+: volumeBasename "local-zfs:vm-100-data" := by decide
  rcases ((Move.agrees_iff M _ S S).mp hagrees).alike _ hdisks _ rfl (fun h => hnew (congrArg Vmid.text h)) with
    ⟨k, hk, x, hx, -⟩ | ⟨hnone, -⟩
  · have hno : ∀ k ∈ volumeKinds, ¬ diskStem k "100" <+: volumeBasename "local-zfs:vm-100-data" := by decide
    exact hno k hk ⟨x, hx.symm⟩
  · exact hnone "vm" (by decide) hstem

end PveZfsTool
