import PveZfsTool.Recovery.CreateSafety

/-!
# The names of a guest's clones

`create_job` puts the clones of all disks of a guest below one recovery root.
The name of a clone keeps the kind and the number of the disk, and nothing of
the place the disk comes from.  The volume ids of the config go to the clones
through a dictionary.

`clones_apart_iff` says for which disks every clone has a name of its own and
every volume id goes to the clone of its disk, and `clones_collide` is a guest
whose second disk gets the name of the first.
-/

namespace PveZfsTool

open Dialogue Text

/-! ## Disks that clash -/

/-- The kind and the number of a disk, when it is named like a guest volume. -/
def Disk.volume (d : Disk) : Option (Str × Str) := guestVolume (volumeBasename d.dataset)

/-- The disks before the first one that is not named like a guest volume.
There the job raises. -/
def namedDisks (disks : List Disk) : List Disk := disks.takeWhile (fun d => d.volume.isSome)

/-- The volume is a container's. -/
def IsSubvol (kind : Str) : Prop := kind = ("subvol" : Str) ∨ kind = ("basevol" : Str)

/-- The disks have one number, and both are volumes of containers or both of
virtual machines. -/
def Clashing (d d' : Disk) : Prop :=
  ∃ kind kind' number, d.volume = some (kind, number) ∧ d'.volume = some (kind', number) ∧
    (IsSubvol kind ↔ IsSubvol kind')

/-- The run asked for a clone of the snapshot. -/
def Cloned (log : Log) (snapshot target : Str) : Prop :=
  ∃ host words a, (⟨host, .zfsClone words snapshot target⟩, a) ∈ log

/-- The clone loop gives different targets to different datasets, and its map
sends each volume id to the clone of that disk. -/
def ClonesApart (host : Host) (c : CloneOrder) (disks : List Disk) : Prop :=
  ∀ log o, (cloneDisks host c ⟨[], []⟩ disks).Run log o →
    (∀ d ∈ disks, ∀ d' ∈ disks, d.dataset ≠ d'.dataset → ∀ target target',
      Cloned log (d.dataset ++ "@" ++ c.snapshot) target →
        Cloned log (d'.dataset ++ "@" ++ c.snapshot) target' → target ≠ target') ∧
      ∀ clones, o = .ok (.ok clones) → ∀ d ∈ disks, ∃ target,
        Cloned log (d.dataset ++ "@" ++ c.snapshot) target ∧
          lookupLast clones.volidMap d.volid = some (c.storage ++ ":" ++ afterLast '/' target)

/-! ## The names -/

theorem mem_volumeKinds_of_guestVolume {base kind number : Str}
    (h : guestVolume base = some (kind, number)) : kind ∈ volumeKinds := by
  obtain ⟨k, hk, hsome⟩ := List.exists_of_findSome?_eq_some h
  dsimp only at hsome
  split at hsome
  · rw [← (Prod.mk.inj (Option.some.inj hsome)).1]
    exact hk
  · cases hsome

/-- A clone is a container's volume or a machine's, as its origin is. -/
theorem cloneKind_eq {kind : Str} (h : kind ∈ volumeKinds) :
    (IsSubvol kind ∧ cloneKind kind = ("subvol" : Str)) ∨
      (¬ IsSubvol kind ∧ cloneKind kind = ("vm" : Str)) := by
  simp only [volumeKinds, List.mem_cons, List.not_mem_nil, or_false] at h
  unfold IsSubvol
  obtain rfl | rfl | rfl | rfl := h
  · exact Or.inr (by decide)
  · exact Or.inl (by decide)
  · exact Or.inr (by decide)
  · exact Or.inl (by decide)

theorem cloneKind_eq_iff {kind kind' : Str} (h : kind ∈ volumeKinds) (h' : kind' ∈ volumeKinds) :
    cloneKind kind = cloneKind kind' ↔ (IsSubvol kind ↔ IsSubvol kind') := by
  obtain ⟨hs, hk⟩ | ⟨hs, hk⟩ := cloneKind_eq h <;>
    obtain ⟨hs', hk'⟩ | ⟨hs', hk'⟩ := cloneKind_eq h' <;> simp [hk, hk', hs, hs']

/-- The name of the clone of a volume. -/
def cloneName (newVmid : Str) (v : Str × Str) : Str :=
  cloneKind v.1 ++ "-" ++ newVmid ++ "-" ++ v.2

/-- The dataset of a disk's clone. -/
def targetOf (c : CloneOrder) (v : Str × Str) : Str := c.root ++ "/" ++ cloneName c.newVmid v

/-- The volume id of a disk's clone. -/
def cloneVolid (c : CloneOrder) (v : Str × Str) : Str :=
  c.storage ++ ":" ++ afterLast '/' (targetOf c v)

theorem cloneVolumeName_eq {d : Disk} {v : Str × Str} (h : d.volume = some v) (newVmid : Str) :
    cloneVolumeName d.dataset newVmid = .ok (cloneName newVmid v) := by
  unfold cloneVolumeName
  rw [show guestVolume (volumeBasename d.dataset) = some v from h]
  rfl

/-- The kind and the number can be read off a clone's name. -/
theorem cloneName_inj (newVmid : Str) {v v' : Str × Str} (h : v.1 ∈ volumeKinds)
    (h' : v'.1 ∈ volumeKinds) :
    cloneName newVmid v = cloneName newVmid v' ↔ (IsSubvol v.1 ↔ IsSubvol v'.1) ∧ v.2 = v'.2 := by
  rw [← cloneKind_eq_iff h h']
  unfold cloneName
  constructor
  · intro heq
    have hkind : cloneKind v.1 = cloneKind v'.1 := by
      obtain ⟨-, hk⟩ | ⟨-, hk⟩ := cloneKind_eq h <;> obtain ⟨-, hk'⟩ | ⟨-, hk'⟩ := cloneKind_eq h'
      · rw [hk, hk']
      · rw [hk, hk'] at heq
        cases heq
      · rw [hk, hk'] at heq
        cases heq
      · rw [hk, hk']
    rw [hkind] at heq
    exact ⟨hkind, List.append_cancel_left heq⟩
  · rintro ⟨hkind, hnumber⟩
    rw [hkind, hnumber]

theorem number_of_guestVolume {base : Str} {v : Str × Str} (h : guestVolume base = some v) :
    ∃ index : Str, v.2 = ("disk-" : Str) ++ index ∧ ∀ c ∈ index, isDecimal c = true := by
  obtain ⟨k, -, hsome⟩ := List.exists_of_findSome?_eq_some h
  dsimp only at hsome
  split at hsome
  · next hguard =>
    obtain rfl := Option.some.inj hsome
    simp only [Bool.and_eq_true, List.all_eq_true] at hguard
    exact ⟨_, rfl, hguard.2⟩
  · cases hsome

theorem slash_not_mem_number {base : Str} {v : Str × Str} (h : guestVolume base = some v) :
    '/' ∉ v.2 := by
  obtain ⟨index, hnumber, hindex⟩ := number_of_guestVolume h
  have hdisk : '/' ∉ ("disk-" : Str) := by decide
  rw [hnumber, List.mem_append, not_or]
  refine ⟨hdisk, fun hmem => ?_⟩
  have hdigit := hindex _ hmem
  revert hdigit
  decide

theorem slash_not_mem_volumeName {newVmid base : Str} (hvmid : validateVmid newVmid = .ok newVmid)
    {v : Str × Str} (h : guestVolume base = some v) : '/' ∉ cloneName newVmid v := by
  have hkind : '/' ∉ cloneKind v.1 := by
    obtain ⟨-, hk⟩ | ⟨-, hk⟩ := cloneKind_eq (mem_volumeKinds_of_guestVolume h)
    · rw [hk]
      decide
    · rw [hk]
      decide
  have hdigits : '/' ∉ newVmid := by
    intro hmem
    have hdigit := (validateVmid_ok hvmid).2.2 _ hmem
    revert hdigit
    decide
  have hdash : '/' ∉ ("-" : Str) := by decide
  simp only [cloneName, List.mem_append, not_or]
  exact ⟨⟨⟨⟨hkind, hdash⟩, hdigits⟩, hdash⟩, slash_not_mem_number h⟩

/-- The volume id of a clone is the storage and the clone's name. -/
theorem cloneVolid_eq {c : CloneOrder} (hvmid : validateVmid c.newVmid = .ok c.newVmid) {d : Disk}
    {v : Str × Str} (h : d.volume = some v) :
    cloneVolid c v = c.storage ++ ":" ++ cloneName c.newVmid v := by
  have htarget : targetOf c v = c.root ++ '/' :: cloneName c.newVmid v := by simp [targetOf]
  rw [cloneVolid, htarget, afterLast_append (slash_not_mem_volumeName hvmid h)]

/-! ## The clone loop -/

/-- The clones after one more disk. -/
def Clones.add (made : Clones) (c : CloneOrder) (d : Disk) (v : Str × Str) : Clones :=
  ⟨made.created ++ [targetOf c v], made.volidMap ++ [(d.volid, cloneVolid c v)]⟩

/-- What the loop does with the next disk. -/
theorem run_cloneDisks_cons {host : Host} {c : CloneOrder} {made : Clones} {d : Disk}
    {disks : List Disk} {log : Log} {o : Except Exn (Except CreateFailure Clones)}
    (h : (cloneDisks host c made (d :: disks)).Run log o) :
    (d.volume = none ∧ log = [] ∧ ∃ e, o = .error e) ∨
      ∃ v a rest, d.volume = some v ∧ log = (⟨host, cloneCommand c d (targetOf c v)⟩, a) :: rest ∧
        ((a.success = true ∧ (cloneDisks host c (made.add c d v) disks).Run rest o) ∨
          (a.success = false ∧ (∃ e, o = .ok (.error e)) ∧
            ∀ entry ∈ rest, entry.1.cmd.clones = false)) := by
  unfold cloneDisks at h
  cases hv : d.volume with
  | none =>
    have hname : ∃ e, cloneVolumeName d.dataset c.newVmid = .error e := by
      unfold cloneVolumeName
      rw [show guestVolume (volumeBasename d.dataset) = none from hv]
      exact ⟨_, rfl⟩
    obtain ⟨e, hname⟩ := hname
    simp only [hname, liftExn, Prog.raise_bind, Prog.run_raise] at h
    exact Or.inl ⟨rfl, h.1, e, h.2⟩
  | some v =>
    simp only [cloneVolumeName_eq hv, liftExn, Prog.pure_eq, Prog.ret_bind, runCommand,
      Prog.issue_bind, Prog.run_ask] at h
    obtain ⟨a, rest, rfl, h⟩ := h
    refine Or.inr ⟨v, a, rest, rfl, rfl, ?_⟩
    cases ha : a.success with
    | true =>
      simp only [ha, if_true] at h
      exact Or.inl ⟨rfl, h⟩
    | false =>
      simp only [ha, Bool.false_eq_true, if_false] at h
      obtain ⟨log₁, log₂, u, rfl, hdestroy, hret⟩ | ⟨e, herr, -⟩ := Prog.run_bind.mp h
      · obtain ⟨rfl, rfl⟩ := Prog.run_ret.mp hret
        refine Or.inr ⟨rfl, ⟨_, rfl⟩, ?_⟩
        rw [List.append_nil]
        have huses : (destroyQuietly host made.created).Uses (fun q => q.cmd.clones = false) :=
          uses_destroyEach (fun _ _ => rfl)
        exact huses.sound hdestroy
      · cases (run_destroyEach [] herr).1

/-- The loop asks for the clones of the named disks, and for no others. -/
theorem cloned_of_run {host : Host} {c : CloneOrder} {made : Clones} {disks : List Disk}
    {log : Log} {o : Except Exn (Except CreateFailure Clones)}
    (h : (cloneDisks host c made disks).Run log o) {snapshot target : Str}
    (hcloned : Cloned log snapshot target) :
    ∃ d ∈ namedDisks disks, ∃ v, d.volume = some v ∧
      snapshot = d.dataset ++ "@" ++ c.snapshot ∧ target = targetOf c v := by
  induction disks generalizing made log with
  | nil =>
    obtain ⟨rfl, -⟩ := Prog.run_ret.mp h
    obtain ⟨host', words, a, hmem⟩ := hcloned
    cases hmem
  | cons d disks ih =>
    obtain ⟨-, rfl, -⟩ | ⟨v, a, rest, hv, rfl, hrest⟩ := run_cloneDisks_cons h
    · obtain ⟨host', words, a, hmem⟩ := hcloned
      cases hmem
    · have hnamed : namedDisks (d :: disks) = d :: namedDisks disks := by
        rw [namedDisks, List.takeWhile_cons_of_pos (by simp [hv])]
        rfl
      rw [hnamed]
      obtain ⟨host', words, a', hmem⟩ := hcloned
      obtain heq | hmem := List.mem_cons.mp hmem
      · simp only [cloneCommand, Prod.mk.injEq, Request.mk.injEq, Cmd.zfsClone.injEq] at heq
        exact ⟨d, List.mem_cons_self, v, hv, heq.1.2.2⟩
      · obtain ⟨-, hloop⟩ | ⟨-, -, hquiet⟩ := hrest
        · obtain ⟨d', hd', hclone⟩ := ih hloop ⟨host', words, a', hmem⟩
          exact ⟨d', List.mem_cons_of_mem _ hd', hclone⟩
        · cases hquiet _ hmem

/-- A loop that made all clones made one for each disk, and entered each in
the map. -/
theorem made_of_run {host : Host} {c : CloneOrder} {made clones : Clones} {disks : List Disk}
    {log : Log} (h : (cloneDisks host c made disks).Run log (.ok (.ok clones))) :
    (∀ d ∈ disks, ∃ v, d.volume = some v ∧
      Cloned log (d.dataset ++ "@" ++ c.snapshot) (targetOf c v)) ∧
      ∀ e, e ∈ clones.volidMap ↔ e ∈ made.volidMap ∨
        ∃ d ∈ disks, ∃ v, d.volume = some v ∧ e = (d.volid, cloneVolid c v) := by
  induction disks generalizing made log with
  | nil =>
    obtain ⟨-, hclones⟩ := Prog.run_ret.mp h
    cases hclones
    simp
  | cons d disks ih =>
    obtain ⟨-, -, e, herr⟩ | ⟨v, a, rest, hv, rfl, ⟨-, hloop⟩ | ⟨-, ⟨e, herr⟩, -⟩⟩ :=
      run_cloneDisks_cons h
    · cases herr
    · obtain ⟨hcloned, hmap⟩ := ih hloop
      constructor
      · intro d' hd'
        obtain rfl | hd' := List.mem_cons.mp hd'
        · exact ⟨v, hv, host, _, a, List.mem_cons_self⟩
        · obtain ⟨v', hv', host', words, a', hmem⟩ := hcloned d' hd'
          exact ⟨v', hv', host', words, a', List.mem_cons_of_mem _ hmem⟩
      · intro e
        rw [hmap e]
        simp only [Clones.add, List.mem_append, List.mem_singleton, List.exists_mem_cons_iff, hv,
          Option.some.injEq, exists_eq_left', or_assoc]
    · cases herr

/-- A loop on a host where every clone succeeds comes to each named disk, and
to its end when there are no others. -/
theorem all_cloned {host : Host} {c : CloneOrder} {made : Clones} {disks : List Disk}
    {log : Log} {o : Except Exn (Except CreateFailure Clones)}
    (h : (cloneDisks host c made disks).Run log o)
    (hall : ∀ entry ∈ log, entry.2.success = true) :
    (∀ d ∈ namedDisks disks, ∀ v, d.volume = some v →
      Cloned log (d.dataset ++ "@" ++ c.snapshot) (targetOf c v)) ∧
      (namedDisks disks = disks → ∃ clones, o = .ok (.ok clones)) := by
  induction disks generalizing made log with
  | nil =>
    obtain ⟨-, rfl⟩ := Prog.run_ret.mp h
    exact ⟨by simp [namedDisks], fun _ => ⟨made, rfl⟩⟩
  | cons d disks ih =>
    obtain ⟨hnone, -, -⟩ | ⟨v, a, rest, hv, rfl, ⟨-, hloop⟩ | ⟨hfailed, -, -⟩⟩ :=
      run_cloneDisks_cons h
    · have hnamed : namedDisks (d :: disks) = [] := by
        rw [namedDisks, List.takeWhile_cons_of_neg (by simp [hnone])]
      rw [hnamed]
      exact ⟨by simp, fun heq => by cases heq⟩
    · have hnamed : namedDisks (d :: disks) = d :: namedDisks disks := by
        rw [namedDisks, List.takeWhile_cons_of_pos (by simp [hv])]
        rfl
      obtain ⟨hcloned, hend⟩ := ih hloop (fun entry hmem => hall entry (List.mem_cons_of_mem _ hmem))
      rw [hnamed]
      constructor
      · intro d' hd' v' hv'
        obtain rfl | hd' := List.mem_cons.mp hd'
        · rw [hv] at hv'
          obtain rfl := Option.some.inj hv'
          exact ⟨host, _, a, List.mem_cons_self⟩
        · obtain ⟨host', words, a', hmem⟩ := hcloned d' hd' v' hv'
          exact ⟨host', words, a', List.mem_cons_of_mem _ hmem⟩
      · intro heq
        exact hend (List.cons.inj heq).2
    · have hsuccess := hall _ List.mem_cons_self
      rw [hfailed] at hsuccess
      cases hsuccess

/-! ## Clones apart -/

theorem lookupLast_of_mem {entries : List (Str × Str)} {key value : Str}
    (h : (key, value) ∈ entries) :
    ∃ value', lookupLast entries key = some value' ∧ (key, value') ∈ entries := by
  cases hfind : entries.reverse.find? (fun e => e.1 = key) with
  | none =>
    have hnone := List.find?_eq_none.mp hfind _ (List.mem_reverse.mpr h)
    simp at hnone
  | some e =>
    have hkey : e.1 = key := by simpa using List.find?_some hfind
    refine ⟨e.2, by rw [lookupLast, hfind]; rfl, ?_⟩
    rw [← hkey]
    exact List.mem_reverse.mp (List.mem_of_find?_eq_some hfind)

/-- Among the disks that the loop comes to, none clash, and in a loop that
comes to its end no two disks share a volume id. -/
def DisksApart (disks : List Disk) : Prop :=
  (∀ d ∈ namedDisks disks, ∀ d' ∈ namedDisks disks, d.dataset ≠ d'.dataset → ¬ Clashing d d') ∧
    (namedDisks disks = disks → ∀ d ∈ disks, ∀ d' ∈ disks, d.volid = d'.volid →
      d.dataset = d'.dataset)

theorem volume_of_dataset {d d' : Disk} (h : d.dataset = d'.dataset) : d.volume = d'.volume := by
  rw [Disk.volume, h, Disk.volume]

theorem targetOf_eq_iff {c : CloneOrder} {d d' : Disk} {v v' : Str × Str} (hv : d.volume = some v)
    (hv' : d'.volume = some v') : targetOf c v = targetOf c v' ↔ Clashing d d' := by
  have hinj := cloneName_inj c.newVmid (mem_volumeKinds_of_guestVolume hv)
    (mem_volumeKinds_of_guestVolume hv')
  rw [targetOf, targetOf, List.append_cancel_left_eq, hinj]
  unfold Clashing
  rw [hv, hv']
  constructor
  · rintro ⟨hkind, hnumber⟩
    exact ⟨v.1, v'.1, v.2, rfl, by rw [hnumber], hkind⟩
  · rintro ⟨kind, kind', number, h₁, h₂, hkind⟩
    obtain rfl := Option.some.inj h₁
    obtain rfl := Option.some.inj h₂
    exact ⟨hkind, rfl⟩

theorem cloneVolid_eq_iff {c : CloneOrder} (hvmid : validateVmid c.newVmid = .ok c.newVmid)
    {d d' : Disk} {v v' : Str × Str} (hv : d.volume = some v) (hv' : d'.volume = some v') :
    cloneVolid c v = cloneVolid c v' ↔ Clashing d d' := by
  rw [cloneVolid_eq hvmid hv, cloneVolid_eq hvmid hv', ← targetOf_eq_iff (c := c) hv hv', targetOf,
    targetOf, List.append_cancel_left_eq, List.append_cancel_left_eq]

theorem mem_of_mem_namedDisks {disks : List Disk} {d : Disk} (h : d ∈ namedDisks disks) :
    d ∈ disks :=
  (List.takeWhile_prefix _).subset h

/-- A clone of a disk's snapshot has the target of that disk. -/
theorem target_of_cloned {host : Host} {c : CloneOrder} {made : Clones} {disks : List Disk}
    {log : Log} {o : Except Exn (Except CreateFailure Clones)}
    (h : (cloneDisks host c made disks).Run log o) {d : Disk} {target : Str}
    (hcloned : Cloned log (d.dataset ++ "@" ++ c.snapshot) target) :
    ∃ d₁ ∈ namedDisks disks, ∃ v, d₁.dataset = d.dataset ∧ d₁.volume = some v ∧
      d.volume = some v ∧ target = targetOf c v := by
  obtain ⟨d₁, hd₁, v, hv, hsnapshot, rfl⟩ := cloned_of_run h hcloned
  have hdataset : d.dataset = d₁.dataset :=
    List.append_cancel_right (List.append_cancel_right hsnapshot)
  exact ⟨d₁, hd₁, v, hdataset.symm, hv, (volume_of_dataset hdataset).trans hv, rfl⟩

/-- The clone loop keeps the clones of different disks apart, and its map goes
to the clone of the same disk, exactly when the disks are apart. -/
theorem clones_apart_iff {host : Host} {c : CloneOrder} {disks : List Disk}
    (hvmid : validateVmid c.newVmid = .ok c.newVmid) :
    ClonesApart host c disks ↔ DisksApart disks := by
  constructor
  · intro hapart
    obtain ⟨log, o, hrun, hanswers⟩ :=
      Prog.exists_run (cloneDisks host c ⟨[], []⟩ disks) (fun _ => prints [])
    have hall : ∀ entry ∈ log, entry.2.success = true := by
      intro entry hmem
      rw [hanswers entry hmem]
      rfl
    obtain ⟨htargets, hmap⟩ := hapart log o hrun
    obtain ⟨hcloned, hend⟩ := all_cloned hrun hall
    constructor
    · intro d hd d' hd' hne hclash
      obtain ⟨kind, kind', number, hv, hv', -⟩ := id hclash
      have htarget := htargets d (mem_of_mem_namedDisks hd) d' (mem_of_mem_namedDisks hd') hne _ _
        (hcloned d hd _ hv) (hcloned d' hd' _ hv')
      exact htarget ((targetOf_eq_iff hv hv').mpr hclash)
    · intro hnamed d hd d' hd' hvolid
      by_contra hne
      obtain ⟨clones, hclones⟩ := hend hnamed
      obtain ⟨target, hc, hlookup⟩ := hmap clones hclones d hd
      obtain ⟨target', hc', hlookup'⟩ := hmap clones hclones d' hd'
      obtain ⟨-, -, v, -, -, hv, rfl⟩ := target_of_cloned hrun hc
      obtain ⟨-, -, v', -, -, hv', rfl⟩ := target_of_cloned hrun hc'
      rw [hvolid, hlookup'] at hlookup
      have hclash := (cloneVolid_eq_iff hvmid hv' hv).mp (Option.some.inj hlookup)
      exact htargets d' hd' d hd (Ne.symm hne) _ _ hc' hc ((targetOf_eq_iff hv' hv).mpr hclash)
  · rintro ⟨hnames, hvolids⟩ log o hrun
    constructor
    · intro d hd d' hd' hne target target' hc hc'
      obtain ⟨d₁, hd₁, v, hdataset, hv, -, rfl⟩ := target_of_cloned hrun hc
      obtain ⟨d₁', hd₁', v', hdataset', hv', -, rfl⟩ := target_of_cloned hrun hc'
      rw [Ne, targetOf_eq_iff hv hv']
      apply hnames d₁ hd₁ d₁' hd₁'
      rw [hdataset, hdataset']
      exact hne
    · rintro clones rfl d hd
      obtain ⟨hcloned, hentries⟩ := made_of_run hrun
      have hnamed : namedDisks disks = disks := by
        apply List.takeWhile_eq_self_iff.mpr
        intro d hd
        obtain ⟨v, hv, -⟩ := hcloned d hd
        rw [hv]
        rfl
      obtain ⟨v, hv, hc⟩ := hcloned d hd
      refine ⟨targetOf c v, hc, ?_⟩
      obtain ⟨value, hlookup, hmem⟩ :=
        lookupLast_of_mem ((hentries (d.volid, cloneVolid c v)).mpr (Or.inr ⟨d, hd, v, hv, rfl⟩))
      obtain hnil | ⟨d', hd', v', hv', heq⟩ := (hentries _).mp hmem
      · cases hnil
      · obtain ⟨hvolid, rfl⟩ := Prod.mk.inj heq
        rw [volume_of_dataset (hvolids hnamed d hd d' hd' hvolid), hv'] at hv
        obtain rfl := Option.some.inj hv
        exact hlookup

/-- The clones of guest 100 as guest 900. -/
def cloneOrder : CloneOrder where
  root := "rpool/clone"
  newVmid := "900"
  snapshot := "s1"
  gtype := "qemu"
  storage := "rpool-clone"
  sizes := []

/-- Two disks of a guest, below two datasets of the pool. -/
def twoDisks (leaf leaf' : Str) : List Disk :=
  [⟨"scsi0", "local-zfs:" ++ leaf, "rpool/data/" ++ leaf, "1M"⟩,
    ⟨"scsi1", "fast:" ++ leaf', "rpool/fast/" ++ leaf', "1M"⟩]

theorem clones_apart_two :
    ClonesApart hostA cloneOrder (twoDisks "vm-100-disk-0" "vm-100-disk-1") ↔
      DisksApart (twoDisks "vm-100-disk-0" "vm-100-disk-1") :=
  clones_apart_iff (by decide +kernel)

/-- The answers up to the second clone, for a guest with a first disk on each
of two storages.  The host refuses the second clone. -/
def twinAnswers : List Answer :=
  [prints "scsi0: local-zfs:vm-100-disk-0\nscsi1: fast:vm-100-disk-0\n",
    prints "/dev/zvol/rpool/data/vm-100-disk-0\n", prints "rpool/data/vm-100-disk-0\t1M\n",
    prints "/dev/zvol/rpool/fast/vm-100-disk-0\n", prints "rpool/fast/vm-100-disk-0\t1M\n",
    prints "rpool/data/vm-100-disk-0@s1\n", prints "rpool/fast/vm-100-disk-0@s1\n",
    prints "__FREE__\n", prints "rpool/clone\n", prints [],
    prints "zfspool: rpool-clone\n\tpool rpool/clone\n", prints [], prints [], prints [],
    ⟨false, [], "dataset already exists"⟩, prints [], prints [], prints [], prints [], prints []]

/-- The targets of the clone commands. -/
def cloneTargets (log : Log) : List (Str × Str) :=
  log.filterMap (fun entry => match entry.1.cmd with
    | .zfsClone _ snapshot target => some (snapshot, target)
    | _ => none)

/-- The clone commands of that run. -/
def twinTargets : List (Str × Str) :=
  [("rpool/data/vm-100-disk-0@s1", "rpool/clone/vm-900-disk-0"),
    ("rpool/fast/vm-100-disk-0@s1", "rpool/clone/vm-900-disk-0")]

/-- Both disks of the guest get the clone `rpool/clone/vm-900-disk-0`. -/
theorem clones_collide :
    (∃ log o, (createJob hostA "100" "qemu" "s1" "900" ⟨[], [], []⟩).Run log o ∧
      cloneTargets log = twinTargets) ∧
      ¬ ClonesApart hostA cloneOrder (twoDisks "vm-100-disk-0" "vm-100-disk-0") := by
  constructor
  · have htranscript : ((createJob hostA "100" "qemu" "s1" "900" ⟨[], [], []⟩).transcript
        twinAnswers).map (fun r => cloneTargets r.1) = some twinTargets := by decide +kernel
    obtain ⟨r, hr, htargets⟩ := Option.map_eq_some_iff.mp htranscript
    exact ⟨r.1, r.2, Prog.run_of_transcript hr, htargets⟩
  · intro hapart
    have htranscript : ((cloneDisks hostA cloneOrder ⟨[], []⟩
        (twoDisks "vm-100-disk-0" "vm-100-disk-0")).transcript [prints [], prints []]).map
          Prod.fst = some [(⟨hostA, .zfsClone cloneProps "rpool/data/vm-100-disk-0@s1"
            "rpool/clone/vm-900-disk-0"⟩, prints []), (⟨hostA, .zfsClone cloneProps
              "rpool/fast/vm-100-disk-0@s1" "rpool/clone/vm-900-disk-0"⟩, prints [])] := by
      decide +kernel
    obtain ⟨o, hrun⟩ := Prog.exists_run_of_transcript _ htranscript
    have hne := (hapart _ o hrun).1 _ List.mem_cons_self _
      (List.mem_cons_of_mem _ List.mem_cons_self) (by decide) "rpool/clone/vm-900-disk-0"
        "rpool/clone/vm-900-disk-0"
    exact hne ⟨_, _, _, List.mem_cons_self⟩
      ⟨_, _, _, List.mem_cons_of_mem _ List.mem_cons_self⟩ rfl

end PveZfsTool
