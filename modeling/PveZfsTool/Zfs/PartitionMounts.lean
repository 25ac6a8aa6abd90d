import PveZfsTool.Lib.MountTable
import PveZfsTool.Zfs.ZvolUnmount

/-!
# The partitions of a zvol snapshot

`zvol_partition_mount` of `zfs_commands.py` mounts a mapping that `kpartx` has
made of a zvol snapshot, on a directory named after it, and `zvol_unmount` takes
the mount off again.  The device and the mount path come from the browser.

A host has a mount table and some mappings that sit on a zvol.  Other sessions
and other programs mount and unmount while a call runs, and mappings come and
go.

* `partition_taken_back`: what is mounted, that nothing else is, and that
  `zvol_unmount` takes back the path that `zvol_partition_mount` returned.
* `unmount_below_base_iff`: the mount paths for which `zvol_unmount` leaves the
  mounts outside of the restore directory alone.
-/

namespace PveZfsTool.Zvol

open Dialogue Text Mounts Paths

/-! ## The mount -/

def mapperDir : Str := "/dev/mapper/"

/-- The text after a character of `\b`: the end, or no character of a word. -/
def wordEnds : Str → Bool
  | [] => true
  | c :: _ => !isWord c

/-- A match of `zd\d+\b` at the start. -/
def startsZd : Str → Bool
  | 'z' :: 'd' :: s => s.takeWhile isDecimal ≠ [] && wordEnds (s.dropWhile isDecimal)
  | _ => false

/-- `re.search(r"\bzd\d+\b", s)`, after a character of a word or not. -/
def mentionsZd : Bool → Str → Bool
  | _, [] => false
  | inWord, c :: s => (!inWord && startsZd (c :: s)) || mentionsZd (isWord c) s

/-- The `-t` and the `-o` of a mount. -/
structure MountOptions where
  fsType : Option Str := none
  flags : List Str
  deriving DecidableEq

def MountOptions.text (o : MountOptions) : Str :=
  (match o.fsType with | none => [] | some t => "-t " ++ t ++ " ") ++ "-o " ++ join "," o.flags

inductive PartitionCmd where
  | deps (name : Str)
  | mkdir (path : Str)
  | whichNtfs
  | mount (options : MountOptions) (device path : Str)
  | rmdir (path : Str)
  deriving DecidableEq

def PartitionCmd.text : PartitionCmd → Str
  | .deps name => "dmsetup deps -o devname " ++ shlexQuote name ++ " 2>/dev/null"
  | .mkdir path => "mkdir -p " ++ shlexQuote path
  | .whichNtfs => "which ntfs-3g"
  | .mount options device path =>
      "mount " ++ options.text ++ " " ++ shlexQuote device ++ " " ++ shlexQuote path
  | .rmdir path => "rmdir " ++ shlexQuote path ++ " 2>/dev/null"

abbrev PartitionJob (α : Type) := Prog PartitionCmd Answer Empty α

structure MountedPartition where
  mountPath : Str
  device : Str
  fstype : Str
  mountCmd : Str
  deriving DecidableEq

/-- `_is_zvol_backed` -/
def isZvolBacked (devName : Str) : PartitionJob Bool :=
  if !isMapperName devName then return false
  else do
    let r ← Prog.issue (.deps devName)
    return r.success && mentionsZd false r.stdout

/-- The mounts that are tried, in their order. -/
def attempts (fstype : Str) : List MountOptions :=
  if fstype = "ntfs" || fstype = "ntfs3" then [⟨some "ntfs-3g", ["ro"]⟩]
  else if fstype = "ext2" || fstype = "ext3" || fstype = "ext4" || fstype = "ext" then
    [⟨none, ["ro", "norecovery"]⟩, ⟨none, ["ro"]⟩]
  else if fstype = "xfs" then [⟨none, ["ro", "norecovery"]⟩, ⟨some "xfs", ["ro", "norecovery"]⟩]
  else if fstype = "btrfs" then [⟨none, ["ro", "rescue=nologreplay"]⟩, ⟨none, ["ro"]⟩]
  else [⟨none, ["ro"]⟩, ⟨none, ["ro", "norecovery"]⟩]

/-- `r.get("stderr", "") or r.get("stdout", "") or last_err` -/
def mountError (r : Answer) (lastErr : Str) : Str :=
  if r.stderr ≠ [] then r.stderr else if r.stdout ≠ [] then r.stdout else lastErr

/-- The loop over the attempts, and the clean-up after the last one. -/
def tryMounts (device path fstype : Str) : List MountOptions → Str →
    PartitionJob (Except Str MountedPartition)
  | [], lastErr => do
      let _ ← Prog.issue (.rmdir path)
      return .error ("Mount failed: " ++ lastErr)
  | o :: os, lastErr => do
      let r ← Prog.issue (.mount o device path)
      if r.success then
        return .ok ⟨path, device, fstype, (PartitionCmd.mount o device path).text⟩
      else tryMounts device path fstype os (mountError r lastErr)

/-- `zvol_partition_mount` from the making of the directory on. -/
def mountPartition (device path fstype : Str) : PartitionJob (Except Str MountedPartition) := do
  let made ← Prog.issue (.mkdir path)
  if !made.success then return .error ("Failed to create mount dir: " ++ made.stderr)
  else if fstype = "ntfs" || fstype = "ntfs3" then do
    let ntfs ← Prog.issue .whichNtfs
    if !ntfs.success || strip ntfs.stdout = [] then do
      let _ ← Prog.issue (.rmdir path)
      return .error ("ntfs-3g is not installed on the Proxmox host. " ++
        "Install it with: apt install ntfs-3g")
    else tryMounts device path fstype (attempts fstype) []
  else tryMounts device path fstype (attempts fstype) []

/-- The name of a device under `/dev/mapper/`. -/
def mapperName (device : Str) : Str :=
  if startsWith device mapperDir then device.drop mapperDir.length else []

/-- The directory a mapping is mounted on. -/
def partitionPath (name : Str) : Str := mountBase ++ '/' :: name

/-- `zvol_partition_mount` -/
def zvolPartitionMount (device fstype : Str) : PartitionJob (Except Str MountedPartition) :=
  let devName := mapperName device
  if !isMapperName devName then
    return .error "Invalid device path -- must be /dev/mapper/<name>"
  else do
    let backed ← isZvolBacked devName
    if !backed then
      return .error (device ++ " is not a kpartx mapping of a zvol snapshot -- refusing")
    else mountPartition device (partitionPath devName) fstype

/-! ## The host -/

/-- The mounts, and the names of the mappings that sit on a zvol.  A name under
`/dev/mapper` is the name of a file. -/
structure RestoreHost where
  mounts : MountTable
  onZvol : List Str
  named : ∀ n ∈ onZvol, n ≠ "." ∧ n ≠ ".."

/-- What another party does: a change of the mount table, or other mappings. -/
inductive OtherMove where
  | change (c : Change)
  | mappings

/-- The change of the mount table. -/
def OtherMove.changed : OtherMove → Option Change
  | .change c => some c
  | .mappings => none

/-- A mount that succeeded stands on the directory its path leads to. -/
def mountChange : PartitionCmd → Answer → Option Change
  | .mount o device path, a =>
      if a.success then some (.mount ⟨device, resolve path, o.flags.contains "ro"⟩) else none
  | _, _ => none

/-- An unmount that succeeded took the newest mount on the directory off. -/
def unmountChange : ZvolCmd → Answer → Option Change
  | .umount path, a => if a.success then some (.takeOff (resolve path)) else none
  | _, _ => none

/-- `dmsetup` says only of a mapping on a zvol that it is on one. -/
def DepsRight (w : RestoreHost) : PartitionCmd → Answer → Prop
  | .deps name, a => a.success = true → mentionsZd false a.stdout = true → name ∈ w.onZvol
  | _, _ => True

def partitionEnv : Env RestoreHost PartitionCmd Answer OtherMove where
  respond w q a w' := DepsRight w q a ∧ w'.mounts = applied (mountChange q a) w.mounts
  move w m w' := w'.mounts = applied m.changed w.mounts

def unmountEnv : Env RestoreHost ZvolCmd Answer OtherMove where
  respond w q a w' := w'.mounts = applied (unmountChange q a) w.mounts
  move w m w' := w'.mounts = applied m.changed w.mounts

/-! ## Names and paths -/

section Names

variable {name path : Str}

theorem startsWith_append_drop {s start : Str} (h : startsWith s start = true) :
    s = start ++ s.drop start.length := by
  obtain ⟨rest, rfl⟩ := List.isPrefixOf_iff_prefix.mp h
  rw [List.drop_left]

/-- `$` matches before a newline at the end. -/
theorem atDollar_newline {p : Str → Bool} {s : Str} (h : p s = true) : atDollar p (s ++ ['\n']) = true := by
  unfold atDollar
  rw [List.reverse_append]
  show (_ || p s.reverse.reverse) = true
  rw [List.reverse_reverse, h, Bool.or_true]

theorem plain_of_isMapperName (h : isMapperName name = true) : name ≠ [] ∧ '/' ∉ name := by
  have hchar : ∀ {n : Str}, (decide (n ≠ []) && n.all isMapperChar) = true → n ≠ [] ∧ '/' ∉ n := by
    intro n hn
    rw [Bool.and_eq_true, decide_eq_true_eq, List.all_eq_true] at hn
    exact ⟨hn.1, fun hslash => absurd (hn.2 _ hslash) (by decide)⟩
  rcases atDollar_cases h with hname | ⟨n, rfl, hn⟩
  · exact hchar hname
  · refine ⟨by simp, fun hslash => ?_⟩
    rcases List.mem_append.mp hslash with hslash | hslash
    · exact (hchar hn).2 hslash
    · exact absurd (List.mem_singleton.mp hslash) (by decide)

/-- The mount paths are the paths of the mapper names. -/
theorem isMountPath_iff : isMountPath path = true ↔
    ∃ name, isMapperName name = true ∧ path = partitionPath name := by
  have hbase : mountBase ++ ("/" : Str) = mountBase ++ ['/'] := rfl
  have hpath : ∀ n, partitionPath n = (mountBase ++ ("/" : Str)) ++ n := by
    intro n
    rw [partitionPath, hbase, List.append_assoc, List.singleton_append]
  have hstart : ∀ n, startsWith ((mountBase ++ ("/" : Str)) ++ n) (mountBase ++ ("/" : Str)) = true :=
    fun n => List.isPrefixOf_iff_prefix.mpr (List.prefix_append _ _)
  constructor
  · intro h
    rcases atDollar_cases h with hall | ⟨t, rfl, ht⟩
    · rw [Bool.and_assoc, Bool.and_eq_true] at hall
      refine ⟨_, atDollar_of_eq_true hall.2, ?_⟩
      rw [hpath]
      exact startsWith_append_drop hall.1
    · rw [Bool.and_assoc, Bool.and_eq_true] at ht
      refine ⟨t.drop (mountBase ++ ("/" : Str)).length ++ ['\n'], ?_, ?_⟩
      · exact atDollar_newline ht.2
      · rw [hpath, ← List.append_assoc, ← startsWith_append_drop ht.1]
  · rintro ⟨name, hname, rfl⟩
    rw [hpath]
    rcases atDollar_cases hname with hall | ⟨n, rfl, hn⟩
    · refine atDollar_of_eq_true ?_
      dsimp only
      rw [hstart, List.drop_left, Bool.true_and]
      exact hall
    · rw [← List.append_assoc]
      refine atDollar_newline ?_
      dsimp only
      rw [hstart, List.drop_left, Bool.true_and]
      exact hn

/-- A directory right below the one for restores. -/
def BelowBase (target : List Str) : Prop := ∃ name, target = resolve mountBase ++ [name]

theorem resolve_partitionPath (hname : isMapperName name = true) (hdot : name ≠ ".") (hdots : name ≠ "..") :
    resolve (partitionPath name) = resolve mountBase ++ [name] := by
  obtain ⟨hne, hslash⟩ := plain_of_isMapperName hname
  exact resolve_child hslash hne hdot hdots

theorem device_eq {device : Str} (h : isMapperName (mapperName device) = true) :
    device = mapperDir ++ mapperName device := by
  have hne := (plain_of_isMapperName h).1
  unfold mapperName at hne ⊢
  split_ifs at hne ⊢ with hstart
  · exact startsWith_append_drop hstart
  · exact absurd rfl hne

end Names

/-! ## A run of the mount -/

theorem readOnly_of_attempts {fstype : Str} {o : MountOptions} (ho : o ∈ attempts fstype) :
    o.flags.contains "ro" = true := by
  unfold attempts at ho
  split_ifs at ho <;> (revert o; decide)

/-- A run of a mount without a mount, or with the one mount that it returns. -/
def Settles (device path fstype : Str) (h : History PartitionCmd Answer)
    (o : Except Empty (Except Str MountedPartition)) : Prop :=
  (∃ e, o = .ok (.error e) ∧ ∀ t, replay mountChange h t = t) ∨
    ∃ cmd, o = .ok (.ok ⟨path, device, fstype, cmd⟩) ∧
      ∀ t, replay mountChange h t = ⟨device, resolve path, true⟩ :: t

section Run

variable {device path fstype : Str} {h : History PartitionCmd Answer}
  {o : Except Empty (Except Str MountedPartition)}

theorem run_tryMounts {os : List MountOptions} {lastErr : Str}
    (hos : ∀ m ∈ os, m.flags.contains "ro" = true)
    (hrun : (tryMounts device path fstype os lastErr).Run h o) : Settles device path fstype h o := by
  induction os generalizing lastErr h with
  | nil =>
    obtain ⟨a, rest, rfl, hrest⟩ := Prog.run_ask.mp hrun
    obtain ⟨rfl, rfl⟩ := Prog.run_ret.mp hrest
    exact .inl ⟨_, rfl, fun t => rfl⟩
  | cons m os ih =>
    obtain ⟨a, rest, rfl, hrest⟩ := Prog.run_ask.mp hrun
    by_cases ha : a.success = true
    · have hret := (congrArg (fun p => Prog.Run p rest o) (if_pos ha)).mp hrest
      obtain ⟨rfl, rfl⟩ := Prog.run_ret.mp hret
      refine .inr ⟨_, rfl, fun t => ?_⟩
      rw [replay_cons, mountChange, if_pos ha, hos m List.mem_cons_self]
      rfl
    · have hnext := (congrArg (fun p => Prog.Run p rest o) (if_neg ha)).mp hrest
      have hstep : ∀ t, replay mountChange ((.mount m device path, a) :: rest) t =
          replay mountChange rest t := by
        intro t
        rw [replay_cons, mountChange, if_neg ha]
        rfl
      unfold Settles
      simp only [hstep]
      exact ih (fun m' hm' => hos m' (List.mem_cons_of_mem _ hm')) hnext

theorem run_mountPartition (hrun : (mountPartition device path fstype).Run h o) :
    Settles device path fstype h o := by
  have htry : ∀ {rest o}, (tryMounts device path fstype (attempts fstype) []).Run rest o →
      Settles device path fstype rest o := fun hrun => run_tryMounts (fun m hm => readOnly_of_attempts hm) hrun
  obtain ⟨a, rest, rfl, hrest⟩ := Prog.run_ask.mp hrun
  change Prog.Run (if (!a.success) = true then _ else _) rest o at hrest
  change Settles device path fstype rest o
  split_ifs at hrest with hmade hntfs
  · obtain ⟨rfl, rfl⟩ := Prog.run_ret.mp hrest
    exact .inl ⟨_, rfl, fun t => rfl⟩
  · obtain ⟨b, later, rfl, hlater⟩ := Prog.run_ask.mp hrest
    change Prog.Run (if (!b.success || decide (strip b.stdout = [])) = true then _ else _) later o at hlater
    change Settles device path fstype later o
    split_ifs at hlater with hfound
    · obtain ⟨c, last, rfl, hlast⟩ := Prog.run_ask.mp hlater
      obtain ⟨rfl, rfl⟩ := Prog.run_ret.mp hlast
      exact .inl ⟨_, rfl, fun t => rfl⟩
    · exact htry hlater
  · exact htry hrest

/-- A run of `zvol_partition_mount` that mounts has asked `dmsetup` first. -/
theorem run_zvolPartitionMount (hrun : (zvolPartitionMount device fstype).Run h o) :
    Settles device (partitionPath (mapperName device)) fstype h o ∧
      ∀ p, o = .ok (.ok p) → isMapperName (mapperName device) = true ∧ ∃ a rest,
        h = (.deps (mapperName device), a) :: rest ∧ a.success = true ∧
          mentionsZd false a.stdout = true := by
  unfold zvolPartitionMount at hrun
  dsimp only at hrun
  by_cases hname : isMapperName (mapperName device) = true
  · rw [if_neg (by simp [hname]), isZvolBacked, if_neg (by simp [hname])] at hrun
    obtain ⟨a, rest, rfl, hrest⟩ := Prog.run_ask.mp hrun
    change Prog.Run (if (!(a.success && mentionsZd false a.stdout)) = true then _ else _) rest o at hrest
    by_cases ha : (a.success && mentionsZd false a.stdout) = true
    · rw [if_neg (by simpa using ha)] at hrest
      rw [Bool.and_eq_true] at ha
      have hsettles : Settles device (partitionPath (mapperName device)) fstype rest o :=
        run_mountPartition hrest
      exact ⟨hsettles, fun p _ => ⟨hname, a, rest, rfl, ha⟩⟩
    · rw [if_pos (by rw [eq_false_of_ne_true ha]; rfl)] at hrest
      obtain ⟨rfl, rfl⟩ := Prog.run_ret.mp hrest
      exact ⟨.inl ⟨_, rfl, fun t => rfl⟩, fun p hp => by cases hp⟩
  · rw [if_pos (by simpa using hname)] at hrun
    obtain ⟨rfl, rfl⟩ := Prog.run_ret.mp hrun
    exact ⟨.inl ⟨_, rfl, fun t => rfl⟩, fun p hp => by cases hp⟩

end Run

/-! ## A run of the unmount -/

/-- `zvol_unmount` takes the device: none, or one of a snapshot. -/
def TakesDevice (zvolDev : Str) : Prop := strip zvolDev = [] ∨ isZvolDev (strip zvolDev) = true

/-- `zvol_unmount` takes the mount path. -/
def TakesPath (mountPath : Str) : Prop := mountPath = [] ∨ isMountPath mountPath = true

/-- No change of the mount table. -/
def KeepsMounts (q : ZvolCmd) : Prop := ∀ a, unmountChange q a = none

theorem uses_removeMappings_keeps (zvolDev : Str) : (removeMappings zvolDev).Uses KeepsMounts := by
  unfold removeMappings
  rw [zvolBackedMappings_eq]
  refine ⟨fun _ => rfl, fun _ => ⟨fun _ => rfl, fun a => ?_⟩⟩
  show Prog.Uses KeepsMounts (removeNamed _ >>= _)
  exact Prog.Uses.bind (uses_removeNamed fun n _ _ => rfl) (fun _ => ⟨fun _ => rfl, fun _ => trivial⟩)

theorem replay_of_uses {α : Type} {p : ZvolJob α} {h : History ZvolCmd Answer} {o : Except Empty α}
    (hp : p.Uses KeepsMounts) (hrun : p.Run h o) (t : MountTable) : replay unmountChange h t = t :=
  replay_of_none fun qa hqa => hp.sound hrun qa hqa qa.2

theorem zvolUnmount_refused {mountPath zvolDev : Str} (h : ¬ (TakesPath mountPath ∧ TakesDevice zvolDev)) :
    ∃ e, zvolUnmount mountPath zvolDev = .ret (refused e) := by
  unfold zvolUnmount
  dsimp only
  by_cases hpath : (mountPath ≠ [] && !isMountPath mountPath) = true
  · exact ⟨_, if_pos hpath⟩
  · have htakes : TakesPath mountPath := by
      unfold TakesPath
      by_cases hnil : mountPath = []
      · exact .inl hnil
      · right
        simpa [hnil] using hpath
    rw [if_neg hpath, if_pos]
    · exact ⟨_, rfl⟩
    · obtain ⟨hne, hdev⟩ := not_or.mp fun hdev => h ⟨htakes, hdev⟩
      rw [decide_eq_true hne, eq_false_of_ne_true hdev]
      rfl

theorem zvolUnmount_accepted {mountPath zvolDev : Str} (hpath : TakesPath mountPath)
    (hdev : TakesDevice zvolDev) : zvolUnmount mountPath zvolDev = (do
      let errors ← (if mountPath ≠ [] then unmountPath mountPath else pure [])
      let _ ← (if strip zvolDev ≠ [] then removeMappings (strip zvolDev) else pure ())
      return { success := errors.isEmpty, errors := errors }) := by
  unfold zvolUnmount
  dsimp only
  rw [if_neg, if_neg]
  · rcases hdev with hdev | hdev <;> simp [hdev]
  · rcases hpath with hpath | hpath <;> simp [hpath]

/-- A run of `zvol_unmount` for a path: it takes the newest mount there off or
changes no mount, and the result says which.  What it takes it tries. -/
theorem run_zvolUnmount {mountPath zvolDev : Str} {h : History ZvolCmd Answer}
    {o : Except Empty UnmountResult} (hne : mountPath ≠ []) (hrun : (zvolUnmount mountPath zvolDev).Run h o) :
    ∃ u, o = .ok u ∧ (u.error = none ↔ TakesPath mountPath ∧ TakesDevice zvolDev) ∧
      (u.success = true → u.error = none) ∧
      (u.error = none → ∃ a, (.umount mountPath, a) ∈ h ∧ u.success = a.success) ∧
      ∀ t, replay unmountChange h t =
        if u.success then (Change.takeOff (resolve mountPath)).apply t else t := by
  by_cases htakes : TakesPath mountPath ∧ TakesDevice zvolDev
  · rw [zvolUnmount_accepted htakes.1 htakes.2, if_pos hne] at hrun
    rcases Prog.run_bind.mp hrun with ⟨h₁, h₂, errors, rfl, hpath, hrest⟩ | ⟨e, -, -⟩
    · rcases Prog.run_bind.mp hrest with ⟨h₃, h₄, _, rfl, hremove, hret⟩ | ⟨e, -, -⟩
      · obtain ⟨rfl, rfl⟩ := Prog.run_ret.mp hret
        obtain ⟨a, h₅, rfl, hrmdir⟩ := Prog.run_ask.mp hpath
        obtain ⟨b, h₆, rfl, herrors⟩ := Prog.run_ask.mp hrmdir
        obtain ⟨rfl, hvalue⟩ := Prog.run_ret.mp herrors
        have hkeeps : ∀ t, replay unmountChange h₃ t = t := by
          refine replay_of_uses ?_ hremove
          split_ifs
          · exact uses_removeMappings_keeps _
          · trivial
        rw [Except.ok.inj hvalue]
        refine ⟨_, rfl, iff_of_true rfl htakes, fun _ => rfl, fun _ => ⟨a, by simp, ?_⟩, fun t => ?_⟩
        · cases ha : a.success <;> simp
        · by_cases ha : a.success = true <;> simp [unmountChange, applied, hkeeps, ha]
      · exact e.elim
    · exact e.elim
  · obtain ⟨e, he⟩ := zvolUnmount_refused htakes
    rw [he] at hrun
    obtain ⟨rfl, rfl⟩ := Prog.run_ret.mp hrun
    exact ⟨_, rfl, iff_of_false (by simp [refused]) htakes, by simp [refused], by simp [refused],
      fun t => rfl⟩

/-! ## Mounting and taking back -/

/-- The directory that a device is mounted on. -/
def restoreTarget (device : Str) : List Str := resolve (partitionPath (mapperName device))

abbrev MountRun (device fstype : Str) := Execution partitionEnv (zvolPartitionMount device fstype)

abbrev UnmountRun (mountPath zvolDev : Str) := Execution unmountEnv (zvolUnmount mountPath zvolDev)

/-- The partition is a mapping that sat on a zvol when that was asked, and it is
mounted read-only on its own directory, over what was there before. -/
structure MountsPartition {device fstype : Str} (X : MountRun device fstype) (p : MountedPartition) : Prop where
  device_eq : device = mapperDir ++ mapperName device
  path_eq : p.mountPath = partitionPath (mapperName device)
  below : BelowBase (restoreTarget device)
  onZvol : ∃ t₁ a w t₂, X.trail = t₁ ++ (.request (.deps (mapperName device)) a, w) :: t₂ ∧
    mapperName device ∈ (stateAfter X.before t₁).onZvol
  mounted : mountsAt (restoreTarget device) X.after.mounts =
    ⟨device, restoreTarget device, true⟩ :: mountsAt (restoreTarget device) X.before.mounts

/-- An unmount of the returned path takes the partition off again, and leaves
it when it does not succeed. -/
def TakesPartitionBack {device fstype : Str} (X : MountRun device fstype) (p : MountedPartition) : Prop :=
  ∀ zvolDev (Y : UnmountRun p.mountPath zvolDev),
    KeepAway OtherMove.changed (restoreTarget device) Y.trail →
    mountsAt (restoreTarget device) Y.before.mounts = mountsAt (restoreTarget device) X.after.mounts →
    ∃ u, Y.outcome = .ok u ∧ (u.error = none ↔ TakesDevice zvolDev) ∧
      mountsAt (restoreTarget device) Y.after.mounts = mountsAt (restoreTarget device)
        (if u.success then X.before.mounts else X.after.mounts)

section Runs

variable {device fstype mountPath zvolDev : Str} {target : List Str}

theorem mountsAt_mountRun (X : MountRun device fstype) (hquiet : KeepAway OtherMove.changed target X.trail) :
    mountsAt target X.after.mounts =
      mountsAt target (replay mountChange (answered X.trail) X.before.mounts) :=
  mountsAt_path (fun w q a w' (h : partitionEnv.respond w q a w') => h.2)
    (fun w m w' (h : partitionEnv.move w m w') => h) X.path hquiet

theorem mountsAt_unmountRun (Y : UnmountRun mountPath zvolDev)
    (hquiet : KeepAway OtherMove.changed target Y.trail) : mountsAt target Y.after.mounts =
      mountsAt target (replay unmountChange (answered Y.trail) Y.before.mounts) :=
  mountsAt_path (fun w q a w' (h : unmountEnv.respond w q a w') => h)
    (fun w m w' (h : unmountEnv.move w m w') => h) Y.path hquiet

/-- The other directories stay as they are. -/
theorem mountRun_kept (X : MountRun device fstype) (hne : target ≠ restoreTarget device)
    (hquiet : KeepAway OtherMove.changed target X.trail) :
    mountsAt target X.after.mounts = mountsAt target X.before.mounts := by
  rw [mountsAt_mountRun X hquiet]
  rcases (run_zvolPartitionMount X.drives).1 with ⟨e, -, hreplay⟩ | ⟨cmd, -, hreplay⟩
  · rw [hreplay]
  · rw [hreplay, mountsAt_cons]
    exact if_neg hne.symm

theorem takesPartitionBack {X : MountRun device fstype} {p : MountedPartition}
    (h : MountsPartition X p) (hname : isMapperName (mapperName device) = true) :
    TakesPartitionBack X p := by
  intro zvolDev Y hquiet hstart
  have hpath : isMountPath p.mountPath = true := isMountPath_iff.mpr ⟨_, hname, h.path_eq⟩
  have hne : p.mountPath ≠ [] := by
    rw [h.path_eq]
    exact List.append_ne_nil_of_right_ne_nil _ (List.cons_ne_nil _ _)
  obtain ⟨u, hout, herror, -, -, hreplay⟩ := run_zvolUnmount hne Y.drives
  refine ⟨u, hout, herror.trans (and_iff_right (.inr hpath)), ?_⟩
  have htarget : resolve p.mountPath = restoreTarget device := congrArg resolve h.path_eq
  rw [mountsAt_unmountRun Y hquiet, hreplay]
  by_cases hsuccess : u.success = true
  · rw [if_pos hsuccess, if_pos hsuccess, htarget]
    exact mountsAt_takeOff.trans (by rw [hstart, h.mounted]; rfl)
  · rw [if_neg hsuccess, if_neg hsuccess, hstart]

end Runs

/-- A partition of a disk that has been mounted, with nobody else on the host. -/
def nightlyMount : MountRun "/dev/mapper/vm-100-disk-0@nightly1" "ext4" :=
  let host (mounts : MountTable) : RestoreHost :=
    { mounts := mounts
      onZvol := ["vm-100-disk-0@nightly1"]
      named := by decide }
  let path : Str := "/tmp/zfs-tool-zvol-restore/vm-100-disk-0@nightly1"
  let mount : PartitionCmd :=
    .mount ⟨none, ["ro", "norecovery"]⟩ "/dev/mapper/vm-100-disk-0@nightly1" path
  let done : Answer := ⟨true, [], []⟩
  { before := host []
    trail :=
      [(.request (.deps "vm-100-disk-0@nightly1") ⟨true, "1 dependencies  : (zd16)\n", []⟩, host []),
        (.request (.mkdir path) done, host []),
        (.request mount done, host (applied (mountChange mount done) []))]
    after := host (applied (mountChange mount done) [])
    outcome := .ok (.ok ⟨path, "/dev/mapper/vm-100-disk-0@nightly1", "ext4", mount.text⟩)
    path := ⟨⟨fun _ _ => List.mem_singleton.mpr rfl, rfl⟩, ⟨trivial, rfl⟩, ⟨trivial, rfl⟩, rfl⟩
    drives := @Prog.run_of_transcript _ _ _ _ _ [⟨true, "1 dependencies  : (zd16)\n", []⟩, done, done] _ _ rfl }

section BelowBase

variable {mountPath zvolDev : Str}

theorem resolve_mountBase : resolve mountBase = ["tmp", "zfs-tool-zvol-restore"] := by decide

theorem not_belowBase_dots (h : mountPath = partitionPath "." ∨ mountPath = partitionPath "..") :
    isMountPath mountPath = true ∧ ¬ BelowBase (resolve mountPath) := by
  have hlength : ∀ p : Str, (resolve p).length ≤ 2 → ¬ BelowBase (resolve p) := by
    rintro p hle ⟨name, hname⟩
    rw [hname, resolve_mountBase] at hle
    exact absurd hle (by simp)
  rcases h with rfl | rfl
  · exact ⟨by decide, hlength _ (by decide)⟩
  · exact ⟨by decide, hlength _ (by decide)⟩

/-- Without a mount path nothing is unmounted. -/
theorem uses_zvolUnmount_nil : (zvolUnmount [] zvolDev).Uses KeepsMounts := by
  unfold zvolUnmount
  dsimp only
  split_ifs with hpath hdev hne hdev' hdev'
  · trivial
  · trivial
  · exact absurd rfl hne
  · exact absurd rfl hne
  · rw [Prog.pure_eq, Prog.ret_bind]
    exact Prog.Uses.bind (uses_removeMappings_keeps _) fun _ => trivial
  · trivial

/-- Every request succeeds. -/
def succeeding (w : RestoreHost) (q : ZvolCmd) : Answer × RestoreHost :=
  (⟨true, [], []⟩, { w with mounts := applied (unmountChange q ⟨true, [], []⟩) w.mounts })

/-- `zvol_unmount` leaves every mount outside of the restore directory alone, in
every run, exactly when it does not take the device or the last part of the mount
path is neither `.` nor `..`, which its check lets through. -/
theorem unmount_below_base_iff (mountPath zvolDev : Str) :
    (∀ (Y : UnmountRun mountPath zvolDev) target, ¬ BelowBase target →
        KeepAway OtherMove.changed target Y.trail →
        mountsAt target Y.after.mounts = mountsAt target Y.before.mounts) ↔
      (TakesDevice zvolDev → mountPath ≠ partitionPath "." ∧ mountPath ≠ partitionPath "..") := by
  constructor
  · intro hkept hdev
    rw [← not_or]
    intro hdots
    obtain ⟨hpath, houtside⟩ := not_belowBase_dots hdots
    have hne : mountPath ≠ [] := by
      rintro rfl
      cases hpath
    obtain ⟨Y, hbefore, hmoves, hanswers⟩ := exists_undisturbed
      (fun w q => show unmountEnv.respond w q (succeeding w q).1 (succeeding w q).2 from rfl)
      (zvolUnmount mountPath zvolDev) ⟨[⟨"tmpfs", resolve mountPath, false⟩], [], fun _ hn => by cases hn⟩
    have hquiet : KeepAway OtherMove.changed (resolve mountPath) Y.trail := by
      rw [KeepAway, hmoves]
      exact fun m hm => by cases hm
    obtain ⟨u, -, herror, -, htried, hreplay⟩ := run_zvolUnmount hne Y.drives
    obtain ⟨a, hmem, hsuccess⟩ := htried (herror.mpr ⟨.inr hpath, hdev⟩)
    obtain ⟨w, hanswer⟩ := hanswers _ hmem
    have htrue : u.success = true := hsuccess.trans (congrArg Answer.success hanswer)
    have hsame := hkept Y _ houtside hquiet
    rw [mountsAt_unmountRun Y hquiet, hreplay, if_pos htrue, hbefore] at hsame
    have hempty : mountsAt (resolve mountPath)
        ((Change.takeOff (resolve mountPath)).apply [⟨"tmpfs", resolve mountPath, false⟩]) = [] := by
      refine mountsAt_takeOff.trans ?_
      rw [mountsAt_cons, if_pos rfl]
      rfl
    rw [hempty, mountsAt_cons, if_pos rfl] at hsame
    cases hsame
  · intro hdots Y target houtside hquiet
    rw [mountsAt_unmountRun Y hquiet]
    by_cases hne : mountPath = []
    · subst hne
      rw [replay_of_uses uses_zvolUnmount_nil Y.drives]
    · obtain ⟨u, -, herror, hok, -, hreplay⟩ := run_zvolUnmount hne Y.drives
      rw [hreplay]
      by_cases hsuccess : u.success = true
      · obtain ⟨hpath, hdev⟩ := herror.mp (hok hsuccess)
        obtain ⟨name, hname, rfl⟩ := isMountPath_iff.mp (hpath.resolve_left hne)
        obtain ⟨hdot, hdots⟩ := hdots hdev
        have hresolve := resolve_partitionPath hname (fun h => hdot (congrArg partitionPath h))
          (fun h => hdots (congrArg partitionPath h))
        rw [if_pos hsuccess]
        refine mountsAt_apply_of_ne fun htarget => houtside ⟨name, ?_⟩
        rw [← hresolve]
        exact htarget.symm
      · rw [if_neg hsuccess]

end BelowBase

end PveZfsTool.Zvol
