import PveZfsTool.Host
import PveZfsTool.Lib.Environment
import PveZfsTool.Lib.LineFile
import PveZfsTool.Lib.Strip
import PveZfsTool.Lib.Words
import PveZfsTool.Zfs.Snapshots

/-!
# Unmounting a snapshot of a volume

`zvol_unmount` of `zfs_commands.py` takes off the mappings that `kpartx` has
made of a zvol snapshot.  What `kpartx -d` leaves it finds by name, among the
mappings that sit on a zvol, and then it hides the snapshots of the volume.

`hostEnv` says what the commands do: `kpartx -d` removes mappings of its own
device only, `dmsetup remove` removes the mapping of that name or fails, and
hiding takes the devices of the volume away, apart from some that are in use.
The cache of the tool is left out.

* `uses_unmount`: what an unmount may ask for.
* `othersKept_iff`: the other snapshots stay as they are, in every run, exactly
  when none of them is of the same volume and none has a mapping that is named
  like one of this snapshot.
-/

namespace PveZfsTool.Zvol

open Dialogue Text

/-! ## Names -/

/-- `ZVOL_MOUNT_BASE` -/
def mountBase : Str := "/tmp/zfs-tool-zvol-restore"

def devBase : Str := "/dev/zvol/"

/-- `[A-Za-z0-9_.:@+-]` -/
def isMapperChar (c : Char) : Bool := isAsciiAlnum c || ("_.:@+-".toList).contains c

/-- `_MAPPER_NAME_RE` -/
def isMapperName : Str → Bool := atDollar (fun s => s ≠ [] && s.all isMapperChar)

/-- The pattern of a mount path. -/
def isMountPath : Str → Bool := atDollar fun s =>
  let name := s.drop (mountBase ++ "/").length
  startsWith s (mountBase ++ "/") && name ≠ [] && name.all isMapperChar

def isVolumeChar (c : Char) : Bool := isAsciiAlnum c || ("_.:/-".toList).contains c

def isLabelChar (c : Char) : Bool := isAsciiAlnum c || ("_.:-".toList).contains c

/-- `_ZVOL_DEV_RE` -/
def isZvolDev : Str → Bool := atDollar fun s =>
  let name := s.drop devBase.length
  startsWith s devBase && name.contains '@' &&
    (beforeFirst '@' name ≠ [] && (beforeFirst '@' name).all isVolumeChar) &&
    (afterFirst '@' name ≠ [] && (afterFirst '@' name).all isLabelChar)

/-- `^p?\d+$` -/
def isPartition : Str → Bool := atDollar fun s =>
  match s with
  | 'p' :: digits => digits ≠ [] && digits.all isDecimal
  | digits => digits ≠ [] && digits.all isDecimal

/-- `snap_part` of a device: the last part of its path. -/
def leaf (device : Str) : Str := afterLast '/' device

/-- `ds_name` of a device: the volume. -/
def volume (device : Str) : Str := beforeLast '@' device

/-- The mapping counts as one of the device, by its name. -/
def namedLike (device name : Str) : Bool :=
  startsWith name (leaf device) && isPartition (name.drop (leaf device).length)

/-! ## The unmount -/

inductive ZvolCmd where
  | umount (path : Str)
  | rmdir (path : Str)
  | kpartxRemove (dev : Str)
  /-- `_ZVOL_BACKED_MAPPINGS_SH` -/
  | listMappings
  | dmsetupRemove (name : Str)
  | hideSnapdev (dataset : Str)
  deriving DecidableEq

def ZvolCmd.text : ZvolCmd → Str
  | .umount path => "umount " ++ shlexQuote path
  | .rmdir path => "rmdir " ++ shlexQuote path ++ " 2>/dev/null"
  | .kpartxRemove dev => "kpartx -d " ++ shlexQuote dev ++ " 2>/dev/null"
  | .listMappings =>
      "for p in /dev/mapper/*; do n=$\x7bp##*/\x7d; [ \"$n\" = control ] && continue; " ++
      "d=$(dmsetup deps -o devname \"$n\" 2>/dev/null); " ++
      "case \"$d\" in *zd[0-9]*) echo \"$n\";; esac; done"
  | .dmsetupRemove name => "dmsetup remove " ++ shlexQuote name ++ " 2>/dev/null"
  | .hideSnapdev dataset => "zfs set snapdev=hidden " ++ shlexQuote dataset

abbrev ZvolJob (α : Type) := Prog ZvolCmd Answer Empty α

structure UnmountResult where
  success : Bool
  errors : List Str := []
  error : Option Str := none
  deriving DecidableEq

def refused (error : Str) : UnmountResult := { success := false, error := some error }

/-- `_zvol_backed_mappings` -/
def zvolBackedMappings : ZvolJob (List Str) := do
  let r ← Prog.issue .listMappings
  if !r.success then return []
  else return ((splitLines r.stdout).map strip).filter (fun l => l ≠ [] && isMapperName l)

/-- The loop over the leftover mappings. -/
def removeNamed : List Str → ZvolJob Unit
  | [] => return ()
  | name :: names => do
      let _ ← Prog.issue (.dmsetupRemove name)
      removeNamed names

/-- The mappings of a device, and the devices of its volume. -/
def removeMappings (zvolDev : Str) : ZvolJob Unit := do
  let _ ← Prog.issue (.kpartxRemove zvolDev)
  let device := zvolDev.drop devBase.length
  let names ← zvolBackedMappings
  removeNamed (names.filter (namedLike device))
  let _ ← Prog.issue (.hideSnapdev (volume device))
  return ()

/-- `umount` and `rmdir`, with the errors. -/
def unmountPath (path : Str) : ZvolJob (List Str) := do
  let r ← Prog.issue (.umount path)
  let _ ← Prog.issue (.rmdir path)
  return if r.success then [] else ["umount: " ++ r.stderr]

/-- `zvol_unmount` -/
def zvolUnmount (mountPath zvolDev : Str) : ZvolJob UnmountResult :=
  if mountPath ≠ [] && !isMountPath mountPath then
    return refused "Invalid mount path -- must be <zvol restore base>/<mapping>"
  else
    let zvolDev := strip zvolDev
    if zvolDev ≠ [] && !isZvolDev zvolDev then
      return refused "Invalid zvol device -- expected /dev/zvol/<pool>/<dataset>@<snapshot>"
    else do
      let errors ← (if mountPath ≠ [] then unmountPath mountPath else pure [])
      let _ ← (if zvolDev ≠ [] then removeMappings zvolDev else pure ())
      return { success := errors.isEmpty, errors := errors }

/-! ## The host -/

/-- A mapping on a zvol device, which is named by its path under `/dev/zvol`. -/
structure Mapping where
  name : Str
  device : Str
  deriving DecidableEq

/-- The mappings on zvols and the devices of the visible snapshots. -/
structure ZvolWorld where
  mappings : List Mapping
  devices : List Str

/-- The world without the mappings that go. -/
def ZvolWorld.without (w : ZvolWorld) (gone : Mapping → Bool) : ZvolWorld :=
  { w with mappings := w.mappings.filter (fun m => !gone m) }

/-- The world without the devices of a volume, but those that are kept. -/
def ZvolWorld.hide (w : ZvolWorld) (dataset : Str) (kept : Str → Bool) : ZvolWorld :=
  { w with devices := w.devices.filter (fun d => volume d ≠ dataset || kept d) }

def hostRespond (w : ZvolWorld) : ZvolCmd → Answer → ZvolWorld → Prop
  | .umount _, _, w' => w' = w
  | .rmdir _, _, w' => w' = w
  | .kpartxRemove dev, _, w' =>
      ∃ gone, (∀ m, gone m = true → devBase ++ m.device = dev) ∧ w' = w.without gone
  | .listMappings, a, w' =>
      (a.success = true → a.stdout = unlines (w.mappings.map Mapping.name)) ∧ w' = w
  | .dmsetupRemove name, a, w' => w' = if a.success then w.without (fun m => m.name = name) else w
  | .hideSnapdev dataset, a, w' =>
      ∃ kept, (∀ d, kept d = true → ∃ m ∈ w.mappings, m.device = d) ∧
        w' = if a.success then w.hide dataset kept else w

def hostEnv : Env ZvolWorld ZvolCmd Answer Empty where
  respond := hostRespond
  move _ m _ := m.elim

/-- The exposed snapshots of a host, one of which is unmounted.  `kpartx` names
a mapping after the last part of the path, and `udev` writes no whitespace into
a device name. -/
structure Exposed where
  world : ZvolWorld
  snapshot : Str
  mountPath : Str
  visible : ∀ m ∈ world.mappings, m.device ∈ world.devices
  named : ∀ m ∈ world.mappings, ∃ n,
    m.name = leaf m.device ++ ofNat n ∨ m.name = leaf m.device ++ 'p' :: ofNat n
  distinct : (world.mappings.map Mapping.name).Nodup
  plain : ∀ d ∈ snapshot :: world.devices, IsWordText d

namespace Exposed

variable (E : Exposed)

def unmount : ZvolJob UnmountResult := zvolUnmount E.mountPath (devBase ++ E.snapshot)

/-- In every run the mappings and the devices of the other snapshots stay. -/
def OthersKept : Prop :=
  ∀ X : Execution hostEnv E.unmount, X.before = E.world →
    (∀ m ∈ E.world.mappings, m.device ≠ E.snapshot → m ∈ X.after.mappings) ∧
      ∀ d ∈ E.world.devices, d ≠ E.snapshot → d ∈ X.after.devices

/-- `zvol_unmount` takes the mount path and the device. -/
def Accepted : Prop :=
  (E.mountPath = [] ∨ isMountPath E.mountPath = true) ∧ isZvolDev (devBase ++ E.snapshot) = true

/-- No mapping of another snapshot is named like one of this snapshot, and no
other snapshot is of the same volume. -/
def Apart : Prop :=
  (∀ m ∈ E.world.mappings, m.device ≠ E.snapshot →
      isMapperName m.name = true → namedLike E.snapshot m.name = false) ∧
    ∀ d ∈ E.world.devices, d ≠ E.snapshot → volume d ≠ volume E.snapshot

end Exposed

/-! ## What an unmount asks for -/

/-- Anything that is no removal, the removal of what belongs to the device or is
named like it, and the hiding of its volume. -/
def Allowed (device : Str) : ZvolCmd → Prop
  | .kpartxRemove dev => dev = devBase ++ device
  | .dmsetupRemove name => isMapperName name = true ∧ namedLike device name = true
  | .hideSnapdev dataset => dataset = volume device
  | _ => True

/-- The mappings that an answer lists. -/
def listed (a : Answer) : List Str :=
  if !a.success then []
  else ((splitLines a.stdout).map strip).filter (fun l => l ≠ [] && isMapperName l)

theorem zvolBackedMappings_eq :
    zvolBackedMappings = .ask .listMappings (fun a => .ret (listed a)) := by
  unfold zvolBackedMappings listed
  rw [Prog.issue_bind]
  congr 1
  funext a
  split_ifs <;> rfl

theorem isMapperName_of_listed {a : Answer} {n : Str} (h : n ∈ listed a) : isMapperName n = true := by
  unfold listed at h
  split_ifs at h
  · cases h
  · rw [List.mem_filter, Bool.and_eq_true] at h
    exact h.2.2

theorem uses_removeNamed {S : ZvolCmd → Prop} {names : List Str}
    (h : ∀ n ∈ names, S (.dmsetupRemove n)) : (removeNamed names).Uses S := by
  induction names with
  | nil => trivial
  | cons n names ih =>
    exact ⟨h n List.mem_cons_self, fun _ => ih (fun m hm => h m (List.mem_cons_of_mem _ hm))⟩

theorem removeMappings_eq (device : Str) : removeMappings (devBase ++ device) =
    .ask (.kpartxRemove (devBase ++ device)) fun _ => .ask .listMappings fun a =>
      removeNamed ((listed a).filter (namedLike device)) >>= fun _ =>
        .ask (.hideSnapdev (volume device)) fun _ => .ret () := by
  unfold removeMappings
  rw [List.drop_left, zvolBackedMappings_eq]
  rfl

theorem uses_removeMappings (device : Str) :
    (removeMappings (devBase ++ device)).Uses (Allowed device) := by
  rw [removeMappings_eq]
  refine ⟨rfl, fun _ => ⟨trivial, fun a => ?_⟩⟩
  refine Prog.Uses.bind (uses_removeNamed fun n hn => ?_) (fun _ => ⟨rfl, fun _ => trivial⟩)
  obtain ⟨hn, hlike⟩ := List.mem_filter.mp hn
  exact ⟨isMapperName_of_listed hn, hlike⟩

namespace Exposed

variable {E : Exposed}

theorem strip_dev (E : Exposed) : strip (devBase ++ E.snapshot) = devBase ++ E.snapshot := by
  apply strip_eq_self
  intro c hc
  have hbase : ∀ d ∈ devBase, isSpace d = false := by decide
  rcases List.mem_append.mp hc with hc | hc
  · exact hbase c hc
  · exact (E.plain E.snapshot List.mem_cons_self).plain c hc

theorem dev_ne_nil (E : Exposed) : devBase ++ E.snapshot ≠ [] :=
  List.append_ne_nil_of_left_ne_nil (by decide) _

/-- What is not accepted is refused without a command. -/
theorem unmount_refused (h : ¬ E.Accepted) : ∃ r, E.unmount = .ret r := by
  unfold unmount zvolUnmount
  dsimp only
  rw [strip_dev]
  by_cases hpath : (E.mountPath ≠ [] && !isMountPath E.mountPath) = true
  · exact ⟨_, if_pos hpath⟩
  · rw [if_neg hpath, if_pos]
    · exact ⟨_, rfl⟩
    · rw [Bool.and_eq_true, decide_eq_true_eq, Bool.not_eq_true', ← Bool.not_eq_true]
      refine ⟨E.dev_ne_nil, fun hdev => h ⟨?_, hdev⟩⟩
      by_cases hnil : E.mountPath = []
      · exact .inl hnil
      · right
        simpa [hnil] using hpath

theorem unmount_accepted (h : E.Accepted) : E.unmount = (do
    let errors ← (if E.mountPath ≠ [] then unmountPath E.mountPath else pure [])
    let _ ← removeMappings (devBase ++ E.snapshot)
    return { success := errors.isEmpty, errors := errors }) := by
  unfold unmount zvolUnmount
  dsimp only
  rw [strip_dev, if_neg, if_neg, if_pos E.dev_ne_nil]
  · rw [h.2]
    simp
  · rcases h.1 with hpath | hpath <;> simp [hpath]

theorem uses_unmount (E : Exposed) : E.unmount.Uses (Allowed E.snapshot) := by
  by_cases h : E.Accepted
  · rw [unmount_accepted h]
    refine Prog.Uses.bind ?_ (fun _ => Prog.Uses.bind (uses_removeMappings E.snapshot) (fun _ => trivial))
    split_ifs
    · exact ⟨trivial, fun _ => ⟨trivial, fun _ => trivial⟩⟩
    · trivial
  · obtain ⟨r, hr⟩ := unmount_refused h
    rw [hr]
    trivial

/-! ## The other snapshots -/

/-- What an unmount asks for leaves the other snapshots as they are. -/
theorem kept_of_allowed (hapart : E.Apart) {q : ZvolCmd} {a : Answer} {w w' : ZvolWorld}
    (hq : Allowed E.snapshot q) (h : hostRespond w q a w') :
    (∀ m ∈ E.world.mappings, m.device ≠ E.snapshot → m ∈ w.mappings → m ∈ w'.mappings) ∧
      ∀ d ∈ E.world.devices, d ≠ E.snapshot → d ∈ w.devices → d ∈ w'.devices := by
  cases q with
  | umount path => rw [show w' = w from h]; exact ⟨fun m _ _ hm => hm, fun d _ _ hd => hd⟩
  | rmdir path => rw [show w' = w from h]; exact ⟨fun m _ _ hm => hm, fun d _ _ hd => hd⟩
  | listMappings => rw [h.2]; exact ⟨fun m _ _ hm => hm, fun d _ _ hd => hd⟩
  | kpartxRemove dev =>
    obtain ⟨gone, hgone, rfl⟩ := h
    refine ⟨fun m _ hne hm => List.mem_filter.mpr ⟨hm, ?_⟩, fun d _ _ hd => hd⟩
    rw [Bool.not_eq_true', ← Bool.not_eq_true]
    exact fun hm => hne (List.append_cancel_left ((hgone m hm).trans hq))
  | dmsetupRemove name =>
    have hw : w' = if a.success then w.without (fun m => m.name = name) else w := h
    rw [hw]
    split_ifs
    · refine ⟨fun m hmem hne hm => List.mem_filter.mpr ⟨hm, ?_⟩, fun d _ _ hd => hd⟩
      rw [Bool.not_eq_true', decide_eq_false_iff_not]
      rintro rfl
      exact absurd hq.2 (by rw [hapart.1 m hmem hne hq.1]; decide)
    · exact ⟨fun m _ _ hm => hm, fun d _ _ hd => hd⟩
  | hideSnapdev dataset =>
    obtain ⟨kept, -, hw⟩ := h
    rw [hw]
    split_ifs
    · refine ⟨fun m _ _ hm => hm, fun d hmem hne hd => List.mem_filter.mpr ⟨hd, ?_⟩⟩
      rw [Bool.or_eq_true, decide_eq_true_eq]
      exact .inl (by rw [show dataset = volume E.snapshot from hq]; exact hapart.2 d hmem hne)
    · exact ⟨fun m _ _ hm => hm, fun d _ _ hd => hd⟩

theorem othersKept_of_apart (h : E.Apart) : E.OthersKept := by
  intro X hbefore
  have hkept := X.path.preserves (I := fun w =>
    (∀ m ∈ E.world.mappings, m.device ≠ E.snapshot → m ∈ w.mappings) ∧
      ∀ d ∈ E.world.devices, d ≠ E.snapshot → d ∈ w.devices)
    (by rw [hbefore]; exact ⟨fun m hm _ => hm, fun d hd _ => hd⟩) (fun e u hmem w hw hstep => ?_)
  · exact hkept.2
  · cases e with
    | move m => exact m.elim
    | request q a =>
      have hq : Allowed E.snapshot q :=
        X.drives.uses E.uses_unmount (mem_answered.mpr ⟨u, hmem⟩)
      obtain ⟨hmappings, hdevices⟩ := kept_of_allowed h hq hstep
      exact ⟨fun m hm hne => hmappings m hm hne (hw.1 m hm hne),
        fun d hd hne => hdevices d hd hne (hw.2 d hd hne)⟩

theorem othersKept_of_refused (h : ¬ E.Accepted) : E.OthersKept := by
  intro X hbefore
  obtain ⟨r, hr⟩ := unmount_refused h
  have hrun := (congrArg (fun p => Prog.Run p (answered X.trail) X.outcome) hr).mp X.drives
  have htrail := eq_nil_of_answered (Prog.run_ret.mp hrun).1
  have hpath := X.path
  rw [htrail, hbefore] at hpath
  rw [← show E.world = X.after from hpath]
  exact ⟨fun m hm _ => hm, fun d hd _ => hd⟩

/-! ## A host where every command succeeds -/

/-- `kpartx -d` finds nothing, and the other commands do what they are for. -/
def succeed (w : ZvolWorld) : ZvolCmd → Answer × ZvolWorld
  | .listMappings => (⟨true, unlines (w.mappings.map Mapping.name), []⟩, w)
  | .dmsetupRemove name => (⟨true, [], []⟩, w.without (fun m => m.name = name))
  | .hideSnapdev dataset => (⟨true, [], []⟩, w.hide dataset (fun _ => false))
  | _ => (⟨true, [], []⟩, w)

theorem respond_succeed (w : ZvolWorld) (q : ZvolCmd) :
    hostEnv.respond w q (succeed w q).1 (succeed w q).2 := by
  cases q with
  | umount path => exact rfl
  | rmdir path => exact rfl
  | listMappings => exact ⟨fun _ => rfl, rfl⟩
  | kpartxRemove dev =>
    refine ⟨fun _ => false, fun m hm => (by cases hm), ?_⟩
    unfold ZvolWorld.without
    simp only [Bool.not_false, List.filter_true]
    rfl
  | dmsetupRemove name => exact rfl
  | hideSnapdev dataset => exact ⟨fun _ => false, fun d hd => (by cases hd), rfl⟩

theorem without_false (w : ZvolWorld) : w.without (fun _ => false) = w := by
  unfold ZvolWorld.without
  simp only [Bool.not_false, List.filter_true]

theorem play_removeNamed (names : List Str) (w : ZvolWorld) :
    (removeNamed names).play succeed w = (.ok (), w.without (fun m => names.contains m.name)) := by
  induction names generalizing w with
  | nil =>
    have hnone : (fun m : Mapping => ([] : List Str).contains m.name) = fun _ => false := rfl
    rw [hnone, without_false]
    rfl
  | cons n names ih =>
    show (removeNamed names).play succeed (w.without (fun m => m.name = n)) = _
    rw [ih]
    unfold ZvolWorld.without
    dsimp only
    rw [List.filter_filter]
    congr 2
    refine List.filter_congr (fun m _ => ?_)
    rw [List.contains_cons, Bool.not_or, Bool.and_comm]
    by_cases h : m.name = n <;> simp [h]

theorem isWordText_name (E : Exposed) {m : Mapping} (hm : m ∈ E.world.mappings) : IsWordText m.name := by
  have hleaf : ∀ c ∈ leaf m.device, isSpace c = false := by
    intro c hc
    apply (E.plain m.device (List.mem_cons_of_mem _ (E.visible m hm))).plain c
    exact List.mem_reverse.mp ((List.takeWhile_prefix _).subset (List.mem_reverse.mp hc))
  obtain ⟨n, hname | hname⟩ := E.named m hm
  · rw [hname]
    refine ⟨List.append_ne_nil_of_right_ne_nil _ isWordText_ofNat.nonempty, fun c hc => ?_⟩
    rcases List.mem_append.mp hc with hc | hc
    · exact hleaf c hc
    · exact isWordText_ofNat.plain c hc
  · rw [hname]
    refine ⟨List.append_ne_nil_of_right_ne_nil _ (List.cons_ne_nil _ _), fun c hc => ?_⟩
    rcases List.mem_append.mp hc with hc | hc
    · exact hleaf c hc
    · rcases List.mem_cons.mp hc with rfl | hc
      · decide
      · exact isWordText_ofNat.plain c hc

/-- The names of the mappings are read back. -/
theorem listed_mappings (E : Exposed) :
    listed ⟨true, unlines (E.world.mappings.map Mapping.name), []⟩ =
      (E.world.mappings.map Mapping.name).filter isMapperName := by
  have hword : ∀ n ∈ E.world.mappings.map Mapping.name, IsWordText n := by
    intro n hn
    obtain ⟨m, hm, rfl⟩ := List.mem_map.mp hn
    exact E.isWordText_name hm
  have hlines := splitLines_unlines (fun n hn => (hword n hn).noBreak)
  have hstrip : (E.world.mappings.map Mapping.name).map strip = E.world.mappings.map Mapping.name := by
    nth_rewrite 2 [← List.map_id (E.world.mappings.map Mapping.name)]
    exact List.map_congr_left fun n hn => strip_eq_self (hword n hn).plain
  unfold listed
  rw [if_neg (by simp), hlines, hstrip]
  refine List.filter_congr (fun n hn => ?_)
  rw [decide_eq_true (hword n hn).nonempty, Bool.true_and]

/-- The mappings that are taken for those of the snapshot. -/
def taken (E : Exposed) (name : Str) : Bool :=
  (((E.world.mappings.map Mapping.name).filter isMapperName).filter (namedLike E.snapshot)).contains name

theorem play_removeMappings (E : Exposed) :
    (removeMappings (devBase ++ E.snapshot)).play succeed E.world =
      (.ok (), (E.world.without fun m => E.taken m.name).hide (volume E.snapshot) (fun _ => false)) := by
  rw [removeMappings_eq]
  show (removeNamed ((listed ⟨true, unlines (E.world.mappings.map Mapping.name), []⟩).filter
    (namedLike E.snapshot)) >>= fun _ => .ask (.hideSnapdev (volume E.snapshot)) fun _ =>
      .ret ()).play succeed E.world = _
  rw [listed_mappings, Prog.play_bind (play_removeNamed _ _)]
  rfl

/-- What is left when every command succeeds. -/
theorem play_unmount (h : E.Accepted) : (E.unmount.play succeed E.world).2 =
    (E.world.without fun m => E.taken m.name).hide (volume E.snapshot) (fun _ => false) := by
  have hpath : ∃ errors, (if E.mountPath ≠ [] then unmountPath E.mountPath else pure []).play succeed
      E.world = (.ok errors, E.world) := by
    split_ifs
    · exact ⟨_, rfl⟩
    · exact ⟨_, rfl⟩
  obtain ⟨errors, hpath⟩ := hpath
  rw [unmount_accepted h, Prog.play_bind hpath, Prog.play_bind (play_removeMappings E)]
  rfl

theorem apart_of_othersKept (haccepted : E.Accepted) (h : E.OthersKept) : E.Apart := by
  obtain ⟨X, hbefore, hafter, -⟩ := exists_execution respond_succeed E.unmount E.world
  obtain ⟨hmappings, hdevices⟩ := h X hbefore
  rw [hafter, play_unmount haccepted] at hmappings hdevices
  refine ⟨fun m hm hne hmapper => ?_, fun d hd hne hvolume => ?_⟩
  · have hkept := (List.mem_filter.mp (hmappings m hm hne)).2
    rw [← Bool.not_eq_true]
    intro hlike
    have htaken : E.taken m.name = true := List.contains_iff_mem.mpr (List.mem_filter.mpr
      ⟨List.mem_filter.mpr ⟨List.mem_map_of_mem hm, hmapper⟩, hlike⟩)
    dsimp only at hkept
    rw [htaken] at hkept
    cases hkept
  · have hkept := (List.mem_filter.mp (hdevices d hd hne)).2
    rw [hvolume] at hkept
    simp at hkept

/-- The other snapshots stay as they are in every run if and only if the unmount
is refused, or no mapping of another snapshot is named like one of this snapshot
and no other snapshot is of the same volume. -/
theorem othersKept_iff (E : Exposed) : E.OthersKept ↔ (E.Accepted → E.Apart) := by
  constructor
  · exact fun h haccepted => apart_of_othersKept haccepted h
  · intro h
    by_cases haccepted : E.Accepted
    · exact othersKept_of_apart (h haccepted)
    · exact othersKept_of_refused haccepted

end Exposed

/-! ## One disk name in two pools -/

/-- A disk and its copy in another pool have snapshots of one name, each with a
mapping: the first partition of the one and the second of the other. -/
def copiedDisk : Exposed where
  world :=
    { mappings :=
        [⟨"vm-100-disk-0@nightly1", "rpool/data/vm-100-disk-0@nightly"⟩,
          ⟨"vm-100-disk-0@nightly2", "tank/backup/vm-100-disk-0@nightly"⟩]
      devices := ["rpool/data/vm-100-disk-0@nightly", "tank/backup/vm-100-disk-0@nightly"] }
  snapshot := "rpool/data/vm-100-disk-0@nightly"
  mountPath := []
  visible := by decide
  named := by
    intro m hm
    rcases List.mem_cons.mp hm with rfl | hm
    · exact ⟨1, .inl (by decide)⟩
    · rw [List.mem_singleton.mp hm]
      exact ⟨2, .inl (by decide)⟩
  distinct := by decide
  plain := by
    have hplain : ∀ d ∈ (["rpool/data/vm-100-disk-0@nightly", "rpool/data/vm-100-disk-0@nightly",
        "tank/backup/vm-100-disk-0@nightly"] : List Str), d ≠ [] ∧ ∀ c ∈ d, isSpace c = false := by
      decide
    exact fun d hd => ⟨(hplain d hd).1, (hplain d hd).2⟩

/-- The unmount of the one takes the mapping of the other away. -/
theorem copied_disk_unmapped : ¬ ∀ E : Exposed, E.OthersKept := by
  intro hclaim
  obtain ⟨X, hbefore, hafter, -⟩ :=
    exists_execution Exposed.respond_succeed copiedDisk.unmount copiedDisk.world
  have hkept := (hclaim copiedDisk X hbefore).1
    ⟨"vm-100-disk-0@nightly2", "tank/backup/vm-100-disk-0@nightly"⟩ (by decide) (by decide)
  rw [hafter, Exposed.play_unmount (E := copiedDisk) ⟨.inl rfl, by decide⟩] at hkept
  revert hkept
  decide

end PveZfsTool.Zvol
