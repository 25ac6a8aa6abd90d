import PveZfsTool.Dr.BackupRestore
import PveZfsTool.GuestRestore
import PveZfsTool.Lib.Environment
import PveZfsTool.Lib.Lines
import PveZfsTool.Lib.Seeding
import PveZfsTool.Lib.Unquote

/-!
# Restoring every guest config of a backup

`restore_all_guest_configs` of `app/dr.py` takes the guest configs out of a
host-config backup, all of them before it writes one, and restores each with
`restore_guest_config`.  An archive can hold several configs for one path: the
nodes of a cluster each have their directory, and `/etc/pve/qemu-server` is kept
beside it.

`restoreAll_confs` says what becomes of the configs of the host.  Without force
nothing that was there changes, and of several configs the first one is kept.  With
force it is the last one.
-/

namespace PveZfsTool

open Dialogue Text Seeding

/-! ## The configs of an archive -/

/-- The type and the VMID of a text that `/(qemu-server|lxc)/(\d+)\.conf$` matches
from its start. -/
def guestAt (s : Str) : Option (Str × Str) :=
  if atDollar (isConfIn "/qemu-server/") s then some ("qemu", (s.drop 13).takeWhile isDecimal)
  else if atDollar (isConfIn "/lxc/") s then some ("lxc", (s.drop 5).takeWhile isDecimal)
  else none

/-- `re.search(r"/(qemu-server|lxc)/(\d+)\.conf$", m.name)` -/
def guestOfMember (name : Str) : Option (Str × Str) := name.tails.findSome? guestAt

/-- A guest config of the archive. -/
structure BackupGuest where
  gtype : Str
  vmid : Str
  content : Str
  deriving DecidableEq

/-- The guest that a member is the config of. -/
def TarMember.guest (m : TarMember) : Option (Str × Str) := if m.isFile then guestOfMember m.name else none

/-- The loop that reads the configs.  An error ends it. -/
def backupGuests : List TarMember → Except Str (List BackupGuest)
  | [] => .ok []
  | m :: members =>
    match m.guest with
    | none => backupGuests members
    | some (gtype, vmid) => do
      let data ← m.data
      let guests ← backupGuests members
      return ⟨gtype, vmid, decodeUtf8 0 (data.map UInt8.toNat)⟩ :: guests

/-! ## The restore -/

/-- What `restore_all_guest_configs` returns.  `error` is empty where the
dictionary has none. -/
structure GuestsResult where
  success : Bool
  error : Str
  results : List (BackupGuest × RestoreResult)
  restored : Nat
  skipped : Nat
  total : Nat
  deriving DecidableEq

/-- The loop that writes the configs. -/
def restoreGuests (host : Host) (force : Bool) : List BackupGuest → Job (List (BackupGuest × RestoreResult))
  | [] => return []
  | g :: guests => do
    let res ← restoreGuestConfig host g.gtype g.vmid g.content force
    let results ← restoreGuests host force guests
    return (g, res) :: results

/-- What is counted in the results. -/
def guestsResult (results : List (BackupGuest × RestoreResult)) : GuestsResult where
  success := results.all (fun r => r.2.success)
  error := []
  results := results
  restored := results.countP (fun r => r.2.success)
  skipped := results.countP (fun r => r.2.present && !r.2.success)
  total := results.length

/-- `restore_all_guest_configs` -/
def restoreAllGuestConfigs (host : Host) (archive : Archive) (force : Bool) : Job GuestsResult :=
  match archive.bind backupGuests with
  | .error e => return ⟨false, e.take 200, [], 0, 0, 0⟩
  | .ok guests => do
    let results ← restoreGuests host force guests
    return guestsResult results

/-! ## Where a config goes -/

/-- The path of a guest's config. -/
def BackupGuest.dest (g : BackupGuest) : Str :=
  "/etc/pve/" ++ (restoreSubdir g.gtype).getD [] ++ "/" ++ g.vmid ++ ".conf"

/-- `restore_guest_config` accepts the type and the VMID. -/
structure BackupGuest.Restorable (g : BackupGuest) : Prop where
  subdir : (restoreSubdir g.gtype).isSome = true
  number : matchesNumber g.vmid = true

theorem dest_eq {g : BackupGuest} {subdir : Str} (h : restoreSubdir g.gtype = some subdir) :
    g.dest = "/etc/pve/" ++ subdir ++ "/" ++ g.vmid ++ ".conf" := by
  unfold BackupGuest.dest
  rw [h, Option.getD_some]

theorem matchesNumber_digits {dir s : Str} (h : atDollar (isConfIn dir) s = true) :
    matchesNumber ((s.drop dir.length).takeWhile isDecimal) = true := by
  have hdigits : ∀ t : Str, isConfIn dir t = true → (t.drop dir.length).takeWhile isDecimal ≠ [] := by
    intro t ht
    rw [isConfIn, Bool.and_eq_true, Bool.and_eq_true] at ht
    simpa using ht.2.1
  have hne : (s.drop dir.length).takeWhile isDecimal ≠ [] := by
    rcases atDollar_cases h with hs | ⟨t, rfl, ht⟩
    · exact hdigits s hs
    · have hlen : dir.length ≤ t.length := by
        rw [isConfIn, Bool.and_eq_true] at ht
        exact (List.isPrefixOf_iff_prefix.mp ht.1).length_le
      rw [List.drop_append_of_le_length hlen]
      intro hnil
      apply hdigits t ht
      rw [List.takeWhile_append] at hnil
      split at hnil
      · rw [(List.append_eq_nil_iff.mp hnil).1]
        rfl
      · exact hnil
  apply atDollar_of_eq_true
  rw [Bool.and_eq_true]
  exact ⟨by simpa using hne, List.all_takeWhile⟩

theorem restorable_of_guestAt {s gtype vmid content : Str} (h : guestAt s = some (gtype, vmid)) :
    (BackupGuest.mk gtype vmid content).Restorable := by
  rw [guestAt] at h
  split at h
  · rename_i hqemu
    cases h
    exact ⟨rfl, matchesNumber_digits hqemu⟩
  · split at h
    · rename_i hlxc
      cases h
      exact ⟨rfl, matchesNumber_digits hlxc⟩
    · cases h

/-- Every config that is read can be restored. -/
theorem restorable_of_backupGuests {members : List TarMember} {guests : List BackupGuest}
    (h : backupGuests members = .ok guests) : ∀ g ∈ guests, g.Restorable := by
  induction members generalizing guests with
  | nil =>
    cases h
    exact fun g hg => absurd hg List.not_mem_nil
  | cons m members ih =>
    rw [backupGuests] at h
    split at h
    · exact ih h
    · rename_i gtype vmid hguest
      cases hdata : m.data with
      | error e =>
        rw [hdata] at h
        cases h
      | ok data =>
        rw [hdata] at h
        cases hrest : backupGuests members with
        | error e =>
          rw [hrest] at h
          cases h
        | ok rest =>
          rw [hrest] at h
          cases h
          refine List.forall_mem_cons.mpr ⟨?_, ih hrest⟩
          rw [TarMember.guest] at hguest
          split at hguest
          · obtain ⟨t, -, ht⟩ := List.exists_of_findSome?_eq_some hguest
            exact restorable_of_guestAt ht
          · cases hguest

/-! ## The configs of the hosts -/

/-- The configs of the hosts, by their paths. -/
abbrev Confs := Host × Str → Option Str

/-- A write that does not report success may leave anything at its path. -/
def confEnv : Env Confs Request Answer Empty where
  respond w q a w' :=
    match q.cmd with
    | .confWrite dest content =>
        (∀ p, p ≠ (q.host, dest) → w' p = w p) ∧
          (contains a.stdout "__OK__" = true → w' (q.host, dest) = some content)
    | _ => w' = w
  move _ m _ := m.elim

/-- A check of a config is answered with what is there. -/
def ConfAnswered (w : Confs) : Event Request Answer Empty → Prop
  | .request ⟨host, .confProbe dest⟩ a => contains a.stdout "__EXISTS__" = (w (host, dest)).isSome
  | _ => True

/-- The command reports success when it is a write. -/
def ConfWritten : Event Request Answer Empty → Prop
  | .request ⟨_, .confWrite _ _⟩ a => contains a.stdout "__OK__" = true
  | _ => True

/-- The config as an entry of the store. -/
def BackupGuest.entry (host : Host) (g : BackupGuest) : (Host × Str) × Str := ((host, g.dest), g.content)

section

variable {host : Host} {force : Bool} {w w' : Confs} {tr : Trail Request Answer Empty Confs}

/-- What one restore does to the configs. -/
structure OneRestored (host : Host) (force : Bool) (g : BackupGuest) (w w' : Confs)
    (tr : Trail Request Answer Empty Confs) (r : RestoreResult) : Prop where
  present : r.present = (w (host, g.dest)).isSome
  other : ∀ p, p ≠ (host, g.dest) → w' p = w p
  kept : force = false → (w (host, g.dest)).isSome = true → w' = w
  written : (∀ step ∈ tr, ConfWritten step.1) →
    r.success = (force || (w (host, g.dest)).isNone) ∧ w' = put force w (g.entry host)

theorem oneRestored {g : BackupGuest} (hg : g.Restorable) {o : Except Exn RestoreResult}
    (hpath : confEnv.Path w tr w') (hanswered : EachStep ConfAnswered w tr)
    (h : Drives (restoreGuestConfig host g.gtype g.vmid g.content force) tr o) :
    ∃ r, o = .ok r ∧ OneRestored host force g w w' tr r := by
  obtain ⟨subdir, hsubdir⟩ := Option.isSome_iff_exists.mp hg.subdir
  have hdest := dest_eq hsubdir
  unfold restoreGuestConfig at h
  rw [hsubdir] at h
  dsimp only at h
  rw [if_neg (not_not.mpr hg.number), ← dest_eq hsubdir, runCommand, Prog.issue_bind] at h
  obtain ⟨a, u, t, rfl, hnext⟩ := drives_ask h
  obtain ⟨hsame, hpath⟩ := hpath
  obtain ⟨hprobe, hanswered⟩ := hanswered
  obtain rfl : u = w := hsame
  have hprobe : contains a.stdout "__EXISTS__" = (u (host, g.dest)).isSome := hprobe
  rw [hprobe] at hnext
  split at hnext
  · rename_i hrefused
    obtain rfl : t = [] := eq_nil_of_answered hnext.1
    obtain rfl : u = w' := hpath
    refine ⟨_, hnext.2, hrefused.1.symm, fun p _ => rfl, fun _ _ => rfl, fun _ => ?_⟩
    have hsome : (u (host, g.dest)).isNone = false := by
      rw [← Option.not_isSome, hrefused.1]
      rfl
    have hforce : force = false := by simpa using hrefused.2
    refine ⟨by rw [hsome, hforce]; rfl, (if_neg ?_).symm⟩
    rw [hforce, BackupGuest.entry, hsome]
    exact Bool.false_ne_true
  · rename_i hallowed
    rw [runCommand, Prog.issue_bind] at hnext
    obtain ⟨b, v, t, rfl, hlast⟩ := drives_ask hnext
    obtain rfl : t = [] := eq_nil_of_answered hlast.1
    obtain ⟨⟨hother, hok⟩, rfl⟩ := hpath
    have hput : (force || (u (host, g.dest)).isNone) = true := by
      rw [Bool.or_eq_true, Option.isNone_iff_eq_none, ← Option.not_isSome_iff_eq_none]
      by_contra hneither
      rw [not_or, not_not] at hneither
      exact hallowed ⟨hneither.2, hneither.1⟩
    refine ⟨_, hlast.2, rfl, hother, fun hforce hsome => ?_, fun hwritten => ?_⟩
    · exact absurd ⟨hsome, by rw [hforce]; exact Bool.false_ne_true⟩ hallowed
    · have hb : contains b.stdout "__OK__" = true :=
        hwritten _ (List.mem_cons_of_mem _ List.mem_cons_self)
      refine ⟨by rw [hput]; exact hb, ?_⟩
      rw [put, BackupGuest.entry, if_pos hput]
      funext p
      by_cases hp : p = (host, g.dest)
      · rw [hp, Function.update_self]
        exact hok hb
      · rw [Function.update_of_ne hp]
        exact hother p hp

/-! ## The whole restore -/

/-- What the loop does to the configs. -/
structure AllRestored (host : Host) (force : Bool) (guests : List BackupGuest) (w w' : Confs)
    (tr : Trail Request Answer Empty Confs) (results : List (BackupGuest × RestoreResult)) : Prop where
  length : results.length = guests.length
  other : ∀ p, (∀ g ∈ guests, p ≠ (host, g.dest)) → w' p = w p
  kept : force = false → ∀ p, (w p).isSome = true → w' p = w p
  seeded : (∀ step ∈ tr, ConfWritten step.1) → w' = seed force w (guests.map (BackupGuest.entry host))
  counted : (∀ step ∈ tr, ConfWritten step.1) →
    results.countP (fun r => r.2.success) = written force w (guests.map (BackupGuest.entry host))
  refused : (∀ step ∈ tr, ConfWritten step.1) → ∀ r ∈ results, r.2.success = false → r.2.present = true

theorem OneRestored.keeps {g : BackupGuest} {r : RestoreResult} (h : OneRestored host force g w w' tr r)
    (hforce : force = false) {p : Host × Str} (hp : (w p).isSome = true) : w' p = w p := by
  by_cases hkey : p = (host, g.dest)
  · rw [h.kept hforce (hkey ▸ hp)]
  · exact h.other p hkey

theorem OneRestored.refuses {g : BackupGuest} {r : RestoreResult} (h : OneRestored host force g w w' tr r)
    (hwritten : ∀ step ∈ tr, ConfWritten step.1) (hr : r.success = false) : r.present = true := by
  have hsuccess := (h.written hwritten).1
  rw [hr] at hsuccess
  rw [h.present, ← Option.not_isNone, (Bool.or_eq_false_iff.mp hsuccess.symm).2]
  rfl

theorem allRestored {guests : List BackupGuest} (hguests : ∀ g ∈ guests, g.Restorable)
    {o : Except Exn (List (BackupGuest × RestoreResult))} (hpath : confEnv.Path w tr w')
    (hanswered : EachStep ConfAnswered w tr) (h : Drives (restoreGuests host force guests) tr o) :
    ∃ results, o = .ok results ∧ AllRestored host force guests w w' tr results := by
  induction guests generalizing w tr o with
  | nil =>
    obtain rfl : tr = [] := eq_nil_of_answered h.1
    obtain rfl : w = w' := hpath
    exact ⟨[], h.2, rfl, fun _ _ => rfl, fun _ _ _ => rfl, fun _ => rfl, fun _ => rfl,
      fun _ r hr => absurd hr List.not_mem_nil⟩
  | cons g guests ih =>
    obtain ⟨hg, hguests⟩ := List.forall_mem_cons.mp hguests
    rw [restoreGuests] at h
    rcases drives_bind h with ⟨t₁, t₂, r, rfl, hone, hrest⟩ | ⟨e, hone, -⟩
    · obtain ⟨w₁, hpath₁, hpath₂⟩ := Env.path_append.mp hpath
      obtain ⟨hanswered₁, hanswered₂⟩ := eachStep_append.mp hanswered
      rw [← hpath₁.end_eq] at hanswered₂
      obtain ⟨_, ⟨⟩, hr⟩ := oneRestored hg hpath₁ hanswered₁ hone
      rcases drives_bind hrest with ⟨t₂, t₃, results, rfl, hall, hret⟩ | ⟨e, hall, -⟩
      · obtain rfl : t₃ = [] := eq_nil_of_answered hret.1
        rw [List.append_nil] at hpath₂ hanswered₂ ⊢
        obtain ⟨_, ⟨⟩, hs⟩ := ih hguests hpath₂ hanswered₂ hall
        refine ⟨_, hret.2, ?_, fun p hp => ?_, fun hforce p hp => ?_, fun hwritten => ?_, fun hwritten => ?_,
          fun hwritten => ?_⟩
        · rw [List.length_cons, hs.length, List.length_cons]
        · obtain ⟨hpg, hp⟩ := List.forall_mem_cons.mp hp
          rw [hs.other p hp, hr.other p hpg]
        · have hsame := hr.keeps hforce hp
          rw [hs.kept hforce p (hsame ▸ hp), hsame]
        · obtain ⟨hwritten₁, hwritten₂⟩ := List.forall_mem_append.mp hwritten
          rw [hs.seeded hwritten₂, List.map_cons, seed_cons, (hr.written hwritten₁).2]
        · obtain ⟨hwritten₁, hwritten₂⟩ := List.forall_mem_append.mp hwritten
          rw [List.countP_cons, hs.counted hwritten₂, List.map_cons, written, (hr.written hwritten₁).1,
            (hr.written hwritten₁).2, Nat.add_comm]
          rfl
        · obtain ⟨hwritten₁, hwritten₂⟩ := List.forall_mem_append.mp hwritten
          exact List.forall_mem_cons.mpr ⟨hr.refuses hwritten₁, hs.refused hwritten₂⟩
      · obtain ⟨_, ⟨⟩, -⟩ := ih hguests hpath₂ hanswered₂ hall
    · obtain ⟨_, ⟨⟩, -⟩ := oneRestored hg hpath hanswered hone

/-- Where every write succeeds, each config was restored or skipped. -/
theorem AllRestored.counts {guests : List BackupGuest} {results : List (BackupGuest × RestoreResult)}
    (h : AllRestored host force guests w w' tr results) (hwritten : ∀ step ∈ tr, ConfWritten step.1) :
    (guestsResult results).restored + (guestsResult results).skipped = (guestsResult results).total ∧
      ((guestsResult results).success = true ↔ (guestsResult results).skipped = 0) := by
  have hskipped : (guestsResult results).skipped = results.countP (fun r => !r.2.success) := by
    refine List.countP_congr fun r hr => ?_
    cases hsuccess : r.2.success with
    | true => simp
    | false => simp [h.refused hwritten r hr hsuccess]
  rw [hskipped]
  constructor
  · have htotal : (guestsResult results).total = _ :=
      @List.length_eq_countP_add_countP (BackupGuest × RestoreResult) (fun r => r.2.success) results
    rw [htotal]
    congr 1
    exact List.countP_congr fun r _ => by cases r.2.success <;> decide
  · rw [List.countP_eq_zero, guestsResult, List.all_eq_true]
    refine forall₂_congr fun (r : BackupGuest × RestoreResult) _ => ?_
    cases r.2.success <;> decide

end

/-- What `restore_all_guest_configs` does to the configs of the hosts, where every
check is answered.  Nothing but the paths of the archive changes, and without force
nothing that was there.  Where every write succeeds too, the last config of a path
is there with force, and the first one without it, unless the path had one before. -/
theorem restoreAll_confs {host : Host} {archive : Archive} {force : Bool} {guests : List BackupGuest}
    (hguests : archive.bind backupGuests = .ok guests)
    (x : Execution confEnv (restoreAllGuestConfigs host archive force))
    (hanswered : EachStep ConfAnswered x.before x.trail) :
    ∃ r, x.outcome = .ok r ∧ r.total = guests.length ∧
      (∀ p, (∀ g ∈ guests, p ≠ (host, g.dest)) → x.after p = x.before p) ∧
      (force = false → ∀ p, (x.before p).isSome = true → x.after p = x.before p) ∧
      ((∀ step ∈ x.trail, ConfWritten step.1) →
        (∀ p, x.after p = if force then (firstOf (guests.map (BackupGuest.entry host)).reverse p).or (x.before p)
          else (x.before p).or (firstOf (guests.map (BackupGuest.entry host)) p)) ∧
        r.restored = (if force then guests.length
          else ((guests.map (fun g => (host, g.dest))).toFinset.filter
            (fun p => (x.before p).isNone = true)).card) ∧
        r.restored + r.skipped = r.total ∧ (r.success = true ↔ r.skipped = 0)) := by
  have hrestorable : ∀ g ∈ guests, g.Restorable := by
    cases archive with
    | error e => cases hguests
    | ok members => exact restorable_of_backupGuests hguests
  obtain ⟨before, trail, after, outcome, hpath, hdrives⟩ := x
  dsimp only at hanswered ⊢
  unfold restoreAllGuestConfigs at hdrives
  rw [hguests] at hdrives
  dsimp only at hdrives
  rcases drives_bind hdrives with ⟨t₁, t₂, results, htrail, hall, hret⟩ | ⟨e, hall, -⟩
  · obtain rfl : t₂ = [] := eq_nil_of_answered hret.1
    rw [List.append_nil] at htrail
    rw [← htrail] at hall
    obtain ⟨_, ⟨⟩, h⟩ := allRestored hrestorable hpath hanswered hall
    refine ⟨_, hret.2, h.length, h.other, h.kept, fun hwritten => ⟨fun p => ?_, ?_, h.counts hwritten⟩⟩
    · rw [h.seeded hwritten]
      cases force with
      | true => exact seed_true
      | false => exact seed_false
    · refine (h.counted hwritten).trans ?_
      cases force with
      | true => rw [written_true, List.length_map, if_pos rfl]
      | false =>
        rw [written_false, List.map_map, if_neg Bool.false_ne_true]
        rfl
  · obtain ⟨_, ⟨⟩, -⟩ := allRestored hrestorable hpath hanswered hall

/-! ## Two configs for one path -/

/-- An archive with the config of VM 100 of a node, and with the one beside it. -/
def twoConfigs : List TarMember :=
  [⟨"./etc/pve/nodes/pve1/qemu-server/100.conf", true, 0, .ok [65]⟩,
    ⟨"./etc/pve/qemu-server/100.conf", true, 0, .ok [66]⟩]

def twoGuests : List BackupGuest := [⟨"qemu", "100", "A"⟩, ⟨"qemu", "100", "B"⟩]

theorem backupGuests_twoConfigs : (Except.ok twoConfigs : Archive).bind backupGuests = .ok twoGuests := by decide

def vmPath : Str := "/etc/pve/qemu-server/100.conf"

/-- The host once the first config is there. -/
def firstThere : Confs := Function.update (fun _ => none) (hostA, vmPath) (some "A")

/-- Both are restored to a host without configs. -/
def restoreTwo : Execution confEnv (restoreAllGuestConfigs hostA (.ok twoConfigs) false) where
  before := fun _ => none
  trail := [(.request ⟨hostA, .confProbe vmPath⟩ (prints "__NO__\n"), fun _ => none),
    (.request ⟨hostA, .confWrite vmPath "A"⟩ (prints "__OK__\n"), firstThere),
    (.request ⟨hostA, .confProbe vmPath⟩ (prints "__EXISTS__\n"), firstThere)]
  after := firstThere
  outcome := .ok ⟨false, [], [(⟨"qemu", "100", "A"⟩, ⟨true, false, vmPath, [], []⟩),
    (⟨"qemu", "100", "B"⟩, ⟨false, true, vmPath, "config already exists", []⟩)], 1, 1, 2⟩
  path := ⟨rfl, ⟨fun _ hp => Function.update_of_ne hp _ _, fun _ => Function.update_self ..⟩, rfl, rfl⟩
  drives := by
    have hrun : (restoreAllGuestConfigs hostA (.ok twoConfigs) false).transcript
        [prints "__NO__\n", prints "__OK__\n", prints "__EXISTS__\n"] =
        some ([(⟨hostA, .confProbe vmPath⟩, prints "__NO__\n"),
            (⟨hostA, .confWrite vmPath "A"⟩, prints "__OK__\n"),
            (⟨hostA, .confProbe vmPath⟩, prints "__EXISTS__\n")],
          .ok ⟨false, [], [(⟨"qemu", "100", "A"⟩, ⟨true, false, vmPath, [], []⟩),
            (⟨"qemu", "100", "B"⟩, ⟨false, true, vmPath, "config already exists", []⟩)], 1, 1, 2⟩) := by rfl
    exact Prog.run_of_transcript hrun

theorem restoreAll_confs_two : restoreTwo.after (hostA, vmPath) = some ("A" : Str) := by
  have hanswered : EachStep ConfAnswered restoreTwo.before restoreTwo.trail :=
    ⟨rfl, trivial, rfl, trivial⟩
  have hwritten : ∀ step ∈ restoreTwo.trail, ConfWritten step.1 := by
    intro step hstep
    simp only [restoreTwo, List.mem_cons, List.not_mem_nil, or_false] at hstep
    rcases hstep with rfl | rfl | rfl
    · trivial
    · exact (rfl : contains ("__OK__\n" : Str) "__OK__" = true)
    · trivial
  obtain ⟨r, -, -, -, -, hall⟩ := restoreAll_confs backupGuests_twoConfigs restoreTwo hanswered
  rw [(hall hwritten).1]
  decide

end PveZfsTool
