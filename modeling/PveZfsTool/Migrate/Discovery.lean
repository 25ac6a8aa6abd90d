import PveZfsTool.GuestConfig
import PveZfsTool.Validators

/-!
# Reading a host

The readers of `app/migrate.py`: each runs one or two commands on a host
and makes something of the answer.  An answer that failed reads like an
empty one in most of them, and `saysRunning` is where that matters.
-/

namespace PveZfsTool

open Dialogue Text

/-- A guest config as `read_guest_config` returns it. -/
structure ConfigFile where
  content : Str
  path : Str
  deriving DecidableEq

/-- `read_guest_config` -/
def readGuestConfig (host : Host) (vmid gtype : Str) : Job (Except Str ConfigFile) :=
  match validateVmid vmid with
  | .error e => return .error e
  | .ok vmid => do
    let path := confPath (Tool.ofGtype gtype) vmid
    let r ← runCommand host (.catFile path)
    if r.success ∧ strip r.stdout ≠ [] then return .ok ⟨r.stdout, path⟩
    else return .error ("guest config " ++ path ++ " not found")

/-- A disk with its dataset. -/
structure Disk where
  key : Str
  volid : Str
  dataset : Str
  used : Str
  deriving DecidableEq

/-- One disk of `discover_guest_disks`: `none` when it does not resolve to
a dataset that the host lists. -/
def resolveDisk (host : Host) (key volid : Str) : Job (Option Disk) := do
  let r ← runCommand host (.pvesmPath volid)
  let ds := datasetFromPvesmPath (if r.success then r.stdout else [])
  if ds ≠ [] ∧ matchesDataset ds then do
    let chk ← runCommand host (.zfsListUsed ds)
    let parts := splitOn '\t' (strip chk.stdout)
    if chk.success ∧ parts.head? = some ds then return some ⟨key, volid, ds, parts.getD 1 []⟩
    else return none
  else return none

/-- The result of `discover_guest_disks`. -/
structure Discovery where
  disks : List Disk
  unresolved : List (Str × Str)
  deriving DecidableEq

/-- The loop of `discover_guest_disks`. -/
def discoverDisks (host : Host) : List (Str × Str) → Job Discovery
  | [] => return ⟨[], []⟩
  | (key, volid) :: rest => do
    let disk ← resolveDisk host key volid
    let found ← discoverDisks host rest
    match disk with
    | some d => return { found with disks := d :: found.disks }
    | none => return { found with unresolved := (key, volid) :: found.unresolved }

/-- `discover_guest_disks`.  Every caller passes the config text. -/
def discoverGuestDisks (host : Host) (gtype configText : Str) : Job Discovery :=
  discoverDisks host (parseGuestConfigDisks configText gtype)

/-- What `guest_is_running` reads off a status answer. -/
def saysRunning (a : Answer) : Bool := contains (lower a.stdout) "running"

/-- `guest_is_running` -/
def guestIsRunning (host : Host) (vmid gtype : Str) : Job Bool := do
  let r ← runCommand host (.guestStatus (Tool.ofGtype gtype) vmid)
  return saysRunning r

/-- `int(s)` -/
def pyInt (s : Str) : Job Int :=
  match toInt? s with
  | some n => return n
  | none => .raise (.invalidInt s)

/-- `vmid_in_use` -/
def vmidInUse (host : Host) (vmid : Str) : Job Bool := do
  let n ← pyInt vmid
  let r ← runCommand host (.vmidProbe n)
  return contains r.stdout "__USED__"

/-- The snapshot names of a `zfs list` output. -/
def snapshotNames (stdout : Str) : List Str :=
  ((splitLines stdout).map strip).filterMap
    (fun ln => if '@' ∈ ln then some (afterFirst '@' ln) else none)

/-- `list_snapshots`: oldest first. -/
def listSnapshots (host : Host) (ds : Str) : Job (List Str) := do
  let r ← runCommand host (.zfsListSnapshots ds false)
  return snapshotNames r.stdout

/-- `dataset_exists` -/
def datasetExists (host : Host) (ds : Str) : Job Bool := do
  let r ← runCommand host (.zfsListName ds)
  return strip r.stdout = ds

/-- `host_bridges` -/
def hostBridges (host : Host) : Job (List Str) := do
  let r ← runCommand host .lsNet
  return (splitWords r.stdout).filter (fun b => startsWith b "vmbr")

/-- `probe_ssh` -/
def probeSsh (fromHost toHost : Host) : Job Bool := do
  let r ← runCommand fromHost (.sshProbe toHost.ref)
  return contains r.stdout "__SSH_OK__"

/-- The node name of a host, empty when `hostname` failed. -/
def nodeName (host : Host) : Job Str := do
  let r ← runCommand host .hostname
  return if r.success then beforeFirst '.' (strip r.stdout) else []

/-- `read_zfs_storages` -/
def readZfsStorages (host : Host) : Job (List ZfsStorage) := do
  let r ← runCommand host (.catFile "/etc/pve/storage.cfg")
  if r.success then do
    let node ← nodeName host
    return usableGuestStorages (parseZfsStorages r.stdout) node
  else return []

/-! ## Runs of the readers -/

@[simp] theorem run_runCommand {host : Host} {cmd : Cmd} {log : Log} {o : Except Exn Answer} :
    (runCommand host cmd).Run log o ↔ ∃ a, log = [(⟨host, cmd⟩, a)] ∧ o = .ok a := by
  simp [runCommand, Prog.issue]

/-- A config that was read is the output of one successful command. -/
theorem run_readGuestConfig {host : Host} {vmid gtype : Str} {log : Log} {cfg : ConfigFile}
    (h : (readGuestConfig host vmid gtype).Run log (.ok (.ok cfg))) :
    ∃ a, log = [(⟨host, .catFile (confPath (Tool.ofGtype gtype) (strip vmid))⟩, a)] ∧
      a.success = true ∧ cfg.content = a.stdout := by
  unfold readGuestConfig at h
  cases hv : validateVmid vmid with
  | error e =>
    rw [hv] at h
    have hout := (Prog.run_ret.mp h).2
    cases hout
  | ok v =>
    rw [hv] at h
    obtain ⟨a, rest, rfl, hrest⟩ := Prog.run_ask.mp h
    change Prog.Run (if _ then _ else _) rest _ at hrest
    split at hrest
    · rename_i hok
      obtain ⟨rfl, hout⟩ := Prog.run_ret.mp hrest
      rw [Except.ok.inj (Except.ok.inj hout), ← (validateVmid_ok hv).1]
      exact ⟨a, rfl, hok.1, rfl⟩
    · cases (Prog.run_ret.mp hrest).2

theorem run_guestIsRunning {host : Host} {vmid gtype : Str} {log : Log} {o : Except Exn Bool} :
    (guestIsRunning host vmid gtype).Run log o ↔
      ∃ a, log = [(⟨host, .guestStatus (Tool.ofGtype gtype) vmid⟩, a)] ∧
        o = .ok (saysRunning a) := by
  simp [guestIsRunning, runCommand]

theorem run_pyInt {s : Str} {log : Log} {o : Except Exn Int} :
    (pyInt s).Run log o ↔
      log = [] ∧ o = (match toInt? s with | some n => .ok n | none => .error (.invalidInt s)) := by
  unfold pyInt
  cases toInt? s <;> simp

/-- `vmid_in_use` asks one question. -/
theorem uses_vmidInUse (host : Host) (vmid : Str) :
    (vmidInUse host vmid).Uses (fun q => ∃ n, q = ⟨host, .vmidProbe n⟩) := by
  unfold vmidInUse pyInt
  split
  · exact ⟨⟨_, rfl⟩, fun _ => trivial⟩
  · trivial

/-- `read_guest_config` reads one file. -/
theorem uses_readGuestConfig (host : Host) (vmid gtype : Str) :
    (readGuestConfig host vmid gtype).Uses (fun q => ∃ path, q = ⟨host, .catFile path⟩) := by
  unfold readGuestConfig
  split
  · trivial
  · refine (uses_runCommand ⟨_, rfl⟩).bind (fun a => ?_)
    split <;> trivial

end PveZfsTool
