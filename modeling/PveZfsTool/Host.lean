import PveZfsTool.Lib.Environment
import PveZfsTool.Lib.Text

/-!
# Commands on a PVE host

`run_command` of `app/ssh_manager.py` sends one command line to a host and
returns a dictionary with `success`, `stdout` and `stderr`.  It never
raises: a failed connection and a timeout are answers with `success`
false.  `Answer` is that dictionary.

`Cmd` has one constructor for each command line that the guest modules
build, and `Cmd.text` is the command line itself.  A function of the source
that runs commands is a `Job`.

The timeouts that the callers pass are left out: the model puts no bound on
what an answer may be, so a command may time out at any place.
-/

namespace PveZfsTool

open Dialogue Text

/-- A host entry.  `user` is empty and `port` is zero where the entry leaves
them out. -/
structure Host where
  address : Str
  user : Str
  port : Nat
  deriving DecidableEq

/-- `_hostref`: the address, user and port, with the defaults. -/
def Host.ref (h : Host) : Str × Str × Nat :=
  (h.address, if h.user = [] then "root" else h.user, if h.port = 0 then 22 else h.port)

/-- The result dictionary of `run_command`. -/
structure Answer where
  success : Bool
  stdout : Str
  stderr : Str
  deriving DecidableEq

/-- The guest tool, `qm` for a VM and `pct` for a container. -/
inductive Tool where
  | qm
  | pct
  deriving DecidableEq

/-- Every guest type other than `lxc` is handled as a VM. -/
def Tool.ofGtype (gtype : Str) : Tool := if gtype = "lxc" then .pct else .qm

def Tool.name : Tool → Str
  | .qm => "qm"
  | .pct => "pct"

/-- The directory below `/etc/pve` that holds the guest configs. -/
def Tool.subdir : Tool → Str
  | .qm => "qemu-server"
  | .pct => "lxc"

/-- `/etc/pve/{subdir}/{vmid}.conf` -/
def confPath (tool : Tool) (vmid : Str) : Str :=
  "/etc/pve/" ++ tool.subdir ++ "/" ++ vmid ++ ".conf"

/-- The two ends of a transfer, as `build_send_recv` gets them. -/
structure Transfer where
  source : Str × Str × Nat
  target : Str × Str × Nat
  srcSnapshot : Str
  targetDataset : Str
  /-- `none` for a full stream. -/
  baseSnapshot : Option Str
  pull : Bool
  deriving DecidableEq

/-- The command lines of `migrate.py`, `recovery_guest.py` and
`restore_guest_config`.  `redirect` is the redirection a caller appends. -/
inductive Cmd where
  | catFile (path : Str)
  | pvesmPath (volid : Str)
  | zfsListUsed (ds : Str)
  | zfsListName (ds : Str)
  /-- The snapshots of one dataset, oldest first or newest first. -/
  | zfsListSnapshots (ds : Str) (newestFirst : Bool)
  | guestStatus (tool : Tool) (vmid : Str)
  | vmidProbe (vmid : Int)
  | lsNet
  | hostname
  | sshProbe (peer : Str × Str × Nat)
  | sendRecv (t : Transfer)
  | zfsSnapshot (ds snap : Str)
  /-- The `sed` script of `set_guest_lock`. -/
  | setLock (path : Str) (lock : Option Str)
  | guestShutdown (tool : Tool) (vmid : Str) (timeout : Int)
  | guestStop (tool : Tool) (vmid redirect : Str)
  | guestStart (tool : Tool) (vmid : Str)
  | rmConfig (tool : Tool) (vmid : Int)
  | guestDestroy (tool : Tool) (vmid : Str)
  | zfsDestroyTree (ds : Str)
  | confProbe (dest : Str)
  | confWrite (dest content : Str)
  | nextVmid
  | zfsHolds (snap : Str)
  | zfsHold (tag snap : Str)
  | zfsRelease (tag snap : Str)
  | zfsGetAll (ds : Str)
  | zfsExclude (prop ds : Str)
  | zfsCreate (ds : Str)
  | pvesmAdd (storage pool node : Str)
  /-- `props` are the `-o` words of the clone, `origin` its snapshot. -/
  | zfsClone (props origin target : Str)
  | zfsDestroy (ds : Str)
  | zfsOrigin (ds : Str)
  | zfsClones (snap : Str)
  deriving DecidableEq

/-- One command on one host. -/
structure Request where
  host : Host
  cmd : Cmd
  deriving DecidableEq

/-- The exceptions the modelled functions let through. -/
inductive Exn where
  | valueError (message : Str)
  /-- The `ValueError` of `int` on a text that is no integer. -/
  | invalidInt (literal : Str)
  | keyError (key : Str)
  /-- The `re.error` of a replacement template. -/
  | reError
  deriving DecidableEq

/-- A function of the source that runs commands. -/
abbrev Job (α : Type) := Prog Request Answer Exn α

/-- `run_command(host, cmd)` -/
def runCommand (h : Host) (c : Cmd) : Job Answer := Prog.issue ⟨h, c⟩

theorem uses_runCommand {S : Request → Prop} {host : Host} {cmd : Cmd} (h : S ⟨host, cmd⟩) :
    (runCommand host cmd).Uses S := ⟨h, fun _ => trivial⟩

/-- A Python exception that a pure helper lets through. -/
def liftExn {α : Type} : Except Exn α → Job α
  | .ok a => return a
  | .error e => .raise e

/-- The commands run so far and their answers. -/
abbrev Log := History Request Answer

/-- An answer that failed, or never came. -/
def noAnswer : Answer := ⟨false, [], []⟩

/-- A command that exited with 0 and printed `out`. -/
def prints (out : Str) : Answer := ⟨true, out, []⟩

/-! ## The exit marker

A pipeline that ends in `echo __exit=$?` reports its exit code in its
output. -/

/-- The text before a trailing `__exit=<digits>`, and the digits. -/
def splitExitMarker (s : Str) : Option (Str × Str) :=
  let digits := (s.reverse.takeWhile isDecimal).reverse
  let front := (s.reverse.dropWhile isDecimal).reverse
  if digits ≠ [] ∧ ("__exit=" : Str) <:+ front then some (front.take (front.length - 7), digits)
  else none

/-- The output without the exit marker. -/
def withoutExitMarker (out : Str) : Str :=
  match splitExitMarker (rstrip out) with
  | none => strip out
  | some (front, _) => strip front

/-- The two hosts of the concrete runs. -/
def hostA : Host := ⟨"10.0.0.1", "root", 22⟩

@[inherit_doc hostA] def hostB : Host := ⟨"10.0.0.2", "root", 22⟩

/-! ## The command lines -/

/-- The UTF-8 bytes of a text. -/
def utf8 (s : Str) : List Nat := (String.ofList s).toUTF8.toList.map UInt8.toNat

/-- The alphabet of `base64`. -/
def base64Char (n : Nat) : Char :=
  if n < 26 then Char.ofNat (65 + n)
  else if n < 52 then Char.ofNat (71 + n)
  else if n < 62 then Char.ofNat (n - 4)
  else if n = 62 then '+' else '/'

/-- `base64.b64encode` -/
def base64 : List Nat → Str
  | [] => []
  | [a] => [base64Char (a / 4), base64Char (a % 4 * 16), '=', '=']
  | [a, b] =>
      [base64Char (a / 4), base64Char (a % 4 * 16 + b / 16), base64Char (b % 16 * 4), '=']
  | a :: b :: c :: rest =>
      base64Char (a / 4) :: base64Char (a % 4 * 16 + b / 16) ::
        base64Char (b % 16 * 4 + c / 64) :: base64Char (c % 64) :: base64 rest

def sshOpts : Str := "-o BatchMode=yes -o StrictHostKeyChecking=yes -o ConnectTimeout=15"

/-- `ssh {SSH_OPTS} -p {port} {user@address}` -/
def sshTo (peer : Str × Str × Nat) : Str :=
  "ssh " ++ sshOpts ++ " -p " ++ ofNat peer.2.2 ++ " " ++
    shlexQuote (peer.2.1 ++ "@" ++ peer.1)

/-- `build_send_recv` -/
def buildSendRecv (t : Transfer) : Str :=
  let incr : Str := match t.baseSnapshot with
    | none => []
    | some base => "-i " ++ shlexQuote base ++ " "
  let send : Str := "zfs send " ++ incr ++ shlexQuote t.srcSnapshot
  let recv : Str := "zfs recv -F " ++ shlexQuote t.targetDataset
  let pipeline : Str :=
    if t.pull then sshTo t.source ++ " " ++ shlexQuote send ++ " | " ++ recv
    else send ++ " | " ++ sshTo t.target ++ " " ++ shlexQuote recv
  "set -o pipefail 2>/dev/null; " ++ pipeline ++ " 2>&1; echo __exit=$?"

/-- The script of `set_guest_lock`. -/
def lockScript (path : Str) (lock : Option Str) : Str :=
  let unlock : Str := "sed -i '/^lock:/d' " ++ shlexQuote path
  let script : Str := match lock with
    | none => unlock
    | some l =>
        unlock ++ " && sed -i '1i lock: " ++ shlexQuote l ++ "' " ++ shlexQuote path
  script ++ " && echo __OK__"

/-- The command line that is sent to the host. -/
def Cmd.text : Cmd → Str
  | .catFile path => "cat " ++ shlexQuote path ++ " 2>/dev/null"
  | .pvesmPath volid => "pvesm path " ++ shlexQuote volid ++ " 2>/dev/null"
  | .zfsListUsed ds => "zfs list -H -o name,used " ++ shlexQuote ds ++ " 2>/dev/null"
  | .zfsListName ds => "zfs list -H -o name " ++ shlexQuote ds ++ " 2>/dev/null"
  | .zfsListSnapshots ds newestFirst =>
      "zfs list -H -o name -t snapshot -d 1 " ++ shlexQuote ds ++
        (if newestFirst then " -S creation 2>/dev/null" else " -s creation 2>/dev/null")
  | .guestStatus tool vmid => tool.name ++ " status " ++ shlexQuote vmid ++ " 2>/dev/null"
  | .vmidProbe vmid =>
      "([ -e /etc/pve/qemu-server/" ++ ofInt vmid ++ ".conf ] || [ -e /etc/pve/lxc/" ++
        ofInt vmid ++ ".conf ]) && echo __USED__ || echo __FREE__"
  | .lsNet => "ls /sys/class/net 2>/dev/null"
  | .hostname => "hostname"
  | .sshProbe peer => sshTo peer ++ " true 2>/dev/null && echo __SSH_OK__"
  | .sendRecv t => buildSendRecv t
  | .zfsSnapshot ds snap => "zfs snapshot " ++ shlexQuote ds ++ "@" ++ shlexQuote snap
  | .setLock path lock => lockScript path lock
  | .guestShutdown tool vmid timeout =>
      tool.name ++ " shutdown " ++ vmid ++ " --timeout " ++ ofInt timeout
  | .guestStop tool vmid redirect => tool.name ++ " stop " ++ vmid ++ redirect
  | .guestStart tool vmid => tool.name ++ " start " ++ vmid
  | .rmConfig tool vmid =>
      "rm -f /etc/pve/" ++ tool.subdir ++ "/" ++ ofInt vmid ++ ".conf && echo __OK__"
  | .guestDestroy tool vmid => tool.name ++ " destroy " ++ vmid ++ " --purge 2>&1"
  | .zfsDestroyTree ds => "zfs destroy -r " ++ shlexQuote ds ++ " 2>&1"
  | .confProbe dest => "[ -e " ++ shlexQuote dest ++ " ] && echo __EXISTS__ || echo __NO__"
  | .confWrite dest content =>
      "echo " ++ shlexQuote (base64 (utf8 content)) ++ " | base64 -d > " ++ shlexQuote dest ++
        " && echo __OK__"
  | .nextVmid => "pvesh get /cluster/nextid 2>/dev/null"
  | .zfsHolds snap => "zfs holds -H " ++ shlexQuote snap ++ " 2>/dev/null"
  | .zfsHold tag snap => "zfs hold " ++ tag ++ " " ++ shlexQuote snap ++ " 2>/dev/null"
  | .zfsRelease tag snap => "zfs release " ++ tag ++ " " ++ shlexQuote snap ++ " 2>/dev/null"
  | .zfsGetAll ds => "zfs get -H -o property,value,source all " ++ shlexQuote ds ++ " 2>/dev/null"
  | .zfsExclude prop ds =>
      "zfs set " ++ shlexQuote prop ++ "=exclude " ++ shlexQuote ds ++ " 2>&1"
  | .zfsCreate ds => "zfs create -o com.sun:auto-snapshot=false " ++ shlexQuote ds ++ " 2>&1"
  | .pvesmAdd storage pool node =>
      "pvesm add zfspool " ++ shlexQuote storage ++ " --pool " ++ shlexQuote pool ++
        " --content images,rootdir" ++
        (if node = [] then [] else (" --nodes " : Str) ++ shlexQuote node) ++ " 2>&1"
  | .zfsClone props origin target =>
      "zfs clone " ++ props ++ " " ++ shlexQuote origin ++ " " ++ shlexQuote target ++ " 2>&1"
  | .zfsDestroy ds => "zfs destroy " ++ shlexQuote ds ++ " 2>&1"
  | .zfsOrigin ds => "zfs get -H -o value origin " ++ shlexQuote ds ++ " 2>/dev/null"
  | .zfsClones snap => "zfs get -H -o value clones " ++ shlexQuote snap ++ " 2>/dev/null"

example : (Cmd.zfsSnapshot "rpool/data/vm-100-disk-0" "migrate-1").text =
    ("zfs snapshot rpool/data/vm-100-disk-0@migrate-1" : Str) := by decide

end PveZfsTool
