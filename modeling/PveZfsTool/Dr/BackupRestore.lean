import PveZfsTool.Host
import PveZfsTool.Lib.Paths

/-!
# Restoring files from a host-config backup

The restore functions of `app/dr.py` take regular files out of a tar archive
and write them to a host.  The name of a member decides where it goes: `rel`
strips the leading dots and slashes, `backupTargetPath` maps the rest to a
path of the host or refuses it, and `categorize` keeps some files out of
"restore all configs".

An `Archive` is what `tarfile` reads: the members in their order, or the text
of the error.  A member has its data, or the error that reading it raises.
-/

namespace PveZfsTool

open Dialogue Text

/-! ## The archive -/

structure TarMember where
  name : Str
  isFile : Bool
  mode : Nat
  data : Except Str (List UInt8)

/-- `tarfile.open` with the members, or the text of the error. -/
abbrev Archive := Except Str (List TarMember)

/-- `s.rstrip("/")` -/
def rstripSlash (s : Str) : Str := (s.reverse.dropWhile (· = '/')).reverse

/-- `tf.getmember`: the last member of that name. -/
def getMember (members : List TarMember) (name : Str) : Option TarMember :=
  members.reverse.find? (fun m => m.name = rstripSlash name)

/-! ## Where a member goes -/

/-- `_rel` -/
def rel (member : Str) : Str := member.dropWhile (fun c => c = '.' || c = '/')

inductive Category where
  | cluster
  | ssh
  | guests
  | network
  | storage
  | mail
  | system
  | apt
  | firewall
  | jobs
  | access
  | info
  | other
  deriving DecidableEq

def Category.name : Category → Str
  | .cluster => "cluster"
  | .ssh => "ssh"
  | .guests => "guests"
  | .network => "network"
  | .storage => "storage"
  | .mail => "mail"
  | .system => "system"
  | .apt => "apt"
  | .firewall => "firewall"
  | .jobs => "jobs"
  | .access => "access"
  | .info => "info"
  | .other => "other"

/-- `{dir}\d+\.conf` -/
def isConfIn (dir : Str) (s : Str) : Bool :=
  startsWith s dir &&
    ((s.drop dir.length).takeWhile isDecimal != [] &&
      (s.drop dir.length).dropWhile isDecimal = ".conf")

/-- `re.search(r"/(qemu-server|lxc)/\d+\.conf$", rel)` -/
def isGuestMember (rel : Str) : Bool :=
  rel.tails.any (atDollar (fun s => isConfIn "/qemu-server/" s || isConfIn "/lxc/" s))

/-- `s.endswith(suf)` -/
def endsWith (s suf : Str) : Bool := suf.isSuffixOf s

/-- `_categorize` -/
def categorize (rel : Str) : Category :=
  if rel = "etc/pve/corosync.conf" ∨ rel = "etc/corosync/corosync.conf" then .cluster
  else if rel = "root/.ssh/authorized_keys" ∨ startsWith rel "etc/ssh/" then .ssh
  else if isGuestMember rel then .guests
  else if startsWith rel "etc/network/" ∨ rel = "etc/hosts" ∨ rel = "etc/hostname" ∨
      rel = "etc/resolv.conf" ∨ startsWith rel "etc/udev/" ∨ startsWith rel "etc/systemd/network/" ∨
      startsWith rel "lib/systemd/network/" then .network
  else if rel = "etc/pve/storage.cfg" ∨ rel = "etc/fstab" ∨ rel = "etc/exports" ∨
      startsWith rel "etc/samba/" then .storage
  else if startsWith rel "etc/postfix/" ∨ rel = "etc/aliases" then .mail
  else if startsWith rel "etc/systemd/system/" ∨ startsWith rel "etc/sysctl.d/" ∨
      startsWith rel "etc/modprobe.d/" ∨ rel = "etc/sysctl.conf" ∨ rel = "etc/timezone" then .system
  else if startsWith rel "etc/apt/" ∨ startsWith rel "usr/share/keyrings/" then .apt
  else if startsWith rel "etc/pve/firewall/" ∨ endsWith rel "host.fw" then .firewall
  else if rel = "etc/pve/jobs.cfg" ∨ rel = "etc/pve/vzdump.cron" ∨ rel = "etc/pve/replication.cfg" ∨
      rel = "etc/vzdump.conf" ∨ startsWith rel "etc/cron." ∨ startsWith rel "etc/bashclub/" then .jobs
  else if rel = "etc/pve/user.cfg" ∨ rel = "etc/pve/datacenter.cfg" ∨ rel = "etc/pve/domains.cfg" ∨
      startsWith rel "etc/pve/priv/" then .access
  else if startsWith rel "cmd/" then .info
  else .other

/-- The group of `re.match(r"etc/pve/nodes/[^/]+/(.+)", rel)`. -/
def nodesRest (rel : Str) : Option Str :=
  if startsWith rel "etc/pve/nodes/" then
    let node := (rel.drop 14).takeWhile (· ≠ '/')
    let rest := (((rel.drop 14).dropWhile (· ≠ '/')).drop 1).takeWhile (· ≠ '\n')
    if node = [] ∨ rest = [] then none else some rest
  else none

/-- A keyring below `/usr/share/keyrings`. -/
def isKeyring (rel : Str) : Bool :=
  startsWith rel "usr/share/keyrings/" && (endsWith rel ".gpg" || endsWith rel ".asc")

/-- The last checks of `_backup_target_path`. -/
def plainTargetPath (rel : Str) : Option Str :=
  if rel = "root/.ssh/authorized_keys" then some "/root/.ssh/authorized_keys"
  else if isKeyring rel then some ('/' :: rel)
  else if startsWith rel "etc/" || startsWith rel "lib/systemd/network/" then some ('/' :: rel)
  else none

/-- `_backup_target_path` -/
def backupTargetPath (rel localNode : Str) : Option Str :=
  if rel = [] ∨ startsWith rel "cmd/" then none
  else match nodesRest rel with
    | some rest =>
        if localNode ≠ [] then some ("/etc/pve/nodes/" ++ localNode ++ "/" ++ rest)
        else plainTargetPath rel
    | none => plainTargetPath rel

/-! ## The commands -/

inductive RestoreCmd where
  | hostname
  | pathExists (dest : Str)
  | writeFile (dest : Str) (data : List UInt8) (exec : Bool)
  deriving DecidableEq

/-- `dest.rsplit("/", 1)[0]` -/
def parentPath (dest : Str) : Str :=
  if '/' ∈ dest then ((dest.reverse.dropWhile (· ≠ '/')).drop 1).reverse else dest

/-- The command line, with `base64.b64encode` given. -/
def RestoreCmd.text (b64 : List UInt8 → Str) : RestoreCmd → Str
  | .hostname => "hostname"
  | .pathExists dest => "[ -e " ++ shlexQuote dest ++ " ] && echo __EXISTS__ || echo __NO__"
  | .writeFile dest data exec =>
      "mkdir -p " ++ shlexQuote (parentPath dest) ++ " 2>/dev/null; " ++
      "echo " ++ shlexQuote (b64 data) ++ " | base64 -d > " ++ shlexQuote dest ++
      (if exec then " && chmod +x " ++ shlexQuote dest else []) ++ " && echo __OK__"

abbrev RestoreJob (α : Type) := Prog (Host × RestoreCmd) Answer Exn α

abbrev RestoreLog := History (Host × RestoreCmd) Answer

def runRestore (host : Host) (cmd : RestoreCmd) : RestoreJob Answer := Prog.issue (host, cmd)

/-- The node name in an answer to `hostname`. -/
def nodeOfAnswer (r : Answer) : Str :=
  if r.success then beforeFirst '.' (strip r.stdout) else []

/-- `_local_node_name` -/
def localNodeName (host : Host) : RestoreJob Str := do
  let r ← runRestore host .hostname
  return nodeOfAnswer r

/-! ## The restore -/

structure MemberResult where
  success : Bool
  found : Option Bool := none
  dest : Option Str := none
  error : Option Str := none
  stderr : Option Str := none
  deriving DecidableEq

def notRestored (error : Str) : MemberResult := { success := false, error := some error }

/-- Write one file to its path, unless it is there already. -/
def writeMember (host : Host) (dest : Str) (data : List UInt8) (exec force : Bool) :
    RestoreJob MemberResult := do
  let ex ← runRestore host (.pathExists dest)
  let found := contains ex.stdout "__EXISTS__"
  if found && !force then
    return { notRestored "target exists" with found := some true, dest := some dest }
  else do
    let w ← runRestore host (.writeFile dest data exec)
    return { success := contains w.stdout "__OK__"
             found := some found
             dest := some dest
             stderr := some ((strip w.stderr).take 200) }

/-- The file of the archive with its data and whether it is executable. -/
def readMember (archive : Archive) (member : Str) : Except MemberResult (List UInt8 × Bool) :=
  match archive with
  | .error e => .error (notRestored (e.take 200))
  | .ok members =>
      match getMember members member with
      | none => .error (notRestored "file not found in backup")
      | some info =>
          if info.isFile then
            match info.data with
            | .error e => .error (notRestored (e.take 200))
            | .ok data => .ok (data, info.mode &&& 0o111 ≠ 0)
          else .error (notRestored "file not found in backup")

/-- Restore one file for a node whose name is known. -/
def restoreFor (host : Host) (member : Str) (file : List UInt8 × Bool) (force : Bool)
    (localNode : Str) : RestoreJob MemberResult :=
  match backupTargetPath (rel member) localNode with
  | none => return notRestored "file is not restorable"
  | some dest => writeMember host dest file.1 file.2 force

/-- `restore_backup_file` -/
def restoreBackupFile (host : Host) (archive : Archive) (member : Str) (force : Bool)
    (localNode : Option Str) : RestoreJob MemberResult :=
  match readMember archive member with
  | .error r => return r
  | .ok file => do
      let node ← (match localNode with
        | some node => return node
        | none => localNodeName host)
      restoreFor host member file force node

/-! ## Restoring many files -/

structure BatchResult where
  success : Bool
  error : Option Str := none
  results : List (Str × MemberResult) := []
  restored : Nat := 0
  skipped : Nat := 0
  failed : Nat := 0
  total : Nat := 0
  deriving DecidableEq

/-- `_restorable_members` -/
def restorableMembers (archive : Archive) (predicate : Str → Bool) :
    Except Str (List (Str × Str)) :=
  archive.map (fun members => members.filterMap (fun m =>
    if m.isFile && (rel m.name != [] && (backupTargetPath (rel m.name) "x").isSome) &&
      predicate (rel m.name)
    then some (m.name, rel m.name) else none))

/-- The loop of `_restore_member_list`. -/
def restoreEach (host : Host) (archive : Archive) (force : Bool) (node : Str) :
    List (Str × Str) → RestoreJob (List (Str × MemberResult))
  | [] => return []
  | (member, path) :: members => do
      let res ← restoreBackupFile host archive member force (some node)
      let results ← restoreEach host archive force node members
      return (path, res) :: results

def batchResult (results : List (Str × MemberResult)) : BatchResult :=
  let restored := results.countP (fun r => r.2.success)
  let skipped := results.countP (fun r => r.2.found = some true && !r.2.success)
  let failed := results.length - restored - skipped
  { success := failed = 0
    results := results
    restored := restored
    skipped := skipped
    failed := failed
    total := results.length }

/-- `_restore_member_list` -/
def restoreMemberList (host : Host) (archive : Archive) (members : List (Str × Str))
    (force : Bool) : RestoreJob BatchResult :=
  if members = [] then return { success := true }
  else do
    let node ← localNodeName host
    let results ← restoreEach host archive force node members
    return batchResult results

/-- The members that meet the predicate, restored. -/
def restoreWhere (host : Host) (archive : Archive) (predicate : Str → Bool) (force : Bool) :
    RestoreJob BatchResult :=
  match restorableMembers archive predicate with
  | .error e => return { success := false, error := some (e.take 200) }
  | .ok members => restoreMemberList host archive members force

/-- `restore_backup_category` -/
def restoreBackupCategory (host : Host) (archive : Archive) (category : Str) (force : Bool) :
    RestoreJob BatchResult :=
  restoreWhere host archive (fun rel => (categorize rel).name = category) force

/-- `_NON_CONFIG_CATEGORIES` -/
def nonConfigCategories : List Category := [.guests, .info, .cluster]

/-- `restore_all_configs` -/
def restoreAllConfigs (host : Host) (archive : Archive) (force : Bool) : RestoreJob BatchResult :=
  restoreWhere host archive (fun rel => !nonConfigCategories.contains (categorize rel)) force

end PveZfsTool
