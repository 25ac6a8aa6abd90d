import PveZfsTool.Host
import PveZfsTool.Lib.LineFile
import Mathlib.Logic.Function.Basic

/-!
# The rotation of the tool's SSH key

`rotate_ssh_keys` of `app/ssh_manager.py` makes a new key pair, adds its
public line to `authorized_keys` on every host, swaps the key files, checks
the new key on each host and removes the old line there.

The requests of a `RotateJob` are the file operations of the container and
the commands on the hosts.  Every one of them can fail.  `KeyTool` stands for
`ssh-keygen` and for the sshd of the hosts, and `rotateEnv` says what a
request does to the files and to `authorized_keys`:

* a command that is not confirmed may have run, and an append may have been
  cut off in the middle of the line;
* `shutil.move` between file systems copies, so a move that fails may leave
  part of the file at its destination.
-/

namespace PveZfsTool.Rotation

open Dialogue Text

/-! ## The requests -/

/-- An entry of `hosts.json`. -/
structure RegisteredHost where
  host : Host
  name : Option Str
  deriving DecidableEq

/-- The commands that a rotation sends to a host. -/
inductive KeyCmd where
  /-- `_append_authorized_key` -/
  | append (line : Str)
  /-- `_remove_authorized_key` -/
  | remove (pubkey : Str)
  | echoOk
  deriving DecidableEq

def KeyCmd.text : KeyCmd → Str
  | .append line =>
      "mkdir -p ~/.ssh && chmod 700 ~/.ssh && " ++
      "touch ~/.ssh/authorized_keys && chmod 600 ~/.ssh/authorized_keys && " ++
      "grep -qxF " ++ shlexQuote line ++ " ~/.ssh/authorized_keys || " ++
      "echo " ++ shlexQuote line ++ " >> ~/.ssh/authorized_keys"
  | .remove pubkey =>
      "if grep -qxF " ++ shlexQuote pubkey ++ " ~/.ssh/authorized_keys 2>/dev/null; then " ++
      "  grep -vxF " ++ shlexQuote pubkey ++ " ~/.ssh/authorized_keys > ~/.ssh/.ak_new && " ++
      "  mv ~/.ssh/.ak_new ~/.ssh/authorized_keys && " ++
      "  chmod 600 ~/.ssh/authorized_keys; " ++ "fi"
  | .echoOk => "echo ok"

inductive RotateReq where
  /-- `os.path.exists` -/
  | pathExists (path : Str)
  /-- `open(path)` and `read()` -/
  | readText (path : Str)
  /-- `os.remove` -/
  | remove (path : Str)
  /-- `ssh-keygen -t ed25519 -f path -N "" -C pvezfs-tool-rotated` -/
  | keygen (path : Str)
  | loadHosts
  /-- `shutil.move` -/
  | move (src dst : Str)
  /-- `os.chmod(path, 0o600)` -/
  | chmod (path : Str)
  | invalidateAll
  /-- `_drop` -/
  | drop (host : Host)
  | run (host : Host) (cmd : KeyCmd)
  deriving DecidableEq

/-- The exceptions that the `except` clauses of the rotation tell apart. -/
inductive RotateExn where
  /-- `FileNotFoundError`, which is an `OSError` -/
  | fileNotFound (text : Str)
  | osError (text : Str)
  | calledProcess (stdout stderr text : Str)
  | other (text : Str)
  deriving DecidableEq

def RotateExn.text : RotateExn → Str
  | .fileNotFound text => text
  | .osError text => text
  | .calledProcess _ _ text => text
  | .other text => text

/-- How a request ended.  Each request gives the fields it has a value for,
and the others are not read. -/
structure RotateReply where
  failure : Option RotateExn := none
  present : Bool := false
  text : Str := []
  hosts : List RegisteredHost := []
  answer : Answer := noAnswer
  deriving DecidableEq

abbrev RotateJob (α : Type) := Prog RotateReq RotateReply RotateExn α

/-- A request that raises its failure. -/
def call (q : RotateReq) : RotateJob RotateReply := do
  let r ← Prog.issue q
  match r.failure with
  | some e => .raise e
  | none => return r

def pathExists (path : Str) : RotateJob Bool := do
  let r ← Prog.issue (.pathExists path)
  return r.present

/-- `run_command`, which does not raise. -/
def runKeyCmd (host : Host) (cmd : KeyCmd) : RotateJob Answer := do
  let r ← Prog.issue (.run host cmd)
  return r.answer

/-! ## The key files and the hosts -/

/-- `SSH_KEY` -/
def sshKey : Str := "/root/.ssh/id_ed25519"

/-- `tmp_key` -/
def tmpKey : Str := "/tmp/pvezfs_rotate_key"

/-- `get_public_key` -/
def getPublicKey : RotateJob (Option Str) := do
  let present ← pathExists (sshKey ++ ".pub")
  if present then do
    let r ← call (.readText (sshKey ++ ".pub"))
    return some (strip r.text)
  else return none

/-- `_append_authorized_key` -/
def appendAuthorizedKey (host : Host) (pubkey : Str) (options : Option Str) : RotateJob Answer :=
  match options with
  | none => runKeyCmd host (.append pubkey)
  | some options =>
      if options = [] then runKeyCmd host (.append pubkey)
      else runKeyCmd host (.append (options ++ " " ++ pubkey))

/-- `_remove_authorized_key` -/
def removeAuthorizedKey (host : Host) (pubkey : Str) : RotateJob Answer :=
  runKeyCmd host (.remove pubkey)

/-- `test_connection` -/
def testConnection (host : Host) : RotateJob Bool := do
  let r ← runKeyCmd host .echoOk
  return r.success

/-- The entry of a host in `results`. -/
structure HostResult where
  host : Str
  name : Str
  deploy : Bool
  deployError : Str
  verify : Option Bool
  cleanup : Option Bool
  deriving DecidableEq

structure RotateResult where
  success : Bool
  error : Option Str := none
  newPubkey : Option Str := none
  oldPubkeyRemovedOnAll : Option Bool := none
  results : Option (List HostResult) := none
  note : Option Str := none
  warning : Option Str := none
  deriving DecidableEq

def refused (error : Str) : RotateResult := { success := false, error := some error }

/-! ## The steps -/

/-- `os.remove(p)`, where an `OSError` is passed over. -/
def removeQuietly (path : Str) : RotateJob Unit := do
  let r ← (call (.remove path)).attempt
  match r with
  | .ok _ => return ()
  | .error (.fileNotFound _) => return ()
  | .error (.osError _) => return ()
  | .error e => .raise e

/-- Clean temp files from a previous abort. -/
def cleanTemp : List Str → RotateJob Unit
  | [] => return ()
  | p :: paths => do
      let present ← pathExists p
      (if present then removeQuietly p else return ())
      cleanTemp paths

/-- The two files of a key. -/
def keyFiles (path : Str) : List Str := [path, path ++ ".pub"]

/-- `stderr or stdout or "unknown error"` -/
def deployError (r : Answer) : Str :=
  if r.success then []
  else if r.stderr ≠ [] then r.stderr
  else if r.stdout ≠ [] then r.stdout
  else "unknown error"

/-- Deploy the new public key to all hosts. -/
def deployAll (newPub : Str) : List RegisteredHost → RotateJob (List HostResult)
  | [] => return []
  | h :: hosts => do
      let r ← appendAuthorizedKey h.host newPub none
      let results ← deployAll newPub hosts
      return ⟨h.host.address, h.name.getD h.host.address, r.success, deployError r, none, none⟩ ::
        results

/-- Remove the new key from the hosts where the deployment succeeded. -/
def rollBack (newPub : Str) : List (RegisteredHost × HostResult) → RotateJob Unit
  | [] => return ()
  | (h, res) :: rest => do
      let _ ← (if res.deploy then removeAuthorizedKey h.host newPub else return noAnswer)
      rollBack newPub rest

def removeTemp : List Str → RotateJob Unit
  | [] => return ()
  | p :: paths => do
      removeQuietly p
      removeTemp paths

/-- Remove any stale `.old` from a previous rotation. -/
def removeStale (suf : Str) : RotateJob RotateReply := do
  let stale ← pathExists (sshKey ++ suf ++ ".old")
  if stale then call (.remove (sshKey ++ suf ++ ".old")) else return {}

/-- Move the old file out of the way. -/
def parkOld (suf : Str) : RotateJob RotateReply := do
  let present ← pathExists (sshKey ++ suf)
  if present then call (.move (sshKey ++ suf) (sshKey ++ suf ++ ".old")) else return {}

/-- One file of the swap.  Only the swap after a deployment removes a stale
`.old`. -/
def swapFile (dropStale : Bool) (suf : Str) : RotateJob RotateReply := do
  let _ ← (if dropStale then removeStale suf else return {})
  let _ ← parkOld suf
  call (.move (tmpKey ++ suf) (sshKey ++ suf))

/-- The swap of the private and of the public file. -/
def swapFiles (dropStale : Bool) : RotateJob RotateReply := do
  let _ ← swapFile dropStale []
  let _ ← swapFile dropStale ".pub"
  call (.chmod sshKey)

/-- No hosts configured: the key is only swapped locally. -/
def rotateAlone (newPub : Str) : RotateJob RotateResult := do
  let swapped ← (swapFiles false).attempt
  match swapped with
  | .error e => return refused ("local swap failed: " ++ e.text)
  | .ok _ => return { success := true, newPubkey := some newPub, results := some [],
                      note := some "No hosts configured; key rotated locally only." }

/-- Remove the old key from a host that takes the new one. -/
def retireOld (oldPub : Str) (host : Host) (ok : Bool) : RotateJob Bool :=
  if ok && oldPub ≠ [] then do
    let r ← removeAuthorizedKey host oldPub
    return r.success
  else return false

/-- Verify the new key on every host, then remove the old one there. -/
def verifyAll (oldPub : Str) : List (RegisteredHost × HostResult) → RotateJob (List HostResult)
  | [] => return []
  | (h, res) :: rest => do
      let _ ← Prog.issue (.drop h.host)
      let ok ← testConnection h.host
      let cleanup ← retireOld oldPub h.host ok
      let results ← verifyAll oldPub rest
      return { res with verify := some ok, cleanup := some cleanup } :: results

/-- The result of a rotation that went through all hosts. -/
def verifiedResult (newPub : Str) (results : List HostResult) : RotateResult :=
  let allVerified := results.all (fun r => r.verify = some true)
  { success := allVerified
    newPubkey := some newPub
    oldPubkeyRemovedOnAll := some (results.all (fun r => r.cleanup = some true))
    results := some results
    warning := if allVerified then none else some
      ("New key does not authenticate on some hosts — old key was kept " ++
      "on those hosts so you are not locked out. Investigate and re-run " ++
      "rotation or fix authorized_keys manually.") }

/-- What follows the deployment. -/
def finishRotation (oldPub newPub : Str) (hosts : List RegisteredHost)
    (results : List HostResult) : RotateJob RotateResult := do
  if results.any (fun r => !r.deploy) then do
    rollBack newPub (hosts.zip results)
    removeTemp (keyFiles tmpKey)
    return { refused "Deployment failed on one or more hosts; rolled back" with
             results := some results }
  else do
    let swapped ← (swapFiles true).attempt
    match swapped with
    | .error e => return { refused ("local key swap failed: " ++ e.text) with
                           results := some results
                           warning := some ("New key is deployed to hosts but local swap " ++
                             "failed — old key still active.") }
    | .ok _ => do
        let _ ← Prog.issue .invalidateAll
        let results ← verifyAll oldPub (hosts.zip results)
        return verifiedResult newPub results

/-- The rotation to a key pair that was made. -/
def rotateTo (oldPub newPub : Str) : RotateJob RotateResult := do
  let loaded ← call .loadHosts
  if loaded.hosts = [] then rotateAlone newPub
  else do
    let results ← deployAll newPub loaded.hosts
    finishRotation oldPub newPub loaded.hosts results

/-- What follows a key pair that was made: its public line is read. -/
def readNewPub (oldPub : Str) : RotateJob RotateResult := do
  let r ← (call (.readText (tmpKey ++ ".pub"))).attempt
  match r with
  | .error e => return refused ("cannot read new public key: " ++ e.text)
  | .ok r => rotateTo oldPub (strip r.text)

/-- `rotate_ssh_keys` -/
def rotateSshKeys : RotateJob RotateResult := do
  let oldPub ← getPublicKey
  cleanTemp (keyFiles tmpKey)
  let made ← (call (.keygen tmpKey)).attempt
  match made with
  | .error (.fileNotFound _) => return refused "ssh-keygen not available in container"
  | .error (.calledProcess stdout stderr _) =>
      return refused ("ssh-keygen failed: " ++ if stderr ≠ [] then stderr else stdout)
  | .error e => .raise e
  | .ok _ => readNewPub (oldPub.getD [])

/-! ## What the requests do -/

/-- The key files of the container and the text of `authorized_keys` of each
account that a host entry logs in to. -/
structure RotateWorld (μ : Type) where
  files : Str → Option Str
  keys : μ → Str

/-- `ssh-keygen` and the sshd of the hosts. -/
structure KeyTool (κ μ : Type) where
  /-- The key in a private key file. -/
  parse : Str → Option κ
  /-- The line of the public file of a new key. -/
  pubLine : κ → Str
  /-- The sshd of the account takes the key for this line of
  `authorized_keys`. -/
  grants : μ → Str → κ → Prop
  /-- The sshd of the account takes the key for another reason. -/
  elsewhere : μ → κ → Prop
  strip_pubLine : ∀ k, strip (pubLine k ++ ['\n']) = pubLine k
  pubLine_line : ∀ k, '\n' ∉ pubLine k
  /-- A public line lets in its own key only. -/
  grants_pubLine : ∀ m k k', grants m (pubLine k) k' → k' = k

variable {κ μ : Type}

/-- No file of the tool holds the key, and none has a line that lets it in. -/
def KeyTool.Fresh (T : KeyTool κ μ) (files : Str → Option Str) (k : κ) : Prop :=
  ∀ p s, files p = some s → T.parse s ≠ some k ∧
    ∀ line ∈ splitOn '\n' (strip s), ∀ m, ¬ T.grants m line k

/-- `authorized_keys` after `_remove_authorized_key`.  Where no line would be
left, `grep` fails and the file stays. -/
def withoutKey (pubkey s : Str) : Str :=
  if fixedMatches pubkey s then
    if dropMatching pubkey s = [] then s else unlines (dropMatching pubkey s)
  else s

variable [DecidableEq μ]

/-- What a command does to the `authorized_keys` of the account. -/
def keyEffect (s : Str) : KeyCmd → Answer → Str → Prop
  | .append line, a, s' =>
      ∃ t, t <+: line ++ ['\n'] ∧ s' = s ++ t ∧
        (a.success = true → t = line ++ ['\n'] ∨ t = [] ∧ fixedMatches line s = true)
  | .remove pubkey, a, s' =>
      s' = withoutKey pubkey s ∨ s' = s ∧ a.success = false
  | .echoOk, _, s' => s' = s

/-- What a request does.  `account` is the account a host entry logs in to,
and `registered` is the content of `hosts.json`. -/
def rotateRespond (T : KeyTool κ μ) (account : Host → μ) (registered : List RegisteredHost)
    (w : RotateWorld μ) : RotateReq → RotateReply → RotateWorld μ → Prop
  | .pathExists p, a, w' => a.present = (w.files p).isSome ∧ w' = w
  | .readText p, a, w' => (a.failure = none → w.files p = some a.text) ∧ w' = w
  | .remove p, a, w' =>
      w' = if a.failure = none then { w with files := Function.update w.files p none } else w
  | .keygen p, a, w' =>
      w'.keys = w.keys ∧ (∀ q, q ≠ p → q ≠ p ++ ".pub" → w'.files q = w.files q) ∧
        (a.failure = none → ∃ k secret, T.Fresh w.files k ∧ T.parse secret = some k ∧
          w'.files p = some secret ∧ w'.files (p ++ ".pub") = some (T.pubLine k ++ ['\n']))
  | .loadHosts, a, w' => (a.failure = none → a.hosts = registered) ∧ w' = w
  | .move src dst, a, w' =>
      if a.failure = none then
        (w.files src).isSome = true ∧ w' = { w with
          files := Function.update (Function.update w.files dst (w.files src)) src none }
      else ∃ x, (x = none → w.files dst = none) ∧
        w' = { w with files := Function.update w.files dst x }
  | .chmod _, _, w' => w' = w
  | .invalidateAll, _, w' => w' = w
  | .drop _, _, w' => w' = w
  | .run host cmd, a, w' =>
      ∃ s', keyEffect (w.keys (account host)) cmd a.answer s' ∧
        w' = { w with keys := Function.update w.keys (account host) s' }

/-- The container and the hosts.  Nobody else acts during a rotation. -/
def rotateEnv (T : KeyTool κ μ) (account : Host → μ) (registered : List RegisteredHost) :
    Env (RotateWorld μ) RotateReq RotateReply Empty where
  respond := rotateRespond T account registered
  move _ m _ := m.elim

end PveZfsTool.Rotation
