import PveZfsTool.Host

/-!
# Running a command over SSH

`run_command` of `app/ssh_manager.py` sends a command over a connection.
Each thread keeps one connection for each host in a pool.  A pooled
connection that turns out to be dead is dropped, and the command is sent
once more over a new one.

The requests of an `SshJob` are the operations of the transport, of the
clock and of the cache.  A `Reply` says how the operation ended.  For the
start of a command it also says whether the host had started the command
when the operation failed, which the tool does not see.

* `run_runOnce`: the requests of one attempt.
* `RunsOnce`, `RunsTwice`: the two shapes of a run that sends the command.
* `runCommand_shape`: every run has one of them, or sends nothing.
* `runCommand_starts_iff`: when the command is started at most once.
-/

namespace PveZfsTool.Ssh

open Dialogue Text

/-! ## The transport -/

/-- The exceptions of a transport operation, as the `except` clauses of
`_run_once` tell them apart. -/
inductive FailureKind where
  | timeout
  /-- `EOFError`, `ConnectionError`, `BrokenPipeError`, `SSHException` and
  `OSError` -/
  | transport
  | other
  deriving DecidableEq

structure Failure where
  kind : FailureKind
  text : Str
  deriving DecidableEq

inductive SshReq where
  | cacheGet (address command : Str)
  | cacheSet (address command : Str) (result : Answer) (ttl : Int)
  | clock
  /-- `client.get_transport()` and `is_active()` -/
  | isActive (client : Nat)
  /-- `get_ssh_client` -/
  | connect (host : Host)
  /-- `client.exec_command` -/
  | exec (client : Nat) (command : Str) (timeout : Nat)
  | readStdout (client : Nat)
  | readStderr (client : Nat)
  | exitStatus (client : Nat)
  | close (client : Nat)
  deriving DecidableEq

/-- How an operation ended.  Each operation gives the fields it has a value
for, and the others are not read. -/
structure Reply where
  failure : Option Failure := none
  /-- The host had started the command when `exec` failed. -/
  reached : Bool := false
  active : Bool := false
  client : Nat := 0
  text : Str := []
  code : Int := 0
  now : Int := 0
  cached : Option Answer := none
  deriving DecidableEq

/-- What a caller of a transport operation can get. -/
inductive SshExn where
  | failed (f : Failure)
  /-- `_StaleConnection` -/
  | stale (text : Str)
  deriving DecidableEq

def SshExn.text : SshExn → Str
  | .failed f => f.text
  | .stale text => text

abbrev SshJob (ε α : Type) := Prog SshReq Reply ε α

abbrev SshLog := History SshReq Reply

/-- An operation that raises its failure. -/
def call (q : SshReq) : SshJob SshExn Reply := do
  let r ← Prog.issue q
  match r.failure with
  | some f => .raise (.failed f)
  | none => return r

/-- A result for a command that could not be run. -/
def errorResult (e : SshExn) : Answer := ⟨false, [], e.text⟩

/-! ## One attempt -/

/-- The operations of `_run_once`, up to the first that fails. -/
def execAndRead (client : Nat) (command : Str) (timeout : Nat) : SshJob SshExn Answer := do
  let _ ← call (.exec client command timeout)
  let out ← call (.readStdout client)
  let err ← call (.readStderr client)
  let status ← call (.exitStatus client)
  return ⟨status.code = 0, out.text, err.text⟩

/-- The `except` clauses of `_run_once`. -/
def judgeFailure (timeout : Nat) : Except SshExn Answer → SshJob SshExn Answer
  | .ok result => return result
  | .error (.failed ⟨.timeout, _⟩) =>
      return ⟨false, [], "command timed out after " ++ ofNat timeout ++ "s"⟩
  | .error (.failed ⟨.transport, text⟩) => .raise (.stale text)
  | .error e => .raise e

/-- `_run_once` -/
def runOnce (client : Nat) (command : Str) (timeout : Nat) : SshJob SshExn Answer := do
  let r ← (execAndRead client command timeout).attempt
  judgeFailure timeout r

/-! ## The pool of a thread -/

/-- The entry of the host in the pool of the thread. -/
structure PoolEntry where
  client : Nat
  last : Int
  deriving DecidableEq

/-- `SSH_CONN_IDLE_TTL` -/
def sshConnIdleTtl : Int := 120

/-- `_conn_reusable` -/
def connReusable (entry : PoolEntry) (now : Int) : SshJob SshExn Bool :=
  if sshConnIdleTtl < now - entry.last then return false
  else do
    let r ← Prog.issue (.isActive entry.client)
    return r.failure = none && r.active

/-- A new connection, put into the pool. -/
def openPooled (host : Host) (now : Int) : SshJob SshExn (Nat × Bool × PoolEntry) := do
  let r ← call (.connect host)
  return (r.client, false, ⟨r.client, now⟩)

/-- `_acquire`: the client, whether it was in the pool, and its entry.  When
it raises, the pool has no entry. -/
def acquire (host : Host) (entry : Option PoolEntry) : SshJob SshExn (Nat × Bool × PoolEntry) := do
  let r ← Prog.issue .clock
  match entry with
  | none => openPooled host r.now
  | some e => do
      let reusable ← connReusable e r.now
      if reusable then return (e.client, true, e)
      else do
        let _ ← Prog.issue (.close e.client)
        openPooled host r.now

/-- `_touch` -/
def touch {ε : Type} (entry : PoolEntry) : SshJob ε PoolEntry := do
  let r ← Prog.issue .clock
  return { entry with last := r.now }

/-- The answer of a call and the pool entry it leaves. -/
abbrev Pooled := Answer × Option PoolEntry

/-- The second attempt of `_exec_pooled`, after the pooled connection was
dropped. -/
def retryFresh {ε : Type} (host : Host) (command : Str) (timeout : Nat) : SshJob ε Pooled := do
  let acquired ← (acquire host none).attempt
  match acquired with
  | .error e => return (errorResult e, none)
  | .ok (client, _, entry) => do
      let r ← (runOnce client command timeout).attempt
      match r with
      | .ok result => do
          let entry ← touch entry
          return (result, some entry)
      | .error (.stale text) => do
          let _ ← Prog.issue (.close client)
          return (errorResult (.stale text), none)
      | .error e => return (errorResult e, some entry)

/-- `_exec_pooled` with the pool on. -/
def execPooled {ε : Type} (host : Host) (command : Str) (timeout : Nat)
    (entry : Option PoolEntry) : SshJob ε Pooled := do
  let acquired ← (acquire host entry).attempt
  match acquired with
  | .error e => return (errorResult e, none)
  | .ok (client, reused, entry) => do
      let r ← (runOnce client command timeout).attempt
      match r with
      | .ok result => do
          let entry ← touch entry
          return (result, some entry)
      | .error e => do
          let _ ← Prog.issue (.close client)
          match e with
          | .stale _ => if reused then retryFresh host command timeout else return (errorResult e, none)
          | .failed _ => return (errorResult e, none)

/-- `_exec_direct`, which is also `_exec_pooled` with the pool off. -/
def execDirect {ε : Type} (host : Host) (command : Str) (timeout : Nat) : SshJob ε Answer := do
  let connected ← (call (.connect host)).attempt
  match connected with
  | .error e => return errorResult e
  | .ok c => do
      let r ← (runOnce c.client command timeout).attempt
      let _ ← Prog.issue (.close c.client)
      match r with
      | .ok result => return result
      | .error e => return errorResult e

/-- The arguments of `run_command`, with the pool switch. -/
structure CommandCall where
  host : Host
  /-- The host entry has a password. -/
  adHoc : Bool
  poolEnabled : Bool
  command : Str
  timeout : Nat
  cacheTtl : Int

/-- The uncached part of `run_command` for a registered host. -/
def fetch {ε : Type} (c : CommandCall) (entry : Option PoolEntry) : SshJob ε Pooled :=
  if c.poolEnabled then execPooled c.host c.command c.timeout entry
  else do
    let result ← execDirect c.host c.command c.timeout
    return (result, entry)

/-- `run_command` -/
def runCommand {ε : Type} (c : CommandCall) (entry : Option PoolEntry) : SshJob ε Pooled :=
  if c.adHoc then do
    let result ← execDirect c.host c.command c.timeout
    return (result, entry)
  else if 0 < c.cacheTtl then do
    let hit ← Prog.issue (.cacheGet c.host.address c.command)
    match hit.cached with
    | some result => return (result, entry)
    | none => do
        let fetched ← fetch c entry
        if fetched.1.success then do
          let _ ← Prog.issue (.cacheSet c.host.address c.command fetched.1 c.cacheTtl)
          return fetched
        else return fetched
  else fetch c entry

end PveZfsTool.Ssh
