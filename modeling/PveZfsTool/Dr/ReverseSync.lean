import PveZfsTool.GuestConfig

/-!
# Sending a replica back

`reverse_sync_async` of `app/dr.py` and the job it starts: the arguments are
checked, the snapshot is determined, and the replica is sent to the source
host over SSH.  With `force` the destination is asked for snapshots first.

The job runs on the host that holds the replica.  The log lines of the job are
left out.
-/

namespace PveZfsTool

open Dialogue Text

/-- Where the data goes: a dataset on a host that is reached over SSH. -/
structure Destination where
  user : Str
  address : Str
  port : Int
  dataset : Str
  deriving DecidableEq

/-- The command lines of the job. -/
inductive DrCmd where
  | refreshHostKey (address : Str) (port : Int)
  | newestSnapshot (replica : Str)
  | destinationCheck (dest : Destination)
  | sendReceive (fullSnap : Str) (dest : Destination) (force : Bool)
  deriving DecidableEq

/-- `ssh {ssh_opts} {user@address}` -/
def Destination.ssh (dest : Destination) : Str :=
  "ssh -o BatchMode=yes -o StrictHostKeyChecking=yes -o ConnectTimeout=20 -p " ++
    ofInt dest.port ++ " " ++ shlexQuote (dest.user ++ "@" ++ dest.address)

/-- The command line that is sent to the host. -/
def DrCmd.text : DrCmd → Str
  | .refreshHostKey address port =>
      "mkdir -p ~/.ssh && chmod 700 ~/.ssh; touch ~/.ssh/known_hosts; " ++
        "ssh-keygen -f ~/.ssh/known_hosts -R " ++ shlexQuote address ++ " >/dev/null 2>&1; " ++
        "ssh-keygen -f ~/.ssh/known_hosts -R " ++
        shlexQuote ("[" ++ address ++ "]:" ++ ofInt port) ++ " >/dev/null 2>&1; " ++
        "ssh-keyscan -T 10 -p " ++ ofInt port ++ " " ++ shlexQuote address ++ " 2>/dev/null " ++
        "| tee -a ~/.ssh/known_hosts | ssh-keygen -lf - 2>/dev/null | head -n 3"
  | .newestSnapshot replica =>
      "zfs list -H -t snapshot -o name -s creation -r -d 1 " ++ shlexQuote replica ++
        " 2>/dev/null | tail -n 1"
  | .destinationCheck dest =>
      dest.ssh ++ " 'zfs list -H -t snapshot -o name -r -d 1 " ++ shlexQuote dest.dataset ++
        " 2>/dev/null | head -5'"
  | .sendReceive fullSnap dest force =>
      "set -o pipefail 2>/dev/null; zfs send -R " ++ shlexQuote fullSnap ++ " | " ++ dest.ssh ++
        " 'zfs recv " ++ (if force then "-F" else "") ++ " " ++ shlexQuote dest.dataset ++
        "' 2>&1; echo __exit=$?"

/-- A function of `dr.py` on one host. -/
abbrev DrJob (α : Type) := Prog (Host × DrCmd) Answer Exn α

/-- The commands run so far and their answers. -/
abbrev DrLog := History (Host × DrCmd) Answer

/-- `run_command(host, cmd)` -/
def runDr (host : Host) (cmd : DrCmd) : DrJob Answer := Prog.issue (host, cmd)

/-! ## The arguments -/

/-- `_DS_RE` of `dr.py` -/
def matchesDsRe : Str → Bool := atDollar (fun s => s != [] && s.all isDatasetChar)

/-- `_SNAP_RE` -/
def matchesSnapRe : Str → Bool :=
  atDollar (fun s => s != [] && s.all (fun c => isDatasetChar c || c == '@'))

/-- `^[A-Za-z0-9._:-]+$` -/
def matchesAddress : Str → Bool :=
  atDollar (fun s => s != [] && s.all (fun c => isAsciiAlnum c || "._:-".toList.contains c))

/-- `^[A-Za-z0-9_.-]+$` -/
def matchesUser : Str → Bool :=
  atDollar (fun s => s != [] && s.all (fun c => isAsciiAlnum c || "_.-".toList.contains c))

/-- The arguments of `reverse_sync_async`.  A text is empty where the request
leaves it out. -/
structure ReverseRequest where
  targetHost : Host
  replicaDataset : Str
  replicaRoot : Str
  sourceAddress : Str
  sourcePort : Int
  sourceUser : Str
  sourceDataset : Str
  snapshot : Str
  force : Bool
  refreshHostKey : Bool
  deriving DecidableEq

/-- `_strip_replica_root` -/
def stripReplicaRoot (replica root : Str) : Str :=
  if startsWith replica (root ++ "/") then replica.drop (root.length + 1) else []

/-- The dataset the data goes to: the one of the request, or the one the
replica was made from. -/
def ReverseRequest.destDataset (req : ReverseRequest) : Str :=
  if req.sourceDataset = [] then stripReplicaRoot req.replicaDataset req.replicaRoot
  else req.sourceDataset

/-- `int(source_port or 22)` -/
def ReverseRequest.port (req : ReverseRequest) : Int :=
  if req.sourcePort = 0 then 22 else req.sourcePort

/-- The destination of a request. -/
def ReverseRequest.dest (req : ReverseRequest) : Destination :=
  ⟨if req.sourceUser = [] then "root" else req.sourceUser, req.sourceAddress, req.port,
    req.destDataset⟩

/-- A dataset below a pool. -/
def isDataset (ds : Str) : Bool := matchesDsRe ds && ds.contains '/'

/-- The message of the `ValueError` that the arguments raise, if any. -/
def ReverseRequest.invalid (req : ReverseRequest) : Option Str :=
  if ¬ isDataset req.replicaDataset then some "invalid replica dataset"
  else if ¬ isDataset req.replicaRoot then some "invalid replica root"
  else if ¬ matchesAddress req.sourceAddress then some "invalid source address"
  else if req.sourceUser ≠ [] ∧ ¬ matchesUser req.sourceUser then some "invalid source user"
  else if ¬ (1 ≤ req.port ∧ req.port ≤ 65535) then some "invalid source port"
  else if ¬ isDataset req.destDataset then some "could not determine valid source dataset"
  else none

/-! ## The job -/

/-- What the job returns. -/
inductive ReverseResult where
  | refused (error : Str)
  /-- The destination holds snapshots. -/
  | aborted (error fullSnap dataset : Str)
  | finished (success : Bool) (exitCode : Option Nat) (fullSnap : Str) (dest : Destination)
      (force hostKeyError : Bool) (logTail : Str)
  deriving DecidableEq

/-- The refresh of the host key, if the request wants it.  Its answer is only
logged. -/
def refreshKey (req : ReverseRequest) : DrJob Unit :=
  if req.refreshHostKey then do
    let _ ← runDr req.targetHost (.refreshHostKey req.dest.address req.dest.port)
    return ()
  else return ()

/-- The snapshot in the output of the newest-snapshot query, if it lists
one. -/
def newestOf (r : Answer) : Option Str :=
  let line := strip r.stdout
  if '@' ∈ line then some (afterFirst '@' line) else none

/-- The snapshot to send: that of the request, or the newest of the
replica. -/
def chooseSnapshot (req : ReverseRequest) : DrJob (Option Str) :=
  if req.snapshot ≠ [] then return some req.snapshot
  else do
    let r ← runDr req.targetHost (.newestSnapshot req.replicaDataset)
    return newestOf r

/-- The lines of the destination check that are not blank. -/
def destSnapshots (r : Answer) : List Str := ((splitLines r.stdout).map strip).filter (· ≠ [])

/-- `parse_exit_marker`, inlined in the job.  `int` raises on more digits than
it converts. -/
def transferExit (out : Str) : Except Exn (Option Nat) :=
  match splitExitMarker (strip out) with
  | none => .ok none
  | some (_, digits) =>
      match unsignedValue digits with
      | some n => .ok (some n)
      | none => .error (.invalidInt digits)

/-- The search for a host key that changed. -/
def hostKeyError (out : Str) : Bool :=
  contains out "REMOTE HOST IDENTIFICATION HAS CHANGED" ||
    contains out "Host key verification failed"

/-- The transfer and its result. -/
def sendReplica (req : ReverseRequest) (fullSnap : Str) : DrJob ReverseResult := do
  let r ← runDr req.targetHost (.sendReceive fullSnap req.dest req.force)
  match transferExit r.stdout with
  | .error e => .raise e
  | .ok code =>
    return .finished (r.success && code = some 0) code fullSnap req.dest req.force
      (hostKeyError r.stdout) (lastN 3000 (withoutExitMarker r.stdout))

/-- The refusal of a destination that holds snapshots. -/
def refuseForced (dataset fullSnap : Str) (count : Nat) : ReverseResult :=
  .aborted ("Refusing forced reverse-sync: destination " ++ dataset ++ " still has " ++
    ofNat count ++ " snapshot(s) -- the source looks intact, forcing would destroy live data. " ++
    "Remove the destination dataset first if this really is a rebuild.") fullSnap dataset

/-- The destination check of a forced transfer, and the transfer. -/
def checkAndSend (req : ReverseRequest) (fullSnap : Str) : DrJob ReverseResult :=
  if req.force then do
    let cr ← runDr req.targetHost (.destinationCheck req.dest)
    if destSnapshots cr ≠ [] then
      return refuseForced req.dest.dataset fullSnap (destSnapshots cr).length
    else sendReplica req fullSnap
  else sendReplica req fullSnap

/-- The job that `reverse_sync_async` starts. -/
def reverseJob (req : ReverseRequest) : DrJob ReverseResult := do
  refreshKey req
  match ← chooseSnapshot req with
  | none => return .refused ("no snapshots found under " ++ req.replicaDataset)
  | some snap =>
    if matchesSnapRe snap then checkAndSend req (req.replicaDataset ++ "@" ++ snap)
    else return .refused "invalid snapshot name"

/-- `reverse_sync_async`: the arguments are checked, then the job runs. -/
def reverseSync (req : ReverseRequest) : DrJob ReverseResult :=
  match req.invalid with
  | some message => .raise (.valueError message)
  | none => reverseJob req

end PveZfsTool
