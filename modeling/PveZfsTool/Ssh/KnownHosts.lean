import PveZfsTool.Ssh.Registry

/-!
# Pinned host keys

`ssh_manager.py` pins the key of a host in its known-hosts file.  `add_host`
stores the key it fetches, and `get_ssh_client` stores the key of a host that
has no pin yet.  Both read the file, change what they have read and write it
back, and nothing serializes them.

The file is read and written by `paramiko.HostKeys`, which `KeyTables` takes as
a parameter, with its documented behaviour as `KeyTables.Lawful`.  `AutoAddPolicy`
saves a key that it adds to the file that `load_host_keys` was given.

`pinStep` lets any number of calls take their steps in any order.
-/

namespace PveZfsTool.Ssh

open Text Runs

/-! ## Tables of host keys -/

/-- A public host key. -/
structure HostKey where
  type : Str
  blob : Str
  deriving DecidableEq

/-- `paramiko.HostKeys`.  `T` is a table of keys, and what a file holds is
known by the table that is read from it. -/
structure KeyTables (T : Type) where
  /-- `HostKeys()` -/
  empty : T
  /-- The keys for a name, `[]` where `lookup` answers `None`. -/
  lookup : T → Str → List HostKey
  /-- `keys()` -/
  names : T → List Str
  add : T → Str → HostKey → T
  /-- `t.load(file)` -/
  load : T → T → T
  /-- `del t[name]` -/
  delete : T → Str → T

/-- An added key replaces one of its type for the name.  A load adds the keys
of the file.  Deleting a name takes no key of another one away. -/
structure KeyTables.Lawful {T : Type} (H : KeyTables T) : Prop where
  lookup_empty : ∀ n, H.lookup H.empty n = []
  mem_add : ∀ t n k m j, j ∈ H.lookup (H.add t n k) m ↔
    m = n ∧ j = k ∨ j ∈ H.lookup t m ∧ ¬ (m = n ∧ j.type = k.type)
  mem_load : ∀ t f m j, j ∈ H.lookup (H.load t f) m ↔
    j ∈ H.lookup f m ∨ j ∈ H.lookup t m ∧ ∀ j' ∈ H.lookup f m, j'.type ≠ j.type
  mem_delete : ∀ t n m j, j ∈ H.lookup (H.delete t n) m → j ∈ H.lookup t m
  mem_delete_of_ne : ∀ t n m j, m ≠ n → j ∈ H.lookup t m → j ∈ H.lookup (H.delete t n) m

/-! ## Names and policies -/

/-- `known_hosts_name` -/
def knownHostsName (address : Str) (port : Int) : Str :=
  let port := if port = 0 then 22 else port
  if port = 22 then address else '[' :: address ++ "]:".toList ++ ofInt port

/-- `s.split("]:")[0]` -/
def beforeBracketColon : Str → Str
  | [] => []
  | ']' :: ':' :: _ => []
  | c :: s => c :: beforeBracketColon s

/-- `name.strip("[]").split("]:")[0].split(":")[0]` -/
def bareName (name : Str) : Str :=
  let isBracket := fun c => c == '[' || c == ']'
  let stripped := ((name.dropWhile isBracket).reverse.dropWhile isBracket).reverse
  beforeFirst ':' (beforeBracketColon stripped)

inductive KeyPolicy where
  | adhoc
  | reject
  | tofu
  deriving DecidableEq

/-- `host_key_policy` -/
def hostKeyPolicy (registered pinned password : Bool) : KeyPolicy :=
  if password && !registered then .adhoc else if pinned then .reject else .tofu

section

variable {T : Type} (H : KeyTables T)

/-- What a new table has loaded.  `readable` says that the load raised
nothing. -/
def openTable (file : Option T) (readable : Bool) : T :=
  match file with
  | some f => if readable then H.load H.empty f else H.empty
  | none => H.empty

/-- The loop of `_forget_host_key`. -/
def forgetNames (address : Str) (t : T) : T :=
  ((H.names t).filter (fun n => bareName n = address)).foldl H.delete t

/-! ## The calls -/

inductive PinCall where
  /-- `fetched` is the key that `get_host_fingerprint` answers. -/
  | addHost (entry : HostRecord) (fetched : Option HostKey)
  | removeHost (address : Str)
  /-- `get_ssh_client` for a host, `password` says that it has one. -/
  | connect (address : Str) (port : Int) (password : Bool)
  deriving DecidableEq

/-- How far a call has come.  `file` is the known-hosts file as the call last
saw it. -/
inductive PinStage (T : Type) where
  | started
  /-- `add_host` has found no entry with the address. -/
  | checked
  | read (file : Option T) (table : T)
  /-- The key of the new host is stored. -/
  | stored
  /-- An ad-hoc connection is about to forget the keys of its address. -/
  | stale
  | forgetting (file : Option T) (table : T)
  | ready (registered : Bool)
  | opened (registered : Bool) (file : Option T) (table : T)
  /-- Connected on first use, the key is to be stored. -/
  | trusted (file : Option T) (table : T)
  | finished

inductive PinEvent where
  | call (t : Nat) (c : PinCall)
  /-- The look into the registry at the beginning. -/
  | check (t : Nat)
  | load (t : Nat) (readable : Bool)
  | save (t : Nat)
  /-- The server offers a key, and the login succeeds or not. -/
  | connect (t : Nat) (offered : HostKey) (authenticated : Bool)
  /-- `add_host` adds the entry, while it holds the lock. -/
  | register (t : Nat)
  deriving DecidableEq

structure PinState (T : Type) where
  hosts : HostsFile
  /-- The known-hosts file, `none` when there is none. -/
  known : Option T
  calls : Nat → Option (PinCall × PinStage T)

def PinState.init (hosts : HostsFile) (known : Option T) : PinState T where
  hosts := hosts
  known := known
  calls := fun _ => none

/-- The address is registered. -/
def isRegistered (hosts : HostsFile) (address : Str) : Bool :=
  hosts.any (fun h => h.address = address)

/-- The call `t` moves on. -/
def PinState.move (s : PinState T) (t : Nat) (c : PinCall) (stage : PinStage T) : PinState T :=
  { s with calls := Function.update s.calls t (some (c, stage)) }

/-- `AutoAddPolicy`: the key is added, and where a file was loaded the table is
merged with it and saved. -/
def autoAdd (known file : Option T) (table : T) (name : Str) (offered : HostKey) :
    Option T × T :=
  let table := H.add table name offered
  match file with
  | some _ =>
      let merged := match known with
        | some f => H.load table f
        | none => table
      (some merged, merged)
  | none => (known, table)

/-- `client.connect` and what follows it.  A key that is known has to match,
and then nothing is stored. -/
def connectStep (s : PinState T) (t : Nat) (c : PinCall) (name : Str) (password registered : Bool)
    (file : Option T) (table : T) (offered : HostKey) (authenticated : Bool) : PinState T :=
  let policy := hostKeyPolicy registered (H.lookup table name ≠ []) password
  if H.lookup table name ≠ [] then s.move t c .finished
  else
    let (known, table) := autoAdd H s.known file table name offered
    let seen := if file.isSome then known else none
    let stage := if policy = .tofu && authenticated then .trusted seen table else .finished
    { s with known := known }.move t c stage

def pinStep (s : PinState T) : PinEvent → Option (PinState T)
  | .call t c =>
      match s.calls t with
      | none => some (s.move t c .started)
      | some _ => none
  | .check t =>
      match s.calls t with
      | some (.addHost entry fetched, .started) =>
          let stage :=
            if isRegistered s.hosts entry.address then .finished
            else if fetched = none then .stored
            else .checked
          some (s.move t (.addHost entry fetched) stage)
      | some (.removeHost address, .started) =>
          some ({ s with hosts := applyCall (.removeHost address) s.hosts }.move t
            (.removeHost address) .finished)
      | some (.connect address port password, .started) =>
          let registered := isRegistered s.hosts address
          let stage := if password && !registered then .stale else .ready registered
          some (s.move t (.connect address port password) stage)
      | _ => none
  | .load t readable =>
      match s.calls t with
      | some (.addHost entry fetched, .checked) =>
          some (s.move t (.addHost entry fetched) (.read s.known (openTable H s.known readable)))
      | some (.connect address port password, .stale) =>
          let table := openTable H s.known readable
          let stage :=
            if s.known.isSome && readable && (H.names table).any (fun n => bareName n = address) then
              .forgetting s.known (forgetNames H address table)
            else .ready false
          some (s.move t (.connect address port password) stage)
      | some (.connect address port password, .ready registered) =>
          some (s.move t (.connect address port password)
            (.opened registered s.known (openTable H s.known readable)))
      | _ => none
  | .save t =>
      match s.calls t with
      | some (.addHost entry (some key), .read _ table) =>
          some ({ s with
            known := some (H.add table (knownHostsName entry.address entry.port) key) }.move t
              (.addHost entry (some key)) .stored)
      | some (.connect address port password, .forgetting _ table) =>
          some ({ s with known := some table }.move t (.connect address port password)
            (.ready false))
      | some (.connect address port password, .trusted _ table) =>
          some ({ s with known := some table }.move t (.connect address port password) .finished)
      | _ => none
  | .connect t offered authenticated =>
      match s.calls t with
      | some (.connect address port password, .opened registered file table) =>
          some (connectStep H s t (.connect address port password) (knownHostsName address port)
            password registered file table offered authenticated)
      | _ => none
  | .register t =>
      match s.calls t with
      | some (.addHost entry fetched, .stored) =>
          some ({ s with hosts := applyCall (.addHost entry) s.hosts }.move t
            (.addHost entry fetched) .finished)
      | _ => none

end

end PveZfsTool.Ssh
