import Mathlib.Algebra.Group.Pi.Basic
import Mathlib.Algebra.Ring.Int.Defs
import PveZfsTool.Lib.Ledger
import PveZfsTool.Ssh.Connection

/-!
# Downloading a file over SSH

`fetch_file` of `app/ssh_manager.py` takes a connection as `run_command` does.  A
pooled connection on which no channel can be opened is dropped, and the download is
tried once more over a new one.  A transfer that has begun is not.

`fetchFile_ledger` says so for every run: at most one transfer begins, each channel
that was opened is closed, and no connection is lost.
-/

namespace PveZfsTool.Ssh

open Dialogue Text

/-! ## The transport -/

inductive SftpReq where
  | ssh (q : SshReq)
  /-- `client.open_sftp` -/
  | openSftp (client : Nat)
  /-- `sftp.get_channel().settimeout` -/
  | setTimeout (client timeout : Nat)
  | get (client : Nat) (remotePath localPath : Str)
  /-- `os.path.getsize` -/
  | getSize (localPath : Str)
  /-- `sftp.close` -/
  | closeSftp (client : Nat)
  deriving DecidableEq

/-- How an operation ended, with the size of a file. -/
structure SftpReply extends Reply where
  size : Nat := 0
  deriving DecidableEq

abbrev SftpJob (ε α : Type) := Prog SftpReq SftpReply ε α

/-- An operation that raises its failure. -/
def sftpCall (q : SftpReq) : SftpJob SshExn SftpReply := do
  let r ← Prog.issue q
  match r.failure with
  | some f => .raise (.failed f)
  | none => return r

/-- What `fetch_file` returns. -/
structure FetchResult where
  success : Bool
  bytes : Nat
  error : Str
  deriving DecidableEq

/-- A result for a download that could not be made. -/
def fetchError (e : SshExn) : FetchResult := ⟨false, 0, e.text⟩

/-! ## One download -/

/-- The first `try` of `_sftp_get_once`. -/
def openChannel (client : Nat) : SftpJob SshExn Unit := do
  let r ← Prog.issue (.openSftp client)
  match r.failure with
  | none => return ()
  | some ⟨.other, text⟩ => .raise (.failed ⟨.other, text⟩)
  | some f => .raise (.stale f.text)

/-- The operations of the second `try`, up to the first that fails. -/
def transfer (client : Nat) (remotePath localPath : Str) (timeout : Nat) : SftpJob SshExn Nat := do
  let _ ← sftpCall (.setTimeout client timeout)
  let _ ← sftpCall (.get client remotePath localPath)
  let r ← sftpCall (.getSize localPath)
  return r.size

/-- The `except` clauses of the second `try`. -/
def judgeTransfer (timeout : Nat) : Except SshExn Nat → FetchResult
  | .ok size => ⟨true, size, []⟩
  | .error (.failed ⟨.timeout, _⟩) => ⟨false, 0, "transfer timed out after " ++ ofNat timeout ++ "s"⟩
  | .error e => fetchError e

/-- `_sftp_get_once` -/
def sftpGetOnce (client : Nat) (remotePath localPath : Str) (timeout : Nat) : SftpJob SshExn FetchResult := do
  openChannel client
  let r ← (transfer client remotePath localPath timeout).attempt
  let _ ← Prog.issue (.closeSftp client)
  return judgeTransfer timeout r

/-! ## With the pool and without it -/

/-- An operation of the pool. -/
def pooled {ε α : Type} (p : SshJob ε α) : SftpJob ε α := p.through .ssh SftpReply.toReply

/-- The result of a call and the pool entry it leaves. -/
abbrev Fetched := FetchResult × Option PoolEntry

/-- The second attempt of `fetch_file`. -/
def fetchFresh {ε : Type} (host : Host) (remotePath localPath : Str) (timeout : Nat) : SftpJob ε Fetched := do
  let acquired ← (pooled (acquire host none)).attempt
  match acquired with
  | .error e => return (fetchError e, none)
  | .ok (client, _, entry) => do
    let r ← (sftpGetOnce client remotePath localPath timeout).attempt
    match r with
    | .ok result => do
      let entry ← pooled (touch entry)
      return (result, some entry)
    | .error (.stale text) => do
      let _ ← Prog.issue (.ssh (.close client))
      return (fetchError (.stale text), none)
    | .error e => return (fetchError e, some entry)

/-- `fetch_file` with the pool on. -/
def fetchPooled {ε : Type} (host : Host) (remotePath localPath : Str) (timeout : Nat) (entry : Option PoolEntry) :
    SftpJob ε Fetched := do
  let acquired ← (pooled (acquire host entry)).attempt
  match acquired with
  | .error e => return (fetchError e, none)
  | .ok (client, reused, entry) => do
    let r ← (sftpGetOnce client remotePath localPath timeout).attempt
    match r with
    | .ok result => do
      let entry ← pooled (touch entry)
      return (result, some entry)
    | .error e => do
      let _ ← Prog.issue (.ssh (.close client))
      match e with
      | .stale _ =>
        if reused then fetchFresh host remotePath localPath timeout else return (fetchError e, none)
      | .failed _ => return (fetchError e, none)

/-- `fetch_file` with the pool off. -/
def fetchDirect {ε : Type} (host : Host) (remotePath localPath : Str) (timeout : Nat) : SftpJob ε FetchResult := do
  let connected ← (sftpCall (.ssh (.connect host))).attempt
  match connected with
  | .error e => return fetchError e
  | .ok c => do
    let r ← (sftpGetOnce c.client remotePath localPath timeout).attempt
    let _ ← Prog.issue (.ssh (.close c.client))
    match r with
    | .ok result => return result
    | .error e => return fetchError e

/-- `fetch_file`, with the pool switch. -/
def fetchFile {ε : Type} (host : Host) (remotePath localPath : Str) (timeout : Nat) (poolEnabled : Bool)
    (entry : Option PoolEntry) : SftpJob ε Fetched :=
  if poolEnabled then fetchPooled host remotePath localPath timeout entry
  else do
    let result ← fetchDirect host remotePath localPath timeout
    return (result, entry)

/-! ## What a download books -/

inductive Account where
  /-- transfers that began -/
  | begun
  /-- transfers that went through -/
  | completed
  /-- channels opened, less those closed -/
  | channels
  /-- connections opened, less those closed -/
  | connections
  deriving DecidableEq

/-- 1 for an operation that succeeded. -/
def succeeded (r : Reply) : Int := if r.failure = none then 1 else 0

/-- What an operation of the pool books. -/
def weighSsh : SshReq → Reply → Account → Int
  | .connect _, r, .connections => succeeded r
  | .close _, _, .connections => -1
  | _, _, _ => 0

def weigh : SftpReq → SftpReply → Account → Int
  | .ssh q, r, account => weighSsh q r.toReply account
  | .openSftp _, r, .channels => succeeded r.toReply
  | .closeSftp _, _, .channels => -1
  | .get .., _, .begun => 1
  | .get .., r, .completed => succeeded r.toReply
  | _, _, _ => 0

/-- The connections in the pool. -/
def held (entry : Option PoolEntry) : Int := if entry.isSome then 1 else 0

/-- The ledger moved on by these amounts. -/
structure Moved (m n : Account → Int) (begun completed channels connections : Int) : Prop where
  begun : n .begun = m .begun + begun
  completed : n .completed = m .completed + completed
  channels : n .channels = m .channels + channels
  connections : n .connections = m .connections + connections

/-- A connection was taken or it was not.  The entry that was in the pool is used
or closed. -/
def Acquired (m : Account → Int) (entry : Option PoolEntry) :
    Except SshExn (Nat × Bool × PoolEntry) → (Account → Int) → Prop
  | .ok _, n => Moved m n 0 0 0 (1 - held entry)
  | .error _, n => Moved m n 0 0 0 (-held entry)

/-- One download begins at most one transfer, and none when it raises. -/
def Downloaded (m : Account → Int) : Except SshExn FetchResult → (Account → Int) → Prop
  | .ok r, n => ∃ b c, Moved m n b c 0 0 ∧ b ≤ 1 ∧ (r.success = true → b = 1 ∧ c = 1)
  | .error _, n => Moved m n 0 0 0 0

/-- What a call books from the pool entry it starts with. -/
def Booked {ε : Type} (m : Account → Int) (entry : Option PoolEntry) (o : Except ε Fetched) (n : Account → Int) :
    Prop :=
  ∃ r entry' b c, o = .ok (r, entry') ∧ Moved m n b c 0 (held entry' - held entry) ∧ b ≤ 1 ∧
    (r.success = true → b = 1 ∧ c = 1)

section

variable {m n u : Account → Int} {b c ch co b' c' ch' co' : Int} {ε : Type} {host : Host} {remotePath localPath : Str}
  {timeout client : Nat}

theorem Moved.refl : Moved m m 0 0 0 0 := ⟨(add_zero _).symm, (add_zero _).symm, (add_zero _).symm, (add_zero _).symm⟩

theorem Moved.trans (h : Moved m n b c ch co) (h' : Moved n u b' c' ch' co') :
    Moved m u (b + b') (c + c') (ch + ch') (co + co') where
  begun := by rw [h'.begun, h.begun, add_assoc]
  completed := by rw [h'.completed, h.completed, add_assoc]
  channels := by rw [h'.channels, h.channels, add_assoc]
  connections := by rw [h'.connections, h.connections, add_assoc]

theorem Moved.step {q : SftpReq} {r : SftpReply} (h : Moved m n b c ch co) :
    Moved m (n + weigh q r) (b + weigh q r .begun) (c + weigh q r .completed) (ch + weigh q r .channels)
      (co + weigh q r .connections) :=
  h.trans ⟨rfl, rfl, rfl, rfl⟩

/-- An operation of the pool begins no transfer and opens no channel. -/
theorem Moved.stepSsh {q : SshReq} {r : Reply} (h : Moved m n b c ch co) :
    Moved m (n + weighSsh q r) b c ch (co + weighSsh q r .connections) := by
  have hquiet : weighSsh q r .begun = 0 ∧ weighSsh q r .completed = 0 ∧ weighSsh q r .channels = 0 := by
    cases q <;> exact ⟨rfl, rfl, rfl⟩
  have hstep : Moved n (n + weighSsh q r) 0 0 0 (weighSsh q r .connections) :=
    ⟨congrArg (n .begun + ·) hquiet.1, congrArg (n .completed + ·) hquiet.2.1,
      congrArg (n .channels + ·) hquiet.2.2, rfl⟩
  have hall := h.trans hstep
  rwa [add_zero, add_zero, add_zero] at hall

theorem succeeded_none {r : Reply} (h : r.failure = none) : succeeded r = 1 := if_pos h

theorem succeeded_some {r : Reply} {f : Failure} (h : r.failure = some f) : succeeded r = 0 := by
  rw [succeeded, h]
  rfl

/-! ## The pool -/

/-- The rule for an operation that raises its failure. -/
theorem books_call_bind {q : SshReq} {α : Type} {f : Reply → SshJob SshExn α}
    {Post : Except SshExn α → (Account → Int) → Prop}
    (hok : ∀ r : Reply, r.failure = none → (f r).Books weighSsh Post (n + weighSsh q r))
    (hfailed : ∀ (r : Reply) g, r.failure = some g → Post (.error (.failed g)) (n + weighSsh q r)) :
    (call q >>= f).Books weighSsh Post n := by
  rw [call, Prog.issue_bind, Prog.ask_bind]
  intro r
  dsimp only
  cases hfail : r.failure with
  | none => exact hok r hfail
  | some g => exact hfailed r g hfail

theorem books_openPooled {now : Int} {entry : Option PoolEntry} (h : Moved m n 0 0 0 (-held entry)) :
    (openPooled host now).Books weighSsh (Acquired m entry) n := by
  rw [openPooled]
  refine books_call_bind (fun r hr => ?_) (fun r g hr => ?_)
  · have hstep := @Moved.stepSsh m n 0 0 0 _ (.connect host) r h
    have hone : weighSsh (.connect host) r .connections = 1 := succeeded_none hr
    rw [hone, neg_add_eq_sub] at hstep
    exact hstep
  · have hstep := @Moved.stepSsh m n 0 0 0 _ (.connect host) r h
    have hzero : weighSsh (.connect host) r .connections = 0 := succeeded_some hr
    rw [hzero, add_zero] at hstep
    exact hstep

theorem books_acquire {entry : Option PoolEntry} : (acquire host entry).Books weighSsh (Acquired m entry) m := by
  rw [acquire, Prog.issue_bind]
  intro r
  have hclock : Moved m (m + weighSsh .clock r) 0 0 0 0 := Moved.refl.stepSsh
  cases entry with
  | none => exact books_openPooled hclock
  | some e =>
    dsimp only
    have hreuse : (connReusable e r.now).Books weighSsh (fun o n => (∃ b, o = .ok b) ∧ Moved m n 0 0 0 0)
        (m + weighSsh .clock r) := by
      rw [connReusable]
      split
      · exact ⟨⟨_, rfl⟩, hclock⟩
      · exact fun a => ⟨⟨_, rfl⟩, hclock.stepSsh⟩
    refine hreuse.bind ?_ ?_
    · rintro b n ⟨-, hn⟩
      cases b with
      | true => exact hn
      | false =>
        rw [if_neg Bool.false_ne_true, Prog.issue_bind]
        exact fun a => books_openPooled hn.stepSsh
    · rintro _ n ⟨⟨_, ⟨⟩⟩, -⟩

theorem books_pooled {α : Type} {p : SshJob ε α} {Post : Except ε α → (Account → Int) → Prop}
    (hp : p.Books weighSsh Post m) : (pooled p).Books weigh Post m :=
  hp.through fun _ _ => rfl

/-! ## One download -/

theorem books_sftpCall_bind {q : SftpReq} {α : Type} {f : SftpReply → SftpJob SshExn α}
    {Post : Except SshExn α → (Account → Int) → Prop}
    (hok : ∀ r : SftpReply, r.failure = none → (f r).Books weigh Post (n + weigh q r))
    (hfailed : ∀ (r : SftpReply) g, r.failure = some g → Post (.error (.failed g)) (n + weigh q r)) :
    (sftpCall q >>= f).Books weigh Post n := by
  rw [sftpCall, Prog.issue_bind, Prog.ask_bind]
  intro r
  dsimp only
  cases hfail : r.failure with
  | none => exact hok r hfail
  | some g => exact hfailed r g hfail

/-- The operations of a transfer on an open channel. -/
theorem books_transfer (h : Moved m n 0 0 1 0) :
    (transfer client remotePath localPath timeout).Books weigh
      (fun o u => ∃ b c, Moved m u b c 1 0 ∧ b ≤ 1 ∧ (∀ size, o = .ok size → b = 1 ∧ c = 1)) n := by
  rw [transfer]
  refine books_sftpCall_bind (fun r _ => ?_) (fun r g _ => ?_)
  · refine books_sftpCall_bind (fun r hr => ?_) (fun r g hr => ?_)
    · have hget : weigh (.get client remotePath localPath) r .completed = 1 := succeeded_none hr
      refine books_sftpCall_bind (fun r _ => ?_) (fun r g _ => ?_)
      · exact ⟨_, _, h.step.step.step, le_refl _, fun _ _ => ⟨rfl, congrArg (0 + 0 + · + 0) hget⟩⟩
      · exact ⟨_, _, h.step.step.step, le_refl _, nofun⟩
    · exact ⟨_, _, h.step.step, le_refl _, nofun⟩
  · exact ⟨_, _, h.step, Int.zero_le_ofNat 1, nofun⟩

theorem books_openChannel : (openChannel client).Books weigh
    (fun o u => (o = .ok () ∧ Moved m u 0 0 1 0) ∨ ∃ e, o = .error e ∧ Moved m u 0 0 0 0) m := by
  rw [openChannel, Prog.issue_bind]
  intro r
  have hstep : Moved m (m + weigh (.openSftp client) r) 0 0 (succeeded r.toReply) 0 := by
    have hopen := @Moved.step m m 0 0 0 0 (.openSftp client) r .refl
    have hchannels : weigh (.openSftp client) r .channels = succeeded r.toReply := rfl
    rw [hchannels, zero_add (succeeded r.toReply)] at hopen
    exact hopen
  dsimp only
  cases hfail : r.failure with
  | none =>
    rw [succeeded_none hfail] at hstep
    exact .inl ⟨rfl, hstep⟩
  | some f =>
    rw [succeeded_some hfail] at hstep
    obtain ⟨kind, text⟩ := f
    cases kind with
    | timeout => exact .inr ⟨_, rfl, hstep⟩
    | transport => exact .inr ⟨_, rfl, hstep⟩
    | other => exact .inr ⟨_, rfl, hstep⟩

theorem success_judgeTransfer {r : Except SshExn Nat} (h : (judgeTransfer timeout r).success = true) :
    ∃ size, r = .ok size := by
  cases r with
  | ok size => exact ⟨size, rfl⟩
  | error e =>
    rw [judgeTransfer.eq_def] at h
    split at h
    · next heq => cases heq
    · cases h
    · cases h

/-- A channel that was opened is closed, however the transfer ends. -/
theorem books_sftpGetOnce : (sftpGetOnce client remotePath localPath timeout).Books weigh (Downloaded m) m := by
  rw [sftpGetOnce]
  refine books_openChannel.bind ?_ ?_
  · rintro ⟨⟩ n (⟨-, hopen⟩ | ⟨_, ⟨⟩, -⟩)
    refine (books_transfer hopen).attempt_bind ?_
    rintro r u ⟨b, c, hmoved, hb, hc⟩ a
    have hclosed := @Moved.step m u b c 1 0 (.closeSftp client) a hmoved
    refine ⟨_, _, hclosed, (add_zero b).le.trans hb, fun hsuccess => ?_⟩
    obtain ⟨size, hr⟩ := success_judgeTransfer hsuccess
    obtain ⟨rfl, rfl⟩ := hc size hr
    exact ⟨rfl, rfl⟩
  · rintro e n (⟨⟨⟩, -⟩ | ⟨_, -, hnone⟩)
    exact hnone

theorem Downloaded.trans_error {e : SshExn} (hn : Moved m n 0 0 0 co) (h : Downloaded n (.error e) u) :
    Moved m u 0 0 0 co := by
  have hall := hn.trans h
  rwa [add_zero, add_zero] at hall

/-! ## The whole call -/

theorem books_touch {entry : PoolEntry} (h : Moved m n b c 0 co) :
    (pooled (touch entry : SshJob ε PoolEntry)).Books weigh (fun o u => (∃ e, o = .ok e) ∧ Moved m u b c 0 co) n := by
  refine books_pooled ?_
  rw [touch, Prog.issue_bind]
  intro r
  have hclock := @Moved.stepSsh m n b c 0 co .clock r h
  have hzero : co + weighSsh .clock r .connections = co := add_zero co
  rw [hzero] at hclock
  exact ⟨⟨_, rfl⟩, hclock⟩

/-- A download that ended keeps its connection in the pool. -/
theorem books_finish {entry : Option PoolEntry} {e : PoolEntry} {result : FetchResult}
    (hn : Moved m n 0 0 0 (1 - held entry)) (h : Downloaded n (.ok result) u) :
    (do let e ← pooled (touch e)
        return (result, some e) : SftpJob ε Fetched).Books weigh (Booked m entry) u := by
  obtain ⟨b, c, hmoved, hb, hc⟩ := h
  have hall := hn.trans hmoved
  rw [zero_add, zero_add, add_zero, add_zero] at hall
  refine (books_touch hall).bind ?_ ?_
  · rintro e v ⟨-, hv⟩
    exact ⟨result, some e, b, c, rfl, hv, hb, hc⟩
  · rintro _ v ⟨⟨_, ⟨⟩⟩, -⟩

theorem books_fetchFresh : (fetchFresh host remotePath localPath timeout : SftpJob ε Fetched).Books weigh
    (Booked m none) m := by
  rw [fetchFresh]
  refine (books_pooled books_acquire).attempt_bind ?_
  intro acquired n hn
  cases acquired with
  | error e => exact ⟨_, none, 0, 0, rfl, hn, Int.zero_le_ofNat 1, nofun⟩
  | ok acquired =>
    obtain ⟨client, reused, e⟩ := acquired
    refine books_sftpGetOnce.attempt_bind ?_
    intro r u hu
    cases r with
    | ok result => exact books_finish hn hu
    | error err =>
      have hmoved := hu.trans_error hn
      cases err with
      | failed f => exact ⟨_, some e, 0, 0, rfl, hmoved, Int.zero_le_ofNat 1, nofun⟩
      | stale text => exact fun a => ⟨_, none, 0, 0, rfl, hmoved.stepSsh, Int.zero_le_ofNat 1, nofun⟩

theorem books_fetchPooled {entry : Option PoolEntry} :
    (fetchPooled host remotePath localPath timeout entry : SftpJob ε Fetched).Books weigh (Booked m entry) m := by
  rw [fetchPooled]
  refine (books_pooled books_acquire).attempt_bind ?_
  intro acquired n hn
  cases acquired with
  | error e =>
    refine ⟨_, none, 0, 0, rfl, ?_, Int.zero_le_ofNat 1, nofun⟩
    rw [show held none = 0 from rfl, zero_sub]
    exact hn
  | ok acquired =>
    obtain ⟨client, reused, e⟩ := acquired
    refine books_sftpGetOnce.attempt_bind ?_
    intro r u hu
    cases r with
    | ok result => exact books_finish hn hu
    | error err =>
      dsimp only
      rw [Prog.issue_bind]
      intro a
      have hdropped : Moved m (u + weigh (.ssh (.close client)) a) 0 0 0 (0 - held entry) := by
        have hclosed := @Moved.stepSsh m u 0 0 0 _ (.close client) a.toReply (hu.trans_error hn)
        have hminus : 1 - held entry + weighSsh (.close client) a.toReply .connections = 0 - held entry := by
          have hclose : weighSsh (.close client) a.toReply .connections = -1 := rfl
          omega
        rwa [hminus] at hclosed
      cases err with
      | failed f => exact ⟨_, none, 0, 0, rfl, hdropped, Int.zero_le_ofNat 1, nofun⟩
      | stale text =>
        cases reused with
        | false => exact ⟨_, none, 0, 0, rfl, hdropped, Int.zero_le_ofNat 1, nofun⟩
        | true =>
          -- the second attempt starts without an entry, and its ledger adds on
          refine books_fetchFresh.mono ?_
          rintro o v ⟨result, entry', b, c, rfl, hmoved, hb, hc⟩
          have hall := hdropped.trans hmoved
          have hsum : 0 - held entry + (held entry' - held none) = held entry' - held entry := by
            have hnone : held none = 0 := rfl
            omega
          rw [hsum, zero_add, zero_add, zero_add] at hall
          exact ⟨result, entry', b, c, rfl, hall, hb, hc⟩

theorem books_connect : (sftpCall (.ssh (.connect host))).Books weigh
    (fun o u => (∃ r, o = .ok r ∧ Moved m u 0 0 0 1) ∨ ∃ e, o = .error e ∧ Moved m u 0 0 0 0) m := by
  rw [sftpCall, Prog.issue_bind]
  intro r
  have hstep := @Moved.stepSsh m m 0 0 0 0 (.connect host) r.toReply .refl
  dsimp only
  cases hfail : r.failure with
  | none =>
    have hone : weighSsh (.connect host) r.toReply .connections = 1 := succeeded_none hfail
    rw [hone] at hstep
    exact .inl ⟨r, rfl, hstep⟩
  | some f =>
    have hzero : weighSsh (.connect host) r.toReply .connections = 0 := succeeded_some hfail
    rw [hzero] at hstep
    exact .inr ⟨_, rfl, hstep⟩

theorem books_fetchDirect : (fetchDirect host remotePath localPath timeout : SftpJob ε FetchResult).Books weigh
    (fun o u => ∃ r b c, o = .ok r ∧ Moved m u b c 0 0 ∧ b ≤ 1 ∧ (r.success = true → b = 1 ∧ c = 1)) m := by
  rw [fetchDirect]
  refine books_connect.attempt_bind ?_
  rintro _ n (⟨r, rfl, hn⟩ | ⟨e, rfl, hn⟩)
  · refine books_sftpGetOnce.attempt_bind ?_
    intro d u hu
    rw [Prog.issue_bind]
    intro a
    cases d with
    | ok result =>
      obtain ⟨b, c, hmoved, hb, hc⟩ := hu
      have hclosed := @Moved.stepSsh m u _ _ _ _ (.close r.client) a.toReply (hn.trans hmoved)
      rw [zero_add, zero_add] at hclosed
      exact ⟨result, b, c, rfl, hclosed, hb, hc⟩
    | error e =>
      have hclosed := @Moved.stepSsh m u _ _ _ _ (.close r.client) a.toReply (hu.trans_error hn)
      exact ⟨_, 0, 0, rfl, hclosed, Int.zero_le_ofNat 1, nofun⟩
  · exact ⟨_, 0, 0, rfl, hn, Int.zero_le_ofNat 1, nofun⟩

theorem books_fetchFile {poolEnabled : Bool} {entry : Option PoolEntry} :
    (fetchFile host remotePath localPath timeout poolEnabled entry : SftpJob ε Fetched).Books weigh
      (Booked m entry) m := by
  rw [fetchFile]
  split
  · exact books_fetchPooled
  · refine books_fetchDirect.bind ?_ ?_
    · rintro r n ⟨_, b, c, ⟨⟩, hmoved, hb, hc⟩
      refine ⟨r, entry, b, c, rfl, ?_, hb, hc⟩
      rwa [sub_self]
    · rintro _ n ⟨_, _, _, ⟨⟩, -⟩

end

/-- Every run of `fetch_file`, with the pool or without it.  At most one transfer
begins, and where the call succeeds it went through.  Each channel that was opened
is closed, and each connection that was opened, or was in the pool, is closed or in
the pool. -/
theorem fetchFile_ledger {ε : Type} {host : Host} {remotePath localPath : Str} {timeout : Nat} {poolEnabled : Bool}
    {entry : Option PoolEntry} {tr : History SftpReq SftpReply} {o : Except ε Fetched}
    (h : (fetchFile host remotePath localPath timeout poolEnabled entry).Run tr o) :
    ∃ r entry', o = .ok (r, entry') ∧ total weigh tr .begun ≤ 1 ∧ total weigh tr .channels = 0 ∧
      held entry + total weigh tr .connections = held entry' ∧
      (r.success = true → total weigh tr .begun = 1 ∧ total weigh tr .completed = 1) := by
  have hbooks := (books_fetchFile (m := 0)).sound h
  rw [zero_add] at hbooks
  obtain ⟨r, entry', b, c, rfl, hmoved, hb, hc⟩ := hbooks
  have hbegun : total weigh tr .begun = b := hmoved.begun.trans (zero_add b)
  have hcompleted : total weigh tr .completed = c := hmoved.completed.trans (zero_add c)
  have hconnections : total weigh tr .connections = held entry' - held entry :=
    hmoved.connections.trans (zero_add _)
  refine ⟨r, entry', rfl, hbegun ▸ hb, hmoved.channels, ?_, ?_⟩
  · rw [hconnections, add_sub_cancel]
  · rw [hbegun, hcompleted]
    exact hc

/-- The pooled connection opens no channel, and a new one does. -/
def reconnected : List SftpReply :=
  [{}, { active := true }, { failure := some ⟨.transport, "EOF"⟩ }, {}, {}, { client := 8 }, {}, {}, {}, { size := 5 },
    {}, { now := 30 }]

theorem fetchFile_ledger_reconnected :
    ∃ tr, (fetchFile hostA "/root/a.tar" "/tmp/a.tar" 60 true (some ⟨7, 0⟩) : SftpJob SshExn Fetched).Run tr
      (.ok (⟨true, 5, []⟩, some ⟨8, 30⟩)) ∧ tr.map Prod.snd = reconnected ∧
      total weigh tr .begun = 1 ∧ total weigh tr .channels = 0 ∧ total weigh tr .connections = 0 := by
  have hrun : ∃ tr, (fetchFile hostA "/root/a.tar" "/tmp/a.tar" 60 true (some ⟨7, 0⟩) : SftpJob SshExn Fetched).Run tr
      (.ok (⟨true, 5, []⟩, some ⟨8, 30⟩)) ∧ tr.map Prod.snd = reconnected :=
    ⟨_, @Prog.run_of_transcript _ _ _ _ _ reconnected _ _ rfl, rfl⟩
  obtain ⟨tr, hrun, hanswers⟩ := hrun
  obtain ⟨r, entry', heq, -, hchannels, hconnections, hsuccess⟩ := fetchFile_ledger hrun
  cases heq
  refine ⟨tr, hrun, hanswers, (hsuccess rfl).1, hchannels, ?_⟩
  have hheld : held (some ⟨7, 0⟩) + total weigh tr .connections = held (some ⟨7, 0⟩) := hconnections
  omega

end PveZfsTool.Ssh
