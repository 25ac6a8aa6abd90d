import PveZfsTool.Ssh.Connection

/-!
# How often a command is started

`run_command` sends its command a second time when a pooled connection
turned out to be dead.  It cannot tell a connection that was dead before
the command from one that died under it, and in the second case the host
may run the command twice.

A log has the `Shape` of a call when it sends the command at most once, or
when it sends it once more over a new connection after a failure of the
transport.  Every run of `runCommand` has it, and the shape says exactly
when the host starts the command twice.
-/

namespace PveZfsTool.Ssh

open Dialogue Text

/-! ## Events of a log -/

def SshReq.isExec : SshReq → Bool
  | .exec .. => true
  | _ => false

def SshReq.isConnect : SshReq → Bool
  | .connect _ => true
  | _ => false

/-- The request neither sends a command nor opens a connection. -/
def Quiet (q : SshReq) : Prop := q.isExec = false ∧ q.isConnect = false

/-- The host started the command. -/
def started (e : SshReq × Reply) : Bool := e.1.isExec && (e.2.failure.isNone || e.2.reached)

/-- The operation failed and not by a timeout. -/
def transportFailed (e : SshReq × Reply) : Bool :=
  e.2.failure.any (fun f => f.kind = .transport)

/-- How often the host started the command. -/
def starts (log : SshLog) : Nat := log.countP started

def sends (log : SshLog) : Nat := log.countP (fun e => e.1.isExec)

/-- Before a new connection was asked for, the command was started and the
transport failed. -/
def LostAfterStart (log : SshLog) : Prop :=
  ∃ before after, log = before ++ after ∧ (∀ e ∈ before, e.1.isConnect = false) ∧
    (∃ e ∈ before, started e = true) ∧ ∃ e ∈ before, transportFailed e = true

/-- The command was started after a new connection was asked for. -/
def StartedAfresh (log : SshLog) : Prop :=
  ∃ before c after, log = before ++ c :: after ∧ c.1.isConnect = true ∧
    ∃ e ∈ after, started e = true

/-- What a call sends. -/
def Shape (log : SshLog) : Prop :=
  sends log ≤ 1 ∨
    ∃ before c after, log = before ++ c :: after ∧ c.1.isConnect = true ∧
      (∀ e ∈ before, e.1.isConnect = false) ∧ sends before ≤ 1 ∧ sends after ≤ 1 ∧
      ∃ e ∈ before, transportFailed e = true

section

variable {log pre post : SshLog}

@[simp] theorem sends_append : sends (pre ++ post) = sends pre + sends post :=
  List.countP_append

@[simp] theorem starts_append : starts (pre ++ post) = starts pre + starts post :=
  List.countP_append

theorem starts_le_sends (log : SshLog) : starts log ≤ sends log := by
  refine List.countP_mono_left ?_
  intro e _ he
  exact (Bool.and_eq_true_iff.mp he).1

theorem sends_eq_zero (h : ∀ e ∈ log, Quiet e.1) : sends log = 0 :=
  List.countP_eq_zero.mpr (fun e he hexec => by simp [(h e he).1] at hexec)

theorem starts_pos_iff : 1 ≤ starts log ↔ ∃ e ∈ log, started e = true :=
  List.countP_pos_iff

theorem starts_connect {c : SshReq × Reply} (h : c.1.isConnect = true) :
    starts (c :: log) = starts log := by
  refine List.countP_cons_of_neg ?_
  obtain ⟨q, r⟩ := c
  cases q <;> simp_all [started, SshReq.isExec, SshReq.isConnect]

/-- A command that was started on the old connection and on the new one was
started twice. -/
theorem two_le_starts (hlost : LostAfterStart log) (hfresh : StartedAfresh log) :
    2 ≤ starts log := by
  obtain ⟨before, after, rfl, hold, hstarted, -⟩ := hlost
  obtain ⟨before', c, after', heq, hc, hagain⟩ := hfresh
  rcases List.append_eq_append_iff.mp heq with ⟨mid, rfl, rfl⟩ | ⟨mid, rfl, hafter⟩
  · have h₁ := starts_pos_iff.mpr hstarted
    have h₂ := starts_pos_iff.mpr hagain
    rw [starts_append, starts_append, starts_connect hc]
    omega
  · -- the part without a new connection ends before the new connection
    cases mid with
    | nil =>
      have h₁ := starts_pos_iff.mpr hstarted
      have h₂ := starts_pos_iff.mpr hagain
      rw [List.nil_append] at hafter
      rw [← hafter, starts_append, starts_connect hc]
      simp only [List.append_nil] at h₁ ⊢
      omega
    | cons d mid =>
      obtain ⟨rfl, -⟩ := List.cons.inj hafter
      rw [hold c (by simp)] at hc
      cases hc

theorem Shape.starts_iff (h : Shape log) :
    starts log ≤ 1 ↔ ¬ (LostAfterStart log ∧ StartedAfresh log) := by
  constructor
  · intro hone ⟨hlost, hfresh⟩
    have htwo := two_le_starts hlost hfresh
    omega
  · intro hnot
    rcases h with hsends | ⟨before, c, after, rfl, hc, hold, hone, hone', hfail⟩
    · exact le_trans (starts_le_sends log) hsends
    · by_contra hmany
      have hb := starts_le_sends before
      have ha := starts_le_sends after
      rw [starts_append, starts_connect hc] at hmany
      refine hnot ⟨⟨before, _, rfl, hold, starts_pos_iff.mp (by omega), hfail⟩, ?_⟩
      exact ⟨before, c, after, rfl, hc, starts_pos_iff.mp (by omega)⟩

/-- Quiet requests around a call do not change its shape. -/
theorem Shape.surround (h : Shape log) (hpre : ∀ e ∈ pre, Quiet e.1)
    (hpost : ∀ e ∈ post, Quiet e.1) : Shape (pre ++ log ++ post) := by
  have hpre' := sends_eq_zero hpre
  have hpost' := sends_eq_zero hpost
  rcases h with hsends | ⟨before, c, after, rfl, hc, hold, hone, hone', e, he, hfail⟩
  · refine .inl ?_
    rw [sends_append, sends_append]
    omega
  · refine .inr ⟨pre ++ before, c, after ++ post, by simp, hc, ?_, ?_, ?_, e, by simp [he], hfail⟩
    · intro e he
      rcases List.mem_append.mp he with he | he
      · exact (hpre e he).2
      · exact hold e he
    · rw [sends_append]
      omega
    · rw [sends_append]
      omega

end

/-! ## Runs of the parts -/

section

variable {log : SshLog} {client timeout : Nat} {command : Str} {host : Host} {ε : Type}

theorem run_call {q : SshReq} {o : Except SshExn Reply} :
    (call q).Run log o ↔
      ∃ r, log = [(q, r)] ∧
        ((∃ f, r.failure = some f ∧ o = .error (.failed f)) ∨ r.failure = none ∧ o = .ok r) := by
  unfold call
  simp only [Prog.issue_bind, Prog.run_ask]
  constructor
  · rintro ⟨r, tr, rfl, h⟩
    split at h
    · next f hf =>
      obtain ⟨rfl, rfl⟩ := h
      exact ⟨r, rfl, .inl ⟨f, hf, rfl⟩⟩
    · next hf =>
      obtain ⟨rfl, rfl⟩ := h
      exact ⟨r, rfl, .inr ⟨hf, rfl⟩⟩
  · rintro ⟨r, rfl, ⟨f, hf, rfl⟩ | ⟨hf, rfl⟩⟩
    · exact ⟨r, [], rfl, by simp [hf]⟩
    · exact ⟨r, [], rfl, by simp [hf]⟩

/-- An operation that is not `exec`, and what follows it. -/
theorem run_call_bind {q : SshReq} {α : Type} {f : Reply → SshJob SshExn α} {o : Except SshExn α}
    (h : (call q >>= f).Run log o) :
    ∃ r rest, log = (q, r) :: rest ∧
      ((∃ g, r.failure = some g ∧ rest = [] ∧ o = .error (.failed g)) ∨ (f r).Run rest o) := by
  rcases Prog.run_bind.mp h with ⟨tr₁, tr₂, v, rfl, hcall, hf⟩ | ⟨e, hcall, rfl⟩
  · obtain ⟨r, rfl, ⟨g, -, heq⟩ | ⟨-, heq⟩⟩ := run_call.mp hcall
    · cases heq
    · cases heq
      exact ⟨v, tr₂, rfl, .inr hf⟩
  · obtain ⟨r, rfl, ⟨g, hg, heq⟩ | ⟨-, heq⟩⟩ := run_call.mp hcall
    · cases heq
      exact ⟨r, [], rfl, .inl ⟨g, hg, rfl, rfl⟩⟩
    · cases heq

/-- One attempt sends the command once, and it finds the connection stale
only after a failure of the transport. -/
theorem run_runOnce {o : Except SshExn Answer} (h : (runOnce client command timeout).Run log o) :
    sends log = 1 ∧ (∀ e ∈ log, e.1.isConnect = false) ∧
      (∀ text, o = .error (.stale text) → ∃ e ∈ log, transportFailed e = true) := by
  obtain ⟨log, rest, r, rfl, hexec, hjudge⟩ := Prog.run_attempt_bind.mp h
  have hread : sends log = 1 ∧ (∀ e ∈ log, e.1.isConnect = false) ∧
      (∀ e, r = .error e → ∃ f, e = .failed f ∧ ∃ x ∈ log, x.2.failure = some f) := by
    clear hjudge h
    unfold execAndRead at hexec
    obtain ⟨a, log, rfl, ⟨f, hf, rfl, rfl⟩ | hexec⟩ := run_call_bind hexec
    · exact ⟨rfl, by simp [SshReq.isConnect], fun e he =>
        ⟨f, by cases he; rfl, (.exec client command timeout, a), by simp, hf⟩⟩
    obtain ⟨b, log, rfl, ⟨f, hf, rfl, rfl⟩ | hexec⟩ := run_call_bind hexec
    · exact ⟨rfl, by simp [SshReq.isConnect], fun e he =>
        ⟨f, by cases he; rfl, (.readStdout client, b), by simp, hf⟩⟩
    obtain ⟨c, log, rfl, ⟨f, hf, rfl, rfl⟩ | hexec⟩ := run_call_bind hexec
    · exact ⟨rfl, by simp [SshReq.isConnect], fun e he =>
        ⟨f, by cases he; rfl, (.readStderr client, c), by simp, hf⟩⟩
    obtain ⟨d, log, rfl, ⟨f, hf, rfl, rfl⟩ | hexec⟩ := run_call_bind hexec
    · exact ⟨rfl, by simp [SshReq.isConnect], fun e he =>
        ⟨f, by cases he; rfl, (.exitStatus client, d), by simp, hf⟩⟩
    obtain ⟨rfl, rfl⟩ := hexec
    exact ⟨rfl, by simp [SshReq.isConnect], fun e he => by cases he⟩
  have hrest : rest = [] ∧ ∀ text, o = .error (.stale text) →
      ∃ f, r = .error (.failed f) ∧ f.kind = .transport := by
    unfold judgeFailure at hjudge
    split at hjudge
    · obtain ⟨rfl, rfl⟩ := hjudge
      exact ⟨rfl, fun text ho => by cases ho⟩
    · obtain ⟨rfl, rfl⟩ := hjudge
      exact ⟨rfl, fun text ho => by cases ho⟩
    · obtain ⟨rfl, rfl⟩ := hjudge
      exact ⟨rfl, fun text ho => ⟨_, rfl, rfl⟩⟩
    · next e _ _ =>
      obtain ⟨rfl, rfl⟩ := hjudge
      refine ⟨rfl, fun text ho => ?_⟩
      obtain ⟨f, rfl, -⟩ := hread.2.2 e rfl
      cases ho
  obtain ⟨rfl, hstale⟩ := hrest
  rw [List.append_nil]
  refine ⟨hread.1, hread.2.1, fun text ho => ?_⟩
  obtain ⟨f, hr, hkind⟩ := hstale text ho
  obtain ⟨f', hf', x, hx, hfail⟩ := hread.2.2 _ hr
  cases hf'
  exact ⟨x, hx, by simp [transportFailed, hfail, hkind]⟩

theorem run_touch {entry : PoolEntry} {o : Except ε PoolEntry} (h : (touch entry).Run log o) :
    ∀ e ∈ log, Quiet e.1 := by
  unfold touch at h
  simp only [Prog.issue_bind, Prog.run_ask] at h
  obtain ⟨r, tr, rfl, rfl, -⟩ := h
  simp [Quiet, SshReq.isExec, SshReq.isConnect]

theorem run_connReusable {entry : PoolEntry} {now : Int} {o : Except SshExn Bool}
    (h : (connReusable entry now).Run log o) : ∀ e ∈ log, Quiet e.1 := by
  unfold connReusable at h
  split at h
  · obtain ⟨rfl, -⟩ := h
    simp
  · simp only [Prog.issue_bind, Prog.run_ask] at h
    obtain ⟨r, tr, rfl, rfl, -⟩ := h
    simp [Quiet, SshReq.isExec, SshReq.isConnect]

theorem run_openPooled {now : Int} {o : Except SshExn (Nat × Bool × PoolEntry)}
    (h : (openPooled host now).Run log o) :
    ∃ r, log = [(.connect host, r)] ∧ ∀ client e, o ≠ .ok (client, true, e) := by
  unfold openPooled at h
  obtain ⟨r, rest, rfl, ⟨f, -, rfl, rfl⟩ | h⟩ := run_call_bind h
  · exact ⟨r, rfl, fun _ _ => nofun⟩
  · obtain ⟨rfl, rfl⟩ := h
    exact ⟨r, rfl, fun _ _ ho => by cases ho⟩

/-- Taking a connection from the pool opens none, and opening one sends
nothing. -/
theorem run_acquire {entry : Option PoolEntry} {o : Except SshExn (Nat × Bool × PoolEntry)}
    (h : (acquire host entry).Run log o) :
    sends log = 0 ∧ (∀ client e, o = .ok (client, true, e) → ∀ x ∈ log, x.1.isConnect = false) ∧
      (entry = none → ∃ before c, log = before ++ [c] ∧ c.1.isConnect = true ∧
        ∀ x ∈ before, Quiet x.1) := by
  unfold acquire at h
  simp only [Prog.issue_bind, Prog.run_ask] at h
  obtain ⟨r, log, rfl, h⟩ := h
  cases entry with
  | none =>
    obtain ⟨c, rfl, hfresh⟩ := run_openPooled h
    refine ⟨rfl, fun client e ho => absurd ho (hfresh client e), fun _ => ?_⟩
    exact ⟨[_], _, rfl, rfl, by simp [Quiet, SshReq.isExec, SshReq.isConnect]⟩
  | some e =>
    rcases Prog.run_bind.mp h with ⟨log, rest, b, rfl, hreuse, hcont⟩ | ⟨e, hreuse, rfl⟩
    · have hquiet := run_connReusable hreuse
      cases b with
      | true =>
        obtain ⟨rfl, rfl⟩ := hcont
        refine ⟨?_, fun _ _ _ x hx => ?_, fun hnone => by cases hnone⟩
        · exact sends_eq_zero (List.forall_mem_cons.mpr ⟨⟨rfl, rfl⟩, by simpa using hquiet⟩)
        · rcases List.mem_cons.mp hx with rfl | hx
          · rfl
          · exact (hquiet x (by simpa using hx)).2
      | false =>
        simp only [Bool.false_eq_true, if_false, Prog.run_ask] at hcont
        obtain ⟨a, rest, rfl, hopen⟩ := hcont
        obtain ⟨c, rfl, hfresh⟩ := run_openPooled hopen
        refine ⟨?_, fun client e ho => absurd ho (hfresh client e), fun hnone => by cases hnone⟩
        rw [← List.singleton_append, sends_append, sends_append, sends_eq_zero hquiet]
        rfl
    · have hquiet := run_connReusable hreuse
      refine ⟨?_, fun client e ho => (by cases ho), fun hnone => by cases hnone⟩
      exact sends_eq_zero (List.forall_mem_cons.mpr ⟨⟨rfl, rfl⟩, hquiet⟩)

/-- The second attempt opens a connection and sends the command once. -/
theorem run_retryFresh {o : Except ε Pooled} (h : (retryFresh host command timeout).Run log o) :
    ∃ before c after, log = before ++ c :: after ∧ c.1.isConnect = true ∧
      (∀ e ∈ before, Quiet e.1) ∧ sends after ≤ 1 := by
  obtain ⟨log, rest, r, rfl, hacquire, h⟩ := Prog.run_attempt_bind.mp h
  obtain ⟨-, -, hopen⟩ := run_acquire hacquire
  obtain ⟨before, c, rfl, hc, hquiet⟩ := hopen rfl
  refine ⟨before, c, rest, by simp, hc, hquiet, ?_⟩
  cases r with
  | error e =>
    obtain ⟨rfl, -⟩ := h
    exact Nat.zero_le _
  | ok acquired =>
    obtain ⟨client, reused, entry⟩ := acquired
    obtain ⟨log, rest, r, rfl, honce, h⟩ := Prog.run_attempt_bind.mp h
    obtain ⟨hsends, -, -⟩ := run_runOnce honce
    suffices hquiet : ∀ e ∈ rest, Quiet e.1 by
      rw [sends_append, sends_eq_zero hquiet, hsends]
    split at h
    · rcases Prog.run_bind.mp h with ⟨tr₁, tr₂, v, rfl, htouch, hret⟩ | ⟨e, htouch, -⟩
      · obtain ⟨rfl, -⟩ := hret
        simpa using run_touch htouch
      · exact run_touch htouch
    · simp only [Prog.issue_bind, Prog.run_ask] at h
      obtain ⟨a, rest, rfl, rfl, -⟩ := h
      simp [Quiet, SshReq.isExec, SshReq.isConnect]
    · obtain ⟨rfl, -⟩ := h
      simp

end

/-! ## Runs of a call -/

section

variable {log : SshLog} {ε : Type}

theorem run_execDirect {host : Host} {command : Str} {timeout : Nat} {o : Except ε Answer}
    (h : (execDirect host command timeout).Run log o) : sends log ≤ 1 := by
  obtain ⟨log, rest, r, rfl, hconnect, h⟩ := Prog.run_attempt_bind.mp h
  obtain ⟨c, rfl, -⟩ := run_call.mp hconnect
  cases r with
  | error e =>
    obtain ⟨rfl, -⟩ := h
    exact Nat.zero_le _
  | ok connected =>
    obtain ⟨log, rest, r, rfl, honce, h⟩ := Prog.run_attempt_bind.mp h
    obtain ⟨hsends, -, -⟩ := run_runOnce honce
    simp only [Prog.issue_bind, Prog.run_ask] at h
    obtain ⟨a, rest, rfl, h⟩ := h
    have hnil : rest = [] := by
      cases r with
      | ok result => exact h.1
      | error e => exact h.1
    subst hnil
    rw [sends_append, sends_append, hsends]
    exact le_refl _

theorem run_execPooled {host : Host} {command : Str} {timeout : Nat} {entry : Option PoolEntry}
    {o : Except ε Pooled} (h : (execPooled host command timeout entry).Run log o) : Shape log := by
  obtain ⟨first, rest, r, rfl, hacquire, h⟩ := Prog.run_attempt_bind.mp h
  obtain ⟨hnone, hpooled, -⟩ := run_acquire hacquire
  cases r with
  | error e =>
    obtain ⟨rfl, -⟩ := h
    refine .inl ?_
    rw [List.append_nil, hnone]
    exact Nat.zero_le _
  | ok acquired =>
    obtain ⟨client, reused, entry⟩ := acquired
    obtain ⟨once, rest, r, rfl, honce, h⟩ := Prog.run_attempt_bind.mp h
    obtain ⟨hsends, hold, hstale⟩ := run_runOnce honce
    have hquiet_shape : (∀ e ∈ rest, Quiet e.1) → Shape (first ++ (once ++ rest)) := by
      intro hquiet
      refine .inl ?_
      rw [sends_append, sends_append, sends_eq_zero hquiet, hnone, hsends]
    cases r with
    | ok result =>
      refine hquiet_shape ?_
      rcases Prog.run_bind.mp h with ⟨tr₁, tr₂, v, rfl, htouch, hret⟩ | ⟨e, htouch, -⟩
      · obtain ⟨rfl, -⟩ := hret
        simpa using run_touch htouch
      · exact run_touch htouch
    | error e =>
      simp only [Prog.issue_bind, Prog.run_ask] at h
      obtain ⟨a, rest, rfl, h⟩ := h
      have hclosed : ∀ x ∈ [(SshReq.close client, a)], Quiet x.1 := by
        simp [Quiet, SshReq.isExec, SshReq.isConnect]
      cases e with
      | failed f =>
        obtain ⟨rfl, -⟩ := h
        exact hquiet_shape hclosed
      | stale text =>
        cases reused with
        | false =>
          obtain ⟨rfl, -⟩ := h
          exact hquiet_shape hclosed
        | true =>
          -- the connection came from the pool, and the transport failed under the command
          obtain ⟨before, c, after, rfl, hc, hquiet, hone⟩ := run_retryFresh h
          obtain ⟨x, hx, hfail⟩ := hstale text rfl
          refine .inr ⟨first ++ once ++ [(.close client, a)] ++ before, c, after, by simp, hc, ?_,
            ?_, hone, x, by simp [hx], hfail⟩
          · intro y hy
            simp only [List.mem_append] at hy
            rcases hy with ((hy | hy) | hy) | hy
            · exact hpooled client entry rfl y hy
            · exact hold y hy
            · exact (hclosed y hy).2
            · exact (hquiet y hy).2
          · rw [sends_append, sends_append, sends_append, sends_eq_zero hquiet,
              sends_eq_zero hclosed, hnone, hsends]

theorem run_fetch {c : CommandCall} {entry : Option PoolEntry} {o : Except ε Pooled}
    (h : (fetch c entry).Run log o) : Shape log := by
  unfold fetch at h
  split at h
  · exact run_execPooled h
  · rcases Prog.run_bind.mp h with ⟨tr₁, tr₂, v, rfl, hdirect, hret⟩ | ⟨e, hdirect, -⟩
    · obtain ⟨rfl, -⟩ := hret
      rw [List.append_nil]
      exact .inl (run_execDirect hdirect)
    · exact .inl (run_execDirect hdirect)

/-- Every call sends its command at most once, or once more after a failure
of the transport. -/
theorem runCommand_shape {c : CommandCall} {entry : Option PoolEntry} {o : Except ε Pooled}
    (h : (runCommand c entry).Run log o) : Shape log := by
  unfold runCommand at h
  split at h
  · rcases Prog.run_bind.mp h with ⟨tr₁, tr₂, v, rfl, hdirect, hret⟩ | ⟨e, hdirect, -⟩
    · obtain ⟨rfl, -⟩ := hret
      rw [List.append_nil]
      exact .inl (run_execDirect hdirect)
    · exact .inl (run_execDirect hdirect)
  · split at h
    · simp only [Prog.issue_bind, Prog.run_ask] at h
      obtain ⟨hit, log, rfl, h⟩ := h
      have hlookup : ∀ e ∈ [(SshReq.cacheGet c.host.address c.command, hit)], Quiet e.1 := by
        simp [Quiet, SshReq.isExec, SshReq.isConnect]
      split at h
      · obtain ⟨rfl, -⟩ := h
        exact .inl (Nat.zero_le _)
      · rcases Prog.run_bind.mp h with ⟨tr₁, tr₂, fetched, rfl, hfetch, h⟩ | ⟨e, hfetch, -⟩
        · refine (run_fetch hfetch).surround hlookup ?_
          split at h
          · obtain ⟨a, tr, rfl, rfl, -⟩ := Prog.run_ask.mp h
            simp [Quiet, SshReq.isExec, SshReq.isConnect]
          · obtain ⟨rfl, -⟩ := h
            simp
        · have hshape : Shape ([_] ++ log ++ []) := (run_fetch hfetch).surround hlookup (by simp)
          simpa using hshape
    · exact run_fetch h

/-- In every run of a call the host starts the command at most once, except
when a pooled connection is lost after the command was started on it and
the command is started again on the new connection. -/
theorem runCommand_starts_iff {c : CommandCall} {entry : Option PoolEntry} {o : Except ε Pooled}
    (h : (runCommand c entry).Run log o) :
    starts log ≤ 1 ↔ ¬ (LostAfterStart log ∧ StartedAfresh log) :=
  (runCommand_shape h).starts_iff

/-- A destroy that a caller of the tool sends to `10.0.0.1`. -/
def destroyCall : CommandCall :=
  ⟨hostA, false, true, "zfs destroy rpool/data/vm-100-disk-0", 30, 0⟩

theorem runCommand_starts_once :
    ∃ (log : SshLog) (o : Except Unit Pooled), (runCommand destroyCall none).Run log o ∧
      (starts log ≤ 1 ↔ ¬ (LostAfterStart log ∧ StartedAfresh log)) ∧ starts log = 1 := by
  have htranscript : ((runCommand destroyCall none : SshJob Unit Pooled).transcript
      [{ now := 1000 }, { client := 1 }, {}, {}, {}, {}, { now := 1001 }]).map
        (fun r => starts r.1) = some 1 := by decide
  obtain ⟨r, hr, hone⟩ := Option.map_eq_some_iff.mp htranscript
  have hrun := Prog.run_of_transcript hr
  exact ⟨r.1, r.2, hrun, runCommand_starts_iff hrun, hone⟩

/-- The pooled connection is cut while the output of the destroy is read.
The command goes out again over a new connection. -/
theorem runCommand_starts_twice :
    ∃ (log : SshLog) (o : Except Unit Pooled),
      (runCommand destroyCall (some ⟨1, 990⟩)).Run log o ∧ ¬ starts log ≤ 1 := by
  have htranscript : ((runCommand destroyCall (some ⟨1, 990⟩) : SshJob Unit Pooled).transcript
      [{ now := 1000 }, { active := true }, {},
        { failure := some ⟨.transport, "Connection reset by peer"⟩ }, {}, { now := 1002 },
        { client := 2 }, {}, {}, {}, {}, { now := 1003 }]).map
        (fun r => starts r.1) = some 2 := by decide
  obtain ⟨r, hr, htwo⟩ := Option.map_eq_some_iff.mp htranscript
  refine ⟨r.1, r.2, Prog.run_of_transcript hr, ?_⟩
  rw [htwo]
  decide

end

end PveZfsTool.Ssh
