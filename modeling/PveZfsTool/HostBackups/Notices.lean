import PveZfsTool.HostBackups.Scheduler
import PveZfsTool.Lib.Transducer
import PveZfsTool.Monitor.State

/-!
# The notifications about host backups

The scheduler keeps the first failure of a host's current outage in `_failing`.
`_record_failure` sends a notification for the first failure only, and
`_record_success` sends one when it ends an outage.

* `kinds_chain`: the notifications of one host alternate, from any state on.
* `notices_of_runs`: over any ticks, each outage is told about once, and so is
  its end.
-/

namespace PveZfsTool.HostBackups

open Text Transducer Ssh

/-! ## Recording an attempt -/

/-- An attempt of the scheduler.  `recordedAt` is `time.time()` when its outcome
is recorded. -/
structure BackupAttempt where
  address : Str
  /-- The name of the host entry, empty where it has none. -/
  name : Str
  succeeded : Bool
  error : Str
  recordedAt : Rat

inductive NoticeKind where
  | failure
  | recovery
  deriving DecidableEq

/-- `host.get('name') or host.get('address')` -/
def BackupAttempt.title (b : BackupAttempt) : Str := if b.name = [] then b.address else b.name

section

variable (localTime : Rat → Str)

/-- The message of `_notify_failure`. -/
def failureNotice (b : BackupAttempt) : Notification where
  eventType := "host_backup_failed"
  title := "Host-Backup fehlgeschlagen: " ++ b.title
  message := "Host: " ++ b.address ++ "\nFehler: " ++ b.error.take 500 ++
    ("\n\nWeitere Versuche laufen alle 30 Minuten ohne weitere Meldung; die nächste Mail " ++
      "kommt, wenn ein Backup wieder gelingt. Ist der Host absichtlich aus, unter Hosts als " ++
      "„Erwartet offline“ markieren.")
  priority := 7
  host := some b.address

/-- The message of `_notify_recovered`.  `localTime` is the rendering of a time
in the local zone. -/
def recoveryNotice (b : BackupAttempt) (since : Rat) : Notification where
  eventType := "host_backup_failed"
  title := "Host-Backup wieder erfolgreich: " ++ b.title
  message := "Host: " ++ b.address ++ "\nFehlgeschlagen seit: " ++ localTime since
  priority := 3
  host := some b.address

/-- `_record_failure` and `_record_success`, on the entry of the host in
`_failing`. -/
def recordAttempt (failing : Option Rat) (b : BackupAttempt) :
    Option Rat × Option (NoticeKind × Notification) :=
  match b.succeeded, failing with
  | false, some since => (some since, none)
  | false, none => (some b.recordedAt, some (.failure, failureNotice b))
  | true, some since => (none, some (.recovery, recoveryNotice localTime b since))
  | true, none => (none, none)

/-! ## Ticks -/

/-- A tick with the schedules it loads, and what is not in its readings: the
errors of the attempts and the times at which they are recorded. -/
structure NotedTick where
  schedules : Schedules
  tick : Tick
  error : Str → Str
  recordedAt : Str → Rat

/-- The attempts of the tick with what is recorded of them. -/
def NotedTick.attempts (t : NotedTick) (log : List (Str × Bool)) : List BackupAttempt :=
  log.map fun entry =>
    { address := entry.1
      name := ((registered t.tick.hosts entry.1).map HostRecord.name).getD []
      succeeded := entry.2
      error := t.error entry.1
      recordedAt := t.recordedAt entry.1 }

/-- The attempts of a run of ticks, oldest first. -/
def attemptsOfRun (s : SchedulerState) : List NotedTick → List BackupAttempt
  | [] => []
  | t :: ticks =>
      let r := schedulerTick t.schedules t.tick s
      t.attempts r.2 ++ attemptsOfRun r.1 ticks

/-- An attempt with `_failing` before it and what was sent. -/
abbrev NoticeTurn := Turn (Str → Option Rat) BackupAttempt (Option (NoticeKind × Notification))

/-- The attempts of a process.  `_failing` is empty when it starts, and only
`recordAttempt` changes it. -/
def noticeTurns (s : SchedulerState) (ticks : List NotedTick) : List NoticeTurn :=
  turns (keyed BackupAttempt.address (recordAttempt localTime)) (fun _ => none)
    (attemptsOfRun s ticks)

end

/-- The kinds of the notifications about a host, oldest first. -/
def kindsFor (a : Str) (ts : List NoticeTurn) : List NoticeKind :=
  ((ts.filterMap Turn.output).filter (fun n => n.2.host = some a)).map Prod.fst

/-- The last attempt for a host. -/
def lastAttemptOf (a : Str) (ts : List NoticeTurn) : Option BackupAttempt :=
  ((ts.map Turn.input).filter (fun b => b.address = a)).getLast?

/-- The turn tells about a failure, or about a recovery. -/
def NoticeTurn.Tells (t : NoticeTurn) (kind : NoticeKind) : Prop :=
  ∃ n, t.output = some (kind, n) ∧ n.host = some t.input.address

/-- The notifications about a host alternate, a failure first.  A failure is
told about if the attempt before it was none, and a success if it was one. -/
structure NoticesRight (a : Str) (ts : List NoticeTurn) : Prop where
  alternate : (kindsFor a ts).IsChain (· ≠ ·)
  first : ∀ kind ∈ (kindsFor a ts).head?, kind = .failure
  failures : ∀ earlier t later, ts = earlier ++ t :: later → t.input.address = a →
    (t.Tells .failure ↔ t.input.succeeded = false ∧
      ∀ b ∈ lastAttemptOf a earlier, b.succeeded = true)
  recoveries : ∀ earlier t later, ts = earlier ++ t :: later → t.input.address = a →
    (t.Tells .recovery ↔ t.input.succeeded = true ∧
      ∃ b ∈ lastAttemptOf a earlier, b.succeeded = false)

/-! ## One host -/

section Machine

variable {localTime : Rat → Str} {failing : Option Rat} {attempts : List BackupAttempt}
  {b : BackupAttempt}

/-- The kind of the next notification. -/
def nextKind (failing : Bool) : NoticeKind := if failing then .recovery else .failure

theorem recordAttempt_state : (recordAttempt localTime failing b).1.isSome = !b.succeeded := by
  cases hsucceeded : b.succeeded <;> cases failing <;> simp only [recordAttempt, hsucceeded] <;> rfl

/-- An attempt is told about when it ends or begins an outage. -/
theorem recordAttempt_kind : (recordAttempt localTime failing b).2.map Prod.fst =
    if b.succeeded = failing.isSome then some (nextKind failing.isSome) else none := by
  cases hsucceeded : b.succeeded <;> cases failing <;> simp only [recordAttempt, hsucceeded] <;> rfl

theorem recordAttempt_host {n : NoticeKind × Notification}
    (h : (recordAttempt localTime failing b).2 = some n) : n.2.host = some b.address := by
  cases hsucceeded : b.succeeded <;> cases failing <;>
    simp only [recordAttempt, hsucceeded] at h <;> cases h <;> rfl

/-- The notifications of one host alternate, from any state on. -/
theorem kinds_chain (failing : Option Rat) (attempts : List BackupAttempt) :
    ((turns (recordAttempt localTime) failing attempts).filterMap
        (fun t => t.output.map Prod.fst)).IsChain (· ≠ ·) ∧
      ∀ kind ∈ ((turns (recordAttempt localTime) failing attempts).filterMap
        (fun t => t.output.map Prod.fst)).head?, kind = nextKind failing.isSome := by
  induction attempts generalizing failing with
  | nil => exact ⟨.nil, fun kind hkind => by cases hkind⟩
  | cons b attempts ih =>
    obtain ⟨hchain, hhead⟩ := ih (recordAttempt localTime failing b).1
    rw [recordAttempt_state] at hhead
    generalize hrest : (turns (recordAttempt localTime) (recordAttempt localTime failing b).1
      attempts).filterMap (fun t => t.output.map Prod.fst) = rest at hchain hhead
    rw [turns_cons, List.filterMap_cons, recordAttempt_kind, hrest]
    by_cases htells : b.succeeded = failing.isSome
    · rw [if_pos htells]
      refine ⟨?_, fun kind hkind => (Option.some.inj hkind).symm⟩
      cases rest with
      | nil => exact .singleton _
      | cons kind rest =>
        refine List.isChain_cons_cons.mpr ⟨?_, hchain⟩
        rw [hhead kind rfl, ← htells]
        cases b.succeeded <;> decide
    · rw [if_neg htells]
      refine ⟨hchain, fun kind hkind => ?_⟩
      have hflip : (!b.succeeded) = failing.isSome := by
        revert htells
        cases b.succeeded <;> cases failing.isSome <;> decide
      rw [hhead kind hkind, hflip]

theorem after_recordAttempt (attempts : List BackupAttempt) :
    (after (recordAttempt localTime) none attempts).isSome =
      attempts.getLast?.any (fun b => !b.succeeded) := by
  induction attempts using List.reverseRecOn with
  | nil => rfl
  | append_singleton attempts b _ =>
    rw [after_append, after_cons, after_nil, recordAttempt_state, List.getLast?_concat, Option.any_some]

end Machine

/-! ## All hosts -/

section Hosts

variable {localTime : Rat → Str} {attempts : List BackupAttempt} {a : Str}

/-- The store of all hosts. -/
def allTurns (localTime : Rat → Str) (attempts : List BackupAttempt) : List NoticeTurn :=
  turns (keyed BackupAttempt.address (recordAttempt localTime)) (fun _ => none) attempts

theorem output_host {t : NoticeTurn} {n : NoticeKind × Notification} (ht : t ∈ allTurns localTime attempts)
    (h : t.output = some n) : n.2.host = some t.input.address := by
  obtain ⟨earlier, later, hcut⟩ := List.append_of_mem ht
  have hout := (turn_of_cut hcut).2
  rw [h] at hout
  exact recordAttempt_host hout.symm

theorem kindsFor_of_host {ts : List NoticeTurn}
    (h : ∀ t ∈ ts, ∀ n, t.output = some n → n.2.host = some t.input.address) :
    kindsFor a ts = (ts.filter (fun t => t.input.address = a)).filterMap
      (fun t => t.output.map Prod.fst) := by
  induction ts with
  | nil => rfl
  | cons t ts ih =>
    have hrest := ih (fun u hu => h u (List.mem_cons_of_mem _ hu))
    unfold kindsFor at hrest ⊢
    cases hout : t.output with
    | none =>
      rw [List.filterMap_cons_none hout, hrest]
      by_cases ha : t.input.address = a
      · rw [List.filter_cons_of_pos (by simpa using ha), List.filterMap_cons_none (by rw [hout]; rfl)]
      · rw [List.filter_cons_of_neg (by simpa using ha)]
    | some n =>
      have hhost := h t List.mem_cons_self n hout
      rw [List.filterMap_cons_some hout]
      by_cases ha : t.input.address = a
      · rw [List.filter_cons_of_pos (by simpa [hhost] using ha), List.map_cons, hrest,
          List.filter_cons_of_pos (by simpa using ha),
          List.filterMap_cons_some (b := n.1) (by rw [hout]; rfl)]
      · rw [List.filter_cons_of_neg (by simpa [hhost] using ha), hrest,
          List.filter_cons_of_neg (by simpa using ha)]

/-- The notifications about a host are those of its own machine. -/
theorem kindsFor_allTurns : kindsFor a (allTurns localTime attempts) =
    (turns (recordAttempt localTime) none (attempts.filter (fun b => b.address = a))).filterMap
      (fun t => t.output.map Prod.fst) := by
  rw [← turnsAt_eq_turns BackupAttempt.address (recordAttempt localTime) a (fun _ => none), turnsAt,
    List.filterMap_map, kindsFor_of_host (fun t ht n hn => output_host ht hn)]
  rfl

/-- An outage of the host is on before an attempt if the last one has failed. -/
theorem before_isSome {earlier later : List NoticeTurn} {t : NoticeTurn}
    (hcut : allTurns localTime attempts = earlier ++ t :: later) :
    (t.before t.input.address).isSome =
      (lastAttemptOf t.input.address earlier).any (fun b => !b.succeeded) := by
  rw [(turn_of_cut hcut).1, after_keyed, after_recordAttempt]
  rfl

theorem tells_iff {earlier later : List NoticeTurn} {t : NoticeTurn} {kind : NoticeKind}
    (hcut : allTurns localTime attempts = earlier ++ t :: later) : t.Tells kind ↔
      t.input.succeeded = (lastAttemptOf t.input.address earlier).any (fun b => !b.succeeded) ∧
        kind = nextKind t.input.succeeded := by
  have hout : t.output = (recordAttempt localTime (t.before t.input.address) t.input).2 :=
    (turn_of_cut hcut).2
  have hkind := @recordAttempt_kind localTime (t.before t.input.address) t.input
  rw [← hout, before_isSome hcut] at hkind
  have htells : t.Tells kind ↔ t.output.map Prod.fst = some kind := by
    constructor
    · intro ⟨n, hn, _⟩
      rw [hn]
      rfl
    · intro h
      obtain ⟨n, hn, rfl⟩ := Option.map_eq_some_iff.mp h
      exact ⟨n.2, hn, recordAttempt_host (hout.symm.trans hn)⟩
  rw [htells, hkind]
  by_cases hsame : t.input.succeeded =
      (lastAttemptOf t.input.address earlier).any (fun b => !b.succeeded)
  · rw [if_pos hsame, ← hsame, Option.some.injEq, eq_comm]
    exact (and_iff_right rfl).symm
  · rw [if_neg hsame]
    exact iff_of_false (fun h => by cases h) (fun h => hsame h.1)

end Hosts

/-- Over all ticks of a process each outage of a host is told about once, and so
is its end. -/
theorem notices_of_runs (localTime : Rat → Str) (s : SchedulerState) (ticks : List NotedTick)
    (a : Str) : NoticesRight a (noticeTurns localTime s ticks) := by
  have hturns : noticeTurns localTime s ticks = allTurns localTime (attemptsOfRun s ticks) := rfl
  rw [hturns]
  refine ⟨?_, ?_, fun earlier t later hcut ha => ?_, fun earlier t later hcut ha => ?_⟩
  · rw [kindsFor_allTurns]
    exact (kinds_chain none _).1
  · rw [kindsFor_allTurns]
    exact (kinds_chain none _).2
  · rw [tells_iff hcut, ha]
    generalize lastAttemptOf a earlier = last
    cases t.input.succeeded <;> cases last <;> simp [nextKind]
  · rw [tells_iff hcut, ha]
    generalize lastAttemptOf a earlier = last
    cases t.input.succeeded <;> cases last <;> simp [nextKind]

end PveZfsTool.HostBackups
