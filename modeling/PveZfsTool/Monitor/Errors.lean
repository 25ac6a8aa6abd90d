import PveZfsTool.Monitor.PoolRows

/-!
# The error counters of a pool

`check_pool_errors` of `app/monitor.py` gets the read, write and checksum
errors of each pool of a host and tells about a total that rose.  The row of a
pool holds the total of its last sample and the time of the last notification,
and a notification within six hours of the last one is held back.

A total is recorded whether or not the rise to it was told about, so a rise
that was held back is not told about later.  `rises_heard_iff` says for which
runs no rise is lost.

* `readTotal_ofNat`: a recorded total is read back.
* `errorTurn_reports`: when a sample in a run sends, by the event before it.
-/

namespace PveZfsTool

open Text Transducer

/-! ## The check -/

/-- `ERROR_ALERT_COOLDOWN` -/
def errorAlertCooldown : Nat := 6 * 3600

/-- `error_totals`.  A count that is missing is zero. -/
structure ErrorTotals where
  read : Nat := 0
  write : Nat := 0
  cksum : Nat := 0
  deriving DecidableEq

/-- The status of a pool as the caller has it.  It is `none` where it is no
dictionary, and its totals are where it has none. -/
structure PoolStatus where
  name : Str
  status : Option (Option ErrorTotals)
  now : Nat
  sentAt : Nat

/-- The errors of one pool, with the clock when they are looked at and after
the notification. -/
structure ErrorSample where
  host : MonitoredHost
  pool : Str
  errors : ErrorTotals
  now : Nat
  sentAt : Nat

def ErrorSample.total (s : ErrorSample) : Nat := s.errors.read + s.errors.write + s.errors.cksum

/-- What the row of the pool is about. -/
def ErrorSample.item (s : ErrorSample) : Watched := .pool .errors s.host.address s.pool

def ioErrors (s : ErrorSample) : Notification where
  eventType := "health_warning"
  title := "I/O Errors: " ++ s.pool
  message := "Pool '" ++ s.pool ++ "' on " ++ s.host.label ++ " reports read=" ++
    ofNat s.errors.read ++ " write=" ++ ofNat s.errors.write ++ " cksum=" ++
    ofNat s.errors.cksum ++ "."
  priority := 8
  host := some s.host.address

/-- `int(prev) if prev and prev.isdigit() else 0`, for ASCII digits. -/
def readTotal (prev : Str) : Nat :=
  if prev ≠ [] ∧ prev.all isAsciiDigit = true then Nat.ofDigitChars 10 prev 0 else 0

/-- The total in a row, or zero without one. -/
def prevTotal (row : Option (Row Str)) : Nat := (row.map (fun r => readTotal r.value)).getD 0

/-- The body of the loop of `check_pool_errors`, on the row of the pool. -/
def errorStep (row : Option (Row Str)) (s : ErrorSample) :
    Option (Row Str) × Option Notification :=
  if s.total = prevTotal row then (row, none)
  else if prevTotal row < s.total ∧ 0 < s.total ∧
      cooldownOk (row.bind Row.lastAlertTs) s.now errorAlertCooldown then
    (some (stateSet row (ofNat s.total) (some s.sentAt)), some (ioErrors s))
  else (some (stateSet row (ofNat s.total) none), none)

/-- The pools that a call does not skip. -/
def errorSamples (host : MonitoredHost) (pools : List PoolStatus) : List ErrorSample :=
  pools.filterMap fun p => p.status.map fun totals =>
    ⟨host, p.name, totals.getD {}, p.now, p.sentAt⟩

/-- The rows of `pool_errors`. -/
def errorCheck : RowCheck ErrorSample where
  scope := .errors
  item := ErrorSample.item
  step := errorStep
  inScope := fun _ => rfl
  keeps := by
    intro row s hnone
    unfold errorStep at hnone
    split at hnone
    · exact hnone
    · split at hnone
      · cases hnone
      · cases hnone

/-- `check_pool_errors` -/
def checkPoolErrors (host : MonitoredHost) (pools : List PoolStatus) (t : Table) :
    Table × List Notification :=
  errorCheck.loop t (errorSamples host pools)

/-- Calls one after the other are one loop over their events. -/
theorem after_checkPoolErrors {t : Table} {calls : List (PoolCall (List PoolStatus))} :
    after (errorCheck.call checkPoolErrors) t calls =
        after errorCheck.run t (calls.flatMap (PoolCall.events errorSamples)) ∧
      (turns (errorCheck.call checkPoolErrors) t calls).flatMap Turn.output =
        (turns errorCheck.run t (calls.flatMap (PoolCall.events errorSamples))).flatMap
          Turn.output :=
  after_call

/-! ## Runs -/

abbrev ErrorTurn := RowTurn ErrorSample

/-- What calls do to the row of one pool. -/
def errorTurns (calls : List (PoolCall (List PoolStatus))) (key : Str) : List ErrorTurn :=
  errorCheck.turnsAt errorSamples calls key

/-- The total of an event.  A deletion of the row leaves no errors. -/
def totalOf : RowEvent ErrorSample → Nat
  | .sample s => s.total
  | .dropped => 0

namespace ErrorTurn

def total (t : ErrorTurn) : Nat := totalOf t.input

/-- The time of a sample. -/
def now (t : ErrorTurn) : Nat :=
  match t.input with
  | .sample s => s.now
  | .dropped => 0

/-- A notification went out that reports errors with this total. -/
def Reports (t : ErrorTurn) (n : Nat) : Prop :=
  ∃ s, t.input = .sample s ∧ s.total = n ∧ t.output = some (ioErrors s)

/-- The last notification for the pool is six hours old, or there is none. -/
def CooldownOver (t : ErrorTurn) : Prop :=
  cooldownOk (t.before.bind Row.lastAlertTs) (now t) errorAlertCooldown = true

end ErrorTurn

/-- After `earlier` the total rose to `n`, and in `stay` it has been at least
that high for longer than the cooldown. -/
structure StayAbove (n : Nat) (earlier stay : List ErrorTurn) : Prop where
  positive : 0 < n
  rose : ∀ t ∈ earlier.getLast?, t.total < n
  stays : ∀ t ∈ stay, n ≤ t.total
  pastCooldown : ∃ first ∈ stay.head?, ∃ t ∈ stay, first.now + errorAlertCooldown ≤ t.now

/-- Each rise that stays has been told about, with a total at least that
high. -/
def RisesHeard (ts : List ErrorTurn) : Prop :=
  ∀ n earlier stay later, ts = earlier ++ stay ++ later → StayAbove n earlier stay →
    ∃ t ∈ stay, ∃ m, n ≤ m ∧ t.Reports m

/-- In each stay some sample that rises above the one before it comes when the
cooldown is over.  The first sample of a stay is one that rises. -/
def RisesWhenDue (ts : List ErrorTurn) : Prop :=
  ∀ n earlier stay later, ts = earlier ++ stay ++ later → StayAbove n earlier stay →
    ∃ before t rest, stay = before ++ t :: rest ∧
      (∀ u ∈ before.getLast?, u.total < t.total) ∧ t.CooldownOver

/-! ## One event -/

section Step

variable {row : Option (Row Str)}

theorem readTotal_ofNat (n : Nat) : readTotal (ofNat n) = n := by
  have hdigits : (ofNat n).all isAsciiDigit = true := by
    rw [List.all_eq_true]
    intro c hc
    have hdigit : c.isDigit = true := Nat.isDigit_of_mem_toDigits (by decide) (by decide) hc
    simpa [isAsciiDigit, Char.isDigit, Char.le_def] using hdigit
  rw [readTotal, if_pos ⟨Nat.toDigits_ne_nil, hdigits⟩]
  exact Nat.ofDigitChars_ten_toDigits

/-- The row has the total of the event, however it came there. -/
theorem errorCheck_total (e : RowEvent ErrorSample) :
    prevTotal (errorCheck.rowStep row e).1 = totalOf e := by
  cases e with
  | dropped => rfl
  | sample s =>
    show prevTotal (errorStep row s).1 = s.total
    unfold errorStep
    split
    · next hsame => exact hsame.symm
    · split
      · exact readTotal_ofNat s.total
      · exact readTotal_ofNat s.total

/-- A sample sends when its total rises above the one in the row and the
cooldown is over. -/
theorem errorStep_sends {s : ErrorSample} :
    (errorStep row s).2 = some (ioErrors s) ↔
      prevTotal row < s.total ∧
        cooldownOk (row.bind Row.lastAlertTs) s.now errorAlertCooldown = true := by
  unfold errorStep
  by_cases hsame : s.total = prevTotal row
  · rw [if_pos hsame]
    constructor
    · intro h
      cases h
    · intro ⟨hrise, _⟩
      omega
  · rw [if_neg hsame]
    by_cases hsends : prevTotal row < s.total ∧ 0 < s.total ∧
        cooldownOk (row.bind Row.lastAlertTs) s.now errorAlertCooldown = true
    · rw [if_pos hsends]
      exact ⟨fun _ => ⟨hsends.1, hsends.2.2⟩, fun _ => rfl⟩
    · rw [if_neg hsends]
      constructor
      · intro h
        cases h
      · intro ⟨hrise, hover⟩
        exact absurd ⟨hrise, by omega, hover⟩ hsends

end Step

/-! ## An event in a run -/

/-- After a run the row has the total of the last event. -/
theorem prevTotal_after (events : List (RowEvent ErrorSample)) :
    prevTotal (after errorCheck.rowStep none events) = (events.getLast?.map totalOf).getD 0 := by
  induction events using List.reverseRecOn with
  | nil => rfl
  | append_singleton events e _ =>
    rw [after_append, after_cons, after_nil, errorCheck_total, List.getLast?_concat]
    rfl

section

variable {events : List (RowEvent ErrorSample)} {earlier later : List ErrorTurn} {t : ErrorTurn}

/-- A sample with errors sends when it rises above the event before it and the
cooldown is over. -/
theorem errorTurn_reports (hcut : turns errorCheck.rowStep none events = earlier ++ t :: later) :
    t.Reports t.total ↔
      (0 < t.total ∧ ∀ u ∈ earlier.getLast?, u.total < t.total) ∧ t.CooldownOver := by
  obtain ⟨hbefore, hout⟩ := turn_of_cut hcut
  have hprev : prevTotal t.before = (earlier.getLast?.map ErrorTurn.total).getD 0 := by
    rw [hbefore, prevTotal_after, List.getLast?_map, Option.map_map]
    rfl
  have hrise : prevTotal t.before < t.total ↔
      0 < t.total ∧ ∀ u ∈ earlier.getLast?, u.total < t.total := by
    rw [hprev]
    cases earlier.getLast? with
    | none => simp
    | some u =>
      simp only [Option.map_some, Option.getD_some, Option.mem_some_iff, forall_eq']
      omega
  rw [← hrise]
  cases hinput : t.input with
  | dropped =>
    have hzero : t.total = 0 := by
      rw [ErrorTurn.total, hinput]
      rfl
    constructor
    · intro ⟨s, hs, _⟩
      rw [hinput] at hs
      cases hs
    · intro ⟨hless, _⟩
      omega
  | sample s =>
    have htotal : t.total = s.total := by
      rw [ErrorTurn.total, hinput]
      rfl
    have hsends : t.output = some (ioErrors s) ↔ prevTotal t.before < s.total ∧ t.CooldownOver := by
      rw [hout, hinput, ErrorTurn.CooldownOver, ErrorTurn.now, hinput]
      exact errorStep_sends
    rw [htotal, ← hsends]
    constructor
    · intro ⟨s', hs', _, hnotice⟩
      rw [hinput] at hs'
      obtain rfl := RowEvent.sample.inj hs'
      exact hnotice
    · intro hnotice
      exact ⟨s, hinput, rfl, hnotice⟩

end

theorem total_of_reports {t : ErrorTurn} {n : Nat} (h : t.Reports n) : t.total = n := by
  obtain ⟨s, hinput, rfl, -⟩ := h
  rw [ErrorTurn.total, hinput]
  rfl

/-- The rises that the cooldown holds back are the only ones that are lost. -/
theorem risesHeard_iff (events : List (RowEvent ErrorSample)) :
    RisesHeard (turns errorCheck.rowStep none events) ↔
      RisesWhenDue (turns errorCheck.rowStep none events) := by
  have hsplit : ∀ (earlier before : List ErrorTurn) t rest later,
      turns errorCheck.rowStep none events = earlier ++ (before ++ t :: rest) ++ later →
        turns errorCheck.rowStep none events = (earlier ++ before) ++ t :: (rest ++ later) := by
    intro earlier before t rest later hcut
    rw [hcut]
    simp
  constructor
  · intro h n earlier stay later hcut hstay
    obtain ⟨t, ht, m, -, hreports⟩ := h n earlier stay later hcut hstay
    obtain ⟨before, rest, rfl⟩ := List.mem_iff_append.mp ht
    obtain rfl := total_of_reports hreports
    obtain ⟨⟨-, hrise⟩, hover⟩ := (errorTurn_reports (hsplit _ _ _ _ _ hcut)).mp hreports
    refine ⟨before, t, rest, rfl, fun u hu => hrise u ?_, hover⟩
    rw [List.getLast?_append, hu]
    rfl
  · intro h n earlier stay later hcut hstay
    obtain ⟨before, t, rest, rfl, hrise, hover⟩ := h n earlier stay later hcut hstay
    have ht : t ∈ before ++ t :: rest := by simp
    have htotal := hstay.stays t ht
    have hpositive := hstay.positive
    refine ⟨t, ht, t.total, htotal,
      (errorTurn_reports (hsplit _ _ _ _ _ hcut)).mpr ⟨⟨by omega, ?_⟩, hover⟩⟩
    intro u hu
    cases hlast : before.getLast? with
    | none =>
      -- the sample starts the stay, and the event before it is lower
      rw [List.getLast?_append, hlast] at hu
      have hrose := hstay.rose u hu
      omega
    | some v =>
      rw [List.getLast?_append, hlast] at hu
      cases hu
      exact hrise u hlast

/-- Over every run of checks and clean-ups, each rise of a pool's errors that
stays past the cooldown has been told about if and only if each stay has a
rise that the cooldown does not hold back. -/
theorem rises_heard_iff (calls : List (PoolCall (List PoolStatus))) (key : Str) :
    RisesHeard (errorTurns calls key) ↔ RisesWhenDue (errorTurns calls key) := by
  unfold errorTurns
  rw [turnsAt_eq]
  exact risesHeard_iff _

/-- A pool with 3 checksum errors and an hour later with 5, which stay for two
days. -/
def climbing : List (PoolCall (List PoolStatus)) :=
  [(3, 0), (5, 3600), (5, 90000), (5, 180000)].map fun (n, ts) =>
    .check ⟨"10.0.0.9", "pve2", false⟩
      [⟨"tank", some (some ⟨0, 0, n⟩), 1000000 + ts, 1000000 + ts⟩]

/-- Nobody is told about more than 3. -/
theorem rise_swallowed : ¬ RisesHeard (errorTurns climbing "10.0.0.9:tank") := by
  intro h
  have hcut : errorTurns climbing "10.0.0.9:tank" = [_] ++ [_, _, _] ++ [] := rfl
  have hsilent : ∀ t ∈ (errorTurns climbing "10.0.0.9:tank").tail, t.output = none := by
    decide
  have hstay := h 5 _ _ _ hcut
    ⟨by decide, by decide, by decide, _, rfl, _, List.mem_of_getLast? rfl,
      by decide⟩
  obtain ⟨t, ht, m, -, s, -, -, hnotice⟩ := hstay
  rw [hsilent t ht] at hnotice
  cases hnotice

end PveZfsTool
