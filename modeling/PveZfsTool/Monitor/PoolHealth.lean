import PveZfsTool.Monitor.PoolRows

/-!
# The health of a pool

`check_pool_health` of `app/monitor.py` gets the health of each pool of a host
and tells about a pool that turned bad and about one that is back ONLINE.  The
row of a pool holds the health of its last sample.

The first sample of a pool is recorded and nobody is told, whatever it says,
and a recovery is told about when the row is bad.  `health_answered_iff` says
for which runs the notifications of a pool are paired.

* `turn_resolved`, `turn_problem`: when a sample in a run sends, by the event
  before it.
* `problemOpen_iff_wentBad`: when a time without ONLINE leaves a problem open.
-/

namespace PveZfsTool

open Text Transducer

/-! ## The check -/

/-- A pool as the caller lists it. -/
structure PoolReport where
  name : Str
  health : Str
  now : Nat
  deriving DecidableEq

/-- One pool that a call does not skip.  The health is in capitals, and the
clock is read after the notification. -/
structure HealthSample where
  host : MonitoredHost
  pool : Str
  health : Str
  now : Nat
  deriving DecidableEq

/-- What the row of the pool is about. -/
def HealthSample.item (s : HealthSample) : Watched := .pool .health s.host.address s.pool

def HealthSample.key (s : HealthSample) : Str := s.host.address ++ ":" ++ s.pool

/-- `pair_key` -/
def pairKey (key : Str) : Str := "pool_error:" ++ key

def poolTurnedBad (s : HealthSample) (prev : Str) : Notification where
  eventType := "pool_error"
  title := "Pool " ++ s.pool ++ ": " ++ s.health
  message := "Pool '" ++ s.pool ++ "' on " ++ s.host.label ++ " transitioned from " ++ prev ++
    " to " ++ s.health ++ ".\n\nRun 'zpool status " ++ s.pool ++ "' on the host for details."
  priority := 9
  state := "new"
  key := some (pairKey s.key)
  host := some s.host.label

def poolRecovered (s : HealthSample) (prev : Str) : Notification where
  eventType := "pool_error"
  title := "Pool " ++ s.pool ++ ": Recovered"
  message := "Pool '" ++ s.pool ++ "' on " ++ s.host.label ++ " recovered: " ++ prev ++ " → " ++
    s.health ++ "."
  priority := 4
  state := "resolved"
  key := some (pairKey s.key)
  host := some s.host.label

/-- The body of the loop of `check_pool_health`, on the row of the pool. -/
def healthStep (row : Option (Row Str)) (s : HealthSample) :
    Option (Row Str) × Option Notification :=
  match row with
  | none => (some (stateSet row s.health none), none)
  | some prev =>
      if prev.value = s.health then (row, none)
      else
        (some (stateSet row s.health (some s.now)),
          if s.health ∈ badHealth then some (poolTurnedBad s prev.value)
          else if prev.value ∈ badHealth ∧ s.health = ("ONLINE" : Str) then
            some (poolRecovered s prev.value)
          else none)

/-- The pools that a call does not skip. -/
def healthSamples (host : MonitoredHost) (pools : List PoolReport) : List HealthSample :=
  pools.filterMap fun p =>
    if p.name = [] ∨ p.health = [] then none
    else some ⟨host, p.name, p.health.map Char.toUpper, p.now⟩

theorem healthStep_row (row : Option (Row Str)) (s : HealthSample) :
    ∃ r, (healthStep row s).1 = some r ∧ r.value = s.health := by
  cases row with
  | none => exact ⟨_, rfl, rfl⟩
  | some prev =>
    unfold healthStep
    dsimp only
    split
    · next hsame => exact ⟨prev, rfl, hsame⟩
    · exact ⟨_, rfl, rfl⟩

/-- The rows of `pool_health`. -/
def healthCheck : RowCheck HealthSample where
  scope := .health
  item := HealthSample.item
  step := healthStep
  inScope := fun _ => rfl
  keeps := by
    intro row s hnone
    obtain ⟨r, hr, -⟩ := healthStep_row row s
    rw [hr] at hnone
    cases hnone

/-- `check_pool_health` -/
def checkPoolHealth (host : MonitoredHost) (pools : List PoolReport) (t : Table) :
    Table × List Notification :=
  healthCheck.loop t (healthSamples host pools)

/-- Calls one after the other are one loop over their events. -/
theorem after_checkPoolHealth {t : Table} {calls : List (PoolCall (List PoolReport))} :
    after (healthCheck.call checkPoolHealth) t calls =
        after healthCheck.run t (calls.flatMap (PoolCall.events healthSamples)) ∧
      (turns (healthCheck.call checkPoolHealth) t calls).flatMap Turn.output =
        (turns healthCheck.run t (calls.flatMap (PoolCall.events healthSamples))).flatMap
          Turn.output :=
  after_call

/-! ## Runs -/

abbrev HealthTurn := RowTurn HealthSample

/-- What calls do to the row of one pool. -/
def healthTurns (calls : List (PoolCall (List PoolReport))) (key : Str) : List HealthTurn :=
  healthCheck.turnsAt healthSamples calls key

/-- The health that a sample has. -/
def healthOf : RowEvent HealthSample → Option Str
  | .sample s => some s.health
  | .dropped => none

namespace HealthTurn

def health (t : HealthTurn) : Option Str := healthOf t.input

def Bad (t : HealthTurn) : Prop := ∃ h ∈ t.health, h ∈ badHealth

def Online (t : HealthTurn) : Prop := t.health = some "ONLINE"

/-- A notification with this state went out. -/
def Says (t : HealthTurn) (state : Str) : Prop := ∃ n ∈ t.output, n.state = state

/-- The pool is bad, and the event before was a sample with another health. -/
def TurnsBad (before t : HealthTurn) : Prop :=
  t.Bad ∧ before.health ≠ none ∧ before.health ≠ t.health

end HealthTurn

/-- A problem has been told about, and no recovery after it. -/
def ProblemOpen (ts : List HealthTurn) : Prop :=
  ∃ before t rest, ts = before ++ t :: rest ∧ t.Says "new" ∧ ∀ u ∈ rest, ¬ u.Says "resolved"

/-- A recovery is told about exactly when the pool is ONLINE and a problem of
it is not answered. -/
def ProblemsAnswered (ts : List HealthTurn) : Prop :=
  ∀ earlier t later, ts = earlier ++ t :: later →
    (t.Says "resolved" ↔ t.Online ∧ ProblemOpen earlier)

/-- `spell` is the time without ONLINE before `back`. -/
structure Spell (earlier spell : List HealthTurn) (back : HealthTurn) : Prop where
  wasOnline : ∀ t ∈ earlier.getLast?, t.Online
  without : ∀ t ∈ spell, ¬ t.Online
  comesBack : back.Online

/-- In the spell the pool turned bad after a sample with another health. -/
def WentBad (earlier spell : List HealthTurn) : Prop :=
  ∃ front t rest, spell = front ++ t :: rest ∧ ∃ w ∈ (earlier ++ front).getLast?, w.TurnsBad t

/-- A pool that turned bad in a spell is bad to its end, and one that is bad
at the end turned bad in the spell. -/
def SteadySpells (ts : List HealthTurn) : Prop :=
  ∀ earlier spell back later, ts = earlier ++ spell ++ back :: later →
    Spell earlier spell back → (WentBad earlier spell ↔ ∃ t ∈ spell.getLast?, t.Bad)

/-! ## One event -/

section Step

variable {row : Option (Row Str)} {e : RowEvent HealthSample}

theorem rowStep_sample (s : HealthSample) :
    healthCheck.rowStep row (.sample s) = healthStep row s := rfl

theorem healthCheck_value : (healthCheck.rowStep row e).1.map Row.value = healthOf e := by
  cases e with
  | sample s =>
    obtain ⟨r, hr, hvalue⟩ := healthStep_row row s
    rw [rowStep_sample, hr, Option.map_some, hvalue]
    rfl
  | dropped => rfl

theorem online_not_bad : ("ONLINE" : Str) ∉ badHealth := by decide

/-- What a sample of a pool with a known health sends. -/
theorem healthStep_known {prev : Row Str} {s : HealthSample} (hne : prev.value ≠ s.health) :
    (healthStep (some prev) s).2 =
      if s.health ∈ badHealth then some (poolTurnedBad s prev.value)
      else if prev.value ∈ badHealth ∧ s.health = ("ONLINE" : Str) then
        some (poolRecovered s prev.value)
      else none := by
  unfold healthStep
  dsimp only
  rw [if_neg hne]

theorem healthStep_same {prev : Row Str} {s : HealthSample} (h : prev.value = s.health) :
    healthStep (some prev) s = (some prev, none) := by
  unfold healthStep
  dsimp only
  rw [if_pos h]

theorem healthCheck_problem :
    (∃ n ∈ (healthCheck.rowStep row e).2, n.state = ("new" : Str)) ↔
      (∃ h ∈ healthOf e, h ∈ badHealth) ∧ row.map Row.value ≠ none ∧ row.map Row.value ≠ healthOf e := by
  have hstates : ("resolved" : Str) ≠ "new" := by decide
  constructor
  · intro ⟨n, hn, hstate⟩
    cases e with
    | dropped => cases hn
    | sample s =>
      cases row with
      | none => cases hn
      | some prev =>
        rw [rowStep_sample] at hn
        by_cases hsame : prev.value = s.health
        · rw [healthStep_same hsame] at hn
          cases hn
        · rw [healthStep_known hsame] at hn
          by_cases hbad : s.health ∈ badHealth
          · exact ⟨⟨s.health, rfl, hbad⟩, Option.some_ne_none _, fun h => hsame (Option.some.inj h)⟩
          · rw [if_neg hbad] at hn
            split at hn
            · obtain rfl := Option.some.inj hn
              exact absurd hstate hstates
            · cases hn
  · intro ⟨⟨h, he, hbad⟩, hknown, hne⟩
    cases e with
    | dropped => cases he
    | sample s =>
      obtain rfl := Option.some.inj he
      cases row with
      | none => exact absurd rfl hknown
      | some prev =>
        refine ⟨poolTurnedBad s prev.value, ?_, rfl⟩
        rw [rowStep_sample, healthStep_known (fun h => hne (congrArg some h)), if_pos hbad]
        rfl

theorem healthCheck_resolved :
    (∃ n ∈ (healthCheck.rowStep row e).2, n.state = ("resolved" : Str)) ↔
      healthOf e = some "ONLINE" ∧ ∃ v ∈ row.map Row.value, v ∈ badHealth := by
  have hstates : ("new" : Str) ≠ "resolved" := by decide
  constructor
  · intro ⟨n, hn, hstate⟩
    cases e with
    | dropped => cases hn
    | sample s =>
      cases row with
      | none => cases hn
      | some prev =>
        rw [rowStep_sample] at hn
        by_cases hsame : prev.value = s.health
        · rw [healthStep_same hsame] at hn
          cases hn
        · rw [healthStep_known hsame] at hn
          split at hn
          · obtain rfl := Option.some.inj hn
            exact absurd hstate hstates
          · split at hn
            · next hback => exact ⟨congrArg some hback.2, prev.value, rfl, hback.1⟩
            · cases hn
  · intro ⟨honline, v, hv, hbad⟩
    cases e with
    | dropped => cases honline
    | sample s =>
      have hhealth : s.health = "ONLINE" := Option.some.inj honline
      cases row with
      | none => cases hv
      | some prev =>
        obtain rfl := Option.some.inj hv
        have hne : prev.value ≠ s.health := by
          intro hsame
          rw [hsame, hhealth] at hbad
          exact online_not_bad hbad
        have hgood : s.health ∉ badHealth := by
          rw [hhealth]
          exact online_not_bad
        refine ⟨poolRecovered s prev.value, ?_, rfl⟩
        rw [rowStep_sample, healthStep_known hne, if_neg hgood, if_pos ⟨hbad, hhealth⟩]
        rfl

end Step

/-! ## An event in a run -/

section

variable {events : List (RowEvent HealthSample)} {earlier later : List HealthTurn} {t : HealthTurn}

theorem value_of_cut (hcut : turns healthCheck.rowStep none events = earlier ++ t :: later) :
    t.before.map Row.value = earlier.getLast?.bind HealthTurn.health ∧
      t.output = (healthCheck.rowStep t.before t.input).2 :=
  row_of_cut (fun _ _ => healthCheck_value) hcut

theorem turn_problem (hcut : turns healthCheck.rowStep none events = earlier ++ t :: later) :
    t.Says "new" ↔ ∃ w ∈ earlier.getLast?, w.TurnsBad t := by
  obtain ⟨hvalue, hout⟩ := value_of_cut hcut
  rw [HealthTurn.Says, hout, healthCheck_problem, hvalue]
  cases earlier.getLast? with
  | none => simp
  | some w =>
    constructor
    · intro h
      exact ⟨w, rfl, h⟩
    · rintro ⟨w', hw', h⟩
      obtain rfl := Option.some.inj hw'
      exact h

theorem turn_resolved (hcut : turns healthCheck.rowStep none events = earlier ++ t :: later) :
    t.Says "resolved" ↔ t.Online ∧ ∃ w ∈ earlier.getLast?, w.Bad := by
  obtain ⟨hvalue, hout⟩ := value_of_cut hcut
  rw [HealthTurn.Says, hout, healthCheck_resolved, hvalue]
  cases earlier.getLast? with
  | none => simp
  | some w =>
    constructor
    · intro ⟨honline, hbad⟩
      exact ⟨honline, w, rfl, hbad⟩
    · rintro ⟨honline, w', hw', hbad⟩
      obtain rfl := Option.some.inj hw'
      exact ⟨honline, hbad⟩

end

/-! ## Open problems -/

section

variable {ts : List HealthTurn} {t : HealthTurn}

theorem not_problemOpen_nil : ¬ ProblemOpen [] := by
  rintro ⟨before, t, rest, h, -⟩
  simp at h

theorem problemOpen_append :
    ProblemOpen (ts ++ [t]) ↔ t.Says "new" ∨ ProblemOpen ts ∧ ¬ t.Says "resolved" := by
  constructor
  · rintro ⟨before, u, rest, h, hnew, hrest⟩
    obtain rfl | ⟨rest, v, rfl⟩ := List.eq_nil_or_concat rest
    · obtain ⟨-, hu⟩ := List.append_inj' h rfl
      obtain rfl := List.singleton_inj.mp hu
      exact Or.inl hnew
    · rw [List.concat_eq_append, ← List.cons_append, ← List.append_assoc] at h
      obtain ⟨rfl, hv⟩ := List.append_inj' h rfl
      obtain rfl := List.singleton_inj.mp hv
      right
      exact ⟨⟨before, u, rest, rfl, hnew, fun w hw => hrest w (by simp [hw])⟩, hrest t (by simp)⟩
  · rintro (hnew | ⟨⟨before, u, rest, rfl, hnew, hrest⟩, hresolved⟩)
    · exact ⟨ts, t, [], rfl, hnew, List.forall_mem_nil _⟩
    · refine ⟨before, u, rest ++ [t], by simp, hnew, ?_⟩
      intro w hw
      obtain hw | hw := List.mem_append.mp hw
      · exact hrest w hw
      · rw [List.mem_singleton.mp hw]
        exact hresolved

/-- While nothing is answered, each problem adds to what is left. -/
theorem problemOpen_spell {past spell : List HealthTurn}
    (h : ∀ u ∈ spell, ¬ u.Says "resolved") :
    ProblemOpen (past ++ spell) ↔ ProblemOpen past ∨ ∃ u ∈ spell, u.Says "new" := by
  induction spell using List.reverseRecOn with
  | nil => simp
  | append_singleton spell u ih =>
    have hrest := ih (fun w hw => h w (List.mem_append_left _ hw))
    have hu : ¬ u.Says "resolved" := h u (by simp)
    rw [← List.append_assoc, problemOpen_append, hrest, and_iff_left hu]
    simp only [List.mem_append, List.mem_singleton, or_and_right, exists_or, exists_eq_left]
    rw [or_comm, or_assoc]

/-- A run is a time up to the last ONLINE and a time without. -/
theorem exists_spell (ts : List HealthTurn) :
    ∃ past spell, ts = past ++ spell ∧ (∀ t ∈ past.getLast?, t.Online) ∧
      ∀ t ∈ spell, ¬ t.Online := by
  induction ts using List.reverseRecOn with
  | nil => exact ⟨[], [], rfl, by simp, by simp⟩
  | append_singleton ts t ih =>
    by_cases honline : t.Online
    · exact ⟨ts ++ [t], [], by simp, by simpa using honline, by simp⟩
    · obtain ⟨past, spell, rfl, hpast, hspell⟩ := ih
      refine ⟨past, spell ++ [t], by simp, hpast, ?_⟩
      intro u hu
      obtain hu | hu := List.mem_append.mp hu
      · exact hspell u hu
      · rw [List.mem_singleton.mp hu]
        exact honline

end

section

variable {events : List (RowEvent HealthSample)} {earlier spell later : List HealthTurn}
  {back : HealthTurn}

theorem HealthTurn.Online.not_bad {t : HealthTurn} (h : t.Online) : ¬ t.Bad := by
  rintro ⟨v, hv, hbad⟩
  rw [HealthTurn.Online] at h
  rw [h] at hv
  obtain rfl := Option.some.inj hv
  exact online_not_bad hbad

/-- In a spell after an answered time a problem is left exactly when the pool
went bad in it. -/
theorem problemOpen_iff_wentBad
    (hcut : turns healthCheck.rowStep none events = earlier ++ spell ++ back :: later)
    (h : Spell earlier spell back) (hanswered : ¬ ProblemOpen earlier) :
    ProblemOpen (earlier ++ spell) ↔ WentBad earlier spell := by
  have hsplit : ∀ front t rest, spell = front ++ t :: rest →
      turns healthCheck.rowStep none events = (earlier ++ front) ++ t :: (rest ++ back :: later) := by
    rintro front t rest rfl
    rw [hcut]
    simp
  have hquiet : ∀ t ∈ spell, ¬ t.Says "resolved" := by
    intro t ht hresolved
    obtain ⟨front, rest, hspell⟩ := List.mem_iff_append.mp ht
    exact h.without t ht ((turn_resolved (hsplit front t rest hspell)).mp hresolved).1
  rw [problemOpen_spell hquiet, or_iff_right hanswered]
  constructor
  · intro ⟨t, ht, hnew⟩
    obtain ⟨front, rest, hspell⟩ := List.mem_iff_append.mp ht
    exact ⟨front, t, rest, hspell, (turn_problem (hsplit front t rest hspell)).mp hnew⟩
  · intro ⟨front, t, rest, hspell, hbad⟩
    refine ⟨t, ?_, (turn_problem (hsplit front t rest hspell)).mpr hbad⟩
    rw [hspell]
    simp

/-- The sample that ends a spell is told about when the pool was bad at the
end of it. -/
theorem resolved_iff_bad
    (hcut : turns healthCheck.rowStep none events = earlier ++ spell ++ back :: later)
    (h : Spell earlier spell back) : back.Says "resolved" ↔ ∃ t ∈ spell.getLast?, t.Bad := by
  rw [turn_resolved hcut, and_iff_right h.comesBack, List.getLast?_append]
  cases hlast : spell.getLast? with
  | some t => rfl
  | none =>
    constructor
    · intro ⟨w, hw, hbad⟩
      exact absurd hbad (h.wasOnline w hw).not_bad
    · intro ⟨w, hw, _⟩
      cases hw

/-- After an ONLINE sample that was answered as it should be, no problem is
left. -/
theorem not_problemOpen_of_online {past rest : List HealthTurn} {t : HealthTurn}
    (hcut : turns healthCheck.rowStep none events = past ++ t :: rest) (honline : t.Online)
    (hanswered : t.Says "resolved" ↔ t.Online ∧ ProblemOpen past) : ¬ ProblemOpen (past ++ [t]) := by
  rw [problemOpen_append]
  rintro (hnew | ⟨hleft, hresolved⟩)
  · obtain ⟨w, -, hbad, -⟩ := (turn_problem hcut).mp hnew
    exact honline.not_bad hbad
  · exact hresolved (hanswered.mpr ⟨honline, hleft⟩)

end

/-- The notifications of a pool are paired exactly in the runs with steady
spells. -/
theorem problemsAnswered_iff (events : List (RowEvent HealthSample)) :
    ProblemsAnswered (turns healthCheck.rowStep none events) ↔ SteadySpells (turns healthCheck.rowStep none events) := by
  have hstart : ∀ earlier spell back later,
      turns healthCheck.rowStep none events = earlier ++ spell ++ back :: later →
        Spell earlier spell back →
          (∀ past t rest, earlier = past ++ t :: rest →
            (t.Says "resolved" ↔ t.Online ∧ ProblemOpen past)) → ¬ ProblemOpen earlier := by
    intro earlier spell back later hcut h hpaired
    obtain rfl | ⟨past, t, rfl⟩ := List.eq_nil_or_concat earlier
    · exact not_problemOpen_nil
    · rw [List.concat_eq_append] at hcut hpaired ⊢
      have honline := h.wasOnline t (by simp)
      have hcut' : turns healthCheck.rowStep none events = past ++ t :: (spell ++ back :: later) := by
        rw [hcut]
        simp
      exact not_problemOpen_of_online hcut' honline (hpaired past t [] rfl)
  constructor
  · intro hpaired earlier spell back later hcut h
    have hanswered := hstart earlier spell back later hcut h (fun past t rest hearlier =>
      hpaired past t (rest ++ spell ++ back :: later) (by rw [hcut, hearlier]; simp))
    have hback := hpaired (earlier ++ spell) back later hcut
    rw [resolved_iff_bad hcut h, and_iff_right h.comesBack,
      problemOpen_iff_wentBad hcut h hanswered] at hback
    exact hback.symm
  · intro hsteady earlier
    -- the ONLINE sample before the spell comes earlier in the run
    induction hlength : earlier.length using Nat.strong_induction_on generalizing earlier with
    | _ n ih =>
      intro back later hcut
      by_cases honline : back.Online
      · obtain ⟨past, spell, rfl, hpast, hspell⟩ := exists_spell earlier
        have h : Spell past spell back := ⟨hpast, hspell, honline⟩
        have hanswered := hstart past spell back later hcut h (fun past' t rest heq =>
          ih past'.length (by rw [← hlength, heq]; simp) past' rfl t
            (rest ++ spell ++ back :: later) (by rw [hcut, heq]; simp))
        rw [resolved_iff_bad hcut h, and_iff_right honline, problemOpen_iff_wentBad hcut h hanswered]
        exact (hsteady past spell back later hcut h).symm
      · constructor
        · intro hresolved
          exact absurd ((turn_resolved hcut).mp hresolved).1 honline
        · intro ⟨hback, _⟩
          exact absurd hback honline

/-- Over every run of checks and clean-ups, the notifications of a pool are
paired if and only if its spells are steady. -/
theorem health_answered_iff (calls : List (PoolCall (List PoolReport))) (key : Str) :
    ProblemsAnswered (healthTurns calls key) ↔ SteadySpells (healthTurns calls key) := by
  unfold healthTurns
  rw [turnsAt_eq]
  exact problemsAnswered_iff _

/-- A pool that is bad when it is first seen, and ONLINE after that. -/
def foundBad : List (PoolCall (List PoolReport)) :=
  [.check ⟨"10.0.0.9", "pve2", false⟩ [⟨"tank", "DEGRADED", 100⟩],
    .check ⟨"10.0.0.9", "pve2", false⟩ [⟨"tank", "ONLINE", 200⟩]]

/-- Its recovery is told about, although nobody was told that it was bad. -/
theorem health_unanswered : ¬ ProblemsAnswered (healthTurns foundBad "10.0.0.9:tank") := by
  intro h
  have hcut : healthTurns foundBad "10.0.0.9:tank" = [_] ++ _ :: [] := rfl
  obtain ⟨-, before, t, rest, hbefore, ⟨n, hn, -⟩, -⟩ := (h _ _ _ hcut).mp ⟨_, rfl, rfl⟩
  have hmem : t ∈ before ++ t :: rest := by simp
  rw [← hbefore] at hmem
  rw [List.mem_singleton.mp hmem] at hn
  cases hn

end PveZfsTool
