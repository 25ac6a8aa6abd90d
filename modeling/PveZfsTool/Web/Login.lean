import Mathlib.Algebra.Order.Ring.Rat
import Mathlib.Data.Rat.Floor
import Mathlib.Tactic.Linarith
import PveZfsTool.Lib.Runs
import PveZfsTool.Web.Audit

/-!
# The limit on login attempts

`api_login` of `app/main.py` counts the failed logins of each address.  It
looks at the counter when a request comes in, compares the password, and
counts the failure after that.  `_login_lock` is held for the look and for the
count, and not in between.

Requests run at the same time, in any number.  `LoginEvent` has one
constructor for each part of a request that happens at one moment, and
`loginStep` allows these in any order.  All parts of a request work with the
time that it read from the clock when it came in.

A request that passed the gate is not counted before its failure is recorded.
`login_bounded` says that the limit holds in the runs where no request passes
on account of one that is still on its way.

* `expired_drop`: dropping the expired entries changes nothing for a request
  that comes later.
* `Bounded`, `bounded_step`: the invariant and its step.
-/

namespace PveZfsTool.Web

open Text Runs

/-! ## The counter -/

/-- An entry of `_login_attempts`. -/
structure Attempts where
  count : Nat
  last : Rat
  deriving DecidableEq

/-- `_login_attempts` -/
abbrev AttemptMap := Str → Option Attempts

/-- `MAX_LOGIN_ATTEMPTS` -/
def maxLoginAttempts : Nat := 5

/-- `LOGIN_LOCKOUT_SECONDS` -/
def loginLockoutSeconds : Rat := 300

/-- `_login_gate`: the remaining seconds of a lockout, if there is one. -/
def loginGate (attempts : AttemptMap) (ip : Str) (now : Rat) : Option Int :=
  match attempts ip with
  | none => none
  | some info =>
      if maxLoginAttempts ≤ info.count ∧ now - info.last < loginLockoutSeconds then
        some (loginLockoutSeconds - (now - info.last)).floor
      else none

/-- The entries whose lockout window has not passed. -/
def dropExpired (attempts : AttemptMap) (now : Rat) : AttemptMap :=
  fun ip => (attempts ip).filter (fun info => now - info.last < loginLockoutSeconds)

/-- `_login_record_failure`: the counters, and the new count. -/
def loginRecordFailure (attempts : AttemptMap) (ip : Str) (now : Rat) : AttemptMap × Nat :=
  let attempts := dropExpired attempts now
  let info := (attempts ip).getD ⟨0, 0⟩
  let info := if loginLockoutSeconds ≤ now - info.last then ⟨0, now⟩ else info
  (Function.update attempts ip (some ⟨info.count + 1, now⟩), info.count + 1)

/-- `_login_reset` -/
def loginReset (attempts : AttemptMap) (ip : Str) : AttemptMap :=
  Function.update attempts ip none

/-! ## A login request -/

/-- `ADMIN_USER` and `ADMIN_PASSWORD`. -/
structure Admin where
  user : Str
  password : Str

/-- The body of a request.  `unreadable` is one that raises before the
password is compared: no JSON, or a field that is no text. -/
inductive LoginBody where
  | unreadable
  | fields (username password : Option Str)
  deriving DecidableEq

structure LoginResponse where
  status : Nat
  success : Bool
  error : Str
  csrfToken : Str
  deriving DecidableEq

inductive LoginStage where
  | arrived
  | refused (response : LoginResponse)
  | admitted
  | failed (username : Str)
  | matched (username : Str)
  | crashed
  | answered (response : LoginResponse)
  deriving DecidableEq

structure LoginRequest where
  ip : Str
  body : LoginBody
  now : Rat
  stage : LoginStage
  deriving DecidableEq

def tooManyAttempts (remaining : Int) : LoginResponse where
  status := 429
  success := false
  error := "Too many attempts. Try again in " ++ ofInt remaining ++ "s"
  csrfToken := []

def invalidCredentials : LoginResponse where
  status := 401
  success := false
  error := "Invalid credentials"
  csrfToken := []

def loggedIn (token : Str) : LoginResponse where
  status := 200
  success := true
  error := []
  csrfToken := token

/-- The two comparisons of `api_login`. -/
def compareCredentials (admin : Admin) (body : LoginBody) : LoginStage :=
  match body with
  | .unreadable => .crashed
  | .fields username password =>
      if username.getD [] = admin.user ∧ password.getD [] = admin.password then
        .matched (username.getD [])
      else .failed (username.getD [])

/-- A password is compared, and it is not the real one. -/
def wrongPassword (admin : Admin) (body : LoginBody) : Bool :=
  match body with
  | .unreadable => false
  | .fields _ password => password.getD [] != admin.password

def loginSuccessCall (ip username : Str) : AuditCall where
  action := "login.success"
  target := username
  success := true
  user := some username
  ip := some ip

def loginFailureCall (ip username : Str) (attempts : Nat) : AuditCall where
  action := "login.failure"
  target := if username = [] then "?" else username
  details := some ("\x7b\"attempts\": " ++ ofNat attempts ++ "\x7d")
  success := false
  user := some "?"
  ip := some ip

/-! ## Requests at the same time -/

inductive LoginEvent where
  /-- A request comes in and reads the clock. -/
  | arrive (remoteAddr : Option Str) (body : LoginBody) (now : Rat)
  | gate (r : Nat)
  | compare (r : Nat)
  /-- The failure is recorded, or the counter is reset and a new session
  begins with the token. -/
  | finish (r : Nat) (token : Str)
  deriving DecidableEq

/-- The counters and the requests, in the order they came in. -/
structure LoginState where
  attempts : AttemptMap
  requests : List LoginRequest
  /-- The times of the wrong passwords that were compared since the last
  successful login from the address. -/
  wrong : Str → List Rat
  audit : List AuditCall

def LoginState.init : LoginState where
  attempts := fun _ => none
  requests := []
  wrong := fun _ => []
  audit := []

/-- The request goes on to a stage. -/
def LoginState.move (s : LoginState) (r : Nat) (q : LoginRequest) (stage : LoginStage) :
    LoginState :=
  { s with requests := s.requests.set r { q with stage := stage } }

/-- `api_login`, in the parts that happen at one moment. -/
def loginStep (admin : Admin) (s : LoginState) : LoginEvent → Option LoginState
  | .arrive remoteAddr body now =>
      some { s with requests := s.requests ++ [⟨clientIp remoteAddr, body, now, .arrived⟩] }
  | .gate r =>
      match s.requests[r]? with
      | none => none
      | some q =>
          if q.stage = .arrived then
            match loginGate s.attempts q.ip q.now with
            | some remaining => some (s.move r q (.refused (tooManyAttempts remaining)))
            | none => some (s.move r q .admitted)
          else none
  | .compare r =>
      match s.requests[r]? with
      | none => none
      | some q =>
          if q.stage = .admitted then
            let wrong := if wrongPassword admin q.body then q.now :: s.wrong q.ip else s.wrong q.ip
            some { s.move r q (compareCredentials admin q.body) with
              wrong := Function.update s.wrong q.ip wrong }
          else none
  | .finish r token =>
      match s.requests[r]? with
      | none => none
      | some q =>
          match q.stage with
          | .matched username =>
              some { s.move r q (.answered (loggedIn token)) with
                attempts := loginReset s.attempts q.ip
                wrong := Function.update s.wrong q.ip []
                audit := s.audit ++ [loginSuccessCall q.ip username] }
          | .failed username =>
              let (attempts, count) := loginRecordFailure s.attempts q.ip q.now
              some { s.move r q (.answered invalidCredentials) with
                attempts := attempts
                audit := s.audit ++ [loginFailureCall q.ip username count] }
          | _ => none

/-! ## The limit -/

/-- The times of one lockout window. -/
def inWindow (start t : Rat) : Bool := start ≤ t && t < start + loginLockoutSeconds

/-- In every lockout window, at most so many wrong passwords were compared
without a successful login in between. -/
def AttemptsLimited (s : LoginState) : Prop :=
  ∀ ip start, (s.wrong ip).countP (inWindow start) ≤ maxLoginAttempts

/-- The failures that a counter stands for at a time. -/
def liveCount (info : Option Attempts) (now : Rat) : Nat :=
  match info with
  | none => 0
  | some info => if now - info.last < loginLockoutSeconds then info.count else 0

/-- The request passed the gate, and its password is not compared yet. -/
def LoginRequest.isAdmitted (q : LoginRequest) : Bool := q.stage == .admitted

/-- The password was compared, and the failure is not recorded yet. -/
def LoginRequest.isFailed (q : LoginRequest) : Bool :=
  match q.stage with
  | .failed _ => true
  | _ => false

/-- The request passed the gate. -/
def LoginRequest.hasPassed (q : LoginRequest) : Bool :=
  match q.stage with
  | .arrived | .refused _ => false
  | _ => true

/-- The requests of an address that passed the gate and may still turn out as
failures that are not recorded. -/
def LoginState.underway (s : LoginState) (ip : Str) : Nat :=
  s.requests.countP (fun q => q.ip == ip && (q.isAdmitted || q.isFailed))

/-- A request passes the gate in the order of the times the requests read, and
only if those before it that are still on their way leave room for it.  A
failure is not recorded over a later one. -/
def Accounted (s : LoginState) : LoginEvent → Prop
  | .gate r => ∀ q ∈ s.requests[r]?, loginGate s.attempts q.ip q.now = none →
      (∀ p ∈ s.requests, p.hasPassed → p.now ≤ q.now) ∧
        liveCount (s.attempts q.ip) q.now + s.underway q.ip < maxLoginAttempts
  | .finish r _ => ∀ q ∈ s.requests[r]?, q.isFailed → ∀ info ∈ s.attempts q.ip, info.last ≤ q.now
  | _ => True

/-! ## The parts of a request -/

/-- What one step does. -/
inductive LoginMove (admin : Admin) (s : LoginState) : LoginEvent → LoginState → Prop
  | arrived (remoteAddr : Option Str) (body : LoginBody) (now : Rat) :
      LoginMove admin s (.arrive remoteAddr body now)
        { s with requests := s.requests ++ [⟨clientIp remoteAddr, body, now, .arrived⟩] }
  | refused (r : Nat) (q : LoginRequest) (remaining : Int) (hq : s.requests[r]? = some q)
      (hstage : q.stage = .arrived) :
      LoginMove admin s (.gate r) (s.move r q (.refused (tooManyAttempts remaining)))
  | admitted (r : Nat) (q : LoginRequest) (hq : s.requests[r]? = some q)
      (hstage : q.stage = .arrived) (hgate : loginGate s.attempts q.ip q.now = none) :
      LoginMove admin s (.gate r) (s.move r q .admitted)
  | compared (r : Nat) (q : LoginRequest) (hq : s.requests[r]? = some q)
      (hstage : q.stage = .admitted) :
      LoginMove admin s (.compare r)
        { s.move r q (compareCredentials admin q.body) with
          wrong := Function.update s.wrong q.ip
            (if wrongPassword admin q.body then q.now :: s.wrong q.ip else s.wrong q.ip) }
  | reset (r : Nat) (q : LoginRequest) (token username : Str) (hq : s.requests[r]? = some q)
      (hstage : q.stage = .matched username) :
      LoginMove admin s (.finish r token)
        { s.move r q (.answered (loggedIn token)) with
          attempts := loginReset s.attempts q.ip
          wrong := Function.update s.wrong q.ip []
          audit := s.audit ++ [loginSuccessCall q.ip username] }
  | recorded (r : Nat) (q : LoginRequest) (token username : Str) (hq : s.requests[r]? = some q)
      (hstage : q.stage = .failed username) :
      LoginMove admin s (.finish r token)
        { s.move r q (.answered invalidCredentials) with
          attempts := (loginRecordFailure s.attempts q.ip q.now).1
          audit := s.audit ++
            [loginFailureCall q.ip username (loginRecordFailure s.attempts q.ip q.now).2] }

theorem loginStep_cases {admin : Admin} {s s' : LoginState} {e : LoginEvent}
    (h : loginStep admin s e = some s') : LoginMove admin s e s' := by
  cases e with
  | arrive remoteAddr body now =>
    cases h
    exact .arrived remoteAddr body now
  | gate r =>
    simp only [loginStep] at h
    cases hq : s.requests[r]? with
    | none => simp [hq] at h
    | some q =>
      simp only [hq] at h
      by_cases hstage : q.stage = .arrived
      · rw [if_pos hstage] at h
        cases hgate : loginGate s.attempts q.ip q.now with
        | none =>
          rw [hgate] at h
          cases h
          exact .admitted r q hq hstage hgate
        | some remaining =>
          rw [hgate] at h
          cases h
          exact .refused r q remaining hq hstage
      · rw [if_neg hstage] at h
        cases h
  | compare r =>
    simp only [loginStep] at h
    cases hq : s.requests[r]? with
    | none => simp [hq] at h
    | some q =>
      simp only [hq] at h
      by_cases hstage : q.stage = .admitted
      · rw [if_pos hstage] at h
        cases h
        exact .compared r q hq hstage
      · rw [if_neg hstage] at h
        cases h
  | finish r token =>
    simp only [loginStep] at h
    cases hq : s.requests[r]? with
    | none => simp [hq] at h
    | some q =>
      simp only [hq] at h
      cases hstage : q.stage with
      | matched username =>
        simp only [hstage] at h
        cases h
        exact .reset r q token username hq hstage
      | failed username =>
        simp only [hstage] at h
        cases h
        exact .recorded r q token username hq hstage
      | arrived | refused _ | admitted | crashed | answered _ => simp [hstage] at h

/-! ## Counting requests -/

theorem countP_set {α : Type} {f : α → Bool} {l : List α} {i : Nat} {a b : α}
    (h : l[i]? = some a) :
    (l.set i b).countP f + (if f a then 1 else 0) = l.countP f + (if f b then 1 else 0) := by
  obtain ⟨hi, rfl⟩ := List.getElem?_eq_some_iff.mp h
  have hpos : f l[i] = true → 0 < l.countP f := fun hf =>
    List.countP_pos_iff.mpr ⟨l[i], List.getElem_mem hi, hf⟩
  rw [List.countP_set hi]
  split <;> rename_i hf
  · have := hpos hf
    omega
  · omega

/-- The request waits for its comparison, and it counts in the window. -/
def LoginRequest.admittedIn (ip : Str) (start : Rat) (q : LoginRequest) : Bool :=
  q.ip == ip && q.isAdmitted && inWindow start q.now

/-- The request waits for its failure to be recorded, and it counts in the
window. -/
def LoginRequest.failedIn (ip : Str) (start : Rat) (q : LoginRequest) : Bool :=
  q.ip == ip && q.isFailed && inWindow start q.now

/-- The time lies less than a lockout before `now`. -/
def isRecent (now t : Rat) : Bool := now - t < loginLockoutSeconds

/-- The counters stand for every wrong password that is still recent. -/
structure Bounded (s : LoginState) : Prop where
  limited : ∀ ip start, (s.wrong ip).countP (inWindow start) +
    s.requests.countP (LoginRequest.admittedIn ip start) ≤ maxLoginAttempts
  counted : ∀ ip, ∃ recorded : List Rat,
    (∀ start, (s.wrong ip).countP (inWindow start) ≤
      recorded.countP (inWindow start) + s.requests.countP (LoginRequest.failedIn ip start)) ∧
    ∀ now, (∀ p ∈ s.requests, p.hasPassed → p.now ≤ now) →
      recorded.countP (isRecent now) ≤ liveCount (s.attempts ip) now

/-! ## What a counter stands for -/

section

variable {attempts : AttemptMap} {info : Option Attempts} {ip : Str} {now t start : Rat}

theorem isRecent_of_window (ht : inWindow start t = true) (hnow : inWindow start now = true) :
    isRecent now t = true := by
  simp only [inWindow, Bool.and_eq_true, decide_eq_true_eq] at ht hnow
  rw [isRecent, decide_eq_true_eq]
  linarith only [ht.1, hnow.2]

theorem liveCount_le {i : Attempts} : liveCount (some i) now ≤ i.count := by
  rw [liveCount]
  split
  · exact le_refl _
  · exact Nat.zero_le _

/-- Dropping the expired entries changes nothing for a request that comes
later. -/
theorem expired_drop (h : t ≤ now) :
    liveCount (dropExpired attempts t ip) now = liveCount (attempts ip) now := by
  unfold dropExpired
  cases attempts ip with
  | none => rfl
  | some i =>
    by_cases hfresh : t - i.last < loginLockoutSeconds
    · rw [Option.filter_some_pos (by simpa using hfresh)]
    · have hexpired : ¬ now - i.last < loginLockoutSeconds := by
        intro hlt
        apply hfresh
        linarith only [h, hlt]
      rw [Option.filter_some_neg (by simpa using hfresh), liveCount, liveCount, if_neg hexpired]

/-- A recorded failure adds one to what the counter stands for. -/
theorem liveCount_record (hlast : ∀ i ∈ attempts ip, i.last ≤ t) (h : t ≤ now) :
    liveCount (attempts ip) now + (if isRecent now t then 1 else 0) ≤
      liveCount ((loginRecordFailure attempts ip t).1 ip) now := by
  rw [← expired_drop h]
  have hkept : ∀ i ∈ dropExpired attempts t ip, i.last ≤ t ∧ t - i.last < loginLockoutSeconds := by
    intro i hi
    obtain ⟨hmem, hfresh⟩ := Option.mem_filter_iff.mp hi
    exact ⟨hlast i hmem, by simpa using hfresh⟩
  simp only [loginRecordFailure, Function.update_self]
  generalize dropExpired attempts t ip = info at hkept
  rw [liveCount.eq_def (some _)]
  dsimp only
  by_cases hrecent : now - t < loginLockoutSeconds
  · rw [if_pos (by simpa [isRecent] using hrecent), if_pos hrecent]
    apply Nat.add_le_add_right
    cases info with
    | none => exact Nat.zero_le _
    | some i =>
      have hfresh := (hkept i rfl).2
      rw [Option.getD_some, if_neg (not_le.mpr hfresh)]
      exact liveCount_le
  · rw [if_neg (by simpa [isRecent] using hrecent), if_neg hrecent, Nat.add_zero]
    cases info with
    | none => exact le_refl 0
    | some i =>
      have hold : ¬ now - i.last < loginLockoutSeconds := by
        intro hlt
        apply hrecent
        linarith only [(hkept i rfl).1, hlt]
      rw [liveCount, if_neg hold]

end

/-! ## The invariant -/

section

variable {admin : Admin} {s : LoginState} {r : Nat} {q : LoginRequest} {stage : LoginStage}

/-- A request that goes on does not lower the times that passed the gate. -/
theorem passed_of_move {now : Rat} (hq : s.requests[r]? = some q)
    (hpassed : q.hasPassed = true → LoginRequest.hasPassed { q with stage := stage } = true)
    (h : ∀ p ∈ (s.move r q stage).requests, p.hasPassed → p.now ≤ now) :
    ∀ p ∈ s.requests, p.hasPassed → p.now ≤ now := by
  intro p hp hpass
  obtain ⟨j, hj⟩ := List.mem_iff_getElem?.mp hp
  by_cases hjr : j = r
  · subst hjr
    rw [hq] at hj
    cases hj
    have hmem : { q with stage := stage } ∈ (s.move j q stage).requests :=
      List.mem_set (List.getElem?_eq_some_iff.mp hq).1 _
    have hbound := h _ hmem (hpassed hpass)
    exact hbound
  · refine h p (List.mem_iff_getElem?.mpr ⟨j, ?_⟩) hpass
    rw [LoginState.move, List.getElem?_set_ne (Ne.symm hjr)]
    exact hj

theorem count_move (stage : LoginStage) (f : LoginRequest → Bool)
    (hq : s.requests[r]? = some q) :
    (s.move r q stage).requests.countP f + (if f q then 1 else 0) =
      s.requests.countP f + (if f { q with stage := stage } then 1 else 0) :=
  countP_set hq

/-- The requests that are under way in one window. -/
theorem window_le_underway (s : LoginState) (ip : Str) (start : Rat) :
    s.requests.countP (LoginRequest.admittedIn ip start) +
      s.requests.countP (LoginRequest.failedIn ip start) ≤ s.underway ip := by
  unfold LoginState.underway
  induction s.requests with
  | nil => exact le_refl _
  | cons p requests ih =>
    have hexcl : p.isAdmitted = true → p.isFailed = false := by
      intro h
      rw [LoginRequest.isAdmitted, beq_iff_eq] at h
      rw [LoginRequest.isFailed, h]
    rw [List.countP_cons, List.countP_cons, List.countP_cons]
    cases hip : p.ip == ip <;> cases hadm : p.isAdmitted <;> cases hfail : p.isFailed <;>
      simp_all [LoginRequest.admittedIn, LoginRequest.failedIn] <;> split <;> omega

theorem admittedIn_of_stage {ip : Str} {start : Rat} (h : q.stage ≠ .admitted) :
    q.admittedIn ip start = false := by
  simp [LoginRequest.admittedIn, LoginRequest.isAdmitted, h]

theorem failedIn_of_stage {ip : Str} {start : Rat} (h : q.isFailed = false) :
    q.failedIn ip start = false := by
  simp [LoginRequest.failedIn, h]

/-- A request that is neither waiting for its comparison nor for its record,
before and after, keeps the invariant. -/
theorem bounded_aside (hs : Bounded s) (hq : s.requests[r]? = some q)
    (hstage : q.stage = .arrived) {response : LoginResponse} :
    Bounded (s.move r q (.refused response)) := by
  have hadm : ∀ ip start, (s.move r q (.refused response)).requests.countP
      (LoginRequest.admittedIn ip start) =
        s.requests.countP (LoginRequest.admittedIn ip start) := by
    intro ip start
    have hcount := count_move (.refused response) (LoginRequest.admittedIn ip start) hq
    rw [admittedIn_of_stage (by simp [hstage]), admittedIn_of_stage (by simp)] at hcount
    simpa using hcount
  have hfail : ∀ ip start, (s.move r q (.refused response)).requests.countP
      (LoginRequest.failedIn ip start) = s.requests.countP (LoginRequest.failedIn ip start) := by
    intro ip start
    have hcount := count_move (.refused response) (LoginRequest.failedIn ip start) hq
    rw [failedIn_of_stage (by simp [LoginRequest.isFailed, hstage]),
      failedIn_of_stage (by simp [LoginRequest.isFailed])] at hcount
    simpa using hcount
  constructor
  · intro ip start
    rw [hadm]
    exact hs.limited ip start
  · intro ip
    obtain ⟨recorded, hwrong, hlive⟩ := hs.counted ip
    refine ⟨recorded, ?_, ?_⟩
    · intro start
      rw [hfail]
      exact hwrong start
    · intro now hpassed
      apply hlive now
      apply passed_of_move hq _ hpassed
      simp [LoginRequest.hasPassed, hstage]

/-- A request that is admitted finds room. -/
theorem bounded_admitted (hs : Bounded s) (hq : s.requests[r]? = some q)
    (hstage : q.stage = .arrived) (htime : ∀ p ∈ s.requests, p.hasPassed → p.now ≤ q.now)
    (hroom : liveCount (s.attempts q.ip) q.now + s.underway q.ip < maxLoginAttempts) :
    Bounded (s.move r q .admitted) := by
  have hfail : ∀ ip start, (s.move r q .admitted).requests.countP
      (LoginRequest.failedIn ip start) = s.requests.countP (LoginRequest.failedIn ip start) := by
    intro ip start
    have hcount := count_move .admitted (LoginRequest.failedIn ip start) hq
    rw [failedIn_of_stage (by simp [LoginRequest.isFailed, hstage]),
      failedIn_of_stage (by simp [LoginRequest.isFailed])] at hcount
    simpa using hcount
  constructor
  · intro ip start
    have hcount := count_move .admitted (LoginRequest.admittedIn ip start) hq
    rw [admittedIn_of_stage (by simp [hstage])] at hcount
    cases hin : LoginRequest.admittedIn ip start { q with stage := .admitted } with
    | false =>
      rw [hin] at hcount
      have hold := hs.limited ip start
      simp only [Bool.false_eq_true, if_false, Nat.add_zero] at hcount
      rw [hcount]
      exact hold
    | true =>
      rw [hin] at hcount
      simp only [LoginRequest.admittedIn, Bool.and_eq_true, beq_iff_eq] at hin
      obtain ⟨⟨rfl, -⟩, hwindow⟩ := hin
      obtain ⟨recorded, hwrong, hlive⟩ := hs.counted q.ip
      -- All of the window is recent when the last request of it passes.
      have hrecent : recorded.countP (inWindow start) ≤ recorded.countP (isRecent q.now) :=
        List.countP_mono_left (fun t _ ht => isRecent_of_window ht hwindow)
      have hcounter := hlive q.now htime
      have hunderway := window_le_underway s q.ip start
      have hcompared := hwrong start
      simp only [Bool.false_eq_true, if_false, if_true, Nat.add_zero] at hcount
      rw [hcount]
      show (s.wrong q.ip).countP _ + _ ≤ _
      omega
  · intro ip
    obtain ⟨recorded, hwrong, hlive⟩ := hs.counted ip
    refine ⟨recorded, ?_, ?_⟩
    · intro start
      rw [hfail]
      exact hwrong start
    · intro now hpassed
      apply hlive now
      apply passed_of_move hq _ hpassed
      simp [LoginRequest.hasPassed, hstage]

/-- A wrong password is one that fails. -/
theorem compare_wrong {body : LoginBody} (h : wrongPassword admin body = true) :
    ∃ username, compareCredentials admin body = .failed username := by
  cases body with
  | unreadable => cases h
  | fields username password =>
    have hne : password.getD [] ≠ admin.password := by simpa [wrongPassword] using h
    exact ⟨_, if_neg (fun hboth => hne hboth.2)⟩

theorem compare_ne_admitted {body : LoginBody} : compareCredentials admin body ≠ .admitted := by
  cases body with
  | unreadable => simp [compareCredentials]
  | fields username password =>
    simp only [compareCredentials]
    split <;> simp

theorem compare_passed {body : LoginBody} :
    LoginRequest.hasPassed { q with stage := compareCredentials admin body } = true := by
  cases body with
  | unreadable => rfl
  | fields username password =>
    simp only [compareCredentials]
    split <;> rfl

/-- A comparison moves its request from those that wait for it to those whose
failure waits to be recorded. -/
theorem bounded_compared (hs : Bounded s) (hq : s.requests[r]? = some q)
    (hstage : q.stage = .admitted) :
    Bounded { s.move r q (compareCredentials admin q.body) with
      wrong := Function.update s.wrong q.ip
        (if wrongPassword admin q.body then q.now :: s.wrong q.ip else s.wrong q.ip) } := by
  have hwrong' : ∀ ip start, (Function.update s.wrong q.ip
      (if wrongPassword admin q.body then q.now :: s.wrong q.ip else s.wrong q.ip) ip).countP
        (inWindow start) = (s.wrong ip).countP (inWindow start) +
          (if q.ip == ip && wrongPassword admin q.body && inWindow start q.now then 1 else 0) := by
    intro ip start
    by_cases hip : ip = q.ip
    · subst hip
      rw [Function.update_self]
      cases wrongPassword admin q.body <;> simp [List.countP_cons]
    · rw [Function.update_of_ne hip]
      simp [Ne.symm hip]
  constructor
  · intro ip start
    have hcount := count_move (compareCredentials admin q.body)
      (LoginRequest.admittedIn ip start) hq
    have hold := hs.limited ip start
    rw [admittedIn_of_stage (q := { q with stage := compareCredentials admin q.body })
      compare_ne_admitted] at hcount
    simp only [hwrong']
    simp only [LoginRequest.admittedIn, LoginRequest.isAdmitted, hstage, beq_self_eq_true,
      Bool.and_true] at hcount
    cases hip : q.ip == ip <;> cases hw : wrongPassword admin q.body <;>
      cases hwin : inWindow start q.now <;> simp [hip, hwin] at hcount ⊢ <;> omega
  · intro ip
    obtain ⟨recorded, hwrong, hlive⟩ := hs.counted ip
    refine ⟨recorded, ?_, ?_⟩
    · intro start
      have hcount := count_move (compareCredentials admin q.body)
        (LoginRequest.failedIn ip start) hq
      rw [failedIn_of_stage (by simp [LoginRequest.isFailed, hstage])] at hcount
      have hold := hwrong start
      simp only [hwrong']
      cases hw : wrongPassword admin q.body with
      | false => simp at hcount ⊢; omega
      | true =>
        obtain ⟨username, hfailed⟩ := compare_wrong hw
        simp only [LoginRequest.failedIn, LoginRequest.isFailed, hfailed, Bool.and_true] at hcount ⊢
        simp at hcount ⊢
        omega
    · intro now hpassed
      apply hlive now
      exact passed_of_move hq (fun _ => compare_passed) hpassed

/-- A request that ends waits for nothing. -/
theorem answered_counts (response : LoginResponse) (ip : Str) (start : Rat)
    (hq : s.requests[r]? = some q) :
    (s.move r q (.answered response)).requests.countP (LoginRequest.admittedIn ip start) ≤
        s.requests.countP (LoginRequest.admittedIn ip start) ∧
      (s.move r q (.answered response)).requests.countP (LoginRequest.failedIn ip start) +
          (if q.failedIn ip start then 1 else 0) =
        s.requests.countP (LoginRequest.failedIn ip start) := by
  have hadm := count_move (.answered response) (LoginRequest.admittedIn ip start) hq
  have hfail := count_move (.answered response) (LoginRequest.failedIn ip start) hq
  rw [admittedIn_of_stage (q := { q with stage := .answered response }) (by simp)] at hadm
  rw [failedIn_of_stage (q := { q with stage := .answered response }) rfl] at hfail
  simp only [Bool.false_eq_true, if_false, Nat.add_zero] at hadm hfail
  exact ⟨by omega, hfail⟩

/-- A successful login starts anew. -/
theorem bounded_reset (hs : Bounded s) (hq : s.requests[r]? = some q) {username : Str}
    (hstage : q.stage = .matched username) {response : LoginResponse} {audit : List AuditCall} :
    Bounded { s.move r q (.answered response) with
      attempts := loginReset s.attempts q.ip
      wrong := Function.update s.wrong q.ip []
      audit := audit } := by
  have hnot : ∀ ip start, q.failedIn ip start = false := by
    intro ip start
    exact failedIn_of_stage (by simp [LoginRequest.isFailed, hstage])
  constructor
  · intro ip start
    have hadm := (answered_counts response ip start hq).1
    have hold := hs.limited ip start
    have hfewer : (Function.update s.wrong q.ip [] ip).countP (inWindow start) ≤
        (s.wrong ip).countP (inWindow start) := by
      by_cases hip : ip = q.ip
      · subst hip
        rw [Function.update_self]
        exact Nat.zero_le _
      · rw [Function.update_of_ne hip]
    exact le_trans (Nat.add_le_add hfewer hadm) hold
  · intro ip
    by_cases hip : ip = q.ip
    · subst hip
      refine ⟨[], ?_, fun _ _ => Nat.zero_le _⟩
      intro start
      simp only [Function.update_self]
      exact Nat.zero_le _
    · obtain ⟨recorded, hwrong, hlive⟩ := hs.counted ip
      refine ⟨recorded, ?_, ?_⟩
      · intro start
        have hfail := (answered_counts response ip start hq).2
        have hold := hwrong start
        rw [hnot] at hfail
        simp only [Bool.false_eq_true, if_false, Nat.add_zero] at hfail
        simp only [Function.update_of_ne hip]
        omega
      · intro now hpassed
        simp only [loginReset, Function.update_of_ne hip]
        apply hlive now
        exact passed_of_move hq (fun _ => rfl) hpassed

/-- A failure that is recorded is one that the counter stands for. -/
theorem bounded_recorded (hs : Bounded s) (hq : s.requests[r]? = some q) {username : Str}
    (hstage : q.stage = .failed username) (hlast : ∀ info ∈ s.attempts q.ip, info.last ≤ q.now)
    {response : LoginResponse} {audit : List AuditCall} :
    Bounded { s.move r q (.answered response) with
      attempts := (loginRecordFailure s.attempts q.ip q.now).1
      audit := audit } := by
  constructor
  · intro ip start
    have hadm := (answered_counts response ip start hq).1
    exact le_trans (Nat.add_le_add_left hadm _) (hs.limited ip start)
  · intro ip
    obtain ⟨recorded, hwrong, hlive⟩ := hs.counted ip
    have hpass : q.hasPassed = true := by rw [LoginRequest.hasPassed, hstage]
    by_cases hip : ip = q.ip
    · subst hip
      refine ⟨q.now :: recorded, ?_, ?_⟩
      · intro start
        have hfail := (answered_counts response q.ip start hq).2
        have hold := hwrong start
        rw [LoginRequest.failedIn, LoginRequest.isFailed, hstage, beq_self_eq_true,
          Bool.true_and, Bool.true_and] at hfail
        rw [List.countP_cons]
        dsimp only [LoginState.move] at hfail ⊢
        omega
      · intro now hpassed
        have hbefore := passed_of_move hq (fun _ => rfl) hpassed
        have hrecord := liveCount_record hlast (hbefore q (List.mem_of_getElem? hq) hpass)
        have hold := hlive now hbefore
        rw [List.countP_cons]
        show _ ≤ liveCount ((loginRecordFailure s.attempts q.ip q.now).1 q.ip) now
        omega
    · refine ⟨recorded, ?_, ?_⟩
      · intro start
        have hfail := (answered_counts response ip start hq).2
        have hold := hwrong start
        rw [LoginRequest.failedIn, beq_false_of_ne (Ne.symm hip)] at hfail
        simp only [Bool.false_and, Bool.false_eq_true, if_false, Nat.add_zero] at hfail
        dsimp only [LoginState.move] at hfail ⊢
        omega
      · intro now hpassed
        have hbefore := passed_of_move hq (fun _ => rfl) hpassed
        have htime := hbefore q (List.mem_of_getElem? hq) hpass
        have hother : (loginRecordFailure s.attempts q.ip q.now).1 ip =
            dropExpired s.attempts q.now ip := Function.update_of_ne hip _ _
        show _ ≤ liveCount ((loginRecordFailure s.attempts q.ip q.now).1 ip) now
        rw [hother, expired_drop htime]
        exact hlive now hbefore

/-- A new request waits at the gate. -/
theorem bounded_arrived (hs : Bounded s) {p : LoginRequest} (hp : p.stage = .arrived) :
    Bounded { s with requests := s.requests ++ [p] } := by
  constructor
  · intro ip start
    have hold := hs.limited ip start
    simpa [List.countP_append, admittedIn_of_stage (q := p), hp] using hold
  · intro ip
    obtain ⟨recorded, hwrong, hlive⟩ := hs.counted ip
    refine ⟨recorded, ?_, ?_⟩
    · intro start
      have hold := hwrong start
      have hfail : p.failedIn ip start = false :=
        failedIn_of_stage (by simp [LoginRequest.isFailed, hp])
      simpa [List.countP_append, hfail] using hold
    · intro now hpassed
      exact hlive now (fun q hq => hpassed q (List.mem_append_left _ hq))

theorem bounded_step {s' : LoginState} {e : LoginEvent} (hs : Bounded s) (he : Accounted s e)
    (h : loginStep admin s e = some s') : Bounded s' := by
  cases loginStep_cases h with
  | arrived remoteAddr body now => exact bounded_arrived hs rfl
  | refused r q remaining hq hstage => exact bounded_aside hs hq hstage
  | admitted r q hq hstage hgate =>
    obtain ⟨htime, hroom⟩ := he q hq hgate
    exact bounded_admitted hs hq hstage htime hroom
  | compared r q hq hstage => exact bounded_compared hs hq hstage
  | reset r q token username hq hstage => exact bounded_reset hs hq hstage
  | recorded r q token username hq hstage =>
    have hfailed : q.isFailed = true := by rw [LoginRequest.isFailed, hstage]
    exact bounded_recorded hs hq hstage (he q hq hfailed)

end

theorem bounded_init : Bounded .init := by
  constructor
  · intro ip start
    exact Nat.zero_le _
  · intro ip
    exact ⟨[], fun _ => Nat.zero_le _, fun _ _ => Nat.zero_le _⟩

/-- The limit holds in every run where each request that passes the gate, and
each failure that is recorded, is accounted for. -/
theorem login_bounded (admin : Admin) (events : List LoginEvent) (s : LoginState)
    (heach : Each (loginStep admin) Accounted .init events)
    (hrun : run (loginStep admin) .init events = some s) : AttemptsLimited s := by
  have hbounded : Bounded s :=
    run_preserves (fun _ _ _ hs he h => bounded_step hs he h) bounded_init heach hrun
  intro ip start
  have hlimit := hbounded.limited ip start
  omega

/-- A wrong password. -/
def guess : LoginEvent :=
  .arrive (some "203.0.113.9") (.fields (some "admin") (some "letmein")) 100

/-- One wrong password, from its arrival to the record. -/
def oneGuess : List LoginEvent := [guess, .gate 0, .compare 0, .finish 0 []]

theorem login_bounded_one : ∃ s,
    run (loginStep ⟨"admin", "hunter2hunter2"⟩) .init oneGuess = some s ∧ AttemptsLimited s := by
  refine ⟨_, rfl, login_bounded ⟨"admin", "hunter2hunter2"⟩ oneGuess _ ?_ rfl⟩
  refine ⟨trivial, ?_⟩
  intro s hs
  cases hs
  refine ⟨?_, ?_⟩
  · intro q hq hgate
    cases hq
    exact ⟨by simp [LoginState.init, LoginRequest.hasPassed], by decide⟩
  · intro s hs
    cases hs
    refine ⟨trivial, ?_⟩
    intro s hs
    cases hs
    refine ⟨?_, fun _ _ => trivial⟩
    intro q _ _ info hinfo
    cases hinfo

/-- Six requests that pass the gate before the first of them is compared. -/
def burst : List LoginEvent :=
  List.replicate 6 guess ++ (List.range 6).map .gate ++ (List.range 6).map .compare

/-- Six wrong passwords are compared within one window. -/
theorem burst_unlimited : ∃ s,
    run (loginStep ⟨"admin", "hunter2hunter2"⟩) .init burst = some s ∧ ¬ AttemptsLimited s := by
  refine ⟨_, rfl, ?_⟩
  intro h
  have hsix := h "203.0.113.9" 0
  revert hsix
  decide +kernel

end PveZfsTool.Web
