import Mathlib.Logic.Function.Basic
import PveZfsTool.Lib.Text

/-!
# The address in the audit log

`app/audit.py` writes one row for each action, with the address of the client
that asked for it.  An endpoint of `app/main.py` may hand the address over.
Where it does not, `log_action` looks for one itself, and it looks into
`X-Forwarded-For` first, whether or not `TRUST_PROXY` is set.

`audit_address_iff` says for which endpoints the headers have no influence on
the recorded address: those that hand it over in every call.
-/

namespace PveZfsTool

open Text

/-! ## Requests -/

/-- The headers of a request, under the names that werkzeug looks them up
by. -/
abbrev Headers := Str → Option Str

/-- A request as the application sees it. -/
structure WebRequest where
  remoteAddr : Option Str
  headers : Headers

/-- The fields of the session cookie that the login sets. -/
structure Session where
  authenticated : Bool
  username : Str
  csrfToken : Str
  deriving DecidableEq

/-- `_env_flag`, on the value of the variable. -/
def envFlag (value : Option Str) : Bool :=
  [("1" : Str), "true", "yes"].contains (lower (value.getD []))

/-- The request behind the middleware.  `proxyFix` is `ProxyFix` of werkzeug,
which the application only puts in when `TRUST_PROXY` says so. -/
def appRequest (trustProxy : Option Str) (proxyFix : WebRequest → WebRequest) (r : WebRequest) :
    WebRequest :=
  if envFlag trustProxy then proxyFix r else r

/-- `request.remote_addr or "unknown"` -/
def clientIp (remoteAddr : Option Str) : Str :=
  if remoteAddr.getD [] = [] then "unknown" else remoteAddr.getD []

/-! ## Writing an entry -/

/-- The arguments of `log_action`.  `details` are encoded already. -/
structure AuditCall where
  action : Str
  target : Str := []
  details : Option Str := none
  success : Bool := true
  host : Str := []
  user : Option Str := none
  ip : Option Str := none
  deriving DecidableEq

/-- A row of `audit_log`. -/
structure AuditEntry where
  timestamp : Int
  user : Str
  ip : Str
  host : Str
  action : Str
  target : Str
  details : Str
  success : Nat
  deriving DecidableEq

/-- What a call of `log_action` finds around it.  Outside of a request there
is no `request`. -/
structure AuditContext where
  request : Option WebRequest
  session : Option Session
  now : Int

/-- `_current_user` -/
def currentUser (ctx : AuditContext) : Str :=
  match ctx.request, ctx.session with
  | none, _ => "system"
  | some _, some s =>
      if s.authenticated then (if s.username = [] then "admin" else s.username) else "anonymous"
  | some _, none => "anonymous"

def forwardedFor : Str := "X-Forwarded-For"

/-- `_current_ip` -/
def currentIp (ctx : AuditContext) : Str :=
  match ctx.request with
  | none => []
  | some r =>
      let first := strip (beforeFirst ',' ((r.headers forwardedFor).getD []))
      if first ≠ [] then first else r.remoteAddr.getD []

/-- The row that `log_action` inserts. -/
def logAction (ctx : AuditContext) (c : AuditCall) : AuditEntry where
  timestamp := ctx.now
  user := c.user.getD (currentUser ctx)
  ip := c.ip.getD (currentIp ctx)
  host := c.host
  action := c.action
  target := c.target
  details := c.details.getD []
  success := if c.success then 1 else 0

/-! ## Endpoints -/

/-- What an endpoint of `main.py` logs for a request.  No endpoint reads
`X-Forwarded-For`, and a call hands over the address of the client or none. -/
structure Endpoint where
  calls : Option Session → Option Str → Headers → List AuditCall
  blind : ∀ session remoteAddr headers value,
    calls session remoteAddr (Function.update headers forwardedFor value) =
      calls session remoteAddr headers
  address : ∀ session remoteAddr headers, ∀ c ∈ calls session remoteAddr headers,
    c.ip = none ∨ c.ip = some (clientIp remoteAddr)

/-- The rows that one request causes. -/
def Endpoint.entries (e : Endpoint) (trustProxy : Option Str) (proxyFix : WebRequest → WebRequest)
    (raw : WebRequest) (session : Option Session) (now : Int) : List AuditEntry :=
  let r := appRequest trustProxy proxyFix raw
  (e.calls session r.remoteAddr r.headers).map (logAction ⟨some r, session, now⟩)

/-- All rows that requests from the peer cause record one address.  The
session is read from a header too. -/
def SameAddress (e : Endpoint) (trustProxy : Option Str) (proxyFix : WebRequest → WebRequest)
    (peer : Option Str) : Prop :=
  ∀ headers headers' session session' now now',
    ∀ x ∈ e.entries trustProxy proxyFix ⟨peer, headers⟩ session now,
      ∀ y ∈ e.entries trustProxy proxyFix ⟨peer, headers'⟩ session' now', x.ip = y.ip

/-- Every call hands over the address. -/
def PassesAddress (e : Endpoint) (peer : Option Str) : Prop :=
  ∀ session headers, ∀ c ∈ e.calls session peer headers, c.ip.isSome

theorem entries_unset {e : Endpoint} {proxyFix : WebRequest → WebRequest} {raw : WebRequest}
    {session : Option Session} {now : Int} :
    e.entries none proxyFix raw session now =
      (e.calls session raw.remoteAddr raw.headers).map (logAction ⟨some raw, session, now⟩) := rfl

/-- A call without an address records what the header says. -/
theorem logAction_forwarded {r : WebRequest} {session : Option Session} {now : Int}
    {c : AuditCall} {value : Str} (hc : c.ip = none) (hr : r.headers forwardedFor = some value)
    (hne : strip (beforeFirst ',' value) ≠ []) :
    (logAction ⟨some r, session, now⟩ c).ip = strip (beforeFirst ',' value) := by
  simp only [logAction, hc, Option.getD_none, currentIp, hr, Option.getD_some]
  rw [if_pos hne]

/-- With `TRUST_PROXY` unset, the address that an endpoint records does not
depend on the headers if and only if every call of it hands the address over. -/
theorem audit_address_iff (e : Endpoint) (proxyFix : WebRequest → WebRequest) (peer : Option Str) :
    SameAddress e none proxyFix peer ↔ PassesAddress e peer := by
  constructor
  · intro h session headers c hc
    rcases e.address session peer headers c hc with hnone | hsome
    · -- The same call under two headers records two addresses.
      have hrow : ∀ value : Str, strip (beforeFirst ',' value) ≠ [] →
          ∃ x ∈ e.entries none proxyFix
              ⟨peer, Function.update headers forwardedFor (some value)⟩ session 0,
            x.ip = strip (beforeFirst ',' value) := by
        intro value hne
        have hcall : c ∈ e.calls session peer
            (Function.update headers forwardedFor (some value)) := by
          rw [e.blind]
          exact hc
        rw [entries_unset]
        exact ⟨_, List.mem_map_of_mem hcall,
          logAction_forwarded hnone (Function.update_self forwardedFor _ headers) hne⟩
      obtain ⟨x, hx, hxip⟩ := hrow "a" (by decide)
      obtain ⟨y, hy, hyip⟩ := hrow "b" (by decide)
      have hsame := h _ _ _ _ _ _ x hx y hy
      rw [hxip, hyip] at hsame
      exact absurd hsame (by decide)
    · rw [hsome]
      rfl
  · intro h headers headers' session session' now now' x hx y hy
    have hip : ∀ headers session now, ∀ x ∈ e.entries none proxyFix ⟨peer, headers⟩ session now,
        x.ip = clientIp peer := by
      intro headers session now x hx
      rw [entries_unset] at hx
      obtain ⟨c, hc, rfl⟩ := List.mem_map.mp hx
      have hpassed := h session headers c hc
      rcases e.address session peer headers c hc with hnone | hsome
      · rw [hnone] at hpassed
        cases hpassed
      · rw [logAction, hsome]
        rfl
    rw [hip _ _ _ x hx, hip _ _ _ y hy]

/-! ## Logging out -/

def csrfHeader : Str := "X-CSRF-Token"

/-- `check_auth`, for a `POST` that needs a login. -/
def checkAuth (session : Option Session) (headers : Headers) : Bool :=
  match session with
  | none => false
  | some s =>
      let token := (headers csrfHeader).getD []
      s.authenticated && token != [] && token == s.csrfToken

/-- What `api_logout` logs. -/
def logoutCall (session : Option Session) : AuditCall :=
  let user := (session.map Session.username).getD []
  { action := "logout", target := user, user := some (if user = [] then "anonymous" else user) }

/-- `api_logout`, behind `check_auth`. -/
def logoutEndpoint : Endpoint where
  calls session _ headers := if checkAuth session headers then [logoutCall session] else []
  blind := by
    intro session remoteAddr headers value
    have hcsrf : Function.update headers forwardedFor value csrfHeader = headers csrfHeader :=
      Function.update_of_ne (by decide) _ _
    have hauth : checkAuth session (Function.update headers forwardedFor value) =
        checkAuth session headers := by
      unfold checkAuth
      rw [hcsrf]
    rw [hauth]
  address := by
    intro session remoteAddr headers c hc
    split at hc
    · rw [List.mem_singleton.mp hc]
      exact Or.inl rfl
    · cases hc

/-- A client that names an address in its header. -/
def spoofed (address : Str) : Headers := fun name =>
  if name = forwardedFor then some address else if name = csrfHeader then some "5f1c" else none

/-- Two logouts of one client, which record two addresses. -/
theorem logout_spoofed : ¬ SameAddress logoutEndpoint none id (some "203.0.113.9") := by
  intro h
  have hsame := h (spoofed "10.0.0.1") (spoofed "10.0.0.2") (some ⟨true, "admin", "5f1c"⟩)
    (some ⟨true, "admin", "5f1c"⟩) 0 0 _ List.mem_cons_self _ List.mem_cons_self
  revert hsame
  decide

end PveZfsTool
