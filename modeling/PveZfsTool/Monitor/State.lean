import PveZfsTool.Lib.Text

/-!
# The store of the monitor

`app/monitor.py` and `app/replication_monitor.py` remember one row for each
thing they watch, in the table `monitor_state`.  A row holds the last value
and the time of the last alert.  `Row` is generic in the value, which each
check reads as its own kind of text.
-/

namespace PveZfsTool

open Text

/-- A row of `monitor_state`. -/
structure Row (α : Type) where
  value : α
  lastAlertTs : Option Nat
  deriving DecidableEq

/-- A timestamp counts as set when it is there and not zero. -/
def isAlerted (ts : Option Nat) : Bool := ts.getD 0 != 0

@[simp] theorem isAlerted_none : isAlerted none = false := rfl

@[simp] theorem isAlerted_some {n : Nat} : isAlerted (some n) = true ↔ n ≠ 0 := by
  simp [isAlerted]

variable {α : Type}

/-- `_state_set`: without a new timestamp the stored one stays. -/
def stateSet (row : Option (Row α)) (value : α) (lastAlertTs : Option Nat) : Row α :=
  ⟨value, lastAlertTs.or (row.bind Row.lastAlertTs)⟩

@[simp] theorem stateSet_value {row : Option (Row α)} {value : α} {ts : Option Nat} :
    (stateSet row value ts).value = value := rfl

@[simp] theorem stateSet_some_ts {row : Option (Row α)} {value : α} {now : Nat} :
    (stateSet row value (some now)).lastAlertTs = some now := rfl

@[simp] theorem stateSet_kept_ts {row : Option (Row α)} {value : α} :
    (stateSet row value none).lastAlertTs = row.bind Row.lastAlertTs := rfl

/-- `_cooldown_ok`.  A clock that went back leaves the difference at zero,
which is below every cooldown as the negative difference is. -/
def cooldownOk (lastAlertTs : Option Nat) (now cooldown : Nat) : Bool :=
  !isAlerted lastAlertTs || cooldown ≤ now - lastAlertTs.getD 0

/-- What `send_notification` is called with. -/
structure Notification where
  eventType : Str
  title : Str
  message : Str
  priority : Nat
  state : Str := "new"
  key : Option Str := none
  host : Option Str
  deriving DecidableEq

/-- The part of a host entry that the monitor reads.  `name` is empty where
the entry has none. -/
structure MonitoredHost where
  address : Str
  name : Str
  standby : Bool
  deriving DecidableEq

/-- `host.get("name") or host["address"]` -/
def MonitoredHost.label (h : MonitoredHost) : Str := if h.name = [] then h.address else h.name

end PveZfsTool
