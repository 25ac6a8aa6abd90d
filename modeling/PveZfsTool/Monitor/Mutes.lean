import PveZfsTool.Monitor.Capacity
import PveZfsTool.Monitor.Cleanup
import PveZfsTool.Monitor.Errors
import PveZfsTool.Monitor.PoolHealth
import PveZfsTool.Monitor.Reachability
import PveZfsTool.Monitor.StaleLabels
import PveZfsTool.Monitor.Topology
import PveZfsTool.Replication.ConfigFile
import PveZfsTool.Replication.Health
import PveZfsTool.Ssh.Registry

/-!
# Muted hosts

`send_notification` drops a message about a muted host.  It looks the host up in
the registry by a text, which is the name of the host at some call sites and its
address at the others, and each entry is compared by both.

Two hosts may have one name, and a name may be the address of another host.
`mute_respected_iff` says when the lookup does what the mute of the host asks
for, and `respected_of_distinct` gives the registries in which it always does.
-/

namespace PveZfsTool

open Text Ssh

/-! ## The lookup -/

/-- `host_is_muted` -/
def hostIsMuted (now : Rat) (h : HostRecord) : Bool :=
  h.muted.getD false && h.mutedUntil.all (fun limit => now < limit)

/-- `ref in (h.get("name"), h.get("address"))` -/
def carries (ref : Str) (h : HostRecord) : Bool := strip ref = h.name || strip ref = h.address

/-- `_muted_host` -/
def mutedHost (hosts : HostsFile) (now : Rat) (ref : Str) : Option HostRecord :=
  if ref = [] then none else hosts.find? (fun h => carries ref h && hostIsMuted now h)

/-- What becomes of a message. -/
inductive SendResult where
  | disabled
  /-- Dropped, with the label of the entry that the lookup found. -/
  | muted (label : Str)
  | sent
  deriving DecidableEq

/-- The part of the entry that the monitor reads. -/
def monitored (h : HostRecord) : MonitoredHost := ⟨h.address, h.name, h.standby.getD false⟩

/-- `send_notification`, up to the channels.  `events` are the events that are
switched on. -/
def sendNotification (events : Str → Bool) (hosts : HostsFile) (now : Rat) (n : Notification) :
    SendResult :=
  if events n.eventType then
    match n.host.bind (mutedHost hosts now) with
    | some h => .muted (monitored h).label
    | none => .sent
  else .disabled

/-! ## The messages about a host -/

/-- The message of `_monitor_scrub`, with the line of the status. -/
def scrubNotice (host : MonitoredHost) (pool info : Str) (cancelled : Bool) : Notification where
  eventType := "scrub_finished"
  title := if cancelled then "Scrub Cancelled" else "Scrub Finished"
  message := "Pool: " ++ pool ++ "\nHost: " ++ host.name ++ " (" ++ host.address ++ ")\n" ++ info
  priority := 5
  host := some host.address

/-- The message of `_monitor_trim`. -/
def trimNotice (host : MonitoredHost) (pool : Str) : Notification where
  eventType := "trim_finished"
  title := "Trim Finished"
  message := "Pool: " ++ pool ++ "\nHost: " ++ host.name ++ " (" ++ host.address ++ ")"
  priority := 5
  host := some host.address

/-- `_notify_failure` of `hostbackup.py` -/
def backupFailed (host : MonitoredHost) (error : Str) : Notification where
  eventType := "host_backup_failed"
  title := "Host-Backup fehlgeschlagen: " ++ host.label
  message := "Host: " ++ host.address ++ "\nFehler: " ++ error.take 500 ++
    "\n\nWeitere Versuche laufen alle 30 Minuten ohne weitere Meldung; die nächste Mail " ++
    "kommt, wenn ein Backup wieder gelingt. Ist der Host absichtlich aus, unter Hosts als " ++
    "„Erwartet offline“ markieren."
  priority := 7
  host := some host.address

/-- `_notify_recovered` of `hostbackup.py`, with the time in the local zone. -/
def backupRecovered (host : MonitoredHost) (since : Str) : Notification where
  eventType := "host_backup_failed"
  title := "Host-Backup wieder erfolgreich: " ++ host.label
  message := "Host: " ++ host.address ++ "\nFehlgeschlagen seit: " ++ since
  priority := 3
  host := some host.address

/-- The messages of the monitors, of the host backup and of the replication
monitor.  A sample is about the host that the message is about. -/
inductive HostAlert where
  | offline
  | backOnline
  | turnedBad (s : HealthSample) (prev : Str)
  | recovered (s : HealthSample) (prev : Str)
  | removed (pool value : Str)
  | noRedundancy (s : TopologySample)
  | capacity (s : Sample) (level : Level)
  | ioErrors (s : ErrorSample)
  | stale (label : Str) (datasets : List Str)
  | scrubFinished (pool info : Str) (cancelled : Bool)
  | trimFinished (pool : Str)
  | backupFailed (error : Str)
  | backupRecovered (since : Str)
  | replication (s : PairSnapshot) (title : Str)

namespace HostAlert

/-- The message, for the host with the entry `A`. -/
def notice (localTime : Int → Str) (A : HostRecord) : HostAlert → Notification
  | .offline => hostOffline (monitored A)
  | .backOnline => hostBackOnline (monitored A)
  | .turnedBad s prev => poolTurnedBad { s with host := monitored A } prev
  | .recovered s prev => poolRecovered { s with host := monitored A } prev
  | .removed pool value => removedNotice (monitored A) pool value
  | .noRedundancy s => PveZfsTool.noRedundancy { s with host := monitored A }
  | .capacity s level => capacityNotice { s with host := monitored A } level
  | .ioErrors s => PveZfsTool.ioErrors { s with host := monitored A }
  | .stale label datasets => staleNotice (monitored A) label datasets
  | .scrubFinished pool info cancelled => scrubNotice (monitored A) pool info cancelled
  | .trimFinished pool => trimNotice (monitored A) pool
  | .backupFailed error => PveZfsTool.backupFailed (monitored A) error
  | .backupRecovered since => PveZfsTool.backupRecovered (monitored A) since
  | .replication s title =>
      pairNotice localTime { s with hostAddress := A.address, hostName := A.name } title

/-- The text that the call site passes for the host. -/
def ref (A : HostRecord) : HostAlert → Str
  | .offline | .backOnline | .turnedBad _ _ | .recovered _ _ => (monitored A).label
  | _ => A.address

theorem notice_host {localTime : Int → Str} {A : HostRecord} (alert : HostAlert) :
    (alert.notice localTime A).host = some (alert.ref A) := by
  cases alert <;> rfl

/-- The source of the pair that the alert is about is an entry that is muted. -/
def sourceMuted (hosts : HostsFile) (now : Rat) : HostAlert → Bool
  | .replication s _ =>
      hosts.any (fun h => hostIsMuted now h && h.address = Replication.extractIp s.source)
  | _ => false

/-- The message is sent.  The replication monitor looks at the source first. -/
def IsSent (localTime : Int → Str) (events : Str → Bool) (hosts : HostsFile) (now : Rat)
    (A : HostRecord) (alert : HostAlert) : Prop :=
  alert.sourceMuted hosts now = false ∧
    sendNotification events hosts now (alert.notice localTime A) = .sent

/-- The mute of the host, or of the source of its pair, silences the alert. -/
def Silenced (hosts : HostsFile) (now : Rat) (A : HostRecord) (alert : HostAlert) : Prop :=
  hostIsMuted now A = true ∨ alert.sourceMuted hosts now = true

end HostAlert

/-- The lookup of `ref` stands for `A`: while `A` is muted it finds an entry,
and otherwise no muted entry has `ref` as its name or its address. -/
structure StandsFor (hosts : HostsFile) (now : Rat) (ref : Str) (A : HostRecord) : Prop where
  found : hostIsMuted now A = true →
    ref ≠ [] ∧ ∃ h ∈ hosts, carries ref h = true ∧ hostIsMuted now h = true
  alone : hostIsMuted now A = false → ref ≠ [] →
    ∀ h ∈ hosts, carries ref h = true → hostIsMuted now h = false

/-! ## The mutes are respected -/

section

variable {hosts : HostsFile} {now : Rat} {ref : Str} {A : HostRecord}

theorem mutedHost_eq_none :
    mutedHost hosts now ref = none ↔
      (ref ≠ [] → ∀ h ∈ hosts, carries ref h = true → hostIsMuted now h = false) := by
  unfold mutedHost
  by_cases hempty : ref = []
  · simp [hempty]
  · simp [hempty, List.find?_eq_none]

/-- A lookup that stands for the host finds an entry exactly while the host is
muted. -/
theorem standsFor_iff :
    StandsFor hosts now ref A ↔ (mutedHost hosts now ref = none ↔ hostIsMuted now A = false) := by
  rw [mutedHost_eq_none]
  cases hmuted : hostIsMuted now A with
  | false =>
    constructor
    · intro h
      exact iff_of_true (h.alone hmuted) rfl
    · intro h
      exact ⟨fun hmuted' => absurd (hmuted.symm.trans hmuted') (by simp), fun _ => h.mpr rfl⟩
  | true =>
    simp only [Bool.true_eq_false, iff_false]
    constructor
    · intro h hnone
      obtain ⟨hne, e, he, hcarries, hmuted'⟩ := h.found hmuted
      rw [hnone hne e he hcarries] at hmuted'
      cases hmuted'
    · intro h
      refine ⟨fun _ => ?_, fun hmuted' => absurd (hmuted.symm.trans hmuted') (by simp)⟩
      push Not at h
      obtain ⟨hne, e, he, hcarries, hmuted'⟩ := h
      exact ⟨hne, e, he, hcarries, by simpa using hmuted'⟩

theorem sendNotification_sent {events : Str → Bool} {n : Notification} (hhost : n.host = some ref) :
    sendNotification events hosts now n = .sent ↔
      events n.eventType = true ∧ mutedHost hosts now ref = none := by
  rw [sendNotification, hhost]
  show (if events n.eventType = true then (match mutedHost hosts now ref with
    | some h => SendResult.muted (monitored h).label
    | none => .sent) else .disabled) = .sent ↔ _
  split
  · rename_i hon
    rw [and_iff_right hon]
    cases mutedHost hosts now ref <;> simp
  · rename_i hoff
    simp [hoff]

/-- An alert about `A` is sent exactly when its event is on and no mute silences
it, if and only if the event is off, the source of the pair is muted, or the
lookup of what the call site passes stands for `A`. -/
theorem mute_respected_iff (localTime : Int → Str) (events : Str → Bool) (hosts : HostsFile)
    (now : Rat) (A : HostRecord) (alert : HostAlert) :
    (alert.IsSent localTime events hosts now A ↔
        events (alert.notice localTime A).eventType = true ∧ ¬ alert.Silenced hosts now A) ↔
      events (alert.notice localTime A).eventType = false ∨
        alert.sourceMuted hosts now = true ∨ StandsFor hosts now (alert.ref A) A := by
  rw [HostAlert.IsSent, HostAlert.Silenced, sendNotification_sent alert.notice_host, standsFor_iff]
  cases events (alert.notice localTime A).eventType with
  | false => simp
  | true =>
    cases alert.sourceMuted hosts now with
    | true => simp
    | false => simp

/-- No reference of an entry is carried by another entry, and each one is
found. -/
def DistinctRefs (hosts : HostsFile) : Prop :=
  ∀ A ∈ hosts, ∀ ref, ref = A.address ∨ ref = (monitored A).label →
    ref ≠ [] ∧ carries ref A = true ∧ ∀ h ∈ hosts, carries ref h = true → h = A

/-- In such a registry every alert about an entry respects the mutes, at any
time. -/
theorem respected_of_distinct {localTime : Int → Str} {events : Str → Bool} {alert : HostAlert}
    (hdistinct : DistinctRefs hosts) (hA : A ∈ hosts) :
    alert.IsSent localTime events hosts now A ↔
      events (alert.notice localTime A).eventType = true ∧ ¬ alert.Silenced hosts now A := by
  apply (mute_respected_iff localTime events hosts now A alert).mpr
  have href : alert.ref A = A.address ∨ alert.ref A = (monitored A).label := by
    cases alert <;> simp [HostAlert.ref]
  obtain ⟨hne, hown, honly⟩ := hdistinct A hA _ href
  refine .inr (.inr ⟨fun hmuted => ⟨hne, A, hA, hown, hmuted⟩, fun hmuted _ h hh hcarries => ?_⟩)
  rw [honly h hh hcarries]
  exact hmuted

end

/-- Two hosts of one name, the second one muted. -/
def sameName : HostsFile :=
  [{ name := "pve", address := "10.0.0.1", port := 22, user := "root" },
    { name := "pve", address := "10.0.0.2", port := 22, user := "root", muted := some true }]

/-- Nobody is told that the first one is offline. -/
theorem mute_silences_other : ¬ ∀ A ∈ sameName,
    (HostAlert.offline.IsSent (fun _ => []) (fun _ => true) sameName 0 A ↔
      ¬ HostAlert.offline.Silenced sameName 0 A) := by
  intro h
  have hfirst := h _ List.mem_cons_self
  have hawake : ¬ HostAlert.offline.Silenced sameName 0
      { name := "pve", address := "10.0.0.1", port := 22, user := "root" } := by
    rintro (hmuted | hsource)
    · cases hmuted
    · cases hsource
  have hdropped : mutedHost sameName 0 "pve" = none :=
    ((sendNotification_sent rfl).mp (hfirst.mpr hawake).2).2
  exact absurd hdropped (by decide)

end PveZfsTool
