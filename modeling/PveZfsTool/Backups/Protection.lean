import PveZfsTool.Backups.States
import PveZfsTool.GuestIntent

/-!
# The protection of each guest

The overview of a host puts three things together: where the disks of its guests
are copied to, how old their backups are, and which gaps are declared on purpose.
`protection_state` judges each guest on them.  The report on the host collects the
same things on its own and asks for a text.

`report_agrees` compares the two: on the same answers of the hosts the report
rates each guest as the overview does, and its verdict and its counts are those of
the overview.
-/

namespace PveZfsTool.Backups

open Text Replication GuestIntent

/-! ## Declared exceptions -/

/-- An exception with the note on it. -/
structure ExceptionRecord extends Flags where
  reason : Str
  by_ : Str
  documented : Bool
  deriving DecidableEq

/-- `collect_exceptions(...)` -/
structure Exceptions where
  exceptions : List (Str × ExceptionRecord)
  readable : Bool
  error : Str

/-- `load_reasons`, with the file. -/
def loadReasons (host : Str) (stored : Dict Str GuestIntent.Reason) : Dict Str GuestIntent.Reason :=
  let pre := host ++ "/"
  (stored.entries.filter (fun e => startsWith e.1 pre)).foldl
    (fun d e => d.set (e.1.drop pre.length) e.2) Dict.empty

/-- The exception of one guest. -/
def exceptionRecord (reasons : Dict Str GuestIntent.Reason) (vmid : Str) (flags : Flags) : ExceptionRecord :=
  let reason := ((reasons.get? vmid).map GuestIntent.Reason.reason).getD []
  { flags with
    reason := reason
    by_ := ((reasons.get? vmid).map GuestIntent.Reason.by_).getD []
    documented := reason ≠ [] }

/-- `collect_exceptions`, with the answer of the host and the notes on it. -/
def collectExceptions (L : Lowering) (answer : Answer) (reasons : Dict Str GuestIntent.Reason) : Exceptions :=
  if answer.success then
    { exceptions := (exceptionsFromTags L (parseTagLines answer.stdout)).map
        (fun e => (e.1, exceptionRecord reasons e.1 e.2))
      readable := true
      error := [] }
  else
    { exceptions := []
      readable := false
      error := ((splitLines (strip answer.stderr)).head?.getD "could not read guest configs").take 300 }

/-! ## One guest -/

/-- An entry of the matrix with the backups and the exception of its guest. -/
structure MatrixGuest extends MatrixEntry where
  backup : Option BackupState
  exception : Option ExceptionRecord
  deriving DecidableEq

/-- An entry of which only the copies are known. -/
def bareGuest (e : MatrixEntry) : MatrixGuest := { e with backup := none, exception := none }

inductive Protection where
  | ok
  | accepted
  | warn
  | crit
  deriving DecidableEq

/-- The backups of the guest were read. -/
def MatrixGuest.examined (g : MatrixGuest) : Bool := g.backup.any (fun st => st.state ≠ .unknown)

def MatrixGuest.backupBad (g : MatrixGuest) : Bool := g.backup.any (fun st => st.state = .red)

def MatrixGuest.hasBackup (g : MatrixGuest) : Bool := g.examined && !g.backupBad

/-- `protection_state` -/
def protectionState (g : MatrixGuest) : Protection :=
  let okWithoutBackup := g.exception.any (·.noBackup)
  let okWithoutCopy := g.exception.any (·.noReplication)
  if g.configMismatch ≠ [] then .warn
  else if g.copyCount = 0 ∧ g.hasBackup = false then
    if okWithoutBackup && okWithoutCopy then .accepted
    else if !g.examined && okWithoutCopy then .accepted
    else .crit
  else if g.copyCount = 0 then .ok
  else if g.examined && g.backupBad then if okWithoutBackup then .accepted else .warn
  else .ok

/-- The loop of `overall_verdict`, with `worst`. -/
def overallFrom (worst : Protection) : List MatrixGuest → Protection
  | [] => worst
  | g :: guests =>
      match protectionState g with
      | .crit => .crit
      | .warn => overallFrom .warn guests
      | _ => overallFrom worst guests

/-- `overall_verdict` -/
def overallVerdict (guests : List MatrixGuest) : Protection := overallFrom .ok guests

/-- `stale_exception` -/
def staleException (g : MatrixGuest) : Str :=
  match g.exception with
  | none => []
  | some exc =>
      if exc.noBackup && g.hasBackup then "backup"
      else if exc.noReplication && decide (0 < g.copyCount) then "replication"
      else []

/-- A guest with the verdict on it. -/
structure ProtectedGuest extends MatrixGuest where
  protection : Protection
  staleException : Str
  deriving DecidableEq

/-- The last loop of the overview. -/
def protect (g : MatrixGuest) : ProtectedGuest :=
  { g with protection := protectionState g, staleException := staleException g }

/-! ## The guests of a host -/

/-- `filter_matrix(...)`.  A guest without a copy is named by its number, its name,
its type and its dataset. -/
structure FilteredMatrix where
  guests : List MatrixGuest
  replicatedCount : Nat
  withoutCopyCount : Nat
  withoutCopyGuests : List (Str × Str × Str × Str)
  sourceHost : Str

/-- `filter_matrix`.  The empty host is none. -/
def filterMatrix (entries : List MatrixEntry) (sourceHost : Str) : FilteredMatrix :=
  let guests := if sourceHost = [] then entries else entries.filter (fun e => e.sourceHost = sourceHost)
  let replicated := guests.filter (fun e => 0 < e.copyCount)
  let without := guests.filter (fun e => e.copyCount = 0)
  { guests := (replicated ++ without).map bareGuest
    replicatedCount := replicated.length
    withoutCopyCount := without.length
    withoutCopyGuests := without.map (fun e => (e.vmid, e.guestName, e.guestType, e.sourceDataset))
    sourceHost := sourceHost }

/-- `source_hosts` -/
def sourceHosts (entries : List MatrixEntry) : List Str :=
  ((entries.filter (fun e => 0 < e.copyCount)).map MatrixEntry.sourceHost).dedup.insertionSort
    (fun s t => le s t = true)

/-- One turn of the loop of `merge_backups`. -/
def mergeBackup (states : List (Str × BackupState)) (sourceHost : Str) (g : MatrixGuest) : MatrixGuest :=
  if sourceHost ≠ [] ∧ g.sourceHost ≠ sourceHost then g
  else
    match states.lookup g.vmid with
    | none => g
    | some st => { g with backup := some st }

/-- What `merge_backups` writes into the matrix. -/
structure MergedBackups where
  guests : List MatrixGuest
  atRiskCount : Nat
  statesPresent : Bool

/-- `merge_backups` -/
def mergeBackups (guests : List MatrixGuest) (states : List (Str × BackupState)) (sourceHost : Str) :
    MergedBackups where
  guests := guests.map (mergeBackup states sourceHost)
  atRiskCount := guests.countP (fun g =>
    !(decide (sourceHost ≠ []) && decide (g.sourceHost ≠ sourceHost)) &&
      (states.lookup g.vmid).any (fun st => st.state = .red))
  statesPresent := states ≠ []

/-- One turn of the loop over the exceptions. -/
def attachException (exc : Exceptions) (sourceHost : Str) (g : MatrixGuest) : MatrixGuest :=
  if g.sourceHost ≠ sourceHost then g
  else
    match exc.exceptions.lookup g.vmid with
    | none => g
    | some r => { g with exception := some r }

/-! ## The answers of the source host -/

/-- What the source host answers in a run, and the exceptions that the two
readings end in. -/
structure SourceReads where
  J : PyJson
  asked : Asked
  now : Rat
  warnHours : Rat
  critHours : Rat
  backupsRaise : Option Str
  L : Lowering
  tags : Answer
  stored : Dict Str GuestIntent.Reason
  exceptionsRaise : Option Str

/-- `host_backup_states(...)` in its `try` -/
def SourceReads.backups (R : SourceReads) (vmids : List Str) : Except Str HostBackups :=
  match R.backupsRaise with
  | some e => .error e
  | none => .ok (hostBackupStates R.J R.asked vmids R.now R.warnHours R.critHours)

/-- `collect_exceptions(...)` in its `try` -/
def SourceReads.exceptions (R : SourceReads) (host : Str) : Except Str Exceptions :=
  match R.exceptionsRaise with
  | some e => .error e
  | none => .ok (collectExceptions R.L R.tags (loadReasons host R.stored))

/-- The numbers of the guests of the host. -/
def vmidsOf (guests : List MatrixGuest) (host : Str) : List Str :=
  (guests.filter (fun g => g.sourceHost = host && g.vmid ≠ [])).map (·.vmid)

/-- The guests with their exceptions, where they could be read. -/
def withExceptions (R : SourceReads) (host : Str) (guests : List MatrixGuest) : List MatrixGuest :=
  match R.exceptions host with
  | .error _ => guests
  | .ok exc => guests.map (attachException exc host)

/-! ## The overview -/

/-- What the reading of the backups adds to the overview. -/
structure BackupFields where
  merged : Option (Nat × Bool)
  unreadable : Option (List (Str × Str))
  readable : Bool
  error : Str
  hours : Option (Rat × Rat)

structure Overview where
  guests : List ProtectedGuest
  replicatedCount : Nat
  withoutCopyCount : Nat
  withoutCopyGuests : List (Str × Str × Str × Str)
  sourceHost : Str
  sourceHosts : List Str
  backupFields : Option BackupFields

/-- `collect_matrix_task`, with the matrix of the inventory. -/
def collectMatrixTask (hosts : List Str) (entries : List MatrixEntry) (host : Str) (R : SourceReads) :
    Overview :=
  let out := filterMatrix entries host
  let overview (guests : List MatrixGuest) (fields : Option BackupFields) : Overview :=
    { guests := guests.map protect
      replicatedCount := out.replicatedCount
      withoutCopyCount := out.withoutCopyCount
      withoutCopyGuests := out.withoutCopyGuests
      sourceHost := out.sourceHost
      sourceHosts := sourceHosts entries
      backupFields := fields }
  if host ≠ [] ∧ host ∈ hosts then
    match R.backups (vmidsOf out.guests host) with
    | .error e => overview (withExceptions R host out.guests) (some ⟨none, none, false, e.take 300, none⟩)
    | .ok res =>
        let merged := mergeBackups out.guests res.states host
        overview (withExceptions R host merged.guests)
          (some ⟨some (merged.atRiskCount, merged.statesPresent), some res.unreadable, res.readable, res.error,
            some (res.warnHours, res.critHours)⟩)
  else overview out.guests none

/-! ## The report -/

/-- The guests of the report, and the storages that could not be listed. -/
def reportGuests (hosts : List Str) (entries : List MatrixEntry) (sourceHost : Str) (R : SourceReads) :
    List ProtectedGuest × List (Str × Str) :=
  let guests := (filterMatrix entries sourceHost).guests
  if sourceHost ≠ [] ∧ sourceHost ∈ hosts then
    match R.backups (vmidsOf guests sourceHost) with
    | .error _ => ((withExceptions R sourceHost guests).map protect, [])
    | .ok res =>
        let merged := if res.readable then (mergeBackups guests res.states sourceHost).guests else guests
        ((withExceptions R sourceHost merged).map protect, res.unreadable)
  else (guests.map protect, [])

/-- A copy as the report names it. -/
structure ReportCopy where
  host : Str
  isSource : Bool
  snapshots : Nat
  newest : Option Int
  lagSeconds : Option Int
  missingFromSource : Nat

/-- The backups of a guest as the report names them. -/
structure ReportBackup where
  state : Verdict
  reason : Reason
  ageSeconds : Option Int
  count : Nat
  storages : List Str

/-- A guest as the report names it. -/
structure ReportGuest where
  vmid : Str
  type : Str
  name : Str
  source : Str
  copies : List ReportCopy
  copyCount : Nat
  configMismatch : Str
  backup : Option ReportBackup
  exception : Option (Flags × Str × Bool)
  exceptionNoLongerMatches : Str
  protection : Protection

/-- One guest of `condense_for_report`. -/
def condenseGuest (g : ProtectedGuest) : ReportGuest where
  vmid := g.vmid
  type := g.guestType
  name := g.guestName
  source := g.sourceHost ++ ':' :: g.sourceDataset
  copies := g.copies.map (fun c =>
    ⟨c.host, c.isSource, c.snapshotCount, c.newest, c.lagSeconds, c.missingFromSource⟩)
  copyCount := g.copyCount
  configMismatch := g.configMismatch
  backup := g.backup.map (fun st => ⟨st.state, st.reason, st.ageSeconds, st.count, st.storages⟩)
  exception := g.exception.map (fun exc => (exc.toFlags, exc.reason, exc.documented))
  exceptionNoLongerMatches := g.staleException
  protection := g.protection

/-- What the report is written from. -/
structure ReportPayload where
  guests : List ReportGuest
  guestCount : Nat
  truncated : Bool
  guestsWithoutCopy : Nat
  declaredExceptions : Nat
  guestsWithoutBackup : Nat
  backupStoragesUnreadable : List (Str × Str)
  sourceHost : Str
  copyHosts : List Str
  guestsWithoutAnyCopy : List (Str × Str × Str × Str)

/-- The hosts that hold a copy of a guest. -/
def copyHosts (guests : List ReportGuest) : List Str :=
  (guests.flatMap (fun g => (g.copies.filter (fun c => !c.isSource)).map ReportCopy.host)).dedup.insertionSort
    (fun s t => le s t = true)

/-- `condense_for_report`, with what is added to it. -/
def reportPayload (hosts : List Str) (entries : List MatrixEntry) (sourceHost : Str) (R : SourceReads) :
    ReportPayload :=
  let guests := (reportGuests hosts entries sourceHost R).1
  let condensed := (guests.take 120).map condenseGuest
  { guests := condensed
    guestCount := guests.length
    truncated := 120 < guests.length
    guestsWithoutCopy := guests.countP (fun g => g.copyCount = 0)
    declaredExceptions := guests.countP (fun g => g.exception.isSome)
    guestsWithoutBackup := guests.countP (fun g => g.backupBad)
    backupStoragesUnreadable := (reportGuests hosts entries sourceHost R).2
    sourceHost := sourceHost
    copyHosts := copyHosts condensed
    guestsWithoutAnyCopy := (filterMatrix entries sourceHost).withoutCopyGuests }

/-- The facts of a report.  Its text is what the language model made. -/
structure ReplicationReport where
  hostNames : List Str
  sourceHost : Str
  verdict : Protection
  criticalFindings : Nat
  warningsCount : Nat

/-- `generate_replication_report`, with the matrix of the inventory or its error,
and the text that the language model makes of what it is given. -/
def generateReplicationReport (hosts : List Str) (inventory : Except Str (List MatrixEntry)) (sourceHost : Str)
    (R : SourceReads) (callLlm : ReportPayload → Except Str Str) : Except Str ReplicationReport :=
  if hosts = [] then .error "No hosts configured"
  else
    match inventory with
    | .error e => .error ("Inventory collection failed: " ++ e)
    | .ok entries =>
        if (filterMatrix entries sourceHost).guests = [] then
          .error (if sourceHost = [] then "No guests found on any host"
            else "No guests found with " ++ sourceHost ++ " as source")
        else
          let payload := reportPayload hosts entries sourceHost R
          match callLlm payload with
          | .error e => .error e
          | .ok _ =>
              let guests := (reportGuests hosts entries sourceHost R).1.map ProtectedGuest.toMatrixGuest
              let states := guests.map protectionState
              let covered := (if sourceHost = [] then [] else [sourceHost]) ++ payload.copyHosts
              .ok
                { hostNames := if covered = [] then hosts.eraseDups else covered
                  sourceHost := sourceHost
                  verdict := overallVerdict guests
                  criticalFindings := states.count .crit
                  warningsCount := states.count .warn }

/-! ## The two paths -/

theorem overallFrom_crit_iff {worst : Protection} {guests : List MatrixGuest} (hworst : worst ≠ .crit) :
    overallFrom worst guests = .crit ↔ ∃ g ∈ guests, protectionState g = .crit := by
  induction guests generalizing worst with
  | nil => simp [overallFrom, hworst]
  | cons g guests ih =>
    rw [overallFrom]
    cases hg : protectionState g with
    | crit => simp [hg]
    | warn =>
      have hwarn := @ih .warn (by decide)
      simp [hg, hwarn]
    | ok => simp [hg, ih hworst]
    | accepted => simp [hg, ih hworst]

theorem overallFrom_warn (guests : List MatrixGuest) :
    overallFrom .warn guests = .warn ∨ overallFrom .warn guests = .crit := by
  induction guests with
  | nil => exact .inl rfl
  | cons g guests ih =>
    rw [overallFrom]
    cases protectionState g with
    | crit => exact .inr rfl
    | warn => exact ih
    | ok => exact ih
    | accepted => exact ih

/-- Only a host whose guests are all fine, or left alone on purpose, is fine. -/
theorem overallVerdict_ok_iff {guests : List MatrixGuest} :
    overallVerdict guests = .ok ↔ ∀ g ∈ guests, protectionState g = .ok ∨ protectionState g = .accepted := by
  rw [overallVerdict]
  induction guests with
  | nil => simp [overallFrom]
  | cons g guests ih =>
    rw [overallFrom, List.forall_mem_cons]
    cases hg : protectionState g with
    | crit => simp
    | warn =>
      have hwarn := overallFrom_warn guests
      simp only [reduceCtorEq, or_self, false_and, iff_false]
      rintro heq
      rw [heq] at hwarn
      exact hwarn.elim nofun nofun
    | ok => simpa using ih
    | accepted => simpa using ih

theorem overallFrom_ne_accepted {worst : Protection} {guests : List MatrixGuest} (hworst : worst ≠ .accepted) :
    overallFrom worst guests ≠ .accepted := by
  induction guests generalizing worst with
  | nil => exact hworst
  | cons g guests ih =>
    rw [overallFrom]
    cases protectionState g with
    | crit => exact nofun
    | warn => exact ih nofun
    | ok => exact ih hworst
    | accepted => exact ih hworst

/-- The report knows of a guest what the overview knows, or nothing of its backups
where the overview knows that they could not be read. -/
def SameGuest (o g : MatrixGuest) : Prop :=
  g = o ∨ (∃ st, o.backup = some st ∧ st.state = .unknown) ∧ g = { o with backup := none }

theorem SameGuest.examined {o g : MatrixGuest} (h : SameGuest o g) : g.examined = o.examined := by
  rcases h with rfl | ⟨⟨st, hst, hunknown⟩, rfl⟩
  · rfl
  · simp [MatrixGuest.examined, hst, hunknown]

theorem SameGuest.backupBad {o g : MatrixGuest} (h : SameGuest o g) : g.backupBad = o.backupBad := by
  rcases h with rfl | ⟨⟨st, hst, hunknown⟩, rfl⟩
  · rfl
  · simp [MatrixGuest.backupBad, hst, hunknown]

theorem SameGuest.hasBackup {o g : MatrixGuest} (h : SameGuest o g) : g.hasBackup = o.hasBackup := by
  rw [MatrixGuest.hasBackup, MatrixGuest.hasBackup, h.examined, h.backupBad]

theorem SameGuest.protectionState {o g : MatrixGuest} (h : SameGuest o g) :
    protectionState g = protectionState o := by
  have hfields : g.configMismatch = o.configMismatch ∧ g.copyCount = o.copyCount ∧ g.exception = o.exception := by
    rcases h with rfl | ⟨-, rfl⟩ <;> exact ⟨rfl, rfl, rfl⟩
  rw [Backups.protectionState, Backups.protectionState, h.examined, h.backupBad, h.hasBackup, hfields.1,
    hfields.2.1, hfields.2.2]

theorem SameGuest.staleException {o g : MatrixGuest} (h : SameGuest o g) :
    staleException g = staleException o := by
  have hfields : g.copyCount = o.copyCount ∧ g.exception = o.exception := by
    rcases h with rfl | ⟨-, rfl⟩ <;> exact ⟨rfl, rfl⟩
  rw [Backups.staleException, Backups.staleException, h.hasBackup, hfields.1, hfields.2]

theorem SameGuest.attachException {o g : MatrixGuest} {exc : Exceptions} {host : Str} (h : SameGuest o g) :
    SameGuest (attachException exc host o) (attachException exc host g) := by
  rcases h with rfl | ⟨hunknown, rfl⟩
  · exact .inl rfl
  · refine .inr ?_
    rw [Backups.attachException, Backups.attachException]
    dsimp only
    split
    · exact ⟨hunknown, rfl⟩
    · cases exc.exceptions.lookup o.vmid <;> exact ⟨hunknown, rfl⟩

theorem SameGuest.withExceptions {os gs : List MatrixGuest} {R : SourceReads} {host : Str}
    (h : List.Forall₂ SameGuest os gs) :
    List.Forall₂ SameGuest (withExceptions R host os) (withExceptions R host gs) := by
  rw [Backups.withExceptions, Backups.withExceptions]
  cases R.exceptions host with
  | error _ => exact h
  | ok exc =>
    refine List.forall₂_map_left_iff.mpr (List.forall₂_map_right_iff.mpr ?_)
    exact h.imp fun _ _ hsame => hsame.attachException

theorem bare_of_mem {entries : List MatrixEntry} {host : Str} {g : MatrixGuest}
    (h : g ∈ (filterMatrix entries host).guests) : g.backup = none := by
  obtain ⟨e, -, rfl⟩ := List.mem_map.mp h
  rfl

/-- Where no answer was taken, each state is the unknown one. -/
theorem unknown_of_lookup {J : PyJson} {asked : Asked} {vmids : List Str} {now warn crit : Rat} {vmid : Str}
    {st : BackupState} (hunread : (hostBackupStates J asked vmids now warn crit).readable = false)
    (h : (hostBackupStates J asked vmids now warn crit).states.lookup vmid = some st) : st.state = .unknown := by
  obtain ⟨l₁, l₂, hlist, -⟩ := List.lookup_eq_some_iff.mp h
  have hmem : (vmid, st) ∈ (hostBackupStates J asked vmids now warn crit).states := by
    rw [hlist]
    simp
  have hreadable : (collectBackups J asked []).readable = false := hunread
  obtain ⟨v, -, hv⟩ := List.mem_map.mp hmem
  rw [hreadable] at hv
  rw [← (Prod.mk.inj hv).2]
  rfl

/-- The guests of the overview and of the report, before they are judged. -/
theorem sameGuests (hosts : List Str) (entries : List MatrixEntry) (host : Str) (R : SourceReads) :
    ∃ os gs, (collectMatrixTask hosts entries host R).guests = os.map protect ∧
      (reportGuests hosts entries host R).1 = gs.map protect ∧ List.Forall₂ SameGuest os gs := by
  have hrefl : ∀ guests : List MatrixGuest, List.Forall₂ SameGuest guests guests :=
    fun guests => List.forall₂_same.mpr fun g _ => .inl rfl
  rw [collectMatrixTask, reportGuests]
  by_cases hfound : host ≠ [] ∧ host ∈ hosts
  · rw [if_pos hfound, if_pos hfound]
    cases hread : R.backups (vmidsOf (filterMatrix entries host).guests host) with
    | error e => exact ⟨_, _, rfl, rfl, hrefl _⟩
    | ok res =>
      refine ⟨_, _, rfl, rfl, SameGuest.withExceptions ?_⟩
      by_cases hreadable : res.readable = true
      · rw [if_pos hreadable]
        exact hrefl _
      · rw [if_neg hreadable]
        refine List.forall₂_map_left_iff.mpr (List.forall₂_same.mpr fun g hg => ?_)
        have hres : res = hostBackupStates R.J R.asked (vmidsOf (filterMatrix entries host).guests host) R.now
            R.warnHours R.critHours := by
          rw [SourceReads.backups] at hread
          split at hread
          · cases hread
          · exact (Except.ok.inj hread).symm
        rw [mergeBackup]
        split
        · exact .inl rfl
        · split
          · exact .inl rfl
          · rename_i st hst
            subst hres
            refine .inr ⟨⟨st, rfl, unknown_of_lookup (Bool.eq_false_iff.mpr hreadable) hst⟩, ?_⟩
            rw [← bare_of_mem hg]
  · rw [if_neg hfound, if_neg hfound]
    exact ⟨_, _, rfl, rfl, hrefl _⟩

theorem entry_attachException (exc : Exceptions) (host : Str) (g : MatrixGuest) :
    (attachException exc host g).toMatrixEntry = g.toMatrixEntry := by
  rw [attachException]
  split
  · rfl
  · split <;> rfl

theorem entry_mergeBackup (states : List (Str × BackupState)) (host : Str) (g : MatrixGuest) :
    (mergeBackup states host g).toMatrixEntry = g.toMatrixEntry := by
  rw [mergeBackup]
  split
  · rfl
  · split <;> rfl

theorem entries_withExceptions (R : SourceReads) (host : Str) (guests : List MatrixGuest) :
    (withExceptions R host guests).map MatrixGuest.toMatrixEntry = guests.map MatrixGuest.toMatrixEntry := by
  rw [withExceptions]
  split
  · rfl
  · rw [List.map_map]
    exact List.map_congr_left fun g _ => entry_attachException _ _ g

/-- Nothing that is read of the guests takes one away or changes what is known of
its copies. -/
theorem entries_overview (hosts : List Str) (entries : List MatrixEntry) (host : Str) (R : SourceReads) :
    (collectMatrixTask hosts entries host R).guests.map (fun g => g.toMatrixEntry) =
      (filterMatrix entries host).guests.map MatrixGuest.toMatrixEntry := by
  have hprotect : ∀ guests : List MatrixGuest,
      (guests.map protect).map (fun g => g.toMatrixEntry) = guests.map MatrixGuest.toMatrixEntry := by
    intro guests
    rw [List.map_map]
    rfl
  rw [collectMatrixTask]
  split
  · cases R.backups (vmidsOf (filterMatrix entries host).guests host) with
    | error e => exact (hprotect _).trans (entries_withExceptions R host _)
    | ok res =>
      refine (hprotect _).trans ((entries_withExceptions R host _).trans ?_)
      rw [mergeBackups, List.map_map]
      exact List.map_congr_left fun g _ => entry_mergeBackup _ _ g
  · exact hprotect _

/-- The row of the report on a guest of the overview. -/
def RowOf (o : ProtectedGuest) (row : ReportGuest) : Prop :=
  row = condenseGuest o ∨ o.examined = false ∧ row = { condenseGuest o with backup := none }

/-- The report says of each guest what the overview says. -/
structure ReportsOn (o : Overview) (payload : ReportPayload) (report : ReplicationReport) : Prop where
  rows : List.Forall₂ RowOf (o.guests.take 120) payload.guests
  withoutCopy : payload.guestsWithoutCopy = o.withoutCopyCount
  withoutBackup : payload.guestsWithoutBackup = o.guests.countP (fun g => g.backupBad)
  critical : report.criticalFindings = o.guests.countP (fun g => g.protection = .crit)
  warnings : report.warningsCount = o.guests.countP (fun g => g.protection = .warn)
  crit : report.verdict = .crit ↔ ∃ g ∈ o.guests, g.protection = .crit
  ok : report.verdict = .ok ↔ ∀ g ∈ o.guests, g.protection = .ok ∨ g.protection = .accepted
  rated : report.verdict ≠ .accepted

theorem SameGuest.rowOf {o g : MatrixGuest} (h : SameGuest o g) : RowOf (protect o) (condenseGuest (protect g)) := by
  have hstate := h.protectionState
  have hstale := h.staleException
  rcases h with rfl | ⟨⟨st, hst, hunknown⟩, rfl⟩
  · exact .inl rfl
  · refine .inr ⟨?_, ?_⟩
    · show o.backup.any _ = false
      simp [hst, hunknown]
    · rw [protect, protect, hstate, hstale]
      rfl

theorem states_eq {os gs : List MatrixGuest} (h : List.Forall₂ SameGuest os gs) :
    gs.map protectionState = (os.map protect).map ProtectedGuest.protection := by
  induction h with
  | nil => rfl
  | cons hsame _ ih =>
    rw [List.map_cons, List.map_cons, List.map_cons, hsame.protectionState, ih]
    rfl

theorem countP_same {os gs : List MatrixGuest} {p : MatrixGuest → Bool} (h : List.Forall₂ SameGuest os gs)
    (hp : ∀ o g, SameGuest o g → p g = p o) : gs.countP p = os.countP p := by
  induction h with
  | nil => rfl
  | cons hsame _ ih => rw [List.countP_cons, List.countP_cons, hp _ _ hsame, ih]

/-- The gaps of the overview are counted before anything else is read. -/
theorem countP_withoutCopy (entries : List MatrixEntry) (host : Str) :
    ((filterMatrix entries host).guests.map MatrixGuest.toMatrixEntry).countP (fun e => e.copyCount = 0) =
      (filterMatrix entries host).withoutCopyCount := by
  rw [filterMatrix]
  dsimp only
  rw [List.map_map, List.map_append, List.countP_append, List.countP_map, List.countP_map,
    List.countP_eq_zero.mpr, List.countP_eq_length.mpr, Nat.zero_add]
  · exact fun e he => (List.mem_filter.mp he).2
  · intro e he
    have hpos := of_decide_eq_true (List.mem_filter.mp he).2
    exact mt of_decide_eq_true hpos.ne'

theorem withoutCopyCount_overview (hosts : List Str) (entries : List MatrixEntry) (host : Str) (R : SourceReads) :
    (collectMatrixTask hosts entries host R).withoutCopyCount = (filterMatrix entries host).withoutCopyCount := by
  rw [collectMatrixTask]
  split
  · cases R.backups (vmidsOf (filterMatrix entries host).guests host) <;> rfl
  · rfl

/-- On the same answers of the hosts, the report rates each guest as the overview
does, and its verdict and its counts are those of the overview. -/
theorem report_agrees {hosts : List Str} {entries : List MatrixEntry} {host : Str} {R : SourceReads}
    {callLlm : ReportPayload → Except Str Str} {report : ReplicationReport}
    (h : generateReplicationReport hosts (.ok entries) host R callLlm = .ok report) :
    ReportsOn (collectMatrixTask hosts entries host R) (reportPayload hosts entries host R) report := by
  obtain ⟨os, gs, hos, hgs, hsame⟩ := sameGuests hosts entries host R
  have hgs' : (reportGuests hosts entries host R).1.map ProtectedGuest.toMatrixGuest = gs := by
    rw [hgs, List.map_map]
    exact List.map_id gs
  obtain ⟨covered, rfl⟩ : ∃ covered, report =
      ⟨covered, host, overallVerdict gs, (gs.map protectionState).count .crit,
        (gs.map protectionState).count .warn⟩ := by
    rw [generateReplicationReport] at h
    split at h
    · cases h
    · dsimp only at h
      split at h
      · cases h
      · split at h
        · cases h
        · rw [← Except.ok.inj h, hgs']
          exact ⟨_, rfl⟩
  have hstates := states_eq hsame
  have hcount : ∀ p : Protection, (gs.map protectionState).count p =
      (os.map protect).countP (fun g => g.protection = p) := by
    intro p
    rw [hstates, List.count, List.countP_map]
    rfl
  have hentries := (entries_overview hosts entries host R).symm
  rw [hos] at hentries
  have hrows : ∀ n, List.Forall₂ RowOf ((os.map protect).take n) (((gs.map protect).take n).map condenseGuest) := by
    intro n
    rw [← List.map_take, ← List.map_take, List.map_map]
    refine List.forall₂_map_left_iff.mpr (List.forall₂_map_right_iff.mpr ?_)
    exact (List.forall₂_take n hsame).imp fun _ _ h => h.rowOf
  constructor
  · rw [hos, reportPayload, hgs]
    exact hrows 120
  · show (reportGuests hosts entries host R).1.countP (fun g => g.copyCount = 0) = _
    rw [hgs, withoutCopyCount_overview, ← countP_withoutCopy, hentries, List.map_map, List.countP_map,
      List.countP_map]
    refine countP_same hsame ?_
    rintro o g (rfl | ⟨-, rfl⟩) <;> rfl
  · show (reportGuests hosts entries host R).1.countP (fun g => g.backupBad) = _
    rw [hgs, hos, List.countP_map, List.countP_map]
    exact countP_same hsame fun _ _ h => h.backupBad
  · rw [hos]
    exact hcount .crit
  · rw [hos]
    exact hcount .warn
  · rw [hos]
    refine (overallFrom_crit_iff (by decide)).trans ?_
    rw [← List.mem_map, hstates, List.mem_map]
  · rw [hos]
    refine overallVerdict_ok_iff.trans ?_
    rw [← List.forall_mem_map (f := protectionState) (P := fun p => p = .ok ∨ p = .accepted), hstates,
      List.forall_mem_map]
  · exact overallFrom_ne_accepted (by decide)

/-- A host that answers nothing. -/
def silentReads : SourceReads where
  J := ⟨fun _ => none, fun _ => []⟩
  asked := fun _ _ => ⟨false, [], []⟩
  now := 1700000000
  warnHours := 36
  critHours := 168
  backupsRaise := none
  L := asciiLowering
  tags := ⟨false, [], []⟩
  stored := Dict.empty
  exceptionsRaise := none

/-- A guest without a snapshot, on a host that does not answer. -/
def silentGuest : MatrixEntry := missingEntry ("pve1", ⟨"100", "web", "qemu"⟩)

theorem report_agrees_silent : ∃ report,
    generateReplicationReport ["pve1"] (.ok [silentGuest]) "pve1" silentReads (fun _ => .ok "text") = .ok report ∧
      report.verdict = .crit ∧
      ReportsOn (collectMatrixTask ["pve1"] [silentGuest] "pve1" silentReads)
        (reportPayload ["pve1"] [silentGuest] "pve1" silentReads) report :=
  ⟨_, rfl, rfl, @report_agrees _ _ _ _ (fun _ => .ok "text") _ rfl⟩

end PveZfsTool.Backups
