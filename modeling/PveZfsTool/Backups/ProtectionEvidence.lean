import PveZfsTool.Backups.ListingOrder
import PveZfsTool.Backups.Protection
import PveZfsTool.Replication.Matrix

/-!
# What a protection verdict rests on

The overview of a host is made of the snapshots of all hosts, the backups of the
source host and the tags of its guests.  `protection_judged` says what these have
to be for each verdict: no guest is passed over, a gap is critical unless a tag
that was read in this very run declares it, and a failed reading declares nothing.

* `copyCount_pos_iff` and `configMismatch_iff` say what an entry of the matrix
  knows of the lineage of its guest.
* `backupState_red_iff` says when a record of backups is no defence.
* `lookup_exceptions` says which exception a guest gets.
-/

namespace PveZfsTool.Backups

open Text Replication GuestIntent

/-! ## Copies -/

section

variable {F : Fleet} {G : GuestLists} {configured : List IntendedPair} {autosnap : Dict Str LocalAutosnap}
  {e : MatrixEntry}

/-- The dataset of an entry. -/
def sourceKey (e : MatrixEntry) : LineageKey := (e.sourceHost, e.sourceDataset)

/-- Another dataset holds snapshots of the lineage. -/
def Replicated (F : Fleet) (e : MatrixEntry) : Prop :=
  e.noSnapshots = false ∧ ∃ k, Replication.IsKey F k ∧ k ≠ sourceKey e ∧ Chained F (sourceKey e) k

/-- A replication config makes the host of the entry the target of a host that
holds a dataset of the lineage. -/
def Reversed (F : Fleet) (configured : List IntendedPair) (e : MatrixEntry) : Prop :=
  e.noSnapshots = false ∧ ∃ cfg ∈ configured, e.sourceHost ≠ [] ∧ strip cfg.targetHost = e.sourceHost ∧
    strip cfg.source ≠ [] ∧ ∃ k, Replication.IsKey F k ∧ Chained F (sourceKey e) k ∧ k.1 = strip cfg.source

theorem configMismatch_ne_nil {source : Copy} {rows : List MatrixRow} :
    configMismatch source rows configured ≠ [] ↔ ∃ cfg ∈ configured, source.host ≠ [] ∧
      strip cfg.targetHost = source.host ∧ strip cfg.source ≠ [] ∧ ∃ r ∈ rows, r.host = strip cfg.source := by
  induction configured with
  | nil => simp [configMismatch]
  | cons cfg configured ih =>
    rw [configMismatch, List.exists_mem_cons_iff]
    by_cases hempty : strip cfg.targetHost = [] ∨ strip cfg.source = []
    · rw [if_pos (by simpa using hempty), ih, or_iff_right]
      rintro ⟨hhost, htarget, hsource, -⟩
      exact hempty.elim (htarget ▸ hhost) hsource
    · rw [if_neg (by simpa using hempty)]
      rw [not_or] at hempty
      by_cases hhit : source.host = strip cfg.targetHost ∧ ∃ r ∈ rows, r.host = strip cfg.source
      · rw [if_pos (by simpa using hhit)]
        refine iff_of_true (by simp) (.inl ⟨hhit.1 ▸ hempty.1, hhit.1.symm, hempty.2, hhit.2⟩)
      · rw [if_neg (by simpa using hhit), ih, or_iff_right]
        rintro ⟨-, htarget, -, hrow⟩
        exact hhit ⟨htarget.symm, hrow⟩

theorem rows_perm (autosnap : Dict Str LocalAutosnap) (F : Fleet) (k : LineageKey) (L : List LineageKey) :
    ((matrixRows autosnap (copyOf F k) (L.map (copyOf F))).map MatrixRow.key).Perm L := by
  have hperm : ((matrixRows autosnap (copyOf F k) (L.map (copyOf F))).map MatrixRow.key).Perm
      ((L.map (copyOf F)).map Copy.key) := matrixRows_perm
  rw [List.map_map] at hperm
  have hkeys : L.map (Copy.key ∘ copyOf F) = L := List.map_id L
  rwa [hkeys] at hperm

/-- The rows of an entry stand for the members of the lineage. -/
theorem mem_rows {L : List LineageKey} {k : LineageKey} {h : Str} :
    (∃ r ∈ matrixRows autosnap (copyOf F k) (L.map (copyOf F)), r.host = h) ↔ ∃ k' ∈ L, k'.1 = h := by
  have hperm := rows_perm autosnap F k L
  constructor
  · rintro ⟨r, hr, rfl⟩
    exact ⟨r.key, hperm.mem_iff.mp (List.mem_map_of_mem hr), rfl⟩
  · rintro ⟨k', hk', rfl⟩
    obtain ⟨r, hr, hkey⟩ := List.mem_map.mp (hperm.mem_iff.mpr hk')
    exact ⟨r, hr, congrArg Prod.fst hkey⟩

theorem one_lt_length_iff {α : Type} {l : List α} {x : α} (hnodup : l.Nodup) (hx : x ∈ l) :
    1 < l.length ↔ ∃ y ∈ l, y ≠ x := by
  have hpos := List.length_pos_of_mem hx
  have hsingle := hnodup.ne_singleton_iff x
  rw [or_iff_right (List.ne_nil_of_mem hx)] at hsingle
  rw [← hsingle]
  constructor
  · rintro hlt rfl
    exact Nat.lt_irrefl 1 hlt
  · intro hne
    by_contra hle
    obtain ⟨y, rfl⟩ := List.length_eq_one_iff.mp (show l.length = 1 by omega)
    rw [List.mem_singleton.mp hx] at hne
    exact hne rfl

theorem copyCount_pos_iff (h : e ∈ matrixEntries F G configured autosnap) : 0 < e.copyCount ↔ Replicated F e := by
  rcases List.mem_append.mp h with hlineage | hmissing
  · obtain ⟨L, hL, k, hk, -, ref, -, rfl⟩ := mem_lineageEntries.mp hlineage
    have hnodup : L.Nodup := (List.nodup_flatten.mp (nodup_lineageKeys F)).1 L hL
    have hlength : (matrixRows autosnap (copyOf F k) (L.map (copyOf F))).length = L.length := by
      simpa using (rows_perm autosnap F k L).length_eq
    have hcount : (guestEntry G configured autosnap (L.map (copyOf F)) (copyOf F k) ref).copyCount =
        L.length - 1 := congrArg (· - 1) hlength
    rw [hcount, Nat.sub_pos_iff_lt, one_lt_length_iff hnodup hk]
    constructor
    · rintro ⟨k', hk', hne⟩
      obtain ⟨hkey, hchain⟩ := (mem_lineage_iff hL hk k').mp hk'
      exact ⟨rfl, k', hkey, hne, hchain⟩
    · rintro ⟨-, k', hkey, hne, hchain⟩
      exact ⟨k', (mem_lineage_iff hL hk k').mpr ⟨hkey, hchain⟩, hne⟩
  · obtain ⟨g, -, rfl⟩ := List.mem_map.mp hmissing
    exact iff_of_false (Nat.lt_irrefl 0) (fun h => Bool.noConfusion h.1)

theorem configMismatch_iff (h : e ∈ matrixEntries F G configured autosnap) :
    e.configMismatch ≠ [] ↔ Reversed F configured e := by
  rcases List.mem_append.mp h with hlineage | hmissing
  · obtain ⟨L, hL, k, hk, -, ref, -, rfl⟩ := mem_lineageEntries.mp hlineage
    refine configMismatch_ne_nil.trans ?_
    simp only [mem_rows]
    constructor
    · rintro ⟨cfg, hcfg, hhost, htarget, hsource, k', hk', heq⟩
      obtain ⟨hkey, hchain⟩ := (mem_lineage_iff hL hk k').mp hk'
      exact ⟨rfl, cfg, hcfg, hhost, htarget, hsource, k', hkey, hchain, heq⟩
    · rintro ⟨-, cfg, hcfg, hhost, htarget, hsource, k', hkey, hchain, heq⟩
      exact ⟨cfg, hcfg, hhost, htarget, hsource, k', (mem_lineage_iff hL hk k').mpr ⟨hkey, hchain⟩, heq⟩
  · obtain ⟨g, -, rfl⟩ := List.mem_map.mp hmissing
    exact iff_of_false (fun h => h rfl) (fun h => Bool.noConfusion h.1)

end

/-! ## Backups -/

/-- The newest backup did not fail its verification and is not too old.  One
without a time is not judged by it. -/
def BackupRecord.Holds (r : BackupRecord) (now critHours : Rat) : Prop :=
  ¬ (r.newestVerifies = true ∧ r.newestVerify = some "failed".toList) ∧
    (r.newest = 0 ∨ max 0 (now - r.newest) ≤ critHours * 3600)

theorem backupState_red_iff {record : Option BackupRecord} {now warnHours critHours : Rat} {coveredKnown : Bool}
    (hcount : ∀ r, record = some r → 0 < r.count) :
    (backupState record now warnHours critHours coveredKnown).state = .red ↔
      ¬ ∃ r, record = some r ∧ r.Holds now critHours := by
  cases record with
  | none => simp [backupState]
  | some r =>
    have hne : ¬ r.count = 0 := (hcount r rfl).ne'
    rw [backupState]
    simp only [if_neg hne, Option.some.injEq, exists_eq_left', BackupRecord.Holds]
    by_cases hfailed : r.newestVerifies = true ∧ r.newestVerify = some "failed".toList
    · rw [if_pos (by simpa using hfailed)]
      exact iff_of_true rfl fun h => h.1 hfailed
    · rw [if_neg (by simpa using hfailed)]
      by_cases hzero : r.newest = 0
      · rw [if_pos hzero]
        exact iff_of_false nofun fun h => h ⟨hfailed, .inl hzero⟩
      · rw [if_neg hzero]
        by_cases hold : critHours * 3600 < max 0 (now - r.newest)
        · rw [if_pos hold]
          exact iff_of_true rfl fun h => h.2.elim hzero (not_le.mpr hold)
        · rw [if_neg hold]
          refine iff_of_false ?_ fun h => h ⟨hfailed, .inr (not_lt.mp hold)⟩
          repeat' split
          all_goals exact nofun

theorem backupState_ne_unknown {record : Option BackupRecord} {now warnHours critHours : Rat}
    {coveredKnown : Bool} : (backupState record now warnHours critHours coveredKnown).state ≠ .unknown := by
  cases record with
  | none => exact nofun
  | some r =>
    rw [backupState]
    dsimp only
    repeat' split
    all_goals exact nofun

/-- The backups of the source host were read. -/
def SourceReads.Examined (R : SourceReads) : Prop := R.backupsRaise = none ∧ ¬ NothingTaken R.J R.asked

/-- A backup of the guest was read that holds. -/
def SourceReads.BackedUp (R : SourceReads) (vmid : Str) : Prop :=
  R.Examined ∧ ∃ r, collectedRecord R.J R.asked vmid = some r ∧
    r.Holds R.now (backupThresholds R.warnHours R.critHours).2

/-- The state that a guest gets. -/
def SourceReads.backupOf (R : SourceReads) (vmids : List Str) (vmid : Str) : Option BackupState :=
  match R.backups vmids with
  | .error _ => none
  | .ok res => res.states.lookup vmid

theorem lookup_states {J : PyJson} {asked : Asked} {vmids : List Str} {now warn crit : Rat} {vmid : Str}
    (hvmid : vmid ∈ vmids) (hne : vmid ≠ []) :
    (hostBackupStates J asked vmids now warn crit).states.lookup vmid = some
      (if (collectBackups J asked []).readable = true then
        backupState (collectedRecord J asked vmid) now (backupThresholds warn crit).1 (backupThresholds warn crit).2
          (collectBackups J asked []).jobsKnown
      else { state := .unknown, reason := .unreadable }) := by
  show List.lookup vmid (guestBackupStates _ _ _ _ _ _ _) = _
  rw [guestBackupStates, lookup_map_self, if_pos]
  · cases (collectBackups J asked []).readable <;> rfl
  · simp [hvmid, hne]

/-- Whether a guest is known to be backed up, and that it is. -/
theorem backupOf_iff {R : SourceReads} {vmids : List Str} {vmid : Str} (hvmid : vmid ∈ vmids) (hne : vmid ≠ []) :
    ((R.backupOf vmids vmid).any (fun st => st.state ≠ .unknown) = true ↔ R.Examined) ∧
      (R.Examined → ((R.backupOf vmids vmid).any (fun st => st.state = .red) = true ↔ ¬ R.BackedUp vmid)) := by
  rw [SourceReads.backupOf, SourceReads.backups]
  by_cases hraise : R.backupsRaise = none
  · rw [hraise]
    dsimp only
    rw [lookup_states hvmid hne]
    have hexamined : R.Examined ↔ (collectBackups R.J R.asked []).readable = true := by
      rw [readable_iff, SourceReads.Examined, and_iff_right hraise]
    by_cases hreadable : (collectBackups R.J R.asked []).readable = true
    · have hexam := hexamined.mpr hreadable
      have hcount : ∀ r, collectedRecord R.J R.asked vmid = some r → 0 < r.count := fun r hr => count_pos hr
      rw [if_pos hreadable, Option.any_some, Option.any_some, SourceReads.BackedUp, and_iff_right hexam]
      refine ⟨iff_of_true (decide_eq_true backupState_ne_unknown) hexam, fun _ => ?_⟩
      rw [decide_eq_true_iff]
      exact backupState_red_iff hcount
    · rw [if_neg hreadable, hexamined]
      exact ⟨iff_of_false (by simp) hreadable, fun h => absurd h hreadable⟩
  · obtain ⟨e, he⟩ := Option.ne_none_iff_exists'.mp hraise
    rw [he]
    exact ⟨iff_of_false (by simp) fun h => hraise h.1, fun h => absurd h.1 hraise⟩

/-! ## Exceptions -/

/-- The tags of the guest were read, and one of them declares the gap. -/
def SourceReads.Declared (R : SourceReads) (vmid : Str) (kind : Kind) : Prop :=
  R.exceptionsRaise = none ∧ R.tags.success = true ∧
    ∃ tags, (parseTagLines R.tags.stdout).get? vmid = some tags ∧ declares R.L tags kind = true

/-- The exception that a guest gets. -/
def SourceReads.exceptionOf (R : SourceReads) (host vmid : Str) : Option ExceptionRecord :=
  match R.exceptions host with
  | .error _ => none
  | .ok exc => exc.exceptions.lookup vmid

theorem lookup_map_snd {V W : Type} {es : List (Str × V)} {f : Str → V → W} {k : Str} :
    (es.map (fun e => (e.1, f e.1 e.2))).lookup k = (es.lookup k).map (f k) := by
  induction es with
  | nil => rfl
  | cons e es ih =>
    rw [List.map_cons, List.lookup_cons, List.lookup_cons, ih]
    by_cases hk : k = e.1
    · rw [hk, beq_self_eq_true]
      rfl
    · rw [beq_false_of_ne hk]

theorem get?_eq_lookup {V : Type} (d : Dict Str V) (k : Str) : d.get? k = d.entries.lookup k := by
  rw [Dict.get?]
  congr 1
  exact lawful_beq_subsingleton _ _

theorem lookup_exceptions (L : Lowering) (d : Dict Str (List Str)) (vmid : Str) :
    (exceptionsFromTags L d).lookup vmid =
      ((d.get? vmid).map (flagsOf L)).filter (fun f => f.noBackup || f.noReplication) := by
  have hentries : exceptionsFromTags L d =
      ((d.mapValues (flagsOf L)).filter fun _ f => f.noBackup || f.noReplication).entries := rfl
  rw [hentries, ← get?_eq_lookup, Dict.get?_filter, Dict.get?_mapValues]

theorem exceptionOf_iff {R : SourceReads} {host vmid : Str} :
    ((R.exceptionOf host vmid).any (·.noBackup) = true ↔ R.Declared vmid .backup) ∧
      ((R.exceptionOf host vmid).any (·.noReplication) = true ↔ R.Declared vmid .replication) := by
  rw [SourceReads.exceptionOf, SourceReads.exceptions]
  by_cases hraise : R.exceptionsRaise = none
  · rw [hraise]
    dsimp only
    rw [collectExceptions]
    by_cases hsuccess : R.tags.success = true
    · rw [if_pos hsuccess]
      dsimp only
      rw [lookup_map_snd, lookup_exceptions]
      simp only [SourceReads.Declared, hraise, hsuccess, true_and]
      cases hget : (parseTagLines R.tags.stdout).get? vmid with
      | none => simp
      | some tags =>
        simp only [Option.map_some, Option.some.injEq, exists_eq_left']
        cases hb : declares R.L tags .backup <;> cases hr : declares R.L tags .replication <;>
          simp [Option.filter, flagsOf, exceptionRecord, hb, hr]
    · rw [if_neg hsuccess]
      constructor <;> exact iff_of_false (by simp) fun h => hsuccess h.2.1
  · obtain ⟨e, he⟩ := Option.ne_none_iff_exists'.mp hraise
    rw [he]
    constructor <;> exact iff_of_false (by simp) fun h => hraise h.1

/-! ## One guest -/

theorem vmid_of_guestDiskAt {s : Str} {ref : Str × Str} (h : guestDiskAt s = some ref) : ref.2 ≠ [] := by
  obtain ⟨kind, -, hkind⟩ := List.exists_of_findSome?_eq_some h
  dsimp only at hkind
  split at hkind
  · rename_i hfound
    rw [← Option.some.inj hkind]
    simp only [Bool.and_eq_true, decide_eq_true_eq] at hfound
    exact hfound.1.1.2
  · cases hkind

theorem vmid_of_guestRef {dataset : Str} {ref : Str × Str} (h : guestRefFromDataset dataset = some ref) :
    ref.2 ≠ [] := by
  have hafter : ∀ s, guestDiskAfterSlash s = some ref → ref.2 ≠ [] := by
    intro s
    induction s with
    | nil => exact nofun
    | cons c s ih =>
      intro h
      rw [guestDiskAfterSlash] at h
      split at h
      · cases hat : guestDiskAt s with
        | some r =>
          rw [hat] at h
          exact vmid_of_guestDiskAt (hat.trans h)
        | none =>
          rw [hat] at h
          exact ih h
      · exact ih h
  rw [guestRefFromDataset] at h
  cases hat : guestDiskAt dataset with
  | some r =>
    rw [hat] at h
    exact vmid_of_guestDiskAt (hat.trans h)
  | none =>
    rw [hat] at h
    exact hafter _ h

/-- The verdict on what an entry, the backups and the exception say. -/
theorem protectionState_cases (g : MatrixGuest) {mismatch copy examined held noBackup noReplication : Prop}
    (hmismatch : g.configMismatch ≠ [] ↔ mismatch) (hcopy : 0 < g.copyCount ↔ copy)
    (hexamined : g.examined = true ↔ examined) (hbad : examined → (g.backupBad = true ↔ ¬ held))
    (hheld : held → examined) (hnoBackup : g.exception.any (·.noBackup) = true ↔ noBackup)
    (hnoReplication : g.exception.any (·.noReplication) = true ↔ noReplication) :
    (protectionState g = .warn ↔ mismatch ∨ copy ∧ examined ∧ ¬ held ∧ ¬ noBackup) ∧
      (protectionState g = .crit ↔
        ¬ mismatch ∧ ¬ copy ∧ ¬ held ∧ ¬ (noReplication ∧ (noBackup ∨ ¬ examined))) ∧
      (protectionState g = .accepted ↔ ¬ mismatch ∧ ¬ held ∧
        (¬ copy ∧ noReplication ∧ (noBackup ∨ ¬ examined) ∨ copy ∧ examined ∧ noBackup)) := by
  have hzero : g.copyCount = 0 ↔ ¬ copy := by
    rw [← hcopy]
    omega
  rw [protectionState, MatrixGuest.hasBackup]
  by_cases hm : mismatch
  · rw [if_pos (hmismatch.mpr hm)]
    simp [hm]
  · rw [if_neg (mt hmismatch.mp hm)]
    by_cases he : examined
    · have hexam := hexamined.mpr he
      have hb := hbad he
      by_cases hh : held
      · have hgood : g.backupBad = false := by simpa [hh] using hb
        by_cases hc : copy <;> simp [hm, he, hh, hc, hexam, hgood, hzero]
      · have hbadly : g.backupBad = true := hb.mpr hh
        by_cases hc : copy <;> by_cases hnb : noBackup <;> by_cases hnr : noReplication <;>
          simp [hm, he, hh, hc, hnb, hnr, hexam, hbadly, hzero, hnoBackup, hnoReplication]
    · have hunread : g.examined = false := by simpa [he] using hexamined
      have hh : ¬ held := fun h => he (hheld h)
      by_cases hc : copy <;> by_cases hnr : noReplication <;>
        simp [hm, he, hh, hc, hnr, hunread, hzero, hnoReplication]

/-! ## The overview of a host -/

/-- A run of the overview of one of the hosts. -/
structure ProtectionRun where
  F : Fleet
  G : GuestLists
  configured : List IntendedPair
  autosnap : Dict Str LocalAutosnap
  entries : List MatrixEntry
  built : buildMatrix F G configured autosnap = some entries
  hosts : List Str
  host : Str
  named : host ≠ []
  registered : host ∈ hosts
  R : SourceReads

namespace ProtectionRun

variable (P : ProtectionRun)

def guests : List ProtectedGuest := (collectMatrixTask P.hosts P.entries P.host P.R).guests

def vmids : List Str := vmidsOf (filterMatrix P.entries P.host).guests P.host

/-- The verdict on the guest is the one that the snapshots, the backups and the
tags call for. -/
structure Judged (g : ProtectedGuest) : Prop where
  warn : g.protection = .warn ↔ Reversed P.F P.configured g.toMatrixEntry ∨
    Replicated P.F g.toMatrixEntry ∧ P.R.Examined ∧ ¬ P.R.BackedUp g.vmid ∧ ¬ P.R.Declared g.vmid .backup
  crit : g.protection = .crit ↔ ¬ Reversed P.F P.configured g.toMatrixEntry ∧
    ¬ Replicated P.F g.toMatrixEntry ∧ ¬ P.R.BackedUp g.vmid ∧
    ¬ (P.R.Declared g.vmid .replication ∧ (P.R.Declared g.vmid .backup ∨ ¬ P.R.Examined))
  accepted : g.protection = .accepted ↔ ¬ Reversed P.F P.configured g.toMatrixEntry ∧ ¬ P.R.BackedUp g.vmid ∧
    (¬ Replicated P.F g.toMatrixEntry ∧ P.R.Declared g.vmid .replication ∧
        (P.R.Declared g.vmid .backup ∨ ¬ P.R.Examined) ∨
      Replicated P.F g.toMatrixEntry ∧ P.R.Examined ∧ P.R.Declared g.vmid .backup)

variable {P}

theorem mem_filterMatrix {entries : List MatrixEntry} {host : Str} (hhost : host ≠ []) {g : MatrixGuest} :
    g ∈ (filterMatrix entries host).guests ↔ ∃ e ∈ entries, e.sourceHost = host ∧ g = bareGuest e := by
  rw [filterMatrix]
  dsimp only
  rw [if_neg hhost, List.mem_map]
  constructor
  · rintro ⟨e, he, rfl⟩
    rcases List.mem_append.mp he with he | he
    all_goals
      obtain ⟨he, hsource⟩ := List.mem_filter.mp (List.mem_filter.mp he).1
      exact ⟨e, he, of_decide_eq_true hsource, rfl⟩
  · rintro ⟨e, he, hsource, rfl⟩
    refine ⟨e, ?_, rfl⟩
    rw [List.mem_append, List.mem_filter, List.mem_filter, List.mem_filter]
    have hpos := Nat.eq_zero_or_pos e.copyCount
    simpa [he, hsource] using hpos.symm

/-- What was read of a guest. -/
def withReads (P : ProtectionRun) (g : MatrixGuest) : MatrixGuest :=
  { g with
    backup := P.R.backupOf P.vmids g.vmid
    exception := P.R.exceptionOf P.host g.vmid }

theorem withExceptions_eq {R : SourceReads} {host : Str} {gs : List MatrixGuest}
    (h : ∀ g ∈ gs, g.sourceHost = host ∧ g.exception = none) :
    withExceptions R host gs = gs.map (fun g => { g with exception := R.exceptionOf host g.vmid }) := by
  rw [withExceptions]
  cases hread : R.exceptions host with
  | error e =>
    refine (List.map_id gs).symm.trans (List.map_congr_left fun g hg => ?_)
    simp only [SourceReads.exceptionOf, hread, ← (h g hg).2, id_eq]
  | ok exc =>
    refine List.map_congr_left fun g hg => ?_
    simp only [SourceReads.exceptionOf, hread, attachException, (h g hg).1, ne_eq, not_true_eq_false, if_false]
    cases exc.exceptions.lookup g.vmid with
    | none =>
      show g = { g with exception := none }
      rw [← (h g hg).2]
    | some r => rfl

theorem mergeBackups_eq {states : List (Str × BackupState)} {host : Str} {gs : List MatrixGuest}
    (h : ∀ g ∈ gs, g.sourceHost = host ∧ g.backup = none) :
    (mergeBackups gs states host).guests = gs.map (fun g => { g with backup := states.lookup g.vmid }) := by
  refine List.map_congr_left fun g hg => ?_
  rw [mergeBackup, if_neg fun hne => hne.2 (h g hg).1]
  cases states.lookup g.vmid with
  | none =>
    show g = { g with backup := none }
    rw [← (h g hg).2]
  | some st => rfl

theorem guests_eq : P.guests = (filterMatrix P.entries P.host).guests.map (fun g => protect (P.withReads g)) := by
  have hbare : ∀ g ∈ (filterMatrix P.entries P.host).guests,
      g.sourceHost = P.host ∧ g.backup = none ∧ g.exception = none := by
    intro g hg
    obtain ⟨e, -, hsource, rfl⟩ := (mem_filterMatrix P.named).mp hg
    exact ⟨hsource, rfl, rfl⟩
  rw [guests, collectMatrixTask, if_pos ⟨P.named, P.registered⟩]
  cases hread : P.R.backups (vmidsOf (filterMatrix P.entries P.host).guests P.host) with
  | error e =>
    dsimp only
    rw [withExceptions_eq fun g hg => ⟨(hbare g hg).1, (hbare g hg).2.2⟩, List.map_map]
    refine List.map_congr_left fun g hg => ?_
    simp only [withReads, SourceReads.backupOf, vmids, hread, ← (hbare g hg).2.1, Function.comp_apply]
  | ok res =>
    dsimp only
    rw [mergeBackups_eq fun g hg => ⟨(hbare g hg).1, (hbare g hg).2.1⟩, withExceptions_eq, List.map_map,
      List.map_map]
    · refine List.map_congr_left fun g hg => ?_
      simp only [withReads, SourceReads.backupOf, vmids, hread, Function.comp_apply]
    · intro g' hg'
      obtain ⟨g, hg, rfl⟩ := List.mem_map.mp hg'
      exact ⟨(hbare g hg).1, (hbare g hg).2.2⟩

/-- A row of the overview is an entry of the host with what was read of it. -/
theorem mem_guests {row : ProtectedGuest} :
    row ∈ P.guests ↔ ∃ e ∈ P.entries, e.sourceHost = P.host ∧ row = protect (P.withReads (bareGuest e)) := by
  rw [guests_eq, List.mem_map]
  constructor
  · rintro ⟨g, hg, rfl⟩
    obtain ⟨e, he, hsource, rfl⟩ := (mem_filterMatrix P.named).mp hg
    exact ⟨e, he, hsource, rfl⟩
  · rintro ⟨e, he, hsource, rfl⟩
    exact ⟨_, (mem_filterMatrix P.named).mpr ⟨e, he, hsource, rfl⟩, rfl⟩

/-- The guest of an entry has a number. -/
theorem vmid_ne_nil {e : MatrixEntry} (he : e ∈ P.entries) : e.vmid ≠ [] := by
  rcases (mem_buildMatrix P.built).mp he with hlineage | ⟨g, hg, rfl⟩
  · obtain ⟨L, -, k, -, -, ref, href, rfl⟩ := mem_lineageEntries.mp hlineage
    exact vmid_of_guestRef href
  · exact (mem_uncovered.mp hg).2.1

/-- Every guest of the host is judged, and on nothing but what was read. -/
theorem protection_judged (P : ProtectionRun) :
    (∀ g ∈ listedGuests P.G, g.1 = P.host → g.2.vmid ≠ [] → ∃ row ∈ P.guests, row.vmid = g.2.vmid) ∧
      ∀ row ∈ P.guests, row.sourceHost = P.host ∧ P.Judged row := by
  constructor
  · rintro g hg hhost hvmid
    by_cases hcovered : ∃ k, RanksFirst P.F k ∧ DiskOf (g.1, g.2.vmid) k
    · obtain ⟨e, he, hguest⟩ := List.mem_map.mp ((mem_covered P.G P.configured P.autosnap).mpr hcovered)
      refine ⟨_, mem_guests.mpr ⟨e, (mem_buildMatrix P.built).mpr (.inl he), ?_, rfl⟩, ?_⟩
      · rw [← hhost]
        exact congrArg Prod.fst hguest
      · exact congrArg Prod.snd hguest
    · have he := (mem_buildMatrix P.built).mpr (.inr ⟨g, mem_uncovered.mpr ⟨hg, hvmid, hcovered⟩, rfl⟩)
      exact ⟨_, mem_guests.mpr ⟨_, he, hhost, rfl⟩, rfl⟩
  · intro row hrow
    obtain ⟨e, he, hsource, rfl⟩ := mem_guests.mp hrow
    have hentry : e ∈ matrixEntries P.F P.G P.configured P.autosnap := (sortEntries_perm P.built).mem_iff.mp he
    have hne := vmid_ne_nil he
    have hvmid : e.vmid ∈ P.vmids := by
      rw [vmids, vmidsOf, List.mem_map]
      have hlisted := (mem_filterMatrix P.named).mpr ⟨e, he, hsource, rfl⟩
      refine ⟨bareGuest e, List.mem_filter.mpr ⟨hlisted, ?_⟩, rfl⟩
      simpa using ⟨hsource, hne⟩
    obtain ⟨hexamined, hbad⟩ := @backupOf_iff P.R _ _ hvmid hne
    obtain ⟨hnoBackup, hnoReplication⟩ := @exceptionOf_iff P.R P.host e.vmid
    obtain ⟨hwarn, hcrit, haccepted⟩ := protectionState_cases (P.withReads (bareGuest e))
      (configMismatch_iff hentry) (copyCount_pos_iff hentry) hexamined hbad (fun h => h.1) hnoBackup hnoReplication
    exact ⟨hsource, hwarn, hcrit, haccepted⟩

/-- A guest without a snapshot that is left alone on purpose. -/
def leftGuests : GuestLists := Dict.empty.set "pve1" [⟨"100", "web", "qemu"⟩]

def leftTags : Str := "/etc/pve/qemu-server/100.conf\ttags: no-replication;no-backup"

theorem buildMatrix_left : buildMatrix Dict.empty leftGuests [] Dict.empty =
    some [missingEntry ("pve1", ⟨"100", "web", "qemu"⟩)] := by
  decide

def leftAlone : ProtectionRun where
  F := Dict.empty
  G := leftGuests
  configured := []
  autosnap := Dict.empty
  entries := _
  built := buildMatrix_left
  hosts := ["pve1"]
  host := "pve1"
  named := List.cons_ne_nil _ _
  registered := List.mem_singleton.mpr rfl
  R := { silentReads with tags := ⟨true, leftTags, []⟩ }

theorem protection_judged_left : ∃ row ∈ leftAlone.guests, row.protection = .accepted ∧ leftAlone.Judged row := by
  have hlisted : (("pve1".toList, ⟨"100", "web", "qemu"⟩) : Str × InventoryGuest) ∈ listedGuests leftAlone.G := by
    decide
  obtain ⟨row, hrow, -⟩ := (protection_judged leftAlone).1 _ hlisted rfl (by decide)
  have haccepted : ∀ row ∈ leftAlone.guests, row.protection = .accepted := by decide
  exact ⟨row, hrow, haccepted row hrow, ((protection_judged leftAlone).2 row hrow).2⟩

end ProtectionRun

end PveZfsTool.Backups
