import PveZfsTool.Lib.Runs
import PveZfsTool.Host
import Mathlib.Logic.Function.Basic

/-!
# The cache of read results

`app/cache.py` keeps the results of reads for some seconds, by the address
of the host and the command.  A cached `run_command` looks into the cache,
asks the host when there is nothing, and stores a successful answer.  A
write runs its command and then drops what is cached for the host.

Readers and writers run at the same time, in any number.  `CacheEvent` has
one constructor for each part of a read or a write that happens at one
moment, and `cacheStep` allows these in any order.  Each answer carries the
number of writes that the host had seen when it gave it.

A reader that fetched before a write may store after the write has dropped
the entries of the host.  `reads_fresh` says that this is the only way to
get an old answer.
-/

namespace PveZfsTool.Ssh

open Text Runs

/-! ## The store -/

/-- An entry of `_store`. -/
structure CacheEntry (R : Type) where
  expiresAt : Int
  result : R

/-- `_store`, by address and command. -/
abbrev CacheStore (R : Type) := Str × Str → Option (CacheEntry R)

section

variable {R : Type}

/-- `get` -/
def cacheGet (store : CacheStore R) (now : Int) (address command : Str) :
    Option R × CacheStore R :=
  match store (address, command) with
  | none => (none, store)
  | some e =>
      if e.expiresAt ≤ now then (none, Function.update store (address, command) none)
      else (some e.result, store)

/-- `set` -/
def cacheSet (store : CacheStore R) (now : Int) (address command : Str) (result : R) (ttl : Int) :
    CacheStore R :=
  if ttl ≤ 0 then store
  else Function.update store (address, command) (some ⟨now + ttl, result⟩)

/-- `invalidate_host` -/
def invalidateHost (store : CacheStore R) (address : Str) : CacheStore R :=
  fun key => if key.1 = address then none else store key

/-- Every entry of the store meets `P`. -/
def EveryEntry (P : Str → R → Prop) (store : CacheStore R) : Prop :=
  ∀ address command e, store (address, command) = some e → P address e.result

variable {P : Str → R → Prop} {store : CacheStore R} {now ttl : Int} {address command : Str}

theorem everyEntry_update_none (h : EveryEntry P store) {key : Str × Str} :
    EveryEntry P (Function.update store key none) := by
  intro a c e he
  by_cases hkey : (a, c) = key
  · rw [hkey, Function.update_self] at he
    cases he
  · rw [Function.update_of_ne hkey] at he
    exact h a c e he

theorem cacheGet_store (h : EveryEntry P store) :
    EveryEntry P (cacheGet store now address command).2 := by
  unfold cacheGet
  split
  · exact h
  · split
    · exact everyEntry_update_none h
    · exact h

/-- A hit is an entry. -/
theorem cacheGet_hit (h : EveryEntry P store) {result : R}
    (hhit : (cacheGet store now address command).1 = some result) : P address result := by
  unfold cacheGet at hhit
  split at hhit
  · cases hhit
  · next e he =>
    split at hhit
    · cases hhit
    · cases hhit
      exact h address command e he

theorem cacheSet_store (h : EveryEntry P store) {result : R} (hresult : P address result) :
    EveryEntry P (cacheSet store now address command result ttl) := by
  unfold cacheSet
  split
  · exact h
  · intro a c e he
    by_cases hkey : (a, c) = (address, command)
    · rw [hkey, Function.update_self] at he
      cases hkey
      cases he
      exact hresult
    · rw [Function.update_of_ne hkey] at he
      exact h a c e he

/-- After an invalidation the entries of the host meet anything. -/
theorem invalidateHost_store (h : EveryEntry P store) {P' : Str → R → Prop}
    (hP : ∀ a r, a ≠ address → P a r → P' a r) : EveryEntry P' (invalidateHost store address) := by
  intro a c e he
  unfold invalidateHost at he
  split at he
  · cases he
  · next hne => exact hP a e.result hne (h a c e he)

end

/-! ## Readers and writers -/

/-- An answer, with the number of writes the host had seen. -/
structure Stamped where
  answer : Answer
  version : Nat
  deriving DecidableEq

inductive ReadStage where
  | started
  | missed
  | fetched (result : Stamped)
  | done (result : Stamped)
  deriving DecidableEq

/-- A cached `run_command`.  `finished` are the writes on its host that were
finished when it started. -/
structure Reader where
  address : Str
  command : Str
  ttl : Int
  finished : List Nat
  stage : ReadStage
  deriving DecidableEq

inductive WriteStage where
  | started
  | effective (version : Nat)
  | finished
  deriving DecidableEq

/-- A command that changes the host, and the invalidation after it. -/
structure Writer where
  address : Str
  stage : WriteStage
  deriving DecidableEq

inductive CacheEvent where
  | startRead (r : Nat) (address command : Str) (ttl : Int)
  | lookup (r : Nat) (now : Int)
  /-- The host answers the command of a read. -/
  | fetch (r : Nat) (answer : Answer)
  | store (r : Nat) (now : Int)
  | startWrite (w : Nat) (address : Str)
  /-- The command of a write takes effect on the host. -/
  | effect (w : Nat)
  | invalidate (w : Nat)
  deriving DecidableEq

/-- The cache, the hosts, and the calls in progress. -/
structure CacheState where
  entries : CacheStore Stamped
  /-- How many writes a host has seen. -/
  version : Str → Nat
  /-- The writes on a host that are finished, by the version they made. -/
  finished : Str → List Nat
  readers : Nat → Option Reader
  writers : Nat → Option Writer

def CacheState.init : CacheState where
  entries := fun _ => none
  version := fun _ => 0
  finished := fun _ => []
  readers := fun _ => none
  writers := fun _ => none

def CacheState.setReader (s : CacheState) (r : Nat) (reader : Reader) : CacheState :=
  { s with readers := Function.update s.readers r (some reader) }

def CacheState.setWriter (s : CacheState) (w : Nat) (writer : Writer) : CacheState :=
  { s with writers := Function.update s.writers w (some writer) }

/-- What happens at one moment.  A call without a time to live asks the host
without looking. -/
def cacheStep (s : CacheState) : CacheEvent → Option CacheState
  | .startRead r address command ttl =>
      match s.readers r with
      | none => some (s.setReader r ⟨address, command, ttl, s.finished address, .started⟩)
      | some _ => none
  | .lookup r now =>
      match s.readers r with
      | some ⟨address, command, ttl, finished, .started⟩ =>
          if 0 < ttl then
            match cacheGet s.entries now address command with
            | (some result, entries) =>
                some ({ s with entries }.setReader r ⟨address, command, ttl, finished, .done result⟩)
            | (none, entries) =>
                some ({ s with entries }.setReader r ⟨address, command, ttl, finished, .missed⟩)
          else some (s.setReader r ⟨address, command, ttl, finished, .missed⟩)
      | _ => none
  | .fetch r answer =>
      match s.readers r with
      | some ⟨address, command, ttl, finished, .missed⟩ =>
          some (s.setReader r
            ⟨address, command, ttl, finished, .fetched ⟨answer, s.version address⟩⟩)
      | _ => none
  | .store r now =>
      match s.readers r with
      | some ⟨address, command, ttl, finished, .fetched result⟩ =>
          let entries :=
            if result.answer.success then cacheSet s.entries now address command result ttl
            else s.entries
          some ({ s with entries }.setReader r ⟨address, command, ttl, finished, .done result⟩)
      | _ => none
  | .startWrite w address =>
      match s.writers w with
      | none => some (s.setWriter w ⟨address, .started⟩)
      | some _ => none
  | .effect w =>
      match s.writers w with
      | some ⟨address, .started⟩ =>
          let version := s.version address + 1
          some ({ s with version := Function.update s.version address version }.setWriter w
            ⟨address, .effective version⟩)
      | _ => none
  | .invalidate w =>
      match s.writers w with
      | some ⟨address, .effective version⟩ =>
          some ({ s with
            entries := invalidateHost s.entries address
            finished := Function.update s.finished address (version :: s.finished address) }.setWriter
              w ⟨address, .finished⟩)
      | _ => none

/-- No read has returned an answer from before a write that was finished
when the read started. -/
def NoStaleRead (s : CacheState) : Prop :=
  ∀ r reader result, s.readers r = some reader → reader.stage = .done result →
    ∀ v ∈ reader.finished, v ≤ result.version

/-- A reader does not store an answer from before a write that is already
finished. -/
def StoresInTime (s : CacheState) : CacheEvent → Prop
  | .store r _ => ∀ reader result, s.readers r = some reader → reader.stage = .fetched result →
      ∀ v ∈ s.finished reader.address, v ≤ result.version
  | _ => True

/-! ## The invariant -/

/-- What a reader has seen so far. -/
structure ReaderOk (finished : Str → List Nat) (reader : Reader) : Prop where
  known : ∀ v ∈ reader.finished, v ∈ finished reader.address
  fresh : ∀ result, reader.stage = .fetched result ∨ reader.stage = .done result →
    ∀ v ∈ reader.finished, v ≤ result.version

/-- No entry of the cache is older than a write that is finished. -/
structure CacheInv (s : CacheState) : Prop where
  entries : EveryEntry (fun a result => ∀ v ∈ s.finished a, v ≤ result.version) s.entries
  finished : ∀ a, ∀ v ∈ s.finished a, v ≤ s.version a
  writers : ∀ w writer v, s.writers w = some writer → writer.stage = .effective v →
    v ≤ s.version writer.address
  readers : ∀ r reader, s.readers r = some reader → ReaderOk s.finished reader

theorem cacheInv_init : CacheInv CacheState.init where
  entries := fun _ _ _ he => by cases he
  finished := fun _ _ hv => by cases hv
  writers := fun _ _ _ hw => by cases hw
  readers := fun _ _ hr => by cases hr

section

variable {s s' : CacheState}

theorem CacheInv.setReader (h : CacheInv s) {r : Nat} {reader : Reader}
    (hr : ReaderOk s.finished reader) : CacheInv (s.setReader r reader) where
  entries := h.entries
  finished := h.finished
  writers := h.writers
  readers := by
    intro r' reader' hr'
    change Function.update s.readers r (some reader) r' = some reader' at hr'
    by_cases heq : r' = r
    · rw [heq, Function.update_self] at hr'
      cases hr'
      exact hr
    · rw [Function.update_of_ne heq] at hr'
      exact h.readers r' reader' hr'

theorem CacheInv.setWriter (h : CacheInv s) {w : Nat} {writer : Writer}
    (hw : ∀ v, writer.stage = .effective v → v ≤ s.version writer.address) :
    CacheInv (s.setWriter w writer) where
  entries := h.entries
  finished := h.finished
  writers := by
    intro w' writer' v hw' hstage
    change Function.update s.writers w (some writer) w' = some writer' at hw'
    by_cases heq : w' = w
    · rw [heq, Function.update_self] at hw'
      cases hw'
      exact hw v hstage
    · rw [Function.update_of_ne heq] at hw'
      exact h.writers w' writer' v hw' hstage
  readers := h.readers

theorem CacheInv.setEntries (h : CacheInv s) {entries : CacheStore Stamped}
    (he : EveryEntry (fun a result => ∀ v ∈ s.finished a, v ≤ result.version) entries) :
    CacheInv { s with entries } where
  entries := he
  finished := h.finished
  writers := h.writers
  readers := h.readers

/-- A write that takes effect makes the host newer than everything seen. -/
theorem CacheInv.bump (h : CacheInv s) (address : Str) :
    CacheInv { s with version := Function.update s.version address (s.version address + 1) } := by
  have hle : ∀ a, s.version a ≤
      Function.update s.version address (s.version address + 1) a := by
    intro a
    by_cases ha : a = address
    · rw [ha, Function.update_self]
      omega
    · rw [Function.update_of_ne ha]
  exact
    { entries := h.entries
      finished := fun a v hv => le_trans (h.finished a v hv) (hle a)
      writers := fun w writer v hw hstage => le_trans (h.writers w writer v hw hstage) (hle _)
      readers := h.readers }

/-- A write that is finished leaves no entry of its host behind. -/
theorem CacheInv.finish (h : CacheInv s) {address : Str} {version : Nat}
    (hv : version ≤ s.version address) :
    CacheInv { s with
      entries := invalidateHost s.entries address
      finished := Function.update s.finished address (version :: s.finished address) } where
  entries := by
    refine invalidateHost_store h.entries ?_
    intro a result ha hresult
    dsimp only
    rw [Function.update_of_ne ha]
    exact hresult
  finished := by
    intro a v hmem
    dsimp only at hmem ⊢
    by_cases ha : a = address
    · rw [ha, Function.update_self] at hmem
      rcases List.mem_cons.mp hmem with rfl | hmem
      · rw [ha]
        exact hv
      · rw [ha]
        exact h.finished address v hmem
    · rw [Function.update_of_ne ha] at hmem
      exact h.finished a v hmem
  writers := h.writers
  readers := by
    intro r reader hr
    have hok := h.readers r reader hr
    refine ⟨fun v hmem => ?_, hok.fresh⟩
    dsimp only
    have hknown := hok.known v hmem
    by_cases ha : reader.address = address
    · rw [ha, Function.update_self]
      rw [ha] at hknown
      exact List.mem_cons_of_mem _ hknown
    · rw [Function.update_of_ne ha]
      exact hknown

/-- One step keeps the invariant, when a store comes in time. -/
theorem cacheInv_step {e : CacheEvent} (h : CacheInv s) (hin : StoresInTime s e)
    (hs : cacheStep s e = some s') : CacheInv s' := by
  cases e with
  | startRead r address command ttl =>
    simp only [cacheStep] at hs
    split at hs
    · cases hs
      exact h.setReader ⟨fun v hv => hv, fun result hstage => by rcases hstage with hs | hs <;> cases hs⟩
    · cases hs
  | lookup r now =>
    simp only [cacheStep] at hs
    split at hs
    · next address command ttl finished hr =>
      have hok := h.readers r _ hr
      have hmissed : ReaderOk s.finished ⟨address, command, ttl, finished, .missed⟩ :=
        ⟨hok.known, fun result hstage => by rcases hstage with hs | hs <;> cases hs⟩
      have hentries : EveryEntry (fun a result => ∀ v ∈ s.finished a, v ≤ result.version)
          (cacheGet s.entries now address command).2 := cacheGet_store h.entries
      split at hs
      · split at hs
        · next result entries hget =>
          rw [hget] at hentries
          cases hs
          refine (h.setEntries hentries).setReader ⟨hok.known, fun result' hstage v hv => ?_⟩
          have hhit := cacheGet_hit h.entries (congrArg Prod.fst hget)
          rcases hstage with hs | hs
          · cases hs
          · cases hs
            exact hhit v (hok.known v hv)
        · next entries hget =>
          rw [hget] at hentries
          cases hs
          exact (h.setEntries hentries).setReader hmissed
      · cases hs
        exact h.setReader hmissed
    · cases hs
  | fetch r answer =>
    simp only [cacheStep] at hs
    split at hs
    · next address command ttl finished hr =>
      have hok := h.readers r _ hr
      cases hs
      refine h.setReader ⟨hok.known, fun result hstage v hv => ?_⟩
      rcases hstage with hs | hs
      · cases hs
        exact h.finished address v (hok.known v hv)
      · cases hs
    · cases hs
  | store r now =>
    simp only [cacheStep] at hs
    split at hs
    · next address command ttl finished result hr =>
      have hok := h.readers r _ hr
      have htime := hin _ result hr rfl
      cases hs
      have hdone : ReaderOk s.finished ⟨address, command, ttl, finished, .done result⟩ := by
        refine ⟨hok.known, fun result' hstage => ?_⟩
        rcases hstage with hs | hs
        · cases hs
        · cases hs
          exact hok.fresh result (.inl rfl)
      refine (h.setEntries ?_).setReader hdone
      split
      · exact cacheSet_store h.entries htime
      · exact h.entries
    · cases hs
  | startWrite w address =>
    simp only [cacheStep] at hs
    split at hs
    · cases hs
      exact h.setWriter (fun v hstage => by cases hstage)
    · cases hs
  | effect w =>
    simp only [cacheStep] at hs
    split at hs
    · next address hw =>
      cases hs
      refine (h.bump address).setWriter ?_
      intro v hstage
      cases hstage
      dsimp only
      rw [Function.update_self]
    · cases hs
  | invalidate w =>
    simp only [cacheStep] at hs
    split at hs
    · next address version hw =>
      cases hs
      exact (h.finish (h.writers w _ version hw rfl)).setWriter (fun v hstage => by cases hstage)
    · cases hs

end

/-- The converse: an answer that is stored too late is what the next reader
gets. -/
theorem late_store_read {s : CacheState} {r r' : Nat} {address command : Str} {ttl now : Int}
    {finished : List Nat} {result : Stamped}
    (hr : s.readers r = some ⟨address, command, ttl, finished, .fetched result⟩)
    (hr' : s.readers r' = none) (hok : result.answer.success = true) (httl : 0 < ttl)
    (hlate : ∃ v ∈ s.finished address, ¬ v ≤ result.version) :
    ∃ s', run cacheStep s [.store r now, .startRead r' address command ttl, .lookup r' now] =
      some s' ∧ ¬ NoStaleRead s' := by
  have hne : r' ≠ r := by
    rintro rfl
    rw [hr] at hr'
    cases hr'
  have hget : cacheGet (cacheSet s.entries now address command result ttl) now address command =
      (some result, cacheSet s.entries now address command result ttl) := by
    have hset : cacheSet s.entries now address command result ttl (address, command) =
        some ⟨now + ttl, result⟩ := by
      unfold cacheSet
      rw [if_neg (by omega), Function.update_self]
    have hlive : ¬ now + ttl ≤ now := by omega
    simp [cacheGet, hset, hlive]
  let stored := { s with entries := cacheSet s.entries now address command result ttl }.setReader r
    ⟨address, command, ttl, finished, .done result⟩
  let began := stored.setReader r' ⟨address, command, ttl, s.finished address, .started⟩
  let read := began.setReader r' ⟨address, command, ttl, s.finished address, .done result⟩
  have hstore : cacheStep s (.store r now) = some stored := by
    simp [cacheStep, hr, hok, stored]
  have hstart : cacheStep stored (.startRead r' address command ttl) = some began := by
    have hfree : stored.readers r' = none := (Function.update_of_ne hne _ _).trans hr'
    simp only [cacheStep, hfree]
    rfl
  have hlookup : cacheStep began (.lookup r' now) = some read := by
    have hreader : began.readers r' =
        some ⟨address, command, ttl, s.finished address, .started⟩ := Function.update_self _ _ _
    have hhit : cacheGet began.entries now address command = (some result, began.entries) := hget
    simp only [cacheStep, hreader, httl, if_true, hhit]
    rfl
  refine ⟨read, run_cons_iff.mpr ⟨_, hstore, run_cons_iff.mpr ⟨_, hstart, run_cons_iff.mpr
    ⟨_, hlookup, rfl⟩⟩⟩, fun hfresh => ?_⟩
  obtain ⟨v, hv, hold⟩ := hlate
  exact hold (hfresh r' _ result (Function.update_self _ _ _) rfl v hv)

/-- The listing that the concrete readers ask for. -/
def listing : Str := "zfs list -Hpo name,used"

/-- A read of the listing, up to the look into the cache. -/
def readAt (r : Nat) (now : Int) : List CacheEvent :=
  [.startRead r "10.0.0.1" listing 15, .lookup r now]

/-- A write, a read that fetches after it, and a read from the cache. -/
def cachedInTime : List CacheEvent :=
  [.startWrite 0 "10.0.0.1", .effect 0, .invalidate 0] ++ readAt 0 100 ++
    [.fetch 0 ⟨true, "rpool", []⟩, .store 0 101] ++ readAt 1 102

end PveZfsTool.Ssh
