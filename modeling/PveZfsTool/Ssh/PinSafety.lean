import PveZfsTool.Ssh.KnownHosts
import PveZfsTool.Lib.Dict

/-!
# Pins stay, and nothing else is stored

`PinStepOk` says what a step may do to the pins: the pins of registered hosts
stay unless the host is added again, a connection to a registered host with a
pin is strict, and an ad-hoc connection adds no key.

* `pinStep_ok`: one step does that, when it meets `PinStepFits`.
* `pins_kept`: so does every step of a run of such steps.
* `pins_broken`: runs without that, in which an ad-hoc connection stores a key
  and in which a pin is lost.
-/

namespace PveZfsTool.Ssh

open Text Runs

/-- The name that the key of a host is stored under. -/
def HostRecord.pinName (h : HostRecord) : Str := knownHostsName h.address h.port

/-- A connection that is ad hoc: it has a password, and its address was not
registered when it started. -/
def PinStage.isAdhoc {T : Type} : PinStage T → Bool
  | .stale | .forgetting .. => true
  | .ready registered | .opened registered .. => !registered
  | _ => false

/-- The call that takes the step. -/
def PinEvent.thread : PinEvent → Nat
  | .call t _ | .check t | .load t _ | .save t | .connect t _ _ | .register t => t

section

variable {T : Type} (H : KeyTables T)

/-- The keys that the known-hosts file has for a name. -/
def pinnedKeys (s : PinState T) (name : Str) : List HostKey :=
  match s.known with
  | some f => H.lookup f name
  | none => []

/-- `add_host` stores the key of a host with this name. -/
def StoresFor (s : PinState T) (e : PinEvent) (name : Str) : Prop :=
  ∃ t entry key file table, e = .save t ∧
    s.calls t = some (.addHost entry (some key), .read file table) ∧ name = entry.pinName

/-- What a step may do to the pins. -/
structure PinStepOk (s : PinState T) (e : PinEvent) (s' : PinState T) : Prop where
  kept : ∀ h ∈ s.hosts, ¬ StoresFor s e h.pinName →
    ∀ k ∈ pinnedKeys H s h.pinName, k ∈ pinnedKeys H s' h.pinName
  strict : ∀ t offered authenticated address port password registered file table,
    e = .connect t offered authenticated →
    s.calls t = some (.connect address port password, .opened registered file table) →
    isRegistered s.hosts address = true →
    pinnedKeys H s (knownHostsName address port) ≠ [] →
    hostKeyPolicy registered (H.lookup table (knownHostsName address port) ≠ []) password = .reject
  adhoc : ∀ address port stage, s.calls e.thread = some (.connect address port true, stage) →
    stage.isAdhoc = true → ∀ n, ∀ k ∈ pinnedKeys H s' n, k ∈ pinnedKeys H s n

/-- The conditions on a step.  A call that writes the known-hosts file, or that
connects to a host it has no key for, has read the file as it still is.  The
keys that an ad-hoc connection forgets are those of no registered host, and it
connects while its address is not registered and while there is no file to
store a key in. -/
def PinStepFits (s : PinState T) : PinEvent → Prop
  | .save t =>
      match s.calls t with
      | some (.addHost .., .read file table) => s.known = file ∧ table = openTable H file true
      | some (.connect address .., .forgetting file _) =>
          s.known = file ∧ ∀ h ∈ s.hosts, bareName h.pinName ≠ address
      | some (.connect .., .trusted file _) => s.known = file
      | _ => True
  | .connect t _ _ =>
      match s.calls t with
      | some (.connect address port password, .opened registered file table) =>
          (H.lookup table (knownHostsName address port) = [] →
            s.known = file ∧ table = openTable H file true) ∧
          (password = true → registered = false → isRegistered s.hosts address = false ∧
            (file = none ∨ H.lookup table (knownHostsName address port) ≠ []))
      | _ => True
  | _ => True

instance [DecidableEq T] (s : PinState T) (e : PinEvent) : Decidable (PinStepFits H s e) := by
  unfold PinStepFits
  repeat' split
  all_goals infer_instance

/-- What a call has made of the file that it read. -/
def StageOk : PinCall → PinStage T → Prop
  | .connect address _ _, .forgetting file table =>
      ∃ f, file = some f ∧ table = forgetNames H address (openTable H (some f) true)
  | .connect .., .trusted file table => ∀ f, file = some f → table = f
  | _, _ => True

/-- Every call is as `StageOk` says. -/
def PinInv (s : PinState T) : Prop := ∀ t c stage, s.calls t = some (c, stage) → StageOk H c stage

end

section

variable {T : Type} {H : KeyTables T} {s s' : PinState T}

/-! ## Tables -/

theorem mem_openTable (hH : H.Lawful) {f : T} {n : Str} {k : HostKey} :
    k ∈ H.lookup (openTable H (some f) true) n ↔ k ∈ H.lookup f n := by
  show k ∈ H.lookup (H.load H.empty f) n ↔ _
  rw [hH.mem_load, hH.lookup_empty]
  simp

theorem mem_foldl_delete (hH : H.Lawful) {names : List Str} {t : T} {n : Str} {k : HostKey}
    (h : k ∈ H.lookup (names.foldl H.delete t) n) : k ∈ H.lookup t n := by
  induction names generalizing t with
  | nil => exact h
  | cons m names ih => exact hH.mem_delete t m n k (ih h)

theorem mem_foldl_delete_of_ne (hH : H.Lawful) {names : List Str} {t : T} {n : Str} {k : HostKey}
    (hn : n ∉ names) (h : k ∈ H.lookup t n) : k ∈ H.lookup (names.foldl H.delete t) n := by
  induction names generalizing t with
  | nil => exact h
  | cons m names ih =>
    rw [List.mem_cons, not_or] at hn
    exact ih hn.2 (hH.mem_delete_of_ne t m n k hn.1 h)

/-- A name of another address is not forgotten. -/
theorem mem_forgetNames (hH : H.Lawful) {address : Str} {t : T} {n : Str} {k : HostKey}
    (hn : bareName n ≠ address) (h : k ∈ H.lookup t n) : k ∈ H.lookup (forgetNames H address t) n := by
  apply mem_foldl_delete_of_ne hH ?_ h
  intro hmem
  exact hn (of_decide_eq_true (List.mem_filter.mp hmem).2)

theorem pinnedKeys_of_known {f : T} (h : s.known = some f) (n : Str) :
    pinnedKeys H s n = H.lookup f n := by
  rw [pinnedKeys, h]

/-! ## Steps that leave the file alone -/

theorem PinStepOk.of_known {e : PinEvent} (h : s'.known = s.known)
    (hconnect : ∀ t offered authenticated, e ≠ .connect t offered authenticated) :
    PinStepOk H s e s' where
  kept host _ _ k hk := by
    rw [pinnedKeys, h]
    exact hk
  strict t offered authenticated _ _ _ _ _ _ he := absurd he (hconnect t offered authenticated)
  adhoc _ _ _ _ _ n k hk := by
    rw [pinnedKeys, h] at hk
    exact hk

theorem PinInv.move (h : PinInv H s) {t : Nat} {c : PinCall} {stage : PinStage T}
    (hstage : StageOk H c stage) {hosts : HostsFile} {known : Option T} :
    PinInv H ({ s with hosts := hosts, known := known }.move t c stage) := by
  intro t' c' stage' hcall
  by_cases ht : t' = t
  · have hself : some (c, stage) = some (c', stage') := by
      rw [← hcall, ht]
      exact (Function.update_self t (some (c, stage)) s.calls).symm
    obtain ⟨rfl, rfl⟩ := Prod.mk.inj (Option.some.inj hself)
    exact hstage
  · refine h t' c' stage' ?_
    rw [← hcall]
    exact (Function.update_of_ne ht (some (c, stage)) s.calls).symm

theorem ok_call {t : Nat} {c : PinCall} (h : PinInv H s) (hs : pinStep H s (.call t c) = some s') :
    PinInv H s' ∧ PinStepOk H s (.call t c) s' := by
  unfold pinStep at hs
  dsimp only at hs
  split at hs
  · cases hs
    exact ⟨h.move (by cases c <;> trivial), .of_known rfl (by intros; intro he; cases he)⟩
  · cases hs

theorem ok_check {t : Nat} (h : PinInv H s) (hs : pinStep H s (.check t) = some s') :
    PinInv H s' ∧ PinStepOk H s (.check t) s' := by
  unfold pinStep at hs
  dsimp only at hs
  split at hs
  · cases hs
    exact ⟨h.move (by trivial), .of_known rfl (by intros; intro he; cases he)⟩
  · cases hs
    exact ⟨h.move (by trivial), .of_known rfl (by intros; intro he; cases he)⟩
  · next address port password _ =>
    cases hs
    refine ⟨h.move ?_, .of_known rfl (by intros; intro he; cases he)⟩
    by_cases hadhoc : (password && !isRegistered s.hosts address) = true
    · rw [if_pos hadhoc]
      exact trivial
    · rw [if_neg hadhoc]
      exact trivial
  · cases hs

theorem ok_register {t : Nat} (h : PinInv H s) (hs : pinStep H s (.register t) = some s') :
    PinInv H s' ∧ PinStepOk H s (.register t) s' := by
  unfold pinStep at hs
  dsimp only at hs
  split at hs
  · cases hs
    exact ⟨h.move (by trivial), .of_known rfl (by intros; intro he; cases he)⟩
  · cases hs

theorem ok_load {t : Nat} {readable : Bool} (h : PinInv H s)
    (hs : pinStep H s (.load t readable) = some s') :
    PinInv H s' ∧ PinStepOk H s (.load t readable) s' := by
  unfold pinStep at hs
  dsimp only at hs
  split at hs
  · cases hs
    exact ⟨h.move (by trivial), .of_known rfl (by intros; intro he; cases he)⟩
  · next address port password _ =>
    cases hs
    refine ⟨h.move ?_, .of_known rfl (by intros; intro he; cases he)⟩
    split
    · next hforget =>
      -- Names were dropped, so there is a file, and it was readable.
      rw [Bool.and_eq_true, Bool.and_eq_true] at hforget
      obtain ⟨f, hf⟩ := Option.isSome_iff_exists.mp hforget.1.1
      refine ⟨f, hf, ?_⟩
      rw [hf, hforget.1.2]
    · exact trivial
  · cases hs
    exact ⟨h.move (by trivial), .of_known rfl (by intros; intro he; cases he)⟩
  · cases hs

/-! ## Steps that write the file -/

/-- The new key is stored next to those that the file has. -/
theorem ok_save_added (hH : H.Lawful) {t : Nat} {entry : HostRecord} {key : HostKey}
    {file : Option T} {table : T} (h : PinInv H s) (hin : PinStepFits H s (.save t))
    (hcall : s.calls t = some (.addHost entry (some key), .read file table))
    (hs : pinStep H s (.save t) = some s') : PinInv H s' ∧ PinStepOk H s (.save t) s' := by
  simp only [PinStepFits, hcall] at hin
  simp only [pinStep, hcall] at hs
  cases hs
  obtain ⟨rfl, htable⟩ := hin
  refine ⟨h.move (by trivial), ?_, ?_, ?_⟩
  · intro host _ hnot k hk
    have hne : host.pinName ≠ entry.pinName := by
      intro heq
      exact hnot ⟨t, entry, key, _, table, rfl, hcall, heq⟩
    cases hknown : s.known with
    | none =>
      rw [pinnedKeys, hknown] at hk
      cases hk
    | some f =>
      rw [pinnedKeys_of_known hknown] at hk
      rw [hknown] at htable
      show k ∈ H.lookup (H.add table entry.pinName key) host.pinName
      rw [hH.mem_add, htable, mem_openTable hH]
      exact .inr ⟨hk, fun heq => hne heq.1⟩
  · intro _ _ _ _ _ _ _ _ _ he
    cases he
  · intro _ _ _ hadhoc
    rw [PinEvent.thread, hcall] at hadhoc
    cases hadhoc

theorem ok_save_forgotten (hH : H.Lawful) {t : Nat} {address : Str} {port : Int} {password : Bool}
    {file : Option T} {table : T} (h : PinInv H s) (hin : PinStepFits H s (.save t))
    (hcall : s.calls t = some (.connect address port password, .forgetting file table))
    (hs : pinStep H s (.save t) = some s') : PinInv H s' ∧ PinStepOk H s (.save t) s' := by
  simp only [PinStepFits, hcall] at hin
  simp only [pinStep, hcall] at hs
  cases hs
  obtain ⟨hknown, hnames⟩ := hin
  obtain ⟨f, hfile, htable⟩ := h t _ _ hcall
  rw [hfile] at hknown
  refine ⟨h.move (by trivial), ?_, ?_, ?_⟩
  · intro host hhost _ k hk
    rw [pinnedKeys_of_known hknown] at hk
    show k ∈ H.lookup table host.pinName
    rw [htable]
    exact mem_forgetNames hH (hnames host hhost) ((mem_openTable hH).mpr hk)
  · intro _ _ _ _ _ _ _ _ _ he
    cases he
  · intro _ _ _ _ _ n k hk
    have hk : k ∈ H.lookup table n := hk
    rw [htable] at hk
    rw [pinnedKeys_of_known hknown]
    exact (mem_openTable hH).mp (mem_foldl_delete hH hk)

theorem ok_save_trusted {t : Nat} {address : Str} {port : Int} {password : Bool}
    {file : Option T} {table : T} (h : PinInv H s) (hin : PinStepFits H s (.save t))
    (hcall : s.calls t = some (.connect address port password, .trusted file table))
    (hs : pinStep H s (.save t) = some s') : PinInv H s' ∧ PinStepOk H s (.save t) s' := by
  simp only [PinStepFits, hcall] at hin
  simp only [pinStep, hcall] at hs
  cases hs
  refine ⟨h.move (by trivial), ?_, ?_, ?_⟩
  · intro host _ _ k hk
    cases hknown : s.known with
    | none =>
      rw [pinnedKeys, hknown] at hk
      cases hk
    | some f =>
      rw [pinnedKeys_of_known hknown] at hk
      show k ∈ H.lookup table host.pinName
      rw [h t _ _ hcall f (hin ▸ hknown)]
      exact hk
  · intro _ _ _ _ _ _ _ _ _ he
    cases he
  · intro _ _ stage hadhoc hstage
    rw [PinEvent.thread, hcall] at hadhoc
    cases hadhoc
    cases hstage

theorem ok_save (hH : H.Lawful) {t : Nat} (h : PinInv H s) (hin : PinStepFits H s (.save t))
    (hs : pinStep H s (.save t) = some s') : PinInv H s' ∧ PinStepOk H s (.save t) s' := by
  have hcases := hs
  unfold pinStep at hcases
  dsimp only at hcases
  split at hcases
  · next hcall => exact ok_save_added hH h hin hcall hs
  · next hcall => exact ok_save_forgotten hH h hin hcall hs
  · next hcall => exact ok_save_trusted h hin hcall hs
  · cases hcases

/-- Adding a key keeps what the file has. -/
theorem mem_autoAdd (hH : H.Lawful) {file : Option T} {table : T} {name : Str} {offered : HostKey}
    {n : Str} {k : HostKey} (hk : k ∈ pinnedKeys H s n) :
    k ∈ pinnedKeys H { s with known := (autoAdd H s.known file table name offered).1 } n := by
  cases file with
  | none => exact hk
  | some f' =>
    cases hknown : s.known with
    | none =>
      rw [pinnedKeys, hknown] at hk
      cases hk
    | some f =>
      rw [pinnedKeys_of_known hknown] at hk
      simp only [pinnedKeys, autoAdd]
      rw [hH.mem_load]
      exact .inl hk

/-- The table of a connection is what it has saved. -/
theorem autoAdd_seen {known file : Option T} {table f : T} {name : Str} {offered : HostKey}
    (h : (if file.isSome then (autoAdd H known file table name offered).1 else none) = some f) :
    (autoAdd H known file table name offered).2 = f := by
  cases file with
  | none => cases h
  | some f' =>
    cases h
    rfl

theorem connectStep_unknown (s : PinState T) (t : Nat) (c : PinCall) {name : Str}
    (password registered : Bool) (file : Option T) {table : T} (offered : HostKey)
    (authenticated : Bool) (hnew : H.lookup table name = []) :
    ∃ stage, connectStep H s t c name password registered file table offered authenticated =
        { s with known := (autoAdd H s.known file table name offered).1 }.move t c stage ∧
      (stage = .finished ∨ ∃ seen, (∀ f, seen = some f →
        (autoAdd H s.known file table name offered).2 = f) ∧
        stage = .trusted seen (autoAdd H s.known file table name offered).2) := by
  unfold connectStep
  rw [if_neg (not_not.mpr hnew)]
  refine ⟨_, rfl, ?_⟩
  split
  · exact .inr ⟨_, fun f => autoAdd_seen, rfl⟩
  · exact .inl rfl

theorem ok_connect (hH : H.Lawful) {t : Nat} {offered : HostKey} {authenticated : Bool}
    (h : PinInv H s) (hin : PinStepFits H s (.connect t offered authenticated))
    (hs : pinStep H s (.connect t offered authenticated) = some s') :
    PinInv H s' ∧ PinStepOk H s (.connect t offered authenticated) s' := by
  have hcases := hs
  unfold pinStep at hcases
  dsimp only at hcases
  split at hcases
  · next address port password registered file table hcall =>
    simp only [PinStepFits, hcall] at hin
    obtain ⟨hread, hadhoc⟩ := hin
    have hstrict : ∀ t' offered' authenticated' address' port' password' registered' file' table',
        PinEvent.connect t offered authenticated = .connect t' offered' authenticated' →
        s.calls t' = some (.connect address' port' password', .opened registered' file' table') →
        isRegistered s.hosts address' = true →
        pinnedKeys H s (knownHostsName address' port') ≠ [] →
        hostKeyPolicy registered' (H.lookup table' (knownHostsName address' port') ≠ []) password' =
          .reject := by
      intro t' offered' authenticated' address' port' password' registered' file' table' he hcall'
        hreg hpin
      cases he
      rw [hcall] at hcall'
      cases hcall'
      have hknown : H.lookup table (knownHostsName address port) ≠ [] := by
        intro hnew
        obtain ⟨hfile, htable⟩ := hread hnew
        apply hpin
        rw [List.eq_nil_iff_forall_not_mem] at hnew ⊢
        intro k hk
        cases hf : s.known with
        | none =>
          rw [pinnedKeys, hf] at hk
          cases hk
        | some f =>
          rw [pinnedKeys_of_known hf] at hk
          rw [← hfile, hf] at htable
          exact hnew k (htable ▸ (mem_openTable hH).mpr hk)
      have hpolicy : (password && !registered) = false := by
        by_contra hnot
        rw [Bool.not_eq_false, Bool.and_eq_true, Bool.not_eq_true'] at hnot
        rw [(hadhoc hnot.1 hnot.2).1] at hreg
        cases hreg
      rw [hostKeyPolicy, hpolicy, decide_eq_true hknown]
      rfl
    have hquiet : ∀ address' port' stage',
        s.calls t = some (.connect address' port' true, stage') → stage'.isAdhoc = true →
          file = none ∨ H.lookup table (knownHostsName address port) ≠ [] := by
      intro address' port' stage' hcall' hstage
      rw [hcall] at hcall'
      cases hcall'
      exact (hadhoc rfl ((Bool.not_eq_true' registered).mp hstage)).2
    by_cases hnew : H.lookup table (knownHostsName address port) = []
    · obtain ⟨stage, hstep, hstage⟩ := connectStep_unknown s t
        (.connect address port password) password registered file offered authenticated hnew
      rw [hstep] at hcases
      cases hcases
      refine ⟨h.move ?_, ?_, hstrict, ?_⟩
      · rcases hstage with rfl | ⟨seen, hseen, rfl⟩
        · trivial
        · exact hseen
      · intro host _ _ k hk
        exact mem_autoAdd hH hk
      · intro address' port' stage' hcall' hadhoc' n k hk
        rcases hquiet address' port' stage' hcall' hadhoc' with rfl | hknown
        · exact hk
        · exact absurd hnew hknown
    · have hstep : connectStep H s t (.connect address port password) (knownHostsName address port)
          password registered file table offered authenticated =
            s.move t (.connect address port password) .finished := by
        unfold connectStep
        rw [if_pos hnew]
      rw [hstep] at hcases
      cases hcases
      exact ⟨h.move (by trivial), fun _ _ _ _ hk => hk, hstrict, fun _ _ _ _ _ _ _ hk => hk⟩
  · cases hcases

/-! ## Runs -/

theorem pinStep_ok (hH : H.Lawful) {e : PinEvent} (h : PinInv H s) (hin : PinStepFits H s e)
    (hs : pinStep H s e = some s') : PinInv H s' ∧ PinStepOk H s e s' := by
  cases e with
  | call t c => exact ok_call h hs
  | check t => exact ok_check h hs
  | load t readable => exact ok_load h hs
  | save t => exact ok_save hH h hin hs
  | connect t offered authenticated => exact ok_connect hH h hin hs
  | register t => exact ok_register h hs

end

/-! ## Tables as dictionaries -/

/-- A table with one key for each name and type. -/
def dictTables : KeyTables (Dict (Str × Str) Str) where
  empty := Dict.empty
  lookup t n := t.entries.filterMap (fun e => if e.1.1 = n then some ⟨e.1.2, e.2⟩ else none)
  names t := (t.keys.map Prod.fst).dedup
  add t n k := t.set (n, k.type) k.blob
  load t f := t.update f
  delete t n :=
    { entries := t.entries.filter (fun e => e.1.1 ≠ n)
      distinct := t.distinct.sublist (List.filter_sublist.map Prod.fst) }

theorem mem_dict_entries {es : List ((Str × Str) × Str)} {n : Str} {k : HostKey} :
    k ∈ es.filterMap (fun e => if e.1.1 = n then some (⟨e.1.2, e.2⟩ : HostKey) else none) ↔
      ((n, k.type), k.blob) ∈ es := by
  rw [List.mem_filterMap]
  constructor
  · intro ⟨⟨⟨n', type⟩, blob⟩, he, hk⟩
    by_cases hn : n' = n
    · rw [if_pos hn] at hk
      rw [← Option.some.inj hk, ← hn]
      exact he
    · rw [if_neg hn] at hk
      cases hk
  · intro he
    exact ⟨_, he, if_pos rfl⟩

theorem mem_dict_lookup {t : Dict (Str × Str) Str} {n : Str} {k : HostKey} :
    k ∈ dictTables.lookup t n ↔ t.get? (n, k.type) = some k.blob :=
  mem_dict_entries.trans Dict.mem_entries

theorem dictTables_lawful : dictTables.Lawful where
  lookup_empty _ := rfl
  mem_add t n k m j := by
    rw [mem_dict_lookup, mem_dict_lookup]
    show (t.set (n, k.type) k.blob).get? (m, j.type) = some j.blob ↔ _
    rw [Dict.get?_set]
    by_cases hkey : (m, j.type) = (n, k.type)
    · obtain ⟨hm, htype⟩ := Prod.mk.inj hkey
      rw [if_pos hkey]
      constructor
      · intro h
        have hblob := Option.some.inj h
        exact .inl ⟨hm, by cases j; cases k; cases htype; cases hblob; rfl⟩
      · intro h
        rcases h with ⟨-, rfl⟩ | ⟨-, hnot⟩
        · rfl
        · exact absurd ⟨hm, htype⟩ hnot
    · rw [if_neg hkey]
      constructor
      · intro h
        exact .inr ⟨h, fun heq => hkey (Prod.ext heq.1 heq.2)⟩
      · intro h
        rcases h with ⟨hm, hj⟩ | ⟨h, -⟩
        · exact absurd (by rw [hm, hj]) hkey
        · exact h
  mem_load t f m j := by
    rw [mem_dict_lookup, mem_dict_lookup, mem_dict_lookup]
    show (t.update f).get? (m, j.type) = _ ↔ _
    rw [Dict.get?_update]
    cases hf : f.get? (m, j.type) with
    | some blob =>
      constructor
      · exact .inl
      · intro h
        rcases h with h | ⟨-, hnot⟩
        · exact h
        · exact absurd rfl (hnot ⟨j.type, blob⟩ (mem_dict_lookup.mpr hf))
    | none =>
      constructor
      · intro h
        refine .inr ⟨h, fun j' hj' htype => ?_⟩
        have hj' := mem_dict_lookup.mp hj'
        rw [htype, hf] at hj'
        cases hj'
      · intro h
        rcases h with h | ⟨h, -⟩
        · cases h
        · exact h
  mem_delete t n m j h := by
    rw [mem_dict_lookup, ← Dict.mem_entries]
    exact (List.mem_filter.mp (mem_dict_entries.mp h)).1
  mem_delete_of_ne t n m j hne h := by
    refine mem_dict_entries.mpr (List.mem_filter.mpr ⟨?_, decide_eq_true hne⟩)
    exact Dict.mem_entries.mpr (mem_dict_lookup.mp h)

/-! ## The runs that break it -/

def ed25519 (blob : Str) : HostKey := ⟨"ssh-ed25519", blob⟩

/-- The known-hosts file with the key of the first host. -/
def pinnedPve1 : Dict (Str × Str) Str :=
  dictTables.add Dict.empty pve1.pinName (ed25519 "AAAA1")

/-- A first connection to a registered host, which stores its key, and one
more host that is added after it. -/
def connectThenAdd : List PinEvent :=
  [.call 0 (.connect "10.0.0.1" 22 false), .check 0, .load 0 true,
    .connect 0 (ed25519 "AAAA1") true, .save 0,
    .call 1 (.addHost pve2 (some (ed25519 "AAAA2"))), .check 1, .load 1 true, .save 1, .register 1]

/-- A connection with a password to an address that is not registered. -/
def connectAdhoc : List PinEvent :=
  [.call 0 (.connect "10.0.0.9" 22 true), .check 0, .load 0 true, .load 0 true]

/-- A first connection, while `add_host` has read the file already. -/
def connectDuringAdd : List PinEvent :=
  [.call 0 (.connect "10.0.0.1" 22 false), .check 0, .load 0 true,
    .call 1 (.addHost pve2 (some (ed25519 "AAAA2"))), .check 1, .load 1 true,
    .connect 0 (ed25519 "AAAA1") true, .save 0]

/-- The key of the address is stored, although nothing should be. -/
theorem adhoc_stores :
    ∃ s, run (pinStep dictTables) (PinState.init [pve1] (some pinnedPve1)) connectAdhoc = some s ∧
      (∃ stage, s.calls 0 = some (.connect "10.0.0.9" 22 true, stage) ∧ stage.isAdhoc = true) ∧
      pinnedKeys dictTables s "10.0.0.9" = [] ∧
      ∃ s', pinStep dictTables s (.connect 0 (ed25519 "AAAA9") true) = some s' ∧
        pinnedKeys dictTables s' "10.0.0.9" = [ed25519 "AAAA9"] :=
  ⟨_, rfl, ⟨_, rfl, rfl⟩, by decide, _, rfl, by decide⟩

/-- The key that was stored meanwhile is lost when `add_host` saves. -/
theorem add_loses_pin :
    ∃ s, run (pinStep dictTables) (PinState.init [pve1] none) connectDuringAdd = some s ∧
      s.hosts = [pve1] ∧
      (∃ file table, s.calls 1 =
        some (.addHost pve2 (some (ed25519 "AAAA2")), .read file table)) ∧
      pinnedKeys dictTables s pve1.pinName = [ed25519 "AAAA1"] ∧
      ∃ s', pinStep dictTables s (.save 1) = some s' ∧
        pinnedKeys dictTables s' pve1.pinName = [] :=
  ⟨_, rfl, rfl, ⟨_, _, rfl⟩, by decide, _, rfl, by decide⟩

end PveZfsTool.Ssh
