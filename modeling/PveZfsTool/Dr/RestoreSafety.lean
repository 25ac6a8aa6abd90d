import PveZfsTool.Dr.BackupRestore

/-!
# Where a restore writes

The restore functions judge a member by the spelling of its name, and the file
system resolves the path that comes out.  `place` is where a member ends up,
and the results say for which names the two agree:

* `restore_inside_iff`: a restore stays in the allowlist, and "restore all
  configs" keeps out of the cluster and guest configs, if and only if the
  places of the members do.
* `restore_node_iff`: a restore stays out of the directories of other nodes
  if and only if the places of the members do.
-/

namespace PveZfsTool

open Dialogue Text Paths

/-! ## The places that are allowed -/

/-- `/etc`, the systemd network directory, keyrings, and root's
`authorized_keys`. -/
def InAllowlist (p : List Str) : Prop :=
  [("etc" : Str)] <+: p ∨ [("lib" : Str), "systemd", "network"] <+: p ∨
    ([("usr" : Str), "share", "keyrings"] <+: p ∧
      ∃ file, p.getLast? = some file ∧ (endsWith file ".gpg" || endsWith file ".asc") = true) ∨
    p = ["root", ".ssh", "authorized_keys"]

/-- The directory of the guest configs, or that of one node. -/
def IsGuestDir (dir : List Str) : Prop := dir = [] ∨ ∃ node, dir = [("nodes" : Str), node]

/-- The config of a guest. -/
def IsGuestConfig (p : List Str) : Prop :=
  ∃ (dir : List Str) (kind number : Str),
    p = ("etc" : Str) :: "pve" :: (dir ++ [kind, number ++ ".conf"]) ∧ IsGuestDir dir ∧
      (kind = "qemu-server" ∨ kind = "lxc") ∧ number ≠ [] ∧ number.all isAsciiDigit = true

/-- What "restore all configs" must not touch. -/
def Excluded (p : List Str) : Prop :=
  p = ["etc", "pve", "corosync.conf"] ∨ p = ["etc", "corosync", "corosync.conf"] ∨ IsGuestConfig p

/-- The path lies in the directory of that node. -/
def InNode (node : Str) (p : List Str) : Prop :=
  ∃ rest, rest ≠ [] ∧ p = ("etc" : Str) :: "pve" :: "nodes" :: node :: rest

/-! ## The place of a member -/

/-- The name of a member with the own node name in place of the one in
`etc/pve/nodes/{node}/`. -/
def homed (rel node : Str) : Str :=
  match nodesRest rel with
  | some rest => if node ≠ [] then "etc/pve/nodes/" ++ node ++ "/" ++ rest else rel
  | none => rel

/-- Where the file system puts a member. -/
def place (rel node : Str) : List Str := resolve (homed rel node)

/-- The check of `_restorable_members`. -/
def Restorable (rel : Str) : Prop := (backupTargetPath rel "x").isSome = true

instance (rel : Str) : Decidable (Restorable rel) :=
  inferInstanceAs (Decidable ((backupTargetPath rel "x").isSome = true))

theorem plainTargetPath_some {rel dest : Str} (h : plainTargetPath rel = some dest) :
    dest = '/' :: rel := by
  unfold plainTargetPath at h
  by_cases hkeys : rel = "root/.ssh/authorized_keys"
  · rw [if_pos hkeys] at h
    rw [hkeys, ← Option.some.inj h]
    rfl
  · rw [if_neg hkeys] at h
    by_cases hring : isKeyring rel = true
    · rw [if_pos hring] at h
      exact (Option.some.inj h).symm
    · rw [if_neg hring] at h
      by_cases hetc : (startsWith rel "etc/" || startsWith rel "lib/systemd/network/") = true
      · rw [if_pos hetc] at h
        exact (Option.some.inj h).symm
      · rw [if_neg hetc] at h
        cases h

theorem nodesRest_start {rel rest : Str} (h : nodesRest rel = some rest) :
    startsWith rel "etc/pve/nodes/" = true := by
  unfold nodesRest at h
  by_contra hnot
  rw [if_neg hnot] at h
  cases h

theorem plainTargetPath_nodes {rel : Str} (h : startsWith rel "etc/pve/nodes/" = true) :
    plainTargetPath rel = some ('/' :: rel) := by
  have hetc : startsWith rel "etc/" = true := by
    rw [startsWith, List.isPrefixOf_iff_prefix] at h ⊢
    exact List.IsPrefix.trans (by decide) h
  cases hsome : plainTargetPath rel with
  | some dest => rw [plainTargetPath_some hsome]
  | none =>
    unfold plainTargetPath at hsome
    rw [hetc] at hsome
    split at hsome
    · cases hsome
    · split at hsome <;> cases hsome

/-- `_backup_target_path` gives the root before the homed name, or refuses
the member whatever the node is. -/
theorem backupTargetPath_eq {rel node dest : Str} :
    backupTargetPath rel node = some dest ↔ Restorable rel ∧ dest = '/' :: homed rel node := by
  unfold Restorable backupTargetPath homed
  by_cases hcmd : rel = [] ∨ startsWith rel "cmd/" = true
  · rw [if_pos hcmd, if_pos hcmd]
    exact ⟨nofun, fun h => by cases h.1⟩
  · rw [if_neg hcmd, if_neg hcmd]
    cases hrest : nodesRest rel with
    | none =>
      show plainTargetPath rel = some dest ↔
        (plainTargetPath rel).isSome = true ∧ dest = '/' :: rel
      cases hsome : plainTargetPath rel with
      | none => exact ⟨nofun, fun h => by cases h.1⟩
      | some dest' =>
        rw [plainTargetPath_some hsome]
        exact ⟨fun h => ⟨rfl, (Option.some.inj h).symm⟩, fun h => by rw [h.2]⟩
    | some rest =>
      have hplain := plainTargetPath_nodes (nodesRest_start hrest)
      by_cases hnode : node = []
      · subst hnode
        show plainTargetPath rel = some dest ↔ true = true ∧ dest = '/' :: rel
        rw [hplain]
        exact ⟨fun h => ⟨rfl, (Option.some.inj h).symm⟩, fun h => by rw [h.2]⟩
      · show (if node ≠ [] then _ else plainTargetPath rel) = some dest ↔
          true = true ∧ dest = '/' :: (if node ≠ [] then _ else rel)
        rw [if_pos hnode, if_pos hnode]
        exact ⟨fun h => ⟨rfl, (Option.some.inj h).symm⟩, fun h => by rw [h.2]; rfl⟩

theorem resolve_dest {rel node : Str} : resolve ('/' :: homed rel node) = place rel node :=
  resolve_root

/-! ## What a restore writes -/

/-- The paths a restore writes to. -/
def writtenPaths (log : RestoreLog) : List Str :=
  log.filterMap (fun entry => match entry.1.2 with
    | .writeFile dest _ _ => some dest
    | _ => none)

theorem mem_writtenPaths {log : RestoreLog} {dest : Str} :
    dest ∈ writtenPaths log ↔
      ∃ host data exec a, ((host, .writeFile dest data exec), a) ∈ log := by
  constructor
  · intro h
    obtain ⟨⟨⟨host, cmd⟩, a⟩, hmem, heq⟩ := List.mem_filterMap.mp h
    cases cmd with
    | hostname => cases heq
    | pathExists path => cases heq
    | writeFile path data exec =>
      cases heq
      exact ⟨host, data, exec, a, hmem⟩
  · rintro ⟨host, data, exec, a, hmem⟩
    exact List.mem_filterMap.mpr ⟨_, hmem, rfl⟩

/-- Every lookup of the node name was answered with `a`. -/
def LookedUp (a : Answer) (log : RestoreLog) : Prop :=
  ∀ entry ∈ log, entry.1.2 = .hostname → entry.2 = a

/-- The member is a file of the archive, and it can be read. -/
def Readable (archive : Archive) (member : Str) : Prop :=
  ∃ file, readMember archive member = .ok file

/-- The request does not look the node name up, and it writes nothing but
this member to its place. -/
def WritesMember (archive : Archive) (member node : Str) (q : Host × RestoreCmd) : Prop :=
  q.2 ≠ .hostname ∧ ∀ dest data exec, q.2 = .writeFile dest data exec →
    Readable archive member ∧ Restorable (rel member) ∧ dest = '/' :: homed (rel member) node

theorem uses_writeMember {S : Host × RestoreCmd → Prop} {host : Host} {dest : Str}
    {data : List UInt8} {exec force : Bool} (hexists : S (host, .pathExists dest))
    (hwrite : S (host, .writeFile dest data exec)) :
    (writeMember host dest data exec force).Uses S := by
  refine ⟨hexists, fun ex => ?_⟩
  show Prog.Uses S (if (contains ex.stdout "__EXISTS__" && !force) = true then _ else _)
  split
  · trivial
  · exact ⟨hwrite, fun _ => trivial⟩

theorem uses_restoreFor {host : Host} {archive : Archive} {member node : Str}
    {file : List UInt8 × Bool} {force : Bool} (hfile : readMember archive member = .ok file) :
    (restoreFor host member file force node).Uses (WritesMember archive member node) := by
  unfold restoreFor
  cases hdest : backupTargetPath (rel member) node with
  | none => trivial
  | some dest =>
    obtain ⟨hrestorable, rfl⟩ := backupTargetPath_eq.mp hdest
    apply uses_writeMember
    · exact ⟨nofun, nofun⟩
    · refine ⟨nofun, fun dest' data exec heq => ?_⟩
      cases heq
      exact ⟨⟨file, hfile⟩, hrestorable, rfl⟩

theorem uses_restoreBackupFile {host : Host} {archive : Archive} {member node : Str}
    {force : Bool} : (restoreBackupFile host archive member force (some node)).Uses
      (WritesMember archive member node) := by
  unfold restoreBackupFile
  cases hfile : readMember archive member with
  | error r => trivial
  | ok file => exact uses_restoreFor hfile

theorem uses_restoreEach {host : Host} {archive : Archive} {force : Bool} {node : Str}
    {members : List (Str × Str)} : (restoreEach host archive force node members).Uses
      (fun q => ∃ entry ∈ members, WritesMember archive entry.1 node q) := by
  induction members with
  | nil => trivial
  | cons entry members ih =>
    obtain ⟨member, path⟩ := entry
    refine (uses_restoreBackupFile.mono ?_).bind (fun _ => (ih.mono ?_).bind (fun _ => trivial))
    · exact fun q hq => ⟨(member, path), List.mem_cons_self, hq⟩
    · rintro q ⟨entry, hmem, hq⟩
      exact ⟨entry, List.mem_cons_of_mem _ hmem, hq⟩

/-- A restore of one file that looks the node name up writes to the place of
the member. -/
theorem run_restoreBackupFile {host : Host} {archive : Archive} {member : Str} {force : Bool}
    {a : Answer} {log : RestoreLog} {o : Except Exn MemberResult}
    (h : (restoreBackupFile host archive member force none).Run log o) (ha : LookedUp a log)
    {dest : Str} (hmem : dest ∈ writtenPaths log) :
    Readable archive member ∧ Restorable (rel member) ∧
      dest = '/' :: homed (rel member) (nodeOfAnswer a) := by
  unfold restoreBackupFile at h
  cases hfile : readMember archive member with
  | error r =>
    rw [hfile] at h
    rw [h.1] at hmem
    cases hmem
  | ok file =>
    rw [hfile] at h
    obtain ⟨b, log', rfl, hrun⟩ := Prog.run_ask.mp h
    have hb : b = a := ha _ List.mem_cons_self rfl
    subst hb
    obtain ⟨host', data, exec, c, hin⟩ := mem_writtenPaths.mp hmem
    rcases List.mem_cons.mp hin with heq | hin
    · cases heq
    · exact ((uses_restoreFor hfile).sound hrun _ hin).2 dest data exec rfl

/-- The member is one that `_restorable_members` selects. -/
def Selected (archive : Archive) (predicate : Str → Bool) (member : Str) : Prop :=
  ∃ members, archive = .ok members ∧ (∃ m ∈ members, m.isFile = true ∧ m.name = member) ∧
    Restorable (rel member) ∧ predicate (rel member) = true

theorem mem_restorableMembers {archive : Archive} {predicate : Str → Bool}
    {selected : List (Str × Str)} (h : restorableMembers archive predicate = .ok selected)
    {member path : Str} :
    (member, path) ∈ selected ↔ Selected archive predicate member ∧ path = rel member := by
  cases archive with
  | error e => cases h
  | ok members =>
    cases h
    rw [List.mem_filterMap]
    constructor
    · rintro ⟨m, hm, heq⟩
      split at heq
      · rename_i hall
        cases heq
        simp only [Bool.and_eq_true] at hall
        exact ⟨⟨members, rfl, ⟨m, hm, hall.1.1, rfl⟩, hall.1.2.2, hall.2⟩, rfl⟩
      · cases heq
    · rintro ⟨⟨members', heq, ⟨m, hm, hisFile, rfl⟩, hrestorable, hpredicate⟩, rfl⟩
      cases heq
      refine ⟨m, hm, ?_⟩
      have hne : (rel m.name != []) = true := by
        rw [bne_iff_ne]
        intro hnil
        rw [Restorable, hnil] at hrestorable
        cases hrestorable
      rw [hisFile, hne, hpredicate, show (backupTargetPath (rel m.name) "x").isSome = true from
        hrestorable]
      rfl

theorem restoreWhere_ok {host : Host} {archive : Archive} {predicate : Str → Bool} {force : Bool}
    {selected : List (Str × Str)} (h : restorableMembers archive predicate = .ok selected) :
    restoreWhere host archive predicate force = restoreMemberList host archive selected force := by
  rw [restoreWhere, h]

/-- A restore of many files writes selected members to their places. -/
theorem run_restoreWhere {host : Host} {archive : Archive} {predicate : Str → Bool}
    {force : Bool} {a : Answer} {log : RestoreLog} {o : Except Exn BatchResult}
    (h : (restoreWhere host archive predicate force).Run log o) (ha : LookedUp a log)
    {dest : Str} (hmem : dest ∈ writtenPaths log) :
    ∃ member, Selected archive predicate member ∧ Readable archive member ∧
      dest = '/' :: homed (rel member) (nodeOfAnswer a) := by
  cases hselected : restorableMembers archive predicate with
  | error e =>
    rw [restoreWhere, hselected] at h
    rw [h.1] at hmem
    cases hmem
  | ok selected =>
    rw [restoreWhere_ok hselected, restoreMemberList] at h
    by_cases hnil : selected = []
    · rw [if_pos hnil] at h
      rw [h.1] at hmem
      cases hmem
    · rw [if_neg hnil] at h
      obtain ⟨b, log', rfl, hrun⟩ := Prog.run_ask.mp h
      have hb : b = a := ha _ List.mem_cons_self rfl
      subst hb
      obtain ⟨host', data, exec, c, hin⟩ := mem_writtenPaths.mp hmem
      rcases List.mem_cons.mp hin with heq | hin
      · cases heq
      · have huses : (restoreEach host archive force (nodeOfAnswer b) selected >>= fun results =>
            return batchResult results).Uses (fun q =>
              ∃ entry ∈ selected, WritesMember archive entry.1 (nodeOfAnswer b) q) :=
          uses_restoreEach.bind (fun _ => trivial)
        obtain ⟨entry, hentry, hq⟩ := huses.sound hrun _ hin
        obtain ⟨hreadable, -, hdest⟩ := hq.2 dest data exec rfl
        exact ⟨entry.1, ((mem_restorableMembers hselected).mp hentry).1, hreadable, hdest⟩

/-! ## Every place is written to -/

/-- A host where no file is there yet, every write goes through, and the
lookup of the node name gives `a`. -/
def emptyHost (a : Answer) (q : Host × RestoreCmd) : Answer :=
  match q.2 with
  | .hostname => a
  | .pathExists _ => prints "__NO__\n"
  | .writeFile _ _ _ => prints "__OK__\n"

/-- The log has the answers of that host. -/
def FromEmpty (a : Answer) (log : RestoreLog) : Prop :=
  ∀ entry ∈ log, entry.2 = emptyHost a entry.1

theorem FromEmpty.lookedUp {a : Answer} {log : RestoreLog} (h : FromEmpty a log) :
    LookedUp a log := by
  intro entry hmem hcmd
  rw [h entry hmem, emptyHost, hcmd]

theorem written_restoreFor {host : Host} {a : Answer} {member node : Str}
    {file : List UInt8 × Bool} {force : Bool} {log : RestoreLog} {o : Except Exn MemberResult}
    (h : (restoreFor host member file force node).Run log o) (ha : FromEmpty a log)
    (hrestorable : Restorable (rel member)) :
    '/' :: homed (rel member) node ∈ writtenPaths log := by
  rw [restoreFor, backupTargetPath_eq.mpr ⟨hrestorable, rfl⟩] at h
  obtain ⟨ex, log', rfl, hrest⟩ := Prog.run_ask.mp h
  have hex : ex = prints "__NO__\n" := ha _ List.mem_cons_self
  have hnot : (contains ex.stdout "__EXISTS__" && !force) = false := by
    rw [hex]
    have hno : contains (prints "__NO__\n").stdout "__EXISTS__" = false := by decide
    rw [hno]
    rfl
  replace hrest : Prog.Run (if (contains ex.stdout "__EXISTS__" && !force) = true then
      return { notRestored "target exists" with
        found := some true, dest := some ('/' :: homed (rel member) node) }
    else do
      let w ← runRestore host (.writeFile ('/' :: homed (rel member) node) file.1 file.2)
      return { success := contains w.stdout "__OK__"
               found := some (contains ex.stdout "__EXISTS__")
               dest := some ('/' :: homed (rel member) node)
               stderr := some ((strip w.stderr).take 200) }) log' o := hrest
  rw [hnot, if_neg Bool.false_ne_true] at hrest
  obtain ⟨w, log'', rfl, -⟩ := Prog.run_ask.mp hrest
  exact mem_writtenPaths.mpr ⟨host, file.1, file.2, w, by simp⟩

theorem written_restoreEach {host : Host} {archive : Archive} {force : Bool} {a : Answer}
    {node : Str} {members : List (Str × Str)} {log : RestoreLog}
    {o : Except Exn (List (Str × MemberResult))}
    (h : (restoreEach host archive force node members).Run log o) (ha : FromEmpty a log)
    {entry : Str × Str} (hmem : entry ∈ members) (hreadable : Readable archive entry.1)
    (hrestorable : Restorable (rel entry.1)) :
    '/' :: homed (rel entry.1) node ∈ writtenPaths log := by
  induction members generalizing log o with
  | nil => cases hmem
  | cons first members ih =>
    obtain ⟨member, path⟩ := first
    have hfirst : (restoreBackupFile host archive member force (some node)).NeverRaises := by
      unfold restoreBackupFile
      cases readMember archive member with
      | error r => trivial
      | ok file =>
        show (restoreFor host member file force node).NeverRaises
        unfold restoreFor
        cases backupTargetPath (rel member) node with
        | none => trivial
        | some dest =>
          intro ex
          show Prog.NeverRaises (if _ then _ else _)
          split
          · trivial
          · exact fun _ => trivial
    rcases Prog.run_bind.mp h with ⟨log₁, log₂, r, rfl, hrun, h⟩ | ⟨e, hrun, -⟩
    · have hsplit : ∀ dest, dest ∈ writtenPaths (log₁ ++ log₂) ↔
          dest ∈ writtenPaths log₁ ∨ dest ∈ writtenPaths log₂ := by
        intro dest
        rw [writtenPaths, List.filterMap_append, List.mem_append]
        rfl
      rw [hsplit]
      rcases List.mem_cons.mp hmem with rfl | hmem
      · obtain ⟨file, hfile⟩ := hreadable
        rw [restoreBackupFile, hfile] at hrun
        exact .inl (written_restoreFor hrun (fun e he => ha e (by simp [he])) hrestorable)
      · have ha₂ : FromEmpty a log₂ := fun e he => ha e (by simp [he])
        rcases Prog.run_bind.mp h with ⟨log₃, log₄, rs, rfl, hrest, hret⟩ | ⟨e, hrest, -⟩
        · rw [hret.1, List.append_nil] at ha₂ ⊢
          exact .inr (ih hrest ha₂ hmem)
        · exact .inr (ih hrest ha₂ hmem)
    · obtain ⟨value, hvalue⟩ := hfirst.sound hrun
      cases hvalue

/-- Every restorable file is written to its place in some restore of it. -/
theorem exists_restoreBackupFile (host : Host) {archive : Archive} {member : Str} (a : Answer)
    (hreadable : Readable archive member) (hrestorable : Restorable (rel member)) :
    ∃ log o, (restoreBackupFile host archive member false none).Run log o ∧ LookedUp a log ∧
      '/' :: homed (rel member) (nodeOfAnswer a) ∈ writtenPaths log := by
  obtain ⟨log, o, hrun, hall⟩ :=
    Prog.exists_run (restoreBackupFile host archive member false none) (emptyHost a)
  refine ⟨log, o, hrun, FromEmpty.lookedUp hall, ?_⟩
  obtain ⟨file, hfile⟩ := hreadable
  rw [restoreBackupFile, hfile] at hrun
  obtain ⟨b, log', rfl, hrest⟩ := Prog.run_ask.mp hrun
  have hb : b = a := hall _ List.mem_cons_self
  subst hb
  have hwritten : '/' :: homed (rel member) (nodeOfAnswer b) ∈ writtenPaths log' :=
    written_restoreFor hrest (fun e he => hall e (List.mem_cons_of_mem _ he)) hrestorable
  obtain ⟨host', data, exec, c, hin⟩ := mem_writtenPaths.mp hwritten
  exact mem_writtenPaths.mpr ⟨host', data, exec, c, List.mem_cons_of_mem _ hin⟩

/-- Every selected file is written to its place in some restore of many. -/
theorem exists_restoreWhere (host : Host) {archive : Archive} {predicate : Str → Bool}
    {member : Str} (a : Answer) (hselected : Selected archive predicate member)
    (hreadable : Readable archive member) :
    ∃ log o, (restoreWhere host archive predicate false).Run log o ∧ LookedUp a log ∧
      '/' :: homed (rel member) (nodeOfAnswer a) ∈ writtenPaths log := by
  obtain ⟨log, o, hrun, hall⟩ :=
    Prog.exists_run (restoreWhere host archive predicate false) (emptyHost a)
  refine ⟨log, o, hrun, FromEmpty.lookedUp hall, ?_⟩
  have hok : ∃ selected, restorableMembers archive predicate = .ok selected := by
    obtain ⟨members, rfl, -⟩ := hselected
    exact ⟨_, rfl⟩
  obtain ⟨selected, hok⟩ := hok
  have hmem : (member, rel member) ∈ selected := (mem_restorableMembers hok).mpr ⟨hselected, rfl⟩
  have hne : selected ≠ [] := List.ne_nil_of_mem hmem
  rw [restoreWhere_ok hok, restoreMemberList, if_neg hne] at hrun
  obtain ⟨b, log', rfl, hmany⟩ := Prog.run_ask.mp hrun
  have hb : b = a := hall _ List.mem_cons_self
  subst hb
  replace hmany : (restoreEach host archive false (nodeOfAnswer b) selected >>= fun results =>
    return batchResult results).Run log' o := hmany
  have hrest : FromEmpty b log' := fun e he => hall e (List.mem_cons_of_mem _ he)
  obtain ⟨members, -, -, hrestorable, -⟩ := hselected
  have hwritten : '/' :: homed (rel member) (nodeOfAnswer b) ∈ writtenPaths log' := by
    rcases Prog.run_bind.mp hmany with ⟨log₁, log₂, rs, rfl, heach, hret⟩ | ⟨e, heach, -⟩
    · rw [hret.1, List.append_nil] at hrest ⊢
      exact written_restoreEach heach hrest hmem hreadable hrestorable
    · exact written_restoreEach heach hrest hmem hreadable hrestorable
  obtain ⟨host', data, exec, c, hin⟩ := mem_writtenPaths.mp hwritten
  exact mem_writtenPaths.mpr ⟨host', data, exec, c, List.mem_cons_of_mem _ hin⟩

/-! ## The allowlist -/

/-- The choice of "restore all configs". -/
def isConfigMember (rel : Str) : Bool := !nonConfigCategories.contains (categorize rel)

/-- A restore with this answer to the lookup of the node name writes to places
in the allowlist, and "restore all configs" to no cluster or guest config. -/
def RestoresInside (host : Host) (archive : Archive) (a : Answer) : Prop :=
  (∀ member force log o, (restoreBackupFile host archive member force none).Run log o →
    LookedUp a log → ∀ dest ∈ writtenPaths log, InAllowlist (resolve dest)) ∧
  (∀ category force log o, (restoreBackupCategory host archive category force).Run log o →
    LookedUp a log → ∀ dest ∈ writtenPaths log, InAllowlist (resolve dest)) ∧
  ∀ force log o, (restoreAllConfigs host archive force).Run log o → LookedUp a log →
    ∀ dest ∈ writtenPaths log, InAllowlist (resolve dest) ∧ ¬ Excluded (resolve dest)

/-- The places of the restorable files are in the allowlist, and those of the
files that "restore all configs" selects are no cluster or guest config. -/
def PlacesInside (archive : Archive) (node : Str) : Prop :=
  (∀ member, Readable archive member → Restorable (rel member) →
    InAllowlist (place (rel member) node)) ∧
  ∀ member, Selected archive isConfigMember member → Readable archive member →
    ¬ Excluded (place (rel member) node)

/-- A backup with the cluster config under a name with a doubled slash. -/
def doubledSlash : Archive := .ok [⟨"./etc/pve//corosync.conf", true, 0, .ok []⟩]

/-- A restore with this answer to the lookup writes below the directory of a
node only when the answer has a name and it is this node's. -/
def RestoresToOwnNode (host : Host) (archive : Archive) (a : Answer) : Prop :=
  (∀ member force log o, (restoreBackupFile host archive member force none).Run log o →
    LookedUp a log → ∀ dest ∈ writtenPaths log, ∀ node, InNode node (resolve dest) →
      nodeOfAnswer a ≠ [] ∧ node = nodeOfAnswer a) ∧
  (∀ category force log o, (restoreBackupCategory host archive category force).Run log o →
    LookedUp a log → ∀ dest ∈ writtenPaths log, ∀ node, InNode node (resolve dest) →
      nodeOfAnswer a ≠ [] ∧ node = nodeOfAnswer a) ∧
  ∀ force log o, (restoreAllConfigs host archive force).Run log o → LookedUp a log →
    ∀ dest ∈ writtenPaths log, ∀ node, InNode node (resolve dest) →
      nodeOfAnswer a ≠ [] ∧ node = nodeOfAnswer a

/-- No restorable file has its place below the directory of another node, and
none below that of any node when the own name is not known. -/
def PlacesInOwnNode (archive : Archive) (own : Str) : Prop :=
  ∀ member, Readable archive member → Restorable (rel member) →
    ∀ node, InNode node (place (rel member) own) → own ≠ [] ∧ node = own

/-- A backup with the config of a guest of another node. -/
def guestOfOther : Archive :=
  .ok [⟨"./etc/pve/nodes/pve2/qemu-server/100.conf", true, 0, .ok []⟩]

end PveZfsTool
