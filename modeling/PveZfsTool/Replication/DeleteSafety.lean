import PveZfsTool.Replication.DeleteRun
import PveZfsTool.Zfs.CloneSafety

/-!
# What a deletion takes with it

A deletion that purges may only destroy what lies at or below
`<target>/<pool>` for a pool of the source host, and nothing that lies at or
below the target of another config.

`PurgeSite.env` is what the hosts do: a listing shows only what lies where it
was asked to look, and nothing is lost but what a command destroys.  An answer
may be wrong in every other way, and it may not come.  The caller and the
tasks run as threads, in any order.

* `deletion_safe_iff`: when every deletion is safe.  The purge at once looks at
  the whole target and not at the branches of the source pools, and no purge
  asks which other configs there are.
* `deletion_takes_others`: two deletions that take the replica of another
  config.
-/

namespace PveZfsTool.Replication

open Dialogue Text

/-! ## The hosts -/

/-- A pool of the source host.  The name is what a listing shows, without
whitespace around it. -/
structure Pool where
  name : Str
  ne_nil : name ≠ []
  noSlash : '/' ∉ name
  deriving DecidableEq

/-- What a deletion finds: the config files of the target host, its datasets
and snapshots, and the pools of the source host. -/
structure PurgeSite where
  files : Str → Option Str
  names : List Str
  pools : List Pool

def isAutoSnapshot (o : Str) : Bool := contains o "@zfs-auto-snap_"

/-- What a command does to the datasets and snapshots of the target host. -/
def PurgeSite.respond (site : PurgeSite) (names : List Str) (q : PurgeRequest) (a : Answer)
    (names' : List Str) : Prop :=
  match q.cmd with
  | .repl cmd =>
      (∀ path, cmd = .catFile path → a.success = true → site.files path = some a.stdout) ∧
        names' = names
  | .moveConfig _ => names' = names
  | .listPools =>
      (a.success = true → ∀ l ∈ strippedLines a.stdout, ∃ pool ∈ site.pools, pool.name = l) ∧
        names' = names
  | .listSnapshots root =>
      (∀ l ∈ splitLines a.stdout, isAutoSnapshot l = true ∧ AtOrBelow (datasetOf l) root) ∧
        names' = names
  | .listBranch _ => names' = names
  | .listChildren ds =>
      (∀ l ∈ splitLines a.stdout, l = ds ∨ ∃ leaf, '/' ∉ leaf ∧ '@' ∉ leaf ∧ l = branchOf ds leaf) ∧
        names' = names
  | .destroySnapshot name => names' ⊆ names ∧ ∀ o ∈ names, o ∉ names' → o = name
  | .destroyTree ds => names' ⊆ names ∧ ∀ o ∈ names, o ∉ names' → AtOrBelow (datasetOf o) ds

/-- The hosts of a deletion.  Nobody else changes them meanwhile. -/
def PurgeSite.env (site : PurgeSite) : Env (List Str) PurgeRequest Answer Empty where
  respond := site.respond
  move _ m _ := m.elim

inductive PurgeThread where
  | caller
  | snapshots
  | children
  deriving DecidableEq

/-- The task that an outcome of `delete_config` has. -/
def startedTask (task : DeleteResult → Option PurgeTask) (o : Except Exn DeleteResult) :
    Option PurgeTask :=
  o.toOption.bind task

/-- The history of the task, where there is one. -/
def TaskRun (job : PurgeTask → PurgeJob PurgeResult) (task : Option PurgeTask)
    (h : History PurgeRequest Answer) : Prop :=
  match task with
  | none => h = []
  | some task => ∃ o, (job task).Run h o

/-- A deletion leaves these datasets and snapshots. -/
def Deletes (site : PurgeSite) (call : DeleteCall) (names' : List Str) : Prop :=
  ∃ tr o, (site.env.threads PurgeThread).Path site.names tr names' ∧
    (deleteConfig call).Run (part .caller (answered tr)) o ∧
    TaskRun PurgeTask.snapshotJob (startedTask DeleteResult.purgeTask o)
      (part .snapshots (answered tr)) ∧
    TaskRun PurgeTask.childrenJob (startedTask DeleteResult.purgeChildrenTask o)
      (part .children (answered tr))

/-! ## What a deletion may take -/

variable (site : PurgeSite) (call : DeleteCall)

/-- The target of the config that is deleted. -/
def PurgeSite.target : Str := ((site.files (configPathFor call.source)).map configTarget).getD []

/-- The dataset or snapshot lies at or below `<target>/<pool>`. -/
def Owned (o : Str) : Prop :=
  ∃ pool ∈ site.pools, AtOrBelow (datasetOf o) (branchOf (site.target call) pool.name)

/-- The dataset or snapshot lies at or below the target of another config. -/
def Foreign (o : Str) : Prop :=
  ∃ path text, isConfPath path = true ∧ path ≠ configPathFor call.source ∧
    site.files path = some text ∧ configTarget text ≠ [] ∧
      AtOrBelow (datasetOf o) (configTarget text)

/-- What is gone was the config's own. -/
def PurgeSafe (names' : List Str) : Prop :=
  ∀ o ∈ site.names, o ∉ names' → Owned site call o ∧ ¬ Foreign site call o

/-- The target is one that can be purged. -/
def Accepts : Prop := call.source ≠ [] ∧ targetError (site.target call) = none

/-- An auto-snapshot at or below `root` whose name passes the check. -/
def Purgeable (root o : Str) : Prop :=
  isAutoSnapshot o = true ∧ isObjectName o = true ∧ AtOrBelow (datasetOf o) root

/-- What must hold before a deletion.  Purging at once, all auto-snapshots
below the target must be the config's own.  In a task, the branches of the
source pools must not reach into the target of another config. -/
structure PurgeCondition : Prop where
  atOnce : Accepts site call → call.purgeSnapshots = true → call.purgeAsync = false →
    ∀ o ∈ site.names, Purgeable (site.target call) o → Owned site call o ∧ ¬ Foreign site call o
  snapshots : Accepts site call → call.purgeSnapshots = true → call.purgeAsync = true →
    call.sourceHost.isSome = true → ∀ pool ∈ site.pools, isPoolName pool.name = true →
      ∀ o ∈ site.names, Purgeable (branchOf (site.target call) pool.name) o → ¬ Foreign site call o
  children : Accepts site call → call.purgeChildren = true → call.sourceHost.isSome = true →
    ∀ pool ∈ site.pools, isDatasetName (branchOf (site.target call) pool.name) = true →
      ∀ o ∈ site.names, AtOrBelow (datasetOf o) (branchOf (site.target call) pool.name) →
        ¬ Foreign site call o

variable {site call} {names' : List Str} {o : Str}

/-! ## What is lost, and where it was listed -/

/-- The request takes the dataset or snapshot. -/
def Takes (q : PurgeRequest) (o : Str) : Prop :=
  q.cmd = .destroySnapshot o ∨ ∃ ds, q.cmd = .destroyTree ds ∧ AtOrBelow (datasetOf o) ds

theorem not_quiet {q : PurgeRequest} (h : Takes q o) : ¬ Quiet q := by
  intro hquiet
  rcases h with hsnap | ⟨ds, htree, -⟩
  · exact hquiet.1 o hsnap
  · exact hquiet.2 ds htree

/-- What a request can lose. -/
theorem takes_of_respond {names : List Str} {q : PurgeRequest} {a : Answer}
    (h : site.respond names q a names') (ho : o ∈ names) (hlost : o ∉ names') : Takes q o := by
  have hkept : names' ≠ names := by
    intro heq
    rw [heq] at hlost
    exact hlost ho
  unfold PurgeSite.respond at h
  cases hcmd : q.cmd with
  | repl cmd =>
    rw [hcmd] at h
    exact absurd h.2 hkept
  | moveConfig path =>
    rw [hcmd] at h
    exact absurd h hkept
  | listPools =>
    rw [hcmd] at h
    exact absurd h.2 hkept
  | listSnapshots root =>
    rw [hcmd] at h
    exact absurd h.2 hkept
  | listBranch branch =>
    rw [hcmd] at h
    exact absurd h hkept
  | listChildren ds =>
    rw [hcmd] at h
    exact absurd h.2 hkept
  | destroySnapshot name =>
    rw [hcmd] at h
    exact .inl (by rw [hcmd, h.2 o ho hlost])
  | destroyTree ds =>
    rw [hcmd] at h
    exact .inr ⟨ds, hcmd, h.2 o ho hlost⟩

section Trails

variable {tr : Trail (PurgeThread × PurgeRequest) Answer Empty (List Str)} {names : List Str}
  {t : PurgeThread} {host : Host} {a : Answer}

/-- What is lost was taken by a request of a thread. -/
theorem exists_takes (hpath : (site.env.threads PurgeThread).Path names tr names') (ho : o ∈ names)
    (hlost : o ∉ names') : ∃ t q a, (q, a) ∈ part t (answered tr) ∧ Takes q o := by
  obtain ⟨e, w₁, u, hmem, hstep, hw₁, hu⟩ := hpath.exists_change (P := fun names => o ∈ names) ho hlost
  cases e with
  | request q a =>
    exact ⟨q.1, q.2, a, mem_part.mpr (mem_answered.mpr ⟨u, hmem⟩), takes_of_respond hstep hw₁ hu⟩
  | move m => exact m.elim

/-- An answer that a thread got. -/
theorem respond_of_mem_part (hpath : (site.env.threads PurgeThread).Path names tr names')
    {q : PurgeRequest} (h : (q, a) ∈ part t (answered tr)) :
    ∃ w₁ w₂, site.respond w₁ q a w₂ :=
  hpath.respond_of_mem (mem_part.mp h)

theorem target_of_readsTarget (hpath : (site.env.threads PurgeThread).Path names tr names')
    {target : Str} (hread : ReadsTarget call (part t (answered tr)) target)
    (haccepted : targetError target = none) : target = site.target call := by
  obtain ⟨r, hmem, rfl⟩ := hread
  obtain ⟨w₁, w₂, hcat, -⟩ := respond_of_mem_part hpath hmem
  by_cases hgone : (!r.success || decide (r.stdout = [])) = true
  · rw [readTarget, if_pos hgone] at haccepted
    exact absurd haccepted (by decide)
  · rw [readTarget, if_neg hgone]
    have hsuccess : r.success = true := by
      by_contra hfail
      exact hgone (by simp [hfail])
    rw [PurgeSite.target, hcat _ rfl hsuccess]
    rfl

/-- The pools of a task are pools of the source host. -/
theorem pool_of_poolsFrom (hpath : (site.env.threads PurgeThread).Path names tr names')
    {sources : SourcePools} (hpools : PoolsFrom call (part t (answered tr)) sources)
    (hsuccess : sources.success = true) {name : Str} (hname : name ∈ sources.pools) :
    NoBreak name ∧ ∃ pool ∈ site.pools, pool.name = name := by
  obtain ⟨-, host, a, hmem, hok, heq⟩ := hpools hsuccess
  obtain ⟨w₁, w₂, hlist, -⟩ := respond_of_mem_part hpath hmem
  rw [heq] at hname
  refine ⟨fun c hc => ?_, hlist hok name hname⟩
  obtain ⟨-, raw, hraw, rfl⟩ := mem_strippedLines.mp hname
  exact noBreak_of_mem_splitLines hraw c (mem_of_mem_strip hc)

end Trails

/-! ## Names -/

/-- The text starts with a character that is not whitespace. -/
def StartsPlain (s : Str) : Prop := ∃ c t, s = c :: t ∧ isSpace c = false

theorem isSpace_of_isDatasetChar {c : Char} (h : isDatasetChar c = true) : isSpace c = false := by
  have hcases : isFileNameChar c = true ∨ c = ':' ∨ c = '/' := by
    simp only [isDatasetChar, isFileNameChar, Bool.or_eq_true, beq_iff_eq] at h ⊢
    tauto
  rcases hcases with hname | rfl | rfl
  · exact isSpace_of_isFileNameChar hname
  · rfl
  · rfl

theorem startsPlain_of_isDatasetName {s : Str} (h : isDatasetName s = true) : StartsPlain s := by
  unfold isDatasetName at h
  rw [Bool.and_eq_true] at h
  cases s with
  | nil => simp at h
  | cons c t =>
    exact ⟨c, t, rfl, isSpace_of_isDatasetChar (List.all_eq_true.mp h.2 c List.mem_cons_self)⟩

theorem startsPlain_of_accepted {target : Str} (h : targetError target = none) :
    StartsPlain target := by
  have hname : atDollar isDatasetName target = true := by
    by_contra hbad
    rw [targetError, if_pos (by simp [hbad])] at h
    cases h
  rcases atDollar_cases hname with hall | ⟨t, rfl, ht⟩
  · exact startsPlain_of_isDatasetName hall
  · obtain ⟨c, t', rfl, hc⟩ := startsPlain_of_isDatasetName ht
    exact ⟨c, t' ++ ['\n'], rfl, hc⟩

theorem StartsPlain.branch {target pool : Str} (h : StartsPlain target) :
    StartsPlain (branchOf target pool) := by
  obtain ⟨c, t, rfl, hc⟩ := h
  exact ⟨c, t ++ '/' :: pool, rfl, hc⟩

/-- A name in a listing starts as the root of the listing does. -/
theorem StartsPlain.listed {root l : Str} (h : StartsPlain root) (hl : AtOrBelow (datasetOf l) root) :
    StartsPlain l := by
  have hroot : root <+: l := by
    have hdataset : datasetOf l <+: l := List.takeWhile_prefix _
    rcases hl with heq | hbelow
    · rw [← heq]
      exact hdataset
    · exact ((List.prefix_append root ['/']).trans hbelow).trans hdataset
  obtain ⟨c, t, rfl, hc⟩ := h
  obtain ⟨rest, rfl⟩ := hroot
  exact ⟨c, t ++ rest, rfl, hc⟩

theorem datasetOf_append {s b : Str} (h : '@' ∈ s) : datasetOf (s ++ b) = datasetOf s := by
  unfold datasetOf beforeFirst
  rw [List.takeWhile_append, if_neg]
  intro hlength
  have hall := List.takeWhile_eq_self_iff.mp ((List.takeWhile_prefix _).eq_of_length hlength) '@' h
  simp at hall

/-- The whitespace at the end of a listed name makes no difference. -/
theorem purgeable_strip {root l : Str} (hroot : StartsPlain root) (hauto : isAutoSnapshot l = true)
    (hl : AtOrBelow (datasetOf l) root) (hbreak : NoBreak l)
    (hvalid : isSnapshotName (strip l) = true) : Purgeable root (strip l) := by
  obtain ⟨c, t, rfl, hc⟩ := hroot.listed hl
  obtain ⟨b, heq, hb⟩ := exists_strip_append (s := t) hc
  unfold isSnapshotName at hvalid
  rw [Bool.and_eq_true, List.contains_iff_mem] at hvalid
  obtain ⟨hat, hname⟩ := hvalid
  refine ⟨?_, eq_true_of_atDollar (fun d hd => hbreak d (mem_of_mem_strip hd)) hname, ?_⟩
  · obtain ⟨u, v, huv⟩ := of_decide_eq_true hauto
    have hlast : ("@zfs-auto-snap_" : Str) = ("@zfs-auto-snap" : Str) ++ ['_'] := by decide
    refine decide_eq_true ?_
    rw [hlast] at huv ⊢
    exact infix_of_append hb (by decide) (heq.symm.trans huv.symm)
  · rw [heq, datasetOf_append hat] at hl
    exact hl

/-- A child with the name of a pool is a branch. -/
theorem branch_of_isPoolChild {target l : Str} {pools : List Str}
    (h : isPoolChild target pools l = true) : ∃ name ∈ pools, l = branchOf target name := by
  unfold isPoolChild at h
  rw [Bool.and_eq_true, Bool.and_eq_true, List.contains_iff_mem] at h
  obtain ⟨⟨hstart, -⟩, hmem⟩ := h
  obtain ⟨name, hname⟩ := List.isPrefixOf_iff_prefix.mp hstart
  refine ⟨_, hmem, ?_⟩
  have hdrop : l.drop (target.length + 1) = name := by
    rw [← hname]
    exact List.drop_left' (by rw [List.length_append]; rfl)
  rw [hdrop, ← hname, branchOf, List.append_assoc]
  rfl

/-! ## The condition is enough -/

theorem owned_of_branch {pool : Pool} (hpool : pool ∈ site.pools)
    (ho : AtOrBelow (datasetOf o) (branchOf (site.target call) pool.name)) : Owned site call o :=
  ⟨pool, hpool, ho⟩

section Enough

variable {tr : Trail (PurgeThread × PurgeRequest) Answer Empty (List Str)} {names : List Str}
  {h : History PurgeRequest Answer} {q : PurgeRequest} {task : PurgeTask}

/-- The config has a source when it is read. -/
theorem source_ne_nil {out : Except Exn DeleteResult} (hrun : (deleteConfig call).Run h out)
    (hne : h ≠ []) : call.source ≠ [] := by
  intro hnone
  rw [deleteConfig, if_pos hnone] at hrun
  exact hne hrun.1

theorem atOnce_safe (hcondition : PurgeCondition site call)
    (hpath : (site.env.threads PurgeThread).Path names tr names') (ho : o ∈ site.names)
    (hsource : call.source ≠ []) (hpre : h ⊆ part .caller (answered tr))
    (hnow : PurgesNow call h q) (htakes : Takes q o) : Owned site call o ∧ ¬ Foreign site call o := by
  obtain ⟨hsnap, hasync, target, listing, name, hread, haccepted, hlist, hname, hvalid, rfl⟩ := hnow
  have hobject : name = o := by
    rcases htakes with hcmd | ⟨ds, hcmd, -⟩
    · exact PurgeCmd.destroySnapshot.inj hcmd
    · cases hcmd
  subst hobject
  obtain ⟨r, hmem, htarget⟩ := hread
  have hread : ReadsTarget call (part .caller (answered tr)) target := ⟨r, hpre hmem, htarget⟩
  obtain ⟨w₁, w₂, hlisted, -⟩ := respond_of_mem_part hpath (hpre hlist)
  obtain ⟨hauto, hbelow⟩ := hlisted name hname
  have heq := target_of_readsTarget hpath hread haccepted
  rw [heq] at haccepted hbelow
  rw [isSnapshotName, Bool.and_eq_true] at hvalid
  exact hcondition.atOnce ⟨hsource, haccepted⟩ hsnap hasync name ho
    ⟨hauto, eq_true_of_atDollar (noBreak_of_mem_splitLines hname) hvalid.2, hbelow⟩

theorem snapshots_safe (hcondition : PurgeCondition site call)
    (hpath : (site.env.threads PurgeThread).Path names tr names') (ho : o ∈ site.names)
    (hsource : call.source ≠ []) (hsnap : call.purgeSnapshots = true) (hasync : call.purgeAsync = true)
    (hlaunched : Launched call (part .caller (answered tr)) task)
    (hpre : h ⊆ part .snapshots (answered tr)) (hasks : SnapshotAsks task h q) (htakes : Takes q o) :
    Owned site call o ∧ ¬ Foreign site call o := by
  rcases hasks with hquiet | ⟨hsuccess, name, hname, hpoolName, listing, l, hlist, hl, hvalid, rfl⟩
  · exact absurd hquiet (not_quiet htakes)
  · have hobject : strip l = o := by
      rcases htakes with hcmd | ⟨ds, hcmd, -⟩
      · exact PurgeCmd.destroySnapshot.inj hcmd
      · cases hcmd
    have htarget := target_of_readsTarget hpath hlaunched.read hlaunched.accepted
    have haccepted := hlaunched.accepted
    obtain ⟨hbreak, pool, hpool, rfl⟩ := pool_of_poolsFrom hpath hlaunched.pools hsuccess hname
    obtain ⟨w₁, w₂, hlisted, -⟩ := respond_of_mem_part hpath (hpre hlist)
    obtain ⟨hauto, hbelow⟩ := hlisted l hl
    rw [htarget] at haccepted hbelow
    have hpurgeable := purgeable_strip (startsPlain_of_accepted haccepted).branch hauto hbelow
      (noBreak_of_mem_splitLines hl) hvalid
    rw [hobject] at hpurgeable
    refine ⟨owned_of_branch hpool hpurgeable.2.2, ?_⟩
    exact hcondition.snapshots ⟨hsource, haccepted⟩ hsnap hasync (hlaunched.pools hsuccess).1 pool hpool
      (eq_true_of_atDollar hbreak hpoolName) o ho hpurgeable

theorem children_safe (hcondition : PurgeCondition site call)
    (hpath : (site.env.threads PurgeThread).Path names tr names') (ho : o ∈ site.names)
    (hsource : call.source ≠ []) (hchildren : call.purgeChildren = true)
    (hlaunched : Launched call (part .caller (answered tr)) task)
    (hasks : ChildrenAsks task h q) (htakes : Takes q o) :
    Owned site call o ∧ ¬ Foreign site call o := by
  rcases hasks with hquiet | ⟨hsuccess, listing, l, -, hl, hchild, hvalid, rfl⟩
  · exact absurd hquiet (not_quiet htakes)
  · have hbelow : AtOrBelow (datasetOf o) l := by
      rcases htakes with hcmd | ⟨ds, hcmd, hbelow⟩
      · cases hcmd
      · rw [PurgeCmd.destroyTree.inj hcmd]
        exact hbelow
    have haccepted := hlaunched.accepted
    obtain ⟨name, hname, hbranch⟩ := branch_of_isPoolChild hchild
    obtain ⟨-, pool, hpool, rfl⟩ := pool_of_poolsFrom hpath hlaunched.pools hsuccess hname
    rw [isNestedDataset, Bool.and_eq_true] at hvalid
    have hname := eq_true_of_atDollar (noBreak_of_mem_splitLines hl) hvalid.1
    rw [target_of_readsTarget hpath hlaunched.read hlaunched.accepted] at haccepted hbranch
    rw [hbranch] at hbelow hname
    refine ⟨owned_of_branch hpool hbelow, ?_⟩
    exact hcondition.children ⟨hsource, haccepted⟩ hchildren (hlaunched.pools hsuccess).1 pool hpool
      hname o ho hbelow

/-- A request of a history, with the requests before it. -/
theorem asked_of_mem {α : Type} {G : History PurgeRequest Answer → PurgeRequest → Prop}
    {Post : History PurgeRequest Answer → Except Exn α → Prop} {p : PurgeJob α} {a : Answer}
    {out : Except Exn α} (hp : p.Meets G Post []) (hrun : p.Run h out) (hmem : (q, a) ∈ h) :
    ∃ pre, pre ⊆ h ∧ G pre q := by
  obtain ⟨pre, post, rfl⟩ := List.append_of_mem hmem
  exact ⟨pre, List.subset_append_left _ _, by simpa using (hp.sound hrun).1 pre q a post rfl⟩

/-- The history of a task that was started. -/
theorem started_of_mem {f : DeleteResult → Option PurgeTask} {job : PurgeTask → PurgeJob PurgeResult}
    {out : Except Exn DeleteResult} {a : Answer} (hrun : TaskRun job (startedTask f out) h)
    (hmem : (q, a) ∈ h) :
    ∃ result task o, out = .ok result ∧ f result = some task ∧ (job task).Run h o := by
  cases out with
  | error e =>
    have hnil : h = [] := hrun
    rw [hnil] at hmem
    cases hmem
  | ok result =>
    have hrun' : TaskRun job (f result) h := hrun
    cases htask : f result with
    | none =>
      rw [htask] at hrun'
      have hnil : h = [] := hrun'
      rw [hnil] at hmem
      cases hmem
    | some task =>
      rw [htask] at hrun'
      obtain ⟨o, ho⟩ := hrun'
      exact ⟨result, task, o, rfl, htask, ho⟩

theorem safe_of_condition (hcondition : PurgeCondition site call) (hdeletes : Deletes site call names') :
    PurgeSafe site call names' := by
  intro o ho hlost
  obtain ⟨tr, out, hpath, hcaller, hsnapshots, hchildren⟩ := hdeletes
  obtain ⟨t, q, a, hmem, htakes⟩ := exists_takes hpath ho hlost
  obtain ⟨-, htasks⟩ := meets_deleteConfig.sound hcaller
  cases t with
  | caller =>
    obtain ⟨pre, hpre, hquiet | hnow⟩ := asked_of_mem meets_deleteConfig hcaller hmem
    · exact absurd hquiet (not_quiet htakes)
    · exact atOnce_safe hcondition hpath ho (source_ne_nil hcaller (List.ne_nil_of_mem hmem)) hpre hnow
        htakes
  | snapshots =>
    obtain ⟨result, task, o', rfl, htask, hrun⟩ := started_of_mem hsnapshots hmem
    obtain ⟨hsnap, hasync, hlaunched⟩ := (htasks result rfl).1 task htask
    obtain ⟨pre, hpre, hasks⟩ := asked_of_mem meets_snapshotJob hrun hmem
    obtain ⟨r, hread, -⟩ := hlaunched.read
    exact snapshots_safe hcondition hpath ho (source_ne_nil hcaller (List.ne_nil_of_mem hread)) hsnap hasync
      hlaunched hpre hasks htakes
  | children =>
    obtain ⟨result, task, o', rfl, htask, hrun⟩ := started_of_mem hchildren hmem
    obtain ⟨hwanted, hlaunched⟩ := (htasks result rfl).2 task htask
    obtain ⟨pre, -, hasks⟩ := asked_of_mem meets_childrenJob hrun hmem
    obtain ⟨r, hread, -⟩ := hlaunched.read
    exact children_safe hcondition hpath ho (source_ne_nil hcaller (List.ne_nil_of_mem hread)) hwanted
      hlaunched hasks htakes

end Enough

/-! ## The condition is needed -/

theorem exists_quiet (names : List Str) (q : PurgeRequest) :
    ∃ a, site.env.respond names q a names := by
  have hlost : ∀ P : Str → Prop, names ⊆ names ∧ ∀ o ∈ names, o ∉ names → P o :=
    fun P => ⟨List.Subset.refl _, fun o ho hno => absurd ho hno⟩
  have hlines : ∀ P : Str → Prop, ∀ l ∈ splitLines noAnswer.stdout, P l := by
    intro P l hl
    cases hl
  refine ⟨noAnswer, ?_⟩
  show site.respond names q noAnswer names
  unfold PurgeSite.respond
  cases q.cmd with
  | repl cmd => exact ⟨fun path _ hsuccess => (by cases hsuccess), rfl⟩
  | moveConfig path => rfl
  | listPools => exact ⟨fun hsuccess => (by cases hsuccess), rfl⟩
  | listSnapshots root => exact ⟨hlines _, rfl⟩
  | listBranch branch => rfl
  | listChildren ds => exact ⟨hlines _, rfl⟩
  | destroySnapshot name => exact hlost _
  | destroyTree ds => exact hlost _

section Needed

variable {names : List Str} {host : Host}

/-- A part of a deletion that never raises may end without a loss. -/
theorem exists_part {α : Type} (site : PurgeSite) (names : List Str) {p : PurgeJob α}
    (hp : p.NeverRaises) : ∃ value, site.env.Leads p names (.ok value) names :=
  Env.exists_leads_ok (exists_quiet names) hp

theorem neverRaises_destroyEach {cmd : Str → PurgeCmd} {valid : Str → Bool} {limit cut : Nat}
    {d : Destroyed} {xs : List Str} : (destroyEach host cmd valid limit cut d xs).NeverRaises := by
  induction xs generalizing d with
  | nil => trivial
  | cons x xs ih =>
    rw [destroyEach]
    split
    · exact ih
    · exact fun rd => ih

theorem neverRaises_tryLaunch {p : PurgeJob PurgeTask} {label : Str} :
    (tryLaunch p label).NeverRaises := by
  refine (Prog.NeverRaises.attempt p).bind (fun launched => ?_)
  cases launched with
  | ok task => trivial
  | error e => trivial

theorem neverRaises_cronStep (call : DeleteCall) : (cronStep call).NeverRaises := by
  refine (Prog.NeverRaises.attempt _).bind (fun removed => ?_)
  cases removed with
  | ok r => trivial
  | error e => trivial

theorem neverRaises_configStep (call : DeleteCall) (cfg : ConfigRead) :
    (configStep call cfg).NeverRaises := by
  unfold configStep
  split
  · refine Prog.NeverRaises.bind (p := runPurge call.host _) (fun _ => trivial) (fun rm => ?_)
    split_ifs
    all_goals trivial
  · trivial

theorem neverRaises_snapshotStep (call : DeleteCall) (target : Str) :
    (snapshotStep call target).NeverRaises := by
  unfold snapshotStep
  split
  · trivial
  · split
    · trivial
    · split
      · exact neverRaises_tryLaunch.bind (fun _ => trivial)
      · exact fun r => neverRaises_destroyEach.bind (fun _ => trivial)

theorem neverRaises_childrenStep (call : DeleteCall) (target : Str) :
    (childrenStep call target).NeverRaises := by
  unfold childrenStep
  split
  · trivial
  · split
    · trivial
    · exact neverRaises_tryLaunch

/-- A deletion whose third and fourth step go as given. -/
theorem leads_deleteConfig (haccepts : Accepts site call) {names₁ names₂ : List Str}
    {snaps : SnapshotStep} {children : Option PurgeTask × List Str}
    (hsnaps : site.env.Leads (snapshotStep call (site.target call)) names (.ok snaps) names₁)
    (hchildren : site.env.Leads (childrenStep call (site.target call)) names₁ (.ok children) names₂) :
    ∃ out, site.env.Leads (deleteConfig call) names (.ok out) names₂ ∧
      out.purgeTask = snaps.task ∧ out.purgeChildrenTask = children.1 := by
  obtain ⟨hsource, haccepted⟩ := haccepts
  obtain ⟨text, hfile, htext⟩ : ∃ text, site.files (configPathFor call.source) = some text ∧
      configTarget text = site.target call := by
    unfold PurgeSite.target at haccepted ⊢
    cases hfile : site.files (configPathFor call.source) with
    | none =>
      rw [hfile] at haccepted
      exact absurd haccepted (by decide)
    | some text => exact ⟨text, rfl, rfl⟩
  have hne : text ≠ [] := by
    intro hnil
    rw [← htext, hnil] at haccepted
    exact absurd haccepted (by decide)
  have hread : site.env.Leads (onHost call.host (readConfig call.source)) names
      (.ok { present := true, values := (parseConfig text).values, raw := text
             configPath := configPathFor call.source }) names := by
    refine Env.leads_ask (a := prints text) ⟨fun path hpath _ => ?_, rfl⟩ ?_
    · cases hpath
      exact hfile
    · show site.env.Leads (Prog.relabel _ (if _ then _ else _)) _ _ _
      rw [if_neg (by simp [prints, hne])]
      exact Env.leads_ret
  obtain ⟨cron, hcron⟩ := exists_part site names (neverRaises_cronStep call)
  obtain ⟨config, hconfig⟩ := exists_part site names (neverRaises_configStep call _)
  unfold deleteConfig
  rw [if_neg hsource]
  rw [← htext] at hsnaps hchildren
  refine ⟨_, Env.leads_bind hread (Env.leads_bind hcron (Env.leads_bind hconfig
    (Env.leads_bind hsnaps (Env.leads_bind hchildren Env.leads_ret)))), rfl, rfl⟩

/-- The task ends, and leaves these datasets and snapshots. -/
def TaskLeads (site : PurgeSite) (job : PurgeTask → PurgeJob PurgeResult) (task : Option PurgeTask)
    (names names' : List Str) : Prop :=
  match task with
  | none => names' = names
  | some task => ∃ o, site.env.Leads (job task) names o names'

theorem taskLeads_quiet (job : PurgeTask → PurgeJob PurgeResult) (task : Option PurgeTask) :
    TaskLeads site job task names names := by
  cases task with
  | none => rfl
  | some task => exact Env.exists_leads (exists_quiet names) (job task)

theorem TaskLeads.exists_trail {job : PurgeTask → PurgeJob PurgeResult} {task : Option PurgeTask}
    (h : TaskLeads site job task names names') :
    ∃ tr, TaskRun job task (answered tr) ∧ site.env.Path names tr names' := by
  cases task with
  | none => exact ⟨[], rfl, (show names' = names from h).symm⟩
  | some task =>
    obtain ⟨o, tr, hdrives, hpath⟩ := h
    exact ⟨tr, ⟨o, hdrives⟩, hpath⟩

/-- The caller, then the one task, then the other. -/
theorem deletes_of_leads {out : DeleteResult} {names₁ names₂ names₃ : List Str}
    (hcaller : site.env.Leads (deleteConfig call) site.names (.ok out) names₁)
    (hsnapshots : TaskLeads site PurgeTask.snapshotJob out.purgeTask names₁ names₂)
    (hchildren : TaskLeads site PurgeTask.childrenJob out.purgeChildrenTask names₂ names₃) :
    Deletes site call names₃ := by
  obtain ⟨tr₁, hdrives, hpath₁⟩ := hcaller
  obtain ⟨tr₂, hrun₂, hpath₂⟩ := hsnapshots.exists_trail
  obtain ⟨tr₃, hrun₃, hpath₃⟩ := hchildren.exists_trail
  have hparts : ∀ t, part t (answered (tag PurgeThread.caller tr₁ ++ (tag .snapshots tr₂ ++
      tag .children tr₃))) = part t (answered (tag PurgeThread.caller tr₁)) ++
        (part t (answered (tag PurgeThread.snapshots tr₂)) ++
          part t (answered (tag PurgeThread.children tr₃))) := by
    intro t
    rw [answered_append, answered_append, part_append, part_append]
  refine ⟨tag .caller tr₁ ++ (tag .snapshots tr₂ ++ tag .children tr₃), .ok out, ?_, ?_, ?_, ?_⟩
  · exact Env.path_append.mpr ⟨names₁, hpath₁.tag, Env.path_append.mpr ⟨names₂, hpath₂.tag, hpath₃.tag⟩⟩
  · rw [hparts, part_tag, part_tag_of_ne (by decide), part_tag_of_ne (by decide)]
    simp only [List.append_nil]
    exact hdrives
  · rw [hparts, part_tag, part_tag_of_ne (by decide), part_tag_of_ne (by decide)]
    simp only [List.append_nil, List.nil_append]
    exact hrun₂
  · rw [hparts, part_tag, part_tag_of_ne (by decide), part_tag_of_ne (by decide)]
    simp only [List.nil_append]
    exact hrun₃

end Needed

/-! ### The three purges -/

theorem lines_of_plain {s : Str} (h : ∀ c ∈ s, isSpace c = false) (hne : s ≠ []) :
    splitLines s = [s] ∧ strip s = s :=
  ⟨splitLines_line (fun c hc => isLineBreak_of_isSpace (h c hc)) hne, strip_eq_self h⟩

theorem isSpace_of_isZfsNameChar {c : Char} (h : isZfsNameChar c = true) : isSpace c = false := by
  have hcases : isDatasetChar c = true ∨ c = '@' := by
    simp only [isZfsNameChar, isDatasetChar, Bool.or_eq_true, beq_iff_eq, List.contains_iff_mem] at h ⊢
    have hlist : "_./@:-".toList = ['_', '.', '/', '@', ':', '-'] := by decide
    rw [hlist] at h
    simp only [List.mem_cons, List.not_mem_nil, or_false] at h
    tauto
  rcases hcases with hname | rfl
  · exact isSpace_of_isDatasetChar hname
  · rfl

theorem Purgeable.lines {root : Str} (h : Purgeable root o) :
    splitLines o = [o] ∧ strip o = o ∧ o ≠ [] ∧ isSnapshotName o = true := by
  obtain ⟨hauto, hname, -⟩ := h
  have hchars := hname
  rw [isObjectName, Bool.and_eq_true, bne_iff_ne] at hchars
  obtain ⟨hline, hstrip⟩ := lines_of_plain
    (fun c hc => isSpace_of_isZfsNameChar (List.all_eq_true.mp hchars.2 c hc)) hchars.1
  have hat : '@' ∈ o := (of_decide_eq_true hauto).subset (by decide)
  refine ⟨hline, hstrip, hchars.1, ?_⟩
  rw [isSnapshotName, Bool.and_eq_true, List.contains_iff_mem]
  exact ⟨hat, atDollar_of_eq_true hname⟩

/-- A listing of one plain name. -/
theorem strippedLines_of_plain {s : Str} (hline : splitLines s = [s]) (hstrip : strip s = s)
    (hne : s ≠ []) : strippedLines s = [s] := by
  rw [strippedLines, hline, List.map_singleton, hstrip, List.filter_singleton]
  simp [hne]

section Purges

variable {names : List Str} {host : Host}

theorem leads_run {cmd : PurgeCmd} {a : Answer} (hstep : site.respond names ⟨host, cmd⟩ a names') :
    site.env.Leads (runPurge host cmd) names (.ok a) names' :=
  Env.leads_ask hstep Env.leads_ret

theorem leads_destroyOne {cmd : Str → PurgeCmd} {valid : Str → Bool} (limit cut : Nat) {name : Str}
    (hvalid : valid name = true)
    (hstep : site.respond names ⟨host, cmd name⟩ (prints []) names') :
    ∃ d, site.env.Leads (destroyEach host cmd valid limit cut {} [name]) names (.ok d) names' := by
  rw [destroyEach, if_neg (by simp [hvalid])]
  exact ⟨_, Env.leads_ask hstep Env.leads_ret⟩

/-- Without the snapshot, everything else as before. -/
theorem respond_destroySnapshot (site : PurgeSite) (names : List Str) (host : Host) {a : Answer} :
    site.respond names ⟨host, .destroySnapshot o⟩ a (names.filter (· ≠ o)) := by
  refine ⟨List.filter_subset_self _, fun x hx hlost => ?_⟩
  by_contra hne
  exact hlost (List.mem_filter.mpr ⟨hx, by simpa using hne⟩)

theorem respond_destroyTree (site : PurgeSite) (names : List Str) (host : Host) {ds : Str}
    {a : Answer} :
    site.respond names ⟨host, .destroyTree ds⟩ a
      (names.filter (fun x => ¬ AtOrBelow (datasetOf x) ds)) := by
  refine ⟨List.filter_subset_self _, fun x hx hlost => ?_⟩
  by_contra hnot
  exact hlost (List.mem_filter.mpr ⟨hx, by simpa using hnot⟩)

theorem respond_listSnapshots {root : Str} (ho : Purgeable root o) :
    site.respond names ⟨host, .listSnapshots root⟩ (prints o) names := by
  have hlines : splitLines (prints o).stdout = [o] := ho.lines.1
  refine ⟨fun l hl => ?_, rfl⟩
  rw [hlines] at hl
  cases List.mem_singleton.mp hl
  exact ⟨ho.1, ho.2.2⟩

theorem leads_purgeNow (site : PurgeSite) (names : List Str) (host : Host) {target : Str}
    (ho : Purgeable target o) :
    ∃ step, site.env.Leads (purgeNow host target) names (.ok step) (names.filter (· ≠ o)) := by
  obtain ⟨hline, hstrip, hne, hvalid⟩ := ho.lines
  have hlines : splitLines (prints o).stdout = [o] := hline
  have hnames : (splitLines (prints o).stdout).filter (fun l => strip l ≠ []) = [o] := by
    rw [hlines, List.filter_singleton, hstrip]
    simp [hne]
  obtain ⟨d, hd⟩ := leads_destroyOne 5 120 hvalid (respond_destroySnapshot site names host)
  refine Env.exists_leads_bind (leads_run (respond_listSnapshots ho)) ?_
  dsimp only
  rw [hnames]
  exact ⟨_, Env.leads_bind hd Env.leads_ret⟩

/-- The task that is started when the source host names one pool. -/
def onePoolTask (call : DeleteCall) (target : Str) (pool : Pool) : PurgeTask :=
  ⟨call.host, target, ⟨true, [pool.name], []⟩⟩

theorem leads_tryLaunch {target label : Str} {pool : Pool} (haccepted : targetError target = none)
    (hsource : call.sourceHost.isSome = true) (hpool : pool ∈ site.pools)
    (hplain : ∀ c ∈ pool.name, isSpace c = false) :
    site.env.Leads (tryLaunch (launchPurge call.host target call.sourceHost) label) names
      (.ok (some (onePoolTask call target pool), [])) names := by
  obtain ⟨source, hsome⟩ := Option.isSome_iff_exists.mp hsource
  obtain ⟨hline, hstrip⟩ := lines_of_plain hplain pool.ne_nil
  have hlisted : strippedLines (prints pool.name).stdout = [pool.name] :=
    strippedLines_of_plain hline hstrip pool.ne_nil
  have hnested : isNestedDataset target = true := by
    unfold targetError at haccepted
    rw [isNestedDataset, Bool.and_eq_true]
    by_contra hbad
    split_ifs at haccepted
    · rename_i hname hslash
      exact hbad ⟨by simpa using hname, by simpa using hslash⟩
  have hlaunch : site.env.Leads (launchPurge call.host target call.sourceHost) names
      (.ok (onePoolTask call target pool)) names := by
    rw [hsome, launchPurge, if_neg (by simp [hnested])]
    have hpools : site.env.Leads (sourcePoolNames (some source)) names
        (.ok ⟨true, [pool.name], []⟩) names := by
      refine Env.leads_bind (leads_run (a := prints pool.name) ⟨fun _ l hl => ?_, rfl⟩) ?_
      · rw [hlisted] at hl
        exact ⟨pool, hpool, (List.mem_singleton.mp hl).symm⟩
      · dsimp only
        rw [if_neg (by simp [prints]), if_neg (by simp [hlisted]), hlisted]
        exact Env.leads_ret
    exact Env.leads_bind hpools Env.leads_ret
  exact Env.leads_bind (Env.leads_attempt hlaunch) Env.leads_ret

theorem leads_snapshotJob (site : PurgeSite) (call : DeleteCall) (names : List Str) {target : Str}
    {pool : Pool} (hpool : isPoolName pool.name = true)
    (ho : Purgeable (branchOf target pool.name) o) :
    ∃ r, site.env.Leads (onePoolTask call target pool).snapshotJob names (.ok r)
      (names.filter (· ≠ o)) := by
  obtain ⟨hline, hstrip, hne, hvalid⟩ := ho.lines
  have hlisted : strippedLines (prints o).stdout = [o] := strippedLines_of_plain hline hstrip hne
  have hbranch : site.env.Leads (branchSnapshots call.host target [pool.name]) names (.ok [o]) names := by
    rw [branchSnapshots, if_neg (by simp [atDollar_of_eq_true hpool])]
    refine Env.leads_bind (leads_run (a := prints o) rfl) ?_
    rw [if_neg (by simp [prints, hstrip, hne])]
    refine Env.leads_bind (leads_run (respond_listSnapshots ho)) ?_
    rw [hlisted]
    exact Env.leads_bind Env.leads_ret Env.leads_ret
  obtain ⟨d, hd⟩ := leads_destroyOne 10 120 hvalid (respond_destroySnapshot site names call.host)
  exact ⟨_, Env.leads_bind hbranch (Env.leads_bind hd Env.leads_ret)⟩

theorem leads_childrenJob (site : PurgeSite) (call : DeleteCall) (names : List Str) {target : Str}
    {pool : Pool} (hname : isDatasetName (branchOf target pool.name) = true) :
    ∃ r, site.env.Leads (onePoolTask call target pool).childrenJob names (.ok r)
      (names.filter (fun x => ¬ AtOrBelow (datasetOf x) (branchOf target pool.name))) := by
  have hchars := hname
  rw [isDatasetName, Bool.and_eq_true, bne_iff_ne] at hchars
  obtain ⟨hline, hstrip⟩ := lines_of_plain
    (fun c hc => isSpace_of_isDatasetChar (List.all_eq_true.mp hchars.2 c hc)) hchars.1
  have hlines : splitLines (prints (branchOf target pool.name)).stdout = [branchOf target pool.name] :=
    hline
  have hat : '@' ∉ pool.name := by
    intro hmem
    have hchar := List.all_eq_true.mp hchars.2 '@'
      (List.mem_append_right _ (List.mem_cons_of_mem _ hmem))
    exact absurd hchar (by decide)
  have hslash : '/' ∈ branchOf target pool.name := by
    rw [branchOf]
    simp
  have hother : branchOf target pool.name ≠ target := by
    intro heq
    have hlength := congrArg List.length heq
    rw [branchOf, List.length_append, List.length_cons] at hlength
    omega
  have hdrop : (branchOf target pool.name).drop (target.length + 1) = pool.name := by
    have hsplit : branchOf target pool.name = (target ++ ['/']) ++ pool.name := by
      rw [List.append_assoc]
      rfl
    rw [hsplit]
    exact List.drop_left' (by rw [List.length_append]; rfl)
  have hchild : isPoolChild target [pool.name] (branchOf target pool.name) = true := by
    have hstart : startsWith (branchOf target pool.name) (target ++ ['/']) = true :=
      List.isPrefixOf_iff_prefix.mpr ⟨pool.name, by rw [List.append_assoc]; rfl⟩
    rw [isPoolChild, hstart, hdrop]
    simp [pool.ne_nil]
  have hvalid : isNestedDataset (branchOf target pool.name) = true := by
    rw [isNestedDataset, Bool.and_eq_true, List.contains_iff_mem]
    exact ⟨atDollar_of_eq_true hname, hslash⟩
  obtain ⟨d, hd⟩ := leads_destroyOne 10 160 hvalid (respond_destroyTree site names call.host)
  refine Env.exists_leads_bind (leads_run (a := prints (branchOf target pool.name))
    ⟨fun l hl => ?_, rfl⟩) ?_
  · rw [hlines] at hl
    exact .inr ⟨pool.name, pool.noSlash, hat, List.mem_singleton.mp hl⟩
  · dsimp only [onePoolTask]
    have hlisted : listedDatasets target (prints (branchOf target pool.name)).stdout =
        [branchOf target pool.name] := by
      rw [listedDatasets, hlines, List.filter_singleton, hstrip]
      simp [hchars.1, hother]
    rw [hlisted, List.filter_singleton, hchild]
    exact ⟨_, Env.leads_bind hd Env.leads_ret⟩

end Purges

theorem ne_nil_of_accepted {target : Str} (h : targetError target = none) : target ≠ [] := by
  intro hnil
  rw [hnil] at h
  exact absurd h (by decide)

/-! ## The condition is exact -/

theorem deletes_atOnce (haccepts : Accepts site call) (hsnap : call.purgeSnapshots = true)
    (hasync : call.purgeAsync = false) (ho : Purgeable (site.target call) o) :
    Deletes site call (site.names.filter (· ≠ o)) := by
  have hstep : snapshotStep call (site.target call) = purgeNow call.host (site.target call) := by
    rw [snapshotStep, if_neg (by simp [hsnap, ne_nil_of_accepted haccepts.2]), haccepts.2]
    simp [hasync]
  obtain ⟨step, hsnaps⟩ := leads_purgeNow site site.names call.host ho
  rw [← hstep] at hsnaps
  obtain ⟨children, hchildren⟩ := exists_part site (site.names.filter (· ≠ o))
    (neverRaises_childrenStep call (site.target call))
  obtain ⟨out, hcaller, -, -⟩ := leads_deleteConfig haccepts hsnaps hchildren
  exact deletes_of_leads hcaller (taskLeads_quiet _ _) (taskLeads_quiet _ _)

theorem deletes_snapshots (haccepts : Accepts site call) (hsnap : call.purgeSnapshots = true)
    (hasync : call.purgeAsync = true) (hsource : call.sourceHost.isSome = true) {pool : Pool}
    (hpool : pool ∈ site.pools) (hname : isPoolName pool.name = true)
    (ho : Purgeable (branchOf (site.target call) pool.name) o) :
    Deletes site call (site.names.filter (· ≠ o)) := by
  have hplain : ∀ c ∈ pool.name, isSpace c = false := by
    intro c hc
    rw [isPoolName, Bool.and_eq_true] at hname
    exact isSpace_of_isFileNameChar (List.all_eq_true.mp hname.2 c hc)
  have hstep : site.env.Leads (snapshotStep call (site.target call)) site.names
      (.ok { task := some (onePoolTask call (site.target call) pool) }) site.names := by
    rw [snapshotStep, if_neg (by simp [hsnap, ne_nil_of_accepted haccepts.2]), haccepts.2]
    simp only [hasync, if_true]
    exact Env.leads_bind (leads_tryLaunch haccepts.2 hsource hpool hplain) Env.leads_ret
  obtain ⟨children, hchildren⟩ := exists_part site site.names
    (neverRaises_childrenStep call (site.target call))
  obtain ⟨out, hcaller, htask, -⟩ := leads_deleteConfig haccepts hstep hchildren
  obtain ⟨r, hjob⟩ := leads_snapshotJob site call site.names hname ho
  have htaskLeads : TaskLeads site PurgeTask.snapshotJob out.purgeTask site.names
      (site.names.filter (· ≠ o)) := by
    rw [htask]
    exact ⟨_, hjob⟩
  exact deletes_of_leads hcaller htaskLeads (taskLeads_quiet _ _)

theorem deletes_children (haccepts : Accepts site call) (hwanted : call.purgeChildren = true)
    (hsource : call.sourceHost.isSome = true) {pool : Pool} (hpool : pool ∈ site.pools)
    (hname : isDatasetName (branchOf (site.target call) pool.name) = true) :
    Deletes site call (site.names.filter
      (fun x => ¬ AtOrBelow (datasetOf x) (branchOf (site.target call) pool.name))) := by
  have hplain : ∀ c ∈ pool.name, isSpace c = false := by
    intro c hc
    rw [isDatasetName, Bool.and_eq_true] at hname
    exact isSpace_of_isDatasetChar (List.all_eq_true.mp hname.2 c
      (List.mem_append_right _ (List.mem_cons_of_mem _ hc)))
  have hstep : site.env.Leads (childrenStep call (site.target call)) site.names
      (.ok (some (onePoolTask call (site.target call) pool), [])) site.names := by
    rw [childrenStep, if_neg (by simp [hwanted, ne_nil_of_accepted haccepts.2]), haccepts.2]
    exact leads_tryLaunch haccepts.2 hsource hpool hplain
  obtain ⟨snaps, hsnaps⟩ := exists_part site site.names
    (neverRaises_snapshotStep call (site.target call))
  obtain ⟨out, hcaller, -, htask⟩ := leads_deleteConfig haccepts hsnaps hstep
  obtain ⟨r, hjob⟩ := leads_childrenJob site call site.names hname
  have htaskLeads : TaskLeads site PurgeTask.childrenJob out.purgeChildrenTask site.names
      (site.names.filter
        (fun x => ¬ AtOrBelow (datasetOf x) (branchOf (site.target call) pool.name))) := by
    rw [htask]
    exact ⟨_, hjob⟩
  exact deletes_of_leads hcaller (taskLeads_quiet _ _) htaskLeads

/-- Every deletion is safe when and only when the auto-snapshots that a purge
at once finds are the config's own, and no branch of a source pool that a task
purges reaches into the target of another config. -/
theorem deletion_safe_iff (site : PurgeSite) (call : DeleteCall) :
    (∀ names', Deletes site call names' → PurgeSafe site call names') ↔ PurgeCondition site call := by
  constructor
  · intro hsafe
    refine ⟨?_, ?_, ?_⟩
    · intro haccepts hsnap hasync o ho hpurgeable
      exact hsafe _ (deletes_atOnce haccepts hsnap hasync hpurgeable) o ho (by simp)
    · intro haccepts hsnap hasync hsource pool hpool hname o ho hpurgeable
      have hdeletes := deletes_snapshots haccepts hsnap hasync hsource hpool hname hpurgeable
      exact (hsafe _ hdeletes o ho (by simp)).2
    · intro haccepts hwanted hsource pool hpool hname o ho hbelow
      have hdeletes := deletes_children haccepts hwanted hsource hpool hname
      exact (hsafe _ hdeletes o ho (by simp [hbelow])).2
  · intro hcondition names' hdeletes
    exact safe_of_condition hcondition hdeletes

/-- A deletion that takes one snapshot of another config. -/
theorem not_safe_without (ho : o ∈ site.names) (hforeign : Foreign site call o) :
    ¬ PurgeSafe site call (site.names.filter (· ≠ o)) := by
  intro hsafe
  exact (hsafe o ho (by simp)).2 hforeign

/-- The pool of the source host in the concrete runs. -/
def rpool : Pool := ⟨"rpool", by decide, by decide⟩

/-- Two configs, and one auto-snapshot. -/
def twoConfigs (otherTarget snapshot : Str) : PurgeSite where
  files path :=
    if path = "/etc/bashclub/10.0.0.5.conf" then some "target=tank/repl\n"
    else if path = "/etc/bashclub/10.0.0.6.conf" then some ("target=" ++ otherTarget ++ "\n")
    else none
  names := [snapshot]
  pools := [rpool]

/-- A deletion of the first config, with a purge of the auto-snapshots. -/
def firstDeleted (purgeAsync : Bool) : DeleteCall :=
  ⟨hostB, "root@10.0.0.5", true, false, purgeAsync, some hostA⟩

/-- The second config has a target of its own below the target of the first. -/
def nestedTargets : PurgeSite := twoConfigs "tank/repl/b" "tank/repl/b/rpool@zfs-auto-snap_daily"

/-- The second config has the target of the first. -/
def sharedTarget : PurgeSite := twoConfigs "tank/repl" "tank/repl/rpool@zfs-auto-snap_daily"

/-- A purge at once takes the replica of a config whose target is nested, and
a task that of a config whose target is the same. -/
theorem deletion_takes_others :
    (∃ names', Deletes nestedTargets (firstDeleted false) names' ∧
      ¬ PurgeSafe nestedTargets (firstDeleted false) names') ∧
    ∃ names', Deletes sharedTarget (firstDeleted true) names' ∧
      ¬ PurgeSafe sharedTarget (firstDeleted true) names' := by
  have hconf : isConfPath "/etc/bashclub/10.0.0.6.conf" = true := by decide
  have hpath : ("/etc/bashclub/10.0.0.6.conf" : Str) ≠ configPathFor "root@10.0.0.5" := by
    decide
  constructor
  · have hpurgeable : Purgeable (nestedTargets.target (firstDeleted false))
        "tank/repl/b/rpool@zfs-auto-snap_daily" :=
      ⟨by decide, by decide, by decide⟩
    have hforeign : Foreign nestedTargets (firstDeleted false)
        "tank/repl/b/rpool@zfs-auto-snap_daily" :=
      ⟨_, "target=tank/repl/b\n", hconf, hpath, by decide, by decide,
        by decide⟩
    have haccepts : Accepts nestedTargets (firstDeleted false) := ⟨by decide, by decide⟩
    have hdeletes := deletes_atOnce haccepts rfl rfl hpurgeable
    exact ⟨_, hdeletes, not_safe_without List.mem_cons_self hforeign⟩
  · have hpurgeable : Purgeable (branchOf (sharedTarget.target (firstDeleted true)) rpool.name)
        "tank/repl/rpool@zfs-auto-snap_daily" :=
      ⟨by decide, by decide, by decide⟩
    have hforeign : Foreign sharedTarget (firstDeleted true)
        "tank/repl/rpool@zfs-auto-snap_daily" :=
      ⟨_, "target=tank/repl\n", hconf, hpath, by decide, by decide,
        by decide⟩
    have haccepts : Accepts sharedTarget (firstDeleted true) := ⟨by decide, by decide⟩
    have hpool : rpool ∈ sharedTarget.pools := List.mem_cons_self
    have hdeletes := deletes_snapshots haccepts rfl rfl rfl hpool (by decide) hpurgeable
    exact ⟨_, hdeletes, not_safe_without List.mem_cons_self hforeign⟩

end PveZfsTool.Replication
