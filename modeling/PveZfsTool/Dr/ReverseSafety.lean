import PveZfsTool.Dr.ReverseSync

/-!
# What a forced reverse sync overwrites

With `force` the job receives with `-F`, which rolls the destination back.
Before it does, it asks the destination for snapshots and refuses when it
lists one.  It asks for the destination dataset only, while the stream also
carries the datasets below the replica; and an answer that failed reads like
an empty list.

`reverseSync_guarded_iff` says exactly when a run receives with `-F` only
where nothing is lost, and `reverseSync_overwrites` is a run that does not.
-/

namespace PveZfsTool

open Dialogue Text

/-- What lies at the two ends when the destination is checked. -/
structure Ends where
  /-- The datasets below the replica that the stream carries, relative to
  it. -/
  streamed : List Str
  /-- The snapshots of each dataset of the destination host.  There are none
  for a dataset that does not exist. -/
  snapshots : Str → List Str

/-- The datasets that the stream writes to. -/
def Ends.written (w : Ends) (ds : Str) : List Str :=
  ds :: w.streamed.map (fun rel => ds ++ "/" ++ rel)

/-- The answer to the destination check is what the destination holds: the
first five snapshots of the dataset itself. -/
def Truthful (w : Ends) (dest : Destination) (r : Answer) : Prop :=
  destSnapshots r = (w.snapshots dest.dataset).take 5

/-- The request receives with `-F` at the destination. -/
def forcesReceive (dest : Destination) : DrCmd → Bool
  | .sendReceive _ d force => d = dest && force
  | _ => false

/-- The log shows a check of the destination that succeeded and listed no
snapshot, and no dataset that the stream writes to holds one. -/
def NothingLost (w : Ends) (host : Host) (dest : Destination) (log : DrLog) : Prop :=
  (∃ r, ((host, .destinationCheck dest), r) ∈ log ∧ r.success = true ∧ destSnapshots r = []) ∧
    ∀ ds ∈ w.written dest.dataset, w.snapshots ds = []

/-- Every receive with `-F` comes after a check by which nothing is lost. -/
def Guarded (w : Ends) (log : DrLog) : Prop :=
  EachRequest (fun pre q => ∀ dest, forcesReceive dest q.2 = true → NothingLost w q.1 dest pre) log

/-- What is needed of the answer to the destination check when it lists no
snapshot: it succeeded, it is what the destination holds or the dataset holds
nothing, and the stream writes to no dataset below with snapshots. -/
def CheckSuffices (w : Ends) (dest : Destination) (r : Answer) : Prop :=
  r.success = true ∧ (Truthful w dest r ∨ w.snapshots dest.dataset = []) ∧
    ∀ rel ∈ w.streamed, w.snapshots (dest.dataset ++ "/" ++ rel) = []

/-- Where the check listed nothing, what is needed of it is that nothing is
lost. -/
theorem checkSuffices_iff {w : Ends} {dest : Destination} {r : Answer}
    (hempty : destSnapshots r = []) :
    CheckSuffices w dest r ↔
      r.success = true ∧ ∀ ds ∈ w.written dest.dataset, w.snapshots ds = [] := by
  have hown : (Truthful w dest r ∨ w.snapshots dest.dataset = []) ↔
      w.snapshots dest.dataset = [] := by
    constructor
    · rintro (htruthful | hnone)
      · rw [Truthful, hempty] at htruthful
        simpa using htruthful
      · exact hnone
    · exact Or.inr
  simp only [CheckSuffices, hown, Ends.written, List.mem_cons, List.mem_map, forall_eq_or_imp,
    forall_exists_index, and_imp, forall_apply_eq_imp_iff₂]

/-! ## The runs of the job -/

/-- The request neither checks the destination nor receives. -/
def Preparation (q : Host × DrCmd) : Prop :=
  (∀ dest, q.2 ≠ .destinationCheck dest) ∧ ∀ dest, forcesReceive dest q.2 = false

theorem preparation_refreshKey (req : ReverseRequest) : (refreshKey req).Uses Preparation := by
  unfold refreshKey
  split
  · exact ⟨⟨fun _ => nofun, fun _ => rfl⟩, fun _ => trivial⟩
  · trivial

theorem preparation_chooseSnapshot (req : ReverseRequest) :
    (chooseSnapshot req).Uses Preparation := by
  unfold chooseSnapshot
  split
  · trivial
  · exact ⟨⟨fun _ => nofun, fun _ => rfl⟩, fun _ => trivial⟩

/-- The transfer is one command. -/
theorem run_sendReplica {req : ReverseRequest} {fullSnap : Str} {log : DrLog}
    {o : Except Exn ReverseResult} (h : (sendReplica req fullSnap).Run log o) :
    ∃ r, log = [((req.targetHost, .sendReceive fullSnap req.dest req.force), r)] := by
  obtain ⟨r, rest, rfl, hrest⟩ := Prog.run_ask.mp h
  refine ⟨r, ?_⟩
  have hnil : rest = [] := by
    dsimp only [Prog.bind] at hrest
    split at hrest
    · exact (Prog.run_raise.mp hrest).1
    · exact (Prog.run_ret.mp hrest).1
  rw [hnil]

/-- How the job goes on once it has its snapshot. -/
inductive SendLog (req : ReverseRequest) (fullSnap : Str) : DrLog → Prop
  | plain (r : Answer) (hforce : req.force = false) :
      SendLog req fullSnap [((req.targetHost, .sendReceive fullSnap req.dest false), r)]
  | aborted (cr : Answer) (hforce : req.force = true) (hlisted : destSnapshots cr ≠ []) :
      SendLog req fullSnap [((req.targetHost, .destinationCheck req.dest), cr)]
  | forced (cr r : Answer) (hforce : req.force = true) (hlisted : destSnapshots cr = []) :
      SendLog req fullSnap [((req.targetHost, .destinationCheck req.dest), cr),
        ((req.targetHost, .sendReceive fullSnap req.dest true), r)]

theorem run_checkAndSend {req : ReverseRequest} {fullSnap : Str} {log : DrLog}
    {o : Except Exn ReverseResult} (h : (checkAndSend req fullSnap).Run log o) :
    SendLog req fullSnap log := by
  unfold checkAndSend at h
  cases hforce : req.force with
  | false =>
    rw [hforce] at h
    obtain ⟨r, rfl⟩ := run_sendReplica h
    rw [hforce]
    exact .plain r hforce
  | true =>
    rw [hforce] at h
    obtain ⟨cr, rest, rfl, hrest⟩ := Prog.run_ask.mp h
    change Prog.Run (if destSnapshots cr ≠ [] then _ else _) rest o at hrest
    split at hrest
    · rename_i hlisted
      obtain ⟨rfl, -⟩ := Prog.run_ret.mp hrest
      exact .aborted cr hforce hlisted
    · rename_i hlisted
      obtain ⟨r, rfl⟩ := run_sendReplica hrest
      rw [hforce]
      exact .forced cr r hforce (by simpa using hlisted)

/-- A run prepares, and then goes on once it has a snapshot. -/
theorem run_reverseSync {req : ReverseRequest} {log : DrLog} {o : Except Exn ReverseResult}
    (h : (reverseSync req).Run log o) :
    ∃ front rest, log = front ++ rest ∧ (∀ entry ∈ front, Preparation entry.1) ∧
      (rest = [] ∨ ∃ fullSnap, SendLog req fullSnap rest) := by
  unfold reverseSync at h
  split at h
  · obtain ⟨rfl, -⟩ := Prog.run_raise.mp h
    exact ⟨[], [], rfl, by simp, Or.inl rfl⟩
  · rcases Prog.run_bind.mp h with ⟨log₁, log, u, rfl, hkey, h⟩ | ⟨e, herr, -⟩
    · have hfront₁ := (preparation_refreshKey req).sound hkey
      rcases Prog.run_bind.mp h with ⟨log₂, log, snap, rfl, hsnap, h⟩ | ⟨e, herr, -⟩
      · have hfront₂ := (preparation_chooseSnapshot req).sound hsnap
        refine ⟨log₁ ++ log₂, log, by simp, List.forall_mem_append.mpr ⟨hfront₁, hfront₂⟩, ?_⟩
        cases snap with
        | none => exact Or.inl (Prog.run_ret.mp h).1
        | some snap =>
          change Prog.Run (if matchesSnapRe snap then _ else _) log o at h
          split at h
          · exact Or.inr ⟨_, run_checkAndSend h⟩
          · exact Or.inl (Prog.run_ret.mp h).1
      · refine ⟨log₁ ++ log, [], by simp, ?_, Or.inl rfl⟩
        exact List.forall_mem_append.mpr
          ⟨hfront₁, (preparation_chooseSnapshot req).sound herr⟩
    · exact ⟨log, [], by simp, (preparation_refreshKey req).sound herr, Or.inl rfl⟩

/-! ## Guarded runs -/

/-- A front that only prepares adds nothing that is guarded, and nothing that
guards. -/
theorem guarded_front {w : Ends} {front log : DrLog}
    (hfront : ∀ entry ∈ front, Preparation entry.1) : Guarded w (front ++ log) ↔ Guarded w log := by
  have hcheck : ∀ host dest pre, NothingLost w host dest (front ++ pre) ↔
      NothingLost w host dest pre := by
    intro host dest pre
    refine and_congr_left (fun _ => ?_)
    constructor
    · rintro ⟨r, hmem, hr⟩
      rcases List.mem_append.mp hmem with hmem | hmem
      · exact absurd rfl ((hfront _ hmem).1 dest)
      · exact ⟨r, hmem, hr⟩
    · rintro ⟨r, hmem, hr⟩
      exact ⟨r, List.mem_append_right _ hmem, hr⟩
  constructor
  · intro h pre q a post heq dest hforces
    exact (hcheck _ _ _).mp (h (front ++ pre) q a post (by simp [heq]) dest hforces)
  · intro h pre q a post heq dest hforces
    -- the receive does not stand in the front
    obtain ⟨k, rfl, hk⟩ := split_after (P := fun entry => forcesReceive dest entry.1.2 = true) heq
      (fun entry hmem => by simp [(hfront entry hmem).2 dest]) hforces
    exact (hcheck _ _ _).mpr (h k q a post hk dest hforces)

/-- The three ways the job goes on are guarded exactly when the check that
lists nothing suffices. -/
theorem SendLog.guarded_iff {w : Ends} {req : ReverseRequest} {fullSnap : Str} {log : DrLog}
    (h : SendLog req fullSnap log) :
    Guarded w log ↔ ∀ cr, ((req.targetHost, .destinationCheck req.dest), cr) ∈ log →
      destSnapshots cr = [] → CheckSuffices w req.dest cr := by
  cases h with
  | plain r hforce =>
    refine iff_of_true ?_ (by simp)
    simp [Guarded, forcesReceive]
  | aborted cr hforce hlisted =>
    refine iff_of_true ?_ ?_
    · simp [Guarded, forcesReceive]
    · intro cr' hmem hempty
      obtain rfl : cr' = cr := by simpa using hmem
      exact absurd hempty hlisted
  | forced cr r hforce hlisted =>
    simp only [List.mem_cons, Prod.mk.injEq, true_and, reduceCtorEq, and_false, false_and,
      List.not_mem_nil, or_false, forall_eq, hlisted, forall_const, checkSuffices_iff hlisted]
    simp [Guarded, forcesReceive, NothingLost, hlisted]

/-- A run of `reverse_sync_async` receives with `-F` only where nothing is
lost, exactly when its destination check suffices: where it lists no
snapshot, its answer succeeded and the stream writes to no other dataset with
snapshots. -/
theorem reverseSync_guarded_iff {w : Ends} {req : ReverseRequest} {log : DrLog}
    {o : Except Exn ReverseResult} (h : (reverseSync req).Run log o) :
    Guarded w log ↔ ∀ cr, ((req.targetHost, .destinationCheck req.dest), cr) ∈ log →
      destSnapshots cr = [] → CheckSuffices w req.dest cr := by
  obtain ⟨front, rest, rfl, hfront, hrest⟩ := run_reverseSync h
  rw [guarded_front hfront]
  have hchecks : ∀ cr, ((req.targetHost, DrCmd.destinationCheck req.dest), cr) ∈ front ++ rest ↔
      ((req.targetHost, DrCmd.destinationCheck req.dest), cr) ∈ rest := by
    intro cr
    rw [List.mem_append, or_iff_right]
    exact fun hmem => (hfront _ hmem).1 req.dest rfl
  simp only [hchecks]
  rcases hrest with rfl | ⟨fullSnap, hsend⟩
  · simp [Guarded]
  · exact hsend.guarded_iff

/-- A forced request for one replica. -/
def forcedRequest : ReverseRequest :=
  ⟨hostA, "tank/repl/rpool/data", "tank/repl", "10.0.0.2", 22, "root", [], "s1", true, false⟩

/-- The log of a forced request whose check was answered with `cr`. -/
def forcedLog (cr : Answer) : DrLog :=
  [((hostA, .destinationCheck ⟨"root", "10.0.0.2", 22, "rpool/data"⟩), cr),
    ((hostA, .sendReceive "tank/repl/rpool/data@s1" ⟨"root", "10.0.0.2", 22, "rpool/data"⟩ true),
      prints "__exit=0")]

/-- The stream carries one dataset below the replica, of which the destination
holds a snapshot when `old` is set. -/
def oneBelow (old : Bool) : Ends :=
  ⟨["vm-100-disk-0"], fun ds =>
    if old ∧ ds = ("rpool/data/vm-100-disk-0" : Str) then ["rpool/data/vm-100-disk-0@new"] else []⟩

theorem reverseSync_guarded_empty :
    ∃ o, (reverseSync forcedRequest).Run (forcedLog (prints [])) o ∧
      (Guarded (oneBelow false) (forcedLog (prints [])) ↔
        ∀ cr, ((hostA, .destinationCheck forcedRequest.dest), cr) ∈ forcedLog (prints []) →
          destSnapshots cr = [] → CheckSuffices (oneBelow false) forcedRequest.dest cr) := by
  have htranscript : ((reverseSync forcedRequest).transcript
      [prints [], prints "__exit=0"]).map Prod.fst = some (forcedLog (prints [])) := by
    decide
  obtain ⟨o, hrun⟩ := Prog.exists_run_of_transcript _ htranscript
  exact ⟨o, hrun, reverseSync_guarded_iff hrun⟩

/-- The check of the destination fails, and reads like an empty list: the job
receives with `-F`, also over a dataset that holds snapshots. -/
theorem reverseSync_overwrites :
    ∃ o, (reverseSync forcedRequest).Run (forcedLog noAnswer) o ∧
      ¬ Guarded (oneBelow true) (forcedLog noAnswer) := by
  have htranscript : ((reverseSync forcedRequest).transcript
      [noAnswer, prints "__exit=0"]).map Prod.fst = some (forcedLog noAnswer) := by
    decide
  obtain ⟨o, hrun⟩ := Prog.exists_run_of_transcript _ htranscript
  refine ⟨o, hrun, fun hguarded => ?_⟩
  have hlost := hguarded [((hostA, .destinationCheck ⟨"root", "10.0.0.2", 22, "rpool/data"⟩),
    noAnswer)] _ _ [] rfl ⟨"root", "10.0.0.2", 22, "rpool/data"⟩ (by decide)
  obtain ⟨r, hmem, hsuccess, -⟩ := hlost.1
  obtain rfl : r = noAnswer := by simpa using hmem
  cases hsuccess

end PveZfsTool
