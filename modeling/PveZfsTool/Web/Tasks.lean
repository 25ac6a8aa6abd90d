import PveZfsTool.Lib.Dict
import PveZfsTool.Lib.Runs
import PveZfsTool.Lib.Text

/-!
# The registry of background tasks

`app/tasks.py` runs a function in a thread of its own and keeps a record of it,
which the client polls.  The thread writes its progress and its end into the
record, and each start of a task first drops the records of old ones.

Any number of tasks run at the same time.  `TaskEvent` has one constructor for
each part that holds `_TASKS_LOCK`, and a run takes the parts of all threads in
any order.

* `getTask_run`: the record of a task is what its own thread wrote, until it has
  been finished for six hours.
* `mem_runningTasks`: the tasks said to run are those whose thread has not ended.
-/

namespace PveZfsTool

open Text Runs

/-! ## Records -/

/-- `_TASK_TTL_SECONDS` -/
def taskTtlSeconds : Rat := 6 * 3600

inductive TaskStatus where
  | running
  | done
  | error
  deriving DecidableEq

/-- One line of the log.  `fields` is what the caller adds to the message. -/
structure TaskLogLine (F : Type) where
  t : Rat
  msg : Str
  fields : F

/-- A record of the registry. -/
structure TaskRecord (F R : Type) where
  id : Str
  name : Str
  status : TaskStatus
  progress : Str
  startedAt : Rat
  finishedAt : Option Rat
  result : Option R
  error : Str
  log : List (TaskLogLine F)

/-- How the function of a task ended: with a result, or with an exception of
this text. -/
inductive TaskEnd (R : Type) where
  | returned (result : R)
  | raised (text : Str)

/-- The registry. -/
abbrev TaskTable (F R : Type) := Dict Str (TaskRecord F R)

section

variable {F R : Type}

/-- The record that `start_task` enters. -/
def newTask (tid name : Str) (now : Rat) : TaskRecord F R where
  id := tid
  name := name
  status := .running
  progress := []
  startedAt := now
  finishedAt := none
  result := none
  error := []
  log := []

/-- The last 500 lines. -/
def capLog (log : List (TaskLogLine F)) : List (TaskLogLine F) :=
  if 500 < log.length then log.drop (log.length - 500) else log

/-- `_progress`, with the record. -/
def TaskRecord.note (line : TaskLogLine F) (r : TaskRecord F R) : TaskRecord F R :=
  { r with progress := line.msg, log := capLog (r.log ++ [line]) }

/-- The end of `_runner`, with the record. -/
def TaskRecord.finish (now : Rat) (how : TaskEnd R) (r : TaskRecord F R) : TaskRecord F R :=
  match how with
  | .returned result => { r with status := .done, result := some result, finishedAt := some now }
  | .raised text => { r with status := .error, error := text, finishedAt := some now }

/-- What `_gc_tasks` drops.  A time of 0 is none. -/
def TaskRecord.expired (now : Rat) (r : TaskRecord F R) : Bool :=
  match r.finishedAt with
  | none => false
  | some t => t ≠ 0 && t < now - taskTtlSeconds

/-- `_gc_tasks` -/
def gcTasks (now : Rat) (d : TaskTable F R) : TaskTable F R := d.filter (fun _ r => !r.expired now)

/-- A change of one record, if it is there. -/
def changeTask (tid : Str) (f : TaskRecord F R → TaskRecord F R) (d : TaskTable F R) : TaskTable F R :=
  match d.get? tid with
  | none => d
  | some r => d.set tid (f r)

/-- `get_task` -/
def getTask (d : TaskTable F R) (tid : Str) : Option (TaskRecord F R) := d.get? tid

/-- `running_tasks` -/
def runningTasks (d : TaskTable F R) (name : Str) : List (TaskRecord F R) :=
  (d.entries.map Prod.snd).filter (fun r => r.status = .running && startsWith r.name name)

/-! ## The threads -/

/-- The registry, the tasks whose function has not ended, and the ids given out so
far. -/
structure TaskSystem (F R : Type) where
  tasks : TaskTable F R
  workers : List Str
  ids : List Str

/-- The start of the process. -/
def TaskSystem.init : TaskSystem F R := ⟨Dict.empty, [], []⟩

/-- What happens under the lock at one moment. -/
inductive TaskEvent (F R : Type) where
  | gc (now : Rat)
  | start (tid name : Str) (now : Rat)
  | progress (tid : Str) (line : TaskLogLine F)
  | finish (tid : Str) (now : Rat) (how : TaskEnd R)

/-- One step.  A start takes a new id, as `uuid4` gives it, and what a thread does
it does before it ends. -/
def taskStep (s : TaskSystem F R) : TaskEvent F R → Option (TaskSystem F R)
  | .gc now => some { s with tasks := gcTasks now s.tasks }
  | .start tid name now =>
      if tid ∈ s.ids then none
      else some ⟨s.tasks.set tid (newTask tid name now), tid :: s.workers, tid :: s.ids⟩
  | .progress tid line =>
      if tid ∈ s.workers then some { s with tasks := changeTask tid (.note line) s.tasks } else none
  | .finish tid now how =>
      if tid ∈ s.workers then
        some { s with tasks := changeTask tid (.finish now how) s.tasks, workers := s.workers.erase tid }
      else none

/-! ## One task -/

/-- A line of the log of the task. -/
def TaskEvent.lineOf (tid : Str) : TaskEvent F R → Option (TaskLogLine F)
  | .progress t line => if t = tid then some line else none
  | _ => none

/-- The end of the task. -/
def TaskEvent.endOf (tid : Str) : TaskEvent F R → Option (Rat × TaskEnd R)
  | .finish t now how => if t = tid then some (now, how) else none
  | _ => none

/-- The lines that the thread of a task has written. -/
def taskLines (tid : Str) (es : List (TaskEvent F R)) : List (TaskLogLine F) := es.filterMap (TaskEvent.lineOf tid)

/-- The record of a task after the events that follow its start. -/
def recordOf (tid name : Str) (now : Rat) (es : List (TaskEvent F R)) : TaskRecord F R :=
  let r : TaskRecord F R :=
    { (newTask tid name now : TaskRecord F R) with
      progress := ((taskLines tid es).getLast?.map TaskLogLine.msg).getD []
      log := capLog (taskLines tid es) }
  match es.findSome? (TaskEvent.endOf tid) with
  | none => r
  | some (t, how) => r.finish t how

/-- The task has been finished for more than six hours when a start of another one
looked at it. -/
def Expired (tid : Str) (es : List (TaskEvent F R)) : Prop :=
  ∃ mid rest t how now, es = mid ++ .finish tid t how :: rest ∧ .gc now ∈ rest ∧ t ≠ 0 ∧
    t < now - taskTtlSeconds

/-! ## One step -/

variable {tid k name : Str} {now t : Rat} {d : TaskTable F R} {f : TaskRecord F R → TaskRecord F R}
  {es : List (TaskEvent F R)} {e : TaskEvent F R} {s s' : TaskSystem F R} {line : TaskLogLine F}
  {how : TaskEnd R}

theorem get?_changeTask :
    (changeTask tid f d).get? k = if k = tid then (d.get? tid).map f else d.get? k := by
  rw [changeTask]
  split
  · rename_i hnone
    rw [hnone]
    split
    · rename_i heq
      rw [heq, hnone]
      rfl
    · rfl
  · rename_i r hr
    rw [Dict.get?_set, hr]
    rfl

theorem capLog_eq (log : List (TaskLogLine F)) : capLog log = log.drop (log.length - 500) := by
  rw [capLog]
  split
  · rfl
  · rename_i hle
    rw [Nat.sub_eq_zero_of_le (Nat.le_of_not_lt hle), List.drop_zero]

/-- The last entries, cut before the newest one came, are cut as the whole. -/
theorem drop_concat_drop {α : Type} (n : Nat) (xs : List α) (x : α) :
    (xs.drop (xs.length - n) ++ [x]).drop ((xs.drop (xs.length - n) ++ [x]).length - n) =
      (xs ++ [x]).drop ((xs ++ [x]).length - n) := by
  have hfront : xs.drop (xs.length - n) ++ [x] = (xs ++ [x]).drop (xs.length - n) :=
    (List.drop_append_of_le_length (Nat.sub_le _ _)).symm
  have hlength : (xs.length - n) + ((xs.drop (xs.length - n) ++ [x]).length - n) = (xs ++ [x]).length - n := by
    simp only [List.length_append, List.length_drop, List.length_singleton]
    omega
  rw [← hlength, ← List.drop_drop, ← hfront]

theorem capLog_concat (log : List (TaskLogLine F)) : capLog (capLog log ++ [line]) = capLog (log ++ [line]) := by
  rw [capLog_eq, capLog_eq log, capLog_eq]
  exact drop_concat_drop 500 log line

theorem taskLines_concat : taskLines tid (es ++ [e]) = taskLines tid es ++ (e.lineOf tid).toList := by
  rw [taskLines, List.filterMap_append]
  cases h : e.lineOf tid <;> simp [h, taskLines]

/-- What does not belong to the task leaves its record. -/
theorem recordOf_concat_other (hline : e.lineOf tid = none) (hend : e.endOf tid = none) :
    recordOf tid name now (es ++ [e]) = recordOf tid name now es := by
  have hlines : taskLines tid (es ++ [e]) = taskLines tid es := by
    rw [taskLines_concat, hline]
    exact List.append_nil _
  have hends : (es ++ [e]).findSome? (TaskEvent.endOf tid) = es.findSome? (TaskEvent.endOf tid) := by
    rw [List.findSome?_append]
    simp [hend]
  rw [recordOf, recordOf, hlines, hends]

theorem recordOf_concat_line (hnone : es.findSome? (TaskEvent.endOf tid) = none) :
    recordOf tid name now (es ++ [TaskEvent.progress tid line]) = (recordOf tid name now es).note line := by
  have hlines : taskLines tid (es ++ [TaskEvent.progress tid line]) = taskLines tid es ++ [line] := by
    rw [taskLines_concat, TaskEvent.lineOf, if_pos rfl]
    rfl
  have hends : (es ++ [TaskEvent.progress tid line]).findSome? (TaskEvent.endOf tid) = none := by
    rw [List.findSome?_append, hnone]
    rfl
  rw [recordOf, recordOf, hlines, hends, hnone]
  simp [TaskRecord.note, capLog_concat]

theorem recordOf_concat_finish (hnone : es.findSome? (TaskEvent.endOf tid) = none) :
    recordOf tid name now (es ++ [TaskEvent.finish tid t how]) = (recordOf tid name now es).finish t how := by
  have hlines : taskLines tid (es ++ [TaskEvent.finish tid t how]) = taskLines tid es := by
    rw [taskLines_concat]
    exact List.append_nil _
  have hends : (es ++ [TaskEvent.finish tid t how]).findSome? (TaskEvent.endOf tid) = some (t, how) := by
    rw [List.findSome?_append, hnone]
    simp [TaskEvent.endOf]
  rw [recordOf, recordOf, hlines, hends, hnone]

theorem finishedAt_recordOf :
    (recordOf tid name now es).finishedAt = (es.findSome? (TaskEvent.endOf tid)).map Prod.fst := by
  rw [recordOf]
  split
  · rename_i hnone
    rw [hnone]
    rfl
  · rename_i t how hsome
    rw [hsome]
    cases how <;> rfl

/-- A task expires when its end is looked at. -/
theorem expired_concat : Expired tid (es ++ [e]) ↔ Expired tid es ∨
    ∃ now t how, e = .gc now ∧ .finish tid t how ∈ es ∧ t ≠ 0 ∧ t < now - taskTtlSeconds := by
  constructor
  · rintro ⟨mid, rest, t, how, now, heq, hgc, hne, hlt⟩
    rcases List.eq_nil_or_concat rest with rfl | ⟨rest, x, rfl⟩
    · cases hgc
    · rw [List.concat_eq_append] at heq hgc
      have hcut : es ++ [e] = (mid ++ .finish tid t how :: rest) ++ [x] := by simp [heq]
      obtain ⟨rfl, hlast⟩ := List.append_inj' hcut rfl
      obtain rfl := List.singleton_inj.mp hlast
      rcases List.mem_append.mp hgc with hgc | hgc
      · exact .inl ⟨mid, rest, t, how, now, rfl, hgc, hne, hlt⟩
      · exact .inr ⟨now, t, how, (List.mem_singleton.mp hgc).symm, by simp, hne, hlt⟩
  · rintro (⟨mid, rest, t, how, now, rfl, hgc, hne, hlt⟩ | ⟨now, t, how, rfl, hmem, hne, hlt⟩)
    · exact ⟨mid, rest ++ [e], t, how, now, by simp, List.mem_append_left _ hgc, hne, hlt⟩
    · obtain ⟨mid, rest, rfl⟩ := List.append_of_mem hmem
      exact ⟨mid, rest ++ [TaskEvent.gc now], t, how, now, by simp, by simp, hne, hlt⟩

/-- The state of the system and what the events since its start say of a task. -/
structure Tracks (tid name : Str) (now : Rat) (es : List (TaskEvent F R)) (s : TaskSystem F R) : Prop where
  known : tid ∈ s.ids
  workers_known : s.workers ⊆ s.ids
  nodup : s.workers.Nodup
  worker : tid ∈ s.workers ↔ es.findSome? (TaskEvent.endOf tid) = none
  once : ∀ t how, .finish tid t how ∈ es → es.findSome? (TaskEvent.endOf tid) = some (t, how)
  there : ¬ Expired tid es → getTask s.tasks tid = some (recordOf tid name now es)
  gone : Expired tid es → getTask s.tasks tid = none

/-- A step that does not belong to the task and takes no record away. -/
theorem Tracks.other (h : Tracks tid name now es s) (hline : e.lineOf tid = none) (hend : e.endOf tid = none)
    (hgc : ∀ now, e ≠ .gc now) (hknown : tid ∈ s'.ids) (hsub : s'.workers ⊆ s'.ids) (hnodup : s'.workers.Nodup)
    (hworker : tid ∈ s'.workers ↔ tid ∈ s.workers) (hget : s'.tasks.get? tid = s.tasks.get? tid) :
    Tracks tid name now (es ++ [e]) s' := by
  have hends : (es ++ [e]).findSome? (TaskEvent.endOf tid) = es.findSome? (TaskEvent.endOf tid) := by
    rw [List.findSome?_append]
    simp [hend]
  have hexpired : Expired tid (es ++ [e]) ↔ Expired tid es := by
    rw [expired_concat]
    refine or_iff_left ?_
    rintro ⟨now', -, -, he, -⟩
    exact hgc now' he
  refine ⟨hknown, hsub, hnodup, ?_, ?_, ?_, ?_⟩
  · rw [hworker, h.worker, hends]
  · intro t how hmem
    rw [hends]
    rcases List.mem_append.mp hmem with hmem | hmem
    · exact h.once t how hmem
    · rw [← List.mem_singleton.mp hmem, TaskEvent.endOf, if_pos rfl] at hend
      cases hend
  · intro hno
    rw [getTask, hget, recordOf_concat_other hline hend]
    exact h.there (fun hold => hno (hexpired.mpr hold))
  · intro hold
    rw [getTask, hget]
    exact h.gone (hexpired.mp hold)

/-- A task that goes on has not expired. -/
theorem Tracks.not_expired (h : Tracks tid name now es s)
    (hnone : es.findSome? (TaskEvent.endOf tid) = none) : ¬ Expired tid es := by
  rintro ⟨mid, rest, t, how, now, heq, -⟩
  have hend := h.once t how (by simp [heq])
  rw [hnone] at hend
  cases hend

/-- What one step does to a task. -/
theorem Tracks.step (h : Tracks tid name now es s) (hstep : taskStep s e = some s') :
    Tracks tid name now (es ++ [e]) s' := by
  cases e with
  | gc now' =>
    obtain rfl := Option.some.inj hstep
    have hends : (es ++ [TaskEvent.gc now']).findSome? (TaskEvent.endOf tid) = es.findSome? (TaskEvent.endOf tid) := by
      rw [List.findSome?_append]
      exact Option.or_none
    have hget : ((gcTasks now' s.tasks).get? tid) = (s.tasks.get? tid).filter (fun r => !r.expired now') :=
      Dict.get?_filter
    refine ⟨h.known, h.workers_known, h.nodup, by rw [h.worker, hends], ?_, ?_, ?_⟩
    · intro t how hmem
      rw [hends]
      exact h.once t how (by simpa using hmem)
    · intro hno
      rw [expired_concat, not_or] at hno
      have hkept : (recordOf tid name now es).expired now' = false := by
        rw [TaskRecord.expired, finishedAt_recordOf]
        cases hend : es.findSome? (TaskEvent.endOf tid) with
        | none => rfl
        | some p =>
          obtain ⟨t, how⟩ := p
          by_contra hexp
          simp only [Option.map_some, Bool.not_eq_false, Bool.and_eq_true, decide_eq_true_eq] at hexp
          obtain ⟨x, hx, hp⟩ := List.exists_of_findSome?_eq_some hend
          cases x with
          | finish t' now₁ how₁ =>
            rw [TaskEvent.endOf] at hp
            split at hp
            · rename_i heq
              cases hp
              exact hno.2 ⟨now', _, _, rfl, heq ▸ hx, hexp.1, hexp.2⟩
            · cases hp
          | _ => cases hp
      rw [getTask, hget, ← getTask, h.there hno.1, recordOf_concat_other rfl rfl, Option.filter_some, hkept]
      rfl
    · intro hold
      rw [getTask, hget]
      rcases expired_concat.mp hold with hold | ⟨now₁, t, how, heq, hmem, hne, hlt⟩
      · rw [← getTask, h.gone hold]
        rfl
      · cases heq
        by_cases hbefore : Expired tid es
        · rw [← getTask, h.gone hbefore]
          rfl
        · have hexp : (recordOf tid name now es).expired now' = true := by
            rw [TaskRecord.expired, finishedAt_recordOf, h.once t how hmem]
            simp [hne, hlt]
          rw [← getTask, h.there hbefore, Option.filter_some, hexp]
          rfl
  | start t name' now' =>
    rw [taskStep] at hstep
    split at hstep
    · cases hstep
    · rename_i hnew
      obtain rfl := Option.some.inj hstep
      have hne : tid ≠ t := fun heq => hnew (heq ▸ h.known)
      refine h.other rfl rfl nofun (List.mem_cons_of_mem _ h.known) ?_ ?_ ?_ ?_
      · exact List.cons_subset_cons _ h.workers_known
      · exact List.nodup_cons.mpr ⟨fun hmem => hnew (h.workers_known hmem), h.nodup⟩
      · rw [List.mem_cons, or_iff_right hne]
      · rw [Dict.get?_set, if_neg hne]
  | progress t line =>
    rw [taskStep] at hstep
    split at hstep
    · rename_i hworker
      obtain rfl := Option.some.inj hstep
      by_cases ht : t = tid
      · subst ht
        have hnone := h.worker.mp hworker
        have hends : (es ++ [TaskEvent.progress t line]).findSome? (TaskEvent.endOf t) = none := by
          rw [List.findSome?_append, hnone]
          rfl
        have hexpired : ¬ Expired t (es ++ [TaskEvent.progress t line]) := by
          rw [expired_concat, not_or]
          refine ⟨h.not_expired hnone, ?_⟩
          rintro ⟨_, _, _, heq, -⟩
          cases heq
        refine ⟨h.known, h.workers_known, h.nodup, iff_of_true hworker hends, ?_, fun _ => ?_,
          fun hold => absurd hold hexpired⟩
        · intro t' how hmem
          have hend := h.once t' how (by simpa using hmem)
          rw [hnone] at hend
          cases hend
        · rw [getTask, get?_changeTask, if_pos rfl, ← getTask, h.there (h.not_expired hnone),
            recordOf_concat_line hnone]
          rfl
      · refine h.other (if_neg ht) rfl nofun h.known h.workers_known h.nodup Iff.rfl ?_
        rw [get?_changeTask, if_neg (Ne.symm ht)]
    · cases hstep
  | finish t now' how =>
    rw [taskStep] at hstep
    split at hstep
    · rename_i hworker
      obtain rfl := Option.some.inj hstep
      have hsub : s.workers.erase t ⊆ s.ids := fun k hk => h.workers_known (List.mem_of_mem_erase hk)
      by_cases ht : t = tid
      · subst ht
        have hnone := h.worker.mp hworker
        have hends : (es ++ [TaskEvent.finish t now' how]).findSome? (TaskEvent.endOf t) = some (now', how) := by
          rw [List.findSome?_append, hnone]
          simp [TaskEvent.endOf]
        have hexpired : ¬ Expired t (es ++ [TaskEvent.finish t now' how]) := by
          rw [expired_concat, not_or]
          refine ⟨h.not_expired hnone, ?_⟩
          rintro ⟨_, _, _, heq, -⟩
          cases heq
        refine ⟨h.known, hsub, h.nodup.erase t, ?_, ?_, fun _ => ?_, fun hold => absurd hold hexpired⟩
        · rw [hends]
          exact iff_of_false h.nodup.not_mem_erase (by simp)
        · intro t' how' hmem
          rcases List.mem_append.mp hmem with hmem | hmem
          · have hend := h.once t' how' hmem
            rw [hnone] at hend
            cases hend
          · cases List.mem_singleton.mp hmem
            exact hends
        · rw [getTask, get?_changeTask, if_pos rfl, ← getTask, h.there (h.not_expired hnone),
            recordOf_concat_finish hnone]
          rfl
      · refine h.other rfl (if_neg ht) nofun h.known hsub (h.nodup.erase t) ?_ ?_
        · exact List.mem_erase_of_ne (Ne.symm ht)
        · rw [get?_changeTask, if_neg (Ne.symm ht)]
    · cases hstep

/-! ## Runs -/

/-- What every run keeps: the threads and the records are those of tasks that were
started. -/
structure Known (es : List (TaskEvent F R)) (s : TaskSystem F R) : Prop where
  workers : s.workers ⊆ s.ids
  nodup : s.workers.Nodup
  records : ∀ tid r, getTask s.tasks tid = some r → tid ∈ s.ids
  started : ∀ tid ∈ s.ids, ∃ name now, .start tid name now ∈ es

theorem Known.step {s₁ s₂ : TaskSystem F R} (h : Known es s₁) (hstep : taskStep s₁ e = some s₂) :
    Known (es ++ [e]) s₂ := by
  have hold : ∀ tid ∈ s₁.ids, ∃ name now, .start tid name now ∈ es ++ [e] := by
    intro tid htid
    obtain ⟨name, now, hmem⟩ := h.started tid htid
    exact ⟨name, now, List.mem_append_left _ hmem⟩
  have hchange : ∀ t f tid r, getTask (changeTask t f s₁.tasks) tid = some r → tid ∈ s₁.ids := by
    intro t f tid r hr
    rw [getTask, get?_changeTask] at hr
    split at hr
    · rename_i heq
      obtain ⟨r₁, hr₁, -⟩ := Option.map_eq_some_iff.mp hr
      exact h.records tid r₁ (heq ▸ hr₁)
    · exact h.records tid r hr
  cases e with
  | gc now =>
    obtain rfl := Option.some.inj hstep
    refine ⟨h.workers, h.nodup, fun tid r hr => ?_, hold⟩
    rw [getTask, gcTasks, Dict.get?_filter, Option.filter_eq_some_iff] at hr
    exact h.records tid r hr.1
  | start t name now =>
    rw [taskStep] at hstep
    split at hstep
    · cases hstep
    · rename_i hnew
      obtain rfl := Option.some.inj hstep
      refine ⟨List.cons_subset_cons _ h.workers, ?_, fun tid r hr => ?_, fun tid htid => ?_⟩
      · exact List.nodup_cons.mpr ⟨fun hmem => hnew (h.workers hmem), h.nodup⟩
      · rw [getTask, Dict.get?_set] at hr
        split at hr
        · rename_i heq
          exact heq ▸ List.mem_cons_self
        · exact List.mem_cons_of_mem _ (h.records tid r hr)
      · rcases List.mem_cons.mp htid with rfl | htid
        · exact ⟨name, now, by simp⟩
        · exact hold tid htid
  | progress t line =>
    rw [taskStep] at hstep
    split at hstep
    · obtain rfl := Option.some.inj hstep
      exact ⟨h.workers, h.nodup, hchange t _, hold⟩
    · cases hstep
  | finish t now how =>
    rw [taskStep] at hstep
    split at hstep
    · obtain rfl := Option.some.inj hstep
      exact ⟨fun k hk => h.workers (List.mem_of_mem_erase hk), h.nodup.erase t, hchange t _, hold⟩
    · cases hstep

theorem known_run (hrun : run taskStep TaskSystem.init es = some s) : Known es s := by
  refine run_induction ?_ (fun es e s₁ s₂ h hstep => h.step hstep) hrun
  refine ⟨fun _ h => h, List.nodup_nil, fun tid r hr => ?_, fun tid htid => ?_⟩
  · cases hr
  · cases htid

/-- A run goes on from the start of a task. -/
theorem tracks_run {pre post : List (TaskEvent F R)}
    (hrun : run taskStep TaskSystem.init (pre ++ .start tid name now :: post) = some s) :
    Tracks tid name now post s := by
  obtain ⟨s₁, hpre, hrest⟩ := run_append_iff.mp hrun
  obtain ⟨s₂, hstart, hpost⟩ := run_cons_iff.mp hrest
  have hknown := known_run hpre
  refine run_induction ?_ (fun es e s₁ s₂ h hstep => h.step hstep) hpost
  rw [taskStep] at hstart
  split at hstart
  · cases hstart
  · rename_i hnew
    obtain rfl := Option.some.inj hstart
    refine ⟨List.mem_cons_self, List.cons_subset_cons _ hknown.workers, ?_, ?_, ?_, fun _ => ?_, ?_⟩
    · exact List.nodup_cons.mpr ⟨fun hmem => hnew (hknown.workers hmem), hknown.nodup⟩
    · exact iff_of_true List.mem_cons_self rfl
    · intro t how hmem
      cases hmem
    · rw [getTask, Dict.get?_set, if_pos rfl]
      rfl
    · rintro ⟨mid, rest, t, how, now, heq, -⟩
      simp at heq

/-- The record of a task is what its own thread wrote since the start, whatever
the other threads did.  It goes when a start of another task finds it finished for
more than six hours. -/
theorem getTask_run {pre post : List (TaskEvent F R)}
    (hrun : run taskStep TaskSystem.init (pre ++ .start tid name now :: post) = some s) :
    (¬ Expired tid post → getTask s.tasks tid = some (recordOf tid name now post)) ∧
      (Expired tid post → getTask s.tasks tid = none) :=
  ⟨(tracks_run hrun).there, (tracks_run hrun).gone⟩

/-- Two tasks at a time: the first writes while the second one starts, and its end
is dropped by the start of a third. -/
def threeTasks : List (TaskEvent Unit Nat) :=
  [TaskEvent.start "a".toList "migrate".toList 10, TaskEvent.progress "a".toList ⟨11, "sending".toList, ()⟩,
    TaskEvent.start "b".toList "report".toList 12, TaskEvent.finish "a".toList 20 (.returned 7),
    TaskEvent.gc 30000, TaskEvent.start "c".toList "report".toList 30000]

theorem exists_expired : ∃ s, run taskStep TaskSystem.init threeTasks = some s ∧
    getTask s.tasks "a".toList = none := by
  have hrun : run taskStep TaskSystem.init threeTasks ≠ none := by simp [threeTasks, run, taskStep, TaskSystem.init]
  obtain ⟨s, hs⟩ := Option.ne_none_iff_exists'.mp hrun
  have hexpired : Expired "a".toList threeTasks.tail :=
    ⟨(threeTasks.take 3).tail, threeTasks.drop 4, 20, .returned 7, 30000, rfl, by simp [threeTasks], by decide,
      by decide +kernel⟩
  exact ⟨s, hs, (@getTask_run Unit Nat _ _ _ s [] _ hs).2 hexpired⟩

theorem status_recordOf : (recordOf tid name now es).status = .running ↔
    es.findSome? (TaskEvent.endOf tid) = none := by
  rw [recordOf]
  split
  · rename_i hnone
    exact iff_of_true rfl hnone
  · rename_i t how hsome
    refine iff_of_false ?_ (by simp [hsome])
    cases how <;> exact nofun

theorem name_recordOf : (recordOf tid name now es).name = name := by
  rw [recordOf]
  split
  · rfl
  · rename_i how _
    cases how <;> rfl

theorem findSome?_endOf_eq_none :
    es.findSome? (TaskEvent.endOf tid) = none ↔ ∀ t how, .finish tid t how ∉ es := by
  rw [List.findSome?_eq_none_iff]
  constructor
  · intro h t how hmem
    have hend := h _ hmem
    rw [TaskEvent.endOf, if_pos rfl] at hend
    cases hend
  · intro h e he
    cases e with
    | finish t now how =>
      refine if_neg fun heq => ?_
      exact h now how (heq ▸ he)
    | _ => rfl

/-- The tasks that are said to run are those that were started and whose function
has not ended, each with what it wrote. -/
theorem mem_runningTasks (hrun : run taskStep TaskSystem.init es = some s) (pfx : Str) (r : TaskRecord F R) :
    r ∈ runningTasks s.tasks pfx ↔ ∃ pre tid name now post, es = pre ++ .start tid name now :: post ∧
      startsWith name pfx = true ∧ (∀ t how, .finish tid t how ∉ post) ∧ r = recordOf tid name now post := by
  rw [runningTasks, List.mem_filter, List.mem_map, Bool.and_eq_true, decide_eq_true_eq]
  constructor
  · rintro ⟨⟨⟨tid, r⟩, hentry, rfl⟩, hstatus, hname⟩
    have hget : getTask s.tasks tid = some r := Dict.mem_entries.mp hentry
    have hknown := known_run hrun
    obtain ⟨name, now, hmem⟩ := hknown.started tid (hknown.records tid r hget)
    obtain ⟨pre, post, rfl⟩ := List.append_of_mem hmem
    have htracks := tracks_run hrun
    have hexpired : ¬ Expired tid post := fun hold => by
      rw [htracks.gone hold] at hget
      cases hget
    obtain rfl := Option.some.inj ((htracks.there hexpired).symm.trans hget)
    rw [name_recordOf] at hname
    exact ⟨pre, tid, name, now, post, rfl, hname, findSome?_endOf_eq_none.mp (status_recordOf.mp hstatus), rfl⟩
  · rintro ⟨pre, tid, name, now, post, rfl, hname, hnever, rfl⟩
    have hnone := findSome?_endOf_eq_none.mpr hnever
    have htracks := tracks_run hrun
    have hget := htracks.there (htracks.not_expired hnone)
    refine ⟨⟨(tid, _), Dict.mem_entries.mpr hget, rfl⟩, status_recordOf.mpr hnone, ?_⟩
    rwa [name_recordOf]

theorem exists_running : ∃ s, run taskStep TaskSystem.init threeTasks = some s ∧
    newTask "b".toList "report".toList 12 ∈ runningTasks s.tasks "rep".toList := by
  have hrun : run taskStep TaskSystem.init threeTasks ≠ none := by simp [threeTasks, run, taskStep, TaskSystem.init]
  obtain ⟨s, hs⟩ := Option.ne_none_iff_exists'.mp hrun
  refine ⟨s, hs, (mem_runningTasks hs "rep".toList _).mpr ?_⟩
  refine ⟨threeTasks.take 2, "b".toList, "report".toList, 12, threeTasks.drop 3, rfl, by decide, ?_, rfl⟩
  simp [threeTasks]

end

end PveZfsTool
