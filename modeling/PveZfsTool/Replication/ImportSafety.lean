import PveZfsTool.Replication.Import

/-!
# What an import leaves of the schedules

`SchedulesKept` says that after an import every cron line that ran the tool
with the old config is still there or has been replaced by a line that runs
the new config, and that no cron line runs a config that was moved away.

`ImportCondition` is a condition on the steps of the run.  The rename of the
old file is the last step of every import that wrote the new file, whatever
became of the schedule, and so the condition is about the cron lines that are
left when it happens.

* `respond_set`, `respond_removal`: what the two rewrites keep.
* `import_cases`: an import stops early, or it ends in the rename.
* `import_keeps_iff`: a run keeps the schedules if and only if it meets the
  condition.
* `import_orphans`: an import in which nothing fails leaves the old line, which
  then runs a config that does not exist.
-/

namespace PveZfsTool.Replication

open Dialogue Text

abbrev ImportTrail := Trail ReplCmd Answer Empty ReplHost

/-! ## Safety -/

/-- The fields of a cron line that say when it runs. -/
def scheduleOf (line : Str) : List Str :=
  match splitWords line with
  | [] => []
  | word :: words => if startsWith word "@" then [word] else word :: words.take 4

/-- The path that the tool uses for the source of the config. -/
def IsCanonical (w : ReplHost) (old canonical : Str) : Prop :=
  ∃ text, w.files old = some text ∧
    canonical = configPathFor (configSource (parseConfig text).values)

/-- The run adds the line to root's crontab. -/
def Appends (tr : ImportTrail) (line : Str) : Prop :=
  ∃ path dir reload a, (.rewriteCrontab path (some line) dir reload, a) ∈ answered tr

/-- A line that the run added has the schedule, and it runs the tool with the
new config, which is there. -/
def TakenOver (D : CronDaemon) (old : Str) (w : ReplHost) (tr : ImportTrail) (w' : ReplHost)
    (line : Str) : Prop :=
  ∃ line' canonical, Appends tr line' ∧ line' ∈ fileLines (w'.cron "crontab") ∧
    scheduleOf line' = scheduleOf line ∧ IsCanonical w old canonical ∧
    D.runs "crontab" line' canonical ∧ (w'.files canonical).isSome = true

structure SchedulesKept (D : CronDaemon) (old : Str) (w : ReplHost) (tr : ImportTrail)
    (w' : ReplHost) : Prop where
  /-- A line that ran the old config still does, or the new one took over. -/
  kept : ∀ o, ∀ line ∈ fileLines (w.cron o), D.runs o line old →
    line ∈ fileLines (w'.cron o) ∨ TakenOver D old w tr w' line
  /-- No line runs a config that was moved away. -/
  backed : (w.files old).isSome = true → ∀ o, ∀ line ∈ fileLines (w'.cron o),
    D.runs o line old → (w'.files old).isSome = true

/-- A line that runs the old config goes only when the run adds a line with
its schedule. -/
def DropsCovered (D : CronDaemon) (old : Str) (tr : ImportTrail) (v u : ReplHost) : Prop :=
  ∀ o, ∀ line ∈ fileLines (v.cron o), D.runs o line old → line ∉ fileLines (u.cron o) →
    ∃ line', Appends tr line' ∧ scheduleOf line' = scheduleOf line

/-- The condition on one step of a run with the trail `tr`. -/
structure StepKeeps (D : CronDaemon) (old : Str) (tr : ImportTrail) (v : ReplHost)
    (e : Event ReplCmd Answer Empty) (u : ReplHost) : Prop where
  /-- The rename takes the old file away only when no line runs it. -/
  parked : (∃ a, e = .request (.park old) a) → u.files old = none →
    ∀ o, ∀ line ∈ fileLines (v.cron o), ¬ D.runs o line old
  dropped : DropsCovered D old tr v u

def ImportCondition (D : CronDaemon) (old : Str) (w : ReplHost) (tr : ImportTrail) : Prop :=
  EachChange (StepKeeps D old tr) w tr

/-! ## What the commands keep -/

section

variable {D : CronDaemon} {old source : Str} {w w' v u : ReplHost} {tr t : ImportTrail}

/-- The request of `setCron` for the log file of the tool. -/
def setRequest (schedule source : Str) : ReplCmd :=
  .rewriteCrontab (configPathFor source) (some (cronLine schedule (configPathFor source) logPath))
    logDir true

/-- The requests of `removeCronLine`. -/
def IsRemoval (old : Str) (q : ReplCmd) : Prop :=
  q = .rewriteCrontab old none [] false ∨ ∃ file, q = .rewriteCronD file old ∧ file ≠ "crontab"

/-- The new line is added, or nothing is changed. -/
theorem respond_set {schedule : Str} {a : Answer} (hbreak : NoBreak schedule)
    (h : replRespond D v (setRequest schedule source) a u) :
    u.files = v.files ∧ (∀ o : Str, o ≠ "crontab" → u.cron o = v.cron o) ∧
      ((fileLines (u.cron "crontab") = otherLines (configPathFor source) (v.cron "crontab") ++
            [cronLine schedule (configPathFor source) logPath] ∧
          D.accepts (cronLine schedule (configPathFor source) logPath)) ∨
        u.cron = v.cron ∧ confirmed a = false) := by
  obtain ⟨hfiles, hothers, hcron⟩ := h
  refine ⟨hfiles, hothers, ?_⟩
  rcases hcron with ⟨hnew, haccepts⟩ | ⟨hsame, hunconfirmed⟩
  · left
    refine ⟨?_, haccepts _ rfl⟩
    rw [hnew, fileLines_rewritten]
    · rfl
    · intro line hline
      rw [← Option.some.inj hline]
      exact newline_not_mem_cronLine hbreak
  · right
    refine ⟨funext (fun o => ?_), hunconfirmed⟩
    by_cases ho : o = "crontab"
    · rw [ho, hsame]
    · exact hothers o ho

/-- A removal takes lines from root's crontab that it matches, and no
others. -/
theorem respond_removal {q : ReplCmd} {a : Answer} (hq : IsRemoval old q)
    (h : replRespond D v q a u) :
    u.files = v.files ∧
      (∀ line ∈ fileLines (u.cron "crontab"), line ∈ fileLines (v.cron "crontab")) ∧
      ∀ line ∈ fileLines (v.cron "crontab"), ownCronLine old line = false →
        line ∈ fileLines (u.cron "crontab") := by
  have hsame : u.cron "crontab" = v.cron "crontab" →
      (∀ line ∈ fileLines (u.cron "crontab"), line ∈ fileLines (v.cron "crontab")) ∧
      ∀ line ∈ fileLines (v.cron "crontab"), ownCronLine old line = false →
        line ∈ fileLines (u.cron "crontab") := by
    intro heq
    rw [heq]
    exact ⟨fun _ hl => hl, fun _ hl _ => hl⟩
  rcases hq with rfl | ⟨file, rfl, hfile⟩
  · obtain ⟨hfiles, -, hcron⟩ := h
    refine ⟨hfiles, ?_⟩
    rcases hcron with ⟨hnew, -⟩ | ⟨hold, -⟩
    · have hnone : ∀ line, (none : Option Str) = some line → '\n' ∉ line := by
        intro line hline
        cases hline
      have hlines : fileLines (u.cron "crontab") = otherLines old (v.cron "crontab") := by
        rw [hnew, fileLines_rewritten hnone]
        exact List.append_nil _
      rw [hlines]
      constructor
      · intro line hl
        exact (List.mem_filter.mp hl).1
      · intro line hl hown
        exact List.mem_filter.mpr ⟨hl, by simp [hown]⟩
    · exact hsame hold
  · obtain ⟨hfiles, hothers, -⟩ := h
    exact ⟨hfiles, hsame (hothers _ (Ne.symm hfile))⟩

/-- The request comes before the tool changes a cron table or moves the old
file. -/
def Early (old : Str) : ReplCmd → Prop
  | .writeFile p _ => p ≠ old
  | .rewriteCrontab _ _ _ _ => False
  | .rewriteCronD _ _ => False
  | .park _ => False
  | _ => True

theorem respond_early {q : ReplCmd} {a : Answer} (hconf : isConfPath old = true)
    (hq : Early old q) (h : replRespond D v q a u) :
    u.cron = v.cron ∧ u.files old = v.files old := by
  cases q with
  | catFile p => rw [h.2]; exact ⟨rfl, rfl⟩
  | pathProbe p => rw [show u = v from h]; exact ⟨rfl, rfl⟩
  | zfsListTagged tag => rw [show u = v from h]; exact ⟨rfl, rfl⟩
  | listCron => rw [show u = v from h]; exact ⟨rfl, rfl⟩
  | writeFile p text => exact ⟨h.1, h.2.1 old hconf (Ne.symm hq)⟩
  | rewriteCrontab p append dir reload => exact hq.elim
  | rewriteCronD file p => exact hq.elim
  | park p => exact hq.elim

theorem path_early (hconf : isConfPath old = true) (hpath : (replEnv D).Path w tr w')
    (h : ∀ q a, (q, a) ∈ answered tr → Early old q) :
    w'.cron = w.cron ∧ w'.files old = w.files old := by
  refine (hpath.preserves (I := fun v => v.cron = w.cron ∧ v.files old = w.files old)
    ⟨rfl, rfl⟩ ?_).2
  intro e u hmem v hv hstep
  cases e with
  | move m => exact m.elim
  | request q a =>
    have hkept := respond_early hconf (h q a (mem_answered.mpr ⟨u, hmem⟩)) hstep
    exact ⟨hkept.1.trans hv.1, hkept.2.trans hv.2⟩

/-- A step that leaves the cron tables and is not the rename meets the
condition. -/
theorem stepKeeps_of_cron {e : Event ReplCmd Answer Empty} (hcron : u.cron = v.cron)
    (he : ∀ a, e ≠ .request (.park old) a) : StepKeeps D old tr v e u where
  parked := fun ⟨a, ha⟩ => absurd ha (he a)
  dropped := fun _ _ hline _ hgone => absurd (hcron ▸ hline) hgone

theorem eachChange_early (hconf : isConfPath old = true) (hpath : (replEnv D).Path w t w')
    (h : ∀ q a, (q, a) ∈ answered t → Early old q) : EachChange (StepKeeps D old tr) w t := by
  induction t generalizing w with
  | nil => trivial
  | cons step t ih =>
    obtain ⟨e, u⟩ := step
    obtain ⟨hstep, hrest⟩ := hpath
    cases e with
    | move m => exact m.elim
    | request q a =>
      have hq : Early old q := h q a (by simp)
      refine ⟨stepKeeps_of_cron (respond_early hconf hq hstep).1 ?_, ih hrest ?_⟩
      · intro a' heq
        cases heq
        exact hq
      · intro q' a' hmem
        exact h q' a' (by simp [hmem])

/-! ## The steps of an import -/

/-- The requests that change cron tables. -/
inductive CronSteps (old source : Str) : ImportTrail → Prop where
  | untouched : CronSteps old source []
  | added {schedule : Str} {a : Answer} {u : ReplHost} (hvalid : validateCron schedule = true)
      (hbreak : NoBreak schedule) : CronSteps old source [(.request (setRequest schedule source) a, u)]
  | replaced {schedule : Str} {a b : Answer} {u u' : ReplHost} {q : ReplCmd}
      (hvalid : validateCron schedule = true) (hbreak : NoBreak schedule)
      (hok : confirmed a = true) (hq : IsRemoval old q) :
      CronSteps old source [(.request (setRequest schedule source) a, u), (.request q b, u')]

theorem drives_setCron {schedule : Str} {o : Except Exn SetCronResult}
    (h : Drives (setCron schedule source logPath) t o) :
    ∃ r, o = .ok r ∧ (t = [] ∧ r.success = false ∨ validateCron schedule = true ∧
      ∃ a u, t = [(.request (setRequest schedule source) a, u)] ∧
        (r.success = true → confirmed a = true)) := by
  unfold setCron at h
  cases herror : setCronError schedule source logPath with
  | some error =>
    rw [herror] at h
    exact ⟨_, h.2, .inl ⟨eq_nil_of_answered h.1, rfl⟩⟩
  | none =>
    rw [herror] at h
    have hvalid : validateCron schedule = true := by
      by_contra hinvalid
      rw [setCronError, if_pos (by simpa using hinvalid)] at herror
      cases herror
    have hdir : (if Paths.dirname logPath = ("/var/log" : Str) then [] else Paths.dirname logPath) =
        logDir := by
      decide +kernel
    obtain ⟨a, u, t', rfl, hrest⟩ := drives_ask h
    refine ⟨_, hrest.2, .inr ⟨hvalid, a, u, ?_, fun hsuccess => ?_⟩⟩
    · rw [eq_nil_of_answered hrest.1, hdir]
      rfl
    · have hboth : a.success = true ∧ confirmed a = true := by simpa using hsuccess
      exact hboth.2

theorem drives_removeCronLine {origin : Str} {o : Except Exn CronRemoval}
    (h : Drives (removeCronLine origin old) t o) :
    ∃ r, o = .ok r ∧ (t = [] ∨ ∃ q b u, t = [(.request q b, u)] ∧ IsRemoval old q) := by
  unfold removeCronLine at h
  by_cases hcrontab : origin = "crontab"
  · rw [if_pos hcrontab] at h
    obtain ⟨b, u, t', rfl, hrest⟩ := drives_ask h
    rw [eq_nil_of_answered hrest.1]
    exact ⟨_, hrest.2, .inr ⟨_, b, u, rfl, .inl rfl⟩⟩
  · rw [if_neg hcrontab] at h
    by_cases hpath : (!isCronDPath origin) = true
    · rw [if_pos hpath] at h
      exact ⟨_, h.2, .inl (eq_nil_of_answered h.1)⟩
    · rw [if_neg hpath] at h
      obtain ⟨b, u, t', rfl, hrest⟩ := drives_ask h
      rw [eq_nil_of_answered hrest.1]
      exact ⟨_, hrest.2, .inr ⟨_, b, u, rfl, .inr ⟨origin, rfl, hcrontab⟩⟩⟩

theorem drives_adoptLine {c : CronEntry} {o : Except Exn (CronOutcome × List ImportStep)}
    (hbreak : NoBreak c.schedule) (h : Drives (adoptLine old source c) t o) :
    CronSteps old source t ∧ ∃ r, o = .ok r := by
  rcases drives_bind h with ⟨l₁, l₂, s, rfl, hset, hrest⟩ | ⟨e, hset, -⟩
  · obtain ⟨r, hr, hcases⟩ := drives_setCron hset
    rw [Except.ok.inj hr] at hrest
    cases hsuccess : r.success with
    | false =>
      rw [if_neg (by simp [hsuccess])] at hrest
      rw [eq_nil_of_answered hrest.1, List.append_nil]
      rcases hcases with ⟨hnil, -⟩ | ⟨hvalid, a, u, hl, -⟩
      · rw [hnil]
        exact ⟨.untouched, _, hrest.2⟩
      · rw [hl]
        exact ⟨.added hvalid hbreak, _, hrest.2⟩
    | true =>
      rw [if_pos hsuccess] at hrest
      rcases hcases with ⟨-, hfailed⟩ | ⟨hvalid, a, u, hl, hok⟩
      · rw [hsuccess] at hfailed
        cases hfailed
      · rw [hl]
        rcases drives_bind hrest with ⟨l₃, l₄, rm, rfl, hremove, hend⟩ | ⟨e, hremove, -⟩
        · rw [eq_nil_of_answered hend.1, List.append_nil]
          obtain ⟨r', -, hshape⟩ := drives_removeCronLine hremove
          rcases hshape with hnil | ⟨q, b, u', hl', hq⟩
          · rw [hnil]
            exact ⟨.added hvalid hbreak, _, hend.2⟩
          · rw [hl']
            exact ⟨.replaced hvalid hbreak (hok hsuccess) hq, _, hend.2⟩
        · obtain ⟨r', hr', -⟩ := drives_removeCronLine hremove
          cases hr'
  · obtain ⟨r, hr, -⟩ := drives_setCron hset
    cases hr

theorem drives_adoptCron {pv : ImportPreview} {adopt : Bool}
    {o : Except Exn (CronOutcome × List ImportStep)} (hbreak : ∀ c ∈ pv.cron, NoBreak c.schedule)
    (h : Drives (adoptCron pv adopt) t o) :
    CronSteps pv.path pv.source t ∧ ∃ r, o = .ok r := by
  unfold adoptCron at h
  cases adopt with
  | false =>
    rw [if_neg (by decide)] at h
    rw [eq_nil_of_answered h.1]
    exact ⟨.untouched, _, h.2⟩
  | true =>
    rw [if_pos rfl] at h
    match hcron : pv.cron with
    | [] =>
      rw [hcron] at h
      rw [eq_nil_of_answered h.1]
      exact ⟨.untouched, _, h.2⟩
    | [c] =>
      rw [hcron] at h
      exact drives_adoptLine (hbreak c (by simp [hcron])) h
    | c :: d :: cs =>
      rw [hcron] at h
      rw [eq_nil_of_answered h.1]
      exact ⟨.untouched, _, h.2⟩

/-! ## The front of an import -/

/-- The request changes nothing. -/
def Reads : ReplCmd → Prop
  | .catFile _ => True
  | .pathProbe _ => True
  | .zfsListTagged _ => True
  | .listCron => True
  | _ => False

theorem early_of_reads {q : ReplCmd} (h : Reads q) : Early old q := by
  cases q with
  | writeFile p text => exact h.elim
  | _ => exact h

theorem path_reads (hpath : (replEnv D).Path w t u)
    (h : ∀ q a, (q, a) ∈ answered t → Reads q) : u = w := by
  refine (hpath.preserves (I := fun v => v = w) rfl ?_).2
  intro e v hmem v₀ hv₀ hstep
  cases e with
  | move m => exact m.elim
  | request q a =>
    have hq : Reads q := h q a (mem_answered.mpr ⟨v, hmem⟩)
    rw [← hv₀]
    cases q with
    | catFile p => exact hstep.2
    | pathProbe p => exact hstep
    | zfsListTagged tag => exact hstep
    | listCron => exact hstep
    | writeFile p text => exact hq.elim
    | rewriteCrontab p append dir reload => exact hq.elim
    | rewriteCronD file p => exact hq.elim
    | park p => exact hq.elim

theorem uses_readConfigFile {p : Str} : (readConfigFile p).Uses Reads := by
  refine ⟨trivial, fun a => ?_⟩
  show Prog.Uses Reads (if _ then _ else _)
  split <;> trivial

theorem uses_previewConfig {p : Str} {values : Values} : (previewConfig p values).Uses Reads :=
  ⟨trivial, fun _ => ⟨trivial, fun _ => trivial⟩⟩

theorem uses_importConfigPreview {path : Str} : (importConfigPreview path).Uses Reads := by
  unfold importConfigPreview
  split
  · trivial
  · trivial
  · refine Prog.Uses.bind ?_ (fun cfg => ?_)
    · unfold readConfigPath
      split
      · trivial
      · exact uses_readConfigFile
    · unfold previewRead
      split
      · trivial
      · split
        · trivial
        · exact uses_previewConfig

/-- What a preview says about the host. -/
structure Previewed (old : Str) (w : ReplHost) (pv : ImportPreview) : Prop where
  path : pv.path = old
  source : ∃ text, w.files old = some text ∧ pv.values = (parseConfig text).values ∧
    pv.source = configSource pv.values
  ip : extractIp pv.source ≠ []
  moves : configPathFor pv.source ≠ old
  noBreak : ∀ c ∈ pv.cron, NoBreak c.schedule

theorem previewed_of_config {values : Values} {text : Str} {pv : ImportPreview}
    (htext : w.files old = some text) (hvalues : values = (parseConfig text).values)
    (hgood : previewError old values = none)
    (h : Drives (previewConfig old values) t (.ok (.ok pv))) : Previewed old w pv := by
  obtain ⟨ex, u₁, t₁, -, h₁⟩ := drives_ask h
  obtain ⟨r, u₂, t₂, -, h₂⟩ := drives_ask h₁
  have hpv := Except.ok.inj (Except.ok.inj h₂.2)
  have hrefusals : extractIp (configSource values) ≠ [] ∧
      configPathFor (configSource values) ≠ old := by
    unfold previewError at hgood
    split at hgood
    · cases hgood
    · rename_i hip
      split at hgood
      · cases hgood
      · rename_i hmoves
        exact ⟨hip, hmoves⟩
  rw [hpv]
  exact ⟨rfl, ⟨text, htext, hvalues, rfl⟩, hrefusals.1, hrefusals.2,
    fun c hc => noBreak_schedule (fun l hl => noBreak_of_mem_splitLines hl) hc⟩

theorem previewed {path : Str} {pv : ImportPreview} (hvalid : validateConfPath path = .ok old)
    (hpath : (replEnv D).Path w t u) (h : Drives (importConfigPreview path) t (.ok (.ok pv))) :
    Previewed old w pv := by
  have hread : readConfigPath old = readConfigFile old := by
    rw [readConfigPath, (validateConfPath_ok hvalid).2]
  rw [importConfigPreview, hvalid] at h
  replace h : Drives (readConfigPath old >>= previewRead old) t (.ok (.ok pv)) := h
  rw [hread] at h
  rcases drives_bind h with ⟨l₁, l₂, cfg, rfl, hcat, hrest⟩ | ⟨e, -, he⟩
  · obtain ⟨v, hpath₁, -⟩ := Env.path_append.mp hpath
    obtain ⟨a, v', t₁, rfl, hend⟩ := drives_ask hcat
    replace hend : Drives (if !a.success || a.stdout = [] then
        return { present := false, configPath := old }
      else return { present := true, values := (parseConfig a.stdout).values, raw := a.stdout,
                    configPath := old } : ReplJob ConfigRead) t₁ (.ok cfg) := hend
    by_cases hempty : (!a.success || a.stdout = []) = true
    · rw [if_pos hempty] at hend
      rw [Except.ok.inj hend.2, previewRead, if_pos (by rfl)] at hrest
      cases hrest.2
    · rw [if_neg hempty] at hend
      rw [Except.ok.inj hend.2] at hrest
      have hsuccess : a.success = true := by
        by_contra hfailed
        exact hempty (by simp [hfailed])
      have htext : w.files old = some a.stdout := hpath₁.1.1 hsuccess
      rw [previewRead, if_neg (by simp)] at hrest
      cases hgood : previewError old (parseConfig a.stdout).values with
      | some error =>
        rw [hgood] at hrest
        cases hrest.2
      | none =>
        rw [hgood] at hrest
        exact previewed_of_config htext rfl hgood hrest
  · cases he

/-! ## The new config -/

theorem uses_listTaggedDatasets {tag : Str} : (listTaggedDatasets tag).Uses Reads := by
  unfold listTaggedDatasets
  split
  · trivial
  · refine ⟨trivial, fun a => ?_⟩
    show Prog.Uses Reads (if _ then _ else _)
    split <;> trivial

theorem uses_poolGuard {host : Host} {path : Str} {values : Values} :
    (poolGuard host path values source).Uses Reads := by
  unfold poolGuard
  dsimp only
  split
  · refine Prog.Uses.bind uses_listTaggedDatasets (fun listed => ?_)
    split <;> trivial
  · trivial

/-- The guard only answers with a refusal. -/
theorem poolGuard_refuses {host : Host} {path : Str} {values : Values} {r : WriteResult}
    (h : Drives (poolGuard host path values source) t (.ok (some r))) : r.success = false := by
  unfold poolGuard at h
  dsimp only at h
  split at h
  · rcases drives_bind h with ⟨l₁, l₂, listed, rfl, -, hrest⟩ | ⟨e, -, he⟩
    · split at hrest
      · have hr := Option.some.inj (Except.ok.inj hrest.2)
        rw [hr]
        rfl
      · cases hrest.2
    · cases he
  · cases h.2

/-- The request reads, or it writes this config. -/
def Writes (path : Str) (q : ReplCmd) : Prop := Reads q ∨ ∃ text, q = .writeFile path text

theorem early_of_writes {path : Str} {q : ReplCmd} (hne : path ≠ old) (h : Writes path q) :
    Early old q := by
  rcases h with hreads | ⟨text, rfl⟩
  · exact early_of_reads hreads
  · exact hne

theorem uses_writeConfig {host : Host} {values : Values} :
    (writeConfig host values source).Uses (Writes (configPathFor (sourceOr source values))) := by
  refine Prog.Uses.bind (uses_poolGuard.mono (fun _ => .inl)) (fun refusal => ?_)
  cases refusal with
  | some refusal => trivial
  | none => exact ⟨.inl trivial, fun _ => ⟨.inr ⟨_, rfl⟩, fun _ => trivial⟩⟩

/-- A write that succeeds leaves the file. -/
theorem written {host : Host} {values : Values} {r : WriteResult}
    (hpath : (replEnv D).Path w t u) (h : Drives (writeConfig host values source) t (.ok r))
    (hr : r.success = true) :
    (u.files (configPathFor (sourceOr source values))).isSome = true := by
  rcases drives_bind h with ⟨l₁, l₂, refusal, rfl, hguard, hrest⟩ | ⟨e, -, he⟩
  · obtain ⟨v, -, hpath₂⟩ := Env.path_append.mp hpath
    cases refusal with
    | some refusal =>
      rw [Except.ok.inj hrest.2] at hr
      rw [poolGuard_refuses hguard] at hr
      cases hr
    | none =>
      obtain ⟨a, u₁, t₁, rfl, h₁⟩ := drives_ask hrest
      obtain ⟨b, u₂, t₂, rfl, h₂⟩ := drives_ask h₁
      rw [Except.ok.inj h₂.2] at hr
      obtain ⟨-, hwrite, hend⟩ := hpath₂
      rw [eq_nil_of_answered h₂.1] at hend
      rw [← show u₂ = u from hend, hwrite.2.2 hr]
      rfl
  · cases he

/-! ## The whole import -/

/-- The host when the new config is written. -/
structure Prepared (old source : Str) (w v : ReplHost) : Prop where
  cron : v.cron = w.cron
  file : v.files old = w.files old
  text : ∃ text, w.files old = some text ∧ source = configSource (parseConfig text).values
  conf : isConfPath (configPathFor source) = true
  moves : configPathFor source ≠ old
  written : (v.files (configPathFor source)).isSome = true

/-- The import stops before it changes a cron table or moves the old file, or
it goes on to the rename. -/
theorem import_cases {host : Host} {path : Str} {adopt : Bool} {o : Except Exn ImportResult}
    (hvalid : validateConfPath path = .ok old) (hpath : (replEnv D).Path w tr w')
    (h : Drives (importConfig host path adopt) tr o) :
    (∀ q a, (q, a) ∈ answered tr → Early old q) ∨
      ∃ source t₁ t₂ v₁ v₂ a, tr = t₁ ++ (t₂ ++ [(.request (.park old) a, w')]) ∧
        (replEnv D).Path w t₁ v₁ ∧ (∀ q a, (q, a) ∈ answered t₁ → Early old q) ∧
        Prepared old source w v₁ ∧ (replEnv D).Path v₁ t₂ v₂ ∧ CronSteps old source t₂ ∧
        replRespond D v₂ (.park old) a w' := by
  have hconf := (validateConfPath_ok hvalid).1
  rcases drives_bind h with ⟨l₁, l, pv, rfl, hpreview, h⟩ | ⟨e, hpreview, -⟩
  · obtain ⟨u₁, hpath₁, hpath⟩ := Env.path_append.mp hpath
    have hreads : ∀ q a, (q, a) ∈ answered l₁ → Reads q :=
      fun q a hmem => hpreview.uses uses_importConfigPreview hmem
    have hfront : ∀ q a, (q, a) ∈ answered l₁ → Early old q :=
      fun q a hmem => early_of_reads (hreads q a hmem)
    have hu₁ : u₁ = w := path_reads hpath₁ hreads
    cases pv with
    | error error =>
      left
      rw [eq_nil_of_answered h.1, List.append_nil]
      exact hfront
    | ok pv =>
      have hpv := previewed hvalid hpath₁ hpreview
      replace h : Drives (importPreviewed host pv adopt) l o := h
      unfold importPreviewed at h
      by_cases hexists : pv.canonicalExists = true
      · left
        rw [if_pos hexists] at h
        rw [eq_nil_of_answered h.1, List.append_nil]
        exact hfront
      · rw [if_neg hexists] at h
        have hsource : sourceOr pv.source pv.values = pv.source := by
          rw [sourceOr, if_pos]
          intro hnil
          exact hpv.ip (by rw [hnil]; rfl)
        have hwrites : (writeConfig host pv.values pv.source).Uses (Early old) := by
          refine uses_writeConfig.mono (fun q hq => early_of_writes ?_ hq)
          rw [hsource]
          exact hpv.moves
        rcases drives_bind h with ⟨l₂, l₃, r, rfl, hwrite, h⟩ | ⟨e, hwrite, -⟩
        · obtain ⟨u₂, hpath₂, hpath⟩ := Env.path_append.mp hpath
          have hearly : ∀ q a, (q, a) ∈ answered (l₁ ++ l₂) → Early old q := by
            intro q a hmem
            rw [answered_append] at hmem
            rcases List.mem_append.mp hmem with hmem | hmem
            · exact hfront q a hmem
            · exact hwrite.uses hwrites hmem
          by_cases hsuccess : r.success = true
          · right
            rw [if_pos hsuccess] at h
            replace h : Drives (finishImport pv adopt _) l₃ o := h
            rcases drives_bind h with ⟨l₄, l₅, outcome, rfl, hadopt, h⟩ | ⟨e, hadopt, -⟩
            · obtain ⟨u₃, hpath₃, hpath⟩ := Env.path_append.mp hpath
              obtain ⟨a, u₄, l₆, rfl, hend⟩ := drives_ask h
              obtain ⟨hpark, hlast⟩ := hpath
              rw [eq_nil_of_answered hend.1] at hlast ⊢
              rw [show u₄ = w' from hlast] at hpark ⊢
              rw [hpv.path] at hpark ⊢
              have hboth := path_early hconf (Env.path_append.mpr ⟨u₁, hpath₁, hpath₂⟩) hearly
              have hsteps := (drives_adoptCron hpv.noBreak hadopt).1
              rw [hpv.path] at hsteps
              obtain ⟨text, htext, hvalues, hsrc⟩ := hpv.source
              refine ⟨pv.source, l₁ ++ l₂, l₄, u₂, u₃, a, by simp,
                Env.path_append.mpr ⟨u₁, hpath₁, hpath₂⟩, hearly, ?_, hpath₃, hsteps, hpark⟩
              refine ⟨hboth.1, hboth.2, ⟨text, htext, ?_⟩, isConfPath_configPathFor hpv.ip,
                hpv.moves, ?_⟩
              · rw [hsrc, hvalues]
              · have hfile := written hpath₂ hwrite hsuccess
                rw [hsource] at hfile
                exact hfile
            · obtain ⟨-, r', hr'⟩ := drives_adoptCron hpv.noBreak hadopt
              cases hr'
          · left
            rw [if_neg hsuccess] at h
            rw [eq_nil_of_answered h.1, List.append_nil]
            exact hearly
        · left
          intro q a hmem
          rw [answered_append] at hmem
          rcases List.mem_append.mp hmem with hmem | hmem
          · exact hfront q a hmem
          · exact hwrite.uses hwrites hmem
  · left
    intro q a hmem
    exact early_of_reads (hpreview.uses uses_importConfigPreview hmem)

/-! ## What a run keeps -/

theorem dropsCovered_of_cron (hcron : u.cron = v.cron) : DropsCovered D old tr v u :=
  fun _ _ hline _ hgone => absurd (hcron ▸ hline) hgone

/-- A step that is not the rename. -/
theorem stepKeeps_iff {e : Event ReplCmd Answer Empty} (he : ∀ a, e ≠ .request (.park old) a) :
    StepKeeps D old tr v e u ↔ DropsCovered D old tr v u :=
  ⟨StepKeeps.dropped, fun h => ⟨fun ⟨a, ha⟩ => absurd ha (he a), h⟩⟩

/-- Two changes of the cron tables, where the first adds no line that runs the
old config and the second brings no line back. -/
theorem dropsCovered_trans {x : ReplHost}
    (hnew : ∀ o, ∀ line ∈ fileLines (u.cron o), D.runs o line old → line ∈ fileLines (v.cron o))
    (hback : ∀ o, ∀ line ∈ fileLines (v.cron o), line ∈ fileLines (x.cron o) →
      line ∈ fileLines (u.cron o)) :
    DropsCovered D old tr v x ↔ DropsCovered D old tr v u ∧ DropsCovered D old tr u x := by
  constructor
  · intro h
    constructor
    · intro o line hline hruns hgone
      exact h o line hline hruns (fun hx => hgone (hback o line hline hx))
    · intro o line hline hruns hgone
      exact h o line (hnew o line hline hruns) hruns hgone
  · intro ⟨h₁, h₂⟩ o line hline hruns hgone
    by_cases hu : line ∈ fileLines (u.cron o)
    · exact h₂ o line hu hruns hgone
    · exact h₁ o line hline hruns hu

/-- The new line does not run the old config. -/
theorem set_adds_none {schedule : Str} {a : Answer} (hvalid : validateCron schedule = true)
    (hbreak : NoBreak schedule) (hmoves : configPathFor source ≠ old)
    (h : replRespond D v (setRequest schedule source) a u) :
    ∀ o, ∀ line ∈ fileLines (u.cron o), D.runs o line old → line ∈ fileLines (v.cron o) := by
  intro o line hline hruns
  obtain ⟨-, hothers, hcron⟩ := respond_set hbreak h
  by_cases ho : o = "crontab"
  · subst ho
    rcases hcron with ⟨hlines, haccepts⟩ | ⟨hsame, -⟩
    · rw [hlines] at hline
      rcases List.mem_append.mp hline with hkept | hnew
      · exact (List.mem_filter.mp hkept).1
      · rw [List.mem_singleton.mp hnew] at hruns
        exact absurd ((D.runs_cronLine schedule source hvalid haccepts old).mp hruns).symm hmoves
    · rw [← hsame]
      exact hline
  · rw [← hothers o ho]
    exact hline

/-- The removal brings no line back that the new line replaced. -/
theorem removal_brings_none {schedule : Str} {a b : Answer} {q : ReplCmd} {x : ReplHost}
    (hbreak : NoBreak schedule) (hset : replRespond D v (setRequest schedule source) a u)
    (hq : IsRemoval old q) (hremoval : replRespond D u q b x) :
    ∀ o, ∀ line ∈ fileLines (v.cron o), line ∈ fileLines (x.cron o) →
      line ∈ fileLines (u.cron o) := by
  intro o line hline hx
  by_cases ho : o = "crontab"
  · subst ho
    exact (respond_removal hq hremoval).2.1 line hx
  · rw [(respond_set hbreak hset).2.1 o ho]
    exact hline

theorem setRequest_ne_park {schedule : Str} {a : Answer} :
    ∀ a', (Event.request (setRequest schedule source) a : Event ReplCmd Answer Empty) ≠
      .request (.park old) a' := by
  intro a' heq
  cases heq

theorem removal_ne_park {q : ReplCmd} {b : Answer} (hq : IsRemoval old q) :
    ∀ a', (Event.request q b : Event ReplCmd Answer Empty) ≠ .request (.park old) a' := by
  intro a' heq
  rcases hq with rfl | ⟨file, rfl, -⟩ <;> cases heq

theorem cronSteps_files (hpath : (replEnv D).Path v t u) (h : CronSteps old source t) :
    u.files = v.files := by
  cases h with
  | untouched => rw [show v = u from hpath]
  | added hvalid hbreak =>
    obtain ⟨hset, rfl⟩ := hpath
    exact (respond_set hbreak hset).1
  | replaced hvalid hbreak hok hq =>
    obtain ⟨hset, hremoval, rfl⟩ := hpath
    exact (respond_removal hq hremoval).1.trans (respond_set hbreak hset).1

/-- The condition on the rewrites is one on their outcome. -/
theorem eachChange_cronSteps (hmoves : configPathFor source ≠ old)
    (hpath : (replEnv D).Path v t u) (h : CronSteps old source t) :
    EachChange (StepKeeps D old tr) v t ↔ DropsCovered D old tr v u := by
  cases h with
  | untouched =>
    rw [show v = u from hpath]
    exact ⟨fun _ => dropsCovered_of_cron rfl, fun _ => trivial⟩
  | added hvalid hbreak =>
    obtain ⟨hset, rfl⟩ := hpath
    exact (and_iff_left trivial).trans (stepKeeps_iff setRequest_ne_park)
  | replaced hvalid hbreak hok hq =>
    obtain ⟨hset, hremoval, rfl⟩ := hpath
    rw [dropsCovered_trans (set_adds_none hvalid hbreak hmoves hset)
      (removal_brings_none hbreak hset hq hremoval)]
    exact and_congr (stepKeeps_iff setRequest_ne_park)
      ((and_iff_left trivial).trans (stepKeeps_iff (removal_ne_park hq)))

/-- Where a line is dropped, the line that the run adds is in root's crontab
at the end, and it runs the new config. -/
theorem added_of_dropped (hpath : (replEnv D).Path v t u) (h : CronSteps old source t) {o line : Str}
    (hline : line ∈ fileLines (v.cron o)) (hgone : line ∉ fileLines (u.cron o)) {line' : Str}
    (hadds : Appends t line') :
    line' ∈ fileLines (u.cron "crontab") ∧ D.runs "crontab" line' (configPathFor source) := by
  obtain ⟨p, dir, reload, b, hmem⟩ := hadds
  cases h with
  | untouched => cases hmem
  | @added schedule a _ hvalid hbreak =>
    obtain ⟨hset, rfl⟩ := hpath
    have hline' : line' = cronLine schedule (configPathFor source) logPath := by
      simp only [answered_request, answered_nil, List.mem_singleton, Prod.mk.injEq] at hmem
      have hrequest := hmem.1
      simp only [setRequest, ReplCmd.rewriteCrontab.injEq, Option.some.injEq] at hrequest
      exact hrequest.2.1
    rcases (respond_set hbreak hset).2.2 with ⟨hlines, haccepts⟩ | ⟨hsame, -⟩
    · rw [hline', hlines]
      exact ⟨by simp, (D.runs_cronLine schedule source hvalid haccepts _).mpr rfl⟩
    · exact absurd (hsame ▸ hline) hgone
  | @replaced schedule a c _ _ q hvalid hbreak hok hq =>
    obtain ⟨hset, hremoval, rfl⟩ := hpath
    have hline' : line' = cronLine schedule (configPathFor source) logPath := by
      simp only [answered_request, answered_nil, List.mem_cons, List.not_mem_nil, or_false,
        Prod.mk.injEq] at hmem
      rcases hmem with ⟨hrequest, -⟩ | ⟨hrequest, -⟩
      · simp only [setRequest, ReplCmd.rewriteCrontab.injEq, Option.some.injEq] at hrequest
        exact hrequest.2.1
      · rw [← hrequest] at hq
        rcases hq with hq | ⟨file, hq, -⟩ <;> cases hq
    rcases (respond_set hbreak hset).2.2 with ⟨hlines, haccepts⟩ | ⟨-, hunconfirmed⟩
    · rw [hline']
      refine ⟨(respond_removal hq hremoval).2.2 _ ?_ (not_ownCronLine_cronLine hvalid),
        (D.runs_cronLine schedule source hvalid haccepts _).mpr rfl⟩
      rw [hlines]
      simp
    · rw [hok] at hunconfirmed
      cases hunconfirmed

/-- A run that stops early keeps everything. -/
theorem keeps_of_early (hconf : isConfPath old = true) (hpath : (replEnv D).Path w tr w')
    (h : ∀ q a, (q, a) ∈ answered tr → Early old q) :
    SchedulesKept D old w tr w' ∧ ImportCondition D old w tr := by
  obtain ⟨hcron, hfile⟩ := path_early hconf hpath h
  refine ⟨⟨fun o line hline _ => .inl ?_, fun hsome o line _ _ => ?_⟩,
    eachChange_early hconf hpath h⟩
  · rw [hcron]
    exact hline
  · rw [hfile]
    exact hsome

/-- The lines that the run adds are added by the rewrites. -/
theorem appends_cronSteps {t₁ t₂ : ImportTrail} {a : Answer} {line : Str}
    (hearly : ∀ q a, (q, a) ∈ answered t₁ → Early old q)
    (h : Appends (t₁ ++ (t₂ ++ [(.request (.park old) a, w')])) line) : Appends t₂ line := by
  obtain ⟨p, dir, reload, b, hmem⟩ := h
  rw [answered_append, answered_append] at hmem
  rcases List.mem_append.mp hmem with hfront | hmem
  · exact (hearly _ _ hfront).elim
  · rcases List.mem_append.mp hmem with hsteps | hpark
    · exact ⟨p, dir, reload, b, hsteps⟩
    · simp at hpark

/-- A run that goes on to the rename keeps the schedules if and only if it
meets the condition. -/
theorem keeps_iff_of_rename {t₁ t₂ : ImportTrail} {v₁ v₂ : ReplHost} {a : Answer}
    (hconf : isConfPath old = true) (hpath₁ : (replEnv D).Path w t₁ v₁)
    (hearly : ∀ q a, (q, a) ∈ answered t₁ → Early old q) (hprepared : Prepared old source w v₁)
    (hpath₂ : (replEnv D).Path v₁ t₂ v₂) (hsteps : CronSteps old source t₂)
    (hpark : replRespond D v₂ (.park old) a w') :
    SchedulesKept D old w (t₁ ++ (t₂ ++ [(.request (.park old) a, w')])) w' ↔
      ImportCondition D old w (t₁ ++ (t₂ ++ [(.request (.park old) a, w')])) := by
  obtain ⟨hcron, hfiles, hmoved⟩ := hpark
  have hfiles₂ : v₂.files = v₁.files := cronSteps_files hpath₂ hsteps
  rw [ImportCondition, eachChange_append, eachChange_append, ← hpath₁.end_eq, ← hpath₂.end_eq,
    eachChange_cronSteps hprepared.moves hpath₂ hsteps]
  constructor
  · intro hkept
    refine ⟨eachChange_early hconf hpath₁ hearly, ?_, ⟨fun _ hgone => ?_, ?_⟩, trivial⟩
    · intro o line hline hruns hdropped
      rw [hprepared.cron] at hline
      rcases hkept.kept o line hline hruns with hstays | ⟨line', canonical, hadds, -, hsame, -⟩
      · exact absurd (hcron ▸ hstays) hdropped
      · exact ⟨line', hadds, hsame⟩
    · intro o line hline hruns
      obtain ⟨text, htext, -⟩ := hprepared.text
      have hsome := hkept.backed (by rw [htext]; rfl) o line (by rw [hcron]; exact hline) hruns
      rw [hgone] at hsome
      cases hsome
    · exact dropsCovered_of_cron hcron
  · intro ⟨_, hcovered, hstep, _⟩
    constructor
    · intro o line hline hruns
      by_cases hstays : line ∈ fileLines (w'.cron o)
      · exact .inl hstays
      · right
        rw [hcron] at hstays
        rw [← hprepared.cron] at hline
        obtain ⟨line', hadds, hsame⟩ := hcovered o line hline hruns hstays
        obtain ⟨hin, hruns'⟩ :=
          added_of_dropped hpath₂ hsteps hline hstays (appends_cronSteps hearly hadds)
        obtain ⟨text, htext, hsource⟩ := hprepared.text
        refine ⟨line', configPathFor source, hadds, ?_, hsame, ⟨text, htext, ?_⟩, hruns', ?_⟩
        · rw [hcron]
          exact hin
        · rw [hsource]
        · rw [hfiles _ hprepared.conf hprepared.moves, hfiles₂]
          exact hprepared.written
    · intro hsome o line hline hruns
      rw [hcron] at hline
      rcases hmoved with hgone | ⟨hsame, -⟩
      · exact absurd hruns (hstep.parked ⟨a, rfl⟩ hgone o line hline)
      · rw [hsame, hfiles₂, hprepared.file]
        exact hsome

/-- An import keeps the schedules of the config if and only if no cron line
runs the old file when it is moved away, and a cron line that runs it is only
dropped for a new one with its schedule. -/
theorem import_keeps_iff {host : Host} {path : Str} {adopt : Bool} {o : Except Exn ImportResult}
    (hpath : (replEnv D).Path w tr w') (h : Drives (importConfig host path adopt) tr o) :
    SchedulesKept D (strip path) w tr w' ↔ ImportCondition D (strip path) w tr := by
  cases hvalid : validateConfPath path with
  | error e =>
    have hnil : answered tr = [] := by
      unfold importConfig importConfigPreview at h
      rw [hvalid] at h
      cases e <;> exact h.1
    rw [eq_nil_of_answered hnil] at hpath ⊢
    rw [show w = w' from hpath]
    exact ⟨fun _ => trivial, fun _ => ⟨fun _ _ hline _ => .inl hline, fun hsome _ _ _ _ => hsome⟩⟩
  | ok old =>
    have hold : old = strip path := by
      unfold validateConfPath at hvalid
      split at hvalid
      · cases hvalid
      · exact (Except.ok.inj hvalid).symm
    have hconf := (validateConfPath_ok hvalid).1
    rw [← hold]
    rcases import_cases hvalid hpath h with hearly |
      ⟨source, t₁, t₂, v₁, v₂, a, rfl, hpath₁, hearly, hprepared, hpath₂, hsteps, hpark⟩
    · have hboth := keeps_of_early (D := D) hconf hpath hearly
      exact ⟨fun _ => hboth.2, fun _ => hboth.1⟩
    · exact keeps_iff_of_rename hconf hpath₁ hearly hprepared hpath₂ hsteps hpark

end

/-! ## An import in which nothing fails -/

/-- The config that a plain line of a crontab runs. -/
def toolArgument (line : Str) : Option Str :=
  let command := line.dropWhile isCronChar
  if startsWith command "bashclub-zsync -c " then some ((command.drop 18).takeWhile (· ≠ ' '))
  else none

theorem toolArgument_cronLine {schedule source : Str} (hvalid : validateCron schedule = true) :
    toolArgument (cronLine schedule (configPathFor source) logPath) = some (configPathFor source) := by
  simp only [validateCron, Bool.and_eq_true, List.all_eq_true] at hvalid
  have htool : (" bashclub-zsync -c " : Str) = ' ' :: 'b' :: ("ashclub-zsync -c " : Str) := by
    decide +kernel
  have hcommand : (cronLine schedule (configPathFor source) logPath).dropWhile isCronChar =
      'b' :: ("ashclub-zsync -c " : Str) ++ (configPathFor source ++ (" >> " ++ (logPath ++ " 2>&1"))) := by
    rw [cronLine, htool]
    simp only [List.append_assoc]
    rw [List.dropWhile_append_of_pos hvalid.1.2, List.cons_append,
      List.dropWhile_cons_of_pos (by decide), List.cons_append,
      List.dropWhile_cons_of_neg (by decide +kernel)]
  have hlength : ('b' :: ("ashclub-zsync -c " : Str)).length = 18 := by decide +kernel
  have hpath : ∀ c ∈ configPathFor source, decide (c ≠ ' ') = true := by
    intro c hc
    rcases mem_configPathFor hc with hname | hslash
    · apply decide_eq_true
      rintro rfl
      revert hname
      decide
    · rw [hslash]
      decide
  have hstart : startsWith ('b' :: ("ashclub-zsync -c " : Str) ++
      (configPathFor source ++ (" >> " ++ (logPath ++ " 2>&1")))) "bashclub-zsync -c " = true := by
    apply List.isPrefixOf_iff_prefix.mpr
    have hword : ("bashclub-zsync -c " : Str) = 'b' :: ("ashclub-zsync -c " : Str) := by
      decide +kernel
    rw [hword]
    exact List.prefix_append _ _
  rw [toolArgument, hcommand]
  rw [if_pos hstart, List.drop_left' hlength, List.takeWhile_append_of_pos hpath]
  have hend : (" >> " ++ (logPath ++ " 2>&1") : Str).takeWhile (fun c => decide (c ≠ ' ')) = [] := by
    decide +kernel
  rw [hend, List.append_nil]

/-- cron for tables with plain lines. -/
def plainCron : CronDaemon where
  accepts _ := True
  runs _ line p := toolArgument line = some p
  runs_cronLine schedule source hvalid _ p := by
    rw [toolArgument_cronLine hvalid, Option.some.injEq]
    exact eq_comm

def importOld : Str := "/etc/bashclub/zsync.conf"

def importNew : Str := "/etc/bashclub/10.0.0.5.conf"

def importLine : Str := "20 0-22 * * * bashclub-zsync -c /etc/bashclub/zsync.conf"

/-- Before the import: the default config of upstream, and its cron line. -/
def importStart : ReplHost where
  files := Function.update (fun _ => none) importOld (some "source=root@10.0.0.5\ntarget=tank/repl\n")
  cron := Function.update (fun _ => []) "crontab" (importLine ++ ['\n'])

/-- With the new config. -/
def importWritten : ReplHost :=
  { importStart with
    files := Function.update importStart.files importNew
      (some "source=\"root@10.0.0.5\"\ntarget=\"tank/repl\"\n") }

/-- With the new cron line. -/
def importAdded : ReplHost :=
  { importWritten with
    cron := Function.update importWritten.cron "crontab"
      (rewritten importNew (some (cronLine "20 0-22 * * *" importNew logPath))
        (importLine ++ ['\n'])) }

/-- The import up to the rename. -/
def importFront : ImportTrail :=
  [(.request (.catFile importOld) (prints "source=root@10.0.0.5\ntarget=tank/repl\n"), importStart),
    (.request (.pathProbe importNew) (prints "__NO__\n"), importStart),
    (.request .listCron (prints ("__CRONTAB__\n" ++ importLine ++ "\n")), importStart),
    (.request (.catFile importNew) noAnswer, importStart),
    (.request (.writeFile importNew "source=\"root@10.0.0.5\"\ntarget=\"tank/repl\"\n") (prints []),
      importWritten),
    (.request (setRequest "20 0-22 * * *" "root@10.0.0.5") (prints "__OK__\n"), importAdded),
    (.request (.rewriteCrontab importOld none [] false) (prints "__OK__\n"), importAdded)]

/-- The rename. -/
def importParked : ReplHost :=
  { importAdded with files := Function.update importAdded.files importOld none }

theorem path_importFront : (replEnv plainCron).Path importStart importFront importAdded := by
  have hother : ∀ (text : Str) (f : Str → Str) (o : Str), o ≠ "crontab" →
      Function.update f ("crontab" : Str) text o = f o :=
    fun text f o ho => Function.update_of_ne ho text f
  refine ⟨⟨fun _ => rfl, rfl⟩, rfl, rfl, ⟨nofun, rfl⟩, ⟨rfl, fun q _ hq => ?_, fun _ => rfl⟩,
    ⟨rfl, hother _ _, .inl ⟨?_, ?_⟩⟩, ⟨rfl, fun _ _ => rfl, .inl ⟨?_, nofun⟩⟩, rfl⟩
  · exact Function.update_of_ne hq _ _
  · decide +kernel
  · intro line _
    trivial
  · decide +kernel

theorem importLine_runs : plainCron.runs "crontab" importLine importOld := by
  show toolArgument importLine = some importOld
  decide +kernel

/-- Every command succeeds, the old line stays and the file that it runs is
gone. -/
theorem import_orphans :
    ∃ w tr w' o, (replEnv plainCron).Path w tr w' ∧
      Drives (importConfig ⟨"10.0.0.1", "root", 22⟩ importOld true) tr o ∧
        ¬ SchedulesKept plainCron importOld w tr w' := by
  have hrun : ∃ o, Drives (importConfig ⟨"10.0.0.1", "root", 22⟩ importOld true)
      (importFront ++ [(.request (.park importOld)
        (prints "__PARKED__ /etc/bashclub/zsync.conf.imported-20260916120000\n"), importParked)]) o :=
    Prog.exists_run_of_transcript ((answered importFront).map Prod.snd ++
      [prints "__PARKED__ /etc/bashclub/zsync.conf.imported-20260916120000\n"]) (by decide +kernel)
  obtain ⟨o, hrun⟩ := hrun
  refine ⟨importStart, _, importParked, o, ?_, hrun, fun hkept => ?_⟩
  · apply Env.path_append.mpr
    refine ⟨importAdded, path_importFront, ⟨rfl, fun q _ hq => ?_, .inl ?_⟩, rfl⟩
    · exact Function.update_of_ne hq _ _
    · show Function.update importAdded.files importOld none importOld = none
      exact Function.update_self _ _ _
  · have hline : importLine ∈ fileLines (importParked.cron "crontab") := by decide +kernel
    have hsome := hkept.backed rfl "crontab" importLine hline importLine_runs
    revert hsome
    decide +kernel

/-- The same import when the rename fails. -/
theorem import_condition_stuck :
    ImportCondition plainCron importOld importStart
      (importFront ++ [(.request (.park importOld) noAnswer, importAdded)]) := by
  have hrun : ∃ o, Drives (importConfig ⟨"10.0.0.1", "root", 22⟩ importOld true)
      (importFront ++ [(.request (.park importOld) noAnswer, importAdded)]) o :=
    Prog.exists_run_of_transcript ((answered importFront).map Prod.snd ++ [noAnswer])
      (by decide +kernel)
  obtain ⟨o, hrun⟩ := hrun
  have hpath : (replEnv plainCron).Path importStart
      (importFront ++ [(.request (.park importOld) noAnswer, importAdded)]) importAdded := by
    apply Env.path_append.mpr
    exact ⟨importAdded, path_importFront, ⟨rfl, fun _ _ _ => rfl, .inr ⟨rfl, rfl⟩⟩, rfl⟩
  have hstrip : strip importOld = importOld := by decide +kernel
  have hkept : SchedulesKept plainCron (strip importOld) importStart
      (importFront ++ [(.request (.park importOld) noAnswer, importAdded)]) importAdded := by
    have hsub : ∀ l ∈ fileLines (importStart.cron "crontab"),
        l ∈ fileLines (importAdded.cron "crontab") := by
      decide +kernel
    constructor
    · intro o line hline _
      left
      by_cases ho : o = ("crontab" : Str)
      · subst ho
        exact hsub line hline
      · have hsame : importAdded.cron o = importStart.cron o := by
          show Function.update importStart.cron ("crontab" : Str) _ o = importStart.cron o
          exact Function.update_of_ne ho _ _
        rw [hsame]
        exact hline
    · intro _ o line _ _
      decide +kernel
  have hcondition := (import_keeps_iff hpath hrun).mp hkept
  rw [hstrip] at hcondition
  exact hcondition

end PveZfsTool.Replication
