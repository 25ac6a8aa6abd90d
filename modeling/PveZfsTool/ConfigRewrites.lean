import PveZfsTool.Lib.LineFile
import PveZfsTool.Lib.Rewrites
import PveZfsTool.Replication.ConfigFile
import PveZfsTool.Zfs.ArcLimit
import PveZfsTool.Zfs.AutoSnap

/-!
# Config files that are read and written anew

`set_retention`, `write_config` and `set_arc_limit` read a file of the host,
change a part of its text and write the file.  A run of each is an `Execution`
against files whose reads may fail.

`set_retention` writes nothing without the content.  The other two take a read
that failed for a file that is not there.
-/

namespace PveZfsTool

open Text Dialogue
open Backups (Json)

/-! ## The files behind the commands -/

/-- A command that failed, or printed nothing. -/
def FailedOrEmpty (a : Answer) : Prop := a.success = false ∨ a.stdout = []

/-- The files that `set_retention` reads and writes. -/
def snapOps : FileOps Str Str SnapCmd Answer where
  reads
    | .catFile path => some path
    | .writeFile _ _ => none
  writes
    | .catFile _ => none
    | .writeFile path _ => some path
  Delivers _ a content := a.success = true ∧ a.stdout = content
  Fails := FailedOrEmpty

/-- The files that `write_config` reads and writes. -/
def replOps : FileOps Str Str Replication.ReplCmd Answer where
  reads
    | .catFile path => some path
    | _ => none
  writes
    | .writeFile path _ => some path
    | _ => none
  Delivers _ a content := a.success = true ∧ a.stdout = content
  Fails := FailedOrEmpty

/-- The output of the probe with the file behind the marker. -/
def ProbeDelivers (stdout content : Str) : Prop :=
  ∃ front : List Str, (∀ line ∈ front, NoBreak line ∧ isConfMarker line = false) ∧
    stdout = unlines front ++ (("__ZFSCONF__" : Str) ++ '\n' :: content)

/-- Then the text that `set_arc_limit` rebuilds the file from has its lines. -/
theorem confText_of_delivers {stdout content : Str} (h : ProbeDelivers stdout content) :
    (parseArcProbe stdout).confText = join ['\n'] (splitLines content) := by
  obtain ⟨front, hfront, rfl⟩ := h
  have hlines : splitLines (unlines front ++ (("__ZFSCONF__" : Str) ++ '\n' :: content)) =
      front ++ ("__ZFSCONF__" : Str) :: splitLines content := by
    rw [splitLines_unlines_append (fun l hl => (hfront l hl).1), splitLines,
      splitLinesAux_line (by decide)]
    rfl
  have hdrop : ∀ lines : List Str, (front ++ ("__ZFSCONF__" : Str) :: lines).dropWhile
      (fun l => !isConfMarker l) = ("__ZFSCONF__" : Str) :: lines := by
    intro lines
    rw [List.dropWhile_append_of_pos (fun l hl => by simp [(hfront l hl).2])]
    rfl
  show join ['\n'] (((splitLines _).dropWhile (fun l => !isConfMarker l)).drop 1) = _
  rw [hlines, hdrop]
  rfl

/-- The file that `set_arc_limit` reads and writes. -/
def arcOps : FileOps Str Str ArcCmd Answer where
  reads
    | .probe => some arcConfPath
    | _ => none
  writes
    | .writeConf _ => some arcConfPath
    | _ => none
  Delivers _ a content := ProbeDelivers a.stdout content
  Fails := FailedOrEmpty

/-! ## `set_retention` -/

variable {w w' : Files Str Str} {prev : Option (SnapCmd × Answer)}
  {t : Trail SnapCmd Answer Empty (Files Str Str)}

/-- A level is written only when its file was read. -/
theorem guarded_changeLevel {level : SnapLevel} {keep : Option Int} {enabled : Option Bool}
    {o : Except Exn LevelResult} (hpath : snapOps.env.Path w t w')
    (h : Drives (changeLevel level keep enabled) t o) : snapOps.GuardedFrom prev w t := by
  unfold changeLevel at h
  simp only [Prog.issue_bind] at h
  obtain ⟨a, u, t, rfl, hnext⟩ := drives_ask h
  have hread : snapOps.env.Step w (.request (.catFile level.file) a) u := hpath.1
  have hnone : ∀ r : LevelResult, Drives (return r) t o →
      snapOps.GuardedFrom prev w ((.request (.catFile level.file) a, u) :: t) := by
    intro r hr
    obtain rfl : t = [] := eq_nil_of_answered hr.1
    exact ⟨FileOps.covered_of_writes_none rfl, trivial⟩
  generalize hdef : (if a.success = true then a.stdout else []) = content at hnext
  split at hnext
  · exact hnone _ hnext
  · rename_i hcontent
    split at hnext
    · exact hnone _ hnext
    · split at hnext
      · exact hnone _ hnext
      · simp only [saveLevel, Prog.issue_bind] at hnext
        obtain ⟨b, v, t, rfl, hlast⟩ := drives_ask hnext
        obtain rfl : t = [] := eq_nil_of_answered hlast.1
        refine (FileOps.guarded_rewrite rfl rfl rfl hread (by simp)).mpr (fun p c hp hc => ?_)
        -- a read that failed or printed nothing leaves no content to change
        rcases hread.1 p hp with hfails | ⟨c', hc', hdelivers⟩
        · rcases hfails with hfails | hempty
          · rw [if_neg (by simp [hfails])] at hdef
            exact absurd (hdef ▸ rfl) hcontent
          · rw [hempty, ite_self] at hdef
            exact absurd (hdef ▸ rfl) hcontent
        · obtain rfl : c' = c := Option.some.inj (hc'.symm.trans hc)
          exact hdelivers

/-- So is one change. -/
theorem guarded_setLevel {ch : LevelChange} {o : Except Exn LevelResult}
    (hpath : snapOps.env.Path w t w') (h : Drives (setLevel ch) t o) :
    snapOps.GuardedFrom prev w t := by
  unfold setLevel at h
  split at h
  · obtain rfl : t = [] := eq_nil_of_answered h.1
    trivial
  · split at h
    · obtain rfl : t = [] := eq_nil_of_answered h.1
      trivial
    · exact guarded_changeLevel hpath h

theorem guarded_setLevels {changes : List LevelChange} {o : Except Exn (List LevelResult)}
    (hpath : snapOps.env.Path w t w') (h : Drives (setLevels changes) t o) :
    snapOps.GuardedFrom prev w t := by
  induction changes generalizing w t o prev with
  | nil =>
    obtain rfl : t = [] := eq_nil_of_answered h.1
    trivial
  | cons ch changes ih =>
    rcases drives_bind h with ⟨t₁, t₂, result, rfl, hfirst, hnext⟩ | ⟨error, hfirst, -⟩
    · obtain ⟨w₁, hpath₁, hpath₂⟩ := Env.path_append.mp hpath
      refine FileOps.guarded_append (guarded_setLevel hpath₁ hfirst) (fun prev => ?_)
      rw [← hpath₁.end_eq]
      rcases drives_bind hnext with ⟨t₃, t₄, results, rfl, hrest, hlast⟩ | ⟨error, hrest, -⟩
      · obtain rfl : t₄ = [] := eq_nil_of_answered hlast.1
        rw [List.append_nil] at hpath₂ ⊢
        exact ih hpath₂ hrest
      · exact ih hpath₂ hrest
    · exact guarded_setLevel hpath hfirst

/-- Every write of `set_retention` is guarded. -/
theorem guarded_setRetention {changes : List LevelChange}
    (R : Execution snapOps.env (setRetention changes)) : snapOps.Guarded R := by
  rcases drives_bind R.drives with ⟨t₁, t₂, results, heq, hfirst, hlast⟩ | ⟨error, hfirst, -⟩
  · obtain rfl : t₂ = [] := eq_nil_of_answered hlast.1
    rw [List.append_nil] at heq
    exact guarded_setLevels R.path (heq ▸ hfirst)
  · exact guarded_setLevels R.path hfirst

/-! ## `write_config` -/

/-- The requests of the same-host guard are about no file. -/
theorem quiet_poolGuard {host : Host} {path : Str} {values : Replication.Values} {source : Str} :
    (Replication.poolGuard host path values source).Uses
      (fun q => replOps.reads q = none ∧ replOps.writes q = none) := by
  have hlist : ∀ tag, (Replication.listTaggedDatasets tag).Uses
      (fun q => replOps.reads q = none ∧ replOps.writes q = none) := by
    intro tag
    unfold Replication.listTaggedDatasets
    split
    · trivial
    · refine ⟨⟨rfl, rfl⟩, fun a => ?_⟩
      show Prog.Uses _ (if _ then _ else _)
      split <;> trivial
  unfold Replication.poolGuard
  dsimp only
  split
  · refine Prog.Uses.bind (hlist _) (fun listed => ?_)
    split <;> trivial
  · trivial

theorem guarded_replaceConfig {w w' : Files Str Str}
    {t : Trail Replication.ReplCmd Answer Empty (Files Str Str)}
    {prev : Option (Replication.ReplCmd × Answer)} {path : Str} {values : Replication.Values}
    {o : Except Exn Replication.WriteResult} (hpath : replOps.env.Path w t w')
    (h : Drives (Replication.replaceConfig path values) t o) :
    replOps.GuardedFrom prev w t ↔ replOps.AllDelivered w t := by
  unfold Replication.replaceConfig Replication.run at h
  simp only [Prog.issue_bind] at h
  obtain ⟨a, u, t, rfl, hnext⟩ := drives_ask h
  obtain ⟨b, v, t, rfl, hlast⟩ := drives_ask hnext
  obtain rfl : t = [] := eq_nil_of_answered hlast.1
  rw [FileOps.guarded_rewrite rfl rfl rfl hpath.1 (by simp),
    FileOps.allDelivered_rewrite rfl (by simp)]

/-- `write_config` is guarded if and only if its read delivered. -/
theorem guarded_writeConfig {host : Host} {values : Replication.Values} {source : Str}
    (R : Execution replOps.env (Replication.writeConfig host values source)) :
    replOps.Guarded R ↔ replOps.AllDelivered R.before R.trail := by
  obtain ⟨before, trail, after, outcome, hpath, hdrives⟩ := R
  show replOps.GuardedFrom none before trail ↔ replOps.AllDelivered before trail
  have hquiet : ∀ {t : Trail Replication.ReplCmd Answer Empty (Files Str Str)}
      {o : Except Exn (Option Replication.WriteResult)},
      Drives (Replication.poolGuard host
        (Replication.configPathFor (Replication.sourceOr source values)) values
        (Replication.sourceOr source values)) t o →
      ∀ q a, (q, a) ∈ answered t → replOps.reads q = none ∧ replOps.writes q = none :=
    fun h q a hmem => h.uses quiet_poolGuard hmem
  rcases drives_bind hdrives with ⟨t₁, t₂, refusal, rfl, hguard, hnext⟩ | ⟨error, hguard, -⟩
  · have hreads : replOps.AllDelivered before (t₁ ++ t₂) ↔
        replOps.AllDelivered (stateAfter before t₁) t₂ := by
      refine eachStep_append.trans (and_iff_right ?_)
      exact FileOps.allDelivered_of_readless (fun q a hmem => (hquiet hguard q a hmem).1)
    obtain ⟨w, hpath₁, hpath₂⟩ := Env.path_append.mp hpath
    rw [hpath₁.end_eq] at hpath₂
    rw [hreads]
    cases refusal with
    | some result =>
      obtain rfl : t₂ = [] := eq_nil_of_answered hnext.1
      refine iff_of_true (FileOps.guarded_append ?_ (fun _ => trivial)) trivial
      exact FileOps.guarded_of_writeless (fun q a hmem => (hquiet hguard q a hmem).2)
    | none =>
      constructor
      · intro h
        obtain ⟨prev, hright⟩ := FileOps.guarded_right h
        exact (guarded_replaceConfig hpath₂ hnext).mp hright
      · intro h
        refine FileOps.guarded_append ?_ (fun prev => (guarded_replaceConfig hpath₂ hnext).mpr h)
        exact FileOps.guarded_of_writeless (fun q a hmem => (hquiet hguard q a hmem).2)
  · exact iff_of_true
      (FileOps.guarded_of_writeless (fun q a hmem => (hquiet hguard q a hmem).2))
      (FileOps.allDelivered_of_readless (fun q a hmem => (hquiet hguard q a hmem).1))

/-! ## `set_arc_limit` -/

/-- After the write no file is read or written. -/
theorem quiet_applyLimits {arcMax : Int} {arcMin : Option Int} :
    (applyLimits arcMax arcMin).Uses (fun q => arcOps.reads q = none ∧ arcOps.writes q = none) := by
  refine ⟨⟨rfl, rfl⟩, fun ri => ?_⟩
  show Prog.Uses _ (if _ then _ else _)
  split
  · refine ⟨⟨rfl, rfl⟩, fun rr => ?_⟩
    show Prog.Uses _ (if _ then _ else _)
    split <;> trivial
  · trivial

theorem quiet_saved {arcMax : Int} {arcMin : Option Int} {b : Answer} :
    (if contains b.stdout "__WROTE__" then applyLimits arcMax arcMin
      else return .failed (("failed to write " : Str) ++ arcConfPath ++ ": " ++
        (strip b.stderr).take 200) : ArcJob ArcResult).Uses
      (fun q => arcOps.reads q = none ∧ arcOps.writes q = none) := by
  split
  · exact quiet_applyLimits
  · trivial

/-- The limit is above the RAM that the probe printed. -/
def RefusedByRam (arcMax arcMin : Json) (answers : History ArcCmd Answer) : Prop :=
  ∃ max min a, checkLimits arcMax arcMin = .ok (max, min) ∧ (.probe, a) ∈ answers ∧
    exceedsRam (parseArcProbe a.stdout) max = true

/-- `set_arc_limit` is guarded if and only if its probe delivered the file, or
refused the limit. -/
theorem guarded_setArcLimit {arcMax arcMin : Json}
    (R : Execution arcOps.env (setArcLimit arcMax arcMin)) :
    arcOps.Guarded R ↔ arcOps.AllDelivered R.before R.trail ∨
      RefusedByRam arcMax arcMin (answered R.trail) := by
  obtain ⟨before, trail, after, outcome, hpath, hdrives⟩ := R
  show arcOps.GuardedFrom none before trail ↔ arcOps.AllDelivered before trail ∨
    RefusedByRam arcMax arcMin (answered trail)
  unfold setArcLimit at hdrives
  split at hdrives
  · obtain rfl : trail = [] := eq_nil_of_answered hdrives.1
    exact iff_of_true trivial (.inl trivial)
  · rename_i max min hcheck
    simp only [Prog.issue_bind] at hdrives
    obtain ⟨a, u, t, rfl, hnext⟩ := drives_ask hdrives
    split at hnext
    · rename_i hram
      obtain rfl : t = [] := eq_nil_of_answered hnext.1
      refine iff_of_true ⟨FileOps.covered_of_writes_none rfl, trivial⟩ (.inr ?_)
      exact ⟨max, min, a, hcheck, List.mem_cons_self, hram⟩
    · rename_i hram
      simp only [saveLimits, Prog.issue_bind] at hnext
      obtain ⟨b, v, t, rfl, hrest⟩ := drives_ask hnext
      have hquiet : ∀ q a, (q, a) ∈ answered t →
          arcOps.reads q = none ∧ arcOps.writes q = none :=
        fun q a' hmem => hrest.uses quiet_saved hmem
      have hallowed : ∀ text, ¬ RefusedByRam arcMax arcMin
          ((.probe, a) :: (.writeConf text, b) :: answered t) := by
        rintro text ⟨max', min', a', hcheck', hmem, hram'⟩
        obtain ⟨rfl, rfl⟩ := Prod.mk.inj (Except.ok.inj (hcheck.symm.trans hcheck'))
        rcases List.mem_cons.mp hmem with hprobe | hmem
        · obtain rfl : a' = a := (Prod.mk.inj hprobe).2
          exact hram hram'
        · rcases List.mem_cons.mp hmem with hwrite | hmem
          · cases hwrite
          · exact absurd (hquiet _ _ hmem).1 (by simp [arcOps])
      rw [FileOps.guarded_rewrite rfl rfl rfl hpath.1 (fun q a hmem => (hquiet q a hmem).2),
        FileOps.allDelivered_rewrite rfl (fun q a hmem => (hquiet q a hmem).1)]
      exact (or_iff_left (hallowed _)).symm

/-! ## All three -/

/-- In every run of `set_retention` each write is guarded.  A run of
`write_config` is guarded if and only if its read delivered, and one of
`set_arc_limit` if and only if its probe delivered or refused the limit. -/
theorem rewrites_guarded_iff (changes : List LevelChange) (host : Host)
    (values : Replication.Values) (source : Str) (arcMax arcMin : Json) :
    (∀ R : Execution snapOps.env (setRetention changes), snapOps.Guarded R) ∧
    (∀ R : Execution replOps.env (Replication.writeConfig host values source),
      replOps.Guarded R ↔ replOps.AllDelivered R.before R.trail) ∧
    (∀ R : Execution arcOps.env (setArcLimit arcMax arcMin),
      arcOps.Guarded R ↔ arcOps.AllDelivered R.before R.trail ∨
        RefusedByRam arcMax arcMin (answered R.trail)) :=
  ⟨fun R => guarded_setRetention R, fun R => guarded_writeConfig R,
    fun R => guarded_setArcLimit R⟩

/-- The host has a `zfs.conf` with another option and a comment. -/
def tunedHost : Files Str Str :=
  fun path => if path = arcConfPath then some "# tuned\noptions zfs zfs_txg_timeout=10\n" else none

/-- The host after the file was written with an empty text. -/
def emptiedHost : Files Str Str := fun path => if path = arcConfPath then some [] else none

/-- The answer of a command that timed out. -/
def timedOut : Answer := ⟨false, [], "timed out"⟩

/-- A reset of the limit whose probe times out writes an empty file. -/
def resetUnread : Execution arcOps.env (setArcLimit (.int 0) .null) where
  before := tunedHost
  trail :=
    [(.request .probe timedOut, tunedHost),
      (.request (.writeConf []) ⟨true, "__WROTE__\n", []⟩, emptiedHost),
      (.request .updateInitramfs ⟨true, "__EXIT=0\n", []⟩, emptiedHost)]
  after := emptiedHost
  outcome := .ok
    { success := true, persistentWritten := true, initramfsUpdated := true,
      rebootRecommended := true, arcMax := some 0, confPath := some arcConfPath }
  path := by
    refine ⟨⟨fun p hp => .inl (.inl rfl), fun p hp => rfl⟩, ⟨fun p hp => ?_, fun p hp => ?_⟩,
      ⟨fun p hp => ?_, fun p hp => rfl⟩, rfl⟩
    · cases hp
    · have hne : p ≠ arcConfPath := fun heq => hp (congrArg some heq.symm)
      rw [emptiedHost, tunedHost, if_neg hne, if_neg hne]
    · cases hp
  drives := by
    have hrun : (setArcLimit (.int 0) .null).transcript [timedOut, ⟨true, "__WROTE__\n", []⟩,
        ⟨true, "__EXIT=0\n", []⟩] = some ([(.probe, timedOut),
          (.writeConf [], ⟨true, "__WROTE__\n", []⟩), (.updateInitramfs, ⟨true, "__EXIT=0\n", []⟩)],
        .ok { success := true, persistentWritten := true, initramfsUpdated := true
              rebootRecommended := true, arcMax := some 0, confPath := some arcConfPath }) := by
      decide
    exact Prog.run_of_transcript hrun

theorem rewrite_unread : ¬ ∀ (arcMax arcMin : Json)
    (R : Execution arcOps.env (setArcLimit arcMax arcMin)), arcOps.Guarded R := by
  intro h
  have hwrite : arcOps.Covered (some (.probe, timedOut)) tunedHost (.writeConf []) :=
    (h _ _ resetUnread).2.1
  obtain ⟨r, a, hprev, -, front, -, hstdout⟩ := hwrite arcConfPath _ rfl rfl
  obtain ⟨rfl, rfl⟩ := Prod.mk.inj (Option.some.inj hprev)
  have hmarker : '_' ∈ timedOut.stdout := by
    rw [hstdout]
    simp
  simp [timedOut] at hmarker

end PveZfsTool
