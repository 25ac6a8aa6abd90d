import PveZfsTool.Lib.Numbers
import PveZfsTool.Lib.Trimmed
import PveZfsTool.Replication.CronContract
import PveZfsTool.Replication.Health
import Mathlib.Algebra.Group.Nat.Defs

/-!
# The age of a replica

`_check_pair` takes the schedule of a pair from root's crontab and the newest
snapshot below its target from `zfs list`, and judges the pair by the age of
that snapshot.

Where the snapshot is from is not asked: it may be one that was taken on the
target host, or one that was received for another pair with the same target or
one below it.  `status_ok_iff` is the judgement as it is made.
-/

namespace PveZfsTool.Replication

open Dialogue Text

/-! ## `_check_pair` with its reads -/

inductive PairCmd where
  | readCrontab
  | newestSnapshot (target : Str)
  deriving DecidableEq

def PairCmd.text : PairCmd → Str
  | .readCrontab => "crontab -l 2>/dev/null"
  | .newestSnapshot target =>
      "zfs list -H -t snapshot -o name,creation -p -s creation -r " ++ shlexQuote target ++
        " 2>/dev/null | tail -n 1"

/-- A letter, a digit or one of the signs of a dataset path. -/
def isTargetChar (c : Char) : Bool :=
  isAsciiAlnum c || c == '.' || c == '_' || c == ':' || c == '/' || c == '-'

/-- The check of `_newest_replica_snapshot` -/
def isTargetPath (target : Str) : Bool := atDollar (fun s => s != [] && s.all isTargetChar) target

/-- The name and the time in the line that `zfs list` prints.  An empty line has
one field. -/
def snapshotLine (stdout : Str) : Option (Str × Int) :=
  match splitOn '\t' (strip stdout) with
  | name :: creation :: _ => (toInt? creation).map (Prod.mk name)
  | _ => none

/-- `_newest_replica_snapshot` -/
def newestReplicaSnapshot (target : Str) : Prog PairCmd Answer Exn (Option (Str × Int)) := do
  if target = [] ∨ isTargetPath target = false then return none
  else
    let r ← Prog.issue (.newestSnapshot target)
    return if r.success then snapshotLine r.stdout else none

/-- `_check_pair` -/
def checkPairRun (address name : Str) (cfg : PairConfig) (now : Int) :
    Prog PairCmd Answer Exn PairSnapshot := do
  let cron ← Prog.issue .readCrontab
  let schedule := (getCron (strip cfg.source) cron).entry.map InstalledCron.schedule
  let newest ← newestReplicaSnapshot (strip cfg.target)
  return checkPair address name cfg schedule newest now

/-! ## The snapshots of a host -/

/-- A snapshot.  `origin` is the source that it was received from; there is none
for one that was taken on the host. -/
structure TreeSnap where
  dataset : Str
  snapshot : Str
  creation : Nat
  origin : Option Str
  deriving DecidableEq

def TreeSnap.name (s : TreeSnap) : Str := s.dataset ++ '@' :: s.snapshot

/-- The snapshots of a host.  A dataset does not start with whitespace, there is
no tab in a name, and a time has 64 bits. -/
structure SnapTree where
  snaps : List TreeSnap
  named : ∀ s ∈ snaps, s.dataset ≠ [] ∧ (∀ c ∈ s.dataset.head?, isSpace c = false) ∧ '\t' ∉ s.name
  times : ∀ s ∈ snaps, s.creation < 2 ^ 64

namespace SnapTree

/-- The snapshot is one of the dataset or of a dataset below it. -/
def IsBelow (target : Str) (s : TreeSnap) : Prop :=
  s.dataset = target ∨ target ++ ['/'] <+: s.dataset

instance (target : Str) : DecidablePred (IsBelow target) := fun s =>
  inferInstanceAs (Decidable (s.dataset = target ∨ target ++ ['/'] <+: s.dataset))

/-- The snapshots that `zfs list -r` lists for the target. -/
def below (T : SnapTree) (target : Str) : List TreeSnap := T.snaps.filter (IsBelow target)

/-- None of the listed snapshots is newer. -/
def IsNewest (T : SnapTree) (target : Str) (s : TreeSnap) : Prop :=
  s ∈ T.below target ∧ ∀ t ∈ T.below target, t.creation ≤ s.creation

/-- What the host answers.  A listing of nothing, or of a dataset that is not
there, is empty, and `zfs` may fail. -/
def Answers (T : SnapTree) : PairCmd × Answer → Prop
  | (.readCrontab, _) => True
  | (.newestSnapshot target, a) =>
      a.success = true →
        (T.below target = [] ∧ a.stdout = []) ∨
          ∃ s, T.IsNewest target s ∧ a.stdout = s.name ++ '\t' :: (ofNat s.creation ++ ['\n'])

end SnapTree

/-- The age up to which a pair is `ok`: twice the interval of its schedule. -/
def allowedLag (schedule : Option Str) : Int :=
  let interval := (nonzero ((schedule.filter (· ≠ [])).bind cronIntervalSeconds)).getD
    defaultIntervalSeconds
  (if interval ≤ 0 then defaultIntervalSeconds else interval) * 2

/-! ## The judgement -/

section Judgement

variable {T : SnapTree} {target : Str} {s : TreeSnap} {stdout address name : Str} {cfg : PairConfig}
  {now : Int} {schedule : Option Str} {newest : Option (Str × Int)}

theorem length_ofNat_of_lt {n : Nat} (h : n < 2 ^ 64) : (ofNat n).length ≤ 4300 := by
  have hshort : (ofNat n).length ≤ 20 :=
    (Nat.length_toDigits_le_iff (by decide) (by decide)).mpr (h.trans (by decide))
  omega

/-- The line of a snapshot is read back. -/
theorem snapshotLine_printed (hs : s ∈ T.snaps) :
    snapshotLine (s.name ++ '\t' :: (ofNat s.creation ++ ['\n'])) =
      some (s.name, (s.creation : Int)) := by
  obtain ⟨hdataset, hhead, htab⟩ := T.named s hs
  have hdigits : '\t' ∉ ofNat s.creation := fun hmem =>
    absurd (isAsciiDigit_of_mem_ofNat hmem) (by decide)
  have hstrip : strip (s.name ++ '\t' :: (ofNat s.creation ++ ['\n'])) =
      s.name ++ '\t' :: ofNat s.creation := by
    have hparts : s.name ++ '\t' :: (ofNat s.creation ++ ['\n']) =
        (s.name ++ '\t' :: ofNat s.creation) ++ ['\n'] := by
      rw [List.append_assoc, List.cons_append]
    rw [hparts, strip_append_of_ends (by simp), show rstrip ['\n'] = [] by decide, List.append_nil]
    · intro c hc
      rw [TreeSnap.name, List.append_assoc, List.head?_append_of_ne_nil _ hdataset] at hc
      exact hhead c hc
    · intro d hd
      have hne : ofNat s.creation ≠ [] := isWordText_ofNat.nonempty
      rw [List.getLast?_append_of_ne_nil _ (List.cons_ne_nil _ _), List.getLast?_cons_of_ne_nil hne] at hd
      exact isWordText_ofNat.plain d (List.mem_of_getLast? hd)
  rw [snapshotLine, hstrip, splitOn_append, splitOn_of_not_mem htab, splitOn_of_not_mem hdigits]
  show (toInt? (ofNat s.creation)).map (Prod.mk s.name) = _
  rw [toInt?_ofNat (length_ofNat_of_lt (T.times s hs))]
  rfl

theorem classify_ok_iff {lag : Option Int} {interval : Int} : classify lag interval = .ok ↔
    ∃ l, lag = some l ∧
      l ≤ (if interval ≤ 0 then defaultIntervalSeconds else interval) * 2 := by
  cases lag with
  | none => exact iff_of_false (fun h => by cases h) (fun ⟨_, h, _⟩ => by cases h)
  | some l =>
    simp only [classify, Option.some.injEq, exists_eq_left']
    generalize (if interval ≤ 0 then defaultIntervalSeconds else interval) = bound
    constructor
    · intro h
      split_ifs at h with hle
      exact hle
    · intro h
      rw [if_pos h]

theorem nonzero_eq_some {n : Option Int} {t : Int} : nonzero n = some t ↔ n = some t ∧ t ≠ 0 := by
  rw [nonzero, Option.filter_eq_some_iff, decide_eq_true_iff]

/-- The age that is judged, and the interval. -/
theorem checkPair_ok_classify : (checkPair address name cfg schedule newest now).status = .ok ↔
    classify ((nonzero ((if strip cfg.target = [] then none else newest).map Prod.snd)).map
        (fun ts => now - ts))
      ((nonzero ((schedule.filter (· ≠ [])).bind cronIntervalSeconds)).getD
        defaultIntervalSeconds) = .ok := by
  simp only [checkPair]
  generalize nonzero ((if strip cfg.target = [] then none else newest).map Prod.snd) = lastSync
  cases schedule.filter (· ≠ []) with
  | some text => rw [if_neg (Option.some_ne_none text)]
  | none =>
    rw [if_pos rfl]
    cases lastSync with
    | none => exact iff_of_false (fun h => by cases h) (fun h => by cases h)
    | some ts => rfl

theorem checkPair_ok_iff : (checkPair address name cfg schedule newest now).status = .ok ↔
    strip cfg.target ≠ [] ∧ ∃ found, newest = some found ∧ found.2 ≠ 0 ∧
      now - found.2 ≤ allowedLag schedule := by
  rw [checkPair_ok_classify, classify_ok_iff]
  by_cases htarget : strip cfg.target = []
  · rw [if_pos htarget]
    exact iff_of_false (fun ⟨_, h, _⟩ => by cases h) (fun h => h.1 htarget)
  · rw [if_neg htarget, and_iff_right htarget]
    constructor
    · intro ⟨l, hl, hle⟩
      obtain ⟨ts, hts, rfl⟩ := Option.map_eq_some_iff.mp hl
      obtain ⟨hsome, hne⟩ := nonzero_eq_some.mp hts
      obtain ⟨found, hfound, rfl⟩ := Option.map_eq_some_iff.mp hsome
      exact ⟨found, hfound, hne, hle⟩
    · intro ⟨found, hfound, hne, hle⟩
      refine ⟨now - found.2, ?_, hle⟩
      have hsome : nonzero (newest.map Prod.snd) = some found.2 :=
        nonzero_eq_some.mpr ⟨by rw [hfound]; rfl, hne⟩
      rw [hsome]
      rfl

/-- What is read of a listing is the time of a newest snapshot. -/
theorem snapshotLine_listed {a : Answer} (ha : T.Answers (.newestSnapshot target, a))
    (hsuccess : a.success = true) (P : Int → Prop) :
    (∃ found, snapshotLine a.stdout = some found ∧ P found.2) ↔
      ∃ s, T.IsNewest target s ∧ P s.creation := by
  rcases ha hsuccess with ⟨hnone, hstdout⟩ | ⟨s, hs, hstdout⟩
  · rw [hstdout]
    refine iff_of_false (fun ⟨_, h, _⟩ => by cases h) (fun ⟨s, hs, _⟩ => ?_)
    have hmem := hs.1
    rw [hnone] at hmem
    cases hmem
  · rw [hstdout, snapshotLine_printed (List.mem_of_mem_filter hs.1)]
    constructor
    · intro ⟨found, hfound, hP⟩
      obtain rfl := Option.some.inj hfound
      exact ⟨s, hs, hP⟩
    · intro ⟨t, ht, hP⟩
      have htime : t.creation = s.creation :=
        Nat.le_antisymm (hs.2 t ht.1) (ht.2 s hs.1)
      exact ⟨_, rfl, by rw [← htime]; exact hP⟩

/-- The run of `_check_pair` with what it read. -/
theorem run_checkPairRun {log : History PairCmd Answer} {r : PairSnapshot}
    (h : (checkPairRun address name cfg now).Run log (.ok r)) :
    ∃ cron newest, r = checkPair address name cfg
        ((getCron (strip cfg.source) cron).entry.map InstalledCron.schedule) newest now ∧
      ((log = [(.readCrontab, cron)] ∧ newest = none) ∨
        ∃ a, isTargetPath (strip cfg.target) = true ∧ strip cfg.target ≠ [] ∧
          log = [(.readCrontab, cron), (.newestSnapshot (strip cfg.target), a)] ∧
          newest = if a.success then snapshotLine a.stdout else none) := by
  rw [checkPairRun, Prog.issue_bind, Prog.run_ask] at h
  obtain ⟨cron, log, rfl, h⟩ := h
  obtain ⟨first, last, newest, rfl, hnewest, hlast⟩ := Prog.run_bind_ok h
  rw [Prog.pure_eq, Prog.run_ret] at hlast
  obtain ⟨rfl, hr⟩ := hlast
  refine ⟨cron, newest, Except.ok.inj hr, ?_⟩
  rw [newestReplicaSnapshot] at hnewest
  split_ifs at hnewest with hskip
  · rw [Prog.pure_eq, Prog.run_ret] at hnewest
    obtain ⟨rfl, hnone⟩ := hnewest
    exact .inl ⟨rfl, Except.ok.inj hnone⟩
  · rw [Prog.issue_bind, Prog.run_ask] at hnewest
    obtain ⟨a, log, rfl, hnewest⟩ := hnewest
    rw [Prog.pure_eq, Prog.run_ret] at hnewest
    obtain ⟨rfl, hread⟩ := hnewest
    simp only [not_or, Bool.not_eq_false] at hskip
    exact .inr ⟨a, hskip.2, hskip.1, rfl, Except.ok.inj hread⟩

end Judgement

/-! ## What the judgement says -/

/-- One call of `_check_pair` on a host with the snapshots of the tree. -/
structure PairRun where
  tree : SnapTree
  address : Str
  name : Str
  cfg : PairConfig
  now : Int
  log : History PairCmd Answer
  result : PairSnapshot
  run : (checkPairRun address name cfg now).Run log (.ok result)
  answers : ∀ e ∈ log, tree.Answers e

namespace PairRun

variable (R : PairRun)

def target : Str := strip R.cfg.target

/-- The snapshots below the target were listed. -/
def Listed : Prop := ∃ a, (.newestSnapshot R.target, a) ∈ R.log ∧ a.success = true

/-- The snapshot is not older than the pair may be. -/
def IsFresh (s : TreeSnap) : Prop := R.now - s.creation ≤ allowedLag R.result.schedule

/-- The snapshot was received from the source of the pair. -/
def IsOwn (s : TreeSnap) : Prop := s.origin = some (strip R.cfg.source)

/-- The pair is `ok` if the newest snapshot below the target is fresh, whatever
its origin, and then one from the source is fresh unless a foreign one is. -/
theorem status_ok_iff : (R.result.status = .ok ↔
      R.Listed ∧ ∃ s, R.tree.IsNewest R.target s ∧ s.creation ≠ 0 ∧ R.IsFresh s) ∧
    ((∀ s ∈ R.tree.below R.target, ¬ R.IsOwn s → ¬ R.IsFresh s) → R.result.status = .ok →
      ∃ s ∈ R.tree.below R.target, R.IsOwn s ∧ R.IsFresh s) := by
  have hiff : R.result.status = .ok ↔
      R.Listed ∧ ∃ s, R.tree.IsNewest R.target s ∧ s.creation ≠ 0 ∧ R.IsFresh s := by
    obtain ⟨cron, newest, hresult, hread⟩ := run_checkPairRun R.run
    have hschedule : R.result.schedule =
        (getCron (strip R.cfg.source) cron).entry.map InstalledCron.schedule := by rw [hresult]; rfl
    have hstatus : R.result.status = .ok ↔ strip R.cfg.target ≠ [] ∧
        ∃ found, newest = some found ∧ found.2 ≠ 0 ∧
          R.now - found.2 ≤ allowedLag R.result.schedule := by
      rw [hschedule, hresult]
      exact checkPair_ok_iff
    rw [hstatus]
    rcases hread with ⟨hlog, rfl⟩ | ⟨a, -, htarget, hlog, hnewest⟩
    · refine iff_of_false (fun ⟨_, _, h, _⟩ => by cases h) (fun ⟨⟨a, ha, _⟩, _⟩ => ?_)
      rw [hlog, List.mem_singleton] at ha
      cases ha
    · have hlisted : R.Listed ↔ a.success = true := by
        rw [Listed, hlog]
        constructor
        · intro ⟨b, hb, hsuccess⟩
          rcases List.mem_cons.mp hb with hfirst | hlast
          · cases hfirst
          · rwa [(Prod.mk.inj (List.mem_singleton.mp hlast)).2] at hsuccess
        · intro hsuccess
          exact ⟨a, List.mem_cons_of_mem _ (List.mem_singleton_self _), hsuccess⟩
      have hanswer := R.answers (.newestSnapshot R.target, a) (by
        rw [hlog]
        exact List.mem_cons_of_mem _ (List.mem_singleton_self _))
      rw [hlisted, and_iff_right htarget, hnewest]
      by_cases hsuccess : a.success = true
      · rw [if_pos hsuccess, and_iff_right hsuccess]
        have hfound := snapshotLine_listed hanswer hsuccess
          (fun t => t ≠ 0 ∧ R.now - t ≤ allowedLag R.result.schedule)
        simp only [ne_eq, Int.natCast_eq_zero] at hfound
        exact hfound
      · rw [if_neg hsuccess]
        exact iff_of_false (fun ⟨_, h, _⟩ => by cases h) (fun h => hsuccess h.1)
  refine ⟨hiff, fun hforeign hok => ?_⟩
  obtain ⟨-, s, hnewest, -, hfresh⟩ := hiff.mp hok
  refine ⟨s, hnewest.1, ?_, hfresh⟩
  by_contra hown
  exact hforeign s hnewest.1 hown hfresh

end PairRun

/-- The last snapshot from the source is old, and the host has taken one of its
own since. -/
def localTree : SnapTree where
  snaps := [⟨"tank/copy", "sync", 1000, some "root@10.0.0.1"⟩, ⟨"tank/copy", "daily", 1000000, none⟩]
  named := by
    intro s hs
    have hlocal : s.dataset = "tank/copy" ∧ '\t' ∉ s.name := by
      revert s
      decide
    refine ⟨by rw [hlocal.1]; decide, fun c hc => ?_, hlocal.2⟩
    rw [hlocal.1] at hc
    obtain rfl : 't' = c := Option.some.inj hc
    decide
  times := by decide

def localConfig : PairConfig := ⟨"/etc/bashclub/10.0.0.1.conf", "root@10.0.0.1", "tank/copy"⟩

/-- `_check_pair` just after the local snapshot. -/
def localRun : PairRun where
  tree := localTree
  address := "10.0.0.2"
  name := "pve2"
  cfg := localConfig
  now := 1000100
  log := [(.readCrontab, prints []),
    (.newestSnapshot "tank/copy", prints "tank/copy@daily\t1000000\n")]
  result := checkPair "10.0.0.2" "pve2" localConfig none (some ("tank/copy@daily", 1000000)) 1000100
  run := ⟨rfl, rfl, rfl, by decide⟩
  answers := by
    intro e he
    rcases List.mem_cons.mp he with rfl | he
    · trivial
    · obtain rfl := List.mem_singleton.mp he
      exact fun _ => .inr ⟨⟨"tank/copy", "daily", 1000000, none⟩, by unfold SnapTree.IsNewest; decide,
        by decide⟩

/-- The local snapshot hides that the pair has stalled. -/
theorem local_snapshot_masks : ¬ ∀ R : PairRun, R.result.status = .ok →
    ∃ s ∈ R.tree.below R.target, R.IsOwn s ∧ R.IsFresh s := by
  intro hall
  obtain ⟨s, hs, hown, hfresh⟩ := hall localRun (by decide)
  have hstale : ∀ s ∈ localTree.below "tank/copy", s.origin = some "root@10.0.0.1".toList →
      ¬ (1000100 - (s.creation : Int) ≤ allowedLag none) := by decide
  exact hstale s hs hown hfresh

end PveZfsTool.Replication
