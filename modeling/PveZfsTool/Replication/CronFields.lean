import PveZfsTool.Lib.Numbers
import PveZfsTool.Lib.Periodic
import PveZfsTool.Lib.Strip
import PveZfsTool.Replication.Health
import Mathlib.Data.List.Nodup

/-!
# The interval of a schedule

The minute and the hour field of a cron expression are comma lists of `*`,
`*/N`, `A-B`, `A-B/N` and numbers.  Each part names values of its field, and
the schedule fires every day at each minute of the one in each hour of the
other.  `cron_interval_seconds` takes the least distance of two firings for the
interval that a pair is expected to be synced in.

* `expandField_text`: the values that `_expand_field` lists are those that the
  parts name.
* `cronIntervalSeconds_eq`: the interval is the least gap of the times of day.
* `intervalRight_iff`: it is the least distance of two firings, unless `int`
  refuses a number for its length.
-/

namespace PveZfsTool.Replication

open Text Periodic

/-! ## Fields -/

/-- A number in a field. -/
structure CronNumber where
  digits : Str
  isDigits : IsDigits digits

namespace CronNumber

def value (n : CronNumber) : Int := (Nat.ofDigitChars 10 n.digits 0 : Nat)

/-- `int` refuses longer ones. -/
def IsShort (n : CronNumber) : Prop := n.digits.length ≤ 4300

instance : DecidablePred IsShort := fun n => inferInstanceAs (Decidable (n.digits.length ≤ 4300))

theorem value_nonneg (n : CronNumber) : 0 ≤ n.value := Int.natCast_nonneg _

theorem toInt?_digits (n : CronNumber) :
    toInt? n.digits = if n.IsShort then some n.value else none := by
  rw [Text.toInt?_digits n.isDigits]
  by_cases h : n.IsShort
  · rw [if_pos h, if_neg (Nat.not_lt.mpr h)]
    rfl
  · rw [if_neg h, if_pos (Nat.not_le.mp h)]

theorem not_mem_digits (n : CronNumber) {c : Char} (hc : isAsciiDigit c = false) : c ∉ n.digits := by
  intro hmem
  rw [n.isDigits.isDigit c hmem] at hc
  cases hc

end CronNumber

/-- `/N` behind a part.  `/0` counts as `/1`. -/
structure CronStep where
  every : Option CronNumber

namespace CronStep

def text (s : CronStep) : Str :=
  match s.every with
  | none => []
  | some n => '/' :: n.digits

def value (s : CronStep) : Int :=
  match s.every with
  | none => 1
  | some n => max n.value 1

theorem value_pos (s : CronStep) : 0 < s.value := by
  unfold value
  split
  · decide
  · exact lt_of_lt_of_le Int.one_pos (le_max_right _ _)

end CronStep

/-- A part of a field. -/
inductive CronPart where
  | star (step : CronStep)
  | number (n : CronNumber)
  | range (first last : CronNumber) (step : CronStep)

namespace CronPart

def text : CronPart → Str
  | .star step => '*' :: step.text
  | .number n => n.digits
  | .range first last step => first.digits ++ '-' :: last.digits ++ step.text

def numbers : CronPart → List CronNumber
  | .star step => step.every.toList
  | .number n => [n]
  | .range first last step => first :: last :: step.every.toList

/-- The part names the value of a field from `lo` to `hi`. -/
def Names (lo hi : Int) : CronPart → Int → Prop
  | .star step, v => (lo ≤ v ∧ v ≤ hi) ∧ step.value ∣ v - lo
  | .number n, v => (lo ≤ v ∧ v ≤ hi) ∧ v = n.value
  | .range first last step, v =>
      (lo ≤ v ∧ v ≤ hi) ∧ first.value ≤ v ∧ v ≤ last.value ∧ step.value ∣ v - first.value

end CronPart

/-- A comma list of parts. -/
structure CronField where
  parts : List CronPart
  nonempty : parts ≠ []

namespace CronField

def text (f : CronField) : Str := join "," (f.parts.map CronPart.text)

def numbers (f : CronField) : List CronNumber := f.parts.flatMap CronPart.numbers

def Names (lo hi : Int) (f : CronField) (v : Int) : Prop := ∃ p ∈ f.parts, p.Names lo hi v

end CronField

/-- An expression of five fields, whose minute and hour fields have a value. -/
structure CronExpr where
  text : Str
  minute : CronField
  hour : CronField
  dayOfMonth : Str
  month : Str
  dayOfWeek : Str
  fields : splitWords text = [minute.text, hour.text, dayOfMonth, month, dayOfWeek]
  hasMinute : ∃ m, minute.Names 0 59 m
  hasHour : ∃ h, hour.Names 0 23 h

namespace CronExpr

def numbers (e : CronExpr) : List CronNumber := e.minute.numbers ++ e.hour.numbers

/-- A time of day, in seconds. -/
def IsTime (e : CronExpr) (t : Int) : Prop :=
  ∃ h m, e.hour.Names 0 23 h ∧ e.minute.Names 0 59 m ∧ t = h * 3600 + m * 60

/-- The schedule fires on every day, at each of its times. -/
def Fires (e : CronExpr) (t : Int) : Prop := ∃ day : Int, e.IsTime (t - day * 86400)

/-- `cron_interval_seconds` is the least distance of two firings. -/
def IntervalRight (e : CronExpr) : Prop :=
  ∃ i, cronIntervalSeconds e.text = some i ∧ IsLeast (distances e.Fires) i ∧ 60 ≤ i ∧ i ≤ 86400

end CronExpr

/-! ## One part -/

section Part

variable {start stop lo hi v : Int} {n : CronNumber} {step : CronStep} {p : CronPart}

theorem mem_cronRange {k : Nat} (hk : 0 < k) : v ∈ cronRange start stop k lo hi ↔
    (lo ≤ v ∧ v ≤ hi) ∧ start ≤ v ∧ v ≤ stop ∧ (k : Int) ∣ v - start := by
  have hk' : (0 : Int) < k := by exact_mod_cast hk
  simp only [cronRange, List.bind_eq_flatMap, List.pure_def, List.mem_filter, List.mem_map,
    List.mem_flatMap, List.mem_singleton, List.mem_range, decide_eq_true_eq]
  rw [and_comm]
  refine and_congr_right fun _ => ?_
  constructor
  · intro ⟨_, ⟨i, hi, rfl⟩, heq⟩
    split at hi
    · next hle =>
      have hmul : (i : Int) * k ≤ stop - start := by
        have hi' : i * k ≤ (stop - start).toNat :=
          (Nat.le_div_iff_mul_le hk).mp (Nat.lt_succ_iff.mp hi)
        have hcast : ((i * k : Nat) : Int) ≤ ((stop - start).toNat : Nat) := by exact_mod_cast hi'
        rw [Int.toNat_of_nonneg (by omega)] at hcast
        exact_mod_cast hcast
      have hnonneg : 0 ≤ (i : Int) * k := Int.mul_nonneg (Int.natCast_nonneg i) hk'.le
      exact ⟨by omega, by omega, ⟨i, by rw [← heq, Int.mul_comm]; omega⟩⟩
    · omega
  · intro ⟨hstart, hstop, ⟨i, hi⟩⟩
    have hnonneg : 0 ≤ i := by
      by_contra hneg
      have := Int.mul_neg_of_pos_of_neg hk' (Int.not_le.mp hneg)
      omega
    refine ⟨i.toNat, ⟨i.toNat, ?_, rfl⟩, ?_⟩
    · rw [if_pos (hstart.trans hstop), Nat.lt_succ_iff, Nat.le_div_iff_mul_le hk]
      have hcast : ((i.toNat * k : Nat) : Int) ≤ ((stop - start).toNat : Nat) := by
        rw [Nat.cast_mul, Int.toNat_of_nonneg hnonneg, Int.toNat_of_nonneg (by omega),
          Int.mul_comm]
        omega
      exact_mod_cast hcast
    · rw [Int.toNat_of_nonneg hnonneg, Int.mul_comm]
      omega

/-- The step of a part, as the code reads it. -/
def readStep (part : Str) : Option Int :=
  if '/' ∈ part then (toInt? (afterFirst '/' part)).map (fun n => max n 1) else some 1

/-- What stands before the step, as the code reads it. -/
def readBase (base : Str) (lo hi step : Int) : Option (List Int) :=
  if base = "*" then some (cronRange lo hi step.toNat lo hi)
  else if '-' ∈ base then do
    let a ← toInt? (beforeFirst '-' base)
    let b ← toInt? (afterFirst '-' base)
    return cronRange a b step.toNat lo hi
  else do
    let v ← toInt? base
    return cronRange v v step.toNat lo hi

theorem expandPart_eq {part : Str} :
    expandPart part lo hi = (readStep part).bind (readBase (beforeFirst '/' part) lo hi) := by
  unfold expandPart readStep
  split <;> rfl

theorem beforeFirst_self {sep : Char} {s : Str} (h : sep ∉ s) : beforeFirst sep s = s := by
  unfold beforeFirst
  rw [List.takeWhile_eq_self_iff]
  exact ne_sep_of_not_mem h

theorem beforeFirst_step {base : Str} (hbase : '/' ∉ base) :
    beforeFirst '/' (base ++ step.text) = base := by
  unfold CronStep.text
  split
  · rw [List.append_nil]
    exact beforeFirst_self hbase
  · exact beforeFirst_append hbase

theorem readStep_text {base : Str} (hbase : '/' ∉ base) : readStep (base ++ step.text) =
    if ∀ n ∈ step.every, n.IsShort then some step.value else none := by
  unfold readStep CronStep.text CronStep.value
  cases step.every with
  | none =>
    simp only [List.append_nil]
    rw [if_neg hbase, if_pos (fun n hn => by cases hn)]
  | some n =>
    simp only [Option.mem_some_iff, forall_eq']
    rw [if_pos (List.mem_append_right _ List.mem_cons_self), afterFirst_append hbase,
      n.toInt?_digits]
    split <;> rfl

/-- The values that the code lists for a part. -/
def CronPart.values (lo hi : Int) : CronPart → List Int
  | .star step => cronRange lo hi step.value.toNat lo hi
  | .number n => cronRange n.value n.value 1 lo hi
  | .range first last step => cronRange first.value last.value step.value.toNat lo hi

theorem mem_values : v ∈ p.values lo hi ↔ p.Names lo hi v := by
  have hstep : ∀ s : CronStep, 0 < s.value.toNat ∧ ((s.value.toNat : Nat) : Int) = s.value := by
    intro s
    have hpos := s.value_pos
    omega
  cases p with
  | star s =>
    obtain ⟨hpos, hcast⟩ := hstep s
    rw [CronPart.values, mem_cronRange hpos, hcast, CronPart.Names]
    exact ⟨fun ⟨hin, _, _, hdvd⟩ => ⟨hin, hdvd⟩, fun ⟨hin, hdvd⟩ => ⟨hin, hin.1, hin.2, hdvd⟩⟩
  | number n =>
    rw [CronPart.values, mem_cronRange Nat.one_pos, CronPart.Names]
    constructor
    · intro ⟨hin, hlow, hhigh, _⟩
      exact ⟨hin, le_antisymm hhigh hlow⟩
    · intro ⟨hin, heq⟩
      exact ⟨hin, heq.ge, heq.le, by rw [Nat.cast_one]; exact one_dvd _⟩
  | range first last s =>
    obtain ⟨hpos, hcast⟩ := hstep s
    rw [CronPart.values, mem_cronRange hpos, hcast, CronPart.Names]

theorem expandPart_text : expandPart p.text lo hi =
    if ∀ n ∈ p.numbers, n.IsShort then some (p.values lo hi) else none := by
  cases p with
  | star s =>
    have hbase : '/' ∉ ("*" : Str) := by decide
    rw [expandPart_eq, show (CronPart.star s).text = ("*" : Str) ++ s.text from rfl,
      beforeFirst_step hbase, readStep_text hbase]
    have hnumbers : (∀ n ∈ (CronPart.star s).numbers, n.IsShort) ↔ ∀ n ∈ s.every, n.IsShort := by
      simp [CronPart.numbers]
    by_cases hs : ∀ n ∈ s.every, n.IsShort
    · rw [if_pos hs, if_pos (hnumbers.mpr hs)]
      rfl
    · rw [if_neg hs, if_neg (fun h => hs (hnumbers.mp h))]
      rfl
  | number n =>
    have hslash : '/' ∉ n.digits := n.not_mem_digits (by decide)
    have hdash : '-' ∉ n.digits := n.not_mem_digits (by decide)
    have hstar : n.digits ≠ "*" := by
      intro heq
      exact n.not_mem_digits (by decide : isAsciiDigit '*' = false) (by rw [heq]; decide)
    rw [expandPart_eq, CronPart.text, beforeFirst_self hslash, readStep, if_neg hslash,
      Option.bind_some, readBase, if_neg hstar, if_neg hdash, n.toInt?_digits]
    simp only [CronPart.numbers, CronPart.values, List.forall_mem_singleton]
    split <;> rfl
  | range first last s =>
    have hdash : '-' ∉ first.digits := first.not_mem_digits (by decide)
    have hmem : '-' ∈ first.digits ++ '-' :: last.digits :=
      List.mem_append_right _ List.mem_cons_self
    have hslash : '/' ∉ first.digits ++ '-' :: last.digits := by
      intro h
      rcases List.mem_append.mp h with h | h
      · exact first.not_mem_digits (by decide) h
      · rcases List.mem_cons.mp h with h | h
        · cases h
        · exact last.not_mem_digits (by decide) h
    have hstar : first.digits ++ '-' :: last.digits ≠ "*" := by
      intro heq
      rw [heq] at hmem
      revert hmem
      decide
    rw [expandPart_eq, CronPart.text, beforeFirst_step hslash, readStep_text hslash]
    have hbase : readBase (first.digits ++ '-' :: last.digits) lo hi s.value =
        if first.IsShort ∧ last.IsShort then some (cronRange first.value last.value s.value.toNat lo hi)
        else none := by
      rw [readBase, if_neg hstar, if_pos hmem, beforeFirst_append hdash, afterFirst_append hdash,
        first.toInt?_digits, last.toInt?_digits]
      by_cases hfirst : first.IsShort
      · by_cases hlast : last.IsShort
        · rw [if_pos hfirst, if_pos hlast, if_pos ⟨hfirst, hlast⟩]
          rfl
        · have hneither : ¬(first.IsShort ∧ last.IsShort) := fun h => hlast h.2
          rw [if_pos hfirst, if_neg hlast, if_neg hneither]
          rfl
      · have hneither : ¬(first.IsShort ∧ last.IsShort) := fun h => hfirst h.1
        rw [if_neg hfirst, if_neg hneither]
        rfl
    have hnumbers : (∀ n ∈ (CronPart.range first last s).numbers, n.IsShort) ↔
        (first.IsShort ∧ last.IsShort) ∧ ∀ n ∈ s.every, n.IsShort := by
      simp [CronPart.numbers, and_assoc]
    by_cases hs : ∀ n ∈ s.every, n.IsShort
    · rw [if_pos hs, Option.bind_some, hbase]
      by_cases hshort : first.IsShort ∧ last.IsShort
      · rw [if_pos hshort, if_pos (hnumbers.mpr ⟨hshort, hs⟩)]
        rfl
      · rw [if_neg hshort, if_neg (fun h => hshort (hnumbers.mp h).1)]
    · rw [if_neg hs, if_neg (fun h => hs (hnumbers.mp h).2)]
      rfl

theorem comma_not_mem_step : ',' ∉ step.text := by
  unfold CronStep.text
  split
  · exact List.not_mem_nil
  · next n _ =>
    intro h
    rcases List.mem_cons.mp h with h | h
    · cases h
    · exact n.not_mem_digits (by decide) h

theorem comma_not_mem_text : ',' ∉ p.text := by
  have hdigits : ∀ n : CronNumber, ',' ∉ n.digits := fun n => n.not_mem_digits (by decide)
  cases p with
  | star s =>
    intro h
    rcases List.mem_cons.mp h with h | h
    · cases h
    · exact comma_not_mem_step h
  | number n => exact hdigits n
  | range first last s =>
    intro h
    rcases List.mem_append.mp h with h | h
    · rcases List.mem_append.mp h with h | h
      · exact hdigits first h
      · rcases List.mem_cons.mp h with h | h
        · cases h
        · exact hdigits last h
    · exact comma_not_mem_step h

theorem mapM_expandPart {parts : List CronPart} :
    (parts.map CronPart.text).mapM (fun part => expandPart part lo hi) =
      if ∀ p ∈ parts, ∀ n ∈ p.numbers, n.IsShort then some (parts.map (CronPart.values lo hi))
      else none := by
  induction parts with
  | nil => rfl
  | cons p parts ih =>
    rw [List.map_cons, List.mapM_cons, ih, expandPart_text]
    by_cases hp : ∀ n ∈ p.numbers, n.IsShort
    · by_cases hparts : ∀ p ∈ parts, ∀ n ∈ p.numbers, n.IsShort
      · rw [if_pos hp, if_pos hparts, if_pos (List.forall_mem_cons.mpr ⟨hp, hparts⟩)]
        rfl
      · have hall : ¬ ∀ q ∈ p :: parts, ∀ n ∈ q.numbers, n.IsShort :=
          fun h => hparts (List.forall_mem_cons.mp h).2
        rw [if_pos hp, if_neg hparts, if_neg hall]
        rfl
    · have hall : ¬ ∀ q ∈ p :: parts, ∀ n ∈ q.numbers, n.IsShort :=
        fun h => hp (List.forall_mem_cons.mp h).1
      rw [if_neg hp, if_neg hall]
      rfl

end Part

/-! ## One field -/

section Field

variable {lo hi v : Int} {f : CronField}

/-- Sorting a list without duplicates makes it strictly increasing. -/
theorem pairwise_lt_mergeSort {l : List Int} (h : l.Nodup) :
    (l.mergeSort (fun a b => a ≤ b)).Pairwise (· < ·) := by
  have hle : (l.mergeSort (fun a b => a ≤ b)).Pairwise (fun a b => decide (a ≤ b) = true) :=
    List.pairwise_mergeSort (by simpa using fun a b c => le_trans) (by simpa using le_total) l
  have hne : (l.mergeSort (fun a b => a ≤ b)).Nodup := (List.mergeSort_perm l _).nodup_iff.mpr h
  exact (hle.and hne).imp fun hab => lt_of_le_of_ne (by simpa using hab.1) hab.2

/-- The values that the code lists for a field. -/
def CronField.values (f : CronField) (lo hi : Int) : List Int :=
  ((f.parts.map (CronPart.values lo hi)).flatten.dedup).mergeSort (fun a b => a ≤ b)

theorem expandField_text : expandField f.text lo hi =
    if ∀ n ∈ f.numbers, n.IsShort then some (f.values lo hi) else none := by
  have hsplit : splitOn ',' f.text = f.parts.map CronPart.text := by
    refine splitOn_join ?_ (by simpa using f.nonempty)
    intro s hs
    obtain ⟨p, -, rfl⟩ := List.mem_map.mp hs
    exact comma_not_mem_text
  have hnumbers : (∀ p ∈ f.parts, ∀ n ∈ p.numbers, n.IsShort) ↔ ∀ n ∈ f.numbers, n.IsShort := by
    simp only [CronField.numbers, List.mem_flatMap]
    exact ⟨fun h n ⟨p, hp, hn⟩ => h p hp n hn, fun h p hp n hn => h n ⟨p, hp, hn⟩⟩
  rw [expandField, hsplit, mapM_expandPart]
  by_cases hshort : ∀ n ∈ f.numbers, n.IsShort
  · rw [if_pos hshort, if_pos (hnumbers.mpr hshort)]
    rfl
  · rw [if_neg hshort, if_neg (fun h => hshort (hnumbers.mp h))]
    rfl

theorem mem_fieldValues : v ∈ f.values lo hi ↔ f.Names lo hi v := by
  simp only [CronField.values, List.mem_mergeSort, List.mem_dedup, List.mem_flatten, List.mem_map,
    CronField.Names]
  constructor
  · intro ⟨_, ⟨p, hp, rfl⟩, hv⟩
    exact ⟨p, hp, mem_values.mp hv⟩
  · intro ⟨p, hp, hv⟩
    exact ⟨_, ⟨p, hp, rfl⟩, mem_values.mpr hv⟩

theorem fieldValues_sorted : (f.values lo hi).Pairwise (· < ·) :=
  pairwise_lt_mergeSort (List.nodup_dedup _)

theorem bounds_of_names (h : f.Names lo hi v) : lo ≤ v ∧ v ≤ hi := by
  obtain ⟨p, -, hp⟩ := h
  cases p with
  | star s => exact hp.1
  | number n => exact hp.1
  | range first last s => exact hp.1

end Field

/-! ## The expression -/

namespace CronExpr

variable {e : CronExpr} {t : Int}

/-- The times of day that the code lists. -/
def times (e : CronExpr) : List Int :=
  ((e.hour.values 0 23).flatMap (fun h => (e.minute.values 0 59).map (fun m => h * 3600 + m * 60))).mergeSort
    (fun a b => a ≤ b)

theorem mem_times : t ∈ e.times ↔ e.IsTime t := by
  simp only [times, List.mem_mergeSort, List.mem_flatMap, List.mem_map, mem_fieldValues, IsTime]
  constructor
  · intro ⟨h, hh, m, hm, heq⟩
    exact ⟨h, m, hh, hm, heq.symm⟩
  · intro ⟨h, m, hh, hm, heq⟩
    exact ⟨h, hh, m, hm, heq.symm⟩

theorem times_bounds (h : t ∈ e.times) : 0 ≤ t ∧ t < 86400 := by
  obtain ⟨hour, minute, hhour, hminute, rfl⟩ := mem_times.mp h
  have := bounds_of_names hhour
  have := bounds_of_names hminute
  omega

/-- The minutes stay below the hour, so no time comes twice. -/
theorem times_sorted : e.times.Pairwise (· < ·) := by
  refine pairwise_lt_mergeSort (List.nodup_flatMap.mpr ⟨fun h _ => ?_, ?_⟩)
  · have hnodup : (e.minute.values 0 59).Nodup := fieldValues_sorted.imp fun hlt => hlt.ne
    refine hnodup.map fun m m' heq => ?_
    have heq' : h * 3600 + m * 60 = h * 3600 + m' * 60 := heq
    omega
  · refine fieldValues_sorted.imp fun {h h'} hlt => ?_
    intro t ht ht'
    obtain ⟨m, hm, rfl⟩ := List.mem_map.mp ht
    obtain ⟨m', hm', heq⟩ := List.mem_map.mp ht'
    have := bounds_of_names (mem_fieldValues.mp hm)
    have := bounds_of_names (mem_fieldValues.mp hm')
    omega

theorem times_ne_nil : e.times ≠ [] := by
  obtain ⟨m, hm⟩ := e.hasMinute
  obtain ⟨h, hh⟩ := e.hasHour
  exact List.ne_nil_of_mem (mem_times.mpr ⟨h, m, hh, hm, rfl⟩)

theorem recurs_times : Recurs 86400 e.times t ↔ e.Fires t :=
  exists_congr fun _ => mem_times

/-- The numbers of the two fields that `int` reads. -/
def IsShort (e : CronExpr) : Prop := ∀ n ∈ e.numbers, n.IsShort

instance : DecidablePred IsShort := fun e => inferInstanceAs (Decidable (∀ n ∈ e.numbers, n.IsShort))

theorem isShort_iff : e.IsShort ↔
    (∀ n ∈ e.minute.numbers, n.IsShort) ∧ ∀ n ∈ e.hour.numbers, n.IsShort := by
  simp only [IsShort, numbers, List.mem_append, or_imp, forall_and]

/-- The interval is the least gap of the times of day. -/
theorem cronIntervalSeconds_eq (hshort : e.IsShort) :
    cronIntervalSeconds e.text = (cycle 86400 e.times).min? := by
  obtain ⟨hminute, hhour⟩ := isShort_iff.mp hshort
  rw [cronIntervalSeconds, splitWords_strip, e.fields]
  simp only [expandField_text, if_pos hminute, if_pos hhour]
  rw [← times]
  rcases e.times with _ | ⟨first, _ | ⟨second, rest⟩⟩
  · rfl
  · simp [cycle, differences]
  · rfl

theorem cronIntervalSeconds_long (hlong : ¬ e.IsShort) : cronIntervalSeconds e.text = none := by
  rw [cronIntervalSeconds, splitWords_strip, e.fields]
  simp only [expandField_text]
  by_cases hminute : ∀ n ∈ e.minute.numbers, n.IsShort
  · have hhour : ¬ ∀ n ∈ e.hour.numbers, n.IsShort := fun h => hlong (isShort_iff.mpr ⟨hminute, h⟩)
    rw [if_pos hminute, if_neg hhour]
  · rw [if_neg hminute]

/-- Firings are whole minutes apart. -/
theorem sixty_le_of_distance {d : Int} (h : d ∈ distances e.Fires) : 60 ≤ d := by
  obtain ⟨hpos, s, t, ⟨day, hour, minute, -, -, hs⟩, ⟨day', hour', minute', -, -, ht⟩, hd⟩ := h
  omega

/-- A time comes again on the next day. -/
theorem day_mem_distances : 86400 ∈ distances e.Fires := by
  obtain ⟨t, ht⟩ := List.exists_mem_of_ne_nil _ (e.times_ne_nil)
  have htime := mem_times.mp ht
  refine ⟨by decide, t, t + 86400, ⟨0, by simpa using htime⟩, ⟨1, by simpa using htime⟩, by omega⟩

theorem intervalRight_of_short (hshort : e.IsShort) : e.IntervalRight := by
  obtain ⟨i, hi⟩ : ∃ i, (cycle 86400 e.times).min? = some i := by
    rw [← Option.isSome_iff_exists, List.isSome_min?_iff]
    cases htimes : e.times with
    | nil => exact absurd htimes e.times_ne_nil
    | cons first rest => exact List.cons_ne_nil _ _
  have hleast := isLeast_min? times_sorted (fun x hx => times_bounds hx) hi
  have hfires : Recurs 86400 e.times = e.Fires := funext fun t => propext recurs_times
  rw [hfires] at hleast
  exact ⟨i, by rw [cronIntervalSeconds_eq hshort, hi], hleast, sixty_le_of_distance hleast.1,
    hleast.2 day_mem_distances⟩

theorem isShort_of_intervalRight (h : e.IntervalRight) : e.IsShort := by
  by_contra hlong
  obtain ⟨i, hi, -⟩ := h
  rw [cronIntervalSeconds_long hlong] at hi
  cases hi

/-- The interval is the least distance of two firings, and from a minute to a
day, if and only if no number has more digits than `int` reads. -/
theorem intervalRight_iff (e : CronExpr) : e.IntervalRight ↔ e.IsShort :=
  ⟨isShort_of_intervalRight, intervalRight_of_short⟩

end CronExpr

/-! ## A number that is too long -/

/-- Zero, with more digits than it needs. -/
def paddedZero (n : Nat) : CronNumber where
  digits := List.replicate (n + 1) '0'
  isDigits := ⟨by simp, fun c hc => by rw [List.eq_of_mem_replicate hc]; decide⟩

theorem value_paddedZero {n : Nat} : (paddedZero n).value = 0 := by
  have hvalue : ∀ k, Nat.ofDigitChars 10 (List.replicate k '0') 0 = 0 := by
    intro k
    induction k with
    | zero => rfl
    | succ k ih =>
      rw [List.replicate_succ, Nat.ofDigitChars_cons]
      exact ih
  exact congrArg Nat.cast (hvalue (n + 1))

/-- `0` alone. -/
def zeroField (n : Nat) : CronField := ⟨[.number (paddedZero n)], List.cons_ne_nil _ _⟩

theorem names_zeroField {n : Nat} {hi : Int} (h : 0 ≤ hi) : (zeroField n).Names 0 hi 0 :=
  ⟨_, List.mem_singleton_self _, ⟨le_refl _, h⟩, value_paddedZero.symm⟩

theorem isWordText_zeroField {n : Nat} : IsWordText (zeroField n).text :=
  (paddedZero n).isDigits.isWordText

/-- Midnight, with a minute of 4301 digits. -/
def paddedMidnight : CronExpr where
  text := join " " [(zeroField 4300).text, (zeroField 0).text, "*", "*", "*"]
  minute := zeroField 4300
  hour := zeroField 0
  dayOfMonth := "*"
  month := "*"
  dayOfWeek := "*"
  fields := by
    have hstar : IsWordText ("*" : Str) := ⟨by decide, by decide⟩
    refine splitWords_join ?_
    simp only [List.forall_mem_cons, List.not_mem_nil, false_imp_iff, implies_true, and_true]
    exact ⟨isWordText_zeroField, isWordText_zeroField, hstar, hstar, hstar⟩
  hasMinute := ⟨0, names_zeroField (by decide)⟩
  hasHour := ⟨0, names_zeroField (by decide)⟩

theorem padded_number_refused : ¬ ∀ e : CronExpr, e.IntervalRight := by
  intro hclaim
  have hshort := CronExpr.isShort_of_intervalRight (hclaim paddedMidnight)
  have hlength : (List.replicate 4301 '0').length ≤ 4300 :=
    hshort (paddedZero 4300) List.mem_cons_self
  rw [List.length_replicate] at hlength
  omega

end PveZfsTool.Replication
