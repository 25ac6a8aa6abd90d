import Mathlib.Data.List.Nodup

/-!
# The newest row of each group

A query joins a table with the greatest time of each of its groups, and so
gets the rows that have the greatest time of their group.  The table that the
times are taken from may be a part of the one that is joined.

* `mem_latest` says which rows these are.
* `exists_latest`: no group is lost.
* `nodup_latest_iff`: each group has one row exactly when none has its greatest
  time twice.
-/

namespace LatestRows

variable {α κ : Type} [DecidableEq κ] {key : α → κ} {time : α → Nat} {times rows : List α} {r : α}

/-- `SELECT MAX(time) ... GROUP BY key`, for one group. -/
def maxTime (key : α → κ) (time : α → Nat) (rows : List α) (k : κ) : Option Nat :=
  ((rows.filter (fun r => key r = k)).map time).max?

/-- The rows of a table that join with the greatest times of another. -/
def latest (key : α → κ) (time : α → Nat) (times rows : List α) : List α :=
  rows.filter (fun r => maxTime key time times (key r) = some (time r))

theorem maxTime_eq_some {k : κ} {t : Nat} : maxTime key time rows k = some t ↔
    (∃ r ∈ rows, key r = k ∧ time r = t) ∧ ∀ r ∈ rows, key r = k → time r ≤ t := by
  simp only [maxTime, List.max?_eq_some_iff, List.mem_map, List.mem_filter, decide_eq_true_eq,
    and_assoc, forall_exists_index, and_imp]
  refine and_congr_right fun _ => ?_
  constructor
  · intro h r hr hk
    exact h _ r hr hk rfl
  · intro h _ r hr hk heq
    exact heq ▸ h r hr hk

/-- The rows with the greatest time of their group. -/
theorem mem_latest : r ∈ latest key time times rows ↔
    r ∈ rows ∧ (∃ s ∈ times, key s = key r ∧ time s = time r) ∧
      ∀ s ∈ times, key s = key r → time s ≤ time r := by
  rw [latest, List.mem_filter, decide_eq_true_eq, maxTime_eq_some]

theorem exists_greatest (key : α → κ) (time : α → Nat) (h : r ∈ times) :
    ∃ s ∈ times, key s = key r ∧ ∀ u ∈ times, key u = key r → time u ≤ time s := by
  obtain ⟨t, ht⟩ : ∃ t, maxTime key time times (key r) = some t := by
    rw [← Option.isSome_iff_exists, maxTime, List.isSome_max?_iff]
    exact List.ne_nil_of_mem (List.mem_map_of_mem (List.mem_filter.mpr ⟨h, decide_eq_true rfl⟩))
  obtain ⟨⟨s, hs, hkey, htime⟩, hall⟩ := maxTime_eq_some.mp ht
  exact ⟨s, hs, hkey, fun u hu hu' => htime ▸ hall u hu hu'⟩

/-- A group of the joined table that has a time has a row. -/
theorem exists_latest (key : α → κ) (time : α → Nat) (hsub : ∀ s ∈ times, s ∈ rows) (h : r ∈ times) :
    ∃ s ∈ latest key time times rows, key s = key r := by
  obtain ⟨s, hs, hkey, hall⟩ := exists_greatest key time h
  refine ⟨s, mem_latest.mpr ⟨hsub s hs, ⟨s, hs, rfl, rfl⟩, fun u hu hu' => ?_⟩, hkey⟩
  exact hall u hu (hu'.trans hkey)

theorem time_eq_of_mem_latest {s : α} (hr : r ∈ latest key time times rows)
    (hs : s ∈ latest key time times rows) (hkey : key r = key s) : time r = time s := by
  obtain ⟨-, ⟨u, hu, hukey, hutime⟩, hrall⟩ := mem_latest.mp hr
  obtain ⟨-, ⟨v, hv, hvkey, hvtime⟩, hsall⟩ := mem_latest.mp hs
  have hle := hrall v hv (hvkey.trans hkey.symm)
  have hge := hsall u hu (hukey.trans hkey)
  omega

/-- Each group has one row exactly when none has its greatest time twice. -/
theorem nodup_latest_iff : ((latest key time times rows).map key).Nodup ↔
    rows.Pairwise (fun r s => key r = key s → time r = time s → r ∉ latest key time times rows) := by
  have hmem : ∀ r ∈ rows, r ∈ latest key time times rows ↔
      maxTime key time times (key r) = some (time r) := by
    intro r hr
    rw [latest, List.mem_filter, decide_eq_true_eq]
    exact and_iff_right hr
  rw [List.Nodup, List.pairwise_map, latest, List.pairwise_filter]
  constructor
  · intro h
    refine h.imp_of_mem fun {r s} hr hs hne hkey htime hlatest => ?_
    have hmax := (hmem r hr).mp hlatest
    exact hne (decide_eq_true hmax) (decide_eq_true (by rw [← hkey, ← htime, hmax])) hkey
  · intro h
    refine h.imp_of_mem fun {r s} hr hs hnot hrmax hsmax hkey => ?_
    have hrlatest := (hmem r hr).mpr (of_decide_eq_true hrmax)
    have hslatest := (hmem s hs).mpr (of_decide_eq_true hsmax)
    exact hnot hkey (time_eq_of_mem_latest hrlatest hslatest hkey) hrlatest

/-- Rows that no two have the key and the time of give one row for each
group. -/
theorem nodup_latest (h : (rows.map (fun r => (key r, time r))).Nodup) :
    ((latest key time times rows).map key).Nodup := by
  rw [List.Nodup, List.pairwise_map] at h
  refine nodup_latest_iff.mpr (h.imp fun hne hkey htime _ => hne ?_)
  rw [hkey, htime]

end LatestRows
