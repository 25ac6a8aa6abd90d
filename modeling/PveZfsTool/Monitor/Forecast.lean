import Mathlib.Tactic.Ring
import PveZfsTool.Lib.Dict
import PveZfsTool.Lib.Median
import PveZfsTool.Lib.Newest
import PveZfsTool.Lib.Rounding

/-!
# The capacity forecast

`app/analytics.py` collapses the samples of a pool into hourly medians, takes
the median of the slopes between each two of them, and divides what is left of
the pool by it.  The numbers are exact rationals here.

* `slopes_sublist`: the slopes of some of the points are among the slopes of
  all of them.  With `le_median?` this is what makes the trend robust.
* `increasing_bucketMedians`: the buckets have strictly increasing times.
* `bytesPerDay_eq` and `days_bounds`: the forecast is that of such a series, and
  the number of days is within the clamp.
-/

namespace PveZfsTool

open Median Rounding

/-! ## Constants -/

/-- `FORECAST_WINDOW_DAYS` -/
def forecastWindowDays : Nat := 30

/-- `FORECAST_PRIMARY_DAYS` -/
def forecastPrimaryDays : Nat := 7

/-- `FORECAST_MIN_SAMPLES` -/
def forecastMinSamples : Nat := 8

/-- `FORECAST_MIN_BUCKETS` -/
def forecastMinBuckets : Nat := 6

/-- `FORECAST_BUCKET_SECONDS` -/
def forecastBucketSeconds : Int := 3600

/-- `FORECAST_MAX_DAYS` -/
def forecastMaxDays : Rat := 3650

/-! ## Buckets -/

/-- `bucket_medians`, of points with whole timestamps -/
def bucketMedians (points : List (Int × Rat)) : List (Int × Rat) :=
  let buckets := Dict.group (fun p => p.1 / forecastBucketSeconds) points
  (buckets.keys.insertionSort (· ≤ ·)).filterMap (fun b =>
    (median? (((buckets.get? b).getD []).map Prod.snd)).map (fun m => (b * forecastBucketSeconds, m)))

/-! ## The trend -/

/-- Each two members of a list, the first of them before the second. -/
def pairs {α : Type} : List α → List (α × α)
  | [] => []
  | x :: xs => xs.map (fun y => (x, y)) ++ pairs xs

/-- The slope from a point to one after it. -/
def slope (p q : Rat × Rat) : Rat := (q.2 - p.2) / (q.1 - p.1)

/-- The slopes that are sorted. -/
def slopes (points : List (Rat × Rat)) : List Rat :=
  (pairs points).filterMap (fun pq => if 0 < pq.2.1 - pq.1.1 then some (slope pq.1 pq.2) else none)

/-- `theil_sen_slope` -/
def theilSenSlope (points : List (Rat × Rat)) : Option Rat :=
  if points.length < 2 then none
  else if slopes points = [] then none
  else median? (slopes points)

/-! ## The forecast -/

/-- A row of `pool_metrics`, with the columns that are selected. -/
structure PoolRow where
  timestamp : Int
  allocBytes : Int
  sizeBytes : Int

/-- `reason` -/
inductive ForecastReason where
  | noData
  | full
  | noGrowth
  | tooFar
  | ok
  deriving DecidableEq

/-- The dictionary that `forecast_detail` returns. -/
structure Forecast where
  days : Option Rat
  bytesPerDay : Option Rat
  windowDays : Nat
  reason : ForecastReason
  deriving DecidableEq

/-- The points of the rows. -/
def allocPoints (rows : List PoolRow) : List (Int × Rat) :=
  rows.map (fun r => (r.timestamp, (r.allocBytes : Rat)))

/-- The buckets by the hours since the first. -/
def hourPoints (buckets : List (Int × Rat)) : List (Rat × Rat) :=
  match buckets with
  | [] => []
  | first :: _ => buckets.map (fun b => (((b.1 - first.1 : Int) : Rat) / 3600, b.2))

/-- The days for what is left at a slope above zero. -/
def projectDays (out : Forecast) (left perHour : Rat) : Forecast :=
  let days := left / perHour / 24
  if days ≤ 0 then { out with days := some 0, reason := .full }
  else if forecastMaxDays < days then { out with reason := .tooFar }
  else { out with days := some (roundTenth days), reason := .ok }

/-- The window that is used, with its rows and buckets. -/
def forecastWindow (fetch : Nat → List PoolRow) : Nat × List PoolRow × List (Int × Rat) :=
  let rows := fetch forecastPrimaryDays
  let buckets := bucketMedians (allocPoints rows)
  if rows.length < forecastMinSamples ∨ buckets.length < forecastMinBuckets then
    (forecastWindowDays, fetch forecastWindowDays,
      bucketMedians (allocPoints (fetch forecastWindowDays)))
  else (forecastPrimaryDays, rows, buckets)

/-- `forecast_detail`, where `fetch` is `_fetch_pool_series` for the pool -/
def forecastDetail (fetch : Nat → List PoolRow) : Forecast :=
  let (windowDays, rows, buckets) := forecastWindow fetch
  let out : Forecast :=
    { days := none, bytesPerDay := none, windowDays := windowDays, reason := .noData }
  if rows.length < forecastMinSamples ∨ buckets.length < 2 then out
  else match theilSenSlope (hourPoints buckets), rows.getLast? with
    | some perHour, some last =>
        let out := { out with bytesPerDay := some (perHour * 24) }
        if last.sizeBytes ≤ last.allocBytes then { out with days := some 0, reason := .full }
        else if perHour ≤ 0 then { out with reason := .noGrowth }
        else projectDays out (last.sizeBytes - last.allocBytes) perHour
    | _, _ => out

/-! ## Points in the order of time -/

section Increasing

variable {points : List (Rat × Rat)}

/-- The times go up from each point to the next. -/
def Increasing (points : List (Rat × Rat)) : Prop := points.Pairwise (fun p q => p.1 < q.1)

theorem pairs_of_pairwise {α : Type} {R : α → α → Prop} {l : List α} (h : l.Pairwise R) :
    ∀ pq ∈ pairs l, R pq.1 pq.2 := by
  induction l with
  | nil =>
    intro pq hpq
    cases hpq
  | cons x xs ih =>
    rw [List.pairwise_cons] at h
    intro pq hpq
    obtain hpq | hpq := List.mem_append.mp hpq
    · obtain ⟨y, hy, rfl⟩ := List.mem_map.mp hpq
      exact h.1 y hy
    · exact ih h.2 pq hpq

theorem pairs_sublist {α : Type} {l₁ l₂ : List α} (h : l₁.Sublist l₂) :
    (pairs l₁).Sublist (pairs l₂) := by
  induction h with
  | slnil => exact List.Sublist.slnil
  | cons x _ ih => exact ih.trans (List.sublist_append_right _ _)
  | cons_cons x h ih => exact (h.map _).append ih

theorem pairs_map {α β : Type} (f : α → β) (l : List α) :
    pairs (l.map f) = (pairs l).map (Prod.map f f) := by
  induction l with
  | nil => rfl
  | cons x xs ih =>
    rw [List.map_cons, pairs, pairs, ih, List.map_append, List.map_map, List.map_map]
    rfl

theorem pairs_ne_nil {α : Type} {l : List α} (h : pairs l ≠ []) : 2 ≤ l.length := by
  cases l with
  | nil => exact absurd rfl h
  | cons x l =>
    cases l with
    | nil => exact absurd rfl h
    | cons y l =>
      rw [List.length_cons, List.length_cons]
      omega

/-- No pair is left out where the times go up. -/
theorem slopes_eq_map (h : Increasing points) :
    slopes points = (pairs points).map (fun pq => slope pq.1 pq.2) := by
  rw [slopes, ← List.filterMap_eq_map]
  refine List.filterMap_congr (fun pq hpq => ?_)
  have hlt : pq.1.1 < pq.2.1 := pairs_of_pairwise h pq hpq
  exact if_pos (sub_pos.mpr hlt)

/-- The slopes of some of the points are among the slopes of all. -/
theorem slopes_sublist {part : List (Rat × Rat)} (h : part.Sublist points) :
    (slopes part).Sublist (slopes points) := (pairs_sublist h).filterMap _

theorem slopes_shift (points : List (Rat × Rat)) (dt dv : Rat) :
    slopes (points.map (fun p => (p.1 + dt, p.2 + dv))) = slopes points := by
  rw [slopes, slopes, pairs_map, List.filterMap_map]
  refine List.filterMap_congr (fun pq _ => ?_)
  have htime : pq.2.1 + dt - (pq.1.1 + dt) = pq.2.1 - pq.1.1 := by ring
  have hvalue : pq.2.2 + dv - (pq.1.2 + dv) = pq.2.2 - pq.1.2 := by ring
  show (if 0 < pq.2.1 + dt - (pq.1.1 + dt) then
      some ((pq.2.2 + dv - (pq.1.2 + dv)) / (pq.2.1 + dt - (pq.1.1 + dt))) else none) = _
  rw [htime, hvalue]
  rfl

theorem theilSenSlope_of_slopes (h : slopes points ≠ []) :
    theilSenSlope points = median? (slopes points) := by
  have hpairs : pairs points ≠ [] := by
    intro hnil
    rw [slopes, hnil] at h
    exact h rfl
  have hlength := pairs_ne_nil hpairs
  rw [theilSenSlope, if_neg (by omega), if_neg h]

theorem theilSenSlope_shift (points : List (Rat × Rat)) (dt dv : Rat) :
    theilSenSlope (points.map (fun p => (p.1 + dt, p.2 + dv))) = theilSenSlope points := by
  unfold theilSenSlope
  rw [List.length_map, slopes_shift]

theorem median?_of_theilSenSlope {m : Rat} (h : theilSenSlope points = some m) :
    slopes points ≠ [] ∧ median? (slopes points) = some m := by
  unfold theilSenSlope at h
  split_ifs at h with hlength hnil
  exact ⟨hnil, h⟩

theorem theilSenSlope_nonneg {m : Rat} (hvalues : points.Pairwise (fun p q => p.2 ≤ q.2))
    (h : theilSenSlope points = some m) : 0 ≤ m := by
  obtain ⟨hne, hmedian⟩ := median?_of_theilSenSlope h
  have hall : ∀ x ∈ slopes points, 0 ≤ x := by
    intro x hx
    obtain ⟨pq, hpq, heq⟩ := List.mem_filterMap.mp hx
    split_ifs at heq with htime
    obtain rfl := Option.some.inj heq
    have hrise : pq.1.2 ≤ pq.2.2 := pairs_of_pairwise hvalues pq hpq
    exact div_nonneg (sub_nonneg.mpr hrise) htime.le
  have hcount : (slopes points).countP (0 ≤ ·) = (slopes points).length :=
    List.countP_eq_length.mpr (fun x hx => decide_eq_true (hall x hx))
  have hpos := List.length_pos_iff.mpr hne
  exact le_median? hmedian (by omega)

/-- The trend keeps to the slopes of some points, if their pairs are more than
half of all. -/
theorem theilSenSlope_between {clean : Rat × Rat → Bool} (h : Increasing points)
    (hmajority : (pairs points).length < 2 * (pairs (points.filter clean)).length) :
    ∃ m a b, theilSenSlope points = some m ∧ a ∈ slopes (points.filter clean) ∧
      b ∈ slopes (points.filter clean) ∧ (∀ x ∈ slopes (points.filter clean), a ≤ x ∧ x ≤ b) ∧
      a ≤ m ∧ m ≤ b := by
  have hsublist : (slopes (points.filter clean)).Sublist (slopes points) :=
    slopes_sublist List.filter_sublist
  have hclean : Increasing (points.filter clean) := h.filter _
  have hlength : (slopes points).length < 2 * (slopes (points.filter clean)).length := by
    rw [slopes_eq_map h, slopes_eq_map hclean, List.length_map, List.length_map]
    exact hmajority
  have hne : slopes (points.filter clean) ≠ [] := by
    intro hnil
    rw [hnil, List.length_nil] at hlength
    omega
  have hne' : slopes points ≠ [] := by
    intro hnil
    rw [hnil] at hsublist
    exact hne (List.sublist_nil.mp hsublist)
  obtain ⟨m, hm⟩ := median?_isSome hne'
  obtain ⟨b, hb, hgreatest⟩ := Newest.exists_greatest hne
  obtain ⟨a, ha, hleast⟩ : ∃ a ∈ slopes (points.filter clean),
      ∀ x ∈ slopes (points.filter clean), a ≤ x := Newest.exists_least hne
  -- the slopes of the clean points are enough to hold the median
  have hcount : ∀ p : Rat → Bool, (∀ x ∈ slopes (points.filter clean), p x = true) →
      (slopes points).length < 2 * (slopes points).countP p := by
    intro p hp
    have hle : _ ≤ (slopes points).countP p := hsublist.countP_le
    rw [List.countP_eq_length.mpr hp] at hle
    omega
  refine ⟨m, a, b, (theilSenSlope_of_slopes hne').trans hm, ha, hb,
    fun x hx => ⟨hleast x hx, hgreatest x hx⟩, ?_, ?_⟩
  · exact le_median? hm (hcount _ (fun x hx => decide_eq_true (hleast x hx)))
  · exact median?_le hm (hcount _ (fun x hx => decide_eq_true (hgreatest x hx)))

end Increasing

/-! ## The buckets -/

/-- The buckets have strictly increasing times. -/
theorem increasing_bucketMedians (points : List (Int × Rat)) :
    (bucketMedians points).Pairwise (fun b c => b.1 < c.1) := by
  have hkeys : ((Dict.group (fun p => p.1 / forecastBucketSeconds) points).keys.insertionSort
      (· ≤ ·)).Pairwise (· < ·) := by
    have hle := List.pairwise_insertionSort (· ≤ ·)
      (Dict.group (fun p : Int × Rat => p.1 / forecastBucketSeconds) points).keys
    have hne : (_ : List Int).Pairwise (· ≠ ·) :=
      (List.perm_insertionSort (· ≤ ·) _).nodup_iff.mpr
        (Dict.nodup_keys (Dict.group (fun p : Int × Rat => p.1 / forecastBucketSeconds) points))
    exact hle.imp₂ (fun _ _ h hne => lt_of_le_of_ne h hne) hne
  unfold bucketMedians
  dsimp only
  refine List.Pairwise.filterMap _ (fun b c hlt x hx y hy => ?_) hkeys
  obtain ⟨_, -, rfl⟩ := Option.map_eq_some_iff.mp hx
  obtain ⟨_, -, rfl⟩ := Option.map_eq_some_iff.mp hy
  exact Int.mul_lt_mul_of_pos_right hlt (by decide)

theorem increasing_hourPoints (points : List (Int × Rat)) :
    Increasing (hourPoints (bucketMedians points)) := by
  have hbuckets := increasing_bucketMedians points
  cases hlist : bucketMedians points with
  | nil => exact List.Pairwise.nil
  | cons first rest =>
    rw [hlist] at hbuckets
    refine List.pairwise_map.mpr (hbuckets.imp (fun {b c} hlt => ?_))
    have hsub : b.1 - first.1 < c.1 - first.1 := by omega
    exact div_lt_div_of_pos_right (Int.cast_lt.mpr hsub) (by norm_num)

/-! ## The days -/

theorem roundTenth_days {q : Rat} (hpos : 0 < q) (hmax : q ≤ forecastMaxDays) :
    0 ≤ roundTenth q ∧ roundTenth q ≤ forecastMaxDays := by
  have hwhole : ((3650 : Int) : Rat) = forecastMaxDays := by
    rw [forecastMaxDays]
    norm_num
  obtain ⟨hlow, hhigh⟩ := roundTenth_bounds (m := 0) (n := 3650) (by exact_mod_cast hpos.le)
    (by rw [hwhole]; exact hmax)
  exact ⟨by exact_mod_cast hlow, by rwa [hwhole] at hhigh⟩

theorem projectDays_bounds {out : Forecast} {left perHour d : Rat} (hout : out.days = none)
    (h : (projectDays out left perHour).days = some d) : 0 ≤ d ∧ d ≤ forecastMaxDays := by
  unfold projectDays at h
  dsimp only at h
  split_ifs at h with hpast hfar
  · obtain rfl := Option.some.inj h
    exact ⟨le_refl _, by rw [forecastMaxDays]; norm_num⟩
  · rw [hout] at h
    cases h
  · obtain rfl := Option.some.inj h
    exact roundTenth_days (not_le.mp hpast) (not_lt.mp hfar)

theorem days_bounds {fetch : Nat → List PoolRow} {d : Rat}
    (h : (forecastDetail fetch).days = some d) : 0 ≤ d ∧ d ≤ forecastMaxDays := by
  have hzero : (0 : Rat) ≤ 0 ∧ (0 : Rat) ≤ forecastMaxDays :=
    ⟨le_refl _, by rw [forecastMaxDays]; norm_num⟩
  unfold forecastDetail at h
  obtain ⟨windowDays, rows, buckets⟩ := forecastWindow fetch
  dsimp only at h
  split at h
  · cases h
  · split at h
    · split at h
      · obtain rfl := Option.some.inj h
        exact hzero
      · split at h
        · cases h
        · exact projectDays_bounds rfl h
    · cases h

/-! ## The trend of a series -/

/-- Points with strictly increasing times. -/
structure Series where
  points : List (Rat × Rat)
  increasing : Increasing points

/-- The series of the buckets, by the hours since the first. -/
def bucketSeries (points : List (Int × Rat)) : Series where
  points := hourPoints (bucketMedians points)
  increasing := increasing_hourPoints points

theorem forecastWindow_eq (fetch : Nat → List PoolRow) :
    ∃ w, forecastWindow fetch = (w, fetch w, bucketMedians (allocPoints (fetch w))) := by
  unfold forecastWindow
  dsimp only
  split_ifs
  · exact ⟨forecastWindowDays, rfl⟩
  · exact ⟨forecastPrimaryDays, rfl⟩

/-- The growth that is reported is the trend of such a series. -/
theorem bytesPerDay_eq {fetch : Nat → List PoolRow} {growth : Rat}
    (h : (forecastDetail fetch).bytesPerDay = some growth) :
    ∃ w perHour, theilSenSlope (bucketSeries (allocPoints (fetch w))).points = some perHour ∧
      growth = perHour * 24 := by
  obtain ⟨w, hw⟩ := forecastWindow_eq fetch
  unfold forecastDetail at h
  rw [hw] at h
  dsimp only at h
  by_cases hthin : (fetch w).length < forecastMinSamples ∨
      (bucketMedians (allocPoints (fetch w))).length < 2
  · rw [if_pos hthin] at h
    cases h
  · rw [if_neg hthin] at h
    cases hslope : theilSenSlope (hourPoints (bucketMedians (allocPoints (fetch w)))) with
    | none =>
      rw [hslope] at h
      cases h
    | some perHour =>
      rw [hslope] at h
      refine ⟨w, perHour, hslope, ?_⟩
      cases hlast : (fetch w).getLast? with
      | none =>
        rw [hlast] at h
        cases h
      | some last =>
        rw [hlast] at h
        dsimp only at h
        unfold projectDays at h
        dsimp only at h
        split_ifs at h <;> exact (Option.some.inj h).symm

theorem theilSenSlope_trend (s : Series) :
    (∀ clean : Rat × Rat → Bool,
      (pairs s.points).length < 2 * (pairs (s.points.filter clean)).length →
        ∃ m a b, theilSenSlope s.points = some m ∧ a ∈ slopes (s.points.filter clean) ∧
          b ∈ slopes (s.points.filter clean) ∧
          (∀ x ∈ slopes (s.points.filter clean), a ≤ x ∧ x ≤ b) ∧ a ≤ m ∧ m ≤ b) ∧
      (∀ dt dv : Rat, theilSenSlope (s.points.map (fun p => (p.1 + dt, p.2 + dv))) =
        theilSenSlope s.points) ∧
      (s.points.Pairwise (fun p q => p.2 ≤ q.2) →
        ∀ m, theilSenSlope s.points = some m → 0 ≤ m) ∧
      ∀ fetch : Nat → List PoolRow,
        (∀ growth, (forecastDetail fetch).bytesPerDay = some growth → ∃ w perHour,
          theilSenSlope (bucketSeries (allocPoints (fetch w))).points = some perHour ∧
            growth = perHour * 24) ∧
          ∀ d, (forecastDetail fetch).days = some d → 0 ≤ d ∧ d ≤ forecastMaxDays :=
  ⟨fun _ hmajority => theilSenSlope_between s.increasing hmajority,
    fun dt dv => theilSenSlope_shift s.points dt dv,
    fun hvalues _ hm => theilSenSlope_nonneg hvalues hm,
    fun _ => ⟨fun _ hgrowth => bytesPerDay_eq hgrowth, fun _ hd => days_bounds hd⟩⟩

end PveZfsTool
