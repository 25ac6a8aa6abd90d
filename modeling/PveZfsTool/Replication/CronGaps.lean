import PveZfsTool.Replication.CronFields
import PveZfsTool.Replication.PairCheck
import Mathlib.Data.Int.LeastGreatest

/-!
# A pair that is synced at every firing

The lag check allows a pair twice the interval of `cron_interval_seconds`, which
reads the minute and the hour field.  The schedule also has three fields for its
days, and its times of day need not be evenly spread, so a pair that was synced
at every firing can be late all the same.

`staysOk_iff` says for which schedules it never is.

* `Covered`: each firing is followed by one within the allowed lag.
* `le_allowedLag_iff`: the allowed lag, in terms of the times of day.
* `covered_iff`: what this asks of the times and of the days.
-/

namespace PveZfsTool.Replication

open Text Periodic

/-- The days that cron takes the last three fields for, counted from the epoch. -/
structure CronDays where
  onDay : Str → Str → Str → Int → Prop
  every : ∀ day, onDay "*" "*" "*" day

namespace CronExpr

variable (e : CronExpr) (C : CronDays)

/-- A day with firings.  The day of the epoch is left out, since a time of zero
counts as none. -/
def OnDay (day : Int) : Prop := 0 < day ∧ C.onDay e.dayOfMonth e.month e.dayOfWeek day

/-- The schedule fires on its days, at each of its times. -/
def FiresOn (t : Int) : Prop := ∃ day, e.OnDay C day ∧ e.IsTime (t - day * 86400)

/-- The last firing up to now. -/
structure LastFiring (now last : Int) : Prop where
  fires : e.FiresOn C last
  le_now : last ≤ now
  newest : ∀ t, e.FiresOn C t → t ≤ now → t ≤ last

/-- A pair whose newest snapshot is from the last firing is `ok`, and no two
firings in a row are further apart than the allowed lag. -/
structure StaysOk : Prop where
  ok : ∀ now last, e.LastFiring C now last → ∀ address name cfg snapshot, strip cfg.target ≠ [] →
    (checkPair address name cfg (some e.text) (some (snapshot, last)) now).status = .ok
  gaps : ∀ s t, IsNext (e.FiresOn C) s t → t - s ≤ allowedLag (some e.text)

/-- There is one time of day. -/
def OnceADay : Prop := ∀ s t, e.IsTime s → e.IsTime t → s = t

/-- Each day with firings is followed by another one, or after a day without
when there is one time of day.  Of the times of day, repeated daily, no two
neighbours are more than twice as far apart as any two others; or they are at
most two hours apart, where a number is too long for `int`. -/
structure KeepsPace : Prop where
  days : ∀ day, e.OnDay C day →
    e.OnDay C (day + 1) ∨ (e.IsShort ∧ e.OnceADay ∧ e.OnDay C (day + 2))
  even : (∃ day, e.OnDay C day) → e.IsShort → ∀ s t s' t', IsNext e.Fires s t →
    IsNext e.Fires s' t' → t - s ≤ 2 * (t' - s')
  hourly : (∃ day, e.OnDay C day) → ¬ e.IsShort → ∀ s t, IsNext e.Fires s t → t - s ≤ 7200

variable {e C} {s t day : Int}

/-! ## Times of day -/

theorem isTime_bounds (h : e.IsTime t) : 0 ≤ t ∧ t < 86400 := times_bounds (mem_times.mpr h)

theorem fires_of_firesOn (h : e.FiresOn C t) : e.Fires t := by
  obtain ⟨day, -, htime⟩ := h
  exact ⟨day, htime⟩

theorem recurs_eq_fires (e : CronExpr) : Recurs 86400 e.times = e.Fires :=
  funext fun _ => propext recurs_times

theorem exists_isNext_fires (h : e.Fires s) : ∃ t, IsNext e.Fires s t := by
  rw [← recurs_eq_fires] at h ⊢
  exact exists_isNext times_sorted (fun x hx => times_bounds hx) h

theorem isNext_shift (h : IsNext e.Fires s t) (n : Int) :
    IsNext e.Fires (s + n * 86400) (t + n * 86400) := by
  rw [← recurs_eq_fires] at h ⊢
  exact h.shift n

theorem exists_last_time (e : CronExpr) : ∃ last, e.IsTime last ∧ ∀ t, e.IsTime t → t ≤ last := by
  refine Int.exists_greatest_of_bdd ⟨86400, fun t ht => (isTime_bounds ht).2.le⟩ ?_
  obtain ⟨t, ht⟩ := List.exists_mem_of_ne_nil _ e.times_ne_nil
  exact ⟨t, mem_times.mp ht⟩

theorem sixty_dvd_of_fires (h : e.Fires t) : 60 ∣ t := by
  obtain ⟨day, hour, minute, -, -, htime⟩ := h
  omega

/-! ## The allowed lag -/

theorem text_ne_nil (e : CronExpr) : e.text ≠ [] := by
  intro hnil
  have hfields := e.fields
  rw [hnil] at hfields
  cases hfields

theorem allowedLag_short (hshort : e.IsShort) :
    ∃ i, allowedLag (some e.text) = i * 2 ∧ IsLeast (distances e.Fires) i := by
  obtain ⟨i, hi, hleast, hlow, -⟩ := intervalRight_of_short hshort
  refine ⟨i, ?_, hleast⟩
  have hsome : nonzero (some i) = some i := nonzero_eq_some.mpr ⟨rfl, by omega⟩
  rw [allowedLag, Option.filter_some, if_pos (decide_eq_true e.text_ne_nil), Option.bind_some, hi, hsome]
  show (if i ≤ 0 then defaultIntervalSeconds else i) * 2 = _
  rw [if_neg (by omega)]

theorem allowedLag_long (hlong : ¬ e.IsShort) : allowedLag (some e.text) = 7200 := by
  rw [allowedLag, Option.filter_some, if_pos (decide_eq_true e.text_ne_nil), Option.bind_some,
    cronIntervalSeconds_long hlong]
  rfl

/-- The allowed lag is twice the least distance of neighbours, or two hours. -/
theorem le_allowedLag_iff {g : Int} : g ≤ allowedLag (some e.text) ↔
    (e.IsShort → ∀ s t, IsNext e.Fires s t → g ≤ 2 * (t - s)) ∧ (¬ e.IsShort → g ≤ 7200) := by
  by_cases hshort : e.IsShort
  · obtain ⟨i, hlag, hleast⟩ := allowedLag_short hshort
    rw [hlag, and_iff_left (fun h => absurd hshort h)]
    constructor
    · intro hg _ s t hnext
      have hle := hleast.2 ⟨Int.sub_pos.mpr hnext.lt, s, t, hnext.from_time, hnext.to_time, rfl⟩
      omega
    · intro h
      rw [← recurs_eq_fires] at hleast
      obtain ⟨s, t, hnext, hdist⟩ :=
        exists_isNext_of_isLeast times_sorted (fun x hx => times_bounds hx) hleast
      rw [recurs_eq_fires] at hnext
      have hg := h hshort s t hnext
      omega
  · rw [allowedLag_long hshort, and_iff_right (fun h => absurd h hshort)]
    exact ⟨fun h _ => h, fun h => h hshort⟩

theorem sixty_dvd_allowedLag (e : CronExpr) : 60 ∣ allowedLag (some e.text) := by
  by_cases hshort : e.IsShort
  · obtain ⟨i, hlag, ⟨-, s, t, hs, ht, hdist⟩, -⟩ := allowedLag_short hshort
    have := sixty_dvd_of_fires hs
    have := sixty_dvd_of_fires ht
    omega
  · rw [allowedLag_long hshort]
    decide

/-- With one time of day, two days are allowed. -/
theorem two_days_le (hshort : e.IsShort) (honce : e.OnceADay) : 172800 ≤ allowedLag (some e.text) := by
  obtain ⟨i, hlag, ⟨hpos, s, t, ⟨day, hs⟩, ⟨day', ht⟩, hdist⟩, -⟩ := allowedLag_short hshort
  have := honce _ _ hs ht
  omega

theorem allowedLag_le_two_days (e : CronExpr) : allowedLag (some e.text) ≤ 172800 := by
  by_cases hshort : e.IsShort
  · obtain ⟨i, hlag, hleast⟩ := allowedLag_short hshort
    have := hleast.2 day_mem_distances
    omega
  · rw [allowedLag_long hshort]
    decide

/-- With two times of day, the one before the other and this one before the
first of the next day are not both more than half a day apart. -/
theorem allowedLag_le_day (h : ¬ (e.IsShort ∧ e.OnceADay)) : allowedLag (some e.text) ≤ 86400 := by
  by_cases hshort : e.IsShort
  · obtain ⟨i, hlag, hleast⟩ := allowedLag_short hshort
    have htwo : ∃ s t, e.IsTime s ∧ e.IsTime t ∧ s < t := by
      by_contra hnone
      refine h ⟨hshort, fun s t hs ht => ?_⟩
      rcases lt_trichotomy s t with hlt | heq | hlt
      · exact absurd ⟨s, t, hs, ht, hlt⟩ hnone
      · exact heq
      · exact absurd ⟨t, s, ht, hs, hlt⟩ hnone
    obtain ⟨s, t, hs, ht, hlt⟩ := htwo
    have hbounds := isTime_bounds hs
    have hbounds' := isTime_bounds ht
    have hs' : e.Fires s := ⟨0, by simpa using hs⟩
    have ht' : e.Fires t := ⟨0, by simpa using ht⟩
    have hnext : e.Fires (s + 86400) := ⟨1, by simpa using hs⟩
    have hday := hleast.2 ⟨Int.sub_pos.mpr hlt, s, t, hs', ht', rfl⟩
    have hnight := hleast.2 ⟨by omega, t, s + 86400, ht', hnext, rfl⟩
    omega
  · rw [allowedLag_long hshort]
    decide

/-! ## Firings in a row -/

/-- Each firing is followed by one within the allowed lag. -/
def Covered (e : CronExpr) (C : CronDays) : Prop :=
  ∀ s, e.FiresOn C s → ∃ t, e.FiresOn C t ∧ s < t ∧ t ≤ s + allowedLag (some e.text)

theorem pos_of_firesOn (h : e.FiresOn C t) : 0 < t := by
  obtain ⟨day, ⟨hday, -⟩, htime⟩ := h
  have := isTime_bounds htime
  omega

theorem staysOk_of_covered (h : e.Covered C) : e.StaysOk C where
  ok := by
    intro now last hlast address name cfg snapshot htarget
    obtain ⟨t, ht, hlt, hle⟩ := h last hlast.fires
    have hnow : now < t := by
      by_contra hpast
      have := hlast.newest t ht (by omega)
      omega
    have hpos := pos_of_firesOn hlast.fires
    exact checkPair_ok_iff.mpr ⟨htarget, _, rfl, by omega, by omega⟩
  gaps := by
    intro s t hnext
    obtain ⟨u, hu, hlt, hle⟩ := h s hnext.from_time
    have := hnext.least u hu hlt
    omega

/-- A second behind the allowed lag the pair is late, if there was no firing. -/
theorem covered_of_staysOk (h : e.StaysOk C) : e.Covered C := by
  intro s hs
  by_contra hnone
  have hlast : e.LastFiring C (s + allowedLag (some e.text) + 1) s := by
    have hlag := (sixty_dvd_allowedLag e)
    have hpos : 0 ≤ allowedLag (some e.text) := by
      refine le_allowedLag_iff.mpr ⟨fun _ s t hnext => ?_, fun _ => by decide⟩
      have := hnext.lt
      omega
    refine ⟨hs, by omega, fun t ht hle => ?_⟩
    by_contra hlt
    have := sixty_dvd_of_fires (fires_of_firesOn hs)
    have := sixty_dvd_of_fires (fires_of_firesOn ht)
    exact hnone ⟨t, ht, by omega, by omega⟩
  have hok := h.ok _ _ hlast "" "" ⟨"", "", "tank"⟩ "" (by decide)
  obtain ⟨-, found, hfound, -, hle⟩ := checkPair_ok_iff.mp hok
  obtain rfl := Option.some.inj hfound
  omega

/-- The days, seen from the last firing of one of them. -/
theorem days_of_covered (h : e.Covered C) (hday : e.OnDay C day) :
    e.OnDay C (day + 1) ∨ (e.IsShort ∧ e.OnceADay ∧ e.OnDay C (day + 2)) := by
  obtain ⟨last, hlast, hgreatest⟩ := e.exists_last_time
  have hbounds := isTime_bounds hlast
  obtain ⟨t, ⟨day', hday', htime⟩, hlt, hle⟩ := h (day * 86400 + last) ⟨day, hday, by simpa using hlast⟩
  have htime_le := hgreatest _ htime
  have htime_bounds := isTime_bounds htime
  have hlag := e.allowedLag_le_two_days
  have hcases : day' = day + 1 ∨ day' = day + 2 := by omega
  rcases hcases with rfl | rfl
  · exact .inl hday'
  · by_cases hboth : e.IsShort ∧ e.OnceADay
    · exact .inr ⟨hboth.1, hboth.2, hday'⟩
    · have := allowedLag_le_day hboth
      omega

/-- The times of day, seen on a day with firings. -/
theorem gap_le_of_covered (h : e.Covered C) (hday : e.OnDay C day) (hnext : IsNext e.Fires s t) :
    t - s ≤ allowedLag (some e.text) := by
  obtain ⟨n, htime⟩ := hnext.from_time
  have hmoved := isNext_shift hnext (day - n)
  have hplace : s + (day - n) * 86400 - day * 86400 = s - n * 86400 := by omega
  obtain ⟨u, hu, hlt, hle⟩ := h (s + (day - n) * 86400) ⟨day, hday, by rwa [hplace]⟩
  have := hmoved.least u (fires_of_firesOn hu) hlt
  omega

theorem keepsPace_of_covered (h : e.Covered C) : e.KeepsPace C where
  days := fun _ hday => days_of_covered h hday
  even := by
    intro ⟨day, hday⟩ hshort s t s' t' hnext hnext'
    exact (le_allowedLag_iff.mp (gap_le_of_covered h hday hnext)).1 hshort s' t' hnext'
  hourly := by
    intro ⟨day, hday⟩ hlong s t hnext
    exact (le_allowedLag_iff.mp (gap_le_of_covered h hday hnext)).2 hlong

/-- The next time of day is on the same day or on the next one.  If that one has
no firing, the time comes again two days later. -/
theorem covered_of_keepsPace (h : e.KeepsPace C) : e.Covered C := by
  intro s hs
  obtain ⟨day, hday, htime⟩ := hs
  obtain ⟨t, hnext⟩ := exists_isNext_fires ⟨day, htime⟩
  have hgap : t - s ≤ allowedLag (some e.text) := by
    refine le_allowedLag_iff.mpr ⟨fun hshort s' t' hnext' => ?_, fun hlong => ?_⟩
    · exact h.even ⟨day, hday⟩ hshort s t s' t' hnext hnext'
    · exact h.hourly ⟨day, hday⟩ hlong s t hnext
  have hbounds := isTime_bounds htime
  have htomorrow : e.Fires (s + 86400) := ⟨day + 1, by rwa [show s + 86400 - (day + 1) * 86400 = s - day * 86400 by omega]⟩
  have hle := hnext.least _ htomorrow (by omega)
  obtain ⟨day', htime'⟩ := hnext.to_time
  have hbounds' := isTime_bounds htime'
  have hlt := hnext.lt
  have hcases : day' = day ∨ day' = day + 1 := by omega
  rcases hcases with rfl | rfl
  · exact ⟨t, ⟨day', hday, htime'⟩, hlt, by omega⟩
  · rcases h.days day hday with hone | ⟨hshort, honce, htwo⟩
    · exact ⟨t, ⟨day + 1, hone, htime'⟩, hlt, by omega⟩
    · have hlag := two_days_le hshort honce
      refine ⟨s + 172800, ⟨day + 2, htwo, ?_⟩, by omega, by omega⟩
      rwa [show s + 172800 - (day + 2) * 86400 = s - day * 86400 by omega]

theorem covered_iff : e.Covered C ↔ e.KeepsPace C := ⟨keepsPace_of_covered, covered_of_keepsPace⟩

/-- A pair that was synced at every firing is `ok` at all times if and only if
its schedule keeps pace. -/
theorem staysOk_iff (e : CronExpr) (C : CronDays) : e.StaysOk C ↔ e.KeepsPace C := by
  rw [← covered_iff]
  exact ⟨covered_of_staysOk, staysOk_of_covered⟩

end CronExpr

/-! ## Every hour from eight to six -/

def eight : CronNumber where
  digits := "8"
  isDigits := ⟨by decide, by decide⟩

def eighteen : CronNumber where
  digits := "18"
  isDigits := ⟨by decide, by decide⟩

def officeHours : CronExpr where
  text := "0 8-18 * * *"
  minute := zeroField 0
  hour := ⟨[.range eight eighteen ⟨none⟩], List.cons_ne_nil _ _⟩
  dayOfMonth := "*"
  month := "*"
  dayOfWeek := "*"
  fields := by decide
  hasMinute := ⟨0, names_zeroField (by decide)⟩
  hasHour := ⟨8, _, List.mem_singleton_self _, ⟨by decide, by decide⟩, by decide, by decide, one_dvd _⟩

theorem officeHours_isTime {h : Int} (hlow : 8 ≤ h) (hhigh : h ≤ 18) : officeHours.IsTime (h * 3600) := by
  refine ⟨h, 0, ⟨_, List.mem_singleton_self _, ⟨by omega, by omega⟩, hlow, hhigh, ?_⟩,
    names_zeroField (by decide), by omega⟩
  exact one_dvd _

theorem officeHours_hours {t : Int} (ht : officeHours.IsTime t) :
    ∃ h, 8 ≤ h ∧ h ≤ 18 ∧ t = h * 3600 := by
  obtain ⟨h, m, ⟨p, hp, hhour⟩, ⟨q, hq, hminute⟩, rfl⟩ := ht
  obtain rfl := List.mem_singleton.mp hp
  obtain rfl := List.mem_singleton.mp hq
  obtain ⟨-, hlow, hhigh, -⟩ := hhour
  have hzero : m = 0 := hminute.2.trans value_paddedZero
  exact ⟨h, hlow, hhigh, by omega⟩

/-- At eight in the evening the last firing is two hours ago, and the next one
comes in the morning. -/
theorem office_hours_late : ¬ ∀ (e : CronExpr) (C : CronDays), validateCron e.text = true → e.StaysOk C := by
  intro h
  have hcovered := CronExpr.covered_of_staysOk
    (h officeHours ⟨fun _ _ _ _ => True, fun _ => trivial⟩ (by decide))
  have hsix : officeHours.IsTime (18 * 3600) := officeHours_isTime (by decide) (by decide)
  obtain ⟨t, ⟨day, -, htime⟩, hlt, hle⟩ :=
    hcovered (1 * 86400 + 18 * 3600) ⟨1, ⟨by decide, trivial⟩, by simpa using hsix⟩
  obtain ⟨i, hlag, hleast⟩ := CronExpr.allowedLag_short (e := officeHours) (by decide)
  have height : officeHours.Fires (8 * 3600) := ⟨0, officeHours_isTime (h := 8) (by decide) (by decide)⟩
  have hnine : officeHours.Fires (9 * 3600) := ⟨0, officeHours_isTime (h := 9) (by decide) (by decide)⟩
  have hhour := hleast.2 ⟨by decide, _, _, height, hnine, rfl⟩
  obtain ⟨hour, hlow, hhigh, heq⟩ := officeHours_hours htime
  omega

end PveZfsTool.Replication
