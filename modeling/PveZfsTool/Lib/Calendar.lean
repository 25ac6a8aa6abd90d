import PveZfsTool.Lib.Newest
import Mathlib.Tactic.IntervalCases

/-!
# Dates and times of day

A `DateTime` is a naive `datetime` of Python: its fields without a time zone.
`ordinal`, `weekday` and `isoCalendar` follow `date`.

There are three groups.

* The days of a year and the number of a date.  `ordinal_le` says that dates
  are numbered in their order.
* The weeks.  `isoCalendar_eq_iff` says that two dates have the same ISO year
  and week when they have the same Monday.
* The digits of a date and a time.  `stamp_lt` says that the texts are in the
  order of the times, down to the second.
-/

namespace Calendar

open Text Newest

/-! ## Dates -/

def isLeap (year : Nat) : Bool := year % 4 = 0 && (year % 100 ≠ 0 || year % 400 = 0)

/-- `_days_in_month` -/
def daysInMonth (year month : Nat) : Nat :=
  if month = 2 then if isLeap year then 29 else 28
  else if month = 4 ∨ month = 6 ∨ month = 9 ∨ month = 11 then 30
  else 31

structure DateTime where
  year : Nat
  month : Nat
  day : Nat
  hour : Nat
  minute : Nat
  second : Nat
  microsecond : Nat
  year_bounds : 1 ≤ year ∧ year ≤ 9999
  month_bounds : 1 ≤ month ∧ month ≤ 12
  day_bounds : 1 ≤ day ∧ day ≤ daysInMonth year month
  hour_lt : hour < 24
  minute_lt : minute < 60
  second_lt : second < 60
  microsecond_lt : microsecond < 1000000
  deriving DecidableEq

theorem year_2026_bounds : 1 ≤ 2026 ∧ 2026 ≤ 9999 := by decide

theorem minute_zero_lt : 0 < 60 := by decide

theorem microsecond_zero_lt : 0 < 1000000 := by decide

/-- What datetimes are compared by. -/
def DateTime.fields (d : DateTime) : List Nat :=
  [d.year, d.month, d.day, d.hour, d.minute, d.second, d.microsecond]

instance : LinearOrder DateTime :=
  LinearOrder.lift' DateTime.fields (by
    intro d e h
    cases d
    cases e
    simpa [DateTime.fields] using h)

theorem le_iff_fields {d e : DateTime} : d ≤ e ↔ d.fields ≤ e.fields := Iff.rfl

theorem lt_iff_fields {d e : DateTime} : d < e ↔ d.fields < e.fields := Iff.rfl

/-- `_days_before_year` -/
def daysBeforeYear (year : Nat) : Nat :=
  (year - 1) * 365 + (year - 1) / 4 - (year - 1) / 100 + (year - 1) / 400

/-- `_days_before_month` -/
def daysBeforeMonth (year : Nat) : Nat → Nat
  | 0 => 0
  | 1 => 0
  | month + 2 => daysBeforeMonth year (month + 1) + daysInMonth year (month + 1)

/-- `toordinal` -/
def DateTime.ordinal (d : DateTime) : Nat :=
  daysBeforeYear d.year + daysBeforeMonth d.year d.month + d.day

/-- `weekday`: Monday is 0. -/
def DateTime.weekday (d : DateTime) : Nat := (d.ordinal + 6) % 7

/-- Seconds since the beginning of the first year. -/
def DateTime.seconds (d : DateTime) : Rat :=
  d.ordinal * 86400 + d.hour * 3600 + d.minute * 60 + d.second + d.microsecond / 1000000

/-- `_isoweek1monday` -/
def isoWeek1Monday (year : Nat) : Nat :=
  let firstday := daysBeforeYear year + 1
  let firstweekday := (firstday + 6) % 7
  if 3 < firstweekday then firstday - firstweekday + 7 else firstday - firstweekday

/-- `isocalendar()[:2]` -/
def DateTime.isoCalendar (d : DateTime) : Nat × Nat :=
  let today := d.ordinal
  let monday := isoWeek1Monday d.year
  if today < monday then (d.year - 1, (today - isoWeek1Monday (d.year - 1)) / 7 + 1)
  else
    let week := (today - monday) / 7
    if 52 ≤ week ∧ isoWeek1Monday (d.year + 1) ≤ today then (d.year + 1, 1) else (d.year, week + 1)

/-! ## The numbers of the dates -/

theorem isLeap_iff {year : Nat} : isLeap year = true ↔ 4 ∣ year ∧ (¬ 100 ∣ year ∨ 400 ∣ year) := by
  unfold isLeap
  simp [Nat.dvd_iff_mod_eq_zero]

theorem daysBeforeYear_succ {year : Nat} (h : 1 ≤ year) :
    daysBeforeYear (year + 1) = daysBeforeYear year + if isLeap year then 366 else 365 := by
  obtain ⟨n, rfl⟩ := Nat.exists_eq_add_of_le' h
  have hfour : n / 100 ≤ n / 4 := Nat.div_le_div_left (by omega) (by omega)
  have h100 : 100 ∣ n + 1 → 4 ∣ n + 1 := Nat.dvd_trans ⟨25, rfl⟩
  have h400 : 400 ∣ n + 1 → 100 ∣ n + 1 := Nat.dvd_trans ⟨4, rfl⟩
  unfold daysBeforeYear
  simp only [isLeap_iff, Nat.add_sub_cancel, Nat.succ_div]
  -- Each of the three divisions goes up by one exactly in its leap years.
  generalize n / 4 = a at *
  generalize n / 100 = b at *
  generalize n / 400 = c at *
  by_cases h4 : 4 ∣ n + 1
  · by_cases hb : 100 ∣ n + 1
    · by_cases hc : 400 ∣ n + 1
      · simp only [h4, hb, hc]
        simp
        omega
      · simp only [h4, hb, hc]
        simp
        omega
    · have hc : ¬ 400 ∣ n + 1 := fun hc => hb (h400 hc)
      simp only [h4, hb, hc]
      simp
      omega
  · have hb : ¬ 100 ∣ n + 1 := fun hb => h4 (h100 hb)
    have hc : ¬ 400 ∣ n + 1 := fun hc => hb (h400 hc)
    simp only [h4, hb, hc]
    simp
    omega

theorem daysBeforeYear_mono {y z : Nat} (hy : 1 ≤ y) (h : y ≤ z) :
    daysBeforeYear y ≤ daysBeforeYear z := by
  induction z, h using Nat.le_induction with
  | base => exact Nat.le_refl _
  | succ z hz ih =>
    rw [daysBeforeYear_succ (by omega)]
    omega

theorem daysBeforeMonth_succ {year month : Nat} (h : 1 ≤ month) :
    daysBeforeMonth year (month + 1) = daysBeforeMonth year month + daysInMonth year month := by
  obtain ⟨n, rfl⟩ := Nat.exists_eq_add_of_le' h
  rfl

theorem daysBeforeMonth_mono {year m n : Nat} (hm : 1 ≤ m) (h : m ≤ n) :
    daysBeforeMonth year m ≤ daysBeforeMonth year n := by
  induction n, h using Nat.le_induction with
  | base => exact Nat.le_refl _
  | succ n hn ih =>
    rw [daysBeforeMonth_succ (by omega)]
    omega

theorem daysBeforeMonth_end (year : Nat) :
    daysBeforeMonth year 13 = if isLeap year then 366 else 365 := by
  cases h : isLeap year <;> simp [daysBeforeMonth, daysInMonth, h]

namespace DateTime

variable {d e f : DateTime}

theorem dayOfYear_le : daysBeforeMonth d.year d.month + d.day ≤ if isLeap d.year then 366 else 365 := by
  have hday := d.day_bounds.2
  have hmonth : daysBeforeMonth d.year (d.month + 1) ≤ daysBeforeMonth d.year 13 :=
    daysBeforeMonth_mono (by omega) (by have := d.month_bounds.2; omega)
  rw [daysBeforeMonth_succ d.month_bounds.1, daysBeforeMonth_end] at hmonth
  omega

/-- A date is numbered within its year. -/
theorem ordinal_bounds :
    daysBeforeYear d.year + 1 ≤ d.ordinal ∧ d.ordinal ≤ daysBeforeYear (d.year + 1) := by
  have hday := d.day_bounds.1
  have hle := d.dayOfYear_le
  rw [daysBeforeYear_succ d.year_bounds.1]
  unfold ordinal
  omega

theorem ordinal_le_of_date_le
    (h : d.year < e.year ∨ d.year = e.year ∧ (d.month < e.month ∨ d.month = e.month ∧ d.day ≤ e.day)) :
    d.ordinal ≤ e.ordinal := by
  rcases h with hyear | ⟨hyear, hmonth | ⟨hmonth, hday⟩⟩
  · have hmono := daysBeforeYear_mono (y := d.year + 1) (by omega) hyear
    have hd := d.ordinal_bounds.2
    have he := e.ordinal_bounds.1
    omega
  · have hmono : daysBeforeMonth e.year (d.month + 1) ≤ daysBeforeMonth e.year e.month :=
      daysBeforeMonth_mono (by omega) hmonth
    rw [daysBeforeMonth_succ d.month_bounds.1] at hmono
    have hday := d.day_bounds.2
    unfold ordinal
    rw [hyear] at hday ⊢
    omega
  · unfold ordinal
    rw [hyear, hmonth]
    omega

theorem le_cases (h : d ≤ e) : d.year < e.year ∨ d.year = e.year ∧
    (d.month < e.month ∨ d.month = e.month ∧
      (d.day < e.day ∨ d.day = e.day ∧ [d.hour, d.minute, d.second, d.microsecond] ≤
        [e.hour, e.minute, e.second, e.microsecond])) := by
  rw [le_iff_fields, fields, fields, cons_le_cons_iff, cons_le_cons_iff, cons_le_cons_iff] at h
  exact h

theorem ordinal_le (h : d ≤ e) : d.ordinal ≤ e.ordinal := by
  apply ordinal_le_of_date_le
  have hcases := le_cases h
  omega

/-- The day of a time. -/
def date (d : DateTime) : Nat × Nat × Nat := (d.year, d.month, d.day)

theorem date_eq_iff : d.date = e.date ↔ d.year = e.year ∧ d.month = e.month ∧ d.day = e.day := by
  unfold date
  rw [Prod.mk.injEq, Prod.mk.injEq]

theorem date_between (hde : d ≤ e) (hef : e ≤ f) (h : d.date = f.date) : e.date = f.date := by
  have hde := le_cases hde
  have hef := le_cases hef
  rw [date_eq_iff] at h ⊢
  omega

theorem hour_le (h : d ≤ e) (hdate : d.date = e.date) : d.hour ≤ e.hour := by
  have hcases := le_cases h
  rw [date_eq_iff] at hdate
  rw [cons_le_cons_iff] at hcases
  omega

/-- No two days have one number. -/
theorem date_eq_of_ordinal_eq (h : d ≤ e) (hordinal : d.ordinal = e.ordinal) : d.date = e.date := by
  rw [date_eq_iff]
  rcases le_cases h with hyear | ⟨hyear, hmonth | ⟨hmonth, hday | hday⟩⟩
  · have hmono := daysBeforeYear_mono (y := d.year + 1) (by omega) hyear
    have hd := d.ordinal_bounds.2
    have he := e.ordinal_bounds.1
    omega
  · have hmono : daysBeforeMonth e.year (d.month + 1) ≤ daysBeforeMonth e.year e.month :=
      daysBeforeMonth_mono (by omega) hmonth
    rw [daysBeforeMonth_succ d.month_bounds.1] at hmono
    have hdDay := d.day_bounds.2
    have heDay := e.day_bounds.1
    unfold ordinal at hordinal
    rw [hyear] at hdDay hordinal
    omega
  · unfold ordinal at hordinal
    rw [hyear, hmonth] at hordinal
    omega
  · exact ⟨hyear, hmonth, hday.1⟩

end DateTime

/-! ## The weeks -/

/-- The first Monday of an ISO year is near the first day of the year. -/
theorem isoWeek1Monday_bounds (year : Nat) :
    (isoWeek1Monday year + 6) % 7 = 0 ∧
      daysBeforeYear year + 1 ≤ isoWeek1Monday year + 3 ∧
      isoWeek1Monday year ≤ daysBeforeYear year + 4 := by
  unfold isoWeek1Monday
  dsimp only
  generalize daysBeforeYear year = n
  split_ifs <;> omega

theorem isoWeek1Monday_lt {y z : Nat} (hy : 1 ≤ y) (h : y < z) :
    isoWeek1Monday y < isoWeek1Monday z := by
  have hmono := daysBeforeYear_mono (y := y + 1) (by omega) h
  rw [daysBeforeYear_succ hy] at hmono
  obtain ⟨-, -, hyUpper⟩ := isoWeek1Monday_bounds y
  obtain ⟨-, hzLower, -⟩ := isoWeek1Monday_bounds z
  split at hmono <;> omega

namespace DateTime

variable {d e f : DateTime}

/-- The Monday of the week. -/
def monday (d : DateTime) : Nat := d.ordinal - d.weekday

theorem monday_le (h : d ≤ e) : d.monday ≤ e.monday := by
  have hordinal := ordinal_le h
  have hpos := d.ordinal_bounds.1
  unfold monday weekday
  omega

/-- A date is in its ISO year, and its week counts from the first Monday. -/
theorem isoCalendar_spec (d : DateTime) :
    1 ≤ d.isoCalendar.1 ∧ isoWeek1Monday d.isoCalendar.1 ≤ d.ordinal ∧
      d.ordinal < isoWeek1Monday (d.isoCalendar.1 + 1) ∧
      d.isoCalendar.2 = (d.ordinal - isoWeek1Monday d.isoCalendar.1) / 7 + 1 := by
  obtain ⟨hfirst, hlast⟩ := d.ordinal_bounds
  have hyear := d.year_bounds.1
  obtain ⟨-, hlower, hupper⟩ := isoWeek1Monday_bounds d.year
  obtain ⟨-, hnextLower, hnextUpper⟩ := isoWeek1Monday_bounds (d.year + 1)
  unfold isoCalendar
  dsimp only
  split_ifs with hbefore hafter
  · -- The last days of the ISO year before.
    have hne : d.year ≠ 1 := by
      intro hone
      rw [hone] at hbefore hfirst
      exact absurd hbefore (Nat.not_lt.mpr hfirst)
    obtain ⟨y, hy⟩ : ∃ y, d.year = y + 1 + 1 := ⟨d.year - 2, by omega⟩
    obtain ⟨-, -, hprevUpper⟩ := isoWeek1Monday_bounds (y + 1)
    have hsucc := daysBeforeYear_succ (show 1 ≤ y + 1 by omega)
    have hlong : daysBeforeYear (y + 1) + 365 ≤ daysBeforeYear (y + 1 + 1) := by
      rw [hsucc]
      split <;> omega
    rw [hy] at hfirst hbefore hlower hupper ⊢
    simp only [Nat.add_sub_cancel]
    exact ⟨by omega, by omega, hbefore, trivial⟩
  · have hnext := isoWeek1Monday_lt (y := d.year + 1) (by omega) (Nat.lt_succ_self _)
    obtain ⟨-, hnextLower', -⟩ := isoWeek1Monday_bounds (d.year + 1 + 1)
    have hsucc := daysBeforeYear_succ (show 1 ≤ d.year + 1 by omega)
    have hlong : daysBeforeYear (d.year + 1) + 365 ≤ daysBeforeYear (d.year + 1 + 1) := by
      rw [hsucc]
      split <;> omega
    dsimp only
    exact ⟨by omega, hafter.2, by omega, by omega⟩
  · have hmult : (isoWeek1Monday (d.year + 1) - isoWeek1Monday d.year) % 7 = 0 := by
      obtain ⟨hmod, -, -⟩ := isoWeek1Monday_bounds d.year
      obtain ⟨hmod', -, -⟩ := isoWeek1Monday_bounds (d.year + 1)
      omega
    have hlong : daysBeforeYear d.year + 365 ≤ daysBeforeYear (d.year + 1) := by
      rw [daysBeforeYear_succ hyear]
      split <;> omega
    dsimp only
    exact ⟨hyear, by omega, by omega, rfl⟩

/-- The year and the week tell the Monday. -/
theorem monday_eq (d : DateTime) :
    d.monday = isoWeek1Monday d.isoCalendar.1 + 7 * (d.isoCalendar.2 - 1) := by
  obtain ⟨-, hle, -, hweek⟩ := d.isoCalendar_spec
  obtain ⟨hmod, -, -⟩ := isoWeek1Monday_bounds d.isoCalendar.1
  rw [hweek, Nat.add_sub_cancel]
  unfold monday weekday
  omega

theorem isoCalendar_eq_iff : d.isoCalendar = e.isoCalendar ↔ d.monday = e.monday := by
  constructor
  · intro h
    rw [monday_eq, monday_eq, h]
  · intro h
    obtain ⟨hd, hdLower, hdUpper, hdWeek⟩ := d.isoCalendar_spec
    obtain ⟨he, heLower, heUpper, heWeek⟩ := e.isoCalendar_spec
    obtain ⟨hdNext, -, -⟩ := isoWeek1Monday_bounds (d.isoCalendar.1 + 1)
    obtain ⟨heNext, -, -⟩ := isoWeek1Monday_bounds (e.isoCalendar.1 + 1)
    obtain ⟨hdFirst, -, -⟩ := isoWeek1Monday_bounds d.isoCalendar.1
    obtain ⟨heFirst, -, -⟩ := isoWeek1Monday_bounds e.isoCalendar.1
    unfold monday weekday at h
    have hyear : d.isoCalendar.1 = e.isoCalendar.1 := by
      rcases Nat.lt_trichotomy d.isoCalendar.1 e.isoCalendar.1 with hlt | heq | hgt
      · have hle : isoWeek1Monday (d.isoCalendar.1 + 1) ≤ isoWeek1Monday e.isoCalendar.1 := by
          rcases Nat.eq_or_lt_of_le hlt with heq | hlt'
          · rw [← heq]
          · exact Nat.le_of_lt (isoWeek1Monday_lt (by omega) hlt')
        omega
      · exact heq
      · have hle : isoWeek1Monday (e.isoCalendar.1 + 1) ≤ isoWeek1Monday d.isoCalendar.1 := by
          rcases Nat.eq_or_lt_of_le hgt with heq | hlt'
          · rw [← heq]
          · exact Nat.le_of_lt (isoWeek1Monday_lt (by omega) hlt')
        omega
    apply Prod.ext hyear
    rw [hdWeek, heWeek, hyear]
    rw [hyear] at hdFirst hdLower
    omega

end DateTime

/-! ## The digits -/

/-- `n` in decimal, with zeros up to `width` digits. -/
def pad : Nat → Nat → Str
  | 0, _ => []
  | width + 1, n => pad width (n / 10) ++ [Nat.digitChar (n % 10)]

/-- `strftime("%Y%m%d-%H%M%S")` -/
def DateTime.stamp (d : DateTime) : Str :=
  pad 4 d.year ++ (pad 2 d.month ++ (pad 2 d.day ++ '-' ::
    (pad 2 d.hour ++ (pad 2 d.minute ++ pad 2 d.second))))

/-- `replace(microsecond=0)` -/
def DateTime.toSecond (d : DateTime) : DateTime :=
  { d with microsecond := 0, microsecond_lt := by omega }

/-- `datetime(year, month, day, hour, minute, second)`.  `none` where it raises
`ValueError`. -/
def DateTime.make? (year month day hour minute second : Nat) : Option DateTime :=
  if h : (1 ≤ year ∧ year ≤ 9999) ∧ (1 ≤ month ∧ month ≤ 12) ∧
      (1 ≤ day ∧ day ≤ daysInMonth year month) ∧ hour < 24 ∧ minute < 60 ∧ second < 60 then
    some
      { year := year, month := month, day := day, hour := hour, minute := minute, second := second
        microsecond := 0
        year_bounds := h.1
        month_bounds := h.2.1
        day_bounds := h.2.2.1
        hour_lt := h.2.2.2.1
        minute_lt := h.2.2.2.2.1
        second_lt := h.2.2.2.2.2
        microsecond_lt := by omega }
  else none

/-- The value of two digits. -/
def twoDigits (c d : Char) : Nat := (decimal? c).getD 0 * 10 + (decimal? d).getD 0

/-- `strptime(s, "%Y%m%d%H%M%S")` of a text of digits.  The patterns of the
fields ask for ASCII digits, but not in all of their last places. -/
def strptime : Str → Option DateTime
  | [y₁, y₂, y₃, y₄, m₁, m₂, d₁, d₂, h₁, h₂, n₁, n₂, s₁, s₂] =>
      if isAsciiDigit m₁ && isAsciiDigit m₂ && isAsciiDigit d₁ && (isAsciiDigit d₂ || d₁ = '1' || d₁ = '2') &&
          isAsciiDigit h₁ && (isAsciiDigit h₂ || h₁ ≤ '1') && isAsciiDigit n₁ && isAsciiDigit s₁ then
        DateTime.make? (twoDigits y₁ y₂ * 100 + twoDigits y₃ y₄) (twoDigits m₁ m₂)
          (twoDigits d₁ d₂) (twoDigits h₁ h₂) (twoDigits n₁ n₂) (twoDigits s₁ s₂)
      else none
  | _ => none

theorem length_pad {width n : Nat} : (pad width n).length = width := by
  induction width generalizing n with
  | zero => rfl
  | succ width ih => simp [pad, ih]

theorem digitChar_lt {m n : Nat} (hm : m < n) (hn : n < 10) : Nat.digitChar m < Nat.digitChar n := by
  interval_cases n <;> interval_cases m <;> decide

/-- Texts of one length are compared first. -/
theorem append_lt {s t u v : Str} (hlength : s.length = t.length) :
    s ++ u < t ++ v ↔ s < t ∨ s = t ∧ u < v := by
  induction s generalizing t with
  | nil =>
    obtain rfl : t = [] := List.length_eq_zero_iff.mp hlength.symm
    simp
  | cons c s ih =>
    cases t with
    | nil => simp at hlength
    | cons c' t =>
      rw [List.cons_append, List.cons_append, List.cons_lt_cons_iff, List.cons_lt_cons_iff,
        ih (Nat.succ.inj hlength), List.cons.injEq]
      constructor
      · intro h
        rcases h with h | ⟨h, h' | h'⟩
        · exact .inl (.inl h)
        · exact .inl (.inr ⟨h, h'⟩)
        · exact .inr ⟨⟨h, h'.1⟩, h'.2⟩
      · intro h
        rcases h with (h | h) | h
        · exact .inl h
        · exact .inr ⟨h.1, .inl h.2⟩
        · exact .inr ⟨h.1.1, .inr ⟨h.1.2, h.2⟩⟩

theorem pad_lt {width m n : Nat} (hn : n < 10 ^ width) (h : m < n) : pad width m < pad width n := by
  induction width generalizing m n with
  | zero =>
    rw [Nat.pow_zero] at hn
    omega
  | succ width ih =>
    rw [Nat.pow_succ] at hn
    unfold pad
    rw [append_lt (by rw [length_pad, length_pad])]
    by_cases htens : m / 10 = n / 10
    · refine .inr ⟨by rw [htens], ?_⟩
      rw [List.cons_lt_cons_iff]
      exact .inl (digitChar_lt (by omega) (Nat.mod_lt _ (by omega)))
    · exact .inl (ih (by omega) (by omega))

theorem pad_inj {width m n : Nat} (hm : m < 10 ^ width) (hn : n < 10 ^ width)
    (h : pad width m = pad width n) : m = n := by
  rcases Nat.lt_trichotomy m n with hlt | heq | hgt
  · exact absurd (pad_lt hn hlt) (by rw [h]; exact lt_irrefl _)
  · exact heq
  · exact absurd (pad_lt hm hgt) (by rw [h]; exact lt_irrefl _)

theorem DateTime.toSecond_le {d : DateTime} : d.toSecond ≤ d := by
  rw [le_iff_fields, fields, fields]
  simp only [toSecond, cons_le_cons_iff, lt_irrefl, false_or, true_and, le_refl, and_true]
  omega

theorem DateTime.toSecond_mono {d e : DateTime} (h : d ≤ e) : d.toSecond ≤ e.toSecond := by
  rw [le_iff_fields, fields, fields] at h ⊢
  simp only [toSecond, cons_le_cons_iff, le_refl, and_true] at h ⊢
  omega

/-- Two numbers of one width, each with a text after it. -/
theorem pad_append_lt {width m n : Nat} {s t : Str} (hn : n < 10 ^ width)
    (h : m < n ∨ m = n ∧ s < t) : pad width m ++ s < pad width n ++ t := by
  rw [append_lt (by rw [length_pad, length_pad])]
  rcases h with hlt | ⟨heq, hst⟩
  · exact .inl (pad_lt hn hlt)
  · exact .inr ⟨by rw [heq], hst⟩

theorem DateTime.day_le (d : DateTime) : d.day ≤ 31 := by
  have hle := d.day_bounds.2
  unfold daysInMonth at hle
  split_ifs at hle <;> omega

/-- The texts are in the order of the times, down to the second. -/
theorem DateTime.stamp_lt {d e : DateTime} (h : d.toSecond < e.toSecond) : d.stamp < e.stamp := by
  have hyear := e.year_bounds.2
  have hmonth := e.month_bounds.2
  have hday := e.day_le
  have hhour := e.hour_lt
  have hminute := e.minute_lt
  have hsecond := e.second_lt
  rw [lt_iff_fields] at h
  simp only [fields, toSecond, List.cons_lt_cons_iff, lt_irrefl, and_false, or_false] at h
  unfold stamp
  refine pad_append_lt (by omega) (h.imp_right fun h => ⟨h.1, ?_⟩)
  replace h := h.2
  refine pad_append_lt (by omega) (h.imp_right fun h => ⟨h.1, ?_⟩)
  replace h := h.2
  refine pad_append_lt (by omega) (h.imp_right fun h => ⟨h.1, ?_⟩)
  replace h := h.2
  rw [List.cons_lt_cons_iff]
  refine .inr ⟨rfl, ?_⟩
  refine pad_append_lt (by omega) (h.imp_right fun h => ⟨h.1, ?_⟩)
  replace h := h.2
  refine pad_append_lt (by omega) (h.imp_right fun h => ⟨h.1, ?_⟩)
  exact pad_lt (by omega) h.2

theorem decimal?_digitChar {n : Nat} (h : n < 10) : decimal? (Nat.digitChar n) = some n := by
  interval_cases n <;> rfl

theorem isAsciiDigit_digitChar {n : Nat} (h : n < 10) : isAsciiDigit (Nat.digitChar n) = true := by
  interval_cases n <;> rfl

theorem pad_two (n : Nat) :
    pad 2 n = [Nat.digitChar (n / 10 % 10), Nat.digitChar (n % 10)] := rfl

theorem pad_four (n : Nat) : pad 4 n = [Nat.digitChar (n / 10 / 10 / 10 % 10),
    Nat.digitChar (n / 10 / 10 % 10), Nat.digitChar (n / 10 % 10), Nat.digitChar (n % 10)] := rfl

theorem twoDigits_digitChar {m n : Nat} (hm : m < 10) (hn : n < 10) :
    twoDigits (Nat.digitChar m) (Nat.digitChar n) = m * 10 + n := by
  rw [twoDigits, decimal?_digitChar hm, decimal?_digitChar hn]
  rfl

theorem DateTime.make?_fields (d : DateTime) :
    make? d.year d.month d.day d.hour d.minute d.second = some d.toSecond := by
  unfold make?
  rw [dif_pos ⟨d.year_bounds, d.month_bounds, d.day_bounds, d.hour_lt, d.minute_lt, d.second_lt⟩]
  rfl

/-- A time is read back from its digits, down to the second. -/
theorem DateTime.strptime_digits (d : DateTime) :
    strptime ((pad 4 d.year ++ (pad 2 d.month ++ pad 2 d.day)) ++
      (pad 2 d.hour ++ (pad 2 d.minute ++ pad 2 d.second))) = some d.toSecond := by
  have hmod : ∀ n, n % 10 < 10 := fun n => Nat.mod_lt n (by omega)
  have hyear := d.year_bounds.2
  have hmonth := d.month_bounds.2
  have hday := d.day_le
  have hhour := d.hour_lt
  have hminute := d.minute_lt
  have hsecond := d.second_lt
  rw [← d.make?_fields]
  simp only [pad_two, pad_four, List.cons_append, List.nil_append, strptime,
    isAsciiDigit_digitChar (hmod _), Bool.true_or, Bool.and_self, if_true,
    twoDigits_digitChar (hmod _) (hmod _)]
  congr 1 <;> omega

end Calendar
