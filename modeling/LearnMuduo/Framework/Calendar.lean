import Mathlib.Tactic.IntervalCases
import Mathlib.Data.List.GetD

/-!
# The Gregorian calendar

Years, months and days of the Gregorian calendar, extended to all years, and the numbers of the
days: 0001-01-01 is day 1, and each day has the number after that of the day before. Days are
counted from the lengths of the years and months; `ofDayNumber` computes the date of a day in years
that begin in March, so that the leap day is the last of its year.
-/

namespace Framework

def IsLeapYear (y : Int) : Prop := y % 4 = 0 ∧ (y % 100 = 0 → y % 400 = 0)

instance (y : Int) : Decidable (IsLeapYear y) := inferInstanceAs (Decidable (_ ∧ _))

def daysInMonth (y m : Int) : Int :=
  if m = 2 then if IsLeapYear y then 29 else 28
  else if m = 4 ∨ m = 6 ∨ m = 9 ∨ m = 11 then 30 else 31

def daysInYear (y : Int) : Int := if IsLeapYear y then 366 else 365

@[ext]
structure CivilDate where
  year : Int
  month : Int
  day : Int
  month_range : 1 ≤ month ∧ month ≤ 12
  day_range : 1 ≤ day ∧ day ≤ daysInMonth year month
  deriving DecidableEq

/-- The days from 0001-01-01 to the first day of the year. -/
def daysBeforeYear (y : Int) : Int := 365 * (y - 1) + (y - 1) / 4 - (y - 1) / 100 + (y - 1) / 400

/-- The days of a year in the months before `m`. -/
def daysBeforeMonth (y m : Int) : Int :=
  ((List.range (m - 1).toNat).map fun k : Nat => daysInMonth y (k + 1)).sum

theorem one_le_daysInMonth (y m : Int) : 1 ≤ daysInMonth y m := by
  rw [daysInMonth]
  repeat' split
  all_goals decide

theorem daysInMonth_le (y m : Int) : daysInMonth y m ≤ 31 := by
  rw [daysInMonth]
  repeat' split
  all_goals decide

theorem daysBeforeYear_succ (y : Int) :
    daysBeforeYear (y + 1) = daysBeforeYear y + daysInYear y := by
  simp only [daysBeforeYear, daysInYear]
  by_cases hleap : IsLeapYear y
  · rw [if_pos hleap]
    rw [IsLeapYear] at hleap
    omega
  · rw [if_neg hleap]
    rw [IsLeapYear] at hleap
    omega

theorem daysBeforeMonth_succ (y : Int) {m : Int} (hm : 1 ≤ m) :
    daysBeforeMonth y (m + 1) = daysBeforeMonth y m + daysInMonth y m := by
  have hcount : (m + 1 - 1).toNat = (m - 1).toNat + 1 := by omega
  have hlast : ((m - 1).toNat : Int) + 1 = m := by omega
  rw [daysBeforeMonth, daysBeforeMonth, hcount, List.range_succ, List.map_append, List.sum_append]
  simp only [List.map_cons, List.map_nil, List.sum_singleton, hlast]

/-- The days before a month. From March on they follow the pattern of the months of 31 and of 30
days, which the months of a year that begins in March have without a gap. -/
theorem daysBeforeMonth_eq (y : Int) {m : Int} (hm : 1 ≤ m ∧ m ≤ 12) :
    daysBeforeMonth y m =
      if m ≤ 2 then 31 * (m - 1) else daysInYear y - 306 + (153 * (m - 3) + 2) / 5 := by
  rcases hm with ⟨hlow, hhigh⟩
  induction m, hlow using Int.leInduction with
  | base => rfl
  | succ m hlow ih =>
      rw [daysBeforeMonth_succ y hlow, ih (by omega), daysInMonth, daysInYear]
      have hcases : m = 1 ∨ m = 2 ∨ m = 3 ∨ m = 4 ∨ m = 5 ∨ m = 6 ∨ m = 7 ∨ m = 8 ∨ m = 9 ∨
          m = 10 ∨ m = 11 := by
        omega
      by_cases hleap : IsLeapYear y
      · rw [if_pos hleap, if_pos hleap]
        rcases hcases with rfl | rfl | rfl | rfl | rfl | rfl | rfl | rfl | rfl | rfl | rfl <;> rfl
      · rw [if_neg hleap, if_neg hleap]
        rcases hcases with rfl | rfl | rfl | rfl | rfl | rfl | rfl | rfl | rfl | rfl | rfl <;> rfl

theorem daysBeforeMonth_lt (y : Int) {m n : Int} (hm : 1 ≤ m) (hlt : m < n) :
    daysBeforeMonth y m + daysInMonth y m ≤ daysBeforeMonth y n := by
  have hle : m + 1 ≤ n := hlt
  induction n, hle using Int.leInduction with
  | base => exact (daysBeforeMonth_succ y hm).ge
  | succ n hle ih =>
      have hpos := one_le_daysInMonth y n
      have hn := ih (by omega)
      rw [daysBeforeMonth_succ y (by omega)]
      omega

theorem daysBeforeMonth_thirteen (y : Int) : daysBeforeMonth y 13 = daysInYear y := by
  have htwelve := daysBeforeMonth_eq y (m := 12) (by decide)
  rw [if_neg (by decide)] at htwelve
  change daysBeforeMonth y 12 = daysInYear y - 306 + 275 at htwelve
  have hlast : daysInMonth y 12 = 31 := rfl
  have hsucc := daysBeforeMonth_succ y (m := 12) (by decide)
  change daysBeforeMonth y 13 = _ at hsucc
  omega

theorem january_range : (1 : Int) ≤ 1 ∧ (1 : Int) ≤ 12 := by
  decide

namespace CivilDate

/-- The day after. -/
def next (d : CivilDate) : CivilDate :=
  if hday : d.day < daysInMonth d.year d.month then
    { d with
      day := d.day + 1
      day_range := ⟨by have := d.day_range; omega, by omega⟩ }
  else if hmonth : d.month < 12 then
    { year := d.year
      month := d.month + 1
      day := 1
      month_range := ⟨by have := d.month_range; omega, by omega⟩
      day_range := ⟨le_refl 1, one_le_daysInMonth _ _⟩ }
  else
    { year := d.year + 1
      month := 1
      day := 1
      month_range := january_range
      day_range := ⟨le_refl 1, one_le_daysInMonth _ _⟩ }

def dayNumber (d : CivilDate) : Int :=
  daysBeforeYear d.year + daysBeforeMonth d.year d.month + d.day

/-- `d` is earlier than `e`. -/
def Before (d e : CivilDate) : Prop :=
  d.year < e.year ∨ d.year = e.year ∧ (d.month < e.month ∨ d.month = e.month ∧ d.day < e.day)

instance (d e : CivilDate) : Decidable (d.Before e) := inferInstanceAs (Decidable (_ ∨ _))

theorem eq_or_before (d e : CivilDate) : d = e ∨ d.Before e ∨ e.Before d := by
  rw [CivilDate.ext_iff, Before, Before]
  omega

theorem dayNumber_bounds (d : CivilDate) :
    daysBeforeYear d.year < d.dayNumber ∧ d.dayNumber ≤ daysBeforeYear (d.year + 1) := by
  have hmonth := d.month_range
  have hday := d.day_range
  rw [daysBeforeYear_succ, dayNumber]
  constructor
  · have hfirst : daysBeforeMonth d.year 1 = 0 := rfl
    rcases hmonth.1.eq_or_lt with hone | hlater
    · rw [← hone, hfirst]
      omega
    · have hbefore := daysBeforeMonth_lt d.year (le_refl 1) hlater
      have hpos := one_le_daysInMonth d.year 1
      omega
  · have hafter := daysBeforeMonth_lt d.year hmonth.1 (show d.month < 13 by omega)
    rw [daysBeforeMonth_thirteen] at hafter
    omega

theorem daysBeforeYear_mono {y z : Int} (h : y ≤ z) : daysBeforeYear y ≤ daysBeforeYear z := by
  rw [daysBeforeYear, daysBeforeYear]
  omega

theorem Before.dayNumber_lt {d e : CivilDate} (h : d.Before e) : d.dayNumber < e.dayNumber := by
  rcases h with hyear | ⟨hyear, hmonth | ⟨hmonth, hday⟩⟩
  · have hle : daysBeforeYear (d.year + 1) ≤ daysBeforeYear e.year := daysBeforeYear_mono hyear
    have hd := d.dayNumber_bounds
    have he := e.dayNumber_bounds
    omega
  · have hlt := daysBeforeMonth_lt d.year d.month_range.1 hmonth
    have hd := d.day_range
    have he := e.day_range
    rw [dayNumber, dayNumber, ← hyear]
    omega
  · rw [dayNumber, dayNumber, hyear, hmonth]
    omega

theorem dayNumber_lt_iff {d e : CivilDate} : d.dayNumber < e.dayNumber ↔ d.Before e := by
  constructor
  · intro hlt
    rcases eq_or_before d e with heq | hbefore | hafter
    · rw [heq] at hlt
      omega
    · exact hbefore
    · have := hafter.dayNumber_lt
      omega
  · exact Before.dayNumber_lt

theorem dayNumber_injective {d e : CivilDate} (h : d.dayNumber = e.dayNumber) : d = e := by
  rcases eq_or_before d e with heq | hbefore | hafter
  · exact heq
  · have := hbefore.dayNumber_lt
    omega
  · have := hafter.dayNumber_lt
    omega

/-- The number of a day from the year that begins in March: `y` is that year and `m` the month in
it, March being 0. -/
theorem dayNumber_eq (d : CivilDate) {y m : Int}
    (h : d.month ≤ 2 ∧ y = d.year - 1 ∧ m = d.month + 9 ∨
      2 < d.month ∧ y = d.year ∧ m = d.month - 3) :
    d.dayNumber = d.day + (153 * m + 2) / 5 + 365 * y + y / 4 - y / 100 + y / 400 - 306 := by
  have hmonth := d.month_range
  rw [dayNumber, daysBeforeMonth_eq d.year hmonth]
  rcases h with ⟨hle, rfl, rfl⟩ | ⟨hlt, rfl, rfl⟩
  · rw [if_pos hle, daysBeforeYear]
    have hcases : d.month = 1 ∨ d.month = 2 := by omega
    rcases hcases with hm | hm <;> rw [hm] <;> omega
  · have hsucc := daysBeforeYear_succ d.year
    have hyear : daysBeforeYear (d.year + 1) =
        365 * d.year + d.year / 4 - d.year / 100 + d.year / 400 := by
      rw [daysBeforeYear, add_sub_cancel_right]
    rw [if_neg (by omega)]
    omega

end CivilDate

/-- A day in years that begin in March: the century (of the 400 year cycle's four, the last is a day
longer), the year in it, the month and the day of the month, from 0. -/
structure MarchDate where
  century : Int
  yearOfCentury : Int
  month : Int
  day : Int
  deriving DecidableEq, Repr

namespace MarchDate

/-- `a` are the days from the beginning of a century. -/
def ofDays (a : Int) : MarchDate :=
  let century := (4 * a + 3) / 146097
  let dayOfCentury := a - 146097 * century / 4
  let yearOfCentury := (4 * dayOfCentury + 3) / 1461
  let dayOfYear := dayOfCentury - 1461 * yearOfCentury / 4
  let month := (5 * dayOfYear + 2) / 153
  ⟨century, yearOfCentury, month, dayOfYear - (153 * month + 2) / 5⟩

def year (d : MarchDate) : Int := 100 * d.century + d.yearOfCentury

/-- The days that the fields stand for. -/
def days (d : MarchDate) : Int :=
  d.day + (153 * d.month + 2) / 5 + 365 * d.year + d.year / 4 - d.year / 100 + d.year / 400

/-- The year of the calendar, which begins with the month 10. -/
def civilYear (d : MarchDate) : Int := d.year + d.month / 10

def civilMonth (d : MarchDate) : Int := d.month + 3 - 12 * (d.month / 10)

structure InCalendar (d : MarchDate) : Prop where
  yearOfCentury : 0 ≤ d.yearOfCentury ∧ d.yearOfCentury ≤ 99
  month : 0 ≤ d.month ∧ d.month ≤ 11
  day : 0 ≤ d.day ∧ d.day + 1 ≤ daysInMonth d.civilYear d.civilMonth

/-- Days are centuries of 36524 days, every fourth with a day more, and a rest. -/
theorem century_split (a : Int) {c r : Int} (hc : c = (4 * a + 3) / 146097)
    (hr : r = a - 146097 * c / 4) :
    (0 ≤ r ∧ r ≤ 36524) ∧ (r = 36524 → c % 4 = 3) ∧ a = r + 36524 * c + c / 4 := by
  have hlength : 146097 * c / 4 = 36524 * c + c / 4 := by omega
  have hlow : 146097 * c ≤ 4 * a + 3 := by omega
  have hhigh : 4 * a + 3 < 146097 * c + 146097 := by omega
  clear hc
  omega

theorem year_split {r y e : Int} (hy : y = (4 * r + 3) / 1461) (he : e = r - 1461 * y / 4)
    (hr : 0 ≤ r ∧ r ≤ 36524) :
    (0 ≤ y ∧ y ≤ 99) ∧ (0 ≤ e ∧ e ≤ 365) ∧ (e = 365 → y % 4 = 3 ∧ (y = 99 → r = 36524)) ∧
      r = e + 365 * y + y / 4 := by
  have hlength : 1461 * y / 4 = 365 * y + y / 4 := by omega
  have hlow : 1461 * y ≤ 4 * r + 3 := by omega
  have hhigh : 4 * r + 3 < 1461 * y + 1461 := by omega
  clear hy
  omega

theorem month_split {e m : Int} (hm : m = (5 * e + 2) / 153) (he : 0 ≤ e ∧ e ≤ 365) :
    (0 ≤ m ∧ m ≤ 11) ∧ (153 * m + 2) / 5 ≤ e ∧ e < (153 * (m + 1) + 2) / 5 := by
  have hlow : 153 * m ≤ 5 * e + 2 := by omega
  have hhigh : 5 * e + 2 < 153 * m + 153 := by omega
  clear hm
  omega

theorem days_ofDays (a : Int) : (ofDays a).days = a := by
  simp only [days, year, ofDays]
  generalize hc : (4 * a + 3) / 146097 = c
  generalize hr : a - 146097 * c / 4 = r
  generalize hy : (4 * r + 3) / 1461 = y
  generalize he : r - 1461 * y / 4 = e
  rcases century_split a hc.symm hr.symm with ⟨hrange, _, hdays⟩
  rcases year_split hy.symm he.symm hrange with ⟨hyears, _, _, hrest⟩
  have hfour : (100 * c + y) / 4 = 25 * c + y / 4 := by omega
  have hhundred : (100 * c + y) / 100 = c := by omega
  have hcycle : (100 * c + y) / 400 = c / 4 := by omega
  rw [hfour, hhundred, hcycle]
  omega

theorem day_le_daysInMonth {y m k : Int} (hm : 0 ≤ m ∧ m ≤ 11)
    (hk : (153 * m + 2) / 5 + k < (153 * (m + 1) + 2) / 5)
    (hleap : (153 * m + 2) / 5 + k ≤ 364 ∨
      (153 * m + 2) / 5 + k = 365 ∧ IsLeapYear (y + m / 10)) :
    k + 1 ≤ daysInMonth (y + m / 10) (m + 3 - 12 * (m / 10)) := by
  rw [daysInMonth]
  by_cases hfebruary : m = 11
  · subst hfebruary
    rw [if_pos (by decide)]
    rcases hleap with hle | ⟨heq, hyear⟩
    · split <;> omega
    · rw [if_pos hyear]
      omega
  · rw [if_neg (by omega)]
    split <;> omega

theorem inCalendar_ofDays (a : Int) : (ofDays a).InCalendar := by
  rcases hd : ofDays a with ⟨c, y, m, k⟩
  simp only [ofDays, MarchDate.mk.injEq] at hd
  obtain ⟨hc, hy, hm, hk⟩ := hd
  rw [hc] at hy hm hk
  rw [hy] at hm hk
  rw [hm] at hk
  generalize hr : a - 146097 * c / 4 = r at hy hm hk
  generalize he : r - 1461 * y / 4 = e at hm hk
  rcases century_split a hc.symm hr.symm with ⟨hrange, hlong, _⟩
  rcases year_split hy.symm he.symm hrange with ⟨hyears, hdays, hleap, _⟩
  rcases month_split hm.symm hdays with ⟨hmonths, hfirst, hnext⟩
  refine ⟨hyears, hmonths, ?_, day_le_daysInMonth hmonths ?_ ?_⟩
  · change 0 ≤ k
    omega
  · change (153 * m + 2) / 5 + k < (153 * (m + 1) + 2) / 5
    omega
  · have hsum : (153 * m + 2) / 5 + k = e := by omega
    change (153 * m + 2) / 5 + k ≤ 364 ∨ (153 * m + 2) / 5 + k = 365 ∧
      IsLeapYear (100 * c + y + m / 10)
    rw [hsum]
    rcases hdays.2.eq_or_lt with hlast | hlt
    · right
      have hyear := hleap hlast
      rw [IsLeapYear]
      omega
    · left
      omega

theorem ofDays_add_cycles (a k : Int) :
    ofDays (a + 146097 * k) = { ofDays a with century := (ofDays a).century + 4 * k } := by
  have hcentury : (4 * (a + 146097 * k) + 3) / 146097 = (4 * a + 3) / 146097 + 4 * k := by omega
  have hrest : a + 146097 * k - 146097 * ((4 * a + 3) / 146097 + 4 * k) / 4 =
      a - 146097 * ((4 * a + 3) / 146097) / 4 := by
    omega
  simp only [ofDays, hcentury, hrest]

def toCivil (d : MarchDate) (h : d.InCalendar) : CivilDate where
  year := d.civilYear
  month := d.civilMonth
  day := d.day + 1
  month_range := by
    have hmonth := h.month
    rw [civilMonth]
    omega
  day_range := ⟨Int.le_add_of_nonneg_left h.day.1, h.day.2⟩

theorem dayNumber_toCivil {d : MarchDate} (h : d.InCalendar) :
    (d.toCivil h).dayNumber = d.days - 305 := by
  have hmonth := h.month
  rw [CivilDate.dayNumber_eq _ (y := d.year) (m := d.month), days]
  · change d.day + 1 + _ + _ + _ - _ + _ - _ = _
    omega
  · change d.civilMonth ≤ 2 ∧ d.year = d.civilYear - 1 ∧ d.month = d.civilMonth + 9 ∨
      2 < d.civilMonth ∧ d.year = d.civilYear ∧ d.month = d.civilMonth - 3
    rw [civilYear, civilMonth]
    omega

end MarchDate

namespace CivilDate

/-- The date of the day `n`; 0000-03-01 is the day -305. -/
def ofDayNumber (n : Int) : CivilDate :=
  (MarchDate.ofDays (n + 305)).toCivil (MarchDate.inCalendar_ofDays (n + 305))

theorem dayNumber_ofDayNumber (n : Int) : (ofDayNumber n).dayNumber = n := by
  rw [ofDayNumber, MarchDate.dayNumber_toCivil, MarchDate.days_ofDays]
  omega

theorem ofDayNumber_dayNumber (d : CivilDate) : ofDayNumber d.dayNumber = d :=
  dayNumber_injective (dayNumber_ofDayNumber _)

end CivilDate

end Framework
