import LearnMuduo.Base.ConvertFormat
import LearnMuduo.Framework.Calendar

/-!
# Dates

`Date` keeps the Julian day number of a day. The conversions are made with `int` arithmetic that
truncates; every operation of it is checked for overflow. The days are those of the calendar from
-4800-03-01 on, as long as the arithmetic holds them.
-/

namespace LearnMuduo

open Framework

/-- The result of an operation on `int`. -/
def int (x : Int) : Checked Int := do
  Checked.assert (IntegerType.int.Holds x)
  pure x

def getJulianDayNumber (year month day : Int) : Checked Int := do
  let a ← int ((← int (14 - month)).tdiv 12)
  let y ← int ((← int (year + 4800)) - a)
  let m ← int ((← int (month + (← int (12 * a)))) - 3)
  let sum ← int (day + (← int ((← int ((← int (153 * m)) + 2)).tdiv 5)))
  let sum ← int (sum + (← int (y * 365)))
  let sum ← int (sum + y.tdiv 4)
  let sum ← int (sum - y.tdiv 100)
  let sum ← int (sum + y.tdiv 400)
  int (sum - 32045)

structure YearMonthDay where
  year : Int
  month : Int
  day : Int
  deriving DecidableEq, Repr

def getYearMonthDay (julianDayNumber : Int) : Checked YearMonthDay := do
  let a ← int (julianDayNumber + 32044)
  let b ← int ((← int ((← int (4 * a)) + 3)).tdiv 146097)
  let c ← int (a - (← int (b * 146097)).tdiv 4)
  let d ← int ((← int ((← int (4 * c)) + 3)).tdiv 1461)
  let e ← int (c - (← int (1461 * d)).tdiv 4)
  let m ← int ((← int ((← int (5 * e)) + 2)).tdiv 153)
  let day ← int ((← int (e - (← int ((← int (153 * m)) + 2)).tdiv 5)) + 1)
  let month ← int ((← int (m + 3)) - (← int (12 * m.tdiv 10)))
  let year ← int ((← int ((← int ((← int (b * 100)) + d)) - 4800)) + m.tdiv 10)
  pure ⟨year, month, day⟩

structure Date where
  julianDayNumber : Int
  deriving DecidableEq, Repr

namespace Date

/-- `Date(int year, int month, int day)` -/
def create (year month day : Int) : Checked Date := do
  let n ← getJulianDayNumber year month day
  pure ⟨n⟩

def valid (date : Date) : Bool := 0 < date.julianDayNumber

def yearMonthDay (date : Date) : Checked YearMonthDay := getYearMonthDay date.julianDayNumber

def kDaysPerWeek : Int := 7

def weekDay (date : Date) : Checked Int := do
  let n ← int (date.julianDayNumber + 1)
  pure (n.tmod kDaysPerWeek)

def kJulianDayOf1970_01_01 : Int := (getJulianDayNumber 1970 1 1).val

/-- `operator<` -/
def less (x y : Date) : Bool := x.julianDayNumber < y.julianDayNumber

end Date

@[simp] theorem val_int (x : Int) : (int x).val = x := rfl

@[simp] theorem ok_int (x : Int) :
    (int x).ok = true ↔ -2147483648 ≤ x ∧ x ≤ 2147483647 := by
  change (decide (IntegerType.int.Holds x) && true) = true ↔ _
  rw [Bool.and_true, decide_eq_true_iff]
  exact Iff.rfl

theorem int_eq_pure {x : Int} (hlow : -2147483648 ≤ x) (hhigh : x ≤ 2147483647) :
    int x = pure x :=
  Checked.ext rfl ((ok_int x).mpr ⟨hlow, hhigh⟩)

/-- The Julian day number of a day of the calendar. -/
def julianDay (d : CivilDate) : Int := d.dayNumber + 1721425

def civilOfJulianDay (n : Int) : CivilDate := CivilDate.ofDayNumber (n - 1721425)

def YearMonthDay.ofCivil (d : CivilDate) : YearMonthDay := ⟨d.year, d.month, d.day⟩

theorem julianDay_civilOfJulianDay (n : Int) : julianDay (civilOfJulianDay n) = n := by
  rw [julianDay, civilOfJulianDay, CivilDate.dayNumber_ofDayNumber]
  omega

/-- The days from -4800-03-01 on whose numbers `getYearMonthDay` can multiply by four. -/
def InDayRange (n : Int) : Prop := -32044 ≤ n ∧ n ≤ 536838867

instance (n : Int) : Decidable (InDayRange n) := inferInstanceAs (Decidable (_ ∧ _))

def firstCivilDate : CivilDate := ⟨-4800, 3, 1, by decide, by decide⟩

theorem InDayRange.marchYear {d : CivilDate} (h : InDayRange (julianDay d)) :
    (-4800 < d.year ∨ d.year = -4800 ∧ 2 < d.month) ∧ d.year ≤ 1465102 := by
  rcases h with ⟨hlow, hhigh⟩
  constructor
  · have hfirst : firstCivilDate.dayNumber = -1753469 := by decide
    have hbefore : ¬ d.Before firstCivilDate := by
      rw [← CivilDate.dayNumber_lt_iff, hfirst]
      rw [julianDay] at hlow
      omega
    change ¬ (d.year < -4800 ∨ d.year = -4800 ∧ (d.month < 3 ∨ d.month = 3 ∧ d.day < 1)) at hbefore
    omega
  · have hbounds := d.dayNumber_bounds
    rw [daysBeforeYear, julianDay] at *
    omega

theorem getJulianDayNumber_eq {d : CivilDate} (h : InDayRange (julianDay d)) :
    getJulianDayNumber d.year d.month d.day = pure (julianDay d) := by
  have hmonth := d.month_range
  have hday := d.day_range
  have hlength := daysInMonth_le d.year d.month
  have hyear := h.marchYear
  have ha : (14 - d.month).tdiv 12 = if d.month ≤ 2 then 1 else 0 := by
    rw [Int.tdiv_eq_ediv_of_nonneg (by omega)]
    split <;> omega
  obtain ⟨y, m, hym⟩ : ∃ y m, d.month ≤ 2 ∧ y = d.year - 1 ∧ m = d.month + 9 ∨
      2 < d.month ∧ y = d.year ∧ m = d.month - 3 := by
    by_cases hle : d.month ≤ 2
    · exact ⟨_, _, Or.inl ⟨hle, rfl, rfl⟩⟩
    · exact ⟨_, _, Or.inr ⟨by omega, rfl, rfl⟩⟩
  have hy : d.year + 4800 - (14 - d.month).tdiv 12 = y + 4800 := by
    rw [ha]
    split <;> omega
  have hm : d.month + 12 * (14 - d.month).tdiv 12 - 3 = m := by
    rw [ha]
    split <;> omega
  have hnumber := CivilDate.dayNumber_eq d hym
  have hdiv : ∀ {k : Int}, (y + 4800).tdiv k = (y + 4800) / k :=
    Int.tdiv_eq_ediv_of_nonneg (by omega)
  have hmdiv : (153 * m + 2).tdiv 5 = (153 * m + 2) / 5 :=
    Int.tdiv_eq_ediv_of_nonneg (by omega)
  apply Checked.ext
  · simp only [getJulianDayNumber, Checked.val_bind, val_int, Checked.val_pure, hy, hm, hdiv, hmdiv,
      julianDay, hnumber]
    omega
  · simp only [getJulianDayNumber, Checked.ok_bind, val_int, Checked.ok_pure, Bool.and_eq_true,
      ok_int, hy, hm, hdiv, hmdiv]
    have ha' : 0 ≤ (14 - d.month).tdiv 12 ∧ (14 - d.month).tdiv 12 ≤ 1 := by
      rw [ha]
      split <;> omega
    omega

theorem civilOfJulianDay_fields {n b d m k : Int}
    (h : MarchDate.ofDays (n + 32044) = ⟨b, d, m, k⟩) :
    YearMonthDay.ofCivil (civilOfJulianDay n) =
      ⟨100 * b + d - 4800 + m / 10, m + 3 - 12 * (m / 10), k + 1⟩ := by
  have hdays : n + 32044 = n - 1721425 + 305 + 146097 * 12 := by omega
  rw [hdays, MarchDate.ofDays_add_cycles, MarchDate.mk.injEq] at h
  rcases h with ⟨hb, hd, hm, hk⟩
  simp only [YearMonthDay.ofCivil, civilOfJulianDay, CivilDate.ofDayNumber, MarchDate.toCivil,
    MarchDate.civilYear, MarchDate.civilMonth, MarchDate.year, YearMonthDay.mk.injEq, hd, hm, hk,
    and_true]
  omega

theorem getYearMonthDay_eq {n : Int} (h : InDayRange n) :
    getYearMonthDay n = pure (YearMonthDay.ofCivil (civilOfJulianDay n)) := by
  rcases h with ⟨hlow, hhigh⟩
  rcases hd : MarchDate.ofDays (n + 32044) with ⟨b, d, m, k⟩
  rw [civilOfJulianDay_fields hd]
  simp only [MarchDate.ofDays, MarchDate.mk.injEq] at hd
  obtain ⟨hb, hd, hm, hk⟩ := hd
  rw [hb] at hd hm hk
  rw [hd] at hm hk
  rw [hm] at hk
  generalize hr : n + 32044 - 146097 * b / 4 = r at hd hm hk
  generalize he : r - 1461 * d / 4 = e at hm hk
  rcases MarchDate.century_split (n + 32044) hb.symm hr.symm with ⟨hrange, _, hdays⟩
  rcases MarchDate.year_split hd.symm he.symm hrange with ⟨hyears, hyear, _, _⟩
  rcases MarchDate.month_split hm.symm hyear with ⟨hmonths, hfirst, _⟩
  have hb' : (4 * (n + 32044) + 3).tdiv 146097 = b := by
    rw [Int.tdiv_eq_ediv_of_nonneg (by omega), hb]
  have hr' : n + 32044 - (b * 146097).tdiv 4 = r := by
    rw [Int.tdiv_eq_ediv_of_nonneg (by omega), Int.mul_comm, hr]
  have hd' : (4 * r + 3).tdiv 1461 = d := by
    rw [Int.tdiv_eq_ediv_of_nonneg (by omega), hd]
  have he' : r - (1461 * d).tdiv 4 = e := by
    rw [Int.tdiv_eq_ediv_of_nonneg (by omega), he]
  have hm' : (5 * e + 2).tdiv 153 = m := by
    rw [Int.tdiv_eq_ediv_of_nonneg (by omega), hm]
  have hk' : e - (153 * m + 2).tdiv 5 = k := by
    rw [Int.tdiv_eq_ediv_of_nonneg (by omega), hk]
  have hten : m.tdiv 10 = m / 10 := Int.tdiv_eq_ediv_of_nonneg hmonths.1
  apply Checked.ext
  · simp only [getYearMonthDay, Checked.val_bind, val_int, Checked.val_pure, hb', hr', hd', he',
      hm', hk', hten, YearMonthDay.mk.injEq, and_true]
    omega
  · simp only [getYearMonthDay, Checked.ok_bind, val_int, Checked.ok_pure, Bool.and_eq_true, ok_int,
      hb', hr', hd', he', hm', hk', hten, and_true]
    omega

namespace Date

theorem create_eq {d : CivilDate} (h : InDayRange (julianDay d)) :
    create d.year d.month d.day = pure ⟨julianDay d⟩ := by
  rw [create, getJulianDayNumber_eq h]
  rfl

theorem weekDay_eq_tmod {n : Int} (h : InDayRange n) : weekDay ⟨n⟩ = pure ((n + 1).tmod 7) := by
  rcases h with ⟨hlow, hhigh⟩
  rw [weekDay, int_eq_pure]
  · rfl
  · change -2147483648 ≤ n + 1
    omega
  · change n + 1 ≤ 2147483647
    omega

end Date

end LearnMuduo
