import LearnMuduo.Base.Date
import LearnMuduo.Base.Logging

/-!
# UTC

`TimeZone::toUtcTime` and `fromUtcTime` convert between seconds since 1970 and a calendar time. The
division truncates, so that a time before 1970 is corrected by a day. `gmtime` and `timegm` are the
functions of the C library, given by the calendar.
-/

namespace LearnMuduo

open Framework

/-- `struct tm`; `zone` is the text at `tm_zone`. -/
structure BrokenDownTime extends Tm where
  wday : Int
  yday : Int
  isdst : Int
  gmtoff : Int
  zone : List Char
  deriving DecidableEq, Repr

/-- The result of an operation on `time_t`. -/
def long (x : Int) : Checked Int := do
  Checked.assert (IntegerType.long.Holds x)
  pure x

def kSecondsPerDay : Int := 24 * 60 * 60

/-- `gmtime_r` -/
def gmtime (t : Int) : Tm :=
  let d := CivilDate.ofDayNumber (t / kSecondsPerDay + 719163)
  let s := t % kSecondsPerDay
  ⟨d.year - 1900, d.month - 1, d.day, s / 3600, s / 60 % 60, s % 60⟩

/-- `tm_wday` of `gmtime_r`. -/
def gmtimeWday (t : Int) : Int := (t / kSecondsPerDay + 4) % 7

/-- `timegm`, which takes any months, days and seconds. -/
def timegm (tm : Tm) : Int :=
  let y := tm.year + 1900 + tm.mon / 12
  let m := tm.mon % 12 + 1
  (daysBeforeYear y + daysBeforeMonth y m + tm.mday - 719163) * kSecondsPerDay +
    tm.hour * 3600 + tm.min * 60 + tm.sec

/-- The argument is unsigned. -/
def fillHMS (seconds : Int) (utc : BrokenDownTime) : BrokenDownTime :=
  let minutes := seconds / 60
  { utc with sec := seconds % 60, min := minutes % 60, hour := minutes / 60 }

namespace TimeZone

/-- `if (seconds < 0)`: the day before. -/
def correctDay (seconds days : Int) : Checked (Int × Int) :=
  if seconds < 0 then do
    let seconds ← int (seconds + kSecondsPerDay)
    let days ← int (days - 1)
    pure (seconds, days)
  else pure (seconds, days)

/-- `if (yday)` -/
def dayOfYear (date : Date) (ymd : YearMonthDay) : Checked Int := do
  let startOfYear ← Date.create ymd.year 1 1
  int (date.julianDayNumber - startOfYear.julianDayNumber)

def toUtcTime (secondsSinceEpoch : Int) (yday : Bool) : Checked BrokenDownTime := do
  let (seconds, days) ← correctDay (wrapInt (secondsSinceEpoch.tmod kSecondsPerDay))
    (wrapInt (secondsSinceEpoch.tdiv kSecondsPerDay))
  let date : Date := ⟨← int (days + Date.kJulianDayOf1970_01_01)⟩
  let ymd ← date.yearMonthDay
  let year ← int (ymd.year - 1900)
  let mon ← int (ymd.month - 1)
  let wday ← date.weekDay
  let yday ← if yday then dayOfYear date ymd else pure 0
  pure (fillHMS seconds ⟨⟨year, mon, ymd.day, 0, 0, 0⟩, wday, yday, 0, 0, "GMT".toList⟩)

/-- `fromUtcTime(int year, int month, int day, int hour, int minute, int seconds)` -/
def fromUtcTimeOf (year month day hour minute seconds : Int) : Checked Int := do
  let date ← Date.create year month day
  let secondsInDay ← int ((← int ((← int (hour * 3600)) + (← int (minute * 60)))) + seconds)
  let days ← int (date.julianDayNumber - Date.kJulianDayOf1970_01_01)
  long ((← long (days * kSecondsPerDay)) + secondsInDay)

def fromUtcTime (utc : BrokenDownTime) : Checked Int := do
  fromUtcTimeOf (← int (utc.year + 1900)) (← int (utc.mon + 1)) utc.mday utc.hour utc.min utc.sec

end TimeZone

theorem kSecondsPerDay_eq : kSecondsPerDay = 86400 := rfl

theorem kJulianDayOf1970_01_01_eq : Date.kJulianDayOf1970_01_01 = 2440588 := by
  decide

@[simp] theorem val_long (x : Int) : (long x).val = x := rfl

theorem ok_long {x : Int} :
    (long x).ok = true ↔ -9223372036854775808 ≤ x ∧ x ≤ 9223372036854775807 := by
  change (decide (IntegerType.long.Holds x) && true) = true ↔ _
  rw [Bool.and_true, decide_eq_true_iff]
  exact Iff.rfl

/-- Truncated division of a negative number leaves a remainder that is not positive; unless it is
zero the day is one less. -/
theorem correctDay_eq {t : Int} (hlow : -2147483648 < t / kSecondsPerDay)
    (hhigh : t / kSecondsPerDay ≤ 2147483647) :
    TimeZone.correctDay (wrapInt (t.tmod kSecondsPerDay)) (wrapInt (t.tdiv kSecondsPerDay)) =
      pure (t % kSecondsPerDay, t / kSecondsPerDay) := by
  rw [TimeZone.correctDay]
  rw [kSecondsPerDay_eq] at *
  rcases Int.le_total 0 t with hnonneg | hneg
  · have hmod : t.tmod 86400 = t % 86400 := Int.tmod_eq_emod_of_nonneg hnonneg
    have hdiv : t.tdiv 86400 = t / 86400 := Int.tdiv_eq_ediv_of_nonneg hnonneg
    rw [hmod, hdiv, wrapInt_of_natAbs_lt (by omega), wrapInt_of_natAbs_lt (by omega),
      if_neg (by omega)]
  · have hmod : t.tmod 86400 = -((-t) % 86400) := by
      rw [← Int.tmod_eq_emod_of_nonneg (by omega), Int.neg_tmod, Int.neg_neg]
    have hdiv : t.tdiv 86400 = -((-t) / 86400) := by
      rw [← Int.tdiv_eq_ediv_of_nonneg (by omega), Int.neg_tdiv, Int.neg_neg]
    rw [hmod, hdiv, wrapInt_of_natAbs_lt (by omega), wrapInt_of_natAbs_lt (by omega)]
    split
    · rw [int_eq_pure (by omega) (by omega), Checked.pure_bind_eq,
        int_eq_pure (by omega) (by omega), Checked.pure_bind_eq]
      congr 2 <;> omega
    · congr 2 <;> omega

theorem timegm_gmtime (t : Int) : timegm (gmtime t) = t := by
  have hmonth := (CivilDate.ofDayNumber (t / kSecondsPerDay + 719163)).month_range
  have hnumber := CivilDate.dayNumber_ofDayNumber (t / kSecondsPerDay + 719163)
  simp only [timegm, gmtime]
  generalize CivilDate.ofDayNumber (t / kSecondsPerDay + 719163) = d at hmonth hnumber
  have hyear : d.year - 1900 + 1900 + (d.month - 1) / 12 = d.year := by omega
  have hmon : (d.month - 1) % 12 + 1 = d.month := by omega
  rw [CivilDate.dayNumber] at hnumber
  rw [hyear, hmon, hnumber, kSecondsPerDay]
  omega

/-- The Julian day number of the day of a time. -/
def dayOf (t : Int) : Int := t / kSecondsPerDay + 2440588

/-- From -4799-01-01 on. -/
def InUtcRange (t : Int) : Prop := -31738 ≤ dayOf t ∧ dayOf t ≤ 536838867

instance (t : Int) : Decidable (InUtcRange t) := inferInstanceAs (Decidable (_ ∧ _))

theorem InUtcRange.inDayRange {t : Int} (h : InUtcRange t) : InDayRange (dayOf t) :=
  ⟨by have := h.1; omega, h.2⟩

/-- The date of a time. -/
def dateOf (t : Int) : CivilDate := CivilDate.ofDayNumber (t / kSecondsPerDay + 719163)

theorem civilOfJulianDay_dayOf (t : Int) : civilOfJulianDay (dayOf t) = dateOf t := by
  rw [civilOfJulianDay, dayOf, dateOf]
  congr 1
  omega

theorem julianDay_dateOf (t : Int) : julianDay (dateOf t) = dayOf t := by
  rw [← civilOfJulianDay_dayOf, julianDay_civilOfJulianDay]

theorem InUtcRange.year {t : Int} (h : InUtcRange t) :
    -4799 ≤ (dateOf t).year ∧ (dateOf t).year ≤ 1465102 := by
  have hbounds := (dateOf t).dayNumber_bounds
  rw [InUtcRange, ← julianDay_dateOf, julianDay] at h
  rw [daysBeforeYear, daysBeforeYear] at hbounds
  omega

def firstOfYear (y : Int) : CivilDate :=
  ⟨y, 1, 1, january_range, le_refl 1, one_le_daysInMonth _ _⟩

namespace TimeZone

/-- What `toUtcTime` gives. -/
def utcTime (t : Int) (yday : Bool) : BrokenDownTime :=
  { gmtime t with
    wday := (dayOf t + 1).tmod 7
    yday := bif yday then (dateOf t).dayNumber - daysBeforeYear (dateOf t).year - 1 else 0
    isdst := 0
    gmtoff := 0
    zone := "GMT".toList }

theorem firstOfYear_eq (y : Int) : (firstOfYear y).dayNumber = daysBeforeYear y + 1 := by
  have hfirst : daysBeforeMonth y 1 = 0 := rfl
  change daysBeforeYear y + daysBeforeMonth y 1 + 1 = daysBeforeYear y + 1
  rw [hfirst]
  omega

theorem dayOfYear_eq {t : Int} (h : InUtcRange t) :
    dayOfYear ⟨dayOf t⟩ (YearMonthDay.ofCivil (dateOf t)) =
      pure ((dateOf t).dayNumber - daysBeforeYear (dateOf t).year - 1) := by
  have hdate := julianDay_dateOf t
  have hbounds := (dateOf t).dayNumber_bounds
  have hyear := h.year
  have hfirst := firstOfYear_eq (dateOf t).year
  have hrange := h.inDayRange
  rw [← hdate, InDayRange, julianDay] at hrange
  have hjan : InDayRange (julianDay (firstOfYear (dateOf t).year)) := by
    rw [InDayRange, julianDay, hfirst]
    rw [daysBeforeYear] at *
    omega
  rw [dayOfYear]
  change (Date.create (firstOfYear (dateOf t).year).year (firstOfYear (dateOf t).year).month
    (firstOfYear (dateOf t).year).day >>= fun startOfYear =>
      int (dayOf t - startOfYear.julianDayNumber)) = _
  rw [Date.create_eq hjan, Checked.pure_bind_eq]
  change int (dayOf t - julianDay (firstOfYear (dateOf t).year)) = _
  have hcount : dayOf t - julianDay (firstOfYear (dateOf t).year) =
      (dateOf t).dayNumber - daysBeforeYear (dateOf t).year - 1 := by
    rw [← hdate, julianDay, julianDay, hfirst]
    omega
  have hlength : daysInYear (dateOf t).year ≤ 366 := by
    rw [daysInYear]
    split <;> decide
  rw [daysBeforeYear_succ] at hbounds
  rw [hcount, int_eq_pure (by omega) (by omega)]

theorem toUtcTime_eq {t : Int} (h : InUtcRange t) (yday : Bool) :
    toUtcTime t yday = pure (utcTime t yday) := by
  have hlow := h.1
  have hhigh := h.2
  have hyear := h.year
  have hmonth := (dateOf t).month_range
  rw [dayOf] at hlow hhigh
  rw [toUtcTime, correctDay_eq (by omega) (by omega), Checked.pure_bind_eq,
    kJulianDayOf1970_01_01_eq]
  simp only []
  rw [int_eq_pure (by omega) (by omega), Checked.pure_bind_eq, Date.yearMonthDay]
  change (getYearMonthDay (dayOf t) >>= fun ymd => int (ymd.year - 1900) >>= fun year =>
    int (ymd.month - 1) >>= fun mon => Date.weekDay ⟨dayOf t⟩ >>= fun wday => _) = _
  rw [getYearMonthDay_eq h.inDayRange, Checked.pure_bind_eq, civilOfJulianDay_dayOf]
  change (int ((dateOf t).year - 1900) >>= fun year =>
    int ((dateOf t).month - 1) >>= fun mon => _) = _
  rw [int_eq_pure (by omega) (by omega), Checked.pure_bind_eq,
    int_eq_pure (by omega) (by omega), Checked.pure_bind_eq,
    Date.weekDay_eq_tmod h.inDayRange, Checked.pure_bind_eq]
  have hhour : t % kSecondsPerDay / 60 / 60 = t % kSecondsPerDay / 3600 := by omega
  have hfields : ∀ yday, fillHMS (t % kSecondsPerDay) ⟨⟨(dateOf t).year - 1900,
      (dateOf t).month - 1, (dateOf t).day, 0, 0, 0⟩, (dayOf t + 1).tmod 7, yday, 0, 0,
        "GMT".toList⟩ = ⟨gmtime t, (dayOf t + 1).tmod 7, yday, 0, 0, "GMT".toList⟩ := by
    intro yday
    simp only [fillHMS, gmtime, dateOf, hhour]
  cases yday with
  | false =>
      rw [if_neg Bool.false_ne_true, Checked.pure_bind_eq]
      exact congrArg pure (hfields _)
  | true =>
      rw [if_pos rfl]
      change (dayOfYear ⟨dayOf t⟩ (YearMonthDay.ofCivil (dateOf t)) >>= fun yday => pure _) = _
      rw [dayOfYear_eq h, Checked.pure_bind_eq]
      exact congrArg pure (hfields _)

theorem fromUtcTimeOf_eq {d : CivilDate} (h : InDayRange (julianDay d)) {hour minute seconds : Int}
    (hhour : 0 ≤ hour ∧ hour ≤ 23) (hminute : 0 ≤ minute ∧ minute ≤ 59)
    (hseconds : 0 ≤ seconds ∧ seconds ≤ 59) :
    fromUtcTimeOf d.year d.month d.day hour minute seconds =
      pure ((d.dayNumber - 719163) * kSecondsPerDay + (hour * 3600 + minute * 60 + seconds)) := by
  have hdays : julianDay d - Date.kJulianDayOf1970_01_01 = d.dayNumber - 719163 := by
    rw [kJulianDayOf1970_01_01_eq, julianDay]
    omega
  rw [InDayRange, julianDay] at h
  rw [fromUtcTimeOf, Date.create_eq h, Checked.pure_bind_eq, int_eq_pure (by omega) (by omega),
    Checked.pure_bind_eq, int_eq_pure (by omega) (by omega), Checked.pure_bind_eq,
    int_eq_pure (by omega) (by omega), Checked.pure_bind_eq, int_eq_pure (by omega) (by omega),
    Checked.pure_bind_eq, hdays, int_eq_pure (by omega) (by omega), Checked.pure_bind_eq]
  apply Checked.ext
  · rfl
  · rw [Checked.ok_bind, Checked.ok_pure, Bool.and_eq_true, ok_long, ok_long, val_long,
      kSecondsPerDay_eq]
    omega

theorem fromUtcTime_utcTime {t : Int} (h : InUtcRange t) (yday : Bool) :
    fromUtcTime (utcTime t yday) = pure t := by
  have hrange := h.inDayRange
  rw [← julianDay_dateOf] at hrange
  have hyear := h.year
  have hmonth := (dateOf t).month_range
  have hnumber : (dateOf t).dayNumber = t / kSecondsPerDay + 719163 :=
    CivilDate.dayNumber_ofDayNumber _
  have hsecond : 0 ≤ t % kSecondsPerDay ∧ t % kSecondsPerDay < 86400 := by
    rw [kSecondsPerDay_eq]
    omega
  change (int ((dateOf t).year - 1900 + 1900) >>= fun year =>
    int ((dateOf t).month - 1 + 1) >>= fun month =>
      fromUtcTimeOf year month (dateOf t).day (t % kSecondsPerDay / 3600)
        (t % kSecondsPerDay / 60 % 60) (t % kSecondsPerDay % 60)) = _
  rw [int_eq_pure (by omega) (by omega), Checked.pure_bind_eq, int_eq_pure (by omega) (by omega),
    Checked.pure_bind_eq, Int.sub_add_cancel, Int.sub_add_cancel,
    fromUtcTimeOf_eq hrange (by omega) (by omega) (by omega), hnumber]
  rw [kSecondsPerDay_eq] at *
  congr 1
  omega

theorem gmtime_of_date (d : CivilDate) {s : Int} (hs : 0 ≤ s ∧ s < kSecondsPerDay) :
    dateOf ((d.dayNumber - 719163) * kSecondsPerDay + s) = d ∧
      ((d.dayNumber - 719163) * kSecondsPerDay + s) % kSecondsPerDay = s := by
  rw [kSecondsPerDay_eq] at hs
  rw [dateOf, kSecondsPerDay_eq]
  have hday : ((d.dayNumber - 719163) * 86400 + s) / 86400 + 719163 = d.dayNumber := by omega
  rw [hday, CivilDate.ofDayNumber_dayNumber]
  exact ⟨rfl, by omega⟩

theorem wday_eq_iff (t : Int) :
    (dayOf t + 1).tmod 7 = gmtimeWday t ↔ -1 ≤ dayOf t ∨ (dayOf t + 1) % 7 = 0 := by
  have hweek : gmtimeWday t = (dayOf t + 1) % 7 := by
    rw [gmtimeWday, dayOf]
    omega
  rw [hweek]
  rcases Int.le_total 0 (dayOf t + 1) with hnonneg | hneg
  · rw [Int.tmod_eq_emod_of_nonneg hnonneg]
    exact iff_of_true rfl (Or.inl (by omega))
  · have hmod : (dayOf t + 1).tmod 7 = -((-(dayOf t + 1)) % 7) := by
      rw [← Int.tmod_eq_emod_of_nonneg (by omega), Int.neg_tmod, Int.neg_neg]
    omega

/-- `toUtcTime` gives the time of `gmtime_r`, the day of the year, and its day of the week if the
day number is not negative or the day a Sunday, and `fromUtcTime` undoes it; for a date and a time
of day it is the other way round as well. -/
theorem toUtcTime_inverts :
    (∀ t yday, InUtcRange t → ∃ utc, toUtcTime t yday = pure utc ∧ utc.toTm = gmtime t ∧
      (yday = true →
        utc.yday = (dateOf t).dayNumber - (firstOfYear (dateOf t).year).dayNumber) ∧
      (utc.wday = gmtimeWday t ↔ -1 ≤ dayOf t ∨ (dayOf t + 1) % 7 = 0) ∧
      fromUtcTime utc = pure t) ∧
    ∀ (d : CivilDate) (hour minute seconds : Int), -4799 ≤ d.year → InDayRange (julianDay d) →
      (0 ≤ hour ∧ hour ≤ 23) → (0 ≤ minute ∧ minute ≤ 59) → (0 ≤ seconds ∧ seconds ≤ 59) →
      ∃ t, fromUtcTimeOf d.year d.month d.day hour minute seconds = pure t ∧
        ∀ yday, ∃ utc, toUtcTime t yday = pure utc ∧
          utc.toTm = ⟨d.year - 1900, d.month - 1, d.day, hour, minute, seconds⟩ := by
  constructor
  · intro t yday ht
    refine ⟨_, toUtcTime_eq ht yday, rfl, ?_, wday_eq_iff t, fromUtcTime_utcTime ht yday⟩
    rintro rfl
    rw [firstOfYear_eq]
    change (dateOf t).dayNumber - daysBeforeYear (dateOf t).year - 1 = _
    omega
  · intro d hour minute seconds hyear hd hhour hminute hseconds
    have hs : 0 ≤ hour * 3600 + minute * 60 + seconds ∧
        hour * 3600 + minute * 60 + seconds < kSecondsPerDay := by
      rw [kSecondsPerDay_eq]
      omega
    obtain ⟨hdate, hsecond⟩ := gmtime_of_date d hs
    refine ⟨_, fromUtcTimeOf_eq hd hhour hminute hseconds, fun yday => ?_⟩
    generalize (d.dayNumber - 719163) * kSecondsPerDay + (hour * 3600 + minute * 60 + seconds) = t
      at hdate hsecond
    have hday : dayOf t = julianDay d := by rw [← julianDay_dateOf, hdate]
    have ht : InUtcRange t := by
      have hbounds := d.dayNumber_bounds
      rw [InUtcRange, hday]
      rw [InDayRange, julianDay] at *
      rw [daysBeforeYear] at hbounds
      omega
    refine ⟨_, toUtcTime_eq ht yday, ?_⟩
    change gmtime t = _
    have hfields : gmtime t = ⟨(dateOf t).year - 1900, (dateOf t).month - 1, (dateOf t).day,
        t % kSecondsPerDay / 3600, t % kSecondsPerDay / 60 % 60, t % kSecondsPerDay % 60⟩ := rfl
    rw [hfields, hdate, hsecond, Tm.mk.injEq]
    exact ⟨rfl, rfl, rfl, by omega, by omega, by omega⟩

theorem toUtcTime_inverts_lastSecond :
    (∃ utc, toUtcTime (-1) true = pure utc ∧ utc.toTm = ⟨69, 11, 31, 23, 59, 59⟩ ∧
      utc.yday = 364 ∧ utc.wday = 3 ∧ fromUtcTime utc = pure (-1)) ∧
      ∃ t, fromUtcTimeOf 2000 1 1 0 0 0 = pure t ∧
        ∃ utc, toUtcTime t false = pure utc ∧ utc.toTm = ⟨100, 0, 1, 0, 0, 0⟩ := by
  constructor
  · obtain ⟨utc, hutc, htm, hyday, hwday, hinverse⟩ := toUtcTime_inverts.1 (-1) true (by decide)
    refine ⟨utc, hutc, htm.trans (by decide), (hyday rfl).trans (by decide), ?_, hinverse⟩
    exact (hwday.mpr (by decide)).trans (by decide)
  · obtain ⟨t, ht, hutc⟩ := toUtcTime_inverts.2 ⟨2000, 1, 1, by decide, by decide⟩ 0 0 0
      (by decide) (by decide) (by decide) (by decide) (by decide)
    exact ⟨t, ht, hutc false⟩

end TimeZone

end LearnMuduo
