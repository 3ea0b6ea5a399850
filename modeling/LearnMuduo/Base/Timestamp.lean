import LearnMuduo.Base.UtcTime
import LearnMuduo.Framework.TextField
import Mathlib.Data.Char

/-!
# Times as text

`Timestamp::toFormattedString` and `Date::toIsoString` print the fields of a time and of a date,
the longest first, each in its width. Compared as strings the texts are in the order of the times
and of the dates.
-/

namespace LearnMuduo

open Framework

/-- What `snprintf` leaves of a text in a buffer of `size` characters. -/
def printed (size : Nat) (text : List Char) : List Char := text.take (size - 1)

namespace Timestamp

/-- `.%06d` -/
def microsecondText (microSecondsSinceEpoch : Int) : List Char :=
  '.' :: zeroPadded 6 (wrapInt (microSecondsSinceEpoch.tmod LearnMuduo.kMicroSecondsPerSecond))

def toFormattedString (microSecondsSinceEpoch : Int) (showMicroseconds : Bool) : List Char :=
  let seconds := secondOf microSecondsSinceEpoch
  if showMicroseconds then
    printed 64 (timeText (gmtime seconds) ++ microsecondText microSecondsSinceEpoch)
  else printed 64 (timeText (gmtime seconds))

end Timestamp

/-- `%4d-%02d-%02d` -/
def Date.toIsoString (date : Date) : Checked (List Char) := do
  let ymd ← date.yearMonthDay
  pure (printed 32 (blankPadded 4 ymd.year ++ '-' :: zeroPadded 2 ymd.month ++
    '-' :: zeroPadded 2 ymd.day))

theorem digitChar_lt {d d' : Nat} (h : d < d') (hd' : d' < 10) : digitChar d < digitChar d' := by
  interval_cases d' <;> interval_cases d <;> decide

/-- A decimal number with `sep` in front, padded with `pad`. -/
def decimalField (sep : List Char) (w : Nat) (hw : 0 < w) (pad : Char) (hpad : pad < '1') :
    TextField Char :=
  TextField.number sep 10 w pad digitChar (by decide) hw (fun _ _ h hd' => digitChar_lt h hd') hpad

def zeroField (sep : List Char) (w : Nat) (hw : 0 < w) : TextField Char :=
  decimalField sep w hw '0' (by decide)

/-- A year of four digits. -/
def yearField : TextField Char := decimalField [] 4 (by decide) ' ' (by decide)

def dateFields (sep : List Char) : List (TextField Char) :=
  [yearField, zeroField sep 2 (by decide), zeroField sep 2 (by decide)]

def clockFields : List (TextField Char) :=
  [zeroField [' '] 2 (by decide), zeroField [':'] 2 (by decide), zeroField [':'] 2 (by decide)]

def microsecondField : TextField Char := zeroField ['.'] 6 (by decide)

def dateKeys (d : CivilDate) : List Nat := [d.year.toNat, d.month.toNat, d.day.toNat]

/-- The hour, the minute and the second of a second of the day. -/
def clockKeys (s : Int) : List Nat := [(s / 3600).toNat, (s / 60 % 60).toNat, (s % 60).toNat]

def timeKeys (t : Int) : List Nat := dateKeys (dateOf t) ++ clockKeys (t % kSecondsPerDay)

theorem blankPadded_eq {v : Int} (h : 0 ≤ v) (w : Nat) :
    blankPadded w v = padded 10 w ' ' digitChar v.toNat := by
  rw [blankPadded, numeralText, if_neg (Int.not_lt.mpr h), List.nil_append, padded,
    show v.natAbs = v.toNat by omega]

theorem zeroPadded_eq {v : Int} (h : 0 ≤ v) (w : Nat) :
    zeroPadded w v = padded 10 w '0' digitChar v.toNat := by
  rw [zeroPadded, if_neg (Int.not_lt.mpr h), padded, show v.natAbs = v.toNat by omega]

theorem dateKeys_lt_iff {d e : CivilDate} (hd : 0 ≤ d.year) (he : 0 ≤ e.year) :
    dateKeys d < dateKeys e ↔ d.dayNumber < e.dayNumber := by
  have hdmonth := d.month_range
  have hemonth := e.month_range
  have hdday := d.day_range
  have heday := e.day_range
  rw [CivilDate.dayNumber_lt_iff, CivilDate.Before]
  simp only [dateKeys, List.cons_lt_cons_iff, List.lt_irrefl, and_false, or_false]
  omega

theorem clockKeys_lt_iff {s s' : Int} (hs : 0 ≤ s) (hs' : 0 ≤ s') :
    clockKeys s < clockKeys s' ↔ s < s' := by
  simp only [clockKeys, List.cons_lt_cons_iff, List.lt_irrefl, and_false, or_false]
  omega

theorem timeKeys_lt_iff {t t' : Int} (ht : 0 ≤ (dateOf t).year) (ht' : 0 ≤ (dateOf t').year) :
    timeKeys t < timeKeys t' ↔ t < t' := by
  have hday : (dateOf t).dayNumber = t / kSecondsPerDay + 719163 :=
    CivilDate.dayNumber_ofDayNumber _
  have hday' : (dateOf t').dayNumber = t' / kSecondsPerDay + 719163 :=
    CivilDate.dayNumber_ofDayNumber _
  have hsame : t / kSecondsPerDay = t' / kSecondsPerDay → dateKeys (dateOf t) =
      dateKeys (dateOf t') := by
    intro heq
    rw [dateOf, dateOf, heq]
  have hlt := dateKeys_lt_iff ht ht'
  have hgt := dateKeys_lt_iff ht' ht
  rw [hday, hday', Int.add_lt_add_iff_right] at hlt
  rw [hday, hday', Int.add_lt_add_iff_right] at hgt
  have hlength : (dateKeys (dateOf t)).length = (dateKeys (dateOf t')).length := rfl
  rw [timeKeys, timeKeys, append_lt_append_iff_of_lt_iff hlength hlt hgt hsame]
  rw [kSecondsPerDay_eq, clockKeys_lt_iff (by omega) (by omega)]
  omega

theorem timeText_eq {t : Int} (ht : 0 ≤ (dateOf t).year) :
    timeText (gmtime t) = TextField.text (dateFields [] ++ clockFields) (timeKeys t) := by
  have hmonth := (dateOf t).month_range
  have hday := (dateOf t).day_range
  have hdate : timeText (gmtime t) =
      blankPadded 4 ((dateOf t).year - 1900 + 1900) ++ zeroPadded 2 ((dateOf t).month - 1 + 1) ++
        zeroPadded 2 (dateOf t).day ++ ' ' :: zeroPadded 2 (t % kSecondsPerDay / 3600) ++
        ':' :: zeroPadded 2 (t % kSecondsPerDay / 60 % 60) ++
        ':' :: zeroPadded 2 (t % kSecondsPerDay % 60) := rfl
  rw [hdate, Int.sub_add_cancel, Int.sub_add_cancel, blankPadded_eq ht,
    zeroPadded_eq (by omega), zeroPadded_eq (by omega)]
  rw [kSecondsPerDay_eq, zeroPadded_eq (by omega), zeroPadded_eq (by omega),
    zeroPadded_eq (by omega)]
  simp [TextField.text, TextField.number, dateFields, clockFields, yearField, zeroField,
    decimalField, timeKeys, dateKeys, clockKeys, kSecondsPerDay_eq]

theorem isoText_eq {d : CivilDate} (h : 0 ≤ d.year) :
    blankPadded 4 d.year ++ '-' :: zeroPadded 2 d.month ++ '-' :: zeroPadded 2 d.day =
      TextField.text (dateFields ['-']) (dateKeys d) := by
  have hmonth := d.month_range
  have hday := d.day_range
  rw [blankPadded_eq h, zeroPadded_eq (by omega), zeroPadded_eq (by omega)]
  simp [TextField.text, TextField.number, dateFields, yearField, zeroField, decimalField, dateKeys]

theorem fit_zeroField {sep : List Char} {w : Nat} {hw : 0 < w} {v : Nat} (h : v < 10 ^ w) :
    v < (zeroField sep w hw).bound := h

theorem fit_dateFields {sep : List Char} {d : CivilDate} (h : d.year ≤ 9999) :
    TextField.Fit (dateFields sep) (dateKeys d) := by
  have hmonth := d.month_range
  have hday := d.day_range
  have hlength := daysInMonth_le d.year d.month
  refine .cons ?_ (.cons (fit_zeroField ?_) (.cons (fit_zeroField ?_) .nil))
  · change d.year.toNat < 10 ^ 4
    omega
  · omega
  · omega

theorem fit_clockFields {s : Int} (h : s < kSecondsPerDay) :
    TextField.Fit clockFields (clockKeys s) := by
  rw [kSecondsPerDay_eq] at h
  refine .cons (fit_zeroField ?_) (.cons (fit_zeroField ?_) (.cons (fit_zeroField ?_) .nil))
  all_goals omega

theorem fit_timeFields {t : Int} (h : (dateOf t).year ≤ 9999) :
    TextField.Fit (dateFields [] ++ clockFields) (timeKeys t) :=
  List.rel_append (fit_dateFields h)
    (fit_clockFields (Int.emod_lt_of_pos t (by rw [kSecondsPerDay_eq]; decide)))

theorem printed_of_lt {size : Nat} {text : List Char} (h : text.length < size) :
    printed size text = text :=
  List.take_of_length_le (Nat.le_sub_one_of_lt h)

namespace Timestamp

/-- From 1970 through 9999. -/
structure InRange (microSecondsSinceEpoch : Int) : Prop where
  nonneg : 0 ≤ microSecondsSinceEpoch
  year : (dateOf (secondOf microSecondsSinceEpoch)).year ≤ 9999

section

variable {a b : Int}

theorem InRange.secondOf_eq (h : InRange a) : secondOf a = a / 1000000 :=
  Int.tdiv_eq_ediv_of_nonneg h.nonneg

theorem InRange.year_nonneg (h : InRange a) : 0 ≤ (dateOf (secondOf a)).year := by
  have hnonneg := h.nonneg
  have hday : (dateOf (secondOf a)).dayNumber = secondOf a / kSecondsPerDay + 719163 :=
    CivilDate.dayNumber_ofDayNumber _
  have hbounds := (dateOf (secondOf a)).dayNumber_bounds
  rw [hday, daysBeforeYear, daysBeforeYear, h.secondOf_eq, kSecondsPerDay_eq] at hbounds
  rw [h.secondOf_eq]
  omega

theorem InRange.microsecondText_eq (h : InRange a) :
    microsecondText a = TextField.text [microsecondField] [(a % 1000000).toNat] := by
  have hmod : a.tmod LearnMuduo.kMicroSecondsPerSecond = a % 1000000 :=
    Int.tmod_eq_emod_of_nonneg h.nonneg
  rw [microsecondText, hmod, wrapInt_of_natAbs_lt (by omega), zeroPadded_eq (by omega)]
  simp [TextField.text, TextField.number, microsecondField, zeroField, decimalField]

theorem fit_microsecondField (a : Int) :
    TextField.Fit [microsecondField] [(a % 1000000).toNat] := by
  refine .cons (fit_zeroField ?_) .nil
  omega

theorem InRange.formatted_eq (h : InRange a) :
    timeText (gmtime (secondOf a)) ++ microsecondText a =
      TextField.text ((dateFields [] ++ clockFields) ++ [microsecondField])
        (timeKeys (secondOf a) ++ [(a % 1000000).toNat]) := by
  rw [TextField.text_append (fit_timeFields h.year), timeText_eq h.year_nonneg,
    h.microsecondText_eq]

theorem toFormattedString_false (a : Int) :
    toFormattedString a false = printed 64 (timeText (gmtime (secondOf a))) := by
  rw [toFormattedString, if_neg Bool.false_ne_true]

theorem toFormattedString_true (a : Int) :
    toFormattedString a true =
      printed 64 (timeText (gmtime (secondOf a)) ++ microsecondText a) := by
  rw [toFormattedString, if_pos rfl]

theorem InRange.toFormattedString_eq (h : InRange a) (showMicroseconds : Bool) :
    toFormattedString a showMicroseconds =
      if showMicroseconds then
        TextField.text ((dateFields [] ++ clockFields) ++ [microsecondField])
          (timeKeys (secondOf a) ++ [(a % 1000000).toNat])
      else TextField.text (dateFields [] ++ clockFields) (timeKeys (secondOf a)) := by
  have hfit := fit_timeFields h.year
  cases showMicroseconds with
  | false =>
      rw [toFormattedString_false, timeText_eq h.year_nonneg, printed_of_lt]
      · rfl
      · rw [TextField.length_text hfit]
        decide
  | true =>
      rw [toFormattedString_true, h.formatted_eq, printed_of_lt]
      · rfl
      · rw [TextField.length_text (List.rel_append hfit (fit_microsecondField a))]
        decide

theorem InRange.formatted_lt_iff (ha : InRange a) (hb : InRange b) :
    toFormattedString a true < toFormattedString b true ↔ a < b := by
  have hlt := timeKeys_lt_iff ha.year_nonneg hb.year_nonneg
  have hgt := timeKeys_lt_iff hb.year_nonneg ha.year_nonneg
  have hlength : (timeKeys (secondOf a)).length = (timeKeys (secondOf b)).length := rfl
  rw [ha.toFormattedString_eq, hb.toFormattedString_eq, if_pos rfl, if_pos rfl,
    TextField.text_lt_iff (List.rel_append (fit_timeFields ha.year) (fit_microsecondField a))
      (List.rel_append (fit_timeFields hb.year) (fit_microsecondField b)),
    append_lt_append_iff_of_lt_iff hlength hlt hgt (congrArg timeKeys), ha.secondOf_eq,
    hb.secondOf_eq]
  simp only [List.cons_lt_cons_iff, List.lt_irrefl, and_false, or_false]
  omega

/-- Compared as strings, formatted times of the years 1970 to 9999 are in the order of the times;
without the microseconds in the order of the seconds. -/
theorem toFormattedString_lt_iff (ha : InRange a) (hb : InRange b) :
    (toFormattedString a true < toFormattedString b true ↔ a < b) ∧
      (toFormattedString a false < toFormattedString b false ↔ secondOf a < secondOf b) := by
  refine ⟨ha.formatted_lt_iff hb, ?_⟩
  have hlt := timeKeys_lt_iff ha.year_nonneg hb.year_nonneg
  rw [ha.toFormattedString_eq, hb.toFormattedString_eq, if_neg Bool.false_ne_true,
    if_neg Bool.false_ne_true,
    TextField.text_lt_iff (fit_timeFields ha.year) (fit_timeFields hb.year), hlt]

end

theorem toFormattedString_lt_iff_newYear :
    toFormattedString 946684799999999 true < toFormattedString 946684800000000 true ∧
      toFormattedString 946684799999999 false < toFormattedString 946684800000000 false := by
  have h := toFormattedString_lt_iff (a := 946684799999999) (b := 946684800000000)
    ⟨by decide, by decide⟩ ⟨by decide, by decide⟩
  exact ⟨h.1.mpr (by decide), h.2.mpr (by decide)⟩

end Timestamp

namespace Date

/-- A day of the years 0 to 9999. -/
def InIsoRange (date : Date) : Prop :=
  0 ≤ (civilOfJulianDay date.julianDayNumber).year ∧
    (civilOfJulianDay date.julianDayNumber).year ≤ 9999

theorem InIsoRange.inDayRange {date : Date} (h : date.InIsoRange) :
    InDayRange date.julianDayNumber := by
  have hnumber := julianDay_civilOfJulianDay date.julianDayNumber
  have hbounds := (civilOfJulianDay date.julianDayNumber).dayNumber_bounds
  rw [InIsoRange] at h
  rw [julianDay] at hnumber
  rw [daysBeforeYear, daysBeforeYear] at hbounds
  rw [InDayRange]
  omega

theorem InIsoRange.toIsoString_eq {date : Date} (h : date.InIsoRange) :
    date.toIsoString = pure (TextField.text (dateFields ['-'])
      (dateKeys (civilOfJulianDay date.julianDayNumber))) := by
  have hfit : TextField.Fit (dateFields ['-']) (dateKeys (civilOfJulianDay date.julianDayNumber)) :=
    fit_dateFields h.2
  rw [toIsoString, yearMonthDay, getYearMonthDay_eq h.inDayRange, Checked.pure_bind_eq]
  simp only [YearMonthDay.ofCivil]
  rw [isoText_eq h.1, printed_of_lt]
  rw [TextField.length_text hfit]
  decide

/-- ISO texts of the years 0 to 9999 are in the order of the dates. -/
theorem toIsoString_lt_iff {x y : Date} (hx : x.InIsoRange) (hy : y.InIsoRange) :
    x.toIsoString.ok = true ∧ y.toIsoString.ok = true ∧
      (x.toIsoString.val < y.toIsoString.val ↔ x.less y = true) := by
  have hnumber := julianDay_civilOfJulianDay x.julianDayNumber
  have hnumber' := julianDay_civilOfJulianDay y.julianDayNumber
  rw [julianDay] at hnumber hnumber'
  rw [hx.toIsoString_eq, hy.toIsoString_eq]
  refine ⟨rfl, rfl, ?_⟩
  change TextField.text _ _ < TextField.text _ _ ↔ _
  rw [TextField.text_lt_iff (fit_dateFields hx.2) (fit_dateFields hy.2),
    dateKeys_lt_iff hx.1 hy.1, less, decide_eq_true_iff]
  omega

theorem toIsoString_lt_iff_newYear :
    (toIsoString ⟨2451544⟩).val < (toIsoString ⟨2451545⟩).val :=
  (toIsoString_lt_iff (x := ⟨2451544⟩) (y := ⟨2451545⟩) ⟨by decide, by decide⟩
    ⟨by decide, by decide⟩).2.2.mpr rfl

end Date

end LearnMuduo
