import LearnMuduo.Base.Logging

/-!
# The time of a record

A thread formats the time anew when the second changes, and only then. The text also depends on the
time zone, which may change within a second, and the second that nothing was formatted for is 0.
-/

namespace LearnMuduo

open Framework

/-- What happens on a thread: `Logger::setTimeZone` is called, or a record is begun. -/
inductive LogEvent (Z : Type)
  | setTimeZone (zone : Option Z)
  | record (microSecondsSinceEpoch : Int)
  deriving DecidableEq, Repr

namespace LogTime

variable {Z : Type} (env : LogEnv Z)

def setTimeZone (t : LogTime Z) (zone : Option Z) : LogTime Z := { t with zone := zone }

/-- The first 17 characters of a record. -/
def head (t : LogTime Z) (now : Int) : List Char :=
  (formatTime env t now LogStream.create).val.1.content.take 17

/-- The first 17 characters of each record. -/
def heads (t : LogTime Z) : List (LogEvent Z) → List (List Char)
  | [] => []
  | .setTimeZone zone :: es => heads (t.setTimeZone zone) es
  | .record now :: es =>
    t.head env now :: heads (formatTime env t now LogStream.create).val.2 es

end LogTime

section

variable {Z : Type} (env : LogEnv Z)

/-- The time of each record, formatted anew in the time zone in force. -/
def times (zone : Option Z) : List (LogEvent Z) → List (List Char)
  | [] => []
  | .setTimeZone zone' :: es => times zone' es
  | .record now :: es => timeText (env.tmOf zone (secondOf now)) :: times zone es

/-- A date and a time of the years 1970 to 9999. -/
structure Tm.InYears (tm : Tm) : Prop where
  year : 70 ≤ tm.year ∧ tm.year ≤ 8099
  mon : 0 ≤ tm.mon ∧ tm.mon ≤ 11
  mday : 1 ≤ tm.mday ∧ tm.mday ≤ 31
  hour : 0 ≤ tm.hour ∧ tm.hour ≤ 23
  min : 0 ≤ tm.min ∧ tm.min ≤ 59
  sec : 0 ≤ tm.sec ∧ tm.sec ≤ 60

instance (tm : Tm) : Decidable tm.InYears :=
  decidable_of_iff
    ((70 ≤ tm.year ∧ tm.year ≤ 8099) ∧ (0 ≤ tm.mon ∧ tm.mon ≤ 11) ∧ (1 ≤ tm.mday ∧ tm.mday ≤ 31) ∧
      (0 ≤ tm.hour ∧ tm.hour ≤ 23) ∧ (0 ≤ tm.min ∧ tm.min ≤ 59) ∧ (0 ≤ tm.sec ∧ tm.sec ≤ 60))
    ⟨fun ⟨hyear, hmon, hmday, hhour, hmin, hsec⟩ => ⟨hyear, hmon, hmday, hhour, hmin, hsec⟩,
      fun h => ⟨h.year, h.mon, h.mday, h.hour, h.min, h.sec⟩⟩

/-- The time of each record is one of the years 1970 to 9999 in the time zone in force. -/
def InYears (zone : Option Z) : List (LogEvent Z) → Prop
  | [] => True
  | .setTimeZone zone' :: es => InYears zone' es
  | .record now :: es => (env.tmOf zone (secondOf now)).InYears ∧ InYears zone es

/-- A first record is not of second 0, and a record of the same second as the one before it finds a
time zone in force that shows this second as the one before did. `prev` is the second of the record
before and the time zone that was in force for it. -/
def SteadyRecord (prev : Option (Int × Option Z)) (zone : Option Z) (second : Int) : Prop :=
  match prev with
  | none => second ≠ 0
  | some (second', zone') =>
    second' = second → timeText (env.tmOf zone' second) = timeText (env.tmOf zone second)

/-- All records are steady. -/
def Steady (prev : Option (Int × Option Z)) (zone : Option Z) : List (LogEvent Z) → Prop
  | [] => True
  | .setTimeZone zone' :: es => Steady prev zone' es
  | .record now :: es =>
    SteadyRecord env prev zone (secondOf now) ∧ Steady (some (secondOf now, zone)) zone es

end

theorem length_zeroPadded {v : Int} (h : 0 ≤ v) (hlt : v < 100) : (zeroPadded 2 v).length = 2 := by
  have hdigits := length_numeral_le (b := 10) (n := v.natAbs) (k := 2) (by decide) (by decide)
    (by omega)
  rw [zeroPadded, if_neg (Int.not_lt.mpr h), List.length_leftpad, List.length_map]
  omega

theorem length_blankPadded {v : Int} (h : 0 ≤ v) (hlt : v < 10000) :
    (blankPadded 4 v).length = 4 := by
  have hdigits := length_numeral_le (b := 10) (n := v.natAbs) (k := 4) (by decide) (by decide)
    (by omega)
  rw [blankPadded, List.length_leftpad, length_numeralText, if_neg (Int.not_lt.mpr h)]
  omega

theorem Tm.InYears.length_timeText {tm : Tm} (h : tm.InYears) : (timeText tm).length = 17 := by
  have hyear := h.year
  have hmon := h.mon
  have hmday := h.mday
  have hhour := h.hour
  have hmin := h.min
  have hsec := h.sec
  simp only [timeText, List.length_append, List.length_cons,
    length_blankPadded (show 0 ≤ tm.year + 1900 by omega) (by omega),
    length_zeroPadded (show 0 ≤ tm.mon + 1 by omega) (by omega),
    length_zeroPadded (show 0 ≤ tm.mday by omega) (by omega),
    length_zeroPadded hhour.1 (by omega), length_zeroPadded hmin.1 (by omega),
    length_zeroPadded hsec.1 (by omega)]

theorem timeText_ne_replicate (tm : Tm) (n : Nat) : List.replicate n '\x00' ≠ timeText tm := by
  intro h
  have hcolon : ':' ∈ timeText tm := by
    simp [timeText]
  rw [← h] at hcolon
  exact absurd (List.eq_of_mem_replicate hcolon) (by decide)

namespace LogTime

variable {Z : Type} {env : LogEnv Z} {t : LogTime Z}

/-- What the memory of the thread holds after the record `prev`. -/
def Keeps (env : LogEnv Z) (t : LogTime Z) : Option (Int × Option Z) → Prop
  | none => t.lastSecond = 0 ∧ t.timeString.take 17 = List.replicate 17 '\x00'
  | some (second, zone) =>
    t.lastSecond = second ∧ t.timeString.take 17 = timeText (env.tmOf zone second)

theorem take_refresh (t : LogTime Z) (second : Int) {text : List Char} (h : text.length = 17) :
    (t.refresh second text).timeString.take 17 = text := by
  have hshort : text.take (t.timeString.length - 1) = text := by
    rw [t.length_timeString]
    exact List.take_of_length_le (by omega)
  change (overwrite t.timeString 0 (text.take (t.timeString.length - 1) ++ ['\x00'])).take 17 = text
  rw [hshort, overwrite, List.take_zero, List.nil_append, List.append_assoc]
  exact List.take_left' h

theorem head_eq (t : LogTime Z) (now : Int) :
    t.head env now = (t.renew env (secondOf now)).val.timeString.take 17 := by
  rcases formatTime_val env t now LogStream.create with ⟨us, len, hlen, hval⟩
  have hempty : LogStream.create.content = [] := rfl
  have hfits : 17 ≤ (t.renew env (secondOf now)).val.timeString.length := by
    rw [(t.renew env (secondOf now)).val.length_timeString]
    decide
  have htime := LogStream.content_insertT LogStream.inside_create (by decide) hfits
  rw [hempty, if_pos (by decide), List.nil_append] at htime
  have hus := LogStream.content_insertT
    (inside_insertTime LogStream.inside_create (t.renew env (secondOf now)).val)
    (show len < 2 ^ 31 by omega) (show len ≤ (fmt us).val.1.length by rw [length_fmt]; exact hlen)
  have hprefix : ((t.renew env (secondOf now)).val.timeString.take 17).length = 17 :=
    List.length_take_of_le hfits
  rw [head, hval, hus, htime]
  split
  · exact List.take_left' hprefix
  · exact List.take_of_length_le hprefix.le

theorem renew_of_ne {second : Int} (h : second ≠ t.lastSecond) :
    (t.renew env second).val = t.refresh second (timeText (env.tmOf t.zone second)) := by
  rw [renew, if_pos h]
  rfl

theorem renew_of_eq {second : Int} (h : second = t.lastSecond) : (t.renew env second).val = t := by
  rw [renew, if_neg (not_not.mpr h)]
  rfl

/-- One record: the head is right exactly when the record is steady, and then the memory of the
thread holds its time. -/
theorem head_eq_iff {prev : Option (Int × Option Z)} (h : Keeps env t prev) {now : Int}
    (hyears : (env.tmOf t.zone (secondOf now)).InYears) :
    (t.head env now = timeText (env.tmOf t.zone (secondOf now)) ↔
      SteadyRecord env prev t.zone (secondOf now)) ∧
    (t.head env now = timeText (env.tmOf t.zone (secondOf now)) →
      Keeps env (t.renew env (secondOf now)).val (some (secondOf now, t.zone))) := by
  have hlen := hyears.length_timeText
  rw [head_eq]
  by_cases hsecond : secondOf now = t.lastSecond
  · rw [renew_of_eq hsecond]
    cases prev with
    | none =>
        have hne := timeText_ne_replicate (env.tmOf t.zone (secondOf now)) 17
        rw [h.2]
        exact ⟨iff_of_false hne fun hnonzero => hnonzero (hsecond.trans h.1),
          fun heq => absurd heq hne⟩
    | some kept =>
        rcases kept with ⟨second, zone'⟩
        have hsame : second = secondOf now := h.1.symm.trans hsecond.symm
        subst hsame
        rw [h.2]
        exact ⟨⟨fun heq _ => heq, fun heq => heq rfl⟩, fun heq => ⟨h.1, h.2.trans heq⟩⟩
  · have hright := t.take_refresh (secondOf now) hlen
    rw [renew_of_ne hsecond]
    refine ⟨iff_of_true hright ?_, fun _ => ⟨rfl, hright⟩⟩
    cases prev with
    | none => exact fun hzero => hsecond (hzero.trans h.1.symm)
    | some kept => exact fun hsame => absurd (h.1.trans hsame).symm hsecond

theorem zone_formatTime (env : LogEnv Z) (t : LogTime Z) (now : Int) :
    (formatTime env t now LogStream.create).val.2 = (t.renew env (secondOf now)).val ∧
      (t.renew env (secondOf now)).val.zone = t.zone := by
  constructor
  · rcases formatTime_val env t now LogStream.create with ⟨us, len, _, hval⟩
    rw [hval]
  · by_cases hsecond : secondOf now = t.lastSecond
    · rw [renew_of_eq hsecond]
    · rw [renew_of_ne hsecond]
      rfl

theorem heads_eq_iff {prev : Option (Int × Option Z)} {es : List (LogEvent Z)}
    (h : Keeps env t prev) (hyears : InYears env t.zone es) :
    t.heads env es = times env t.zone es ↔ Steady env prev t.zone es := by
  induction es generalizing t prev with
  | nil => exact iff_of_true rfl trivial
  | cons e es ih =>
      cases e with
      | setTimeZone zone => exact @ih (t.setTimeZone zone) prev h hyears
      | record now =>
          have hone := head_eq_iff h hyears.1
          rcases zone_formatTime env t now with ⟨hnext, hzone⟩
          rw [heads, times, Steady, List.cons_eq_cons, ← hone.1, hnext]
          apply and_congr_right
          intro hright
          rw [← hzone] at hyears ⊢
          exact ih (hzone ▸ hone.2 hright) hyears.2

theorem keeps_initial (env : LogEnv Z) : Keeps env initial none :=
  ⟨rfl, rfl⟩

/-- On a new thread the times in the records are right if and only if all records are steady. -/
theorem heads_eq_times_iff (env : LogEnv Z) (es : List (LogEvent Z))
    (hyears : InYears env none es) :
    initial.heads env es = times env none es ↔ Steady env none none es :=
  heads_eq_iff (keeps_initial env) hyears

/-- A second of the first day of 1970, some hours east. -/
def clock (hours second : Int) : Tm :=
  ⟨70, 0, 1, second / 3600 + hours, second / 60 % 60, second % 60⟩

def firstDay : LogEnv Int where
  toLocalTime := clock
  gmtime := clock 0
  strerror := Logger.epochEnv.strerror
  tid := Logger.epochEnv.tid

/-- The zone changes between two records of second 5. -/
def zoneChange : List (LogEvent Int) :=
  [.record 5000000, .setTimeZone (some 8), .record 5000001]

theorem inYears_zoneChange : InYears firstDay none zoneChange :=
  ⟨by decide, by decide, trivial⟩

theorem zoneChange_keeps_old_zone : InYears firstDay none zoneChange ∧
    initial.heads firstDay zoneChange ≠ times firstDay none zoneChange := by
  refine ⟨inYears_zoneChange, fun heq => ?_⟩
  have hsteady := (heads_eq_iff (keeps_initial firstDay) inYears_zoneChange).mp heq
  exact absurd (hsteady.2.1 rfl) (by decide)

/-- The zone changes before the next second. -/
def nextSecond : List (LogEvent Int) :=
  [.record 5000000, .setTimeZone (some 8), .record 6000000]

theorem inYears_nextSecond : InYears firstDay none nextSecond :=
  ⟨by decide, by decide, trivial⟩

theorem steady_nextSecond : Steady firstDay none none nextSecond := by
  refine ⟨?_, ?_, trivial⟩
  · change secondOf 5000000 ≠ 0
    decide
  · intro hsame
    exact absurd hsame (by decide)

theorem heads_eq_times_nextSecond :
    initial.heads firstDay nextSecond = times firstDay none nextSecond :=
  (heads_eq_times_iff firstDay nextSecond inYears_nextSecond).mpr steady_nextSecond

end LogTime

end LearnMuduo
