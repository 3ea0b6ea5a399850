import LearnMuduo.Base.LogTime
import LearnMuduo.Base.Timestamp

/-!
# The order of a log

A line begins with the time of its record, and the thread keeps the text of the second. Without a
time zone the lines of a thread begin with the times as `Timestamp` formats them, so that they sort
as strings in the order of the times, whatever else is logged.
-/

namespace LearnMuduo

open Framework

/-- A record that a thread logs: its time, and what the `Logger` is given. -/
structure LogRecord where
  now : Int
  kind : LoggerKind
  file : SourceFile
  line : IntegerType.int.Value
  insertions : List Insertion

def LoggerKind.isFatal : LoggerKind → Bool
  | .func .fatal _ => true
  | .level .fatal => true
  | .system toAbort _ => toAbort
  | _ => false

section

variable {Z : Type} (env : LogEnv Z)

/-- A `Logger` from its constructor to its destructor: the line, and whether the process is
aborted. -/
def LogRecord.log (t : LogTime Z) (r : LogRecord) : Checked ((List Char × Bool) × LogTime Z) := do
  let (l, t) ← Logger.create env t r.now r.kind r.file r.line
  let l ← l.insertAll r.insertions
  let written ← l.destruct
  pure (written, t)

/-- The lines that a thread writes. -/
def lines (t : LogTime Z) : List LogRecord → List (List Char)
  | [] => []
  | r :: rs =>
    let logged := (r.log env t).val
    logged.1.1 :: if logged.1.2 then [] else lines logged.2 rs

/-- The records up to the first fatal one. -/
def logged : List LogRecord → List LogRecord
  | [] => []
  | r :: rs => r :: if r.kind.isFatal then [] else logged rs

def recordEvents (rs : List LogRecord) : List (LogEvent Z) := rs.map fun r => .record r.now

end

/-- `20000101 00:00:00.000000Z ` -/
def stamp (now : Int) : List Char := Timestamp.toFormattedString now true ++ ['Z', ' ']

namespace Timestamp

variable {a b : Int}

theorem InRange.year_pos (h : InRange a) : 1970 ≤ (dateOf (secondOf a)).year := by
  have hnonneg := h.nonneg
  have hnumber : (dateOf (secondOf a)).dayNumber = secondOf a / kSecondsPerDay + 719163 :=
    CivilDate.dayNumber_ofDayNumber _
  have hbounds := (dateOf (secondOf a)).dayNumber_bounds
  rw [hnumber, daysBeforeYear, daysBeforeYear, h.secondOf_eq, kSecondsPerDay_eq] at hbounds
  rw [h.secondOf_eq]
  omega

theorem InRange.inYears (h : InRange a) : (gmtime (secondOf a)).InYears := by
  have hyear := h.year_pos
  have hyear' := h.year
  have hfields : gmtime (secondOf a) =
      ⟨(dateOf (secondOf a)).year - 1900, (dateOf (secondOf a)).month - 1,
        (dateOf (secondOf a)).day, secondOf a % kSecondsPerDay / 3600,
        secondOf a % kSecondsPerDay / 60 % 60, secondOf a % kSecondsPerDay % 60⟩ := rfl
  have hmonth := (dateOf (secondOf a)).month_range
  have hday := (dateOf (secondOf a)).day_range
  have hlength := daysInMonth_le (dateOf (secondOf a)).year (dateOf (secondOf a)).month
  rw [hfields, kSecondsPerDay_eq]
  generalize dateOf (secondOf a) = d at *
  constructor
  all_goals dsimp only
  all_goals omega

theorem InRange.length_stamp (h : InRange a) : (stamp a).length = 26 := by
  rw [stamp, List.length_append, h.toFormattedString_eq, if_pos rfl,
    TextField.length_text (List.rel_append (fit_timeFields h.year) (fit_microsecondField a))]
  rfl

theorem InRange.stamp_eq (h : InRange a) :
    stamp a = timeText (gmtime (secondOf a)) ++ (microsecondText a ++ ['Z', ' ']) := by
  have hlength := h.length_stamp
  rw [stamp, toFormattedString_true, List.length_append] at hlength
  rw [stamp, toFormattedString_true, printed_of_lt, List.append_assoc]
  rw [printed, List.length_take] at hlength
  simp only [List.length_cons, List.length_nil] at hlength
  omega

theorem InRange.stamp_lt (ha : InRange a) (hb : InRange b) (h : a < b) : stamp a < stamp b := by
  have hlength : (toFormattedString a true).length = (toFormattedString b true).length := by
    have hsame := ha.length_stamp.trans hb.length_stamp.symm
    rw [stamp, stamp, List.length_append, List.length_append] at hsame
    exact Nat.add_right_cancel hsame
  rw [stamp, stamp, append_lt_append_iff hlength]
  exact Or.inl ((ha.formatted_lt_iff hb).mpr h)

end Timestamp

theorem take_fmt {text : List Char} (h : text.length ≤ 31) :
    (fmt text).val.1.take text.length = text := by
  have hshort : text.take 31 = text := List.take_of_length_le h
  have hbuf : (fmt text).val.1 =
      overwrite (List.replicate 32 '\x00') 0 (text.take 31 ++ ['\x00']) := rfl
  rw [hbuf, hshort, overwrite, List.take_zero, List.nil_append, List.append_assoc]
  exact List.take_left' rfl

namespace LogStream

variable {b : LogStream}

theorem prefix_insertT (h : b.Inside) {str : List Char} {len : Nat} (hint : len < 2 ^ 31)
    (hlen : len ≤ str.length) : b.content <+: (b.insertT str len).val.content := by
  rw [content_insertT h hint hlen]
  split
  · exact List.prefix_append _ _
  · exact List.prefix_rfl

theorem prefix_insertAll (h : b.Inside) (is : List Insertion) :
    b.content <+: (b.insertAll is).val.content := by
  rw [(leaves_insertAll h is).content]
  exact Pieces.prefix_foldl_put is b.content

end LogStream

section Line

variable {Z : Type} {env : LogEnv Z} {t : LogTime Z} {now : Int}

theorem content_formatTime (hzone : t.zone = none) (hgmtime : env.gmtime = gmtime)
    (hrange : Timestamp.InRange now)
    (hhead : t.head env now = timeText (env.tmOf t.zone (secondOf now))) :
    (formatTime env t now LogStream.create).val.1.content = stamp now := by
  have hkept : (t.renew env (secondOf now)).val.zone = none :=
    (LogTime.zone_formatTime env t now).2.trans hzone
  have hlength : (t.renew env (secondOf now)).val.timeString.length = 64 :=
    (t.renew env (secondOf now)).val.length_timeString
  have hval : (formatTime env t now LogStream.create).val.1 =
      ((LogStream.create.insertT (t.renew env (secondOf now)).val.timeString 17).val.insertT
        (fmt (Timestamp.microsecondText now ++ ['Z', ' '])).val.1 9).val := by
    simp only [formatTime, Checked.val_bind, Checked.val_pure, hkept, Option.isSome_none,
      Bool.false_eq_true, if_false, Timestamp.microsecondText]
  have hstamp := hrange.length_stamp
  rw [hrange.stamp_eq, List.length_append, hrange.inYears.length_timeText] at hstamp
  have hus : (Timestamp.microsecondText now ++ ['Z', ' ']).length = 9 := by
    omega
  have htake := take_fmt (hus.le.trans (by decide))
  rw [hus] at htake
  have hhead' := @LogTime.head_eq Z env t now
  rw [hhead, hzone] at hhead'
  have hempty : LogStream.create.content = [] := rfl
  have htime := LogStream.content_insertT LogStream.inside_create
    (show 17 < 2 ^ 31 by decide) (show 17 ≤ _ by rw [hlength]; decide)
  rw [hempty, if_pos (by decide), List.nil_append, ← hhead', LogEnv.tmOf, hgmtime] at htime
  rw [hval, LogStream.content_insertT (inside_insertTime LogStream.inside_create _) (by decide)
    (by rw [length_fmt]; decide), htime, hrange.inYears.length_timeText, if_pos (by decide),
    htake, hrange.stamp_eq]

namespace Logger

theorem prefix_insertTid {b : LogStream} (h : b.Inside) :
    b.content <+: (insertTid env b).val.content := by
  have htext : (blankPadded 5 env.tid ++ [' ']).length ≤ 22 := by
    have hlen := length_blankPadded_le env.tid.property (show 5 ≤ 21 by decide)
    rw [List.length_append, List.length_singleton]
    omega
  have hmemory : (snprintf (List.replicate 32 '\x00')
      (blankPadded 5 env.tid ++ [' '])).1.length = 32 :=
    length_snprintf (by decide) _
  have hsize : sizeOfInt ((blankPadded 5 env.tid ++ [' ']).length : Int) =
      (blankPadded 5 env.tid ++ [' ']).length :=
    sizeOfInt_natCast (by omega)
  change _ <+: (b.insertT (snprintf (List.replicate 32 '\x00') (blankPadded 5 env.tid ++ [' '])).1
    (sizeOfInt ((blankPadded 5 env.tid ++ [' ']).length : Int))).val.content
  rw [hsize]
  exact LogStream.prefix_insertT h (by omega) (by omega)

theorem prefix_insertErrno {b : LogStream} (h : b.Inside) (savedErrno : IntegerType.int.Value) :
    b.content <+: (insertErrno env savedErrno b).val.content := by
  rw [insertErrno]
  split
  · exact LogStream.prefix_insertAll h _
  · exact List.prefix_rfl

theorem prefix_impl (level : LogLevel) (savedErrno : IntegerType.int.Value) (file : SourceFile)
    (line : IntegerType.int.Value) :
    (formatTime env t now LogStream.create).val.1.content <+:
      (impl env t now level savedErrno file line).val.1.stream.content := by
  have hname : 6 ≤ (level.name ++ ['\x00']).length := by
    cases level <;> decide
  have htime : (formatTime env t now LogStream.create).val.1.Inside :=
    inside_formatTime LogStream.inside_create
  have htid : (insertTid env (formatTime env t now LogStream.create).val.1).val.Inside :=
    inside_insertTid htime
  have hlevel := LogStream.prefix_insertT htid (show 6 < 2 ^ 31 by decide) hname
  have hnamed := LogStream.inside_insertT htid (show 6 < 2 ^ 31 by decide) hname
  exact ((prefix_insertTid htime).trans hlevel).trans (prefix_insertErrno hnamed savedErrno)

theorem prefix_create (kind : LoggerKind) (file : SourceFile) (line : IntegerType.int.Value) :
    (formatTime env t now LogStream.create).val.1.content <+:
      (create env t now kind file line).val.1.stream.content := by
  cases kind with
  | plain => exact prefix_impl _ _ _ _
  | level level => exact prefix_impl _ _ _ _
  | system toAbort errno => exact prefix_impl _ _ _ _
  | func level func =>
      have himpl := @inside_impl Z env t now level ⟨0, by decide⟩ file line
      exact (prefix_impl level _ file line).trans
        (LogStream.prefix_insertAll himpl [.cString func, .char ' '])

theorem prefix_afterName (log : List Char) (file : SourceFile) : log <+: afterName log file := by
  have hsep : log <+: Insertion.pieces.put kSmallBuffer log
      (.cString (some ⟨" - ".toList, by decide⟩)) :=
    Pieces.prefix_foldl_put [_] log
  rw [afterName, putName]
  split
  · exact hsep.trans (List.prefix_append _ _)
  · exact hsep

theorem prefix_destruct {l : Logger} (h : l.stream.Inside) :
    l.stream.content <+: l.destruct.val.1 := by
  rw [output_destruct h]
  exact (prefix_afterName _ _).trans (Pieces.prefix_foldl_put _ _)

theorem fatal_destruct (l : Logger) : l.destruct.val.2 = decide (l.level = .fatal) := by
  simp only [destruct, finish, Checked.val_bind, Checked.val_pure]

theorem level_insertAll (l : Logger) (is : List Insertion) :
    (l.insertAll is).val.level = l.level := by
  simp only [insertAll, Checked.val_bind, Checked.val_pure]

theorem fatal_create (kind : LoggerKind) (file : SourceFile) (line : IntegerType.int.Value) :
    decide ((create env t now kind file line).val.1.level = .fatal) = kind.isFatal := by
  cases kind with
  | plain => rfl
  | level level => cases level <;> rfl
  | system toAbort errno => cases toAbort <;> rfl
  | func level func => cases level <;> rfl

theorem time_create (kind : LoggerKind) (file : SourceFile) (line : IntegerType.int.Value) :
    (create env t now kind file line).val.2 = (t.renew env (secondOf now)).val := by
  rw [← (LogTime.zone_formatTime env t now).1]
  cases kind with
  | _ => rfl

end Logger

theorem LogRecord.val_log (env : LogEnv Z) (t : LogTime Z) (r : LogRecord) :
    (r.log env t).val =
      (((Logger.create env t r.now r.kind r.file r.line).val.1.insertAll
        r.insertions).val.destruct.val, (t.renew env (secondOf r.now)).val) := by
  simp only [log, Checked.val_bind, Checked.val_pure, Logger.time_create]

theorem LogRecord.stamp_log {r : LogRecord} {prev : Option (Int × Option Z)}
    (hkeeps : LogTime.Keeps env t prev) (hzone : t.zone = none) (hgmtime : env.gmtime = gmtime)
    (hrange : Timestamp.InRange r.now) (hsteady : SteadyRecord env prev none (secondOf r.now)) :
    stamp r.now <+: (r.log env t).val.1.1 ∧ (r.log env t).val.1.2 = r.kind.isFatal ∧
      LogTime.Keeps env (r.log env t).val.2 (some (secondOf r.now, none)) ∧
      (r.log env t).val.2.zone = none := by
  have hyears : (env.tmOf t.zone (secondOf r.now)).InYears := by
    rw [hzone, LogEnv.tmOf, hgmtime]
    exact hrange.inYears
  obtain ⟨hright, hkept⟩ := LogTime.head_eq_iff hkeeps hyears
  have hhead := hright.mpr (hzone ▸ hsteady)
  have hcreated := @Logger.inside_create Z env t r.now r.kind r.file r.line
  have hcreates := @Logger.prefix_create Z env t r.now r.kind r.file r.line
  have hinserted := LogStream.prefix_insertAll hcreated r.insertions
  have hwritten := Logger.prefix_destruct (Logger.inside_insertAll hcreated r.insertions)
  rw [content_formatTime hzone hgmtime hrange hhead] at hcreates
  rw [r.val_log env t]
  refine ⟨(hcreates.trans hinserted).trans hwritten, ?_, ?_, ?_⟩
  · rw [Logger.fatal_destruct, Logger.level_insertAll, Logger.fatal_create]
  · rw [← hzone]
    exact hkept hhead
  · exact (LogTime.zone_formatTime env t r.now).2.trans hzone

theorem steady_recordEvents (second : Int) (rs : List LogRecord) :
    Steady env (some (second, none)) none (recordEvents rs) := by
  induction rs generalizing second with
  | nil => trivial
  | cons r rs ih => exact ⟨fun _ => rfl, ih (secondOf r.now)⟩

/-- The induction is on the records, with what the thread keeps as its invariant. -/
theorem stamps_lines {rs : List LogRecord} {prev : Option (Int × Option Z)}
    (hkeeps : LogTime.Keeps env t prev) (hzone : t.zone = none) (hgmtime : env.gmtime = gmtime)
    (hrange : ∀ r ∈ rs, Timestamp.InRange r.now)
    (hsteady : Steady env prev none (recordEvents rs)) :
    List.Forall₂ (fun r line => stamp r.now <+: line) (logged rs) (lines env t rs) := by
  induction rs generalizing t prev with
  | nil => exact .nil
  | cons r rs ih =>
      obtain ⟨hstamp, hfatal, hkept, hzone'⟩ :=
        r.stamp_log hkeeps hzone hgmtime (hrange r (List.mem_cons_self ..)) hsteady.1
      have hrest := ih hkept hzone' (fun r' hr' => hrange r' (List.mem_cons_of_mem _ hr'))
        hsteady.2
      refine .cons hstamp ?_
      rw [hfatal]
      split
      · exact .nil
      · exact hrest

end Line

theorem mem_of_mem_logged {r : LogRecord} {rs : List LogRecord} (h : r ∈ logged rs) : r ∈ rs := by
  induction rs with
  | nil => exact h
  | cons r' rs ih =>
      rcases List.mem_cons.mp h with rfl | hrest
      · exact List.mem_cons_self ..
      · split at hrest
        · cases hrest
        · exact List.mem_cons_of_mem _ (ih hrest)

/-- The line of a record of the years 1970 to 9999. -/
def IsLine (r : LogRecord) (line : List Char) : Prop :=
  Timestamp.InRange r.now ∧ stamp r.now <+: line

theorem IsLine.lt {r r' : LogRecord} {line line' : List Char} (h : IsLine r line)
    (h' : IsLine r' line') (hlt : r.now < r'.now) : line < line' := by
  obtain ⟨hrange, rest, rfl⟩ := h
  obtain ⟨hrange', rest', rfl⟩ := h'
  rw [append_lt_append_iff (hrange.length_stamp.trans hrange'.length_stamp.symm)]
  exact Or.inl (hrange.stamp_lt hrange' hlt)

theorem IsLine.le {r r' : LogRecord} {line line' : List Char} (h : IsLine r line)
    (h' : IsLine r' line') (hle : line ≤ line') : r.now ≤ r'.now := by
  by_contra hnot
  exact not_lt_of_ge hle (h'.lt h (Int.not_le.mp hnot))

theorem isLine_lines {Z : Type} {env : LogEnv Z} (hgmtime : env.gmtime = gmtime)
    {rs : List LogRecord} (hrange : ∀ r ∈ rs, Timestamp.InRange r.now)
    (hfirst : ∀ r ∈ rs.head?, secondOf r.now ≠ 0) :
    List.Forall₂ IsLine (logged rs) (lines env LogTime.initial rs) := by
  have hsteady : Steady env none none (recordEvents rs) := by
    cases rs with
    | nil => trivial
    | cons r rs => exact ⟨hfirst r rfl, steady_recordEvents (secondOf r.now) rs⟩
  have hstamps := stamps_lines (LogTime.keeps_initial env) rfl hgmtime hrange hsteady
  rw [List.forall₂_iff_zip] at hstamps ⊢
  refine ⟨hstamps.1, fun hmem => ⟨?_, hstamps.2 hmem⟩⟩
  exact hrange _ (mem_of_mem_logged (List.of_mem_zip hmem).1)

/-- Without a time zone the lines of a new thread begin with the times of its records, as
`Timestamp` formats them. Records in the order of time are lines in the order of strings, and lines
in the order of strings are records in the order of time. -/
theorem lines_sorted {Z : Type} {env : LogEnv Z} (hgmtime : env.gmtime = gmtime)
    {rs : List LogRecord} (hrange : ∀ r ∈ rs, Timestamp.InRange r.now)
    (hfirst : ∀ r ∈ rs.head?, secondOf r.now ≠ 0) :
    List.Forall₂ (fun r line => Timestamp.toFormattedString r.now true ++ ['Z', ' '] <+: line)
        (logged rs) (lines env LogTime.initial rs) ∧
      ((logged rs).Pairwise (fun r r' => r.now < r'.now) →
        (lines env LogTime.initial rs).Pairwise (· < ·)) ∧
      ((lines env LogTime.initial rs).Pairwise (· ≤ ·) →
        (logged rs).Pairwise fun r r' => r.now ≤ r'.now) := by
  have hlines := isLine_lines hgmtime hrange hfirst
  have hrecords : List.Forall₂ (fun line r => IsLine r line) (lines env LogTime.initial rs)
      (logged rs) := hlines.flip
  refine ⟨hlines.imp fun _ _ h => h.2, ?_, ?_⟩
  · exact pairwise_of_forall₂ (fun _ _ _ _ h h' hlt => h.lt h' hlt) hlines
  · exact pairwise_of_forall₂ (fun _ _ _ _ h h' hle => IsLine.le h h' hle) hrecords

/-- A machine on which `gmtime_r` is that of the library. -/
def utcEnv : LogEnv Unit := { Logger.epochEnv with gmtime := gmtime }

def started (now : Int) : LogRecord :=
  { now := now, kind := .plain,
    file := SourceFile.ofPath ⟨"src/net/eventLoop.cpp".toList, by decide⟩,
    line := ⟨60, by decide⟩, insertions := [.char 'a'] }

theorem lines_sorted_newYear :
    (lines utcEnv LogTime.initial
      [started 946684799999999, started 946684800000000, started 946684800000001]).Pairwise
        (· < ·) := by
  refine (lines_sorted rfl ?_ ?_).2.1 ?_
  · intro r hr
    simp only [List.mem_cons, List.not_mem_nil, or_false] at hr
    rcases hr with rfl | rfl | rfl
    · exact ⟨by decide, by decide⟩
    · exact ⟨by decide, by decide⟩
    · exact ⟨by decide, by decide⟩
  · intro r hr
    cases hr
    decide
  · simp [logged, started, LoggerKind.isFatal]

end LearnMuduo
