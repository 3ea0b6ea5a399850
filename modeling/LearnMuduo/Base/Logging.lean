import LearnMuduo.Base.LogStream
import Mathlib.Data.List.DropRight

/-!
# The logger

A `Logger` writes a header into its stream as it is built, takes what the user inserts, and hands
the record with a trailer to the output function as it is destroyed. The time in the header is kept
as text from one record of a thread to the next.
-/

namespace LearnMuduo

open Framework

/-- `snprintf(m, sizeof m, …)`: the memory after it, and the length of the whole text. -/
def snprintf (m text : List Char) : List Char × Int :=
  (overwrite m 0 (text.take (m.length - 1) ++ ['\x00']), text.length)

/-- `%5d` and the like -/
def blankPadded (width : Nat) (v : Int) : List Char := (numeralText 10 v).leftpad width ' '

/-- `%06d` and the like: the zeros stand behind the sign. -/
def zeroPadded (width : Nat) (v : Int) : List Char :=
  if v < 0 then '-' :: ((numeral 10 v.natAbs).map digitChar).leftpad (width - 1) '0'
  else ((numeral 10 v.natAbs).map digitChar).leftpad width '0'

/-- The fields of `struct tm` that are printed. -/
structure Tm where
  year : Int
  mon : Int
  mday : Int
  hour : Int
  min : Int
  sec : Int
  deriving DecidableEq, Repr

/-- `%4d%02d%02d %02d:%02d:%02d` -/
def timeText (tm : Tm) : List Char :=
  blankPadded 4 (tm.year + 1900) ++ zeroPadded 2 (tm.mon + 1) ++ zeroPadded 2 tm.mday ++ ' ' ::
    zeroPadded 2 tm.hour ++ ':' :: zeroPadded 2 tm.min ++ ':' :: zeroPadded 2 tm.sec

/-- What the logger takes from outside; `Z` are the valid time zones. -/
structure LogEnv (Z : Type) where
  toLocalTime : Z → Int → Tm
  gmtime : Int → Tm
  strerror : Int → CString
  tid : IntegerType.int.Value

/-- The time zone in force, none if it is not valid, makes the calendar time. -/
def LogEnv.tmOf {Z : Type} (env : LogEnv Z) (zone : Option Z) (seconds : Int) : Tm :=
  match zone with
  | some z => env.toLocalTime z seconds
  | none => env.gmtime seconds

/-- `tls_timeString` and `tls_lastSecond` of a thread, and `g_logTimeZone`. -/
structure LogTime (Z : Type) where
  timeString : List Char
  lastSecond : Int
  zone : Option Z
  length_timeString : timeString.length = 64

def LogTime.initial {Z : Type} : LogTime Z where
  timeString := List.replicate 64 '\x00'
  lastSecond := 0
  zone := none
  length_timeString := List.length_replicate

theorem length_snprintf {m : List Char} (h : 0 < m.length) (text : List Char) :
    (snprintf m text).1.length = m.length := by
  apply length_overwrite
  rw [List.length_append, List.length_take, List.length_singleton]
  omega

/-- The formatted time of another second is kept. -/
def LogTime.refresh {Z : Type} (t : LogTime Z) (seconds : Int) (text : List Char) : LogTime Z where
  timeString := (snprintf t.timeString text).1
  lastSecond := seconds
  zone := t.zone
  length_timeString := by
    rw [length_snprintf (by rw [t.length_timeString]; decide), t.length_timeString]

namespace LogStream

/-- `operator<<` of a `T`, whose constructor checks the length. -/
def insertT (b : LogStream) (str : List Char) (len : Nat) : Checked LogStream := do
  Checked.assert (strlen str = len)
  b.appendInt str (intOfSize len)

end LogStream

def kMicroSecondsPerSecond : Int := 1000 * 1000

/-- `static_cast<time_t>(microSecondsSinceEpoch / kMicroSecondsPerSecond)` -/
def secondOf (microSecondsSinceEpoch : Int) : Int :=
  microSecondsSinceEpoch.tdiv kMicroSecondsPerSecond

/-- The time is formatted when the second is not the one that is kept. -/
def LogTime.renew {Z : Type} (env : LogEnv Z) (t : LogTime Z) (seconds : Int) :
    Checked (LogTime Z) :=
  if seconds ≠ t.lastSecond then do
    let text := timeText (env.tmOf t.zone seconds)
    Checked.assert (text.length = 17)
    pure (t.refresh seconds text)
  else pure t

/-- `m_buf` of a `Fmt` -/
def fmt (text : List Char) : Checked (List Char × Int) := do
  let (buf, length) := snprintf (List.replicate 32 '\x00') text
  Checked.assert (length < 32)
  pure (buf, length)

/-- `Logger::Impl::formatTime` -/
def formatTime {Z : Type} (env : LogEnv Z) (t : LogTime Z) (microSecondsSinceEpoch : Int)
    (b : LogStream) : Checked (LogStream × LogTime Z) := do
  let seconds := secondOf microSecondsSinceEpoch
  let microseconds := wrapInt (microSecondsSinceEpoch.tmod kMicroSecondsPerSecond)
  let t ← t.renew env seconds
  if t.zone.isSome then do
    let (us, length) ← fmt ('.' :: zeroPadded 6 microseconds ++ [' '])
    Checked.assert (length = 8)
    let b ← b.insertT t.timeString 17
    let b ← b.insertT us 8
    pure (b, t)
  else do
    let (us, length) ← fmt ('.' :: zeroPadded 6 microseconds ++ ['Z', ' '])
    Checked.assert (length = 9)
    let b ← b.insertT t.timeString 17
    let b ← b.insertT us 9
    pure (b, t)

inductive LogLevel
  | trace
  | debug
  | info
  | warn
  | error
  | fatal
  deriving DecidableEq, Repr

/-- `LogLevelName` -/
def LogLevel.name : LogLevel → List Char
  | .trace => "TRACE ".toList
  | .debug => "DEBUG ".toList
  | .info => "INFO  ".toList
  | .warn => "WARN  ".toList
  | .error => "ERROR ".toList
  | .fatal => "FATAL ".toList

/-- The name of a source file without its directories. -/
structure SourceFile where
  name : CString

namespace SourceFile

/-- `strrchr(filename, '/')` finds the last slash. -/
def ofPath (filename : CString) : SourceFile where
  name :=
    { text := filename.text.rtakeWhile (· ≠ '/')
      noNul := fun h => filename.noNul ((List.rtakeWhile_suffix _ _).subset h) }

/-- `m_size` -/
def size (file : SourceFile) : Int := intOfSize file.name.text.length

end SourceFile

structure Logger where
  stream : LogStream
  level : LogLevel
  line : IntegerType.int.Value
  basename : SourceFile

/-- The constructors of `Logger` -/
inductive LoggerKind
  | plain
  | func (level : LogLevel) (func : Option CString)
  | level (level : LogLevel)
  | system (toAbort : Bool) (errno : IntegerType.int.Value)

namespace Logger

variable {Z : Type}

/-- `T(getTidString(), getTidStringLength())` -/
def insertTid (env : LogEnv Z) (b : LogStream) : Checked LogStream :=
  let (tidString, tidStringLength) :=
    snprintf (List.replicate 32 '\x00') (blankPadded 5 env.tid ++ [' '])
  b.insertT tidString (sizeOfInt tidStringLength)

def insertErrno (env : LogEnv Z) (savedErrno : IntegerType.int.Value) (b : LogStream) :
    Checked LogStream :=
  if savedErrno.val ≠ 0 then
    b.insertAll [.cString (some (env.strerror savedErrno)),
      .cString (some ⟨" (errno=".toList, by decide⟩), .integer .int savedErrno,
      .cString (some ⟨") ".toList, by decide⟩)]
  else pure b

/-- The constructor of `Logger::Impl` -/
def impl (env : LogEnv Z) (t : LogTime Z) (now : Int) (level : LogLevel)
    (savedErrno : IntegerType.int.Value) (file : SourceFile) (line : IntegerType.int.Value) :
    Checked (Logger × LogTime Z) := do
  let (b, t) ← formatTime env t now LogStream.create
  let b ← insertTid env b
  let b ← b.insertT (level.name ++ ['\x00']) 6
  let b ← insertErrno env savedErrno b
  pure (⟨b, level, line, file⟩, t)

def create (env : LogEnv Z) (t : LogTime Z) (now : Int) (kind : LoggerKind) (file : SourceFile)
    (line : IntegerType.int.Value) : Checked (Logger × LogTime Z) :=
  let noErrno : IntegerType.int.Value := ⟨0, by decide⟩
  match kind with
  | .plain => impl env t now .info noErrno file line
  | .func level func => do
    let (l, t) ← impl env t now level noErrno file line
    let b ← l.stream.insertAll [.cString func, .char ' ']
    pure ({ l with stream := b }, t)
  | .level level => impl env t now level noErrno file line
  | .system toAbort errno => impl env t now (if toAbort then .fatal else .error) errno file line

/-- What the user inserts into `stream()` -/
def insertAll (l : Logger) (is : List Insertion) : Checked Logger := do
  let b ← l.stream.insertAll is
  pure { l with stream := b }

/-- `Logger::Impl::finish` -/
def finish (l : Logger) : Checked Logger := do
  let b ← l.stream.insert (.cString (some ⟨" - ".toList, by decide⟩))
  let b ← b.appendInt l.basename.name.memory l.basename.size
  let b ← b.insertAll [.char ':', .integer .int l.line, .char '\n']
  pure { l with stream := b }

/-- The destructor: what the output function is given, and whether the process is aborted. -/
def destruct (l : Logger) : Checked (List Char × Bool) := do
  let l ← l.finish
  pure (l.stream.data.take (sizeOfInt l.stream.length), l.level = .fatal)

end Logger

theorem length_blankPadded_le {τ : IntegerType} {v : Int} (hv : τ.Holds v) {width : Nat}
    (hwidth : width ≤ 21) : (blankPadded width v).length ≤ 21 := by
  have hlen := hv.length_decimal
  rw [blankPadded, List.length_leftpad]
  omega

namespace LogStream

variable {b : LogStream}

theorem val_insertT {str : List Char} {len : Nat} (hint : len < 2 ^ 31) :
    (b.insertT str len).val = (b.append str len).val := by
  have hsize : sizeOfInt (intOfSize len) = len := by
    rw [intOfSize_of_lt hint, sizeOfInt_natCast (by omega)]
  change (b.append str (sizeOfInt (intOfSize len))).val = _
  rw [hsize]

theorem inside_insertT (h : b.Inside) {str : List Char} {len : Nat} (hint : len < 2 ^ 31)
    (hlen : len ≤ str.length) : (b.insertT str len).val.Inside := by
  rw [val_insertT hint]
  exact (h.leaves_append smallBuffer_lt fun _ => hlen).inside

theorem content_insertT (h : b.Inside) {str : List Char} {len : Nat} (hint : len < 2 ^ 31)
    (hlen : len ≤ str.length) : (b.insertT str len).val.content =
      if len + 1 ≤ kSmallBuffer - b.content.length then b.content ++ str.take len
      else b.content := by
  rw [val_insertT hint]
  exact (h.leaves_append smallBuffer_lt fun _ => hlen).content

end LogStream

section Header

variable {Z : Type} {env : LogEnv Z} {t : LogTime Z} {now : Int} {b : LogStream}

theorem length_fmt (text : List Char) : (fmt text).val.1.length = 32 :=
  length_snprintf (by simp) text

theorem formatTime_val (env : LogEnv Z) (t : LogTime Z) (now : Int) (b : LogStream) :
    ∃ us len, len ≤ 32 ∧ (formatTime env t now b).val =
      (((b.insertT (t.renew env (secondOf now)).val.timeString 17).val.insertT
        (fmt us).val.1 len).val, (t.renew env (secondOf now)).val) := by
  cases hzone : (t.renew env (secondOf now)).val.zone.isSome with
  | true =>
      refine ⟨'.' :: zeroPadded 6 (wrapInt (now.tmod kMicroSecondsPerSecond)) ++ [' '], 8,
        by decide, ?_⟩
      simp only [formatTime, Checked.val_bind, hzone, if_true]
      rfl
  | false =>
      refine ⟨'.' :: zeroPadded 6 (wrapInt (now.tmod kMicroSecondsPerSecond)) ++ ['Z', ' '], 9,
        by decide, ?_⟩
      simp only [formatTime, Checked.val_bind, hzone, Bool.false_eq_true, if_false]
      rfl

theorem inside_insertTime (h : b.Inside) (t : LogTime Z) :
    (b.insertT t.timeString 17).val.Inside :=
  LogStream.inside_insertT h (by decide) (by rw [t.length_timeString]; decide)

theorem inside_formatTime (h : b.Inside) : (formatTime env t now b).val.1.Inside := by
  rcases formatTime_val env t now b with ⟨us, len, hlen, hval⟩
  rw [hval]
  exact LogStream.inside_insertT (inside_insertTime h _) (by omega) (by rw [length_fmt]; exact hlen)

namespace Logger

theorem inside_insertTid (h : b.Inside) : (insertTid env b).val.Inside := by
  have htext : (blankPadded 5 env.tid ++ [' ']).length ≤ 22 := by
    have hlen := length_blankPadded_le env.tid.property (show 5 ≤ 21 by decide)
    rw [List.length_append, List.length_singleton]
    omega
  have hsize : sizeOfInt ((blankPadded 5 env.tid ++ [' ']).length : Int) =
      (blankPadded 5 env.tid ++ [' ']).length :=
    sizeOfInt_natCast (by omega)
  have hmemory : (snprintf (List.replicate 32 '\x00')
      (blankPadded 5 env.tid ++ [' '])).1.length = 32 :=
    length_snprintf (by decide) _
  change (b.insertT (snprintf (List.replicate 32 '\x00') (blankPadded 5 env.tid ++ [' '])).1
    (sizeOfInt ((blankPadded 5 env.tid ++ [' ']).length : Int))).val.Inside
  rw [hsize]
  exact LogStream.inside_insertT h (by omega) (by omega)

theorem inside_insertErrno (h : b.Inside) (savedErrno : IntegerType.int.Value) :
    (insertErrno env savedErrno b).val.Inside := by
  rw [insertErrno]
  split
  · exact (LogStream.leaves_insertAll h _).inside
  · exact h

theorem inside_impl (level : LogLevel) (savedErrno : IntegerType.int.Value) (file : SourceFile)
    (line : IntegerType.int.Value) :
    (impl env t now level savedErrno file line).val.1.stream.Inside := by
  have hname : 6 ≤ (level.name ++ ['\x00']).length := by
    cases level <;> decide
  have htid : (insertTid env (formatTime env t now LogStream.create).val.1).val.Inside :=
    inside_insertTid (inside_formatTime LogStream.inside_create)
  exact inside_insertErrno (LogStream.inside_insertT htid (by decide) hname) savedErrno

theorem inside_create (kind : LoggerKind) (file : SourceFile) (line : IntegerType.int.Value) :
    (create env t now kind file line).val.1.stream.Inside := by
  cases kind with
  | plain => exact inside_impl _ _ _ _
  | level level => exact inside_impl _ _ _ _
  | system toAbort errno => exact inside_impl _ _ _ _
  | func level func =>
      have himpl := @inside_impl Z env t now level ⟨0, by decide⟩ file line
      exact (LogStream.leaves_insertAll himpl [.cString func, .char ' ']).inside

theorem inside_insertAll {l : Logger} (h : l.stream.Inside) (is : List Insertion) :
    (l.insertAll is).val.stream.Inside :=
  (LogStream.leaves_insertAll h is).inside

end Logger

end Header

theorem SourceFile.size_le (file : SourceFile) (h : sizeOfInt file.size < kSmallBuffer) :
    sizeOfInt file.size ≤ file.name.text.length := by
  rw [size, sizeOfInt_intOfSize, kSmallBuffer] at *
  split at h <;> split <;> omega

namespace Logger

variable {l : Logger}

/-- The characters of the name that are printed. -/
def shown (file : SourceFile) : List Char := file.name.text.take (sizeOfInt file.size)

def putName (log : List Char) (file : SourceFile) : List Char :=
  if sizeOfInt file.size + 1 ≤ kSmallBuffer - log.length then log ++ shown file else log

/-- The record after the separator and the file name. -/
def afterName (log : List Char) (file : SourceFile) : List Char :=
  putName (Insertion.pieces.put kSmallBuffer log (.cString (some ⟨" - ".toList, by decide⟩))) file

/-- The rest of the trailer. -/
def afterLine (log : List Char) (line : IntegerType.int.Value) : List Char :=
  [.char ':', .integer .int line, .char '\n'].foldl (Insertion.pieces.put kSmallBuffer) log

theorem length_shown {file : SourceFile} (h : sizeOfInt file.size < kSmallBuffer) :
    (shown file).length = sizeOfInt file.size :=
  List.length_take_of_le (file.size_le h)

theorem length_afterName_lt {log : List Char} (h : log.length < kSmallBuffer) (file : SourceFile) :
    (afterName log file).length < kSmallBuffer := by
  have hsep := Insertion.pieces.length_put_lt h
    (a := .cString (some ⟨" - ".toList, by decide⟩))
  rw [afterName, putName]
  split
  · rw [List.length_append, length_shown (by omega)]
    omega
  · exact hsep

theorem leaves_basename {b : LogStream} (h : b.Inside) (file : SourceFile) :
    FixedBuffer.Leaves (b.appendInt file.name.memory file.size) (putName b.content file) := by
  have hread : sizeOfInt file.size < kSmallBuffer →
      sizeOfInt file.size ≤ file.name.memory.length := by
    intro hsize
    have hle := file.size_le hsize
    rw [CString.memory, List.length_append]
    omega
  have happend := h.leaves_append LogStream.smallBuffer_lt hread
  rw [putName]
  by_cases hfits : sizeOfInt file.size + 1 ≤ kSmallBuffer - b.content.length
  · have htake : file.name.memory.take (sizeOfInt file.size) = shown file :=
      List.take_append_of_le_length (file.size_le (by omega))
    rw [if_pos hfits] at happend ⊢
    rwa [htake] at happend
  · rw [if_neg hfits] at happend ⊢
    exact happend

theorem leaves_finish (h : l.stream.Inside) :
    (l.finish).val.stream.Inside ∧
      (l.finish).val.stream.content = afterLine (afterName l.stream.content l.basename) l.line := by
  have hsep := LogStream.leaves_insert h (.cString (some ⟨" - ".toList, by decide⟩))
  have hname := leaves_basename hsep.inside l.basename
  rw [hsep.content] at hname
  have hline := LogStream.leaves_insertAll hname.inside
    [.char ':', .integer .int l.line, .char '\n']
  rw [hname.content] at hline
  simp only [finish, Checked.val_bind, Checked.val_pure]
  exact ⟨hline.inside, hline.content⟩

theorem output_destruct (h : l.stream.Inside) :
    l.destruct.val.1 = afterLine (afterName l.stream.content l.basename) l.line := by
  rcases leaves_finish h with ⟨hinside, hcontent⟩
  rw [← hcontent, ← hinside.take_length LogStream.smallBuffer_lt]
  simp only [destruct, Checked.val_bind, Checked.val_pure]

/-- The newline gets in unless at most one character is free behind the colon; else the record ends
with what was there before. -/
theorem getLast?_afterLine {log : List Char} (h : log.length < kSmallBuffer)
    (line : IntegerType.int.Value) :
    (afterLine log line).getLast? = some '\n' ↔
      log.length ≤ 3997 ∨ (log.length = 3999 ∧ log.getLast? = some '\n') := by
  have hchar : ∀ (log : List Char) (c : Char),
      Insertion.pieces.put kSmallBuffer log (.char c) =
        if log.length ≤ 3998 then log ++ [c] else log :=
    fun log c => Insertion.put_eq (i := .char c) rfl log
  have hnumber : ∀ log : List Char, Insertion.pieces.put kSmallBuffer log (.integer .int line) =
      if log.length ≤ 3968 then log ++ numeralText 10 line else log :=
    fun log => Insertion.put_eq (i := .integer .int line) rfl log
  have hline := line.property.length_decimal
  rw [kSmallBuffer] at h
  rw [afterLine, List.foldl_cons, List.foldl_cons, List.foldl_cons, List.foldl_nil, hchar, hnumber,
    hchar]
  rcases (show log.length ≤ 3997 ∨ log.length = 3998 ∨ log.length = 3999 by omega) with
    hroom | hcolon | hfull
  · -- the number leaves room for the newline
    have hlen : (log ++ [':']).length = log.length + 1 := by
      rw [List.length_append, List.length_singleton]
    have hbefore : (if (log ++ [':']).length ≤ 3968 then log ++ [':'] ++ numeralText 10 line
        else log ++ [':']).length ≤ 3998 := by
      split
      · rw [List.length_append]
        omega
      · omega
    rw [if_pos (show log.length ≤ 3998 by omega), if_pos hbefore, List.getLast?_concat]
    simp [hroom]
  · have hlast : ¬ (log ++ [':']).length ≤ 3998 := by
      rw [List.length_append, List.length_singleton]
      omega
    rw [if_pos (show log.length ≤ 3998 by omega),
      if_neg (show ¬ (log ++ [':']).length ≤ 3968 by omega), if_neg hlast, List.getLast?_concat]
    simp
    omega
  · rw [if_neg (show ¬ log.length ≤ 3998 by omega), if_neg (show ¬ log.length ≤ 3968 by omega),
      if_neg (show ¬ log.length ≤ 3998 by omega)]
    simp [hfull]

/-- With `used` characters in the stream and `n` in the file name, the newline fits: all pieces
before it are taken, or the file name is dropped, or the separator and perhaps the file name are. -/
def RoomForNewline (used n : Nat) : Prop :=
  used + n ≤ 3994 ∨ (used ≤ 3994 ∧ 3997 ≤ used + n) ∨ (used = 3997 ∧ (n = 0 ∨ 3 ≤ n))

/-- The last free character is taken by a newline of the user's text or of the file name. -/
def EndsAlready (log name : List Char) (n : Nat) : Prop :=
  (log.length = 3999 ∧ log.getLast? = some '\n') ∨
    (name.getLast? = some '\n' ∧
      (log.length + n = 3996 ∨ (3997 ≤ log.length ∧ log.length + n = 3999)))

/-- What the file name does to the last two characters of the buffer. -/
theorem putName_iff {log : List Char} (h : log.length < kSmallBuffer) (file : SourceFile) :
    ((putName log file).length ≤ 3997 ∨
        ((putName log file).length = 3999 ∧ (putName log file).getLast? = some '\n')) ↔
      log.length + sizeOfInt file.size ≤ 3997 ∨
        (log.length ≤ 3997 ∧ 4000 ≤ log.length + sizeOfInt file.size) ∨
        (log.length = 3999 ∧ log.getLast? = some '\n') ∨
        (log.length + sizeOfInt file.size = 3999 ∧ (shown file).getLast? = some '\n') := by
  have hname := @length_shown file
  rw [kSmallBuffer] at h hname
  rw [putName, kSmallBuffer]
  generalize shown file = name at *
  generalize sizeOfInt file.size = n at *
  by_cases htaken : n + 1 ≤ 4000 - log.length
  · have hn : name.length = n := hname (by omega)
    rw [if_pos htaken]
    by_cases hempty : name = []
    · subst hempty
      rw [List.length_nil] at hn
      simp only [List.append_nil, List.getLast?_nil, reduceCtorEq, and_false, or_false]
      grind
    · have hpos := List.length_pos_iff.mpr hempty
      have hfull : log.length ≠ 3999 := by
        omega
      simp only [List.length_append, hn, List.getLast?_append_of_ne_nil log hempty, hfull,
        false_and, false_or]
      grind
  · have hlong : log.length + n ≠ 3999 := by
      omega
    rw [if_neg htaken]
    simp only [hlong, false_and, or_false]
    grind

theorem afterName_iff {log : List Char} (h : log.length < kSmallBuffer) (file : SourceFile) :
    ((afterName log file).length ≤ 3997 ∨
        ((afterName log file).length = 3999 ∧ (afterName log file).getLast? = some '\n')) ↔
      RoomForNewline log.length (sizeOfInt file.size) ∨
        EndsAlready log (shown file) (sizeOfInt file.size) := by
  have hsep : Insertion.pieces.put kSmallBuffer log (.cString (some ⟨" - ".toList, by decide⟩)) =
      if log.length ≤ 3996 then log ++ " - ".toList else log :=
    Insertion.put_eq rfl log
  rw [afterName, hsep, RoomForNewline, EndsAlready]
  by_cases hseparator : log.length ≤ 3996
  · have hlen : (log ++ " - ".toList).length = log.length + 3 := by
      simp
    have hblank : (log ++ " - ".toList).getLast? ≠ some '\n' := by
      simp
    have hfit : (log ++ " - ".toList).length < kSmallBuffer := by
      rw [hlen, kSmallBuffer]
      omega
    rw [if_pos hseparator, putName_iff hfit, hlen]
    grind
  · rw [if_neg hseparator, putName_iff h]
    rw [kSmallBuffer] at h
    grind

theorem basename_create (env : LogEnv Z) (t : LogTime Z) (now : Int) (kind : LoggerKind)
    (file : SourceFile) (line : IntegerType.int.Value) :
    (create env t now kind file line).val.1.basename = file := by
  cases kind with
  | _ => rfl

/-- A record ends with a newline if and only if the stream has room for the newline of the trailer,
or a newline stands in its last character already. -/
theorem record_terminated_iff (env : LogEnv Z) (t : LogTime Z) (now : Int) (kind : LoggerKind)
    (file : SourceFile) (line : IntegerType.int.Value) (is : List Insertion) :
    let l := ((create env t now kind file line).val.1.insertAll is).val
    l.destruct.val.1.getLast? = some '\n' ↔
      RoomForNewline l.stream.content.length (sizeOfInt file.size) ∨
        EndsAlready l.stream.content (shown file) (sizeOfInt file.size) := by
  intro l
  have hinside : l.stream.Inside := inside_insertAll (inside_create kind file line) is
  have hbasename : l.basename = file := basename_create env t now kind file line
  have hcontent : l.stream.content.length < kSmallBuffer := by
    rw [hinside.length_content]
    exact hinside.curPos_lt
  rw [output_destruct hinside, hbasename, getLast?_afterLine (length_afterName_lt hcontent file),
    afterName_iff hcontent]

/-- A machine without time zones. -/
def epochEnv : LogEnv Unit where
  toLocalTime := fun _ _ => ⟨70, 0, 1, 0, 0, 0⟩
  gmtime := fun _ => ⟨70, 0, 1, 0, 0, 1⟩
  strerror := fun _ => ⟨"Success".toList, by decide⟩
  tid := ⟨4711, by decide⟩

/-- A text of 3961 characters fills the stream up to the last character. -/
def fullRecord : List Char :=
  (do
    let (l, _) ← create epochEnv LogTime.initial 1000000 .plain
      (SourceFile.ofPath ⟨"src/main.cc".toList, by decide⟩) ⟨12, by decide⟩
    let l ← l.insertAll [.string (List.replicate 3961 'x')]
    l.destruct).val.1

theorem fullRecord_not_terminated : fullRecord.getLast? ≠ some '\n' := by
  decide +kernel

end Logger

end LearnMuduo
