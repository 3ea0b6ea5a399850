import LearnMuduo.Framework.Checked
import LearnMuduo.Framework.SortedSet
import LearnMuduo.Net.Timer.Timer
import Mathlib.Logic.Function.Basic

/-!
# The timer queue

The operations of `TimerQueue`, on the two ordered sets, the memory of the timers and the timer
descriptor. `memory` keeps the contents of deleted timers, so that a use after deletion has a
result; `history` records, newest first, what happened to which timer. A clock reading is an
argument wherever the kernel uses the time.
-/

namespace LearnMuduo

open Framework

structure Timespec where
  tv_sec : Int
  tv_nsec : Int
  deriving DecidableEq, Repr

namespace Timespec

def zero : Timespec := ⟨0, 0⟩

def micros (ts : Timespec) : Int := ts.tv_sec * Timestamp.kMicroSecondsPerSecond + ts.tv_nsec / 1000

end Timespec

structure Itimerspec where
  it_interval : Timespec
  it_value : Timespec
  deriving DecidableEq, Repr

/-- The kernel's timer: when it will next expire, and when it was last set. -/
structure Timerfd where
  deadline : Option Timestamp
  setAt : Option Timestamp
  deriving DecidableEq, Repr

/-- `timerfd_settime` with a relative time: a zero `it_value` disarms the timer. -/
def Timerfd.settime (_fd : Timerfd) (newValue : Itimerspec) (clock : Timestamp) : Timerfd :=
  if newValue.it_value = .zero then ⟨none, some clock⟩
  else ⟨some (clock + newValue.it_value.micros), some clock⟩

/-- A callback run: of which timer, its expiration, the timestamp of the `handleRead` that runs
it and that call's number. -/
structure TimerRun where
  timer : TimerPtr
  expiration : Timestamp
  now : Timestamp
  read : Nat
  deriving DecidableEq, Repr

inductive TimerEvent
  | added (timer : TimerPtr)
  | ran (run : TimerRun)
  | deleted (timer : TimerPtr)
  deriving DecidableEq, Repr

def TimerEvent.timer : TimerEvent → TimerPtr
  | .added timer => timer
  | .ran run => run.timer
  | .deleted timer => timer

def TimerEvent.run? : TimerEvent → Option TimerRun
  | .ran run => some run
  | _ => none

structure TimerQueue where
  timerfd : Timerfd
  timerList : SortedSet TimerEntry
  timerIdList : SortedSet TimerIdEntry
  cancelingTimers : SortedSet TimerIdEntry
  callingExpiredTimers : Bool
  memory : TimerPtr → Timer
  history : List TimerEvent

namespace TimerQueue

def create (memory : TimerPtr → Timer) : TimerQueue where
  timerfd := ⟨none, none⟩
  timerList := .empty
  timerIdList := .empty
  cancelingTimers := .empty
  callingExpiredTimers := false
  memory := memory
  history := []

/-- The key of a timer in `timerList`. -/
def entryOf (q : TimerQueue) (p : TimerPtr) : TimerEntry := .mk (q.memory p).expiration p

/-- The key of a timer in `timerIdList`. -/
def idOf (q : TimerQueue) (p : TimerPtr) : TimerIdEntry := .mk p (q.memory p).sequence

def record (q : TimerQueue) (event : TimerEvent) : TimerQueue :=
  { q with history := event :: q.history }

/-- The callbacks run so far, newest first. -/
def runs (q : TimerQueue) : List TimerRun := q.history.filterMap TimerEvent.run?

/-- `new Timer` at the address `p`, to be added to this queue. -/
def newTimer (q : TimerQueue) (p : TimerPtr) (timer : Timer) : TimerQueue :=
  { q with memory := Function.update q.memory p timer }.record (.added p)

def deleteTimer (q : TimerQueue) (p : TimerPtr) : TimerQueue := q.record (.deleted p)

def restartTimer (q : TimerQueue) (p : TimerPtr) (now : Timestamp) : TimerQueue :=
  { q with memory := Function.update q.memory p ((q.memory p).restart now) }

def runTimer (q : TimerQueue) (p : TimerPtr) (now : Timestamp) (read : Nat) : TimerQueue :=
  q.record (.ran ⟨p, (q.memory p).expiration, now, read⟩)

def sameSize (q : TimerQueue) : Bool := q.timerList.size == q.timerIdList.size

/-- The time from `now` to `when`, at least 100 microseconds. Nothing calls it. -/
def howMuchTimeFromNow (when_ now : Timestamp) : Timespec :=
  let microSeconds := if when_ - now < 100 then 100 else when_ - now
  { tv_sec := microSeconds / Timestamp.kMicroSecondsPerSecond
    tv_nsec := microSeconds % Timestamp.kMicroSecondsPerSecond * 1000 }

/-- `newValue` is zeroed and never filled in: `_expiration` is not used. -/
def resetTimerfd (q : TimerQueue) (_expiration clock : Timestamp) : TimerQueue :=
  let newValue : Itimerspec := ⟨.zero, .zero⟩
  { q with timerfd := q.timerfd.settime newValue clock }

def insert (q : TimerQueue) (p : TimerPtr) : Checked (TimerQueue × Bool) := do
  Checked.assert q.sameSize
  let expire := (q.memory p).expiration
  let earliestExpire :=
    q.timerList.isEmpty || q.timerList.first?.any fun first => decide (expire < first.expiration)
  Checked.assert (decide (q.idOf p ∉ q.timerIdList))
  let q := { q with timerIdList := q.timerIdList.insert (q.idOf p) }
  Checked.assert (decide (TimerEntry.mk expire p ∉ q.timerList))
  let q := { q with timerList := q.timerList.insert (.mk expire p) }
  Checked.assert q.sameSize
  pure (q, earliestExpire)

/-- `addTimerInLoop` of the timer at `p`. -/
def addTimerInLoop (q : TimerQueue) (p : TimerPtr) (clock : Timestamp) : Checked TimerQueue := do
  let expiration := (q.memory p).expiration
  let (q, earliestExpire) ← q.insert p
  pure (if earliestExpire then q.resetTimerfd expiration clock else q)

def cancelInLoop (q : TimerQueue) (timerId : TimerId) : Checked TimerQueue := do
  Checked.assert q.sameSize
  let timerIdEntry := TimerIdEntry.mk timerId.timer timerId.sequence
  let q :=
    if timerIdEntry ∈ q.timerIdList then
      let p := timerIdEntry.timer
      let q := { q with timerList := q.timerList.erase (q.entryOf p) }
      let q := q.deleteTimer p
      { q with timerIdList := q.timerIdList.erase timerIdEntry }
    else if q.callingExpiredTimers then
      { q with cancelingTimers := q.cancelingTimers.insert timerIdEntry }
    else q
  Checked.assert q.sameSize
  pure q

/-- The public `cancelTimer`: its body is a comment. -/
def cancelTimer (q : TimerQueue) (_timerSequence : Int) : TimerQueue := q

/-- The loop of `getExpired` that removes the expired timers from `timerIdList`. -/
def eraseIds (q : TimerQueue) : List TimerEntry → Checked TimerQueue
  | [] => pure q
  | entry :: expired => do
      let timer := q.idOf entry.timer
      Checked.assert (decide (timer ∈ q.timerIdList))
      { q with timerIdList := q.timerIdList.erase timer }.eraseIds expired

def getExpired (q : TimerQueue) (now : Timestamp) : Checked (List TimerEntry × TimerQueue) := do
  Checked.assert q.sameSize
  let sentry := TimerEntry.mk now nullptr
  let expiredTimers := q.timerList.below sentry
  let remaining := q.timerList.notBelow sentry
  Checked.assert (remaining.first?.all fun first => decide (now < first.expiration))
  let q ← { q with timerList := remaining }.eraseIds expiredTimers
  Checked.assert q.sameSize
  pure (expiredTimers, q)

/-- One turn of the loop of `reset`. -/
def resetEntry (q : TimerQueue) (entry : TimerEntry) (now : Timestamp) : Checked TimerQueue :=
  let p := entry.timer
  if (q.memory p).repeats ∧ q.idOf p ∉ q.cancelingTimers then do
    let (q, _) ← (q.restartTimer p now).insert p
    pure q
  else pure (q.deleteTimer p)

def resetEntries (q : TimerQueue) (now : Timestamp) : List TimerEntry → Checked TimerQueue
  | [] => pure q
  | entry :: expired => do
      let q ← q.resetEntry entry now
      q.resetEntries now expired

theorem frame_resetEntries (q : TimerQueue) (now : Timestamp) (batch : List TimerEntry) :
    (q.resetEntries now batch).val.timerfd = q.timerfd ∧
      (q.resetEntries now batch).val.runs = q.runs := by
  induction batch generalizing q with
  | nil => exact ⟨rfl, rfl⟩
  | cons e batch ih =>
      have hentry : (q.resetEntry e now).val.timerfd = q.timerfd ∧
          (q.resetEntry e now).val.runs = q.runs := by
        unfold resetEntry
        dsimp only
        split <;> exact ⟨rfl, rfl⟩
      simp only [resetEntries, Checked.val_bind]
      exact ⟨(ih _).1.trans hentry.1, (ih _).2.trans hentry.2⟩

def reset (q : TimerQueue) (expired : List TimerEntry) (now clock : Timestamp) :
    Checked TimerQueue := do
  let q ← q.resetEntries now expired
  let nextExpiration :=
    match q.timerList.first? with
    | some first => (q.memory first.timer).expiration
    | none => Timestamp.invalid
  pure (if nextExpiration.valid then q.resetTimerfd nextExpiration clock else q)

/-- `handleRead` up to its loop. -/
def handleReadBegin (q : TimerQueue) (timestamp : Timestamp) :
    Checked (List TimerEntry × TimerQueue) := do
  let (expired, q) ← q.getExpired timestamp
  pure (expired, { q with callingExpiredTimers := true, cancelingTimers := .empty })

/-- `handleRead` after its loop. -/
def handleReadEnd (q : TimerQueue) (expired : List TimerEntry) (timestamp clock : Timestamp) :
    Checked TimerQueue :=
  { q with callingExpiredTimers := false }.reset expired timestamp clock

end TimerQueue

/-- A `handleRead` in progress: its timestamp, the expired timers whose callbacks have started
and those still to come, and whether a callback is running. -/
structure Activation where
  now : Timestamp
  started : List TimerEntry
  waiting : List TimerEntry
  inCallback : Bool

def Activation.expired (a : Activation) : List TimerEntry := a.started ++ a.waiting

/-- The queue, the `handleRead` in progress, and how many `handleRead`s there have been. -/
structure TimerState where
  queue : TimerQueue
  activation : Option Activation
  reads : Nat

namespace TimerState

def initial (memory : TimerPtr → Timer) : TimerState := ⟨.create memory, none, 0⟩

/-- The loop thread is outside `handleRead` or inside a callback. -/
def acceptsCalls (s : TimerState) : Prop := ∀ a, s.activation = some a → a.inCallback = true

/-- The batch being executed. -/
def batch (s : TimerState) : List TimerEntry := (s.activation.map Activation.expired).getD []

end TimerState

inductive TimerLabel
  | addTimerInLoop (p : TimerPtr) (timer : Timer) (clock : Timestamp)
  | cancelInLoop (timerId : TimerId)
  | handleRead (timestamp : Timestamp)
  | callback (p : TimerPtr)
  | callbackReturn
  | handleReadReturn (clock : Timestamp)

/-- The loop thread's steps: calls of the queue, and the stages of `handleRead` between which
callbacks may call the queue again. An added timer is at an address that no added timer had. -/
inductive TimerStep : TimerState → TimerLabel → TimerState → Prop
  | addTimerInLoop {s : TimerState} {p : TimerPtr} {timer : Timer} {clock : Timestamp} :
      s.acceptsCalls → .added p ∉ s.queue.history →
      TimerStep s (.addTimerInLoop p timer clock)
        { s with queue := ((s.queue.newTimer p timer).addTimerInLoop p clock).val }
  | cancelInLoop {s : TimerState} {timerId : TimerId} :
      s.acceptsCalls →
      TimerStep s (.cancelInLoop timerId)
        { s with queue := (s.queue.cancelInLoop timerId).val }
  | handleRead {q : TimerQueue} {reads : Nat} {timestamp : Timestamp} :
      TimerStep ⟨q, none, reads⟩ (.handleRead timestamp)
        { queue := (q.handleReadBegin timestamp).val.2
          activation := some ⟨timestamp, [], (q.handleReadBegin timestamp).val.1, false⟩
          reads := reads + 1 }
  | callback {q : TimerQueue} {reads : Nat} {now : Timestamp} {started waiting : List TimerEntry}
      {entry : TimerEntry} :
      TimerStep ⟨q, some ⟨now, started, entry :: waiting, false⟩, reads⟩ (.callback entry.timer)
        { queue := q.runTimer entry.timer now reads
          activation := some ⟨now, started ++ [entry], waiting, true⟩
          reads := reads }
  | callbackReturn {q : TimerQueue} {reads : Nat} {now : Timestamp}
      {started waiting : List TimerEntry} :
      TimerStep ⟨q, some ⟨now, started, waiting, true⟩, reads⟩ .callbackReturn
        ⟨q, some ⟨now, started, waiting, false⟩, reads⟩
  | handleReadReturn {q : TimerQueue} {reads : Nat} {now clock : Timestamp}
      {started : List TimerEntry} :
      TimerStep ⟨q, some ⟨now, started, [], false⟩, reads⟩ (.handleReadReturn clock)
        { queue := (q.handleReadEnd started now clock).val
          activation := none
          reads := reads }

end LearnMuduo
