import Mathlib.Data.Int.Order.Basic
import Mathlib.Data.Prod.Lex

/-!
# Timers

Times are microseconds since the epoch; their arithmetic is taken as not overflowing. Of a
`double` number of seconds the code uses only its sign and the microseconds it is cast to.
-/

namespace LearnMuduo

abbrev Timestamp := Int

namespace Timestamp

def kMicroSecondsPerSecond : Int := 1000 * 1000

def invalid : Timestamp := 0

def valid (t : Timestamp) : Bool := decide (0 < t)

end Timestamp

/-- A `double` of seconds: `static_cast<int64_t>(seconds * 1e6)` and `seconds > 0.0`. -/
structure Seconds where
  micros : Int
  positive : Bool
  micros_nonneg : positive = true → 0 ≤ micros

namespace Seconds

def zero : Seconds := ⟨0, false, fun _ => le_refl 0⟩

def ofMicros (n : Nat) : Seconds := ⟨n, decide (0 < n), fun _ => Int.natCast_nonneg n⟩

end Seconds

def addTime (timestamp : Timestamp) (seconds : Seconds) : Timestamp := timestamp + seconds.micros

structure Timer where
  interval : Seconds
  repeats : Bool
  sequence : Int
  expiration : Timestamp
  repeats_eq : repeats = interval.positive

namespace Timer

/-- The constructor, for the value that `++s_numCreated` takes. -/
def create (expiration : Timestamp) (interval : Seconds) (sequence : Int) : Timer :=
  ⟨interval, interval.positive, sequence, expiration, rfl⟩

theorem micros_nonneg {timer : Timer} (h : timer.repeats = true) :
    0 ≤ timer.interval.micros :=
  timer.interval.micros_nonneg (timer.repeats_eq ▸ h)

def restart (timer : Timer) (now : Timestamp) : Timer :=
  if timer.repeats then { timer with expiration := addTime now timer.interval }
  else { timer with expiration := Timestamp.invalid }

@[simp] theorem restart_interval (timer : Timer) (now : Timestamp) :
    (timer.restart now).interval = timer.interval := by
  unfold restart
  split <;> rfl

@[simp] theorem restart_repeats (timer : Timer) (now : Timestamp) :
    (timer.restart now).repeats = timer.repeats := by
  unfold restart
  split <;> rfl

@[simp] theorem restart_sequence (timer : Timer) (now : Timestamp) :
    (timer.restart now).sequence = timer.sequence := by
  unfold restart
  split <;> rfl

theorem restart_expiration {timer : Timer} (h : timer.repeats = true) (now : Timestamp) :
    (timer.restart now).expiration = now + timer.interval.micros := by
  rw [restart, if_pos h]
  rfl

end Timer

/-- The address of a `Timer`; `nullptr` is 0. -/
abbrev TimerPtr := Nat

def nullptr : TimerPtr := 0

structure TimerId where
  timer : TimerPtr
  sequence : Int
  deriving DecidableEq, Repr

/-- `std::pair<Timestamp, Timer*>` with its lexicographic order. -/
abbrev TimerEntry := Timestamp ×ₗ TimerPtr

namespace TimerEntry

def mk (expiration : Timestamp) (timer : TimerPtr) : TimerEntry := toLex (expiration, timer)

def expiration (entry : TimerEntry) : Timestamp := (ofLex entry).1

def timer (entry : TimerEntry) : TimerPtr := (ofLex entry).2

@[simp] theorem expiration_mk (t : Timestamp) (p : TimerPtr) : (mk t p).expiration = t := rfl

@[simp] theorem timer_mk (t : Timestamp) (p : TimerPtr) : (mk t p).timer = p := rfl

@[simp] theorem mk_eta (entry : TimerEntry) : mk entry.expiration entry.timer = entry := rfl

theorem lt_sentry_iff {entry : TimerEntry} {now : Timestamp} :
    entry < mk now nullptr ↔ entry.expiration < now := by
  show entry < toLex (now, 0) ↔ _
  rw [Prod.Lex.lt_iff]
  constructor
  · intro hlt
    rcases hlt with h | ⟨-, h⟩
    · exact h
    · exact absurd h (Nat.not_lt_zero _)
  · exact Or.inl

theorem expiration_le_of_lt {a b : TimerEntry} (h : a < b) : a.expiration ≤ b.expiration := by
  rcases Prod.Lex.lt_iff.mp h with h | ⟨h, -⟩
  · exact le_of_lt h
  · exact le_of_eq h

end TimerEntry

/-- `std::pair<Timer*, int64_t>` with its lexicographic order. -/
abbrev TimerIdEntry := TimerPtr ×ₗ Int

namespace TimerIdEntry

def mk (timer : TimerPtr) (sequence : Int) : TimerIdEntry := toLex (timer, sequence)

def timer (entry : TimerIdEntry) : TimerPtr := (ofLex entry).1

def sequence (entry : TimerIdEntry) : Int := (ofLex entry).2

@[simp] theorem timer_mk (p : TimerPtr) (n : Int) : (mk p n).timer = p := rfl

@[simp] theorem sequence_mk (p : TimerPtr) (n : Int) : (mk p n).sequence = n := rfl

end TimerIdEntry

end LearnMuduo
