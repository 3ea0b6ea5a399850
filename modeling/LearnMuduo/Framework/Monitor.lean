import Mathlib.Logic.Function.Basic

/-!
# A mutex with its condition variables

Threads `T` lock one mutex and wait on condition variables `V`. A thread that waits gives the mutex
up and sleeps; when it is notified, or wakes on its own, it has to lock again.
-/

namespace Framework

structure Monitor (T V : Type*) where
  holder : Option T
  sleeping : T → Option V

namespace Monitor

variable {T V : Type*}

/-- Nobody holds the mutex, nobody waits. -/
def free : Monitor T V where
  holder := none
  sleeping := fun _ => none

/-- What a thread that locks has to wait for. -/
def CanLock (m : Monitor T V) (t : T) : Prop :=
  m.holder = none ∧ m.sleeping t = none

def lock (m : Monitor T V) (t : T) : Monitor T V :=
  { m with holder := some t }

def unlock (m : Monitor T V) : Monitor T V :=
  { m with holder := none }

def wait [DecidableEq T] (m : Monitor T V) (t : T) (c : V) : Monitor T V where
  holder := none
  sleeping := Function.update m.sleeping t (some c)

def notifyAll [DecidableEq V] (m : Monitor T V) (c : V) : Monitor T V :=
  { m with sleeping := fun t => if m.sleeping t = some c then none else m.sleeping t }

/-- A spurious wakeup. -/
def wake [DecidableEq T] (m : Monitor T V) (t : T) : Monitor T V :=
  { m with sleeping := Function.update m.sleeping t none }

theorem notifyAll_sleeping_of_none [DecidableEq V] {m : Monitor T V} {c : V} {t : T}
    (h : m.sleeping t = none) : (m.notifyAll c).sleeping t = none := by
  simp only [notifyAll, h]
  split
  · rfl
  · rfl

end Monitor

end Framework
