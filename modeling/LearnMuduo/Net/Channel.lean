import LearnMuduo.Framework.Checked

/-!
# Channels

A channel holds the interest of one descriptor. Its setters change the interest and then tell
the poller (`update`); the pollers' side of that call is modelled with each poller.
-/

namespace LearnMuduo

open Framework

structure Channel where
  fd : Int
  events : BitVec 32
  index : Int
  deriving DecidableEq, Repr

namespace Channel

/-- `POLLIN` -/
def pollIn : BitVec 32 := 1

/-- `POLLPRI` -/
def pollPri : BitVec 32 := 2

/-- `POLLOUT` -/
def pollOut : BitVec 32 := 4

/-- `POLLHUP` -/
def pollHup : BitVec 32 := 16

def noneEvent : BitVec 32 := 0

/-- `POLLIN | POLLPRI` -/
def readEvent : BitVec 32 := 1 ||| 2

/-- `POLLOUT` -/
def writeEvent : BitVec 32 := 4

def create (fd : Int) : Channel := ⟨fd, noneEvent, -1⟩

def enableRead (c : Channel) : Channel := { c with events := c.events ||| readEvent }

def enableWrite (c : Channel) : Channel := { c with events := c.events ||| writeEvent }

def disableRead (c : Channel) : Channel := { c with events := c.events &&& ~~~readEvent }

def disableWrite (c : Channel) : Channel := { c with events := c.events &&& ~~~writeEvent }

def disableAll (c : Channel) : Channel := { c with events := noneEvent }

def isWriting (c : Channel) : Bool := c.events &&& writeEvent != 0

def isReading (c : Channel) : Bool := c.events &&& readEvent != 0

def isNoneEvent (c : Channel) : Bool := c.events == noneEvent

def setIndex (c : Channel) (index : Int) : Channel := { c with index := index }

def remove (c : Channel) : Checked Channel := do
  Checked.assert c.isNoneEvent
  pure c

@[simp] theorem isWriting_create (fd : Int) : (create fd).isWriting = false := by
  simp [isWriting, create, noneEvent]

@[simp] theorem isWriting_enableRead (c : Channel) : c.enableRead.isWriting = c.isWriting := by
  have hdisjoint : readEvent &&& writeEvent = 0#32 := by decide
  simp only [isWriting, enableRead, BitVec.and_or_distrib_right, hdisjoint, BitVec.or_zero]

@[simp] theorem isWriting_disableRead (c : Channel) : c.disableRead.isWriting = c.isWriting := by
  have hdisjoint : ~~~readEvent &&& writeEvent = writeEvent := by decide
  simp only [isWriting, disableRead, BitVec.and_assoc, hdisjoint]

@[simp] theorem isWriting_disableWrite (c : Channel) : c.disableWrite.isWriting = false := by
  have hdisjoint : ~~~writeEvent &&& writeEvent = 0 := by decide
  simp [isWriting, disableWrite, BitVec.and_assoc, hdisjoint]

@[simp] theorem isWriting_disableAll (c : Channel) : c.disableAll.isWriting = false := by
  simp [isWriting, disableAll, noneEvent]

@[simp] theorem isWriting_enableWrite (c : Channel) : c.enableWrite.isWriting = true := by
  have hor : (c.events ||| writeEvent) &&& writeEvent = writeEvent := by
    rw [BitVec.and_comm]
    ext i
    simpa using Or.inr
  have hwrite : (writeEvent != 0) = true := by decide
  simp only [isWriting, enableWrite, hor, hwrite]

end Channel

/-- The setters of a channel's interest. -/
inductive Interest
  | enableRead
  | enableWrite
  | disableRead
  | disableWrite
  | disableAll
  deriving DecidableEq, Repr

/-- The effect of a setter on the channel, before it tells the poller. -/
def Channel.set (c : Channel) : Interest → Channel
  | .enableRead => c.enableRead
  | .enableWrite => c.enableWrite
  | .disableRead => c.disableRead
  | .disableWrite => c.disableWrite
  | .disableAll => c.disableAll

@[simp] theorem Channel.fd_set (c : Channel) (interest : Interest) :
    (c.set interest).fd = c.fd := by
  cases interest <;> rfl

@[simp] theorem Channel.index_set (c : Channel) (interest : Interest) :
    (c.set interest).index = c.index := by
  cases interest <;> rfl

/-- A call on one of the channels of a poller. -/
inductive PollerOp (C : Type)
  | set (channel : C) (interest : Interest)
  | remove (channel : C)

namespace PollerOp

variable {C : Type}

def channel : PollerOp C → C
  | .set c _ => c
  | .remove c => c

/-- The channel's new interest. -/
def change (op : PollerOp C) (channel : Channel) : Channel :=
  match op with
  | .set _ interest => channel.set interest
  | .remove _ => channel

theorem events_change (op : PollerOp C) {a b : Channel} (h : a.events = b.events) :
    (op.change a).events = (op.change b).events := by
  cases op with
  | set c interest =>
      cases interest <;>
        simp only [change, Channel.set, Channel.enableRead, Channel.enableWrite,
          Channel.disableRead, Channel.disableWrite, Channel.disableAll, h]
  | remove c => exact h

/-- What a poller's map holds for the channel's descriptor afterwards. -/
def mapped : PollerOp C → Option C
  | .set c _ => some c
  | .remove _ => none

end PollerOp

end LearnMuduo
