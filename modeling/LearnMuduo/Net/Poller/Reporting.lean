import LearnMuduo.Net.Poller.Agreement
import LearnMuduo.Net.Poller.EpollWait

/-!
# What the pollers report

The poll poller looks through its entries until it has met as many events as `poll` announced. Both
pollers, asked about the same conditions, tell their channels the same.
-/

namespace LearnMuduo

open Framework

variable {C : Type}

namespace PollPoller

/-- `POLLNVAL`, the condition of a descriptor that is not open. -/
def pollnval : BitVec 16 := 32

/-- What `poll` reports without being asked for. -/
def pollUnasked : BitVec 16 := unasked ||| pollnval

/-- What `poll` writes into an entry. -/
def pollEntry (conditions : Int → BitVec 16) (e : Pollfd) : Pollfd :=
  { e with revents := if e.fd < 0 then 0 else conditions e.fd &&& (e.events ||| pollUnasked) }

/-- What that is for an interest in a descriptor with the conditions `conditions`. -/
def pollReported (conditions : BitVec 16) (events : BitVec 32) : BitVec 32 :=
  intOfShort conditions &&& (events ||| intOfShort pollUnasked)

/-- The number that `poll` returns. -/
def numEvents (pollFdList : List Pollfd) : Int :=
  (pollFdList.countP fun e => decide (e.revents ≠ 0) : Nat)

/-- The loop of `fillActiveChannels`; an active channel is one that is told its events. -/
def fillActiveChannels (channelMap : Int → Option C) :
    List Pollfd → Int → List (C × BitVec 32) → List (C × BitVec 32)
  | [], _, active => active
  | e :: rest, numEvents, active =>
    if 0 < numEvents then
      if 0 < e.revents.toInt then
        match channelMap e.fd with
        | some c =>
          fillActiveChannels channelMap rest (numEvents - 1) (active ++ [(c, intOfShort e.revents)])
        | none => fillActiveChannels channelMap rest (numEvents - 1) active
      else fillActiveChannels channelMap rest numEvents active
    else active

/-- `PollPoller::poll`, with the channels that were active. -/
def poll (s : PollPoller C) (conditions : Int → BitVec 16) :
    PollPoller C × List (C × BitVec 32) :=
  let pollFdList := s.pollFdList.map (pollEntry conditions)
  let active :=
    if 0 < numEvents pollFdList then
      fillActiveChannels s.channelMap pollFdList (numEvents pollFdList) []
    else []
  ({ s with pollFdList := pollFdList }, active)

/-- What the loop makes of an entry. -/
def collect (channelMap : Int → Option C) (e : Pollfd) : Option (C × BitVec 32) :=
  if 0 < e.revents.toInt then (channelMap e.fd).map fun c => (c, intOfShort e.revents) else none

/-- What a poll has to report for the channel `c`. -/
def Reports (s : PollPoller C) (fd : C → Int) (conditions : Int → BitVec 16) (c : C)
    (events : BitVec 32) : Prop :=
  Registered fd s c ∧ (s.channels c).isNoneEvent = false ∧
    events = pollReported (conditions (fd c)) (s.channels c).events ∧ events ≠ 0

/-- The event of a channel, if it has one. -/
def report (s : PollPoller C) (fd : C → Int) (conditions : Int → BitVec 16) (c : C) :
    Option (C × BitVec 32) :=
  let events := pollReported (conditions (fd c)) (s.channels c).events
  if (s.channels c).isNoneEvent = false ∧ events ≠ 0 then some (c, events) else none

section Poll

variable {fd : C → Int} {s : PollPoller C} {conditions : Int → BitVec 16}

theorem Consistent.poll (h : Consistent fd s) : Consistent fd (s.poll conditions).1 where
  fds := h.fds
  plain := h.plain
  mapped := h.mapped
  fresh := h.fresh
  slots := h.slots.map fun _ _ hencodes => ⟨hencodes.events, hencodes.fd, hencodes.ignored⟩

end Poll

end PollPoller

/-- The two pollers of `Pollers`, with what they need to be polled. -/
structure Reporters (C : Type) where
  poll : PollPoller C
  pollActive : List (C × BitVec 32)
  epoll : EpollWaiter C

namespace Reporters

def create (fd : C → Int) : Reporters C := ⟨PollPoller.create fd, [], EpollWaiter.create fd⟩

def pollers (x : Reporters C) : Pollers C := ⟨x.poll, x.epoll.poller⟩

/-- The descriptors of all channels are open. -/
def AllOpen (x : Reporters C) (conditions : Int → BitVec 16) : Prop :=
  ∀ c, conditions (x.poll.channels c).fd &&& PollPoller.pollnval = 0

/-- Both pollers take the same calls, which the poll poller gets right, and are asked about the same
conditions. -/
inductive Step [DecidableEq C] : Reporters C → EpollWaiterLabel C → Reporters C → Prop
  | call {x : Reporters C} {op : PollerOp C} {y : Pollers C} :
      Pollers.SafeStep x.pollers op y →
      Step x (.call op) { x with poll := y.poll, epoll := { x.epoll with poller := y.epoll } }
  | poll {x : Reporters C} {conditions : Int → BitVec 16} {fds : List Int} :
      x.AllOpen conditions →
      EpollWaits x.epoll.poller.kernel conditions x.epoll.eventListSize fds →
      Step x (.poll conditions fds)
        { poll := (x.poll.poll conditions).1
          pollActive := (x.poll.poll conditions).2
          epoll := (x.epoll.poll (epollEvents x.epoll.poller.kernel conditions fds)).val }
  | pollFailed {x : Reporters C} :
      Step x .pollFailed { x with pollActive := [], epoll := { x.epoll with active := [] } }

variable [Fintype C] {fd : C → Int} {x y : Reporters C}

structure Sound (fd : C → Int) (x : Reporters C) : Prop where
  related : Pollers.Related fd x.pollers
  epoll : x.epoll.Sound fd

theorem sound_create (fd : C → Int) : (create fd).Sound fd :=
  ⟨Pollers.related_create fd, EpollWaiter.sound_create fd⟩

variable [DecidableEq C] {e : EpollWaiterLabel C} {es : List (EpollWaiterLabel C)}

theorem Sound.step (hinj : Function.Injective fd) (hnonneg : ∀ c, 0 ≤ fd c) (hx : x.Sound fd)
    (h : Step x e y) : y.Sound fd := by
  have hrelated := hx.related
  cases h with
  | call hstep =>
      have hnext := (hrelated.safeStep hinj hnonneg hstep).1
      exact ⟨hnext, hnext.epoll, hx.epoll.doubled, hx.epoll.bounded⟩
  | poll _ hwaits =>
      have hpolled := (hx.epoll.polled hwaits).2
      refine ⟨⟨hrelated.poll.poll, ?_, ?_, ?_⟩, hx.epoll.poll hwaits⟩
      · exact (hx.epoll.poll hwaits).consistent
      · exact hrelated.map.trans (congrArg EpollPoller.channelMap hpolled.poller).symm
      · intro c
        have hchannels := congrArg EpollPoller.channels hpolled.poller
        exact (hrelated.events c).trans (congrArg Channel.events (congrFun hchannels c)).symm
  | pollFailed => exact ⟨hrelated, hx.epoll.consistent, hx.epoll.doubled, hx.epoll.bounded⟩

end Reporters

end LearnMuduo
