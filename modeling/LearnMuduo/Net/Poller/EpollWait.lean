import LearnMuduo.Net.Poller.Epoll
import LearnMuduo.Net.Poller.Poll
import Mathlib.Algebra.Group.Nat.Defs
import Mathlib.Data.Fintype.Card

/-!
# Waiting on the epoll poller

The kernel reports no more descriptors than the event list has room for, and leaves out which it
likes. The list doubles whenever it was filled.
-/

namespace LearnMuduo

open Framework

variable {C : Type}

/-- `POLLERR | POLLHUP`, which are reported without being asked for. -/
def unasked : BitVec 16 := 8 ||| 16

/-- What is reported for an interest in a descriptor with the conditions `conditions`. -/
def reported (conditions : BitVec 16) (events : BitVec 32) : BitVec 32 :=
  intOfShort conditions &&& (events ||| intOfShort unasked)

/-- The descriptor is watched, and has something to report. -/
def EpollDue (kernel : Int → Option (EpollEvent C)) (conditions : Int → BitVec 16) (f : Int) :
    Prop :=
  ∃ event, kernel f = some event ∧ reported (conditions f) event.events ≠ 0

/-- The descriptors for which `epoll_wait` returns events. -/
structure EpollWaits (kernel : Int → Option (EpollEvent C)) (conditions : Int → BitVec 16)
    (maxEvents : Nat) (fds : List Int) : Prop where
  nodup : fds.Nodup
  due : ∀ f ∈ fds, EpollDue kernel conditions f
  bounded : fds.length ≤ maxEvents
  complete : fds.length < maxEvents → ∀ f, EpollDue kernel conditions f → f ∈ fds

/-- What `epoll_wait` writes for them. -/
def epollEvents (kernel : Int → Option (EpollEvent C)) (conditions : Int → BitVec 16)
    (fds : List Int) : List (EpollEvent C) :=
  fds.filterMap fun f =>
    (kernel f).map fun event => ⟨reported (conditions f) event.events, event.ptr⟩

/-- The poller with the length of its event list, and the active channels of the last wait, each
with the events that it was told. `fullWaits` is a history. -/
structure EpollWaiter (C : Type) where
  poller : EpollPoller C
  eventListSize : Nat
  active : List (C × BitVec 32)
  fullWaits : Nat

namespace EpollWaiter

def s_InitEventListSize : Nat := 16

def create (fd : C → Int) : EpollWaiter C :=
  ⟨EpollPoller.create fd, s_InitEventListSize, [], 0⟩

def fillActiveChannels (s : EpollWaiter C) (events : List (EpollEvent C)) :
    Checked (List (C × BitVec 32)) := do
  Checked.assert (decide (events.length ≤ s.eventListSize))
  pure (events.map fun event => (event.ptr, event.events))

/-- `EpollPoller::poll` with the events of `epoll_wait`. -/
def poll (s : EpollWaiter C) (events : List (EpollEvent C)) : Checked (EpollWaiter C) :=
  if 0 < events.length then do
    let active ← s.fillActiveChannels events
    if events.length = s.eventListSize then
      pure
        { s with
          active := active
          eventListSize := s.eventListSize * 2
          fullWaits := s.fullWaits + 1 }
    else pure { s with active := active }
  else pure { s with active := [] }

end EpollWaiter

inductive EpollWaiterLabel (C : Type)
  | call (op : PollerOp C)
  | poll (conditions : Int → BitVec 16) (fds : List Int)
  | pollFailed

/-- The loop empties its list of active channels before each wait. -/
inductive EpollWaiterStep [DecidableEq C] :
    EpollWaiter C → EpollWaiterLabel C → EpollWaiter C → Prop
  | call {s : EpollWaiter C} {op : PollerOp C} {poller : EpollPoller C} :
      EpollPoller.Step s.poller op poller →
      EpollWaiterStep s (.call op) { s with poller := poller }
  | poll {s : EpollWaiter C} {conditions : Int → BitVec 16} {fds : List Int} :
      EpollWaits s.poller.kernel conditions s.eventListSize fds →
      EpollWaiterStep s (.poll conditions fds)
        (s.poll (epollEvents s.poller.kernel conditions fds)).val
  | pollFailed {s : EpollWaiter C} : EpollWaiterStep s .pollFailed { s with active := [] }

section Events

variable {kernel : Int → Option (EpollEvent C)} {conditions : Int → BitVec 16} {fds : List Int}
  {maxEvents : Nat}

theorem mem_epollEvents {e : EpollEvent C} :
    e ∈ epollEvents kernel conditions fds ↔ ∃ f ∈ fds, ∃ event, kernel f = some event ∧
      ⟨reported (conditions f) event.events, event.ptr⟩ = e := by
  simp only [epollEvents, List.mem_filterMap, Option.map_eq_some_iff]

theorem map_epollEvents {fd : C → Int} (hkernel : ∀ f event, kernel f = some event →
    fd event.ptr = f) (hdue : ∀ f ∈ fds, EpollDue kernel conditions f) :
    (epollEvents kernel conditions fds).map (fun event => fd event.ptr) = fds := by
  induction fds with
  | nil => rfl
  | cons f fds ih =>
      obtain ⟨event, hevent, -⟩ := hdue f List.mem_cons_self
      have hrest := ih fun f' hf' => hdue f' (List.mem_cons_of_mem _ hf')
      have hptr := hkernel f event hevent
      simp only [epollEvents] at hrest ⊢
      simp [hevent, hptr, hrest]

end Events

namespace EpollPoller

/-- What a wait has to report for the channel `c`. -/
def Reports (s : EpollPoller C) (fd : C → Int) (conditions : Int → BitVec 16) (c : C)
    (events : BitVec 32) : Prop :=
  (s.channels c).index = s_Added ∧ events = reported (conditions (fd c)) (s.channels c).events ∧
    events ≠ 0

variable {fd : C → Int} {s : EpollPoller C} {conditions : Int → BitVec 16} {fds : List Int}
  {maxEvents : Nat}

theorem Consistent.ptr_of_kernel (h : Consistent fd s) {f : Int} {event : EpollEvent C}
    (hkernel : s.kernel f = some event) : fd event.ptr = f :=
  ((h.kernel_iff f event).mp hkernel).1

theorem Consistent.map_epollEvents (h : Consistent fd s)
    (hwaits : EpollWaits s.kernel conditions maxEvents fds) :
    (epollEvents s.kernel conditions fds).map (fun event => fd event.ptr) = fds :=
  LearnMuduo.map_epollEvents (fun _ _ => h.ptr_of_kernel) hwaits.due

theorem Consistent.length_epollEvents (h : Consistent fd s)
    (hwaits : EpollWaits s.kernel conditions maxEvents fds) :
    (epollEvents s.kernel conditions fds).length = fds.length := by
  have hmap := congrArg List.length (h.map_epollEvents hwaits)
  rwa [List.length_map] at hmap

theorem Consistent.nodup_ptr (h : Consistent fd s)
    (hwaits : EpollWaits s.kernel conditions maxEvents fds) :
    ((epollEvents s.kernel conditions fds).map EpollEvent.ptr).Nodup := by
  apply List.Nodup.of_map fd
  rw [List.map_map]
  exact (h.map_epollEvents hwaits).symm ▸ hwaits.nodup

theorem Consistent.length_fds [Fintype C] (h : Consistent fd s)
    (hwaits : EpollWaits s.kernel conditions maxEvents fds) : fds.length ≤ Fintype.card C := by
  have hcard := (h.nodup_ptr hwaits).length_le_card
  rwa [List.length_map, h.length_epollEvents hwaits] at hcard

theorem Consistent.reports_of_mem (h : Consistent fd s)
    (hwaits : EpollWaits s.kernel conditions maxEvents fds) {c : C} {events : BitVec 32}
    (hmem : ⟨events, c⟩ ∈ epollEvents s.kernel conditions fds) :
    s.Reports fd conditions c events := by
  obtain ⟨f, hf, event, hkernel, heq⟩ := mem_epollEvents.mp hmem
  obtain ⟨event', hkernel', hne⟩ := hwaits.due f hf
  cases hkernel.symm.trans hkernel'
  cases heq
  obtain ⟨hfd, hindex, hevents⟩ := (h.kernel_iff f event).mp hkernel
  rw [hevents] at hne ⊢
  exact ⟨hindex, by rw [hfd], hne⟩

end EpollPoller

namespace EpollWaiter

variable {fd : C → Int} {s s' : EpollWaiter C} {conditions : Int → BitVec 16} {fds : List Int}
  {events : List (EpollEvent C)}

/-- What `poll` makes of the events. -/
structure Polled (s : EpollWaiter C) (events : List (EpollEvent C)) (s' : EpollWaiter C) :
    Prop where
  poller : s'.poller = s.poller
  active : s'.active = events.map fun event => (event.ptr, event.events)
  full : events.length = s.eventListSize →
    s'.eventListSize = s.eventListSize * 2 ∧ s'.fullWaits = s.fullWaits + 1
  room : events.length < s.eventListSize →
    s'.eventListSize = s.eventListSize ∧ s'.fullWaits = s.fullWaits

theorem polled_poll (hpos : 0 < s.eventListSize) (hbounded : events.length ≤ s.eventListSize) :
    (s.poll events).ok = true ∧ s.Polled events (s.poll events).val := by
  rcases Nat.eq_zero_or_pos events.length with hzero | hsome
  · rw [List.length_eq_zero_iff] at hzero
    subst hzero
    rw [poll, if_neg (by simp)]
    exact ⟨rfl, rfl, rfl, fun hfull => absurd hfull hpos.ne, fun _ => ⟨rfl, rfl⟩⟩
  · rw [poll, if_pos hsome, fillActiveChannels]
    by_cases hfull : events.length = s.eventListSize
    · simp only [if_pos hfull]
      refine ⟨by simp [hbounded], rfl, rfl, fun _ => ⟨rfl, rfl⟩, fun hroom => ?_⟩
      exact absurd hfull hroom.ne
    · simp only [if_neg hfull]
      exact ⟨by simp [hbounded], rfl, rfl, fun heq => absurd heq hfull, fun _ => ⟨rfl, rfl⟩⟩

/-- The list has doubled with every full wait, and is never longer than twice the channels. -/
structure Sound [Fintype C] (fd : C → Int) (s : EpollWaiter C) : Prop where
  consistent : EpollPoller.Consistent fd s.poller
  doubled : s.eventListSize = s_InitEventListSize * 2 ^ s.fullWaits
  bounded : s.eventListSize ≤ max s_InitEventListSize (2 * Fintype.card C)

variable [Fintype C]

theorem sound_create (fd : C → Int) : (create fd).Sound fd :=
  ⟨EpollPoller.consistent_create fd, rfl, Nat.le_max_left _ _⟩

theorem Sound.pos (hs : s.Sound fd) : 0 < s.eventListSize := by
  rw [hs.doubled]
  exact Nat.mul_pos (by decide) (Nat.two_pow_pos _)

theorem Sound.polled (hs : s.Sound fd)
    (hwaits : EpollWaits s.poller.kernel conditions s.eventListSize fds) :
    (s.poll (epollEvents s.poller.kernel conditions fds)).ok = true ∧
      s.Polled (epollEvents s.poller.kernel conditions fds)
        (s.poll (epollEvents s.poller.kernel conditions fds)).val := by
  apply polled_poll hs.pos
  rw [hs.consistent.length_epollEvents hwaits]
  exact hwaits.bounded

theorem Sound.poll (hs : s.Sound fd)
    (hwaits : EpollWaits s.poller.kernel conditions s.eventListSize fds) :
    (s.poll (epollEvents s.poller.kernel conditions fds)).val.Sound fd := by
  have hpolled := (hs.polled hwaits).2
  have hlength := hs.consistent.length_epollEvents hwaits
  have hcard := hs.consistent.length_fds hwaits
  have hle := hwaits.bounded
  refine ⟨?_, ?_, ?_⟩
  · rw [hpolled.poller]
    exact hs.consistent
  · rcases Nat.lt_or_eq_of_le hle with hroom | hfull
    · obtain ⟨hsize, hfulls⟩ := hpolled.room (hlength.trans_lt hroom)
      rw [hsize, hfulls, hs.doubled]
    · obtain ⟨hsize, hfulls⟩ := hpolled.full (hlength.trans hfull)
      rw [hsize, hfulls, hs.doubled, Nat.pow_succ, Nat.mul_assoc]
  · rcases Nat.lt_or_eq_of_le hle with hroom | hfull
    · rw [(hpolled.room (hlength.trans_lt hroom)).1]
      exact hs.bounded
    · rw [(hpolled.full (hlength.trans hfull)).1]
      omega

theorem Sound.reports_of_mem (hs : s.Sound fd)
    (hwaits : EpollWaits s.poller.kernel conditions s.eventListSize fds) {c : C}
    {mask : BitVec 32}
    (hmem : (c, mask) ∈ (s.poll (epollEvents s.poller.kernel conditions fds)).val.active) :
    s.poller.Reports fd conditions c mask := by
  rw [(hs.polled hwaits).2.active] at hmem
  obtain ⟨event, hevent, heq⟩ := List.mem_map.mp hmem
  cases heq
  exact hs.consistent.reports_of_mem hwaits hevent

variable [DecidableEq C] {e : EpollWaiterLabel C} {es : List (EpollWaiterLabel C)}

theorem Sound.step (hinj : Function.Injective fd) (hs : s.Sound fd)
    (h : EpollWaiterStep s e s') : s'.Sound fd := by
  cases h with
  | call hstep => exact ⟨hstep.consistent hinj hs.consistent, hs.doubled, hs.bounded⟩
  | poll hwaits => exact hs.poll hwaits
  | pollFailed => exact ⟨hs.consistent, hs.doubled, hs.bounded⟩

/-- It has something to read. -/
def readable (f : Int) : BitVec 16 := if f = EpollPoller.twoFds true then 1 else 0

end EpollWaiter

end LearnMuduo
