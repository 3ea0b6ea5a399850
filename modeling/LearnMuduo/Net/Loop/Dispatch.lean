import LearnMuduo.Net.Poller.EpollWait

/-!
# Dispatch in the loop

`EventLoop::loop` waits on the poller and then handles the active channels one after the other. The
callbacks may change, remove and destroy channels meanwhile. The list of active channels is not
looked at again, so that a removed channel is handled all the same, and a destroyed one if its turn
is still to come. The loop has a poller here, although nothing in the source assigns `m_poller`.
-/

namespace LearnMuduo

open Framework

variable {C : Type}

/-- The loop between two waits: `waiter.active` is `m_activeIOChannels`, and `rest` those of them
whose turn is still to come. The last three are histories: what was handled since the wait, the
channels that were handled after they had been destroyed, and those that were destroyed while their
turn was still to come. -/
structure DispatchLoop (C : Type) where
  waiter : EpollWaiter C
  handlingEvent : Bool
  currActiveChannel : Option C
  rest : List (C × BitVec 32)
  destroyed : List C
  handled : List (C × BitVec 32)
  dangling : List C
  hasty : List C

inductive DispatchLabel (C : Type)
  | poll (conditions : Int → BitVec 16) (fds : List Int)
  | pollFailed
  | handle
  | leave
  | call (op : PollerOp C)
  | destroy (channel : C)

namespace DispatchLoop

def create (fd : C → Int) : DispatchLoop C :=
  ⟨EpollWaiter.create fd, false, none, [], [], [], [], []⟩

/-- `m_poller->poll(…)` has returned. -/
def polled (s : DispatchLoop C) (waiter : EpollWaiter C) : DispatchLoop C :=
  { s with waiter := waiter, handlingEvent := true, rest := waiter.active, handled := [] }

variable [DecidableEq C]

/-- `m_currActiveChannel->handleEvents(…)` begins. -/
def handle (s : DispatchLoop C) (c : C) (events : BitVec 32) (rest : List (C × BitVec 32)) :
    DispatchLoop C :=
  { s with
    currActiveChannel := some c
    rest := rest
    handled := s.handled ++ [(c, events)]
    dangling := if c ∈ s.destroyed then c :: s.dangling else s.dangling }

/-- The object of the channel is destroyed. -/
def destroy (s : DispatchLoop C) (c : C) : DispatchLoop C :=
  { s with
    destroyed := c :: s.destroyed
    hasty := if c ∈ s.rest.map Prod.fst then c :: s.hasty else s.hasty }

/-- The loop goes on after the last active channel. -/
def leave (s : DispatchLoop C) : DispatchLoop C :=
  { s with currActiveChannel := none, handlingEvent := false }

end DispatchLoop

/-- The owner of a channel has disabled it, removed it from the poller or never added it when he
destroys it, and does not use it any more. A disabled one that was not removed, as the timer queue's
is, stays in the poller's map. -/
inductive DispatchStep [DecidableEq C] :
    DispatchLoop C → DispatchLabel C → DispatchLoop C → Prop
  | poll {s : DispatchLoop C} {conditions : Int → BitVec 16} {fds : List Int}
      {waiter : EpollWaiter C} :
      s.handlingEvent = false →
      EpollWaiterStep s.waiter (.poll conditions fds) waiter →
      DispatchStep s (.poll conditions fds) (s.polled waiter)
  | pollFailed {s : DispatchLoop C} {waiter : EpollWaiter C} :
      s.handlingEvent = false →
      EpollWaiterStep s.waiter .pollFailed waiter →
      DispatchStep s .pollFailed (s.polled waiter)
  | handle {s : DispatchLoop C} {c : C} {events : BitVec 32} {rest : List (C × BitVec 32)} :
      s.handlingEvent = true →
      s.rest = (c, events) :: rest →
      DispatchStep s .handle (s.handle c events rest)
  | leave {s : DispatchLoop C} :
      s.handlingEvent = true →
      s.rest = [] →
      DispatchStep s .leave s.leave
  | call {s : DispatchLoop C} {op : PollerOp C} {waiter : EpollWaiter C} :
      op.channel ∉ s.destroyed →
      EpollWaiterStep s.waiter (.call op) waiter →
      DispatchStep s (.call op) { s with waiter := waiter }
  | destroy {s : DispatchLoop C} {c : C} :
      c ∉ s.destroyed →
      (s.waiter.poller.channels c).index ≠ EpollPoller.s_Added →
      DispatchStep s (.destroy c) (s.destroy c)

namespace EpollPoller

variable [DecidableEq C] {fd : C → Int} {s s' : EpollPoller C} {op : PollerOp C}

theorem Step.channels_of_ne (h : Consistent fd s) (hstep : Step s op s') {c : C}
    (hne : c ≠ op.channel) : s'.channels c = s.channels c := by
  obtain ⟨hallowed, rfl⟩ := hstep
  obtain ⟨-, channel, watched, hval, -⟩ := apply_succeeds h hallowed
  rw [hval, put]
  exact Function.update_of_ne hne _ _

end EpollPoller

namespace DispatchLoop

variable [Fintype C] {fd : C → Int} {s s' : DispatchLoop C} {waiter : EpollWaiter C} {c : C}

/-- A destroyed channel is not watched, and its turn comes only in the round in which it was
destroyed. -/
structure Sound (fd : C → Int) (s : DispatchLoop C) : Prop where
  waiter : s.waiter.Sound fd
  unwatched : ∀ c ∈ s.destroyed, (s.waiter.poller.channels c).index ≠ EpollPoller.s_Added
  round : s.handled ++ s.rest = s.waiter.active
  nodup : (s.waiter.active.map Prod.fst).Nodup
  idle : s.handlingEvent = false → s.rest = []
  hasty_iff : ∀ c, c ∈ s.hasty ↔ c ∈ s.dangling ∨ c ∈ s.destroyed ∧ c ∈ s.rest.map Prod.fst

theorem sound_create (fd : C → Int) : (create fd).Sound fd where
  waiter := EpollWaiter.sound_create fd
  unwatched := by simp [create]
  round := rfl
  nodup := List.nodup_nil
  idle := fun _ => rfl
  hasty_iff := by simp [create]

theorem Sound.polled (hs : s.Sound fd) (hidle : s.handlingEvent = false) (hwaiter : waiter.Sound fd)
    (hpoller : waiter.poller = s.waiter.poller) (hnodup : (waiter.active.map Prod.fst).Nodup)
    (hlive : ∀ c ∈ waiter.active.map Prod.fst, c ∉ s.destroyed) : (s.polled waiter).Sound fd where
  waiter := hwaiter
  unwatched := by
    intro c hc
    change (waiter.poller.channels c).index ≠ _
    rw [hpoller]
    exact hs.unwatched c hc
  round := List.nil_append _
  nodup := hnodup
  idle := fun hfalse => absurd hfalse.symm Bool.false_ne_true
  hasty_iff := by
    intro c
    have hiff := hs.hasty_iff c
    rw [hs.idle hidle] at hiff
    change c ∈ s.hasty ↔ c ∈ s.dangling ∨ c ∈ s.destroyed ∧ c ∈ waiter.active.map Prod.fst
    rw [hiff]
    constructor
    · rintro (hdangling | ⟨-, hnone⟩)
      · exact Or.inl hdangling
      · cases hnone
    · rintro (hdangling | ⟨hdestroyed, hactive⟩)
      · exact Or.inl hdangling
      · exact absurd hdestroyed (hlive c hactive)

variable [DecidableEq C]

theorem Sound.handle (hs : s.Sound fd) (hhandling : s.handlingEvent = true) {events : BitVec 32}
    {rest : List (C × BitVec 32)} (hrest : s.rest = (c, events) :: rest) :
    (s.handle c events rest).Sound fd where
  waiter := hs.waiter
  unwatched := hs.unwatched
  round := by
    change s.handled ++ [(c, events)] ++ rest = s.waiter.active
    rw [List.append_assoc, List.singleton_append, ← hrest]
    exact hs.round
  nodup := hs.nodup
  idle := fun hfalse => absurd (hhandling.symm.trans hfalse) (Bool.false_ne_true ∘ Eq.symm)
  hasty_iff := by
    intro c'
    have hiff := hs.hasty_iff c'
    rw [hrest, List.map_cons, List.mem_cons] at hiff
    change c' ∈ s.hasty ↔ c' ∈ (if c ∈ s.destroyed then c :: s.dangling else s.dangling) ∨
      c' ∈ s.destroyed ∧ c' ∈ rest.map Prod.fst
    rw [hiff]
    by_cases hc : c ∈ s.destroyed
    · rw [if_pos hc, List.mem_cons]
      constructor
      · rintro (hdangling | ⟨hdestroyed, rfl | hlater⟩)
        · exact Or.inl (Or.inr hdangling)
        · exact Or.inl (Or.inl rfl)
        · exact Or.inr ⟨hdestroyed, hlater⟩
      · rintro ((rfl | hdangling) | ⟨hdestroyed, hlater⟩)
        · exact Or.inr ⟨hc, Or.inl rfl⟩
        · exact Or.inl hdangling
        · exact Or.inr ⟨hdestroyed, Or.inr hlater⟩
    · rw [if_neg hc]
      constructor
      · rintro (hdangling | ⟨hdestroyed, rfl | hlater⟩)
        · exact Or.inl hdangling
        · exact absurd hdestroyed hc
        · exact Or.inr ⟨hdestroyed, hlater⟩
      · rintro (hdangling | ⟨hdestroyed, hlater⟩)
        · exact Or.inl hdangling
        · exact Or.inr ⟨hdestroyed, Or.inr hlater⟩

theorem Sound.destroy (hs : s.Sound fd) (hlive : c ∉ s.destroyed)
    (hunwatched : (s.waiter.poller.channels c).index ≠ EpollPoller.s_Added) :
    (s.destroy c).Sound fd where
  waiter := hs.waiter
  unwatched := by
    intro c' hc'
    rcases List.mem_cons.mp hc' with rfl | hbefore
    · exact hunwatched
    · exact hs.unwatched c' hbefore
  round := hs.round
  nodup := hs.nodup
  idle := hs.idle
  hasty_iff := by
    intro c'
    have hiff := hs.hasty_iff c'
    have hfresh := hs.hasty_iff c
    change c' ∈ (if c ∈ s.rest.map Prod.fst then c :: s.hasty else s.hasty) ↔
      c' ∈ s.dangling ∨ c' ∈ c :: s.destroyed ∧ c' ∈ s.rest.map Prod.fst
    by_cases hc : c ∈ s.rest.map Prod.fst
    · rw [if_pos hc, List.mem_cons, List.mem_cons, hiff]
      constructor
      · rintro (rfl | hdangling | ⟨hdestroyed, hlater⟩)
        · exact Or.inr ⟨Or.inl rfl, hc⟩
        · exact Or.inl hdangling
        · exact Or.inr ⟨Or.inr hdestroyed, hlater⟩
      · rintro (hdangling | ⟨rfl | hdestroyed, hlater⟩)
        · exact Or.inr (Or.inl hdangling)
        · exact Or.inl rfl
        · exact Or.inr (Or.inr ⟨hdestroyed, hlater⟩)
    · rw [if_neg hc, List.mem_cons, hiff]
      constructor
      · rintro (hdangling | ⟨hdestroyed, hlater⟩)
        · exact Or.inl hdangling
        · exact Or.inr ⟨Or.inr hdestroyed, hlater⟩
      · rintro (hdangling | ⟨rfl | hdestroyed, hlater⟩)
        · exact Or.inl hdangling
        · exact absurd hlater hc
        · exact Or.inr ⟨hdestroyed, hlater⟩

theorem Sound.call (hinj : Function.Injective fd) (hs : s.Sound fd) {op : PollerOp C}
    (hlive : op.channel ∉ s.destroyed) (hstep : EpollWaiterStep s.waiter (.call op) waiter) :
    ({ s with waiter := waiter } : DispatchLoop C).Sound fd where
  waiter := hs.waiter.step hinj hstep
  unwatched := by
    intro c hc
    have hne : c ≠ op.channel := fun heq => hlive (heq ▸ hc)
    cases hstep with
    | call hpoller =>
        change ((_ : EpollPoller C).channels c).index ≠ _
        rw [hpoller.channels_of_ne hs.waiter.consistent hne]
        exact hs.unwatched c hc
  round := by
    cases hstep
    exact hs.round
  nodup := by
    cases hstep
    exact hs.nodup
  idle := hs.idle
  hasty_iff := hs.hasty_iff

theorem Sound.live_of_poll (hs : s.Sound fd) {conditions : Int → BitVec 16} {fds : List Int}
    (hstep : EpollWaiterStep s.waiter (.poll conditions fds) waiter)
    (hc : c ∈ waiter.active.map Prod.fst) : c ∉ s.destroyed := by
  intro hdestroyed
  obtain ⟨⟨c', events⟩, hmem, rfl⟩ := List.mem_map.mp hc
  cases hstep with
  | poll hwaits =>
      have hreports := hs.waiter.reports_of_mem hwaits hmem
      exact hs.unwatched c' hdestroyed hreports.1

theorem Sound.step (hinj : Function.Injective fd) {e : DispatchLabel C} (hs : s.Sound fd)
    (h : DispatchStep s e s') : s'.Sound fd := by
  cases h with
  | poll hidle hstep =>
      have hwaiter := hs.waiter.step hinj hstep
      refine hs.polled hidle hwaiter ?_ ?_ fun c hc => hs.live_of_poll hstep hc
      · cases hstep with
        | poll hwaits => exact (hs.waiter.polled hwaits).2.poller
      · cases hstep with
        | poll hwaits =>
            rw [(hs.waiter.polled hwaits).2.active, List.map_map]
            exact hs.waiter.consistent.nodup_ptr hwaits
  | pollFailed hidle hstep =>
      have hwaiter := hs.waiter.step hinj hstep
      cases hstep
      exact hs.polled hidle hwaiter rfl List.nodup_nil (by simp)
  | handle hhandling hrest => exact hs.handle hhandling hrest
  | leave _ hrest =>
      exact ⟨hs.waiter, hs.unwatched, hs.round, hs.nodup, fun _ => hrest, hs.hasty_iff⟩
  | call hlive hstep => exact hs.call hinj hlive hstep
  | destroy hlive hunwatched => exact hs.destroy hlive hunwatched

end DispatchLoop

end LearnMuduo
