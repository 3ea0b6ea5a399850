import LearnMuduo.Framework.Run
import LearnMuduo.Net.Channel
import Mathlib.Logic.Function.Basic

/-!
# The epoll poller

`EpollPoller` over channels that are known by an identity of any type, together with the set of
descriptors that the kernel watches for it. A channel is in one of three states, which tell its
index, its place in `channelMap` and its place in the kernel's set all at once.
-/

namespace LearnMuduo

open Framework

inductive CtlOperation
  | add
  | del
  | mod
  deriving DecidableEq, Repr

/-- `struct epoll_event`: the mask, and the channel in `data.ptr`. -/
structure EpollEvent (C : Type) where
  events : BitVec 32
  ptr : C
  deriving DecidableEq, Repr

variable {C : Type}

/-- `epoll_ctl` on the kernel's set; `none` is a failure. -/
def epollCtl (kernel : Int → Option (EpollEvent C)) (operation : CtlOperation) (fd : Int)
    (event : EpollEvent C) : Option (Int → Option (EpollEvent C)) :=
  match operation, kernel fd with
  | .add, none => some (Function.update kernel fd (some event))
  | .mod, some _ => some (Function.update kernel fd (some event))
  | .del, some _ => some (Function.update kernel fd none)
  | _, _ => none

structure EpollPoller (C : Type) where
  channels : C → Channel
  channelMap : Int → Option C
  kernel : Int → Option (EpollEvent C)
  ctlFailed : Bool

namespace EpollPoller

def s_New : Int := -1

def s_Added : Int := 1

def s_Deleted : Int := 2

/-- An empty poller, and new channels with the descriptors `fd`. -/
def create (fd : C → Int) : EpollPoller C :=
  ⟨fun c => Channel.create (fd c), fun _ => none, fun _ => none, false⟩

def update (s : EpollPoller C) (operation : CtlOperation) (c : C) : EpollPoller C :=
  let event : EpollEvent C := ⟨(s.channels c).events, c⟩
  match epollCtl s.kernel operation (s.channels c).fd event with
  | some kernel => { s with kernel := kernel }
  | none => { s with ctlFailed := true }

variable [DecidableEq C]

def setIndex (s : EpollPoller C) (c : C) (index : Int) : EpollPoller C :=
  { s with channels := Function.update s.channels c ((s.channels c).setIndex index) }

def updateChannel (s : EpollPoller C) (c : C) : Checked (EpollPoller C) :=
  let index := (s.channels c).index
  let fd := (s.channels c).fd
  if index = s_New ∨ index = s_Deleted then do
    let s ←
      if index = s_New then do
        Checked.assert (decide (s.channelMap fd = none))
        pure { s with channelMap := Function.update s.channelMap fd (some c) }
      else do
        Checked.assert (decide (s.channelMap fd ≠ none))
        Checked.assert (decide (s.channelMap fd = some c))
        pure s
    pure ((s.setIndex c s_Added).update .add c)
  else do
    Checked.assert (decide (s.channelMap fd ≠ none))
    Checked.assert (decide (s.channelMap fd = some c))
    Checked.assert (decide (index = s_Added))
    if (s.channels c).isNoneEvent then pure ((s.update .del c).setIndex c s_Deleted)
    else pure (s.update .mod c)

def removeChannel (s : EpollPoller C) (c : C) : Checked (EpollPoller C) := do
  let fd := (s.channels c).fd
  Checked.assert (decide (s.channelMap fd ≠ none))
  Checked.assert (decide (s.channelMap fd = some c))
  Checked.assert (s.channels c).isNoneEvent
  let index := (s.channels c).index
  Checked.assert (decide (index = s_Added ∨ index = s_Deleted))
  Checked.assert (decide (s.channelMap fd ≠ none))
  let s := { s with channelMap := Function.update s.channelMap fd none }
  let s := if index = s_Added then s.update .del c else s
  pure (s.setIndex c s_New)

/-- A setter was called on `c`, and `updateChannel` is still to come. -/
def change (s : EpollPoller C) (c : C) (interest : Interest) : EpollPoller C :=
  { s with channels := Function.update s.channels c ((s.channels c).set interest) }

/-- A call on a channel, with the poller's part in it. -/
def apply (s : EpollPoller C) : PollerOp C → Checked (EpollPoller C)
  | .set c interest => (s.change c interest).updateChannel c
  | .remove c => do
      let _ ← (s.channels c).remove
      s.removeChannel c

/-- Only a channel that the poller knows and that has no interest is removed. -/
def Allowed (s : EpollPoller C) : PollerOp C → Prop
  | .set _ _ => True
  | .remove c => s.channelMap (s.channels c).fd ≠ none ∧ (s.channels c).isNoneEvent = true

def Step (s : EpollPoller C) (op : PollerOp C) (s' : EpollPoller C) : Prop :=
  s.Allowed op ∧ s' = (s.apply op).val

omit [DecidableEq C] in
theorem update_add {s : EpollPoller C} {c : C} (hkernel : s.kernel (s.channels c).fd = none) :
    s.update .add c = { s with
      kernel := Function.update s.kernel (s.channels c).fd (some ⟨(s.channels c).events, c⟩) } := by
  simp only [update, epollCtl, hkernel]

omit [DecidableEq C] in
theorem update_mod {s : EpollPoller C} {c : C} {event : EpollEvent C}
    (hkernel : s.kernel (s.channels c).fd = some event) :
    s.update .mod c = { s with
      kernel := Function.update s.kernel (s.channels c).fd (some ⟨(s.channels c).events, c⟩) } := by
  simp only [update, epollCtl, hkernel]

omit [DecidableEq C] in
theorem update_del {s : EpollPoller C} {c : C} {event : EpollEvent C}
    (hkernel : s.kernel (s.channels c).fd = some event) :
    s.update .del c =
      { s with kernel := Function.update s.kernel (s.channels c).fd none } := by
  simp only [update, epollCtl, hkernel]

/-- The states of a channel, by what the map and the kernel hold for its descriptor: new, added
and deleted. -/
inductive Tracked (c : C) (channel : Channel) : Option C → Option (EpollEvent C) → Prop
  | new : channel.index = s_New → channel.isNoneEvent = true → Tracked c channel none none
  | added : channel.index = s_Added →
      Tracked c channel (some c) (some ⟨channel.events, c⟩)
  | deleted : channel.index = s_Deleted → channel.isNoneEvent = true →
      Tracked c channel (some c) none

/-- The channels keep the descriptors `fd`, all are tracked, and the map and the kernel hold
nothing else. -/
structure Consistent (fd : C → Int) (s : EpollPoller C) : Prop where
  fds : ∀ c, (s.channels c).fd = fd c
  tracked : ∀ c, Tracked c (s.channels c) (s.channelMap (fd c)) (s.kernel (fd c))
  onlyMap : ∀ f, (∀ c, fd c ≠ f) → s.channelMap f = none
  onlyKernel : ∀ f, (∀ c, fd c ≠ f) → s.kernel f = none
  ctl : s.ctlFailed = false

omit [DecidableEq C] in
theorem consistent_create (fd : C → Int) : Consistent fd (create fd) :=
  ⟨fun _ => rfl, fun _ => .new rfl rfl, fun _ _ => rfl, fun _ _ => rfl, rfl⟩

/-- The poller with other data for the channel `c` and its descriptor. -/
def put (s : EpollPoller C) (c : C) (channel : Channel) (mapped : Option C)
    (watched : Option (EpollEvent C)) : EpollPoller C :=
  { s with
    channels := Function.update s.channels c channel
    channelMap := Function.update s.channelMap (s.channels c).fd mapped
    kernel := Function.update s.kernel (s.channels c).fd watched }

/-- A call on `c` succeeded: all assertions hold, no `epoll_ctl` failed, and only `c` and its
descriptor have new data, which are tracked. -/
structure Succeeds (s : EpollPoller C) (c : C) (mapped : Option C)
    (result : Checked (EpollPoller C)) : Prop where
  ok : result.ok = true
  val : ∃ channel watched, result.val = s.put c channel mapped watched ∧
    channel.fd = (s.channels c).fd ∧ channel.events = (s.channels c).events ∧
    Tracked c channel mapped watched

theorem updateChannel_new {s : EpollPoller C} {c : C} (hindex : (s.channels c).index = s_New)
    (hmap : s.channelMap (s.channels c).fd = none)
    (hkernel : s.kernel (s.channels c).fd = none) : s.Succeeds c (some c) (s.updateChannel c) := by
  refine ⟨?_, (s.channels c).setIndex s_Added, some ⟨(s.channels c).events, c⟩, ?_, rfl, rfl,
    .added rfl⟩
  · rw [updateChannel, if_pos (Or.inl hindex)]
    simp [hindex, hmap]
  · rw [updateChannel, if_pos (Or.inl hindex)]
    simp only [Checked.val_bind, Checked.val_pure, if_pos hindex]
    rw [update_add]
    · simp [setIndex, put, Channel.setIndex]
    · simpa [setIndex, Channel.setIndex] using hkernel

theorem updateChannel_deleted {s : EpollPoller C} {c : C}
    (hindex : (s.channels c).index = s_Deleted)
    (hmap : s.channelMap (s.channels c).fd = some c)
    (hkernel : s.kernel (s.channels c).fd = none) : s.Succeeds c (some c) (s.updateChannel c) := by
  have hold : s_Deleted ≠ s_New := by decide
  have hsame : Function.update s.channelMap (s.channels c).fd (some c) = s.channelMap := by
    rw [← hmap, Function.update_eq_self]
  refine ⟨?_, (s.channels c).setIndex s_Added, some ⟨(s.channels c).events, c⟩, ?_, rfl, rfl,
    .added rfl⟩
  · rw [updateChannel, if_pos (Or.inr hindex)]
    simp [hindex, hmap, hold]
  · rw [updateChannel, if_pos (Or.inr hindex), hindex]
    simp only [Checked.val_bind, Checked.val_pure, if_neg hold]
    rw [update_add]
    · simp [setIndex, put, Channel.setIndex, hsame]
    · simpa [setIndex, Channel.setIndex] using hkernel

theorem updateChannel_added {s : EpollPoller C} {c : C} {event : EpollEvent C}
    (hindex : (s.channels c).index = s_Added)
    (hmap : s.channelMap (s.channels c).fd = some c)
    (hkernel : s.kernel (s.channels c).fd = some event) :
    s.Succeeds c (some c) (s.updateChannel c) := by
  have hadded : ¬ (s_Added = s_New ∨ s_Added = s_Deleted) := by decide
  have hsame : Function.update s.channelMap (s.channels c).fd (some c) = s.channelMap := by
    rw [← hmap, Function.update_eq_self]
  have hok : (s.updateChannel c).ok = true := by
    rw [updateChannel, hindex, if_neg hadded]
    simp [hmap]
  refine ⟨hok, ?_⟩
  rw [updateChannel, hindex, if_neg hadded]
  simp only [Checked.val_bind, Checked.val_ite, Checked.val_pure]
  split
  · rename_i hnone
    refine ⟨(s.channels c).setIndex s_Deleted, none, ?_, rfl, rfl, .deleted rfl hnone⟩
    rw [update_del hkernel]
    simp [setIndex, put, hsame]
  · refine ⟨s.channels c, some ⟨(s.channels c).events, c⟩, ?_, rfl, rfl, .added hindex⟩
    rw [update_mod hkernel]
    simp [put, hsame]

theorem removeChannel_succeeds {s : EpollPoller C} {c : C}
    (htracked : Tracked c (s.channels c) (s.channelMap (s.channels c).fd)
      (s.kernel (s.channels c).fd))
    (hknown : s.channelMap (s.channels c).fd ≠ none)
    (hnone : (s.channels c).isNoneEvent = true) : s.Succeeds c none (s.removeChannel c) := by
  generalize hmap : s.channelMap (s.channels c).fd = mapped at htracked
  generalize hkernel : s.kernel (s.channels c).fd = watched at htracked
  cases htracked with
  | new _ _ => exact absurd hmap hknown
  | added hindex =>
      have hok : (s.removeChannel c).ok = true := by
        simp [removeChannel, hmap, hnone, hindex]
      refine ⟨hok, (s.channels c).setIndex s_New, none, ?_, rfl, rfl, .new rfl hnone⟩
      have hdel := @update_del C
        { s with channelMap := Function.update s.channelMap (s.channels c).fd none } c _ hkernel
      simp only [removeChannel, Checked.val_bind, Checked.val_pure, if_pos hindex]
      rw [hdel]
      rfl
  | deleted hindex _ =>
      have hold : s_Deleted ≠ s_Added := by decide
      have hsame : Function.update s.kernel (s.channels c).fd none = s.kernel := by
        rw [← hkernel, Function.update_eq_self]
      have hok : (s.removeChannel c).ok = true := by
        simp [removeChannel, hmap, hnone, hindex]
      refine ⟨hok, (s.channels c).setIndex s_New, none, ?_, rfl, rfl, .new rfl hnone⟩
      simp only [removeChannel, Checked.val_bind, Checked.val_pure, hindex, if_neg hold]
      simp [setIndex, put, hsame]

variable {fd : C → Int} {s : EpollPoller C}

theorem apply_succeeds (h : Consistent fd s) {op : PollerOp C} (hallowed : s.Allowed op) :
    (s.apply op).ok = true ∧ ∃ channel watched,
      (s.apply op).val = s.put op.channel channel op.mapped watched ∧
      channel.fd = fd op.channel ∧
      channel.events = (op.change (s.channels op.channel)).events ∧
      Tracked op.channel channel op.mapped watched := by
  cases op with
  | set c interest =>
      have hchannel : (s.change c interest).channels c = (s.channels c).set interest :=
        Function.update_self _ _ _
      have hfd : ((s.change c interest).channels c).fd = fd c := by
        rw [hchannel, Channel.fd_set, h.fds]
      have hindex : ((s.change c interest).channels c).index = (s.channels c).index := by
        rw [hchannel, Channel.index_set]
      have hmap : (s.change c interest).channelMap ((s.change c interest).channels c).fd =
          s.channelMap (fd c) := by rw [hfd]; rfl
      have hkernel : (s.change c interest).kernel ((s.change c interest).channels c).fd =
          s.kernel (fd c) := by rw [hfd]; rfl
      have hsucceeds : (s.change c interest).Succeeds c (some c) (s.apply (.set c interest)) := by
        have htracked := h.tracked c
        generalize hmapped : s.channelMap (fd c) = mapped at htracked
        generalize hwatched : s.kernel (fd c) = watched at htracked
        cases htracked with
        | new hnew _ =>
            exact updateChannel_new (hindex.trans hnew) (hmap.trans hmapped)
              (hkernel.trans hwatched)
        | added hadded =>
            exact updateChannel_added (hindex.trans hadded) (hmap.trans hmapped)
              (hkernel.trans hwatched)
        | deleted hdeleted _ =>
            exact updateChannel_deleted (hindex.trans hdeleted) (hmap.trans hmapped)
              (hkernel.trans hwatched)
      rcases hsucceeds.val with ⟨channel, watched, hval, hfdEq, hevents, htracked⟩
      refine ⟨hsucceeds.ok, channel, watched, ?_, hfdEq.trans hfd, ?_, htracked⟩
      · have hput : (s.change c interest).put c channel (some c) watched =
            s.put c channel (some c) watched := by
          simp [put, change]
        rw [hval, hput]
        rfl
      · rw [hevents, hchannel]
        rfl
  | remove c =>
      rcases hallowed with ⟨hknown, hnone⟩
      have htracked := h.tracked c
      rw [← h.fds c] at htracked
      have hsucceeds := removeChannel_succeeds htracked hknown hnone
      rcases hsucceeds.val with ⟨channel, watched, hval, hfdEq, hevents, hnew⟩
      refine ⟨?_, channel, watched, hval, hfdEq.trans (h.fds c), hevents, hnew⟩
      have hok := hsucceeds.ok
      simp [apply, Channel.remove, hnone, hok]

theorem Consistent.put (hinj : Function.Injective fd) (h : Consistent fd s) {c : C}
    {channel : Channel} {mapped : Option C} {watched : Option (EpollEvent C)}
    (hfd : channel.fd = fd c) (htracked : Tracked c channel mapped watched) :
    Consistent fd (s.put c channel mapped watched) := by
  have hc := h.fds c
  refine ⟨fun c' => ?_, fun c' => ?_, fun f hf => ?_, fun f hf => ?_, h.ctl⟩
  · by_cases hne : c' = c
    · subst hne
      simpa [EpollPoller.put] using hfd
    · simpa [EpollPoller.put, hne] using h.fds c'
  · by_cases hne : c' = c
    · subst hne
      simpa [EpollPoller.put, hc] using htracked
    · have hfds : fd c' ≠ fd c := fun heq => hne (hinj heq)
      simpa [EpollPoller.put, hc, hne, hfds] using h.tracked c'
  · have hne : f ≠ fd c := (hf c).symm
    simpa [EpollPoller.put, hc, hne] using h.onlyMap f hf
  · have hne : f ≠ fd c := (hf c).symm
    simpa [EpollPoller.put, hc, hne] using h.onlyKernel f hf

theorem Step.consistent (hinj : Function.Injective fd) (h : Consistent fd s) {op : PollerOp C}
    {s' : EpollPoller C} (hstep : Step s op s') : Consistent fd s' := by
  rcases hstep with ⟨hallowed, rfl⟩
  obtain ⟨-, channel, watched, hval, hfd, -, htracked⟩ := apply_succeeds h hallowed
  rw [hval]
  exact h.put hinj hfd htracked

theorem consistent_of_run (hinj : Function.Injective fd) {ops : List (PollerOp C)}
    (hrun : Run Step (create fd) ops s) : Consistent fd s :=
  hrun.invariant (fun _ _ _ h hstep => hstep.consistent hinj h) (consistent_create fd)

omit [DecidableEq C] in
theorem Consistent.kernel_iff (h : Consistent fd s) (f : Int) (event : EpollEvent C) :
    s.kernel f = some event ↔ fd event.ptr = f ∧ (s.channels event.ptr).index = s_Added ∧
      event.events = (s.channels event.ptr).events := by
  constructor
  · intro hkernel
    have howner : ∃ c, fd c = f := by
      by_contra hnone
      have hempty := h.onlyKernel f fun c heq => hnone ⟨c, heq⟩
      rw [hempty] at hkernel
      exact nomatch hkernel
    rcases howner with ⟨c, rfl⟩
    have htracked := h.tracked c
    rw [hkernel] at htracked
    generalize s.channelMap (fd c) = mapped at htracked
    cases htracked with
    | added hindex => exact ⟨rfl, hindex, rfl⟩
  · intro hadded
    rcases hadded with ⟨rfl, hindex, hevents⟩
    have htracked := h.tracked event.ptr
    generalize s.channelMap (fd event.ptr) = mapped at htracked
    generalize s.kernel (fd event.ptr) = watched at htracked
    cases htracked with
    | new hnew _ =>
        rw [hnew] at hindex
        exact absurd hindex (by decide)
    | added _ => rw [← hevents]
    | deleted hdeleted _ =>
        rw [hdeleted] at hindex
        exact absurd hindex (by decide)

/-- In every run no `epoll_ctl` fails and no assertion does, the kernel watches exactly the added
channels with their current interest, every channel with an interest is added, and exactly the new
channels are absent from the map. -/
theorem consistent_with_kernel {fd : C → Int} (hinj : Function.Injective fd)
    {ops : List (PollerOp C)} {s : EpollPoller C} (hrun : Run Step (create fd) ops s) :
    s.ctlFailed = false ∧
      (∀ f event, s.kernel f = some event ↔ fd event.ptr = f ∧
        (s.channels event.ptr).index = s_Added ∧ event.events = (s.channels event.ptr).events) ∧
      (∀ c, (s.channels c).isNoneEvent = false → (s.channels c).index = s_Added) ∧
      (∀ c, (s.channels c).index = s_New ↔ s.channelMap (fd c) = none) ∧
      ∀ op, s.Allowed op → (s.apply op).ok = true := by
  have h := consistent_of_run hinj hrun
  refine ⟨h.ctl, h.kernel_iff, fun c hsome => ?_, fun c => ?_, fun op hallowed => ?_⟩
  · have htracked := h.tracked c
    generalize s.channelMap (fd c) = mapped at htracked
    generalize s.kernel (fd c) = watched at htracked
    cases htracked with
    | new _ hnone => exact absurd (hsome.symm.trans hnone) Bool.false_ne_true
    | added hindex => exact hindex
    | deleted _ hnone => exact absurd (hsome.symm.trans hnone) Bool.false_ne_true
  · have htracked := h.tracked c
    generalize s.channelMap (fd c) = mapped at htracked
    generalize s.kernel (fd c) = watched at htracked
    cases htracked with
    | new hindex _ => exact iff_of_true hindex rfl
    | added hindex =>
        rw [hindex]
        exact iff_of_false (by decide) (by simp)
    | deleted hindex _ =>
        rw [hindex]
        exact iff_of_false (by decide) (by simp)
  · exact (apply_succeeds h hallowed).1

/-- Two channels, on descriptors 3 and 4. -/
def twoFds (c : Bool) : Int := if c then 3 else 4

theorem twoFds_injective : Function.Injective twoFds := by
  intro a b
  cases a <;> cases b <;> decide

theorem consistent_with_kernel_twoFds :
    ∃ s : EpollPoller Bool,
      Run Step (create twoFds)
        [.set true .enableRead, .set false .disableAll, .set true .disableAll, .remove true] s ∧
      s.ctlFailed = false ∧
      (∀ f event, s.kernel f = some event ↔ twoFds event.ptr = f ∧
        (s.channels event.ptr).index = s_Added ∧ event.events = (s.channels event.ptr).events) ∧
      (∀ c, (s.channels c).isNoneEvent = false → (s.channels c).index = s_Added) ∧
      (∀ c, (s.channels c).index = s_New ↔ s.channelMap (twoFds c) = none) ∧
      ∀ op, s.Allowed op → (s.apply op).ok = true := by
  let s₁ := ((create twoFds).apply (.set true .enableRead)).val
  let s₂ := (s₁.apply (.set false .disableAll)).val
  let s₃ := (s₂.apply (.set true .disableAll)).val
  have h₁ : Step (create twoFds) (.set true .enableRead) s₁ := ⟨trivial, rfl⟩
  have h₂ : Step s₁ (.set false .disableAll) s₂ := ⟨trivial, rfl⟩
  have h₃ : Step s₂ (.set true .disableAll) s₃ := ⟨trivial, rfl⟩
  have h₄ : Step s₃ (.remove true) (s₃.apply (.remove true)).val :=
    ⟨⟨by decide, by decide⟩, rfl⟩
  have hrun := (((Run.nil.snoc h₁).snoc h₂).snoc h₃).snoc h₄
  exact ⟨_, hrun, consistent_with_kernel twoFds_injective hrun⟩

end EpollPoller

end LearnMuduo
