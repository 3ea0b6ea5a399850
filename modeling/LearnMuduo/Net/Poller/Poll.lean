import LearnMuduo.Framework.Slots
import LearnMuduo.Net.Channel
import Mathlib.Logic.Function.Basic

/-!
# The poll poller

`PollPoller` keeps a vector with one entry for each registered channel; the channel's index is the
position of its entry. An entry without interest holds a negative number, which `poll` ignores.
-/

namespace LearnMuduo

open Framework

/-- `struct pollfd` -/
structure Pollfd where
  fd : Int
  events : BitVec 16
  revents : BitVec 16
  deriving DecidableEq, Repr

/-- `static_cast<short>` of an `int`. -/
def shortOfInt (events : BitVec 32) : BitVec 16 := events.setWidth 16

/-- A `short` that is promoted to `int`. -/
def intOfShort (events : BitVec 16) : BitVec 32 := events.signExtend 32

structure PollPoller (C : Type) where
  channels : C → Channel
  channelMap : Int → Option C
  pollFdList : List Pollfd

namespace PollPoller

variable {C : Type}

/-- An empty poller, and new channels with the descriptors `fd`. -/
def create (fd : C → Int) : PollPoller C := ⟨fun c => Channel.create (fd c), fun _ => none, []⟩

/-- `m_pollFdList[index]` -/
def entry (s : PollPoller C) (index : Int) : Pollfd := s.pollFdList.getD index.toNat ⟨0, 0, 0⟩

variable [DecidableEq C]

def setIndex (s : PollPoller C) (c : C) (index : Int) : PollPoller C :=
  { s with channels := Function.update s.channels c ((s.channels c).setIndex index) }

def updateChannel (s : PollPoller C) (c : C) : Checked (PollPoller C) :=
  let channel := s.channels c
  if channel.index < 0 then do
    Checked.assert (decide (s.channelMap channel.fd = none))
    let pollfd : Pollfd :=
      { fd := if channel.isNoneEvent then -1 else channel.fd
        events := shortOfInt channel.events
        revents := 0 }
    let s := { s with pollFdList := s.pollFdList ++ [pollfd] }
    let s := s.setIndex c (s.pollFdList.length - 1)
    pure { s with channelMap := Function.update s.channelMap channel.fd (some c) }
  else do
    Checked.assert (decide (s.channelMap channel.fd ≠ none))
    Checked.assert (decide (s.channelMap channel.fd = some c))
    let index := channel.index
    Checked.assert (decide (0 ≤ index ∧ index < s.pollFdList.length))
    let pollfd := s.entry index
    Checked.assert (decide (channel.fd = pollfd.fd ∨ pollfd.fd = -1))
    let pollfd := if channel.isNoneEvent then { pollfd with fd := -channel.fd - 1 } else pollfd
    let pollfd := { pollfd with events := shortOfInt channel.events, revents := 0 }
    pure { s with pollFdList := s.pollFdList.set index.toNat pollfd }

/-- `m_channelMap[fd]->setIndex(index)`; for an absent `fd` that is a null pointer's. -/
def setIndexOf (s : PollPoller C) (fd index : Int) : Checked (PollPoller C) :=
  match s.channelMap fd with
  | some c => pure (s.setIndex c index)
  | none => do
      Checked.assert false
      pure s

/-- The end of `removeChannel`: the entry `pfd` at `index` leaves the vector. -/
def eraseEntry (s : PollPoller C) (index : Int) (pfd : Pollfd) : Checked (PollPoller C) :=
  if index = s.pollFdList.length - 1 then
    pure { s with pollFdList := s.pollFdList.dropLast }
  else do
    let last := s.entry (s.pollFdList.length - 1)
    let swapped := (s.pollFdList.set index.toNat last).set (s.pollFdList.length - 1) pfd
    let fdOfLastEle := if last.fd < 0 then -last.fd - 1 else last.fd
    let s ← { s with pollFdList := swapped }.setIndexOf fdOfLastEle index
    pure { s with pollFdList := s.pollFdList.dropLast }

def removeChannel (s : PollPoller C) (c : C) : Checked (PollPoller C) := do
  let channel := s.channels c
  Checked.assert (decide (s.channelMap channel.fd ≠ none))
  Checked.assert (decide (s.channelMap channel.fd = some c))
  Checked.assert channel.isNoneEvent
  let index := channel.index
  Checked.assert (decide (0 ≤ index ∧ index < s.pollFdList.length))
  let pfd := s.entry index
  Checked.assert (decide (pfd.fd = -channel.fd - 1 ∧ intOfShort pfd.events = channel.events))
  Checked.assert (decide (s.channelMap channel.fd ≠ none))
  let s := { s with channelMap := Function.update s.channelMap channel.fd none }
  s.eraseEntry index pfd

/-- A setter was called on `c`, and `updateChannel` is still to come. -/
def change (s : PollPoller C) (c : C) (interest : Interest) : PollPoller C :=
  { s with channels := Function.update s.channels c ((s.channels c).set interest) }

/-- A call on a channel, with the poller's part in it. -/
def apply (s : PollPoller C) : PollerOp C → Checked (PollPoller C)
  | .set c interest => (s.change c interest).updateChannel c
  | .remove c => do
      let _ ← (s.channels c).remove
      s.removeChannel c

omit [DecidableEq C]

/-- The interests that the setters can reach, as bits of `POLLIN | POLLPRI` and `POLLOUT`. -/
def Plain (events : BitVec 32) : Prop := events = 0 ∨ events = 3 ∨ events = 4 ∨ events = 7

theorem plain_set {channel : Channel} (h : Plain channel.events) (interest : Interest) :
    Plain (channel.set interest).events := by
  have hor : ∀ mask, mask = Channel.readEvent ∨ mask = Channel.writeEvent →
      Plain (channel.events ||| mask) ∧ Plain (channel.events &&& ~~~mask) := by
    rintro mask (rfl | rfl) <;> rcases h with h | h | h | h <;> rw [h] <;> unfold Plain <;> decide
  have hread := hor Channel.readEvent (Or.inl rfl)
  have hwrite := hor Channel.writeEvent (Or.inr rfl)
  cases interest with
  | enableRead => exact hread.1
  | enableWrite => exact hwrite.1
  | disableRead => exact hread.2
  | disableWrite => exact hwrite.2
  | disableAll => exact Or.inl rfl

theorem intOfShort_shortOfInt {events : BitVec 32} (h : Plain events) :
    intOfShort (shortOfInt events) = events := by
  rcases h with rfl | rfl | rfl | rfl <;> decide

/-- The descriptor `f` can be read from the entry. -/
def Belongs (f : Int) (e : Pollfd) : Prop := e.fd = f ∨ e.fd = -f - 1

theorem Belongs.decode {f : Int} {e : Pollfd} (hf : 0 ≤ f) (h : Belongs f e) :
    (if e.fd < 0 then -e.fd - 1 else e.fd) = f := by
  rcases h with hfd | hfd
  · rw [if_neg (by omega), hfd]
  · rw [if_pos (by omega), hfd]
    omega

/-- An entry for a channel: its descriptor when it has an interest, and otherwise -1 or the
negated descriptor. -/
structure Encodes (channel : Channel) (e : Pollfd) : Prop where
  events : e.events = shortOfInt channel.events
  fd : channel.isNoneEvent = false → e.fd = channel.fd
  ignored : channel.isNoneEvent = true → e.fd = -1 ∨ e.fd = -channel.fd - 1

theorem Encodes.setIndex {channel : Channel} {e : Pollfd} (h : Encodes channel e) (index : Int) :
    Encodes (channel.setIndex index) e :=
  ⟨h.events, h.fd, h.ignored⟩

def Registered (fd : C → Int) (s : PollPoller C) (c : C) : Prop := s.channelMap (fd c) = some c

structure Consistent (fd : C → Int) (s : PollPoller C) : Prop where
  fds : ∀ c, (s.channels c).fd = fd c
  plain : ∀ c, Plain (s.channels c).events
  mapped : ∀ f c, s.channelMap f = some c → fd c = f
  fresh : ∀ c, (s.channels c).index < 0 → s.channelMap (fd c) = none
  slots : Slotted (Registered fd s) (fun c => (s.channels c).index) s.pollFdList
    (fun c => Encodes (s.channels c))

theorem consistent_create (fd : C → Int) : Consistent fd (create fd) where
  fds := fun _ => rfl
  plain := fun _ => Or.inl rfl
  mapped := fun _ _ h => nomatch h
  fresh := fun _ _ => rfl
  slots := Slotted.nil fun _ h => nomatch h

/-- Only registered channels without interest are removed. -/
def Allowed (s : PollPoller C) : PollerOp C → Prop
  | .set _ _ => True
  | .remove c => s.channelMap (s.channels c).fd ≠ none ∧ (s.channels c).isNoneEvent = true

/-- The calls that `PollPoller` gets right: setters of a channel that was never registered, or
whose entry still holds its descriptor, or whose entry holds -1 and whose interest stays empty;
and removals of a channel whose entry holds its negated descriptor, when the last entry, if that
is another one, can be traced to its channel (an entry of -1 is traced to descriptor 0). -/
def Safe (s : PollPoller C) : PollerOp C → Prop
  | .set c interest =>
      let channel := s.channels c
      channel.index < 0 ∨ s.channelMap channel.fd = some c ∧
        ((s.entry channel.index).fd = channel.fd ∨
          (s.entry channel.index).fd = -1 ∧ (channel.set interest).isNoneEvent = true)
  | .remove c =>
      let channel := s.channels c
      let last : Int := s.pollFdList.length - 1
      (s.entry channel.index).fd = -channel.fd - 1 ∧
        (channel.index ≠ last → (s.entry last).fd = -1 →
          ∃ o, s.channelMap 0 = some o ∧ (s.channels o).index = last)

/-- The entry at position `i` after an update for `channel`, which has the descriptor `f`. -/
def updated (s : PollPoller C) (f : Int) (i : Nat) (channel : Channel) : Pollfd :=
  ⟨if channel.isNoneEvent then -f - 1 else (s.entry i).fd, shortOfInt channel.events, 0⟩

/-- The entry that a channel with the descriptor `f` gets when it is new. -/
def added (f : Int) (channel : Channel) : Pollfd :=
  ⟨if channel.isNoneEvent then -1 else f, shortOfInt channel.events, 0⟩

section Steps

variable [DecidableEq C] {fd : C → Int} {s : PollPoller C} {c : C}

theorem val_set_fresh (hfd : (s.channels c).fd = fd c) (hindex : (s.channels c).index < 0)
    (interest : Interest) :
    (s.apply (.set c interest)).val =
      ⟨Function.update s.channels c
          (((s.channels c).set interest).setIndex (s.pollFdList.length : Nat)),
        Function.update s.channelMap (fd c) (some c),
        s.pollFdList ++ [added (fd c) ((s.channels c).set interest)]⟩ := by
  have hchannel : (s.change c interest).channels c = (s.channels c).set interest :=
    Function.update_self _ _ _
  have hneg : ((s.channels c).set interest).index < 0 := by rwa [Channel.index_set]
  have hfd' : ((s.channels c).set interest).fd = fd c := by rw [Channel.fd_set, hfd]
  rw [apply, updateChannel]
  simp only [hchannel, if_pos hneg, hfd']
  simp [setIndex, change, added, Channel.setIndex]

theorem val_set_indexed (hfd : (s.channels c).fd = fd c) {i : Nat}
    (hi : (s.channels c).index = i) (interest : Interest) :
    (s.apply (.set c interest)).val =
      ⟨Function.update s.channels c ((s.channels c).set interest), s.channelMap,
        s.pollFdList.set i (s.updated (fd c) i ((s.channels c).set interest))⟩ := by
  have hchannel : (s.change c interest).channels c = (s.channels c).set interest :=
    Function.update_self _ _ _
  have hindex : ((s.channels c).set interest).index = i := by rw [Channel.index_set, hi]
  have hneg : ¬ (i : Int) < 0 := by omega
  have hfd' : ((s.channels c).set interest).fd = fd c := by rw [Channel.fd_set, hfd]
  have hpollfd : Pollfd.mk (if ((s.channels c).set interest).isNoneEvent then
        { s.entry i with fd := -(fd c) - 1 } else s.entry i).fd
      (shortOfInt ((s.channels c).set interest).events) 0 =
      s.updated (fd c) i ((s.channels c).set interest) := by
    rw [updated]
    split <;> rfl
  rw [apply, updateChannel, ← hpollfd]
  simp only [hchannel, hindex, if_neg hneg, hfd', Checked.val_bind, Checked.val_pure]
  rfl

theorem val_remove (hfd : (s.channels c).fd = fd c) {i : Nat} (hi : (s.channels c).index = i) :
    (s.apply (.remove c)).val =
      ({ s with channelMap := Function.update s.channelMap (fd c) none }.eraseEntry i
        (s.entry i)).val := by
  simp only [apply, removeChannel, Checked.val_bind, hfd, hi]

theorem eraseEntry_last {i : Nat} (hlast : (i : Int) = s.pollFdList.length - 1) (pfd : Pollfd) :
    s.eraseEntry i pfd = pure { s with pollFdList := s.pollFdList.dropLast } := by
  rw [eraseEntry, if_pos hlast]

/-- The last entry, which is traced to the channel `o`, takes the place of the erased one. -/
theorem eraseEntry_swap {i : Nat} (hlast : i ≠ s.pollFdList.length - 1)
    (hlen : 0 < s.pollFdList.length) {last : Pollfd}
    (hentry : s.entry (s.pollFdList.length - 1 : Nat) = last) {f : Int}
    (hdecode : (if last.fd < 0 then -last.fd - 1 else last.fd) = f) {o : C}
    (hmap : s.channelMap f = some o) (pfd : Pollfd) :
    s.eraseEntry i pfd =
      pure ⟨Function.update s.channels o ((s.channels o).setIndex i), s.channelMap,
        (s.pollFdList.set i last).dropLast⟩ := by
  have hcast : (s.pollFdList.length : Int) - 1 = (s.pollFdList.length - 1 : Nat) := by omega
  have hlast' : ¬ (i : Int) = (s.pollFdList.length - 1 : Nat) := by omega
  let swapped := (s.pollFdList.set i last).set (s.pollFdList.length - 1) pfd
  have hdrop : swapped.dropLast = (s.pollFdList.set i last).dropLast := by
    simp only [swapped]
    rw [List.dropLast_eq_take, List.dropLast_eq_take, List.length_set, List.length_set,
      List.take_set_of_le (Nat.le_refl _)]
  have hset : { s with pollFdList := swapped }.setIndexOf f i =
      pure ⟨Function.update s.channels o ((s.channels o).setIndex i), s.channelMap,
        swapped⟩ := by
    simp only [setIndexOf, hmap]
    rfl
  rw [eraseEntry, hcast, if_neg hlast', ← hdrop]
  simp only [Int.toNat_natCast, hentry, hdecode]
  exact (congrArg (fun result => result >>= _) hset).trans rfl

theorem registered_update (hinj : Function.Injective fd) {channels : C → Channel}
    {pollFdList : List Pollfd} {mapped : Option C} {c' : C} :
    Registered fd ⟨channels, Function.update s.channelMap (fd c) mapped, pollFdList⟩ c' ↔
      c' = c ∧ mapped = some c ∨ c' ≠ c ∧ Registered fd s c' := by
  by_cases hne : c' = c
  · subst hne
    simp [Registered]
  · have hfds : fd c' ≠ fd c := fun heq => hne (hinj heq)
    simp [Registered, hne, hfds]

theorem fds_update (hfds : ∀ c, (s.channels c).fd = fd c) {channel : Channel}
    (hfd : channel.fd = fd c) : ∀ c', (Function.update s.channels c channel c').fd = fd c' :=
  (Function.forall_update_iff s.channels fun c' channel => channel.fd = fd c').mpr
    ⟨hfd, fun c' _ => hfds c'⟩

theorem Consistent.plain_update (h : Consistent fd s) {channel : Channel}
    (hplain : Plain channel.events) :
    ∀ c', Plain (Function.update s.channels c channel c').events :=
  (Function.forall_update_iff s.channels fun _ channel => Plain channel.events).mpr
    ⟨hplain, fun c' _ => h.plain c'⟩

omit [DecidableEq C] in
theorem mapped_update (hold : ∀ f c, s.channelMap f = some c → fd c = f) {mapped : Option C}
    (hmapped : mapped = none ∨ mapped = some c) (f : Int) (c' : C)
    (hf : Function.update s.channelMap (fd c) mapped f = some c') : fd c' = f := by
  by_cases hne : f = fd c
  · subst hne
    rw [Function.update_self] at hf
    rcases hmapped with rfl | rfl
    · exact nomatch hf
    · cases hf
      rfl
  · rw [Function.update_of_ne hne] at hf
    exact hold f c' hf

omit [DecidableEq C] in
theorem Consistent.entry (h : Consistent fd s) (hc : Registered fd s c) :
    ∃ i : Nat, (s.channels c).index = i ∧ i < s.pollFdList.length ∧
      s.pollFdList[i]? = some (s.entry i) ∧ Encodes (s.channels c) (s.entry i) := by
  obtain ⟨i, e, hi, he, hencodes⟩ := h.slots.placed c hc
  have hlt : i < s.pollFdList.length := (List.getElem?_eq_some_iff.mp he).1
  have hentry : s.entry i = e := by simp [PollPoller.entry, he]
  exact ⟨i, hi, hlt, hentry ▸ he, hentry ▸ hencodes⟩

/-- A call of `op` worked: no assertion failed, and only the channel of `op` has a new interest
and a new place in the map. -/
structure Follows (fd : C → Int) (s : PollPoller C) (op : PollerOp C)
    (result : Checked (PollPoller C)) : Prop where
  ok : result.ok = true
  consistent : Consistent fd result.val
  map : result.val.channelMap = Function.update s.channelMap (fd op.channel) op.mapped
  events : ∀ c, (result.val.channels c).events =
    if c = op.channel then (op.change (s.channels c)).events else (s.channels c).events

theorem set_fresh_follows (hinj : Function.Injective fd) (h : Consistent fd s)
    (hindex : (s.channels c).index < 0) (interest : Interest) :
    Follows fd s (.set c interest) (s.apply (.set c interest)) := by
  have hnew : s.channelMap (fd c) = none := h.fresh c hindex
  have hchannel : (s.change c interest).channels c = (s.channels c).set interest :=
    Function.update_self _ _ _
  have hneg : ((s.channels c).set interest).index < 0 := by rwa [Channel.index_set]
  have hfd : ((s.channels c).set interest).fd = fd c := by rw [Channel.fd_set, h.fds]
  let channel := ((s.channels c).set interest).setIndex (s.pollFdList.length : Nat)
  let e := added (fd c) channel
  have hval : (s.apply (.set c interest)).val = ⟨Function.update s.channels c channel,
      Function.update s.channelMap (fd c) (some c), s.pollFdList ++ [e]⟩ :=
    val_set_fresh (h.fds c) hindex interest
  have hok : (s.apply (.set c interest)).ok = true := by
    rw [apply, updateChannel]
    simp only [hchannel, if_pos hneg, hfd]
    simp [change, hnew]
  have hencodes : Encodes channel e := by
    refine ⟨rfl, fun hsome => ?_, fun hnone => Or.inl ?_⟩
    · simp only [e, added, hsome, Bool.false_eq_true, if_false]
      exact hfd.symm
    · simp only [e, added, hnone, if_true]
  refine ⟨hok, ?_, ?_, ?_⟩
  · rw [hval]
    refine ⟨?_, ?_, mapped_update h.mapped (Or.inr rfl), ?_, ?_⟩
    · exact fds_update h.fds hfd
    · exact h.plain_update (plain_set (h.plain c) interest)
    · intro c' hneg'
      by_cases hne : c' = c
      · subst hne
        simp [channel, Channel.setIndex] at hneg'
        omega
      · have hfds : fd c' ≠ fd c := fun heq => hne (hinj heq)
        simp only [Function.update_of_ne hne] at hneg'
        simpa [hfds] using h.fresh c' hneg'
    · refine h.slots.push (a := c) ?_ ?_ ?_ ?_ ?_ ?_
      · rw [Registered, hnew]
        simp
      · intro c'
        rw [registered_update hinj]
        constructor
        · intro hmember
          rcases hmember with ⟨heq, -⟩ | ⟨-, hreg⟩
          · exact Or.inl heq
          · exact Or.inr hreg
        · intro hmember
          rcases hmember with heq | hreg
          · exact Or.inl ⟨heq, rfl⟩
          · refine Or.inr ⟨?_, hreg⟩
            intro heq
            subst heq
            rw [Registered, hnew] at hreg
            exact nomatch hreg
      · simp [channel, Channel.setIndex]
      · intro c' hne
        simp [hne]
      · simpa using hencodes
      · intro c' hne e' he'
        simpa [hne] using he'
  · rw [hval]
    rfl
  · intro c'
    rw [hval]
    by_cases hne : c' = c
    · subst hne
      simp [channel, Channel.setIndex, PollerOp.channel, PollerOp.change]
    · simp [hne, PollerOp.channel]

theorem set_registered_follows (h : Consistent fd s)
    {interest : Interest} (hreg : Registered fd s c)
    (hentry : (s.entry (s.channels c).index).fd = fd c ∨
      (s.entry (s.channels c).index).fd = -1 ∧
        ((s.channels c).set interest).isNoneEvent = true) :
    Follows fd s (.set c interest) (s.apply (.set c interest)) := by
  obtain ⟨i, hi, hlt, -, -⟩ := h.entry hreg
  have hchannel : (s.change c interest).channels c = (s.channels c).set interest :=
    Function.update_self _ _ _
  have hindex : ((s.channels c).set interest).index = i := by rw [Channel.index_set, hi]
  have hneg : ¬ (i : Int) < 0 := by omega
  have hfd : ((s.channels c).set interest).fd = fd c := by rw [Channel.fd_set, h.fds]
  have hmap : s.channelMap (fd c) = some c := hreg
  have hval := val_set_indexed (h.fds c) hi interest
  rw [hi] at hentry
  let channel := (s.channels c).set interest
  let e := s.updated (fd c) i channel
  change _ = PollPoller.mk (Function.update s.channels c channel) s.channelMap
    (s.pollFdList.set i e) at hval
  have hok : (s.apply (.set c interest)).ok = true := by
    rw [apply, updateChannel]
    simp only [hchannel, hindex, if_neg hneg, hfd]
    have hcheck : fd c = (s.entry i).fd ∨ (s.entry i).fd = -1 :=
      hentry.imp Eq.symm And.left
    simpa [change, hmap, hlt, PollPoller.entry] using hcheck
  have hencodes : Encodes channel e := by
    refine ⟨rfl, fun hsome => ?_, fun hnone => Or.inr ?_⟩
    · rcases hentry with hentry | ⟨-, hnone⟩
      · simp only [e, updated, hsome, Bool.false_eq_true, if_false]
        rw [hentry, hfd]
      · exact absurd (hsome.symm.trans hnone) Bool.false_ne_true
    · simp only [e, updated, hnone, if_true]
      rw [hfd]
  refine ⟨hok, ?_, ?_, ?_⟩
  · rw [hval]
    refine ⟨?_, ?_, h.mapped, ?_, ?_⟩
    · exact fds_update h.fds hfd
    · exact h.plain_update (plain_set (h.plain c) interest)
    · intro c' hneg'
      by_cases hne : c' = c
      · subst hne
        simp only [Function.update_self, channel, hindex] at hneg'
        exact absurd hneg' hneg
      · simp only [Function.update_of_ne hne] at hneg'
        exact h.fresh c' hneg'
    · refine h.slots.replace (a := c) hreg hi (fun c' => Iff.rfl) ?_ ?_ ?_
      · intro c'
        by_cases hne : c' = c
        · subst hne
          simp [channel]
        · simp [hne]
      · simpa using hencodes
      · intro c' hne e' he'
        simpa [hne] using he'
  · rw [hval]
    show s.channelMap = Function.update s.channelMap (fd c) (some c)
    rw [← hmap, Function.update_eq_self]
  · intro c'
    rw [hval]
    by_cases hne : c' = c
    · subst hne
      simp [channel, PollerOp.channel, PollerOp.change]
    · simp [hne, PollerOp.channel]

omit [DecidableEq C] in
/-- The last entry is traced to its channel, either by its descriptor or by the negated one. -/
theorem Consistent.traced (hnonneg : ∀ c, 0 ≤ fd c) (h : Consistent fd s) {o : C}
    {last : Pollfd} (hencodes : Encodes (s.channels o) last)
    (hminus : last.fd = -1 → fd o = 0) :
    (if last.fd < 0 then -last.fd - 1 else last.fd) = fd o := by
  have hfd := h.fds o
  apply Belongs.decode (hnonneg o)
  cases hnone : (s.channels o).isNoneEvent with
  | false => exact Or.inl ((hencodes.fd hnone).trans hfd)
  | true =>
      rcases hencodes.ignored hnone with hlast | hlast
      · have hzero := hminus hlast
        exact Or.inr (by omega)
      · exact Or.inr (by omega)

theorem apply_remove (h : Consistent fd s) (hreg : Registered fd s c)
    (hnone : (s.channels c).isNoneEvent = true) {i : Nat} (hi : (s.channels c).index = i)
    (hentry : (s.entry i).fd = -(fd c) - 1) :
    s.apply (.remove c) =
      { s with channelMap := Function.update s.channelMap (fd c) none }.eraseEntry i
        (s.entry i) := by
  obtain ⟨j, hj, hlt, -, hencodes⟩ := h.entry hreg
  have hij : j = i := Int.ofNat_inj.mp (hj.symm.trans hi)
  subst hij
  have hmap : s.channelMap (fd c) = some c := hreg
  have hevents : intOfShort (s.entry j).events = (s.channels c).events := by
    rw [hencodes.events, intOfShort_shortOfInt (h.plain c)]
  have hfd := h.fds c
  have hval : (s.apply (.remove c)).val =
      ({ s with channelMap := Function.update s.channelMap (fd c) none }.eraseEntry j
        (s.entry j)).val := val_remove hfd hi
  have hok : (s.apply (.remove c)).ok =
      ({ s with channelMap := Function.update s.channelMap (fd c) none }.eraseEntry j
        (s.entry j)).ok := by
    simp [apply, Channel.remove, removeChannel, hfd, hmap, hnone, hi, hlt, hentry, hevents]
  exact Checked.ext hval hok

omit [DecidableEq C] in
theorem length_pos (h : Consistent fd s) (hreg : Registered fd s c) : 0 < s.pollFdList.length := by
  obtain ⟨i, -, hlt, -, -⟩ := h.entry hreg
  exact Nat.zero_lt_of_lt hlt

theorem remove_last_follows (hinj : Function.Injective fd) (h : Consistent fd s)
    (hreg : Registered fd s c) (hnone : (s.channels c).isNoneEvent = true) {i : Nat}
    (hi : (s.channels c).index = i) (hentry : (s.entry i).fd = -(fd c) - 1)
    (hlast : (i : Int) = s.pollFdList.length - 1) :
    Follows fd s (.remove c) (s.apply (.remove c)) := by
  have hresult : s.apply (.remove c) =
      pure ⟨s.channels, Function.update s.channelMap (fd c) none, s.pollFdList.dropLast⟩ := by
    rw [apply_remove h hreg hnone hi hentry]
    exact eraseEntry_last
      (s := ⟨s.channels, Function.update s.channelMap (fd c) none, s.pollFdList⟩) hlast _
  rw [hresult]
  refine ⟨rfl, ⟨h.fds, h.plain, mapped_update h.mapped (Or.inl rfl), ?_, ?_⟩, rfl, ?_⟩
  · intro c' hneg
    have hnew := h.fresh c' hneg
    by_cases hfds : fd c' = fd c
    · simp [hfds]
    · simpa [hfds] using hnew
  · have hsum : (s.channels c).index + 1 = (s.pollFdList.length : Nat) := by omega
    refine h.slots.pop (a := c) hreg hsum ?_ (fun _ _ => rfl) (fun _ _ _ he => he)
    intro c'
    refine (registered_update hinj).trans ?_
    simp
  · intro c'
    show (s.channels c').events = if c' = c then (s.channels c').events else _
    split <;> rfl

theorem remove_swap_follows (hinj : Function.Injective fd) (hnonneg : ∀ c, 0 ≤ fd c)
    (h : Consistent fd s) (hreg : Registered fd s c)
    (hnone : (s.channels c).isNoneEvent = true) {i : Nat} (hi : (s.channels c).index = i)
    (hentry : (s.entry i).fd = -(fd c) - 1) (hlast : (i : Int) ≠ s.pollFdList.length - 1)
    (htrace : (s.entry (s.pollFdList.length - 1)).fd = -1 →
      ∃ o, s.channelMap 0 = some o ∧ (s.channels o).index = s.pollFdList.length - 1) :
    Follows fd s (.remove c) (s.apply (.remove c)) := by
  have hlen := length_pos h hreg
  have hcast : (s.pollFdList.length : Int) - 1 = (s.pollFdList.length - 1 : Nat) := by omega
  rw [hcast] at hlast htrace
  have hlast' : i ≠ s.pollFdList.length - 1 := fun heq => hlast (congrArg Nat.cast heq)
  obtain ⟨o, horeg, hoindex, hoc⟩ := h.slots.exists_last hreg hi hlast'
  have hfds : fd o ≠ fd c := fun heq => hoc (hinj heq).symm
  obtain ⟨j, hj, hjlt, hjentry, hencodes⟩ := h.entry horeg
  have hj' : j = s.pollFdList.length - 1 := Int.ofNat_inj.mp (hj.symm.trans hoindex)
  subst hj'
  have hminus : (s.entry (s.pollFdList.length - 1 : Nat)).fd = -1 → fd o = 0 := by
    intro hfd
    obtain ⟨o', hmap, hindex⟩ := htrace hfd
    have ho' : fd o' = 0 := h.mapped 0 o' hmap
    have horeg' : Registered fd s o' := by rw [Registered, ho', hmap]
    have hsame : o' = o := h.slots.separate o' o horeg' horeg (hindex.trans hoindex.symm)
    rw [← hsame, ho']
  have hdecode := h.traced hnonneg hencodes hminus
  have homap : Function.update s.channelMap (fd c) none (fd o) = some o := by
    rw [Function.update_of_ne hfds]
    exact horeg
  let channel := (s.channels o).setIndex i
  have hresult : s.apply (.remove c) =
      pure ⟨Function.update s.channels o channel, Function.update s.channelMap (fd c) none,
        (s.pollFdList.set i (s.entry (s.pollFdList.length - 1 : Nat))).dropLast⟩ := by
    rw [apply_remove h hreg hnone hi hentry]
    exact eraseEntry_swap
      (s := ⟨s.channels, Function.update s.channelMap (fd c) none, s.pollFdList⟩)
      hlast' hlen rfl hdecode homap _
  rw [hresult]
  refine ⟨rfl, ⟨?_, ?_, mapped_update h.mapped (Or.inl rfl), ?_, ?_⟩, rfl, ?_⟩
  · exact fds_update h.fds (h.fds o)
  · exact h.plain_update (h.plain o)
  · intro c' hneg
    by_cases hne : c' = o
    · subst hne
      simp [channel, Channel.setIndex] at hneg
      omega
    · change (Function.update s.channels o channel c').index < 0 at hneg
      rw [Function.update_of_ne hne] at hneg
      have hnew := h.fresh c' hneg
      by_cases hfds' : fd c' = fd c
      · simp [hfds']
      · simpa [hfds'] using hnew
  · have hsum : (s.channels o).index + 1 = (s.pollFdList.length : Nat) := by omega
    refine h.slots.swapRemove (a := c) (z := o) hreg horeg hoc hi hsum ?_ ?_ ?_ ?_ ?_
    · intro c'
      refine (registered_update hinj).trans ?_
      simp
    · simp [channel, Channel.setIndex]
    · intro c' hne
      simp [hne]
    · simpa [channel] using hencodes.setIndex i
    · intro c' hne e he
      simpa [hne] using he
  · intro c'
    show (Function.update s.channels o channel c').events =
      if c' = c then (s.channels c').events else (s.channels c').events
    rw [ite_self]
    by_cases hne : c' = o
    · subst hne
      simp [channel, Channel.setIndex]
    · simp [hne]

theorem apply_follows (hinj : Function.Injective fd) (hnonneg : ∀ c, 0 ≤ fd c)
    (h : Consistent fd s) {op : PollerOp C} (hallowed : s.Allowed op) (hsafe : s.Safe op) :
    Follows fd s op (s.apply op) := by
  cases op with
  | set c interest =>
      rcases hsafe with hindex | ⟨hmap, hentry⟩
      · exact set_fresh_follows hinj h hindex interest
      · rw [h.fds] at hmap hentry
        exact set_registered_follows h hmap hentry
  | remove c =>
      rcases hallowed with ⟨hknown, hnone⟩
      rcases hsafe with ⟨hentry, htrace⟩
      rw [h.fds] at hknown hentry
      obtain ⟨c', hmap⟩ := Option.ne_none_iff_exists'.mp hknown
      have hsame : c' = c := hinj (h.mapped _ _ hmap)
      have hreg : Registered fd s c := hsame ▸ hmap
      obtain ⟨i, hi, -, -, -⟩ := h.entry hreg
      rw [hi] at hentry htrace
      by_cases hlast : (i : Int) = s.pollFdList.length - 1
      · exact remove_last_follows hinj h hreg hnone hi hentry hlast
      · exact remove_swap_follows hinj hnonneg h hreg hnone hi hentry hlast (htrace hlast)

end Steps

end PollPoller

end LearnMuduo
