import LearnMuduo.Net.Poller.Epoll
import LearnMuduo.Net.Poller.Poll

/-!
# The two pollers agree

The same calls are made on two sets of channels, one for each poller. Each poller watches what its
registered channels demand, so that the pollers agree as long as their maps and the interests of
their channels do. `PollPoller` keeps up with safe calls only.
-/

namespace LearnMuduo

open Framework

variable {C : Type}

/-- The non-empty interests of the registered channels. -/
def Demanded (channelMap : Int → Option C) (channels : C → Channel) (f : Int)
    (events : BitVec 32) : Prop :=
  ∃ c, channelMap f = some c ∧ (channels c).events = events ∧ events ≠ 0

/-- What `poll` reports events for. -/
def PollPoller.Watches (s : PollPoller C) (f : Int) (events : BitVec 32) : Prop :=
  ∃ e ∈ s.pollFdList, e.fd = f ∧ 0 ≤ e.fd ∧ e.events ≠ 0 ∧ intOfShort e.events = events

/-- What `epoll_wait` reports events for. -/
def EpollPoller.Watches (s : EpollPoller C) (f : Int) (events : BitVec 32) : Prop :=
  ∃ c, s.kernel f = some ⟨events, c⟩ ∧ events ≠ 0

theorem shortOfInt_ne_zero {events : BitVec 32} (h : PollPoller.Plain events)
    (hne : events ≠ 0) : shortOfInt events ≠ 0 := by
  intro hzero
  have hback := PollPoller.intOfShort_shortOfInt h
  rw [hzero] at hback
  exact hne hback.symm

theorem PollPoller.Consistent.watches_iff {fd : C → Int} (hnonneg : ∀ c, 0 ≤ fd c)
    {s : PollPoller C} (h : Consistent fd s) (f : Int) (events : BitVec 32) :
    s.Watches f events ↔ Demanded s.channelMap s.channels f events := by
  constructor
  · intro hwatches
    rcases hwatches with ⟨e, he, rfl, -, hne, rfl⟩
    obtain ⟨j, hj⟩ := List.mem_iff_getElem?.mp he
    have hlt : j < s.pollFdList.length := (List.getElem?_eq_some_iff.mp hj).1
    obtain ⟨c, hreg, hindex⟩ := h.slots.owned j hlt
    have hencodes := h.slots.entry_at hreg hindex hj
    have hevents : (s.channels c).events ≠ 0 := by
      intro hzero
      rw [hencodes.events, hzero] at hne
      exact hne rfl
    have hsome : (s.channels c).isNoneEvent = false := beq_eq_false_iff_ne.mpr hevents
    have hfd : e.fd = fd c := (hencodes.fd hsome).trans (h.fds c)
    have hback : intOfShort e.events = (s.channels c).events := by
      rw [hencodes.events, intOfShort_shortOfInt (h.plain c)]
    refine ⟨c, ?_, hback.symm, ?_⟩
    · rw [hfd]
      exact hreg
    · rw [hback]
      exact hevents
  · intro hdemanded
    rcases hdemanded with ⟨c, hmap, rfl, hne⟩
    have hf := h.mapped f c hmap
    subst hf
    obtain ⟨i, -, -, he, hencodes⟩ := h.entry hmap
    have hsome : (s.channels c).isNoneEvent = false := beq_eq_false_iff_ne.mpr hne
    have hfd : (s.entry i).fd = fd c := (hencodes.fd hsome).trans (h.fds c)
    refine ⟨s.entry i, List.mem_of_getElem? he, hfd, ?_, ?_, ?_⟩
    · rw [hfd]
      exact hnonneg c
    · rw [hencodes.events]
      exact shortOfInt_ne_zero (h.plain c) hne
    · rw [hencodes.events, intOfShort_shortOfInt (h.plain c)]

theorem EpollPoller.Consistent.mapped {fd : C → Int} {s : EpollPoller C} (h : Consistent fd s)
    {f : Int} {c : C} (hmap : s.channelMap f = some c) : fd c = f := by
  have howner : ∃ c', fd c' = f := by
    by_contra hnone
    have hempty := h.onlyMap f fun c' heq => hnone ⟨c', heq⟩
    rw [hempty] at hmap
    exact nomatch hmap
  rcases howner with ⟨c', rfl⟩
  have htracked := h.tracked c'
  rw [hmap] at htracked
  generalize s.kernel (fd c') = watched at htracked
  cases htracked <;> rfl

theorem EpollPoller.Consistent.watches_iff {fd : C → Int} {s : EpollPoller C}
    (h : Consistent fd s) (f : Int) (events : BitVec 32) :
    s.Watches f events ↔ Demanded s.channelMap s.channels f events := by
  constructor
  · intro hwatches
    rcases hwatches with ⟨c, hkernel, hne⟩
    obtain ⟨rfl, -, hevents⟩ := (h.kernel_iff f _).mp hkernel
    have htracked := h.tracked c
    rw [hkernel] at htracked
    refine ⟨c, ?_, hevents.symm, hne⟩
    generalize s.channelMap (fd c) = mapped at htracked ⊢
    cases htracked with
    | added _ => rfl
  · intro hdemanded
    rcases hdemanded with ⟨c, hmap, rfl, hne⟩
    have hf := h.mapped hmap
    subst hf
    have htracked := h.tracked c
    rw [hmap] at htracked
    refine ⟨c, ?_, hne⟩
    generalize s.kernel (fd c) = watched at htracked ⊢
    cases htracked with
    | added _ => rfl
    | deleted _ hnone => exact absurd (eq_of_beq hnone) hne

/-- The two pollers, each with its own channels. -/
structure Pollers (C : Type) where
  poll : PollPoller C
  epoll : EpollPoller C

namespace Pollers

def create (fd : C → Int) : Pollers C := ⟨PollPoller.create fd, EpollPoller.create fd⟩

/-- The pollers watch the same, which is what their registered channels demand. -/
structure Agree (x : Pollers C) : Prop where
  watched : ∀ f events, x.poll.Watches f events ↔ x.epoll.Watches f events
  poll : ∀ f events, x.poll.Watches f events ↔
    Demanded x.poll.channelMap x.poll.channels f events
  epoll : ∀ f events, x.epoll.Watches f events ↔
    Demanded x.epoll.channelMap x.epoll.channels f events

variable [DecidableEq C]

/-- One call, made on both pollers. -/
structure Step (x : Pollers C) (op : PollerOp C) (y : Pollers C) : Prop where
  allowed : x.poll.Allowed op
  poll : y.poll = (x.poll.apply op).val
  epoll : y.epoll = (x.epoll.apply op).val

/-- A call that `PollPoller` gets right. -/
def SafeStep (x : Pollers C) (op : PollerOp C) (y : Pollers C) : Prop :=
  Step x op y ∧ x.poll.Safe op

/-- No assertion of the call fails, and the pollers agree after it. -/
structure AgreeingStep (x : Pollers C) (op : PollerOp C) (y : Pollers C) : Prop where
  step : Step x op y
  pollOk : (x.poll.apply op).ok = true
  epollOk : (x.epoll.apply op).ok = true
  agree : Agree y

omit [DecidableEq C]

/-- The simulation relation. -/
structure Related (fd : C → Int) (x : Pollers C) : Prop where
  poll : PollPoller.Consistent fd x.poll
  epoll : EpollPoller.Consistent fd x.epoll
  map : x.poll.channelMap = x.epoll.channelMap
  events : ∀ c, (x.poll.channels c).events = (x.epoll.channels c).events

theorem related_create (fd : C → Int) : Related fd (create fd) :=
  ⟨PollPoller.consistent_create fd, EpollPoller.consistent_create fd, rfl, fun _ => rfl⟩

theorem Related.agree {fd : C → Int} (hnonneg : ∀ c, 0 ≤ fd c) {x : Pollers C}
    (h : Related fd x) : Agree x := by
  refine ⟨fun f events => ?_, h.poll.watches_iff hnonneg, h.epoll.watches_iff⟩
  have hdemanded : Demanded x.poll.channelMap x.poll.channels f events ↔
      Demanded x.epoll.channelMap x.epoll.channels f events := by
    simp only [Demanded, h.map, h.events]
  exact (h.poll.watches_iff hnonneg f events).trans
    (hdemanded.trans (h.epoll.watches_iff f events).symm)

variable [DecidableEq C] {fd : C → Int} {x y : Pollers C} {op : PollerOp C}

omit [DecidableEq C] in
theorem Related.allowed (h : Related fd x) (hallowed : x.poll.Allowed op) :
    x.epoll.Allowed op := by
  cases op with
  | set c interest => trivial
  | remove c =>
      rcases hallowed with ⟨hknown, hnone⟩
      rw [h.poll.fds, h.map] at hknown
      refine ⟨?_, ?_⟩
      · rwa [h.epoll.fds]
      · rw [Channel.isNoneEvent, ← h.events]
        exact hnone

theorem Related.safeStep (hinj : Function.Injective fd) (hnonneg : ∀ c, 0 ≤ fd c)
    (h : Related fd x) (hstep : SafeStep x op y) : Related fd y ∧ AgreeingStep x op y := by
  rcases hstep with ⟨hcall, hsafe⟩
  have hfollows := PollPoller.apply_follows hinj hnonneg h.poll hcall.allowed hsafe
  obtain ⟨hok, channel, watched, hval, hfd, hevents, htracked⟩ :=
    EpollPoller.apply_succeeds h.epoll (h.allowed hcall.allowed)
  have hy : Related fd y := by
    refine ⟨?_, ?_, ?_, fun c => ?_⟩
    · rw [hcall.poll]
      exact hfollows.consistent
    · rw [hcall.epoll, hval]
      exact h.epoll.put hinj hfd htracked
    · rw [hcall.poll, hcall.epoll, hval, hfollows.map, h.map, EpollPoller.put, h.epoll.fds]
    · rw [hcall.poll, hcall.epoll, hval, hfollows.events]
      by_cases hc : c = op.channel
      · subst hc
        rw [if_pos rfl]
        show _ = (Function.update x.epoll.channels op.channel channel op.channel).events
        rw [Function.update_self, hevents]
        exact op.events_change (h.events _)
      · rw [if_neg hc]
        show _ = (Function.update x.epoll.channels op.channel channel c).events
        rw [Function.update_of_ne hc]
        exact h.events c
  exact ⟨hy, hcall, hfollows.ok, hok, hy.agree hnonneg⟩

theorem Related.safe_or_ignored_of_ok (h : Related fd x) {c : C} {interest : Interest}
    (hok : (x.poll.apply (.set c interest)).ok = true) :
    x.poll.Safe (.set c interest) ∨ x.poll.channelMap (fd c) = some c ∧
      (x.poll.entry (x.poll.channels c).index).fd = -1 ∧
      ((x.poll.channels c).set interest).isNoneEvent = false := by
  have hfd := h.poll.fds c
  by_cases hindex : (x.poll.channels c).index < 0
  · exact Or.inl (Or.inl hindex)
  · have hchannel : (x.poll.change c interest).channels c = (x.poll.channels c).set interest :=
      Function.update_self _ _ _
    rw [PollPoller.apply, PollPoller.updateChannel] at hok
    simp only [hchannel, Channel.index_set, Channel.fd_set, if_neg hindex, Checked.ok_bind,
      Checked.ok_assert, Bool.and_eq_true, decide_eq_true_eq, hfd] at hok
    rcases hok with ⟨-, hmap, -, hentry, -⟩
    rcases hentry with hentry | hentry
    · exact Or.inl (Or.inr ⟨hfd.symm ▸ hmap, Or.inl (hfd.symm ▸ hentry.symm)⟩)
    · cases hnone : ((x.poll.channels c).set interest).isNoneEvent with
      | true => exact Or.inl (Or.inr ⟨hfd.symm ▸ hmap, Or.inr ⟨hentry, hnone⟩⟩)
      | false => exact Or.inr ⟨hmap, hentry, rfl⟩

/-- An entry of -1 hides the channel that fills it. -/
theorem Related.not_watched_of_ignored (hinj : Function.Injective fd) (hpos : ∀ c, 0 < fd c)
    (h : Related fd x) {c : C} {interest : Interest} (hreg : PollPoller.Registered fd x.poll c)
    (hentry : (x.poll.entry (x.poll.channels c).index).fd = -1)
    (hsome : ((x.poll.channels c).set interest).isNoneEvent = false) (events : BitVec 32) :
    ¬ (x.poll.apply (.set c interest)).val.Watches (fd c) events := by
  obtain ⟨i, hi, -, -, -⟩ := h.poll.entry hreg
  rw [hi] at hentry
  rw [PollPoller.val_set_indexed (h.poll.fds c) hi interest]
  intro hwatches
  rcases hwatches with ⟨e, he, hfd, -, -, -⟩
  obtain ⟨j, hj⟩ := List.mem_iff_getElem?.mp he
  have hc := hpos c
  by_cases hji : j = i
  · subst hji
    have hlt : j < x.poll.pollFdList.length := by
      simpa using (List.getElem?_eq_some_iff.mp hj).1
    have hsame := Option.some_inj.mp ((List.getElem?_set_self hlt).symm.trans hj)
    rw [← hsame, PollPoller.updated, hsome] at hfd
    simp only [Bool.false_eq_true, if_false] at hfd
    omega
  · have hold : x.poll.pollFdList[j]? = some e := by
      rwa [List.getElem?_set_ne (Ne.symm hji)] at hj
    have hlt : j < x.poll.pollFdList.length := (List.getElem?_eq_some_iff.mp hold).1
    obtain ⟨o, horeg, hoindex⟩ := h.poll.slots.owned j hlt
    have hne : o ≠ c := by
      intro heq
      subst heq
      exact hji (Int.ofNat_inj.mp (hoindex.symm.trans hi))
    have hencodes := h.poll.slots.entry_at horeg hoindex hold
    have hofd := h.poll.fds o
    have ho := hpos o
    have hfds : fd o ≠ fd c := fun heq => hne (hinj heq)
    cases hnone : (x.poll.channels o).isNoneEvent with
    | false =>
        have := hencodes.fd hnone
        omega
    | true =>
        rcases hencodes.ignored hnone with hminus | hminus <;> omega

theorem Related.safe_remove_of_ok (hpos : ∀ c, 0 < fd c) (h : Related fd x) {c : C}
    (hok : (x.poll.apply (.remove c)).ok = true) : x.poll.Safe (.remove c) := by
  have hfd := h.poll.fds c
  simp only [PollPoller.apply, PollPoller.removeChannel, Checked.ok_bind, Checked.ok_assert,
    Bool.and_eq_true, decide_eq_true_eq] at hok
  rcases hok with ⟨-, -, -, -, -, ⟨hentry, -⟩, -, herase⟩
  refine ⟨hentry, fun hlast hminus => ?_⟩
  -- -1 is taken for the negated descriptor 0, whose channel is looked up in vain
  have hzero : ∀ o, x.poll.channelMap 0 ≠ some o := by
    intro o hmap
    have hfd := h.poll.mapped 0 o hmap
    have ho := hpos o
    omega
  have hnull : Function.update x.poll.channelMap (x.poll.channels c).fd none 0 = none := by
    rw [Function.update_apply]
    split
    · rfl
    · exact Option.eq_none_iff_forall_ne_some.mpr hzero
  have hminus' : ∀ channelMap, (PollPoller.entry ⟨x.poll.channels, channelMap,
      x.poll.pollFdList⟩ (x.poll.pollFdList.length - 1)).fd = -1 := fun _ => hminus
  rw [PollPoller.eraseEntry, if_neg hlast] at herase
  simp only [hminus', Checked.ok_bind, Bool.and_eq_true] at herase
  have hlookup := herase.1
  simp [PollPoller.setIndexOf, hnull] at hlookup

/-- Where the pollers agree after a call, the call was safe. -/
theorem Related.safe_of_agreeing (hinj : Function.Injective fd) (hpos : ∀ c, 0 < fd c)
    (h : Related fd x) (hstep : AgreeingStep x op y) : SafeStep x op y := by
  refine ⟨hstep.step, ?_⟩
  cases op with
  | set c interest =>
      rcases h.safe_or_ignored_of_ok hstep.pollOk with hsafe | ⟨hreg, hentry, hsome⟩
      · exact hsafe
      · have hhidden := h.not_watched_of_ignored hinj hpos hreg hentry hsome
        obtain ⟨i, hi, -, -, -⟩ := h.poll.entry hreg
        have hy := PollPoller.val_set_indexed (h.poll.fds c) hi interest
        have hdemanded : Demanded y.poll.channelMap y.poll.channels (fd c)
            ((x.poll.channels c).set interest).events := by
          rw [hstep.step.poll, hy]
          refine ⟨c, hreg, ?_, beq_eq_false_iff_ne.mp hsome⟩
          exact congrArg Channel.events (Function.update_self c _ _)
        have hwatched := (hstep.agree.poll _ _).mpr hdemanded
        rw [hstep.step.poll] at hwatched
        exact absurd hwatched (hhidden _)
  | remove c => exact h.safe_remove_of_ok hpos hstep.pollOk

theorem agreeing_of_safe (hinj : Function.Injective fd) (hnonneg : ∀ c, 0 ≤ fd c)
    {ops : List (PollerOp C)} (hrun : Run SafeStep (create fd) ops x) :
    Run AgreeingStep (create fd) ops x ∧ Related fd x := by
  have hkeep : ∀ x op y, Related fd x → SafeStep x op y → Related fd y :=
    fun _ _ _ h hstep => (h.safeStep hinj hnonneg hstep).1
  have hagreeing : ∀ x op y, Related fd x → SafeStep x op y → AgreeingStep x op y :=
    fun _ _ _ h hstep => (h.safeStep hinj hnonneg hstep).2
  exact ⟨hrun.mono_invariant hkeep hagreeing (related_create fd),
    hrun.invariant hkeep (related_create fd)⟩

theorem safe_of_agreeing (hinj : Function.Injective fd) (hpos : ∀ c, 0 < fd c)
    {ops : List (PollerOp C)} (hrun : Run AgreeingStep (create fd) ops x) :
    Run SafeStep (create fd) ops x := by
  have hsafe : ∀ x op y, Related fd x → AgreeingStep x op y → SafeStep x op y :=
    fun _ _ _ h hstep => h.safe_of_agreeing hinj hpos hstep
  have hkeep : ∀ x op y, Related fd x → AgreeingStep x op y → Related fd y := by
    intro x op y h hstep
    have hnonneg : ∀ c, 0 ≤ fd c := fun c => Int.le_of_lt (hpos c)
    exact (h.safeStep hinj hnonneg (hsafe x op y h hstep)).1
  exact hrun.mono_invariant hkeep hsafe (related_create fd)

/-- In every run of safe calls no assertion fails and the pollers agree after each call; and when
no channel has descriptor 0, only runs of safe calls are such. -/
theorem agree_of_safe (hinj : Function.Injective fd) (hnonneg : ∀ c, 0 ≤ fd c)
    {ops : List (PollerOp C)} :
    (Run SafeStep (create fd) ops x → Run AgreeingStep (create fd) ops x ∧ Agree x) ∧
      ((∀ c, fd c ≠ 0) → Run AgreeingStep (create fd) ops x →
        Run SafeStep (create fd) ops x) := by
  constructor
  · intro hrun
    obtain ⟨hagreeing, hrelated⟩ := agreeing_of_safe hinj hnonneg hrun
    exact ⟨hagreeing, hrelated.agree hnonneg⟩
  · intro hzero hrun
    have hpos : ∀ c, 0 < fd c := by
      intro c
      have hc := hnonneg c
      have hne := hzero c
      omega
    exact safe_of_agreeing hinj hpos hrun

theorem agree_of_safe_twoFds :
    ∃ x : Pollers Bool,
      Run SafeStep (create EpollPoller.twoFds)
        [.set true .enableRead, .set false .enableWrite, .set true .disableAll, .remove true] x ∧
      Run AgreeingStep (create EpollPoller.twoFds)
        [.set true .enableRead, .set false .enableWrite, .set true .disableAll, .remove true] x ∧
      Agree x := by
  let next (x : Pollers Bool) (op : PollerOp Bool) : Pollers Bool :=
    ⟨(x.poll.apply op).val, (x.epoll.apply op).val⟩
  let x₁ := next (create EpollPoller.twoFds) (.set true .enableRead)
  let x₂ := next x₁ (.set false .enableWrite)
  let x₃ := next x₂ (.set true .disableAll)
  have h₁ : SafeStep (create EpollPoller.twoFds) (.set true .enableRead) x₁ :=
    ⟨⟨trivial, rfl, rfl⟩, Or.inl (by decide)⟩
  have h₂ : SafeStep x₁ (.set false .enableWrite) x₂ :=
    ⟨⟨trivial, rfl, rfl⟩, Or.inl (by decide)⟩
  have h₃ : SafeStep x₂ (.set true .disableAll) x₃ :=
    ⟨⟨trivial, rfl, rfl⟩, Or.inr ⟨by decide, Or.inl (by decide)⟩⟩
  have h₄ : SafeStep x₃ (.remove true) (next x₃ (.remove true)) :=
    ⟨⟨⟨by decide, by decide⟩, rfl, rfl⟩, by decide, fun _ hlast => absurd hlast (by decide)⟩
  have hrun := (((Run.nil.snoc h₁).snoc h₂).snoc h₃).snoc h₄
  have hnonneg : ∀ c, 0 ≤ EpollPoller.twoFds c := by decide
  obtain ⟨hagreeing, hagree⟩ := (agree_of_safe EpollPoller.twoFds_injective hnonneg).1 hrun
  exact ⟨_, hrun, hagreeing, hagree⟩

/-- A channel on descriptor 5 whose interest is switched off and on again. -/
theorem reenabled_disagrees :
    ∃ x y : Pollers Unit,
      Run AgreeingStep (create fun _ => 5) [.set () .enableRead, .set () .disableAll] x ∧
      Step x (.set () .enableRead) y ∧ (x.poll.apply (.set () .enableRead)).ok = false ∧
      (∀ events, ¬ y.poll.Watches 5 events) ∧ y.epoll.Watches 5 3 := by
  let next (x : Pollers Unit) (op : PollerOp Unit) : Pollers Unit :=
    ⟨(x.poll.apply op).val, (x.epoll.apply op).val⟩
  let start : Pollers Unit := create fun _ => 5
  let x₁ := next start (.set () .enableRead)
  let x₂ := next x₁ (.set () .disableAll)
  have hinj : Function.Injective (fun _ : Unit => (5 : Int)) := fun _ _ _ => rfl
  have h₁ : SafeStep start (.set () .enableRead) x₁ :=
    ⟨⟨trivial, rfl, rfl⟩, Or.inl (by decide)⟩
  have h₂ : SafeStep x₁ (.set () .disableAll) x₂ :=
    ⟨⟨trivial, rfl, rfl⟩, Or.inr ⟨by decide, Or.inl (by decide)⟩⟩
  have hrun : Run AgreeingStep start [.set () .enableRead, .set () .disableAll] x₂ := by
    have hrelated := (related_create _).safeStep hinj (fun _ => by decide) h₁
    have hrelated' := hrelated.1.safeStep hinj (fun _ => by decide) h₂
    exact (Run.nil.snoc hrelated.2).snoc hrelated'.2
  refine ⟨x₂, next x₂ (.set () .enableRead), hrun, ⟨trivial, rfl, rfl⟩, by decide, ?_, ?_⟩
  · intro events hwatches
    rcases hwatches with ⟨e, he, hfd, -⟩
    have hlist : (next x₂ (.set () .enableRead)).poll.pollFdList = [⟨-6, 3, 0⟩] := by decide
    rw [hlist, List.mem_singleton] at he
    rw [he] at hfd
    exact absurd hfd (by decide)
  · exact ⟨(), by decide, by decide⟩

end Pollers

end LearnMuduo
