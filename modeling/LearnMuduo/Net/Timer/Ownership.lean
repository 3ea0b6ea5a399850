import LearnMuduo.Framework.Run
import LearnMuduo.Net.Timer.Queue

/-!
# Ownership of the timers

`Owned q batch`: both lists hold the same timers under their current keys, and every timer that
was added and not deleted is in the lists or in `batch`. Each operation of the queue is a chain
of moves between the lists and the batch, and each move keeps `Owned`.
-/

namespace LearnMuduo

open Framework

namespace TimerQueue

def Queued (q : TimerQueue) (p : TimerPtr) : Prop := q.entryOf p ∈ q.timerList

/-- Added and not deleted. -/
def Live (q : TimerQueue) (p : TimerPtr) : Prop :=
  .added p ∈ q.history ∧ .deleted p ∉ q.history

/-- The timers of a batch. -/
def timers (batch : List TimerEntry) : List TimerPtr := batch.map TimerEntry.timer

/-- Nothing happens to a timer after its deletion. -/
def NeverAfterDelete (later earlier : TimerEvent) : Prop :=
  ∀ p, earlier = .deleted p → later.timer ≠ p

structure Owned (q : TimerQueue) (batch : List TimerEntry) : Prop where
  listed : ∀ e ∈ q.timerList, e = q.entryOf e.timer
  idListed : ∀ i ∈ q.timerIdList, i = q.idOf i.timer
  same : ∀ p, q.Queued p ↔ q.idOf p ∈ q.timerIdList
  live : ∀ p, q.Live p ↔ q.Queued p ∨ p ∈ timers batch
  apart : ∀ p, q.Queued p → p ∉ timers batch
  keyed : ∀ e ∈ batch, e = q.entryOf e.timer
  nodup : (timers batch).Nodup
  final : q.history.Pairwise NeverAfterDelete
  known : ∀ event ∈ q.history, .added event.timer ∈ q.history

theorem owned_create (memory : TimerPtr → Timer) : (create memory).Owned [] where
  listed := fun e he => absurd he (SortedSet.not_mem_empty e)
  idListed := fun i hi => absurd hi (SortedSet.not_mem_empty i)
  same := fun p => iff_of_false (SortedSet.not_mem_empty _) (SortedSet.not_mem_empty _)
  live := fun p => by simp [Live, Queued, create, timers]
  apart := fun p _ => List.not_mem_nil
  keyed := fun e he => absurd he List.not_mem_nil
  nodup := List.nodup_nil
  final := List.Pairwise.nil
  known := fun event he => absurd he List.not_mem_nil

namespace Owned

variable {q : TimerQueue} {batch : List TimerEntry}

theorem queued_of_mem (h : q.Owned batch) {e : TimerEntry} (he : e ∈ q.timerList) :
    q.Queued e.timer := by
  rw [Queued, ← h.listed e he]
  exact he

theorem set (h : q.Owned batch) (fd : Timerfd) (canceling : SortedSet TimerIdEntry)
    (calling : Bool) :
    { q with
      timerfd := fd
      cancelingTimers := canceling
      callingExpiredTimers := calling }.Owned batch :=
  ⟨h.listed, h.idListed, h.same, h.live, h.apart, h.keyed, h.nodup, h.final, h.known⟩

theorem final_record (h : q.Owned batch) {event : TimerEvent}
    (hevent : .deleted event.timer ∉ q.history) :
    (q.record event).history.Pairwise NeverAfterDelete := by
  refine List.pairwise_cons.mpr ⟨?_, h.final⟩
  rintro earlier hearlier p rfl rfl
  exact hevent hearlier

theorem recordAdded (h : q.Owned batch) {p : TimerPtr} (hfresh : .added p ∉ q.history) :
    (q.record (.added p)).Owned (q.entryOf p :: batch) := by
  have hdead : ¬ q.Live p := fun hlive => hfresh hlive.1
  have hout : ¬ q.Queued p ∧ p ∉ timers batch := not_or.mp (mt (h.live p).mpr hdead)
  have hdeleted : .deleted p ∉ q.history := fun hmem => hfresh (h.known _ hmem)
  refine ⟨h.listed, h.idListed, h.same, ?_, ?_, ?_, ?_, h.final_record hdeleted, ?_⟩
  · intro p'
    show (_ ∈ _ :: _ ∧ _ ∉ _ :: _) ↔ q.Queued p' ∨ p' ∈ p :: timers batch
    have hlive := h.live p'
    rw [Live] at hlive
    by_cases hp : p' = p
    · subst hp
      simp [hdeleted]
    · simp [hp, hlive]
  · intro p' hp' hmem
    rcases List.mem_cons.mp hmem with rfl | hmem
    · exact hout.1 hp'
    · exact h.apart p' hp' hmem
  · intro e he
    rcases List.mem_cons.mp he with rfl | he
    · rfl
    · exact h.keyed e he
  · exact List.nodup_cons.mpr ⟨hout.2, h.nodup⟩
  · intro event hevent
    rcases List.mem_cons.mp hevent with rfl | hevent
    · exact List.mem_cons_self
    · exact List.mem_cons_of_mem _ (h.known event hevent)

theorem entryOf_ne {timer : Timer} {p p' : TimerPtr} (hp : p' ≠ p) :
    { q with memory := Function.update q.memory p timer }.entryOf p' = q.entryOf p' := by
  simp [entryOf, Function.update_of_ne hp]

theorem idOf_ne {timer : Timer} {p p' : TimerPtr} (hp : p' ≠ p) :
    { q with memory := Function.update q.memory p timer }.idOf p' = q.idOf p' := by
  simp [idOf, Function.update_of_ne hp]

theorem remember {p : TimerPtr} (h : q.Owned (q.entryOf p :: batch)) (timer : Timer) :
    { q with memory := Function.update q.memory p timer }.Owned
      ({ q with memory := Function.update q.memory p timer }.entryOf p :: batch) := by
  have hout : ¬ q.Queued p := fun hq => h.apart p hq List.mem_cons_self
  have hoff : ∀ e ∈ q.timerList, e.timer ≠ p := by
    intro e he heq
    subst heq
    exact hout (h.queued_of_mem he)
  have hidOff : ∀ i ∈ q.timerIdList, i.timer ≠ p := by
    intro i hi heq
    subst heq
    rw [h.idListed i hi] at hi
    exact hout ((h.same _).mpr hi)
  have hqueued : ∀ p', { q with memory := Function.update q.memory p timer }.Queued p' ↔
      q.Queued p' := by
    intro p'
    by_cases hp : p' = p
    · subst hp
      exact iff_of_false (fun hmem => hoff _ hmem rfl) hout
    · rw [Queued, entryOf_ne hp, Queued]
  have htimers : timers ({ q with memory := Function.update q.memory p timer }.entryOf p ::
      batch) = timers (q.entryOf p :: batch) := rfl
  have hrest := (List.nodup_cons.mp h.nodup).1
  refine ⟨?_, ?_, ?_, ?_, ?_, ?_, h.nodup, h.final, h.known⟩
  · intro e he
    rw [entryOf_ne (hoff e he)]
    exact h.listed e he
  · intro i hi
    rw [idOf_ne (hidOff i hi)]
    exact h.idListed i hi
  · intro p'
    rw [hqueued]
    by_cases hp : p' = p
    · subst hp
      exact iff_of_false hout fun hmem => hidOff _ hmem rfl
    · rw [idOf_ne hp]
      exact h.same p'
  · intro p'
    rw [hqueued, htimers]
    exact h.live p'
  · intro p' hp'
    rw [htimers]
    exact h.apart p' ((hqueued p').mp hp')
  · intro e he
    rcases List.mem_cons.mp he with rfl | hmem
    · rfl
    · have hne : e.timer ≠ p := fun heq => hrest (List.mem_map.mpr ⟨e, hmem, heq⟩)
      rw [entryOf_ne hne]
      exact h.keyed e (List.mem_cons_of_mem _ hmem)

theorem place {p : TimerPtr} (h : q.Owned (q.entryOf p :: batch)) :
    { q with
      timerIdList := q.timerIdList.insert (q.idOf p)
      timerList := q.timerList.insert (q.entryOf p) }.Owned batch := by
  have hrest := List.nodup_cons.mp h.nodup
  have hqueued : ∀ p', q.entryOf p' ∈ q.timerList.insert (q.entryOf p) ↔ p' = p ∨ q.Queued p' := by
    intro p'
    rw [SortedSet.mem_insert, Queued]
    refine or_congr_left ⟨fun heq => congrArg TimerEntry.timer heq, ?_⟩
    intro heq
    subst heq
    rfl
  refine ⟨?_, ?_, ?_, ?_, ?_, ?_, hrest.2, h.final, h.known⟩
  · intro e he
    rcases SortedSet.mem_insert.mp he with rfl | he
    · rfl
    · exact h.listed e he
  · intro i hi
    rcases SortedSet.mem_insert.mp hi with rfl | hi
    · rfl
    · exact h.idListed i hi
  · intro p'
    show q.entryOf p' ∈ q.timerList.insert _ ↔ q.idOf p' ∈ q.timerIdList.insert _
    rw [hqueued, SortedSet.mem_insert, h.same]
    refine or_congr_left ⟨?_, fun heq => congrArg TimerIdEntry.timer heq⟩
    intro heq
    subst heq
    rfl
  · intro p'
    refine (h.live p').trans ?_
    show _ ∨ p' ∈ p :: timers batch ↔ q.entryOf p' ∈ q.timerList.insert _ ∨ _
    rw [hqueued, List.mem_cons]
    tauto
  · intro p' hp'
    rcases (hqueued p').mp hp' with rfl | hp'
    · exact hrest.1
    · exact fun hmem => h.apart p' hp' (List.mem_cons_of_mem _ hmem)
  · exact fun e he => h.keyed e (List.mem_cons_of_mem _ he)

theorem takeOut {p : TimerPtr} (h : q.Owned batch) (hp : q.Queued p) :
    { q with
      timerIdList := q.timerIdList.erase (q.idOf p)
      timerList := q.timerList.erase (q.entryOf p) }.Owned (q.entryOf p :: batch) := by
  have hqueued : ∀ p', q.entryOf p' ∈ q.timerList.erase (q.entryOf p) ↔ p' ≠ p ∧ q.Queued p' := by
    intro p'
    rw [SortedSet.mem_erase, Queued]
    refine and_congr_left' (not_congr ⟨fun heq => congrArg TimerEntry.timer heq, ?_⟩)
    intro heq
    subst heq
    rfl
  refine ⟨?_, ?_, ?_, ?_, ?_, ?_, ?_, h.final, h.known⟩
  · exact fun e he => h.listed e (SortedSet.mem_erase.mp he).2
  · exact fun i hi => h.idListed i (SortedSet.mem_erase.mp hi).2
  · intro p'
    show q.entryOf p' ∈ q.timerList.erase _ ↔ q.idOf p' ∈ q.timerIdList.erase _
    rw [hqueued, SortedSet.mem_erase, h.same]
    refine and_congr_left' (not_congr ⟨?_, fun heq => congrArg TimerIdEntry.timer heq⟩)
    intro heq
    subst heq
    rfl
  · intro p'
    refine (h.live p').trans ?_
    show _ ↔ q.entryOf p' ∈ q.timerList.erase _ ∨ p' ∈ p :: timers batch
    rw [hqueued, List.mem_cons]
    by_cases heq : p' = p
    · subst heq
      simp [hp]
    · simp [heq]
  · intro p' hp' hmem
    have hne := (hqueued p').mp hp'
    rcases List.mem_cons.mp hmem with heq | hmem
    · exact hne.1 heq
    · exact h.apart p' hne.2 hmem
  · intro e he
    rcases List.mem_cons.mp he with rfl | he
    · rfl
    · exact h.keyed e he
  · exact List.nodup_cons.mpr ⟨h.apart p hp, h.nodup⟩

theorem delete {e : TimerEntry} (h : q.Owned (e :: batch)) :
    (q.deleteTimer e.timer).Owned batch := by
  have hrest : e.timer ∉ timers batch ∧ (timers batch).Nodup := List.nodup_cons.mp h.nodup
  have hlive : q.Live e.timer := (h.live _).mpr (Or.inr List.mem_cons_self)
  refine ⟨h.listed, h.idListed, h.same, ?_, ?_, ?_, hrest.2, h.final_record hlive.2, ?_⟩
  · intro p
    show (_ ∈ _ :: _ ∧ _ ∉ _ :: _) ↔ q.Queued p ∨ p ∈ timers batch
    have hp := h.live p
    rw [Live] at hp
    by_cases heq : p = e.timer
    · subst heq
      have hapart : ¬ q.Queued e.timer := fun hq => h.apart _ hq List.mem_cons_self
      simp [hapart, hrest.1]
    · have htimers : p ∈ timers (e :: batch) ↔ p ∈ timers batch := by
        simp [timers, heq]
      rw [htimers] at hp
      simp [heq, hp]
  · exact fun p hp hmem => h.apart p hp (List.mem_cons_of_mem _ hmem)
  · exact fun x hx => h.keyed x (List.mem_cons_of_mem _ hx)
  · intro event hevent
    rcases List.mem_cons.mp hevent with rfl | hevent
    · exact List.mem_cons_of_mem _ hlive.1
    · exact List.mem_cons_of_mem _ (h.known event hevent)

theorem runTimer (h : q.Owned batch) {p : TimerPtr} (hp : p ∈ timers batch) (now : Timestamp)
    (read : Nat) : (q.runTimer p now read).Owned batch := by
  have hlive : q.Live p := (h.live p).mpr (Or.inr hp)
  refine ⟨h.listed, h.idListed, h.same, ?_, h.apart, h.keyed, h.nodup,
    h.final_record (show .deleted p ∉ q.history from hlive.2), ?_⟩
  · intro p'
    refine Iff.trans ?_ (h.live p')
    show (_ ∈ _ :: _ ∧ _ ∉ _ :: _) ↔ _ ∈ _ ∧ _ ∉ _
    simp
  · intro event hevent
    rcases List.mem_cons.mp hevent with rfl | hevent
    · exact List.mem_cons_of_mem _ hlive.1
    · exact List.mem_cons_of_mem _ (h.known event hevent)

theorem insert {p : TimerPtr} (h : q.Owned (q.entryOf p :: batch)) :
    (q.insert p).val.1.Owned batch :=
  h.place

theorem resetTimerfd (h : q.Owned batch) (expiration clock : Timestamp) :
    (q.resetTimerfd expiration clock).Owned batch :=
  h.set _ _ _

theorem newTimer (h : q.Owned batch) {p : TimerPtr} (hfresh : .added p ∉ q.history)
    (timer : Timer) :
    (q.newTimer p timer).Owned ((q.newTimer p timer).entryOf p :: batch) :=
  (h.recordAdded hfresh).remember timer

theorem addTimerInLoop {p : TimerPtr} (h : q.Owned (q.entryOf p :: batch)) (clock : Timestamp) :
    (q.addTimerInLoop p clock).val.Owned batch := by
  have hinsert := h.insert
  simp only [TimerQueue.addTimerInLoop, Checked.val_bind, Checked.val_pure]
  split
  · exact hinsert.resetTimerfd _ clock
  · exact hinsert

theorem cancelInLoop (h : q.Owned batch) (timerId : TimerId) :
    (q.cancelInLoop timerId).val.Owned batch := by
  simp only [TimerQueue.cancelInLoop, Checked.val_bind, Checked.val_pure]
  split
  · rename_i hmem
    have hid : TimerIdEntry.mk timerId.timer timerId.sequence = q.idOf timerId.timer :=
      h.idListed _ hmem
    rw [hid] at hmem ⊢
    exact (h.takeOut ((h.same _).mpr hmem)).delete
  · split
    · exact h.set _ _ _
    · exact h

theorem resetEntry {e : TimerEntry} (h : q.Owned (e :: batch)) (now : Timestamp) :
    (q.resetEntry e now).val.Owned batch := by
  unfold TimerQueue.resetEntry
  dsimp only
  split
  · have hkey : e = q.entryOf e.timer := h.keyed e List.mem_cons_self
    rw [hkey] at h
    exact (h.remember _).insert
  · exact h.delete

theorem resetEntries (h : q.Owned batch) (now : Timestamp) :
    (q.resetEntries now batch).val.Owned [] := by
  induction batch generalizing q with
  | nil => exact h
  | cons e batch ih =>
      simp only [TimerQueue.resetEntries, Checked.val_bind]
      exact ih (h.resetEntry now)

theorem reset (h : q.Owned batch) (now clock : Timestamp) :
    (q.reset batch now clock).val.Owned [] := by
  have hentries := h.resetEntries now
  simp only [TimerQueue.reset, Checked.val_bind, Checked.val_pure]
  split
  · split
    · exact hentries.resetTimerfd _ clock
    · exact hentries
  · split
    · exact hentries.resetTimerfd _ clock
    · exact hentries

end Owned

theorem eraseIds_val (q : TimerQueue) (expired : List TimerEntry) :
    ∃ ids, (q.eraseIds expired).val = { q with timerIdList := ids } ∧
      ∀ i, i ∈ ids ↔ i ∈ q.timerIdList ∧ ∀ e ∈ expired, i ≠ q.idOf e.timer := by
  induction expired generalizing q with
  | nil => exact ⟨q.timerIdList, rfl, fun i => by simp⟩
  | cons e expired ih =>
      obtain ⟨ids, hval, hids⟩ :=
        ih { q with timerIdList := q.timerIdList.erase (q.idOf e.timer) }
      refine ⟨ids, hval, fun i => ?_⟩
      rw [hids, SortedSet.mem_erase, List.forall_mem_cons]
      show (_ ∧ _) ∧ (∀ x ∈ expired, i ≠ q.idOf x.timer) ↔ _
      tauto

namespace Owned

variable {q : TimerQueue}

theorem getExpired (h : q.Owned []) (now : Timestamp) :
    (q.getExpired now).val.2.Owned (q.getExpired now).val.1 := by
  obtain ⟨ids, hval, hids⟩ := eraseIds_val
    { q with timerList := q.timerList.notBelow (.mk now nullptr) }
    (q.timerList.below (.mk now nullptr))
  simp only [TimerQueue.getExpired, Checked.val_bind, Checked.val_pure, hval]
  have hbelow : ∀ e ∈ q.timerList.below (.mk now nullptr), e = q.entryOf e.timer :=
    fun e he => h.listed e (SortedSet.mem_below.mp he).1
  have htimers : ∀ p, p ∈ timers (q.timerList.below (.mk now nullptr)) ↔
      q.Queued p ∧ q.entryOf p < .mk now nullptr := by
    intro p
    rw [timers, List.mem_map, Queued, ← SortedSet.mem_below]
    constructor
    · intro hmem
      rcases hmem with ⟨e, he, rfl⟩
      rwa [← hbelow e he]
    · exact fun hp => ⟨_, hp, rfl⟩
  have hqueued : ∀ p, q.entryOf p ∈ q.timerList.notBelow (.mk now nullptr) ↔
      q.Queued p ∧ p ∉ timers (q.timerList.below (.mk now nullptr)) := by
    intro p
    rw [SortedSet.mem_notBelow, htimers, ← not_lt, Queued]
    tauto
  refine ⟨?_, ?_, ?_, ?_, ?_, hbelow, ?_, h.final, h.known⟩
  · exact fun e he => h.listed e (SortedSet.mem_notBelow.mp he).1
  · exact fun i hi => h.idListed i ((hids i).mp hi).1
  · intro p
    show q.entryOf p ∈ q.timerList.notBelow _ ↔ q.idOf p ∈ ids
    rw [hqueued, hids, h.same]
    refine and_congr_right fun _ => ?_
    constructor
    · intro hp e he heq
      exact hp (List.mem_map.mpr ⟨e, he, (congrArg TimerIdEntry.timer heq).symm⟩)
    · intro hall hp
      obtain ⟨e, he, rfl⟩ := List.mem_map.mp hp
      exact hall e he rfl
  · intro p
    refine (h.live p).trans ?_
    show _ ∨ p ∈ [] ↔ q.entryOf p ∈ q.timerList.notBelow _ ∨ _
    have hsub := (htimers p).mp
    rw [hqueued]
    constructor
    · intro hlive
      rcases hlive with hp | hp
      · by_cases hmem : p ∈ timers (q.timerList.below (.mk now nullptr))
        · exact Or.inr hmem
        · exact Or.inl ⟨hp, hmem⟩
      · exact absurd hp List.not_mem_nil
    · intro hlive
      rcases hlive with hp | hp
      · exact Or.inl hp.1
      · exact Or.inl (hsub hp).1
  · exact fun p hp => ((hqueued p).mp hp).2
  · refine List.Nodup.map_on ?_ ((q.timerList.sorted_below _).imp fun hlt => ne_of_lt hlt)
    intro x hx y hy heq
    rw [hbelow x hx, hbelow y hy, heq]

end Owned

end TimerQueue

namespace TimerState

open TimerQueue

/-- The invariant of the loop thread: the batch in progress owns what the lists do not. -/
def Consistent (s : TimerState) : Prop := s.queue.Owned s.batch

theorem Consistent.step {s s' : TimerState} {label : TimerLabel} (h : s.Consistent)
    (hstep : TimerStep s label s') : s'.Consistent := by
  cases hstep with
  | @addTimerInLoop _ p timer clock _ hfresh =>
      exact (Owned.newTimer h hfresh timer).addTimerInLoop clock
  | @cancelInLoop _ timerId _ => exact Owned.cancelInLoop h timerId
  | @handleRead q reads timestamp =>
      exact (Owned.getExpired h timestamp).set _ _ _
  | @callback q reads now started waiting e =>
      have hmem : e.timer ∈ timers (started ++ e :: waiting) := by
        simp [timers]
      have hrun := Owned.runTimer h hmem now reads
      show (q.runTimer e.timer now reads).Owned ((started ++ [e]) ++ waiting)
      rwa [List.append_assoc]
  | callbackReturn => exact h
  | @handleReadReturn q reads now clock started =>
      have howned : q.Owned started := by
        simpa [Consistent, batch, Activation.expired] using h
      exact (howned.set _ _ _).reset now clock

theorem consistent_of_run {memory : TimerPtr → Timer} {labels : List TimerLabel}
    {s : TimerState} (hrun : Run TimerStep (initial memory) labels s) : s.Consistent :=
  hrun.invariant (fun _ _ _ h hstep => h.step hstep) (owned_create memory)

def InTimerList (q : TimerQueue) (p : TimerPtr) : Prop := ∃ t, .mk t p ∈ q.timerList

def InTimerIdList (q : TimerQueue) (p : TimerPtr) : Prop := ∃ n, .mk p n ∈ q.timerIdList

/-- In every state of every run the two lists hold the same timers under their current keys, a
timer that was added and not deleted is either in the lists or in the batch, and a deleted timer
is neither deleted again nor run. -/
theorem lists_agree_and_own {memory : TimerPtr → Timer} {labels : List TimerLabel}
    {s : TimerState} (hrun : Run TimerStep (initial memory) labels s) :
    (∀ p, InTimerList s.queue p ↔ InTimerIdList s.queue p) ∧
      (∀ t p, .mk t p ∈ s.queue.timerList → t = (s.queue.memory p).expiration) ∧
      (∀ p n, .mk p n ∈ s.queue.timerIdList → n = (s.queue.memory p).sequence) ∧
      (∀ p, s.queue.Live p ↔
        Xor (InTimerList s.queue p ∧ InTimerIdList s.queue p) (p ∈ timers s.batch)) ∧
      s.queue.history.Pairwise NeverAfterDelete := by
  have h : s.queue.Owned s.batch := consistent_of_run hrun
  have hlist : ∀ p, InTimerList s.queue p ↔ s.queue.Queued p :=
    fun p => ⟨fun ⟨_, hmem⟩ => h.queued_of_mem hmem, fun hmem => ⟨_, hmem⟩⟩
  have hid : ∀ p, InTimerIdList s.queue p ↔ s.queue.Queued p := by
    intro p
    rw [h.same]
    refine ⟨?_, fun hmem => ⟨_, hmem⟩⟩
    intro hlisted
    rcases hlisted with ⟨n, hmem⟩
    rwa [h.idListed _ hmem] at hmem
  refine ⟨fun p => (hlist p).trans (hid p).symm, ?_, ?_, fun p => ?_, h.final⟩
  · exact fun t p hmem => congrArg TimerEntry.expiration (h.listed _ hmem)
  · exact fun p n hmem => congrArg TimerIdEntry.sequence (h.idListed _ hmem)
  · have hapart := h.apart p
    rw [h.live, hlist, hid, and_self, xor_def]
    tauto

/-- A timer that first expires at 5 and then every 10 microseconds. -/
def everyTen : Timer := .create 5 (.ofMicros 10) 1

/-- A timer that expires at 6, once. -/
def onceAtSix : Timer := .create 6 (.ofMicros 0) 2

/-- Both timers run in `handleRead(7)`. In the second run of the repeating one its own callback
cancels it. -/
def twoTimers : List TimerLabel :=
  [.addTimerInLoop 1 everyTen 0, .addTimerInLoop 2 onceAtSix 0, .handleRead 7, .callback 1,
    .callbackReturn, .callback 2, .callbackReturn, .handleReadReturn 8, .handleRead 20,
    .callback 1, .cancelInLoop ⟨1, 1⟩, .callbackReturn, .handleReadReturn 21]

theorem twoTimers_run : ∃ s, Run TimerStep (initial fun _ => everyTen) twoTimers s ∧
    s.queue.runs = [⟨1, 17, 20, 2⟩, ⟨2, 6, 7, 1⟩, ⟨1, 5, 7, 1⟩] ∧
    s.queue.history.head? = some (.deleted 1) := by
  let q₁ := (((TimerQueue.create fun _ => everyTen).newTimer 1 everyTen).addTimerInLoop 1 0).val
  let q₂ := ((q₁.newTimer 2 onceAtSix).addTimerInLoop 2 0).val
  let q₃ := ((q₂.handleReadBegin 7).val.2.runTimer 1 7 1).runTimer 2 7 1
  let q₄ := (q₃.handleReadEnd [.mk 5 1, .mk 6 2] 7 8).val
  have hadd : TimerStep (initial fun _ => everyTen) (.addTimerInLoop 1 everyTen 0) ⟨q₁, none, 0⟩ :=
    .addTimerInLoop (fun _ ha => nomatch ha) List.not_mem_nil
  have hadd' : TimerStep ⟨q₁, none, 0⟩ (.addTimerInLoop 2 onceAtSix 0) ⟨q₂, none, 0⟩ :=
    .addTimerInLoop (fun _ ha => nomatch ha) (by decide)
  have hread : TimerStep ⟨q₂, none, 0⟩ (.handleRead 7)
      ⟨(q₂.handleReadBegin 7).val.2, some ⟨7, [], [.mk 5 1, .mk 6 2], false⟩, 1⟩ := .handleRead
  have hreset : TimerStep ⟨q₃, some ⟨7, [.mk 5 1, .mk 6 2], [], false⟩, 1⟩ (.handleReadReturn 8)
      ⟨q₄, none, 1⟩ := .handleReadReturn
  have hread' : TimerStep ⟨q₄, none, 1⟩ (.handleRead 20)
      ⟨(q₄.handleReadBegin 20).val.2, some ⟨20, [], [.mk 17 1], false⟩, 2⟩ := .handleRead
  have hfirst := (((((((Run.nil.snoc hadd).snoc hadd').snoc hread).snoc .callback).snoc
    .callbackReturn).snoc .callback).snoc .callbackReturn).snoc hreset
  have hinside : ∀ {q : TimerQueue} {a : Activation} {reads : Nat}, a.inCallback = true →
      acceptsCalls ⟨q, some a, reads⟩ := by
    intro q a reads ha b hb
    rwa [← Option.some.inj hb]
  exact ⟨_, ((((hfirst.snoc hread').snoc .callback).snoc (.cancelInLoop (hinside rfl))).snoc
    .callbackReturn).snoc .handleReadReturn, by decide +kernel, by decide +kernel⟩

theorem lists_agree_and_own_twoTimers :
    ∃ s, Run TimerStep (initial fun _ => everyTen) twoTimers s ∧
      s.queue.history.head? = some (.deleted 1) ∧
      (∀ p, InTimerList s.queue p ↔ InTimerIdList s.queue p) ∧
      (∀ t p, .mk t p ∈ s.queue.timerList → t = (s.queue.memory p).expiration) ∧
      (∀ p n, .mk p n ∈ s.queue.timerIdList → n = (s.queue.memory p).sequence) ∧
      (∀ p, s.queue.Live p ↔
        Xor (InTimerList s.queue p ∧ InTimerIdList s.queue p) (p ∈ timers s.batch)) ∧
      s.queue.history.Pairwise NeverAfterDelete := by
  obtain ⟨s, hrun, -, hdeleted⟩ := twoTimers_run
  exact ⟨s, hrun, hdeleted, lists_agree_and_own hrun⟩

end TimerState

end LearnMuduo
