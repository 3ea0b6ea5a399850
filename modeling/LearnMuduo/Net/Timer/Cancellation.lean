import LearnMuduo.Net.EventLoop

/-!
# Cancellation through the public interface

`EventLoop::cancelTimer` ends in an empty function. A timer that is in the queue at the call
stays there, and a later `handleRead` runs it; a timer that has left the queue is deleted, and
never runs again.
-/

namespace LearnMuduo

open Framework TimerQueue TimerState

namespace EventLoop

/-- No continuation of the loop runs the timer's callback, and it is not in the queue. -/
def Cancelled (s : EventLoop) (p : TimerPtr) : Prop :=
  (∀ labels t, Run LoopStep s labels t → .queue (.callback p) ∉ labels) ∧
    ¬ InTimerList s.timers.queue p

theorem consistent_of_run {memory : TimerPtr → Timer} {labels : List LoopLabel} {s : EventLoop}
    (hrun : Run LoopStep (create memory) labels s) : s.timers.Consistent := by
  obtain ⟨ds, hds⟩ := run_simulates_queue hrun
  exact TimerState.consistent_of_run hds

theorem inTimerList_iff {s : EventLoop} (h : s.timers.Consistent) (p : TimerPtr) :
    InTimerList s.timers.queue p ↔ s.timers.queue.Queued p :=
  ⟨fun ⟨_, hmem⟩ => h.queued_of_mem hmem, fun hmem => ⟨_, hmem⟩⟩

theorem mem_history_of_run {s t : EventLoop} {labels : List LoopLabel} {event : TimerEvent}
    (hrun : Run LoopStep s labels t) (hevent : event ∈ s.timers.queue.history) :
    event ∈ t.timers.queue.history := by
  obtain ⟨ds, hds⟩ := run_simulates_queue hrun
  exact @Run.invariant _ _ _ _ _ _ (fun u => event ∈ u.queue.history)
    (fun _ _ _ h hstep => hstep.mem_history h) hds hevent

theorem not_deleted_of_callback {s s' : EventLoop} {p : TimerPtr} (h : s.timers.Consistent)
    (hstep : LoopStep s (.queue (.callback p)) s') : .deleted p ∉ s.timers.queue.history := by
  rcases s with ⟨timers, tasks, numCreated, issued⟩
  cases hstep with
  | queue _ htimers =>
      cases htimers with
      | @callback q reads now started waiting e =>
          have hmem : e.timer ∈ TimerQueue.timers (started ++ e :: waiting) := by
            simp [TimerQueue.timers]
          exact ((h.live e.timer).mpr (Or.inr hmem)).2

theorem never_runs_of_deleted {memory : TimerPtr → Timer} {labels labels' : List LoopLabel}
    {s t : EventLoop} {p : TimerPtr} (hrun : Run LoopStep (create memory) labels s)
    (hdeleted : .deleted p ∈ s.timers.queue.history) (hcontinue : Run LoopStep s labels' t) :
    .queue (.callback p) ∉ labels' := by
  intro hmem
  obtain ⟨before, _, u, _, -, hbefore, hcallback, -⟩ := hcontinue.exists_step_of_mem hmem
  have hconsistent : u.timers.Consistent := consistent_of_run (hrun.append hbefore)
  exact not_deleted_of_callback hconsistent hcallback (mem_history_of_run hbefore hdeleted)

theorem exists_callback (waiting started : List TimerEntry) (s : EventLoop) (q : TimerQueue)
    (now : Timestamp) (reads : Nat) {p : TimerPtr} (hp : p ∈ TimerQueue.timers waiting) :
    ∃ labels t, Run LoopStep { s with timers := ⟨q, some ⟨now, started, waiting, false⟩, reads⟩ }
      labels t ∧ .queue (.callback p) ∈ labels := by
  induction waiting generalizing started q with
  | nil => exact absurd hp List.not_mem_nil
  | cons e waiting ih =>
      have hcallback : LoopStep
          { s with timers := ⟨q, some ⟨now, started, e :: waiting, false⟩, reads⟩ }
          (.queue (.callback e.timer))
          { s with
            timers := ⟨q.runTimer e.timer now reads,
              some ⟨now, started ++ [e], waiting, true⟩, reads⟩ } :=
        .queue rfl .callback
      rcases List.mem_cons.mp hp with rfl | hp
      · exact ⟨_, _, Run.single hcallback, List.mem_singleton.mpr rfl⟩
      · have hreturn : LoopStep
            { s with
              timers := ⟨q.runTimer e.timer now reads,
                some ⟨now, started ++ [e], waiting, true⟩, reads⟩ }
            (.queue .callbackReturn)
            { s with
              timers := ⟨q.runTimer e.timer now reads,
                some ⟨now, started ++ [e], waiting, false⟩, reads⟩ } :=
          .queue rfl .callbackReturn
        obtain ⟨labels, t, hrun, hmem⟩ := ih (started ++ [e]) (q.runTimer e.timer now reads) hp
        refine ⟨_, t, ((Run.single hcallback).snoc hreturn).append hrun, ?_⟩
        exact List.mem_append_right _ hmem

/-- A queued timer is run by a `handleRead` whose timestamp is late enough. -/
theorem exists_callback_of_queued {s : EventLoop} {p : TimerPtr}
    (hidle : s.timers.activation = none) (hp : s.timers.queue.Queued p) :
    ∃ labels t, Run LoopStep s labels t ∧ .queue (.callback p) ∈ labels := by
  rcases s with ⟨⟨q, activation, reads⟩, tasks, numCreated, issued⟩
  cases hidle
  have hlt : q.entryOf p < .mk ((q.memory p).expiration + 1) nullptr :=
    TimerEntry.lt_sentry_iff.mpr (Int.lt_add_one_of_le (le_refl _))
  have hmem : p ∈ TimerQueue.timers (q.handleReadBegin ((q.memory p).expiration + 1)).val.1 :=
    List.mem_map.mpr ⟨q.entryOf p, SortedSet.mem_below.mpr ⟨hp, hlt⟩, rfl⟩
  obtain ⟨labels, t, hrun, hcallback⟩ :=
    exists_callback _ [] ⟨⟨q, none, reads⟩, tasks, numCreated, issued⟩
      (q.handleReadBegin ((q.memory p).expiration + 1)).val.2 ((q.memory p).expiration + 1)
      (reads + 1) hmem
  have hread : LoopStep ⟨⟨q, none, reads⟩, tasks, numCreated, issued⟩
      (.queue (.handleRead ((q.memory p).expiration + 1))) _ := .queue rfl .handleRead
  exact ⟨_, t, (Run.single hread).append hrun, List.mem_append_right _ hcallback⟩

/-- Once `cancelTimer` has been called outside the timer callbacks for an inserted timer, the
timer stays out of the queue and never runs exactly when it had left the queue before. -/
theorem cancelTimer_cancelled_iff {memory : TimerPtr → Timer} {labels : List LoopLabel}
    {s : EventLoop} {timerId : TimerId} (hrun : Run LoopStep (create memory) labels s)
    (hidle : s.timers.activation = none)
    (hinserted : .added timerId.timer ∈ s.timers.queue.history) :
    (s.cancelTimer timerId).Cancelled timerId.timer ↔
      ¬ InTimerList s.timers.queue timerId.timer := by
  have hconsistent := consistent_of_run hrun
  rw [cancelTimer_eq, inTimerList_iff hconsistent]
  constructor
  · intro hcancelled
    rcases hcancelled with ⟨hnever, -⟩
    intro hqueued
    obtain ⟨labels', t, hcontinue, hmem⟩ := exists_callback_of_queued hidle hqueued
    exact hnever labels' t hcontinue hmem
  · intro hleft
    have hbatch : s.timers.batch = [] := by rw [batch, hidle]; rfl
    have hdead : ¬ s.timers.queue.Live timerId.timer := by
      rw [hconsistent.live, hbatch]
      exact not_or.mpr ⟨hleft, List.not_mem_nil⟩
    have hdeleted : .deleted timerId.timer ∈ s.timers.queue.history := by
      by_contra hmem
      exact hdead ⟨hinserted, hmem⟩
    refine ⟨fun labels' t hcontinue => never_runs_of_deleted hrun hdeleted hcontinue, ?_⟩
    rwa [inTimerList_iff hconsistent]

/-- The loop after `runAt(5)` on its own thread, with the new timer at address 1. -/
def scheduled : EventLoop := (create fun _ => everyTen).runAt true 1 5 0

theorem scheduled_run : Run LoopStep (create fun _ => everyTen) [.runAt true 1 5 0] scheduled :=
  Run.single (.runAt (fun _ _ ha => nomatch ha) ⟨List.not_mem_nil, List.not_mem_nil⟩)

theorem scheduled_queued : InTimerList scheduled.timers.queue 1 := ⟨5, by decide⟩

theorem not_cancelled_scheduled : ¬ (scheduled.cancelTimer ⟨1, 1⟩).Cancelled 1 := by
  have hiff := @cancelTimer_cancelled_iff _ _ _ ⟨1, 1⟩ scheduled_run rfl (by decide)
  exact fun hcancelled => hiff.mp hcancelled scheduled_queued

/-- The id that `runAt` returned is cancelled, and the next `handleRead` runs the callback. -/
theorem runs_after_cancelTimer :
    ∃ s t, Run LoopStep (create fun _ => everyTen) [.runAt true 1 5 0, .cancelTimer ⟨1, 1⟩] s ∧
      ⟨1, 1⟩ ∈ s.issued ∧ InTimerList s.timers.queue 1 ∧
      Run LoopStep s [.queue (.handleRead 7), .queue (.callback 1)] t := by
  have hcancel : LoopStep scheduled (.cancelTimer ⟨1, 1⟩) scheduled :=
    .cancelTimer fun _ ha => nomatch ha
  let q := (scheduled.timers.queue.handleReadBegin 7).val.2
  have hread : LoopStep scheduled (.queue (.handleRead 7))
      { scheduled with timers := ⟨q, some ⟨7, [], [.mk 5 1], false⟩, 1⟩ } :=
    .queue rfl .handleRead
  have hcallback : LoopStep { scheduled with timers := ⟨q, some ⟨7, [], [.mk 5 1], false⟩, 1⟩ }
      (.queue (.callback 1))
      { scheduled with timers := ⟨q.runTimer 1 7 1, some ⟨7, [.mk 5 1], [], true⟩, 1⟩ } :=
    .queue rfl .callback
  exact ⟨scheduled, _, scheduled_run.snoc hcancel, by decide, scheduled_queued,
    (Run.single hread).snoc hcallback⟩

end EventLoop

end LearnMuduo
