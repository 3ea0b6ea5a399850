import LearnMuduo.Net.Timer.Ownership

/-!
# Timers of an event loop

The timer operations of `EventLoop`, over the timer queue that its thread runs. A timer that is
made off the loop thread is left to a queued task, which captures a local variable of `addTimer_mt`
by reference. That variable is gone when the task is executed, so a round of the loop that finds
such a task has no defined outcome, and no run goes through it.
-/

namespace LearnMuduo

open Framework

/-- `tasks` are the insertions that were posted and not executed, each given by the timer that the
captured variable held. -/
structure EventLoop where
  timers : TimerState
  tasks : List TimerPtr
  numCreated : Int
  issued : List TimerId

namespace EventLoop

def create (memory : TimerPtr → Timer) : EventLoop := ⟨.initial memory, [], 0, []⟩

def addTimerInLoop (s : EventLoop) (p : TimerPtr) (timer : Timer) (clock : Timestamp) :
    EventLoop :=
  { s with
    timers.queue := ((s.timers.queue.newTimer p timer).addTimerInLoop p clock).val }

/-- `addTimer_mt` with the new timer at `p`; it returns the id that it adds to `issued`. -/
def addTimer_mt (s : EventLoop) (inLoopThread : Bool) (p : TimerPtr) (expiration : Timestamp)
    (interval : Seconds) (clock : Timestamp) : EventLoop :=
  let timer := Timer.create expiration interval (s.numCreated + 1)
  let s := { s with
    numCreated := s.numCreated + 1
    issued := s.issued ++ [TimerId.mk p timer.sequence] }
  if inLoopThread then s.addTimerInLoop p timer clock
  else { s with tasks := s.tasks ++ [p] }

/-- The part of a round that executes the posted insertions. The first of them already reads a
variable that does not exist any more. -/
def executeAsyncTasks (s : EventLoop) : Option EventLoop :=
  match s.tasks with
  | [] => some s
  | _ :: _ => none

def runAt (s : EventLoop) (inLoopThread : Bool) (p : TimerPtr) (time clock : Timestamp) :
    EventLoop :=
  s.addTimer_mt inLoopThread p time .zero clock

def runAfter (s : EventLoop) (inLoopThread : Bool) (p : TimerPtr) (delay : Seconds)
    (now clock : Timestamp) : EventLoop :=
  s.addTimer_mt inLoopThread p (addTime now delay) .zero clock

def runEvery (s : EventLoop) (inLoopThread : Bool) (p : TimerPtr) (interval : Seconds)
    (now clock : Timestamp) : EventLoop :=
  s.addTimer_mt inLoopThread p (addTime now interval) interval clock

def cancelTimer (s : EventLoop) (timerId : TimerId) : EventLoop :=
  { s with timers.queue := s.timers.queue.cancelTimer timerId.sequence }

@[simp] theorem cancelTimer_eq (s : EventLoop) (timerId : TimerId) : s.cancelTimer timerId = s :=
  rfl

/-- No timer that was added or is captured by a posted insertion is at `p`. -/
def Fresh (s : EventLoop) (p : TimerPtr) : Prop :=
  .added p ∉ s.timers.queue.history ∧ p ∉ s.tasks

end EventLoop

/-- The stages of `TimerQueue::handleRead`. -/
def TimerLabel.internal : TimerLabel → Bool
  | .addTimerInLoop _ _ _ => false
  | .cancelInLoop _ => false
  | _ => true

inductive LoopLabel
  | runAt (inLoopThread : Bool) (p : TimerPtr) (time clock : Timestamp)
  | runAfter (inLoopThread : Bool) (p : TimerPtr) (delay : Seconds) (now clock : Timestamp)
  | runEvery (inLoopThread : Bool) (p : TimerPtr) (interval : Seconds) (now clock : Timestamp)
  | executeAsyncTasks
  | cancelTimer (timerId : TimerId)
  | queue (label : TimerLabel)

/-- The steps that concern the timers of a loop: public calls, also those that other tasks make,
the execution of posted insertions outside event handling, and the stages of the timer queue's
`handleRead`. -/
inductive LoopStep : EventLoop → LoopLabel → EventLoop → Prop
  | runAt {s : EventLoop} {inLoopThread : Bool} {p : TimerPtr} {time clock : Timestamp} :
      (inLoopThread = true → s.timers.acceptsCalls) → s.Fresh p →
      LoopStep s (.runAt inLoopThread p time clock) (s.runAt inLoopThread p time clock)
  | runAfter {s : EventLoop} {inLoopThread : Bool} {p : TimerPtr} {delay : Seconds}
      {now clock : Timestamp} :
      (inLoopThread = true → s.timers.acceptsCalls) → s.Fresh p →
      LoopStep s (.runAfter inLoopThread p delay now clock)
        (s.runAfter inLoopThread p delay now clock)
  | runEvery {s : EventLoop} {inLoopThread : Bool} {p : TimerPtr} {interval : Seconds}
      {now clock : Timestamp} :
      (inLoopThread = true → s.timers.acceptsCalls) → s.Fresh p →
      LoopStep s (.runEvery inLoopThread p interval now clock)
        (s.runEvery inLoopThread p interval now clock)
  | executeAsyncTasks {s s' : EventLoop} :
      s.timers.activation = none → s.executeAsyncTasks = some s' →
      LoopStep s .executeAsyncTasks s'
  | cancelTimer {s : EventLoop} {timerId : TimerId} :
      s.timers.acceptsCalls → LoopStep s (.cancelTimer timerId) (s.cancelTimer timerId)
  | queue {s : EventLoop} {label : TimerLabel} {timers : TimerState} :
      label.internal = true → TimerStep s.timers label timers →
      LoopStep s (.queue label) { s with timers := timers }

namespace TimerQueue

theorem history_addTimerInLoop (q : TimerQueue) (p : TimerPtr) (timer : Timer)
    (clock : Timestamp) :
    ((q.newTimer p timer).addTimerInLoop p clock).val.history = .added p :: q.history := by
  simp only [addTimerInLoop, Checked.val_bind, Checked.val_pure]
  split <;> rfl

theorem extends_cancelInLoop (q : TimerQueue) (timerId : TimerId) :
    q.history <:+ (q.cancelInLoop timerId).val.history := by
  simp only [cancelInLoop, Checked.val_bind, Checked.val_pure]
  split
  · exact List.suffix_cons _ _
  · split <;> exact List.suffix_refl _

theorem extends_handleReadBegin (q : TimerQueue) (now : Timestamp) :
    q.history <:+ (q.handleReadBegin now).val.2.history := by
  obtain ⟨ids, hval, -⟩ := eraseIds_val
    { q with timerList := q.timerList.notBelow (.mk now nullptr) }
    (q.timerList.below (.mk now nullptr))
  simp only [handleReadBegin, getExpired, Checked.val_bind, Checked.val_pure, hval]
  exact List.suffix_refl _

theorem extends_resetEntries (q : TimerQueue) (now : Timestamp) (batch : List TimerEntry) :
    q.history <:+ (q.resetEntries now batch).val.history := by
  induction batch generalizing q with
  | nil => exact List.suffix_refl _
  | cons e batch ih =>
      have hentry : q.history <:+ (q.resetEntry e now).val.history := by
        unfold resetEntry
        dsimp only
        split
        · exact List.suffix_refl _
        · exact List.suffix_cons _ _
      exact hentry.trans (ih _)

theorem extends_handleReadEnd (q : TimerQueue) (batch : List TimerEntry) (now clock : Timestamp) :
    q.history <:+ (q.handleReadEnd batch now clock).val.history := by
  have hentries := extends_resetEntries { q with callingExpiredTimers := false } now batch
  simp only [handleReadEnd, reset, Checked.val_bind, Checked.val_pure]
  split <;> split <;> exact hentries

end TimerQueue

open TimerQueue

theorem TimerStep.mem_history {s s' : TimerState} {label : TimerLabel} {event : TimerEvent}
    (hstep : TimerStep s label s') (hevent : event ∈ s.queue.history) :
    event ∈ s'.queue.history := by
  cases hstep with
  | @addTimerInLoop _ p timer clock _ _ =>
      have hhistory := s.queue.history_addTimerInLoop p timer clock
      exact hhistory ▸ List.mem_cons_of_mem _ hevent
  | @cancelInLoop _ timerId _ => exact (s.queue.extends_cancelInLoop timerId).mem hevent
  | @handleRead q _ timestamp => exact (q.extends_handleReadBegin timestamp).mem hevent
  | callback => exact List.mem_cons_of_mem _ hevent
  | callbackReturn => exact hevent
  | @handleReadReturn q _ now clock started =>
      exact (q.extends_handleReadEnd started now clock).mem hevent

namespace EventLoop

/-- A round goes on past its tasks only if no insertion was posted. -/
theorem executeAsyncTasks_eq_some_iff {s s' : EventLoop} :
    s.executeAsyncTasks = some s' ↔ s.tasks = [] ∧ s' = s := by
  rcases s with ⟨timers, tasks, numCreated, issued⟩
  cases tasks with
  | nil => simp [executeAsyncTasks, eq_comm]
  | cons p tasks => simp [executeAsyncTasks]

theorem simulates_queue {s s' : EventLoop} {label : LoopLabel} (hstep : LoopStep s label s') :
    ∃ labels, Run TimerStep s.timers labels s'.timers := by
  have hadd : ∀ (inLoopThread : Bool) (p : TimerPtr) (expiration : Timestamp)
      (interval : Seconds) (clock : Timestamp),
      (inLoopThread = true → s.timers.acceptsCalls) → s.Fresh p → ∃ labels,
        Run TimerStep s.timers labels
          (s.addTimer_mt inLoopThread p expiration interval clock).timers := by
    intro inLoopThread p expiration interval clock hcalls hfresh
    cases inLoopThread with
    | true => exact ⟨_, Run.single (.addTimerInLoop (hcalls rfl) hfresh.1)⟩
    | false => exact ⟨[], Run.nil⟩
  cases hstep with
  | runAt hcalls hfresh => exact hadd _ _ _ _ _ hcalls hfresh
  | runAfter hcalls hfresh => exact hadd _ _ _ _ _ hcalls hfresh
  | runEvery hcalls hfresh => exact hadd _ _ _ _ _ hcalls hfresh
  | executeAsyncTasks _ htasks =>
      obtain ⟨-, rfl⟩ := executeAsyncTasks_eq_some_iff.mp htasks
      exact ⟨[], Run.nil⟩
  | cancelTimer _ => exact ⟨[], Run.nil⟩
  | queue _ htimers => exact ⟨_, Run.single htimers⟩

/-- Every run of the loop is, on its timer queue, a run of the queue. -/
theorem run_simulates_queue {s s' : EventLoop} {labels : List LoopLabel}
    (hrun : Run LoopStep s labels s') : ∃ ds, Run TimerStep s.timers ds s'.timers :=
  hrun.simulate (fun _ _ _ _ _ => trivial) (fun _ _ _ _ hstep => simulates_queue hstep) trivial

end EventLoop

end LearnMuduo
