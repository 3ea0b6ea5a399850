import LearnMuduo.Framework.Run
import Mathlib.Logic.Function.Basic

/-!
# The queued tasks of an event loop

Any number of threads call `queueTask` while the loop's own thread goes through its cycle of
`poll`, event handling and `executeAsyncTasks`. Each access to the task list under `m_mtx`, each
access to the event descriptor and each change of `m_executingAsyncTask` is one step.
-/

namespace LearnMuduo

open Framework

/-- `m_threadId != base::getTid()`: the test is the wrong way round. -/
def isInLoopThread {T : Type} [DecidableEq T] (threadId t : T) : Bool :=
  decide (threadId ≠ t)

/-- Where the loop thread is in its cycle. -/
inductive LoopStage (K : Type)
  /-- between two rounds: `m_executingAsyncTask` is cleared, `poll` is still to be called -/
  | cycling
  | polling
  /-- after `poll`; whether the event descriptor's channel is among the channels to come -/
  | handlingEvents (asyncTask : Bool)
  /-- in `executeAsyncTasks`, before the swap -/
  | swapping
  /-- in the loop of `executeAsyncTasks`: the rest of the list, and whether a task is running -/
  | executing (taskList : List K) (running : Bool)
  deriving DecidableEq, Repr

/-- Where a thread is in `queueTask`: outside, after its push, or before its write. -/
inductive CallStage
  | idle
  | pushed
  | signalling
  deriving DecidableEq, Repr

/-- `pushed` and `started` are histories: the tasks pushed and started so far. -/
structure LoopTasks (T K : Type) where
  stage : LoopStage K
  asyncTaskList : List K
  executingAsyncTask : Bool
  counter : Nat
  callers : T → CallStage
  pushed : List K
  started : List K

namespace LoopTasks

variable {T K : Type}

/-- `loop()` is entered and no task is queued. -/
def initial : LoopTasks T K where
  stage := .cycling
  asyncTaskList := []
  executingAsyncTask := false
  counter := 0
  callers := fun _ => .idle
  pushed := []
  started := []

/-- User code runs on the loop thread: an event callback or a task. -/
def inCallback (s : LoopTasks T K) : Bool :=
  match s.stage with
  | .handlingEvents _ => true
  | .executing _ running => running
  | _ => false

section Calls

variable [DecidableEq T]

/-- The critical section of `queueTask`. -/
def pushTask (s : LoopTasks T K) (t : T) (task : K) : LoopTasks T K :=
  { s with
    asyncTaskList := s.asyncTaskList ++ [task]
    callers := Function.update s.callers t .pushed
    pushed := s.pushed ++ [task] }

/-- `!isInLoopThread() || m_executingAsyncTask` -/
def mustSignal (s : LoopTasks T K) (inLoop : Bool) : Bool :=
  !inLoop || s.executingAsyncTask

def testSignal (s : LoopTasks T K) (inLoop : Bool) (t : T) : LoopTasks T K :=
  { s with
    callers := Function.update s.callers t
      (if s.mustSignal inLoop then .signalling else .idle) }

/-- The end of `queueTask`: a write of 1 to the event descriptor. -/
def setAsyncTaskEvent (s : LoopTasks T K) (t : T) : LoopTasks T K :=
  { s with counter := s.counter + 1, callers := Function.update s.callers t .idle }

end Calls

/-- A read of the event descriptor, which is in semaphore mode. -/
def resetAsyncTaskEvent (s : LoopTasks T K) : LoopTasks T K :=
  { s with stage := .handlingEvents false, counter := s.counter - 1 }

def beginTasks (s : LoopTasks T K) : LoopTasks T K :=
  { s with stage := .swapping, executingAsyncTask := true }

/-- `taskList.swap(m_asyncTaskList)` -/
def swapTasks (s : LoopTasks T K) : LoopTasks T K :=
  { s with
    stage := .executing s.asyncTaskList false
    asyncTaskList := [] }

def startTask (s : LoopTasks T K) (task : K) (taskList : List K) : LoopTasks T K :=
  { s with stage := .executing taskList true, started := s.started ++ [task] }

def finishTask (s : LoopTasks T K) (taskList : List K) : LoopTasks T K :=
  { s with stage := .executing taskList false }

def endTasks (s : LoopTasks T K) : LoopTasks T K :=
  { s with stage := .cycling, executingAsyncTask := false }

/-- The unexecuted rest of the current round's list. -/
def rest (s : LoopTasks T K) : List K :=
  match s.stage with
  | .executing taskList _ => taskList
  | _ => []

/-- The tasks started, the rest of the round and the tasks queued, in this order. -/
def tasks (s : LoopTasks T K) : List K :=
  s.started ++ s.rest ++ s.asyncTaskList

def inRound (s : LoopTasks T K) : Bool :=
  match s.stage with
  | .executing _ _ => true
  | _ => false

/-- How often the loop thread has still to start or finish a task in this round. -/
def pending (s : LoopTasks T K) : Nat :=
  match s.stage with
  | .executing taskList running => 2 * taskList.length + running.toNat
  | _ => 0

end LoopTasks

inductive TaskLabel (T K : Type)
  | push (t : T) (task : K)
  | test (t : T)
  | setAsyncTaskEvent (t : T)
  | poll
  | pollReturn (asyncTask : Bool)
  | resetAsyncTaskEvent
  | beginTasks
  | swapTasks
  | startTask
  | finishTask
  | endTasks
  deriving DecidableEq, Repr

/-- The steps of the loop over the round's list. -/
def TaskLabel.ofRound {T K : Type} : TaskLabel T K → Bool
  | .startTask => true
  | .finishTask => true
  | _ => false

/-- The steps of the loop thread in a round, its pushes excepted. -/
def TaskLabel.finishesRound {T K : Type} (threadId : T) : TaskLabel T K → Prop
  | .test t => t = threadId
  | .setAsyncTaskEvent t => t = threadId
  | .startTask => True
  | .finishTask => True
  | .endTasks => True
  | _ => False

/-- The steps of all threads. The loop thread `threadId` calls `queueTask` from callbacks and tasks
only, and goes on when the call is over; `poll` reports the event descriptor only when it is
readable. -/
inductive TaskStep {T K : Type} [DecidableEq T] (inLoop : T → Bool) (threadId : T) :
    LoopTasks T K → TaskLabel T K → LoopTasks T K → Prop
  | push {s : LoopTasks T K} {t : T} {task : K} :
      s.callers t = .idle → (t = threadId → s.inCallback = true) →
      TaskStep inLoop threadId s (.push t task) (s.pushTask t task)
  | test {s : LoopTasks T K} {t : T} :
      s.callers t = .pushed →
      TaskStep inLoop threadId s (.test t) (s.testSignal (inLoop t) t)
  | setAsyncTaskEvent {s : LoopTasks T K} {t : T} :
      s.callers t = .signalling →
      TaskStep inLoop threadId s (.setAsyncTaskEvent t) (s.setAsyncTaskEvent t)
  | poll {s : LoopTasks T K} :
      s.stage = .cycling →
      TaskStep inLoop threadId s .poll { s with stage := .polling }
  | pollReturn {s : LoopTasks T K} {asyncTask : Bool} :
      s.stage = .polling → (asyncTask = true → 0 < s.counter) →
      TaskStep inLoop threadId s (.pollReturn asyncTask)
        { s with stage := .handlingEvents asyncTask }
  | resetAsyncTaskEvent {s : LoopTasks T K} :
      s.stage = .handlingEvents true → s.callers threadId = .idle →
      TaskStep inLoop threadId s .resetAsyncTaskEvent s.resetAsyncTaskEvent
  | beginTasks {s : LoopTasks T K} :
      s.stage = .handlingEvents false → s.callers threadId = .idle →
      TaskStep inLoop threadId s .beginTasks s.beginTasks
  | swapTasks {s : LoopTasks T K} :
      s.stage = .swapping → TaskStep inLoop threadId s .swapTasks s.swapTasks
  | startTask {s : LoopTasks T K} {task : K} {taskList : List K} :
      s.stage = .executing (task :: taskList) false →
      TaskStep inLoop threadId s .startTask (s.startTask task taskList)
  | finishTask {s : LoopTasks T K} {taskList : List K} :
      s.stage = .executing taskList true → s.callers threadId = .idle →
      TaskStep inLoop threadId s .finishTask (s.finishTask taskList)
  | endTasks {s : LoopTasks T K} :
      s.stage = .executing [] false →
      TaskStep inLoop threadId s .endTasks s.endTasks

/-- A step by which the loop thread gets on with a round on its own. -/
def FinishStep {T K : Type} [DecidableEq T] (inLoop : T → Bool) (threadId : T)
    (s : LoopTasks T K) (e : TaskLabel T K) (s' : LoopTasks T K) : Prop :=
  e.finishesRound threadId ∧ TaskStep inLoop threadId s e s'

namespace TaskStep

variable {T K : Type} [DecidableEq T] {inLoop : T → Bool} {threadId : T}
  {s s' : LoopTasks T K} {e : TaskLabel T K}

theorem tasks_eq (h : TaskStep inLoop threadId s e s')
    (hs : s.tasks = s.pushed) : s'.tasks = s'.pushed := by
  cases h with
  | push _ _ =>
      simp only [LoopTasks.tasks, LoopTasks.rest] at hs
      simp only [LoopTasks.tasks, LoopTasks.rest, LoopTasks.pushTask, ← hs, List.append_assoc]
  | test _ => exact hs
  | setAsyncTaskEvent _ => exact hs
  | poll hstage => simpa only [LoopTasks.tasks, LoopTasks.rest, hstage] using hs
  | pollReturn hstage _ => simpa only [LoopTasks.tasks, LoopTasks.rest, hstage] using hs
  | resetAsyncTaskEvent hstage _ =>
      simpa only [LoopTasks.tasks, LoopTasks.rest, LoopTasks.resetAsyncTaskEvent, hstage] using hs
  | beginTasks hstage _ =>
      simpa only [LoopTasks.tasks, LoopTasks.rest, LoopTasks.beginTasks, hstage] using hs
  | swapTasks hstage =>
      simp only [LoopTasks.tasks, LoopTasks.rest, hstage, List.append_nil] at hs
      simpa only [LoopTasks.tasks, LoopTasks.rest, LoopTasks.swapTasks, List.append_nil] using hs
  | startTask hstage =>
      simp only [LoopTasks.tasks, LoopTasks.rest, hstage] at hs
      simpa only [LoopTasks.tasks, LoopTasks.rest, LoopTasks.startTask, List.append_assoc,
        List.cons_append, List.nil_append] using hs
  | finishTask hstage _ =>
      simpa only [LoopTasks.tasks, LoopTasks.rest, LoopTasks.finishTask, hstage] using hs
  | endTasks hstage =>
      simpa only [LoopTasks.tasks, LoopTasks.rest, LoopTasks.endTasks, hstage] using hs

theorem round (h : TaskStep inLoop threadId s e s') (he : e ≠ .endTasks)
    (hs : s.inRound = true) :
    s'.inRound = true ∧ s'.started ++ s'.rest = s.started ++ s.rest ∧
      e.ofRound.toNat + s'.pending = s.pending := by
  cases h with
  | push _ _ => exact ⟨hs, rfl, Nat.zero_add _⟩
  | test _ => exact ⟨hs, rfl, Nat.zero_add _⟩
  | setAsyncTaskEvent _ => exact ⟨hs, rfl, Nat.zero_add _⟩
  | poll hstage => simp [LoopTasks.inRound, hstage] at hs
  | pollReturn hstage _ => simp [LoopTasks.inRound, hstage] at hs
  | resetAsyncTaskEvent hstage _ => simp [LoopTasks.inRound, hstage] at hs
  | beginTasks hstage _ => simp [LoopTasks.inRound, hstage] at hs
  | swapTasks hstage => simp [LoopTasks.inRound, hstage] at hs
  | startTask hstage =>
      refine ⟨rfl, ?_, ?_⟩
      · simp only [LoopTasks.rest, LoopTasks.startTask, hstage, List.append_assoc,
          List.cons_append, List.nil_append]
      · simp only [LoopTasks.pending, LoopTasks.startTask, hstage, TaskLabel.ofRound,
          List.length_cons, Bool.toNat_true, Bool.toNat_false]
        omega
  | finishTask hstage _ =>
      refine ⟨rfl, ?_, ?_⟩
      · simp only [LoopTasks.rest, LoopTasks.finishTask, hstage]
      · simp only [LoopTasks.pending, LoopTasks.finishTask, hstage, TaskLabel.ofRound,
          Bool.toNat_true, Bool.toNat_false]
        omega
  | endTasks _ => exact absurd rfl he

end TaskStep

namespace LoopTasks

variable {T K : Type} [DecidableEq T] {inLoop : T → Bool} {threadId : T}
  {s s' t : LoopTasks T K} {es fs : List (TaskLabel T K)}

theorem tasks_eq_pushed (h : Run (TaskStep inLoop threadId) initial es s) :
    s.tasks = s.pushed := by
  induction h with
  | nil => rfl
  | snoc _ hstep ih => exact hstep.tasks_eq ih

theorem round (h : Run (TaskStep inLoop threadId) s fs t)
    (hend : TaskLabel.endTasks ∉ fs) (hs : s.inRound = true) :
    t.inRound = true ∧ t.started ++ t.rest = s.started ++ s.rest ∧
      fs.countP TaskLabel.ofRound + t.pending = s.pending := by
  induction h with
  | nil => exact ⟨hs, rfl, Nat.zero_add _⟩
  | @snoc fs t e u hrun hstep ih =>
      simp only [List.mem_append, List.mem_singleton, not_or] at hend
      have hinit := ih hend.1
      have hlast := hstep.round (Ne.symm hend.2) hinit.1
      refine ⟨hlast.1, hlast.2.1.trans hinit.2.1, ?_⟩
      have hone : [e].countP TaskLabel.ofRound = e.ofRound.toNat := by
        cases e <;> rfl
      rw [List.countP_append, hone]
      omega

theorem exists_idle (s : LoopTasks T K) :
    ∃ gs t, Run (FinishStep inLoop threadId) s gs t ∧
      t.callers threadId = .idle ∧ t.stage = s.stage ∧ t.started = s.started := by
  have hsignal : ∀ t : LoopTasks T K, t.callers threadId = .signalling →
      FinishStep inLoop threadId t (.setAsyncTaskEvent threadId)
        (t.setAsyncTaskEvent threadId) := by
    intro t ht
    exact ⟨rfl, TaskStep.setAsyncTaskEvent ht⟩
  have hidle : ∀ t : LoopTasks T K, (t.setAsyncTaskEvent threadId).callers threadId = .idle := by
    intro t
    simp only [setAsyncTaskEvent, Function.update_self]
  cases hcall : s.callers threadId with
  | idle => exact ⟨[], s, Run.nil, hcall, rfl, rfl⟩
  | signalling => exact ⟨_, _, Run.single (hsignal s hcall), hidle s, rfl, rfl⟩
  | pushed =>
      have htest : FinishStep inLoop threadId s (.test threadId)
          (s.testSignal (inLoop threadId) threadId) := ⟨rfl, TaskStep.test hcall⟩
      by_cases hmust : s.mustSignal (inLoop threadId) = true
      · have hnext : (s.testSignal (inLoop threadId) threadId).callers threadId =
            .signalling := by
          simp only [testSignal, Function.update_self, hmust, if_true]
        exact ⟨_, _, (Run.single htest).snoc (hsignal _ hnext), hidle _, rfl, rfl⟩
      · refine ⟨_, _, Run.single htest, ?_, rfl, rfl⟩
        simp [testSignal, hmust]

theorem exists_finishTask {taskList : List K} {running : Bool}
    (hstage : s.stage = .executing taskList running) :
    ∃ gs t, Run (FinishStep inLoop threadId) s gs t ∧
      t.stage = .executing taskList false ∧ t.started = s.started := by
  cases running with
  | false => exact ⟨[], s, Run.nil, hstage, rfl⟩
  | true =>
      obtain ⟨gs, t, hrun, hidle, htstage, hstarted⟩ :
        ∃ gs t, Run (FinishStep inLoop threadId) s gs t ∧
          t.callers threadId = .idle ∧ t.stage = s.stage ∧ t.started = s.started :=
        exists_idle s
      have hfinish : FinishStep inLoop threadId t .finishTask (t.finishTask taskList) :=
        ⟨trivial, TaskStep.finishTask (htstage.trans hstage) hidle⟩
      exact ⟨_, _, hrun.snoc hfinish, rfl, hstarted⟩

/-- The loop thread alone gets to the end of a round, by induction on the rest of its list. -/
theorem exists_endTasks (taskList : List K) : ∀ (s : LoopTasks T K) (running : Bool),
    s.stage = .executing taskList running →
    ∃ gs t, Run (FinishStep inLoop threadId) s gs t ∧
      t.stage = .cycling ∧ t.started = s.started ++ taskList := by
  induction taskList with
  | nil =>
      intro s running hstage
      obtain ⟨gs, t, hrun, htstage, hstarted⟩ :
        ∃ gs t, Run (FinishStep inLoop threadId) s gs t ∧
          t.stage = .executing [] false ∧ t.started = s.started := exists_finishTask hstage
      have hend : FinishStep inLoop threadId t .endTasks t.endTasks :=
        ⟨trivial, TaskStep.endTasks htstage⟩
      refine ⟨_, _, hrun.snoc hend, rfl, ?_⟩
      rw [List.append_nil]
      exact hstarted
  | cons task taskList ih =>
      intro s running hstage
      obtain ⟨gs, t, hrun, htstage, hstarted⟩ :
        ∃ gs t, Run (FinishStep inLoop threadId) s gs t ∧
          t.stage = .executing (task :: taskList) false ∧ t.started = s.started :=
        exists_finishTask hstage
      have hstart : FinishStep inLoop threadId t .startTask
          (t.startTask task taskList) := ⟨trivial, TaskStep.startTask htstage⟩
      rcases ih (t.startTask task taskList) true rfl with ⟨hs, u, hrest, hustage, hustarted⟩
      refine ⟨_, u, (hrun.snoc hstart).append hrest, hustage, ?_⟩
      rw [hustarted, startTask, hstarted]
      exact List.append_assoc _ _ _

/-- Nothing is lost, run twice or reordered; the round that collects `asyncTaskList` starts these
tasks and none pushed later, in a bounded number of steps; and each round can come to its end. -/
structure RunInOrder (inLoop : T → Bool) (threadId : T) (s : LoopTasks T K) : Prop where
  order : s.started ++ s.rest ++ s.asyncTaskList = s.pushed
  ofRound : ∀ s' fs t, TaskStep inLoop threadId s .swapTasks s' →
    Run (TaskStep inLoop threadId) s' fs t → TaskLabel.endTasks ∉ fs →
      t.started ++ t.rest = s.pushed ∧
        fs.countP TaskLabel.ofRound ≤ 2 * s.asyncTaskList.length
  ends : s.inRound = true → ∃ gs t, Run (FinishStep inLoop threadId) s gs t ∧
    t.stage = .cycling ∧ t.started = s.started ++ s.rest

theorem ofRound_of_tasks_eq (hs : s.tasks = s.pushed)
    (hswap : TaskStep inLoop threadId s .swapTasks s')
    (h : Run (TaskStep inLoop threadId) s' fs t) (hend : TaskLabel.endTasks ∉ fs) :
    t.started ++ t.rest = s.pushed ∧ fs.countP TaskLabel.ofRound ≤ 2 * s.asyncTaskList.length := by
  cases hswap with
  | swapTasks hstage =>
      have hround := round h hend rfl
      have hpushed : s.started ++ s.asyncTaskList = s.pushed := by
        rw [← hs, tasks, rest, hstage, List.append_nil]
      have hpending : s.swapTasks.pending = 2 * s.asyncTaskList.length := rfl
      refine ⟨hround.2.1.trans hpushed, ?_⟩
      omega

theorem runInOrder_of_run (h : Run (TaskStep inLoop threadId) initial es s) :
    RunInOrder inLoop threadId s := by
  have hs := tasks_eq_pushed h
  refine ⟨hs, fun _ _ _ hswap hrun hend => ofRound_of_tasks_eq hs hswap hrun hend, ?_⟩
  intro hround
  cases hstage : s.stage with
  | executing taskList running =>
      have hrest : s.rest = taskList := by
        simp only [rest, hstage]
      rw [hrest]
      exact exists_endTasks taskList s running hstage
  | cycling => simp [inRound, hstage] at hround
  | polling => simp [inRound, hstage] at hround
  | handlingEvents _ => simp [inRound, hstage] at hround
  | swapping => simp [inRound, hstage] at hround

/-- Thread 1 queues task 10, which on the loop's thread 0 queues task 20. -/
def nestedCalls : List (TaskLabel Nat Nat) :=
  [.push 1 10, .test 1, .poll, .pollReturn false, .beginTasks, .swapTasks, .startTask, .push 0 20]

theorem nestedCalls_run : ∃ s : LoopTasks Nat Nat,
    Run (TaskStep (isInLoopThread 0) 0) initial nestedCalls s ∧
      s.started = [10] ∧ s.asyncTaskList = [20] := by
  refine ⟨_, ((((((((Run.nil.snoc (.push rfl (by decide))).snoc (.test rfl)).snoc
    (.poll rfl)).snoc (.pollReturn rfl (by decide))).snoc (.beginTasks rfl rfl)).snoc
    (.swapTasks rfl)).snoc (.startTask rfl)).snoc (.push rfl (fun _ => rfl))), rfl, rfl⟩

theorem runInOrder_nestedCalls : ∃ s : LoopTasks Nat Nat,
    s.started = [10] ∧ s.asyncTaskList = [20] ∧ RunInOrder (isInLoopThread 0) 0 s := by
  rcases nestedCalls_run with ⟨s, hrun, hstarted, hqueued⟩
  exact ⟨s, hstarted, hqueued, runInOrder_of_run hrun⟩

end LoopTasks

end LearnMuduo
