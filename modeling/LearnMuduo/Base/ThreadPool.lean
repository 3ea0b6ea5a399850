import LearnMuduo.Framework.CondVar
import LearnMuduo.Framework.Run
import Mathlib.Logic.Function.Basic

/-!
# The thread pool

A started pool with `n` workers, calls of `run` by any threads, the workers among them, and one
call of `stop`. What is done under `m_mtx` between a lock and the next wait or unlock is one step;
so is a test of `m_running` in `runInThread`, which is made without the mutex.
-/

namespace LearnMuduo

open Framework

/-- Where a worker is in `runInThread`. Tasks carry a number, given as they enter the queue. -/
inductive WorkerLoop (K : Type)
  /-- before or in `m_threadInitCb` -/
  | starting
  /-- `while(m_running)` -/
  | testing
  /-- in `take`: about to lock, asleep or about to lock again -/
  | taking
  /-- `take` has returned, the empty task if the queue was empty -/
  | holding (task : Option (Nat × K))
  | executing (number : Nat)
  | exited
  deriving DecidableEq, Repr

/-- User code runs in the worker. -/
def WorkerLoop.inCallback {K : Type} : WorkerLoop K → Bool
  | .starting => true
  | .executing _ => true
  | _ => false

/-- Where the call of `stop` is: after its critical section it joins the workers. -/
inductive StopStage
  | notCalled
  | joining
  | returned
  deriving DecidableEq, Repr

/-- `callers t` is the task of thread `t` that is in `run`. `calls` counts the calls of `run`;
`entered`, `taken` and `executed` are histories. -/
structure ThreadPool (n : Nat) (T K : Type) where
  maxQueueSize : Nat
  running : Bool
  taskQueue : List (Nat × K)
  notEmpty : CondVar (Fin n)
  notFull : CondVar (Fin n ⊕ T)
  workers : Fin n → WorkerLoop K
  callers : Fin n ⊕ T → Option K
  stopping : StopStage
  calls : Nat
  entered : List (Nat × K)
  taken : List (Nat × K)
  executed : List Nat

inductive PoolLabel (n : Nat) (T K : Type)
  | init (w : Fin n)
  | test (w : Fin n)
  | take (w : Fin n)
  | execute (w : Fin n)
  | skip (w : Fin n)
  | finish (w : Fin n)
  | wakeWorker (w : Fin n)
  | call (t : Fin n ⊕ T) (task : K)
  | callEmpty (t : Fin n ⊕ T) (task : K)
  | run (t : Fin n ⊕ T)
  | wakeCaller (t : Fin n ⊕ T)
  | stop
  | join
  deriving DecidableEq, Repr

namespace ThreadPool

variable {n : Nat} {T K : Type}

/-- `start` has been called. -/
def started (maxQueueSize : Nat) : ThreadPool n T K where
  maxQueueSize := maxQueueSize
  running := true
  taskQueue := []
  notEmpty := CondVar.free
  notFull := CondVar.free
  workers := fun _ => .starting
  callers := fun _ => none
  stopping := .notCalled
  calls := 0
  entered := []
  taken := []
  executed := []

def isFull (s : ThreadPool n T K) : Bool :=
  decide (0 < s.maxQueueSize ∧ s.maxQueueSize ≤ s.taskQueue.length)

/-- A worker calls `run` from its callbacks only. -/
def mayCall (s : ThreadPool n T K) : Fin n ⊕ T → Prop
  | .inl w => (s.workers w).inCallback = true
  | .inr _ => True

def moveWorker (s : ThreadPool n T K) (w : Fin n) (stage : WorkerLoop K) : ThreadPool n T K :=
  { s with workers := Function.update s.workers w stage }

/-- The critical section of `take`; `picked` is whom `m_notFull.notify_one()` wakes. -/
def take [DecidableEq T] (s : ThreadPool n T K) (w : Fin n) (picked : Option (Fin n ⊕ T)) :
    ThreadPool n T K :=
  match s.taskQueue with
  | [] =>
    if s.running then { s with notEmpty := s.notEmpty.wait w }
    else { s.moveWorker w (.holding none) with notEmpty := s.notEmpty.leave w }
  | task :: rest =>
    { s.moveWorker w (.holding (some task)) with
      taskQueue := rest
      notEmpty := s.notEmpty.leave w
      notFull := if 0 < s.maxQueueSize then s.notFull.notifyOne picked else s.notFull
      taken := s.taken ++ [task] }

/-- A worker takes up a task. -/
def execute (s : ThreadPool n T K) (w : Fin n) (number : Nat) : ThreadPool n T K :=
  { s.moveWorker w (.executing number) with executed := s.executed ++ [number] }

/-- A call of `run`, up to the lock. -/
def call [DecidableEq T] (s : ThreadPool n T K) (t : Fin n ⊕ T) (task : K) : ThreadPool n T K :=
  { s with callers := Function.update s.callers t (some task), calls := s.calls + 1 }

/-- The critical section of `run`; `picked` is whom `m_notEmpty.notify_one()` wakes. -/
def run [DecidableEq T] (s : ThreadPool n T K) (t : Fin n ⊕ T) (task : K)
    (picked : Option (Fin n)) : ThreadPool n T K :=
  if s.isFull then { s with notFull := s.notFull.wait t }
  else
    { s with
      taskQueue := s.taskQueue ++ [(s.entered.length, task)]
      notEmpty := s.notEmpty.notifyOne picked
      notFull := s.notFull.leave t
      callers := Function.update s.callers t none
      entered := s.entered ++ [(s.entered.length, task)] }

/-- The critical section of `stop`. -/
def stop (s : ThreadPool n T K) : ThreadPool n T K :=
  { s with running := false, notEmpty := s.notEmpty.notifyAll, stopping := .joining }

end ThreadPool

/-- The steps of all threads. A task may be an empty function, which `callable` tells; one that
throws ends the process. -/
inductive PoolStep {n : Nat} {T K : Type} [DecidableEq T] (callable : K → Bool) :
    ThreadPool n T K → PoolLabel n T K → ThreadPool n T K → Prop
  | init {s : ThreadPool n T K} {w : Fin n} :
      s.workers w = .starting → s.callers (.inl w) = none →
      PoolStep callable s (.init w) (s.moveWorker w .testing)
  | test {s : ThreadPool n T K} {w : Fin n} :
      s.workers w = .testing →
      PoolStep callable s (.test w) (s.moveWorker w (if s.running then .taking else .exited))
  | take {s : ThreadPool n T K} {w : Fin n} {picked : Option (Fin n ⊕ T)} :
      s.workers w = .taking → w ∉ s.notEmpty.waiting → s.notFull.Picks picked →
      PoolStep callable s (.take w) (s.take w picked)
  | execute {s : ThreadPool n T K} {w : Fin n} {number : Nat} {task : K} :
      s.workers w = .holding (some (number, task)) → callable task = true →
      PoolStep callable s (.execute w) (s.execute w number)
  | skip {s : ThreadPool n T K} {w : Fin n} {held : Option (Nat × K)} :
      s.workers w = .holding held → (∀ number task, held = some (number, task) →
        callable task = false) →
      PoolStep callable s (.skip w) (s.moveWorker w .testing)
  | finish {s : ThreadPool n T K} {w : Fin n} {number : Nat} :
      s.workers w = .executing number → s.callers (.inl w) = none →
      PoolStep callable s (.finish w) (s.moveWorker w .testing)
  | wakeWorker {s : ThreadPool n T K} {w : Fin n} :
      w ∈ s.notEmpty.waiting →
      PoolStep callable s (.wakeWorker w) { s with notEmpty := s.notEmpty.wake w }
  | call {s : ThreadPool n T K} {t : Fin n ⊕ T} {task : K} :
      0 < n → s.callers t = none → s.mayCall t →
      PoolStep callable s (.call t task) (s.call t task)
  /-- without workers `run` executes the task itself -/
  | callEmpty {s : ThreadPool n T K} {t : Fin n ⊕ T} {task : K} :
      n = 0 → PoolStep callable s (.callEmpty t task) s
  | run {s : ThreadPool n T K} {t : Fin n ⊕ T} {task : K} {picked : Option (Fin n)} :
      s.callers t = some task → t ∉ s.notFull.waiting → s.notEmpty.Picks picked →
      PoolStep callable s (.run t) (s.run t task picked)
  | wakeCaller {s : ThreadPool n T K} {t : Fin n ⊕ T} :
      t ∈ s.notFull.waiting →
      PoolStep callable s (.wakeCaller t) { s with notFull := s.notFull.wake t }
  | stop {s : ThreadPool n T K} :
      s.stopping = .notCalled → PoolStep callable s .stop s.stop
  | join {s : ThreadPool n T K} :
      s.stopping = .joining → (∀ w, s.workers w = .exited) →
      PoolStep callable s .join { s with stopping := .returned }

namespace ThreadPool

variable {n : Nat} {T K : Type} [DecidableEq T] {callable : K → Bool}
  {s s' : ThreadPool n T K} {e : PoolLabel n T K} {es : List (PoolLabel n T K)}

/-- The queue is bounded and first in, first out, and wakeups are not missed: for each queued task
a worker is notified as long as one sleeps, and for each free slot a caller of `run`. -/
structure HandsOver (s : ThreadPool n T K) : Prop where
  bounded : 0 < s.maxQueueSize → s.taskQueue.length ≤ s.maxQueueSize
  order : s.entered = s.taken ++ s.taskQueue
  numbered : s.entered.map Prod.fst = List.range s.entered.length
  unbounded : s.maxQueueSize = 0 → s.notFull.waiting = ∅
  workers : s.notEmpty.Covers s.taskQueue.length
  callers : s.notFull.Covers (s.maxQueueSize - s.taskQueue.length)

omit [DecidableEq T] in
theorem isFull_iff : s.isFull = true ↔ 0 < s.maxQueueSize ∧ s.maxQueueSize ≤ s.taskQueue.length :=
  decide_eq_true_iff

theorem take_waits {w : Fin n} {picked : Option (Fin n ⊕ T)} (hqueue : s.taskQueue = [])
    (hrunning : s.running = true) :
    s.take w picked = { s with notEmpty := s.notEmpty.wait w } := by
  simp only [take, hqueue, hrunning, if_true]

theorem take_nothing {w : Fin n} {picked : Option (Fin n ⊕ T)} (hqueue : s.taskQueue = [])
    (hrunning : s.running = false) :
    s.take w picked =
      { s.moveWorker w (.holding none) with notEmpty := s.notEmpty.leave w } := by
  simp only [take, hqueue, hrunning, Bool.false_eq_true, if_false]

theorem take_task {w : Fin n} {picked : Option (Fin n ⊕ T)} {task : Nat × K}
    {rest : List (Nat × K)} (hqueue : s.taskQueue = task :: rest) :
    s.take w picked =
      { s.moveWorker w (.holding (some task)) with
        taskQueue := rest
        notEmpty := s.notEmpty.leave w
        notFull := if 0 < s.maxQueueSize then s.notFull.notifyOne picked else s.notFull
        taken := s.taken ++ [task] } := by
  simp only [take, hqueue]

theorem run_waits {t : Fin n ⊕ T} {task : K} {picked : Option (Fin n)} (hfull : s.isFull = true) :
    s.run t task picked = { s with notFull := s.notFull.wait t } := by
  simp only [run, hfull, if_true]

theorem run_pushes {t : Fin n ⊕ T} {task : K} {picked : Option (Fin n)}
    (hroom : s.isFull = false) :
    s.run t task picked =
      { s with
        taskQueue := s.taskQueue ++ [(s.entered.length, task)]
        notEmpty := s.notEmpty.notifyOne picked
        notFull := s.notFull.leave t
        callers := Function.update s.callers t none
        entered := s.entered ++ [(s.entered.length, task)] } := by
  simp only [run, hroom, Bool.false_eq_true, if_false]

@[simp] theorem take_frame (s : ThreadPool n T K) (w : Fin n) (picked : Option (Fin n ⊕ T)) :
    (s.take w picked).maxQueueSize = s.maxQueueSize ∧
      (s.take w picked).stopping = s.stopping ∧ (s.take w picked).callers = s.callers ∧
      (s.take w picked).calls = s.calls ∧ (s.take w picked).entered = s.entered := by
  simp only [take]
  split
  · split
    · exact ⟨rfl, rfl, rfl, rfl, rfl⟩
    · exact ⟨rfl, rfl, rfl, rfl, rfl⟩
  · exact ⟨rfl, rfl, rfl, rfl, rfl⟩

@[simp] theorem run_frame (s : ThreadPool n T K) (t : Fin n ⊕ T) (task : K)
    (picked : Option (Fin n)) :
    (s.run t task picked).maxQueueSize = s.maxQueueSize ∧
      (s.run t task picked).stopping = s.stopping ∧ (s.run t task picked).calls = s.calls ∧
      (s.run t task picked).taken = s.taken ∧
      (s.run t task picked).executed = s.executed ∧
      (s.run t task picked).workers = s.workers := by
  simp only [run]
  split
  · exact ⟨rfl, rfl, rfl, rfl, rfl, rfl⟩
  · exact ⟨rfl, rfl, rfl, rfl, rfl, rfl⟩

theorem HandsOver.take_task (hs : s.HandsOver) {w : Fin n} {picked : Option (Fin n ⊕ T)}
    (hpicked : s.notFull.Picks picked) {task : Nat × K} {rest : List (Nat × K)}
    (hqueue : s.taskQueue = task :: rest) : (s.take w picked).HandsOver := by
  have hlength : s.taskQueue.length = rest.length + 1 := by
    rw [hqueue, List.length_cons]
  rw [ThreadPool.take_task hqueue]
  refine ⟨fun hmax => ?_, ?_, hs.numbered, fun hmax => ?_, ?_, ?_⟩
  · have hbounded := hs.bounded hmax
    show rest.length ≤ s.maxQueueSize
    omega
  · simp only [List.append_assoc, List.cons_append, List.nil_append, ← hqueue]
    exact hs.order
  · replace hmax : s.maxQueueSize = 0 := hmax
    simp only [hmax, Nat.lt_irrefl, if_false]
    exact hs.unbounded hmax
  · have hworkers := hs.workers.leave w
    rwa [hlength, Nat.add_sub_cancel] at hworkers
  · show CondVar.Covers _ (s.maxQueueSize - rest.length)
    by_cases hmax : 0 < s.maxQueueSize
    · simp only [hmax, if_true]
      refine (hs.callers.notifyOne hpicked).mono ?_
      omega
    · simp only [hmax, if_false]
      refine hs.callers.mono ?_
      omega

theorem HandsOver.take (hs : s.HandsOver) {w : Fin n} {picked : Option (Fin n ⊕ T)}
    (hpicked : s.notFull.Picks picked) : (s.take w picked).HandsOver := by
  cases hqueue : s.taskQueue with
  | cons task rest => exact hs.take_task hpicked hqueue
  | nil =>
      have hnone : ∀ c : CondVar (Fin n), c.Covers s.taskQueue.length := by
        intro c
        rw [hqueue]
        exact c.covers_zero
      cases hrunning : s.running with
      | true =>
          rw [take_waits hqueue hrunning]
          exact ⟨hs.bounded, hs.order, hs.numbered, hs.unbounded, hnone _, hs.callers⟩
      | false =>
          rw [take_nothing hqueue hrunning]
          exact ⟨hs.bounded, hs.order, hs.numbered, hs.unbounded, hnone _, hs.callers⟩

theorem HandsOver.run (hs : s.HandsOver) {t : Fin n ⊕ T} {task : K} {picked : Option (Fin n)}
    (hpicked : s.notEmpty.Picks picked) : (s.run t task picked).HandsOver := by
  cases hfull : s.isFull with
  | true =>
      have hmax := isFull_iff.mp hfull
      rw [run_waits hfull]
      refine ⟨hs.bounded, hs.order, hs.numbered, fun hzero => ?_, hs.workers, ?_⟩
      · exact absurd hzero hmax.1.ne'
      · have hfree : s.maxQueueSize - s.taskQueue.length = 0 := Nat.sub_eq_zero_of_le hmax.2
        show CondVar.Covers _ (s.maxQueueSize - s.taskQueue.length)
        rw [hfree]
        exact CondVar.covers_zero _
  | false =>
      have hroom : ¬ (0 < s.maxQueueSize ∧ s.maxQueueSize ≤ s.taskQueue.length) := by
        rw [← isFull_iff, hfull]
        exact Bool.false_ne_true
      rw [run_pushes hfull]
      refine ⟨fun hmax => ?_, ?_, ?_, hs.unbounded, ?_, ?_⟩
      · replace hmax : 0 < s.maxQueueSize := hmax
        simp only [List.length_append, List.length_singleton]
        omega
      · simp only [hs.order, List.append_assoc]
      · simp only [List.map_append, List.map_singleton, List.length_append, List.length_singleton,
          hs.numbered, List.range_succ]
      · simp only [List.length_append, List.length_singleton]
        exact hs.workers.notifyOne hpicked
      · simp only [List.length_append, List.length_singleton, Nat.sub_add_eq]
        exact hs.callers.leave t

omit [DecidableEq T] in
theorem handsOver_started (maxQueueSize : Nat) :
    (started maxQueueSize : ThreadPool n T K).HandsOver := by
  refine ⟨fun _ => Nat.zero_le _, rfl, rfl, fun _ => rfl, CondVar.covers_zero _, ?_⟩
  exact fun hwaiting => absurd rfl hwaiting.ne_empty

theorem HandsOver.step (hs : s.HandsOver) (h : PoolStep callable s e s') : s'.HandsOver := by
  cases h with
  | take _ _ hpicked => exact hs.take hpicked
  | run _ _ hpicked => exact hs.run hpicked
  | wakeWorker _ =>
      exact ⟨hs.bounded, hs.order, hs.numbered, hs.unbounded, hs.workers.wake _, hs.callers⟩
  | wakeCaller _ =>
      refine ⟨hs.bounded, hs.order, hs.numbered, fun hmax => ?_, hs.workers, hs.callers.wake _⟩
      simp [CondVar.wake, hs.unbounded hmax]
  | stop _ =>
      exact ⟨hs.bounded, hs.order, hs.numbered, hs.unbounded, CondVar.covers_notifyAll _ _,
        hs.callers⟩
  | _ => exact ⟨hs.bounded, hs.order, hs.numbered, hs.unbounded, hs.workers, hs.callers⟩

/-- A task is taken once, held by one worker before it is executed, and executed once. -/
structure Once (s : ThreadPool n T K) : Prop where
  nodup : s.executed.Nodup
  taken : ∀ i ∈ s.executed, i ∈ s.taken.map Prod.fst
  held : ∀ w task, s.workers w = .holding (some task) →
    task.1 ∈ s.taken.map Prod.fst ∧ task.1 ∉ s.executed
  distinct : ∀ w w' task task', s.workers w = .holding (some task) →
    s.workers w' = .holding (some task') → task.1 = task'.1 → w = w'

omit [DecidableEq T] in
theorem holding_moveWorker {w w' : Fin n} {stage : WorkerLoop K} {task : Nat × K}
    (h : (s.moveWorker w stage).workers w' = .holding (some task)) :
    (w' = w ∧ stage = .holding (some task)) ∨ (w' ≠ w ∧ s.workers w' = .holding (some task)) := by
  by_cases hw : w' = w
  · subst hw
    exact Or.inl ⟨rfl, by simpa [moveWorker] using h⟩
  · exact Or.inr ⟨hw, by simpa [moveWorker, hw] using h⟩

omit [DecidableEq T] in
theorem Once.moveWorker (hs : s.Once) (w : Fin n) {stage : WorkerLoop K}
    (hstage : ∀ task, stage ≠ .holding (some task)) : (s.moveWorker w stage).Once := by
  have hbefore : ∀ w' task, (s.moveWorker w stage).workers w' = .holding (some task) →
      s.workers w' = .holding (some task) := by
    intro w' task h
    rcases holding_moveWorker h with ⟨_, hnew⟩ | ⟨_, hold⟩
    · exact absurd hnew (hstage task)
    · exact hold
  refine ⟨hs.nodup, hs.taken, fun w' task h => hs.held w' task (hbefore w' task h), ?_⟩
  intro w' w'' task task' h h' heq
  exact hs.distinct w' w'' task task' (hbefore w' task h) (hbefore w'' task' h') heq

omit [DecidableEq T] in
theorem HandsOver.front_notMem (hs : s.HandsOver) {task : Nat × K} {rest : List (Nat × K)}
    (hqueue : s.taskQueue = task :: rest) : task.1 ∉ s.taken.map Prod.fst := by
  have hnodup : (s.entered.map Prod.fst).Nodup := by
    rw [hs.numbered]
    exact List.nodup_range
  rw [hs.order, hqueue, List.map_append, List.map_cons] at hnodup
  intro hmem
  exact List.disjoint_of_nodup_append hnodup hmem List.mem_cons_self

theorem Once.take (hs : s.Once) (hover : s.HandsOver) (w : Fin n)
    (picked : Option (Fin n ⊕ T)) : (s.take w picked).Once := by
  cases hqueue : s.taskQueue with
  | nil =>
      cases hrunning : s.running with
      | true =>
          rw [take_waits hqueue hrunning]
          exact ⟨hs.nodup, hs.taken, hs.held, hs.distinct⟩
      | false =>
          have hmoved : (s.moveWorker w (.holding none)).Once := hs.moveWorker w (by simp)
          rw [take_nothing hqueue hrunning]
          exact ⟨hmoved.nodup, hmoved.taken, hmoved.held, hmoved.distinct⟩
  | cons task rest =>
      have hfresh := hover.front_notMem hqueue
      have hne : ∀ w' task', s.workers w' = .holding (some task') → task'.1 ≠ task.1 := by
        intro w' task' hheld heq
        exact hfresh (heq ▸ (hs.held w' task' hheld).1)
      rw [take_task hqueue]
      refine ⟨hs.nodup, ?_, ?_, ?_⟩
      · intro i hi
        simp only [List.map_append, List.mem_append]
        exact Or.inl (hs.taken i hi)
      · intro w' task' h
        simp only [List.map_append, List.mem_append]
        rcases holding_moveWorker h with ⟨_, hnew⟩ | ⟨_, hold⟩
        · cases hnew
          exact ⟨Or.inr (by simp), fun hexecuted => hfresh (hs.taken _ hexecuted)⟩
        · exact ⟨Or.inl (hs.held w' task' hold).1, (hs.held w' task' hold).2⟩
      · intro w' w'' task' task'' h h' heq
        rcases holding_moveWorker h with ⟨hw, hnew⟩ | ⟨_, hold⟩
        · rcases holding_moveWorker h' with ⟨hw', _⟩ | ⟨_, hold'⟩
          · exact hw.trans hw'.symm
          · cases hnew
            exact absurd heq.symm (hne w'' task'' hold')
        · rcases holding_moveWorker h' with ⟨_, hnew'⟩ | ⟨_, hold'⟩
          · cases hnew'
            exact absurd heq (hne w' task' hold)
          · exact hs.distinct w' w'' task' task'' hold hold' heq

omit [DecidableEq T] in
theorem Once.execute (hs : s.Once) {w : Fin n} {number : Nat} {task : K}
    (hheld : s.workers w = .holding (some (number, task))) : (s.execute w number).Once := by
  have hmoved : (s.moveWorker w (.executing number)).Once := hs.moveWorker w (by simp)
  have hnumber := hs.held w _ hheld
  refine ⟨?_, ?_, ?_, hmoved.distinct⟩
  · refine List.nodup_append.mpr ⟨hs.nodup, List.nodup_singleton _, ?_⟩
    intro i hi j hj
    rw [List.mem_singleton.mp hj]
    rintro rfl
    exact hnumber.2 hi
  · intro i hi
    rcases List.mem_append.mp hi with hbefore | hlast
    · exact hs.taken i hbefore
    · rw [List.mem_singleton.mp hlast]
      exact hnumber.1
  · intro w' task' h
    refine ⟨(hmoved.held w' task' h).1, fun hexecuted => ?_⟩
    rcases List.mem_append.mp hexecuted with hbefore | hlast
    · exact (hmoved.held w' task' h).2 hbefore
    · rcases holding_moveWorker h with ⟨_, hnew⟩ | ⟨hw, hold⟩
      · cases hnew
      · exact hw (hs.distinct w' w task' _ hold hheld (List.mem_singleton.mp hlast))

theorem Once.run (hs : s.Once) (t : Fin n ⊕ T) (task : K) (picked : Option (Fin n)) :
    (s.run t task picked).Once := by
  refine ⟨?_, ?_, ?_, ?_⟩
  · simpa using hs.nodup
  · simpa using hs.taken
  · simpa using hs.held
  · simpa using hs.distinct

theorem Once.step (hs : s.Once) (hover : s.HandsOver) (h : PoolStep callable s e s') :
    s'.Once := by
  cases h with
  | init _ _ => exact hs.moveWorker _ (by simp)
  | test _ =>
      refine hs.moveWorker _ fun task => ?_
      by_cases hrunning : s.running = true
      · simp [hrunning]
      · simp [hrunning]
  | take _ _ _ => exact hs.take hover _ _
  | execute hheld _ => exact hs.execute hheld
  | skip _ _ => exact hs.moveWorker _ (by simp)
  | finish _ _ => exact hs.moveWorker _ (by simp)
  | run _ _ _ => exact hs.run _ _ _
  | _ => exact ⟨hs.nodup, hs.taken, hs.held, hs.distinct⟩

theorem maxQueueSize_step (h : PoolStep callable s e s') : s'.maxQueueSize = s.maxQueueSize := by
  cases h with
  | take _ _ _ => simp
  | run _ _ _ => simp
  | _ => rfl

/-- In every run the pool hands its tasks over in order, each is executed at most once, and no
wakeup is missed. -/
theorem handsOver_of_run {maxQueueSize : Nat}
    (h : Run (PoolStep callable) (started maxQueueSize : ThreadPool n T K) es s) :
    s.maxQueueSize = maxQueueSize ∧ s.HandsOver ∧ s.Once := by
  induction h with
  | nil =>
      refine ⟨rfl, handsOver_started maxQueueSize, List.nodup_nil, ?_, ?_, ?_⟩
      · exact fun i hi => absurd hi List.not_mem_nil
      · exact fun w task hheld => absurd hheld (by simp [started])
      · exact fun w w' task task' hheld => absurd hheld (by simp [started])
  | snoc _ hstep ih =>
      exact ⟨(maxQueueSize_step hstep).trans ih.1, ih.2.1.step hstep, ih.2.2.step ih.2.1 hstep⟩

/-- A queue of one task and one worker: the second caller waits until the first task is taken. -/
def fullQueue : List (PoolLabel 1 Nat Nat) :=
  [.call (.inr 0) 5, .run (.inr 0), .call (.inr 1) 6, .run (.inr 1), .init 0, .test 0, .take 0,
    .execute 0]

theorem fullQueue_run : ∃ s : ThreadPool 1 Nat Nat,
    Run (PoolStep fun _ => true) (started 1) fullQueue s ∧
      s.executed = [0] ∧ s.notFull.notified = {.inr 1} := by
  have hnone : ∀ c : CondVar (Fin 1), c.waiting = ∅ → c.Picks none := fun _ h => h
  have hsecond : ∀ c : CondVar (Fin 1 ⊕ Nat), .inr 1 ∈ c.waiting → c.Picks (some (.inr 1)) :=
    fun _ h => h
  exact ⟨_, (((((((Run.nil.snoc (.call (by decide) rfl trivial)).snoc
    (.run rfl (by decide) (hnone _ rfl))).snoc (.call (by decide) rfl trivial)).snoc
    (.run rfl (by decide) (hnone _ rfl))).snoc (.init rfl rfl)).snoc (.test rfl)).snoc
    (.take rfl (by decide) (hsecond _ (by decide)))).snoc (.execute rfl rfl), rfl, rfl⟩

theorem handsOver_fullQueue : ∃ s : ThreadPool 1 Nat Nat,
    s.executed = [0] ∧ s.notFull.notified = {.inr 1} ∧
      s.maxQueueSize = 1 ∧ s.HandsOver ∧ s.Once := by
  rcases fullQueue_run with ⟨s, hrun, hexecuted, hnotified⟩
  exact ⟨s, hexecuted, hnotified, handsOver_of_run hrun⟩

end ThreadPool

end LearnMuduo
