import LearnMuduo.Framework.Monitor
import LearnMuduo.Framework.Run

/-!
# Starting a loop thread

`EventLoopThread::startLoop` starts a thread, which constructs a loop and publishes it in `m_loop`,
and waits until it is there. Each access to `m_loop`, each operation on `m_mtx` and `m_cond` and
each operation on the latch of `Thread::start` is one step.
-/

namespace LearnMuduo

open Framework

inductive Party
  | starter
  | worker
  deriving DecidableEq, Repr

/-- What the caller of `startLoop` does next. -/
inductive StarterStage (L : Type)
  /-- `m_thread.start()` -/
  | starting
  /-- `m_latch.wait()` -/
  | latching
  /-- `m_loop = nullptr`, without the mutex -/
  | clearing
  | locking
  /-- the test of `m_loop`, with the mutex held -/
  | testing
  | goingToWait
  /-- in `m_cond.wait`, asleep or about to lock again -/
  | waiting
  | unlocking
  /-- `return m_loop`, without the mutex -/
  | reading
  | returned (loop : Option L)
  deriving DecidableEq, Repr

/-- What the new thread does next. -/
inductive WorkerStage
  | absent
  /-- `Thread::run`, before the latch is counted down -/
  | running
  /-- `ThreadFunc`: the loop is constructed and initialised, the mutex is not yet held -/
  | locking
  /-- `m_loop = &loop` -/
  | publishing
  | notifying
  | unlocking
  /-- `loop.loop()` -/
  | looping
  deriving DecidableEq, Repr

/-- The stages in which the thread holds `m_mtx`. -/
def StarterStage.holds {L : Type} : StarterStage L → Bool
  | .testing => true
  | .goingToWait => true
  | .unlocking => true
  | _ => false

def WorkerStage.holds : WorkerStage → Bool
  | .publishing => true
  | .notifying => true
  | .unlocking => true
  | _ => false

structure EventLoopThread (L : Type) where
  loop : Option L
  latch : Nat
  monitor : Monitor Party Unit
  starter : StarterStage L
  worker : WorkerStage

inductive StartLabel (L : Type)
  | start
  | startFailed
  | latchWait
  | clear
  | lock
  | test
  | wait
  | wake
  | lockAgain
  | unlock
  | read
  | countDown
  | workerLock
  | publish (loop : L)
  | notifyAll
  | workerUnlock
  deriving DecidableEq, Repr

namespace EventLoopThread

variable {L : Type}

def initial : EventLoopThread L where
  loop := none
  latch := 1
  monitor := Monitor.free
  starter := .starting
  worker := .absent

end EventLoopThread

/-- The steps of both threads, and `pthread_create` may fail. -/
inductive StartStep {L : Type} : EventLoopThread L → StartLabel L → EventLoopThread L → Prop
  | start {s : EventLoopThread L} :
      s.starter = .starting →
      StartStep s .start { s with starter := .latching, worker := .running }
  | startFailed {s : EventLoopThread L} :
      s.starter = .starting → StartStep s .startFailed { s with starter := .clearing }
  | latchWait {s : EventLoopThread L} :
      s.starter = .latching → s.latch = 0 →
      StartStep s .latchWait { s with starter := .clearing }
  | clear {s : EventLoopThread L} :
      s.starter = .clearing → StartStep s .clear { s with starter := .locking, loop := none }
  | lock {s : EventLoopThread L} :
      s.starter = .locking → s.monitor.CanLock .starter →
      StartStep s .lock { s with starter := .testing, monitor := s.monitor.lock .starter }
  | test {s : EventLoopThread L} :
      s.starter = .testing →
      StartStep s .test
        { s with starter := if s.loop.isSome then .unlocking else .goingToWait }
  | wait {s : EventLoopThread L} :
      s.starter = .goingToWait →
      StartStep s .wait { s with starter := .waiting, monitor := s.monitor.wait .starter () }
  | wake {s : EventLoopThread L} :
      s.starter = .waiting → StartStep s .wake { s with monitor := s.monitor.wake .starter }
  | lockAgain {s : EventLoopThread L} :
      s.starter = .waiting → s.monitor.CanLock .starter →
      StartStep s .lockAgain { s with starter := .testing, monitor := s.monitor.lock .starter }
  | unlock {s : EventLoopThread L} :
      s.starter = .unlocking →
      StartStep s .unlock { s with starter := .reading, monitor := s.monitor.unlock }
  | read {s : EventLoopThread L} :
      s.starter = .reading → StartStep s .read { s with starter := .returned s.loop }
  | countDown {s : EventLoopThread L} :
      s.worker = .running →
      StartStep s .countDown { s with worker := .locking, latch := s.latch - 1 }
  | workerLock {s : EventLoopThread L} :
      s.worker = .locking → s.monitor.CanLock .worker →
      StartStep s .workerLock { s with worker := .publishing, monitor := s.monitor.lock .worker }
  | publish {s : EventLoopThread L} {loop : L} :
      s.worker = .publishing →
      StartStep s (.publish loop) { s with worker := .notifying, loop := some loop }
  | notifyAll {s : EventLoopThread L} :
      s.worker = .notifying →
      StartStep s .notifyAll { s with worker := .unlocking, monitor := s.monitor.notifyAll () }
  | workerUnlock {s : EventLoopThread L} :
      s.worker = .unlocking →
      StartStep s .workerUnlock { s with worker := .looping, monitor := s.monitor.unlock }

namespace EventLoopThread

variable {L : Type} {s s' : EventLoopThread L} {es : List (StartLabel L)} {e : StartLabel L}

/-- `ThreadFunc` has stored its loop in `m_loop`. -/
def published (s : EventLoopThread L) : Bool :=
  match s.worker with
  | .notifying => true
  | .unlocking => true
  | .looping => true
  | _ => false

/-- `ThreadFunc` has stored its loop and notified. -/
def notified (s : EventLoopThread L) : Bool :=
  match s.worker with
  | .unlocking => true
  | .looping => true
  | _ => false

/-- `startLoop` waits for a loop that is already gone. -/
def Hung (s : EventLoopThread L) : Prop :=
  s.starter = .waiting ∧ s.loop = none ∧ s.notified = true

/-- The store `m_loop = nullptr` finds nothing to overwrite. -/
def Harmless (s : EventLoopThread L) : StartLabel L → Prop
  | .clear => s.loop = none
  | _ => True

end EventLoopThread

def HarmlessStart {L : Type} (s : EventLoopThread L) (e : StartLabel L) (s' : EventLoopThread L) :
    Prop :=
  StartStep s e s' ∧ s.Harmless e

namespace EventLoopThread

variable {L : Type} {s s' : EventLoopThread L} {es : List (StartLabel L)} {e : StartLabel L}

theorem loop_isSome_step (hs : s.published = true → s.loop.isSome = true)
    (h : HarmlessStart s e s') : s'.published = true → s'.loop.isSome = true := by
  rcases h with ⟨hstep, hharmless⟩
  cases hstep with
  | clear _ =>
      intro hpublished
      have hloop := hs hpublished
      rw [show s.loop = none from hharmless] at hloop
      exact absurd hloop Bool.false_ne_true
  | countDown _ => exact fun hpublished => absurd hpublished Bool.false_ne_true
  | workerLock _ _ => exact fun hpublished => absurd hpublished Bool.false_ne_true
  | start _ => exact fun hpublished => absurd hpublished Bool.false_ne_true
  | publish _ => exact fun _ => rfl
  | notifyAll hworker =>
      intro _
      refine hs ?_
      rw [published, hworker]
  | workerUnlock hworker =>
      intro _
      refine hs ?_
      rw [published, hworker]
  | startFailed _ => exact hs
  | latchWait _ _ => exact hs
  | lock _ _ => exact hs
  | test _ => exact hs
  | wait _ => exact hs
  | wake _ => exact hs
  | lockAgain _ _ => exact hs
  | unlock _ => exact hs
  | read _ => exact hs

/-- Who holds `m_mtx`, and who may sleep. -/
structure Locked (s : EventLoopThread L) : Prop where
  starter : s.monitor.holder = some .starter ↔ s.starter.holds = true
  worker : s.monitor.holder = some .worker ↔ s.worker.holds = true
  asleep : s.monitor.sleeping .starter ≠ none → s.starter = .waiting

theorem Locked.moveStarter (hs : s.Locked) {stage : StarterStage L}
    (hholds : stage.holds = s.starter.holds) (hstage : s.starter ≠ .waiting) :
    ({ s with starter := stage } : EventLoopThread L).Locked := by
  refine ⟨?_, hs.worker, fun hasleep => absurd (hs.asleep hasleep) hstage⟩
  rw [hs.starter, hholds]

theorem Locked.moveWorker (hs : s.Locked) {stage : WorkerStage}
    (hholds : stage.holds = s.worker.holds) :
    ({ s with worker := stage } : EventLoopThread L).Locked := by
  refine ⟨hs.starter, ?_, hs.asleep⟩
  rw [hs.worker, hholds]

theorem Locked.step (hs : s.Locked) (habsent : s.starter = .starting → s.worker = .absent)
    (h : StartStep s e s') : s'.Locked := by
  cases h with
  | start hstarter =>
      have hmoved : ({ s with starter := .latching } : EventLoopThread L).Locked :=
        hs.moveStarter (by rw [hstarter]; rfl) (by simp [hstarter])
      refine hmoved.moveWorker ?_
      show WorkerStage.running.holds = s.worker.holds
      rw [habsent hstarter]
      rfl
  | startFailed hstarter => exact hs.moveStarter (by rw [hstarter]; rfl) (by simp [hstarter])
  | latchWait hstarter _ => exact hs.moveStarter (by rw [hstarter]; rfl) (by simp [hstarter])
  | clear hstarter =>
      have hmoved : ({ s with starter := .locking } : EventLoopThread L).Locked :=
        hs.moveStarter (by rw [hstarter]; rfl) (by simp [hstarter])
      exact ⟨hmoved.starter, hmoved.worker, hmoved.asleep⟩
  | lock hstarter hcan =>
      refine ⟨iff_of_true rfl rfl, ?_, fun hasleep => absurd hcan.2 hasleep⟩
      simp [Monitor.lock, ← hs.worker, hcan.1]
  | test hstarter =>
      refine hs.moveStarter ?_ (by simp [hstarter])
      rw [hstarter]
      split
      · rfl
      · rfl
  | wait hstarter =>
      have hholder : s.monitor.holder = some .starter := hs.starter.mpr (by rw [hstarter]; rfl)
      refine ⟨by simp [Monitor.wait, StarterStage.holds], ?_, fun _ => rfl⟩
      simp [Monitor.wait, ← hs.worker, hholder]
  | wake hstarter => exact ⟨hs.starter, hs.worker, fun _ => hstarter⟩
  | lockAgain hstarter hcan =>
      refine ⟨iff_of_true rfl rfl, ?_, fun hasleep => absurd hcan.2 hasleep⟩
      simp [Monitor.lock, ← hs.worker, hcan.1]
  | unlock hstarter =>
      have hholder : s.monitor.holder = some .starter := hs.starter.mpr (by rw [hstarter]; rfl)
      refine ⟨by simp [Monitor.unlock, StarterStage.holds], ?_, fun hasleep => ?_⟩
      · simp [Monitor.unlock, ← hs.worker, hholder]
      · exact absurd (hs.asleep hasleep) (by simp [hstarter])
  | read hstarter => exact hs.moveStarter (by rw [hstarter]; rfl) (by simp [hstarter])
  | countDown hworker =>
      have hmoved : ({ s with worker := .locking } : EventLoopThread L).Locked :=
        hs.moveWorker (by rw [hworker]; rfl)
      exact ⟨hmoved.starter, hmoved.worker, hmoved.asleep⟩
  | workerLock hworker hcan =>
      refine ⟨?_, iff_of_true rfl rfl, hs.asleep⟩
      simp [Monitor.lock, ← hs.starter, hcan.1]
  | publish hworker =>
      have hmoved : ({ s with worker := .notifying } : EventLoopThread L).Locked :=
        hs.moveWorker (by rw [hworker]; rfl)
      exact ⟨hmoved.starter, hmoved.worker, hmoved.asleep⟩
  | notifyAll hworker =>
      have hmoved : ({ s with worker := .unlocking } : EventLoopThread L).Locked :=
        hs.moveWorker (by rw [hworker]; rfl)
      refine ⟨hmoved.starter, hmoved.worker, fun hasleep => hs.asleep ?_⟩
      intro hawake
      exact hasleep (Monitor.notifyAll_sleeping_of_none hawake)
  | workerUnlock hworker =>
      have hholder : s.monitor.holder = some .worker := hs.worker.mpr (by rw [hworker]; rfl)
      refine ⟨?_, by simp [Monitor.unlock, WorkerStage.holds], hs.asleep⟩
      simp [Monitor.unlock, ← hs.starter, hholder]

/-- What holds in every run: the worker is there once it is started, and `m_loop` is null until it
publishes. -/
structure Consistent (s : EventLoopThread L) : Prop where
  absent : s.starter = .starting → s.worker = .absent
  locked : s.Locked
  loop : s.loop ≠ none → s.published = true

theorem Consistent.absent_step (hs : s.Consistent) (h : StartStep s e s')
    (hstarter : s'.starter = .starting) : s'.worker = .absent := by
  have hworker : ∀ stage, s.worker = stage → s.starter = .starting → stage = .absent := by
    intro stage hstage hstart
    exact hstage.symm.trans (hs.absent hstart)
  cases h with
  | test _ =>
      simp only at hstarter
      split at hstarter
      · cases hstarter
      · cases hstarter
  | wake h => exact hs.absent hstarter
  | countDown h => exact absurd (hworker _ h hstarter) WorkerStage.noConfusion
  | workerLock h _ => exact absurd (hworker _ h hstarter) WorkerStage.noConfusion
  | publish h => exact absurd (hworker _ h hstarter) WorkerStage.noConfusion
  | notifyAll h => exact absurd (hworker _ h hstarter) WorkerStage.noConfusion
  | workerUnlock h => exact absurd (hworker _ h hstarter) WorkerStage.noConfusion
  | _ => cases hstarter

theorem Consistent.loop_step (hs : s.Consistent) (h : StartStep s e s')
    (hloop : s'.loop ≠ none) : s'.published = true := by
  have hbefore : ∀ stage, s.worker = stage → s.loop ≠ none → ({ s with worker := stage } :
      EventLoopThread L).published = true := by
    intro stage hstage hsome
    have hpublished := hs.loop hsome
    rwa [published, hstage] at hpublished
  cases h with
  | start h => exact absurd (hbefore _ (hs.absent h) hloop) Bool.false_ne_true
  | countDown h => exact absurd (hbefore _ h hloop) Bool.false_ne_true
  | workerLock h _ => exact absurd (hbefore _ h hloop) Bool.false_ne_true
  | publish _ => rfl
  | notifyAll _ => rfl
  | workerUnlock _ => rfl
  | clear _ => exact absurd rfl hloop
  | _ => exact hs.loop hloop

theorem Consistent.step (hs : s.Consistent) (h : StartStep s e s') : s'.Consistent :=
  ⟨hs.absent_step h, hs.locked.step hs.absent h, hs.loop_step h⟩

theorem consistent_of_run (h : Run StartStep initial es s) : s.Consistent := by
  induction h with
  | nil =>
      refine ⟨fun _ => rfl, ⟨?_, ?_, fun hasleep => absurd rfl hasleep⟩,
        fun hloop => absurd rfl hloop⟩
      · simp [initial, Monitor.free, StarterStage.holds]
      · simp [initial, Monitor.free, WorkerStage.holds]
  | snoc _ hstep ih => exact ih.step hstep

theorem exists_looping (hs : s.Locked) (hstarter : s.starter = .locking)
    (hpublished : s.published = true) :
    ∃ fs t, Run StartStep s fs t ∧ t.Locked ∧ t.starter = .locking ∧ t.loop = s.loop ∧
      t.worker = .looping := by
  have hunlock : ∀ t : EventLoopThread L, t.Locked → t.starter = .locking →
      t.worker = .unlocking → ∃ u, StartStep t .workerUnlock u ∧ u.Locked ∧
        u.starter = .locking ∧ u.loop = t.loop ∧ u.worker = .looping := by
    intro t ht htstarter htworker
    have hstep := StartStep.workerUnlock htworker
    refine ⟨_, hstep, ht.step (fun hstart => ?_) hstep, htstarter, rfl, rfl⟩
    simp [htstarter] at hstart
  cases hworker : s.worker with
  | notifying =>
      have hnotify := StartStep.notifyAll hworker
      have hlocked := hs.step (fun hstart => by simp [hstarter] at hstart) hnotify
      rcases hunlock _ hlocked hstarter rfl with ⟨u, hu, hrest⟩
      exact ⟨_, u, (Run.single hnotify).snoc hu, hrest⟩
  | unlocking =>
      rcases hunlock s hs hstarter hworker with ⟨u, hu, hrest⟩
      exact ⟨_, u, Run.single hu, hrest⟩
  | looping => exact ⟨[], s, Run.nil, hs, hstarter, rfl, hworker⟩
  | absent => simp [published, hworker] at hpublished
  | running => simp [published, hworker] at hpublished
  | locking => simp [published, hworker] at hpublished
  | publishing => simp [published, hworker] at hpublished

theorem Locked.canLock (hs : s.Locked) (hstarter : s.starter = .locking)
    (hworker : s.worker = .looping) : s.monitor.CanLock .starter := by
  constructor
  · cases hholder : s.monitor.holder with
    | none => rfl
    | some party =>
        cases party with
        | starter => simpa [hstarter, StarterStage.holds] using hs.starter.mp hholder
        | worker => simpa [hworker, WorkerStage.holds] using hs.worker.mp hholder
  · by_contra hasleep
    have hwaiting := hs.asleep hasleep
    simp [hstarter] at hwaiting

theorem test_of_none (hstarter : s.starter = .testing) (hloop : s.loop = none) :
    StartStep s .test { s with starter := .goingToWait } := by
  have hstep := StartStep.test hstarter
  have hisSome : s.loop.isSome = false := by
    rw [hloop]
    rfl
  simpa only [hisSome, Bool.false_eq_true, if_false] using hstep

/-- After its publication is overwritten, the starter can wait for ever. -/
theorem exists_hung (hs : s.Locked) (hstarter : s.starter = .locking)
    (hpublished : s.published = true) (hloop : s.loop = none) :
    ∃ fs t, Run StartStep s fs t ∧ t.Hung := by
  rcases exists_looping hs hstarter hpublished with ⟨fs, t, hrun, ht, htstarter, htloop, htworker⟩
  let locked : EventLoopThread L :=
    { t with starter := .testing, monitor := t.monitor.lock .starter }
  have hlock : StartStep t .lock locked :=
    StartStep.lock htstarter (ht.canLock htstarter htworker)
  have hnone : locked.loop = none := htloop.trans hloop
  have htest := test_of_none (s := locked) rfl hnone
  have hwait := StartStep.wait (s := { locked with starter := .goingToWait }) rfl
  refine ⟨_, _, ((hrun.snoc hlock).snoc htest).snoc hwait, rfl, hnone, ?_⟩
  show t.notified = true
  rw [notified, htworker]

theorem published_of_run (h : Run HarmlessStart initial es s) :
    s.published = true → s.loop.isSome = true := by
  induction h with
  | nil => exact fun hpublished => absurd hpublished Bool.false_ne_true
  | snoc _ hstep ih => exact loop_isSome_step ih hstep

theorem published_of_notified (h : s.notified = true) : s.published = true := by
  cases hworker : s.worker with
  | unlocking => rw [published, hworker]
  | looping => rw [published, hworker]
  | absent => simp [notified, hworker] at h
  | running => simp [notified, hworker] at h
  | locking => simp [notified, hworker] at h
  | publishing => simp [notified, hworker] at h
  | notifying => simp [notified, hworker] at h

theorem not_hung_of_harmless (h : Run HarmlessStart initial es s) : ¬ s.Hung := by
  intro hung
  rcases hung with ⟨_, hloop, hnotified⟩
  have hsome := published_of_run h (published_of_notified hnotified)
  rw [hloop] at hsome
  exact Bool.false_ne_true hsome

/-- The call of `startLoop` has gone past its unlocked store. -/
def cleared (s : EventLoopThread L) : Bool :=
  match s.starter with
  | .starting => false
  | .latching => false
  | .clearing => false
  | _ => true

theorem cleared_step (hs : s.cleared = true) (h : StartStep s e s') :
    s'.cleared = true ∧ s.Harmless e := by
  cases h with
  | start hstarter => simp [cleared, hstarter] at hs
  | startFailed hstarter => simp [cleared, hstarter] at hs
  | latchWait hstarter _ => simp [cleared, hstarter] at hs
  | clear hstarter => simp [cleared, hstarter] at hs
  | test _ =>
      refine ⟨?_, trivial⟩
      by_cases hsome : s.loop.isSome = true
      · simp [cleared, hsome]
      · simp [cleared, hsome]
  | lock _ _ => exact ⟨rfl, trivial⟩
  | wait _ => exact ⟨rfl, trivial⟩
  | lockAgain _ _ => exact ⟨rfl, trivial⟩
  | unlock _ => exact ⟨rfl, trivial⟩
  | read _ => exact ⟨rfl, trivial⟩
  | _ => exact ⟨hs, trivial⟩

theorem harmless_of_cleared (hs : s.cleared = true) (h : Run StartStep s es s') :
    Run HarmlessStart s es s' :=
  h.mono_invariant (I := fun s => s.cleared = true)
    (fun _ _ _ hs hstep => (cleared_step hs hstep).1)
    (fun _ _ _ hs hstep => ⟨hstep, (cleared_step hs hstep).2⟩) hs

/-- In a run whose store of `nullptr` comes before the publication, `startLoop` does not hang. Such
a store is one that finds `m_loop` null: from any other `startLoop` can go on to hang. -/
theorem not_hung_iff_harmless (h : Run HarmlessStart initial es s) :
    ¬ s.Hung ∧ ∀ s', StartStep s .clear s' →
      (s.loop = none ↔ ∀ fs u, Run StartStep s' fs u → ¬ u.Hung) := by
  refine ⟨not_hung_of_harmless h, fun s' hclear => ⟨?_, ?_⟩⟩
  · intro hloop fs u hrun
    have hcleared : s'.cleared = true := by
      cases hclear with
      | clear _ => rfl
    exact not_hung_of_harmless ((h.snoc ⟨hclear, hloop⟩).append (harmless_of_cleared hcleared hrun))
  · intro hnever
    by_contra hloop
    have hs := consistent_of_run (h.mono fun _ _ _ hstep => hstep.1)
    have hlocked := (hs.step hclear).locked
    have hpublished := hs.loop hloop
    cases hclear with
    | clear _ =>
        rcases exists_hung hlocked rfl hpublished rfl with ⟨fs, t, hrun, hung⟩
        exact hnever fs t hrun hung

/-- The new thread publishes before the starter comes out of `m_thread.start()`. -/
def lateClear : List (StartLabel Nat) :=
  [.start, .countDown, .workerLock, .publish 7, .notifyAll, .workerUnlock, .latchWait, .clear,
    .lock, .test, .wait]

theorem hung_lateClear : ∃ s : EventLoopThread Nat, Run StartStep initial lateClear s ∧ s.Hung := by
  refine ⟨_, ((((((((((Run.nil.snoc (.start rfl)).snoc (.countDown rfl)).snoc
    (.workerLock rfl ⟨rfl, rfl⟩)).snoc (.publish rfl)).snoc (.notifyAll rfl)).snoc
    (.workerUnlock rfl)).snoc (.latchWait rfl rfl)).snoc (.clear rfl)).snoc
    (.lock rfl ⟨rfl, rfl⟩)).snoc (.test rfl)).snoc (.wait rfl), rfl, rfl, rfl⟩

theorem latched_run : ∃ s : EventLoopThread Nat,
    Run HarmlessStart initial [.start, .countDown, .latchWait] s ∧ s.starter = .clearing :=
  ⟨_, ((Run.nil.snoc ⟨.start rfl, trivial⟩).snoc ⟨.countDown rfl, trivial⟩).snoc
    ⟨.latchWait rfl rfl, trivial⟩, rfl⟩

theorem not_hung_iff_harmless_latched : ∃ s : EventLoopThread Nat,
    s.starter = .clearing ∧ ¬ s.Hung ∧ ∀ s', StartStep s .clear s' →
      (s.loop = none ↔ ∀ fs u, Run StartStep s' fs u → ¬ u.Hung) := by
  rcases latched_run with ⟨s, hrun, hstarter⟩
  exact ⟨s, hstarter, not_hung_iff_harmless hrun⟩

end EventLoopThread

end LearnMuduo
