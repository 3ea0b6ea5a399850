import LearnMuduo.Net.Loop.Tasks

/-!
# Lost wakeups

A queued task must not wait for the timeout of `poll`. The test `isInLoopThread` decides who
signals the loop; with the test as the code has it, a thread that queues a task from outside does
not.
-/

namespace LearnMuduo

open Framework

namespace LoopTasks

variable {T K : Type} {s s' : LoopTasks T K} {t : T}

/-- The loop sleeps in `poll` over a queued task, and nobody is about to wake it. -/
def LostWakeup (s : LoopTasks T K) : Prop :=
  s.stage = .polling ∧ s.asyncTaskList ≠ [] ∧ s.counter = 0 ∧ ∀ t, s.callers t = .idle

/-- `poll` has returned and the list is not yet swapped out. -/
def beforeSwap (s : LoopTasks T K) : Bool :=
  match s.stage with
  | .handlingEvents _ => true
  | .swapping => true
  | _ => false

/-- The queued tasks do not depend on a signal from `t`. -/
def CoveredWithout (s : LoopTasks T K) (t : T) : Prop :=
  s.asyncTaskList = [] ∨ s.beforeSwap = true ∨ 0 < s.counter ∨ ∃ u, u ≠ t ∧ s.callers u ≠ .idle

/-- The queued tasks will be seen: by the coming swap, a pending signal or one still to come. -/
def Covered (s : LoopTasks T K) : Prop :=
  s.asyncTaskList = [] ∨ s.beforeSwap = true ∨ 0 < s.counter ∨ ∃ u, s.callers u ≠ .idle

theorem Covered.not_lostWakeup (h : s.Covered) : ¬ s.LostWakeup := by
  intro hlost
  rcases hlost with ⟨hstage, hqueued, hcounter, hidle⟩
  rcases h with hempty | hbefore | hpos | hcall
  · exact hqueued hempty
  · rw [beforeSwap, hstage] at hbefore
    exact Bool.false_ne_true hbefore
  · omega
  · rcases hcall with ⟨u, hu⟩
    exact hu (hidle u)

theorem covered_of_caller (h : s.callers t ≠ .idle) : s.Covered :=
  Or.inr (Or.inr (Or.inr ⟨t, h⟩))

theorem Covered.of_stage (hs : s.Covered) (hbefore : s.beforeSwap = false)
    (hqueued : s'.asyncTaskList = s.asyncTaskList) (hcounter : s'.counter = s.counter)
    (hcallers : s'.callers = s.callers) : s'.Covered := by
  rcases hs with hs | hs | hs
  · exact Or.inl (hqueued.trans hs)
  · rw [hbefore] at hs
    exact absurd hs Bool.false_ne_true
  · rw [← hcounter, ← hcallers] at hs
    exact Or.inr (Or.inr hs)

/-- The loop thread is between the two changes of `m_executingAsyncTask`. -/
def inExecute (s : LoopTasks T K) : Bool :=
  match s.stage with
  | .swapping => true
  | .executing _ _ => true
  | _ => false

/-- The loop thread queues tasks from its callbacks only, and the flag says where it is. -/
structure OwnCalls (threadId : T) (s : LoopTasks T K) : Prop where
  inCallback : s.callers threadId ≠ .idle → s.inCallback = true
  executing : s.executingAsyncTask = s.inExecute

theorem ownCalls_initial : (initial : LoopTasks T K).OwnCalls t :=
  ⟨fun hcall => absurd rfl hcall, rfl⟩

/-- A test that signals, or need not. -/
def Harmless (inLoop : T → Bool) (s : LoopTasks T K) : TaskLabel T K → Prop
  | .test t => s.mustSignal (inLoop t) = true ∨ s.CoveredWithout t
  | _ => True

end LoopTasks

/-- A step whose test, if it is one, is harmless. -/
def HarmlessStep {T K : Type} [DecidableEq T] (inLoop : T → Bool) (threadId : T)
    (s : LoopTasks T K) (e : TaskLabel T K) (s' : LoopTasks T K) : Prop :=
  TaskStep inLoop threadId s e s' ∧ s.Harmless inLoop e

namespace LoopTasks

variable {T K : Type} [DecidableEq T] {inLoop : T → Bool} {threadId t : T}
  {s s' : LoopTasks T K} {es : List (TaskLabel T K)} {e : TaskLabel T K}

theorem CoveredWithout.testSignal (h : s.CoveredWithout t) (b : Bool) :
    (s.testSignal b t).Covered := by
  rcases h with hempty | hbefore | hpos | hcall
  · exact Or.inl hempty
  · exact Or.inr (Or.inl hbefore)
  · exact Or.inr (Or.inr (Or.inl hpos))
  · rcases hcall with ⟨u, hu, hcall⟩
    refine Or.inr (Or.inr (Or.inr ⟨u, ?_⟩))
    rw [LoopTasks.testSignal]
    simpa only [Function.update_of_ne hu] using hcall

theorem Covered.step (hs : s.Covered) (h : HarmlessStep inLoop threadId s e s') : s'.Covered := by
  rcases h with ⟨hstep, hharmless⟩
  cases hstep with
  | @push t _ _ _ =>
      refine covered_of_caller (t := t) ?_
      simp [pushTask]
  | @test t _ =>
      by_cases hmust : s.mustSignal (inLoop t) = true
      · refine covered_of_caller (t := t) ?_
        simp [testSignal, hmust]
      · exact (hharmless.resolve_left hmust).testSignal _
  | setAsyncTaskEvent _ => exact Or.inr (Or.inr (Or.inl (Nat.succ_pos _)))
  | poll hstage => exact hs.of_stage (by simp only [beforeSwap, hstage]) rfl rfl rfl
  | pollReturn _ _ => exact Or.inr (Or.inl rfl)
  | resetAsyncTaskEvent _ _ => exact Or.inr (Or.inl rfl)
  | beginTasks _ _ => exact Or.inr (Or.inl rfl)
  | swapTasks _ => exact Or.inl rfl
  | startTask hstage => exact hs.of_stage (by simp only [beforeSwap, hstage]) rfl rfl rfl
  | finishTask hstage _ => exact hs.of_stage (by simp only [beforeSwap, hstage]) rfl rfl rfl
  | endTasks hstage => exact hs.of_stage (by simp only [beforeSwap, hstage]) rfl rfl rfl

theorem OwnCalls.step (hs : s.OwnCalls threadId) (h : TaskStep inLoop threadId s e s') :
    s'.OwnCalls threadId := by
  have hidle : s.inCallback = false → s.callers threadId = .idle := by
    intro hcallback
    by_contra hcall
    rw [hs.inCallback hcall] at hcallback
    exact Bool.false_ne_true hcallback.symm
  cases h with
  | @push t _ _ hown =>
      refine ⟨fun hcall => ?_, hs.executing⟩
      by_cases ht : t = threadId
      · exact hown ht
      · simp only [pushTask, Function.update_of_ne (Ne.symm ht)] at hcall
        exact hs.inCallback hcall
  | @test t hpushed =>
      refine ⟨fun hcall => ?_, hs.executing⟩
      by_cases ht : t = threadId
      · subst ht
        refine hs.inCallback ?_
        rw [hpushed]
        decide
      · simp only [testSignal, Function.update_of_ne (Ne.symm ht)] at hcall
        exact hs.inCallback hcall
  | @setAsyncTaskEvent t _ =>
      refine ⟨fun hcall => ?_, hs.executing⟩
      by_cases ht : t = threadId
      · subst ht
        simp [LoopTasks.setAsyncTaskEvent] at hcall
      · simp only [LoopTasks.setAsyncTaskEvent, Function.update_of_ne (Ne.symm ht)] at hcall
        exact hs.inCallback hcall
  | poll hstage =>
      refine ⟨fun hcall => absurd (hidle ?_) hcall, hs.executing.trans ?_⟩
      · simp only [LoopTasks.inCallback, hstage]
      · simp only [inExecute, hstage]
  | pollReturn hstage _ =>
      refine ⟨fun _ => rfl, hs.executing.trans ?_⟩
      simp only [inExecute, hstage]
  | resetAsyncTaskEvent hstage _ =>
      refine ⟨fun _ => rfl, hs.executing.trans ?_⟩
      simp only [inExecute, hstage, LoopTasks.resetAsyncTaskEvent]
  | beginTasks _ hcaller => exact ⟨fun hcall => absurd hcaller hcall, rfl⟩
  | swapTasks hstage =>
      refine ⟨fun hcall => absurd (hidle ?_) hcall, hs.executing.trans ?_⟩
      · simp only [LoopTasks.inCallback, hstage]
      · simp only [inExecute, hstage, LoopTasks.swapTasks]
  | startTask hstage =>
      refine ⟨fun _ => rfl, hs.executing.trans ?_⟩
      simp only [inExecute, hstage, LoopTasks.startTask]
  | finishTask hstage hcaller =>
      refine ⟨fun hcall => absurd hcaller hcall, hs.executing.trans ?_⟩
      simp only [inExecute, hstage, LoopTasks.finishTask]
  | endTasks hstage =>
      refine ⟨fun hcall => absurd (hidle ?_) hcall, rfl⟩
      simp only [LoopTasks.inCallback, hstage]

theorem ownCalls_of_run (h : Run (TaskStep inLoop threadId) initial es s) :
    s.OwnCalls threadId := by
  induction h with
  | nil => exact ownCalls_initial
  | snoc _ hstep ih => exact ih.step hstep

/-- A correct test of the thread makes every test harmless: a foreign thread signals, and the loop
thread calls before the swap or with the flag set. -/
theorem harmless_of_owner (hinLoop : ∀ t, inLoop t = decide (t = threadId))
    (hs : s.OwnCalls threadId) (h : TaskStep inLoop threadId s e s') : s.Harmless inLoop e := by
  cases h with
  | @test t hpushed =>
      by_cases ht : t = threadId
      · subst ht
        have hcallback : s.inCallback = true := by
          refine hs.inCallback ?_
          rw [hpushed]
          decide
        cases hstage : s.stage with
        | handlingEvents _ =>
            refine Or.inr (Or.inr (Or.inl ?_))
            simp only [beforeSwap, hstage]
        | executing _ _ =>
            refine Or.inl ?_
            rw [mustSignal, hs.executing, inExecute, hstage]
            exact Bool.or_true _
        | cycling => simp [LoopTasks.inCallback, hstage] at hcallback
        | polling => simp [LoopTasks.inCallback, hstage] at hcallback
        | swapping => simp [LoopTasks.inCallback, hstage] at hcallback
      · refine Or.inl ?_
        rw [mustSignal, hinLoop t, decide_eq_false ht]
        rfl
  | _ => trivial

theorem covered_of_run (h : Run (HarmlessStep inLoop threadId) initial es s) : s.Covered := by
  induction h with
  | nil => exact Or.inl rfl
  | snoc _ hstep ih => exact ih.step hstep

/-- The queue is designed for a correct test of the thread: then no wakeup is lost. -/
theorem not_lostWakeup_of_owner (hinLoop : ∀ t, inLoop t = decide (t = threadId))
    (h : Run (TaskStep inLoop threadId) initial es s) : ¬ s.LostWakeup := by
  have hharmless : Run (HarmlessStep inLoop threadId) initial es s := by
    refine h.mono_invariant (I := OwnCalls threadId) (fun _ _ _ hs hstep => hs.step hstep) ?_
      ownCalls_initial
    intro s e s' hs hstep
    exact ⟨hstep, harmless_of_owner hinLoop hs hstep⟩
  exact (covered_of_run hharmless).not_lostWakeup

/-- After a harmful test the loop falls asleep, if it is not asleep yet. -/
theorem exists_lostWakeup (hs : s.OwnCalls threadId)
    (h : TaskStep inLoop threadId s (.test t) s') (hharm : ¬ s.Harmless inLoop (.test t)) :
    ∃ fs u, (∀ l ∈ fs, l = TaskLabel.poll) ∧ Run (TaskStep inLoop threadId) s' fs u ∧
      u.LostWakeup := by
  simp only [Harmless, CoveredWithout, not_or, not_exists, not_and, not_not] at hharm
  rcases hharm with ⟨hmust, hqueued, hbefore, hcounter, hothers⟩
  cases h with
  | test hpushed =>
      have hidle : ∀ u, (s.testSignal (inLoop t) t).callers u = .idle := by
        intro u
        by_cases hu : u = t
        · subst hu
          simp [testSignal, hmust]
        · simp only [testSignal, Function.update_of_ne hu]
          exact hothers u hu
      have hzero : s.counter = 0 := by omega
      have hflag : s.inExecute = false := by
        rw [← hs.executing]
        rw [mustSignal, Bool.or_eq_true, not_or] at hmust
        exact Bool.eq_false_iff.mpr hmust.2
      cases hstage : s.stage with
      | polling => exact ⟨[], _, by simp, Run.nil, hstage, hqueued, hzero, hidle⟩
      | cycling =>
          have hpoll : TaskStep inLoop threadId (s.testSignal (inLoop t) t) .poll _ :=
            TaskStep.poll hstage
          exact ⟨[.poll], _, by simp, Run.single hpoll, rfl, hqueued, hzero, hidle⟩
      | handlingEvents _ => simp [beforeSwap, hstage] at hbefore
      | swapping => simp [beforeSwap, hstage] at hbefore
      | executing _ _ => simp [inExecute, hstage] at hflag

theorem Covered.poll {fs : List (TaskLabel T K)} (hs : s.Covered) (hfs : ∀ l ∈ fs, l = .poll)
    (h : Run (TaskStep inLoop threadId) s fs s') : s'.Covered := by
  induction h with
  | nil => exact hs
  | @snoc fs t e u _ hstep ih =>
      have hpoll : e = .poll := hfs e (by simp)
      subst hpoll
      exact (ih fun l hl => hfs l (List.mem_append_left _ hl)).step ⟨hstep, trivial⟩

/-- With the test as the code has it, whichever thread `owner` made the loop: no wakeup is lost in a
run of harmless steps; and where the next test is not harmless, the loop can sleep over the task at
once. -/
theorem harmless_iff_not_lostWakeup {owner : T}
    (h : Run (HarmlessStep (isInLoopThread owner) threadId) initial es s) :
    ¬ s.LostWakeup ∧
      ∀ t s', TaskStep (isInLoopThread owner) threadId s (.test t) s' →
        (s.Harmless (isInLoopThread owner) (.test t) ↔
          ∀ fs u, (∀ l ∈ fs, l = TaskLabel.poll) →
            Run (TaskStep (isInLoopThread owner) threadId) s' fs u → ¬ u.LostWakeup) := by
  have hcovered := covered_of_run h
  have hown := ownCalls_of_run (h.mono fun _ _ _ hstep => hstep.1)
  refine ⟨hcovered.not_lostWakeup, fun t s' htest => ⟨?_, ?_⟩⟩
  · intro hharmless fs u hfs hrun
    exact ((hcovered.step ⟨htest, hharmless⟩).poll hfs hrun).not_lostWakeup
  · intro hnever
    by_contra hharm
    rcases exists_lostWakeup hown htest hharm with ⟨fs, u, hfs, hrun, hlost⟩
    exact hnever fs u hfs hrun hlost

/-- Thread 1 queues a task while the loop of thread 0 sleeps. -/
theorem lostWakeup_foreign : ∃ s : LoopTasks Nat Nat,
    Run (TaskStep (isInLoopThread 0) 0) initial [.poll, .push 1 10, .test 1] s ∧ s.LostWakeup := by
  refine ⟨_, ((Run.nil.snoc (.poll rfl)).snoc (.push rfl (by decide))).snoc (.test rfl),
    rfl, by decide, rfl, ?_⟩
  intro t
  by_cases ht : t = 1
  · subst ht
    rfl
  · simp [testSignal, pushTask, initial, ht]

/-- A callback queues a task, which signals; thread 1 queues one before the swap. -/
def coveredCalls : List (TaskLabel Nat Nat) :=
  [.poll, .pollReturn false, .push 0 10, .push 1 20, .test 1, .test 0, .setAsyncTaskEvent 0]

theorem coveredCalls_run : ∃ s : LoopTasks Nat Nat,
    Run (HarmlessStep (isInLoopThread 0) 0) initial coveredCalls s ∧ s.counter = 1 := by
  refine ⟨_, ((((((Run.nil.snoc ⟨.poll rfl, trivial⟩).snoc
    ⟨.pollReturn rfl (by decide), trivial⟩).snoc ⟨.push rfl (fun _ => rfl), trivial⟩).snoc
    ⟨.push rfl (by decide), trivial⟩).snoc ⟨.test rfl, Or.inr (Or.inr (Or.inl rfl))⟩).snoc
    ⟨.test rfl, Or.inl rfl⟩).snoc ⟨.setAsyncTaskEvent rfl, trivial⟩, rfl⟩

theorem harmless_iff_not_lostWakeup_coveredCalls : ∃ s : LoopTasks Nat Nat,
    s.counter = 1 ∧ ¬ s.LostWakeup ∧
      ∀ t s', TaskStep (isInLoopThread 0) 0 s (.test t) s' →
        (s.Harmless (isInLoopThread 0) (.test t) ↔
          ∀ fs u, (∀ l ∈ fs, l = TaskLabel.poll) →
            Run (TaskStep (isInLoopThread 0) 0) s' fs u → ¬ u.LostWakeup) := by
  rcases coveredCalls_run with ⟨s, hrun, hcounter⟩
  exact ⟨s, hcounter, harmless_iff_not_lostWakeup hrun⟩

end LoopTasks

end LearnMuduo
