import LearnMuduo.Net.Loop.Tasks

/-!
# Thread confinement

Several threads and several loops. A loop belongs to the thread that constructed it, `threadId`,
and its tasks are to run there. Which thread a call is made on is found out by a test `inLoop`, of
which the code has one version.
-/

namespace LearnMuduo

open Framework

/-- What can be seen of a run: a task executed on a thread, a call of `postTask_mt` and whether it
ran its task at once, a call of `assertInCurrentThread` and whether it passed. -/
inductive LoopEvent (T L K : Type)
  | executed (l : L) (task : K) (t : T)
  | posted (l : L) (t : T) (synchronously : Bool)
  | asserted (l : L) (t : T) (passed : Bool)
  deriving DecidableEq, Repr

/-- For each loop: the thread that is in `loop()`, `m_asyncTaskList`, and the rest of the list that
`executeAsyncTasks` goes through, if it does. -/
structure Loops (T L K : Type) where
  runner : L → Option T
  asyncTaskList : L → List K
  taskList : L → Option (List K)
  aborted : Bool
  events : List (LoopEvent T L K)

inductive LoopsLabel (T L K : Type)
  | postTask_mt (l : L) (t : T) (task : K)
  | queueTask (l : L) (task : K)
  | assertInCurrentThread (l : L) (t : T)
  | loop (l : L) (t : T)
  | swapTasks (l : L)
  | executeTask (l : L)
  | endTasks (l : L)
  | quit (l : L)
  deriving DecidableEq, Repr

namespace Loops

variable {T L K : Type} [DecidableEq L]

def queueTask (s : Loops T L K) (l : L) (task : K) : Loops T L K :=
  { s with asyncTaskList := Function.update s.asyncTaskList l (s.asyncTaskList l ++ [task]) }

def postTask_mt (s : Loops T L K) (inLoop : Bool) (l : L) (t : T) (task : K) : Loops T L K :=
  if inLoop then
    { s with events := s.events ++ [.posted l t true, .executed l task t] }
  else
    { s.queueTask l task with events := s.events ++ [.posted l t false] }

/-- A failed assertion is fatal. -/
def assertInCurrentThread (s : Loops T L K) (inLoop : Bool) (l : L) (t : T) : Loops T L K :=
  { s with aborted := !inLoop, events := s.events ++ [.asserted l t inLoop] }

def loop (s : Loops T L K) (inLoop : Bool) (l : L) (t : T) : Loops T L K :=
  { s.assertInCurrentThread inLoop l t with
    runner := if inLoop then Function.update s.runner l (some t) else s.runner }

def swapTasks (s : Loops T L K) (l : L) : Loops T L K :=
  { s with
    taskList := Function.update s.taskList l (some (s.asyncTaskList l))
    asyncTaskList := Function.update s.asyncTaskList l [] }

def executeTask (s : Loops T L K) (l : L) (t : T) (task : K) (taskList : List K) : Loops T L K :=
  { s with
    taskList := Function.update s.taskList l (some taskList)
    events := s.events ++ [.executed l task t] }

def endTasks (s : Loops T L K) (l : L) : Loops T L K :=
  { s with taskList := Function.update s.taskList l none }

/-- `loop()` returns, once `m_quit` is seen. -/
def quit (s : Loops T L K) (l : L) : Loops T L K :=
  { s with runner := Function.update s.runner l none }

/-- Nothing is queued; the loops that run already were entered by their owners. -/
def started (threadId : L → T) (running : L → Bool) : Loops T L K where
  runner := fun l => if running l then some (threadId l) else none
  asyncTaskList := fun _ => []
  taskList := fun _ => none
  aborted := false
  events := []

end Loops

/-- The steps of all threads, in any order. A task may post and queue further tasks: these are calls
of the thread that executes it. -/
inductive LoopsStep {T L K : Type} [DecidableEq L] (inLoop : L → T → Bool) :
    Loops T L K → LoopsLabel T L K → Loops T L K → Prop
  | postTask_mt {s : Loops T L K} {l : L} {t : T} {task : K} :
      s.aborted = false →
      LoopsStep inLoop s (.postTask_mt l t task) (s.postTask_mt (inLoop l t) l t task)
  | queueTask {s : Loops T L K} {l : L} {task : K} :
      s.aborted = false → LoopsStep inLoop s (.queueTask l task) (s.queueTask l task)
  | assertInCurrentThread {s : Loops T L K} {l : L} {t : T} :
      s.aborted = false →
      LoopsStep inLoop s (.assertInCurrentThread l t) (s.assertInCurrentThread (inLoop l t) l t)
  | loop {s : Loops T L K} {l : L} {t : T} :
      s.aborted = false → s.runner l = none →
      LoopsStep inLoop s (.loop l t) (s.loop (inLoop l t) l t)
  | swapTasks {s : Loops T L K} {l : L} {t : T} :
      s.aborted = false → s.runner l = some t → s.taskList l = none →
      LoopsStep inLoop s (.swapTasks l) (s.swapTasks l)
  | executeTask {s : Loops T L K} {l : L} {t : T} {task : K} {taskList : List K} :
      s.aborted = false → s.runner l = some t → s.taskList l = some (task :: taskList) →
      LoopsStep inLoop s (.executeTask l) (s.executeTask l t task taskList)
  | endTasks {s : Loops T L K} {l : L} :
      s.aborted = false → s.taskList l = some [] → LoopsStep inLoop s (.endTasks l) (s.endTasks l)
  | quit {s : Loops T L K} {l : L} {t : T} :
      s.aborted = false → s.runner l = some t → s.taskList l = none →
      LoopsStep inLoop s (.quit l) (s.quit l)

/-- Executed on the owner; at once, or passed, exactly on the owner. -/
def LoopEvent.Confined {T L K : Type} (threadId : L → T) : LoopEvent T L K → Prop
  | .executed l _ t => t = threadId l
  | .posted l t synchronously => synchronously = true ↔ t = threadId l
  | .asserted l t passed => passed = true ↔ t = threadId l

def Loops.Confined {T L K : Type} (threadId : L → T) (s : Loops T L K) : Prop :=
  ∀ e ∈ s.events, e.Confined threadId

/-- The test, where the call makes it, tells whether the call is made on the owner. -/
def LoopsLabel.Checked {T L K : Type} (inLoop : L → T → Bool) (threadId : L → T) :
    LoopsLabel T L K → Prop
  | .postTask_mt l t _ => inLoop l t = true ↔ t = threadId l
  | .assertInCurrentThread l t => inLoop l t = true ↔ t = threadId l
  | .loop l t => inLoop l t = true ↔ t = threadId l
  | _ => True

/-- A call that depends on the thread it is made on. -/
def LoopsLabel.asksThread {T L K : Type} : LoopsLabel T L K → Bool
  | .postTask_mt _ _ _ => true
  | .assertInCurrentThread _ _ => true
  | .loop _ _ => true
  | _ => false

namespace Loops

variable {T L K : Type} {threadId : L → T} {s s' : Loops T L K}

theorem runner_started {running : L → Bool} {l : L} {t : T}
    (h : (started threadId running : Loops T L K).runner l = some t) : t = threadId l := by
  simp only [started] at h
  split at h
  · exact (Option.some.inj h).symm
  · exact absurd h.symm (Option.some_ne_none t)

theorem Confined.append {events : List (LoopEvent T L K)} (hs : s.Confined threadId)
    (hevents : s'.events = s.events ++ events) (h : ∀ e ∈ events, e.Confined threadId) :
    s'.Confined threadId := by
  intro e he
  rw [hevents] at he
  rcases List.mem_append.mp he with he | he
  · exact hs e he
  · exact h e he

end Loops

namespace LoopsLabel

variable {T L K : Type} {threadId : L → T}

/-- The test as the code has it is wrong on every thread. -/
theorem checked_iff_not_asksThread [DecidableEq T] {e : LoopsLabel T L K} :
    e.Checked (fun l => isInLoopThread (threadId l)) threadId ↔ e.asksThread = false := by
  have hwrong : ∀ l t, ¬ (isInLoopThread (threadId l) t = true ↔ t = threadId l) := by
    intro l t h
    rw [isInLoopThread, decide_eq_true_iff] at h
    by_cases ht : t = threadId l
    · exact h.mpr ht ht.symm
    · exact ht (h.mp (Ne.symm ht))
  cases e with
  | postTask_mt l t _ => exact iff_of_false (hwrong l t) Bool.noConfusion
  | assertInCurrentThread l t => exact iff_of_false (hwrong l t) Bool.noConfusion
  | loop l t => exact iff_of_false (hwrong l t) Bool.noConfusion
  | _ => exact iff_of_true trivial rfl

end LoopsLabel

namespace LoopsStep

variable {T L K : Type} [DecidableEq L] {inLoop : L → T → Bool} {threadId : L → T}
  {s s' : Loops T L K} {e : LoopsLabel T L K}

theorem events_subset (h : LoopsStep inLoop s e s') : s.events ⊆ s'.events := by
  cases h with
  | @postTask_mt l t _ _ =>
      rw [Loops.postTask_mt]
      split
      · exact List.subset_append_left _ _
      · exact List.subset_append_left _ _
  | queueTask _ => exact List.Subset.refl _
  | assertInCurrentThread _ => exact List.subset_append_left _ _
  | loop _ _ => exact List.subset_append_left _ _
  | swapTasks _ _ _ => exact List.Subset.refl _
  | executeTask _ _ _ => exact List.subset_append_left _ _
  | endTasks _ _ => exact List.Subset.refl _
  | quit _ _ _ => exact List.Subset.refl _

theorem exists_not_confined (h : LoopsStep inLoop s e s') (he : ¬ e.Checked inLoop threadId) :
    ∃ event ∈ s'.events, ¬ event.Confined threadId := by
  cases h with
  | @postTask_mt l t task _ =>
      refine ⟨.posted l t (inLoop l t), ?_, he⟩
      rw [Loops.postTask_mt]
      cases inLoop l t with
      | true => simp
      | false => simp
  | @assertInCurrentThread l t _ =>
      exact ⟨.asserted l t (inLoop l t), List.mem_append_right _ List.mem_cons_self, he⟩
  | @loop l t _ _ =>
      exact ⟨.asserted l t (inLoop l t), List.mem_append_right _ List.mem_cons_self, he⟩
  | _ => exact absurd trivial he

theorem confined (h : LoopsStep inLoop s e s') (he : e.Checked inLoop threadId)
    (hrunner : ∀ l t, s.runner l = some t → t = threadId l) (hs : s.Confined threadId) :
    (∀ l t, s'.runner l = some t → t = threadId l) ∧ s'.Confined threadId := by
  cases h with
  | @postTask_mt l t task _ =>
      simp only [LoopsLabel.Checked] at he
      rw [Loops.postTask_mt]
      cases hin : inLoop l t with
      | true =>
          have howner : t = threadId l := he.mp hin
          refine ⟨hrunner, hs.append rfl ?_⟩
          simp [LoopEvent.Confined, howner]
      | false =>
          rw [hin] at he
          refine ⟨hrunner, hs.append rfl ?_⟩
          simpa [LoopEvent.Confined] using he
  | queueTask _ => exact ⟨hrunner, hs⟩
  | assertInCurrentThread _ =>
      refine ⟨hrunner, hs.append rfl ?_⟩
      intro event hevent
      rw [List.mem_singleton.mp hevent]
      exact he
  | @loop l t _ _ =>
      refine ⟨fun l' t' ht' => ?_, hs.append rfl ?_⟩
      · cases hin : inLoop l t with
        | false =>
            simp only [Loops.loop, hin, Bool.false_eq_true, if_false] at ht'
            exact hrunner l' t' ht'
        | true =>
            simp only [Loops.loop, hin, if_true] at ht'
            by_cases hl : l' = l
            · subst hl
              rw [Function.update_self] at ht'
              rw [← Option.some.inj ht']
              exact he.mp hin
            · rw [Function.update_of_ne hl] at ht'
              exact hrunner l' t' ht'
      · intro event hevent
        rw [List.mem_singleton.mp hevent]
        exact he
  | swapTasks _ _ _ => exact ⟨hrunner, hs⟩
  | @executeTask l t _ _ _ hrun _ =>
      refine ⟨hrunner, hs.append rfl ?_⟩
      intro event hevent
      rw [List.mem_singleton.mp hevent]
      exact hrunner l t hrun
  | endTasks _ _ => exact ⟨hrunner, hs⟩
  | @quit l _ _ _ _ =>
      refine ⟨fun l' t ht => ?_, hs⟩
      by_cases hl : l' = l
      · subst hl
        simp [Loops.quit] at ht
      · simp only [Loops.quit, Function.update_of_ne hl] at ht
        exact hrunner l' t ht

end LoopsStep

namespace Loops

variable {T L K : Type} [DecidableEq L] {inLoop : L → T → Bool} {threadId : L → T}
  {running : L → Bool} {s : Loops T L K} {es : List (LoopsLabel T L K)}

theorem confined_of_checked (h : Run (LoopsStep inLoop) (started threadId running) es s)
    (hes : ∀ e ∈ es, e.Checked inLoop threadId) :
    (∀ l t, s.runner l = some t → t = threadId l) ∧ s.Confined threadId := by
  induction h with
  | nil => exact ⟨fun _ _ => runner_started, fun _ he => absurd he List.not_mem_nil⟩
  | @snoc es s e s' _ hstep ih =>
      have hinit := ih fun l hl => hes l (List.mem_append_left _ hl)
      exact hstep.confined (hes e (by simp)) hinit.1 hinit.2

theorem checked_of_confined (h : Run (LoopsStep inLoop) (started threadId running) es s)
    (hs : s.Confined threadId) : ∀ e ∈ es, e.Checked inLoop threadId := by
  induction h with
  | nil => exact fun _ he => absurd he List.not_mem_nil
  | @snoc es s e s' _ hstep ih =>
      intro l hl
      rcases List.mem_append.mp hl with hl | hl
      · exact ih (fun event hevent => hs event (hstep.events_subset hevent)) l hl
      · rw [List.mem_singleton.mp hl]
        by_contra hwrong
        rcases hstep.exists_not_confined hwrong with ⟨event, hevent, hforeign⟩
        exact hforeign (hs event hevent)

/-- With a correct test the loops are confined to their threads, in every run. -/
theorem confined_of_owner (hinLoop : ∀ l t, inLoop l t = true ↔ t = threadId l)
    (h : Run (LoopsStep inLoop) (started threadId running) es s) : s.Confined threadId := by
  refine (confined_of_checked h fun e _ => ?_).2
  cases e with
  | postTask_mt l t _ => exact hinLoop l t
  | assertInCurrentThread l t => exact hinLoop l t
  | loop l t => exact hinLoop l t
  | _ => trivial

/-- The loops are confined in those runs only in which nobody asks on which thread it is. -/
theorem confined_iff_not_asksThread [DecidableEq T]
    (h : Run (LoopsStep fun l => isInLoopThread (threadId l)) (started threadId running) es s) :
    s.Confined threadId ↔ ∀ e ∈ es, e.asksThread = false := by
  constructor
  · intro hs e he
    exact LoopsLabel.checked_iff_not_asksThread.mp (checked_of_confined h hs e he)
  · intro hes
    exact (confined_of_checked h fun e he => LoopsLabel.checked_iff_not_asksThread.mpr (hes e he)).2

/-- Thread 1 posts a task to the loop of thread 0, and executes it itself. -/
theorem postTask_mt_foreign : ∃ s : Loops Nat Nat Nat,
    Run (LoopsStep fun l => isInLoopThread l) (started id fun _ => false) [.postTask_mt 0 1 10] s ∧
      s.events = [.posted 0 1 true, .executed 0 10 1] ∧ ¬ s.Confined id := by
  refine ⟨_, Run.single (.postTask_mt rfl), rfl, ?_⟩
  intro h
  exact absurd (h (.executed 0 10 1) (by decide)) (by decide : ¬ 1 = id 0)

theorem confined_queued : ∃ s : Loops Nat Nat Nat,
    s.events = [.executed 0 10 0] ∧ (s.Confined id ↔
      ∀ e ∈ ([.queueTask 0 10, .swapTasks 0, .executeTask 0] : List (LoopsLabel Nat Nat Nat)),
        e.asksThread = false) := by
  have hrun : Run (LoopsStep fun l => isInLoopThread (id l))
      (started id fun _ => true : Loops Nat Nat Nat) [.queueTask 0 10, .swapTasks 0, .executeTask 0]
      _ := ((Run.nil.snoc (.queueTask rfl)).snoc (.swapTasks rfl rfl rfl)).snoc
        (.executeTask rfl rfl rfl)
  exact ⟨_, rfl, confined_iff_not_asksThread hrun⟩

end Loops

end LearnMuduo
