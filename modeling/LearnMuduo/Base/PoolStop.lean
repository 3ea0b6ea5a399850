import LearnMuduo.Base.ThreadPool

/-!
# Stopping the thread pool

`stop` wakes the workers up and joins them; who waits in `run` for a free slot is not told. Whether
such a caller is left behind depends on how many calls of `run` there are and how many tasks the
workers have taken.
-/

namespace LearnMuduo

open Framework

namespace ThreadPool

variable {n : Nat} {T K : Type}

/-- When `stop` has returned no call of `run` is asleep. -/
def Released (s : ThreadPool n T K) : Prop :=
  s.stopping = .returned → s.notFull.waiting = ∅

/-- There is room in the queue for all calls of `run` so far. -/
def HasRoom (s : ThreadPool n T K) : Prop :=
  s.calls ≤ s.taken.length + s.maxQueueSize

/-- `stop` returns when there is room for all calls of `run`, and so it is with each later call. -/
def Roomy (s : ThreadPool n T K) : PoolLabel n T K → Prop
  | .join => s.HasRoom
  | .call _ _ => s.stopping = .returned → s.calls < s.taken.length + s.maxQueueSize
  | _ => True

end ThreadPool

def RoomyPoolStep {n : Nat} {T K : Type} [DecidableEq T] (callable : K → Bool)
    (s : ThreadPool n T K) (e : PoolLabel n T K) (s' : ThreadPool n T K) : Prop :=
  PoolStep callable s e s' ∧ s.Roomy e

/-- A step that is no new call of `run`. -/
def QuietPoolStep {n : Nat} {T K : Type} [DecidableEq T] (callable : K → Bool)
    (s : ThreadPool n T K) (e : PoolLabel n T K) (s' : ThreadPool n T K) : Prop :=
  PoolStep callable s e s' ∧ ∀ t task, e ≠ .call t task

namespace ThreadPool

variable {n : Nat} {T K : Type} [DecidableEq T] {callable : K → Bool}
  {s s' : ThreadPool n T K} {e : PoolLabel n T K} {es : List (PoolLabel n T K)}
  {callers : Finset (Fin n ⊕ T)}

/-- The threads that are in `run`: each call has put its task into the queue or is one of them. -/
structure InRun (s : ThreadPool n T K) (callers : Finset (Fin n ⊕ T)) : Prop where
  mem : ∀ t, t ∈ callers ↔ s.callers t ≠ none
  calls : s.calls = s.entered.length + callers.card
  threads : s.notFull.threads ⊆ callers

theorem InRun.congr (hs : s.InRun callers) (hcallers : s'.callers = s.callers)
    (hcalls : s'.calls = s.calls) (hentered : s'.entered = s.entered)
    (hthreads : s'.notFull.threads ⊆ s.notFull.threads) : s'.InRun callers := by
  refine ⟨fun t => ?_, ?_, hthreads.trans hs.threads⟩
  · rw [hcallers]
    exact hs.mem t
  · rw [hcalls, hentered]
    exact hs.calls

theorem InRun.take (hs : s.InRun callers) (w : Fin n) {picked : Option (Fin n ⊕ T)}
    (hpicked : s.notFull.Picks picked) : (s.take w picked).InRun callers := by
  have hthreads : (s.take w picked).notFull.threads ⊆ s.notFull.threads := by
    simp only [ThreadPool.take]
    split
    · split
      · exact Finset.Subset.refl _
      · exact Finset.Subset.refl _
    · show (ite _ _ _ : CondVar (Fin n ⊕ T)).threads ⊆ s.notFull.threads
      split
      · exact CondVar.threads_notifyOne hpicked
      · exact Finset.Subset.refl _
  exact hs.congr (by simp) (by simp) (by simp) hthreads

theorem InRun.call (hs : s.InRun callers) {t : Fin n ⊕ T} {task : K}
    (ht : s.callers t = none) : (s.call t task).InRun (insert t callers) := by
  have hnotMem : t ∉ callers := by
    rw [hs.mem]
    exact not_not.mpr ht
  refine ⟨fun u => ?_, ?_, hs.threads.trans (Finset.subset_insert _ _)⟩
  · by_cases hu : u = t
    · simp [ThreadPool.call, hu]
    · simp [ThreadPool.call, hu, hs.mem]
  · rw [Finset.card_insert_of_notMem hnotMem]
    show s.calls + 1 = s.entered.length + (callers.card + 1)
    rw [hs.calls, Nat.add_assoc]

theorem InRun.run (hs : s.InRun callers) {t : Fin n ⊕ T} {task : K} {picked : Option (Fin n)}
    (ht : s.callers t = some task) (hawake : t ∉ s.notFull.waiting) :
    (s.run t task picked).InRun (if s.isFull then callers else callers.erase t) := by
  have hmem : t ∈ callers := by
    rw [hs.mem, ht]
    exact Option.some_ne_none task
  cases hfull : s.isFull with
  | true =>
      rw [run_waits hfull]
      refine ⟨hs.mem, hs.calls, (CondVar.threads_wait _ t).trans ?_⟩
      exact Finset.insert_subset hmem hs.threads
  | false =>
      rw [run_pushes hfull]
      refine ⟨fun u => ?_, ?_, ?_⟩
      · by_cases hu : u = t
        · simp [hu]
        · simp [hu, hs.mem]
      · have hcard := Finset.card_erase_add_one hmem
        simp only [hs.calls, List.length_append, List.length_singleton]
        simp only [Bool.false_eq_true, if_false]
        omega
      · exact (CondVar.threads_leave hawake).trans (Finset.erase_subset_erase t hs.threads)

theorem InRun.step (hs : s.InRun callers) (h : PoolStep callable s e s') :
    ∃ callers', s'.InRun callers' := by
  cases h with
  | take _ _ hpicked => exact ⟨_, hs.take _ hpicked⟩
  | call _ ht _ => exact ⟨_, hs.call ht⟩
  | run ht hawake _ => exact ⟨_, hs.run ht hawake⟩
  | wakeCaller _ => exact ⟨_, hs.congr rfl rfl rfl (CondVar.threads_wake _ _)⟩
  | _ => exact ⟨_, hs.congr rfl rfl rfl (Finset.Subset.refl _)⟩

/-- What holds in every run. -/
structure Counted (s : ThreadPool n T K) : Prop where
  handsOver : s.HandsOver
  inRun : ∃ callers, s.InRun callers

theorem Counted.step (hs : s.Counted) (h : PoolStep callable s e s') : s'.Counted := by
  rcases hs.inRun with ⟨callers, hcallers⟩
  exact ⟨hs.handsOver.step h, hcallers.step h⟩

theorem counted_started (maxQueueSize : Nat) :
    (started maxQueueSize : ThreadPool n T K).Counted := by
  refine ⟨handsOver_started maxQueueSize, ∅, ?_, rfl, Finset.Subset.refl _⟩
  simp [started]

/-- No call sleeps when there is room for all: a sleeping one has been notified for each free
slot. -/
theorem Counted.waiting_eq_empty (hs : s.Counted) (hroom : s.HasRoom) :
    s.notFull.waiting = ∅ := by
  rcases hs.inRun with ⟨callers, hcallers⟩
  by_contra hne
  have hwaiting : s.notFull.waiting.Nonempty := Finset.nonempty_iff_ne_empty.mpr hne
  have hcovered := hs.handsOver.callers hwaiting
  have hthreads := Finset.card_le_card hcallers.threads
  have hcalls := hcallers.calls
  have hpositive := hwaiting.card_pos
  rw [CondVar.card_threads] at hthreads
  rw [hs.handsOver.order, List.length_append] at hcalls
  rw [HasRoom] at hroom
  omega

theorem taken_take_length (s : ThreadPool n T K) (w : Fin n) (picked : Option (Fin n ⊕ T)) :
    s.taken.length ≤ (s.take w picked).taken.length := by
  cases hqueue : s.taskQueue with
  | nil =>
      cases hrunning : s.running with
      | true => simp [take_waits hqueue hrunning]
      | false => simp [take_nothing hqueue hrunning, moveWorker]
  | cons task rest => simp [take_task hqueue]

theorem hasRoom_of_quiet (h : QuietPoolStep callable s e s') (hs : s.HasRoom) : s'.HasRoom := by
  rcases h with ⟨hstep, hquiet⟩
  cases hstep with
  | @take w picked _ _ _ =>
      have hlength := taken_take_length s w picked
      simp only [HasRoom, take_frame] at hs ⊢
      omega
  | call _ _ _ => exact absurd rfl (hquiet _ _)
  | run _ _ _ => simpa only [HasRoom, run_frame] using hs
  | _ => exact hs

theorem stopping_of_step (h : PoolStep callable s e s') (he : e ≠ .join)
    (hreturned : s'.stopping = .returned) : s.stopping = .returned := by
  cases h with
  | take _ _ _ => simpa using hreturned
  | run _ _ _ => simpa using hreturned
  | stop _ => cases hreturned
  | join _ _ => exact absurd rfl he
  | _ => exact hreturned

theorem roomy_iff (h : PoolStep callable s e s') (hs : s.stopping = .returned → s.HasRoom)
    (hreturned : s'.stopping = .returned) : s.Roomy e ↔ s'.HasRoom := by
  cases e with
  | join =>
      cases h with
      | join _ _ => exact Iff.rfl
  | call t task =>
      cases h with
      | call _ _ _ => exact ⟨fun hroomy => hroomy hreturned, fun hroom _ => hroom⟩
  | _ =>
      have hbefore : s.stopping = .returned := stopping_of_step h (by simp) hreturned
      exact iff_of_true trivial (hasRoom_of_quiet ⟨h, by simp⟩ (hs hbefore))

theorem exists_run_step (callable : K → Bool) (hs : s.Counted) (hmax : 0 < s.maxQueueSize)
    (hroom : ¬ s.HasRoom) (hasleep : s.notFull.waiting = ∅) :
    ∃ t task picked, QuietPoolStep callable s (.run t) (s.run t task picked) ∧
      ((s.run t task picked).notFull.waiting.Nonempty ∨
        (s.run t task picked).taskQueue.length = s.taskQueue.length + 1) := by
  rcases hs.inRun with ⟨callers, hcallers⟩
  have hsome : callers.Nonempty := by
    have hcalls := hcallers.calls
    have hbounded := hs.handsOver.bounded hmax
    rw [hs.handsOver.order, List.length_append] at hcalls
    rw [HasRoom] at hroom
    apply Finset.card_pos.mp
    omega
  rcases hsome with ⟨t, ht⟩
  rcases Option.ne_none_iff_exists'.mp ((hcallers.mem t).mp ht) with ⟨task, htask⟩
  rcases s.notEmpty.exists_picks with ⟨picked, hpicked⟩
  have hawake : t ∉ s.notFull.waiting := by
    simp [hasleep]
  refine ⟨t, task, picked, ⟨PoolStep.run htask hawake hpicked, by simp⟩, ?_⟩
  cases hfull : s.isFull with
  | true =>
      rw [run_waits hfull]
      exact Or.inl ⟨t, Finset.mem_insert_self _ _⟩
  | false =>
      rw [run_pushes hfull]
      exact Or.inr (by simp)

/-- Then the queue fills up and a caller waits, by induction on the free slots. -/
theorem exists_waiting (callable : K → Bool) (k : Nat) : ∀ s : ThreadPool n T K, s.Counted →
    0 < s.maxQueueSize → ¬ s.HasRoom → s.maxQueueSize - s.taskQueue.length = k →
    ∃ fs u, Run (QuietPoolStep callable) s fs u ∧ u.stopping = s.stopping ∧
      u.notFull.waiting.Nonempty := by
  induction k using Nat.strong_induction_on with
  | _ k ih =>
      intro s hs hmax hroom hk
      rcases s.notFull.waiting.eq_empty_or_nonempty with hasleep | hwaiting
      · rcases exists_run_step callable hs hmax hroom hasleep with
          ⟨t, task, picked, hstep, hwaiting | hpushed⟩
        · exact ⟨_, _, Run.single hstep, by simp, hwaiting⟩
        · have hmax' : 0 < (s.run t task picked).maxQueueSize := by simpa using hmax
          have hroom' : ¬ (s.run t task picked).HasRoom := by
            simpa only [HasRoom, run_frame] using hroom
          have hbounded := (hs.step hstep.1).handsOver.bounded hmax'
          simp only [run_frame, hpushed] at hbounded
          rcases ih (k - 1) (by omega) _ (hs.step hstep.1) hmax' hroom'
            (by simp only [run_frame, hpushed]; omega) with ⟨fs, u, hrun, hstopping, hwaiting⟩
          refine ⟨_, u, (Run.single hstep).append hrun, ?_, hwaiting⟩
          simpa using hstopping
      · exact ⟨[], s, Run.nil, rfl, hwaiting⟩

theorem hasRoom_of_run {maxQueueSize : Nat}
    (h : Run (RoomyPoolStep callable) (started maxQueueSize : ThreadPool n T K) es s) :
    s.Counted ∧ s.maxQueueSize = maxQueueSize ∧ (s.stopping = .returned → s.HasRoom) := by
  induction h with
  | nil => exact ⟨counted_started maxQueueSize, rfl, fun hreturned => by cases hreturned⟩
  | snoc _ hstep ih =>
      refine ⟨ih.1.step hstep.1, (maxQueueSize_step hstep.1).trans ih.2.1, fun hreturned => ?_⟩
      exact (roomy_iff hstep.1 ih.2.2 hreturned).mp hstep.2

/-- In every run in which `stop` returns with room for all calls of `run`, and each later call finds
room, no call is left behind. There is no other way: after any other return of `stop`, and any other
later call, the calls in progress can go on until one of them is asleep. -/
theorem released_iff_roomy {maxQueueSize : Nat} (hmax : 0 < maxQueueSize)
    (h : Run (RoomyPoolStep callable) (started maxQueueSize : ThreadPool n T K) es s) :
    s.Released ∧ ∀ e s', PoolStep callable s e s' → s'.stopping = .returned →
      (s.Roomy e ↔ ∀ fs u, Run (QuietPoolStep callable) s' fs u → u.Released) := by
  rcases hasRoom_of_run h with ⟨hs, hsize, hroom⟩
  refine ⟨fun hreturned => hs.waiting_eq_empty (hroom hreturned), fun e s' hstep hreturned => ?_⟩
  rw [roomy_iff hstep hroom hreturned]
  have hs' := hs.step hstep
  constructor
  · intro hroom' fs u hrun _
    have hu : u.Counted ∧ u.HasRoom :=
      hrun.invariant (I := fun v => v.Counted ∧ v.HasRoom)
        (fun _ _ _ hv hquiet => ⟨hv.1.step hquiet.1, hasRoom_of_quiet hquiet hv.2⟩) ⟨hs', hroom'⟩
    exact hu.1.waiting_eq_empty hu.2
  · intro hnever
    by_contra hroom'
    have hmax' : 0 < s'.maxQueueSize := by
      rw [maxQueueSize_step hstep, hsize]
      exact hmax
    rcases exists_waiting callable _ s' hs' hmax' hroom' rfl with
      ⟨fs, u, hrun, hstopping, hwaiting⟩
    exact hwaiting.ne_empty (hnever fs u hrun (hstopping.trans hreturned))

/-- A queue of one task and one worker, which finds `m_running` false at its first test: the second
caller is left behind. -/
def leftBehind : List (PoolLabel 1 Nat Nat) :=
  [.init (Fin.last 0), .call (.inr 0) 5, .run (.inr 0), .call (.inr 1) 6, .run (.inr 1), .stop,
    .test (Fin.last 0), .join]

theorem not_released_leftBehind : ∃ s : ThreadPool 1 Nat Nat,
    Run (PoolStep fun _ => true) (started 1) leftBehind s ∧ s.stopping = .returned ∧
      s.notFull.waiting = {.inr 1} ∧ ¬ s.Released := by
  have hnone : ∀ c : CondVar (Fin 1), c.waiting = ∅ → c.Picks none := fun _ h => h
  have hexited : ∀ s : ThreadPool 1 Nat Nat, s.workers 0 = .exited →
      ∀ w, s.workers w = .exited := by
    intro s h w
    rw [Subsingleton.elim w 0]
    exact h
  refine ⟨_, (((((((Run.nil.snoc (.init rfl rfl)).snoc (.call (by decide) rfl trivial)).snoc
    (.run rfl (by decide) (hnone _ rfl))).snoc (.call (by decide) rfl trivial)).snoc
    (.run rfl (by decide) (hnone _ rfl))).snoc (.stop rfl)).snoc (.test rfl)).snoc
    (.join rfl (hexited _ rfl)), rfl, rfl, ?_⟩
  intro hreleased
  have hempty := hreleased rfl
  exact absurd hempty (by decide)

/-- The same queue, drained before `stop`: the second caller sleeps until the worker takes the
first task. -/
def drained : List (PoolLabel 1 Nat Nat) :=
  let w := Fin.last 0
  [.init w, .call (.inr 0) 5, .run (.inr 0), .call (.inr 1) 6, .run (.inr 1), .test w, .take w,
    .run (.inr 1), .execute w, .finish w, .test w, .take w, .execute w, .finish w, .stop, .test w,
    .join]

theorem drained_run : ∃ s : ThreadPool 1 Nat Nat,
    Run (RoomyPoolStep fun _ => true) (started 1) drained s ∧ s.stopping = .returned ∧
      s.executed = [0, 1] := by
  have hnone : ∀ c : CondVar (Fin 1), c.waiting = ∅ → c.Picks none := fun _ h => h
  have hexited : ∀ s : ThreadPool 1 Nat Nat, s.workers 0 = .exited →
      ∀ w, s.workers w = .exited := by
    intro s h w
    rw [Subsingleton.elim w 0]
    exact h
  -- the second caller is asleep
  let s₁ : ThreadPool 1 Nat Nat :=
    (((((started 1).moveWorker 0 .testing).call (.inr 0) 5).run (.inr 0) 5 none).call (.inr 1)
      6).run (.inr 1) 6 none
  -- woken by the first `take`, it has put its task into the queue
  let s₂ := ((s₁.moveWorker 0 .taking).take 0 (some (.inr 1))).run (.inr 1) 6 none
  let s₃ := (((s₂.execute 0 0).moveWorker 0 .testing).moveWorker 0 .taking).take 0 none
  have hfull : Run (RoomyPoolStep fun _ => true) (started 1) (drained.take 5) s₁ :=
    ((((Run.nil.snoc ⟨.init rfl rfl, trivial⟩).snoc
      ⟨.call (by decide) rfl trivial, fun h => by cases h⟩).snoc
      ⟨.run rfl (by decide) (hnone _ rfl), trivial⟩).snoc
      ⟨.call (by decide) rfl trivial, fun h => by cases h⟩).snoc
      ⟨.run rfl (by decide) (hnone _ rfl), trivial⟩
  have hwoken : Run (RoomyPoolStep fun _ => true) (started 1) (drained.take 8) s₂ :=
    ((hfull.snoc ⟨.test rfl, trivial⟩).snoc
      ⟨.take rfl (by decide) (by decide), trivial⟩).snoc
      ⟨.run rfl (by decide) (hnone _ rfl), trivial⟩
  have htaken : Run (RoomyPoolStep fun _ => true) (started 1) (drained.take 12) s₃ :=
    (((hwoken.snoc ⟨.execute rfl rfl, trivial⟩).snoc ⟨.finish rfl rfl, trivial⟩).snoc
      ⟨.test rfl, trivial⟩).snoc ⟨.take rfl (by decide) (by decide), trivial⟩
  exact ⟨_, ((((htaken.snoc ⟨.execute rfl rfl, trivial⟩).snoc
    ⟨.finish rfl rfl, trivial⟩).snoc ⟨.stop rfl, trivial⟩).snoc
    ⟨.test rfl, trivial⟩).snoc ⟨.join rfl (hexited _ rfl), by exact Nat.le_succ 2⟩, rfl, rfl⟩

theorem released_iff_roomy_drained : ∃ s : ThreadPool 1 Nat Nat,
    s.stopping = .returned ∧ s.executed = [0, 1] ∧ s.Released ∧
      ∀ e s', PoolStep (fun _ => true) s e s' → s'.stopping = .returned →
        (s.Roomy e ↔ ∀ fs u, Run (QuietPoolStep fun _ => true) s' fs u → u.Released) := by
  rcases drained_run with ⟨s, hrun, hstopping, hexecuted⟩
  exact ⟨s, hstopping, hexecuted, released_iff_roomy (by decide) hrun⟩

end ThreadPool

end LearnMuduo
