import LearnMuduo.Net.Loop.Tasks

/-!
# Quitting an event loop

One call of `EventLoop::loop`, from the construction of the loop on, and calls of `quit_mt`. Each
access to `m_quit` is one step; in between, the loop thread goes through its cycles and other
threads queue tasks.
-/

namespace LearnMuduo

open Framework

/-- Where the thread is that is to run `loop()`. -/
inductive LoopPhase
  | constructed
  /-- other threads can reach the loop -/
  | published
  /-- in `loop()`, before `m_quit = false` -/
  | entered
  /-- before an evaluation of `!m_quit` -/
  | testing
  /-- in the body of the loop -/
  | cycling
  /-- the loop is left, before `m_looping = false` -/
  | leaving
  | returned
  | aborted
  deriving DecidableEq, Repr

/-- `quitting t`: thread `t` is in `quit_mt`, past its store. -/
structure QuitLoop (T K : Type) where
  tasks : LoopTasks T K
  phase : LoopPhase
  looping : Bool
  quit : Bool
  quitting : T → Bool

inductive QuitLabel (T K : Type)
  | publish
  | enter
  | abort
  /-- `m_quit = false` in `loop()` -/
  | clearQuit
  /-- an evaluation of the condition, which finds this value in `m_quit` -/
  | test (found : Bool)
  | task (e : TaskLabel T K)
  | leave
  /-- `m_quit = true` in `quit_mt` -/
  | setQuit (t : T)
  /-- the rest of `quit_mt` -/
  | signal (t : T)
  deriving DecidableEq, Repr

/-- The thread that makes a step of the task queue. -/
def TaskLabel.thread {T K : Type} (threadId : T) : TaskLabel T K → T
  | .push t _ => t
  | .test t => t
  | .setAsyncTaskEvent t => t
  | _ => threadId

/-- The body of the loop ends with `executeAsyncTasks`. -/
def LoopPhase.after {T K : Type} (phase : LoopPhase) : TaskLabel T K → LoopPhase
  | .endTasks => .testing
  | _ => phase

theorem LoopPhase.after_of_thread_ne {T K : Type} {threadId : T} {e : TaskLabel T K}
    (phase : LoopPhase) (h : e.thread threadId ≠ threadId) :
    phase.after e = phase ∧ e ≠ .poll := by
  cases e with
  | push t task => exact ⟨rfl, by simp⟩
  | test t => exact ⟨rfl, by simp⟩
  | setAsyncTaskEvent t => exact ⟨rfl, by simp⟩
  | _ => exact absurd rfl h

namespace QuitLoop

variable {T K : Type}

def constructed : QuitLoop T K where
  tasks := LoopTasks.initial
  phase := .constructed
  looping := false
  quit := false
  quitting := fun _ => false

/-- `assertInCurrentThread()` and `assert(!m_looping)` -/
def mayLoop (s : QuitLoop T K) (inLoop : Bool) : Bool :=
  inLoop && !s.looping

variable [DecidableEq T]

def setQuit (s : QuitLoop T K) (t : T) : QuitLoop T K :=
  { s with quit := true, quitting := Function.update s.quitting t true }

/-- `if(!isInLoopThread()) setAsyncTaskEvent();` -/
def signal (s : QuitLoop T K) (inLoop : Bool) (t : T) : QuitLoop T K :=
  { s with
    tasks := { s.tasks with counter := s.tasks.counter + (!inLoop).toNat }
    quitting := Function.update s.quitting t false }

end QuitLoop

/-- The steps of all threads; `threadId` runs `loop()`. A thread is in one call at a time, and the
loop thread makes its calls from callbacks and tasks. -/
inductive QuitStep {T K : Type} [DecidableEq T] (inLoop : T → Bool) (threadId : T) :
    QuitLoop T K → QuitLabel T K → QuitLoop T K → Prop
  | publish {s : QuitLoop T K} :
      s.phase = .constructed →
      QuitStep inLoop threadId s .publish { s with phase := .published }
  | enter {s : QuitLoop T K} :
      s.phase = .published → s.mayLoop (inLoop threadId) = true →
      QuitStep inLoop threadId s .enter { s with phase := .entered, looping := true }
  | abort {s : QuitLoop T K} :
      s.phase = .published → s.mayLoop (inLoop threadId) = false →
      QuitStep inLoop threadId s .abort { s with phase := .aborted }
  | clearQuit {s : QuitLoop T K} :
      s.phase = .entered →
      QuitStep inLoop threadId s .clearQuit { s with phase := .testing, quit := false }
  | test {s : QuitLoop T K} :
      s.phase = .testing →
      QuitStep inLoop threadId s (.test s.quit)
        { s with phase := if s.quit then .leaving else .cycling }
  | task {s : QuitLoop T K} {e : TaskLabel T K} {tasks : LoopTasks T K} :
      s.phase ≠ .constructed → s.phase ≠ .aborted →
      (e.thread threadId = threadId → s.phase = .cycling) →
      s.quitting (e.thread threadId) = false → TaskStep inLoop threadId s.tasks e tasks →
      QuitStep inLoop threadId s (.task e) { s with tasks := tasks, phase := s.phase.after e }
  | leave {s : QuitLoop T K} :
      s.phase = .leaving →
      QuitStep inLoop threadId s .leave { s with phase := .returned, looping := false }
  | setQuit {s : QuitLoop T K} {t : T} :
      s.phase ≠ .constructed → s.phase ≠ .aborted →
      (t = threadId → s.phase = .cycling ∧ s.tasks.inCallback = true) →
      s.tasks.callers t = .idle → s.quitting t = false →
      QuitStep inLoop threadId s (.setQuit t) (s.setQuit t)
  | signal {s : QuitLoop T K} {t : T} :
      s.phase ≠ .aborted → s.quitting t = true →
      QuitStep inLoop threadId s (.signal t) (s.signal (inLoop t) t)

/-- `m_quit = true` -/
def QuitLabel.requests {T K : Type} : QuitLabel T K → Bool
  | .setQuit _ => true
  | _ => false

/-- After a request no evaluation of the condition finds `m_quit` false, and from an evaluation
that finds it true no poll is entered. -/
structure NeverLost {T K : Type} (es : List (QuitLabel T K)) : Prop where
  found : es.Pairwise fun e e' => e.requests = true → e' ≠ .test false
  noPoll : es.Pairwise fun e e' => e = .test true → e' ≠ .task .poll

namespace QuitLoop

variable {T K : Type}

/-- The store `m_quit = false` finds no request to overwrite. -/
def Harmless (s : QuitLoop T K) : QuitLabel T K → Prop
  | .clearQuit => s.quit = false
  | _ => True

/-- The loop is left for good. -/
def left (s : QuitLoop T K) : Prop :=
  s.phase = .leaving ∨ s.phase = .returned

end QuitLoop

def HarmlessQuit {T K : Type} [DecidableEq T] (inLoop : T → Bool) (threadId : T)
    (s : QuitLoop T K) (e : QuitLabel T K) (s' : QuitLoop T K) : Prop :=
  QuitStep inLoop threadId s e s' ∧ s.Harmless e

namespace QuitLoop

variable {T K : Type} [DecidableEq T] {inLoop : T → Bool} {threadId : T}
  {s s' : QuitLoop T K} {es fs : List (QuitLabel T K)} {e : QuitLabel T K}

theorem quit_step (h : QuitStep inLoop threadId s e s') (hquit : s'.quit = true) :
    s.quit = true ∨ e.requests = true := by
  cases h with
  | clearQuit _ => exact absurd hquit Bool.false_ne_true
  | setQuit _ _ _ _ _ => exact Or.inr rfl
  | _ => exact Or.inl hquit

/-- Only the store in `loop()` clears it. -/
theorem quit_harmless (h : HarmlessQuit inLoop threadId s e s')
    (hquit : s.quit = true ∨ e.requests = true) : s'.quit = true := by
  rcases h with ⟨hstep, hharmless⟩
  cases hstep with
  | clearQuit _ =>
      rw [show s.quit = false from hharmless] at hquit
      simp [QuitLabel.requests] at hquit
  | setQuit _ _ _ _ _ => rfl
  | _ => simpa [QuitLabel.requests, signal] using hquit

theorem requests_of_quit (h : Run (QuitStep inLoop threadId) constructed es s)
    (hquit : s.quit = true) : ∃ e ∈ es, e.requests = true := by
  induction h with
  | nil => exact absurd hquit Bool.false_ne_true
  | @snoc es t e u _ hstep ih =>
      rcases quit_step hstep hquit with hbefore | hrequest
      · rcases ih hbefore with ⟨e', he', hrequest⟩
        exact ⟨e', List.mem_append_left _ he', hrequest⟩
      · exact ⟨e, by simp, hrequest⟩

/-- `loop()` has made its store. -/
def cleared (s : QuitLoop T K) : Prop :=
  s.phase = .testing ∨ s.phase = .cycling ∨ s.left

omit [DecidableEq T] in
theorem phase_ne_of_cleared (hs : s.cleared) :
    s.phase ≠ .constructed ∧ s.phase ≠ .published ∧ s.phase ≠ .entered := by
  rcases hs with hphase | hphase | hphase | hphase
  · simp [hphase]
  · simp [hphase]
  · simp [hphase]
  · simp [hphase]

omit [DecidableEq T] in
theorem phase_ne_of_left (hs : s.left) : s.phase ≠ .testing ∧ s.phase ≠ .cycling := by
  rcases hs with hphase | hphase
  · simp [hphase]
  · simp [hphase]

theorem left_step (h : QuitStep inLoop threadId s e s') (hs : s.left) :
    s'.left ∧ e ≠ .task .poll := by
  have hpast := phase_ne_of_cleared (Or.inr (Or.inr hs))
  have hout := phase_ne_of_left hs
  cases h with
  | publish h => exact absurd h hpast.1
  | enter h _ => exact absurd h hpast.2.1
  | abort h _ => exact absurd h hpast.2.1
  | clearQuit h => exact absurd h hpast.2.2
  | test h => exact absurd h hout.1
  | @task e _ _ _ hcycling _ _ =>
      have hthread : e.thread threadId ≠ threadId := by
        intro hthread
        exact hout.2 (hcycling hthread)
      rcases LoopPhase.after_of_thread_ne s.phase hthread with ⟨hafter, hpoll⟩
      refine ⟨?_, fun heq => hpoll (QuitLabel.task.inj heq)⟩
      simpa only [left, hafter] using hs
  | leave _ => exact ⟨Or.inr rfl, by simp⟩
  | setQuit _ _ _ _ _ => exact ⟨hs, by simp⟩
  | signal _ _ => exact ⟨hs, by simp⟩

theorem left_of_test_true (h : QuitStep inLoop threadId s (.test true) s') : s'.left := by
  generalize he : QuitLabel.test true = e at h
  cases h with
  | test _ =>
      rw [← QuitLabel.test.inj he]
      exact Or.inl rfl
  | _ => cases he

theorem quit_of_test {found : Bool} (h : QuitStep inLoop threadId s (.test found) s') :
    s.quit = found := by
  cases h with
  | test _ => rfl

/-- What a run of harmless steps has established. -/
structure Answered (es : List (QuitLabel T K)) (s : QuitLoop T K) : Prop where
  neverLost : NeverLost es
  quit : (∃ e ∈ es, e.requests = true) → s.quit = true
  left : .test true ∈ es → s.left

theorem Answered.snoc (hs : Answered es s) (h : HarmlessQuit inLoop threadId s e s') :
    Answered (es ++ [e]) s' := by
  refine ⟨⟨?_, ?_⟩, ?_, ?_⟩
  · refine List.pairwise_append.mpr ⟨hs.neverLost.found, List.pairwise_singleton _ _, ?_⟩
    intro before hbefore last hlast hrequest hfound
    rw [List.mem_singleton.mp hlast] at hfound
    subst hfound
    have hquit := hs.quit ⟨before, hbefore, hrequest⟩
    rw [quit_of_test h.1] at hquit
    exact Bool.false_ne_true hquit
  · refine List.pairwise_append.mpr ⟨hs.neverLost.noPoll, List.pairwise_singleton _ _, ?_⟩
    intro before hbefore last hlast htest
    rw [List.mem_singleton.mp hlast]
    rw [htest] at hbefore
    exact (left_step h.1 (hs.left hbefore)).2
  · rintro ⟨request, hmem, hrequest⟩
    apply quit_harmless h
    rcases List.mem_append.mp hmem with hbefore | hlast
    · exact Or.inl (hs.quit ⟨request, hbefore, hrequest⟩)
    · rw [List.mem_singleton.mp hlast] at hrequest
      exact Or.inr hrequest
  · intro htest
    rcases List.mem_append.mp htest with hbefore | hlast
    · exact (left_step h.1 (hs.left hbefore)).1
    · rw [← List.mem_singleton.mp hlast] at h
      exact left_of_test_true h.1

theorem answered_of_run (h : Run (HarmlessQuit inLoop threadId) constructed es s) :
    Answered es s := by
  induction h with
  | nil =>
      refine ⟨⟨List.Pairwise.nil, List.Pairwise.nil⟩, ?_, ?_⟩
      · simp
      · simp
  | snoc _ hstep ih => exact ih.snoc hstep

theorem cleared_step (hs : s.cleared) (h : QuitStep inLoop threadId s e s') :
    s'.cleared ∧ s.Harmless e := by
  have hpast := phase_ne_of_cleared hs
  cases h with
  | publish h => exact absurd h hpast.1
  | enter h _ => exact absurd h hpast.2.1
  | abort h _ => exact absurd h hpast.2.1
  | clearQuit h => exact absurd h hpast.2.2
  | test _ =>
      refine ⟨?_, trivial⟩
      by_cases hquit : s.quit = true
      · simp [cleared, left, hquit]
      · simp [cleared, hquit]
  | @task e _ _ _ _ _ _ =>
      refine ⟨?_, trivial⟩
      cases e with
      | endTasks => exact Or.inl rfl
      | _ => exact hs
  | leave _ => exact ⟨Or.inr (Or.inr (Or.inr rfl)), trivial⟩
  | setQuit _ _ _ _ _ => exact ⟨hs, trivial⟩
  | signal _ _ => exact ⟨hs, trivial⟩

theorem harmless_of_cleared (hs : s.cleared) (h : Run (QuitStep inLoop threadId) s es s') :
    Run (HarmlessQuit inLoop threadId) s es s' :=
  h.mono_invariant (I := cleared)
    (fun _ _ _ hs hstep => (cleared_step hs hstep).1)
    (fun _ _ _ hs hstep => ⟨hstep, (cleared_step hs hstep).2⟩) hs

theorem clearQuit_eq (h : QuitStep inLoop threadId s .clearQuit s') :
    s' = { s with phase := .testing, quit := false } := by
  cases h with
  | clearQuit _ => rfl

/-- In a run whose store `m_quit = false` comes before all requests none is lost. Such a store is
one that finds `m_quit` false: after any other the next evaluation of the condition finds `m_quit`
false again. -/
theorem neverLost_iff_harmless (h : Run (HarmlessQuit inLoop threadId) constructed es s) :
    NeverLost es ∧ ∀ s', QuitStep inLoop threadId s .clearQuit s' →
      (s.quit = false ↔ ∀ fs u, Run (QuitStep inLoop threadId) s' fs u →
        NeverLost (es ++ .clearQuit :: fs)) := by
  refine ⟨(answered_of_run h).neverLost, fun s' hclear => ⟨?_, ?_⟩⟩
  · intro hquit fs u hrun
    have hcleared : s'.cleared := by
      rw [clearQuit_eq hclear]
      exact Or.inl rfl
    have hharmless : HarmlessQuit inLoop threadId s .clearQuit s' := ⟨hclear, hquit⟩
    have hall := (h.snoc hharmless).append (harmless_of_cleared hcleared hrun)
    rw [List.append_assoc] at hall
    exact (answered_of_run hall).neverLost
  · intro hnever
    by_contra hquit
    rw [clearQuit_eq hclear] at hnever
    have htest : QuitStep inLoop threadId { s with phase := .testing, quit := false }
        (.test false) { s with phase := .cycling, quit := false } := QuitStep.test rfl
    rcases requests_of_quit (h.mono fun _ _ _ hstep => hstep.1) (by simpa using hquit) with
      ⟨request, hmem, hrequest⟩
    have hfound := (hnever _ _ (Run.single htest)).found
    exact (List.pairwise_append.mp hfound).2.2 request hmem (.test false) (by simp) hrequest rfl

/-- The loop that thread 0 made is run by thread 1, and thread 2 quits it before. -/
def earlyQuit : List (QuitLabel Nat Nat) :=
  [.publish, .setQuit 2, .signal 2, .enter, .clearQuit, .test false, .task .poll]

theorem lost_earlyQuit : ∃ s : QuitLoop Nat Nat,
    Run (QuitStep (isInLoopThread 0) 1) constructed earlyQuit s ∧ ¬ NeverLost earlyQuit := by
  have hset : QuitStep (isInLoopThread 0) 1 ({ constructed with phase := .published } :
      QuitLoop Nat Nat) (.setQuit 2) _ := .setQuit (by decide) (by decide) (by decide) rfl rfl
  refine ⟨_, ((((((Run.nil.snoc (.publish rfl)).snoc hset).snoc (.signal (by decide) rfl)).snoc
    (.enter rfl rfl)).snoc (.clearQuit rfl)).snoc (.test rfl)).snoc
    (.task (by decide) (by decide) (fun _ => rfl) rfl (.poll rfl)), ?_⟩
  intro hnever
  simpa [earlyQuit, QuitLabel.requests] using hnever.found

theorem entered_run : ∃ s : QuitLoop Nat Nat,
    Run (HarmlessQuit (isInLoopThread 0) 1) constructed [.publish, .enter] s ∧
      s.phase = .entered :=
  ⟨_, (Run.nil.snoc ⟨.publish rfl, trivial⟩).snoc ⟨.enter rfl rfl, trivial⟩, rfl⟩

theorem neverLost_iff_harmless_entered : ∃ s : QuitLoop Nat Nat,
    s.phase = .entered ∧ NeverLost [QuitLabel.publish (T := Nat) (K := Nat), .enter] ∧
      ∀ s', QuitStep (isInLoopThread 0) 1 s .clearQuit s' →
        (s.quit = false ↔ ∀ fs u, Run (QuitStep (isInLoopThread 0) 1) s' fs u →
          NeverLost ([.publish, .enter] ++ .clearQuit :: fs)) := by
  rcases entered_run with ⟨s, hrun, hphase⟩
  exact ⟨s, hphase, neverLost_iff_harmless hrun⟩

end QuitLoop

end LearnMuduo
