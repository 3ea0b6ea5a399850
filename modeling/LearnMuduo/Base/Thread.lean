import LearnMuduo.Base.CountdownLatch

/-!
# Threads

A `Thread` object, its owner and the thread that it starts. `start` returns when the new thread has
stored its id and counted the latch down. The new thread uses the object until its function
returns, and its handle is given back by `join` or by the destructor.
-/

namespace LearnMuduo

open Framework

inductive ThreadSide
  | owner
  | runner
  deriving DecidableEq, Repr

/-- Where the owner is. -/
inductive OwnerStage
  | outside
  /-- `start`, before `pthread_create` -/
  | creating
  /-- `m_latch.wait()` -/
  | latching
  /-- `assert(m_tid > 0)` -/
  | checking
  /-- `pthread_join` -/
  | joining
  /-- the object is destroyed -/
  | gone
  deriving DecidableEq, Repr

/-- Where `run` is. -/
inductive RunnerStage
  | absent
  /-- before `m_tid` is stored -/
  | starting
  /-- `m_latch.countDown()` -/
  | counting
  /-- `m_func()` -/
  | executing
  | finished
  deriving DecidableEq, Repr

/-- `released` counts the calls of `pthread_join` that returned and those of `pthread_detach`. -/
structure Thread where
  started : Bool
  joined : Bool
  tid : Int
  latch : CountdownLatch ThreadSide
  owner : OwnerStage
  runner : RunnerStage
  released : Nat

inductive ThreadLabel
  | start
  | created
  | createFailed
  | latchWait
  | latchWake
  | check
  | join
  | joined
  | destruct
  | storeTid (tid : Int)
  | countDown
  | finish
  deriving DecidableEq, Repr

namespace Thread

def create : Thread where
  started := false
  joined := false
  tid := 0
  latch := CountdownLatch.create 1
  owner := .outside
  runner := .absent
  released := 0

end Thread

/-- The owner keeps to what `start` and `join` assert of its calls, and `getTid` is positive. -/
inductive ThreadStep : Thread → ThreadLabel → Thread → Prop
  | start {s : Thread} :
      s.owner = .outside → s.started = false →
      ThreadStep s .start { s with owner := .creating, started := true }
  | created {s : Thread} {latch : CountdownLatch ThreadSide} :
      s.owner = .creating → LatchStep s.latch (.call .owner .wait) latch →
      ThreadStep s .created { s with owner := .latching, runner := .starting, latch := latch }
  | createFailed {s : Thread} :
      s.owner = .creating →
      ThreadStep s .createFailed { s with owner := .outside, started := false }
  | latchWait {s : Thread} {latch : CountdownLatch ThreadSide} :
      s.owner = .latching → LatchStep s.latch (.wait .owner) latch →
      ThreadStep s .latchWait
        { s with
          latch := latch
          owner := if latch.calls .owner = none then .checking else .latching }
  | latchWake {s : Thread} {latch : CountdownLatch ThreadSide} :
      LatchStep s.latch (.wake .owner) latch → ThreadStep s .latchWake { s with latch := latch }
  | check {s : Thread} :
      s.owner = .checking → ThreadStep s .check { s with owner := .outside }
  | join {s : Thread} :
      s.owner = .outside → s.started = true → s.joined = false →
      ThreadStep s .join { s with owner := .joining, joined := true }
  | joined {s : Thread} :
      s.owner = .joining → s.runner = .finished →
      ThreadStep s .joined { s with owner := .outside, released := s.released + 1 }
  | destruct {s : Thread} :
      s.owner = .outside →
      ThreadStep s .destruct
        { s with
          owner := .gone
          released := if s.started ∧ ¬ s.joined then s.released + 1 else s.released }
  | storeTid {s : Thread} {tid : Int} {latch : CountdownLatch ThreadSide} :
      s.runner = .starting → 0 < tid → LatchStep s.latch (.call .runner .countDown) latch →
      ThreadStep s (.storeTid tid) { s with tid := tid, runner := .counting, latch := latch }
  | countDown {s : Thread} {latch : CountdownLatch ThreadSide} :
      s.runner = .counting → LatchStep s.latch (.countDown .runner) latch →
      ThreadStep s .countDown { s with runner := .executing, latch := latch }
  | finish {s : Thread} :
      s.runner = .executing → ThreadStep s .finish { s with runner := .finished }

/-- `run` is past the latch. -/
def RunnerStage.Counted (stage : RunnerStage) : Prop :=
  stage = .executing ∨ stage = .finished

instance (stage : RunnerStage) : Decidable stage.Counted :=
  inferInstanceAs (Decidable (_ ∨ _))

namespace Thread

variable {s s' : Thread} {e : ThreadLabel} {es : List ThreadLabel}

/-- The latch is used by both sides as their stages say. -/
structure Latched (s : Thread) : Prop where
  sound : s.latch.Sound 1
  waits : s.latch.calls .owner = if s.owner = .latching then some .wait else none
  counts : s.latch.calls .runner = if s.runner = .counting then some .countDown else none
  downs : s.latch.downs = if s.runner.Counted then 1 else 0

/-- How far the two sides are, with `started`, `joined` and `released`. The owner leaves `start`
only when the new thread is past the latch. -/
inductive Phase : OwnerStage → RunnerStage → Bool → Bool → Nat → Prop
  | idle : Phase .outside .absent false false 0
  | creating : Phase .creating .absent true false 0
  | latching {runner : RunnerStage} : runner ≠ .absent → Phase .latching runner true false 0
  | checking {runner : RunnerStage} : runner.Counted → Phase .checking runner true false 0
  | started {runner : RunnerStage} : runner.Counted → Phase .outside runner true false 0
  | joining {runner : RunnerStage} : runner.Counted → Phase .joining runner true true 0
  | joined : Phase .outside .finished true true 1
  | goneIdle : Phase .gone .absent false false 0
  | goneJoined : Phase .gone .finished true true 1
  | goneDetached {runner : RunnerStage} : runner.Counted → Phase .gone runner true false 1

/-- The new thread reaches the latch only with its id stored. -/
structure Sound (s : Thread) : Prop extends Latched s where
  phase : Phase s.owner s.runner s.started s.joined s.released
  known : s.runner = .counting ∨ s.runner.Counted → 0 < s.tid

theorem sound_create : create.Sound where
  sound := CountdownLatch.sound_create 1
  waits := rfl
  counts := rfl
  downs := rfl
  phase := .idle
  known := by decide

theorem Latched.wait (hs : s.Latched) (h : s.owner = .latching) :
    (s.latch.wait .owner).calls .owner = if s.runner.Counted then none else some .wait := by
  have hcounted := hs.sound.counted
  have hdowns := hs.downs
  have hcall : s.latch.calls .owner = some .wait := by
    simpa only [h, if_true] using hs.waits
  rw [CountdownLatch.calls_wait_self hcall]
  by_cases hrunner : s.runner.Counted
  · rw [if_pos hrunner] at hdowns ⊢
    exact if_neg (by omega)
  · rw [if_neg hrunner] at hdowns ⊢
    exact if_pos (by omega)

theorem Latched.latchWait (hs : s.Latched) (h : s.owner = .latching) :
    Latched
      { s with
        latch := s.latch.wait .owner
        owner := if (s.latch.wait .owner).calls .owner = none then .checking else .latching } where
  sound := hs.sound.wait _
  waits := by
    rw [hs.wait h]
    by_cases hrunner : s.runner.Counted <;> simp [hrunner]
  counts := (CountdownLatch.calls_wait_of_ne (by decide)).trans hs.counts
  downs := (CountdownLatch.downs_wait _).trans hs.downs

theorem Latched.step (hs : s.Latched) (habsent : s.owner = .creating → s.runner = .absent)
    (h : ThreadStep s e s') : s'.Latched := by
  obtain ⟨hsound, hwaits, hcounts, hdowns⟩ := hs
  cases h with
  | created howner hlatch =>
      have hsound' := hsound.step hlatch
      cases hlatch
      have hrunner := habsent howner
      refine ⟨hsound', ?_, ?_, ?_⟩
      · simp [CountdownLatch.call]
      · simpa [CountdownLatch.call, hrunner] using hcounts
      · simpa [CountdownLatch.call, RunnerStage.Counted, hrunner] using hdowns
  | latchWait howner hlatch =>
      cases hlatch
      exact Latched.latchWait ⟨hsound, hwaits, hcounts, hdowns⟩ howner
  | latchWake hlatch =>
      have hsound' := hsound.step hlatch
      cases hlatch
      exact ⟨hsound', hwaits, hcounts, hdowns⟩
  | storeTid hrunner _ hlatch =>
      have hsound' := hsound.step hlatch
      cases hlatch
      refine ⟨hsound', ?_, ?_, ?_⟩
      · simpa [CountdownLatch.call] using hwaits
      · simp [CountdownLatch.call]
      · simpa [CountdownLatch.call, RunnerStage.Counted, hrunner] using hdowns
  | countDown hrunner hlatch =>
      have hsound' := hsound.step hlatch
      cases hlatch
      refine ⟨hsound', ?_, ?_, ?_⟩
      · simpa [CountdownLatch.countDown] using hwaits
      · simp [CountdownLatch.countDown]
      · simpa [CountdownLatch.countDown, RunnerStage.Counted, hrunner] using hdowns
  | finish hrunner =>
      refine ⟨hsound, hwaits, ?_, ?_⟩
      · simpa [hrunner] using hcounts
      · simpa [RunnerStage.Counted, hrunner] using hdowns
  | start howner _ => exact ⟨hsound, by simpa [howner] using hwaits, hcounts, hdowns⟩
  | createFailed howner => exact ⟨hsound, by simpa [howner] using hwaits, hcounts, hdowns⟩
  | check howner => exact ⟨hsound, by simpa [howner] using hwaits, hcounts, hdowns⟩
  | join howner _ _ => exact ⟨hsound, by simpa [howner] using hwaits, hcounts, hdowns⟩
  | joined howner _ => exact ⟨hsound, by simpa [howner] using hwaits, hcounts, hdowns⟩
  | destruct howner => exact ⟨hsound, by simpa [howner] using hwaits, hcounts, hdowns⟩

theorem Phase.storeTid {owner : OwnerStage} {started joined : Bool} {released : Nat}
    (h : Phase owner .starting started joined released) :
    Phase owner .counting started joined released := by
  cases h with
  | latching _ => exact .latching (by decide)
  | checking hcounted => exact absurd hcounted (by decide)
  | started hcounted => exact absurd hcounted (by decide)
  | joining hcounted => exact absurd hcounted (by decide)
  | goneDetached hcounted => exact absurd hcounted (by decide)

theorem Phase.countDown {owner : OwnerStage} {started joined : Bool} {released : Nat}
    (h : Phase owner .counting started joined released) :
    Phase owner .executing started joined released := by
  cases h with
  | latching _ => exact .latching (by decide)
  | checking hcounted => exact absurd hcounted (by decide)
  | started hcounted => exact absurd hcounted (by decide)
  | joining hcounted => exact absurd hcounted (by decide)
  | goneDetached hcounted => exact absurd hcounted (by decide)

theorem Phase.finish {owner : OwnerStage} {started joined : Bool} {released : Nat}
    (h : Phase owner .executing started joined released) :
    Phase owner .finished started joined released := by
  cases h with
  | latching _ => exact .latching (by decide)
  | checking _ => exact .checking (by decide)
  | started _ => exact .started (by decide)
  | joining _ => exact .joining (by decide)
  | goneDetached _ => exact .goneDetached (by decide)

theorem Phase.destruct {runner : RunnerStage} {started joined : Bool} {released : Nat}
    (h : Phase .outside runner started joined released) :
    Phase .gone runner started joined (if started ∧ ¬ joined then released + 1 else released) := by
  cases h with
  | idle => exact .goneIdle
  | started hcounted => exact .goneDetached hcounted
  | joined => exact .goneJoined

theorem Phase.absent_of_creating {runner : RunnerStage} {started joined : Bool} {released : Nat}
    (h : Phase .creating runner started joined released) : runner = .absent := by
  cases h
  rfl

theorem Phase.counted_of_checking {runner : RunnerStage} {started joined : Bool} {released : Nat}
    (h : Phase .checking runner started joined released) : runner.Counted := by
  cases h
  assumption

theorem Phase.of_gone {runner : RunnerStage} {started joined : Bool} {released : Nat}
    (h : Phase .gone runner started joined released) :
    (runner = .absent ∧ released = 0 ∨ runner.Counted ∧ released = 1) ∧
      (joined = true → runner = .finished) := by
  cases h with
  | goneIdle => exact ⟨Or.inl ⟨rfl, rfl⟩, nofun⟩
  | goneJoined => exact ⟨Or.inr ⟨Or.inr rfl, rfl⟩, fun _ => rfl⟩
  | goneDetached hcounted => exact ⟨Or.inr ⟨hcounted, rfl⟩, nofun⟩

theorem Sound.exists_latchWait (hs : s.Sound) (howner : s.owner = .latching)
    (hcounted : s.runner.Counted) :
    ∃ s', ThreadStep s .latchWait s' ∧ s'.owner = .checking := by
  have hcall : s.latch.calls .owner = some .wait := by
    simpa only [howner, if_true] using hs.waits
  have hawake : ThreadSide.owner ∉ s.latch.cond.waiting := by
    intro hmem
    have hpos := hs.sound.awake ⟨_, hmem⟩
    have hcount := hs.sound.counted
    have hdowns := hs.downs
    rw [if_pos hcounted] at hdowns
    omega
  refine ⟨_, .latchWait howner (.wait hcall hawake), if_pos ?_⟩
  rw [hs.wait howner, if_pos hcounted]

theorem Sound.phase_step (hs : s.Sound) (h : ThreadStep s e s') :
    Phase s'.owner s'.runner s'.started s'.joined s'.released := by
  rcases s with ⟨started, joined, tid, latch, owner, runner, released⟩
  have hphase : Phase owner runner started joined released := hs.phase
  cases h with
  | start howner hstarted =>
      cases howner
      cases hstarted
      cases hphase
      exact .creating
  | created howner _ =>
      cases howner
      cases hphase
      exact .latching nofun
  | createFailed howner =>
      cases howner
      cases hphase
      exact .idle
  | latchWait howner hlatch =>
      cases howner
      cases hlatch
      cases hphase
      change Phase (if (latch.wait .owner).calls .owner = none then _ else _) _ _ _ _
      rw [hs.wait rfl]
      by_cases hcounted : runner.Counted
      · rw [if_pos hcounted, if_pos rfl]
        exact .checking hcounted
      · rw [if_neg hcounted, if_neg (by decide)]
        exact .latching ‹_›
  | latchWake _ => exact hphase
  | check howner =>
      cases howner
      cases hphase
      exact .started ‹_›
  | join howner hstarted hjoined =>
      cases howner
      cases hstarted
      cases hjoined
      cases hphase
      exact .joining ‹_›
  | joined howner hrunner =>
      cases howner
      cases hrunner
      cases hphase
      exact .joined
  | destruct howner =>
      cases howner
      exact hphase.destruct
  | storeTid hrunner _ _ =>
      cases hrunner
      exact hphase.storeTid
  | countDown hrunner _ =>
      cases hrunner
      exact hphase.countDown
  | finish hrunner =>
      cases hrunner
      exact hphase.finish

theorem Sound.step (hs : s.Sound) (h : ThreadStep s e s') : s'.Sound where
  toLatched := by
    have hphase := hs.phase
    exact hs.toLatched.step (fun howner => (howner ▸ hphase).absent_of_creating) h
  phase := hs.phase_step h
  known := by
    have hknown := hs.known
    cases h with
    | storeTid _ htid _ => exact fun _ => htid
    | countDown hrunner _ => exact fun _ => hknown (Or.inl hrunner)
    | finish hrunner => exact fun _ => hknown (Or.inr (Or.inl hrunner))
    | created _ _ => exact nofun
    | _ => exact hknown

/-- What the owner and the new thread rely on in every run: the assertion after the latch, an id for
the function, an owner that is let through, and no use of the latch or of the id once the object
is destroyed. A joined thread is over by then, and what was created is joined or detached once. -/
theorem handshake_of_run (h : Run ThreadStep create es s) :
    (s.owner = .checking → 0 < s.tid ∧ s.runner.Counted) ∧
      (s.runner.Counted → 0 < s.tid ∧
        (s.owner = .latching → ∃ s', ThreadStep s .latchWait s' ∧ s'.owner = .checking)) ∧
      (s.owner = .gone →
        (s.runner = .absent ∧ s.released = 0 ∨ s.runner.Counted ∧ s.released = 1) ∧
          (s.joined = true → s.runner = .finished)) := by
  have hs : s.Sound := h.invariant (fun _ _ _ hs hstep => hs.step hstep) sound_create
  have hphase := hs.phase
  refine ⟨fun howner => ?_, fun hcounted => ⟨hs.known (Or.inr hcounted), fun howner => ?_⟩,
    fun howner => ?_⟩
  · have hcounted := (howner ▸ hphase).counted_of_checking
    exact ⟨hs.known (Or.inr hcounted), hcounted⟩
  · exact hs.exists_latchWait howner hcounted
  · exact (howner ▸ hphase).of_gone

/-- A thread that is detached while it runs. -/
theorem handshake_of_run_detached : ∃ s : Thread,
    Run ThreadStep create
      [.start, .created, .latchWait, .storeTid 7, .countDown, .latchWait, .check, .destruct] s ∧
    s.owner = .gone ∧ s.released = 1 ∧ s.runner.Counted := by
  have hstarted := (Run.nil.snoc (ThreadStep.start (s := create) rfl rfl)).snoc
    (.created rfl (.call (t := ThreadSide.owner) rfl))
  have hwaiting := hstarted.snoc
    (.latchWait rfl (.wait (t := ThreadSide.owner) rfl (by decide)))
  have hcounted := (hwaiting.snoc (e := .storeTid 7)
    (.storeTid rfl (by decide) (.call (t := ThreadSide.runner) rfl))).snoc
    (.countDown rfl (.countDown (t := ThreadSide.runner) rfl (show -2147483648 < 1 by decide)))
  have hpassed := hcounted.snoc
    (.latchWait rfl (.wait (t := ThreadSide.owner) rfl (by decide)))
  have hrun := (hpassed.snoc (.check rfl)).snoc (.destruct rfl)
  refine ⟨_, hrun, rfl, rfl, ?_⟩
  rcases ((handshake_of_run hrun).2.2 rfl).1 with ⟨habsent, _⟩ | ⟨hcounted, _⟩
  · cases habsent
  · exact hcounted

end Thread

end LearnMuduo
