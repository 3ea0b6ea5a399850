import LearnMuduo.Framework.CondVar
import LearnMuduo.Framework.Run
import Mathlib.Logic.Function.Basic

/-!
# The countdown latch

Any threads wait for a latch and count it down. What a call does under `m_mtx` between a lock and
the next wait or unlock is one step. Seen from outside a latch is a counter, and to wait for it is
to pass once it is down.
-/

namespace LearnMuduo

open Framework

/-- The call that a thread is in. -/
inductive LatchCall
  | wait
  | countDown
  deriving DecidableEq, Repr

/-- `passed` and `downs` are histories: who has returned from `wait`, and how often the latch was
counted down. -/
structure CountdownLatch (T : Type) where
  count : Int
  cond : CondVar T
  calls : T → Option LatchCall
  passed : List T
  downs : Nat

inductive LatchLabel (T : Type)
  | call (t : T) (c : LatchCall)
  | wait (t : T)
  | countDown (t : T)
  | wake (t : T)
  deriving DecidableEq, Repr

namespace CountdownLatch

variable {T : Type} [DecidableEq T]

omit [DecidableEq T] in
def create (count : Int) : CountdownLatch T where
  count := count
  cond := CondVar.free
  calls := fun _ => none
  passed := []
  downs := 0

def call (s : CountdownLatch T) (t : T) (c : LatchCall) : CountdownLatch T :=
  { s with calls := Function.update s.calls t (some c) }

/-- A round of `wait`, from the test of `m_count` on. -/
def wait (s : CountdownLatch T) (t : T) : CountdownLatch T :=
  if 0 < s.count then { s with cond := s.cond.wait t }
  else
    { s with
      cond := s.cond.leave t
      calls := Function.update s.calls t none
      passed := s.passed ++ [t] }

def countDown (s : CountdownLatch T) (t : T) : CountdownLatch T :=
  { s with
    count := s.count - 1
    cond := if s.count - 1 = 0 then s.cond.notifyAll else s.cond
    calls := Function.update s.calls t none
    downs := s.downs + 1 }

end CountdownLatch

/-- The steps of all threads. A count is an `int`, and is not counted down further than that. -/
inductive LatchStep {T : Type} [DecidableEq T] :
    CountdownLatch T → LatchLabel T → CountdownLatch T → Prop
  | call {s : CountdownLatch T} {t : T} {c : LatchCall} :
      s.calls t = none → LatchStep s (.call t c) (s.call t c)
  | wait {s : CountdownLatch T} {t : T} :
      s.calls t = some .wait → t ∉ s.cond.waiting → LatchStep s (.wait t) (s.wait t)
  | countDown {s : CountdownLatch T} {t : T} :
      s.calls t = some .countDown → -2147483648 < s.count →
      LatchStep s (.countDown t) (s.countDown t)
  | wake {s : CountdownLatch T} {t : T} :
      t ∈ s.cond.waiting → LatchStep s (.wake t) { s with cond := s.cond.wake t }

/-- The latch from outside. -/
structure Gate (T : Type) where
  count : Int
  passed : List T

inductive GateLabel (T : Type)
  | countDown
  | pass (t : T)

inductive GateStep {T : Type} : Gate T → GateLabel T → Gate T → Prop
  | countDown {g : Gate T} : GateStep g .countDown { g with count := g.count - 1 }
  | pass {g : Gate T} {t : T} :
      g.count ≤ 0 → GateStep g (.pass t) { g with passed := g.passed ++ [t] }

namespace CountdownLatch

variable {T : Type} [DecidableEq T] {s s' : CountdownLatch T} {e : LatchLabel T}
  {es : List (LatchLabel T)} {count : Int}

omit [DecidableEq T] in
def gate (s : CountdownLatch T) : Gate T := ⟨s.count, s.passed⟩

/-- The count is what it was less the calls of `countDown`, nobody has passed before it was down,
and as soon as it is, nobody sleeps. -/
structure Sound (count : Int) (s : CountdownLatch T) : Prop where
  counted : s.count = count - s.downs
  closed : s.passed ≠ [] → s.count ≤ 0
  awake : s.cond.waiting.Nonempty → 0 < s.count

omit [DecidableEq T] in
theorem sound_create (count : Int) : (create count : CountdownLatch T).Sound count where
  counted := (Int.sub_zero count).symm
  closed := fun hpassed => absurd rfl hpassed
  awake := fun hwaiting => absurd rfl hwaiting.ne_empty

theorem wait_of_pos {t : T} (h : 0 < s.count) : s.wait t = { s with cond := s.cond.wait t } :=
  if_pos h

theorem wait_of_le {t : T} (h : s.count ≤ 0) :
    s.wait t =
      { s with
        cond := s.cond.leave t
        calls := Function.update s.calls t none
        passed := s.passed ++ [t] } :=
  if_neg (Int.not_lt.mpr h)

theorem calls_wait_of_ne {t u : T} (h : u ≠ t) : (s.wait t).calls u = s.calls u := by
  rcases lt_or_ge 0 s.count with hpos | hle
  · rw [wait_of_pos hpos]
  · rw [wait_of_le hle]
    exact Function.update_of_ne h _ _

@[simp] theorem downs_wait (t : T) : (s.wait t).downs = s.downs := by
  rcases lt_or_ge 0 s.count with hpos | hle
  · rw [wait_of_pos hpos]
  · rw [wait_of_le hle]

theorem calls_wait_self {t : T} (h : s.calls t = some .wait) :
    (s.wait t).calls t = if 0 < s.count then some .wait else none := by
  by_cases hpos : 0 < s.count
  · rw [if_pos hpos, wait_of_pos hpos]
    exact h
  · rw [if_neg hpos, wait_of_le (Int.not_lt.mp hpos)]
    exact Function.update_self _ _ _

theorem Sound.wait (hs : s.Sound count) (t : T) : (s.wait t).Sound count := by
  rcases lt_or_ge 0 s.count with hpos | hle
  · rw [wait_of_pos hpos]
    exact ⟨hs.counted, hs.closed, fun _ => hpos⟩
  · rw [wait_of_le hle]
    exact ⟨hs.counted, fun _ => hle, hs.awake⟩

theorem Sound.countDown (hs : s.Sound count) (t : T) : (s.countDown t).Sound count where
  counted := by
    have hcounted := hs.counted
    simp only [CountdownLatch.countDown]
    omega
  closed := by
    intro hpassed
    have hle := hs.closed hpassed
    simp only [CountdownLatch.countDown]
    omega
  awake := by
    simp only [CountdownLatch.countDown]
    by_cases hdown : s.count - 1 = 0
    · rw [if_pos hdown]
      exact fun hwaiting => absurd rfl hwaiting.ne_empty
    · rw [if_neg hdown]
      intro hwaiting
      have hpos := hs.awake hwaiting
      omega

theorem Sound.step (hs : s.Sound count) (h : LatchStep s e s') : s'.Sound count := by
  cases h with
  | call _ => exact ⟨hs.counted, hs.closed, hs.awake⟩
  | wait _ _ => exact hs.wait _
  | countDown _ _ => exact hs.countDown _
  | wake _ =>
      refine ⟨hs.counted, hs.closed, fun hwaiting => hs.awake ?_⟩
      exact hwaiting.mono (Finset.erase_subset _ _)

theorem LatchStep.gate (h : LatchStep s e s') : ∃ ds, Run GateStep s.gate ds s'.gate := by
  cases h with
  | wait _ _ =>
      rcases lt_or_ge 0 s.count with hpos | hle
      · rw [wait_of_pos hpos]
        exact ⟨[], Run.nil⟩
      · rw [wait_of_le hle]
        exact ⟨_, Run.single (GateStep.pass (g := s.gate) hle)⟩
  | countDown _ _ => exact ⟨_, Run.single (GateStep.countDown (g := s.gate))⟩
  | _ => exact ⟨[], Run.nil⟩

/-- In every run the latch behaves as a gate, whoever has passed it did so after as many calls of
`countDown` as there were to be, and after these every call of `wait` can return at its next
step. -/
theorem opens_of_run (h : Run LatchStep (create count : CountdownLatch T) es s) :
    (∃ ds, Run GateStep ⟨count, []⟩ ds s.gate) ∧
      (s.passed ≠ [] → count ≤ s.downs) ∧
      (count ≤ s.downs → ∀ t, s.calls t = some .wait →
        ∃ s', LatchStep s (.wait t) s' ∧ s'.calls t = none ∧ s'.passed = s.passed ++ [t]) := by
  have hs : s.Sound count := h.invariant (fun _ _ _ hs hstep => hs.step hstep) (sound_create count)
  have hcounted := hs.counted
  refine ⟨?_, fun hpassed => ?_, fun hdown t hcall => ?_⟩
  · exact h.simulate (f := gate) (I := fun _ => True) (fun _ _ _ _ _ => trivial)
      (fun _ _ _ _ hstep => LatchStep.gate hstep) trivial
  · have hle := hs.closed hpassed
    omega
  · have hle : s.count ≤ 0 := by omega
    have hawake : t ∉ s.cond.waiting := fun hmem =>
      absurd (hs.awake ⟨t, hmem⟩) (Int.not_lt.mpr hle)
    refine ⟨_, LatchStep.wait hcall hawake, ?_, ?_⟩
    · rw [wait_of_le hle]
      exact Function.update_self t none s.calls
    · rw [wait_of_le hle]

theorem opens_of_run_two : ∃ s : CountdownLatch Nat,
    Run LatchStep (create 1)
      [.call 0 .wait, .wait 0, .call 1 .countDown, .countDown 1] s ∧ s.passed = [] ∧
    ∃ s', LatchStep s (.wait 0) s' ∧ s'.calls 0 = none ∧ s'.passed = [0] := by
  have hrun := (((Run.nil.snoc (LatchStep.call (s := create 1) (t := 0) (c := .wait) rfl)).snoc
    (.wait (t := 0) rfl (by decide))).snoc (.call (t := 1) (c := .countDown) rfl)).snoc
    (.countDown (t := 1) rfl (by decide))
  exact ⟨_, hrun, rfl, (opens_of_run hrun).2.2 (by decide) 0 rfl⟩

end CountdownLatch

end LearnMuduo
