import LearnMuduo.Framework.CondVar
import LearnMuduo.Framework.Run
import Mathlib.Logic.Function.Basic

/-!
# The blocking queue

The queue without a bound: `put` never waits, and both of its overloads notify one consumer with
the lock held.
-/

namespace LearnMuduo

open Framework

inductive QueueCall (X : Type)
  | put (x : X)
  | take
  deriving DecidableEq, Repr

/-- `entered` and `taken` are histories. -/
structure BlockingQueue (T X : Type) where
  queue : List X
  notEmpty : CondVar T
  calls : T → Option (QueueCall X)
  entered : List X
  taken : List X

/-- `picked` is whom `notify_one()` wakes. -/
inductive QueueLabel (T X : Type)
  | call (t : T) (c : QueueCall X)
  | put (t : T) (x : X) (picked : Option T)
  | take (t : T)
  | wake (t : T)
  deriving DecidableEq, Repr

namespace BlockingQueue

variable {T X : Type} [DecidableEq T]

omit [DecidableEq T] in
def create : BlockingQueue T X where
  queue := []
  notEmpty := CondVar.free
  calls := fun _ => none
  entered := []
  taken := []

def call (s : BlockingQueue T X) (t : T) (c : QueueCall X) : BlockingQueue T X :=
  { s with calls := Function.update s.calls t (some c) }

/-- `put(const T&)` and `put(T&&)` -/
def put (s : BlockingQueue T X) (t : T) (x : X) (picked : Option T) : BlockingQueue T X :=
  { s with
    queue := s.queue ++ [x]
    notEmpty := s.notEmpty.notifyOne picked
    calls := Function.update s.calls t none
    entered := s.entered ++ [x] }

def take (s : BlockingQueue T X) (t : T) : BlockingQueue T X :=
  match s.queue with
  | [] => { s with notEmpty := s.notEmpty.wait t }
  | front :: rest =>
    { s with
      queue := rest
      notEmpty := s.notEmpty.leave t
      calls := Function.update s.calls t none
      taken := s.taken ++ [front] }

end BlockingQueue

/-- The steps of all threads. -/
inductive BlockingQueueStep {T X : Type} [DecidableEq T] :
    BlockingQueue T X → QueueLabel T X → BlockingQueue T X → Prop
  | call {s : BlockingQueue T X} {t : T} {c : QueueCall X} :
      s.calls t = none → BlockingQueueStep s (.call t c) (s.call t c)
  | put {s : BlockingQueue T X} {t : T} {x : X} {picked : Option T} :
      s.calls t = some (.put x) → s.notEmpty.Picks picked →
      BlockingQueueStep s (.put t x picked) (s.put t x picked)
  | take {s : BlockingQueue T X} {t : T} :
      s.calls t = some .take → t ∉ s.notEmpty.waiting → BlockingQueueStep s (.take t) (s.take t)
  | wake {s : BlockingQueue T X} {t : T} :
      t ∈ s.notEmpty.waiting →
      BlockingQueueStep s (.wake t) { s with notEmpty := s.notEmpty.wake t }

namespace BlockingQueue

variable {T X : Type} [DecidableEq T] {s s' : BlockingQueue T X} {e : QueueLabel T X}
  {es : List (QueueLabel T X)}

/-- The queue is first in, first out, whoever uses the condition is in `take`, and for each element
a consumer is notified as long as one sleeps. -/
structure Sound (s : BlockingQueue T X) : Prop where
  order : s.entered = s.taken ++ s.queue
  takers : ∀ t ∈ s.notEmpty.threads, s.calls t = some .take
  covers : s.notEmpty.Covers s.queue.length

theorem sound_create : (create : BlockingQueue T X).Sound where
  order := rfl
  takers := fun t ht => absurd ht (by simp [create, CondVar.threads, CondVar.free])
  covers := CondVar.covers_zero _

theorem take_empty {t : T} (h : s.queue = []) :
    s.take t = { s with notEmpty := s.notEmpty.wait t } := by
  simp only [take, h]

theorem take_front {t : T} {front : X} {rest : List X} (h : s.queue = front :: rest) :
    s.take t =
      { s with
        queue := rest
        notEmpty := s.notEmpty.leave t
        calls := Function.update s.calls t none
        taken := s.taken ++ [front] } := by
  simp only [take, h]

theorem takers_update {c : CondVar T} {calls : T → Option (QueueCall X)} {t : T}
    {call : Option (QueueCall X)} (h : ∀ u ∈ c.threads, calls u = some .take)
    (ht : t ∉ c.threads) : ∀ u ∈ c.threads, Function.update calls t call u = some .take := by
  intro u hu
  have hne : u ≠ t := ne_of_mem_of_not_mem hu ht
  rw [Function.update_of_ne hne]
  exact h u hu

theorem Sound.notMem_threads (hs : s.Sound) {t : T} (h : s.calls t ≠ some .take) :
    t ∉ s.notEmpty.threads :=
  fun ht => h (hs.takers t ht)

theorem Sound.call (hs : s.Sound) {t : T} {c : QueueCall X} (h : s.calls t = none) :
    (s.call t c).Sound where
  order := hs.order
  takers := takers_update hs.takers (hs.notMem_threads (by simp [h]))
  covers := hs.covers

theorem Sound.put (hs : s.Sound) {t : T} {x : X} {picked : Option T}
    (h : s.calls t = some (.put x)) (hpicked : s.notEmpty.Picks picked) :
    (s.put t x picked).Sound where
  order := by
    simp only [BlockingQueue.put, hs.order, List.append_assoc]
  takers := by
    have hthreads := CondVar.threads_notifyOne hpicked
    have htakers : ∀ u ∈ (s.notEmpty.notifyOne picked).threads, s.calls u = some .take :=
      fun u hu => hs.takers u (hthreads hu)
    exact takers_update htakers fun hmem => hs.notMem_threads (by simp [h]) (hthreads hmem)
  covers := by
    simp only [BlockingQueue.put, List.length_append, List.length_singleton]
    exact hs.covers.notifyOne hpicked

theorem Sound.take (hs : s.Sound) {t : T} (h : s.calls t = some .take)
    (hawake : t ∉ s.notEmpty.waiting) : (s.take t).Sound := by
  cases hqueue : s.queue with
  | nil =>
      rw [take_empty hqueue]
      refine ⟨hs.order, ?_, ?_⟩
      · intro u hu
        rcases Finset.mem_insert.mp (CondVar.threads_wait _ _ hu) with rfl | hmem
        · exact h
        · exact hs.takers u hmem
      · change CondVar.Covers _ s.queue.length
        rw [hqueue]
        exact CondVar.covers_zero _
  | cons front rest =>
      have hthreads := CondVar.threads_leave hawake
      have hcovers := hs.covers.leave t
      rw [hqueue, List.length_cons, Nat.add_sub_cancel] at hcovers
      rw [take_front hqueue]
      refine ⟨?_, ?_, hcovers⟩
      · simp only [List.append_assoc, List.cons_append, List.nil_append, ← hqueue]
        exact hs.order
      · intro u hu
        rcases Finset.mem_erase.mp (hthreads hu) with ⟨hne, hmem⟩
        simp only [Function.update_of_ne hne]
        exact hs.takers u hmem

theorem Sound.step (hs : s.Sound) (h : BlockingQueueStep s e s') : s'.Sound := by
  cases h with
  | call hcall => exact hs.call hcall
  | put hcall hpicked => exact hs.put hcall hpicked
  | take hcall hawake => exact hs.take hcall hawake
  | wake _ =>
      exact ⟨hs.order, fun u hu => hs.takers u (CondVar.threads_wake _ _ hu), hs.covers.wake _⟩

/-- In every run elements leave in the order in which they came, and no element is left to sleeping
consumers: as long as one sleeps beside an element, another can take the front at its next step. -/
theorem delivers_of_run (h : Run BlockingQueueStep (create : BlockingQueue T X) es s) :
    s.entered = s.taken ++ s.queue ∧
      (s.notEmpty.waiting.Nonempty → ∀ front rest, s.queue = front :: rest →
        ∃ t s', t ∉ s.notEmpty.waiting ∧ BlockingQueueStep s (.take t) s' ∧ s'.queue = rest ∧
          s'.taken = s.taken ++ [front]) := by
  have hs : s.Sound := h.invariant (fun _ _ _ hs hstep => hs.step hstep) sound_create
  refine ⟨hs.order, fun hwaiting front rest hqueue => ?_⟩
  have hcard : 0 < s.notEmpty.notified.card := by
    have hcovers := hs.covers hwaiting
    rw [hqueue, List.length_cons] at hcovers
    omega
  obtain ⟨t, ht⟩ := Finset.card_pos.mp hcard
  have hcall : s.calls t = some .take := hs.takers t (Finset.mem_union_right _ ht)
  have hawake : t ∉ s.notEmpty.waiting := Finset.disjoint_right.mp s.notEmpty.disjoint ht
  refine ⟨t, _, hawake, BlockingQueueStep.take hcall hawake, ?_, ?_⟩
  · rw [take_front hqueue]
  · rw [take_front hqueue]

/-- Two consumers sleep when an element is put in. -/
theorem delivers_of_run_pair : ∃ s : BlockingQueue Nat Nat,
    Run BlockingQueueStep create
      [.call 0 .take, .take 0, .call 1 .take, .take 1, .call 2 (.put 5), .put 2 5 (some 0)] s ∧
    ∃ t s', t ∉ s.notEmpty.waiting ∧ BlockingQueueStep s (.take t) s' ∧ s'.queue = [] ∧
      s'.taken = [5] := by
  have hpicks : ∀ c : CondVar Nat, 0 ∈ c.waiting → c.Picks (some 0) := fun _ h => h
  have hcall : BlockingQueueStep (create : BlockingQueue Nat Nat) (.call 0 .take) _ :=
    BlockingQueueStep.call rfl
  have hwaiting := (((Run.nil.snoc hcall).snoc (.take (t := 0) rfl (by decide))).snoc
    (.call (t := 1) (c := .take) rfl)).snoc (.take (t := 1) rfl (by decide))
  have hrun := (hwaiting.snoc (.call (t := 2) (c := .put 5) rfl)).snoc
    (.put (t := 2) rfl (hpicks _ (by decide)))
  exact ⟨_, hrun, (delivers_of_run hrun).2 ⟨1, by decide⟩ 5 [] rfl⟩

end BlockingQueue

end LearnMuduo
