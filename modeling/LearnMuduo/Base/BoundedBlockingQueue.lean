import LearnMuduo.Framework.CondVar
import LearnMuduo.Framework.Run
import Mathlib.Logic.Function.Basic

/-!
# The bounded blocking queue

Any threads put into a queue of `maxSize` elements and take from it. What a call does under `m_mtx`
between a lock and the next wait or unlock is one step. `wait` in `take` waits with the lock held,
and `take` returns the front that it removes.
-/

namespace LearnMuduo

open Framework

/-- The call that a thread is in; `putMove` is the overload for `T&&`. -/
inductive BlockingCall (X : Type)
  | put (x : X)
  | putMove (x : X)
  | take
  deriving DecidableEq, Repr

/-- `entered` and `taken` are histories. -/
structure BoundedBlockingQueue (T X : Type) where
  maxSize : Nat
  queue : List X
  notEmpty : CondVar T
  notFull : CondVar T
  calls : T → Option (BlockingCall X)
  entered : List X
  taken : List X

/-- `picked` is whom `notify_one()` wakes. -/
inductive BlockingLabel (T X : Type)
  | call (t : T) (c : BlockingCall X)
  | put (t : T) (x : X) (picked : Option T)
  | putMove (t : T) (x : X)
  | take (t : T) (picked : Option T)
  | wakeTaker (t : T)
  | wakePutter (t : T)
  deriving DecidableEq, Repr

namespace BoundedBlockingQueue

variable {T X : Type} [DecidableEq T]

omit [DecidableEq T] in
def create (maxSize : Nat) : BoundedBlockingQueue T X where
  maxSize := maxSize
  queue := []
  notEmpty := CondVar.free
  notFull := CondVar.free
  calls := fun _ => none
  entered := []
  taken := []

def call (s : BoundedBlockingQueue T X) (t : T) (c : BlockingCall X) : BoundedBlockingQueue T X :=
  { s with calls := Function.update s.calls t (some c) }

/-- The critical section that both overloads of `put` have, up to what they do to `m_notEmptyCond`
in the end. -/
def putWith (s : BoundedBlockingQueue T X) (t : T) (x : X) (notify : CondVar T → CondVar T) :
    BoundedBlockingQueue T X :=
  if s.queue.length = s.maxSize then { s with notFull := s.notFull.wait t }
  else
    { s with
      queue := s.queue ++ [x]
      notEmpty := notify s.notEmpty
      notFull := s.notFull.leave t
      calls := Function.update s.calls t none
      entered := s.entered ++ [x] }

/-- `put(const T&)` -/
def put (s : BoundedBlockingQueue T X) (t : T) (x : X) (picked : Option T) :
    BoundedBlockingQueue T X :=
  s.putWith t x (CondVar.notifyOne · picked)

/-- `put(T&&)` notifies nobody. -/
def putMove (s : BoundedBlockingQueue T X) (t : T) (x : X) : BoundedBlockingQueue T X :=
  s.putWith t x id

def take (s : BoundedBlockingQueue T X) (t : T) (picked : Option T) : BoundedBlockingQueue T X :=
  match s.queue with
  | [] => { s with notEmpty := s.notEmpty.wait t }
  | front :: rest =>
    { s with
      queue := rest
      notEmpty := s.notEmpty.leave t
      notFull := s.notFull.notifyOne picked
      calls := Function.update s.calls t none
      taken := s.taken ++ [front] }

end BoundedBlockingQueue

/-- The steps of all threads. -/
inductive BlockingStep {T X : Type} [DecidableEq T] :
    BoundedBlockingQueue T X → BlockingLabel T X → BoundedBlockingQueue T X → Prop
  | call {s : BoundedBlockingQueue T X} {t : T} {c : BlockingCall X} :
      s.calls t = none → BlockingStep s (.call t c) (s.call t c)
  | put {s : BoundedBlockingQueue T X} {t : T} {x : X} {picked : Option T} :
      s.calls t = some (.put x) → t ∉ s.notFull.waiting → s.notEmpty.Picks picked →
      BlockingStep s (.put t x picked) (s.put t x picked)
  | putMove {s : BoundedBlockingQueue T X} {t : T} {x : X} :
      s.calls t = some (.putMove x) → t ∉ s.notFull.waiting →
      BlockingStep s (.putMove t x) (s.putMove t x)
  | take {s : BoundedBlockingQueue T X} {t : T} {picked : Option T} :
      s.calls t = some .take → t ∉ s.notEmpty.waiting → s.notFull.Picks picked →
      BlockingStep s (.take t picked) (s.take t picked)
  | wakeTaker {s : BoundedBlockingQueue T X} {t : T} :
      t ∈ s.notEmpty.waiting →
      BlockingStep s (.wakeTaker t) { s with notEmpty := s.notEmpty.wake t }
  | wakePutter {s : BoundedBlockingQueue T X} {t : T} :
      t ∈ s.notFull.waiting →
      BlockingStep s (.wakePutter t) { s with notFull := s.notFull.wake t }

namespace BoundedBlockingQueue

variable {T X : Type} [DecidableEq T] {s s' : BoundedBlockingQueue T X} {e : BlockingLabel T X}
  {es : List (BlockingLabel T X)}

/-- The queue is bounded and first in, first out, and no producer misses a wakeup: for each free
slot one is notified as long as one sleeps. -/
structure Orderly (s : BoundedBlockingQueue T X) : Prop where
  bounded : s.queue.length ≤ s.maxSize
  order : s.entered = s.taken ++ s.queue
  putters : s.notFull.Covers (s.maxSize - s.queue.length)

/-- No consumer misses a wakeup either: for each element one is notified as long as one sleeps. -/
structure MissesNoWakeup (s : BoundedBlockingQueue T X) : Prop extends Orderly s where
  takers : s.notEmpty.Covers s.queue.length

/-- The step does not put an element beside a sleeping consumer that it would have to notify: an
element that is moved in finds the queue full, no consumer asleep, or more notified consumers than
elements. -/
def Announced (s : BoundedBlockingQueue T X) : BlockingLabel T X → Prop
  | .putMove _ _ =>
    s.queue.length = s.maxSize ∨ s.notEmpty.waiting = ∅ ∨
      s.queue.length < s.notEmpty.notified.card
  | _ => True

theorem putWith_full {t : T} {x : X} {notify : CondVar T → CondVar T}
    (h : s.queue.length = s.maxSize) :
    s.putWith t x notify = { s with notFull := s.notFull.wait t } :=
  if_pos h

theorem putWith_room {t : T} {x : X} {notify : CondVar T → CondVar T}
    (h : s.queue.length ≠ s.maxSize) :
    s.putWith t x notify =
      { s with
        queue := s.queue ++ [x]
        notEmpty := notify s.notEmpty
        notFull := s.notFull.leave t
        calls := Function.update s.calls t none
        entered := s.entered ++ [x] } :=
  if_neg h

theorem take_empty {t : T} {picked : Option T} (h : s.queue = []) :
    s.take t picked = { s with notEmpty := s.notEmpty.wait t } := by
  simp only [take, h]

theorem take_front {t : T} {picked : Option T} {front : X} {rest : List X}
    (h : s.queue = front :: rest) :
    s.take t picked =
      { s with
        queue := rest
        notEmpty := s.notEmpty.leave t
        notFull := s.notFull.notifyOne picked
        calls := Function.update s.calls t none
        taken := s.taken ++ [front] } := by
  simp only [take, h]

omit [DecidableEq T] in
theorem Orderly.hasRoom (hs : s.Orderly) (h : s.queue.length ≠ s.maxSize) :
    s.queue.length < s.maxSize :=
  Nat.lt_of_le_of_ne hs.bounded h

omit [DecidableEq T] in
theorem orderly_create (maxSize : Nat) :
    (create maxSize : BoundedBlockingQueue T X).MissesNoWakeup where
  bounded := Nat.zero_le _
  order := rfl
  putters := fun hwaiting => absurd rfl hwaiting.ne_empty
  takers := CondVar.covers_zero _

theorem Orderly.putWith (hs : s.Orderly) (t : T) (x : X) (notify : CondVar T → CondVar T) :
    (s.putWith t x notify).Orderly := by
  by_cases hfull : s.queue.length = s.maxSize
  · have hnone : s.maxSize - s.queue.length = 0 := by
      omega
    rw [putWith_full hfull]
    refine ⟨hs.bounded, hs.order, ?_⟩
    change CondVar.Covers _ (s.maxSize - s.queue.length)
    rw [hnone]
    exact CondVar.covers_zero _
  · have hroom := hs.hasRoom hfull
    rw [putWith_room hfull]
    constructor
    · simp only [List.length_append, List.length_singleton]
      exact hroom
    · simp only [hs.order, List.append_assoc]
    · simp only [List.length_append, List.length_singleton, Nat.sub_add_eq]
      exact hs.putters.leave t

theorem Orderly.take (hs : s.Orderly) {t : T} {picked : Option T}
    (hpicked : s.notFull.Picks picked) : (s.take t picked).Orderly := by
  cases hqueue : s.queue with
  | nil =>
      rw [take_empty hqueue]
      exact ⟨hs.bounded, hs.order, hs.putters⟩
  | cons front rest =>
      have hbounded := hs.bounded
      have hlength : s.queue.length = rest.length + 1 := by
        rw [hqueue, List.length_cons]
      rw [take_front hqueue]
      constructor
      · change rest.length ≤ s.maxSize
        omega
      · simp only [List.append_assoc, List.cons_append, List.nil_append, ← hqueue]
        exact hs.order
      · apply (hs.putters.notifyOne hpicked).mono
        change s.maxSize - rest.length ≤ _
        omega

theorem Orderly.step (hs : s.Orderly) (h : BlockingStep s e s') : s'.Orderly := by
  cases h with
  | put _ _ _ => exact hs.putWith _ _ _
  | putMove _ _ => exact hs.putWith _ _ _
  | take _ _ hpicked => exact hs.take hpicked
  | wakePutter _ => exact ⟨hs.bounded, hs.order, hs.putters.wake _⟩
  | _ => exact ⟨hs.bounded, hs.order, hs.putters⟩

theorem takers_putWith {t : T} {x : X} {notify : CondVar T → CondVar T}
    (hs : s.notEmpty.Covers s.queue.length) :
    (s.putWith t x notify).notEmpty.Covers (s.putWith t x notify).queue.length ↔
      s.queue.length = s.maxSize ∨ (notify s.notEmpty).Covers (s.queue.length + 1) := by
  by_cases hfull : s.queue.length = s.maxSize
  · rw [putWith_full hfull]
    exact iff_of_true hs (Or.inl hfull)
  · rw [putWith_room hfull]
    simp only [List.length_append, List.length_singleton, hfull, false_or]

theorem takers_take {t : T} {picked : Option T} (hs : s.notEmpty.Covers s.queue.length) :
    (s.take t picked).notEmpty.Covers (s.take t picked).queue.length := by
  cases hqueue : s.queue with
  | nil =>
      rw [take_empty hqueue, hqueue]
      exact CondVar.covers_zero _
  | cons front rest =>
      have htakers := hs.leave t
      rw [hqueue, List.length_cons, Nat.add_sub_cancel] at htakers
      rw [take_front hqueue]
      exact htakers

theorem takers_step_iff (hs : s.notEmpty.Covers s.queue.length) (h : BlockingStep s e s') :
    s'.notEmpty.Covers s'.queue.length ↔ s.Announced e := by
  cases h with
  | call _ => exact iff_of_true hs trivial
  | put _ _ hpicked =>
      exact iff_of_true ((takers_putWith hs).mpr (Or.inr (hs.notifyOne hpicked))) trivial
  | take _ _ _ => exact iff_of_true (takers_take hs) trivial
  | wakeTaker _ => exact iff_of_true (hs.wake _) trivial
  | wakePutter _ => exact iff_of_true hs trivial
  | putMove _ _ =>
      rw [putMove, takers_putWith hs, Announced]
      apply or_congr_right
      rw [id, CondVar.Covers, Finset.nonempty_iff_ne_empty, Nat.succ_le_iff]
      tauto

theorem blockingStep_deterministic {u u' : BoundedBlockingQueue T X} (h : BlockingStep s e u)
    (h' : BlockingStep s e u') : u = u' := by
  cases h <;> cases h' <;> rfl

/-- In every state of a run the queue is in order and no wakeup is missed if and only if all steps
of the run are announced. -/
theorem missesNoWakeup_iff_announced {maxSize : Nat}
    (h : Run BlockingStep (create maxSize : BoundedBlockingQueue T X) es s) :
    (∀ before after u, es = before ++ after → Run BlockingStep (create maxSize) before u →
        u.MissesNoWakeup) ↔
      ∀ before e after u, es = before ++ e :: after → Run BlockingStep (create maxSize) before u →
        u.Announced e := by
  apply h.forall_state_iff
  · exact fun t e u u' hu hu' => blockingStep_deterministic hu hu'
  · exact fun t e u ht hstep => Orderly.step ht hstep
  · intro t e u ht hmisses hstep
    rw [← takers_step_iff hmisses.takers hstep]
    exact ⟨fun hu => hu.takers, fun htakers => ⟨ht.step hstep, htakers⟩⟩
  · exact (orderly_create maxSize).toOrderly
  · exact orderly_create maxSize

/-- A consumer sleeps, an element is moved in. -/
def movedIn : List (BlockingLabel Nat Nat) :=
  [.call 0 .take, .take 0 none, .call 1 (.putMove 5), .putMove 1 5]

theorem movedIn_misses_wakeup : ∃ s : BoundedBlockingQueue Nat Nat,
    Run BlockingStep (create 1) movedIn s ∧ s.queue = [5] ∧ s.notEmpty.waiting = {0} ∧
      s.notEmpty.notified = ∅ ∧ ¬ s.MissesNoWakeup := by
  have hnone : ∀ c : CondVar Nat, c.waiting = ∅ → c.Picks none := fun _ h => h
  refine ⟨_, (((Run.nil.snoc (.call rfl)).snoc (.take rfl (by decide) (hnone _ rfl))).snoc
    (.call rfl)).snoc (.putMove rfl (by decide)), rfl, rfl, rfl, fun hmisses => ?_⟩
  exact absurd (hmisses.takers ⟨0, by decide⟩) (by decide)

/-- The same with an element that is copied in, which the consumer then takes. -/
def copiedIn : List (BlockingLabel Nat Nat) :=
  [.call 0 .take, .take 0 none, .call 1 (.put 5), .put 1 5 (some 0), .take 0 none]

theorem copiedIn_run : ∃ s : BoundedBlockingQueue Nat Nat,
    Run BlockingStep (create 1) copiedIn s ∧ s.taken = [5] := by
  have hnone : ∀ c : CondVar Nat, c.waiting = ∅ → c.Picks none := fun _ h => h
  have hfirst : ∀ c : CondVar Nat, 0 ∈ c.waiting → c.Picks (some 0) := fun _ h => h
  exact ⟨_, ((((Run.nil.snoc (.call rfl)).snoc (.take rfl (by decide) (hnone _ rfl))).snoc
    (.call rfl)).snoc (.put rfl (by decide) (hfirst _ (by decide)))).snoc
    (.take rfl (by decide) (hnone _ rfl)), rfl⟩

theorem missesNoWakeup_copiedIn : ∃ s : BoundedBlockingQueue Nat Nat,
    s.taken = [5] ∧ s.MissesNoWakeup := by
  rcases copiedIn_run with ⟨s, hrun, htaken⟩
  refine ⟨s, htaken, (missesNoWakeup_iff_announced hrun).mpr ?_ copiedIn [] s (by simp) hrun⟩
  intro before e after u hes _
  have hmem : e ∈ copiedIn := by
    rw [hes]
    simp
  cases e with
  | putMove t x => exact absurd hmem (by simp [copiedIn])
  | _ => trivial

end BoundedBlockingQueue

end LearnMuduo
