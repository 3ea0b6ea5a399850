import LearnMuduo.Framework.CondVar
import LearnMuduo.Framework.Run
import Mathlib.Logic.Function.Basic

/-!
# The consumer and producer queue

Producers and consumers sleep on one condition variable, and a thread that has changed the queue
unlocks before it notifies all. What is done under `m_mtx` between a lock and the next wait or
unlock is one step, the notification another.
-/

namespace LearnMuduo

open Framework

/-- Where a thread is; between its unlock and its `notify_all` it is `notifying`. -/
inductive QueueStage (X : Type)
  | idle
  | adding (request : X)
  | consuming
  | clearing
  | notifying
  deriving DecidableEq, Repr

/-- How an element left the queue. -/
inductive Removal
  | consumed
  | dropped
  deriving DecidableEq, Repr

/-- Elements are numbered as they enter the queue; `entered` and `removed` are histories. -/
structure ConsumerProducerQueue (T X : Type) where
  maxSize : Nat
  queue : List (Nat × X)
  cond : CondVar T
  stages : T → QueueStage X
  entered : List (Nat × X)
  removed : List (Removal × (Nat × X))

inductive ConsumerProducerLabel (T X : Type)
  | call (t : T) (stage : QueueStage X)
  | add (t : T)
  | consume (t : T)
  | clear (t : T)
  | notifyAll (t : T)
  | wake (t : T)
  deriving DecidableEq, Repr

namespace ConsumerProducerQueue

variable {T X : Type}

def create (maxSize : Nat) : ConsumerProducerQueue T X where
  maxSize := maxSize
  queue := []
  cond := CondVar.free
  stages := fun _ => .idle
  entered := []
  removed := []

def isFull (s : ConsumerProducerQueue T X) : Bool := decide (s.maxSize ≤ s.queue.length)

def isEmpty (s : ConsumerProducerQueue T X) : Bool := decide (s.queue.length = 0)

/-- The elements that were consumed, in the order in which they were. -/
def consumed (s : ConsumerProducerQueue T X) : List (Nat × X) :=
  (s.removed.filter (·.1 = .consumed)).map Prod.snd

variable [DecidableEq T]

def moveTo (s : ConsumerProducerQueue T X) (t : T) (stage : QueueStage X) :
    ConsumerProducerQueue T X :=
  { s with stages := Function.update s.stages t stage }

/-- The critical section of `add`; its `wait` returns when the queue is not full. -/
def add (s : ConsumerProducerQueue T X) (t : T) (request : X) : ConsumerProducerQueue T X :=
  if s.isFull then { s with cond := s.cond.wait t }
  else
    { s.moveTo t .notifying with
      cond := s.cond.leave t
      queue := s.queue ++ [(s.entered.length, request)]
      entered := s.entered ++ [(s.entered.length, request)] }

/-- The critical section of `consume`; its `wait` returns when the queue is not empty. -/
def consume (s : ConsumerProducerQueue T X) (t : T) : ConsumerProducerQueue T X :=
  match s.queue with
  | [] => { s with cond := s.cond.wait t }
  | front :: rest =>
    { s.moveTo t .notifying with
      cond := s.cond.leave t
      queue := rest
      removed := s.removed ++ [(.consumed, front)] }

/-- The critical section of `clear`. -/
def clear (s : ConsumerProducerQueue T X) (t : T) : ConsumerProducerQueue T X :=
  { s.moveTo t .notifying with
    queue := []
    removed := s.removed ++ s.queue.map (Prod.mk .dropped) }

def notifyAll (s : ConsumerProducerQueue T X) (t : T) : ConsumerProducerQueue T X :=
  { s.moveTo t .idle with cond := s.cond.notifyAll }

end ConsumerProducerQueue

/-- What a thread may call. -/
def QueueStage.isCall {X : Type} : QueueStage X → Bool
  | .adding _ | .consuming | .clearing => true
  | _ => false

/-- The steps of all threads. -/
inductive ConsumerProducerStep {T X : Type} [DecidableEq T] :
    ConsumerProducerQueue T X → ConsumerProducerLabel T X → ConsumerProducerQueue T X → Prop
  | call {s : ConsumerProducerQueue T X} {t : T} {stage : QueueStage X} :
      s.stages t = .idle → stage.isCall = true →
      ConsumerProducerStep s (.call t stage) (s.moveTo t stage)
  | add {s : ConsumerProducerQueue T X} {t : T} {request : X} :
      s.stages t = .adding request → t ∉ s.cond.waiting →
      ConsumerProducerStep s (.add t) (s.add t request)
  | consume {s : ConsumerProducerQueue T X} {t : T} :
      s.stages t = .consuming → t ∉ s.cond.waiting →
      ConsumerProducerStep s (.consume t) (s.consume t)
  | clear {s : ConsumerProducerQueue T X} {t : T} :
      s.stages t = .clearing → ConsumerProducerStep s (.clear t) (s.clear t)
  | notifyAll {s : ConsumerProducerQueue T X} {t : T} :
      s.stages t = .notifying → ConsumerProducerStep s (.notifyAll t) (s.notifyAll t)
  | wake {s : ConsumerProducerQueue T X} {t : T} :
      t ∈ s.cond.waiting →
      ConsumerProducerStep s (.wake t) { s with cond := s.cond.wake t }

namespace ConsumerProducerQueue

variable {T X : Type} {s s' : ConsumerProducerQueue T X} {e : ConsumerProducerLabel T X}
  {es : List (ConsumerProducerLabel T X)}

/-- The queue is bounded, and its elements leave it in the order in which they entered. -/
structure InOrder (s : ConsumerProducerQueue T X) : Prop where
  bounded : s.queue.length ≤ s.maxSize
  order : s.entered = s.removed.map Prod.snd ++ s.queue
  numbered : s.entered.map Prod.fst = List.range s.entered.length

/-- A thread sleeps that could go on: a producer beside a free slot, or a consumer beside an
element. -/
def Overslept (s : ConsumerProducerQueue T X) : Prop :=
  ∃ t ∈ s.cond.waiting,
    (∃ request, s.stages t = .adding request ∧ s.isFull = false) ∨
      (s.stages t = .consuming ∧ s.isEmpty = false)

/-- Only producers and consumers sleep, and one that could go on is about to be notified. -/
structure WakesUp (s : ConsumerProducerQueue T X) : Prop where
  sleepers : ∀ t ∈ s.cond.waiting, (∃ request, s.stages t = .adding request) ∨
    s.stages t = .consuming
  notified : s.Overslept → ∃ t, s.stages t = .notifying

theorem isFull_eq_false_iff : s.isFull = false ↔ s.queue.length < s.maxSize := by
  rw [isFull, decide_eq_false_iff_not, Nat.not_le]

theorem inOrder_create (maxSize : Nat) : (create maxSize : ConsumerProducerQueue T X).InOrder :=
  ⟨Nat.zero_le _, rfl, rfl⟩

theorem wakesUp_create (maxSize : Nat) : (create maxSize : ConsumerProducerQueue T X).WakesUp where
  sleepers := fun t ht => absurd ht (Finset.notMem_empty t)
  notified := fun ⟨t, ht, _⟩ => absurd ht (Finset.notMem_empty t)

variable [DecidableEq T]

theorem add_full {t : T} {request : X} (h : s.isFull = true) :
    s.add t request = { s with cond := s.cond.wait t } :=
  if_pos h

theorem add_room {t : T} {request : X} (h : s.isFull = false) :
    s.add t request =
      { s.moveTo t .notifying with
        cond := s.cond.leave t
        queue := s.queue ++ [(s.entered.length, request)]
        entered := s.entered ++ [(s.entered.length, request)] } := by
  rw [add, h]
  rfl

theorem consume_empty {t : T} (h : s.queue = []) :
    s.consume t = { s with cond := s.cond.wait t } := by
  simp only [consume, h]

theorem consume_front {t : T} {front : Nat × X} {rest : List (Nat × X)}
    (h : s.queue = front :: rest) :
    s.consume t =
      { s.moveTo t .notifying with
        cond := s.cond.leave t
        queue := rest
        removed := s.removed ++ [(.consumed, front)] } := by
  simp only [consume, h]

theorem InOrder.add (hs : s.InOrder) (t : T) (request : X) : (s.add t request).InOrder := by
  cases hfull : s.isFull with
  | true =>
      rw [add_full hfull]
      exact ⟨hs.bounded, hs.order, hs.numbered⟩
  | false =>
      have hroom := isFull_eq_false_iff.mp hfull
      rw [add_room hfull]
      constructor
      · simp only [List.length_append, List.length_singleton]
        exact hroom
      · simp only [hs.order, List.append_assoc]
        rfl
      · simp only [List.map_append, List.map_singleton, List.length_append, List.length_singleton,
          hs.numbered, List.range_succ]

theorem InOrder.consume (hs : s.InOrder) (t : T) : (s.consume t).InOrder := by
  cases hqueue : s.queue with
  | nil =>
      rw [consume_empty hqueue]
      exact ⟨hs.bounded, hs.order, hs.numbered⟩
  | cons front rest =>
      have hbounded := hs.bounded
      have horder := hs.order
      rw [hqueue, List.length_cons] at hbounded
      rw [hqueue] at horder
      rw [consume_front hqueue]
      constructor
      · exact Nat.le_of_succ_le hbounded
      · simpa [moveTo] using horder
      · exact hs.numbered

theorem InOrder.clear (hs : s.InOrder) (t : T) : (s.clear t).InOrder := by
  constructor
  · exact Nat.zero_le _
  · have hvalues : (s.queue.map (Prod.mk Removal.dropped)).map Prod.snd = s.queue := by
      rw [List.map_map]
      exact List.map_id _
    simp only [ConsumerProducerQueue.clear, moveTo, List.map_append, hvalues, List.append_nil]
    exact hs.order
  · exact hs.numbered

theorem InOrder.step (hs : s.InOrder) (h : ConsumerProducerStep s e s') : s'.InOrder := by
  cases h with
  | add _ _ => exact hs.add _ _
  | consume _ _ => exact hs.consume _
  | clear _ => exact hs.clear _
  | _ => exact ⟨hs.bounded, hs.order, hs.numbered⟩

omit [DecidableEq T] in
theorem InOrder.consumed_sorted (hs : s.InOrder) :
    s.consumed.Sublist s.entered ∧ (s.consumed.map Prod.fst).Pairwise (· < ·) := by
  have hremoved : s.consumed.Sublist (s.removed.map Prod.snd) :=
    List.filter_sublist.map Prod.snd
  have hentered : s.consumed.Sublist s.entered := by
    rw [hs.order]
    exact hremoved.trans (List.sublist_append_left _ _)
  have hnumbers : (s.entered.map Prod.fst).Pairwise (· < ·) := by
    rw [hs.numbered]
    exact List.pairwise_lt_range
  exact ⟨hentered, hnumbers.sublist (hentered.map Prod.fst)⟩

theorem WakesUp.change (hs : s.WakesUp) {t : T} (ht : t ∉ s.cond.waiting)
    (hwaiting : s'.cond.waiting = s.cond.waiting)
    (hstages : s'.stages = Function.update s.stages t .notifying) : s'.WakesUp where
  sleepers := by
    intro u hu
    rw [hwaiting] at hu
    have hne : u ≠ t := fun heq => ht (heq ▸ hu)
    rw [hstages, Function.update_of_ne hne]
    exact hs.sleepers u hu
  notified := fun _ => ⟨t, by rw [hstages, Function.update_self]⟩

theorem WakesUp.sleep (hs : s.WakesUp) {t : T}
    (ht : (∃ request, s.stages t = .adding request ∧ s.isFull = true) ∨
      (s.stages t = .consuming ∧ s.isEmpty = true)) :
    WakesUp { s with cond := s.cond.wait t } where
  sleepers := by
    intro u hu
    rcases Finset.mem_insert.mp hu with rfl | hold
    · exact ht.imp (fun ⟨request, hstage, _⟩ => ⟨request, hstage⟩) And.left
    · exact hs.sleepers u hold
  notified := by
    rintro ⟨u, hu, hawake⟩
    rcases Finset.mem_insert.mp hu with rfl | hold
    · exfalso
      rcases ht with ⟨request, hstage, hfull⟩ | ⟨hstage, hempty⟩
      · rcases hawake with ⟨_, _, hroom⟩ | ⟨hconsuming, _⟩
        · exact absurd (hfull.symm.trans hroom) (by decide)
        · exact absurd (hstage.symm.trans hconsuming) (by simp)
      · rcases hawake with ⟨_, hadding, _⟩ | ⟨_, helement⟩
        · exact absurd (hstage.symm.trans hadding) (by simp)
        · exact absurd (hempty.symm.trans helement) (by decide)
    · exact hs.notified ⟨u, hold, hawake⟩

theorem WakesUp.call (hs : s.WakesUp) {t : T} {stage : QueueStage X} (ht : s.stages t = .idle) :
    (s.moveTo t stage).WakesUp := by
  have hawake : ∀ u ∈ s.cond.waiting, u ≠ t := by
    rintro u hu rfl
    rcases hs.sleepers u hu with ⟨request, hadding⟩ | hconsuming
    · exact absurd (ht.symm.trans hadding) (by simp)
    · exact absurd (ht.symm.trans hconsuming) (by simp)
  have hsame : ∀ u ∈ s.cond.waiting, (s.moveTo t stage).stages u = s.stages u :=
    fun u hu => Function.update_of_ne (hawake u hu) _ _
  constructor
  · intro u hu
    rw [hsame u hu]
    exact hs.sleepers u hu
  · rintro ⟨u, hu, hcould⟩
    rw [hsame u hu] at hcould
    rcases hs.notified ⟨u, hu, hcould⟩ with ⟨v, hv⟩
    have hne : v ≠ t := by
      rintro rfl
      exact absurd (ht.symm.trans hv) (by simp)
    exact ⟨v, (Function.update_of_ne hne _ _).trans hv⟩

theorem WakesUp.add (hs : s.WakesUp) {t : T} {request : X} (hstage : s.stages t = .adding request)
    (ht : t ∉ s.cond.waiting) : (s.add t request).WakesUp := by
  cases hfull : s.isFull with
  | true =>
      rw [add_full hfull]
      exact hs.sleep (Or.inl ⟨request, hstage, hfull⟩)
  | false =>
      rw [add_room hfull]
      exact hs.change ht rfl rfl

theorem WakesUp.consume (hs : s.WakesUp) {t : T} (hstage : s.stages t = .consuming)
    (ht : t ∉ s.cond.waiting) : (s.consume t).WakesUp := by
  cases hqueue : s.queue with
  | nil =>
      have hempty : s.isEmpty = true := by
        simp [isEmpty, hqueue]
      rw [consume_empty hqueue]
      exact hs.sleep (Or.inr ⟨hstage, hempty⟩)
  | cons front rest =>
      rw [consume_front hqueue]
      exact hs.change ht rfl rfl

theorem WakesUp.step (hs : s.WakesUp) (h : ConsumerProducerStep s e s') : s'.WakesUp := by
  cases h with
  | call hidle _ => exact hs.call hidle
  | add hstage ht => exact hs.add hstage ht
  | consume hstage ht => exact hs.consume hstage ht
  | clear hstage =>
      have ht : ∀ t, s.stages t = .clearing → t ∉ s.cond.waiting := by
        intro t hclearing hwaiting
        rcases hs.sleepers t hwaiting with ⟨request, hadding⟩ | hconsuming
        · exact absurd (hclearing.symm.trans hadding) (by simp)
        · exact absurd (hclearing.symm.trans hconsuming) (by simp)
      exact hs.change (ht _ hstage) rfl rfl
  | notifyAll _ =>
      constructor
      · exact fun u hu => absurd hu (Finset.notMem_empty u)
      · exact fun ⟨u, hu, _⟩ => absurd hu (Finset.notMem_empty u)
  | wake _ =>
      constructor
      · exact fun u hu => hs.sleepers u (Finset.mem_of_mem_erase hu)
      · exact fun ⟨u, hu, hcould⟩ => hs.notified ⟨u, Finset.mem_of_mem_erase hu, hcould⟩

theorem maxSize_step (h : ConsumerProducerStep s e s') : s'.maxSize = s.maxSize := by
  cases h with
  | add _ _ =>
      rw [ConsumerProducerQueue.add]
      split <;> rfl
  | consume _ _ =>
      rw [ConsumerProducerQueue.consume]
      split <;> rfl
  | _ => rfl

/-- In every run the queue stays within its bound, its elements leave it in the order in which they
entered, each consumed once at most or dropped by a `clear`, and as long as a producer sleeps beside
a free slot or a consumer beside an element, some thread is about to notify all. -/
theorem no_missed_wakeup_of_run {maxSize : Nat}
    (h : Run ConsumerProducerStep (create maxSize : ConsumerProducerQueue T X) es s) :
    s.queue.length ≤ maxSize ∧
      s.entered = s.removed.map Prod.snd ++ s.queue ∧
      s.consumed.Sublist s.entered ∧ (s.consumed.map Prod.fst).Pairwise (· < ·) ∧
      (s.Overslept → ∃ t, s.stages t = .notifying) := by
  have hall : s.maxSize = maxSize ∧ s.InOrder ∧ s.WakesUp := by
    apply h.invariant (I := fun s => s.maxSize = maxSize ∧ s.InOrder ∧ s.WakesUp)
    · exact fun t e u ht hstep =>
        ⟨(maxSize_step hstep).trans ht.1, ht.2.1.step hstep, ht.2.2.step hstep⟩
    · exact ⟨rfl, inOrder_create maxSize, wakesUp_create maxSize⟩
  rcases hall with ⟨hmax, horder, hwakes⟩
  have hsorted := horder.consumed_sorted
  exact ⟨hmax ▸ horder.bounded, horder.order, hsorted.1, hsorted.2, hwakes.notified⟩

/-- A consumer sleeps, an element is added, and the producer has not notified yet. -/
def beforeNotify : List (ConsumerProducerLabel Nat Nat) :=
  [.call 0 .consuming, .consume 0, .call 1 (.adding 5), .add 1]

theorem beforeNotify_run : ∃ s : ConsumerProducerQueue Nat Nat,
    Run ConsumerProducerStep (create 1) beforeNotify s ∧ s.Overslept := by
  refine ⟨_, (((Run.nil.snoc (.call rfl rfl)).snoc (.consume rfl (by decide))).snoc
    (.call rfl rfl)).snoc (.add rfl (by decide)), 0, by decide, Or.inr ⟨rfl, rfl⟩⟩

theorem no_missed_wakeup_beforeNotify : ∃ s : ConsumerProducerQueue Nat Nat,
    s.Overslept ∧ s.queue.length ≤ 1 ∧ ∃ t, s.stages t = .notifying := by
  rcases beforeNotify_run with ⟨s, hrun, hoverslept⟩
  have hall := no_missed_wakeup_of_run hrun
  exact ⟨s, hoverslept, hall.1, hall.2.2.2.2 hoverslept⟩

end ConsumerProducerQueue

end LearnMuduo
