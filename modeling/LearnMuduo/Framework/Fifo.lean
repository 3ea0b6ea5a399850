import Mathlib.Data.List.Basic

/-!
# First-in first-out queues

Elements are put in at the end and taken out at the front. Over any sequence of operations, what
is left is the old content followed by everything put in, without as many elements at the front as
were taken out.
-/

namespace Framework

inductive FifoOp (α : Type*)
  | put (block : List α)
  | take (n : Nat)
  | clear
  | keep
  deriving DecidableEq, Repr

variable {α : Type*}

namespace FifoOp

def apply (q : List α) : FifoOp α → List α
  | put block => q ++ block
  | take n => q.drop n
  | clear => []
  | keep => q

/-- What the operation puts in. -/
def added : FifoOp α → List α
  | put block => block
  | _ => []

/-- How many elements the operation takes out of `q`. -/
def removed (q : List α) : FifoOp α → Nat
  | take n => min n q.length
  | clear => q.length
  | _ => 0

theorem apply_eq_drop (q : List α) (op : FifoOp α) :
    op.apply q = (q ++ op.added).drop (op.removed q) := by
  cases op with
  | put block => simp [apply, added, removed]
  | take n =>
      simp only [apply, added, removed, List.append_nil]
      by_cases h : n ≤ q.length
      · rw [Nat.min_eq_left h]
      · have hle : q.length ≤ n := Nat.le_of_not_le h
        rw [Nat.min_eq_right hle, List.drop_length, List.drop_eq_nil_of_le hle]
  | clear => simp [apply, added, removed]
  | keep => simp [apply, added, removed]

theorem removed_le (q : List α) (op : FifoOp α) : op.removed q ≤ q.length := by
  cases op with
  | put _ => exact Nat.zero_le _
  | take n => exact Nat.min_le_right n q.length
  | clear => exact Nat.le_refl _
  | keep => exact Nat.zero_le _

end FifoOp

namespace Fifo

/-- The queue after `ops`, one after another. -/
def run (q : List α) (ops : List (FifoOp α)) : List α := ops.foldl FifoOp.apply q

/-- Everything that `ops` put in, in order. -/
def added (ops : List (FifoOp α)) : List α := ops.flatMap FifoOp.added

/-- How many elements `ops` take out. -/
def removed : List α → List (FifoOp α) → Nat
  | _, [] => 0
  | q, op :: ops => op.removed q + removed (op.apply q) ops

@[simp] theorem run_nil (q : List α) : run q [] = q := rfl

@[simp] theorem run_cons (q : List α) (op : FifoOp α) (ops : List (FifoOp α)) :
    run q (op :: ops) = run (op.apply q) ops := rfl

theorem run_append_singleton (q : List α) (ops : List (FifoOp α)) (op : FifoOp α) :
    run q (ops ++ [op]) = op.apply (run q ops) := by
  simp [run]

theorem removed_le (q : List α) (ops : List (FifoOp α)) :
    removed q ops ≤ q.length + (added ops).length := by
  induction ops generalizing q with
  | nil => exact Nat.zero_le _
  | cons op ops ih =>
      have htail := ih (op.apply q)
      have hle := op.removed_le q
      rw [op.apply_eq_drop, List.length_drop, List.length_append] at htail
      rw [removed, op.apply_eq_drop, added, List.flatMap_cons, List.length_append]
      rw [added] at htail
      omega

theorem run_eq_drop (q : List α) (ops : List (FifoOp α)) :
    run q ops = (q ++ added ops).drop (removed q ops) := by
  induction ops generalizing q with
  | nil => simp [added, removed]
  | cons op ops ih =>
      have hle : op.removed q ≤ (q ++ op.added).length := by
        rw [List.length_append]
        exact Nat.le_add_right_of_le (op.removed_le q)
      have hsplit : q ++ added (op :: ops) = (q ++ op.added) ++ added ops := by
        simp [added]
      rw [run_cons, ih, removed, hsplit, ← List.drop_drop]
      rw [List.drop_append_of_le_length hle, ← op.apply_eq_drop]

/-- The content is the old one again exactly if as much was taken out as put in, and the old
content followed by what was put in ends in the old content. -/
theorem run_eq_self_iff (q : List α) (ops : List (FifoOp α)) :
    run q ops = q ↔ removed q ops = (added ops).length ∧
      (q ++ added ops).drop (added ops).length = q := by
  rw [run_eq_drop]
  constructor
  · intro hsame
    have hle := removed_le q ops
    have hlen := congrArg List.length hsame
    rw [List.length_drop, List.length_append] at hlen
    have hremoved : removed q ops = (added ops).length := by omega
    rw [hremoved] at hsame
    exact ⟨hremoved, hsame⟩
  · intro h
    rw [h.1]
    exact h.2

end Fifo

end Framework
