import Mathlib.Control.Monad.Basic

/-!
# Computations with runtime assertions

A routine compiled with its assertions off yields a value whatever the assertions say;
compiled with them on, it yields that value only when every assertion it evaluates holds.
`Checked` keeps both readings of one text: `val` is the release build's result and `ok`
records whether the debug build would have reached it.
-/

namespace Framework

universe u

/-- A result together with the conjunction of the assertions evaluated on the way to it. -/
@[ext]
structure Checked (α : Type u) where
  val : α
  ok : Bool
  deriving DecidableEq, Repr

namespace Checked

variable {α β : Type u}

/-- `assert(condition)`: no effect on the value. -/
def assert (condition : Bool) : Checked Unit := ⟨(), condition⟩

instance : Monad Checked.{u} where
  pure a := ⟨a, true⟩
  bind x f := ⟨(f x.val).val, x.ok && (f x.val).ok⟩

@[simp] theorem val_pure (a : α) : (pure a : Checked α).val = a := rfl

@[simp] theorem ok_pure (a : α) : (pure a : Checked α).ok = true := rfl

@[simp] theorem val_bind (x : Checked α) (f : α → Checked β) :
    (x >>= f).val = (f x.val).val := rfl

@[simp] theorem ok_bind (x : Checked α) (f : α → Checked β) :
    (x >>= f).ok = (x.ok && (f x.val).ok) := rfl

theorem pure_bind_eq (a : α) (f : α → Checked β) : (pure a >>= f) = f a :=
  Checked.ext rfl (Bool.true_and _)

theorem assert_eq_pure {condition : Bool} (h : condition = true) :
    assert condition = pure () := by
  rw [h]
  rfl

@[simp] theorem ok_assert (condition : Bool) : (assert condition).ok = condition := rfl

@[simp] theorem val_ite (p : Prop) [Decidable p] (x y : Checked α) :
    (if p then x else y).val = if p then x.val else y.val := by
  split <;> rfl

@[simp] theorem ok_ite (p : Prop) [Decidable p] (x y : Checked α) :
    (if p then x else y).ok = if p then x.ok else y.ok := by
  split <;> rfl

end Checked

end Framework
