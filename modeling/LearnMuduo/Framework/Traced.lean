import Mathlib.Control.Monad.Basic

/-!
# Computations that report events

A routine is followed by writing down, along its text, what it touches. Its value is what it would
be without: `val` forgets the events, and a property of all events is shown part by part.
-/

namespace Framework

universe u

/-- A value and the events on the way to it, in order. -/
structure Traced (ε : Type u) (α : Type u) where
  val : α
  events : List ε
  deriving DecidableEq, Repr

namespace Traced

variable {ε δ α β : Type u} {P : ε → Prop}

instance : Monad (Traced ε) where
  pure a := ⟨a, []⟩
  bind x f := ⟨(f x.val).val, x.events ++ (f x.val).events⟩

def emit (e : ε) : Traced ε PUnit := ⟨⟨⟩, [e]⟩

/-- The same computation, with its events seen from elsewhere. -/
def mapEvents (f : ε → δ) (x : Traced ε α) : Traced δ α := ⟨x.val, x.events.map f⟩

@[simp] theorem val_pure (a : α) : (pure a : Traced ε α).val = a := rfl

@[simp] theorem val_bind (x : Traced ε α) (f : α → Traced ε β) :
    (x >>= f).val = (f x.val).val := rfl

@[simp] theorem val_ite (p : Prop) [Decidable p] (x y : Traced ε α) :
    (if p then x else y).val = if p then x.val else y.val := by
  split <;> rfl

@[simp] theorem val_mapEvents (f : ε → δ) (x : Traced ε α) : (x.mapEvents f).val = x.val := rfl

/-- Every event of the computation satisfies `P`. -/
def All (P : ε → Prop) (x : Traced ε α) : Prop := ∀ e ∈ x.events, P e

@[simp] theorem all_pure (a : α) : (pure a : Traced ε α).All P := by
  intro e he
  exact absurd he List.not_mem_nil

theorem All.bind {x : Traced ε α} {f : α → Traced ε β} (hx : x.All P)
    (hf : (f x.val).All P) : (x >>= f).All P := by
  intro e he
  rcases List.mem_append.mp he with hfirst | hrest
  · exact hx e hfirst
  · exact hf e hrest

theorem all_ite {p : Prop} [Decidable p] {x y : Traced ε α} (hx : p → x.All P)
    (hy : ¬ p → y.All P) : (if p then x else y).All P := by
  split
  · rename_i hp
    exact hx hp
  · rename_i hp
    exact hy hp

theorem all_dite {p : Prop} [Decidable p] {x : p → Traced ε α} {y : ¬ p → Traced ε α}
    (hx : ∀ hp, (x hp).All P) (hy : ∀ hp, (y hp).All P) :
    (if hp : p then x hp else y hp).All P := by
  split
  · rename_i hp
    exact hx hp
  · rename_i hp
    exact hy hp

theorem all_emit {e : ε} (h : P e) : (emit e).All P := by
  intro e' he'
  rw [List.mem_singleton.mp he']
  exact h

theorem All.mapEvents {f : ε → δ} {Q : δ → Prop} {x : Traced ε α} (hx : x.All P)
    (hf : ∀ e, P e → Q (f e)) : (x.mapEvents f).All Q := by
  intro d hd
  obtain ⟨e, he, rfl⟩ := List.mem_map.mp hd
  exact hf e (hx e he)

end Traced

end Framework
