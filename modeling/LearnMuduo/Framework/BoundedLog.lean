import Mathlib.Data.List.Basic

/-!
# Logs of bounded size

A log takes a piece as a whole when the room that the piece asks for is free, and drops it
otherwise. A piece asks for more than its text needs, so that the log never fills up.
-/

namespace Framework

/-- The text of a piece, and the room that has to be free before it is taken. -/
structure Pieces (α β : Type*) where
  text : α → List β
  need : α → Nat
  length_lt_need : ∀ a, (text a).length < need a

namespace Pieces

variable {α β : Type*} (p : Pieces α β) (size : Nat)

/-- The log after a piece. -/
def put (log : List β) (a : α) : List β :=
  if p.need a ≤ size - log.length then log ++ p.text a else log

/-- The pieces that a log with `used` characters takes. -/
def accepted (used : Nat) : List α → List α
  | [] => []
  | a :: as =>
    if p.need a ≤ size - used then a :: accepted (used + (p.text a).length) as
    else accepted used as

variable {p size} {log : List β} {used : Nat} {a : α}

theorem length_put_lt (h : log.length < size) : (p.put size log a).length < size := by
  have hneed := p.length_lt_need a
  rw [put]
  split
  · rw [List.length_append]
    omega
  · exact h

theorem accepted_sublist (as : List α) : (p.accepted size used as).Sublist as := by
  induction as generalizing used with
  | nil => exact List.Sublist.refl []
  | cons a as ih =>
      rw [accepted]
      split
      · exact ih.cons_cons a
      · exact ih.cons a

theorem foldl_put (as : List α) (log : List β) :
    as.foldl (p.put size) log = log ++ (p.accepted size log.length as).flatMap p.text := by
  induction as generalizing log with
  | nil => simp [accepted]
  | cons a as ih =>
      rw [List.foldl_cons, ih, accepted, put]
      split
      · simp
      · rfl

theorem prefix_foldl_put (as : List α) (log : List β) : log <+: as.foldl (p.put size) log := by
  rw [foldl_put]
  exact List.prefix_append _ _

end Pieces

end Framework
