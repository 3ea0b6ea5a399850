import Mathlib.Data.List.Basic

/-!
# Overwriting part of an array

Copying a block into an array at a position leaves what lies before and after the block alone.
-/

namespace Framework

variable {α : Type*}

/-- `l` with the cells from `pos` on replaced by `block`. -/
def overwrite (l : List α) (pos : Nat) (block : List α) : List α :=
  l.take pos ++ block ++ l.drop (pos + block.length)

theorem length_overwrite {l block : List α} {pos : Nat} (h : pos + block.length ≤ l.length) :
    (overwrite l pos block).length = l.length := by
  simp only [overwrite, List.length_append, List.length_take, List.length_drop]
  omega

theorem take_overwrite {l block : List α} {pos : Nat} (h : pos ≤ l.length) :
    (overwrite l pos block).take (pos + block.length) = l.take pos ++ block := by
  have hlen : (l.take pos ++ block).length = pos + block.length := by
    simp [List.length_take, Nat.min_eq_left h]
  rw [overwrite, ← hlen, List.take_left]

theorem overwrite_append {l first second : List α} {pos : Nat}
    (h : pos + first.length ≤ l.length) :
    overwrite (overwrite l pos first) (pos + first.length) second =
      overwrite l pos (first ++ second) := by
  have htake : (overwrite l pos first).take (pos + first.length) = l.take pos ++ first :=
    take_overwrite (by omega)
  have hdrop : (overwrite l pos first).drop (pos + first.length + second.length) =
      l.drop (pos + (first ++ second).length) := by
    have hlen : (l.take pos ++ first).length = pos + first.length := by
      simp only [List.length_append, List.length_take]
      omega
    rw [overwrite, ← List.drop_drop, ← hlen, List.drop_left, hlen, List.drop_drop,
      List.length_append, Nat.add_assoc]
  rw [overwrite, htake, hdrop, overwrite, List.append_assoc (l.take pos)]

theorem set_eq_overwrite {l : List α} {pos : Nat} (h : pos < l.length) (a : α) :
    l.set pos a = overwrite l pos [a] := by
  rw [List.set_eq_take_append_cons_drop, if_pos h, overwrite, List.length_singleton,
    List.append_assoc, List.singleton_append]

theorem take_drop_overwrite {l block : List α} {pos : Nat} (h : pos ≤ l.length) :
    ((overwrite l pos block).drop pos).take block.length = block := by
  have hlen : (l.take pos).length = pos := List.length_take_of_le h
  have hdrop : (overwrite l pos block).drop pos = block ++ l.drop (pos + block.length) := by
    rw [overwrite, List.append_assoc]
    exact List.drop_left' hlen
  rw [hdrop, List.take_left]

theorem overwrite_overwrite {l first rest block : List α} {pos : Nat}
    (h : pos + first.length ≤ l.length) (hblock : block.length = first.length) :
    overwrite (overwrite l pos (first ++ rest)) pos block = overwrite l pos (block ++ rest) := by
  have hlen : (l.take pos).length = pos := List.length_take_of_le (by omega)
  have htake : (overwrite l pos (first ++ rest)).take pos = l.take pos := by
    rw [overwrite, List.append_assoc]
    exact List.take_left' hlen
  have hdrop : (overwrite l pos (first ++ rest)).drop (pos + block.length) =
      rest ++ l.drop (pos + (first ++ rest).length) := by
    have hfirst : (l.take pos ++ first).length = pos + block.length := by
      simp only [List.length_append, hlen, hblock]
    rw [overwrite, ← List.append_assoc, List.append_assoc, ← hfirst]
    exact List.drop_left
  rw [overwrite, htake, hdrop, overwrite, List.length_append, List.length_append, hblock]
  simp only [List.append_assoc]

end Framework
