import Mathlib.Data.Int.CardIntervalMod
import Mathlib.Data.List.Count

/-!
# Round robin

Items are dealt out to slots in turn. After `k` items each slot has had `k / n` of them, and the
first `k % n` slots one more.
-/

namespace Framework

variable {α : Type*}

/-- The slots that the first `k` items go to. -/
def dealt (slots : List α) (k : Nat) : List α :=
  (List.range k).filterMap fun i => slots[i % slots.length]?

theorem dealt_succ (slots : List α) (k : Nat) :
    dealt slots (k + 1) = dealt slots k ++ (slots[k % slots.length]?).toList := by
  rw [dealt, List.range_succ, List.filterMap_append]
  congr 1

theorem count_dealt [DecidableEq α] {slots : List α} (hnodup : slots.Nodup) {j : Nat}
    (hj : j < slots.length) (k : Nat) :
    (dealt slots k).count slots[j] =
      k / slots.length + if j < k % slots.length then 1 else 0 := by
  have hpos : 0 < slots.length := Nat.zero_lt_of_lt hj
  have hcount : (dealt slots k).count slots[j] = k.count (· ≡ j [MOD slots.length]) := by
    induction k with
    | zero => rfl
    | succ k ih =>
        have hlt := Nat.mod_lt k hpos
        rw [dealt_succ, List.count_append, ih, Nat.count_succ, List.getElem?_eq_getElem hlt,
          Option.toList_some, List.count_singleton]
        have hsame : slots[k % slots.length] = slots[j] ↔ k ≡ j [MOD slots.length] := by
          rw [hnodup.getElem_inj_iff, Nat.ModEq, Nat.mod_eq_of_lt hj]
        simp only [beq_iff_eq, hsame]
  rw [hcount, Nat.count_modEq_card k hpos, Nat.mod_eq_of_lt hj]

end Framework
