import Mathlib.Algebra.Order.Ring.Nat
import Mathlib.Tactic.Ring

/-!
# Base-128 numbers

A number is written in groups of seven bits, the lowest first; every byte but the last has its high
bit set. A number is read from a bounded count of bytes, and the bits above a width are dropped.
-/

namespace Framework

/-- At most `k` bytes. -/
def varint : Nat → Nat → List UInt8
  | 0, _ => []
  | k + 1, n =>
    if n < 128 then [UInt8.ofNat n] else UInt8.ofNat (n % 128 + 128) :: varint k (n / 128)

/-- The number at the head of the input, in at most `k` bytes, and what follows it. -/
def readVarint : Nat → List UInt8 → Option (Nat × List UInt8)
  | 0, _ => none
  | _ + 1, [] => none
  | k + 1, byte :: input =>
    if byte.toNat < 128 then some (byte.toNat, input)
    else (readVarint k input).map fun (n, rest) => (byte.toNat - 128 + 128 * n, rest)

theorem readVarint_varint {k n : Nat} (h : n < 128 ^ (k + 1)) (rest : List UInt8) :
    readVarint (k + 1) (varint (k + 1) n ++ rest) = some (n, rest) := by
  induction k generalizing n with
  | zero =>
      have hsmall : n < 128 := by simpa using h
      have hbyte : (UInt8.ofNat n).toNat = n := by
        simp
        omega
      rw [varint, if_pos hsmall, List.singleton_append, readVarint, hbyte, if_pos hsmall]
  | succ k ih =>
      rw [varint]
      by_cases hsmall : n < 128
      · have hbyte : (UInt8.ofNat n).toNat = n := by
          simp
          omega
        rw [if_pos hsmall, List.singleton_append, readVarint, hbyte, if_pos hsmall]
      · have hbyte : (UInt8.ofNat (n % 128 + 128)).toNat = n % 128 + 128 := by
          simp
          omega
        have hhigh : n / 128 < 128 ^ (k + 1) := by
          apply Nat.div_lt_of_lt_mul
          rw [pow_succ, Nat.mul_comm] at h
          exact h
        rw [if_neg hsmall, List.cons_append, readVarint, hbyte, if_neg (by omega), ih hhigh]
        simp only [Option.map_some, Option.some.injEq, Prod.mk.injEq, and_true]
        omega

theorem length_of_readVarint {k n : Nat} {input rest : List UInt8}
    (h : readVarint k input = some (n, rest)) : rest.length < input.length := by
  induction k generalizing input n with
  | zero => cases h
  | succ k ih =>
      cases input with
      | nil => cases h
      | cons byte input =>
          rw [readVarint] at h
          split at h
          · cases h
            exact Nat.lt_succ_self _
          · obtain ⟨⟨m, rest'⟩, hread, heq⟩ := Option.map_eq_some_iff.mp h
            cases heq
            exact Nat.lt_succ_of_lt (ih hread)

end Framework
