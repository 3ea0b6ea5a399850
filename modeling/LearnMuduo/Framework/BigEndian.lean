import Mathlib.Data.Nat.Basic
import Mathlib.Tactic.Ring

/-!
# Big-endian words

A word of `k` bytes is written most significant byte first and read back by Horner's rule.
-/

namespace Framework

/-- The `k` low bytes of `n`, most significant first. -/
def beEncode : Nat → Nat → List UInt8
  | 0, _ => []
  | k + 1, n => beEncode k (n / 256) ++ [UInt8.ofNat n]

def beDecode (bytes : List UInt8) : Nat :=
  bytes.foldl (fun value byte => 256 * value + byte.toNat) 0

@[simp] theorem length_beEncode (k n : Nat) : (beEncode k n).length = k := by
  induction k generalizing n with
  | zero => rfl
  | succ k ih => simp [beEncode, ih]

theorem beDecode_append_singleton (bytes : List UInt8) (byte : UInt8) :
    beDecode (bytes ++ [byte]) = 256 * beDecode bytes + byte.toNat := by
  simp [beDecode]

theorem beDecode_beEncode (k n : Nat) (hn : n < 256 ^ k) : beDecode (beEncode k n) = n := by
  induction k generalizing n with
  | zero =>
      have hzero : n = 0 := by simpa using hn
      simp [beEncode, beDecode, hzero]
  | succ k ih =>
      have hhigh : n / 256 < 256 ^ k := by
        apply Nat.div_lt_of_lt_mul
        rw [pow_succ] at hn
        omega
      have hlow : (UInt8.ofNat n).toNat = n % 256 := by simp
      rw [beEncode, beDecode_append_singleton, ih _ hhigh, hlow]
      exact Nat.div_add_mod n 256

end Framework
