import Mathlib.Algebra.Group.Nat.Defs

/-!
# Conversions between machine integers

`size_t` is 64 bits wide and `int` 32; a conversion keeps the low bits of its argument.
-/

namespace Framework

/-- `static_cast<int>` of a `size_t`. -/
def intOfSize (n : Nat) : Int := (BitVec.ofNat 32 n).toInt

/-- `static_cast<size_t>` of an `int`. -/
def sizeOfInt (x : Int) : Nat := (BitVec.ofInt 64 x).toNat

/-- An `int` after arithmetic: 32 bits, two's complement. -/
def wrapInt (x : Int) : Int := (BitVec.ofInt 32 x).toInt

/-- The sum of two `size_t`. -/
def sizeAdd (m n : Nat) : Nat := (m + n) % 2 ^ 64

/-- The difference of two `size_t`. -/
def sizeSub (m n : Nat) : Nat := (m + 2 ^ 64 - n) % 2 ^ 64

theorem sizeAdd_of_lt {m n : Nat} (h : m + n < 2 ^ 64) : sizeAdd m n = m + n :=
  Nat.mod_eq_of_lt h

theorem sizeSub_of_le {m n : Nat} (hle : n ≤ m) (h : m < 2 ^ 64) : sizeSub m n = m - n := by
  rw [sizeSub]
  omega

theorem intOfSize_of_lt {n : Nat} (h : n < 2 ^ 31) : intOfSize n = n := by
  have hmod : n % 2 ^ 32 = n := Nat.mod_eq_of_lt (by omega)
  rw [intOfSize, BitVec.toInt_eq_toNat_of_lt]
  · rw [BitVec.toNat_ofNat, hmod]
  · rw [BitVec.toNat_ofNat, hmod]
    omega

theorem intOfSize_eq_iff {n : Nat} : intOfSize n = n ↔ n < 2 ^ 31 := by
  constructor
  · intro h
    have hlt : intOfSize n < ((2 ^ 31 : Nat) : Int) := BitVec.toInt_lt
    omega
  · exact intOfSize_of_lt

theorem sizeOfInt_natCast {n : Nat} (h : n < 2 ^ 64) : sizeOfInt n = n := by
  rw [sizeOfInt, BitVec.ofInt_natCast, BitVec.toNat_ofNat]
  exact Nat.mod_eq_of_lt h

/-- A `size_t` that goes through an `int` keeps 32 bits and repeats the last of them. -/
theorem sizeOfInt_intOfSize (n : Nat) :
    sizeOfInt (intOfSize n) =
      if n % 2 ^ 32 < 2 ^ 31 then n % 2 ^ 32 else n % 2 ^ 32 + (2 ^ 64 - 2 ^ 32) := by
  have hlt : n % 2 ^ 32 < 2 ^ 32 := Nat.mod_lt _ (by omega)
  rw [sizeOfInt, intOfSize, BitVec.toNat_ofInt, BitVec.toInt_eq_toNat_cond, BitVec.toNat_ofNat]
  split
  · rw [if_pos (by omega)]
    omega
  · rw [if_neg (by omega)]
    omega

theorem sizeOfInt_intOfSize_eq_iff {n : Nat} (h : n < 2 ^ 64) :
    sizeOfInt (intOfSize n) = n ↔ n < 2 ^ 31 ∨ 2 ^ 64 - 2 ^ 31 ≤ n := by
  rw [sizeOfInt_intOfSize]
  split <;> omega

theorem wrapInt_natCast {n : Nat} (h : n < 2 ^ 31) : wrapInt n = n := by
  rw [wrapInt, BitVec.ofInt_natCast]
  exact intOfSize_of_lt h

theorem wrapInt_of_natAbs_lt {x : Int} (h : x.natAbs < 2 ^ 31) : wrapInt x = x := by
  rw [wrapInt, BitVec.toInt_ofInt_eq_self (by omega)]
  · omega
  · omega

theorem wrapInt_wrapInt_add (x y : Int) : wrapInt (wrapInt x + y) = wrapInt (x + y) := by
  simp only [wrapInt, BitVec.ofInt_add, BitVec.ofInt_toInt]

end Framework
