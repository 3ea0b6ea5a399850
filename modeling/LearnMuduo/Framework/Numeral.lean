import Mathlib.Data.Nat.Digits.Lemmas

/-!
# Numerals

The digits of a natural number in a base as one writes them, the most significant first. They are
unique once no zero may stand in front of others.
-/

namespace Framework

variable {b n k : Nat} {ds : List Nat}

/-- `ds` writes `n` in base `b`; a zero comes first only alone. -/
structure IsNumeral (b n : Nat) (ds : List Nat) : Prop where
  digit : ∀ d ∈ ds, d < b
  value : Nat.ofDigits b ds.reverse = n
  ne_nil : ds ≠ []
  leading : ds.head? = some 0 → ds = [0]

def numeral (b n : Nat) : List Nat :=
  if n = 0 then [0] else (Nat.digits b n).reverse

theorem numeral_of_ne_zero (h : n ≠ 0) : numeral b n = (Nat.digits b n).reverse :=
  if_neg h

theorem isNumeral_numeral (hb : 1 < b) (n : Nat) : IsNumeral b n (numeral b n) := by
  by_cases hn : n = 0
  · subst hn
    constructor
    · simp [numeral]
      omega
    · simp [numeral]
    · simp [numeral]
    · simp [numeral]
  · rw [numeral_of_ne_zero hn]
    constructor
    · intro d hd
      exact Nat.digits_lt_base hb (List.mem_reverse.mp hd)
    · rw [List.reverse_reverse, Nat.ofDigits_digits]
    · simp [Nat.digits_eq_nil_iff_eq_zero, hn]
    · intro hzero
      have hlast := Nat.getLast_digit_ne_zero b hn
      rw [List.head?_reverse, List.getLast?_eq_some_getLast (Nat.digits_ne_nil_iff_ne_zero.mpr hn)]
        at hzero
      exact absurd (Option.some.inj hzero) hlast

theorem IsNumeral.eq_numeral (hb : 1 < b) (h : IsNumeral b n ds) : ds = numeral b n := by
  by_cases hhead : ds.head? = some 0
  · have hds := h.leading hhead
    have hn := h.value
    rw [hds] at hn
    have hzero : n = 0 := by simpa using hn.symm
    rw [hds, hzero, numeral, if_pos rfl]
  · have hlast : ∀ hne : ds.reverse ≠ [], ds.reverse.getLast hne ≠ 0 := by
      intro hne hzero
      apply hhead
      rw [← List.getLast?_reverse, List.getLast?_eq_some_getLast hne, hzero]
    have hdigits := Nat.digits_ofDigits b hb ds.reverse
      (fun d hd => h.digit d (List.mem_reverse.mp hd)) hlast
    rw [h.value] at hdigits
    have hn : n ≠ 0 := by
      rintro rfl
      apply h.ne_nil
      simpa using hdigits
    rw [numeral_of_ne_zero hn, hdigits, List.reverse_reverse]

theorem numeral_of_lt (h : n < b) : numeral b n = [n] := by
  by_cases hn : n = 0
  · rw [hn, numeral, if_pos rfl]
  · rw [numeral_of_ne_zero hn, Nat.digits_of_lt b n hn h, List.reverse_singleton]

theorem numeral_of_le (hb : 1 < b) (h : b ≤ n) : numeral b n = numeral b (n / b) ++ [n % b] := by
  have hn : 0 < n := by omega
  have hquotient : n / b ≠ 0 := (Nat.div_pos h (by omega)).ne'
  rw [numeral_of_ne_zero hn.ne', numeral_of_ne_zero hquotient, Nat.digits_def' hb hn,
    List.reverse_cons]

theorem length_numeral_le (hb : 1 < b) (hk : 0 < k) (h : n < b ^ k) :
    (numeral b n).length ≤ k := by
  by_cases hn : n = 0
  · rw [numeral, if_pos hn]
    exact hk
  · rw [numeral_of_ne_zero hn, List.length_reverse]
    exact (Nat.digits_length_le_iff hb n).mpr h

theorem length_numeral_pos (b n : Nat) : 0 < (numeral b n).length := by
  by_cases hn : n = 0
  · simp [numeral, hn]
  · simp [numeral_of_ne_zero hn, List.length_pos_iff, Nat.digits_eq_nil_iff_eq_zero, hn]

end Framework
