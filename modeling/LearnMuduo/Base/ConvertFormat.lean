import LearnMuduo.Framework.Checked
import LearnMuduo.Framework.MachineInt
import LearnMuduo.Framework.Numeral
import LearnMuduo.Framework.Overwrite

/-!
# Integers as text

`convert` divides with truncation, so that a negative number has negative digits, and looks these
up in a table that runs from 9 down to 0 and up to 9 again. It writes the last digit first and
reverses what it has written. A `char*` is a position in a memory of characters.
-/

namespace LearnMuduo

open Framework

/-- The types that `formatInteger` is instantiated with; `uintptr_t` is `unsignedLong`. -/
inductive IntegerType
  | int
  | unsignedInt
  | long
  | unsignedLong
  | longLong
  | unsignedLongLong
  deriving DecidableEq, Repr

namespace IntegerType

def bits : IntegerType → Nat
  | .int | .unsignedInt => 32
  | _ => 64

def signed : IntegerType → Bool
  | .int | .long | .longLong => true
  | _ => false

def min (τ : IntegerType) : Int := if τ.signed then -((2 ^ (τ.bits - 1) : Nat) : Int) else 0

def max (τ : IntegerType) : Int :=
  if τ.signed then ((2 ^ (τ.bits - 1) : Nat) : Int) - 1 else ((2 ^ τ.bits : Nat) : Int) - 1

/-- `x` is a value of the type. -/
def Holds (τ : IntegerType) (x : Int) : Prop := τ.min ≤ x ∧ x ≤ τ.max

instance (τ : IntegerType) (x : Int) : Decidable (τ.Holds x) :=
  inferInstanceAs (Decidable (_ ∧ _))

/-- The values of the type. -/
abbrev Value (τ : IntegerType) : Type := { x : Int // τ.Holds x }

theorem min_nonpos (τ : IntegerType) : τ.min ≤ 0 := by
  cases τ <;> decide

theorem max_nonneg (τ : IntegerType) : 0 ≤ τ.max := by
  cases τ <;> decide

theorem Holds.of_between {τ : IntegerType} {x y : Int} (h : τ.Holds x) (hpos : 0 ≤ x → 0 ≤ y)
    (hneg : x ≤ 0 → y ≤ 0) (hle : y.natAbs ≤ x.natAbs) : τ.Holds y := by
  have hmin := τ.min_nonpos
  have hmax := τ.max_nonneg
  rw [Holds] at *
  omega

theorem Holds.natAbs_lt {τ : IntegerType} {x : Int} (h : τ.Holds x) : x.natAbs < 2 ^ 64 := by
  have hmin : -((2 ^ 63 : Nat) : Int) ≤ τ.min := by cases τ <;> decide
  have hmax : τ.max < ((2 ^ 64 : Nat) : Int) := by cases τ <;> decide
  rw [Holds] at h
  omega

theorem Holds.nonneg {τ : IntegerType} {x : Int} (h : τ.Holds x) (hτ : τ.signed = false) :
    0 ≤ x := by
  have hmin := h.1
  rwa [min, hτ] at hmin

end IntegerType

/-- A base, and a table of digits with the position of the digit 0. -/
structure Radix where
  base : Nat
  two_le : 2 ≤ base
  table : List Char
  origin : Nat

/-- `digits`, and `zero` in it. -/
def digits : Radix := ⟨10, by decide, "9876543210123456789".toList, 9⟩

def digitsHex : Radix := ⟨16, by decide, "0123456789ABCDEF".toList, 0⟩

namespace Radix

/-- The table at `k` from the digit 0; no index leaves the table. -/
def lookup (r : Radix) (k : Int) : Checked Char := do
  Checked.assert (0 ≤ r.origin + k ∧ r.origin + k < r.table.length)
  pure (r.table.getD (r.origin + k).toNat '\x00')

end Radix

/-- `*p = c` -/
def store (m : List Char) (p : Nat) (c : Char) : Checked (List Char) := do
  Checked.assert (p < m.length)
  pure (m.set p c)

/-- `std::reverse(first, last)` -/
def reverseRange (m : List Char) (first last : Nat) : List Char :=
  overwrite m first ((m.drop first).take (last - first)).reverse

/-- The loop `do { lsd = i % base; i /= base; *p++ = table[lsd]; } while (i != 0)`. Both operations
are defined if the quotient is a value of the type. -/
def digitLoop (τ : IntegerType) (r : Radix) (m : List Char) (p : Nat) (i : Int) :
    Checked (List Char × Nat) := do
  Checked.assert (τ.Holds (i.tdiv r.base))
  let lsd := wrapInt (i.tmod r.base)
  let c ← r.lookup lsd
  let m ← store m p c
  if h : i.tdiv r.base = 0 then pure (m, p + 1)
  else digitLoop τ r m (p + 1) (i.tdiv r.base)
termination_by i.natAbs
decreasing_by
  have hbase := r.two_le
  have hi : 0 < i.natAbs := by
    rw [Int.natAbs_pos]
    rintro rfl
    exact h (Int.zero_tdiv _)
  rw [Int.natAbs_tdiv, Int.natAbs_natCast]
  exact Nat.div_lt_self hi hbase

def convert (τ : IntegerType) (m : List Char) (buf : Nat) (value : Int) :
    Checked (List Char × Nat) := do
  let (m, p) ← digitLoop τ digits m buf value
  let (m, p) ← if value < 0 then do
      let m ← store m p '-'
      pure (m, p + 1)
    else pure (m, p)
  let m ← store m p '\x00'
  pure (reverseRange m buf p, p - buf)

def convertHex (m : List Char) (buf : Nat) (value : Int) : Checked (List Char × Nat) := do
  let (m, p) ← digitLoop .unsignedLong digitsHex m buf value
  let m ← store m p '\x00'
  pure (reverseRange m buf p, p - buf)

/-- The digits of the bases up to 16, upper case. -/
def digitChar (d : Nat) : Char := (Nat.digitChar d).toUpper

/-- The canonical numeral of `v` in base `b`. -/
def IsText (b : Nat) (v : Int) (text : List Char) : Prop :=
  ∃ ds, IsNumeral b v.natAbs ds ∧ text = (if v < 0 then ['-'] else []) ++ ds.map digitChar

def numeralText (b : Nat) (v : Int) : List Char :=
  (if v < 0 then ['-'] else []) ++ (numeral b v.natAbs).map digitChar

theorem length_numeralText (b : Nat) (v : Int) :
    (numeralText b v).length = (if v < 0 then 1 else 0) + (numeral b v.natAbs).length := by
  rw [numeralText, List.length_append, List.length_map]
  split <;> rfl

theorem isText_iff {b : Nat} (hb : 1 < b) {v : Int} {text : List Char} :
    IsText b v text ↔ text = numeralText b v := by
  constructor
  · rintro ⟨ds, hds, rfl⟩
    rw [numeralText, hds.eq_numeral hb]
  · rintro rfl
    exact ⟨_, isNumeral_numeral hb _, rfl⟩

theorem IntegerType.Holds.length_decimal {τ : IntegerType} {v : Int} (h : τ.Holds v) :
    (numeralText 10 v).length ≤ 21 := by
  have hlt : v.natAbs < 10 ^ 20 := h.natAbs_lt.trans (by decide)
  have hdigits := length_numeral_le (by decide) (by decide) hlt
  rw [length_numeralText]
  split <;> omega

theorem length_hex {v : Int} (h : IntegerType.unsignedLong.Holds v) :
    (numeralText 16 v).length ≤ 16 := by
  have hlt : v.natAbs < 16 ^ 16 := h.natAbs_lt.trans_eq (by decide)
  have hdigits := length_numeral_le (by decide) (by decide) hlt
  have hpos : ¬ v < 0 := Int.not_lt.mpr (h.nonneg rfl)
  rwa [length_numeralText, if_neg hpos, Nat.zero_add]

theorem store_eq {m : List Char} {p : Nat} (h : p < m.length) (c : Char) :
    store m p c = pure (overwrite m p [c]) := by
  rw [← set_eq_overwrite h]
  apply Checked.ext
  · rfl
  · simpa [store] using h

theorem reverseRange_overwrite {m text : List Char} {buf : Nat} (c : Char)
    (h : buf + text.length ≤ m.length) :
    reverseRange (overwrite m buf (text ++ [c])) buf (buf + text.length) =
      overwrite m buf (text.reverse ++ [c]) := by
  have hread : ((overwrite m buf (text ++ [c])).drop buf).take text.length = text := by
    have hwhole : ((overwrite m buf (text ++ [c])).drop buf).take (text ++ [c]).length =
        text ++ [c] :=
      take_drop_overwrite (by omega)
    have hprefix := congrArg (List.take text.length) hwhole
    rwa [List.take_take, List.length_append, Nat.min_eq_left (by omega), List.take_left] at hprefix
  rw [reverseRange, Nat.add_sub_cancel_left, hread]
  exact overwrite_overwrite h text.length_reverse

namespace Radix

/-- The table has the digit of `k`, for negative `k` too where the type has negative values. -/
def Fits (r : Radix) (τ : IntegerType) : Prop :=
  ∀ k, τ.Holds k → k.natAbs < r.base → r.lookup k = pure (digitChar k.natAbs)

end Radix

theorem digits_fits (τ : IntegerType) : digits.Fits τ := by
  have htable : ∀ d : Fin 10, digits.lookup d.val = pure (digitChar d.val) ∧
      digits.lookup (-d.val) = pure (digitChar d.val) := by
    decide
  intro k _ hk
  rcases Int.natAbs_eq k with hpos | hneg
  · rw [hpos]
    exact (htable ⟨_, hk⟩).1
  · rw [hneg, Int.natAbs_neg]
    exact (htable ⟨_, hk⟩).2

theorem digitsHex_fits : digitsHex.Fits .unsignedLong := by
  have htable : ∀ d : Fin 16, digitsHex.lookup d.val = pure (digitChar d.val) := by
    decide
  intro k hk hlt
  rw [← Int.natAbs_of_nonneg (hk.nonneg rfl)]
  exact htable ⟨_, hlt⟩

theorem IntegerType.Holds.tdiv {τ : IntegerType} {i : Int} (h : τ.Holds i) (b : Nat) :
    τ.Holds (i.tdiv b) := by
  apply h.of_between
  · exact fun hi => Int.tdiv_nonneg hi (Int.natCast_nonneg b)
  · intro hi
    have hneg := Int.tdiv_nonneg (a := -i) (by omega) (Int.natCast_nonneg b)
    rw [Int.neg_tdiv] at hneg
    omega
  · exact Int.natAbs_tdiv_le_natAbs i b

theorem IntegerType.Holds.tmod {τ : IntegerType} {i : Int} (h : τ.Holds i) (b : Nat) :
    τ.Holds (i.tmod b) := by
  apply h.of_between
  · exact Int.tmod_nonneg b
  · intro hi
    have hneg := Int.tmod_nonneg b (a := -i) (by omega)
    rw [Int.neg_tmod] at hneg
    omega
  · rw [Int.natAbs_tmod]
    exact Nat.mod_le _ _

theorem natAbs_tdiv_base (i : Int) (b : Nat) : (i.tdiv b).natAbs = i.natAbs / b := by
  rw [Int.natAbs_tdiv, Int.natAbs_natCast]
  rfl

theorem digitLoop_round {τ : IntegerType} {r : Radix} (hr : r.Fits τ) (hbase : r.base < 2 ^ 31)
    {m : List Char} {p : Nat} {i : Int} (hi : τ.Holds i) (hp : p < m.length) :
    digitLoop τ r m p i =
      if i.natAbs < r.base then pure (overwrite m p [digitChar (i.natAbs % r.base)], p + 1)
      else digitLoop τ r (overwrite m p [digitChar (i.natAbs % r.base)]) (p + 1)
        (i.tdiv r.base) := by
  have hmod : (i.tmod r.base).natAbs = i.natAbs % r.base := by
    rw [Int.natAbs_tmod, Int.natAbs_natCast]
  have hlt : i.natAbs % r.base < r.base := Nat.mod_lt _ (Nat.lt_of_lt_of_le Nat.two_pos r.two_le)
  have hlsd : wrapInt (i.tmod r.base) = i.tmod r.base := wrapInt_of_natAbs_lt (by omega)
  have hlast : i.tdiv r.base = 0 ↔ i.natAbs < r.base := by
    have hpos : 0 < r.base := Nat.lt_of_lt_of_le Nat.two_pos r.two_le
    rw [← Int.natAbs_eq_zero, natAbs_tdiv_base, Nat.div_eq_zero_iff]
    omega
  rw [digitLoop, Checked.assert_eq_pure (decide_eq_true (hi.tdiv r.base)), Checked.pure_bind_eq,
    hlsd]
  dsimp only
  rw [hr _ (hi.tmod r.base) (by omega), Checked.pure_bind_eq, store_eq hp, Checked.pure_bind_eq,
    hmod]
  simp only [hlast, dite_eq_ite]

/-- The loop writes the digits, the last one first. The induction is on the value that is left. -/
theorem digitLoop_eq {τ : IntegerType} {r : Radix} (hr : r.Fits τ) (hbase : r.base < 2 ^ 31)
    (m : List Char) (p : Nat) (i : Int) (hi : τ.Holds i)
    (hroom : p + (numeral r.base i.natAbs).length ≤ m.length) :
    digitLoop τ r m p i =
      pure (overwrite m p ((numeral r.base i.natAbs).map digitChar).reverse,
        p + (numeral r.base i.natAbs).length) := by
  have hb : 1 < r.base := r.two_le
  induction hn : i.natAbs using Nat.strong_induction_on generalizing m p i with
  | h n ih =>
      subst hn
      have hpos := length_numeral_pos r.base i.natAbs
      rw [digitLoop_round hr hbase hi (by omega)]
      by_cases hquotient : i.natAbs < r.base
      · rw [if_pos hquotient, numeral_of_lt hquotient, Nat.mod_eq_of_lt hquotient]
        rfl
      · have hle : r.base ≤ i.natAbs := Nat.le_of_not_lt hquotient
        have hless : i.natAbs / r.base < i.natAbs := Nat.div_lt_self (by omega) hb
        rw [numeral_of_le hb hle] at hroom ⊢
        rw [List.length_append, List.length_singleton] at hroom
        have hfit : p + [digitChar (i.natAbs % r.base)].length ≤ m.length := by
          rw [List.length_singleton]
          omega
        have hrest := ih _ hless (overwrite m p [digitChar (i.natAbs % r.base)]) (p + 1)
          (i.tdiv r.base) (hi.tdiv r.base)
          (by rw [length_overwrite hfit, natAbs_tdiv_base]; omega) (natAbs_tdiv_base i r.base)
        rw [if_neg hquotient, hrest]
        simp only [List.map_append, List.map_singleton, List.reverse_append,
          List.reverse_singleton, List.length_append, List.length_singleton]
        rw [← overwrite_append hfit, List.length_singleton, Nat.add_right_comm, Nat.add_assoc]

theorem store_overwrite {m text : List Char} {buf : Nat} (h : buf + text.length < m.length)
    (c : Char) :
    store (overwrite m buf text) (buf + text.length) c = pure (overwrite m buf (text ++ [c])) := by
  have hlen : (overwrite m buf text).length = m.length := length_overwrite (by omega)
  rw [store_eq (by omega), overwrite_append (by omega)]

theorem terminate_eq {m text : List Char} {buf : Nat} (h : buf + text.length < m.length) :
    (do
      let m ← store (overwrite m buf text) (buf + text.length) '\x00'
      pure (reverseRange m buf (buf + text.length), buf + text.length - buf)) =
      (pure (overwrite m buf (text.reverse ++ ['\x00']), text.length) :
        Checked (List Char × Nat)) := by
  rw [store_overwrite h, Checked.pure_bind_eq, reverseRange_overwrite _ (by omega),
    Nat.add_sub_cancel_left]

theorem convert_eq {τ : IntegerType} {v : Int} (hv : τ.Holds v) {m : List Char} {buf : Nat}
    (hroom : buf + (numeralText 10 v).length < m.length) :
    convert τ m buf v =
      pure (overwrite m buf (numeralText 10 v ++ ['\x00']), (numeralText 10 v).length) := by
  have hlen : (numeral 10 v.natAbs).length =
      ((numeral 10 v.natAbs).map digitChar).reverse.length := by
    rw [List.length_reverse, List.length_map]
  have hfit := hroom
  rw [length_numeralText, hlen] at hfit
  rw [convert, digitLoop_eq (digits_fits τ) (by decide) m buf v hv
    (show buf + (numeral 10 v.natAbs).length ≤ m.length by omega), Checked.pure_bind_eq]
  dsimp only [digits]
  rw [hlen, numeralText]
  generalize ((numeral 10 v.natAbs).map digitChar) = text at hfit ⊢
  by_cases hneg : v < 0
  · rw [if_pos hneg] at hfit
    have hend : buf + text.reverse.length + 1 = buf + (text.reverse ++ ['-']).length := by
      rw [List.length_append, List.length_singleton, Nat.add_assoc]
    rw [if_pos hneg, if_pos hneg, store_overwrite (by omega), Checked.pure_bind_eq,
      Checked.pure_bind_eq]
    dsimp only
    rw [hend, terminate_eq (by omega), List.reverse_append, List.reverse_reverse,
      List.length_append, List.length_append, List.length_reverse, Nat.add_comm text.length]
    rfl
  · rw [if_neg hneg] at hfit
    rw [if_neg hneg, if_neg hneg, Checked.pure_bind_eq]
    dsimp only
    rw [terminate_eq (by omega), List.reverse_reverse, List.length_reverse, List.nil_append]

theorem convertHex_eq {v : Int} (hv : IntegerType.unsignedLong.Holds v) {m : List Char}
    {buf : Nat} (hroom : buf + (numeralText 16 v).length < m.length) :
    convertHex m buf v =
      pure (overwrite m buf (numeralText 16 v ++ ['\x00']), (numeralText 16 v).length) := by
  have hpos : ¬ v < 0 := Int.not_lt.mpr (hv.nonneg rfl)
  have htext : numeralText 16 v = (numeral 16 v.natAbs).map digitChar := by
    rw [numeralText, if_neg hpos, List.nil_append]
  have hlen : (numeral 16 v.natAbs).length =
      ((numeral 16 v.natAbs).map digitChar).reverse.length := by
    rw [List.length_reverse, List.length_map]
  rw [htext] at hroom ⊢
  rw [List.length_map] at hroom
  rw [convertHex, digitLoop_eq digitsHex_fits (by decide) m buf v hv
    (show buf + (numeral 16 v.natAbs).length ≤ m.length by omega), Checked.pure_bind_eq]
  change (do
    let m ← store (overwrite m buf ((numeral 16 v.natAbs).map digitChar).reverse)
      (buf + (numeral 16 v.natAbs).length) '\x00'
    pure (reverseRange m buf (buf + (numeral 16 v.natAbs).length),
      buf + (numeral 16 v.natAbs).length - buf)) = _
  rw [hlen, terminate_eq (by omega), List.reverse_reverse, List.length_reverse]

/-- Every value of every integer type becomes its canonical decimal numeral and a NUL, every pointer
its hexadecimal one, given the room. No operation overflows, no index leaves a table, no character
is stored outside the memory. -/
theorem convert_writes_numeral (τ : IntegerType) (v : τ.Value)
    (pointer : IntegerType.unsignedLong.Value) (m : List Char) (buf : Nat) :
    (∃ text, IsText 10 v text ∧
      (buf + text.length < m.length →
        (convert τ m buf v).ok = true ∧
        (convert τ m buf v).val = (overwrite m buf (text ++ ['\x00']), text.length))) ∧
    (∃ text, IsText 16 pointer text ∧
      (buf + text.length < m.length →
        (convertHex m buf pointer).ok = true ∧
        (convertHex m buf pointer).val = (overwrite m buf (text ++ ['\x00']), text.length))) := by
  constructor
  · refine ⟨numeralText 10 v, (isText_iff (by decide)).mpr rfl, fun hroom => ?_⟩
    rw [convert_eq v.property hroom]
    exact ⟨rfl, rfl⟩
  · refine ⟨numeralText 16 pointer, (isText_iff (by decide)).mpr rfl, fun hroom => ?_⟩
    rw [convertHex_eq pointer.property hroom]
    exact ⟨rfl, rfl⟩

theorem convert_writes_numeral_least :
    ((convert .int (List.replicate 32 ' ') 0 (-2147483648)).ok = true ∧
      (convert .int (List.replicate 32 ' ') 0 (-2147483648)).val =
        (overwrite (List.replicate 32 ' ') 0 ("-2147483648".toList ++ ['\x00']), 11)) ∧
    ((convertHex (List.replicate 32 ' ') 2 3735928559).ok = true ∧
      (convertHex (List.replicate 32 ' ') 2 3735928559).val =
        (overwrite (List.replicate 32 ' ') 2 ("DEADBEEF".toList ++ ['\x00']), 8)) := by
  have hleast : numeralText 10 (-2147483648) = "-2147483648".toList := by decide
  have hpointer : numeralText 16 3735928559 = "DEADBEEF".toList := by decide
  constructor
  · rcases (convert_writes_numeral .int ⟨-2147483648, by decide⟩ ⟨0, by decide⟩
      (List.replicate 32 ' ') 0).1 with ⟨text, htext, h⟩
    rw [isText_iff (by decide)] at htext
    subst htext
    rw [hleast] at h
    exact h (by decide)
  · rcases (convert_writes_numeral .int ⟨0, by decide⟩ ⟨3735928559, by decide⟩
      (List.replicate 32 ' ') 2).2 with ⟨text, htext, h⟩
    rw [isText_iff (by decide)] at htext
    subst htext
    rw [hpointer] at h
    exact h (by decide)

end LearnMuduo
