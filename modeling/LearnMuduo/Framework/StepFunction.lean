import Mathlib.Data.List.Basic

/-!
# Step functions and binary search

A list of changes in increasing order of their keys is a function that is constant from one key to
the next. The value at a point is that of the last change whose key is not above it; binary search
finds the place.
-/

namespace Framework

/-- Binary search among the `len` places from `first` on, as `std::lower_bound` does it: `below`
tells whether what is at a place is below the value sought. `fuel` bounds the number of rounds. -/
def lowerBoundFrom (below : Nat → Bool) : Nat → Nat → Nat → Nat
  | 0, first, _ => first
  | fuel + 1, first, len =>
    if len = 0 then first
    else if below (first + len / 2) then
      lowerBoundFrom below fuel (first + len / 2 + 1) (len - len / 2 - 1)
    else lowerBoundFrom below fuel first (len / 2)

/-- `std::lower_bound` on `n` places. -/
def lowerBound (below : Nat → Bool) (n : Nat) : Nat := lowerBoundFrom below n 0 n

theorem lowerBoundFrom_bounds (below : Nat → Bool) {fuel : Nat} (first len : Nat)
    (h : len ≤ fuel) :
    first ≤ lowerBoundFrom below fuel first len ∧
      lowerBoundFrom below fuel first len ≤ first + len := by
  induction fuel generalizing first len with
  | zero => exact ⟨Nat.le_refl _, Nat.le_add_right _ _⟩
  | succ fuel ih =>
      rw [lowerBoundFrom]
      split
      · omega
      · split
        · have hrest := ih (first + len / 2 + 1) (len - len / 2 - 1) (by omega)
          omega
        · have hrest := ih first (len / 2) (by omega)
          omega

/-- Whatever the order, the place found is next to one that is below, unless it is the first, and
is not below itself, unless it is the end. -/
theorem lowerBoundFrom_edge (below : Nat → Bool) {fuel : Nat} (first len : Nat)
    (h : len ≤ fuel) :
    (lowerBoundFrom below fuel first len ≠ first →
      below (lowerBoundFrom below fuel first len - 1) = true) ∧
    (lowerBoundFrom below fuel first len ≠ first + len →
      below (lowerBoundFrom below fuel first len) = false) := by
  induction fuel generalizing first len with
  | zero =>
      have hzero : len = 0 := Nat.le_zero.mp h
      subst hzero
      exact ⟨fun hne => absurd rfl hne, fun hne => absurd rfl hne⟩
  | succ fuel ih =>
      rw [lowerBoundFrom]
      split
      · rename_i hzero
        subst hzero
        exact ⟨fun hne => absurd rfl hne, fun hne => absurd rfl hne⟩
      · split
        · rename_i hlen hbelow
          have hle : len - len / 2 - 1 ≤ fuel := by omega
          have hbounds := lowerBoundFrom_bounds below (first + len / 2 + 1) _ hle
          obtain ⟨hleft, hright⟩ := ih (first + len / 2 + 1) _ hle
          constructor
          · intro _
            by_cases hsame : lowerBoundFrom below fuel (first + len / 2 + 1) (len - len / 2 - 1) =
                first + len / 2 + 1
            · rw [hsame]
              exact hbelow
            · exact hleft hsame
          · intro hne
            exact hright (by omega)
        · rename_i hlen hbelow
          have hle : len / 2 ≤ fuel := by omega
          have hbounds := lowerBoundFrom_bounds below first _ hle
          obtain ⟨hleft, hright⟩ := ih first _ hle
          refine ⟨hleft, fun _ => ?_⟩
          by_cases hsame : lowerBoundFrom below fuel first (len / 2) = first + len / 2
          · rw [hsame]
            exact Bool.eq_false_iff.mpr hbelow
          · exact hright hsame

theorem lowerBound_le (below : Nat → Bool) (n : Nat) : lowerBound below n ≤ n := by
  have hbounds := lowerBoundFrom_bounds below 0 n (Nat.le_refl n)
  rw [lowerBound]
  omega

theorem below_of_lt_lowerBound {below : Nat → Bool} {n : Nat} (h : 0 < lowerBound below n) :
    below (lowerBound below n - 1) = true :=
  (lowerBoundFrom_edge below 0 n (Nat.le_refl n)).1 (Nat.ne_of_gt h)

theorem not_below_lowerBound {below : Nat → Bool} {n : Nat} (h : lowerBound below n < n) :
    below (lowerBound below n) = false := by
  apply (lowerBoundFrom_edge below 0 n (Nat.le_refl n)).2
  rw [Nat.zero_add]
  exact Nat.ne_of_lt h

section

variable {α β : Type*} (key : α → Int) (value : α → β)

/-- The value at `x`, where `before` is the value ahead of the first change. -/
def stepAt (before : β) : List α → Int → β
  | [], _ => before
  | a :: l, x => if key a ≤ x then stepAt (value a) l x else before

variable {key value}

theorem stepAt_cons_of_lt {before : β} {a : α} {l : List α} {x : Int} (h : x < key a) :
    stepAt key value before (a :: l) x = before := by
  rw [stepAt, if_neg (Int.not_le.mpr h)]

theorem stepAt_cons_of_le {before : β} {a : α} {l : List α} {x : Int} (h : key a ≤ x) :
    stepAt key value before (a :: l) x = stepAt key value (value a) l x := by
  rw [stepAt, if_pos h]

theorem stepAt_cases (key : α → Int) (value : α → β) (before : β) (l : List α) (x : Int) :
    stepAt key value before l x = before ∨ ∃ a ∈ l, stepAt key value before l x = value a := by
  induction l generalizing before with
  | nil => exact Or.inl rfl
  | cons a l ih =>
      rw [stepAt]
      split
      · right
        rcases ih (value a) with heq | ⟨b, hb, heq⟩
        · exact ⟨a, List.mem_cons_self, heq⟩
        · exact ⟨b, List.mem_cons_of_mem _ hb, heq⟩
      · exact Or.inl rfl

theorem stepAt_eq {before : β} {l : List α} {x : Int}
    (hsorted : l.Pairwise fun a b => key a < key b) {c : Nat} (hc : c < l.length)
    (hle : key l[c] ≤ x) (hnext : ∀ h : c + 1 < l.length, x < key l[c + 1]) :
    stepAt key value before l x = value l[c] := by
  induction l generalizing before c with
  | nil => exact absurd hc (Nat.not_lt_zero _)
  | cons a l ih =>
      rw [List.pairwise_cons] at hsorted
      cases c with
      | zero =>
          rw [List.getElem_cons_zero] at hle ⊢
          rw [stepAt_cons_of_le hle]
          cases l with
          | nil => rfl
          | cons b l => exact stepAt_cons_of_lt (hnext (by simp))
      | succ c =>
          have hc' : c < l.length := Nat.lt_of_succ_lt_succ hc
          have hfirst : key a < key l[c] := hsorted.1 _ (List.getElem_mem hc')
          rw [List.getElem_cons_succ] at hle ⊢
          rw [stepAt_cons_of_le (by omega)]
          exact ih hsorted.2 hc' hle fun h => hnext (Nat.succ_lt_succ h)

end

end Framework
