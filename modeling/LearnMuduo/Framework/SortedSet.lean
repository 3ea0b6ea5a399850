import Mathlib.Data.List.Sort
import Mathlib.Data.List.TakeWhile

/-!
# Ordered sets

A finite set of a linear order, kept as the strictly increasing list of its elements, so that
iteration, the least element and the split at a lower bound are read off the list.
-/

namespace Framework

/-- A finite set with its elements in increasing order. -/
structure SortedSet (α : Type*) [LinearOrder α] where
  toList : List α
  sorted : toList.Pairwise (· < ·)
  deriving DecidableEq

namespace SortedSet

variable {α : Type*} [LinearOrder α]

instance : Membership α (SortedSet α) := ⟨fun s a => a ∈ s.toList⟩

instance (a : α) (s : SortedSet α) : Decidable (a ∈ s) := inferInstanceAs (Decidable (a ∈ s.toList))

def empty : SortedSet α := ⟨[], List.Pairwise.nil⟩

def isEmpty (s : SortedSet α) : Bool := s.toList.isEmpty

def size (s : SortedSet α) : Nat := s.toList.length

/-- The least element. -/
def first? (s : SortedSet α) : Option α := s.toList.head?

theorem mem_toList {a : α} {s : SortedSet α} : a ∈ s.toList ↔ a ∈ s := Iff.rfl

@[simp] theorem not_mem_empty (a : α) : a ∉ (empty : SortedSet α) := List.not_mem_nil

theorem mem_of_first? {a : α} {s : SortedSet α} (h : s.first? = some a) : a ∈ s :=
  List.mem_of_mem_head? h

theorem exists_first? {a : α} {s : SortedSet α} (h : a ∈ s) : ∃ b, s.first? = some b := by
  rcases s with ⟨l, hsorted⟩
  cases l with
  | nil => exact absurd h List.not_mem_nil
  | cons b l => exact ⟨b, rfl⟩

theorem nodup (s : SortedSet α) : s.toList.Nodup := s.sorted.imp fun h => ne_of_lt h

private theorem sorted_orderedInsert {l : List α} {a : α} (h : l.Pairwise (· < ·))
    (ha : a ∉ l) : (l.orderedInsert (· ≤ ·) a).Pairwise (· < ·) := by
  have hle : (l.orderedInsert (· ≤ ·) a).Pairwise (· ≤ ·) :=
    (h.imp fun h => le_of_lt h).orderedInsert a l
  have hnodup : (l.orderedInsert (· ≤ ·) a).Nodup := by
    rw [(List.perm_orderedInsert (· ≤ ·) a l).nodup_iff, List.nodup_cons]
    exact ⟨ha, h.imp fun h => ne_of_lt h⟩
  exact (hle.and hnodup).imp fun h => lt_of_le_of_ne h.1 h.2

/-- An element that is present already is not inserted again. -/
def insert (a : α) (s : SortedSet α) : SortedSet α :=
  if h : a ∈ s.toList then s
  else ⟨s.toList.orderedInsert (· ≤ ·) a, sorted_orderedInsert s.sorted h⟩

@[simp] theorem mem_insert {a b : α} {s : SortedSet α} : a ∈ s.insert b ↔ a = b ∨ a ∈ s := by
  unfold insert
  split
  · rename_i h
    constructor
    · exact Or.inr
    · intro hmem
      rcases hmem with rfl | ha
      · exact h
      · exact ha
  · exact List.mem_orderedInsert (· ≤ ·)

def erase (a : α) (s : SortedSet α) : SortedSet α :=
  ⟨s.toList.erase a, s.sorted.sublist List.erase_sublist⟩

@[simp] theorem mem_erase {a b : α} {s : SortedSet α} : a ∈ s.erase b ↔ a ≠ b ∧ a ∈ s :=
  s.nodup.mem_erase_iff

/-- The elements before the first one that is not less than `b`. -/
def below (b : α) (s : SortedSet α) : List α := s.toList.takeWhile (· < b)

/-- The elements from the first one on that is not less than `b`. -/
def notBelow (b : α) (s : SortedSet α) : SortedSet α :=
  ⟨s.toList.dropWhile (· < b), s.sorted.sublist (List.dropWhile_sublist _)⟩

theorem below_append_notBelow (b : α) (s : SortedSet α) :
    s.below b ++ (s.notBelow b).toList = s.toList :=
  List.takeWhile_append_dropWhile

theorem sorted_below (b : α) (s : SortedSet α) : (s.below b).Pairwise (· < ·) :=
  s.sorted.sublist (List.takeWhile_sublist _)

theorem lt_of_mem_below {a b : α} {s : SortedSet α} (h : a ∈ s.below b) : a < b := by
  simpa using List.mem_takeWhile_imp h

theorem le_of_mem_notBelow {a b : α} {s : SortedSet α} (h : a ∈ s.notBelow b) : b ≤ a := by
  rcases s with ⟨l, hsorted⟩
  change a ∈ l.dropWhile (· < b) at h
  induction l with
  | nil => simp at h
  | cons x l ih =>
      rw [List.dropWhile_cons] at h
      rw [List.pairwise_cons] at hsorted
      by_cases hx : x < b
      · simp only [hx, decide_true, if_true] at h
        exact ih hsorted.2 h
      · simp only [hx, decide_false, Bool.false_eq_true, if_false] at h
        rcases List.mem_cons.mp h with rfl | h
        · exact not_lt.mp hx
        · exact le_trans (not_lt.mp hx) (le_of_lt (hsorted.1 a h))

theorem mem_below {a b : α} {s : SortedSet α} : a ∈ s.below b ↔ a ∈ s ∧ a < b := by
  constructor
  · intro h
    exact ⟨(List.takeWhile_sublist _).subset h, lt_of_mem_below h⟩
  · intro hmem
    rcases hmem with ⟨ha, hlt⟩
    rw [← mem_toList, ← s.below_append_notBelow b, List.mem_append] at ha
    rcases ha with ha | ha
    · exact ha
    · exact absurd hlt (not_lt.mpr (le_of_mem_notBelow ha))

theorem mem_notBelow {a b : α} {s : SortedSet α} : a ∈ s.notBelow b ↔ a ∈ s ∧ b ≤ a := by
  constructor
  · intro h
    exact ⟨(List.dropWhile_sublist _).subset h, le_of_mem_notBelow h⟩
  · intro hmem
    rcases hmem with ⟨ha, hle⟩
    rw [← mem_toList, ← s.below_append_notBelow b, List.mem_append] at ha
    rcases ha with ha | ha
    · exact absurd (lt_of_mem_below ha) (not_lt.mpr hle)
    · exact ha

end SortedSet

end Framework
