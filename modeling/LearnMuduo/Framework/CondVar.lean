import Mathlib.Data.Finset.Card

/-!
# Condition variables

A condition variable whose mutex is held in one step with everything done under it. Its threads are
asleep (`waiting`) or notified and not yet resumed (`notified`); who sleeps may also wake on its
own. `Covers k` is the invariant that rules missed wakeups out: as long as a thread sleeps, there
are notified threads for `k` chances.
-/

namespace Framework

structure CondVar (T : Type*) where
  waiting : Finset T
  notified : Finset T
  disjoint : Disjoint waiting notified

namespace CondVar

variable {T : Type*}

def free : CondVar T where
  waiting := ∅
  notified := ∅
  disjoint := Finset.disjoint_empty_left _

variable [DecidableEq T]

/-- The thread sleeps, for the first time or again. -/
def wait (c : CondVar T) (t : T) : CondVar T where
  waiting := insert t c.waiting
  notified := c.notified.erase t
  disjoint := by
    rw [Finset.disjoint_insert_left]
    exact ⟨Finset.notMem_erase _ _, c.disjoint.mono_right (Finset.erase_subset _ _)⟩

/-- The thread goes on, notified or not. -/
def leave (c : CondVar T) (t : T) : CondVar T where
  waiting := c.waiting
  notified := c.notified.erase t
  disjoint := c.disjoint.mono_right (Finset.erase_subset _ _)

/-- A spurious wakeup. -/
def wake (c : CondVar T) (t : T) : CondVar T where
  waiting := c.waiting.erase t
  notified := c.notified
  disjoint := c.disjoint.mono_left (Finset.erase_subset _ _)

/-- What `notifyOne` may pick: a sleeping thread, and none only if there is none. -/
def Picks (c : CondVar T) : Option T → Prop
  | some t => t ∈ c.waiting
  | none => c.waiting = ∅

instance (c : CondVar T) (o : Option T) : Decidable (c.Picks o) :=
  match o with
  | some t => inferInstanceAs (Decidable (t ∈ c.waiting))
  | none => inferInstanceAs (Decidable (c.waiting = ∅))

def notifyOne (c : CondVar T) : Option T → CondVar T
  | none => c
  | some t =>
    { waiting := c.waiting.erase t
      notified := insert t c.notified
      disjoint := by
        rw [Finset.disjoint_insert_right]
        exact ⟨Finset.notMem_erase _ _, c.disjoint.mono_left (Finset.erase_subset _ _)⟩ }

def notifyAll (c : CondVar T) : CondVar T where
  waiting := ∅
  notified := c.waiting ∪ c.notified
  disjoint := Finset.disjoint_empty_left _

/-- The threads that wait or have been notified. -/
def threads (c : CondVar T) : Finset T :=
  c.waiting ∪ c.notified

omit [DecidableEq T] in
theorem exists_picks (c : CondVar T) : ∃ o, c.Picks o := by
  rcases c.waiting.eq_empty_or_nonempty with hempty | ⟨t, ht⟩
  · exact ⟨none, hempty⟩
  · exact ⟨some t, ht⟩

theorem card_threads (c : CondVar T) :
    c.threads.card = c.waiting.card + c.notified.card :=
  Finset.card_union_of_disjoint c.disjoint

theorem threads_wait (c : CondVar T) (t : T) : (c.wait t).threads ⊆ insert t c.threads := by
  intro u hu
  simp only [threads, wait, Finset.mem_union, Finset.mem_insert, Finset.mem_erase] at hu ⊢
  tauto

theorem threads_leave {c : CondVar T} {t : T} (ht : t ∉ c.waiting) :
    (c.leave t).threads ⊆ c.threads.erase t := by
  intro u hu
  simp only [threads, leave, Finset.mem_union, Finset.mem_erase] at hu ⊢
  rcases hu with hwaiting | ⟨hne, hnotified⟩
  · refine ⟨?_, Or.inl hwaiting⟩
    rintro rfl
    exact ht hwaiting
  · exact ⟨hne, Or.inr hnotified⟩

theorem threads_wake (c : CondVar T) (t : T) : (c.wake t).threads ⊆ c.threads :=
  Finset.union_subset_union_left (Finset.erase_subset _ _)

theorem threads_notifyOne {c : CondVar T} {o : Option T} (h : c.Picks o) :
    (c.notifyOne o).threads ⊆ c.threads := by
  cases o with
  | none => exact Finset.Subset.refl _
  | some t =>
      intro u hu
      simp only [threads, notifyOne, Finset.mem_union, Finset.mem_erase, Finset.mem_insert] at hu ⊢
      rcases hu with ⟨_, hwaiting⟩ | rfl | hnotified
      · exact Or.inl hwaiting
      · exact Or.inl h
      · exact Or.inr hnotified

/-- As long as a thread sleeps there are at least `k` notified ones. -/
def Covers (c : CondVar T) (k : Nat) : Prop :=
  c.waiting.Nonempty → k ≤ c.notified.card

variable {c : CondVar T} {k k' : Nat} {t : T}

omit [DecidableEq T] in
theorem Covers.mono (h : c.Covers k) (hk : k' ≤ k) : c.Covers k' :=
  fun hwaiting => hk.trans (h hwaiting)

omit [DecidableEq T] in
theorem covers_zero (c : CondVar T) : c.Covers 0 :=
  fun _ => Nat.zero_le _

theorem Covers.leave (h : c.Covers k) (t : T) : (c.leave t).Covers (k - 1) := by
  intro hwaiting
  have hcard : c.notified.card - 1 ≤ (c.notified.erase t).card := Finset.pred_card_le_card_erase
  exact (Nat.sub_le_sub_right (h hwaiting) 1).trans hcard

theorem Covers.wake (h : c.Covers k) (t : T) : (c.wake t).Covers k :=
  fun hwaiting => h (hwaiting.mono (Finset.erase_subset _ _))

theorem Covers.notifyOne {o : Option T} (h : c.Covers k) (ho : c.Picks o) :
    (c.notifyOne o).Covers (k + 1) := by
  intro hwaiting
  cases o with
  | none => exact absurd ho hwaiting.ne_empty
  | some t =>
      have hnotified : t ∉ c.notified := Finset.disjoint_left.mp c.disjoint ho
      have hcard : (c.notifyOne (some t)).notified.card = c.notified.card + 1 :=
        Finset.card_insert_of_notMem hnotified
      rw [hcard]
      exact Nat.succ_le_succ (h ⟨t, ho⟩)

theorem covers_notifyAll (c : CondVar T) (k : Nat) : c.notifyAll.Covers k :=
  fun hwaiting => absurd rfl hwaiting.ne_empty

end CondVar

end Framework
