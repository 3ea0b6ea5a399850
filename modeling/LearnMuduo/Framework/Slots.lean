import Mathlib.Data.List.Basic

/-!
# Vectors of slots

A vector holds one entry for each member of a collection, and every member knows the position of
its entry. Entries are appended, overwritten in place, and removed at the end; elsewhere the last
entry is moved into the place of the removed one.
-/

namespace Framework

variable {α β : Type*}

/-- The members' entries fill the vector, each at its member's position and related to it. -/
structure Slotted (member : α → Prop) (index : α → Int) (entries : List β)
    (entry : α → β → Prop) : Prop where
  placed : ∀ a, member a → ∃ (i : Nat) (b : β), index a = i ∧ entries[i]? = some b ∧ entry a b
  owned : ∀ i, i < entries.length → ∃ a, member a ∧ index a = (i : Nat)
  separate : ∀ a a', member a → member a' → index a = index a' → a = a'

namespace Slotted

variable {member member' : α → Prop} {index index' : α → Int} {entries : List β}
  {entry entry' : α → β → Prop} {a : α} {b : β} {i : Nat}

theorem nil (h : ∀ a, ¬ member a) : Slotted member index ([] : List β) entry :=
  ⟨fun a ha => absurd ha (h a), fun _ hi => absurd hi (Nat.not_lt_zero _),
    fun a _ ha => absurd ha (h a)⟩

theorem index_lt (h : Slotted member index entries entry) (ha : member a) :
    ∃ i : Nat, index a = i ∧ i < entries.length := by
  obtain ⟨i, b, hi, hb, -⟩ := h.placed a ha
  exact ⟨i, hi, (List.getElem?_eq_some_iff.mp hb).1⟩

theorem entry_at (h : Slotted member index entries entry) (ha : member a) (hi : index a = i)
    (hb : entries[i]? = some b) : entry a b := by
  obtain ⟨j, b', hj, hb', hentry⟩ := h.placed a ha
  have hij : j = i := Int.ofNat_inj.mp (hj.symm.trans hi)
  subst hij
  have hsame : b = b' := Option.some_inj.mp (hb.symm.trans hb')
  exact hsame ▸ hentry

theorem exists_last (h : Slotted member index entries entry) (ha : member a) (hi : index a = i)
    (hlast : i ≠ entries.length - 1) :
    ∃ z, member z ∧ index z = (entries.length - 1 : Nat) ∧ a ≠ z := by
  obtain ⟨j, hj, hlt⟩ := h.index_lt ha
  obtain ⟨z, hz, hzindex⟩ := h.owned (entries.length - 1) (by omega)
  refine ⟨z, hz, hzindex, ?_⟩
  intro heq
  subst heq
  exact hlast (Int.ofNat_inj.mp (hi.symm.trans hzindex))

theorem push (h : Slotted member index entries entry) (ha : ¬ member a)
    (hmember : ∀ x, member' x ↔ x = a ∨ member x) (hindex : index' a = (entries.length : Nat))
    (hindex' : ∀ x, x ≠ a → index' x = index x) (hentry : entry' a b)
    (hentry' : ∀ x, x ≠ a → ∀ y, entry x y → entry' x y) :
    Slotted member' index' (entries ++ [b]) entry' := by
  have hold : ∀ x, member x → x ≠ a := fun x hx heq => ha (heq ▸ hx)
  refine ⟨fun x hx => ?_, fun j hj => ?_, fun x x' hx hx' heq => ?_⟩
  · rcases (hmember x).mp hx with rfl | hx
    · exact ⟨entries.length, b, hindex, List.getElem?_concat_length, hentry⟩
    · obtain ⟨j, y, hj, hy, hxy⟩ := h.placed x hx
      have hlt : j < entries.length := (List.getElem?_eq_some_iff.mp hy).1
      refine ⟨j, y, (hindex' x (hold x hx)).trans hj, ?_, hentry' x (hold x hx) y hxy⟩
      rwa [List.getElem?_append_left hlt]
  · rw [List.length_append, List.length_singleton] at hj
    by_cases hlast : j = entries.length
    · exact ⟨a, (hmember a).mpr (Or.inl rfl), hlast ▸ hindex⟩
    · obtain ⟨x, hx, hxj⟩ := h.owned j (by omega)
      exact ⟨x, (hmember x).mpr (Or.inr hx), (hindex' x (hold x hx)).trans hxj⟩
  · rcases (hmember x).mp hx with rfl | hx
    · rcases (hmember x').mp hx' with rfl | hx'
      · rfl
      · obtain ⟨j, hj, hlt⟩ := h.index_lt hx'
        rw [hindex, hindex' x' (hold x' hx'), hj] at heq
        omega
    · rcases (hmember x').mp hx' with rfl | hx'
      · obtain ⟨j, hj, hlt⟩ := h.index_lt hx
        rw [hindex, hindex' x (hold x hx), hj] at heq
        omega
      · rw [hindex' x (hold x hx), hindex' x' (hold x' hx')] at heq
        exact h.separate x x' hx hx' heq

theorem replace (h : Slotted member index entries entry) (ha : member a) (hi : index a = i)
    (hmember : ∀ x, member' x ↔ member x) (hindex : ∀ x, index' x = index x)
    (hentry : entry' a b) (hentry' : ∀ x, x ≠ a → ∀ y, entry x y → entry' x y) :
    Slotted member' index' (entries.set i b) entry' := by
  refine ⟨fun x hx => ?_, fun j hj => ?_, fun x x' hx hx' heq => ?_⟩
  · obtain ⟨j, y, hj, hy, hxy⟩ := h.placed x ((hmember x).mp hx)
    have hlt : j < entries.length := (List.getElem?_eq_some_iff.mp hy).1
    by_cases hne : x = a
    · subst hne
      have hij : i = j := Int.ofNat_inj.mp (hi.symm.trans hj)
      subst hij
      exact ⟨i, b, (hindex x).trans hi, List.getElem?_set_self hlt, hentry⟩
    · have hij : i ≠ j := by
        intro heq
        subst heq
        exact hne (h.separate x a ((hmember x).mp hx) ha (hj.trans hi.symm))
      refine ⟨j, y, (hindex x).trans hj, ?_, hentry' x hne y hxy⟩
      rwa [List.getElem?_set_ne hij]
  · rw [List.length_set] at hj
    obtain ⟨x, hx, hxj⟩ := h.owned j hj
    exact ⟨x, (hmember x).mpr hx, (hindex x).trans hxj⟩
  · rw [hindex, hindex] at heq
    exact h.separate x x' ((hmember x).mp hx) ((hmember x').mp hx') heq

theorem pop (h : Slotted member index entries entry) (ha : member a)
    (hlast : index a + 1 = (entries.length : Nat)) (hmember : ∀ x, member' x ↔ x ≠ a ∧ member x)
    (hindex : ∀ x, member' x → index' x = index x)
    (hentry : ∀ x, x ≠ a → ∀ y, entry x y → entry' x y) :
    Slotted member' index' entries.dropLast entry' := by
  refine ⟨fun x hx => ?_, fun j hj => ?_, fun x x' hx hx' heq => ?_⟩
  · obtain ⟨hne, hold⟩ := (hmember x).mp hx
    obtain ⟨j, y, hj, hy, hxy⟩ := h.placed x hold
    have hlt : j < entries.length := (List.getElem?_eq_some_iff.mp hy).1
    have hnotLast : j ≠ entries.length - 1 := by
      intro heq
      subst heq
      exact hne (h.separate x a hold ha (by omega))
    refine ⟨j, y, (hindex x hx).trans hj, ?_, hentry x hne y hxy⟩
    rw [List.getElem?_dropLast, if_pos (by omega)]
    exact hy
  · rw [List.length_dropLast] at hj
    obtain ⟨x, hx, hxj⟩ := h.owned j (by omega)
    have hne : x ≠ a := by
      intro heq
      subst heq
      omega
    have hx' := (hmember x).mpr ⟨hne, hx⟩
    exact ⟨x, hx', (hindex x hx').trans hxj⟩
  · rw [hindex x hx, hindex x' hx'] at heq
    exact h.separate x x' ((hmember x).mp hx).2 ((hmember x').mp hx').2 heq

/-- The last member `z` takes the position of the removed member `a`. -/
theorem swapRemove (h : Slotted member index entries entry) {z : α} (ha : member a)
    (hz : member z) (hne : a ≠ z) (hi : index a = i)
    (hlast : index z + 1 = (entries.length : Nat))
    (hmember : ∀ x, member' x ↔ x ≠ a ∧ member x) (hindex : index' z = i)
    (hindex' : ∀ x, x ≠ z → index' x = index x) (hentry : entry' z b)
    (hentry' : ∀ x, x ≠ z → ∀ y, entry x y → entry' x y) :
    Slotted member' index' (entries.set i b).dropLast entry' := by
  obtain ⟨j, hj, hjlt⟩ := h.index_lt ha
  have hij : i = j := Int.ofNat_inj.mp (hi.symm.trans hj)
  have hbound : i < entries.length - 1 := by
    have hdiff : i ≠ entries.length - 1 := by
      intro heq
      exact hne (h.separate a z ha hz (by omega))
    omega
  have hfar : ∀ x, member x → x ≠ a → x ≠ z → ∀ k : Nat, index x = k →
      k ≠ i ∧ (k < entries.length → k < entries.length - 1) := by
    intro x hx hxa hxz k hk
    refine ⟨?_, fun hlt => ?_⟩
    · intro heq
      subst heq
      exact hxa (h.separate x a hx ha (hk.trans hi.symm))
    · have hdiff : k ≠ entries.length - 1 := by
        intro heq
        exact hxz (h.separate x z hx hz (by omega))
      omega
  refine ⟨fun x hx => ?_, fun k hk => ?_, fun x x' hx hx' heq => ?_⟩
  · obtain ⟨hxa, hold⟩ := (hmember x).mp hx
    by_cases hxz : x = z
    · subst hxz
      refine ⟨i, b, hindex, ?_, hentry⟩
      rw [List.getElem?_dropLast, List.length_set, if_pos hbound,
        List.getElem?_set_self (by omega)]
    · obtain ⟨k, y, hk, hy, hxy⟩ := h.placed x hold
      have hlt : k < entries.length := (List.getElem?_eq_some_iff.mp hy).1
      obtain ⟨hki, hkbound⟩ := hfar x hold hxa hxz k hk
      refine ⟨k, y, (hindex' x hxz).trans hk, ?_, hentry' x hxz y hxy⟩
      rw [List.getElem?_dropLast, List.length_set, if_pos (hkbound hlt),
        List.getElem?_set_ne hki.symm]
      exact hy
  · rw [List.length_dropLast, List.length_set] at hk
    by_cases hki : k = i
    · subst hki
      exact ⟨z, (hmember z).mpr ⟨hne.symm, hz⟩, hindex⟩
    · obtain ⟨x, hx, hxk⟩ := h.owned k (by omega)
      have hxa : x ≠ a := by
        intro heq
        subst heq
        exact hki (Int.ofNat_inj.mp (hxk.symm.trans hi))
      have hxz : x ≠ z := by
        intro heq
        subst heq
        omega
      exact ⟨x, (hmember x).mpr ⟨hxa, hx⟩, (hindex' x hxz).trans hxk⟩
  · obtain ⟨hxa, hx⟩ := (hmember x).mp hx
    obtain ⟨hxa', hx'⟩ := (hmember x').mp hx'
    by_cases hxz : x = z
    · by_cases hxz' : x' = z
      · exact hxz.trans hxz'.symm
      · obtain ⟨k, hk, -⟩ := h.index_lt hx'
        rw [hxz, hindex, hindex' x' hxz', hk] at heq
        exact absurd (Int.ofNat_inj.mp heq).symm (hfar x' hx' hxa' hxz' k hk).1
    · by_cases hxz' : x' = z
      · obtain ⟨k, hk, -⟩ := h.index_lt hx
        rw [hxz', hindex, hindex' x hxz, hk] at heq
        exact absurd (Int.ofNat_inj.mp heq) (hfar x hx hxa hxz k hk).1
      · rw [hindex' x hxz, hindex' x' hxz'] at heq
        exact h.separate x x' hx hx' heq

theorem map {γ : Type*} {f : β → γ} {entry' : α → γ → Prop}
    (h : Slotted member index entries entry) (hf : ∀ a b, entry a b → entry' a (f b)) :
    Slotted member index (entries.map f) entry' := by
  refine ⟨fun x hx => ?_, fun i hi => ?_, h.separate⟩
  · obtain ⟨i, b, hi, hb, hentry⟩ := h.placed x hx
    refine ⟨i, f b, hi, ?_, hf x b hentry⟩
    rw [List.getElem?_map, hb]
    rfl
  · rw [List.length_map] at hi
    exact h.owned i hi

theorem exists_owner (h : Slotted member index entries entry) (hb : entries[i]? = some b) :
    ∃ a, member a ∧ index a = (i : Nat) ∧ entry a b := by
  have hlt : i < entries.length := (List.getElem?_eq_some_iff.mp hb).1
  obtain ⟨a, ha, hi⟩ := h.owned i hlt
  exact ⟨a, ha, hi, h.entry_at ha hi hb⟩

section Collect

variable {γ : Type*} {collect : β → Option γ} {report : α → Option γ} {c : γ}

theorem mem_filterMap (h : Slotted member index entries entry)
    (hreport : ∀ a b, member a → entry a b → collect b = report a) :
    c ∈ entries.filterMap collect ↔ ∃ a, member a ∧ report a = some c := by
  rw [List.mem_filterMap]
  constructor
  · rintro ⟨b, hb, hcollect⟩
    obtain ⟨i, hi⟩ := List.mem_iff_getElem?.mp hb
    obtain ⟨a, ha, -, hentry⟩ := h.exists_owner hi
    exact ⟨a, ha, (hreport a b ha hentry).symm.trans hcollect⟩
  · rintro ⟨a, ha, hc⟩
    obtain ⟨i, b, -, hb, hentry⟩ := h.placed a ha
    exact ⟨b, List.mem_of_getElem? hb, (hreport a b ha hentry).trans hc⟩

end Collect

end Slotted

end Framework
