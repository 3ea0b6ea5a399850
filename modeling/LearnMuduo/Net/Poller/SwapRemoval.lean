import LearnMuduo.Framework.Run
import LearnMuduo.Net.Poller.Poll
import Mathlib.Data.Set.Card
import Mathlib.Data.Fin.VecNotation

/-!
# Removal by swapping

`removeChannel` moves the last entry into the gap and finds its channel by the descriptor that the
entry holds, negated or not. The entries can be told apart as long as no new channel other than
the one on descriptor 0 comes without interest, and no removed channel is set again in a way that
writes its old place.
-/

namespace LearnMuduo

open Framework

variable {C : Type}

namespace PollPoller

/-- The vector has an entry for each entry of the map, every registered channel finds its own
entry at its index, and no two share one. -/
structure Addressable (fd : C → Int) (s : PollPoller C) : Prop where
  size : Set.encard {f | s.channelMap f ≠ none} = s.pollFdList.length
  placed : ∀ c, Registered fd s c →
    0 ≤ (s.channels c).index ∧ (s.channels c).index < s.pollFdList.length ∧
      Belongs (fd c) (s.entry (s.channels c).index)
  separate : ∀ c c', Registered fd s c → Registered fd s c' →
    (s.channels c).index = (s.channels c').index → c = c'

/-- What `removeChannel` asserts of a registered channel: its interest is empty, and its entry
holds the negated descriptor. -/
def Removable (s : PollPoller C) : PollerOp C → Prop
  | .set _ _ => True
  | .remove c =>
      let channel := s.channels c
      s.channelMap channel.fd = some c ∧ channel.isNoneEvent = true ∧
        (s.entry channel.index).fd = -channel.fd - 1

/-- The call takes no entry outside the vector. -/
def InRange (s : PollPoller C) (op : PollerOp C) : Prop :=
  (s.channels op.channel).index < s.pollFdList.length

/-- The setters that keep the entries apart: a new channel comes with an interest or has
descriptor 0, a removed one comes with an interest and its old place is inside the vector. -/
def Traceable (s : PollPoller C) : PollerOp C → Prop
  | .set c interest =>
      let channel := s.channels c
      if channel.index < 0 then (channel.set interest).isNoneEvent = false ∨ channel.fd = 0
      else s.channelMap channel.fd = some c ∨
        channel.index < s.pollFdList.length ∧ (channel.set interest).isNoneEvent = false
  | .remove _ => True

/-- Channels keep their descriptors, under which the map holds them. -/
structure Keyed (fd : C → Int) (s : PollPoller C) : Prop where
  fds : ∀ c, (s.channels c).fd = fd c
  mapped : ∀ f c, s.channelMap f = some c → fd c = f

variable [DecidableEq C]

/-- One call, without assertions other than those on a removal. -/
structure CallStep (s : PollPoller C) (op : PollerOp C) (s' : PollPoller C) : Prop where
  removable : s.Removable op
  next : s' = (s.apply op).val

/-- The call takes its own entries, and every registered channel is addressable after it. -/
structure KeepsAddressable (fd : C → Int) (s : PollPoller C) (op : PollerOp C) : Prop where
  inRange : s.InRange op
  addressable : Addressable fd (s.apply op).val

/-- After each call, made from an empty poller, every registered channel is addressable. -/
def StaysAddressable (fd : C → Int) (ops : List (PollerOp C)) : Prop :=
  ∀ before op after s, ops = before ++ op :: after → Run CallStep (create fd) before s →
    KeepsAddressable fd s op

def StaysTraceable (fd : C → Int) (ops : List (PollerOp C)) : Prop :=
  ∀ before op after s, ops = before ++ op :: after → Run CallStep (create fd) before s →
    s.Traceable op

omit [DecidableEq C]

section Slots

variable {fd : C → Int} {s : PollPoller C} {c : C}

theorem keyed_create (fd : C → Int) : Keyed fd (create fd) := ⟨fun _ => rfl, fun _ _ h => nomatch h⟩

theorem Keyed.keys_eq (h : Keyed fd s) :
    {f | s.channelMap f ≠ none} = fd '' {c | Registered fd s c} := by
  ext f
  simp only [Set.mem_ofPred_eq, Set.mem_image]
  constructor
  · intro hne
    obtain ⟨c, hc⟩ := Option.ne_none_iff_exists'.mp hne
    have hf := h.mapped f c hc
    subst hf
    exact ⟨c, hc, rfl⟩
  · rintro ⟨c, hc, rfl⟩
    rw [Registered] at hc
    rw [hc]
    exact Option.some_ne_none c

theorem Keyed.encard_places (hinj : Function.Injective fd) (h : Keyed fd s)
    (hplaced : ∀ c, Registered fd s c → 0 ≤ (s.channels c).index)
    (hseparate : ∀ c c', Registered fd s c → Registered fd s c' →
      (s.channels c).index = (s.channels c').index → c = c') :
    Set.encard ((fun c => (s.channels c).index.toNat) '' {c | Registered fd s c}) =
      Set.encard {f | s.channelMap f ≠ none} := by
  have hinjOn : Set.InjOn (fun c => (s.channels c).index.toNat) {c | Registered fd s c} := by
    intro c hc c' hc' heq
    have hpos := hplaced c hc
    have hpos' := hplaced c' hc'
    apply hseparate c c' hc hc'
    simp only at heq
    omega
  rw [h.keys_eq, hinjOn.encard_image, hinj.encard_image]

/-- The registered channels are addressable if and only if their entries fill the vector. -/
theorem addressable_iff_slotted (hinj : Function.Injective fd) (h : Keyed fd s) :
    Addressable fd s ↔ Slotted (Registered fd s) (fun c => (s.channels c).index) s.pollFdList
      (fun c => Belongs (fd c)) := by
  let place := fun c => (s.channels c).index.toNat
  constructor
  · intro haddr
    have hsub : place '' {c | Registered fd s c} ⊆ {i | i < s.pollFdList.length} := by
      rintro i ⟨c, hc, rfl⟩
      obtain ⟨hpos, hlt, -⟩ := haddr.placed c hc
      simp only [place, Set.mem_ofPred_eq]
      omega
    have hcount := h.encard_places hinj (fun c hc => (haddr.placed c hc).1) haddr.separate
    -- as many places as the vector has entries, so that all of them are taken
    have hall : place '' {c | Registered fd s c} = {i | i < s.pollFdList.length} := by
      have hfinite : Set.Finite {i | i < s.pollFdList.length} := Set.finite_lt_nat _
      apply hfinite.eq_of_subset_of_encard_le' hsub
      rw [Set.Nat.encard_range, hcount, haddr.size]
    refine ⟨?_, ?_, haddr.separate⟩
    · intro c hc
      obtain ⟨hpos, hlt, hbelongs⟩ := haddr.placed c hc
      obtain ⟨i, hi⟩ := Int.eq_ofNat_of_zero_le hpos
      rw [hi] at hlt hbelongs
      have hlt' : i < s.pollFdList.length := by omega
      refine ⟨i, s.entry i, hi, ?_, hbelongs⟩
      simp [entry, hlt']
    · intro i hlt
      have hmem : i ∈ place '' {c | Registered fd s c} := by
        rw [hall]
        exact hlt
      obtain ⟨c, hc, hplace⟩ := hmem
      have hpos := (haddr.placed c hc).1
      simp only [place] at hplace
      exact ⟨c, hc, by omega⟩
  · intro hslots
    have hpos : ∀ c, Registered fd s c → 0 ≤ (s.channels c).index := by
      intro c hc
      obtain ⟨i, hi, -⟩ := hslots.index_lt hc
      omega
    refine ⟨?_, ?_, hslots.separate⟩
    · rw [← h.encard_places hinj hpos hslots.separate, ← Set.Nat.encard_range]
      congr 1
      ext i
      simp only [Set.mem_image, Set.mem_ofPred_eq]
      constructor
      · rintro ⟨c, hc, rfl⟩
        obtain ⟨i, hi, hlt⟩ := hslots.index_lt hc
        omega
      · intro hlt
        obtain ⟨c, hc, hi⟩ := hslots.owned i hlt
        exact ⟨c, hc, by omega⟩
    · intro c hc
      obtain ⟨i, e, hi, he, hbelongs⟩ := hslots.placed c hc
      have hlt : i < s.pollFdList.length := (List.getElem?_eq_some_iff.mp he).1
      refine ⟨by omega, by omega, ?_⟩
      simpa [hi, entry, he] using hbelongs

theorem addressable_create (fd : C → Int) (hinj : Function.Injective fd) :
    Addressable fd (create fd) :=
  (addressable_iff_slotted hinj (keyed_create fd)).mpr (Slotted.nil fun _ h => nomatch h)

end Slots

section Steps

variable [DecidableEq C] {fd : C → Int} {s : PollPoller C} {c : C}

theorem Keyed.set (h : Keyed fd s) (c : C) (interest : Interest) :
    Keyed fd (s.apply (.set c interest)).val := by
  have hfd : ((s.channels c).set interest).fd = fd c := by rw [Channel.fd_set, h.fds]
  by_cases hindex : (s.channels c).index < 0
  · rw [val_set_fresh (h.fds c) hindex]
    exact ⟨fds_update h.fds hfd, mapped_update h.mapped (Or.inr rfl)⟩
  · obtain ⟨i, hi⟩ := Int.eq_ofNat_of_zero_le (Int.not_lt.mp hindex)
    rw [val_set_indexed (h.fds c) hi]
    exact ⟨fds_update h.fds hfd, h.mapped⟩

omit [DecidableEq C] in
theorem belongs_added {f : Int} (hf : 0 ≤ f) (channel : Channel) :
    Belongs f (added f channel) ↔ channel.isNoneEvent = false ∨ f = 0 := by
  cases hnone : channel.isNoneEvent with
  | false => simp [Belongs, added, hnone]
  | true =>
      simp only [Belongs, added, hnone, if_true, Bool.true_eq_false, false_or]
      omega

omit [DecidableEq C] in
theorem belongs_updated {f : Int} {i : Nat} (h : Belongs f (s.entry i)) (channel : Channel) :
    Belongs f (s.updated f i channel) := by
  cases hnone : channel.isNoneEvent with
  | false => simpa [Belongs, updated, hnone] using h
  | true => simp [Belongs, updated, hnone]

theorem Keyed.set_fresh_iff (hinj : Function.Injective fd) (hnonneg : ∀ c, 0 ≤ fd c)
    (h : Keyed fd s) (haddr : Addressable fd s) (hindex : (s.channels c).index < 0)
    (interest : Interest) :
    Addressable fd (s.apply (.set c interest)).val ↔
      ((s.channels c).set interest).isNoneEvent = false ∨ fd c = 0 := by
  have hslots := (addressable_iff_slotted hinj h).mp haddr
  let channel := ((s.channels c).set interest).setIndex (s.pollFdList.length : Nat)
  have hkeyed := h.set c interest
  have hnew : ¬ Registered fd s c := by
    intro hreg
    have hpos := (haddr.placed c hreg).1
    omega
  rw [addressable_iff_slotted hinj hkeyed, val_set_fresh (h.fds c) hindex,
    ← belongs_added (hnonneg c)]
  have hplace : (Function.update s.channels c channel c).index = (s.pollFdList.length : Nat) := by
    simp [channel, Channel.setIndex]
  constructor
  · intro hslots'
    apply hslots'.entry_at _ hplace List.getElem?_concat_length
    exact (registered_update hinj).mpr (Or.inl ⟨rfl, rfl⟩)
  · intro hbelongs
    apply hslots.push hnew _ hplace _ hbelongs (fun _ _ _ he => he)
    · intro c'
      rw [registered_update hinj]
      by_cases hne : c' = c
      · simp [hne]
      · simp [hne]
    · intro c' hne
      simp [hne]

theorem Keyed.set_registered (hinj : Function.Injective fd) (h : Keyed fd s)
    (haddr : Addressable fd s) (hreg : Registered fd s c) (interest : Interest) :
    Addressable fd (s.apply (.set c interest)).val := by
  have hslots := (addressable_iff_slotted hinj h).mp haddr
  obtain ⟨i, e, hi, he, hbelongs⟩ := hslots.placed c hreg
  have hentry : s.entry i = e := by simp [entry, he]
  have hkeyed := h.set c interest
  rw [addressable_iff_slotted hinj hkeyed, val_set_indexed (h.fds c) hi]
  apply hslots.replace hreg hi (fun _ => Iff.rfl)
  · intro c'
    by_cases hne : c' = c
    · subst hne
      simp
    · simp [hne]
  · rw [← hentry] at hbelongs
    exact belongs_updated hbelongs _
  · exact fun _ _ _ he => he

theorem Keyed.set_removed_iff (hinj : Function.Injective fd) (hnonneg : ∀ c, 0 ≤ fd c)
    (h : Keyed fd s) (haddr : Addressable fd s) (hreg : ¬ Registered fd s c) {i : Nat}
    (hi : (s.channels c).index = i) (hlt : i < s.pollFdList.length) (interest : Interest) :
    Addressable fd (s.apply (.set c interest)).val ↔
      ((s.channels c).set interest).isNoneEvent = false := by
  have hslots := (addressable_iff_slotted hinj h).mp haddr
  have hkeyed := h.set c interest
  obtain ⟨o, horeg, hoi⟩ := hslots.owned i hlt
  have hoc : o ≠ c := by
    intro heq
    subst heq
    exact hreg horeg
  have hindex : ∀ c', (Function.update s.channels c ((s.channels c).set interest) c').index =
      (s.channels c').index := by
    intro c'
    by_cases hne : c' = c
    · subst hne
      simp
    · simp [hne]
  rw [addressable_iff_slotted hinj hkeyed, val_set_indexed (h.fds c) hi]
  constructor
  · intro hslots'
    have hbelongs := hslots'.entry_at horeg ((hindex o).trans hoi) (List.getElem?_set_self hlt)
    cases hnone : ((s.channels c).set interest).isNoneEvent with
    | false => rfl
    | true =>
        have hfds : fd o ≠ fd c := fun heq => hoc (hinj heq)
        have ho := hnonneg o
        have hc := hnonneg c
        simp only [Belongs, updated, hnone, if_true] at hbelongs
        omega
  · intro hsome
    have hentry : s.pollFdList[i]? = some (s.entry i) := by simp [entry, hlt]
    have hbelongs := hslots.entry_at horeg hoi hentry
    apply hslots.replace horeg hoi (fun _ => Iff.rfl) hindex
    · simpa [Belongs, updated, hsome] using hbelongs
    · exact fun _ _ _ he => he

theorem Keyed.remove (hinj : Function.Injective fd) (hnonneg : ∀ c, 0 ≤ fd c) (h : Keyed fd s)
    (haddr : Addressable fd s) (hreg : Registered fd s c) :
    Addressable fd (s.apply (.remove c)).val ∧ Keyed fd (s.apply (.remove c)).val := by
  have hslots := (addressable_iff_slotted hinj h).mp haddr
  obtain ⟨i, hi, hlt⟩ := hslots.index_lt hreg
  rw [val_remove (h.fds c) hi]
  by_cases hlast : i = s.pollFdList.length - 1
  · have hkeyed : Keyed fd ⟨s.channels, Function.update s.channelMap (fd c) none,
        s.pollFdList.dropLast⟩ :=
      ⟨h.fds, mapped_update h.mapped (Or.inl rfl)⟩
    rw [eraseEntry_last (by dsimp only; omega)]
    refine ⟨(addressable_iff_slotted hinj hkeyed).mpr ?_, hkeyed⟩
    apply hslots.pop hreg (by omega) _ (fun _ _ => rfl) (fun _ _ _ he => he)
    intro c'
    rw [registered_update hinj]
    simp
  · obtain ⟨o, horeg, hoi, hoc⟩ := hslots.exists_last hreg hi hlast
    have hfds : fd o ≠ fd c := fun heq => hoc (hinj heq).symm
    have hentry : s.pollFdList[s.pollFdList.length - 1]? =
        some (s.entry (s.pollFdList.length - 1 : Nat)) := by
      have hbound : s.pollFdList.length - 1 < s.pollFdList.length := by omega
      simp [entry, hbound]
    have hbelongs := hslots.entry_at horeg hoi hentry
    generalize hz : s.entry (s.pollFdList.length - 1 : Nat) = last at hbelongs
    have hdecode := hbelongs.decode (hnonneg o)
    have homap : Function.update s.channelMap (fd c) none (fd o) = some o := by
      rw [Function.update_of_ne hfds]
      exact horeg
    have hkeyed : Keyed fd ⟨Function.update s.channels o ((s.channels o).setIndex i),
        Function.update s.channelMap (fd c) none, (s.pollFdList.set i last).dropLast⟩ :=
      ⟨fds_update h.fds (h.fds o), mapped_update h.mapped (Or.inl rfl)⟩
    rw [eraseEntry_swap (s := ⟨s.channels, Function.update s.channelMap (fd c) none,
      s.pollFdList⟩) hlast (Nat.zero_lt_of_lt hlt) hz hdecode homap]
    refine ⟨(addressable_iff_slotted hinj hkeyed).mpr ?_, hkeyed⟩
    apply hslots.swapRemove hreg horeg hoc hi (by omega) _ _ _ hbelongs (fun _ _ _ he => he)
    · intro c'
      rw [registered_update hinj]
      simp
    · simp [Channel.setIndex]
    · intro c' hne
      simp [hne]

theorem Keyed.keeps_iff (hinj : Function.Injective fd) (hnonneg : ∀ c, 0 ≤ fd c) (h : Keyed fd s)
    (haddr : Addressable fd s) {op : PollerOp C} (hremovable : s.Removable op) :
    KeepsAddressable fd s op ↔ s.Traceable op := by
  cases op with
  | set c interest =>
      by_cases hindex : (s.channels c).index < 0
      · have hiff := h.set_fresh_iff hinj hnonneg haddr hindex interest
        rw [Traceable, if_pos hindex, h.fds]
        constructor
        · exact fun hkeeps => hiff.mp hkeeps.addressable
        · intro htraceable
          refine ⟨?_, hiff.mpr htraceable⟩
          simp only [InRange, PollerOp.channel]
          omega
      · rw [Traceable, if_neg hindex, h.fds]
        by_cases hreg : Registered fd s c
        · have hkept := h.set_registered hinj haddr hreg interest
          exact iff_of_true ⟨(haddr.placed c hreg).2.1, hkept⟩ (Or.inl hreg)
        · obtain ⟨i, hi⟩ := Int.eq_ofNat_of_zero_le (Int.not_lt.mp hindex)
          constructor
          · intro hkeeps
            have hrange : (s.channels c).index < s.pollFdList.length := hkeeps.inRange
            have hlt : i < s.pollFdList.length := by omega
            have hiff := h.set_removed_iff hinj hnonneg haddr hreg hi hlt interest
            exact Or.inr ⟨hrange, hiff.mp hkeeps.addressable⟩
          · rintro (hmap | ⟨hrange, hsome⟩)
            · exact absurd hmap hreg
            · have hlt : i < s.pollFdList.length := by omega
              have hiff := h.set_removed_iff hinj hnonneg haddr hreg hi hlt interest
              exact ⟨hrange, hiff.mpr hsome⟩
  | remove c =>
      have hreg : Registered fd s c := by
        rw [Registered, ← h.fds c]
        exact hremovable.1
      have hkept := h.remove hinj hnonneg haddr hreg
      exact iff_of_true ⟨(haddr.placed c hreg).2.1, hkept.1⟩ trivial

theorem Keyed.step (hinj : Function.Injective fd) (hnonneg : ∀ c, 0 ≤ fd c) (h : Keyed fd s)
    (haddr : Addressable fd s) {op : PollerOp C} {s' : PollPoller C} (hstep : CallStep s op s') :
    Keyed fd s' := by
  rw [hstep.next]
  cases op with
  | set c interest => exact h.set c interest
  | remove c =>
      have hreg : Registered fd s c := by
        rw [Registered, ← h.fds c]
        exact hstep.removable.1
      exact (h.remove hinj hnonneg haddr hreg).2

/-- In a run from an empty poller, the registered channels stay addressable if and only if every
call is traceable. -/
theorem staysAddressable_iff (hinj : Function.Injective fd) (hnonneg : ∀ c, 0 ≤ fd c)
    {ops : List (PollerOp C)} (hrun : Run CallStep (create fd) ops s) :
    StaysAddressable fd ops ↔ StaysTraceable fd ops := by
  apply hrun.forall_step_iff (I := fun s => Keyed fd s ∧ Addressable fd s)
  · intro t op u u' hstep hstep'
    rw [hstep.next, hstep'.next]
  · intro t op u ht hstep hkeeps
    refine ⟨ht.1.step hinj hnonneg ht.2 hstep, ?_⟩
    rw [hstep.next]
    exact hkeeps.addressable
  · exact fun t op u ht hstep => ht.1.keeps_iff hinj hnonneg ht.2 hstep.removable
  · exact ⟨keyed_create fd, addressable_create fd hinj⟩

end Steps

def threeFds : Fin 3 → Int := ![0, 5, 6]

/-- The entry of the channel on descriptor 6 takes the place of the one on descriptor 5. -/
theorem staysAddressable_iff_swap : ∃ s,
    Run CallStep (create threeFds)
        [.set 1 .enableRead, .set 2 .enableRead, .set 1 .disableAll, .remove 1] s ∧
      (s.channels 2).index = 0 ∧
      (StaysAddressable threeFds
          [.set 1 .enableRead, .set 2 .enableRead, .set 1 .disableAll, .remove 1] ↔
        StaysTraceable threeFds
          [.set 1 .enableRead, .set 2 .enableRead, .set 1 .disableAll, .remove 1]) := by
  have hrun : Run CallStep (create threeFds)
      [.set 1 .enableRead, .set 2 .enableRead, .set 1 .disableAll, .remove 1] _ :=
    (((Run.nil.snoc ⟨trivial, rfl⟩).snoc ⟨trivial, rfl⟩).snoc ⟨trivial, rfl⟩).snoc
      ⟨⟨by decide, by decide, by decide⟩, rfl⟩
  exact ⟨_, hrun, by decide, staysAddressable_iff (by decide) (by decide) hrun⟩

/-- The channel on descriptor 6 starts without interest, and its entry of -1 is taken for that of
descriptor 0 when it moves into the place of descriptor 5: its index is outside the vector. -/
theorem disabledFirst_not_addressable : ∃ s,
    Run CallStep (create threeFds)
        [.set 0 .enableRead, .set 1 .enableRead, .set 2 .disableAll, .set 1 .disableAll,
          .remove 1] s ∧
      s.pollFdList.length = 2 ∧ Registered threeFds s 2 ∧ (s.channels 2).index = 2 ∧
      ¬ StaysAddressable threeFds
        [.set 0 .enableRead, .set 1 .enableRead, .set 2 .disableAll, .set 1 .disableAll,
          .remove 1] := by
  have hbefore : Run CallStep (create threeFds)
      [.set 0 .enableRead, .set 1 .enableRead, .set 2 .disableAll, .set 1 .disableAll] _ :=
    (((Run.nil.snoc ⟨trivial, rfl⟩).snoc ⟨trivial, rfl⟩).snoc ⟨trivial, rfl⟩).snoc
      ⟨trivial, rfl⟩
  have hrun : Run CallStep (create threeFds) [.set 0 .enableRead, .set 1 .enableRead,
      .set 2 .disableAll, .set 1 .disableAll, .remove 1] _ :=
    hbefore.snoc ⟨⟨by decide, by decide, by decide⟩, rfl⟩
  refine ⟨_, hrun, by decide, by unfold Registered; decide, by decide, fun hstays => ?_⟩
  have hkeeps := hstays _ (.remove 1) [] _ rfl hbefore
  have hplaced := (hkeeps.addressable.placed 2 (by unfold Registered; decide)).2.1
  exact absurd hplaced (by decide)

end PollPoller

end LearnMuduo
