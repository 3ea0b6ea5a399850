import LearnMuduo.Net.Timer.Ownership

/-!
# The expired timers

`getExpired` splits the list at the least entry that is not below `(now, nullptr)`. No pointer is
below `nullptr`, so that timers that expire at `now` are on the far side of the split.
-/

namespace LearnMuduo

open Framework

namespace TimerQueue

/-- Both lists hold the same timers under their current keys. -/
structure Matched (q : TimerQueue) : Prop where
  listed : ∀ e ∈ q.timerList, e = q.entryOf e.timer
  idListed : ∀ i ∈ q.timerIdList, i = q.idOf i.timer
  same : ∀ p, q.Queued p ↔ q.idOf p ∈ q.timerIdList

variable {q : TimerQueue} {now : Timestamp}

theorem Owned.matched {batch : List TimerEntry} (h : q.Owned batch) : q.Matched :=
  ⟨h.listed, h.idListed, h.same⟩

namespace Matched

theorem mem_timers (h : q.Matched) (p : TimerPtr) :
    p ∈ timers q.timerList.toList ↔ q.Queued p := by
  rw [timers, List.mem_map]
  constructor
  · intro hmem
    rcases hmem with ⟨e, he, rfl⟩
    rw [Queued, ← h.listed e he]
    exact he
  · exact fun hp => ⟨q.entryOf p, hp, rfl⟩

theorem nodup_timers (h : q.Matched) {l : List TimerEntry} (hl : l.Nodup)
    (hsub : ∀ e ∈ l, e ∈ q.timerList) : (timers l).Nodup := by
  refine List.Nodup.map_on (fun x hx y hy heq => ?_) hl
  rw [h.listed x (hsub x hx), h.listed y (hsub y hy), heq]

theorem sameSize (h : q.Matched) : q.sameSize = true := by
  have hnodup := h.nodup_timers q.timerList.nodup fun _ he => he
  have hids : (q.timerIdList.toList.map TimerIdEntry.timer).Nodup := by
    refine List.Nodup.map_on (fun x hx y hy heq => ?_) q.timerIdList.nodup
    rw [h.idListed x hx, h.idListed y hy, heq]
  have hperm : (timers q.timerList.toList).Perm (q.timerIdList.toList.map TimerIdEntry.timer) := by
    refine (List.perm_ext_iff_of_nodup hnodup hids).mpr fun p => ?_
    rw [h.mem_timers, h.same, List.mem_map]
    constructor
    · exact fun hp => ⟨q.idOf p, hp, rfl⟩
    · intro hmem
      rcases hmem with ⟨i, hi, rfl⟩
      rw [← h.idListed i hi]
      exact hi
  have hlength := hperm.length_eq
  rw [timers, List.length_map, List.length_map] at hlength
  exact beq_iff_eq.mpr hlength

theorem ok_eraseIds {q : TimerQueue} {expired : List TimerEntry}
    (hnodup : (timers expired).Nodup) (hids : ∀ e ∈ expired, q.idOf e.timer ∈ q.timerIdList) :
    (q.eraseIds expired).ok = true := by
  induction expired generalizing q with
  | nil => rfl
  | cons e expired ih =>
      have hhead := hids e List.mem_cons_self
      rcases List.nodup_cons.mp hnodup with ⟨hnot, htail⟩
      have hrest : (({ q with timerIdList := q.timerIdList.erase (q.idOf e.timer) } :
          TimerQueue).eraseIds expired).ok = true := by
        refine ih htail fun x hx => ?_
        refine SortedSet.mem_erase.mpr ⟨fun heq => ?_, hids x (List.mem_cons_of_mem _ hx)⟩
        have htimer : x.timer = e.timer := congrArg TimerIdEntry.timer heq
        exact hnot (List.mem_map.mpr ⟨x, hx, htimer⟩)
      simp only [eraseIds, Checked.ok_bind, Checked.ok_assert, hhead, decide_true, Bool.true_and]
      exact hrest

/-- What `getExpired` returns, and what it leaves in the two lists. -/
theorem getExpired_spec (h : q.Matched) (now : Timestamp) :
    (q.getExpired now).val.1 = q.timerList.below (.mk now nullptr) ∧
      (q.getExpired now).val.2.timerList = q.timerList.notBelow (.mk now nullptr) ∧
      (q.getExpired now).val.2.memory = q.memory ∧
      ∀ i, i ∈ (q.getExpired now).val.2.timerIdList ↔
        i ∈ q.timerIdList ∧ now ≤ (q.memory i.timer).expiration := by
  obtain ⟨ids, hval, hids⟩ := eraseIds_val
    { q with timerList := q.timerList.notBelow (.mk now nullptr) }
    (q.timerList.below (.mk now nullptr))
  simp only [getExpired, Checked.val_bind, Checked.val_pure, hval]
  refine ⟨trivial, trivial, trivial, fun i => ?_⟩
  rw [hids]
  refine and_congr_right fun hi => ?_
  have hqueued : q.Queued i.timer := by
    rw [h.same, ← h.idListed i hi]
    exact hi
  constructor
  · intro hall
    by_contra hlt
    have hbelow : q.entryOf i.timer ∈ q.timerList.below (.mk now nullptr) :=
      SortedSet.mem_below.mpr ⟨hqueued, TimerEntry.lt_sentry_iff.mpr (not_le.mp hlt)⟩
    exact hall _ hbelow (h.idListed i hi)
  · intro hle e he heq
    rcases SortedSet.mem_below.mp he with ⟨hmem, hlt⟩
    have htimer : i.timer = e.timer := congrArg TimerIdEntry.timer heq
    rw [h.listed e hmem, ← htimer] at hlt
    exact not_lt.mpr hle (TimerEntry.lt_sentry_iff.mp hlt)

theorem getExpired (h : q.Matched) (now : Timestamp) : (q.getExpired now).val.2.Matched := by
  rcases h.getExpired_spec now with ⟨-, hlist, hmemory, hids⟩
  have hentry : ∀ p, (q.getExpired now).val.2.entryOf p = q.entryOf p := fun p => by
    rw [entryOf, hmemory, entryOf]
  have hid : ∀ p, (q.getExpired now).val.2.idOf p = q.idOf p := fun p => by
    rw [idOf, hmemory, idOf]
  refine ⟨fun e he => ?_, fun i hi => ?_, fun p => ?_⟩
  · rw [hlist] at he
    rw [hentry]
    exact h.listed e (SortedSet.mem_notBelow.mp he).1
  · rw [hid]
    exact h.idListed i ((hids i).mp hi).1
  · rw [Queued, hentry, hlist, hid, hids, SortedSet.mem_notBelow, ← not_lt,
      TimerEntry.lt_sentry_iff, not_lt]
    exact and_congr_left' (h.same p)

end Matched

/-- `getExpired` removes from both lists and returns, in the order of their expirations, exactly the
timers that have expired at `now`, leaves only such as expire later, and its assertions hold. -/
structure ExpiresAt (q : TimerQueue) (now : Timestamp) : Prop where
  returned : ∀ e, e ∈ (q.getExpired now).val.1 ↔ e ∈ q.timerList ∧ e.expiration ≤ now
  ordered : (q.getExpired now).val.1.Pairwise fun a b => a.expiration ≤ b.expiration
  once : (timers (q.getExpired now).val.1).Nodup
  removed : ∀ e, e ∈ (q.getExpired now).val.2.timerList ↔ e ∈ q.timerList ∧ now < e.expiration
  idsRemoved : ∀ i, i ∈ (q.getExpired now).val.2.timerIdList ↔
    i ∈ q.timerIdList ∧ now < (q.memory i.timer).expiration
  ok : (q.getExpired now).ok = true

/-- No timer of the queue expires exactly at `now`. -/
def NoneDueAt (q : TimerQueue) (now : Timestamp) : Prop := ∀ e ∈ q.timerList, e.expiration ≠ now

theorem Matched.ok_getExpired (h : q.Matched) (hnone : q.NoneDueAt now) :
    (q.getExpired now).ok = true := by
  have hfirst : ((q.timerList.notBelow (.mk now nullptr)).first?.all fun first =>
      decide (now < first.expiration)) = true := by
    rw [Option.all_eq_true]
    intro e he
    have hmem := SortedSet.mem_of_first? he
    rcases SortedSet.mem_notBelow.mp hmem with ⟨hlisted, hle⟩
    have hnot : ¬ e.expiration < now := fun hlt =>
      not_lt.mpr hle (TimerEntry.lt_sentry_iff.mpr hlt)
    have hne := hnone e hlisted
    exact decide_eq_true (lt_of_le_of_ne (not_lt.mp hnot) hne.symm)
  have hids : ∀ e ∈ q.timerList.below (.mk now nullptr), q.idOf e.timer ∈ q.timerIdList := by
    intro e he
    have hlisted := (SortedSet.mem_below.mp he).1
    rw [← h.same, Queued, ← h.listed e hlisted]
    exact hlisted
  have hnodup : (timers (q.timerList.below (.mk now nullptr))).Nodup :=
    h.nodup_timers ((q.timerList.sorted_below _).imp fun hlt => ne_of_lt hlt)
      fun e he => (SortedSet.mem_below.mp he).1
  have herase := @Matched.ok_eraseIds
    { q with timerList := q.timerList.notBelow (.mk now nullptr) } _ hnodup hids
  have hsize := (h.getExpired now).sameSize
  simp only [TimerQueue.getExpired, Checked.val_bind, Checked.val_pure] at hsize
  simp only [TimerQueue.getExpired, Checked.ok_bind, Checked.ok_assert, Checked.ok_pure,
    h.sameSize, hfirst, herase, hsize, Bool.and_self]

/-- `getExpired` splits the queue at `now` if and only if no timer expires exactly then. -/
theorem expiresAt_iff (h : q.Matched) : q.ExpiresAt now ↔ q.NoneDueAt now := by
  rcases h.getExpired_spec now with ⟨hreturned, hlist, -, hids⟩
  constructor
  · intro hexpires e he heq
    have hmem := (hexpires.returned e).mpr ⟨he, le_of_eq heq⟩
    rw [hreturned] at hmem
    have hlt := TimerEntry.lt_sentry_iff.mp (SortedSet.mem_below.mp hmem).2
    rw [heq] at hlt
    exact lt_irrefl now hlt
  · intro hnone
    have hle : ∀ e ∈ q.timerList, (now ≤ e.expiration ↔ now < e.expiration) := fun e he =>
      ⟨fun hle => lt_of_le_of_ne hle (hnone e he).symm, le_of_lt⟩
    refine ⟨fun e => ?_, ?_, ?_, fun e => ?_, fun i => ?_, h.ok_getExpired hnone⟩
    · rw [hreturned, SortedSet.mem_below, TimerEntry.lt_sentry_iff]
      exact and_congr_right fun he => ⟨le_of_lt, fun hle => lt_of_le_of_ne hle (hnone e he)⟩
    · rw [hreturned]
      exact (q.timerList.sorted_below _).imp TimerEntry.expiration_le_of_lt
    · rw [hreturned]
      exact h.nodup_timers ((q.timerList.sorted_below _).imp fun hlt => ne_of_lt hlt)
        fun e he => (SortedSet.mem_below.mp he).1
    · rw [hlist, SortedSet.mem_notBelow, ← not_lt, TimerEntry.lt_sentry_iff, not_lt]
      exact and_congr_right fun he => hle e he
    · rw [hids]
      refine and_congr_right fun hi => hle (q.entryOf i.timer) ?_
      show q.Queued i.timer
      rw [h.same, ← h.idListed i hi]
      exact hi

/-- A queue with one timer, which expires at 5. -/
def dueAtFive : TimerQueue :=
  (((TimerQueue.create fun _ => TimerState.everyTen).newTimer 1 TimerState.everyTen).addTimerInLoop
    1 0).val

theorem matched_dueAtFive : dueAtFive.Matched := by
  have hadd : dueAtFive.Owned [] :=
    (Owned.newTimer (owned_create _) List.not_mem_nil TimerState.everyTen).addTimerInLoop 0
  exact hadd.matched

theorem expiresAt_seven : dueAtFive.ExpiresAt 7 := by
  have hnone : dueAtFive.NoneDueAt 7 := by
    intro e he
    have hentry : e = .mk 5 1 := List.mem_singleton.mp he
    rw [hentry]
    decide
  exact (expiresAt_iff matched_dueAtFive).mpr hnone

/-- At 5 the timer is not returned, stays in the queue, and the assertion fails. -/
theorem not_expiresAt_five : dueAtFive.Matched ∧ (dueAtFive.getExpired 5).val.1 = [] ∧
    .mk 5 1 ∈ (dueAtFive.getExpired 5).val.2.timerList ∧ (dueAtFive.getExpired 5).ok = false ∧
      ¬ dueAtFive.ExpiresAt 5 := by
  have hok : (dueAtFive.getExpired 5).ok = false := by decide
  refine ⟨matched_dueAtFive, by decide, by decide, hok, fun hexpires => ?_⟩
  rw [hexpires.ok] at hok
  exact Bool.false_ne_true hok.symm

end TimerQueue

end LearnMuduo
