import LearnMuduo.Net.EventLoop

/-!
# Cancellation in the loop

`cancelInLoop` deletes a timer that waits in the queue. A timer whose batch is being executed is
marked instead, and `reset` deletes it at the end of the batch; until then it is in no list.
-/

namespace LearnMuduo

open Framework

namespace TimerQueue

theorem marks_resetEntries (q : TimerQueue) (now : Timestamp) (batch : List TimerEntry) :
    (q.resetEntries now batch).val.cancelingTimers = q.cancelingTimers ∧
      (q.resetEntries now batch).val.callingExpiredTimers = q.callingExpiredTimers := by
  induction batch generalizing q with
  | nil => exact ⟨rfl, rfl⟩
  | cons e batch ih =>
      have hentry : (q.resetEntry e now).val.cancelingTimers = q.cancelingTimers ∧
          (q.resetEntry e now).val.callingExpiredTimers = q.callingExpiredTimers := by
        unfold resetEntry
        dsimp only
        split
        · exact ⟨rfl, rfl⟩
        · exact ⟨rfl, rfl⟩
      simp only [resetEntries, Checked.val_bind]
      exact ⟨(ih _).1.trans hentry.1, (ih _).2.trans hentry.2⟩

theorem memory_resetEntry (q : TimerQueue) {e : TimerEntry} (now : Timestamp) {p : TimerPtr}
    (hp : p ≠ e.timer) : (q.resetEntry e now).val.memory p = q.memory p := by
  unfold resetEntry
  dsimp only
  split
  · exact Function.update_of_ne hp _ _
  · rfl

/-- `reset` deletes the marked timers of the batch. -/
theorem deleted_resetEntries {batch : List TimerEntry} {q : TimerQueue} (now : Timestamp)
    {p : TimerPtr} (hmem : p ∈ timers batch) (hmarked : q.idOf p ∈ q.cancelingTimers) :
    .deleted p ∈ (q.resetEntries now batch).val.history := by
  induction batch generalizing q with
  | nil => exact absurd hmem List.not_mem_nil
  | cons e batch ih =>
      simp only [resetEntries, Checked.val_bind]
      by_cases hp : p = e.timer
      · subst hp
        refine (extends_resetEntries _ now batch).mem ?_
        have hstop : ¬ ((q.memory e.timer).repeats = true ∧ q.idOf e.timer ∉ q.cancelingTimers) :=
          fun h => h.2 hmarked
        rw [resetEntry, if_neg hstop]
        exact List.mem_cons_self
      · have hrest : p ∈ timers batch := (List.mem_cons.mp hmem).resolve_left hp
        refine ih hrest ?_
        have hmarks := (marks_resetEntries q now [e]).1
        simp only [resetEntries, Checked.val_bind, Checked.val_pure] at hmarks
        rw [hmarks, idOf, memory_resetEntry q now hp]
        exact hmarked

/-- The call changes neither the presence nor the expiration of another timer than `p`, runs and
deletes no other, and marks no other. -/
structure LeavesOthers (q q' : TimerQueue) (p : TimerPtr) : Prop where
  listed : ∀ e, e.timer ≠ p → (e ∈ q'.timerList ↔ e ∈ q.timerList)
  idListed : ∀ i, i.timer ≠ p → (i ∈ q'.timerIdList ↔ i ∈ q.timerIdList)
  memory : q'.memory = q.memory
  marked : ∀ i, i.timer ≠ p → (i ∈ q'.cancelingTimers ↔ i ∈ q.cancelingTimers)
  history : ∀ event, event.timer ≠ p → (event ∈ q'.history ↔ event ∈ q.history)

theorem leavesOthers_cancelInLoop (q : TimerQueue) (timerId : TimerId) :
    q.LeavesOthers (q.cancelInLoop timerId).val timerId.timer := by
  simp only [cancelInLoop, Checked.val_bind, Checked.val_pure]
  split
  · refine ⟨fun e he => ?_, fun i hi => ?_, rfl, fun _ _ => Iff.rfl, fun event hevent => ?_⟩
    · show e ∈ q.timerList.erase _ ↔ e ∈ q.timerList
      rw [SortedSet.mem_erase]
      refine and_iff_right fun heq => he ?_
      rw [heq]
      rfl
    · show i ∈ q.timerIdList.erase _ ↔ i ∈ q.timerIdList
      rw [SortedSet.mem_erase]
      refine and_iff_right fun heq => hi ?_
      rw [heq]
      rfl
    · show event ∈ .deleted timerId.timer :: q.history ↔ event ∈ q.history
      rw [List.mem_cons]
      refine or_iff_right fun heq => hevent ?_
      rw [heq]
      rfl
  · split
    · refine ⟨fun _ _ => Iff.rfl, fun _ _ => Iff.rfl, rfl, fun i hi => ?_, fun _ _ => Iff.rfl⟩
      show i ∈ q.cancelingTimers.insert _ ↔ i ∈ q.cancelingTimers
      rw [SortedSet.mem_insert]
      refine or_iff_right fun heq => hi ?_
      rw [heq]
      rfl
    · exact ⟨fun _ _ => Iff.rfl, fun _ _ => Iff.rfl, rfl, fun _ _ => Iff.rfl, fun _ _ => Iff.rfl⟩

theorem marked_cancelInLoop (q : TimerQueue) (timerId : TimerId) {i : TimerIdEntry}
    (hi : i ∈ q.cancelingTimers) : i ∈ (q.cancelInLoop timerId).val.cancelingTimers := by
  simp only [cancelInLoop, Checked.val_bind, Checked.val_pure]
  split
  · exact hi
  · split
    · exact SortedSet.mem_insert.mpr (Or.inr hi)
    · exact hi

theorem calling_cancelInLoop (q : TimerQueue) (timerId : TimerId) :
    (q.cancelInLoop timerId).val.callingExpiredTimers = q.callingExpiredTimers := by
  simp only [cancelInLoop, Checked.val_bind, Checked.val_pure]
  split
  · rfl
  · split
    · rfl
    · rfl

theorem marks_addTimerInLoop (q : TimerQueue) (p : TimerPtr) (timer : Timer) (clock : Timestamp) :
    ((q.newTimer p timer).addTimerInLoop p clock).val.cancelingTimers = q.cancelingTimers ∧
      ((q.newTimer p timer).addTimerInLoop p clock).val.callingExpiredTimers =
        q.callingExpiredTimers ∧
      ((q.newTimer p timer).addTimerInLoop p clock).val.memory =
        Function.update q.memory p timer := by
  simp only [addTimerInLoop, Checked.val_bind, Checked.val_pure]
  split
  · exact ⟨rfl, rfl, rfl⟩
  · exact ⟨rfl, rfl, rfl⟩

end TimerQueue

namespace TimerState

open TimerQueue

variable {s t : TimerState} {label : TimerLabel} {p : TimerPtr}

/-- The flag is set exactly during a batch. -/
def Flagged (s : TimerState) : Prop :=
  s.queue.callingExpiredTimers = s.activation.isSome

theorem Flagged.step (h : s.Flagged) (hstep : TimerStep s label t) : t.Flagged := by
  cases hstep with
  | @addTimerInLoop _ p timer clock _ _ =>
      exact (s.queue.marks_addTimerInLoop p timer clock).2.1.trans h
  | @cancelInLoop _ timerId _ => exact (s.queue.calling_cancelInLoop timerId).trans h
  | handleRead => rfl
  | callback => exact h
  | callbackReturn => exact h
  | @handleReadReturn q reads now clock started =>
      have hmarks := (marks_resetEntries { q with callingExpiredTimers := false } now started).2
      show (q.handleReadEnd started now clock).val.callingExpiredTimers = false
      simp only [handleReadEnd, reset, Checked.val_bind, Checked.val_pure]
      split
      · split
        · exact hmarks
        · exact hmarks
      · split
        · exact hmarks
        · exact hmarks

/-- The timer `p` is deleted, or in the batch that is being executed and marked. -/
def Doomed (s : TimerState) (p : TimerPtr) : Prop :=
  .deleted p ∈ s.queue.history ∨
    p ∈ timers s.batch ∧ s.queue.idOf p ∈ s.queue.cancelingTimers

theorem Doomed.deleted (h : s.Doomed p) (hidle : s.activation = none) :
    .deleted p ∈ s.queue.history := by
  refine h.resolve_right fun hbatch => ?_
  rw [batch, hidle] at hbatch
  exact absurd hbatch.1 List.not_mem_nil

theorem Doomed.step (h : s.Doomed p) (hadded : .added p ∈ s.queue.history)
    (hstep : TimerStep s label t) : t.Doomed p := by
  have hhistory : .deleted p ∈ s.queue.history → .deleted p ∈ t.queue.history :=
    fun hdeleted => hstep.mem_history hdeleted
  rcases h with hdeleted | ⟨hbatch, hmarked⟩
  · exact Or.inl (hhistory hdeleted)
  · cases hstep with
    | @addTimerInLoop _ p' timer clock _ hfresh =>
        rcases s.queue.marks_addTimerInLoop p' timer clock with ⟨hmarks, -, hmemory⟩
        have hne : p ≠ p' := by
          intro heq
          subst heq
          exact hfresh hadded
        refine Or.inr ⟨hbatch, ?_⟩
        show _ ∈ ((s.queue.newTimer p' timer).addTimerInLoop p' clock).val.cancelingTimers
        rw [hmarks, idOf, hmemory, Function.update_of_ne hne]
        exact hmarked
    | @cancelInLoop _ timerId _ =>
        refine Or.inr ⟨hbatch, ?_⟩
        have hmemory := (s.queue.leavesOthers_cancelInLoop timerId).memory
        show TimerIdEntry.mk p ((s.queue.cancelInLoop timerId).val.memory p).sequence ∈ _
        rw [hmemory]
        exact s.queue.marked_cancelInLoop timerId hmarked
    | handleRead => exact absurd hbatch List.not_mem_nil
    | @callback q reads now started waiting e =>
        refine Or.inr ⟨?_, hmarked⟩
        show p ∈ timers ((started ++ [e]) ++ waiting)
        rw [List.append_assoc]
        exact hbatch
    | callbackReturn => exact Or.inr ⟨hbatch, hmarked⟩
    | @handleReadReturn q reads now clock started =>
        have hmem : p ∈ timers started := by
          simpa [batch, Activation.expired] using hbatch
        have hreset := @deleted_resetEntries started { q with callingExpiredTimers := false } now p
          hmem hmarked
        refine Or.inl ?_
        show _ ∈ (q.handleReadEnd started now clock).val.history
        simp only [handleReadEnd, reset, Checked.val_bind, Checked.val_pure]
        split
        · split
          · exact hreset
          · exact hreset
        · split
          · exact hreset
          · exact hreset

theorem Doomed.run {labels : List TimerLabel} (h : s.Doomed p)
    (hadded : .added p ∈ s.queue.history) (hrun : Run TimerStep s labels t) : t.Doomed p := by
  have hboth := @Run.invariant _ _ TimerStep s t labels
    (fun u => u.Doomed p ∧ .added p ∈ u.queue.history)
    (fun _ _ _ hu hstep => ⟨hu.1.step hu.2 hstep, hstep.mem_history hu.2⟩) hrun ⟨h, hadded⟩
  exact hboth.1

theorem not_callback_of_deleted {labels : List TimerLabel} (h : s.Consistent)
    (hdeleted : .deleted p ∈ s.queue.history) (hrun : Run TimerStep s labels t) :
    .callback p ∉ labels := by
  intro hmem
  obtain ⟨before, _, u, _, -, hbefore, hcallback, -⟩ := hrun.exists_step_of_mem hmem
  have hu : u.Consistent := hbefore.invariant (fun _ _ _ h hstep => h.step hstep) h
  have hdeleted' : .deleted p ∈ u.queue.history := @Run.invariant _ _ _ _ _ _
    (fun u => .deleted p ∈ u.queue.history) (fun _ _ _ h hstep => hstep.mem_history h) hbefore
    hdeleted
  cases hcallback with
  | @callback q reads now started waiting e =>
      have hbatch : e.timer ∈ timers (started ++ e :: waiting) := by simp [timers]
      exact ((hu.live e.timer).mpr (Or.inr hbatch)).2 hdeleted'

theorem count_deleted_le_one (h : s.Consistent) (p : TimerPtr) :
    s.queue.history.count (.deleted p) ≤ 1 := by
  have hfinal := h.final
  generalize s.queue.history = events at hfinal
  induction events with
  | nil => exact Nat.zero_le 1
  | cons event events ih =>
      rcases List.pairwise_cons.mp hfinal with ⟨hhead, htail⟩
      by_cases hevent : event = .deleted p
      · subst hevent
        have hnone : .deleted p ∉ events := fun hmem => hhead _ hmem p rfl rfl
        rw [List.count_cons_self, List.count_eq_zero.mpr hnone]
      · rw [List.count_cons_of_ne hevent]
        exact ih htail

/-- `cancelInLoop` is called on the loop thread. -/
def cancelInLoop (s : TimerState) (timerId : TimerId) : TimerState :=
  { s with queue := (s.queue.cancelInLoop timerId).val }

/-- The id of the timer at `p`. -/
def timerIdOf (s : TimerState) (p : TimerPtr) : TimerId := ⟨p, (s.queue.memory p).sequence⟩

/-- From now on no `handleRead` that starts runs the timer `p`. It is not deleted twice, and outside
`handleRead` it is deleted. -/
structure Final (s : TimerState) (p : TimerPtr) : Prop where
  neverRuns : ∀ before now after t,
    Run TimerStep s (before ++ .handleRead now :: after) t → .callback p ∉ after
  deletedOnce : ∀ labels t, Run TimerStep s labels t →
    t.queue.history.count (.deleted p) ≤ 1 ∧
      (t.activation = none → t.queue.history.count (.deleted p) = 1)

theorem Doomed.final (h : s.Doomed p) (hconsistent : s.Consistent)
    (hadded : .added p ∈ s.queue.history) : s.Final p := by
  have hkeep : ∀ {labels t}, Run TimerStep s labels t → t.Consistent := fun hrun =>
    hrun.invariant (fun _ _ _ h hstep => h.step hstep) hconsistent
  refine ⟨fun before now after t hrun => ?_, fun labels t hrun => ?_⟩
  · rcases hrun.exists_of_append with ⟨u, hbefore, hrest⟩
    have hsplit : TimerLabel.handleRead now :: after = [.handleRead now] ++ after := rfl
    rw [hsplit] at hrest
    rcases hrest.exists_of_append with ⟨v, hread, hafter⟩
    rcases @Run.exists_of_snoc _ _ _ _ _ [] _ hread with ⟨u', hnil, hstep⟩
    rw [hnil.eq_of_nil] at hstep
    have hidle : u.activation = none := by
      cases hstep with
      | handleRead => rfl
    have hdeleted := (h.run hadded hbefore).deleted hidle
    exact not_callback_of_deleted ((hkeep hbefore).step hstep) (hstep.mem_history hdeleted) hafter
  · have hle := count_deleted_le_one (hkeep hrun) p
    refine ⟨hle, fun hidle => ?_⟩
    have hpos := List.count_pos_iff.mpr ((h.run hadded hrun).deleted hidle)
    omega

theorem doomed_cancelInLoop (hconsistent : s.Consistent) (hflagged : s.Flagged)
    (hadded : .added p ∈ s.queue.history) : (s.cancelInLoop (s.timerIdOf p)).Doomed p := by
  have hid : TimerIdEntry.mk (s.timerIdOf p).timer (s.timerIdOf p).sequence = s.queue.idOf p := rfl
  by_cases hmem : s.queue.idOf p ∈ s.queue.timerIdList
  · refine Or.inl ?_
    show .deleted p ∈ (s.queue.cancelInLoop (s.timerIdOf p)).val.history
    simp only [TimerQueue.cancelInLoop, Checked.val_bind, Checked.val_pure, hid, if_pos hmem]
    exact List.mem_cons_self
  · by_cases hdeleted : .deleted p ∈ s.queue.history
    · exact Or.inl ((s.queue.extends_cancelInLoop (s.timerIdOf p)).mem hdeleted)
    · have hnot : ¬ s.queue.Queued p := fun hqueued => hmem ((hconsistent.same p).mp hqueued)
      have hbatch : p ∈ timers s.batch :=
        ((hconsistent.live p).mp ⟨hadded, hdeleted⟩).resolve_left hnot
      have hcalling : s.queue.callingExpiredTimers = true := by
        rw [hflagged]
        cases hactivation : s.activation with
        | none =>
            rw [batch, hactivation] at hbatch
            exact absurd hbatch List.not_mem_nil
        | some a => rfl
      refine Or.inr ⟨hbatch, ?_⟩
      show _ ∈ (s.queue.cancelInLoop (s.timerIdOf p)).val.cancelingTimers
      rw [idOf, show (s.cancelInLoop (s.timerIdOf p)).queue.memory = s.queue.memory from
        (s.queue.leavesOthers_cancelInLoop (s.timerIdOf p)).memory]
      simp only [TimerQueue.cancelInLoop, Checked.val_bind, Checked.val_pure, hid, if_neg hmem,
        if_pos hcalling]
      exact SortedSet.mem_insert.mpr (Or.inl rfl)

/-- Wherever `cancelInLoop` is called for an inserted timer, no `handleRead` that starts later runs
it, it is deleted exactly once, and no other timer is touched. -/
theorem cancelInLoop_final {memory : TimerPtr → Timer} {labels : List TimerLabel}
    (hrun : Run TimerStep (initial memory) labels s) (hcalls : s.acceptsCalls)
    (hadded : .added p ∈ s.queue.history) :
    TimerStep s (.cancelInLoop (s.timerIdOf p)) (s.cancelInLoop (s.timerIdOf p)) ∧
      (s.cancelInLoop (s.timerIdOf p)).Final p ∧
      s.queue.LeavesOthers (s.cancelInLoop (s.timerIdOf p)).queue p := by
  have hstep : TimerStep s (.cancelInLoop (s.timerIdOf p)) (s.cancelInLoop (s.timerIdOf p)) :=
    .cancelInLoop hcalls
  have hconsistent := consistent_of_run hrun
  have hflagged : s.Flagged := hrun.invariant (fun _ _ _ h hstep => h.step hstep) rfl
  have hdoomed := doomed_cancelInLoop hconsistent hflagged hadded
  exact ⟨hstep, hdoomed.final (hconsistent.step hstep) (hstep.mem_history hadded),
    s.queue.leavesOthers_cancelInLoop (s.timerIdOf p)⟩

/-- A repeating timer cancels itself in its own callback. -/
theorem cancelInLoop_final_ownCallback : ∃ s,
    Run TimerStep (initial fun _ => everyTen)
        [.addTimerInLoop 1 everyTen 0, .handleRead 7, .callback 1] s ∧
      s.queue.idOf 1 ∉ s.queue.timerIdList ∧ (s.cancelInLoop (s.timerIdOf 1)).Final 1 := by
  let q₁ := (((TimerQueue.create fun _ => everyTen).newTimer 1 everyTen).addTimerInLoop 1 0).val
  let q₂ := (q₁.handleReadBegin 7).val.2
  have hadd : TimerStep (initial fun _ => everyTen) (.addTimerInLoop 1 everyTen 0) ⟨q₁, none, 0⟩ :=
    .addTimerInLoop (fun _ ha => nomatch ha) List.not_mem_nil
  have hread : TimerStep ⟨q₁, none, 0⟩ (.handleRead 7) ⟨q₂, some ⟨7, [], [.mk 5 1], false⟩, 1⟩ :=
    .handleRead
  have hcallback : TimerStep ⟨q₂, some ⟨7, [], [.mk 5 1], false⟩, 1⟩ (.callback 1)
      ⟨q₂.runTimer 1 7 1, some ⟨7, [.mk 5 1], [], true⟩, 1⟩ := .callback
  have hrun := ((Run.nil.snoc hadd).snoc hread).snoc hcallback
  have hcalls : (⟨q₂.runTimer 1 7 1, some ⟨7, [.mk 5 1], [], true⟩, 1⟩ :
      TimerState).acceptsCalls := by
    intro a ha
    cases ha
    rfl
  have hfinal := @cancelInLoop_final _ 1 _ _ hrun hcalls (by decide)
  exact ⟨_, hrun, by decide, hfinal.2.1⟩

end TimerState

end LearnMuduo
