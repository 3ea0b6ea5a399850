import LearnMuduo.Net.Timer.Ownership

/-!
# Arming of the timer descriptor

`resetTimerfd` hands the kernel a zeroed `itimerspec`, so no run ever arms the descriptor; with
the value of `howMuchTimeFromNow` in it the same call would arm it for the expiration.
-/

namespace LearnMuduo

open Framework

/-- The descriptor is armed for the earliest expiration, or for 100 microseconds after the call
that armed it if that is later. -/
def TimerQueue.Armed (q : TimerQueue) : Prop :=
  ∀ first, q.timerList.first? = some first → ∃ deadline setAt,
    q.timerfd.deadline = some deadline ∧ q.timerfd.setAt = some setAt ∧
      deadline ≤ max first.expiration (setAt + 100)

/-- What `timerfd_settime` would do with the time that `howMuchTimeFromNow` computes. -/
theorem TimerQueue.settime_howMuchTimeFromNow (fd : Timerfd) (expiration clock : Timestamp) :
    fd.settime ⟨.zero, howMuchTimeFromNow expiration clock⟩ clock =
      ⟨some (max expiration (clock + 100)), some clock⟩ := by
  have hdelay : ∃ delay : Int, howMuchTimeFromNow expiration clock =
      ⟨delay / 1000000, delay % 1000000 * 1000⟩ ∧ 100 ≤ delay ∧
      clock + delay = max expiration (clock + 100) := by
    by_cases hsoon : expiration - clock < 100
    · refine ⟨100, by simp [howMuchTimeFromNow, hsoon, Timestamp.kMicroSecondsPerSecond], ?_, ?_⟩
      · exact le_refl 100
      · rw [max_eq_right]
        exact le_of_lt (Int.lt_add_of_sub_left_lt hsoon)
    · refine ⟨expiration - clock, ?_, not_lt.mp hsoon, ?_⟩
      · simp [howMuchTimeFromNow, hsoon, Timestamp.kMicroSecondsPerSecond]
      · rw [max_eq_left]
        · rw [Int.add_comm, Int.sub_add_cancel]
        · exact Int.add_le_of_le_sub_left (not_lt.mp hsoon)
  rcases hdelay with ⟨delay, hvalue, hpositive, hdeadline⟩
  have hmicros : (Timespec.mk (delay / 1000000) (delay % 1000000 * 1000)).micros = delay := by
    simp only [Timespec.micros, Timestamp.kMicroSecondsPerSecond]
    omega
  have hnonzero : (Timespec.mk (delay / 1000000) (delay % 1000000 * 1000)) ≠ .zero := by
    intro hzero
    rw [hzero] at hmicros
    have hzeroMicros : Timespec.zero.micros = 0 := rfl
    omega
  rw [hvalue, Timerfd.settime, if_neg hnonzero, hmicros, hdeadline]

def TimerLabel.adds : TimerLabel → Bool
  | .addTimerInLoop _ _ _ => true
  | _ => false

/-- The label is the return of an operation of the queue. -/
def TimerLabel.returns : TimerLabel → Bool
  | .addTimerInLoop _ _ _ => true
  | .cancelInLoop _ => true
  | .handleReadReturn _ => true
  | _ => false

namespace TimerState

open TimerQueue

def Disarmed (s : TimerState) : Prop := s.queue.timerfd.deadline = none

theorem Disarmed.step {s s' : TimerState} {label : TimerLabel} (h : s.Disarmed)
    (hstep : TimerStep s label s') : s'.Disarmed := by
  cases hstep with
  | addTimerInLoop _ _ =>
      simp only [Disarmed, addTimerInLoop, Checked.val_bind, Checked.val_pure]
      split
      · rfl
      · exact h
  | cancelInLoop _ =>
      simp only [Disarmed, cancelInLoop, Checked.val_bind, Checked.val_pure]
      split
      · exact h
      · split <;> exact h
  | @handleRead q reads timestamp =>
      obtain ⟨ids, hval, -⟩ := eraseIds_val
        { q with timerList := q.timerList.notBelow (.mk timestamp nullptr) }
        (q.timerList.below (.mk timestamp nullptr))
      simp only [Disarmed, handleReadBegin, getExpired, Checked.val_bind, Checked.val_pure, hval]
      exact h
  | callback => exact h
  | callbackReturn => exact h
  | @handleReadReturn q reads now clock started =>
      obtain ⟨hentries, -⟩ :=
        frame_resetEntries { q with callingExpiredTimers := false } now started
      simp only [Disarmed, handleReadEnd, reset, Checked.val_bind, Checked.val_pure]
      split <;> split
      · rfl
      · rw [hentries]
        exact h
      · rfl
      · rw [hentries]
        exact h

theorem disarmed_of_run {memory : TimerPtr → Timer} {labels : List TimerLabel}
    {s : TimerState} (hrun : Run TimerStep (initial memory) labels s) : s.Disarmed :=
  hrun.invariant (fun _ _ _ h hstep => h.step hstep) rfl

/-- Neither the lists nor a batch hold a timer. -/
structure Idle (s : TimerState) : Prop where
  timerList : ∀ e, e ∉ s.queue.timerList
  batch : s.batch = []

theorem Idle.step {s s' : TimerState} {label : TimerLabel} (h : s.Idle)
    (hadds : label.adds = false) (hstep : TimerStep s label s') : s'.Idle := by
  cases hstep with
  | addTimerInLoop _ _ => exact absurd hadds Bool.true_eq_false.mp
  | @cancelInLoop _ timerId _ =>
      refine ⟨?_, h.batch⟩
      simp only [cancelInLoop, Checked.val_bind, Checked.val_pure]
      split
      · exact fun e he => h.timerList e (SortedSet.mem_erase.mp he).2
      · split <;> exact h.timerList
  | @handleRead q reads timestamp =>
      obtain ⟨ids, hval, -⟩ := eraseIds_val
        { q with timerList := q.timerList.notBelow (.mk timestamp nullptr) }
        (q.timerList.below (.mk timestamp nullptr))
      refine ⟨?_, ?_⟩
      · simp only [handleReadBegin, getExpired, Checked.val_bind, Checked.val_pure, hval]
        exact fun e he => h.timerList e (SortedSet.mem_notBelow.mp he).1
      · refine List.eq_nil_iff_forall_not_mem.mpr fun e he => ?_
        exact h.timerList e (SortedSet.mem_below.mp he).1
  | @callback q reads now started waiting e =>
      have hbatch : started ++ e :: waiting = [] := h.batch
      simp at hbatch
  | callbackReturn => exact ⟨h.timerList, h.batch⟩
  | @handleReadReturn q reads now clock started =>
      have hbatch : started ++ [] = [] := h.batch
      have hnone : started = [] := List.append_eq_nil_iff.mp hbatch |>.1
      subst hnone
      refine ⟨?_, rfl⟩
      simp only [handleReadEnd, reset, resetEntries, Checked.val_bind, Checked.val_pure]
      split <;> split <;> exact h.timerList

theorem idle_of_run {memory : TimerPtr → Timer} {labels : List TimerLabel} {s : TimerState}
    (hrun : Run TimerStep (initial memory) labels s)
    (hadds : ∀ label ∈ labels, label.adds = false) : s.Idle := by
  induction hrun with
  | nil => exact ⟨SortedSet.not_mem_empty, rfl⟩
  | snoc _ hstep ih =>
      have hinit := ih fun label hlabel => hadds label (List.mem_append_left _ hlabel)
      exact hinit.step (hadds _ (by simp)) hstep

theorem first_of_added {s s' : TimerState} {p : TimerPtr} {timer : Timer} {clock : Timestamp}
    (hstep : TimerStep s (.addTimerInLoop p timer clock) s') :
    ∃ first, s'.queue.timerList.first? = some first := by
  cases hstep with
  | addTimerInLoop _ _ =>
      have hmem : .mk timer.expiration p ∈
          ((s.queue.newTimer p timer).addTimerInLoop p clock).val.timerList := by
        have hkey : (s.queue.newTimer p timer).memory p = timer := Function.update_self _ _ _
        have hinsert : .mk timer.expiration p ∈
            ((s.queue.newTimer p timer).insert p).val.1.timerList := by
          refine SortedSet.mem_insert.mpr (Or.inl ?_)
          rw [hkey]
        simp only [addTimerInLoop, Checked.val_bind, Checked.val_pure]
        split
        · exact hinsert
        · exact hinsert
      exact SortedSet.exists_first? hmem

/-- The descriptor is armed as it should be after every operation of a run exactly when the run
adds no timer. -/
theorem armed_iff_no_add {memory : TimerPtr → Timer} {labels : List TimerLabel} {s : TimerState}
    (hrun : Run TimerStep (initial memory) labels s) :
    (∀ ls label t, ls ++ [label] <+: labels → label.returns = true →
        Run TimerStep (initial memory) (ls ++ [label]) t → t.queue.Armed) ↔
      ∀ label ∈ labels, label.adds = false := by
  constructor
  · intro harmed label hlabel
    cases label with
    | addTimerInLoop p timer clock =>
        obtain ⟨ls, rest, rfl⟩ := List.append_of_mem hlabel
        have hsplit : ls ++ .addTimerInLoop p timer clock :: rest =
            (ls ++ [.addTimerInLoop p timer clock]) ++ rest := by simp
        rw [hsplit] at hrun harmed
        rcases hrun.exists_of_append with ⟨t, ht, -⟩
        rcases ht.exists_of_snoc with ⟨_, _, hstep⟩
        obtain ⟨first, hfirst⟩ := first_of_added hstep
        obtain ⟨deadline, _, hdeadline, -⟩ :=
          harmed ls _ t (List.prefix_append _ rest) rfl ht first hfirst
        have hdisarmed : t.queue.timerfd.deadline = none := disarmed_of_run ht
        rw [hdisarmed] at hdeadline
        exact nomatch hdeadline
    | cancelInLoop timerId => rfl
    | handleRead timestamp => rfl
    | callback p => rfl
    | callbackReturn => rfl
    | handleReadReturn clock => rfl
  · intro hadds ls label t hpre _ ht first hfirst
    have hidle := idle_of_run ht fun label hlabel => hadds label (hpre.subset hlabel)
    exact absurd (SortedSet.mem_of_first? hfirst) (hidle.timerList first)

/-- The timer is added, and `handleRead(7)` runs and restarts it. -/
def onceAround : List TimerLabel :=
  [.addTimerInLoop 1 everyTen 0, .handleRead 7, .callback 1, .callbackReturn, .handleReadReturn 8]

theorem onceAround_run : ∃ s, Run TimerStep (initial fun _ => everyTen) onceAround s := by
  let q₁ := (((TimerQueue.create fun _ => everyTen).newTimer 1 everyTen).addTimerInLoop 1 0).val
  let q₂ := (q₁.handleReadBegin 7).val.2
  have hadd : TimerStep (initial fun _ => everyTen) (.addTimerInLoop 1 everyTen 0) ⟨q₁, none, 0⟩ :=
    .addTimerInLoop (fun _ ha => nomatch ha) List.not_mem_nil
  have hread : TimerStep ⟨q₁, none, 0⟩ (.handleRead 7) ⟨q₂, some ⟨7, [], [.mk 5 1], false⟩, 1⟩ :=
    .handleRead
  exact ⟨_, ((((Run.nil.snoc hadd).snoc hread).snoc .callback).snoc .callbackReturn).snoc
    .handleReadReturn⟩

theorem not_armed_onceAround :
    ¬ ∀ ls label t, ls ++ [label] <+: onceAround → label.returns = true →
        Run TimerStep (initial fun _ => everyTen) (ls ++ [label]) t → t.queue.Armed := by
  obtain ⟨s, hrun⟩ := onceAround_run
  intro harmed
  have hadded : .addTimerInLoop 1 everyTen 0 ∈ onceAround := by simp [onceAround]
  have hnone := (armed_iff_no_add hrun).mp harmed _ hadded
  exact absurd hnone (by decide)

/-- A timer for 5 microseconds after the epoch, added at time 0: the descriptor stays disarmed. -/
theorem not_armed_after_add :
    ∃ s, Run TimerStep (initial fun _ => everyTen) [.addTimerInLoop 1 everyTen 0] s ∧
      everyTen.expiration.valid = true ∧ s.queue.timerList.toList = [.mk 5 1] ∧
      s.queue.timerfd = ⟨none, some 0⟩ ∧ ¬ s.queue.Armed := by
  refine ⟨_, Run.single (.addTimerInLoop (fun _ ha => nomatch ha) List.not_mem_nil), ?_⟩
  refine ⟨by decide, rfl, rfl, fun harmed => ?_⟩
  obtain ⟨deadline, _, hdeadline, -⟩ := harmed (.mk 5 1) rfl
  exact nomatch hdeadline

end TimerState

end LearnMuduo
