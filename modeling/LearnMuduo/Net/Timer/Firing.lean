import LearnMuduo.Net.Timer.Ownership

/-!
# The firing discipline

A timer that has run and is still pending repeats, and expires at least its interval after the
timestamp of each of its runs. Within one `handleRead` the callbacks follow the order of the
expired entries, which the calls that callbacks make do not change.
-/

namespace LearnMuduo

open Framework

namespace TimerQueue

variable {q q' : TimerQueue} {started : List TimerPtr} {now : Timestamp}

theorem mem_runs {run : TimerRun} : run ∈ q.runs ↔ .ran run ∈ q.history := by
  rw [runs, List.mem_filterMap]
  constructor
  · intro hmem
    rcases hmem with ⟨event, hevent, hrun⟩
    cases event with
    | added p => cases hrun
    | deleted p => cases hrun
    | ran run' =>
        cases hrun
        exact hevent
  · exact fun hmem => ⟨.ran run, hmem, rfl⟩

/-- Nothing ran, no timer was added and no timer's memory changed. -/
structure Keeps (q q' : TimerQueue) : Prop where
  memory : q'.memory = q.memory
  runs : q'.runs = q.runs
  live : ∀ p, q'.Live p → q.Live p

theorem Keeps.refl (q : TimerQueue) : q.Keeps q := ⟨rfl, rfl, fun _ h => h⟩

theorem keeps_deleteTimer (q : TimerQueue) (p : TimerPtr) : q.Keeps (q.deleteTimer p) :=
  ⟨rfl, rfl, fun p' hp' => by
    have hadded : .added p' ∈ .deleted p :: q.history := hp'.1
    exact ⟨by simpa using hadded, fun hmem => hp'.2 (List.mem_cons_of_mem _ hmem)⟩⟩

theorem keeps_cancelInLoop (q : TimerQueue) (timerId : TimerId) :
    q.Keeps (q.cancelInLoop timerId).val := by
  simp only [cancelInLoop, Checked.val_bind, Checked.val_pure]
  split
  · have hdelete := q.keeps_deleteTimer timerId.timer
    exact ⟨hdelete.memory, hdelete.runs, hdelete.live⟩
  · split
    · exact ⟨rfl, rfl, fun _ h => h⟩
    · exact Keeps.refl q

theorem keeps_addTimerInLoop (q : TimerQueue) (p : TimerPtr) (clock : Timestamp) :
    q.Keeps (q.addTimerInLoop p clock).val := by
  simp only [addTimerInLoop, Checked.val_bind, Checked.val_pure]
  split <;> exact ⟨rfl, rfl, fun _ h => h⟩

theorem keeps_getExpired (q : TimerQueue) (now : Timestamp) :
    q.Keeps (q.getExpired now).val.2 := by
  obtain ⟨ids, hval, -⟩ := eraseIds_val
    { q with timerList := q.timerList.notBelow (.mk now nullptr) }
    (q.timerList.below (.mk now nullptr))
  simp only [getExpired, Checked.val_bind, Checked.val_pure, hval]
  exact ⟨rfl, rfl, fun _ h => h⟩

/-- `started` are the timers whose callbacks `handleRead(now)` has started and not yet reset. -/
structure Paced (q : TimerQueue) (started : List TimerPtr) (now : Timestamp) : Prop where
  pending : ∀ run ∈ q.runs, q.Live run.timer → run.timer ∉ started →
    (q.memory run.timer).repeats = true ∧
      run.now + (q.memory run.timer).interval.micros ≤ (q.memory run.timer).expiration
  started : ∀ run ∈ q.runs, run.timer ∈ started → run.now ≤ now
  due : ∀ run ∈ q.runs, run.expiration ≤ run.now
  spaced : q.runs.Pairwise fun later earlier => later.timer = earlier.timer →
    (q.memory earlier.timer).repeats = true ∧
      earlier.now + (q.memory earlier.timer).interval.micros ≤ later.now

namespace Paced

theorem create (memory : TimerPtr → Timer) (now : Timestamp) :
    (TimerQueue.create memory).Paced [] now :=
  ⟨fun _ h => absurd h List.not_mem_nil, fun _ h => absurd h List.not_mem_nil,
    fun _ h => absurd h List.not_mem_nil, List.Pairwise.nil⟩

theorem keep (h : q.Paced started now) (hkeeps : q.Keeps q') : q'.Paced started now := by
  refine ⟨?_, ?_, ?_, ?_⟩ <;> rw [hkeeps.runs] <;> try rw [hkeeps.memory]
  · exact fun run hrun hlive => h.pending run hrun (hkeeps.live _ hlive)
  · exact h.started
  · exact h.due
  · exact h.spaced

theorem begin (h : q.Paced [] now) (now' : Timestamp) : q.Paced [] now' :=
  ⟨h.pending, fun _ _ hmem => absurd hmem List.not_mem_nil, h.due, h.spaced⟩

theorem newTimer (h : q.Paced started now) {p : TimerPtr} {timer : Timer}
    (hnever : ∀ run ∈ q.runs, run.timer ≠ p) : (q.newTimer p timer).Paced started now := by
  have hmemory : ∀ run ∈ q.runs, (q.newTimer p timer).memory run.timer = q.memory run.timer :=
    fun run hrun => Function.update_of_ne (hnever run hrun) _ _
  refine ⟨?_, h.started, h.due, ?_⟩
  · intro run hrun hlive hout
    have hlive' : q.Live run.timer := by
      have hadded : .added run.timer ∈ .added p :: q.history := hlive.1
      have hdeleted : .deleted run.timer ∉ .added p :: q.history := hlive.2
      have hne := hnever run hrun
      exact ⟨by simpa [hne] using hadded, fun hmem => hdeleted (List.mem_cons_of_mem _ hmem)⟩
    rw [hmemory run hrun]
    exact h.pending run hrun hlive' hout
  · refine h.spaced.imp_of_mem ?_
    intro later earlier _ hearlier hspaced
    rw [hmemory earlier hearlier]
    exact hspaced

theorem runTimer (h : q.Paced started now) {p : TimerPtr} (hlive : q.Live p) (hp : p ∉ started)
    (hdue : (q.memory p).expiration ≤ now) (read : Nat) :
    (q.runTimer p now read).Paced (started ++ [p]) now := by
  have hgap : ∀ run ∈ q.runs, p = run.timer →
      (q.memory run.timer).repeats = true ∧
        run.now + (q.memory run.timer).interval.micros ≤ now := by
    intro run hrun heq
    subst heq
    obtain ⟨hrepeats, hle⟩ := h.pending run hrun hlive hp
    exact ⟨hrepeats, le_trans hle hdue⟩
  have hruns : (q.runTimer p now read).runs = ⟨p, (q.memory p).expiration, now, read⟩ :: q.runs :=
    rfl
  refine ⟨?_, ?_, ?_, ?_⟩ <;> rw [hruns]
  · intro run hrun hrunLive hout
    rw [List.mem_append, List.mem_singleton, not_or] at hout
    rcases List.mem_cons.mp hrun with rfl | hrun
    · exact absurd rfl hout.2
    · have hadded : .added run.timer ∈ .ran _ :: q.history := hrunLive.1
      have hdeleted : .deleted run.timer ∉ .ran _ :: q.history := hrunLive.2
      exact h.pending run hrun ⟨by simpa using hadded, by simpa using hdeleted⟩ hout.1
  · intro run hrun hmem
    rcases List.mem_cons.mp hrun with rfl | hrun
    · exact le_refl now
    · rcases List.mem_append.mp hmem with hmem | hmem
      · exact h.started run hrun hmem
      · obtain ⟨hrepeats, hle⟩ := hgap run hrun (List.mem_singleton.mp hmem).symm
        exact le_trans (Int.le_add_of_nonneg_right (Timer.micros_nonneg hrepeats)) hle
  · intro run hrun
    rcases List.mem_cons.mp hrun with rfl | hrun
    · exact hdue
    · exact h.due run hrun
  · exact List.pairwise_cons.mpr ⟨fun run hrun heq => hgap run hrun heq, h.spaced⟩

theorem resetEntry {e : TimerEntry} (h : q.Paced (e.timer :: started) now) :
    (q.resetEntry e now).val.Paced started now := by
  unfold TimerQueue.resetEntry
  dsimp only
  split
  · rename_i hrestart
    have hkeeps : (q.restartTimer e.timer now).Keeps
        ((q.restartTimer e.timer now).insert e.timer).val.1 := ⟨rfl, rfl, fun _ hlive => hlive⟩
    have hinterval : ∀ p, ((q.restartTimer e.timer now).memory p).interval =
        (q.memory p).interval := by
      intro p
      by_cases hp : p = e.timer
      · subst hp
        simp [restartTimer]
      · simp [restartTimer, Function.update_of_ne hp]
    have hrepeats : ∀ p, ((q.restartTimer e.timer now).memory p).repeats =
        (q.memory p).repeats := by
      intro p
      by_cases hp : p = e.timer
      · subst hp
        simp [restartTimer]
      · simp [restartTimer, Function.update_of_ne hp]
    have hrestarted : (q.restartTimer e.timer now).Paced started now := by
      refine ⟨?_, ?_, h.due, ?_⟩
      · intro run hrun hlive hout
        rw [hrepeats, hinterval]
        by_cases hp : run.timer = e.timer
        · have hexpiration : ((q.restartTimer e.timer now).memory e.timer).expiration =
              now + (q.memory e.timer).interval.micros := by
            simp [restartTimer, Timer.restart_expiration hrestart.1]
          have hle := h.started run hrun (hp ▸ List.mem_cons_self)
          rw [hp, hexpiration]
          exact ⟨hrestart.1, Int.add_le_add_right hle _⟩
        · have hsame : (q.restartTimer e.timer now).memory run.timer = q.memory run.timer :=
            Function.update_of_ne hp _ _
          rw [hsame]
          exact h.pending run hrun hlive (List.not_mem_cons_of_ne_of_not_mem hp hout)
      · exact fun run hrun hmem => h.started run hrun (List.mem_cons_of_mem _ hmem)
      · refine h.spaced.imp ?_
        intro later earlier hspaced
        rw [hrepeats, hinterval]
        exact hspaced
    exact hrestarted.keep hkeeps
  · have hkeeps := q.keeps_deleteTimer e.timer
    refine ⟨?_, ?_, h.due, h.spaced⟩
    · intro run hrun hlive hout
      by_cases hp : run.timer = e.timer
      · exact absurd (hp ▸ List.mem_cons_self) hlive.2
      · exact h.pending run hrun (hkeeps.live _ hlive)
          (List.not_mem_cons_of_ne_of_not_mem hp hout)
    · exact fun run hrun hmem => h.started run hrun (List.mem_cons_of_mem _ hmem)

theorem resetEntries {batch : List TimerEntry} (h : q.Paced (timers batch) now) :
    (q.resetEntries now batch).val.Paced [] now := by
  induction batch generalizing q with
  | nil => exact h
  | cons e batch ih =>
      simp only [TimerQueue.resetEntries, Checked.val_bind]
      exact ih h.resetEntry

theorem reset {batch : List TimerEntry} (h : q.Paced (timers batch) now) (clock : Timestamp) :
    (q.reset batch now clock).val.Paced [] now := by
  have hentries := h.resetEntries
  have hset : ∀ t, (q.resetEntries now batch).val.Keeps
      ((q.resetEntries now batch).val.resetTimerfd t clock) := fun t => ⟨rfl, rfl, fun _ h => h⟩
  simp only [TimerQueue.reset, Checked.val_bind, Checked.val_pure]
  split <;> split
  · exact hentries.keep (hset _)
  · exact hentries
  · exact hentries.keep (hset _)
  · exact hentries

end Paced

end TimerQueue

namespace TimerState

open TimerQueue

/-- What has run so far is spaced, relative to the `handleRead` in progress. -/
def Spaced (s : TimerState) : Prop :=
  match s.activation with
  | none => s.queue.Paced [] 0
  | some a => s.queue.Paced (timers a.started) a.now

theorem Spaced.step {s s' : TimerState} {label : TimerLabel} (h : s.Spaced) (howned : s.Consistent)
    (hdue : ∀ a, s.activation = some a → ∀ e ∈ a.waiting, e.expiration ≤ a.now)
    (hstep : TimerStep s label s') : s'.Spaced := by
  cases hstep with
  | @addTimerInLoop _ p timer clock _ hfresh =>
      have hnever : ∀ run ∈ s.queue.runs, run.timer ≠ p := by
        intro run hrun heq
        subst heq
        exact hfresh (howned.known _ (mem_runs.mp hrun))
      have hkeeps := (s.queue.newTimer p timer).keeps_addTimerInLoop p clock
      rcases s with ⟨q, activation, reads⟩
      cases activation with
      | none => exact (Paced.newTimer h hnever).keep hkeeps
      | some a => exact (Paced.newTimer h hnever).keep hkeeps
  | @cancelInLoop _ timerId _ =>
      have hkeeps := s.queue.keeps_cancelInLoop timerId
      rcases s with ⟨q, activation, reads⟩
      cases activation with
      | none => exact Paced.keep h hkeeps
      | some a => exact Paced.keep h hkeeps
  | @handleRead q reads timestamp =>
      have hkeeps := q.keeps_getExpired timestamp
      exact (Paced.begin h timestamp).keep ⟨hkeeps.memory, hkeeps.runs, hkeeps.live⟩
  | @callback q reads now started waiting e =>
      have hkeyed : e = q.entryOf e.timer :=
        howned.keyed e (List.mem_append_right _ List.mem_cons_self)
      have hmem : e.timer ∈ timers (started ++ e :: waiting) := by simp [timers]
      have hnodup : (timers (started ++ e :: waiting)).Nodup := howned.nodup
      have hout : e.timer ∉ timers started := by
        rw [timers, List.map_append, List.nodup_append] at hnodup
        exact fun hstarted => hnodup.2.2 _ hstarted _ List.mem_cons_self rfl
      have hlive : q.Live e.timer := (howned.live _).mpr (Or.inr hmem)
      have hexpiration : (q.memory e.timer).expiration ≤ now := by
        have hentry : e.expiration = (q.memory e.timer).expiration :=
          congrArg TimerEntry.expiration hkeyed
        rw [← hentry]
        exact hdue _ rfl e List.mem_cons_self
      have hrun := Paced.runTimer h hlive hout hexpiration reads
      have htimers : timers (started ++ [e]) = timers started ++ [e.timer] := by simp [timers]
      show (q.runTimer e.timer now reads).Paced (timers (started ++ [e])) now
      rwa [htimers]
  | callbackReturn => exact h
  | @handleReadReturn q reads now clock started =>
      have hset : q.Keeps { q with callingExpiredTimers := false } :=
        ⟨rfl, rfl, fun _ hlive => hlive⟩
      exact ((Paced.keep h hset).reset clock).begin 0

/-- Within each `handleRead` the runs follow the order of the expired entries. -/
structure Ordered (s : TimerState) : Prop where
  due : ∀ a, s.activation = some a → ∀ e ∈ a.waiting, e.expiration ≤ a.now
  sorted : ∀ a, s.activation = some a → a.expired.Pairwise (· < ·)
  reads : ∀ run ∈ s.queue.runs, run.read ≤ s.reads
  current : ∀ a, s.activation = some a → ∀ run ∈ s.queue.runs, run.read = s.reads →
    .mk run.expiration run.timer ∈ a.started
  ordered : s.queue.runs.Pairwise fun later earlier => later.read = earlier.read →
    earlier.expiration ≤ later.expiration ∧ earlier.timer ≠ later.timer

theorem Ordered.initial (memory : TimerPtr → Timer) : (TimerState.initial memory).Ordered :=
  ⟨fun _ h => (nomatch h), fun _ h => (nomatch h), fun _ h => absurd h List.not_mem_nil,
    fun _ h => (nomatch h), List.Pairwise.nil⟩

theorem Ordered.keep {s : TimerState} (h : s.Ordered) {q : TimerQueue}
    (hruns : q.runs = s.queue.runs) : { s with queue := q }.Ordered := by
  refine ⟨h.due, h.sorted, ?_, ?_, ?_⟩ <;> simp only [hruns]
  · exact h.reads
  · exact h.current
  · exact h.ordered

theorem Ordered.step {s s' : TimerState} {label : TimerLabel} (h : s.Ordered)
    (howned : s.Consistent) (hstep : TimerStep s label s') : s'.Ordered := by
  cases hstep with
  | @addTimerInLoop _ p timer clock _ _ =>
      exact h.keep ((s.queue.newTimer p timer).keeps_addTimerInLoop p clock).runs
  | @cancelInLoop _ timerId _ => exact h.keep (s.queue.keeps_cancelInLoop timerId).runs
  | @handleRead q reads timestamp =>
      have hruns : (q.handleReadBegin timestamp).val.2.runs = q.runs :=
        (q.keeps_getExpired timestamp).runs
      refine ⟨?_, ?_, ?_, ?_, ?_⟩
      · intro a ha
        rcases ha with ⟨rfl⟩
        intro e he
        exact le_of_lt (TimerEntry.lt_sentry_iff.mp (SortedSet.lt_of_mem_below he))
      · intro a ha
        rcases ha with ⟨rfl⟩
        exact q.timerList.sorted_below _
      · intro run hrun
        rw [hruns] at hrun
        exact Nat.le_succ_of_le (h.reads run hrun)
      · intro a _ run hrun hread
        rw [hruns] at hrun
        exact absurd hread (Nat.ne_of_lt (Nat.lt_succ_of_le (h.reads run hrun)))
      · show (q.handleReadBegin timestamp).val.2.runs.Pairwise _
        rw [hruns]
        exact h.ordered
  | @callback q reads now started waiting e =>
      have hsorted : (started ++ e :: waiting).Pairwise (· < ·) := h.sorted _ rfl
      have hkeyed : e = q.entryOf e.timer :=
        howned.keyed e (List.mem_append_right _ List.mem_cons_self)
      have hnodup : (timers (started ++ e :: waiting)).Nodup := howned.nodup
      have hruns : (q.runTimer e.timer now reads).runs =
          ⟨e.timer, (q.memory e.timer).expiration, now, reads⟩ :: q.runs := rfl
      have hexpiration : (q.memory e.timer).expiration = e.expiration :=
        (congrArg TimerEntry.expiration hkeyed).symm
      refine ⟨?_, ?_, ?_, ?_, ?_⟩
      · intro a ha
        rcases ha with ⟨rfl⟩
        intro x hx
        exact h.due _ rfl x (List.mem_cons_of_mem _ hx)
      · intro a ha
        rcases ha with ⟨rfl⟩
        show ((started ++ [e]) ++ waiting).Pairwise _
        rwa [List.append_assoc]
      · intro run hrun
        rw [hruns] at hrun
        rcases List.mem_cons.mp hrun with rfl | hrun
        · exact le_refl reads
        · exact h.reads run hrun
      · intro a ha
        rcases ha with ⟨rfl⟩
        intro run hrun hread
        rw [hruns] at hrun
        rcases List.mem_cons.mp hrun with rfl | hrun
        · show TimerEntry.mk (q.memory e.timer).expiration e.timer ∈ started ++ [e]
          rw [hexpiration, TimerEntry.mk_eta]
          exact List.mem_append_right _ List.mem_cons_self
        · exact List.mem_append_left _ (h.current _ rfl run hrun hread)
      · change (q.runTimer e.timer now reads).runs.Pairwise _
        rw [hruns]
        refine List.pairwise_cons.mpr ⟨?_, h.ordered⟩
        intro run hrun hread
        have hstarted := h.current _ rfl run hrun hread.symm
        rw [List.pairwise_append] at hsorted
        have hlt := hsorted.2.2 _ hstarted e List.mem_cons_self
        rw [timers, List.map_append, List.nodup_append] at hnodup
        refine ⟨?_, hnodup.2.2 _ (List.mem_map_of_mem hstarted) _ List.mem_cons_self⟩
        rw [hexpiration]
        exact TimerEntry.expiration_le_of_lt hlt
  | @callbackReturn q reads now started waiting =>
      refine ⟨?_, ?_, h.reads, ?_, h.ordered⟩
      · intro a ha
        rcases ha with ⟨rfl⟩
        exact h.due ⟨now, started, waiting, true⟩ rfl
      · intro a ha
        rcases ha with ⟨rfl⟩
        exact h.sorted ⟨now, started, waiting, true⟩ rfl
      · intro a ha
        rcases ha with ⟨rfl⟩
        exact h.current ⟨now, started, waiting, true⟩ rfl
  | @handleReadReturn q reads now clock started =>
      have hruns : (q.handleReadEnd started now clock).val.runs = q.runs := by
        simp only [handleReadEnd, reset, Checked.val_bind, Checked.val_pure]
        obtain ⟨-, hentries⟩ :=
          frame_resetEntries { q with callingExpiredTimers := false } now started
        split <;> split <;> exact hentries
      have hidle : ∀ {a : Activation}, none ≠ some a := fun ha => Option.some_ne_none _ ha.symm
      refine ⟨fun _ ha => absurd ha hidle, fun _ ha => absurd ha hidle, ?_,
        fun _ ha => absurd ha hidle, ?_⟩
      · intro run hrun
        rw [hruns] at hrun
        exact h.reads run hrun
      · show (q.handleReadEnd started now clock).val.runs.Pairwise _
        rw [hruns]
        exact h.ordered

structure Disciplined (s : TimerState) : Prop where
  owned : s.Consistent
  spaced : s.Spaced
  ordered : s.Ordered

theorem Disciplined.step {s s' : TimerState} {label : TimerLabel} (h : s.Disciplined)
    (hstep : TimerStep s label s') : s'.Disciplined :=
  ⟨h.owned.step hstep, h.spaced.step h.owned h.ordered.due hstep, h.ordered.step h.owned hstep⟩

theorem disciplined_of_run {memory : TimerPtr → Timer} {labels : List TimerLabel}
    {s : TimerState} (hrun : Run TimerStep (initial memory) labels s) : s.Disciplined :=
  hrun.invariant (fun _ _ _ h hstep => h.step hstep)
    ⟨owned_create memory, Paced.create memory 0, Ordered.initial memory⟩

theorem runs_spaced {s : TimerState} (h : s.Spaced) :
    (∀ run ∈ s.queue.runs, run.expiration ≤ run.now) ∧
      s.queue.runs.Pairwise fun later earlier => later.timer = earlier.timer →
        (s.queue.memory earlier.timer).repeats = true ∧
          earlier.now + (s.queue.memory earlier.timer).interval.micros ≤ later.now := by
  rcases s with ⟨q, activation, reads⟩
  cases activation with
  | none => exact ⟨Paced.due h, Paced.spaced h⟩
  | some a => exact ⟨Paced.due h, Paced.spaced h⟩

/-- Two runs of one timer are possible only if it repeats. -/
theorem runs_of_not_repeats {s : TimerState} (h : s.Spaced) {p : TimerPtr}
    (hp : (s.queue.memory p).repeats = false) :
    (s.queue.runs.filter fun run => run.timer = p).length ≤ 1 := by
  have hnone : (s.queue.runs.filter fun run => run.timer = p).Pairwise fun _ _ => False := by
    refine ((runs_spaced h).2.sublist List.filter_sublist).imp_of_mem ?_
    intro later earlier hlater hearlier htwice
    have hl : later.timer = p := of_decide_eq_true (List.mem_filter.mp hlater).2
    have he : earlier.timer = p := of_decide_eq_true (List.mem_filter.mp hearlier).2
    have hrepeats := (htwice (hl.trans he.symm)).1
    rw [he, hp] at hrepeats
    exact Bool.false_ne_true hrepeats
  cases hruns : s.queue.runs.filter fun run => run.timer = p with
  | nil => exact Nat.zero_le 1
  | cons run rest =>
      cases rest with
      | nil => exact Nat.le_refl 1
      | cons run' rest =>
          rw [hruns] at hnone
          exact absurd List.mem_cons_self fun hmem => (List.pairwise_cons.mp hnone).1 run' hmem

/-- In every run: callbacks run when due; within one `handleRead` in order of expiration and each
timer once; a non-repeating timer once in all; and the runs of a repeating timer at timestamps
that are its interval apart. -/
theorem runs_disciplined {memory : TimerPtr → Timer} {labels : List TimerLabel}
    {s : TimerState} (hrun : Run TimerStep (initial memory) labels s) :
    (∀ run ∈ s.queue.runs, run.expiration ≤ run.now) ∧
      (s.queue.runs.Pairwise fun later earlier => later.read = earlier.read →
        earlier.expiration ≤ later.expiration ∧ earlier.timer ≠ later.timer) ∧
      (∀ p, (s.queue.memory p).repeats = false →
        (s.queue.runs.filter fun run => run.timer = p).length ≤ 1) ∧
      s.queue.runs.Pairwise fun later earlier => later.timer = earlier.timer →
        earlier.now + (s.queue.memory earlier.timer).interval.micros ≤ later.now := by
  have h := disciplined_of_run hrun
  obtain ⟨hdue, hgaps⟩ := runs_spaced h.spaced
  exact ⟨hdue, h.ordered.ordered, fun p hp => runs_of_not_repeats h.spaced hp,
    hgaps.imp fun hgap heq => (hgap heq).2⟩

theorem runs_disciplined_twoTimers :
    ∃ s, Run TimerStep (initial fun _ => everyTen) twoTimers s ∧
      s.queue.runs = [⟨1, 17, 20, 2⟩, ⟨2, 6, 7, 1⟩, ⟨1, 5, 7, 1⟩] ∧
      (∀ run ∈ s.queue.runs, run.expiration ≤ run.now) ∧
      (s.queue.runs.Pairwise fun later earlier => later.read = earlier.read →
        earlier.expiration ≤ later.expiration ∧ earlier.timer ≠ later.timer) ∧
      (∀ p, (s.queue.memory p).repeats = false →
        (s.queue.runs.filter fun run => run.timer = p).length ≤ 1) ∧
      s.queue.runs.Pairwise fun later earlier => later.timer = earlier.timer →
        earlier.now + (s.queue.memory earlier.timer).interval.micros ≤ later.now := by
  obtain ⟨s, hrun, hruns, -⟩ := twoTimers_run
  exact ⟨s, hrun, hruns, runs_disciplined hrun⟩

end TimerState

end LearnMuduo
