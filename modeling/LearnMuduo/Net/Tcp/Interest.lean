import LearnMuduo.Net.Tcp.Shutdown
import LearnMuduo.Net.Tcp.Teardown

/-!
# The interest of a connection's channel

The write interest follows the backlog, whatever order the operations come in, before the connection
is established, too. A connection that was closed has no interest, until `startReadInLoop` runs.
-/

namespace LearnMuduo

open Framework

/-- An operation of a connection, or the body of a task, which the loop may run at any time. -/
inductive LoopOp
  | op (op : ConnOp)
  | task (task : Task)
  deriving DecidableEq, Repr

namespace TcpConnection

variable {c c' : TcpConnection} {op : ConnOp} {ops : List ConnOp}

def perform (c : TcpConnection) : LoopOp → Checked TcpConnection
  | .op op => c.apply op
  | .task task => c.runTask task

/-- `connectionEstablished` asserts its state; messages are shorter than 2^31 bytes, and a `::write`
takes no more than it is given. -/
def Accepts (c : TcpConnection) : LoopOp → Prop
  | .op .connectionEstablished => c.state = .connecting
  | .op (.sendInLoop message result) =>
      message.bytes.length < 2 ^ 31 ∧ result.Fits message.bytes.length
  | _ => True

end TcpConnection

/-- A step of the release build, in any order. -/
def LoopOpStep (c : TcpConnection) (op : LoopOp) (c' : TcpConnection) : Prop :=
  c.Accepts op ∧ c' = (c.perform op).val

namespace TcpConnection

variable {c c' : TcpConnection} {op : ConnOp} {ops : List ConnOp}

theorem flushing_create (sockfd : Int) (pending : List UInt8) (hasWriteCompleteCb : Bool) :
    (create sockfd pending hasWriteCompleteCb).Flushing :=
  (unasked_create sockfd pending hasWriteCompleteCb).flushing

theorem Flushing.runTask (h : c.Flushing) (task : Task) : (c.runTask task).val.Flushing := by
  by_cases htask : task = .forceCloseInLoop
  · subst htask
    exact h.forceCloseInLoop
  · exact h.same (sameOutput_runTask c htask)

theorem Flushing.loopOp {op : LoopOp} (h : c.Flushing) (hstep : LoopOpStep c op c') :
    c'.Flushing := by
  rcases hstep with ⟨haccepts, heq⟩
  subst heq
  cases op with
  | task task => exact h.runTask task
  | op op =>
      refine h.apply op ?_ ?_
      · intro hop
        subst hop
        exact haccepts
      · intro message result hop
        subst hop
        exact haccepts

/-- In every state of every run that is not DISCONNECTED, the channel waits to write if and only if
there are bytes to be written. -/
theorem isWriting_iff_backlog {sockfd : Int} {pending : List UInt8} {hasWriteCompleteCb : Bool}
    {loopOps : List LoopOp}
    (h : Run LoopOpStep (create sockfd pending hasWriteCompleteCb) loopOps c)
    (hup : c.state ≠ .disconnected) :
    c.channel.isWriting = true ↔ 0 < c.sendBuf.readableBytes :=
  (h.invariant (fun _ _ _ h hstep => h.loopOp hstep)
    (flushing_create sockfd pending hasWriteCompleteCb)).up hup

theorem run_perform {c₀ : TcpConnection} {loopOps : List LoopOp} (h : Run LoopOpStep c₀ loopOps c)
    (op : LoopOp) (haccepts : c.Accepts op) :
    Run LoopOpStep c₀ (loopOps ++ [op]) (c.perform op).val :=
  h.snoc ⟨haccepts, rfl⟩

/-- A fatal error, a refused write, a partial one, and a shutdown in between. -/
theorem isWriting_iff_backlog_partialWrites : ∃ c,
    Run LoopOpStep (create 5 [] false)
      [.op .connectionEstablished, .op (.sendInLoop ⟨0, [1]⟩ (.failed .epipe)),
        .op (.sendInLoop ⟨0, [2, 3]⟩ (.failed .ewouldblock)), .op (.shutdown_mt true),
        .op (.handleWrite (.accepted 1)), .task .stopReadInLoop] c ∧
      (c.channel.isWriting = true ↔ 0 < c.sendBuf.readableBytes) := by
  have h₁ := run_perform (@Run.nil _ _ LoopOpStep (create 5 [] false)) (.op .connectionEstablished)
    rfl
  have h₂ := run_perform h₁ (.op (.sendInLoop ⟨0, [1]⟩ (.failed .epipe))) ⟨by decide, trivial⟩
  have h₃ := run_perform h₂ (.op (.sendInLoop ⟨0, [2, 3]⟩ (.failed .ewouldblock)))
    ⟨by decide, trivial⟩
  have h₄ := run_perform h₃ (.op (.shutdown_mt true)) trivial
  have h₅ := run_perform h₄ (.op (.handleWrite (.accepted 1))) trivial
  have h₆ := run_perform h₅ (.task .stopReadInLoop) trivial
  exact ⟨_, h₆, isWriting_iff_backlog h₆ (by decide +kernel)⟩

section Closed

/-- `handleClose` has run: nothing else calls the close callback. -/
def wasClosed (c : TcpConnection) : Bool := c.calls.contains .close

/-- Down, and without interest. -/
structure Shut (c : TcpConnection) : Prop where
  state : c.state = .disconnected
  noneEvent : c.channel.isNoneEvent = true

/-- A connection that was closed has no interest. -/
def Deregistered (c : TcpConnection) : Prop :=
  c.wasClosed = true → c.channel.isNoneEvent = true

/-- The step runs `startReadInLoop`. -/
def StartsRead (c : TcpConnection) : ConnOp → Prop
  | .startRead inLoopThread => inLoopThread = true
  | .runTask => c.tasks.head? = some .startReadInLoop
  | _ => False

theorem shut_closed (c : TcpConnection) : c.closed.Shut := ⟨rfl, rfl⟩

theorem wasClosed_iff (c : TcpConnection) : c.wasClosed = true ↔ 0 < c.calls.count .close := by
  rw [wasClosed, List.contains_iff_mem, List.count_pos_iff]

namespace Shut

theorem kept (h : c.Shut) (hkept : Kept c c') : c'.Shut :=
  ⟨hkept.state.trans h.state, by rw [hkept.channel, h.noneEvent]⟩

theorem isWriting (h : c.Shut) : c.channel.isWriting = false := by
  have hnone : c.channel.events = Channel.noneEvent := by
    simpa [Channel.isNoneEvent] using h.noneEvent
  simp [Channel.isWriting, hnone, Channel.noneEvent]

theorem isReading (h : c.Shut) : c.channel.isReading = false := by
  have hnone : c.channel.events = Channel.noneEvent := by
    simpa [Channel.isNoneEvent] using h.noneEvent
  simp [Channel.isReading, hnone, Channel.noneEvent]

theorem handleReadWith (h : c.Shut) (result : ReadvResult) :
    (c.handleReadWith result).val.Shut := by
  rcases c.handleReadWith_cases result with ⟨_, recvBuf, hval⟩ | ⟨_, hkept⟩
  · rw [hval]
    exact shut_closed _
  · exact h.kept hkept

theorem handleWrite (h : c.Shut) (result : WriteResult) : (c.handleWrite result).val.Shut := by
  rw [handleWrite_val, h.isWriting, if_neg fun hwriting => Bool.false_ne_true hwriting.1]
  exact h

theorem handleEvents (h : c.Shut) (currEvents : BitVec 32) (read : ReadvResult)
    (write : WriteResult) : (c.handleEvents currEvents read write).val.Shut := by
  have hclose : (if hangsUp currEvents then c.closed else c).Shut := by
    split
    · exact shut_closed c
    · exact h
  rw [handleEvents_val]
  generalize (if hangsUp currEvents then c.closed else c) = c₁ at hclose
  have hread : (if reads currEvents then (c₁.handleReadWith read).val else c₁).Shut := by
    split
    · exact hclose.handleReadWith read
    · exact hclose
  dsimp only
  generalize (if reads currEvents then (c₁.handleReadWith read).val else c₁) = c₂ at hread
  split
  · exact hread.handleWrite write
  · exact hread

theorem stopReadInLoop (h : c.Shut) : c.stopReadInLoop.Shut := by
  have hnone : c.channel.events = Channel.noneEvent := by
    simpa [Channel.isNoneEvent] using h.noneEvent
  rw [TcpConnection.stopReadInLoop]
  split
  · exact ⟨h.state, by simp [Channel.isNoneEvent, Channel.disableRead, hnone, Channel.noneEvent]⟩
  · exact h

theorem runTask (h : c.Shut) {task : Task} (htask : task ≠ .startReadInLoop) :
    (c.runTask task).val.Shut := by
  have hdown : c.isUp = false := by simp [isUp, h.state]
  cases task with
  | shutdownInLoop =>
      show c.shutdownInLoop.Shut
      rw [shutdownInLoop]
      split
      · exact ⟨h.state, h.noneEvent⟩
      · exact h
  | forceCloseInLoop =>
      show c.forceCloseInLoop.val.Shut
      rw [forceCloseInLoop_val, hdown]
      exact h
  | startReadInLoop => exact absurd rfl htask
  | stopReadInLoop => exact h.stopReadInLoop

theorem step (h : c.Shut) (hfresh : c.Fresh) (hstep : ConnStep c op c') (hnot : ¬ c.StartsRead op) :
    c'.Shut := by
  have hconnected : ¬ c.state = .connected := by
    rw [h.state]
    decide
  rcases hstep with ⟨hallowed, heq⟩
  subst heq
  cases op with
  | connectionEstablished =>
      rcases hfresh with hestablished | hconnecting
      · exact absurd (hestablished.symm.trans hallowed) (by decide)
      · exact absurd (h.state.symm.trans hconnecting) (by decide)
  | handleEvents currEvents read write => exact h.handleEvents currEvents read write
  | handleRead result => exact h.handleReadWith result
  | handleWrite result => exact h.handleWrite result
  | handleClose =>
      show c.handleClose.val.Shut
      rw [handleClose_val]
      exact shut_closed c
  | sendInLoop message result =>
      show (c.sendInLoop message message.bytes.length result).val.Shut
      rw [sendInLoop, if_pos h.state]
      exact h
  | shutdown_mt inLoopThread =>
      show (c.shutdown_mt inLoopThread).val.Shut
      rw [shutdown_mt, if_neg hconnected]
      exact h
  | forceClose =>
      show c.forceClose.Shut
      rw [forceClose, if_neg]
      · exact h
      · rw [h.state]
        decide
  | forceCloseInLoop => exact h.runTask (by decide : Task.forceCloseInLoop ≠ .startReadInLoop)
  | startRead inLoopThread =>
      cases inLoopThread with
      | true => exact absurd rfl hnot
      | false => exact ⟨h.state, h.noneEvent⟩
  | stopRead inLoopThread =>
      cases inLoopThread with
      | true => exact h.stopReadInLoop
      | false => exact ⟨h.state, h.noneEvent⟩
  | runTask =>
      show c.runNextTask.val.Shut
      rw [runNextTask]
      cases htasks : c.tasks with
      | nil => exact h
      | cons task tasks =>
          have htaken : ({ c with tasks := tasks } : TcpConnection).Shut := ⟨h.state, h.noneEvent⟩
          refine htaken.runTask fun htask => hnot ?_
          show c.tasks.head? = _
          rw [htasks, htask]
          rfl
  | connectionDestroyed =>
      have hval : c.connectionDestroyed.val = c := by
        simp [connectionDestroyed, Channel.remove, hconnected]
      show c.connectionDestroyed.val.Shut
      rw [hval]
      exact h

theorem not_noneEvent_startReadInLoop (h : c.Shut) :
    c.startReadInLoop.channel.isNoneEvent = false := by
  have hnone : c.channel.events = Channel.noneEvent := by
    simpa [Channel.isNoneEvent] using h.noneEvent
  have hstarts : (!c.reading || !c.channel.isReading) = true := by simp [h.isReading]
  rw [startReadInLoop, if_pos hstarts]
  simp [Channel.isNoneEvent, Channel.enableRead, hnone, Channel.noneEvent, Channel.readEvent]

theorem not_noneEvent_of_startsRead (h : c.Shut) (hstep : ConnStep c op c')
    (hstarts : c.StartsRead op) : c'.channel.isNoneEvent = false := by
  rw [hstep.2]
  cases op with
  | startRead inLoopThread =>
      have htrue : inLoopThread = true := hstarts
      subst htrue
      exact h.not_noneEvent_startReadInLoop
  | runTask =>
      have hhead : c.tasks.head? = some .startReadInLoop := hstarts
      show c.runNextTask.val.channel.isNoneEvent = false
      rw [runNextTask]
      cases htasks : c.tasks with
      | nil => simp [htasks] at hhead
      | cons task tasks =>
          rw [htasks, List.head?_cons] at hhead
          rw [Option.some.inj hhead]
          have htaken : ({ c with tasks := tasks } : TcpConnection).Shut := ⟨h.state, h.noneEvent⟩
          exact htaken.not_noneEvent_startReadInLoop
  | _ => exact hstarts.elim

end Shut

theorem shut_handleReadWith (c : TcpConnection) {result : ReadvResult}
    (hend : result.isEnd = true) : (c.handleReadWith result).val.Shut := by
  rcases c.handleReadWith_cases result with ⟨_, recvBuf, hval⟩ | ⟨hnot, _⟩
  · rw [hval]
    exact shut_closed _
  · exact absurd (hend.symm.trans hnot) (by decide)

theorem shut_forceCloseInLoop (h : c.isUp = true) : c.forceCloseInLoop.val.Shut := by
  rw [forceCloseInLoop_val, h]
  exact shut_closed c

theorem shut_of_closings (hstep : ConnStep c op c') (hpos : 0 < c.closings op) : c'.Shut := by
  have hbool : ∀ {b : Bool}, 0 < b.toNat → b = true := by
    intro b hb
    cases b with
    | true => rfl
    | false => exact absurd hb (Nat.lt_irrefl 0)
  rw [hstep.2]
  cases op with
  | handleEvents currEvents read write =>
      show (c.handleEvents currEvents read write).val.Shut
      have hwrite : ∀ c₁ : TcpConnection, c₁.Shut →
          (if currEvents &&& Channel.pollOut ≠ 0 then (c₁.handleWrite write).val else c₁).Shut := by
        intro c₁ h
        split
        · exact h.handleWrite write
        · exact h
      rw [handleEvents_val]
      cases hhup : hangsUp currEvents with
      | true =>
          refine hwrite _ ?_
          split
          · exact (shut_closed c).handleReadWith read
          · exact shut_closed c
      | false =>
          have hend : (reads currEvents && read.isEnd) = true :=
            hbool (by simpa [closings, hhup] using hpos)
          rw [Bool.and_eq_true] at hend
          rw [hend.1]
          exact hwrite _ (shut_handleReadWith c hend.2)
  | handleRead result => exact shut_handleReadWith c (hbool hpos)
  | handleClose =>
      show c.handleClose.val.Shut
      rw [handleClose_val]
      exact shut_closed c
  | forceCloseInLoop => exact shut_forceCloseInLoop (hbool hpos)
  | runTask =>
      have hruns := hbool hpos
      show c.runNextTask.val.Shut
      rw [runNextTask]
      cases htasks : c.tasks with
      | nil => simp [htasks] at hruns
      | cons task tasks =>
          simp only [htasks, List.head?_cons, Bool.and_eq_true, beq_iff_eq, Option.some.injEq]
            at hruns
          rw [hruns.2]
          have hup : ({ c with tasks := tasks } : TcpConnection).isUp = true := hruns.1
          exact shut_forceCloseInLoop hup
  | _ => exact absurd hpos (Nat.lt_irrefl 0)

theorem Counted.down_of_wasClosed (h : c.Counted) (hclosed : c.wasClosed = true) :
    c.state = .disconnected := by
  by_contra hup
  rw [wasClosed_iff, (h.up hup).1] at hclosed
  exact Nat.lt_irrefl 0 hclosed

theorem deregistered_step_iff (hcounted : c.Counted) (h : c.Deregistered)
    (hstep : ConnStep c op c') :
    c'.Deregistered ↔ ¬ (c.wasClosed = true ∧ c.StartsRead op) := by
  have hcount := hstep.does.reported.close
  by_cases hclosed : c.wasClosed = true
  · have hshut : c.Shut := ⟨hcounted.down_of_wasClosed hclosed, h hclosed⟩
    have hclosed' : c'.wasClosed = true := by
      rw [wasClosed_iff] at hclosed ⊢
      omega
    constructor
    · intro hnone hbad
      have hsome := hshut.not_noneEvent_of_startsRead hstep hbad.2
      rw [hnone hclosed'] at hsome
      exact Bool.false_ne_true hsome.symm
    · intro hnot _
      exact (hshut.step hcounted.fresh hstep fun hstarts => hnot ⟨hclosed, hstarts⟩).noneEvent
  · refine iff_of_true (fun hclosed' => ?_) fun hbad => hclosed hbad.1
    refine (shut_of_closings hstep ?_).noneEvent
    rw [wasClosed_iff] at hclosed hclosed'
    omega

/-- A closed connection has no interest in all states of exactly those runs in which
`startReadInLoop` does not run after `handleClose`. -/
theorem deregistered_iff {sockfd : Int} {pending : List UInt8} {hasWriteCompleteCb : Bool}
    (h : Run ConnStep (create sockfd pending hasWriteCompleteCb) ops c) :
    (∀ before after c₁, ops = before ++ after →
        Run ConnStep (create sockfd pending hasWriteCompleteCb) before c₁ → c₁.Deregistered) ↔
      ∀ before op after c₁, ops = before ++ op :: after →
        Run ConnStep (create sockfd pending hasWriteCompleteCb) before c₁ →
          ¬ (c₁.wasClosed = true ∧ c₁.StartsRead op) :=
  h.forall_state_iff connStep_deterministic (fun _ _ _ h hstep => h.step hstep)
    (fun _ _ _ hcounted h hstep => deregistered_step_iff hcounted h hstep)
    (counted_create sockfd pending hasWriteCompleteCb)
    (fun hclosed => absurd hclosed (by simp [wasClosed, create]))

/-- A request to read that is posted while the connection is up, and runs after it was closed. -/
def lateStart : List ConnOp := [.connectionEstablished, .startRead false, .handleClose, .runTask]

theorem lateStart_reregisters : ∃ c,
    Run ConnStep (create 5 [] false) lateStart c ∧ c.wasClosed = true ∧
      c.state = .disconnected ∧ c.channel.isReading = true ∧
      ¬ ∀ before after c₁, lateStart = before ++ after →
        Run ConnStep (create 5 [] false) before c₁ → c₁.Deregistered := by
  have hrun : Run ConnStep (create 5 [] false) lateStart _ :=
    (((Run.nil.snoc ⟨by decide, rfl⟩).snoc ⟨by decide, rfl⟩).snoc ⟨by decide, rfl⟩).snoc
      ⟨by decide, rfl⟩
  refine ⟨_, hrun, by decide, by decide, by decide, fun hall => ?_⟩
  have hnone := hall lateStart [] _ (List.append_nil _).symm hrun (by decide)
  exact absurd hnone (by decide)

theorem deregistered_iff_stopRead : ∃ c,
    Run ConnStep (create 5 [] false) [.connectionEstablished, .handleClose, .stopRead true] c ∧
      ((∀ before after c₁,
          [.connectionEstablished, .handleClose, .stopRead true] = before ++ after →
            Run ConnStep (create 5 [] false) before c₁ → c₁.Deregistered) ↔
        ∀ before op after c₁,
          [.connectionEstablished, .handleClose, .stopRead true] = before ++ op :: after →
            Run ConnStep (create 5 [] false) before c₁ →
              ¬ (c₁.wasClosed = true ∧ c₁.StartsRead op)) := by
  have hrun : Run ConnStep (create 5 [] false)
      [.connectionEstablished, .handleClose, .stopRead true] _ :=
    ((Run.nil.snoc ⟨by decide, rfl⟩).snoc ⟨by decide, rfl⟩).snoc ⟨by decide, rfl⟩
  exact ⟨_, hrun, deregistered_iff hrun⟩

end Closed

end TcpConnection

end LearnMuduo
