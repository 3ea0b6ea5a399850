import LearnMuduo.Net.Tcp.StateOrder

/-!
# Shutting down the write side

`shutdown_mt` sets a state and posts `shutdownInLoop`. If the task finds bytes in the backlog it
leaves the shutdown to `handleWrite`, which looks for a state that the request does not set.
-/

namespace LearnMuduo

open Framework

namespace TcpConnection

variable {c c' : TcpConnection} {op : ConnOp} {ops : List ConnOp}

/-- The write interest says whether there is a backlog, as long as the connection is not down. -/
structure Flushing (c : TcpConnection) : Prop where
  queue : ∃ q, c.sendBuf.Represents q
  up : c.state ≠ .disconnected → (c.channel.isWriting = true ↔ 0 < c.sendBuf.readableBytes)
  down : c.state = .disconnected → c.channel.isWriting = false

/-- The backlog, the write interest and being down are as they were. -/
structure SameOutput (c c' : TcpConnection) : Prop where
  sendBuf : c'.sendBuf = c.sendBuf
  isWriting : c'.channel.isWriting = c.channel.isWriting
  down : c'.state = .disconnected ↔ c.state = .disconnected

theorem SameOutput.refl (c : TcpConnection) : SameOutput c c := ⟨rfl, rfl, Iff.rfl⟩

theorem SameOutput.trans {c'' : TcpConnection} (h : SameOutput c c') (h' : SameOutput c' c'') :
    SameOutput c c'' :=
  ⟨h'.sendBuf.trans h.sendBuf, h'.isWriting.trans h.isWriting, h'.down.trans h.down⟩

theorem Kept.sameOutput (h : Kept c c') : SameOutput c c' :=
  ⟨h.sendBuf, by rw [h.channel], by rw [h.state]⟩

theorem sameOutput_queueTask (c : TcpConnection) (task : Task) : SameOutput c (c.queueTask task) :=
  ⟨rfl, rfl, Iff.rfl⟩

theorem sameOutput_shutdownInLoop (c : TcpConnection) : SameOutput c c.shutdownInLoop := by
  rw [shutdownInLoop]
  split
  · exact ⟨rfl, rfl, Iff.rfl⟩
  · exact SameOutput.refl c

theorem sameOutput_startReadInLoop (c : TcpConnection) : SameOutput c c.startReadInLoop := by
  rw [startReadInLoop]
  split
  · exact ⟨rfl, c.channel.isWriting_enableRead, Iff.rfl⟩
  · exact SameOutput.refl c

theorem sameOutput_stopReadInLoop (c : TcpConnection) : SameOutput c c.stopReadInLoop := by
  rw [stopReadInLoop]
  split
  · exact ⟨rfl, c.channel.isWriting_disableRead, Iff.rfl⟩
  · exact SameOutput.refl c

theorem sameOutput_runTask (c : TcpConnection) {task : Task} (htask : task ≠ .forceCloseInLoop) :
    SameOutput c (c.runTask task).val := by
  cases task with
  | shutdownInLoop => exact sameOutput_shutdownInLoop c
  | startReadInLoop => exact sameOutput_startReadInLoop c
  | stopReadInLoop => exact sameOutput_stopReadInLoop c
  | forceCloseInLoop => exact absurd rfl htask

theorem sameOutput_postTask_mt (c : TcpConnection) (inLoopThread : Bool) {task : Task}
    (htask : task ≠ .forceCloseInLoop) : SameOutput c (c.postTask_mt inLoopThread task).val := by
  cases inLoopThread with
  | true => exact sameOutput_runTask c htask
  | false => exact sameOutput_queueTask c task

theorem sameOutput_setState {state : StateE} (hup : c.state ≠ .disconnected)
    (hstate : state ≠ .disconnected) : SameOutput c (c.setState state) :=
  ⟨rfl, rfl, iff_of_false hstate hup⟩

theorem sameOutput_shutdown_mt (c : TcpConnection) (inLoopThread : Bool) :
    SameOutput c (c.shutdown_mt inLoopThread).val := by
  rw [shutdown_mt]
  split
  · rename_i hstate
    have hset : SameOutput c (c.setState .connecting) :=
      sameOutput_setState (by rw [hstate]; decide) (by decide)
    exact hset.trans (sameOutput_postTask_mt _ inLoopThread (by decide))
  · exact SameOutput.refl c

theorem sameOutput_forceClose (c : TcpConnection) : SameOutput c c.forceClose := by
  rw [forceClose]
  split
  · rename_i hstate
    have hup : c.state ≠ .disconnected := by
      intro hdown
      rw [hdown] at hstate
      rcases hstate with h | h
      · cases h
      · cases h
    exact (sameOutput_setState hup (by decide)).trans (sameOutput_queueTask _ _)
  · exact SameOutput.refl c

/-- The connection is down, its backlog and its write side are as they were. -/
structure GoesDown (c c' : TcpConnection) : Prop where
  state : c'.state = .disconnected
  isWriting : c'.channel.isWriting = false
  sendBuf : c'.sendBuf = c.sendBuf
  tasks : c'.tasks = c.tasks
  writeShut : c'.socket.writeShut = c.socket.writeShut

theorem goesDown_closed (c : TcpConnection) : GoesDown c c.closed :=
  ⟨rfl, c.channel.isWriting_disableAll, rfl, rfl, rfl⟩

theorem GoesDown.of_kept {c'' : TcpConnection} (h : Kept c c') (h' : GoesDown c' c'') :
    GoesDown c c'' :=
  ⟨h'.state, h'.isWriting, h'.sendBuf.trans h.sendBuf, h'.tasks.trans h.tasks,
    h'.writeShut.trans h.writeShut⟩

theorem GoesDown.kept {c'' : TcpConnection} (h : GoesDown c c') (h' : Kept c' c'') :
    GoesDown c c'' :=
  ⟨h'.state.trans h.state, by rw [h'.channel, h.isWriting], h'.sendBuf.trans h.sendBuf,
    h'.tasks.trans h.tasks, h'.writeShut.trans h.writeShut⟩

theorem GoesDown.trans {c'' : TcpConnection} (h : GoesDown c c') (h' : GoesDown c' c'') :
    GoesDown c c'' :=
  ⟨h'.state, h'.isWriting, h'.sendBuf.trans h.sendBuf, h'.tasks.trans h.tasks,
    h'.writeShut.trans h.writeShut⟩

theorem GoesDown.handleWrite (h : GoesDown c c') (result : WriteResult) :
    GoesDown c (c'.handleWrite result).val := by
  have hnot : ¬ (c'.channel.isWriting = true ∧ 0 < result.count) := by
    rw [h.isWriting]
    exact fun hwriting => Bool.false_ne_true hwriting.1
  rw [handleWrite_val, if_neg hnot]
  exact h

theorem goesDown_or_kept_handleReadWith (c : TcpConnection) (result : ReadvResult) :
    (result.isEnd = true ∧ GoesDown c (c.handleReadWith result).val) ∨
      (result.isEnd = false ∧ Kept c (c.handleReadWith result).val) := by
  rcases c.handleReadWith_cases result with ⟨hend, recvBuf, hval⟩ | hkept
  · have hread : Kept c { c with recvBuf := recvBuf } :=
      ⟨Quiet.of_eq rfl rfl, rfl, rfl, rfl, rfl⟩
    rw [hval]
    exact Or.inl ⟨hend, GoesDown.of_kept hread (goesDown_closed _)⟩
  · exact Or.inr hkept

theorem handleEvents_cases (c : TcpConnection) (currEvents : BitVec 32) (read : ReadvResult)
    (write : WriteResult) :
    (0 < c.closings (.handleEvents currEvents read write) ∧
        GoesDown c (c.handleEvents currEvents read write).val) ∨
      (c.closings (.handleEvents currEvents read write) = 0 ∧ ∃ c₁, Kept c c₁ ∧
        (c.handleEvents currEvents read write).val =
          if currEvents &&& Channel.pollOut ≠ 0 then (c₁.handleWrite write).val else c₁) := by
  rw [handleEvents_val]
  have hwrite : ∀ c₁, GoesDown c c₁ → GoesDown c
      (if currEvents &&& Channel.pollOut ≠ 0 then (c₁.handleWrite write).val else c₁) := by
    intro c₁ hdown
    split
    · exact hdown.handleWrite write
    · exact hdown
  cases hhup : hangsUp currEvents with
  | true =>
      have hclosed := goesDown_closed c
      refine Or.inl ⟨by simp [closings, hhup], ?_⟩
      cases hreads : reads currEvents with
      | false => exact hwrite _ hclosed
      | true =>
          rcases goesDown_or_kept_handleReadWith c.closed read with ⟨_, hdown⟩ | ⟨_, hkept⟩
          · exact hwrite _ (hclosed.trans hdown)
          · exact hwrite _ (hclosed.kept hkept)
  | false =>
      cases hreads : reads currEvents with
      | false => exact Or.inr ⟨by simp [closings, hhup, hreads], c, Kept.refl c, rfl⟩
      | true =>
          rcases goesDown_or_kept_handleReadWith c read with ⟨hend, hdown⟩ | ⟨hend, hkept⟩
          · exact Or.inl ⟨by simp [closings, hreads, hend], hwrite _ hdown⟩
          · exact Or.inr ⟨by simp [closings, hhup, hend], _, hkept, rfl⟩

/-- What becomes of a connection whose backlog was written out. -/
structure WrittenOut (c c' : TcpConnection) : Prop where
  state : c'.state = c.state
  sendBuf : c'.sendBuf = c.sendBuf
  isWriting : c'.channel.isWriting = false
  tasks : c'.tasks = c.tasks
  writeShut : c.state ≠ .disconnecting → c'.socket.writeShut = c.socket.writeShut

theorem writtenOut_drained (c : TcpConnection) : WrittenOut c c.drained := by
  have hkept := kept_postWriteComplete { c with channel := c.channel.disableWrite }
  have hwriting : ({ c with channel := c.channel.disableWrite } :
      TcpConnection).postWriteComplete.channel.isWriting = false := by
    rw [hkept.channel]
    exact c.channel.isWriting_disableWrite
  rw [drained]
  split
  · rename_i hstate
    have hsame := sameOutput_shutdownInLoop
      ({ c with channel := c.channel.disableWrite } : TcpConnection).postWriteComplete
    have hquiet := quiet_shutdownInLoop
      ({ c with channel := c.channel.disableWrite } : TcpConnection).postWriteComplete
    refine ⟨hquiet.state.trans hkept.state, hsame.sendBuf.trans hkept.sendBuf,
      hsame.isWriting.trans hwriting, ?_, fun hnot => absurd (hkept.state.symm.trans hstate) hnot⟩
    rw [shutdownInLoop]
    split
    · exact hkept.tasks
    · exact hkept.tasks
  · exact ⟨hkept.state, hkept.sendBuf, hwriting, hkept.tasks, fun _ => hkept.writeShut⟩

namespace Flushing

theorem same (h : c.Flushing) (hsame : SameOutput c c') : c'.Flushing := by
  refine ⟨?_, fun hup => ?_, fun hdown => ?_⟩
  · rw [hsame.sendBuf]
    exact h.queue
  · rw [hsame.sendBuf, hsame.isWriting]
    exact h.up fun hdown => hup (hsame.down.mpr hdown)
  · rw [hsame.isWriting]
    exact h.down (hsame.down.mp hdown)

theorem grown (h : c.Flushing) (hup : c.state ≠ .disconnected) (hgrown : Grown c c') :
    c'.Flushing ∧ 0 < c'.sendBuf.readableBytes := by
  rcases hgrown with ⟨c₁, bytes, channel, hkept, hbytes, hwriting, heq⟩
  subst heq
  rcases (h.same hkept.sameOutput).queue with ⟨q, hq⟩
  have happend := hq.append bytes
  have hpos : 0 < (c₁.sendBuf.append bytes).val.readableBytes := by
    rw [happend.length_eq, List.length_append]
    have hlen := List.length_pos_iff.mpr hbytes
    omega
  refine ⟨⟨⟨_, happend⟩, fun _ => iff_of_true hwriting hpos, fun hdown => ?_⟩, hpos⟩
  exact absurd (hkept.state.symm.trans hdown) hup

theorem goesDown (h : c.Flushing) (hdown : GoesDown c c') : c'.Flushing := by
  refine ⟨?_, fun hup => absurd hdown.state hup, fun _ => hdown.isWriting⟩
  rw [hdown.sendBuf]
  exact h.queue

theorem readableBytes_flushed (h : c.Flushing) (n : Nat) :
    (∃ q, (c.flushed n).sendBuf.Represents q) ∧
      (c.flushed n).sendBuf.readableBytes = c.sendBuf.readableBytes - n := by
  rcases h.queue with ⟨q, hq⟩
  have hretrieve := hq.retrieve n
  refine ⟨⟨_, hretrieve⟩, ?_⟩
  show (c.sendBuf.retrieve n).val.readableBytes = _
  rw [hretrieve.length_eq, hq.length_eq, List.length_drop]

theorem handleWrite (h : c.Flushing) (result : WriteResult) :
    (c.handleWrite result).val.Flushing := by
  rw [handleWrite_val]
  split
  · rename_i hwrite
    have hup : c.state ≠ .disconnected := by
      intro hdown
      rw [h.down hdown] at hwrite
      exact Bool.false_ne_true hwrite.1
    rcases h.readableBytes_flushed result.count with ⟨hqueue, _⟩
    split
    · rename_i hempty
      have hout := writtenOut_drained (c.flushed result.count)
      refine ⟨?_, fun _ => ?_, fun hdown => absurd (hout.state.symm.trans hdown) hup⟩
      · rw [hout.sendBuf]
        exact hqueue
      · rw [hout.sendBuf, hout.isWriting, hempty]
        exact iff_of_false Bool.false_ne_true (Nat.lt_irrefl 0)
    · rename_i hrest
      exact ⟨hqueue, fun _ => iff_of_true hwrite.1 (Nat.pos_of_ne_zero hrest),
        fun hdown => absurd hdown hup⟩
  · exact h

theorem handleEvents (h : c.Flushing) (currEvents : BitVec 32) (read : ReadvResult)
    (write : WriteResult) : (c.handleEvents currEvents read write).val.Flushing := by
  rcases handleEvents_cases c currEvents read write with ⟨_, hdown⟩ | ⟨_, c₁, hkept, hval⟩
  · exact h.goesDown hdown
  · rw [hval]
    split
    · exact (h.same hkept.sameOutput).handleWrite write
    · exact h.same hkept.sameOutput

theorem forceCloseInLoop (h : c.Flushing) : c.forceCloseInLoop.val.Flushing := by
  rw [forceCloseInLoop_val]
  split
  · exact h.goesDown (goesDown_closed c)
  · exact h

theorem runNextTask (h : c.Flushing) : c.runNextTask.val.Flushing := by
  rw [TcpConnection.runNextTask]
  cases htasks : c.tasks with
  | nil => exact h
  | cons task tasks =>
      have htaken : ({ c with tasks := tasks } : TcpConnection).Flushing := ⟨h.queue, h.up, h.down⟩
      by_cases htask : task = .forceCloseInLoop
      · subst htask
        exact htaken.forceCloseInLoop
      · exact htaken.same (sameOutput_runTask _ htask)

theorem connectionDestroyed (h : c.Flushing) : c.connectionDestroyed.val.Flushing := by
  by_cases hstate : c.state = .connected
  · refine h.goesDown ⟨?_, ?_, ?_, ?_, ?_⟩ <;>
      simp [TcpConnection.connectionDestroyed, Channel.remove, hstate, setState, call]
  · refine h.same ?_
    have hval : c.connectionDestroyed.val = c := by
      simp [TcpConnection.connectionDestroyed, Channel.remove, hstate]
    rw [hval]
    exact SameOutput.refl c

theorem apply (h : c.Flushing) (op : ConnOp)
    (hconnecting : op = .connectionEstablished → c.state = .connecting)
    (hsend : ∀ message result, op = .sendInLoop message result →
      message.bytes.length < 2 ^ 31 ∧ result.Fits message.bytes.length) :
    (c.apply op).val.Flushing := by
  cases op with
  | connectionEstablished =>
      refine h.same ⟨rfl, c.channel.isWriting_enableRead, iff_of_false StateE.noConfusion ?_⟩
      rw [hconnecting rfl]
      exact StateE.noConfusion
  | handleEvents currEvents read write => exact h.handleEvents currEvents read write
  | handleRead result =>
      rcases goesDown_or_kept_handleReadWith c result with ⟨_, hdown⟩ | ⟨_, hkept⟩
      · exact h.goesDown hdown
      · exact h.same hkept.sameOutput
  | handleWrite result => exact h.handleWrite result
  | handleClose =>
      show c.handleClose.val.Flushing
      rw [handleClose_val]
      exact h.goesDown (goesDown_closed c)
  | sendInLoop message result =>
      rcases hsend message result rfl with ⟨hlen, hfits⟩
      rcases c.sendInLoop_cases hlen hfits with hkept | ⟨hup, hgrown⟩
      · exact h.same hkept.sameOutput
      · exact (h.grown hup hgrown).1
  | shutdown_mt inLoopThread => exact h.same (sameOutput_shutdown_mt c inLoopThread)
  | forceClose => exact h.same (sameOutput_forceClose c)
  | forceCloseInLoop => exact h.forceCloseInLoop
  | startRead inLoopThread => exact h.same (sameOutput_postTask_mt c inLoopThread (by decide))
  | stopRead inLoopThread => exact h.same (sameOutput_postTask_mt c inLoopThread (by decide))
  | runTask => exact h.runNextTask
  | connectionDestroyed => exact h.connectionDestroyed

theorem step (h : c.Flushing) (hfresh : c.Fresh) (hstep : ConnStep c op c') : c'.Flushing := by
  rcases hstep with ⟨hallowed, heq⟩
  subst heq
  refine h.apply op ?_ ?_
  · intro hop
    subst hop
    refine hfresh.resolve_left ?_
    rw [show c.established = false from hallowed]
    exact Bool.false_ne_true
  · intro message result hop
    subst hop
    exact hallowed.2

end Flushing

/-- `shutdown_mt` was called on the connection when it was CONNECTED. -/
structure Requested (c : TcpConnection) : Prop where
  established : c.established = true
  state : c.state = .connecting ∨ c.state = .disconnected
  flushing : c.Flushing

namespace Requested

theorem not_connected (h : c.Requested) : c.state ≠ .connected := by
  rcases h.state with hstate | hstate
  · rw [hstate]
    decide
  · rw [hstate]
    decide

theorem not_disconnecting (h : c.Requested) : c.state ≠ .disconnecting := by
  rcases h.state with hstate | hstate
  · rw [hstate]
    decide
  · rw [hstate]
    decide

theorem not_isUp (h : c.Requested) : c.isUp = false := by
  simp [isUp, h.not_connected, h.not_disconnecting]

theorem step (h : c.Requested) (hstep : ConnStep c op c') : c'.Requested := by
  have hcalls := hstep.does.reported.calls
  refine ⟨established_mono hcalls h.established, ?_,
    h.flushing.step (Or.inl h.established) hstep⟩
  rw [hstep.does.state, nextState.eq_def]
  by_cases hdowns : 0 < c.downs op
  · rw [if_pos hdowns]
    exact Or.inr rfl
  · rw [if_neg hdowns]
    cases op with
    | connectionEstablished =>
        have hnot : c.established = false := hstep.1
        rw [h.established] at hnot
        exact absurd hnot.symm Bool.false_ne_true
    | shutdown_mt _ =>
        simp only [if_neg h.not_connected]
        exact h.state
    | forceClose =>
        simp only [h.not_isUp, Bool.false_eq_true, if_false]
        exact h.state
    | _ => exact h.state

end Requested

/-- How many bytes of the backlog a step gets rid of in `handleWrite`, if it comes there. -/
def writeCount (c : TcpConnection) : ConnOp → Nat
  | .handleWrite result => result.count
  | .handleEvents currEvents read write =>
      if c.closings (.handleEvents currEvents read write) = 0 ∧ currEvents &&& Channel.pollOut ≠ 0
      then write.count else 0
  | _ => 0

/-- The step writes the last bytes of the backlog. -/
def Drains (c : TcpConnection) (op : ConnOp) : Prop :=
  c.state ≠ .disconnected ∧ 0 < c.sendBuf.readableBytes ∧
    c.writeCount op = c.sendBuf.readableBytes

/-- The step is the task `shutdownInLoop`. -/
def RunsShutdown (c : TcpConnection) (op : ConnOp) : Prop :=
  op = .runTask ∧ c.tasks.head? = some .shutdownInLoop

/-- The step touches neither the write side nor what the shutdown of it waits for. -/
structure Leaves (c c' : TcpConnection) : Prop where
  writeShut : c'.socket.writeShut = c.socket.writeShut
  rest : c'.state = .disconnected ∨ 0 < c'.sendBuf.readableBytes ∨
    SameOutput c c' ∧ (.shutdownInLoop ∈ c.tasks → .shutdownInLoop ∈ c'.tasks)

namespace Leaves

theorem refl (c : TcpConnection) : Leaves c c := ⟨rfl, Or.inr (Or.inr ⟨SameOutput.refl c, id⟩)⟩

theorem kept (h : Kept c c') : Leaves c c' := by
  refine ⟨h.writeShut, Or.inr (Or.inr ⟨h.sameOutput, ?_⟩)⟩
  rw [h.tasks]
  exact id

theorem goesDown (h : GoesDown c c') : Leaves c c' := ⟨h.writeShut, Or.inl h.state⟩

theorem trans {c'' : TcpConnection} (h : Leaves c c') (h' : Leaves c' c'') : Leaves c c'' := by
  refine ⟨h'.writeShut.trans h.writeShut, ?_⟩
  rcases h'.rest with hdown | hpos | ⟨hsame, htasks⟩
  · exact Or.inl hdown
  · exact Or.inr (Or.inl hpos)
  · rcases h.rest with hdown | hpos | ⟨hsame₁, htasks₁⟩
    · exact Or.inl (hsame.down.mpr hdown)
    · rw [← hsame.sendBuf] at hpos
      exact Or.inr (Or.inl hpos)
    · exact Or.inr (Or.inr ⟨hsame₁.trans hsame, htasks ∘ htasks₁⟩)

theorem handleWrite (hflushing : c.Flushing) {result : WriteResult}
    (hfits : result.Fits c.sendBuf.readableBytes)
    (hnot : ¬ (c.state ≠ .disconnected ∧ 0 < c.sendBuf.readableBytes ∧
      result.count = c.sendBuf.readableBytes)) : Leaves c (c.handleWrite result).val := by
  rw [handleWrite_val]
  split
  · rename_i hwrite
    have hle : result.count ≤ c.sendBuf.readableBytes := by
      cases result with
      | accepted n => exact hfits
      | failed errno => exact Nat.zero_le _
    have hup : c.state ≠ .disconnected := by
      intro hdown
      rw [hflushing.down hdown] at hwrite
      exact Bool.false_ne_true hwrite.1
    have hreadable := (hflushing.readableBytes_flushed result.count).2
    have hpos : 0 < (c.flushed result.count).sendBuf.readableBytes := by
      by_contra hzero
      exact hnot ⟨hup, by omega, by omega⟩
    rw [if_neg (Nat.ne_of_gt hpos)]
    exact ⟨rfl, Or.inr (Or.inl hpos)⟩
  · exact refl c

theorem runRead (c : TcpConnection) {task : Task}
    (hread : task = .startReadInLoop ∨ task = .stopReadInLoop) :
    Leaves c (c.runTask task).val := by
  rcases hread with htask | htask
  · subst htask
    show Leaves c c.startReadInLoop
    rw [startReadInLoop]
    split
    · exact ⟨rfl, Or.inr (Or.inr ⟨⟨rfl, c.channel.isWriting_enableRead, Iff.rfl⟩, id⟩)⟩
    · exact refl c
  · subst htask
    show Leaves c c.stopReadInLoop
    rw [stopReadInLoop]
    split
    · exact ⟨rfl, Or.inr (Or.inr ⟨⟨rfl, c.channel.isWriting_disableRead, Iff.rfl⟩, id⟩)⟩
    · exact refl c

theorem postRead (c : TcpConnection) (inLoopThread : Bool) {task : Task}
    (hread : task = .startReadInLoop ∨ task = .stopReadInLoop) :
    Leaves c (c.postTask_mt inLoopThread task).val := by
  cases inLoopThread with
  | true => exact runRead c hread
  | false =>
      exact ⟨rfl, Or.inr (Or.inr ⟨sameOutput_queueTask c task, List.mem_append_left _⟩)⟩

theorem runNextTask (h : c.Requested) (hnot : c.tasks.head? ≠ some .shutdownInLoop) :
    Leaves c c.runNextTask.val := by
  rw [TcpConnection.runNextTask]
  cases htasks : c.tasks with
  | nil => exact refl c
  | cons task tasks =>
      rw [htasks, List.head?_cons] at hnot
      have htaken : Leaves c { c with tasks := tasks } := by
        refine ⟨rfl, Or.inr (Or.inr ⟨⟨rfl, rfl, Iff.rfl⟩, fun hmem => ?_⟩)⟩
        rw [htasks] at hmem
        exact (List.mem_cons.mp hmem).resolve_left fun heq => hnot (congrArg some heq.symm)
      cases task with
      | shutdownInLoop => exact absurd rfl hnot
      | forceCloseInLoop =>
          have hup : ({ c with tasks := tasks } : TcpConnection).isUp = false := h.not_isUp
          show Leaves c ({ c with tasks := tasks } : TcpConnection).forceCloseInLoop.val
          rw [forceCloseInLoop_val, hup]
          exact htaken
      | startReadInLoop => exact htaken.trans (runRead _ (Or.inl rfl))
      | stopReadInLoop => exact htaken.trans (runRead _ (Or.inr rfl))

end Leaves

theorem leaves_of_not (h : c.Requested) (hstep : ConnStep c op c') (hdrains : ¬ c.Drains op)
    (hruns : ¬ c.RunsShutdown op) : Leaves c c' := by
  rcases hstep with ⟨hallowed, heq⟩
  subst heq
  cases op with
  | connectionEstablished =>
      have hnot : c.established = false := hallowed
      rw [h.established] at hnot
      exact absurd hnot.symm Bool.false_ne_true
  | handleEvents currEvents read write =>
      rcases handleEvents_cases c currEvents read write with ⟨_, hdown⟩ | ⟨hzero, c₁, hkept, hval⟩
      · exact Leaves.goesDown hdown
      · change Leaves c (c.handleEvents currEvents read write).val
        rw [hval]
        split
        · rename_i hout
          have hcount : c.writeCount (.handleEvents currEvents read write) = write.count := by
            rw [writeCount, if_pos ⟨hzero, hout⟩]
          rw [Drains, hcount] at hdrains
          refine (Leaves.kept hkept).trans
            (Leaves.handleWrite (h.flushing.same hkept.sameOutput) ?_ ?_)
          · rw [hkept.sendBuf]
            exact hallowed.2
          · rw [hkept.sendBuf, hkept.state]
            exact hdrains
        · exact Leaves.kept hkept
  | handleRead result =>
      rcases goesDown_or_kept_handleReadWith c result with ⟨_, hdown⟩ | ⟨_, hkept⟩
      · exact Leaves.goesDown hdown
      · exact Leaves.kept hkept
  | handleWrite result => exact Leaves.handleWrite h.flushing hallowed.2 hdrains
  | handleClose =>
      show Leaves c c.handleClose.val
      rw [handleClose_val]
      exact Leaves.goesDown (goesDown_closed c)
  | sendInLoop message result =>
      rcases c.sendInLoop_cases hallowed.2.1 hallowed.2.2 with hkept | ⟨hup, hgrown⟩
      · exact Leaves.kept hkept
      · have hpos := (h.flushing.grown hup hgrown).2
        rcases hgrown with ⟨c₁, bytes, channel, hkept, _, _, heq⟩
        refine ⟨?_, Or.inr (Or.inl hpos)⟩
        show (c.sendInLoop message message.bytes.length result).val.socket.writeShut = _
        rw [heq]
        exact hkept.writeShut
  | shutdown_mt inLoopThread =>
      have hval : (c.shutdown_mt inLoopThread).val = c := by
        rw [shutdown_mt, if_neg h.not_connected]
        rfl
      show Leaves c (c.shutdown_mt inLoopThread).val
      rw [hval]
      exact Leaves.refl c
  | forceClose =>
      have hval : c.forceClose = c := by
        rw [forceClose, if_neg]
        rw [← isUp_iff, h.not_isUp]
        exact Bool.false_ne_true
      show Leaves c c.forceClose
      rw [hval]
      exact Leaves.refl c
  | forceCloseInLoop =>
      show Leaves c c.forceCloseInLoop.val
      rw [forceCloseInLoop_val, h.not_isUp]
      exact Leaves.refl c
  | startRead inLoopThread => exact Leaves.postRead c inLoopThread (Or.inl rfl)
  | stopRead inLoopThread => exact Leaves.postRead c inLoopThread (Or.inr rfl)
  | runTask => exact Leaves.runNextTask h fun hhead => hruns ⟨rfl, hhead⟩
  | connectionDestroyed =>
      have hval : c.connectionDestroyed.val = c := by
        simp [connectionDestroyed, Channel.remove, h.not_connected]
      show Leaves c c.connectionDestroyed.val
      rw [hval]
      exact Leaves.refl c

/-- The write side is not shut down over a backlog. -/
def ShutsEmpty (c c' : TcpConnection) : Prop :=
  c.socket.writeShut = false → c'.socket.writeShut = true → c'.sendBuf.readableBytes = 0

/-- The request has queued one task, which has run when it is no longer queued. If the backlog is
empty then and the connection not down, the write side is shut down. -/
def Finished (c : TcpConnection) : Prop :=
  .shutdownInLoop ∉ c.tasks → c.sendBuf.readableBytes = 0 → c.state ≠ .disconnected →
    c.socket.writeShut = true

theorem Leaves.finished (h : Leaves c c') (hc : c.Finished) : c'.Finished := by
  intro htasks hempty hup
  rcases h.rest with hdown | hpos | ⟨hsame, hmem⟩
  · exact absurd hdown hup
  · omega
  · rw [h.writeShut]
    rw [hsame.sendBuf] at hempty
    exact hc (fun hqueued => htasks (hmem hqueued)) hempty fun hdown => hup (hsame.down.mpr hdown)

/-- The shutdown goes wrong in this step: the task finds the connection down with bytes left, or the
last bytes are written after the task has run. -/
def Strands (c : TcpConnection) (op : ConnOp) : Prop :=
  c.socket.writeShut = false ∧
    (c.RunsShutdown op ∧ c.state = .disconnected ∧ 0 < c.sendBuf.readableBytes ∨
      .shutdownInLoop ∉ c.tasks ∧ c.Drains op)

theorem writtenOut_handleWrite (h : c.Flushing) (result : WriteResult)
    (hup : c.state ≠ .disconnected) (hnot : c.state ≠ .disconnecting)
    (hpos : 0 < c.sendBuf.readableBytes) (hcount : result.count = c.sendBuf.readableBytes) :
    (c.handleWrite result).val.sendBuf.readableBytes = 0 ∧
      (c.handleWrite result).val.state = c.state ∧ (c.handleWrite result).val.tasks = c.tasks ∧
      (c.handleWrite result).val.socket.writeShut = c.socket.writeShut := by
  have hempty : (c.flushed result.count).sendBuf.readableBytes = 0 := by
    rw [(h.readableBytes_flushed result.count).2, hcount, Nat.sub_self]
  have hout := writtenOut_drained (c.flushed result.count)
  rw [handleWrite_val, if_pos ⟨(h.up hup).mpr hpos, hcount ▸ hpos⟩, if_pos hempty]
  refine ⟨?_, hout.state, hout.tasks, hout.writeShut hnot⟩
  rw [hout.sendBuf]
  exact hempty

theorem Drains.writtenOut (hdrains : c.Drains op) (h : c.Requested) (hstep : ConnStep c op c') :
    c'.sendBuf.readableBytes = 0 ∧ c'.state = c.state ∧ c'.tasks = c.tasks ∧
      c'.socket.writeShut = c.socket.writeShut := by
  rcases hdrains with ⟨hup, hpos, hcount⟩
  rcases hstep with ⟨_, heq⟩
  subst heq
  cases op with
  | handleWrite result =>
      exact writtenOut_handleWrite h.flushing result hup h.not_disconnecting hpos hcount
  | handleEvents currEvents read write =>
      rw [writeCount] at hcount
      split at hcount
      · rename_i hwrites
        rcases handleEvents_cases c currEvents read write with ⟨hclosing, _⟩ | ⟨_, c₁, hkept, hval⟩
        · omega
        · have hflushing := h.flushing.same hkept.sameOutput
          rw [← hkept.state] at hup
          rw [← hkept.sendBuf] at hpos hcount
          have hwritten := writtenOut_handleWrite hflushing write hup
            (hkept.state ▸ h.not_disconnecting) hpos hcount
          rw [hkept.state, hkept.tasks, hkept.writeShut] at hwritten
          have happly : (c.apply (.handleEvents currEvents read write)).val =
              (c₁.handleWrite write).val := hval.trans (if_pos hwrites.2)
          rw [happly]
          exact hwritten
      · omega
  | _ =>
      have hzero : 0 = c.sendBuf.readableBytes := hcount
      omega

theorem RunsShutdown.val (hruns : c.RunsShutdown op) :
    ∃ tasks, (c.apply op).val = ({ c with tasks := tasks } : TcpConnection).shutdownInLoop := by
  rcases hruns with ⟨hop, hhead⟩
  subst hop
  cases htasks : c.tasks with
  | nil => simp [htasks] at hhead
  | cons task tasks =>
      rw [htasks, List.head?_cons] at hhead
      refine ⟨tasks, ?_⟩
      show c.runNextTask.val = _
      rw [runNextTask, htasks, Option.some.inj hhead]
      rfl

theorem graceful_of_runsShutdown (h : c.Requested) (hstep : ConnStep c op c')
    (hruns : c.RunsShutdown op) :
    ShutsEmpty c c' ∧ c'.Finished ↔
      ¬ (c.socket.writeShut = false ∧ c.state = .disconnected ∧ 0 < c.sendBuf.readableBytes) := by
  rcases hruns.val with ⟨tasks, hval⟩
  rw [hstep.2, hval, shutdownInLoop]
  cases hwriting : c.channel.isWriting with
  | true =>
      have hup : c.state ≠ .disconnected := by
        intro hdown
        rw [h.flushing.down hdown] at hwriting
        exact Bool.false_ne_true hwriting
      have hpos := (h.flushing.up hup).mp hwriting
      refine iff_of_true ⟨fun hopen hshut => ?_, fun _ hempty => ?_⟩ fun hbad => hup hbad.2.1
      · exact absurd (hopen.symm.trans hshut) Bool.false_ne_true
      · exact absurd hempty (Nat.ne_of_gt hpos)
  | false =>
      constructor
      · intro hgood hbad
        have hempty := hgood.1 hbad.1 rfl
        exact Nat.lt_irrefl 0 (hempty ▸ hbad.2.2)
      · intro hgood
        refine ⟨fun hopen _ => ?_, fun _ _ _ => rfl⟩
        by_contra hrest
        have hpos : 0 < c.sendBuf.readableBytes := Nat.pos_of_ne_zero hrest
        by_cases hdown : c.state = .disconnected
        · exact hgood ⟨hopen, hdown, hpos⟩
        · rw [(h.flushing.up hdown).mpr hpos] at hwriting
          exact Bool.false_ne_true hwriting.symm

theorem graceful_step_iff (h : c.Requested) (hc : c.Finished) (hstep : ConnStep c op c') :
    ShutsEmpty c c' ∧ c'.Finished ↔ ¬ c.Strands op := by
  by_cases hruns : c.RunsShutdown op
  · have hnot : ¬ c.Drains op := by
      intro hdrains
      have hcount := hdrains.2.2
      rw [hruns.1] at hcount
      exact Nat.ne_of_lt hdrains.2.1 hcount
    simpa [Strands, hruns, hnot] using graceful_of_runsShutdown h hstep hruns
  · by_cases hdrains : c.Drains op
    · rcases hdrains.writtenOut h hstep with ⟨hempty, hstate, htasks, hshut⟩
      have hup : c'.state ≠ .disconnected := by
        rw [hstate]
        exact hdrains.1
      have hshuts : ShutsEmpty c c' := fun _ _ => hempty
      have hfinished : c'.Finished ↔ (.shutdownInLoop ∉ c.tasks → c.socket.writeShut = true) := by
        simp only [Finished, hempty, htasks, hshut, true_imp_iff]
        exact ⟨fun hall hran => hall hran hup, fun hall hran _ => hall hran⟩
      have hbad : c.Strands op ↔ c.socket.writeShut = false ∧ .shutdownInLoop ∉ c.tasks := by
        simp [Strands, hruns, hdrains]
      rw [and_iff_right hshuts, hfinished, hbad, not_and_not_right]
      cases c.socket.writeShut with
      | true =>
          exact iff_of_true (fun _ => rfl) fun hfalse => absurd hfalse.symm Bool.false_ne_true
      | false => simp
    · have hleaves := leaves_of_not h hstep hdrains hruns
      refine iff_of_true ⟨fun hopen hshut => ?_, hleaves.finished hc⟩ ?_
      · rw [hleaves.writeShut, hopen] at hshut
        exact absurd hshut Bool.false_ne_true
      · simp [Strands, hruns, hdrains]

section Request

theorem tasks_handleWrite (c : TcpConnection) (result : WriteResult) :
    (c.handleWrite result).val.tasks = c.tasks := by
  rw [handleWrite_val]
  split
  · split
    · exact (writtenOut_drained _).tasks
    · rfl
  · rfl

theorem tasks_runTask (c : TcpConnection) (task : Task) : (c.runTask task).val.tasks = c.tasks := by
  cases task with
  | shutdownInLoop =>
      show c.shutdownInLoop.tasks = c.tasks
      rw [shutdownInLoop]
      split
      · rfl
      · rfl
  | forceCloseInLoop =>
      show c.forceCloseInLoop.val.tasks = c.tasks
      rw [forceCloseInLoop_val]
      split
      · rfl
      · rfl
  | startReadInLoop =>
      show c.startReadInLoop.tasks = c.tasks
      rw [startReadInLoop]
      split
      · rfl
      · rfl
  | stopReadInLoop =>
      show c.stopReadInLoop.tasks = c.tasks
      rw [stopReadInLoop]
      split
      · rfl
      · rfl

theorem queued_postTask_mt (c : TcpConnection) (inLoopThread : Bool) {task : Task}
    (htask : task ≠ .shutdownInLoop)
    (hmem : .shutdownInLoop ∈ (c.postTask_mt inLoopThread task).val.tasks) :
    .shutdownInLoop ∈ c.tasks := by
  cases inLoopThread with
  | true => rwa [postTask_mt, if_pos rfl, tasks_runTask] at hmem
  | false =>
      rcases List.mem_append.mp hmem with hmem | hmem
      · exact hmem
      · exact absurd (List.mem_singleton.mp hmem).symm htask

theorem queued_of_step (hstep : ConnStep c op c') (hnot : ¬ c.ShutsDown op)
    (hmem : .shutdownInLoop ∈ c'.tasks) : .shutdownInLoop ∈ c.tasks := by
  rcases hstep with ⟨hallowed, heq⟩
  subst heq
  cases op with
  | connectionEstablished => exact hmem
  | handleEvents currEvents read write =>
      change _ ∈ (c.handleEvents currEvents read write).val.tasks at hmem
      rcases handleEvents_cases c currEvents read write with ⟨_, hdown⟩ | ⟨_, c₁, hkept, hval⟩
      · rwa [hdown.tasks] at hmem
      · rw [hval] at hmem
        split at hmem
        · rwa [tasks_handleWrite, hkept.tasks] at hmem
        · rwa [hkept.tasks] at hmem
  | handleRead result =>
      change _ ∈ (c.handleReadWith result).val.tasks at hmem
      rcases goesDown_or_kept_handleReadWith c result with ⟨_, hdown⟩ | ⟨_, hkept⟩
      · rwa [hdown.tasks] at hmem
      · rwa [hkept.tasks] at hmem
  | handleWrite result =>
      change _ ∈ (c.handleWrite result).val.tasks at hmem
      rwa [tasks_handleWrite] at hmem
  | handleClose =>
      change _ ∈ c.handleClose.val.tasks at hmem
      rwa [handleClose_val] at hmem
  | sendInLoop message result =>
      change _ ∈ (c.sendInLoop message message.bytes.length result).val.tasks at hmem
      rcases c.sendInLoop_cases hallowed.2.1 hallowed.2.2 with hkept | ⟨_, hgrown⟩
      · rwa [hkept.tasks] at hmem
      · rcases hgrown with ⟨c₁, bytes, channel, hkept, _, _, heq⟩
        rw [heq] at hmem
        rwa [← hkept.tasks]
  | shutdown_mt inLoopThread =>
      change _ ∈ (c.shutdown_mt inLoopThread).val.tasks at hmem
      have hstate : ¬ c.state = .connected := hnot
      rwa [shutdown_mt, if_neg hstate] at hmem
  | forceClose =>
      change _ ∈ c.forceClose.tasks at hmem
      rw [forceClose] at hmem
      split at hmem
      · rcases List.mem_append.mp hmem with hmem | hmem
        · exact hmem
        · cases List.mem_singleton.mp hmem
      · exact hmem
  | forceCloseInLoop =>
      have htasks := tasks_runTask c .forceCloseInLoop
      change _ ∈ (c.runTask .forceCloseInLoop).val.tasks at hmem
      rwa [htasks] at hmem
  | startRead inLoopThread => exact queued_postTask_mt c inLoopThread (by decide) hmem
  | stopRead inLoopThread => exact queued_postTask_mt c inLoopThread (by decide) hmem
  | runTask =>
      change _ ∈ c.runNextTask.val.tasks at hmem
      rw [runNextTask] at hmem
      cases htasks : c.tasks with
      | nil =>
          rw [htasks] at hmem
          rwa [← htasks]
      | cons task tasks =>
          rw [htasks] at hmem
          simp only [tasks_runTask] at hmem
          exact List.mem_cons_of_mem task hmem
  | connectionDestroyed =>
      change _ ∈ c.connectionDestroyed.val.tasks at hmem
      rw [connectionDestroyed] at hmem
      split at hmem
      · exact hmem
      · exact hmem

/-- As long as the connection is CONNECTED, or not yet established, no shutdown is queued. -/
structure Unasked (c : TcpConnection) : Prop where
  fresh : c.Fresh
  flushing : c.Flushing
  queued : c.state = .connected ∨ c.established = false → .shutdownInLoop ∉ c.tasks

theorem unasked_create (sockfd : Int) (pending : List UInt8) (hasWriteCompleteCb : Bool) :
    (create sockfd pending hasWriteCompleteCb).Unasked := by
  refine ⟨fresh_create sockfd pending hasWriteCompleteCb, ⟨⟨[], Buffer.Represents.create⟩, ?_, ?_⟩,
    fun _ => List.not_mem_nil⟩
  · intro _
    have hwriting : ¬ (create sockfd pending hasWriteCompleteCb).channel.isWriting = true := by
      simp [create]
    exact iff_of_false hwriting (Nat.lt_irrefl 0)
  · intro hdown
    cases hdown

theorem Unasked.step (h : c.Unasked) (hstep : ConnStep c op c') : c'.Unasked := by
  refine ⟨h.fresh.step hstep, h.flushing.step h.fresh hstep, fun hstate hmem => ?_⟩
  have hcalls := hstep.does.reported.calls
  by_cases hshuts : c.ShutsDown op
  · cases op with
    | shutdown_mt inLoopThread =>
        have hconnected : c.state = .connected := hshuts
        have hnext : c'.state = .connecting := by
          rw [hstep.does.state]
          simp [nextState, downs, closings, hconnected]
        have hestablished : c'.established = true := established_mono hcalls hstep.1
        rcases hstate with hstate | hstate
        · rw [hnext] at hstate
          cases hstate
        · rw [hestablished] at hstate
          cases hstate
    | _ => exact hshuts
  · refine h.queued ?_ (queued_of_step hstep hshuts hmem)
    by_cases hestablished : c.established = false
    · exact Or.inr hestablished
    · have htrue : c.established = true := by
        simpa using hestablished
      rcases hstate with hstate | hstate
      · exact Or.inl (connected_of_step htrue hstep hstate)
      · rw [established_mono hcalls htrue] at hstate
        cases hstate

/-- What a call of `shutdown_mt` on a CONNECTED connection leaves, whether its task runs at once or
later. -/
theorem requested_of_shutdown_mt {inLoopThread : Bool} (h : c.Unasked)
    (hstate : c.state = .connected) (hstep : ConnStep c (.shutdown_mt inLoopThread) c') :
    c'.Requested ∧ ShutsEmpty c c' ∧ c'.Finished := by
  have hcalls := hstep.does.reported.calls
  have hflushing := h.flushing.step h.fresh hstep
  have hconnecting : c'.state = .connecting := by
    rw [hstep.does.state]
    simp [nextState, downs, closings, hstate]
  have hwriting : c.channel.isWriting = true ↔ 0 < c.sendBuf.readableBytes :=
    h.flushing.up (by rw [hstate]; decide)
  refine ⟨⟨established_mono hcalls hstep.1, Or.inl hconnecting, hflushing⟩, ?_⟩
  have hval : c' = ((c.setState .connecting).postTask_mt inLoopThread .shutdownInLoop).val := by
    rw [hstep.2]
    show (c.shutdown_mt inLoopThread).val = _
    rw [shutdown_mt, if_pos hstate]
  cases inLoopThread with
  | false =>
      subst hval
      refine ⟨fun hopen hshut => ?_, fun hrun => absurd ?_ hrun⟩
      · exact absurd (hopen.symm.trans hshut) Bool.false_ne_true
      · exact List.mem_append_right _ List.mem_cons_self
  | true =>
      have hrun : c' = (c.setState .connecting).shutdownInLoop := hval
      rw [shutdownInLoop] at hrun
      change c' = if !c.channel.isWriting then _ else _ at hrun
      by_cases hw : c.channel.isWriting = true
      · rw [hw] at hrun
        have hpos := hwriting.mp hw
        rw [hrun]
        refine ⟨fun hopen hshut => ?_, fun _ hempty => absurd hempty (Nat.ne_of_gt hpos)⟩
        exact absurd (hopen.symm.trans hshut) Bool.false_ne_true
      · rw [Bool.eq_false_iff.mpr hw] at hrun
        rw [hrun]
        refine ⟨fun _ _ => ?_, fun _ _ _ => rfl⟩
        by_contra hrest
        exact hw (hwriting.mpr (Nat.pos_of_ne_zero hrest))

end Request

end TcpConnection

def GracefulStep (c : TcpConnection) (op : ConnOp) (c' : TcpConnection) : Prop :=
  ConnStep c op c' ∧ TcpConnection.ShutsEmpty c c' ∧ c'.Finished

def UnstrandedStep (c : TcpConnection) (op : ConnOp) (c' : TcpConnection) : Prop :=
  ConnStep c op c' ∧ ¬ c.Strands op

namespace TcpConnection

variable {c c' x y z : TcpConnection} {op : ConnOp} {ops : List ConnOp}

theorem finished_of_run (hy : y.Finished) (h : Run GracefulStep y ops z) : z.Finished := by
  cases h with
  | nil => exact hy
  | snoc _ hstep => exact hstep.2.2

theorem graceful_run_iff (hy : y.Requested) (hfinished : y.Finished) (h : Run ConnStep y ops z) :
    Run GracefulStep y ops z ↔ Run UnstrandedStep y ops z := by
  induction h with
  | nil => exact iff_of_true Run.nil Run.nil
  | @snoc ops t op u hrun hstep ih =>
      have ht : t.Requested := hrun.invariant (fun _ _ _ h hstep => h.step hstep) hy
      constructor
      · intro hgraceful
        rcases hgraceful.exists_of_snoc with ⟨v, hinit, hlast⟩
        have hsame : v = t := (hinit.mono fun _ _ _ h => h.1).unique connStep_deterministic hrun
        subst hsame
        have hv := finished_of_run hfinished hinit
        exact (ih.mp hinit).snoc ⟨hstep, (graceful_step_iff ht hv hstep).mp hlast.2⟩
      · intro hunstranded
        rcases hunstranded.exists_of_snoc with ⟨v, hinit, hlast⟩
        have hsame : v = t := (hinit.mono fun _ _ _ h => h.1).unique connStep_deterministic hrun
        subst hsame
        have hgraceful := ih.mpr hinit
        have hv := finished_of_run hfinished hgraceful
        exact hgraceful.snoc ⟨hstep, (graceful_step_iff ht hv hstep).mpr hlast.2⟩

/-- From a call of `shutdown_mt` on a CONNECTED connection on, the shutdown is graceful in exactly
those runs in which no step strands it. -/
theorem graceful_iff {sockfd : Int} {pending : List UInt8} {hasWriteCompleteCb : Bool}
    {inLoopThread : Bool} {before : List ConnOp}
    (hx : Run ConnStep (create sockfd pending hasWriteCompleteCb) before x)
    (hstate : x.state = .connected) (hy : ConnStep x (.shutdown_mt inLoopThread) y)
    (hz : Run ConnStep y ops z) :
    ShutsEmpty x y ∧ y.Finished ∧ Run GracefulStep y ops z ↔ Run UnstrandedStep y ops z := by
  have hunasked : x.Unasked :=
    hx.invariant (fun _ _ _ h hstep => h.step hstep)
      (unasked_create sockfd pending hasWriteCompleteCb)
  rcases requested_of_shutdown_mt hunasked hstate hy with ⟨hrequested, hshuts, hfinished⟩
  have hrun := graceful_run_iff hrequested hfinished hz
  constructor
  · intro h
    exact hrun.mp h.2.2
  · intro h
    exact ⟨hshuts, hfinished, hrun.mpr h⟩

/-- Two bytes were sent on a new connection, and the kernel took one. -/
def backlogged : TcpConnection :=
  (((create 5 [] false).apply .connectionEstablished).val.apply
    (.sendInLoop ⟨0, [1, 2]⟩ (.accepted 1))).val

theorem backlogged_run : Run ConnStep (create 5 [] false)
    [.connectionEstablished, .sendInLoop ⟨0, [1, 2]⟩ (.accepted 1)] backlogged :=
  (Run.nil.snoc ⟨by decide, rfl⟩).snoc ⟨by decide, rfl⟩

/-- The task runs at once and finds a byte; `handleWrite` writes it and looks for DISCONNECTING. -/
theorem shutdown_then_drain : ∃ y z,
    Run ConnStep (create 5 [] false)
      [.connectionEstablished, .sendInLoop ⟨0, [1, 2]⟩ (.accepted 1)] backlogged ∧
      backlogged.state = .connected ∧ ConnStep backlogged (.shutdown_mt true) y ∧
      Run ConnStep y [.handleWrite (.accepted 1)] z ∧ z.tasks = [] ∧
      z.sendBuf.readableBytes = 0 ∧ z.state = .connecting ∧ z.socket.writeShut = false ∧
      ¬ Run GracefulStep y [.handleWrite (.accepted 1)] z := by
  let y := (backlogged.apply (.shutdown_mt true)).val
  let z := (y.apply (.handleWrite (.accepted 1))).val
  have hempty : z.sendBuf.readableBytes = 0 := by decide +kernel
  have hstate : z.state = .connecting := by decide +kernel
  have htasks : z.tasks = [] := by decide +kernel
  have hshut : z.socket.writeShut = false := by decide +kernel
  refine ⟨y, z, backlogged_run, by decide +kernel, ⟨by decide, rfl⟩,
    Run.single ⟨by decide +kernel, rfl⟩, htasks, hempty, hstate, hshut, ?_⟩
  intro hgraceful
  have hsnoc : Run GracefulStep y ([] ++ [.handleWrite (.accepted 1)]) z := hgraceful
  rcases hsnoc.exists_of_snoc with ⟨_, _, hlast⟩
  have hfinished := hlast.2.2 (by rw [htasks]; exact List.not_mem_nil) hempty
    (by rw [hstate]; decide)
  rw [hshut] at hfinished
  exact Bool.false_ne_true hfinished

/-- The last byte goes out before the task runs, which then shuts the write side down. -/
theorem graceful_drainedFirst : ∃ y z,
    ConnStep backlogged (.shutdown_mt false) y ∧ z.socket.writeShut = true ∧
      (ShutsEmpty backlogged y ∧ y.Finished ∧
          Run GracefulStep y [.handleWrite (.accepted 1), .runTask] z ↔
        Run UnstrandedStep y [.handleWrite (.accepted 1), .runTask] z) := by
  let y := (backlogged.apply (.shutdown_mt false)).val
  let y' := (y.apply (.handleWrite (.accepted 1))).val
  have hy : ConnStep backlogged (.shutdown_mt false) y := ⟨by decide, rfl⟩
  have hz : Run ConnStep y [.handleWrite (.accepted 1), .runTask] (y'.apply .runTask).val :=
    (Run.single ⟨by decide +kernel, rfl⟩).snoc ⟨by decide +kernel, rfl⟩
  exact ⟨y, _, hy, by decide +kernel,
    graceful_iff backlogged_run (by decide +kernel) hy hz⟩

end TcpConnection

end LearnMuduo
