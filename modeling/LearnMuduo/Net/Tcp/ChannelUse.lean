import LearnMuduo.Framework.Traced
import LearnMuduo.Net.Tcp.Teardown

/-!
# What a connection does with its channel

The text of the operations of a connection once more, with every call on the channel written down,
and the state in which each call of `handleClose` finds the connection. It computes what they
compute.
-/

namespace LearnMuduo

open Framework

/-- A call of `handleClose` in a state, a setter of the channel, or `Channel::remove`. -/
inductive ChannelUse
  | closes (state : StateE)
  | sets (interest : Interest)
  | removes
  deriving DecidableEq, Repr

/-- What the use leaves of the channel. -/
def ChannelUse.after (channel : Channel) : ChannelUse → Channel
  | .closes _ => channel
  | .sets interest => channel.set interest
  | .removes => channel

def ChannelUse.closeState? : ChannelUse → Option StateE
  | .closes state => some state
  | _ => none

namespace TcpConnection

variable {c c' : TcpConnection}

section Text

/-- A setter of the channel. -/
def setTraced (c : TcpConnection) (interest : Interest) : Traced ChannelUse TcpConnection := do
  Traced.emit (.sets interest)
  pure { c with channel := c.channel.set interest }

def handleCloseTraced (c : TcpConnection) : Traced ChannelUse TcpConnection := do
  Traced.emit (.closes c.state)
  let c := c.setState .disconnected
  let c ← c.setTraced .disableAll
  pure ((c.call (.connectionChange c.state)).call .close)

def handleReadTraced (c : TcpConnection) (result : ReadvResult) :
    Traced ChannelUse TcpConnection :=
  let (n, _savedErrno, recvBuf) := (c.recvBuf.readFromFd result).val
  let c := { c with recvBuf := recvBuf }
  if 0 < n then pure (c.call .message)
  else if n = 0 then c.handleCloseTraced
  else pure c

def handleWriteTraced (c : TcpConnection) (result : WriteResult) :
    Traced ChannelUse TcpConnection :=
  if c.channel.isWriting then
    match result with
    | .failed _ => pure c
    | .accepted n =>
        if 0 < n then
          let c := { c with socket := c.socket.accept (c.sendBuf.readable.take n) }
          let c := { c with sendBuf := (c.sendBuf.retrieve n).val }
          if c.sendBuf.readableBytes = 0 then do
            let c ← c.setTraced .disableWrite
            let c := c.postWriteComplete
            if c.state = .disconnecting then pure c.shutdownInLoop else pure c
          else pure c
        else pure c
  else pure c

def appendRemainingTraced (c : TcpConnection) (message : Memory) (locals : SendLocals) :
    Traced ChannelUse TcpConnection :=
  let c := c.reportHighWaterMark locals.remain
  let sendBuf :=
    (c.sendBuf.append (message.read locals.sent (sizeOfInt (intOfSize locals.remain)))).val
  let c := { c with sendBuf := sendBuf }
  if !c.channel.isWriting then c.setTraced .enableWrite else pure c

def sendInLoopTraced (c : TcpConnection) (message : Memory) (len : Nat) (result : WriteResult) :
    Traced ChannelUse TcpConnection :=
  if c.state = .disconnected then pure c
  else
    let (c, locals) :=
      if c.writesDirectly then c.writeDirectly message len result else (c, ⟨len, 0, false⟩)
    if !locals.faultError && decide (0 < locals.remain) then c.appendRemainingTraced message locals
    else pure c

def connectionEstablishedTraced (c : TcpConnection) : Traced ChannelUse TcpConnection := do
  let c := c.setState .connected
  let c ← c.setTraced .enableRead
  pure (c.call (.connectionChange c.state))

def connectionDestroyedTraced (c : TcpConnection) : Traced ChannelUse TcpConnection := do
  let c ←
    if c.state = .connected then do
      let c := c.setState .disconnected
      let c ← c.setTraced .disableAll
      pure (c.call (.connectionChange c.state))
    else pure c
  Traced.emit .removes
  pure c

def startReadInLoopTraced (c : TcpConnection) : Traced ChannelUse TcpConnection :=
  if !c.reading || !c.channel.isReading then do
    let c ← c.setTraced .enableRead
    pure { c with reading := true }
  else pure c

def stopReadInLoopTraced (c : TcpConnection) : Traced ChannelUse TcpConnection :=
  if c.reading || c.channel.isReading then do
    let c ← c.setTraced .disableRead
    pure { c with reading := false }
  else pure c

def forceCloseInLoopTraced (c : TcpConnection) : Traced ChannelUse TcpConnection :=
  if c.state = .connected ∨ c.state = .disconnecting then c.handleCloseTraced else pure c

def runTaskTraced (c : TcpConnection) : Task → Traced ChannelUse TcpConnection
  | .shutdownInLoop => pure c.shutdownInLoop
  | .forceCloseInLoop => c.forceCloseInLoopTraced
  | .startReadInLoop => c.startReadInLoopTraced
  | .stopReadInLoop => c.stopReadInLoopTraced

def postTaskTraced (c : TcpConnection) (inLoopThread : Bool) (task : Task) :
    Traced ChannelUse TcpConnection :=
  if inLoopThread then c.runTaskTraced task else pure (c.queueTask task)

def shutdownTraced (c : TcpConnection) (inLoopThread : Bool) : Traced ChannelUse TcpConnection :=
  if c.state = .connected then
    (c.setState .connecting).postTaskTraced inLoopThread .shutdownInLoop
  else pure c

def handleEventsTraced (c : TcpConnection) (currEvents : BitVec 32) (read : ReadvResult)
    (write : WriteResult) : Traced ChannelUse TcpConnection := do
  let c ←
    if currEvents &&& Channel.pollHup ≠ 0 ∧ currEvents &&& Channel.pollIn = 0 then
      c.handleCloseTraced
    else pure c
  let c ←
    if currEvents &&& (Channel.pollIn ||| Channel.pollPri) ≠ 0 then c.handleReadTraced read
    else pure c
  if currEvents &&& Channel.pollOut ≠ 0 then c.handleWriteTraced write else pure c

def runNextTaskTraced (c : TcpConnection) : Traced ChannelUse TcpConnection :=
  match c.tasks with
  | [] => pure c
  | task :: tasks => { c with tasks := tasks }.runTaskTraced task

def applyTraced (c : TcpConnection) : ConnOp → Traced ChannelUse TcpConnection
  | .connectionEstablished => c.connectionEstablishedTraced
  | .handleEvents currEvents read write => c.handleEventsTraced currEvents read write
  | .handleRead result => c.handleReadTraced result
  | .handleWrite result => c.handleWriteTraced result
  | .handleClose => c.handleCloseTraced
  | .sendInLoop message result => c.sendInLoopTraced message message.bytes.length result
  | .shutdown_mt inLoopThread => c.shutdownTraced inLoopThread
  | .forceClose => pure c.forceClose
  | .forceCloseInLoop => c.forceCloseInLoopTraced
  | .startRead inLoopThread => c.postTaskTraced inLoopThread .startReadInLoop
  | .stopRead inLoopThread => c.postTaskTraced inLoopThread .stopReadInLoop
  | .runTask => c.runNextTaskTraced
  | .connectionDestroyed => c.connectionDestroyedTraced

end Text

section Values

theorem val_handleCloseTraced (c : TcpConnection) :
    c.handleCloseTraced.val = c.handleClose.val := rfl

theorem val_handleReadTraced (c : TcpConnection) (result : ReadvResult) :
    (c.handleReadTraced result).val = (c.handleReadWith result).val := by
  simp only [handleReadTraced, handleReadWith, Traced.val_ite, Checked.val_bind, Checked.val_ite,
    Traced.val_pure, Checked.val_pure, val_handleCloseTraced]

theorem val_handleWriteTraced (c : TcpConnection) (result : WriteResult) :
    (c.handleWriteTraced result).val = (c.handleWrite result).val := by
  cases result with
  | failed errno =>
      simp only [handleWriteTraced, handleWrite, Traced.val_ite, Checked.val_ite, Traced.val_pure,
        Checked.val_pure]
  | accepted n =>
      simp only [handleWriteTraced, handleWrite, Traced.val_ite, Checked.val_ite, Traced.val_pure,
        Checked.val_pure, Checked.val_bind, Traced.val_bind]
      rfl

theorem val_appendRemainingTraced (c : TcpConnection) (message : Memory) (locals : SendLocals) :
    (c.appendRemainingTraced message locals).val = (c.appendRemaining message locals).val := by
  simp only [appendRemainingTraced, Traced.val_ite]
  rfl

theorem val_sendInLoopTraced (c : TcpConnection) (message : Memory) (len : Nat)
    (result : WriteResult) :
    (c.sendInLoopTraced message len result).val = (c.sendInLoop message len result).val := by
  simp only [sendInLoopTraced, sendInLoop, Traced.val_ite, Checked.val_ite, Checked.val_bind,
    Traced.val_pure, Checked.val_pure, val_appendRemainingTraced]

theorem val_connectionDestroyedTraced (c : TcpConnection) :
    c.connectionDestroyedTraced.val = c.connectionDestroyed.val := by
  by_cases hstate : c.state = .connected
  · simp only [connectionDestroyedTraced, connectionDestroyed, if_pos hstate]
    rfl
  · simp only [connectionDestroyedTraced, connectionDestroyed, if_neg hstate]
    rfl

theorem val_forceCloseInLoopTraced (c : TcpConnection) :
    c.forceCloseInLoopTraced.val = c.forceCloseInLoop.val := by
  simp only [forceCloseInLoopTraced, forceCloseInLoop, Traced.val_ite, Checked.val_ite,
    val_handleCloseTraced, Traced.val_pure, Checked.val_pure]

theorem val_runTaskTraced (c : TcpConnection) (task : Task) :
    (c.runTaskTraced task).val = (c.runTask task).val := by
  cases task with
  | shutdownInLoop => rfl
  | forceCloseInLoop => exact val_forceCloseInLoopTraced c
  | startReadInLoop =>
      simp only [runTaskTraced, runTask, startReadInLoopTraced, startReadInLoop, Traced.val_ite,
        Traced.val_bind, Traced.val_pure, Checked.val_pure]
      rfl
  | stopReadInLoop =>
      simp only [runTaskTraced, runTask, stopReadInLoopTraced, stopReadInLoop, Traced.val_ite,
        Traced.val_bind, Traced.val_pure, Checked.val_pure]
      rfl

theorem val_postTaskTraced (c : TcpConnection) (inLoopThread : Bool) (task : Task) :
    (c.postTaskTraced inLoopThread task).val = (c.postTask_mt inLoopThread task).val := by
  simp only [postTaskTraced, postTask_mt, Traced.val_ite, Checked.val_ite, val_runTaskTraced,
    Traced.val_pure, Checked.val_pure]

theorem val_handleEventsTraced (c : TcpConnection) (currEvents : BitVec 32) (read : ReadvResult)
    (write : WriteResult) :
    (c.handleEventsTraced currEvents read write).val =
      (c.handleEvents currEvents read write).val := by
  simp only [handleEventsTraced, handleEvents, Traced.val_bind, Checked.val_bind, Traced.val_ite,
    Checked.val_ite, Traced.val_pure, Checked.val_pure, val_handleCloseTraced,
    val_handleReadTraced, val_handleWriteTraced]

theorem val_runNextTaskTraced (c : TcpConnection) :
    c.runNextTaskTraced.val = c.runNextTask.val := by
  rw [runNextTaskTraced, runNextTask]
  cases c.tasks with
  | nil => rfl
  | cons task tasks => exact val_runTaskTraced _ task

theorem val_applyTraced (c : TcpConnection) (op : ConnOp) :
    (c.applyTraced op).val = (c.apply op).val := by
  cases op with
  | connectionEstablished => rfl
  | handleEvents currEvents read write => exact val_handleEventsTraced c currEvents read write
  | handleRead result => exact val_handleReadTraced c result
  | handleWrite result => exact val_handleWriteTraced c result
  | handleClose => rfl
  | sendInLoop message result => exact val_sendInLoopTraced c message _ result
  | shutdown_mt inLoopThread =>
      simp only [applyTraced, apply, shutdownTraced, shutdown_mt, Traced.val_ite, Checked.val_ite,
        val_postTaskTraced, Traced.val_pure, Checked.val_pure]
  | forceClose => rfl
  | forceCloseInLoop => exact val_forceCloseInLoopTraced c
  | startRead inLoopThread => exact val_postTaskTraced c inLoopThread .startReadInLoop
  | stopRead inLoopThread => exact val_postTaskTraced c inLoopThread .stopReadInLoop
  | runTask => exact val_runNextTaskTraced c
  | connectionDestroyed => exact val_connectionDestroyedTraced c

end Values

section Follows

/-- The channel is what the uses leave of it. -/
def Follows (c : TcpConnection) (x : Traced ChannelUse TcpConnection) : Prop :=
  x.val.channel = x.events.foldl ChannelUse.after c.channel

theorem follows_pure (hchannel : c'.channel = c.channel) :
    Follows c (pure c' : Traced ChannelUse TcpConnection) := hchannel

theorem Follows.of_channel {x : Traced ChannelUse TcpConnection} (h : Follows c' x)
    (hchannel : c'.channel = c.channel) : Follows c x := by
  rw [Follows, ← hchannel]
  exact h

theorem Follows.bind {x : Traced ChannelUse TcpConnection}
    {f : TcpConnection → Traced ChannelUse TcpConnection} (hx : Follows c x)
    (hf : Follows x.val (f x.val)) : Follows c (x >>= f) := by
  show (f x.val).val.channel = (x.events ++ (f x.val).events).foldl ChannelUse.after c.channel
  rw [List.foldl_append, ← hx]
  exact hf

theorem follows_ite {p : Prop} [Decidable p] {x y : Traced ChannelUse TcpConnection}
    (hx : Follows c x) (hy : Follows c y) : Follows c (if p then x else y) := by
  split
  · exact hx
  · exact hy

theorem follows_handleCloseTraced (c : TcpConnection) : Follows c c.handleCloseTraced := rfl

theorem follows_handleReadTraced (c : TcpConnection) (result : ReadvResult) :
    Follows c (c.handleReadTraced result) :=
  follows_ite rfl (follows_ite rfl rfl)

theorem channel_postWriteComplete (c : TcpConnection) :
    c.postWriteComplete.channel = c.channel :=
  (kept_postWriteComplete c).channel

theorem channel_shutdownInLoop (c : TcpConnection) : c.shutdownInLoop.channel = c.channel := by
  rw [shutdownInLoop]
  split
  · rfl
  · rfl

theorem follows_handleWriteTraced (c : TcpConnection) (result : WriteResult) :
    Follows c (c.handleWriteTraced result) := by
  refine follows_ite ?_ rfl
  cases result with
  | failed errno => rfl
  | accepted n =>
      refine follows_ite (follows_ite ?_ rfl) rfl
      refine Follows.bind rfl (follows_ite ?_ ?_)
      · exact follows_pure ((channel_shutdownInLoop _).trans (channel_postWriteComplete _))
      · exact follows_pure (channel_postWriteComplete _)

theorem follows_sendInLoopTraced (c : TcpConnection) (message : Memory) (result : WriteResult) :
    Follows c (c.sendInLoopTraced message message.bytes.length result) := by
  refine follows_ite rfl ?_
  have hwritten := (kept_written c message result).channel
  refine follows_ite (Follows.of_channel ?_ hwritten) (follows_pure hwritten)
  have hreport := kept_reportHighWaterMark (c.written message result).1
    (c.written message result).2.remain
  exact Follows.of_channel (follows_ite rfl rfl) hreport.channel

theorem connectionDestroyedTraced_eq (c : TcpConnection) :
    c.connectionDestroyedTraced =
      if c.state = .connected then
        (c.setState .disconnected).setTraced .disableAll >>= fun c =>
          Traced.emit .removes >>= fun _ => pure (c.call (.connectionChange c.state))
      else Traced.emit .removes >>= fun _ => pure c := by
  rw [connectionDestroyedTraced]
  split
  · rfl
  · rfl

theorem follows_connectionDestroyedTraced (c : TcpConnection) :
    Follows c c.connectionDestroyedTraced := by
  rw [connectionDestroyedTraced_eq]
  exact follows_ite rfl rfl

theorem follows_runTaskTraced (c : TcpConnection) (task : Task) :
    Follows c (c.runTaskTraced task) := by
  cases task with
  | shutdownInLoop => exact follows_pure (channel_shutdownInLoop c)
  | forceCloseInLoop => exact follows_ite rfl rfl
  | startReadInLoop => exact follows_ite rfl rfl
  | stopReadInLoop => exact follows_ite rfl rfl

theorem follows_postTaskTraced (c : TcpConnection) (inLoopThread : Bool) (task : Task) :
    Follows c (c.postTaskTraced inLoopThread task) :=
  follows_ite (follows_runTaskTraced c task) rfl

theorem handleEventsTraced_eq (c : TcpConnection) (currEvents : BitVec 32) (read : ReadvResult)
    (write : WriteResult) :
    c.handleEventsTraced currEvents read write =
      ((if hangsUp currEvents then c.handleCloseTraced else pure c) >>= fun c =>
        (if reads currEvents then c.handleReadTraced read else pure c) >>= fun c =>
          if currEvents &&& Channel.pollOut ≠ 0 then c.handleWriteTraced write else pure c) := by
  simp only [handleEventsTraced, hangsUp, reads, decide_eq_true_eq]
  split
  · split
    · rfl
    · rfl
  · split
    · rfl
    · rfl

theorem follows_handleEventsTraced (c : TcpConnection) (currEvents : BitVec 32)
    (read : ReadvResult) (write : WriteResult) :
    Follows c (c.handleEventsTraced currEvents read write) := by
  rw [handleEventsTraced_eq]
  apply Follows.bind
  · exact follows_ite (follows_handleCloseTraced c) rfl
  · apply Follows.bind
    · exact follows_ite (follows_handleReadTraced _ read) rfl
    · exact follows_ite (follows_handleWriteTraced _ write) rfl

theorem follows_applyTraced (c : TcpConnection) (op : ConnOp) : Follows c (c.applyTraced op) := by
  cases op with
  | connectionEstablished => rfl
  | handleEvents currEvents read write => exact follows_handleEventsTraced c currEvents read write
  | handleRead result => exact follows_handleReadTraced c result
  | handleWrite result => exact follows_handleWriteTraced c result
  | handleClose => rfl
  | sendInLoop message result => exact follows_sendInLoopTraced c message result
  | shutdown_mt inLoopThread => exact follows_ite (follows_postTaskTraced _ _ _) rfl
  | forceClose =>
      refine follows_pure ?_
      rw [forceClose]
      split
      · rfl
      · rfl
  | forceCloseInLoop => exact follows_ite rfl rfl
  | startRead inLoopThread => exact follows_postTaskTraced c inLoopThread _
  | stopRead inLoopThread => exact follows_postTaskTraced c inLoopThread _
  | runTask =>
      show Follows c c.runNextTaskTraced
      rw [runNextTaskTraced]
      cases c.tasks with
      | nil => rfl
      | cons task tasks => exact Follows.of_channel (follows_runTaskTraced _ task) rfl
  | connectionDestroyed => exact follows_connectionDestroyedTraced c

end Follows

section Closings

/-- The states that the calls of `handleClose` find, in order. -/
def closeStates (x : Traced ChannelUse TcpConnection) : List StateE :=
  x.events.filterMap ChannelUse.closeState?

@[simp] theorem closeStates_pure (c : TcpConnection) : closeStates (pure c) = [] := rfl

@[simp] theorem closeStates_setTraced (c : TcpConnection) (interest : Interest) :
    closeStates (c.setTraced interest) = [] := rfl

@[simp] theorem closeStates_handleCloseTraced (c : TcpConnection) :
    closeStates c.handleCloseTraced = [c.state] := rfl

@[simp] theorem closeStates_bind (x : Traced ChannelUse TcpConnection)
    (f : TcpConnection → Traced ChannelUse TcpConnection) :
    closeStates (x >>= f) = closeStates x ++ closeStates (f x.val) :=
  List.filterMap_append

@[simp] theorem closeStates_ite (p : Prop) [Decidable p] (x y : Traced ChannelUse TcpConnection) :
    closeStates (if p then x else y) = if p then closeStates x else closeStates y := by
  split
  · rfl
  · rfl

/-- `n` calls, one after the other, of which the first finds `state`. -/
def foundBy (state : StateE) : Nat → List StateE
  | 0 => []
  | n + 1 => state :: List.replicate n .disconnected

theorem closeStates_handleReadTraced (c : TcpConnection) (result : ReadvResult) :
    closeStates (c.handleReadTraced result) = foundBy c.state result.isEnd.toNat := by
  have hn := readFromFd_fst c.recvBuf result
  simp only [handleReadTraced, hn, closeStates_ite, closeStates_pure,
    closeStates_handleCloseTraced]
  cases result with
  | failed errno => rfl
  | scattered bytes =>
      cases bytes with
      | nil => rfl
      | cons byte bytes =>
          have hpos : (0 : Int) < ((byte :: bytes).length : Int) := by
            rw [List.length_cons]
            omega
          exact if_pos hpos

theorem closeStates_handleWriteTraced (c : TcpConnection) (result : WriteResult) :
    closeStates (c.handleWriteTraced result) = [] := by
  cases result with
  | failed errno => simp [handleWriteTraced]
  | accepted n => simp [handleWriteTraced]

theorem closeStates_sendInLoopTraced (c : TcpConnection) (message : Memory) (len : Nat)
    (result : WriteResult) : closeStates (c.sendInLoopTraced message len result) = [] := by
  simp [sendInLoopTraced, appendRemainingTraced]

theorem closeStates_forceCloseInLoopTraced (c : TcpConnection) :
    closeStates c.forceCloseInLoopTraced = foundBy c.state c.isUp.toNat := by
  simp only [forceCloseInLoopTraced, ← isUp_iff, closeStates_ite, closeStates_handleCloseTraced,
    closeStates_pure]
  cases c.isUp with
  | true => rfl
  | false => rfl

theorem closeStates_quietTask (c : TcpConnection) {task : Task} (htask : task ≠ .forceCloseInLoop) :
    closeStates (c.runTaskTraced task) = [] := by
  cases task with
  | shutdownInLoop => rfl
  | forceCloseInLoop => exact absurd rfl htask
  | startReadInLoop => simp [runTaskTraced, startReadInLoopTraced]
  | stopReadInLoop => simp [runTaskTraced, stopReadInLoopTraced]

theorem closeStates_postTaskTraced (c : TcpConnection) (inLoopThread : Bool) {task : Task}
    (htask : task ≠ .forceCloseInLoop) : closeStates (c.postTaskTraced inLoopThread task) = [] := by
  simp [postTaskTraced, closeStates_quietTask c htask]

theorem closeStates_runNextTaskTraced (c : TcpConnection) :
    closeStates c.runNextTaskTraced = foundBy c.state (c.closings .runTask) := by
  rw [runNextTaskTraced, closings]
  cases htasks : c.tasks with
  | nil => simp [foundBy]
  | cons task tasks =>
      by_cases htask : task = .forceCloseInLoop
      · subst htask
        have hup : (c.isUp && some Task.forceCloseInLoop == some .forceCloseInLoop) = c.isUp := by
          simp
        rw [List.head?_cons, hup]
        exact closeStates_forceCloseInLoopTraced { c with tasks := tasks }
      · have hnot : (task == Task.forceCloseInLoop) = false := beq_eq_false_iff_ne.mpr htask
        simpa [hnot, foundBy] using closeStates_quietTask { c with tasks := tasks } htask

theorem closeStates_handleEventsTraced (c : TcpConnection) (currEvents : BitVec 32)
    (read : ReadvResult) (write : WriteResult) :
    closeStates (c.handleEventsTraced currEvents read write) =
      foundBy c.state (c.closings (.handleEvents currEvents read write)) := by
  have hclosed : c.handleCloseTraced.val.state = .disconnected := rfl
  rw [handleEventsTraced_eq]
  simp only [closeStates_bind, closeStates_ite, closeStates_handleCloseTraced, closeStates_pure,
    closeStates_handleReadTraced, closeStates_handleWriteTraced, closings]
  cases hangsUp currEvents with
  | true =>
      cases reads currEvents with
      | true => cases read.isEnd <;> simp [foundBy, hclosed]
      | false => simp [foundBy]
  | false =>
      cases reads currEvents with
      | true => cases read.isEnd <;> simp [foundBy]
      | false => simp [foundBy]

/-- A step comes to `handleClose` as often as `closings` says; the first call finds the state before
the step, and the others DISCONNECTED. -/
theorem closeStates_applyTraced (c : TcpConnection) (op : ConnOp) :
    closeStates (c.applyTraced op) = foundBy c.state (c.closings op) := by
  cases op with
  | connectionEstablished => rfl
  | handleEvents currEvents read write =>
      exact closeStates_handleEventsTraced c currEvents read write
  | handleRead result => exact closeStates_handleReadTraced c result
  | handleWrite result => exact closeStates_handleWriteTraced c result
  | handleClose => rfl
  | sendInLoop message result => exact closeStates_sendInLoopTraced c message _ result
  | shutdown_mt inLoopThread =>
      show closeStates (c.shutdownTraced inLoopThread) = []
      simp [shutdownTraced, closeStates_postTaskTraced]
  | forceClose => rfl
  | forceCloseInLoop => exact closeStates_forceCloseInLoopTraced c
  | startRead inLoopThread => exact closeStates_postTaskTraced c inLoopThread (by decide)
  | stopRead inLoopThread => exact closeStates_postTaskTraced c inLoopThread (by decide)
  | runTask => exact closeStates_runNextTaskTraced c
  | connectionDestroyed =>
      show closeStates c.connectionDestroyedTraced = []
      rw [connectionDestroyedTraced_eq]
      split
      · rfl
      · rfl

end Closings

end TcpConnection

end LearnMuduo
