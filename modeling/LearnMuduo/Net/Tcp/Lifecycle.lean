import LearnMuduo.Framework.Run
import LearnMuduo.Net.Tcp.Connection

/-!
# The life of a connection

A connection is established once; then come, in any order, the events of its channel, calls of its
user, tasks that were posted or queued, timers of `forceCloseWithDelay`, and its destruction. The
system calls answer what they like.
-/

namespace LearnMuduo

open Framework

/-- The place of a state in the order in which a connection goes through them. -/
def StateE.rank : StateE → Nat
  | .connecting => 0
  | .connected => 1
  | .disconnecting => 2
  | .disconnected => 3

/-- The end of the stream, as `handleRead` takes it. -/
def ReadvResult.isEnd : ReadvResult → Bool
  | .scattered [] => true
  | _ => false

/-- A `::write` takes at most what it is given. -/
def WriteResult.Fits (result : WriteResult) (requested : Nat) : Prop :=
  match result with
  | .accepted count => count ≤ requested
  | .failed _ => True

/-- The bytes that a `::write` took. -/
def WriteResult.count : WriteResult → Nat
  | .accepted count => count
  | .failed _ => 0

instance (result : WriteResult) (requested : Nat) : Decidable (result.Fits requested) :=
  match result with
  | .accepted count => inferInstanceAs (Decidable (count ≤ requested))
  | .failed _ => inferInstanceAs (Decidable True)

/-- What can happen to a connection. `inLoopThread` is the answer of `isInLoopThread`: a posted task
runs at once or later. -/
inductive ConnOp
  | connectionEstablished
  | handleEvents (currEvents : BitVec 32) (read : ReadvResult) (write : WriteResult)
  | handleRead (result : ReadvResult)
  | handleWrite (result : WriteResult)
  | handleClose
  | sendInLoop (message : Memory) (result : WriteResult)
  | shutdown_mt (inLoopThread : Bool)
  | forceClose
  | forceCloseInLoop
  | startRead (inLoopThread : Bool)
  | stopRead (inLoopThread : Bool)
  | runTask
  | connectionDestroyed
  deriving DecidableEq, Repr

namespace TcpConnection

/-- `Channel::handleEvents`, with the callbacks that the constructor has set; `handleError` only
reads and logs. -/
def handleEvents (c : TcpConnection) (currEvents : BitVec 32) (read : ReadvResult)
    (write : WriteResult) : Checked TcpConnection := do
  let c ←
    if currEvents &&& Channel.pollHup ≠ 0 ∧ currEvents &&& Channel.pollIn = 0 then c.handleClose
    else pure c
  let c ←
    if currEvents &&& (Channel.pollIn ||| Channel.pollPri) ≠ 0 then c.handleReadWith read
    else pure c
  if currEvents &&& Channel.pollOut ≠ 0 then c.handleWrite write else pure c

/-- The loop executes the oldest task. -/
def runNextTask (c : TcpConnection) : Checked TcpConnection :=
  match c.tasks with
  | [] => pure c
  | task :: tasks => { c with tasks := tasks }.runTask task

def apply (c : TcpConnection) : ConnOp → Checked TcpConnection
  | .connectionEstablished => c.connectionEstablished
  | .handleEvents currEvents read write => c.handleEvents currEvents read write
  | .handleRead result => c.handleReadWith result
  | .handleWrite result => c.handleWrite result
  | .handleClose => c.handleClose
  | .sendInLoop message result => c.sendInLoop message message.bytes.length result
  | .shutdown_mt inLoopThread => c.shutdown_mt inLoopThread
  | .forceClose => pure c.forceClose
  | .forceCloseInLoop => c.forceCloseInLoop
  | .startRead inLoopThread => c.startRead inLoopThread
  | .stopRead inLoopThread => c.stopRead inLoopThread
  | .runTask => c.runNextTask
  | .connectionDestroyed => c.connectionDestroyed

/-- `connectionEstablished` has run: nothing else reports the state CONNECTED. -/
def established (c : TcpConnection) : Bool := c.calls.contains (.connectionChange .connected)

/-- What the callers and the kernel keep to: the connection is established first and once, writes
take no more than they are given, messages are shorter than 2^31 bytes. -/
def Allowed (c : TcpConnection) : ConnOp → Prop
  | .connectionEstablished => c.established = false
  | .handleEvents _ _ write => c.established = true ∧ write.Fits c.sendBuf.readableBytes
  | .handleWrite result => c.established = true ∧ result.Fits c.sendBuf.readableBytes
  | .sendInLoop message result => c.established = true ∧ message.bytes.length < 2 ^ 31 ∧
      result.Fits message.bytes.length
  | .runTask => c.established = true ∧ c.tasks ≠ []
  | _ => c.established = true

instance (c : TcpConnection) (op : ConnOp) : Decidable (c.Allowed op) :=
  match op with
  | .connectionEstablished => inferInstanceAs (Decidable (c.established = false))
  | .handleEvents _ _ write =>
      inferInstanceAs (Decidable (c.established = true ∧ write.Fits c.sendBuf.readableBytes))
  | .handleWrite result =>
      inferInstanceAs (Decidable (c.established = true ∧ result.Fits c.sendBuf.readableBytes))
  | .sendInLoop message result =>
      inferInstanceAs (Decidable (c.established = true ∧ message.bytes.length < 2 ^ 31 ∧
        result.Fits message.bytes.length))
  | .runTask => inferInstanceAs (Decidable (c.established = true ∧ c.tasks ≠ []))
  | .handleRead _ => inferInstanceAs (Decidable (c.established = true))
  | .handleClose => inferInstanceAs (Decidable (c.established = true))
  | .shutdown_mt _ => inferInstanceAs (Decidable (c.established = true))
  | .forceClose => inferInstanceAs (Decidable (c.established = true))
  | .forceCloseInLoop => inferInstanceAs (Decidable (c.established = true))
  | .startRead _ => inferInstanceAs (Decidable (c.established = true))
  | .stopRead _ => inferInstanceAs (Decidable (c.established = true))
  | .connectionDestroyed => inferInstanceAs (Decidable (c.established = true))

end TcpConnection

/-- A step of the release build. -/
def ConnStep (c : TcpConnection) (op : ConnOp) (c' : TcpConnection) : Prop :=
  c.Allowed op ∧ c' = (c.apply op).val

/-- A callback that reports the connection down. -/
def Call.isDown : Call → Bool
  | .connectionChange .disconnected => true
  | .close => true
  | _ => false

namespace TcpConnection

variable {c c' c'' : TcpConnection}

/-- Neither the state changes nor is the connection reported down. -/
structure Quiet (c c' : TcpConnection) : Prop where
  state : c'.state = c.state
  calls : ∃ calls, c'.calls = c.calls ++ calls ∧ ∀ call ∈ calls, call.isDown = false

/-- The interest and the backlog, the queued tasks and the write side of the socket stay, too. -/
structure Kept (c c' : TcpConnection) : Prop extends Quiet c c' where
  channel : c'.channel = c.channel
  sendBuf : c'.sendBuf = c.sendBuf
  tasks : c'.tasks = c.tasks
  writeShut : c'.socket.writeShut = c.socket.writeShut

theorem Quiet.of_eq (hstate : c'.state = c.state) (hcalls : c'.calls = c.calls) : Quiet c c' :=
  ⟨hstate, [], by rw [hcalls, List.append_nil], by simp⟩

theorem Quiet.trans (h : Quiet c c') (h' : Quiet c' c'') : Quiet c c'' := by
  rcases h.calls with ⟨calls, hcalls, hquiet⟩
  rcases h'.calls with ⟨calls', hcalls', hquiet'⟩
  refine ⟨h'.state.trans h.state, calls ++ calls', ?_, ?_⟩
  · rw [hcalls', hcalls, List.append_assoc]
  · intro call hcall
    rcases List.mem_append.mp hcall with hcall | hcall
    · exact hquiet call hcall
    · exact hquiet' call hcall

theorem Kept.refl (c : TcpConnection) : Kept c c :=
  ⟨Quiet.of_eq rfl rfl, rfl, rfl, rfl, rfl⟩

theorem Kept.trans (h : Kept c c') (h' : Kept c' c'') : Kept c c'' :=
  ⟨h.toQuiet.trans h'.toQuiet, h'.channel.trans h.channel, h'.sendBuf.trans h.sendBuf,
    h'.tasks.trans h.tasks, h'.writeShut.trans h.writeShut⟩

theorem kept_call {callback : Call} (hdown : callback.isDown = false) :
    Kept c (c.call callback) := by
  refine ⟨⟨rfl, [callback], rfl, fun x hx => ?_⟩, rfl, rfl, rfl, rfl⟩
  rw [List.mem_singleton.mp hx]
  exact hdown

theorem kept_accept (bytes : List UInt8) : Kept c { c with socket := c.socket.accept bytes } :=
  ⟨Quiet.of_eq rfl rfl, rfl, rfl, rfl, rfl⟩

theorem kept_postWriteComplete (c : TcpConnection) : Kept c c.postWriteComplete := by
  rw [postWriteComplete]
  split
  · exact kept_call rfl
  · exact Kept.refl c

section HandleRead

/-- What `handleClose` leaves. -/
def closed (c : TcpConnection) : TcpConnection :=
  { c with
    state := .disconnected
    channel := c.channel.disableAll
    calls := c.calls ++ [.connectionChange .disconnected, .close] }

theorem handleClose_val (c : TcpConnection) : c.handleClose.val = c.closed := by
  simp [handleClose, setState, call, closed]

theorem readFromFd_fst (b : Buffer) (result : ReadvResult) :
    (b.readFromFd result).val.1 =
      match result with
      | .scattered bytes => (bytes.length : Int)
      | .failed _ => -1 := by
  cases result with
  | failed errno => rfl
  | scattered bytes =>
      simp only [Buffer.readFromFd]
      split
      · rfl
      · rfl

theorem handleReadWith_cases (c : TcpConnection) (result : ReadvResult) :
    (result.isEnd = true ∧
        ∃ recvBuf, (c.handleReadWith result).val = { c with recvBuf := recvBuf }.closed) ∨
      (result.isEnd = false ∧ Kept c (c.handleReadWith result).val) := by
  have hkept : ∀ recvBuf, Kept c { c with recvBuf := recvBuf } := fun _ =>
    ⟨Quiet.of_eq rfl rfl, rfl, rfl, rfl, rfl⟩
  have hn := readFromFd_fst c.recvBuf result
  simp only [handleReadWith, Checked.val_bind, Checked.val_ite, Checked.val_pure, hn]
  cases result with
  | failed errno => exact Or.inr ⟨rfl, hkept _⟩
  | scattered bytes =>
      cases bytes with
      | nil => exact Or.inl ⟨rfl, _, handleClose_val _⟩
      | cons byte bytes =>
          have hpos : (0 : Int) < ((byte :: bytes).length : Int) := by
            rw [List.length_cons]
            omega
          refine Or.inr ⟨rfl, ?_⟩
          simp only [if_pos hpos]
          exact (hkept _).trans (kept_call rfl)

end HandleRead

section HandleWrite

/-- `n` bytes of the backlog have gone to the kernel. -/
def flushed (c : TcpConnection) (n : Nat) : TcpConnection :=
  { c with
    socket := c.socket.accept (c.sendBuf.readable.take n)
    sendBuf := (c.sendBuf.retrieve n).val }

/-- What `handleWrite` does when the backlog has become empty. -/
def drained (c : TcpConnection) : TcpConnection :=
  let c := { c with channel := c.channel.disableWrite }.postWriteComplete
  if c.state = .disconnecting then c.shutdownInLoop else c

theorem handleWrite_val (c : TcpConnection) (result : WriteResult) :
    (c.handleWrite result).val =
      if c.channel.isWriting = true ∧ 0 < result.count then
        if (c.flushed result.count).sendBuf.readableBytes = 0 then
          (c.flushed result.count).drained
        else c.flushed result.count
      else c := by
  rw [handleWrite.eq_def]
  by_cases hwriting : c.channel.isWriting = true
  · rw [if_pos hwriting]
    cases result with
    | failed errno =>
        rw [if_neg fun h => Nat.lt_irrefl 0 h.2]
        rfl
    | accepted n =>
        by_cases hn : 0 < n
        · rw [if_pos ⟨hwriting, hn⟩]
          simp only [if_pos hn, Checked.val_bind, Checked.val_ite, Checked.val_pure]
          rfl
        · rw [if_neg fun h => hn h.2]
          simp only [if_neg hn, Checked.val_pure]
  · rw [if_neg hwriting, if_neg fun h => hwriting h.1]
    rfl

theorem quiet_shutdownInLoop (c : TcpConnection) : Quiet c c.shutdownInLoop := by
  rw [shutdownInLoop]
  split
  · exact Quiet.of_eq rfl rfl
  · exact Quiet.of_eq rfl rfl

theorem quiet_drained (c : TcpConnection) : Quiet c c.drained := by
  have hdisabled : Quiet c { c with channel := c.channel.disableWrite } := Quiet.of_eq rfl rfl
  have hposted := hdisabled.trans (kept_postWriteComplete _).toQuiet
  rw [drained]
  split
  · exact hposted.trans (quiet_shutdownInLoop _)
  · exact hposted

theorem quiet_handleWrite (c : TcpConnection) (result : WriteResult) :
    Quiet c (c.handleWrite result).val := by
  have hflushed : Quiet c (c.flushed result.count) := Quiet.of_eq rfl rfl
  rw [handleWrite_val]
  split
  · split
    · exact hflushed.trans (quiet_drained _)
    · exact hflushed
  · exact Quiet.of_eq rfl rfl

end HandleWrite

section SendInLoop

/-- The high water mark callback, posted before the backlog grows. -/
def reportHighWaterMark (c : TcpConnection) (remain : Nat) : TcpConnection :=
  if highWaterMark ≤ c.sendBuf.readableBytes + remain &&
      decide (c.sendBuf.readableBytes < highWaterMark) then
    if highWaterMark ≠ 0 then c.call (.highWaterMark (c.sendBuf.readableBytes + remain)) else c
  else c

theorem kept_reportHighWaterMark (c : TcpConnection) (remain : Nat) :
    Kept c (c.reportHighWaterMark remain) := by
  rw [reportHighWaterMark]
  split
  · split
    · exact kept_call rfl
    · exact Kept.refl c
  · exact Kept.refl c

/-- The backlog has grown by `bytes`, at least one, and is to be written. -/
def Grown (c c' : TcpConnection) : Prop :=
  ∃ c₁ bytes channel, Kept c c₁ ∧ bytes ≠ [] ∧ channel.isWriting = true ∧
    c' = { c₁ with sendBuf := (c₁.sendBuf.append bytes).val, channel := channel }

theorem appendRemaining_val (c : TcpConnection) (message : Memory) (locals : SendLocals) :
    (c.appendRemaining message locals).val =
      let c₁ := { c.reportHighWaterMark locals.remain with
        sendBuf := ((c.reportHighWaterMark locals.remain).sendBuf.append
          (message.read locals.sent (sizeOfInt (intOfSize locals.remain)))).val }
      if !c₁.channel.isWriting then { c₁ with channel := c₁.channel.enableWrite } else c₁ :=
  rfl

theorem sendBuf_appendRemaining (c : TcpConnection) (message : Memory) (locals : SendLocals) :
    (c.appendRemaining message locals).val.sendBuf =
      (c.sendBuf.append (message.read locals.sent (sizeOfInt (intOfSize locals.remain)))).val := by
  rw [appendRemaining_val, ← (kept_reportHighWaterMark c locals.remain).sendBuf]
  dsimp only
  split
  · rfl
  · rfl

theorem grown_appendRemaining (c : TcpConnection) {message : Memory} {locals : SendLocals}
    (hread : message.read locals.sent (sizeOfInt (intOfSize locals.remain)) ≠ []) :
    Grown c (c.appendRemaining message locals).val := by
  let c₁ := c.reportHighWaterMark locals.remain
  let sendBuf := (c₁.sendBuf.append
    (message.read locals.sent (sizeOfInt (intOfSize locals.remain)))).val
  have hval : (c.appendRemaining message locals).val =
      if !c₁.channel.isWriting then
        { c₁ with sendBuf := sendBuf, channel := c₁.channel.enableWrite }
      else { c₁ with sendBuf := sendBuf } := appendRemaining_val c message locals
  have hkept : Kept c c₁ := kept_reportHighWaterMark c locals.remain
  rw [hval]
  cases hwriting : c₁.channel.isWriting with
  | true => exact ⟨c₁, _, c₁.channel, hkept, hread, hwriting, rfl⟩
  | false =>
      exact ⟨c₁, _, c₁.channel.enableWrite, hkept, hread, c₁.channel.isWriting_enableWrite, rfl⟩

/-- `sendInLoop` up to its assertion: the direct write, if there is one. -/
def written (c : TcpConnection) (message : Memory) (result : WriteResult) :
    TcpConnection × SendLocals :=
  if c.writesDirectly then c.writeDirectly message message.bytes.length result
  else (c, ⟨message.bytes.length, 0, false⟩)

theorem kept_written (c : TcpConnection) (message : Memory) (result : WriteResult) :
    Kept c (c.written message result).1 := by
  rw [written]
  split
  · cases result with
    | failed errno => exact Kept.refl c
    | accepted n =>
        rw [writeDirectly]
        have haccept : Kept c _ := kept_accept (message.bytes.take n)
        dsimp only
        split
        · exact haccept.trans (kept_postWriteComplete _)
        · exact haccept
  · exact Kept.refl c

/-- What is left of the message is read from inside it, or from one byte before it. -/
theorem written_locals (c : TcpConnection) {message : Memory} {result : WriteResult}
    (hfits : result.Fits message.bytes.length) :
    -1 ≤ (c.written message result).2.sent ∧
      (c.written message result).2.remain ≤ message.bytes.length ∧
      (c.written message result).2.sent + (c.written message result).2.remain ≤
        message.bytes.length := by
  rw [written]
  split
  · cases result with
    | failed errno =>
        simp only [writeDirectly]
        omega
    | accepted n =>
        have hn : n ≤ message.bytes.length := hfits
        simp only [writeDirectly]
        omega
  · dsimp only
    omega

theorem length_read_remain {message : Memory} {locals : SendLocals}
    (hlen : message.bytes.length < 2 ^ 31) (hle : locals.remain ≤ message.bytes.length)
    (hend : locals.sent + locals.remain ≤ message.bytes.length) :
    (message.read locals.sent (sizeOfInt (intOfSize locals.remain))).length = locals.remain := by
  have hint : sizeOfInt (intOfSize locals.remain) = locals.remain := by
    rw [intOfSize_of_lt (by omega), sizeOfInt_natCast (by omega)]
  rw [hint, Memory.read, List.length_take, List.length_drop, List.length_cons]
  omega

theorem read_ne_nil {message : Memory} {locals : SendLocals}
    (hlen : message.bytes.length < 2 ^ 31) (hremain : 0 < locals.remain)
    (hle : locals.remain ≤ message.bytes.length)
    (hend : locals.sent + locals.remain ≤ message.bytes.length) :
    message.read locals.sent (sizeOfInt (intOfSize locals.remain)) ≠ [] := by
  apply List.ne_nil_of_length_pos
  rw [length_read_remain hlen hle hend]
  exact hremain

theorem sendInLoop_val (c : TcpConnection) (message : Memory) (result : WriteResult)
    (hstate : c.state ≠ .disconnected) :
    (c.sendInLoop message message.bytes.length result).val =
      if !(c.written message result).2.faultError &&
          decide (0 < (c.written message result).2.remain) then
        ((c.written message result).1.appendRemaining message (c.written message result).2).val
      else (c.written message result).1 := by
  rw [sendInLoop, if_neg hstate]
  simp only [Checked.val_bind, Checked.val_ite, Checked.val_pure]
  rfl

theorem sendInLoop_cases (c : TcpConnection) {message : Memory} {result : WriteResult}
    (hlen : message.bytes.length < 2 ^ 31) (hfits : result.Fits message.bytes.length) :
    Kept c (c.sendInLoop message message.bytes.length result).val ∨
      c.state ≠ .disconnected ∧
        Grown c (c.sendInLoop message message.bytes.length result).val := by
  by_cases hstate : c.state = .disconnected
  · rw [sendInLoop, if_pos hstate]
    exact Or.inl (Kept.refl c)
  · have hkept := kept_written c message result
    have hval := c.sendInLoop_val message result hstate
    rw [hval]
    split
    · rename_i hrest
      rw [Bool.and_eq_true, decide_eq_true_iff] at hrest
      rcases written_locals c hfits with ⟨-, hle, hend⟩
      rcases grown_appendRemaining (c.written message result).1
        (read_ne_nil hlen hrest.2 hle hend) with ⟨c₁, bytes, channel, hc₁, hgrown⟩
      exact Or.inr ⟨hstate, c₁, bytes, channel, hkept.trans hc₁, hgrown⟩
    · exact Or.inl hkept

theorem Grown.quiet (h : Grown c c') : Quiet c c' := by
  rcases h with ⟨c₁, bytes, channel, hkept, _, _, hval⟩
  subst hval
  exact hkept.toQuiet.trans (Quiet.of_eq rfl rfl)

theorem quiet_sendInLoop (c : TcpConnection) {message : Memory} {result : WriteResult}
    (hlen : message.bytes.length < 2 ^ 31) (hfits : result.Fits message.bytes.length) :
    Quiet c (c.sendInLoop message message.bytes.length result).val := by
  rcases c.sendInLoop_cases hlen hfits with hkept | ⟨_, hgrown⟩
  · exact hkept.toQuiet
  · exact hgrown.quiet

end SendInLoop

section Tasks

theorem quiet_startReadInLoop (c : TcpConnection) : Quiet c c.startReadInLoop := by
  rw [startReadInLoop]
  split
  · exact Quiet.of_eq rfl rfl
  · exact Quiet.of_eq rfl rfl

theorem quiet_stopReadInLoop (c : TcpConnection) : Quiet c c.stopReadInLoop := by
  rw [stopReadInLoop]
  split
  · exact Quiet.of_eq rfl rfl
  · exact Quiet.of_eq rfl rfl

theorem quiet_runTask (c : TcpConnection) {task : Task} (htask : task ≠ .forceCloseInLoop) :
    Quiet c (c.runTask task).val := by
  cases task with
  | shutdownInLoop => exact quiet_shutdownInLoop c
  | startReadInLoop => exact quiet_startReadInLoop c
  | stopReadInLoop => exact quiet_stopReadInLoop c
  | forceCloseInLoop => exact absurd rfl htask

theorem quiet_postTask_mt (c : TcpConnection) (inLoopThread : Bool) {task : Task}
    (htask : task ≠ .forceCloseInLoop) : Quiet c (c.postTask_mt inLoopThread task).val := by
  cases inLoopThread with
  | true => exact quiet_runTask c htask
  | false => exact Quiet.of_eq rfl rfl

end Tasks

section Steps

/-- Up, as `forceClose` tests it. -/
def isUp (c : TcpConnection) : Bool := c.state == .connected || c.state == .disconnecting

/-- The hang-up of a dispatch that closes. -/
def hangsUp (currEvents : BitVec 32) : Bool :=
  decide (currEvents &&& Channel.pollHup ≠ 0 ∧ currEvents &&& Channel.pollIn = 0)

def reads (currEvents : BitVec 32) : Bool :=
  decide (currEvents &&& (Channel.pollIn ||| Channel.pollPri) ≠ 0)

/-- How often a step comes to `handleClose`. -/
def closings (c : TcpConnection) : ConnOp → Nat
  | .handleEvents currEvents read _ =>
      (hangsUp currEvents).toNat + (reads currEvents && read.isEnd).toNat
  | .handleRead result => result.isEnd.toNat
  | .handleClose => 1
  | .forceCloseInLoop => c.isUp.toNat
  | .runTask => (c.isUp && c.tasks.head? == some .forceCloseInLoop).toNat
  | _ => 0

/-- The connection goes down in `connectionDestroyed`. -/
def downs (c : TcpConnection) : ConnOp → Nat
  | .connectionDestroyed => (c.state == .connected).toNat
  | op => c.closings op

/-- The state after a step. -/
def nextState (c : TcpConnection) (op : ConnOp) : StateE :=
  if 0 < c.downs op then .disconnected
  else
    match op with
    | .connectionEstablished => .connected
    | .shutdown_mt _ => if c.state = .connected then .connecting else c.state
    | .forceClose => if c.isUp then .disconnecting else c.state
    | _ => c.state

/-- From `c` to `c'` the close callback ran `closes` times, and the connection was reported down
`downs` times. -/
structure Reported (c c' : TcpConnection) (closes downs : Nat) : Prop where
  calls : c.calls <+: c'.calls
  close : c'.calls.count .close = c.calls.count .close + closes
  down : c'.calls.count (.connectionChange .disconnected) =
    c.calls.count (.connectionChange .disconnected) + downs

theorem Reported.trans {k d k' d' : Nat} (h : Reported c c' k d) (h' : Reported c' c'' k' d') :
    Reported c c'' (k + k') (d + d') := by
  refine ⟨List.IsPrefix.trans h.calls h'.calls, ?_, ?_⟩
  · rw [h'.close, h.close, Nat.add_assoc]
  · rw [h'.down, h.down, Nat.add_assoc]

theorem reported_append {calls : List Call} {k d : Nat} (hcalls : c'.calls = c.calls ++ calls)
    (hclose : calls.count .close = k) (hdown : calls.count (.connectionChange .disconnected) = d) :
    Reported c c' k d := by
  refine ⟨⟨calls, hcalls.symm⟩, ?_, ?_⟩
  · rw [hcalls, List.count_append, hclose]
  · rw [hcalls, List.count_append, hdown]

theorem Reported.of_eq (hcalls : c'.calls = c.calls) : Reported c c' 0 0 :=
  reported_append (hcalls.trans (List.append_nil _).symm) rfl rfl

theorem count_of_not_isDown {calls : List Call} {call : Call} (hdown : call.isDown = true)
    (hquiet : ∀ x ∈ calls, x.isDown = false) : calls.count call = 0 := by
  rw [List.count_eq_zero]
  intro hmem
  rw [hquiet call hmem] at hdown
  exact Bool.false_ne_true hdown

theorem Quiet.reported (h : Quiet c c') : Reported c c' 0 0 := by
  rcases h.calls with ⟨calls, hcalls, hquiet⟩
  exact reported_append hcalls (count_of_not_isDown rfl hquiet) (count_of_not_isDown rfl hquiet)

theorem reported_closed (c : TcpConnection) : Reported c c.closed 1 1 :=
  reported_append rfl rfl rfl

/-- A step, as far as the state and the reports go. -/
structure Does (c c' : TcpConnection) (state : StateE) (closes downs : Nat) : Prop where
  state : c'.state = state
  reported : Reported c c' closes downs

theorem Quiet.does (h : Quiet c c') : Does c c' c.state 0 0 := ⟨h.state, h.reported⟩

theorem does_closed (c : TcpConnection) : Does c c.closed .disconnected 1 1 :=
  ⟨rfl, reported_closed c⟩

theorem Does.trans {state state' : StateE} {k d k' d' : Nat} (h : Does c c' state k d)
    (h' : Does c' c'' state' k' d') : Does c c'' state' (k + k') (d + d') :=
  ⟨h'.state, h.reported.trans h'.reported⟩

theorem does_handleReadWith (c : TcpConnection) (result : ReadvResult) :
    Does c (c.handleReadWith result).val (if result.isEnd then .disconnected else c.state)
      result.isEnd.toNat result.isEnd.toNat := by
  rcases c.handleReadWith_cases result with ⟨hend, recvBuf, hval⟩ | ⟨hend, hkept⟩
  · rw [hval, hend]
    have hread : Quiet c { c with recvBuf := recvBuf } := Quiet.of_eq rfl rfl
    simpa using hread.does.trans (does_closed { c with recvBuf := recvBuf })
  · rw [hend]
    exact hkept.toQuiet.does

theorem handleEvents_val (c : TcpConnection) (currEvents : BitVec 32) (read : ReadvResult)
    (write : WriteResult) : (c.handleEvents currEvents read write).val =
      let c := if hangsUp currEvents then c.closed else c
      let c := if reads currEvents then (c.handleReadWith read).val else c
      if currEvents &&& Channel.pollOut ≠ 0 then (c.handleWrite write).val else c := by
  simp only [handleEvents, Checked.val_bind, Checked.val_ite, Checked.val_pure, handleClose_val,
    hangsUp, reads, decide_eq_true_eq]
  by_cases hhup : currEvents &&& Channel.pollHup ≠ 0 ∧ currEvents &&& Channel.pollIn = 0
  · by_cases hread : currEvents &&& (Channel.pollIn ||| Channel.pollPri) ≠ 0
    · simp only [if_pos hhup, if_pos hread]
    · simp only [if_pos hhup, if_neg hread]
  · by_cases hread : currEvents &&& (Channel.pollIn ||| Channel.pollPri) ≠ 0
    · simp only [if_neg hhup, if_pos hread]
    · simp only [if_neg hhup, if_neg hread]

theorem does_handleEvents (c : TcpConnection) (currEvents : BitVec 32) (read : ReadvResult)
    (write : WriteResult) :
    Does c (c.handleEvents currEvents read write).val
      (c.nextState (.handleEvents currEvents read write))
      (c.closings (.handleEvents currEvents read write))
      (c.downs (.handleEvents currEvents read write)) := by
  rw [handleEvents_val]
  have hclose : Does c (if hangsUp currEvents then c.closed else c)
      (if hangsUp currEvents then .disconnected else c.state)
      (hangsUp currEvents).toNat (hangsUp currEvents).toNat := by
    split
    · rename_i hhup
      rw [hhup]
      exact does_closed c
    · rename_i hhup
      rw [Bool.eq_false_iff.mpr hhup]
      exact (Quiet.of_eq rfl rfl).does
  generalize (if hangsUp currEvents then c.closed else c) = c₁ at hclose
  have hread : Does c₁ (if reads currEvents then (c₁.handleReadWith read).val else c₁)
      (if reads currEvents && read.isEnd then .disconnected else c₁.state)
      (reads currEvents && read.isEnd).toNat (reads currEvents && read.isEnd).toNat := by
    cases hreads : reads currEvents with
    | true => simpa using does_handleReadWith c₁ read
    | false => exact (Quiet.of_eq rfl rfl).does
  dsimp only
  generalize (if reads currEvents then (c₁.handleReadWith read).val else c₁) = c₂ at hread
  have hwrite : Quiet c₂
      (if currEvents &&& Channel.pollOut ≠ 0 then (c₂.handleWrite write).val else c₂) := by
    split
    · exact quiet_handleWrite c₂ write
    · exact Quiet.of_eq rfl rfl
  have hall := (hclose.trans hread).trans hwrite.does
  refine ⟨?_, hall.reported⟩
  rw [hwrite.state, hread.state, hclose.state]
  cases hhup : hangsUp currEvents with
  | true =>
      cases hend : (reads currEvents && read.isEnd) with
      | true => simp [nextState, downs, closings, hhup]
      | false => simp [nextState, downs, closings, hhup]
  | false =>
      cases hend : (reads currEvents && read.isEnd) with
      | true => simp [nextState, downs, closings, hhup, hend]
      | false => simp [nextState, downs, closings, hhup, hend]

theorem isUp_iff (c : TcpConnection) :
    c.isUp = true ↔ c.state = .connected ∨ c.state = .disconnecting := by
  simp [isUp]

theorem forceCloseInLoop_val (c : TcpConnection) :
    c.forceCloseInLoop.val = if c.isUp then c.closed else c := by
  simp only [forceCloseInLoop, Checked.val_ite, handleClose_val, isUp_iff, Checked.val_pure]

theorem does_forceCloseInLoop (c : TcpConnection) :
    Does c c.forceCloseInLoop.val (if c.isUp then .disconnected else c.state) c.isUp.toNat
      c.isUp.toNat := by
  rw [forceCloseInLoop_val]
  cases c.isUp with
  | true => exact does_closed c
  | false => exact (Quiet.of_eq rfl rfl).does

theorem does_runNextTask (c : TcpConnection) :
    Does c c.runNextTask.val (c.nextState .runTask) (c.closings .runTask) (c.downs .runTask) := by
  rw [runNextTask]
  cases htasks : c.tasks with
  | nil =>
      have hstay : Quiet c c := Quiet.of_eq rfl rfl
      simpa [nextState, downs, closings, htasks] using hstay.does
  | cons task tasks =>
      have htaken : Quiet c { c with tasks := tasks } := Quiet.of_eq rfl rfl
      by_cases htask : task = .forceCloseInLoop
      · subst htask
        have hforce := htaken.does.trans (does_forceCloseInLoop { c with tasks := tasks })
        have hup : ({ c with tasks := tasks } : TcpConnection).isUp = c.isUp := rfl
        rw [hup] at hforce
        show Does c ({ c with tasks := tasks } : TcpConnection).forceCloseInLoop.val _ _ _
        cases hisUp : c.isUp with
        | true => simpa [nextState, downs, closings, htasks, hisUp] using hforce
        | false => simpa [nextState, downs, closings, htasks, hisUp] using hforce
      · have hquiet := htaken.trans (quiet_runTask { c with tasks := tasks } htask)
        have hnot : (task == Task.forceCloseInLoop) = false := beq_eq_false_iff_ne.mpr htask
        simpa [nextState, downs, closings, htasks, hnot] using hquiet.does

theorem does_connectionDestroyed (c : TcpConnection) :
    Does c c.connectionDestroyed.val (c.nextState .connectionDestroyed) 0
      (c.downs .connectionDestroyed) := by
  by_cases hstate : c.state = .connected
  · have hval : c.connectionDestroyed.val = { c with
        state := .disconnected
        channel := c.channel.disableAll
        calls := c.calls ++ [.connectionChange .disconnected] } := by
      simp [connectionDestroyed, Channel.remove, hstate, setState, call]
    have hdowns : c.downs .connectionDestroyed = 1 := by simp [downs, hstate]
    rw [hval, hdowns]
    exact ⟨by simp [nextState, hdowns], reported_append rfl rfl rfl⟩
  · have hval : c.connectionDestroyed.val = c := by
      simp [connectionDestroyed, Channel.remove, hstate]
    have hnot : (c.state == .connected) = false := beq_eq_false_iff_ne.mpr hstate
    rw [hval]
    simpa [nextState, downs, hnot] using (Quiet.of_eq rfl rfl : Quiet c c).does

theorem does_shutdown_mt (c : TcpConnection) (inLoopThread : Bool) :
    Does c (c.shutdown_mt inLoopThread).val (c.nextState (.shutdown_mt inLoopThread)) 0 0 := by
  rw [shutdown_mt]
  by_cases hstate : c.state = .connected
  · rw [if_pos hstate]
    have hset : Does c (c.setState .connecting) .connecting 0 0 := ⟨rfl, Reported.of_eq rfl⟩
    have hpost := quiet_postTask_mt (c.setState .connecting) inLoopThread
      (by decide : Task.shutdownInLoop ≠ .forceCloseInLoop)
    have hnext : (c.setState .connecting).state = c.nextState (.shutdown_mt inLoopThread) := by
      simp [nextState, downs, closings, hstate, setState]
    rw [← hnext]
    exact hset.trans hpost.does
  · rw [if_neg hstate]
    simpa [nextState, downs, closings, hstate] using (Quiet.of_eq rfl rfl : Quiet c c).does

theorem does_forceClose (c : TcpConnection) :
    Does c c.forceClose (c.nextState .forceClose) 0 0 := by
  have hreported : Reported c c.forceClose 0 0 := by
    rw [forceClose]
    split
    · exact Reported.of_eq rfl
    · exact Reported.of_eq rfl
  refine ⟨?_, hreported⟩
  simp only [nextState, downs, closings, isUp_iff, forceClose]
  split
  · rfl
  · rfl

end Steps

end TcpConnection

open TcpConnection in
/-- What a step does to the state, and how often it reports the connection down. -/
theorem ConnStep.does {c c' : TcpConnection} {op : ConnOp} (h : ConnStep c op c') :
    Does c c' (c.nextState op) (c.closings op) (c.downs op) := by
  rcases h with ⟨hallowed, heq⟩
  subst heq
  cases op with
  | connectionEstablished =>
      exact ⟨rfl, reported_append rfl rfl rfl⟩
  | handleEvents currEvents read write => exact does_handleEvents c currEvents read write
  | handleRead result =>
      have hread := does_handleReadWith c result
      show Does c (c.handleReadWith result).val _ _ _
      cases hend : result.isEnd with
      | true => simpa [nextState, downs, closings, hend] using hread
      | false => simpa [nextState, downs, closings, hend] using hread
  | handleWrite result => exact (quiet_handleWrite c result).does
  | handleClose =>
      show Does c c.handleClose.val _ _ _
      rw [handleClose_val]
      exact does_closed c
  | sendInLoop message result => exact (quiet_sendInLoop c hallowed.2.1 hallowed.2.2).does
  | shutdown_mt inLoopThread => exact does_shutdown_mt c inLoopThread
  | forceClose => exact does_forceClose c
  | forceCloseInLoop =>
      have hforce := does_forceCloseInLoop c
      show Does c c.forceCloseInLoop.val _ _ _
      cases hup : c.isUp with
      | true => simpa [nextState, downs, closings, hup] using hforce
      | false => simpa [nextState, downs, closings, hup] using hforce
  | startRead inLoopThread =>
      exact (quiet_postTask_mt c inLoopThread (by decide)).does
  | stopRead inLoopThread =>
      exact (quiet_postTask_mt c inLoopThread (by decide)).does
  | runTask => exact does_runNextTask c
  | connectionDestroyed => exact does_connectionDestroyed c

end LearnMuduo
