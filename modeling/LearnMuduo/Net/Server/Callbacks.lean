import LearnMuduo.Net.Server.TcpServer
import LearnMuduo.Net.Tcp.StateOrder

/-!
# The callbacks of a connection

`TcpServer` has callbacks for connection changes, messages and completed writes, and `newConnection`
hands these three to the connection. The connection calls a fourth when it closes, and posts a call
of a fifth when its backlog reaches the high water mark.
-/

namespace LearnMuduo

open Framework

/-- The setters of `TcpServer`. -/
inductive ServerSetter
  | setConnectionChangeCallback
  | setMessageCallback
  | setWriteCompleteCallback
  deriving DecidableEq, Repr

/-- Which callbacks of a server are not empty. -/
structure ServerCallbacks where
  connectionChange : Bool
  message : Bool
  writeComplete : Bool
  deriving DecidableEq, Repr

namespace ServerCallbacks

/-- The constructor sets two of them. -/
def default : ServerCallbacks := ⟨true, true, false⟩

/-- A callback is installed. -/
def install (s : ServerCallbacks) : ServerSetter → ServerCallbacks
  | .setConnectionChangeCallback => { s with connectionChange := true }
  | .setMessageCallback => { s with message := true }
  | .setWriteCompleteCallback => { s with writeComplete := true }

/-- The user has installed some callbacks. -/
def installed (setters : List ServerSetter) : ServerCallbacks := setters.foldl install default

end ServerCallbacks

/-- Which callbacks of a connection are not empty. -/
structure ConnectionCallbacks where
  connectionChange : Bool
  message : Bool
  writeComplete : Bool
  close : Bool
  highWaterMark : Bool
  deriving DecidableEq, Repr

/-- A new connection has none, and `newConnection` sets three. -/
def ServerCallbacks.newConnection (s : ServerCallbacks) : ConnectionCallbacks where
  connectionChange := s.connectionChange
  message := s.message
  writeComplete := s.writeComplete
  close := false
  highWaterMark := false

/-- The `std::function` that is called is not empty. -/
def ConnectionCallbacks.has (callbacks : ConnectionCallbacks) : Call → Bool
  | .connectionChange _ => callbacks.connectionChange
  | .close => callbacks.close
  | .message => callbacks.message
  | .writeComplete => callbacks.writeComplete
  | .highWaterMark _ => callbacks.highWaterMark

/-- A fatal error, as `sendInLoop` takes it. -/
def WriteResult.isFault : WriteResult → Bool
  | .failed .epipe => true
  | .failed .econnreset => true
  | _ => false

namespace ServerCallbacks

theorem installed_defaults (setters : List ServerSetter) :
    (installed setters).connectionChange = true ∧ (installed setters).message = true := by
  have hkeep : ∀ s : ServerCallbacks, s.connectionChange = true ∧ s.message = true →
      (setters.foldl install s).connectionChange = true ∧
        (setters.foldl install s).message = true := by
    induction setters with
    | nil => exact fun _ hs => hs
    | cons setter setters ih =>
        intro s hs
        refine ih _ ?_
        cases setter with
        | setConnectionChangeCallback => exact ⟨rfl, hs.2⟩
        | setMessageCallback => exact ⟨hs.1, rfl⟩
        | setWriteCompleteCallback => exact hs
  exact hkeep default ⟨rfl, rfl⟩

end ServerCallbacks

namespace TcpConnection

variable {c c' c'' : TcpConnection} {op : ConnOp} {ops : List ConnOp}

/-- The bytes of a message that `sendInLoop` does not write directly. -/
def unwritten (c : TcpConnection) (message : Memory) (result : WriteResult) : Nat :=
  if c.writesDirectly then message.bytes.length - result.count else message.bytes.length

/-- The step is a `sendInLoop` that lets the backlog reach the high water mark. -/
def ReachesMark (c : TcpConnection) : ConnOp → Prop
  | .sendInLoop message result =>
      c.state ≠ .disconnected ∧ ¬ (c.writesDirectly = true ∧ result.isFault = true) ∧
        0 < c.unwritten message result ∧ c.sendBuf.readableBytes < highWaterMark ∧
        highWaterMark ≤ c.sendBuf.readableBytes + c.unwritten message result
  | _ => False

/-- The calls that do no harm. -/
def Harmless (hasWriteCompleteCb : Bool) : Call → Prop
  | .connectionChange _ => True
  | .close => False
  | .message => True
  | .writeComplete => hasWriteCompleteCb = true
  | .highWaterMark _ => False

/-- Only harmless calls are added. -/
structure Wired (c c' : TcpConnection) : Prop where
  same : c'.hasWriteCompleteCb = c.hasWriteCompleteCb
  calls : ∃ calls, c'.calls = c.calls ++ calls ∧ ∀ x ∈ calls, Harmless c.hasWriteCompleteCb x

namespace Wired

theorem of_eq (hsame : c'.hasWriteCompleteCb = c.hasWriteCompleteCb) (hcalls : c'.calls = c.calls) :
    Wired c c' :=
  ⟨hsame, [], by rw [hcalls, List.append_nil], by simp⟩

theorem trans (h : Wired c c') (h' : Wired c' c'') : Wired c c'' := by
  rcases h.calls with ⟨calls, hcalls, hharmless⟩
  rcases h'.calls with ⟨calls', hcalls', hharmless'⟩
  refine ⟨h'.same.trans h.same, calls ++ calls', ?_, fun x hx => ?_⟩
  · rw [hcalls', hcalls, List.append_assoc]
  · rcases List.mem_append.mp hx with hx | hx
    · exact hharmless x hx
    · rw [← h.same]
      exact hharmless' x hx

theorem call {callback : Call} (hharmless : Harmless c.hasWriteCompleteCb callback) :
    Wired c (c.call callback) := by
  refine ⟨rfl, [callback], rfl, fun x hx => ?_⟩
  rw [List.mem_singleton.mp hx]
  exact hharmless

theorem postWriteComplete (c : TcpConnection) : Wired c c.postWriteComplete := by
  rw [TcpConnection.postWriteComplete]
  split
  · rename_i hhas
    exact call hhas
  · exact of_eq rfl rfl

theorem shutdownInLoop (c : TcpConnection) : Wired c c.shutdownInLoop := by
  rw [TcpConnection.shutdownInLoop]
  split
  · exact of_eq rfl rfl
  · exact of_eq rfl rfl

theorem handleReadWith (c : TcpConnection) {result : ReadvResult} (hend : result.isEnd = false) :
    Wired c (c.handleReadWith result).val := by
  have hread : ∀ recvBuf, Wired c { c with recvBuf := recvBuf } := fun _ => of_eq rfl rfl
  have hn := readFromFd_fst c.recvBuf result
  simp only [TcpConnection.handleReadWith, Checked.val_bind, Checked.val_ite, Checked.val_pure, hn]
  cases result with
  | failed errno => exact hread _
  | scattered bytes =>
      cases bytes with
      | nil => exact absurd hend.symm Bool.false_ne_true
      | cons byte bytes =>
          have hpos : (0 : Int) < ((byte :: bytes).length : Int) := by
            rw [List.length_cons]
            omega
          simp only [if_pos hpos]
          exact (hread _).trans (call trivial)

theorem handleWrite (c : TcpConnection) (result : WriteResult) :
    Wired c (c.handleWrite result).val := by
  have hflushed : Wired c (c.flushed result.count) := of_eq rfl rfl
  have hdrained : ∀ c₁ : TcpConnection, Wired c₁ c₁.drained := by
    intro c₁
    have hposted : Wired c₁ _ :=
      (of_eq rfl rfl : Wired c₁ { c₁ with channel := c₁.channel.disableWrite }).trans
        (postWriteComplete _)
    rw [drained]
    split
    · exact hposted.trans (shutdownInLoop _)
    · exact hposted
  rw [handleWrite_val]
  split
  · split
    · exact hflushed.trans (hdrained _)
    · exact hflushed
  · exact of_eq rfl rfl

theorem handleEvents (c : TcpConnection) {currEvents : BitVec 32} {read : ReadvResult}
    {write : WriteResult} (hclosings : c.closings (.handleEvents currEvents read write) = 0) :
    Wired c (c.handleEvents currEvents read write).val := by
  have hwrite : ∀ c₁, Wired c c₁ → Wired c
      (if currEvents &&& Channel.pollOut ≠ 0 then (c₁.handleWrite write).val else c₁) := by
    intro c₁ h
    split
    · exact h.trans (handleWrite c₁ write)
    · exact h
  rw [handleEvents_val]
  cases hhup : hangsUp currEvents with
  | true => simp [closings, hhup] at hclosings
  | false =>
      cases hreads : reads currEvents with
      | true =>
          have hend : read.isEnd = false := by simpa [closings, hhup, hreads] using hclosings
          exact hwrite _ (handleReadWith c hend)
      | false => exact hwrite _ (of_eq rfl rfl)

theorem runTask (c : TcpConnection) {task : Task}
    (hquiet : ¬ (c.isUp = true ∧ task = .forceCloseInLoop)) : Wired c (c.runTask task).val := by
  cases task with
  | shutdownInLoop => exact shutdownInLoop c
  | forceCloseInLoop =>
      have hdown : c.isUp = false := by simpa using hquiet
      show Wired c c.forceCloseInLoop.val
      rw [forceCloseInLoop_val, hdown]
      exact of_eq rfl rfl
  | startReadInLoop =>
      show Wired c c.startReadInLoop
      rw [startReadInLoop]
      split
      · exact of_eq rfl rfl
      · exact of_eq rfl rfl
  | stopReadInLoop =>
      show Wired c c.stopReadInLoop
      rw [stopReadInLoop]
      split
      · exact of_eq rfl rfl
      · exact of_eq rfl rfl

theorem postTask_mt (c : TcpConnection) (inLoopThread : Bool) {task : Task}
    (htask : task ≠ .forceCloseInLoop) : Wired c (c.postTask_mt inLoopThread task).val := by
  cases inLoopThread with
  | true => exact runTask c fun h => htask h.2
  | false => exact of_eq rfl rfl

end Wired

section SendInLoop

theorem wired_written (c : TcpConnection) (message : Memory) (result : WriteResult) :
    Wired c (c.written message result).1 := by
  have haccept : ∀ bytes, Wired c { c with socket := c.socket.accept bytes } := fun _ =>
    Wired.of_eq rfl rfl
  rw [written]
  split
  · cases result with
    | failed errno => exact Wired.of_eq rfl rfl
    | accepted n =>
        simp only [writeDirectly]
        split
        · exact (haccept _).trans (Wired.postWriteComplete _)
        · exact haccept _
  · exact Wired.of_eq rfl rfl

theorem written_remain (c : TcpConnection) (message : Memory) (result : WriteResult) :
    (c.written message result).2.remain = c.unwritten message result ∧
      ((c.written message result).2.faultError = true ↔
        c.writesDirectly = true ∧ result.isFault = true) := by
  rw [written, unwritten]
  by_cases hdirect : c.writesDirectly = true
  · rw [if_pos hdirect, if_pos hdirect]
    cases result with
    | accepted n => simp [writeDirectly, WriteResult.count, WriteResult.isFault]
    | failed errno => cases errno <;> simp [writeDirectly, WriteResult.count, WriteResult.isFault,
        hdirect]
  · rw [if_neg hdirect, if_neg hdirect]
    simp [hdirect]

theorem calls_appendRemaining (c : TcpConnection) (message : Memory) (locals : SendLocals) :
    (c.appendRemaining message locals).val.calls = (c.reportHighWaterMark locals.remain).calls ∧
      (c.appendRemaining message locals).val.hasWriteCompleteCb =
        (c.reportHighWaterMark locals.remain).hasWriteCompleteCb := by
  rw [appendRemaining_val]
  dsimp only
  split
  · exact ⟨rfl, rfl⟩
  · exact ⟨rfl, rfl⟩

theorem wired_sendInLoop {message : Memory} {result : WriteResult}
    (hnot : ¬ c.ReachesMark (.sendInLoop message result)) :
    Wired c (c.sendInLoop message message.bytes.length result).val := by
  by_cases hstate : c.state = .disconnected
  · rw [sendInLoop, if_pos hstate]
    exact Wired.of_eq rfl rfl
  · have hwritten := wired_written c message result
    rcases written_remain c message result with ⟨hremain, hfault⟩
    have hsendBuf := (kept_written c message result).sendBuf
    rw [c.sendInLoop_val message result hstate]
    split
    · rename_i hrest
      rcases calls_appendRemaining (c.written message result).1 message
        (c.written message result).2 with ⟨hcalls, hsame⟩
      have hreport : (c.written message result).1.reportHighWaterMark
          (c.written message result).2.remain = (c.written message result).1 := by
        rw [Bool.and_eq_true, Bool.not_eq_true', decide_eq_true_iff, hremain] at hrest
        have hgood : ¬ (c.writesDirectly = true ∧ result.isFault = true) := by
          rw [← hfault, hrest.1]
          exact Bool.false_ne_true
        rw [reportHighWaterMark, if_neg]
        rw [hsendBuf, hremain, Bool.and_eq_true, decide_eq_true_iff, decide_eq_true_iff]
        intro hmark
        exact hnot ⟨hstate, hgood, hrest.2, hmark.2, hmark.1⟩
      rw [hreport] at hcalls hsame
      exact hwritten.trans (Wired.of_eq hsame hcalls)
    · exact hwritten

theorem ReachesMark.mem_calls {message : Memory} {result : WriteResult}
    (h : c.ReachesMark (.sendInLoop message result)) :
    .highWaterMark (c.sendBuf.readableBytes + c.unwritten message result) ∈
      (c.sendInLoop message message.bytes.length result).val.calls := by
  rcases h with ⟨hstate, hgood, hrest, hbelow, hmark⟩
  rcases written_remain c message result with ⟨hremain, hfault⟩
  have hsendBuf := (kept_written c message result).sendBuf
  have happends : (!(c.written message result).2.faultError &&
      decide (0 < (c.written message result).2.remain)) = true := by
    rw [Bool.and_eq_true, Bool.not_eq_true', decide_eq_true_iff, hremain]
    exact ⟨Bool.eq_false_iff.mpr fun htrue => hgood (hfault.mp htrue), hrest⟩
  have hcond : (decide (highWaterMark ≤ (c.written message result).1.sendBuf.readableBytes +
      (c.written message result).2.remain) &&
      decide ((c.written message result).1.sendBuf.readableBytes < highWaterMark)) = true := by
    rw [hsendBuf, hremain, Bool.and_eq_true, decide_eq_true_iff, decide_eq_true_iff]
    exact ⟨hmark, hbelow⟩
  have hpositive : highWaterMark ≠ 0 := by decide
  rw [c.sendInLoop_val message result hstate, if_pos happends,
    (calls_appendRemaining _ message _).1, reportHighWaterMark, if_pos hcond, if_pos hpositive,
    hsendBuf, hremain]
  exact List.mem_append_right _ List.mem_cons_self

end SendInLoop

section Same

theorem same_handleReadWith (c : TcpConnection) (result : ReadvResult) :
    (c.handleReadWith result).val.hasWriteCompleteCb = c.hasWriteCompleteCb := by
  cases hend : result.isEnd with
  | false => exact (Wired.handleReadWith c hend).same
  | true =>
      rcases c.handleReadWith_cases result with ⟨_, recvBuf, hval⟩ | ⟨hnot, _⟩
      · rw [hval]
        rfl
      · exact absurd (hend.symm.trans hnot) (by decide)

theorem same_handleEvents (c : TcpConnection) (currEvents : BitVec 32) (read : ReadvResult)
    (write : WriteResult) :
    (c.handleEvents currEvents read write).val.hasWriteCompleteCb = c.hasWriteCompleteCb := by
  have hclose : (if hangsUp currEvents then c.closed else c).hasWriteCompleteCb =
      c.hasWriteCompleteCb := by
    split
    · rfl
    · rfl
  rw [handleEvents_val, ← hclose]
  generalize (if hangsUp currEvents then c.closed else c) = c₁
  have hread : (if reads currEvents then (c₁.handleReadWith read).val else c₁).hasWriteCompleteCb =
      c₁.hasWriteCompleteCb := by
    split
    · exact same_handleReadWith c₁ read
    · rfl
  dsimp only
  rw [← hread]
  split
  · exact (Wired.handleWrite _ write).same
  · rfl

theorem same_sendInLoop (c : TcpConnection) (message : Memory) (result : WriteResult) :
    (c.sendInLoop message message.bytes.length result).val.hasWriteCompleteCb =
      c.hasWriteCompleteCb := by
  by_cases hstate : c.state = .disconnected
  · rw [sendInLoop, if_pos hstate]
    rfl
  · have hreport : ∀ (c₁ : TcpConnection) (remain : Nat),
        (c₁.reportHighWaterMark remain).hasWriteCompleteCb = c₁.hasWriteCompleteCb := by
      intro c₁ remain
      rw [reportHighWaterMark]
      split
      · split
        · rfl
        · rfl
      · rfl
    rw [c.sendInLoop_val message result hstate]
    split
    · rw [(calls_appendRemaining _ message _).2, hreport]
      exact (wired_written c message result).same
    · exact (wired_written c message result).same

theorem same_runTask (c : TcpConnection) (task : Task) :
    (c.runTask task).val.hasWriteCompleteCb = c.hasWriteCompleteCb := by
  by_cases htask : c.isUp = true ∧ task = .forceCloseInLoop
  · rw [htask.2]
    show c.forceCloseInLoop.val.hasWriteCompleteCb = _
    rw [forceCloseInLoop_val, htask.1]
    rfl
  · exact (Wired.runTask c htask).same

theorem same_apply (c : TcpConnection) (op : ConnOp) :
    (c.apply op).val.hasWriteCompleteCb = c.hasWriteCompleteCb := by
  cases op with
  | connectionEstablished => rfl
  | handleEvents currEvents read write => exact same_handleEvents c currEvents read write
  | handleRead result => exact same_handleReadWith c result
  | handleWrite result => exact (Wired.handleWrite c result).same
  | handleClose =>
      show c.handleClose.val.hasWriteCompleteCb = _
      rw [handleClose_val]
      rfl
  | sendInLoop message result => exact same_sendInLoop c message result
  | shutdown_mt inLoopThread =>
      show (c.shutdown_mt inLoopThread).val.hasWriteCompleteCb = _
      rw [shutdown_mt]
      split
      · exact (Wired.postTask_mt _ inLoopThread (by decide)).same
      · rfl
  | forceClose =>
      show c.forceClose.hasWriteCompleteCb = _
      rw [forceClose]
      split
      · rfl
      · rfl
  | forceCloseInLoop => exact same_runTask c .forceCloseInLoop
  | startRead inLoopThread => exact (Wired.postTask_mt c inLoopThread (by decide)).same
  | stopRead inLoopThread => exact (Wired.postTask_mt c inLoopThread (by decide)).same
  | runTask =>
      show c.runNextTask.val.hasWriteCompleteCb = _
      rw [runNextTask]
      cases c.tasks with
      | nil => rfl
      | cons task tasks => exact same_runTask { c with tasks := tasks } task
  | connectionDestroyed =>
      show c.connectionDestroyed.val.hasWriteCompleteCb = _
      rw [connectionDestroyed]
      split
      · rfl
      · rfl

end Same

theorem wired_shutdown_mt (c : TcpConnection) (inLoopThread : Bool) :
    Wired c (c.shutdown_mt inLoopThread).val := by
  have hset : Wired c (c.setState .connecting) := Wired.of_eq rfl rfl
  rw [shutdown_mt]
  split
  · exact hset.trans (Wired.postTask_mt _ inLoopThread (by decide))
  · exact Wired.of_eq rfl rfl

theorem wired_runNextTask (c : TcpConnection) (hclosings : c.closings .runTask = 0) :
    Wired c c.runNextTask.val := by
  rw [runNextTask]
  cases htasks : c.tasks with
  | nil => exact Wired.of_eq rfl rfl
  | cons task tasks =>
      have htaken : Wired c { c with tasks := tasks } := Wired.of_eq rfl rfl
      refine htaken.trans (Wired.runTask _ fun hruns => ?_)
      have hup : c.isUp = true := hruns.1
      simp [closings, htasks, hup, hruns.2] at hclosings

theorem wired_connectionDestroyed (c : TcpConnection) : Wired c c.connectionDestroyed.val := by
  by_cases hstate : c.state = .connected
  · refine ⟨same_apply c .connectionDestroyed, [.connectionChange .disconnected], ?_, ?_⟩
    · simp [connectionDestroyed, Channel.remove, hstate, setState, TcpConnection.call]
    · intro x hx
      rw [List.mem_singleton.mp hx]
      trivial
  · have hval : c.connectionDestroyed.val = c := by
      simp [connectionDestroyed, Channel.remove, hstate]
    rw [hval]
    exact Wired.of_eq rfl rfl

end TcpConnection

open TcpConnection in
theorem ConnStep.wired {c c' : TcpConnection} {op : ConnOp} (hstep : ConnStep c op c')
    (hclosings : c.closings op = 0) (hmark : ¬ c.ReachesMark op) : Wired c c' := by
  rcases hstep with ⟨_, heq⟩
  subst heq
  cases op with
  | connectionEstablished =>
      have hset : Wired c { c.setState .connected with channel := c.channel.enableRead } :=
        Wired.of_eq rfl rfl
      exact hset.trans (Wired.call trivial)
  | handleEvents currEvents read write => exact Wired.handleEvents c hclosings
  | handleRead result =>
      refine Wired.handleReadWith c ?_
      cases hend : result.isEnd with
      | false => rfl
      | true => simp [closings, hend] at hclosings
  | handleWrite result => exact Wired.handleWrite c result
  | handleClose => exact absurd hclosings Nat.one_ne_zero
  | sendInLoop message result => exact wired_sendInLoop hmark
  | shutdown_mt inLoopThread => exact wired_shutdown_mt c inLoopThread
  | forceClose =>
      show Wired c c.forceClose
      rw [forceClose]
      split
      · exact Wired.of_eq rfl rfl
      · exact Wired.of_eq rfl rfl
  | forceCloseInLoop =>
      have hrun : Wired c (c.runTask .forceCloseInLoop).val := by
        refine Wired.runTask c fun hruns => ?_
        simp [closings, hruns.1] at hclosings
      exact hrun
  | startRead inLoopThread => exact Wired.postTask_mt c inLoopThread (by decide)
  | stopRead inLoopThread => exact Wired.postTask_mt c inLoopThread (by decide)
  | runTask => exact wired_runNextTask c hclosings
  | connectionDestroyed => exact wired_connectionDestroyed c

/-- A step that calls no empty `std::function`, whatever the user has installed. -/
def SafeCallStep (c : TcpConnection) (op : ConnOp) (c' : TcpConnection) : Prop :=
  ConnStep c op c' ∧ c.closings op = 0 ∧ ¬ c.ReachesMark op

namespace TcpConnection

variable {c c' : TcpConnection} {op : ConnOp} {ops : List ConnOp}

/-- Every callback that was called or posted is not empty. -/
def CallsNonEmpty (callbacks : ConnectionCallbacks) (c : TcpConnection) : Prop :=
  ∀ call ∈ c.calls, callbacks.has call = true

theorem has_of_harmless {setters : List ServerSetter} {call : Call}
    (hharmless : Harmless (ServerCallbacks.installed setters).writeComplete call) :
    (ServerCallbacks.installed setters).newConnection.has call = true := by
  rcases ServerCallbacks.installed_defaults setters with ⟨hchange, hmessage⟩
  cases call with
  | connectionChange state => exact hchange
  | close => exact hharmless.elim
  | message => exact hmessage
  | writeComplete => exact hharmless
  | highWaterMark size => exact hharmless.elim

theorem callsNonEmpty_step_iff {setters : List ServerSetter}
    (hsame : c.hasWriteCompleteCb = (ServerCallbacks.installed setters).writeComplete)
    (hstep : ConnStep c op c') :
    CallsNonEmpty (ServerCallbacks.installed setters).newConnection c' ↔
      CallsNonEmpty (ServerCallbacks.installed setters).newConnection c ∧
        c.closings op = 0 ∧ ¬ c.ReachesMark op := by
  have hreported := hstep.does.reported
  constructor
  · intro hall
    refine ⟨fun call hcall => hall call (hreported.calls.subset hcall), ?_, fun hmark => ?_⟩
    · by_contra hpos
      have hclose : Call.close ∈ c'.calls := by
        rw [← List.count_pos_iff, hreported.close]
        omega
      exact Bool.false_ne_true (hall .close hclose)
    · cases op with
      | sendInLoop message result =>
          have hmem := hmark.mem_calls
          rw [hstep.2] at hall
          exact Bool.false_ne_true (hall _ hmem)
      | _ => exact hmark.elim
  · intro h
    rcases h with ⟨hall, hclosings, hmark⟩
    rcases (hstep.wired hclosings hmark).calls with ⟨calls, hcalls, hharmless⟩
    intro call hcall
    rw [hcalls] at hcall
    rcases List.mem_append.mp hcall with hold | hnew
    · exact hall call hold
    · have hgood := hharmless call hnew
      rw [hsame] at hgood
      exact has_of_harmless hgood

/-- The server makes its connections so. -/
theorem callbacks_addConnection {T L : Type} [DecidableEq T] [DecidableEq L] {threadId : L → T}
    {strict : Bool} {s : TcpServer T L} {setters : List ServerSetter}
    (hserver : s.hasWriteCompleteCb = (ServerCallbacks.installed setters).writeComplete)
    (sockfd : Int) (pending : List UInt8) :
    ∃ c, (s.addConnection (.code threadId strict) sockfd pending).val.connections =
        s.connections ++ [c] ∧
      c.conn = create sockfd pending (ServerCallbacks.installed setters).writeComplete ∧
      c.hasCloseCb = (ServerCallbacks.installed setters).newConnection.close := by
  refine ⟨_, rfl, ?_, rfl⟩
  rw [hserver]

/-- Whatever callbacks the user installs, a connection calls no empty one in exactly those runs in
which it is not closed and its backlog does not reach the high water mark. -/
theorem callsNonEmpty_iff {setters : List ServerSetter} {sockfd : Int} {pending : List UInt8}
    (h : Run ConnStep
      (create sockfd pending (ServerCallbacks.installed setters).writeComplete) ops c) :
    CallsNonEmpty (ServerCallbacks.installed setters).newConnection c ↔
      Run SafeCallStep
        (create sockfd pending (ServerCallbacks.installed setters).writeComplete) ops c := by
  refine h.iff_forall_good
    (I := fun c => c.hasWriteCompleteCb = (ServerCallbacks.installed setters).writeComplete)
    connStep_deterministic (fun t e u ht hstep => ?_)
    (fun _ _ _ ht hstep => callsNonEmpty_step_iff ht hstep) rfl ?_
  · rw [hstep.2, same_apply]
    exact ht
  · intro call hcall
    exact absurd hcall List.not_mem_nil

/-- All callbacks are installed, and the peer closes. -/
theorem close_is_empty : ∃ c,
    Run ConnStep
        (create 5 [] (ServerCallbacks.installed [.setConnectionChangeCallback, .setMessageCallback,
          .setWriteCompleteCallback]).writeComplete) [.connectionEstablished, .handleClose] c ∧
      .close ∈ c.calls ∧
      ¬ CallsNonEmpty (ServerCallbacks.installed [.setConnectionChangeCallback,
        .setMessageCallback, .setWriteCompleteCallback]).newConnection c := by
  refine ⟨_, (Run.nil.snoc ⟨by decide, rfl⟩).snoc ⟨by decide, rfl⟩, by decide, fun hall => ?_⟩
  exact Bool.false_ne_true (hall .close (by decide))

theorem callsNonEmpty_sent : ∃ c,
    Run ConnStep (create 5 [] (ServerCallbacks.installed []).writeComplete)
        [.connectionEstablished, .sendInLoop ⟨0, [1, 2]⟩ (.accepted 2)] c ∧
      CallsNonEmpty (ServerCallbacks.installed []).newConnection c := by
  have hrun : Run SafeCallStep (create 5 [] (ServerCallbacks.installed []).writeComplete)
      [.connectionEstablished, .sendInLoop ⟨0, [1, 2]⟩ (.accepted 2)] _ :=
    (Run.nil.snoc ⟨⟨by decide, rfl⟩, rfl, not_false⟩).snoc
      ⟨⟨by decide, rfl⟩, rfl, fun hmark => absurd hmark.2.2.1 (by decide)⟩
  exact ⟨_, hrun.mono fun _ _ _ h => h.1,
    (callsNonEmpty_iff (hrun.mono fun _ _ _ h => h.1)).mpr hrun⟩

end TcpConnection

end LearnMuduo
