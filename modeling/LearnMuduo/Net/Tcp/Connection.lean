import LearnMuduo.Framework.MachineInt
import LearnMuduo.Net.Buffer
import LearnMuduo.Net.Channel

/-!
# A TCP connection

`TcpConnection` as its loop thread runs it. The kernel's side of the socket is part of the
state: bytes it has for the connection, bytes it took from it, and whether the write side was
shut down. Each system call that can go several ways takes its result as an argument. The
callbacks are taken as set, but for the write complete callback, which the source tests for; those
that are made are recorded in order, and do nothing to the connection. On the loop thread
`postTask_mt` runs its task at once; from another thread it queues the task.
-/

namespace LearnMuduo

open Framework

inductive StateE
  | connecting
  | connected
  | disconnecting
  | disconnected
  deriving DecidableEq, Repr

inductive Errno
  | ewouldblock
  | epipe
  | econnreset
  | other (code : Nat)
  deriving DecidableEq, Repr

/-- What `::write` answers: a count, or -1 with an error number. -/
inductive WriteResult
  | accepted (count : Nat)
  | failed (errno : Errno)
  deriving DecidableEq, Repr

/-- What `readv` answers: the bytes it scattered, or -1 with an error number. -/
inductive ReadvResult
  | scattered (bytes : List UInt8)
  | failed (errno : Errno)
  deriving DecidableEq, Repr

/-- The memory behind a `const void*` argument: the byte before it, and the bytes from it on. -/
structure Memory where
  before : UInt8
  bytes : List UInt8
  deriving DecidableEq, Repr

/-- The `len` bytes at `pointer + offset`, for an offset of at least -1. -/
def Memory.read (m : Memory) (offset : Int) (len : Nat) : List UInt8 :=
  ((m.before :: m.bytes).drop (offset + 1).toNat).take len

structure Socket where
  pending : List UInt8
  accepted : List UInt8
  writeShut : Bool
  deriving DecidableEq, Repr

def Socket.accept (s : Socket) (bytes : List UInt8) : Socket :=
  { s with accepted := s.accepted ++ bytes }

def Socket.shutdownWrite (s : Socket) : Socket := { s with writeShut := true }

/-- The body of `SocketUtils::readv` is `return 0`: it calls no `::readv` and touches no socket. -/
def SocketUtils.readv (_socket : Socket) (_offered : Nat) : ReadvResult := .scattered []

namespace Buffer

def extraBufSize : Nat := 65536

/-- How many bytes `readFromFd` offers to `readv`. -/
def offered (b : Buffer) : Nat :=
  if b.writableBytes < extraBufSize then b.writableBytes + extraBufSize else b.writableBytes

/-- `readFromFd` for a given outcome of its `readv`: the returned count, the saved error number
and the buffer. Bytes beyond the writable ones were scattered into `extraBuf`. -/
def readFromFd (b : Buffer) (result : ReadvResult) : Checked (Int × Option Errno × Buffer) :=
  match result with
  | .failed errno => pure (-1, some errno, b)
  | .scattered bytes =>
      let writable := b.writableBytes
      let b := b.copyToWritePos (bytes.take writable)
      if bytes.length ≤ writable then
        pure (bytes.length, none, { b with writePos := b.writePos + bytes.length })
      else do
        let b ← { b with writePos := b.vec.length }.append (bytes.drop writable)
        pure (bytes.length, none, b)

end Buffer

inductive Task
  | shutdownInLoop
  | forceCloseInLoop
  | startReadInLoop
  | stopReadInLoop
  deriving DecidableEq, Repr

/-- A callback made by the connection, with the state it was made in. -/
inductive Call
  | connectionChange (state : StateE)
  | close
  | message
  | writeComplete
  | highWaterMark (size : Nat)
  deriving DecidableEq, Repr

structure TcpConnection where
  state : StateE
  reading : Bool
  channel : Channel
  socket : Socket
  recvBuf : Buffer
  sendBuf : Buffer
  hasWriteCompleteCb : Bool
  tasks : List Task
  calls : List Call
  deriving DecidableEq, Repr

namespace TcpConnection

def highWaterMark : Nat := 64 * 1024 * 1024

/-- A new connection on `sockfd`, with `pending` bytes already waiting in the socket. -/
def create (sockfd : Int) (pending : List UInt8) (hasWriteCompleteCb : Bool) : TcpConnection where
  state := .connecting
  reading := true
  channel := Channel.create sockfd
  socket := ⟨pending, [], false⟩
  recvBuf := Buffer.create 0 0
  sendBuf := Buffer.create 0 0
  hasWriteCompleteCb := hasWriteCompleteCb
  tasks := []
  calls := []

def queueTask (c : TcpConnection) (task : Task) : TcpConnection :=
  { c with tasks := c.tasks ++ [task] }

def call (c : TcpConnection) (callback : Call) : TcpConnection :=
  { c with calls := c.calls ++ [callback] }

def setState (c : TcpConnection) (state : StateE) : TcpConnection := { c with state := state }

/-- `if(m_writeCompleteCb)` post a call of it. -/
def postWriteComplete (c : TcpConnection) : TcpConnection :=
  if c.hasWriteCompleteCb then c.call .writeComplete else c

def handleClose (c : TcpConnection) : Checked TcpConnection := do
  Checked.assert (c.state == .connected || c.state == .disconnected)
  let c := c.setState .disconnected
  let c := { c with channel := c.channel.disableAll }
  pure ((c.call (.connectionChange c.state)).call .close)

/-- `handleRead` for a given outcome of `readv`; `handleError` only reads and logs. -/
def handleReadWith (c : TcpConnection) (result : ReadvResult) : Checked TcpConnection := do
  let (n, _savedErrno, recvBuf) ← c.recvBuf.readFromFd result
  let c := { c with recvBuf := recvBuf }
  if 0 < n then pure (c.call .message)
  else if n = 0 then c.handleClose
  else pure c

def handleRead (c : TcpConnection) : Checked TcpConnection :=
  c.handleReadWith (SocketUtils.readv c.socket c.recvBuf.offered)

def shutdownInLoop (c : TcpConnection) : TcpConnection :=
  if !c.channel.isWriting then { c with socket := c.socket.shutdownWrite } else c

def handleWrite (c : TcpConnection) (result : WriteResult) : Checked TcpConnection :=
  if c.channel.isWriting then
    match result with
    | .failed _ => pure c
    | .accepted n =>
        if 0 < n then do
          let c := { c with socket := c.socket.accept (c.sendBuf.readable.take n) }
          let sendBuf ← c.sendBuf.retrieve n
          let c := { c with sendBuf := sendBuf }
          if c.sendBuf.readableBytes = 0 then
            let c := { c with channel := c.channel.disableWrite }
            let c := c.postWriteComplete
            if c.state = .disconnecting then pure c.shutdownInLoop else pure c
          else pure c
        else pure c
  else pure c

/-- The locals of `sendInLoop` after its attempt to write directly. -/
structure SendLocals where
  remain : Nat
  sent : Int
  faultError : Bool
  deriving DecidableEq, Repr

/-- `!m_channel->isWriting() && m_sendBuf.readableBytes() == 0` -/
def writesDirectly (c : TcpConnection) : Bool :=
  !c.channel.isWriting && c.sendBuf.readableBytes == 0

def writeDirectly (c : TcpConnection) (message : Memory) (len : Nat) (result : WriteResult) :
    TcpConnection × SendLocals :=
  match result with
  | .accepted n =>
      let remain := len - n
      let c := { c with socket := c.socket.accept (message.bytes.take n) }
      (if remain = 0 then c.postWriteComplete else c, ⟨remain, n, false⟩)
  | .failed errno => (c, ⟨len, -1, errno == .epipe || errno == .econnreset⟩)

/-- The tail of `sendInLoop`: what was not written goes to the backlog. -/
def appendRemaining (c : TcpConnection) (message : Memory) (locals : SendLocals) :
    Checked TcpConnection := do
  let oldLen := c.sendBuf.readableBytes
  let c :=
    if highWaterMark ≤ oldLen + locals.remain && decide (oldLen < highWaterMark) then
      if highWaterMark ≠ 0 then c.call (.highWaterMark (oldLen + locals.remain)) else c
    else c
  let sendBuf ←
    c.sendBuf.append (message.read locals.sent (sizeOfInt (intOfSize locals.remain)))
  let c := { c with sendBuf := sendBuf }
  pure (if !c.channel.isWriting then { c with channel := c.channel.enableWrite } else c)

/-- `sendInLoop(message, len)`; `result` is what `::write` answers if it is called. -/
def sendInLoop (c : TcpConnection) (message : Memory) (len : Nat) (result : WriteResult) :
    Checked TcpConnection :=
  if c.state = .disconnected then pure c
  else do
    let (c, locals) :=
      if c.writesDirectly then c.writeDirectly message len result else (c, ⟨len, 0, false⟩)
    Checked.assert (0 ≤ locals.sent)
    if !locals.faultError && decide (0 < locals.remain) then c.appendRemaining message locals
    else pure c

def connectionEstablished (c : TcpConnection) : Checked TcpConnection := do
  Checked.assert (c.state == .connecting)
  let c := c.setState .connected
  let c := { c with channel := c.channel.enableRead }
  pure (c.call (.connectionChange c.state))

def connectionDestroyed (c : TcpConnection) : Checked TcpConnection := do
  let c :=
    if c.state = .connected then
      let c := c.setState .disconnected
      let c := { c with channel := c.channel.disableAll }
      c.call (.connectionChange c.state)
    else c
  let channel ← c.channel.remove
  pure { c with channel := channel }

def startReadInLoop (c : TcpConnection) : TcpConnection :=
  if !c.reading || !c.channel.isReading then
    { c with channel := c.channel.enableRead, reading := true }
  else c

def stopReadInLoop (c : TcpConnection) : TcpConnection :=
  if c.reading || c.channel.isReading then
    { c with channel := c.channel.disableRead, reading := false }
  else c

def forceCloseInLoop (c : TcpConnection) : Checked TcpConnection :=
  if c.state = .connected ∨ c.state = .disconnecting then c.handleClose else pure c

def runTask (c : TcpConnection) : Task → Checked TcpConnection
  | .shutdownInLoop => pure c.shutdownInLoop
  | .forceCloseInLoop => c.forceCloseInLoop
  | .startReadInLoop => pure c.startReadInLoop
  | .stopReadInLoop => pure c.stopReadInLoop

def postTask_mt (c : TcpConnection) (inLoopThread : Bool) (task : Task) : Checked TcpConnection :=
  if inLoopThread then c.runTask task else pure (c.queueTask task)

def shutdown_mt (c : TcpConnection) (inLoopThread : Bool) : Checked TcpConnection :=
  if c.state = .connected then
    (c.setState .connecting).postTask_mt inLoopThread .shutdownInLoop
  else pure c

def startRead (c : TcpConnection) (inLoopThread : Bool) : Checked TcpConnection :=
  c.postTask_mt inLoopThread .startReadInLoop

def stopRead (c : TcpConnection) (inLoopThread : Bool) : Checked TcpConnection :=
  c.postTask_mt inLoopThread .stopReadInLoop

def forceClose (c : TcpConnection) : TcpConnection :=
  if c.state = .connected ∨ c.state = .disconnecting then
    (c.setState .disconnecting).queueTask .forceCloseInLoop
  else c

end TcpConnection

end LearnMuduo
