import Mathlib.Data.List.AList
import LearnMuduo.Net.Tcp.Lifecycle

/-!
# The server

`TcpServer` accepts on its base loop and spreads its connections over the loops of a pool. A
`TcpConnectionPtr` is a position in `connections`, which lists the connections in the order in which
they were made. A loop runs its tasks and dispatches its events on its thread, `threadId`; a call of
`postTask_mt` on that thread runs the task at once, any other queues it.

A queued task holds its connection and its message here. The lambdas of `removeConnection`,
`removeConnectionInLoop`, `~TcpServer` and `send_mt` capture `conn` and `message` by reference, and
these are gone when the task runs: what is shown of queued tasks is about lambdas that capture them
by value.
-/

namespace LearnMuduo

open Framework

/-- `m_next` is a position of `m_loops`. -/
structure EventLoopThreadPool (L : Type) where
  baseLoop : L
  started : Bool
  loops : List L
  next : Nat
  next_lt : loops ≠ [] → next < loops.length

namespace EventLoopThreadPool

variable {L : Type}

/-- A pool that was started and has handed out no loop. -/
def ofLoops (baseLoop : L) (loops : List L) : EventLoopThreadPool L :=
  ⟨baseLoop, true, loops, 0, List.length_pos_iff.mpr⟩

/-- Round-robin over the loops of the pool. The owner-thread check is the caller's own. -/
def getNextLoop (p : EventLoopThreadPool L) : Checked (L × EventLoopThreadPool L) := do
  Checked.assert p.started
  if h : p.loops = [] then pure (p.baseLoop, p)
  else
    let next := if p.loops.length ≤ p.next + 1 then 0 else p.next + 1
    have hnext : p.loops ≠ [] → next < p.loops.length := fun _ => by
      have hpos := List.length_pos_iff.mpr h
      dsimp only [next]
      split
      · exact hpos
      · omega
    pure (p.loops.get ⟨p.next, p.next_lt h⟩, { p with next := next, next_lt := hnext })

theorem getNextLoop_of_nil {p : EventLoopThreadPool L} (h : p.loops = []) :
    p.getNextLoop.val = (p.baseLoop, p) := by
  rw [getNextLoop, dif_pos h]
  rfl

theorem getNextLoop_mem {p : EventLoopThreadPool L} (h : p.loops ≠ []) :
    p.getNextLoop.val.1 ∈ p.loops := by
  rw [getNextLoop, dif_neg h]
  exact List.get_mem _ _

theorem getNextLoop_loops (p : EventLoopThreadPool L) :
    p.getNextLoop.val.2.loops = p.loops ∧ p.getNextLoop.val.2.baseLoop = p.baseLoop := by
  by_cases h : p.loops = []
  · rw [getNextLoop_of_nil h]
    exact ⟨rfl, rfl⟩
  · rw [getNextLoop, dif_neg h]
    exact ⟨rfl, rfl⟩

end EventLoopThreadPool

/-- `%d` -/
def decimal : Int → List Char
  | .ofNat n => Nat.toDigits 10 n
  | .negSucc n => '-' :: Nat.toDigits 10 (n + 1)

theorem decimal_natCast_inj {m n : Nat} (h : decimal m = decimal n) : m = n := by
  have hdigits : Nat.toDigits 10 m = Nat.toDigits 10 n := h
  have hvalue := congrArg (fun ds => Nat.ofDigitChars 10 ds 0) hdigits
  simpa only [Nat.ofDigitChars_ten_toDigits] using hvalue

/-- What the constructor and the setters of a connection fix. -/
structure ConnectionInfo (L : Type) where
  ioLoop : L
  connName : List Char
  sockfd : Int
  hasCloseCb : Bool
  deriving DecidableEq, Repr

structure ServerConnection (L : Type) extends ConnectionInfo L where
  conn : TcpConnection
  deriving DecidableEq, Repr

inductive ServerTask
  | removeConnectionInLoop (i : Nat)
  | connectionDestroyed (i : Nat)
  | sendInLoop (i : Nat) (message : Memory)
  deriving DecidableEq, Repr

/-- An operation of a connection, and the thread it was executed on. -/
structure Executed (T : Type) where
  conn : Nat
  op : ConnOp
  thread : T
  deriving DecidableEq, Repr

/-- The operations that begin with `assertInCurrentThread`, or make such calls only. -/
def ConnOp.inLoop : ConnOp → Bool
  | .shutdown_mt _ => false
  | .forceClose => false
  | .startRead _ => false
  | .stopRead _ => false
  | _ => true

/-- The threads of the loops; whether a failed `assertInCurrentThread` is fatal; whether
`newConnection` sets the close callback. -/
structure ServerEnv (T L : Type) where
  threadId : L → T
  strict : Bool
  setsCloseCb : Bool

/-- `newConnection` sets the callbacks for connection changes, messages and completed writes. -/
def ServerEnv.code {T L : Type} (threadId : L → T) (strict : Bool) : ServerEnv T L :=
  ⟨threadId, strict, false⟩

/-- `assertInCurrentThread` returns. -/
def ServerEnv.passes {T L : Type} [DecidableEq T] (env : ServerEnv T L) (l : L) (t : T) : Bool :=
  !env.strict || decide (t = env.threadId l)

theorem ServerEnv.passes_threadId {T L : Type} [DecidableEq T] (env : ServerEnv T L) (l : L) :
    env.passes l (env.threadId l) = true := by
  simp [passes]

theorem ServerEnv.passes_of_not_strict {T L : Type} [DecidableEq T] {env : ServerEnv T L}
    (h : env.strict = false) (l : L) (t : T) : env.passes l t = true := by
  simp [passes, h]

/-- Besides the members: the connections that were made, the queues of the loops, and what was
executed so far. `threw`: an empty close callback was called. -/
structure TcpServer (T L : Type) where
  serverName : List Char
  nextConnId : Int
  pool : EventLoopThreadPool L
  connectionMap : AList fun _ : List Char => Nat
  hasWriteCompleteCb : Bool
  connections : List (ServerConnection L)
  queues : L → List ServerTask
  executed : List (Executed T)
  alive : Bool
  aborted : Bool
  threw : Bool

namespace TcpServer

variable {T L : Type} [DecidableEq T] [DecidableEq L] (env : ServerEnv T L)

/-- A server without connections. -/
def create (serverName : List Char) (pool : EventLoopThreadPool L) (hasWriteCompleteCb : Bool) :
    TcpServer T L where
  serverName := serverName
  nextConnId := 1
  pool := pool
  connectionMap := ∅
  hasWriteCompleteCb := hasWriteCompleteCb
  connections := []
  queues := fun _ => []
  executed := []
  alive := true
  aborted := false
  threw := false

def abort (s : TcpServer T L) : TcpServer T L := { s with aborted := true }

def queueTask (s : TcpServer T L) (l : L) (task : ServerTask) : TcpServer T L :=
  { s with queues := Function.update s.queues l (s.queues l ++ [task]) }

def removeConnectionInLoop (s : TcpServer T L) (i : Nat) (t : T) : Checked (TcpServer T L) :=
  if env.passes s.pool.baseLoop t then
    match s.connections[i]? with
    | none => pure s
    | some c => do
        Checked.assert (s.connectionMap.lookup c.connName).isSome
        let s := { s with connectionMap := s.connectionMap.erase c.connName }
        pure (s.queueTask c.ioLoop (.connectionDestroyed i))
  else pure s.abort

def removeConnection (s : TcpServer T L) (i : Nat) (t : T) : Checked (TcpServer T L) :=
  if t = env.threadId s.pool.baseLoop then s.removeConnectionInLoop env i t
  else pure (s.queueTask s.pool.baseLoop (.removeConnectionInLoop i))

def record (s : TcpServer T L) (i : Nat) (op : ConnOp) (t : T) : TcpServer T L :=
  { s with executed := s.executed ++ [⟨i, op, t⟩] }

def setConn (s : TcpServer T L) (i : Nat) (c : ServerConnection L) (conn : TcpConnection) :
    TcpServer T L :=
  { s with connections := s.connections.set i { c with conn := conn } }

/-- The connection at `i` executes `op` on the thread `t`. The close callback is what is called last
in every operation that calls it. -/
def perform (s : TcpServer T L) (i : Nat) (op : ConnOp) (t : T) : Checked (TcpServer T L) :=
  match s.connections[i]? with
  | none => pure s
  | some c =>
      let s := s.record i op t
      if op.inLoop && !env.passes c.ioLoop t then pure s.abort
      else do
        let conn ← c.conn.apply op
        let s := s.setConn i c conn
        if c.conn.calls.count .close < conn.calls.count .close then
          if c.hasCloseCb then s.removeConnection env i t else pure { s with threw := true }
        else pure s

/-- `newConnection` up to its call of `connectionEstablished`. -/
def addConnection (s : TcpServer T L) (sockfd : Int) (pending : List UInt8) :
    Checked (TcpServer T L) := do
  let (ioLoop, pool) ← s.pool.getNextLoop
  let connName := s.serverName ++ '#' :: decimal s.nextConnId
  let c : ServerConnection L :=
    { ioLoop := ioLoop
      connName := connName
      sockfd := sockfd
      hasCloseCb := env.setsCloseCb
      conn := TcpConnection.create sockfd pending s.hasWriteCompleteCb }
  pure
    { s with
      nextConnId := wrapInt (s.nextConnId + 1)
      pool := pool
      connections := s.connections ++ [c]
      connectionMap := s.connectionMap.insert connName s.connections.length }

/-- `pending` has come in on the socket already. -/
def newConnection (s : TcpServer T L) (sockfd : Int) (pending : List UInt8) (t : T) :
    Checked (TcpServer T L) :=
  if env.passes s.pool.baseLoop t then do
    let added ← s.addConnection env sockfd pending
    added.perform env s.connections.length .connectionEstablished t
  else pure s.abort

/-- What `~TcpServer` does for one entry of the map. -/
def postDestroyed (s : TcpServer T L) (i : Nat) (t : T) : Checked (TcpServer T L) :=
  match s.connections[i]? with
  | none => pure s
  | some c =>
      if t = env.threadId c.ioLoop then s.perform env i .connectionDestroyed t
      else pure (s.queueTask c.ioLoop (.connectionDestroyed i))

/-- `~TcpServer`, which goes through the map in some order. -/
def destroy (s : TcpServer T L) (order : List (Sigma fun _ : List Char => Nat)) (t : T) :
    Checked (TcpServer T L) :=
  if env.passes s.pool.baseLoop t then do
    let s ← order.foldlM (fun s entry => s.postDestroyed env entry.2 t) s
    pure { s with alive := false, connectionMap := ∅ }
  else pure s.abort

/-- `send_mt(message, len)` on the thread `t`. -/
def send_mt (s : TcpServer T L) (i : Nat) (t : T) (message : Memory) (result : WriteResult) :
    Checked (TcpServer T L) :=
  match s.connections[i]? with
  | none => pure s
  | some c =>
      if c.conn.state = .connected then
        if t = env.threadId c.ioLoop then s.perform env i (.sendInLoop message result) t
        else pure (s.queueTask c.ioLoop (.sendInLoop i message))
      else pure s

/-- `result` is what `::write` answers if the task comes to call it. -/
def runTask (s : TcpServer T L) (l : L) (result : WriteResult) : Checked (TcpServer T L) :=
  match s.queues l with
  | [] => pure s
  | task :: tasks =>
      let s := { s with queues := Function.update s.queues l tasks }
      match task with
      | .removeConnectionInLoop i => s.removeConnectionInLoop env i (env.threadId l)
      | .connectionDestroyed i => s.perform env i .connectionDestroyed (env.threadId l)
      | .sendInLoop i message => s.perform env i (.sendInLoop message result) (env.threadId l)

end TcpServer

/-- The calls that any thread may make. A delayed forced close is a forced close by the loop. -/
inductive UserCall
  | shutdown_mt
  | forceClose
  | startRead
  | stopRead
  deriving DecidableEq, Repr

def UserCall.op (inLoopThread : Bool) : UserCall → ConnOp
  | .shutdown_mt => .shutdown_mt inLoopThread
  | .forceClose => .forceClose
  | .startRead => .startRead inLoopThread
  | .stopRead => .stopRead inLoopThread

/-- The handlers that a channel calls; a dispatch is a sequence of such calls. -/
def ConnOp.isHandler : ConnOp → Bool
  | .handleRead _ => true
  | .handleWrite _ => true
  | .handleClose => true
  | _ => false

def ConnOp.isDispatch : ConnOp → Bool
  | .handleEvents _ _ _ => true
  | _ => false

/-- What happens to a server and to its connections. -/
inductive ServerLabel (T L : Type)
  | accept (sockfd : Int) (pending : List UInt8)
  | handle (i : Nat) (op : ConnOp)
  | runConnTask (i : Nat)
  | call (i : Nat) (t : T) (call : UserCall)
  | send_mt (i : Nat) (t : T) (message : Memory) (result : WriteResult)
  | runTask (l : L) (result : WriteResult)
  | destroy (order : List (Sigma fun _ : List Char => Nat)) (t : T)

/-- The acceptor has called `newConnection`. -/
def ServerLabel.isAccept {T L : Type} : ServerLabel T L → Bool
  | .accept _ _ => true
  | _ => false

namespace TcpServer

variable {T L : Type} [DecidableEq T] [DecidableEq L] (env : ServerEnv T L)

/-- A connection of the server that allows the operation. -/
def Allows (s : TcpServer T L) (i : Nat) (op : ConnOp) : Prop :=
  ∃ c, s.connections[i]? = some c ∧ c.conn.Allowed op

/-- The task can be executed, with `result` for an answer. -/
def CanRun (s : TcpServer T L) (result : WriteResult) : ServerTask → Prop
  | .removeConnectionInLoop _ => s.alive = true
  | .connectionDestroyed _ => True
  | .sendInLoop i message => s.Allows i (.sendInLoop message result)

/-- What the callers, the loops and the kernel keep to. -/
def Enabled (s : TcpServer T L) : ServerLabel T L → Prop
  | .accept _ _ => s.alive = true
  | .handle i op => op.isHandler = true ∧ s.Allows i op
  | .runConnTask i => s.Allows i .runTask
  | .call i _ call => s.Allows i (call.op true)
  | .send_mt i _ message result => s.Allows i (.sendInLoop message result)
  | .runTask l result => ∃ task, (s.queues l).head? = some task ∧ s.CanRun result task
  | .destroy order _ => s.alive = true ∧ order.Perm s.connectionMap.entries

/-- On the thread of the connection's loop. -/
def performInLoop (s : TcpServer T L) (i : Nat) (op : ConnOp) : Checked (TcpServer T L) :=
  match s.connections[i]? with
  | none => pure s
  | some c => s.perform env i op (env.threadId c.ioLoop)

/-- A call of the user, which tests whether it is made in the loop. -/
def userCall (s : TcpServer T L) (i : Nat) (t : T) (call : UserCall) : Checked (TcpServer T L) :=
  match s.connections[i]? with
  | none => pure s
  | some c => s.perform env i (call.op (decide (t = env.threadId c.ioLoop))) t

def apply (s : TcpServer T L) : ServerLabel T L → Checked (TcpServer T L)
  | .accept sockfd pending =>
      s.newConnection env sockfd pending (env.threadId s.pool.baseLoop)
  | .handle i op => s.performInLoop env i op
  | .runConnTask i => s.performInLoop env i .runTask
  | .call i t call => s.userCall env i t call
  | .send_mt i t message result => s.send_mt env i t message result
  | .runTask l result => s.runTask env l result
  | .destroy order t => s.destroy env order t

theorem connections_removeConnectionInLoop (s : TcpServer T L) (i : Nat) (t : T) :
    (s.removeConnectionInLoop env i t).val.connections = s.connections := by
  rw [removeConnectionInLoop]
  split
  · cases s.connections[i]? with
    | none => rfl
    | some c => rfl
  · rfl

theorem connections_removeConnection (s : TcpServer T L) (i : Nat) (t : T) :
    (s.removeConnection env i t).val.connections = s.connections := by
  rw [removeConnection]
  split
  · exact connections_removeConnectionInLoop env s i t
  · rfl

end TcpServer

/-- A step of the release build, of a program that was not aborted. -/
def ServerStep {T L : Type} [DecidableEq T] [DecidableEq L] (env : ServerEnv T L)
    (s : TcpServer T L) (e : ServerLabel T L) (s' : TcpServer T L) : Prop :=
  s.aborted = false ∧ s.Enabled e ∧ s' = (s.apply env e).val

end LearnMuduo
