import Mathlib.Data.Finset.Basic
import LearnMuduo.Net.Server.TcpServer

/-!
# Accepting

`Acceptor::handleRead` takes a connection from the kernel and hands a descriptor on: through the
callback to `newConnection`, and from there to the socket and to the channel of a connection, which
closes it in the end. Without a callback the descriptor is closed. If the process has no descriptor
left, the reserve is given up for as long as it takes to accept and close.
-/

namespace LearnMuduo

open Framework

/-- The errors of `accept4`. The ones with a name are those that `SocketUtils::accept` returns
with. -/
inductive AcceptErrno
  | eagain
  | econnaborted
  | eintr
  | eproto
  | eperm
  | emfile
  | other (code : Nat)
  deriving DecidableEq, Repr

/-- What `accept4` answers: a descriptor, or -1 with an error number. -/
inductive AcceptResult
  | accepted (connfd : Int)
  | failed (errno : AcceptErrno)
  deriving DecidableEq, Repr

/-- `SocketUtils::accept` does not return from any other error. -/
def AcceptErrno.isFatal : AcceptErrno → Bool
  | .other _ => true
  | _ => false

structure Acceptor where
  listenFd : Int
  idleFd : Int
  hasNewConnectionCb : Bool
  deriving DecidableEq, Repr

/-- What `handleRead` did with a descriptor that an `accept` returned: the connections that it made,
by the descriptors of their sockets and of their channels, and whether it closed the descriptor. -/
structure Returned where
  connfd : Int
  given : List (Int × Int)
  closed : Bool
  deriving DecidableEq, Repr

/-- An acceptor, its server and the descriptors that are open. `destructed`: the connections whose
destructor has run. -/
structure Accepting (T L : Type) where
  acceptor : Acceptor
  server : TcpServer T L
  openFds : Finset Int
  destructed : List Nat
  returned : List Returned

/-- What the kernel answers in one `handleRead`: the result of the `accept`, and, where the
descriptors are exhausted, that of the second `accept` and of the `open` of the reserve, -1 for an
error. `pending` has come in on the new connection already. -/
structure AcceptAnswers where
  result : AcceptResult
  again : Int
  reopened : Int
  pending : List UInt8
  deriving DecidableEq, Repr

/-- The descriptors of the connections' sockets and channels. -/
def TcpServer.fds {T L : Type} (s : TcpServer T L) : List (Int × Int) :=
  s.connections.map fun c => (c.sockfd, c.conn.channel.fd)

namespace Accepting

variable {T L : Type} [DecidableEq T] [DecidableEq L] (env : ServerEnv T L)

def opened (s : Accepting T L) (fd : Int) : Accepting T L :=
  { s with openFds := insert fd s.openFds }

/-- `::close`, which fails for -1. -/
def close (s : Accepting T L) (fd : Int) : Accepting T L :=
  { s with openFds := s.openFds.erase fd }

def record (s : Accepting T L) (r : Returned) : Accepting T L :=
  { s with returned := s.returned ++ [r] }

/-- The callback of the server, called with `sockfd` for the accepted `connfd`. -/
def newConnectionCb (s : Accepting T L) (connfd sockfd : Int) (pending : List UInt8) (t : T) :
    Accepting T L :=
  let server := (s.server.newConnection env sockfd pending t).val
  { s with server := server }.record ⟨connfd, server.fds.drop s.server.fds.length, false⟩

/-- The reserve is closed, a connection is accepted in its place and closed, and the reserve is
opened again. -/
def recycle (s : Accepting T L) (again reopened : Int) : Accepting T L :=
  let s := s.close s.acceptor.idleFd
  let s := if 0 ≤ again then ((s.opened again).close again).record ⟨again, [], true⟩ else s
  let s := if 0 ≤ reopened then s.opened reopened else s
  { s with acceptor := { s.acceptor with idleFd := reopened } }

/-- `handleRead` on the thread `t`; `handed` is what the callback is called with, given the
descriptor of the listening socket and the accepted one. -/
def handleReadWith (handed : Int → Int → Int) (s : Accepting T L) (t : T)
    (answers : AcceptAnswers) : Accepting T L :=
  if env.passes s.server.pool.baseLoop t then
    match answers.result with
    | .accepted connfd =>
        let s := s.opened connfd
        if s.acceptor.hasNewConnectionCb then
          s.newConnectionCb env connfd (handed s.acceptor.listenFd connfd) answers.pending t
        else (s.close connfd).record ⟨connfd, [], true⟩
    | .failed errno =>
        if errno.isFatal then { s with server := s.server.abort }
        else if errno = .emfile then s.recycle answers.again answers.reopened
        else s
  else { s with server := s.server.abort }

/-- `m_NewConnectionCb(m_socket.getFd(), peerAddr)` -/
def handed (listenFd _connfd : Int) : Int := listenFd

def handleRead (s : Accepting T L) (t : T) (answers : AcceptAnswers) : Accepting T L :=
  s.handleReadWith env handed t answers

/-- `~TcpConnection`, with the destructor of its socket. -/
def destruct (s : Accepting T L) (i : Nat) : Accepting T L :=
  match s.server.connections[i]? with
  | none => s
  | some c => { s.close c.sockfd with destructed := i :: s.destructed }

end Accepting

/-- The listening socket is readable, or the last reference to a connection goes. -/
inductive AcceptLabel (T : Type)
  | readable (t : T) (answers : AcceptAnswers)
  | destruct (i : Nat)

namespace Accepting

variable {T L : Type} [DecidableEq T] [DecidableEq L] (env : ServerEnv T L)

/-- A descriptor that the kernel may hand out. -/
def Free (openFds : Finset Int) (fd : Int) : Prop := 0 ≤ fd ∧ fd ∉ openFds

/-- The kernel accepts on an open socket only, and returns descriptors that are free. -/
def Answers (s : Accepting T L) (answers : AcceptAnswers) : Prop :=
  match answers.result with
  | .accepted connfd => s.acceptor.listenFd ∈ s.openFds ∧ Free s.openFds connfd
  | .failed _ =>
      (answers.again = -1 ∨ s.acceptor.listenFd ∈ s.openFds.erase s.acceptor.idleFd ∧
        Free (s.openFds.erase s.acceptor.idleFd) answers.again) ∧
      (answers.reopened = -1 ∨ Free (s.openFds.erase s.acceptor.idleFd) answers.reopened)

def Enabled (s : Accepting T L) : AcceptLabel T → Prop
  | .readable _ answers => s.Answers answers
  | .destruct i => i < s.server.connections.length ∧ i ∉ s.destructed

def apply (handed : Int → Int → Int) (s : Accepting T L) : AcceptLabel T → Accepting T L
  | .readable t answers => s.handleReadWith env handed t answers
  | .destruct i => s.destruct i

/-- The acceptor listens, and nothing was accepted yet. -/
def listening (acceptor : Acceptor) (server : TcpServer T L) (openFds : Finset Int) :
    Accepting T L :=
  ⟨acceptor, server, openFds, [], []⟩

end Accepting

def AcceptStep {T L : Type} [DecidableEq T] [DecidableEq L] (env : ServerEnv T L)
    (handed : Int → Int → Int) (s : Accepting T L) (e : AcceptLabel T) (s' : Accepting T L) :
    Prop :=
  s.server.aborted = false ∧ s.Enabled e ∧ s' = s.apply env handed e

end LearnMuduo
