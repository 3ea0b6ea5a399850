import LearnMuduo.Net.Tcp.Connection
import Mathlib.Logic.Function.Iterate

/-!
# The input stream of a connection

`readFromFd` and `handleRead` are right for every count that a `readv` may return: what it
scattered joins the receive buffer and the message callback runs. The wrapper they call always
returns zero, which `handleRead` takes for the end of the stream.
-/

namespace LearnMuduo

open Framework

namespace Buffer

theorem Represents.readFromFd {b : Buffer} {q bytes : List UInt8} (h : b.Represents q) :
    ∃ b' : Buffer, (b.readFromFd (.scattered bytes)).val = ((bytes.length : Int), none, b') ∧
      b'.Represents (q ++ bytes) := by
  rw [Buffer.readFromFd.eq_def]
  by_cases hfits : bytes.length ≤ b.writableBytes
  · have htake : bytes.take b.writableBytes = bytes := List.take_of_length_le hfits
    have hqueue := h.advance hfits
    refine ⟨_, ?_, hqueue⟩
    simp [hfits, htake, copyToWritePos]
  · have hwrite := h.write_le_size
    have hroom : (bytes.take b.writableBytes).length = b.writableBytes := by
      rw [List.length_take]
      omega
    have hfull := h.advance (Nat.le_of_eq hroom)
    have hend : b.writePos + (bytes.take b.writableBytes).length =
        (b.copyToWritePos (bytes.take b.writableBytes)).vec.length := by
      show _ = (overwrite b.vec b.writePos (bytes.take b.writableBytes)).length
      rw [writableBytes] at hroom ⊢
      rw [length_overwrite (by omega)]
      omega
    rw [hend] at hfull
    have hqueue := hfull.append (bytes.drop b.writableBytes)
    rw [List.append_assoc, List.take_append_drop] at hqueue
    refine ⟨_, ?_, hqueue⟩
    simp [hfits]

end Buffer

namespace TcpConnection

/-- A non-empty prefix of the pending bytes became readable. -/
def Appends (c c' : TcpConnection) : Prop :=
  ∃ k, 0 < k ∧ k ≤ c.socket.pending.length ∧
    c'.recvBuf.readable = c.recvBuf.readable ++ c.socket.pending.take k

/-- The message callback was called between `c` and `c'`. -/
def InvokesMessage (c c' : TcpConnection) : Prop :=
  ∃ calls, c'.calls = c.calls ++ calls ∧ .message ∈ calls

def Closes (c c' : TcpConnection) : Prop :=
  c'.state = .disconnected ∨ ∃ calls, c'.calls = c.calls ++ calls ∧ .close ∈ calls

/-- With a `readv` that returns what it scattered, a readable event delivers it. -/
theorem handleReadWith_delivers {c : TcpConnection} {q : List UInt8} {k : Nat}
    (hq : c.recvBuf.Represents q) (hstate : c.state = .connected) (hk : 0 < k)
    (hpending : k ≤ c.socket.pending.length) :
    let c' := (c.handleReadWith (.scattered (c.socket.pending.take k))).val
    c.Appends c' ∧ c.InvokesMessage c' ∧ ¬ c.Closes c' := by
  have hlen : (c.socket.pending.take k).length = k := by
    rw [List.length_take]
    omega
  obtain ⟨b', hread, hb'⟩ := @Buffer.Represents.readFromFd _ _ (c.socket.pending.take k) hq
  have hpos : (0 : Int) < k := by omega
  simp only [handleReadWith, Checked.val_bind, hread, hlen, if_pos hpos, Checked.val_pure]
  refine ⟨⟨k, hk, hpending, ?_⟩, ⟨[.message], rfl, by decide⟩, ?_⟩
  · show b'.readable = _
    rw [hb'.readable_eq, hq.readable_eq]
  · intro hcloses
    rcases hcloses with hclosed | ⟨calls, hcalls, hclose⟩
    · have hopen : c.state = .disconnected := hclosed
      rw [hstate] at hopen
      exact StateE.noConfusion hopen
    · have hsame : calls = [.message] := List.append_cancel_left hcalls.symm
      rw [hsame] at hclose
      exact absurd hclose (by decide)

theorem handleRead_val (c : TcpConnection) (q : List UInt8) (hq : c.recvBuf.Represents q) :
    ∃ b' : Buffer, b'.Represents q ∧ c.handleRead.val =
      { c with
        recvBuf := b'
        state := .disconnected
        channel := c.channel.disableAll
        calls := c.calls ++ [.connectionChange .disconnected, .close] } := by
  obtain ⟨b', hread, hb'⟩ := @Buffer.Represents.readFromFd _ _ [] hq
  rw [List.append_nil] at hb'
  refine ⟨b', hb', ?_⟩
  simp [handleRead, SocketUtils.readv, handleReadWith, hread, handleClose, setState, call]

/-- Nothing is read, however many readable events there are. -/
structure Unread (c c' : TcpConnection) : Prop where
  buffer : ∃ q, c'.recvBuf.Represents q
  readable : c'.recvBuf.readable = c.recvBuf.readable
  socket : c'.socket = c.socket
  messages : c'.calls.count .message = c.calls.count .message

theorem Unread.handleRead {c c' : TcpConnection} (h : c.Unread c') :
    c.Unread c'.handleRead.val := by
  rcases h.buffer with ⟨q, hq⟩
  obtain ⟨b', hb', hval⟩ := c'.handleRead_val q hq
  rw [hval]
  refine ⟨⟨q, hb'⟩, ?_, h.socket, ?_⟩
  · show b'.readable = _
    rw [hb'.readable_eq, ← h.readable, hq.readable_eq]
  · show (c'.calls ++ [Call.connectionChange .disconnected, .close]).count Call.message = _
    rw [List.count_append, h.messages]
    rfl

/-- `n` readable events in a row. -/
def handleReads (n : Nat) : TcpConnection → TcpConnection := (fun c => c.handleRead.val)^[n]

theorem handleReads_unread {c : TcpConnection} {q : List UInt8} (hq : c.recvBuf.Represents q)
    (n : Nat) : c.Unread (handleReads n c) := by
  induction n with
  | zero => exact ⟨⟨q, hq⟩, rfl, rfl, rfl⟩
  | succ n ih =>
      rw [handleReads, Function.iterate_succ_apply']
      exact ih.handleRead

/-- Pending data is never read: a readable event closes the connection without calling the message
callback, and no run of readable events takes a byte. -/
theorem handleRead_never_delivers (c : TcpConnection) (q : List UInt8)
    (hq : c.recvBuf.Represents q) :
    (¬ c.Appends c.handleRead.val ∧ ¬ c.InvokesMessage c.handleRead.val ∧
        c.Closes c.handleRead.val) ∧
      ∀ n, (handleReads n c).recvBuf.readable = c.recvBuf.readable ∧
        (handleReads n c).socket.pending = c.socket.pending := by
  obtain ⟨b', hb', hval⟩ := c.handleRead_val q hq
  refine ⟨⟨?_, ?_, ?_⟩, fun n => ?_⟩
  · intro happended
    rcases happended with ⟨k, hk, hle, happends⟩
    have hreadable : c.handleRead.val.recvBuf.readable = c.recvBuf.readable := by
      rw [hval, hq.readable_eq]
      exact hb'.readable_eq
    have hlen := congrArg List.length happends
    rw [hreadable, List.length_append, List.length_take] at hlen
    omega
  · intro hinvoked
    rcases hinvoked with ⟨calls, hcalls, hmessage⟩
    rw [hval] at hcalls
    have hsame : calls = [.connectionChange .disconnected, .close] :=
      List.append_cancel_left hcalls.symm
    rw [hsame] at hmessage
    exact absurd hmessage (by decide)
  · rw [hval]
    exact Or.inl rfl
  · have hunread := handleReads_unread hq n
    exact ⟨hunread.readable, congrArg Socket.pending hunread.socket⟩

/-- An established connection on descriptor 5 with one byte pending. -/
def arrived : TcpConnection := (create 5 [65] false).connectionEstablished.val

theorem handleRead_never_delivers_arrived :
    (¬ arrived.Appends arrived.handleRead.val ∧ ¬ arrived.InvokesMessage arrived.handleRead.val ∧
        arrived.Closes arrived.handleRead.val) ∧
      ∀ n, (handleReads n arrived).recvBuf.readable = arrived.recvBuf.readable ∧
        (handleReads n arrived).socket.pending = arrived.socket.pending :=
  handleRead_never_delivers arrived [] Buffer.Represents.create

/-- The pending byte stays where it is, and the connection reports itself closed. -/
theorem handleRead_arrived_closes :
    arrived.state = .connected ∧ arrived.socket.pending = [65] ∧
      arrived.handleRead.val.recvBuf.readable = [] ∧
      arrived.handleRead.val.socket.pending = [65] ∧
      arrived.handleRead.val.state = .disconnected ∧
      arrived.handleRead.val.calls =
        [.connectionChange .connected, .connectionChange .disconnected, .close] := by
  obtain ⟨b', hb', hval⟩ := arrived.handleRead_val [] Buffer.Represents.create
  rw [hval]
  exact ⟨rfl, rfl, hb'.readable_eq, rfl, rfl, rfl⟩

end TcpConnection

end LearnMuduo
