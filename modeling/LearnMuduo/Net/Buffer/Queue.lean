import LearnMuduo.Framework.Fifo
import LearnMuduo.Framework.Run
import LearnMuduo.Net.Tcp.Input

/-!
# The buffer as a byte queue

What the users of a `Buffer` do with it, as data. Each operation does to the readable bytes what an
operation of a first-in first-out queue does to its content, wherever the positions are and
whichever way room is found, so a run of operations is a run of queue operations.
-/

namespace LearnMuduo

open Framework

/-- A call of a member of `Buffer`. `written data len` copies `data` to the memory at
`getWritePos()` and calls `hasWritten(len)`. -/
inductive BufferOp
  | append (data : List UInt8)
  | appendInt32 (x : BitVec 32)
  | ensureSpace (len : Nat)
  | written (data : List UInt8) (len : Nat)
  | retrieve (len : Nat)
  | retrieveAll
  | peekInt32
  | readFromFd (result : ReadvResult)
  deriving DecidableEq, Repr

namespace BufferOp

def apply (b : Buffer) : BufferOp → Checked Buffer
  | append data => b.append data
  | appendInt32 x => b.appendInt32 x
  | ensureSpace len => b.ensureSpace len
  | written data len => (b.copyToWritePos data).hasWritten len
  | retrieve len => b.retrieve len
  | retrieveAll => pure b.retrieveAll
  | peekInt32 => do
      let _ ← b.peekInt32
      pure b
  | readFromFd result => do
      let (_, _, b) ← b.readFromFd result
      pure b

/-- The operation on the queue. -/
def toFifo : BufferOp → FifoOp UInt8
  | append data => .put data
  | appendInt32 x => .put (hostToNetwork32 x)
  | written data len => .put (data.take len)
  | retrieve len => .take len
  | retrieveAll => .clear
  | readFromFd (.scattered bytes) => .put bytes
  | _ => .keep

/-- What a caller has to see to, when nothing is asserted: copied bytes have room, those that
`hasWritten` announces were copied, and no more is retrieved than can be read. -/
def Fits (b : Buffer) : BufferOp → Prop
  | written data len => data.length ≤ b.writableBytes ∧ len ≤ data.length
  | retrieve len => len ≤ b.readableBytes
  | readFromFd (.scattered bytes) => bytes.length ≤ b.offered
  | _ => True

end BufferOp

def QueueStep (b : Buffer) (op : BufferOp) (b' : Buffer) : Prop :=
  op.Fits b ∧ b' = (op.apply b).val

namespace Buffer

variable {b b' : Buffer} {q : List UInt8} {ops : List BufferOp}

theorem Represents.written (h : b.Represents q) {data : List UInt8} {len : Nat}
    (hroom : data.length ≤ b.writableBytes) (hlen : len ≤ data.length) :
    ((b.copyToWritePos data).hasWritten len).val.Represents (q ++ data.take len) := by
  have hadvance := h.advance hroom
  have hwrite := h.write_le_size
  have hread := h.read_le_write
  have hsize := hadvance.write_le_size
  apply Represents.of_drop_take
  · exact Nat.le_add_right_of_le hread
  · exact Nat.le_trans (Nat.add_le_add_left hlen b.writePos) hsize
  · -- the bytes of the whole copy, cut at the announced length
    have hcut : ((overwrite b.vec b.writePos data).take (b.writePos + len)) =
        ((overwrite b.vec b.writePos data).take (b.writePos + data.length)).take
          (b.writePos + len) := by
      rw [List.take_take, Nat.min_eq_left (by omega)]
    have hlength : (b.vec.take b.writePos).length = b.writePos := by
      rw [List.length_take, Nat.min_eq_left hwrite]
    have htake : (b.vec.take b.writePos ++ data).take (b.writePos + len) =
        b.vec.take b.writePos ++ data.take len := by
      rw [List.take_append, hlength, Nat.add_sub_cancel_left,
        List.take_of_length_le (by rw [hlength]; exact Nat.le_add_right _ _)]
    show ((overwrite b.vec b.writePos data).take (b.writePos + len)).drop b.readPos = _
    rw [hcut, take_overwrite hwrite, htake,
      List.drop_append_of_le_length (by rw [hlength]; exact hread), ← h.eq_drop_take]

theorem Represents.ofReadv (h : b.Represents q) (result : ReadvResult) :
    ((BufferOp.readFromFd result).apply b).val.Represents
      ((BufferOp.readFromFd result).toFifo.apply q) := by
  cases result with
  | failed errno => exact h
  | scattered bytes =>
      obtain ⟨b', hval, hb'⟩ := @Represents.readFromFd b q bytes h
      simp only [BufferOp.apply, Checked.val_bind, hval, Checked.val_pure]
      exact hb'

theorem Represents.apply (h : b.Represents q) {op : BufferOp} (hop : op.Fits b) :
    (op.apply b).val.Represents (op.toFifo.apply q) := by
  cases op with
  | append data => exact h.append data
  | appendInt32 x => exact h.appendInt32 x
  | ensureSpace len => exact h.ensureSpace len
  | written data len => exact h.written hop.1 hop.2
  | retrieve len => exact h.retrieve len
  | retrieveAll => exact Represents.retrieveAll b
  | peekInt32 => exact h
  | readFromFd result => exact h.ofReadv result

/-- A run of operations is a run of the queue. -/
theorem Represents.run (h : b.Represents q) (hrun : Run QueueStep b ops b') :
    b'.Represents (Fifo.run q (ops.map BufferOp.toFifo)) := by
  induction hrun with
  | nil => exact h
  | snoc _ hstep ih =>
      rcases hstep with ⟨hfits, rfl⟩
      simp only [List.map_append, List.map_cons, List.map_nil, Fifo.run_append_singleton]
      exact ih.apply hfits

/-- After any sequence of operations the positions are in order and inside the vector, and the
readable bytes are those of the queue; room that is asked for is there; and a word at the front of
the queue is read back as it was appended. -/
theorem refines_fifo (h : Run QueueStep (create 0 0) ops b) :
    b.Represents (Fifo.run [] (ops.map BufferOp.toFifo)) ∧
      (∀ len, len ≤ (b.ensureSpace len).val.writableBytes) ∧
      ∀ (x : BitVec 32) (rest : List UInt8),
        Fifo.run [] (ops.map BufferOp.toFifo) = hostToNetwork32 x ++ rest →
          b.peekInt32.val = x := by
  have hqueue := Represents.create.run h
  refine ⟨hqueue, hqueue.writableBytes_ensureSpace, ?_⟩
  intro x rest hfront
  rw [hfront] at hqueue
  rw [hqueue.peekInt32 (by simp), networkToHost32_hostToNetwork32]

/-- A word is appended behind a byte, and the byte is retrieved. -/
def wordBehindByte : List BufferOp :=
  [.append [7], .appendInt32 258, .retrieve 1]

theorem refines_fifo_wordBehindByte : ∃ b, Run QueueStep (create 0 0) wordBehindByte b ∧
    b.readable = [0, 0, 1, 2] ∧ b.peekInt32.val = 258 := by
  have hfits : (BufferOp.retrieve 1).Fits
      (((create 0 0).append [7]).val.appendInt32 258).val := by
    have hqueue := (Represents.create.append [7]).appendInt32 258
    simp only [BufferOp.Fits, hqueue.length_eq, List.length_append]
    exact Nat.le_add_right 1 _
  have hrun : Run QueueStep (create 0 0) wordBehindByte _ :=
    ((Run.nil.snoc ⟨trivial, rfl⟩).snoc ⟨trivial, rfl⟩).snoc ⟨hfits, rfl⟩
  have hrefines := refines_fifo hrun
  refine ⟨_, hrun, hrefines.1.readable_eq, hrefines.2.2 258 [] ?_⟩
  rfl

/-- The outcomes of a `readv` that `readFromFd` issues: a failure, or no more than was offered. -/
def Scatters (b : Buffer) : ReadvResult → Prop
  | .failed _ => True
  | .scattered bytes => bytes.length ≤ b.offered

/-- What `readFromFd` does with an outcome: a failure changes nothing but the saved error number,
and what was scattered follows the readable bytes. -/
def ReadsInOrder (b : Buffer) : ReadvResult → Prop
  | .failed errno => (b.readFromFd (.failed errno)).val = (-1, some errno, b)
  | .scattered bytes =>
      bytes.length - b.writableBytes ≤ extraBufSize ∧
        ∃ b' : Buffer, (b.readFromFd (.scattered bytes)).val = ((bytes.length : Int), none, b') ∧
          b'.Represents (b.readable ++ bytes)

theorem spill_le {bytes : List UInt8} (h : bytes.length ≤ b.offered) :
    bytes.length - b.writableBytes ≤ extraBufSize := by
  rw [offered] at h
  split at h
  · omega
  · omega

theorem readFromFd_readsInOrder (b : Buffer) (hread : b.readPos ≤ b.writePos)
    (hwrite : b.writePos ≤ b.vec.length) (result : ReadvResult) (hresult : b.Scatters result) :
    b.ReadsInOrder result := by
  have hqueue : b.Represents b.readable := ⟨hread, hwrite, rfl⟩
  cases result with
  | failed errno => rfl
  | scattered bytes =>
      apply And.intro
      · exact spill_le hresult
      · exact hqueue.readFromFd

theorem readFromFd_readsInOrder_full : (Buffer.mk [1, 2] 1 2).ReadsInOrder (.scattered [3]) :=
  readFromFd_readsInOrder _ (by decide) (by decide) _
    (show 1 ≤ (Buffer.mk [1, 2] 1 2).offered by decide)

end Buffer

end LearnMuduo
