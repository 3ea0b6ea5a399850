import LearnMuduo.Framework.BigEndian
import LearnMuduo.Framework.Checked
import LearnMuduo.Framework.Overwrite

/-!
# The byte buffer of a connection

`Buffer` keeps its unread bytes in `vec` between `readPos` and `writePos`. To its users it is a
first-in first-out queue of bytes; `Represents` says which one, and each operation is specified
once, by what it does to that queue.
-/

namespace LearnMuduo

open Framework

/-- `hostToNetwork32`, as the four bytes it leaves in memory. -/
def hostToNetwork32 (x : BitVec 32) : List UInt8 := beEncode 4 x.toNat

/-- `networkToHost32` of the four bytes at the head of a piece of memory. -/
def networkToHost32 (memory : List UInt8) : BitVec 32 :=
  BitVec.ofNat 32 (beDecode (memory.take 4))

@[simp] theorem length_hostToNetwork32 (x : BitVec 32) : (hostToNetwork32 x).length = 4 :=
  length_beEncode 4 x.toNat

theorem networkToHost32_hostToNetwork32 (x : BitVec 32) (rest : List UInt8) :
    networkToHost32 (hostToNetwork32 x ++ rest) = x := by
  have htake : (hostToNetwork32 x ++ rest).take 4 = hostToNetwork32 x :=
    List.take_left' (length_hostToNetwork32 x)
  rw [networkToHost32, htake, hostToNetwork32, beDecode_beEncode 4 _ (by simpa using x.isLt)]
  exact BitVec.eq_of_toNat_eq (by simp)

theorem networkToHost32_append (memory rest : List UInt8) (h : 4 ≤ memory.length) :
    networkToHost32 (memory ++ rest) = networkToHost32 memory := by
  rw [networkToHost32, List.take_append_of_le_length h, networkToHost32]

structure Buffer where
  vec : List UInt8
  readPos : Nat
  writePos : Nat
  deriving DecidableEq, Repr

namespace Buffer

def initialSize : Nat := 1024

def create (readPos writePos : Nat) : Buffer :=
  ⟨List.replicate initialSize 0, readPos, writePos⟩

def readableBytes (b : Buffer) : Nat := b.writePos - b.readPos

def writableBytes (b : Buffer) : Nat := b.vec.length - b.writePos

/-- The memory from `getReadPos()` to the end of the vector. -/
def getReadPos (b : Buffer) : List UInt8 := b.vec.drop b.readPos

/-- The readable bytes. -/
def readable (b : Buffer) : List UInt8 := b.getReadPos.take b.readableBytes

def makeSpace (b : Buffer) (len : Nat) : Buffer :=
  if len ≤ b.readPos + b.writableBytes then
    { vec := overwrite b.vec 0 b.readable
      readPos := 0
      writePos := b.writePos - b.readPos }
  else
    { b with vec := b.vec ++ List.replicate len 0 }

def ensureSpace (b : Buffer) (len : Nat) : Checked Buffer :=
  if len ≤ b.writableBytes then pure b
  else do
    let b := b.makeSpace len
    Checked.assert (len ≤ b.writableBytes)
    pure b

/-- A copy to the memory at `getWritePos()`, which moves no position. -/
def copyToWritePos (b : Buffer) (data : List UInt8) : Buffer :=
  { b with vec := overwrite b.vec b.writePos data }

def append (b : Buffer) (data : List UInt8) : Checked Buffer := do
  let b ← b.ensureSpace data.length
  let b := b.copyToWritePos data
  Checked.assert (data.length ≤ b.writableBytes)
  let b := { b with writePos := b.writePos + data.length }
  Checked.assert (b.writePos < b.vec.length)
  pure b

def appendInt32 (b : Buffer) (x : BitVec 32) : Checked Buffer := b.append (hostToNetwork32 x)

def hasWritten (b : Buffer) (len : Nat) : Checked Buffer := do
  Checked.assert (len ≤ b.writableBytes)
  pure { b with writePos := b.writePos + len }

def retrieveAll (b : Buffer) : Buffer := { b with readPos := 0, writePos := 0 }

def retrieve (b : Buffer) (len : Nat) : Checked Buffer := do
  Checked.assert (len ≤ b.readableBytes)
  if len < b.readableBytes then pure { b with readPos := b.readPos + len }
  else pure b.retrieveAll

def peekInt32 (b : Buffer) : Checked (BitVec 32) := do
  Checked.assert (4 ≤ b.readableBytes)
  pure (networkToHost32 b.getReadPos)

/-- The positions are in order and inside the vector, and the readable bytes are `q`. -/
structure Represents (b : Buffer) (q : List UInt8) : Prop where
  read_le_write : b.readPos ≤ b.writePos
  write_le_size : b.writePos ≤ b.vec.length
  readable_eq : b.readable = q

theorem readable_eq_drop_take (b : Buffer) (h : b.readPos ≤ b.writePos) :
    b.readable = (b.vec.take b.writePos).drop b.readPos := by
  rw [readable, getReadPos, readableBytes, List.take_drop, Nat.add_sub_cancel' h]

namespace Represents

variable {b : Buffer} {q : List UInt8}

theorem eq_drop_take (h : b.Represents q) : q = (b.vec.take b.writePos).drop b.readPos := by
  rw [← h.readable_eq, readable_eq_drop_take b h.read_le_write]

theorem length_eq (h : b.Represents q) : b.readableBytes = q.length := by
  have hread := h.read_le_write
  have hwrite := h.write_le_size
  rw [h.eq_drop_take, List.length_drop, List.length_take, readableBytes]
  omega

theorem create : (Buffer.create 0 0).Represents [] :=
  ⟨Nat.le_refl 0, Nat.zero_le _, rfl⟩

theorem of_drop_take (hread : b.readPos ≤ b.writePos) (hwrite : b.writePos ≤ b.vec.length)
    (hq : (b.vec.take b.writePos).drop b.readPos = q) : b.Represents q :=
  ⟨hread, hwrite, (readable_eq_drop_take b hread).trans hq⟩

theorem makeSpace (h : b.Represents q) (len : Nat) : (b.makeSpace len).Represents q := by
  have hread := h.read_le_write
  have hwrite := h.write_le_size
  have hlen := h.length_eq
  rw [readableBytes] at hlen
  rw [Buffer.makeSpace]
  split
  · have hcopy : (overwrite b.vec 0 q).take q.length = q := by
      simpa using @take_overwrite _ b.vec q 0 (Nat.zero_le _)
    have hsize : (overwrite b.vec 0 q).length = b.vec.length :=
      length_overwrite (by omega)
    rw [h.readable_eq]
    apply of_drop_take
    · exact Nat.zero_le _
    · change b.writePos - b.readPos ≤ (overwrite b.vec 0 q).length
      omega
    · change ((overwrite b.vec 0 q).take (b.writePos - b.readPos)).drop 0 = q
      rw [hlen, hcopy, List.drop_zero]
  · apply of_drop_take
    · exact hread
    · change b.writePos ≤ (b.vec ++ List.replicate len 0).length
      rw [List.length_append]
      omega
    · change ((b.vec ++ List.replicate len 0).take b.writePos).drop b.readPos = q
      rw [List.take_append_of_le_length hwrite, ← h.eq_drop_take]

theorem writableBytes_makeSpace_eq (h : b.Represents q) (len : Nat) :
    (b.makeSpace len).writableBytes =
      if len ≤ b.readPos + b.writableBytes then b.readPos + b.writableBytes
      else b.writableBytes + len := by
  have hread := h.read_le_write
  have hwrite := h.write_le_size
  have hlen := h.length_eq
  rw [readableBytes] at hlen
  rw [Buffer.makeSpace]
  split
  · have hsize : (overwrite b.vec 0 q).length = b.vec.length :=
      length_overwrite (by omega)
    simp only [Buffer.writableBytes, h.readable_eq, hsize]
    omega
  · simp only [Buffer.writableBytes, List.length_append, List.length_replicate]
    omega

theorem writableBytes_makeSpace (h : b.Represents q) (len : Nat) :
    len ≤ (b.makeSpace len).writableBytes := by
  rw [h.writableBytes_makeSpace_eq]
  split
  · assumption
  · exact Nat.le_add_left _ _

theorem ensureSpace (h : b.Represents q) (len : Nat) : (b.ensureSpace len).val.Represents q := by
  rw [Buffer.ensureSpace]
  split
  · exact h
  · exact h.makeSpace len

theorem writableBytes_ensureSpace (h : b.Represents q) (len : Nat) :
    len ≤ (b.ensureSpace len).val.writableBytes := by
  rw [Buffer.ensureSpace]
  split
  · assumption
  · exact h.writableBytes_makeSpace len

theorem advance (h : b.Represents q) {data : List UInt8} (hroom : data.length ≤ b.writableBytes) :
    { b.copyToWritePos data with writePos := b.writePos + data.length }.Represents
      (q ++ data) := by
  have hread := h.read_le_write
  have hwrite := h.write_le_size
  rw [writableBytes] at hroom
  have hsize : (overwrite b.vec b.writePos data).length = b.vec.length :=
    length_overwrite (by omega)
  apply of_drop_take
  · exact Nat.le_add_right_of_le hread
  · change b.writePos + data.length ≤ (overwrite b.vec b.writePos data).length
    omega
  · change ((overwrite b.vec b.writePos data).take (b.writePos + data.length)).drop b.readPos = _
    have hle : b.readPos ≤ (b.vec.take b.writePos).length := by
      rw [List.length_take]
      omega
    rw [take_overwrite hwrite, List.drop_append_of_le_length hle, ← h.eq_drop_take]

theorem append (h : b.Represents q) (data : List UInt8) :
    (b.append data).val.Represents (q ++ data) :=
  (h.ensureSpace data.length).advance (h.writableBytes_ensureSpace data.length)

theorem appendInt32 (h : b.Represents q) (x : BitVec 32) :
    (b.appendInt32 x).val.Represents (q ++ hostToNetwork32 x) :=
  h.append (hostToNetwork32 x)

theorem hasWritten (h : b.Represents q) {data : List UInt8}
    (hroom : data.length ≤ b.writableBytes) :
    ((b.copyToWritePos data).hasWritten data.length).val.Represents (q ++ data) :=
  h.advance hroom

theorem retrieveAll (b : Buffer) : b.retrieveAll.Represents [] :=
  of_drop_take (Nat.le_refl 0) (Nat.zero_le _) rfl

theorem retrieve (h : b.Represents q) (len : Nat) :
    (b.retrieve len).val.Represents (q.drop len) := by
  have hlen := h.length_eq
  rw [Buffer.retrieve]
  simp only [Checked.val_bind, Checked.val_ite, Checked.val_pure]
  split
  · rename_i hlt
    rw [readableBytes] at hlen hlt
    apply of_drop_take
    · change b.readPos + len ≤ b.writePos
      omega
    · exact h.write_le_size
    · change (b.vec.take b.writePos).drop (b.readPos + len) = q.drop len
      rw [h.eq_drop_take, List.drop_drop]
  · rename_i hge
    have hnil : q.drop len = [] := List.drop_eq_nil_of_le (by omega)
    rw [hnil]
    exact retrieveAll b

theorem peekInt32 (h : b.Represents q) (hfour : 4 ≤ q.length) :
    b.peekInt32.val = networkToHost32 q := by
  have hlen := h.length_eq
  have hprefix : b.getReadPos.take 4 = q.take 4 := by
    rw [← h.readable_eq, readable, List.take_take, hlen, Nat.min_eq_left hfour]
  simp only [Buffer.peekInt32, Checked.val_bind, Checked.val_pure, networkToHost32, hprefix]

end Represents

end Buffer

end LearnMuduo
