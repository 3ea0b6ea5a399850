import LearnMuduo.Net.Tcp.Lifecycle

/-!
# Lengths on the way to the socket

`send_mt` takes the size of a string for an `int`, `sendInLoop` takes that for a `size_t`, and
`Buffer::append` takes what is left for an `int` again. Sizes and positions are 64 bits wide here,
as in the code, and the members of a buffer are looked at without the bytes.
-/

namespace LearnMuduo

open Framework

/-- The positions of a buffer, and the size of its vector. -/
structure BufferIndices where
  size : Nat
  readPos : Nat
  writePos : Nat
  deriving DecidableEq, Repr

def Buffer.indices (b : Buffer) : BufferIndices := ⟨b.vec.length, b.readPos, b.writePos⟩

namespace BufferIndices

def readableBytes (i : BufferIndices) : Nat := sizeSub i.writePos i.readPos

def writableBytes (i : BufferIndices) : Nat := sizeSub i.size i.writePos

def makeSpace (i : BufferIndices) (len : Nat) : BufferIndices :=
  if len ≤ sizeAdd i.readPos i.writableBytes then
    { i with writePos := sizeSub i.writePos i.readPos, readPos := 0 }
  else { i with size := sizeAdd i.size len }

def ensureSpace (i : BufferIndices) (len : Nat) : BufferIndices :=
  if len ≤ i.writableBytes then i else i.makeSpace len

/-- `append(data, len)` -/
def append (i : BufferIndices) (len : Int) : BufferIndices :=
  let i := i.ensureSpace (sizeOfInt len)
  { i with writePos := sizeAdd i.writePos (sizeOfInt len) }

/-- The positions are in order, in a vector that is no larger than vectors can be. -/
structure Valid (i : BufferIndices) : Prop where
  read_le_write : i.readPos ≤ i.writePos
  write_le_size : i.writePos ≤ i.size
  size_lt : i.size < 2 ^ 63

theorem Valid.append_natCast {i : BufferIndices} (h : i.Valid) {n : Nat} (hn : n < 2 ^ 31) :
    i.append n =
      if n ≤ i.size - i.writePos then { i with writePos := i.writePos + n }
      else if n ≤ i.readPos + (i.size - i.writePos) then
        ⟨i.size, 0, i.writePos - i.readPos + n⟩
      else { i with size := i.size + n, writePos := i.writePos + n } := by
  have hread := h.read_le_write
  have hwrite := h.write_le_size
  have hsize := h.size_lt
  have hfree : i.writableBytes = i.size - i.writePos := sizeSub_of_le hwrite (by omega)
  have hall : sizeAdd i.readPos (i.size - i.writePos) = i.readPos + (i.size - i.writePos) :=
    sizeAdd_of_lt (by omega)
  have hused : sizeSub i.writePos i.readPos = i.writePos - i.readPos :=
    sizeSub_of_le hread (by omega)
  rw [append, sizeOfInt_natCast (by omega), ensureSpace, makeSpace, hfree, hall, hused]
  split
  · rw [sizeAdd_of_lt (by omega)]
  · split
    · dsimp only
      rw [sizeAdd_of_lt (by omega)]
    · dsimp only
      rw [sizeAdd_of_lt (by omega), sizeAdd_of_lt (by omega)]

theorem Valid.readableBytes_append {i : BufferIndices} (h : i.Valid) {n : Nat} (hn : n < 2 ^ 31) :
    (i.append n).readableBytes = i.readableBytes + n := by
  have hread := h.read_le_write
  have hwrite := h.write_le_size
  have hsize := h.size_lt
  have hused : i.readableBytes = i.writePos - i.readPos := sizeSub_of_le hread (by omega)
  rw [h.append_natCast hn, hused, readableBytes]
  split
  · rw [sizeSub_of_le] <;> dsimp only <;> omega
  · split
    · rw [sizeSub_of_le] <;> dsimp only <;> omega
    · rw [sizeSub_of_le] <;> dsimp only <;> omega

end BufferIndices

theorem Buffer.Represents.valid_indices {b : Buffer} {q : List UInt8} (h : b.Represents q)
    (hvec : b.vec.length < 2 ^ 63) : b.indices.Valid :=
  ⟨h.read_le_write, h.write_le_size, hvec⟩

theorem Buffer.Represents.indices_append {b : Buffer} {q : List UInt8} (h : b.Represents q)
    (hvec : b.vec.length < 2 ^ 63) {data : List UInt8} (hdata : data.length < 2 ^ 31) :
    (b.append data).val.indices = b.indices.append data.length := by
  have hread := h.read_le_write
  have hwrite := h.write_le_size
  have hroom := h.writableBytes_ensureSpace data.length
  rw [(h.valid_indices hvec).append_natCast hdata]
  have hval : (b.append data).val.indices =
      ⟨(overwrite (b.ensureSpace data.length).val.vec (b.ensureSpace data.length).val.writePos
          data).length, (b.ensureSpace data.length).val.readPos,
        (b.ensureSpace data.length).val.writePos + data.length⟩ := rfl
  have hsize : (overwrite (b.ensureSpace data.length).val.vec
      (b.ensureSpace data.length).val.writePos data).length =
        (b.ensureSpace data.length).val.vec.length := by
    have hle := (h.ensureSpace data.length).write_le_size
    apply length_overwrite
    rw [writableBytes] at hroom
    omega
  rw [hval, hsize]
  have hmoved : (overwrite b.vec 0 b.readable).length = b.vec.length := by
    have hlen := h.length_eq
    rw [readableBytes] at hlen
    apply length_overwrite
    rw [h.readable_eq]
    omega
  have hfree : b.vec.length - b.writePos = b.writableBytes := rfl
  simp only [indices, hfree]
  by_cases hfits : data.length ≤ b.writableBytes
  · have hspace : (b.ensureSpace data.length).val = b := by
      rw [Buffer.ensureSpace, if_pos hfits]
      rfl
    rw [hspace, if_pos hfits]
  · have hspace : (b.ensureSpace data.length).val = b.makeSpace data.length := by
      rw [Buffer.ensureSpace, if_neg hfits]
      rfl
    rw [hspace, if_neg hfits, Buffer.makeSpace]
    split
    · simp only [hmoved]
    · simp only [List.length_append, List.length_replicate]

/-- The lengths that a call of `send_mt` with a string passes on: as its own `int`, to `::write` and
to `append`, if these are called; and the positions of the backlog after it. -/
structure SendLengths where
  len : Int
  requested : Option Nat
  added : Option Int
  indices : BufferIndices
  deriving DecidableEq, Repr

namespace TcpConnection

/-- The locals of `sendInLoop` after its attempt to write `len` bytes, without the bytes. -/
def lengthLocals (c : TcpConnection) (len : Nat) (result : WriteResult) : SendLocals :=
  if c.writesDirectly then
    match result with
    | .accepted n => ⟨sizeSub len n, n, false⟩
    | .failed errno => ⟨len, -1, errno == .epipe || errno == .econnreset⟩
  else ⟨len, 0, false⟩

/-- What `sendInLoop(message, len)` requests from `::write`, and what it hands to `append`. -/
def sendInLoopLengths (c : TcpConnection) (len : Nat) (result : WriteResult) :
    Option Nat × Option Int :=
  let requested := if c.writesDirectly then some len else none
  let locals := c.lengthLocals len result
  if !locals.faultError && decide (0 < locals.remain) then
    (requested, some (intOfSize locals.remain))
  else (requested, none)

/-- `send_mt(message)` for a string of `size` bytes, on the loop thread. -/
def sendLengths (c : TcpConnection) (size : Nat) (result : WriteResult) : SendLengths :=
  let len := intOfSize size
  if c.state = .connected then
    let passed := c.sendInLoopLengths (sizeOfInt len) result
    { len := len
      requested := passed.1
      added := passed.2
      indices := passed.2.elim c.sendBuf.indices c.sendBuf.indices.append }
  else ⟨len, none, none, c.sendBuf.indices⟩

/-- The bytes of the message that a direct write took. -/
def taken (c : TcpConnection) (result : WriteResult) : Nat :=
  if c.writesDirectly then result.count else 0

/-- A direct write finds that the peer is gone. -/
def Faults (c : TcpConnection) (result : WriteResult) : Prop :=
  c.writesDirectly = true ∧ (result = .failed .epipe ∨ result = .failed .econnreset)

/-- The size of the message gets through: no conversion changes it, all of it is requested, and what
is not yet written is added to the backlog, which grows by as much. Where nothing is added, nothing
is left or the peer is gone. -/
structure LengthSurvives (c : TcpConnection) (size : Nat) (result : WriteResult) : Prop where
  len : (c.sendLengths size result).len = size
  requested : ∀ count, (c.sendLengths size result).requested = some count → count = size
  added : ∀ len, (c.sendLengths size result).added = some len →
    len = (size : Int) - c.taken result
  complete : (c.sendLengths size result).added = none → c.taken result = size ∨ c.Faults result
  backlog : ((c.sendLengths size result).indices.readableBytes : Int) =
    c.sendBuf.readableBytes + (c.sendLengths size result).added.getD 0

section Lengths

variable {c : TcpConnection} {q : List UInt8} {size : Nat} {message : Memory}
  {result : WriteResult}

theorem lengthLocals_remain (hsize : size < 2 ^ 31) (hfits : result.Fits size) :
    (c.lengthLocals size result).remain ≤ size ∧
      ((c.lengthLocals size result).remain : Int) = size - c.taken result := by
  simp only [lengthLocals, taken]
  cases c.writesDirectly with
  | false => simp
  | true =>
      cases result with
      | accepted n =>
          have hn : n ≤ size := hfits
          have hsub : sizeSub size n = size - n := sizeSub_of_le hn (by omega)
          simp only [if_true, hsub, WriteResult.count]
          omega
      | failed errno => simp [WriteResult.count]

theorem sendLengths_of_lt (hstate : c.state = .connected) (hsize : size < 2 ^ 31) :
    c.sendLengths size result =
      ⟨size, (c.sendInLoopLengths size result).1, (c.sendInLoopLengths size result).2,
        (c.sendInLoopLengths size result).2.elim c.sendBuf.indices c.sendBuf.indices.append⟩ := by
  have hint : intOfSize size = size := intOfSize_of_lt hsize
  have hcount : sizeOfInt (size : Int) = size := sizeOfInt_natCast (by omega)
  rw [sendLengths, if_pos hstate, hint, hcount]

theorem sendInLoopLengths_requested (c : TcpConnection) (size : Nat) (result : WriteResult) :
    (c.sendInLoopLengths size result).1 = if c.writesDirectly then some size else none := by
  rw [sendInLoopLengths]
  split
  · rfl
  · rfl

theorem sendInLoopLengths_added (hsize : size < 2 ^ 31) (hfits : result.Fits size) {len : Int}
    (h : (c.sendInLoopLengths size result).2 = some len) :
    len = (c.lengthLocals size result).remain := by
  have hle := (lengthLocals_remain (c := c) hsize hfits).1
  rw [sendInLoopLengths] at h
  split at h
  · rw [← Option.some_inj.mp h]
    exact intOfSize_of_lt (by omega)
  · exact nomatch h

theorem lengthLocals_faultError (c : TcpConnection) (size : Nat) {result : WriteResult}
    (h : (c.lengthLocals size result).faultError = true) : c.Faults result := by
  rw [lengthLocals.eq_def] at h
  cases hdirect : c.writesDirectly with
  | false => simp [hdirect] at h
  | true =>
      refine ⟨hdirect, ?_⟩
      cases result with
      | accepted n => simp [hdirect] at h
      | failed errno => simpa [hdirect] using h

theorem sendInLoopLengths_none (hsize : size < 2 ^ 31) (hfits : result.Fits size)
    (h : (c.sendInLoopLengths size result).2 = none) : c.taken result = size ∨ c.Faults result := by
  have hremain := (lengthLocals_remain (c := c) hsize hfits).2
  rw [sendInLoopLengths] at h
  split at h
  · exact nomatch h
  · rename_i hrest
    cases hfault : (c.lengthLocals size result).faultError with
    | true => exact Or.inr (lengthLocals_faultError c size hfault)
    | false =>
        rw [hfault] at hrest
        have hnothing : (c.lengthLocals size result).remain = 0 := by simpa using hrest
        exact Or.inl (by omega)

/-- A direct write requests all of the message if and only if its size is among the lowest, or
among the highest that a `size_t` has. -/
theorem requested_eq_iff (hstate : c.state = .connected) (hdirect : c.writesDirectly = true)
    (hsize : size < 2 ^ 64) :
    (c.sendLengths size result).requested = some size ↔
      size < 2 ^ 31 ∨ 2 ^ 64 - 2 ^ 31 ≤ size := by
  rw [← sizeOfInt_intOfSize_eq_iff hsize, sendLengths, if_pos hstate]
  simp only [sendInLoopLengths_requested, hdirect, if_true, Option.some_inj]

/-- The bytes go where the lengths say. -/
theorem sendInLoop_indices (hstate : c.state = .connected) (hbacklog : c.sendBuf.Represents q)
    (hvec : c.sendBuf.vec.length < 2 ^ 63) (hlen : message.bytes.length < 2 ^ 31)
    (hfits : result.Fits message.bytes.length) :
    (c.sendInLoop message message.bytes.length result).val.sendBuf.indices =
      (c.sendLengths message.bytes.length result).indices := by
  have hup : c.state ≠ .disconnected := by simp [hstate]
  have hlocals : (c.written message result).2 = c.lengthLocals message.bytes.length result := by
    simp only [written, lengthLocals]
    cases c.writesDirectly with
    | false => rfl
    | true =>
        cases result with
        | accepted n =>
            have hn : n ≤ message.bytes.length := hfits
            have hsub : sizeSub message.bytes.length n = message.bytes.length - n :=
              sizeSub_of_le hn (by omega)
            simp only [if_true, writeDirectly, hsub]
        | failed errno => rfl
  rcases written_locals c hfits with ⟨-, hle, hend⟩
  rw [sendInLoop_val c message result hup, sendLengths_of_lt hstate hlen, sendInLoopLengths,
    ← hlocals]
  have hkept := kept_written c message result
  generalize c.written message result = written at *
  split
  · have hread := length_read_remain hlen hle hend
    have hremain : intOfSize written.2.remain = written.2.remain := intOfSize_of_lt (by omega)
    rw [sendBuf_appendRemaining, hkept.sendBuf, hbacklog.indices_append hvec (by omega), hread,
      Option.elim_some, hremain]
  · rw [hkept.sendBuf, Option.elim_none]

/-- The size of a message gets through if and only if it fits into an `int`. -/
theorem lengthSurvives_iff (hstate : c.state = .connected) (hbacklog : c.sendBuf.Represents q)
    (hvec : c.sendBuf.vec.length < 2 ^ 63) (size : Nat)
    (hfits : result.Fits (sizeOfInt (intOfSize size))) :
    c.LengthSurvives size result ↔ size < 2 ^ 31 := by
  constructor
  · intro h
    have hlen : intOfSize size = size := by
      have hlen := h.len
      rw [sendLengths, if_pos hstate] at hlen
      exact hlen
    exact intOfSize_eq_iff.mp hlen
  · intro hsize
    have hcount : sizeOfInt (intOfSize size) = size := by
      rw [intOfSize_of_lt hsize, sizeOfInt_natCast (by omega)]
    rw [hcount] at hfits
    have hremain := lengthLocals_remain (c := c) hsize hfits
    have hvalid := hbacklog.valid_indices hvec
    have hbefore : c.sendBuf.indices.readableBytes = c.sendBuf.readableBytes := by
      have hread := hvalid.read_le_write
      have hwrite := hvalid.write_le_size
      have hlt := hvalid.size_lt
      exact sizeSub_of_le hread (by omega)
    have hlengths : c.sendLengths size result = _ := sendLengths_of_lt hstate hsize
    refine ⟨?_, ?_, ?_, ?_, ?_⟩
    · rw [hlengths]
    · intro count hrequested
      rw [hlengths] at hrequested
      simp only [sendInLoopLengths_requested] at hrequested
      split at hrequested
      · exact (Option.some_inj.mp hrequested).symm
      · exact nomatch hrequested
    · intro len hadded
      rw [hlengths] at hadded
      rw [sendInLoopLengths_added hsize hfits hadded, hremain.2]
    · intro hnone
      rw [hlengths] at hnone
      exact sendInLoopLengths_none hsize hfits hnone
    · rw [hlengths]
      cases hadded : (c.sendInLoopLengths size result).2 with
      | none => simp [hbefore]
      | some len =>
          have hlen := sendInLoopLengths_added hsize hfits hadded
          have hgrown := hvalid.readableBytes_append (n := (c.lengthLocals size result).remain)
            (by omega)
          rw [hlen, Option.elim_some, Option.getD_some, hgrown, hbefore]
          omega

end Lengths

/-- A new connection that is up. -/
def upConnection : TcpConnection := (create 5 [] false).connectionEstablished.val

theorem lengthSurvives_thousand : upConnection.LengthSurvives 1000 (.accepted 400) :=
  (lengthSurvives_iff rfl Buffer.Represents.create (by decide +kernel) 1000 (by decide)).mpr
    (by decide)

/-- Of 2^31 bytes, nearly 2^64 are requested. -/
theorem gigabytes_not_lengthSurvives :
    (upConnection.sendLengths (2 ^ 31) (.accepted 0)).requested = some (2 ^ 64 - 2 ^ 31) ∧
      ¬ upConnection.LengthSurvives (2 ^ 31) (.accepted 0) := by
  have hrequested : (upConnection.sendLengths (2 ^ 31) (.accepted 0)).requested =
      some (2 ^ 64 - 2 ^ 31) := by decide
  refine ⟨hrequested, fun h => ?_⟩
  exact absurd (h.requested _ hrequested) (by decide)

end TcpConnection

end LearnMuduo
