import LearnMuduo.Framework.MachineInt
import LearnMuduo.Net.Buffer

/-!
# The protobuf codec

`ProtobufCodec` frames protobuf messages on a byte stream. Only the codec itself is modelled
here: the protobuf runtime and zlib enter as the parameter `Protobuf`. Message and error
callbacks are recorded in the order in which the codec calls them.
-/

namespace LearnMuduo

open Framework

/-- What the codec calls in the protobuf runtime and in zlib. `parseFromArray` returns the
message as the parser left it and whether it succeeded. -/
structure Protobuf (Descriptor Message : Type) where
  adler32 : BitVec 32 → List UInt8 → BitVec 32
  findMessageTypeByName : List UInt8 → Option Descriptor
  getPrototype : Descriptor → Option Message
  new : Message → Message
  getTypeName : Message → List UInt8
  serialize : Message → List UInt8
  parseFromArray : Message → List UInt8 → Message × Bool

inductive ErrorCode
  | noError
  | invalidLength
  | checkSumError
  | invalidNameLen
  | unknownMessageType
  | parseError
  deriving DecidableEq, Repr

/-- The callbacks made so far, and the receive buffer. -/
structure Received (Message : Type) where
  delivered : List Message
  errors : List ErrorCode
  buf : Buffer
  deriving DecidableEq, Repr

namespace ProtobufCodec

variable {Descriptor Message : Type} (pb : Protobuf Descriptor Message)

def headerLen : Int := 4

def minMessageLen : Int := 2 * headerLen + 2

def maxMessageLen : Int := 64 * 1024 * 1024

theorem headerLen_eq : headerLen = 4 := rfl

theorem minMessageLen_eq : minMessageLen = 10 := rfl

def asInt32 (buf : List UInt8) : BitVec 32 := networkToHost32 buf

def createMessage (typeName : List UInt8) : Option Message :=
  match pb.findMessageTypeByName typeName with
  | none => none
  | some descriptor =>
      match pb.getPrototype descriptor with
      | none => none
      | some prototype => some (pb.new prototype)

/-- `buf` is the memory from the pointer argument on; the result is the message, if one was
created, and the error code. -/
def parse (buf : List UInt8) (len : Int) : Option Message × ErrorCode :=
  let expectedCheckSum := asInt32 (buf.drop (len - headerLen).toNat)
  let checkSum := pb.adler32 1 (buf.take (len - headerLen).toNat)
  if checkSum ≠ expectedCheckSum then (none, .checkSumError)
  else
    let nameLen := (asInt32 buf).toInt
    if nameLen < 2 ∨ len - 2 * headerLen < nameLen then (none, .invalidNameLen)
    else
      let typeName := (buf.drop headerLen.toNat).take (nameLen - 1).toNat
      match createMessage pb typeName with
      | none => (none, .unknownMessageType)
      | some message =>
          let data := buf.drop (headerLen + nameLen).toNat
          let dataLen := len - nameLen - 2 * headerLen
          let parsed := pb.parseFromArray message (data.take dataLen.toNat)
          (some parsed.1, bif parsed.2 then .noError else .parseError)

/-- The message under the test `errorCode == NoError && message`. -/
def accepted (parsed : Option Message × ErrorCode) : Option Message :=
  if parsed.2 = .noError then parsed.1 else none

theorem readableBytes_retrieve_lt (b : Buffer) {len : Nat} (hlen : 0 < len)
    (hb : 0 < b.readableBytes) : (b.retrieve len).val.readableBytes < b.readableBytes := by
  simp only [Buffer.retrieve, Checked.val_bind, Checked.val_ite, Checked.val_pure]
  split
  · simp only [Buffer.readableBytes] at hb ⊢
    omega
  · exact hb

/-- `onMessage` with the assertions of `Buffer` off. The callbacks leave the buffer alone. -/
def onMessage (buf : Buffer) : Received Message :=
  if _hmin : minMessageLen + headerLen ≤ buf.readableBytes then
    let len := buf.peekInt32.val.toInt
    if _hlen : len < minMessageLen ∨ maxMessageLen < len then ⟨[], [.invalidLength], buf⟩
    else if (buf.readableBytes : Int) < len + headerLen then ⟨[], [], buf⟩
    else
      let parsed := parse pb (buf.getReadPos.drop headerLen.toNat) len
      match accepted parsed with
      | some message =>
          let rest := onMessage (buf.retrieve (headerLen + len).toNat).val
          { rest with delivered := message :: rest.delivered }
      | none => ⟨[], [parsed.2], buf⟩
  else ⟨[], [], buf⟩
termination_by buf.readableBytes
decreasing_by
  have hheader := headerLen_eq
  have hminimum := minMessageLen_eq
  apply readableBytes_retrieve_lt <;> omega

def fillEmptyBuffer (buf : Buffer) (message : Message) : Checked Buffer := do
  Checked.assert (buf.readableBytes == 0)
  let typeName := pb.getTypeName message
  let nameLen := BitVec.ofNat 32 (typeName.length + 1)
  let buf ← buf.appendInt32 nameLen
  let buf ← buf.append ((typeName ++ [0]).take nameLen.toInt.toNat)
  let byteSize := intOfSize (pb.serialize message).length
  let buf ← buf.ensureSpace (sizeOfInt byteSize)
  let buf := buf.copyToWritePos (pb.serialize message)
  let buf ← buf.hasWritten (sizeOfInt byteSize)
  let checksum := pb.adler32 1 (buf.getReadPos.take (sizeOfInt (intOfSize buf.readableBytes)))
  let buf ← buf.appendInt32 checksum
  Checked.assert ((buf.readableBytes : Int) == 4 + nameLen.toInt + byteSize + 4)
  -- the source now computes the length word into a local variable that nothing reads
  pure buf

/-- The buffer that `send` hands to the connection. -/
def send (message : Message) : Checked Buffer := fillEmptyBuffer pb (Buffer.create 0 0) message

/-- One chunk arrives: it is appended to the receive buffer and `onMessage` runs. -/
def receive (state : Received Message) (chunk : List UInt8) : Received Message :=
  let result := onMessage pb (state.buf.append chunk).val
  ⟨state.delivered ++ result.delivered, state.errors ++ result.errors, result.buf⟩

def receiveAll (buf : Buffer) (chunks : List (List UInt8)) : Received Message :=
  chunks.foldl (receive pb) ⟨[], [], buf⟩

/-- zlib's checksum. -/
def adler32 (seed : BitVec 32) (bytes : List UInt8) : BitVec 32 :=
  let sums := bytes.foldl (fun (low, high) byte =>
    ((low + byte.toNat) % 65521, (high + (low + byte.toNat) % 65521) % 65521))
    (seed.toNat % 65536, seed.toNat / 65536)
  BitVec.ofNat 32 (65536 * sums.2 + sums.1)

/-- The runtime with `ynet.Empty` as its only message type, for ids below 128: a zero id is
not serialised, any other is field one in a single byte. -/
def emptyRuntime : Protobuf Unit UInt8 where
  adler32 := adler32
  findMessageTypeByName name :=
    if name = [121, 110, 101, 116, 46, 69, 109, 112, 116, 121] then some () else none
  getPrototype _ := some 0
  new prototype := prototype
  getTypeName _ := [121, 110, 101, 116, 46, 69, 109, 112, 116, 121]
  serialize id := if id = 0 then [] else [8, id]
  parseFromArray message data :=
    match data with
    | [] => (message, true)
    | [8, id] => (id, true)
    | _ => (message, false)

end ProtobufCodec

end LearnMuduo
