import LearnMuduo.Protobuf.Decode

/-!
# Encoding a message

`fillEmptyBuffer` lays out the name length, the type name with its terminator, the serialised
message and the checksum. The length word that `onMessage` reads first is not among them, so
what `send` puts on the wire is never taken for the message that was sent.
-/

namespace LearnMuduo

open Framework

namespace ProtobufCodec

variable {Descriptor Message : Type} (pb : Protobuf Descriptor Message)

/-- The bytes the checksum covers. -/
def checkedBytes (message : Message) : List UInt8 :=
  hostToNetwork32 (BitVec.ofNat 32 ((pb.getTypeName message).length + 1)) ++
    (pb.getTypeName message ++ [0]) ++ pb.serialize message

def wireBytes (message : Message) : List UInt8 :=
  checkedBytes pb message ++ hostToNetwork32 (pb.adler32 1 (checkedBytes pb message))

/-- The size of what `fillEmptyBuffer` writes. -/
def encodedSize (message : Message) : Nat :=
  4 + ((pb.getTypeName message).length + 1) + (pb.serialize message).length + 4

theorem length_wireBytes (message : Message) :
    (wireBytes pb message).length = encodedSize pb message := by
  simp only [wireBytes, checkedBytes, encodedSize, List.length_append, length_hostToNetwork32,
    List.length_singleton]

private theorem toInt_nameLen {n : Nat} (h : n < 2 ^ 31) : (BitVec.ofNat 32 n).toInt = n :=
  intOfSize_of_lt h

theorem fillEmptyBuffer_represents {b : Buffer} (hb : b.Represents []) (message : Message)
    (hsize : encodedSize pb message < 2 ^ 31) :
    (fillEmptyBuffer pb b message).val.Represents (wireBytes pb message) := by
  rw [encodedSize] at hsize
  have hname : (BitVec.ofNat 32 ((pb.getTypeName message).length + 1)).toInt.toNat =
      (pb.getTypeName message ++ [0]).length := by
    rw [toInt_nameLen (by omega), List.length_append, List.length_singleton]
    omega
  have hbyteSize : sizeOfInt (intOfSize (pb.serialize message).length) =
      (pb.serialize message).length := by
    rw [intOfSize_of_lt (by omega), sizeOfInt_natCast (by omega)]
  simp only [fillEmptyBuffer, Checked.val_bind, Checked.val_pure, hname, List.take_length,
    hbyteSize]
  have hnamed := (hb.appendInt32 (BitVec.ofNat 32 ((pb.getTypeName message).length + 1))).append
    (pb.getTypeName message ++ [0])
  have hroom := hnamed.writableBytes_ensureSpace (pb.serialize message).length
  have hbody : Buffer.Represents _ (checkedBytes pb message) :=
    (hnamed.ensureSpace (pb.serialize message).length).hasWritten hroom
  have hchecked : (checkedBytes pb message).length < 2 ^ 31 := by
    simp only [checkedBytes, List.length_append, length_hostToNetwork32, List.length_singleton]
    omega
  have hlen : sizeOfInt (intOfSize (checkedBytes pb message).length) =
      (checkedBytes pb message).length := by
    rw [intOfSize_of_lt hchecked, sizeOfInt_natCast (by omega)]
  have hread := hbody.readable_eq
  rw [Buffer.readable, hbody.length_eq] at hread
  rw [hbody.length_eq, hlen, hread]
  exact hbody.appendInt32 (pb.adler32 1 (checkedBytes pb message))

/-- `chunks`, received into an empty buffer, come out as the one message `message`. -/
def RoundTrips (b : Buffer) (message : Message) (chunks : List (List UInt8)) : Prop :=
  (receiveAll pb b chunks).delivered = [message] ∧
    (receiveAll pb b chunks).errors = [] ∧
    (receiveAll pb b chunks).buf.readable = []

/-- The decoder reads the name length as the length of the frame, so one frame taken off the
wire bytes leaves at least the checksum behind. -/
private theorem rest_wireBytes_ne_nil {message : Message}
    (hsize : encodedSize pb message < 2 ^ 31)
    (hone : ((frames pb).drain (wireBytes pb message)).messages = [message]) :
    ((frames pb).drain (wireBytes pb message)).rest ≠ [] := by
  obtain ⟨n, hframe, hrest⟩ := Framing.rest_of_messages_singleton hone
  obtain ⟨_, _, hn⟩ := headVerdict_eq_frame pb hframe
  have hheader := headerLen_eq
  have hlen := length_wireBytes pb message
  rw [encodedSize] at hsize hlen
  have hword : networkToHost32 (wireBytes pb message) =
      BitVec.ofNat 32 ((pb.getTypeName message).length + 1) := by
    simp only [wireBytes, checkedBytes, List.append_assoc]
    exact networkToHost32_hostToNetwork32 _ _
  rw [hword, toInt_nameLen (by omega)] at hn
  intro hnil
  have hdrop := congrArg List.length (hrest.symm.trans hnil)
  rw [List.length_drop, List.length_nil] at hdrop
  omega

/-- No message survives the way over the wire, however the bytes are cut. -/
theorem send_not_roundTrips (message : Message) (b : Buffer) (hb : b.Represents [])
    (hsize : (encodedSize pb message : Int) ≤ maxMessageLen) (chunks : List (List UInt8))
    (hwire : chunks.flatten = (send pb message).val.readable) :
    ¬ RoundTrips pb b message chunks := by
  have hsize' : encodedSize pb message < 2 ^ 31 := by
    rw [maxMessageLen] at hsize
    omega
  have hsent := fillEmptyBuffer_represents pb Buffer.Represents.create message hsize'
  obtain ⟨hdelivered, _, hleft⟩ := receiveAll_feedAll pb hb chunks
  obtain ⟨hdrain, hrest⟩ := (frames pb).feedAll_eq_drain chunks
  rw [hwire, send, hsent.readable_eq] at hdrain hrest
  intro hround
  rcases hround with ⟨hone, _, hempty⟩
  rw [hdelivered, hdrain] at hone
  rw [hleft.readable_eq, hrest] at hempty
  exact rest_wireBytes_ne_nil pb hsize' hone hempty

theorem send_not_roundTrips_empty :
    ¬ RoundTrips emptyRuntime (Buffer.create 0 0) 0 [(send emptyRuntime 0).val.readable] :=
  send_not_roundTrips emptyRuntime 0 (Buffer.create 0 0) Buffer.Represents.create (by decide) _
    (by simp)

/-- An empty `ynet.Empty` is refused with a checksum error, and its bytes stay in the buffer. -/
theorem send_empty_checkSumError :
    let state := receiveAll emptyRuntime (Buffer.create 0 0) [(send emptyRuntime 0).val.readable]
    state.delivered = [] ∧ state.errors = [.checkSumError] ∧
      ¬ RoundTrips emptyRuntime (Buffer.create 0 0) 0 [(send emptyRuntime 0).val.readable] := by
  have hsent := fillEmptyBuffer_represents emptyRuntime Buffer.Represents.create 0 (by decide)
  have hverdict : (frames emptyRuntime).verdict (wireBytes emptyRuntime 0) =
      .malformed .checkSumError := rfl
  obtain ⟨hdelivered, herrors, _⟩ := receiveAll_feedAll emptyRuntime Buffer.Represents.create
    [wireBytes emptyRuntime 0]
  have hfed : (frames emptyRuntime).feedAll [wireBytes emptyRuntime 0] =
      ⟨[], [.checkSumError], wireBytes emptyRuntime 0⟩ := by
    simp only [Framing.feedAll, List.foldl_cons, List.foldl_nil, Framing.feed, Framing.start,
      List.nil_append, Framing.drain_malformed hverdict, Option.toList_some]
  rw [hfed] at hdelivered herrors
  rw [send, hsent.readable_eq]
  refine ⟨hdelivered, herrors, fun hround => ?_⟩
  have hone := hdelivered.symm.trans hround.1
  cases hone

end ProtobufCodec

end LearnMuduo
