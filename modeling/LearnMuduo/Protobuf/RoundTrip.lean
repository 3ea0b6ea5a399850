import LearnMuduo.Protobuf.Encode

/-!
# Parsing what was encoded

`fillEmptyBuffer` and `parse` agree on the layout of a body: the name length, the name with its
terminator, the serialised message and the checksum. Only the length word, which `onMessage` reads
before it calls `parse`, is missing from what is sent.
-/

namespace LearnMuduo

open Framework

namespace ProtobufCodec

variable {Descriptor Message : Type} (pb : Protobuf Descriptor Message)

/-- The last assertion of `fillEmptyBuffer`, about the buffer it returns. -/
def finalAssertion (buf : Buffer) (message : Message) : Bool :=
  (buf.readableBytes : Int) == 4 +
    (BitVec.ofNat 32 ((pb.getTypeName message).length + 1)).toInt +
    intOfSize (pb.serialize message).length + 4

theorem parse_wireBytes {message prototype : Message} (hname : pb.getTypeName message ≠ [])
    (hsize : encodedSize pb message < 2 ^ 31)
    (hregistered : createMessage pb (pb.getTypeName message) = some prototype) :
    parse pb (wireBytes pb message) (encodedSize pb message) =
      (some (pb.parseFromArray prototype (pb.serialize message)).1,
        bif (pb.parseFromArray prototype (pb.serialize message)).2 then .noError
        else .parseError) := by
  have hheader := headerLen_eq
  have hpos := List.length_pos_iff.mpr hname
  rw [encodedSize] at hsize
  have hchecked : (checkedBytes pb message).length = encodedSize pb message - 4 := by
    simp only [checkedBytes, encodedSize, List.length_append, length_hostToNetwork32,
      List.length_singleton]
    omega
  have hcut : ((encodedSize pb message : Int) - headerLen).toNat =
      (checkedBytes pb message).length := by
    rw [hchecked, encodedSize]
    omega
  have hsum : asInt32 ((wireBytes pb message).drop (checkedBytes pb message).length) =
      pb.adler32 1 (checkedBytes pb message) := by
    have hword := networkToHost32_hostToNetwork32 (pb.adler32 1 (checkedBytes pb message)) []
    rw [List.append_nil] at hword
    rw [asInt32, wireBytes, List.drop_left, hword]
  have hcovered : (wireBytes pb message).take (checkedBytes pb message).length =
      checkedBytes pb message := by
    rw [wireBytes, List.take_left]
  have hnameLen : (asInt32 (wireBytes pb message)).toInt =
      (pb.getTypeName message).length + 1 := by
    simp only [asInt32, wireBytes, checkedBytes, List.append_assoc,
      networkToHost32_hostToNetwork32]
    exact intOfSize_of_lt (by omega)
  have hlayout : wireBytes pb message =
      hostToNetwork32 (BitVec.ofNat 32 ((pb.getTypeName message).length + 1)) ++
        (pb.getTypeName message ++ ([0] ++ (pb.serialize message ++
          hostToNetwork32 (pb.adler32 1 (checkedBytes pb message))))) := by
    simp only [wireBytes, checkedBytes, List.append_assoc]
  have htype : ((wireBytes pb message).drop headerLen.toNat).take
      (((pb.getTypeName message).length : Int) + 1 - 1).toNat = pb.getTypeName message := by
    rw [hlayout, List.drop_left' (by rw [length_hostToNetwork32, hheader]; rfl)]
    exact List.take_left' (by omega)
  have hdata : ((wireBytes pb message).drop
        (headerLen + ((pb.getTypeName message).length + 1)).toNat).take
        ((encodedSize pb message : Int) - ((pb.getTypeName message).length + 1) -
          2 * headerLen).toNat = pb.serialize message := by
    rw [hlayout, ← List.append_assoc, ← List.append_assoc, List.drop_left']
    · apply List.take_left'
      rw [encodedSize]
      omega
    · simp only [List.length_append, length_hostToNetwork32, List.length_singleton]
      omega
  have hlimit : ¬ (((pb.getTypeName message).length : Int) + 1 < 2 ∨
      (encodedSize pb message : Int) - 2 * headerLen < (pb.getTypeName message).length + 1) := by
    rw [encodedSize]
    omega
  simp only [parse, hcut, hsum, hcovered, hnameLen, htype, hdata, hlimit, hregistered, ne_eq,
    not_true_eq_false, if_false]

/-- A message whose type is registered, and which the runtime parses back from its serialisation,
is parsed back from what `fillEmptyBuffer` leaves in the buffer. -/
theorem parse_fillEmptyBuffer (b : Buffer) (hb : b.Represents []) (message prototype : Message)
    (hname : pb.getTypeName message ≠ []) (hsize : encodedSize pb message < 2 ^ 31)
    (hregistered : createMessage pb (pb.getTypeName message) = some prototype)
    (hparse : pb.parseFromArray prototype (pb.serialize message) = (message, true)) :
    finalAssertion pb (fillEmptyBuffer pb b message).val message = true ∧
      parse pb (fillEmptyBuffer pb b message).val.getReadPos
        (intOfSize (fillEmptyBuffer pb b message).val.readableBytes) =
          (some message, .noError) := by
  have hfilled := fillEmptyBuffer_represents pb hb message hsize
  have hlength : (fillEmptyBuffer pb b message).val.readableBytes =
      encodedSize pb message := by
    rw [hfilled.length_eq, length_wireBytes]
  have hpos := List.length_pos_iff.mpr hname
  have hint : intOfSize (encodedSize pb message) = encodedSize pb message :=
    intOfSize_of_lt hsize
  constructor
  · have hnameLen : (BitVec.ofNat 32 ((pb.getTypeName message).length + 1)).toInt =
        (pb.getTypeName message).length + 1 := by
      rw [encodedSize] at hsize
      exact intOfSize_of_lt (by omega)
    have hbyteSize : intOfSize (pb.serialize message).length = (pb.serialize message).length := by
      rw [encodedSize] at hsize
      exact intOfSize_of_lt (by omega)
    rw [finalAssertion, hlength, hnameLen, hbyteSize, encodedSize, beq_iff_eq]
    omega
  · obtain ⟨rest, hrest⟩ : ∃ rest,
        (fillEmptyBuffer pb b message).val.getReadPos = wireBytes pb message ++ rest :=
      ⟨_, by rw [← hfilled.readable_eq]; exact (List.take_append_drop _ _).symm⟩
    have hmin : minMessageLen ≤ (encodedSize pb message : Int) := by
      rw [minMessageLen_eq, encodedSize]
      omega
    have hlen : (encodedSize pb message : Int) ≤ (wireBytes pb message).length := by
      rw [length_wireBytes]
    rw [hlength, hint, hrest, parse_append pb _ rest hmin hlen,
      parse_wireBytes pb hname hsize hregistered, hparse]
    rfl

theorem parse_fillEmptyBuffer_empty :
    finalAssertion emptyRuntime (fillEmptyBuffer emptyRuntime (Buffer.create 0 0) 0).val 0 =
        true ∧
      parse emptyRuntime (fillEmptyBuffer emptyRuntime (Buffer.create 0 0) 0).val.getReadPos
        (intOfSize (fillEmptyBuffer emptyRuntime (Buffer.create 0 0) 0).val.readableBytes) =
          (some 0, .noError) :=
  parse_fillEmptyBuffer emptyRuntime (Buffer.create 0 0) Buffer.Represents.create 0 0
    (List.cons_ne_nil _ _) (by decide) rfl rfl

end ProtobufCodec

end LearnMuduo
