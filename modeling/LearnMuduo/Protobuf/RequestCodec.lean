import LearnMuduo.Protobuf.RoundTrip
import LearnMuduo.Protobuf.Base128
import LearnMuduo.Protobuf.Request

/-!
# The request messages on the wire

The three classes taken together, and the codec with them in the place of the runtime's messages.
What is parsed is what was written, if and only if the strings in it are valid UTF-8, which is
checked by the parser only.
-/

namespace LearnMuduo

open Framework

inductive MessageType
  | queryResults
  | answerResults
  | empty
  deriving DecidableEq, Repr

namespace MessageType

def Fields : MessageType → Type
  | queryResults => QueryResults.Fields
  | answerResults => AnswerResults.Fields
  | empty => Empty.Fields

variable {UnknownField : Type} (w : WireFormat UnknownField)

def code : (type : MessageType) → MessageCode w type.Fields
  | queryResults => QueryResults.code w
  | answerResults => AnswerResults.code w
  | empty => Empty.code w

def Knows : MessageType → BitVec 32 → Prop
  | queryResults => QueryResults.Knows
  | answerResults => AnswerResults.Knows
  | empty => Empty.Knows

/-- The strings of a message. -/
def strings : (type : MessageType) → type.Fields → List (List UInt8)
  | queryResults, fields => [QueryResults.Fields.query fields]
  | answerResults, fields => AnswerResults.Fields.dataValue fields
  | empty, _ => []

def Sized (type : MessageType) (fields : type.Fields) : Prop :=
  ∀ s ∈ type.strings fields, s.length ≤ maxStringSize

def Utf8 (type : MessageType) (fields : type.Fields) : Prop :=
  ∀ s ∈ type.strings fields, w.verifyUTF8 s = true

variable {w} {enc : WireEncoding UnknownField}

theorem correct (hw : w.Lawful enc) (type : MessageType) :
    (type.code w).Correct type.Knows type.Sized (type.Utf8 w) := by
  cases type with
  | queryResults =>
      have hsized : Sized queryResults = fun fields => fields.query.length ≤ maxStringSize := by
        funext fields
        exact propext List.forall_mem_singleton
      have hutf8 : Utf8 w queryResults = fun fields => w.verifyUTF8 fields.query = true := by
        funext fields
        exact propext List.forall_mem_singleton
      rw [hsized, hutf8]
      exact QueryResults.correct hw
  | answerResults => exact AnswerResults.correct hw
  | empty =>
      have hnone : ∀ P : List UInt8 → Prop,
          (fun fields : empty.Fields => ∀ s ∈ empty.strings fields, P s) = fun _ => True := by
        intro P
        funext fields
        exact propext (iff_of_true (fun _ hmem => absurd hmem List.not_mem_nil) trivial)
      have hsized : Sized empty = fun _ => True := hnone _
      have hutf8 : Utf8 w empty = fun _ => True := hnone _
      rw [hsized, hutf8]
      exact Empty.correct hw

/-- The strings are not too long for the parser, which would not take an unknown field for one of
its own. -/
def Writable (enc : WireEncoding UnknownField) (type : MessageType)
    (message : ProtoMessage type.Fields UnknownField) : Prop :=
  type.Sized message.fields ∧
    ∀ field ∈ message.unknownFields, MessageCode.Unusual type.Knows (enc.unknownTag field)

/-- A message is read back from what is written of it if and only if its strings are UTF-8.
Otherwise it is written as well, but not read. -/
theorem parse_written_iff (hw : w.Lawful enc) (type : MessageType)
    (message : ProtoMessage type.Fields UnknownField) (h : type.Writable enc message) :
    ((type.code w).parseFromArray ((type.code w).serialize message) = (message, true) ↔
        type.Utf8 w message.fields) ∧
      (¬ type.Utf8 w message.fields →
        ((type.code w).parseFromArray ((type.code w).serialize message)).2 = false) := by
  have hiff := (type.code w).parseFromArray_serialize_iff hw (type.correct hw) h.1 h.2
  constructor
  · constructor
    · intro hparse
      rw [← hiff, hparse]
    · exact fun hutf8 =>
        (type.code w).parseFromArray_serialize hw (type.correct hw) h.1 hutf8 h.2
  · intro hutf8
    rw [← Bool.not_eq_true, hiff]
    exact hutf8

/-- A query whose text is not UTF-8 is written, but not read. -/
theorem parse_written_iff_latin1 :
    ((queryResults.code base128).parseFromArray ((queryResults.code base128).serialize
        ⟨⟨[0x66, 0xfc, 0x72], 1, 20⟩, []⟩)).2 = false :=
  (parse_written_iff Base128.lawful queryResults ⟨⟨[0x66, 0xfc, 0x72], 1, 20⟩, []⟩
    ⟨by unfold Sized; decide, fun _ hmem => absurd hmem List.not_mem_nil⟩).2
      fun hutf8 => absurd (hutf8 _ List.mem_cons_self) (by decide)

/-- One serialisation after another is read as the two messages merged. -/
theorem parse_written_append (hw : w.Lawful enc) (type : MessageType)
    (message other : ProtoMessage type.Fields UnknownField) (h : type.Writable enc message)
    (hutf8 : type.Utf8 w message.fields) (h' : type.Writable enc other)
    (hutf8' : type.Utf8 w other.fields) :
    (type.code w).parseFromArray
        ((type.code w).serialize message ++ (type.code w).serialize other) =
      ((type.code w).merge message other, true) :=
  (type.code w).parseFromArray_append hw (type.correct hw) h.1 hutf8 h.2 h'.1 hutf8' h'.2

theorem parse_written_append_answers :
    (answerResults.code base128).parseFromArray
        ((answerResults.code base128).serialize ⟨⟨7, [[0x61]]⟩, []⟩ ++
          (answerResults.code base128).serialize ⟨⟨0, [[0x62], []]⟩, []⟩) =
      (⟨⟨7, [[0x61], [0x62], []]⟩, []⟩, true) :=
  parse_written_append Base128.lawful answerResults ⟨⟨7, [[0x61]]⟩, []⟩ ⟨⟨0, [[0x62], []]⟩, []⟩
    ⟨by unfold Sized; decide, fun _ hmem => absurd hmem List.not_mem_nil⟩ (by unfold Utf8; decide)
    ⟨by unfold Sized; decide, fun _ hmem => absurd hmem List.not_mem_nil⟩ (by unfold Utf8; decide)

/-- Whatever a message has been read from, it is read from its own serialisation as well, and this
has the size that `ByteSizeLong` computes. -/
theorem reparse (hw : w.Lawful enc) (type : MessageType) (data : List UInt8)
    (message : ProtoMessage type.Fields UnknownField)
    (h : (type.code w).parseFromArray data = (message, true)) :
    (type.code w).parseFromArray ((type.code w).serialize message) = (message, true) ∧
      ((type.code w).serialize message).length = (type.code w).byteSizeLong message := by
  obtain ⟨hsized, hutf8, hunknown⟩ := (type.code w).parsed_wellFormed hw (type.correct hw) h
  exact ⟨(type.code w).parseFromArray_serialize hw (type.correct hw) hsized hutf8 hunknown,
    (type.code w).length_serialize hw (type.correct hw) hsized⟩

/-- An id that is written in one byte more than it takes, and an unknown field ahead of it. -/
theorem reparse_overlong :
    (empty.code base128).parseFromArray ((empty.code base128).serialize
        ⟨⟨1⟩, [⟨2, 5, by decide, by decide⟩]⟩) =
      (⟨⟨1⟩, [⟨2, 5, by decide, by decide⟩]⟩, true) := by
  have hparse : (empty.code base128).parseFromArray [16, 5, 8, 129, 0] =
      (⟨⟨1⟩, [⟨2, 5, by decide, by decide⟩]⟩, true) := by
    have hfirst : (empty.code base128).internalParse ⟨⟨0⟩, []⟩ [16, 5, 8, 129, 0] =
        (empty.code base128).internalParse ⟨⟨0⟩, [⟨2, 5, by decide, by decide⟩]⟩ [8, 129, 0] :=
      (empty.code base128).internalParse_unknown
        (show base128.readTag [16, 5, 8, 129, 0] = some (16, [5, 8, 129, 0]) from rfl) rfl
        (by decide) rfl
    have hsecond : (empty.code base128).internalParse ⟨⟨0⟩, [⟨2, 5, by decide, by decide⟩]⟩
          [8, 129, 0] =
        (empty.code base128).internalParse ⟨⟨1⟩, [⟨2, 5, by decide, by decide⟩]⟩ [] :=
      (empty.code base128).internalParse_field
        (show base128.readTag [8, 129, 0] = some (8, [129, 0]) from rfl) rfl
    rw [MessageCode.parseFromArray]
    change ((_ : ProtoMessage _ _ × _).1, _) = _
    rw [show (empty.code base128).clear = ⟨0⟩ from rfl, hfirst, hsecond,
      MessageCode.internalParse_nil]
    rfl
  exact (reparse Base128.lawful empty [16, 5, 8, 129, 0] _ hparse).1

end MessageType

structure RequestMessage (UnknownField : Type) where
  type : MessageType
  message : ProtoMessage type.Fields UnknownField

namespace ProtobufCodec

variable {UnknownField : Type} {w : WireFormat UnknownField} {enc : WireEncoding UnknownField}

def nameBytes (name : String) : List UInt8 := name.toUTF8.data.toList

def fullName : MessageType → List UInt8
  | .queryResults => nameBytes "ynet.QueryResults"
  | .answerResults => nameBytes "ynet.AnswerResults"
  | .empty => nameBytes "ynet.Empty"

/-- The runtime with the generated classes. -/
def requestRuntime (w : WireFormat UnknownField)
    (adler32 : BitVec 32 → List UInt8 → BitVec 32) :
    Protobuf MessageType (RequestMessage UnknownField) where
  adler32 := adler32
  findMessageTypeByName name :=
    [MessageType.queryResults, .answerResults, .empty].find? fun type => fullName type = name
  getPrototype type := some ⟨type, ⟨(type.code w).clear, []⟩⟩
  new prototype := ⟨prototype.type, ⟨(prototype.type.code w).clear, []⟩⟩
  getTypeName message := fullName message.type
  serialize message := (message.type.code w).serialize message.message
  parseFromArray message data :=
    (⟨message.type, ((message.type.code w).parseFromArray data).1⟩,
      ((message.type.code w).parseFromArray data).2)

theorem createMessage_fullName (adler32 : BitVec 32 → List UInt8 → BitVec 32) (type : MessageType) :
    createMessage (requestRuntime w adler32) (fullName type) =
      some ⟨type, ⟨(type.code w).clear, []⟩⟩ := by
  cases type <;> rfl

/-- What `fillEmptyBuffer` puts into a buffer is parsed to the message it was filled with, or, if
the strings of the message are not UTF-8, refused as a parse error. -/
theorem parse_request_iff (hw : w.Lawful enc) (adler32 : BitVec 32 → List UInt8 → BitVec 32)
    (b : Buffer) (hb : b.Represents []) (message : RequestMessage UnknownField)
    (h : message.type.Writable enc message.message)
    (hsize : encodedSize (requestRuntime w adler32) message < 2 ^ 31) :
    let sent := (fillEmptyBuffer (requestRuntime w adler32) b message).val.readable
    let parsed := parse (requestRuntime w adler32) sent (intOfSize sent.length)
    (accepted parsed = some message ↔ message.type.Utf8 w message.message.fields) ∧
      (¬ message.type.Utf8 w message.message.fields → parsed.2 = .parseError) := by
  obtain ⟨type, message⟩ := message
  have hname : (requestRuntime w adler32).getTypeName ⟨type, message⟩ ≠ [] := by
    cases type <;> exact List.cons_ne_nil _ _
  have hsent : (fillEmptyBuffer (requestRuntime w adler32) b ⟨type, message⟩).val.readable =
      wireBytes (requestRuntime w adler32) ⟨type, message⟩ :=
    (fillEmptyBuffer_represents _ hb _ hsize).readable_eq
  have hparse : parse (requestRuntime w adler32)
      (wireBytes (requestRuntime w adler32) ⟨type, message⟩)
      (encodedSize (requestRuntime w adler32) ⟨type, message⟩) =
        (some ⟨type, ((type.code w).parseFromArray ((type.code w).serialize message)).1⟩,
          bif ((type.code w).parseFromArray ((type.code w).serialize message)).2 then .noError
          else .parseError) :=
    parse_wireBytes (requestRuntime w adler32) hname hsize (createMessage_fullName adler32 type)
  simp only [hsent]
  rw [length_wireBytes, intOfSize_of_lt hsize, hparse]
  have hcode := type.correct hw
  by_cases hutf8 : type.Utf8 w message.fields
  · rw [(type.code w).parseFromArray_serialize hw hcode h.1 hutf8 h.2]
    exact ⟨iff_of_true rfl hutf8, fun hnot => absurd hutf8 hnot⟩
  · have hrefused : ((type.code w).parseFromArray ((type.code w).serialize message)).2 = false := by
      rw [← Bool.not_eq_true, (type.code w).parseFromArray_serialize_iff hw hcode h.1 h.2]
      exact hutf8
    rw [hrefused]
    exact ⟨iff_of_false (fun haccepted => nomatch haccepted) hutf8, fun _ => rfl⟩

theorem laterNumber_pos : 0 < 4 := by decide

theorem laterNumber_lt : 4 < 2 ^ 29 := by decide

/-- A query for the second page of "foo", with a field 4 from a later version of the type. -/
def laterQuery : RequestMessage UnknownVarint where
  type := .queryResults
  message := ⟨⟨[0x66, 0x6f, 0x6f], 2, 20⟩, [⟨4, 300, laterNumber_pos, laterNumber_lt⟩]⟩

theorem writable_laterQuery :
    MessageType.Writable Base128.encoding laterQuery.type laterQuery.message := by
  constructor
  · unfold MessageType.Sized
    decide
  · intro field hmem
    rw [List.mem_singleton.mp hmem]
    change ¬ ((32 : BitVec 32) = 130 ∨ (32 : BitVec 32) = 136 ∨ (32 : BitVec 32) = 144) ∧
      ¬ ((32 : BitVec 32) &&& 7 = 4 ∨ (32 : BitVec 32) = 0)
    decide

theorem parse_request_iff_laterQuery :
    let sent := (fillEmptyBuffer (requestRuntime base128 adler32) (Buffer.create 0 0)
      laterQuery).val.readable
    accepted (parse (requestRuntime base128 adler32) sent (intOfSize sent.length)) =
      some laterQuery :=
  (parse_request_iff Base128.lawful adler32 (Buffer.create 0 0) Buffer.Represents.create
    laterQuery writable_laterQuery (by decide)).1.mpr (by unfold MessageType.Utf8; decide)

end ProtobufCodec

end LearnMuduo
