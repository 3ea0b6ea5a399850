import LearnMuduo.Framework.Varint
import Mathlib.Data.List.Basic

/-!
# Generated messages

`protoc` makes a class of a message. Its parser loops over the tags of the input, with one case for
each field, and keeps the fields it does not know; what it writes are the fields that differ from
their defaults, in the order of their numbers, and then the unknown ones. The protobuf runtime that
the classes call enters as the parameter `WireFormat`.
-/

namespace LearnMuduo

/-- The two bytes of a tag, or the one of a tag below 128. -/
def tagBytes (tag : Nat) : List UInt8 :=
  if tag < 128 then [UInt8.ofNat tag] else [UInt8.ofNat (tag % 128 + 128), UInt8.ofNat (tag / 128)]

/-- The runtime. A pointer is the input from there on, and no input at all stands for the null
pointer. What a reader gives back is not longer than what it gets. -/
structure WireFormat (UnknownField : Type) where
  readTag : List UInt8 → Option (BitVec 32 × List UInt8)
  readVarint64 : List UInt8 → BitVec 64 × Option (List UInt8)
  inlineGreedyStringParser : List UInt8 → List UInt8 → List UInt8 × Option (List UInt8)
  expectTag : Nat → List UInt8 → Bool
  verifyUTF8 : List UInt8 → Bool
  unknownFieldParse :
    BitVec 32 → List UnknownField → List UInt8 → List UnknownField × Option (List UInt8)
  writeInt32ToArray : Nat → BitVec 32 → List UInt8
  /-- `WriteString` and `WriteStringMaybeAliased` -/
  writeString : Nat → List UInt8 → List UInt8
  serializeUnknownFields : List UnknownField → List UInt8
  int32Size : BitVec 32 → Nat
  stringSize : List UInt8 → Nat
  computeUnknownFieldsSize : List UnknownField → Nat → Nat
  readTag_lt : ∀ {ptr rest tag}, readTag ptr = some (tag, rest) → rest.length < ptr.length
  readVarint64_le : ∀ {ptr rest value}, readVarint64 ptr = (value, some rest) →
    rest.length ≤ ptr.length
  stringParser_le : ∀ {ptr rest str str'}, inlineGreedyStringParser str ptr = (str', some rest) →
    rest.length ≤ ptr.length
  unknownFieldParse_le : ∀ {ptr rest tag fields fields'},
    unknownFieldParse tag fields ptr = (fields', some rest) → rest.length ≤ ptr.length

variable {UnknownField : Type}

/-- The longest string that the parser takes. -/
def maxStringSize : Nat := 2147483631

/-- What follows the tag of a field, and the tags of unknown fields. -/
structure WireEncoding (UnknownField : Type) where
  int32Payload : BitVec 32 → List UInt8
  stringPayload : List UInt8 → List UInt8
  unknownTag : UnknownField → BitVec 32
  unknownPayload : UnknownField → List UInt8

/-- The runtime reads and writes this encoding, as far as the classes rely on it. -/
structure WireFormat.Lawful (w : WireFormat UnknownField) (enc : WireEncoding UnknownField) :
    Prop where
  readTag_tagBytes : ∀ {tag} rest, 0 < tag → tag < 16384 →
    w.readTag (tagBytes tag ++ rest) = some (BitVec.ofNat 32 tag, rest)
  verifyUTF8_nil : w.verifyUTF8 [] = true
  expectTag_iff : ∀ {tag} ptr, 128 ≤ tag → tag < 16384 →
    (w.expectTag tag ptr = true ↔ tagBytes tag <+: ptr)
  writeInt32ToArray_eq : ∀ {field} value, 0 < field → field < 2048 →
    w.writeInt32ToArray field value = tagBytes (8 * field) ++ enc.int32Payload value
  writeString_eq : ∀ {field} s, 0 < field → field < 2048 →
    w.writeString field s = tagBytes (8 * field + 2) ++ enc.stringPayload s
  readVarint64_int32Payload : ∀ value rest,
    w.readVarint64 (enc.int32Payload value ++ rest) = (value.signExtend 64, some rest)
  stringParser_stringPayload : ∀ {s} str rest, s.length ≤ maxStringSize →
    w.inlineGreedyStringParser str (enc.stringPayload s ++ rest) = (s, some rest)
  stringParser_size : ∀ {str str' ptr rest},
    w.inlineGreedyStringParser str ptr = (str', some rest) → str'.length ≤ maxStringSize
  length_int32Payload : ∀ value, (enc.int32Payload value).length = w.int32Size value
  length_stringPayload : ∀ s, s.length ≤ maxStringSize →
    (enc.stringPayload s).length = w.stringSize s
  serializeUnknownFields_nil : w.serializeUnknownFields [] = []
  readTag_unknown : ∀ field fields rest,
    w.readTag (w.serializeUnknownFields (field :: fields) ++ rest) =
      some (enc.unknownTag field,
        enc.unknownPayload field ++ (w.serializeUnknownFields fields ++ rest))
  unknownFieldParse_unknown : ∀ field fields rest,
    w.unknownFieldParse (enc.unknownTag field) fields (enc.unknownPayload field ++ rest) =
      (fields ++ [field], some rest)
  unknownFieldParse_ok : ∀ {tag fields fields' ptr rest},
    w.unknownFieldParse tag fields ptr = (fields', some rest) →
      ∃ field, enc.unknownTag field = tag ∧ fields' = fields ++ [field]
  computeUnknownFieldsSize_eq : ∀ fields total,
    w.computeUnknownFieldsSize fields total = total + (w.serializeUnknownFields fields).length

/-- The case of an `int32`. -/
def WireFormat.varintField {Fields : Type} (w : WireFormat UnknownField)
    (set : BitVec 32 → Fields) (ptr : List UInt8) : Fields × Option (List UInt8) :=
  let (value, rest) := w.readVarint64 ptr
  (set (value.setWidth 32), rest)

/-- The case of a `string`, which has been `str` until then. -/
def WireFormat.stringField {Fields : Type} (w : WireFormat UnknownField) (str : List UInt8)
    (set : List UInt8 → Fields) (ptr : List UInt8) : Fields × Option (List UInt8) :=
  let (str, rest) := w.inlineGreedyStringParser str ptr
  (set str, if w.verifyUTF8 str then rest else none)

theorem WireFormat.varintField_eq_some {Fields : Type} {w : WireFormat UnknownField}
    {set : BitVec 32 → Fields} {ptr rest : List UInt8} {fields : Fields}
    (h : w.varintField set ptr = (fields, some rest)) :
    (∃ value, fields = set value) ∧ rest.length ≤ ptr.length := by
  rw [varintField] at h
  rcases hread : w.readVarint64 ptr with ⟨value, rest'⟩
  rw [hread] at h
  cases h
  exact ⟨⟨_, rfl⟩, w.readVarint64_le hread⟩

theorem WireFormat.stringField_eq_some {Fields : Type} {w : WireFormat UnknownField}
    {set : List UInt8 → Fields} {str ptr rest : List UInt8} {fields : Fields}
    (h : w.stringField str set ptr = (fields, some rest)) :
    (∃ s, w.inlineGreedyStringParser str ptr = (s, some rest) ∧ w.verifyUTF8 s = true ∧
      fields = set s) ∧ rest.length ≤ ptr.length := by
  rw [stringField] at h
  rcases hread : w.inlineGreedyStringParser str ptr with ⟨s, rest'⟩
  rw [hread] at h
  by_cases hutf8 : w.verifyUTF8 s = true
  · simp only [hutf8, if_true] at h
    cases h
    exact ⟨⟨s, rfl, hutf8, rfl⟩, w.stringParser_le hread⟩
  · simp only [hutf8] at h
    cases h

/-- The two tests that a case makes, of the field number and of the low byte, are met by one tag
only. -/
theorem tag_eq_iff {tag : BitVec 32} {c : Nat} (hc : c < 256)
    (hnumber : (tag >>> 3).toNat = c / 8) :
    tag.setWidth 8 = BitVec.ofNat 8 c ↔ tag = BitVec.ofNat 32 c := by
  have hshift : (tag >>> 3).toNat = tag.toNat / 8 := by
    rw [BitVec.toNat_ushiftRight, Nat.shiftRight_eq_div_pow]
  rw [BitVec.toNat_eq, BitVec.toNat_eq, BitVec.toNat_setWidth, BitVec.toNat_ofNat,
    BitVec.toNat_ofNat]
  omega

/-- A message with its fields and its `_internal_metadata_`. -/
structure ProtoMessage (Fields UnknownField : Type) where
  fields : Fields
  unknownFields : List UnknownField
  deriving DecidableEq, Repr

/-- How `_InternalParse` returns: at the end of the input, at a tag that is left to the caller
(`SetLastTag`), or with a null pointer. -/
inductive ParseEnd where
  | done
  | lastTag (tag : BitVec 32)
  | failure
  deriving DecidableEq, Repr

/-- What is particular to one class. `parseField` is the `switch` over the tag, without result where
it goes to `handle_unusual`. -/
structure MessageCode (w : WireFormat UnknownField) (Fields : Type) where
  clear : Fields
  parseField : Fields → BitVec 32 → List UInt8 → Option (Fields × Option (List UInt8))
  internalSerialize : Fields → List UInt8
  byteSize : Fields → Nat
  mergeFrom : Fields → Fields → Fields
  parseField_le : ∀ {fields fields' tag ptr rest},
    parseField fields tag ptr = some (fields', some rest) → rest.length ≤ ptr.length

namespace MessageCode

variable {w : WireFormat UnknownField} {Fields : Type} (code : MessageCode w Fields)

/-- `_InternalParse` -/
def internalParse (message : ProtoMessage Fields UnknownField) (ptr : List UInt8) :
    ProtoMessage Fields UnknownField × ParseEnd :=
  if ptr.isEmpty then (message, .done)
  else match _htag : w.readTag ptr with
    | none => (message, .failure)
    | some (tag, ptr') =>
      match _hfield : code.parseField message.fields tag ptr' with
      | some (fields, some rest) => internalParse { message with fields := fields } rest
      | some (fields, none) => ({ message with fields := fields }, .failure)
      | none =>
        if tag &&& 7 = 4 ∨ tag = 0 then (message, .lastTag tag)
        else match _hunknown : w.unknownFieldParse tag message.unknownFields ptr' with
          | (fields, some rest) => internalParse { message with unknownFields := fields } rest
          | (fields, none) => ({ message with unknownFields := fields }, .failure)
termination_by ptr.length
decreasing_by
  · exact Nat.lt_of_le_of_lt (code.parseField_le ‹_›) (w.readTag_lt ‹_›)
  · exact Nat.lt_of_le_of_lt (w.unknownFieldParse_le ‹_›) (w.readTag_lt ‹_›)

/-- `ParseFromArray` -/
def parseFromArray (data : List UInt8) : ProtoMessage Fields UnknownField × Bool :=
  let result := code.internalParse ⟨code.clear, []⟩ data
  (result.1, result.2 == .done)

/-- `_InternalSerialize` with the unknown fields -/
def serialize (message : ProtoMessage Fields UnknownField) : List UInt8 :=
  code.internalSerialize message.fields ++
    if message.unknownFields.isEmpty then [] else w.serializeUnknownFields message.unknownFields

def byteSizeLong (message : ProtoMessage Fields UnknownField) : Nat :=
  let total_size := code.byteSize message.fields
  if message.unknownFields.isEmpty then total_size
  else w.computeUnknownFieldsSize message.unknownFields total_size

/-- `MergeFrom` -/
def merge (message other : ProtoMessage Fields UnknownField) : ProtoMessage Fields UnknownField :=
  ⟨code.mergeFrom message.fields other.fields, message.unknownFields ++ other.unknownFields⟩

variable {message : ProtoMessage Fields UnknownField} {ptr ptr' rest : List UInt8}
  {tag : BitVec 32} {fields : Fields}

theorem internalParse_nil : code.internalParse message [] = (message, .done) := by
  rw [internalParse]
  rfl

theorem ne_nil_of_readTag (h : w.readTag ptr = some (tag, ptr')) : ¬ ptr.isEmpty = true := by
  intro hempty
  have hlt := w.readTag_lt h
  rw [List.isEmpty_iff.mp hempty] at hlt
  exact Nat.not_lt_zero _ hlt

theorem internalParse_field (htag : w.readTag ptr = some (tag, ptr'))
    (hfield : code.parseField message.fields tag ptr' = some (fields, some rest)) :
    code.internalParse message ptr = code.internalParse { message with fields := fields } rest := by
  rw [internalParse, if_neg (ne_nil_of_readTag htag)]
  split
  · rename_i hnone
    cases htag.symm.trans hnone
  · rename_i tag₁ ptr₁ htag₁
    cases htag.symm.trans htag₁
    split
    · rename_i hfield₁
      cases hfield.symm.trans hfield₁
      rfl
    · rename_i hfield₁
      cases hfield.symm.trans hfield₁
    · rename_i hfield₁
      cases hfield.symm.trans hfield₁

theorem internalParse_field_failure (htag : w.readTag ptr = some (tag, ptr'))
    (hfield : code.parseField message.fields tag ptr' = some (fields, none)) :
    code.internalParse message ptr = ({ message with fields := fields }, .failure) := by
  rw [internalParse, if_neg (ne_nil_of_readTag htag)]
  split
  · rename_i hnone
    cases htag.symm.trans hnone
  · rename_i tag₁ ptr₁ htag₁
    cases htag.symm.trans htag₁
    split
    · rename_i hfield₁
      cases hfield.symm.trans hfield₁
    · rename_i hfield₁
      cases hfield.symm.trans hfield₁
      rfl
    · rename_i hfield₁
      cases hfield.symm.trans hfield₁

theorem internalParse_unknown {unknownFields : List UnknownField}
    (htag : w.readTag ptr = some (tag, ptr'))
    (hfield : code.parseField message.fields tag ptr' = none)
    (hlast : ¬ (tag &&& 7 = 4 ∨ tag = 0))
    (hunknown : w.unknownFieldParse tag message.unknownFields ptr' = (unknownFields, some rest)) :
    code.internalParse message ptr =
      code.internalParse { message with unknownFields := unknownFields } rest := by
  rw [internalParse, if_neg (ne_nil_of_readTag htag)]
  split
  · rename_i hnone
    cases htag.symm.trans hnone
  · rename_i tag₁ ptr₁ htag₁
    cases htag.symm.trans htag₁
    split
    · rename_i hfield₁
      cases hfield.symm.trans hfield₁
    · rename_i hfield₁
      cases hfield.symm.trans hfield₁
    · rw [if_neg hlast]
      split
      · rename_i hunknown₁
        cases hunknown.symm.trans hunknown₁
        rfl
      · rename_i hunknown₁
        cases hunknown.symm.trans hunknown₁

/-- What every round of the loop keeps holds of a message that is parsed to the end. -/
theorem internalParse_keeps {P : ProtoMessage Fields UnknownField → Prop}
    (hfield : ∀ {message tag ptr fields rest}, P message →
      code.parseField message.fields tag ptr = some (fields, some rest) →
        P { message with fields := fields })
    (hunknown : ∀ {message tag ptr unknownFields rest}, P message →
      code.parseField message.fields tag ptr = none → ¬ (tag &&& 7 = 4 ∨ tag = 0) →
        w.unknownFieldParse tag message.unknownFields ptr = (unknownFields, some rest) →
          P { message with unknownFields := unknownFields })
    (h : P message) (hdone : (code.internalParse message ptr).2 = .done) :
    P (code.internalParse message ptr).1 := by
  fun_induction code.internalParse message ptr with
  | case1 => exact h
  | case2 => cases hdone
  | case3 message ptr _ tag ptr' _ fields rest heq ih => exact ih (hfield h heq) hdone
  | case4 => cases hdone
  | case5 => cases hdone
  | case6 message ptr _ tag ptr' _ hnone hlast unknownFields rest heq ih =>
      exact ih (hunknown h hnone hlast heq) hdone
  | case7 => cases hdone

/-- The parser and the serialiser of a class fit together. The parser knows the tags in `knows`, the
strings of a message that is `Sized` are not too long for it, and those of one that is `Utf8` pass
its check. -/
structure Correct (knows : BitVec 32 → Prop) (Sized Utf8 : Fields → Prop) : Prop where
  parseField_none : ∀ {fields tag ptr}, code.parseField fields tag ptr = none ↔ ¬ knows tag
  sized_clear : Sized code.clear
  utf8_clear : Utf8 code.clear
  sized_parseField : ∀ {fields tag ptr fields' rest}, Sized fields →
    code.parseField fields tag ptr = some (fields', some rest) → Sized fields'
  utf8_parseField : ∀ {fields tag ptr fields' rest}, Utf8 fields →
    code.parseField fields tag ptr = some (fields', some rest) → Utf8 fields'
  clear_mergeFrom : ∀ fields, code.mergeFrom code.clear fields = fields
  parse_serialize : ∀ {fields} (message : ProtoMessage Fields UnknownField) (rest : List UInt8),
    Sized fields → Utf8 fields →
      code.internalParse message (code.internalSerialize fields ++ rest) =
        code.internalParse { message with fields := code.mergeFrom message.fields fields } rest
  parse_failure : ∀ {fields} (message : ProtoMessage Fields UnknownField) (rest : List UInt8),
    Sized fields → ¬ Utf8 fields →
      (code.internalParse message (code.internalSerialize fields ++ rest)).2 = .failure
  length_internalSerialize : ∀ {fields}, Sized fields →
    (code.internalSerialize fields).length = code.byteSize fields

/-- The parser keeps a field with this tag as an unknown one. -/
def Unusual (knows : BitVec 32 → Prop) (tag : BitVec 32) : Prop :=
  ¬ knows tag ∧ ¬ (tag &&& 7 = 4 ∨ tag = 0)

section Correct

variable {enc : WireEncoding UnknownField} {knows : BitVec 32 → Prop} {Sized Utf8 : Fields → Prop}

theorem serialize_eq (hw : w.Lawful enc) (message : ProtoMessage Fields UnknownField) :
    code.serialize message =
      code.internalSerialize message.fields ++ w.serializeUnknownFields message.unknownFields := by
  rw [serialize]
  cases hnil : message.unknownFields with
  | nil => rw [hw.serializeUnknownFields_nil, List.isEmpty_nil, if_pos rfl]
  | cons field fields => rfl

theorem length_serialize (hw : w.Lawful enc) (hcode : code.Correct knows Sized Utf8)
    {message : ProtoMessage Fields UnknownField} (h : Sized message.fields) :
    (code.serialize message).length = code.byteSizeLong message := by
  rw [serialize, byteSizeLong, List.length_append, hcode.length_internalSerialize h]
  cases message.unknownFields with
  | nil => rfl
  | cons field fields => exact (hw.computeUnknownFieldsSize_eq _ _).symm

theorem parse_serializeUnknownFields (hw : w.Lawful enc) (hcode : code.Correct knows Sized Utf8)
    {unknownFields : List UnknownField}
    (h : ∀ field ∈ unknownFields, Unusual knows (enc.unknownTag field)) (rest : List UInt8) :
    code.internalParse message (w.serializeUnknownFields unknownFields ++ rest) =
      code.internalParse
        { message with unknownFields := message.unknownFields ++ unknownFields } rest := by
  induction unknownFields generalizing message with
  | nil => rw [hw.serializeUnknownFields_nil, List.nil_append, List.append_nil]
  | cons field fields ih =>
      obtain ⟨hknows, hlast⟩ := h field List.mem_cons_self
      rw [code.internalParse_unknown (hw.readTag_unknown field fields rest)
          (hcode.parseField_none.mpr hknows) hlast (hw.unknownFieldParse_unknown _ _ _),
        ih fun field hmem => h field (List.mem_cons_of_mem _ hmem), List.append_assoc]
      rfl

theorem parse_serialize_append (hw : w.Lawful enc) (hcode : code.Correct knows Sized Utf8)
    (message : ProtoMessage Fields UnknownField) {other : ProtoMessage Fields UnknownField}
    (hsized : Sized other.fields) (hutf8 : Utf8 other.fields)
    (hunknown : ∀ field ∈ other.unknownFields, Unusual knows (enc.unknownTag field))
    (rest : List UInt8) :
    code.internalParse message (code.serialize other ++ rest) =
      code.internalParse (code.merge message other) rest := by
  rw [code.serialize_eq hw, List.append_assoc, hcode.parse_serialize _ _ hsized hutf8,
    code.parse_serializeUnknownFields hw hcode hunknown]
  rfl

theorem clear_merge (hcode : code.Correct knows Sized Utf8)
    (message : ProtoMessage Fields UnknownField) :
    code.merge ⟨code.clear, []⟩ message = message := by
  rw [merge, hcode.clear_mergeFrom, List.nil_append]

theorem parseFromArray_serialize (hw : w.Lawful enc) (hcode : code.Correct knows Sized Utf8)
    (hsized : Sized message.fields) (hutf8 : Utf8 message.fields)
    (hunknown : ∀ field ∈ message.unknownFields, Unusual knows (enc.unknownTag field)) :
    code.parseFromArray (code.serialize message) = (message, true) := by
  have hparse := code.parse_serialize_append hw hcode ⟨code.clear, []⟩ hsized hutf8 hunknown []
  rw [List.append_nil, code.clear_merge hcode, internalParse_nil] at hparse
  rw [parseFromArray, hparse]
  rfl

theorem parseFromArray_serialize_iff (hw : w.Lawful enc) (hcode : code.Correct knows Sized Utf8)
    (hsized : Sized message.fields)
    (hunknown : ∀ field ∈ message.unknownFields, Unusual knows (enc.unknownTag field)) :
    (code.parseFromArray (code.serialize message)).2 = true ↔ Utf8 message.fields := by
  by_cases hutf8 : Utf8 message.fields
  · rw [code.parseFromArray_serialize hw hcode hsized hutf8 hunknown]
    exact iff_of_true rfl hutf8
  · have hfailure := hcode.parse_failure ⟨code.clear, []⟩
      (w.serializeUnknownFields message.unknownFields) hsized hutf8
    rw [parseFromArray, code.serialize_eq hw, hfailure]
    exact iff_of_false Bool.false_ne_true hutf8

theorem parseFromArray_append (hw : w.Lawful enc) (hcode : code.Correct knows Sized Utf8)
    {other : ProtoMessage Fields UnknownField}
    (hsized : Sized message.fields) (hutf8 : Utf8 message.fields)
    (hunknown : ∀ field ∈ message.unknownFields, Unusual knows (enc.unknownTag field))
    (hsized' : Sized other.fields) (hutf8' : Utf8 other.fields)
    (hunknown' : ∀ field ∈ other.unknownFields, Unusual knows (enc.unknownTag field)) :
    code.parseFromArray (code.serialize message ++ code.serialize other) =
      (code.merge message other, true) := by
  have hparse := code.parse_serialize_append hw hcode message hsized' hutf8' hunknown' []
  rw [List.append_nil, internalParse_nil] at hparse
  rw [parseFromArray, code.parse_serialize_append hw hcode _ hsized hutf8 hunknown,
    code.clear_merge hcode, hparse]
  rfl

theorem parsed_wellFormed (hw : w.Lawful enc) (hcode : code.Correct knows Sized Utf8)
    {data : List UInt8} (h : code.parseFromArray data = (message, true)) :
    Sized message.fields ∧ Utf8 message.fields ∧
      ∀ field ∈ message.unknownFields, Unusual knows (enc.unknownTag field) := by
  rw [parseFromArray, Prod.mk.injEq, beq_iff_eq] at h
  obtain ⟨hmessage, hdone⟩ := h
  rw [← hmessage]
  refine code.internalParse_keeps (P := fun message => Sized message.fields ∧ Utf8 message.fields ∧
    ∀ field ∈ message.unknownFields, Unusual knows (enc.unknownTag field)) ?_ ?_ ?_ hdone
  · rintro message tag ptr fields rest ⟨hsized, hutf8, hunknown⟩ hfield
    exact ⟨hcode.sized_parseField hsized hfield, hcode.utf8_parseField hutf8 hfield, hunknown⟩
  · rintro message tag ptr unknownFields rest ⟨hsized, hutf8, hunknown⟩ hnone hlast hparse
    obtain ⟨field, htag, rfl⟩ := hw.unknownFieldParse_ok hparse
    refine ⟨hsized, hutf8, fun field' hmem => ?_⟩
    rcases List.mem_append.mp hmem with hmem | hmem
    · exact hunknown field' hmem
    · rw [List.mem_singleton.mp hmem, htag]
      exact ⟨hcode.parseField_none.mp hnone, hlast⟩
  · exact ⟨hcode.sized_clear, hcode.utf8_clear, fun _ hmem => absurd hmem List.not_mem_nil⟩

end Correct

section Fields

theorem setWidth_signExtend (x : BitVec 32) : (x.signExtend 64).setWidth 32 = x := by
  ext i hi
  simp [BitVec.getLsbD_signExtend, hi]
  omega

variable {enc : WireEncoding UnknownField} {number : Nat}

theorem parse_int32Field (hw : w.Lawful enc) (get : Fields → BitVec 32)
    (set : BitVec 32 → Fields → Fields) (hset : ∀ fields, set (get fields) fields = fields)
    (hnumber : 0 < number ∧ number < 2048)
    (hcase : ∀ fields ptr, code.parseField fields (BitVec.ofNat 32 (8 * number)) ptr =
      some (w.varintField (fun value => set value fields) ptr)) (value : BitVec 32) :
    code.internalParse message
        ((if value ≠ 0 then w.writeInt32ToArray number value else []) ++ rest) =
      code.internalParse { message with
        fields := set (if value ≠ 0 then value else get message.fields) message.fields } rest := by
  by_cases hzero : value ≠ 0
  · have htag : w.readTag (tagBytes (8 * number) ++ (enc.int32Payload value ++ rest)) =
        some (BitVec.ofNat 32 (8 * number), enc.int32Payload value ++ rest) :=
      hw.readTag_tagBytes _ (by omega) (by omega)
    rw [if_pos hzero, if_pos hzero, hw.writeInt32ToArray_eq value hnumber.1 hnumber.2,
      List.append_assoc, code.internalParse_field htag]
    rw [hcase, WireFormat.varintField, hw.readVarint64_int32Payload]
    simp only [setWidth_signExtend]
  · rw [if_neg hzero, if_neg hzero, List.nil_append, hset]

theorem readTag_writeString (hw : w.Lawful enc) (hnumber : 0 < number ∧ number < 2047)
    (s : List UInt8) :
    w.readTag (w.writeString number s ++ rest) =
      some (BitVec.ofNat 32 (8 * number + 2), enc.stringPayload s ++ rest) := by
  rw [hw.writeString_eq s hnumber.1 (by omega), List.append_assoc]
  exact hw.readTag_tagBytes _ (by omega) (by omega)

theorem parse_stringField (hw : w.Lawful enc) (str : Fields → List UInt8)
    (set : List UInt8 → Fields → Fields) (hset : ∀ fields, set (str fields) fields = fields)
    (hnumber : 0 < number ∧ number < 2047)
    (hcase : ∀ fields ptr, code.parseField fields (BitVec.ofNat 32 (8 * number + 2)) ptr =
      some (w.stringField (str fields) (fun s => set s fields) ptr)) {s : List UInt8}
    (hsize : s.length ≤ maxStringSize) (hutf8 : w.verifyUTF8 s = true) :
    code.internalParse message ((if 0 < s.length then w.writeString number s else []) ++ rest) =
      code.internalParse { message with
        fields := set (if 0 < s.length then s else str message.fields) message.fields } rest := by
  by_cases hempty : 0 < s.length
  · rw [if_pos hempty, if_pos hempty, code.internalParse_field (readTag_writeString hw hnumber s)]
    rw [hcase, WireFormat.stringField, hw.stringParser_stringPayload _ _ hsize]
    simp only [hutf8, if_true]
  · rw [if_neg hempty, if_neg hempty, List.nil_append, hset]

theorem parse_stringField_failure (hw : w.Lawful enc) (str : Fields → List UInt8)
    (set : List UInt8 → Fields → Fields) (hnumber : 0 < number ∧ number < 2047)
    (hcase : ∀ fields ptr, code.parseField fields (BitVec.ofNat 32 (8 * number + 2)) ptr =
      some (w.stringField (str fields) (fun s => set s fields) ptr)) {s : List UInt8}
    (hsize : s.length ≤ maxStringSize) (hutf8 : ¬ w.verifyUTF8 s = true) :
    (code.internalParse message
      ((if 0 < s.length then w.writeString number s else []) ++ rest)).2 = .failure := by
  have hempty : 0 < s.length := by
    rcases s with _ | ⟨byte, s⟩
    · exact absurd hw.verifyUTF8_nil hutf8
    · exact Nat.zero_lt_succ _
  rw [if_pos hempty, code.internalParse_field_failure (readTag_writeString hw hnumber s)]
  rw [hcase, WireFormat.stringField, hw.stringParser_stringPayload _ _ hsize]
  simp only [hutf8]
  rfl

theorem length_int32Field (hw : w.Lawful enc) (hnumber : 0 < number ∧ number < 2048)
    (value : BitVec 32) :
    (if value ≠ 0 then w.writeInt32ToArray number value else []).length =
      if value ≠ 0 then (tagBytes (8 * number)).length + w.int32Size value else 0 := by
  split
  · rw [hw.writeInt32ToArray_eq value hnumber.1 hnumber.2, List.length_append,
      hw.length_int32Payload]
  · rfl

theorem length_writeString (hw : w.Lawful enc) (hnumber : 0 < number ∧ number < 2048)
    {s : List UInt8} (hsize : s.length ≤ maxStringSize) :
    (w.writeString number s).length = (tagBytes (8 * number + 2)).length + w.stringSize s := by
  rw [hw.writeString_eq s hnumber.1 hnumber.2, List.length_append, hw.length_stringPayload s hsize]

theorem default_or_self {α : Type} {p : Prop} [Decidable p] {default value : α}
    (h : ¬ p → value = default) : (if p then value else default) = value := by
  split
  · rfl
  · rename_i hp
    exact (h hp).symm

end Fields

end MessageCode

end LearnMuduo
