import LearnMuduo.Protobuf.Wire

/-!
# The wire format in base 128

A runtime as the documents of protobuf describe it: tags, numbers and the lengths of strings are
numbers in base 128. Of unknown fields it keeps those that hold a number.
-/

namespace LearnMuduo

open Framework

structure UnknownVarint where
  number : Nat
  value : BitVec 64
  pos : 0 < number
  lt : number < 2 ^ 29
  deriving DecidableEq, Repr

namespace UnknownVarint

def tag (field : UnknownVarint) : BitVec 32 := BitVec.ofNat 32 (8 * field.number)

theorem toNat_tag (field : UnknownVarint) : field.tag.toNat = 8 * field.number := by
  have hlt := field.lt
  rw [tag, BitVec.toNat_ofNat]
  exact Nat.mod_eq_of_lt (by omega)

def payload (field : UnknownVarint) : List UInt8 := varint 10 field.value.toNat

end UnknownVarint

namespace Base128

def readVarint64 (ptr : List UInt8) : BitVec 64 × Option (List UInt8) :=
  match readVarint 10 ptr with
  | some (n, rest) => (BitVec.ofNat 64 n, some rest)
  | none => (0, none)

def inlineGreedyStringParser (str ptr : List UInt8) : List UInt8 × Option (List UInt8) :=
  match readVarint 5 ptr with
  | some (size, rest) =>
    if size ≤ maxStringSize ∧ size ≤ rest.length then (rest.take size, some (rest.drop size))
    else (str, none)
  | none => (str, none)

def unknownFieldParse (tag : BitVec 32) (fields : List UnknownVarint) (ptr : List UInt8) :
    List UnknownVarint × Option (List UInt8) :=
  if h : tag.toNat % 8 = 0 ∧ 8 ≤ tag.toNat then
    match readVarint64 ptr with
    | (value, some rest) =>
      (fields ++ [⟨tag.toNat / 8, value, by omega, by have := tag.isLt; omega⟩], some rest)
    | (_, none) => (fields, none)
  else (fields, none)

def int32Payload (value : BitVec 32) : List UInt8 := varint 10 (value.signExtend 64).toNat

def stringPayload (s : List UInt8) : List UInt8 := varint 5 s.length ++ s

def serializeUnknownFields (fields : List UnknownVarint) : List UInt8 :=
  fields.flatMap fun field => varint 5 (8 * field.number) ++ field.payload

theorem readVarint64_le {ptr rest : List UInt8} {value : BitVec 64}
    (h : readVarint64 ptr = (value, some rest)) : rest.length ≤ ptr.length := by
  rw [readVarint64] at h
  cases hread : readVarint 10 ptr with
  | none =>
      rw [hread] at h
      cases h
  | some result =>
      rw [hread] at h
      cases h
      exact Nat.le_of_lt (length_of_readVarint hread)

theorem stringParser_eq_some {str ptr str' rest : List UInt8}
    (h : inlineGreedyStringParser str ptr = (str', some rest)) :
    str'.length ≤ maxStringSize ∧ rest.length ≤ ptr.length := by
  rw [inlineGreedyStringParser] at h
  cases hread : readVarint 5 ptr with
  | none =>
      rw [hread] at h
      cases h
  | some result =>
      obtain ⟨size, rest'⟩ := result
      have hlt := length_of_readVarint hread
      simp only [hread] at h
      split at h
      · cases h
        rw [List.length_take, List.length_drop]
        omega
      · cases h

theorem unknownFieldParse_eq_some {tag : BitVec 32} {fields fields' : List UnknownVarint}
    {ptr rest : List UInt8} (h : unknownFieldParse tag fields ptr = (fields', some rest)) :
    (∃ field : UnknownVarint, field.tag = tag ∧ fields' = fields ++ [field]) ∧
      rest.length ≤ ptr.length := by
  rw [unknownFieldParse] at h
  split at h
  · rename_i htag
    rcases hread : readVarint64 ptr with ⟨value, _ | rest'⟩
    · simp only [hread] at h
      cases h
    · simp only [hread] at h
      cases h
      refine ⟨⟨_, BitVec.eq_of_toNat_eq ?_, rfl⟩, readVarint64_le hread⟩
      rw [UnknownVarint.toNat_tag]
      change 8 * (tag.toNat / 8) = _
      omega
  · cases h

end Base128

open Base128 in
def base128 : WireFormat UnknownVarint where
  readTag ptr := (readVarint 5 ptr).map fun (n, rest) => (BitVec.ofNat 32 n, rest)
  readVarint64 := readVarint64
  inlineGreedyStringParser := inlineGreedyStringParser
  expectTag tag ptr := (tagBytes tag).isPrefixOf ptr
  verifyUTF8 s := ByteArray.validateUTF8 ⟨s.toArray⟩
  unknownFieldParse := unknownFieldParse
  writeInt32ToArray field value := varint 5 (8 * field) ++ int32Payload value
  writeString field s := varint 5 (8 * field + 2) ++ stringPayload s
  serializeUnknownFields := serializeUnknownFields
  int32Size value := (int32Payload value).length
  stringSize s := (stringPayload s).length
  computeUnknownFieldsSize fields total := total + (serializeUnknownFields fields).length
  readTag_lt h := by
    obtain ⟨⟨n, rest⟩, hread, heq⟩ := Option.map_eq_some_iff.mp h
    cases heq
    exact length_of_readVarint hread
  readVarint64_le := readVarint64_le
  stringParser_le h := (stringParser_eq_some h).2
  unknownFieldParse_le h := (unknownFieldParse_eq_some h).2

namespace Base128

def encoding : WireEncoding UnknownVarint where
  int32Payload := int32Payload
  stringPayload := stringPayload
  unknownTag := UnknownVarint.tag
  unknownPayload := UnknownVarint.payload

theorem varint_eq_tagBytes {tag : Nat} (h : tag < 16384) : varint 5 tag = tagBytes tag := by
  rw [tagBytes, varint]
  split
  · rfl
  · rw [varint, if_pos (by omega)]

theorem lawful : base128.Lawful encoding where
  readTag_tagBytes {tag} rest _ htag := by
    have hread := readVarint_varint (k := 4) (show tag < 128 ^ 5 by omega) rest
    rw [varint_eq_tagBytes htag] at hread
    change (readVarint 5 _).map _ = _
    rw [hread]
    rfl
  verifyUTF8_nil := by decide
  expectTag_iff ptr _ _ := List.isPrefixOf_iff_prefix
  writeInt32ToArray_eq value _ hfield := by
    rw [← varint_eq_tagBytes (by omega)]
    rfl
  writeString_eq s _ hfield := by
    rw [← varint_eq_tagBytes (by omega)]
    rfl
  readVarint64_int32Payload value rest := by
    have hread := readVarint_varint (k := 9)
      (show (value.signExtend 64).toNat < 128 ^ 10 by
        have hlt := (value.signExtend 64).isLt
        omega) rest
    change readVarint64 (varint 10 _ ++ rest) = _
    rw [readVarint64, hread]
    simp
  stringParser_stringPayload {s} str rest hsize := by
    have hread := readVarint_varint (k := 4) (n := s.length)
      (by rw [maxStringSize] at hsize; omega) (s ++ rest)
    change inlineGreedyStringParser str (varint 5 s.length ++ s ++ rest) = _
    rw [List.append_assoc, inlineGreedyStringParser, hread]
    simp [hsize]
  stringParser_size h := (stringParser_eq_some h).1
  length_int32Payload _ := rfl
  length_stringPayload _ _ := rfl
  serializeUnknownFields_nil := rfl
  readTag_unknown field fields rest := by
    have hlt := field.lt
    have hread := readVarint_varint (k := 4) (n := 8 * field.number) (by omega)
      (field.payload ++ (serializeUnknownFields fields ++ rest))
    change (readVarint 5 (serializeUnknownFields (field :: fields) ++ rest)).map _ = _
    rw [serializeUnknownFields, List.flatMap_cons, List.append_assoc, List.append_assoc]
    rw [serializeUnknownFields] at hread
    rw [hread]
    rfl
  unknownFieldParse_unknown field fields rest := by
    have hpos := field.pos
    have htag := field.toNat_tag
    have hread := readVarint_varint (k := 9) (n := field.value.toNat)
      (by have hlt := field.value.isLt; omega) rest
    have hvalue : readVarint64 (field.payload ++ rest) = (field.value, some rest) := by
      rw [readVarint64, UnknownVarint.payload, hread]
      simp
    have hnumber : field.tag.toNat / 8 = field.number := by omega
    change unknownFieldParse field.tag fields (field.payload ++ rest) = _
    rw [unknownFieldParse, dif_pos (by omega)]
    simp only [hvalue, hnumber]
  unknownFieldParse_ok h := (unknownFieldParse_eq_some h).1
  computeUnknownFieldsSize_eq _ _ := rfl

end Base128

end LearnMuduo
