import LearnMuduo.Protobuf.Wire

/-!
# The messages of `request.proto`
-/

namespace LearnMuduo

variable {UnknownField : Type} (w : WireFormat UnknownField)

namespace QueryResults

structure Fields where
  query : List UInt8
  page_number : BitVec 32
  result_per_page : BitVec 32
  deriving DecidableEq, Repr

def clear : Fields := ⟨[], 0, 0⟩

def parseField (fields : Fields) (tag : BitVec 32) (ptr : List UInt8) :
    Option (Fields × Option (List UInt8)) :=
  match (tag >>> 3).toNat with
  | 16 =>
    if tag.setWidth 8 = 130#8 then
      some (w.stringField fields.query (fun str => { fields with query := str }) ptr)
    else none
  | 17 =>
    if tag.setWidth 8 = 136#8 then
      some (w.varintField (fun value => { fields with page_number := value }) ptr)
    else none
  | 18 =>
    if tag.setWidth 8 = 144#8 then
      some (w.varintField (fun value => { fields with result_per_page := value }) ptr)
    else none
  | _ => none

def internalSerialize (fields : Fields) : List UInt8 :=
  (if 0 < fields.query.length then w.writeString 16 fields.query else []) ++
    ((if fields.page_number ≠ 0 then w.writeInt32ToArray 17 fields.page_number else []) ++
    (if fields.result_per_page ≠ 0 then w.writeInt32ToArray 18 fields.result_per_page else []))

def byteSize (fields : Fields) : Nat :=
  (if 0 < fields.query.length then 2 + w.stringSize fields.query else 0) +
    (if fields.page_number ≠ 0 then 2 + w.int32Size fields.page_number else 0) +
    (if fields.result_per_page ≠ 0 then 2 + w.int32Size fields.result_per_page else 0)

def mergeFrom (fields other : Fields) : Fields where
  query := if 0 < other.query.length then other.query else fields.query
  page_number := if other.page_number ≠ 0 then other.page_number else fields.page_number
  result_per_page :=
    if other.result_per_page ≠ 0 then other.result_per_page else fields.result_per_page

/-- The tags of the fields. -/
def Knows (tag : BitVec 32) : Prop := tag = 130 ∨ tag = 136 ∨ tag = 144

theorem parseField_eq_none_iff {fields : Fields} {tag : BitVec 32} {ptr : List UInt8} :
    parseField w fields tag ptr = none ↔ ¬ Knows tag := by
  constructor
  · rintro hnone (rfl | rfl | rfl) <;> cases hnone
  · intro hknows
    rw [parseField]
    split
    · rename_i hnumber
      exact if_neg fun hlow => hknows (Or.inl ((tag_eq_iff (by decide) hnumber).mp hlow))
    · rename_i hnumber
      exact if_neg fun hlow => hknows (Or.inr (Or.inl ((tag_eq_iff (by decide) hnumber).mp hlow)))
    · rename_i hnumber
      exact if_neg fun hlow => hknows (Or.inr (Or.inr ((tag_eq_iff (by decide) hnumber).mp hlow)))
    · rfl

theorem parseField_cases {fields fields' : Fields} {tag : BitVec 32} {ptr rest : List UInt8}
    (h : parseField w fields tag ptr = some (fields', some rest)) :
    (fields'.query = fields.query ∨ w.verifyUTF8 fields'.query = true ∧
      w.inlineGreedyStringParser fields.query ptr = (fields'.query, some rest)) ∧
      rest.length ≤ ptr.length := by
  have hknows : Knows tag := by
    by_contra hknows
    rw [(parseField_eq_none_iff w).mpr hknows] at h
    cases h
  rcases hknows with rfl | rfl | rfl
  · obtain ⟨⟨s, hread, hutf8, rfl⟩, hle⟩ := WireFormat.stringField_eq_some (Option.some.inj h)
    exact ⟨Or.inr ⟨hutf8, hread⟩, hle⟩
  · obtain ⟨⟨value, rfl⟩, hle⟩ := WireFormat.varintField_eq_some (Option.some.inj h)
    exact ⟨Or.inl rfl, hle⟩
  · obtain ⟨⟨value, rfl⟩, hle⟩ := WireFormat.varintField_eq_some (Option.some.inj h)
    exact ⟨Or.inl rfl, hle⟩

def code : MessageCode w Fields where
  clear := clear
  parseField := parseField w
  internalSerialize := internalSerialize w
  byteSize := byteSize w
  mergeFrom := mergeFrom
  parseField_le h := (parseField_cases w h).2

variable {w} {enc : WireEncoding UnknownField}

theorem parse_query (hw : w.Lawful enc) {s : List UInt8} (hsize : s.length ≤ maxStringSize)
    (hutf8 : w.verifyUTF8 s = true) (message : ProtoMessage Fields UnknownField)
    (rest : List UInt8) :
    (code w).internalParse message ((if 0 < s.length then w.writeString 16 s else []) ++ rest) =
      (code w).internalParse { message with fields := { message.fields with
        query := if 0 < s.length then s else message.fields.query } } rest :=
  (code w).parse_stringField hw Fields.query (fun s fields => { fields with query := s })
    (fun _ => rfl) (by decide) (fun _ _ => rfl) hsize hutf8

theorem parse_page_number (hw : w.Lawful enc) (value : BitVec 32)
    (message : ProtoMessage Fields UnknownField) (rest : List UInt8) :
    (code w).internalParse message
        ((if value ≠ 0 then w.writeInt32ToArray 17 value else []) ++ rest) =
      (code w).internalParse { message with fields := { message.fields with
        page_number := if value ≠ 0 then value else message.fields.page_number } } rest :=
  (code w).parse_int32Field hw Fields.page_number
    (fun value fields => { fields with page_number := value }) (fun _ => rfl) (by decide)
    (fun _ _ => rfl) value

theorem parse_result_per_page (hw : w.Lawful enc) (value : BitVec 32)
    (message : ProtoMessage Fields UnknownField) (rest : List UInt8) :
    (code w).internalParse message
        ((if value ≠ 0 then w.writeInt32ToArray 18 value else []) ++ rest) =
      (code w).internalParse { message with fields := { message.fields with
        result_per_page := if value ≠ 0 then value else message.fields.result_per_page } } rest :=
  (code w).parse_int32Field hw Fields.result_per_page
    (fun value fields => { fields with result_per_page := value }) (fun _ => rfl) (by decide)
    (fun _ _ => rfl) value

theorem correct (hw : w.Lawful enc) :
    (code w).Correct Knows (fun fields => fields.query.length ≤ maxStringSize)
      (fun fields => w.verifyUTF8 fields.query = true) where
  parseField_none := parseField_eq_none_iff w
  sized_clear := Nat.zero_le _
  utf8_clear := hw.verifyUTF8_nil
  sized_parseField hsized h := by
    rcases (parseField_cases w h).1 with heq | ⟨-, hread⟩
    · rw [heq]
      exact hsized
    · exact hw.stringParser_size hread
  utf8_parseField hutf8 h := by
    rcases (parseField_cases w h).1 with heq | ⟨hutf8, -⟩
    · rw [heq]
      exact hutf8
    · exact hutf8
  clear_mergeFrom fields := by
    obtain ⟨query, page_number, result_per_page⟩ := fields
    exact congr (congrArg₂ Fields.mk
      (MessageCode.default_or_self fun hempty => List.length_eq_zero_iff.mp (by omega))
      (MessageCode.default_or_self not_not.mp)) (MessageCode.default_or_self not_not.mp)
  parse_serialize {fields} message rest hsized hutf8 := by
    change (code w).internalParse message (internalSerialize w fields ++ rest) = _
    rw [internalSerialize, List.append_assoc, List.append_assoc, parse_query hw hsized hutf8,
      parse_page_number hw, parse_result_per_page hw]
    rfl
  parse_failure {fields} message rest hsized hutf8 := by
    change ((code w).internalParse message (internalSerialize w fields ++ rest)).2 = _
    rw [internalSerialize, List.append_assoc]
    exact (code w).parse_stringField_failure hw Fields.query
      (fun s fields => { fields with query := s }) (by decide) (fun _ _ => rfl) hsized hutf8
  length_internalSerialize {fields} hsized := by
    have hquery : (if 0 < fields.query.length then w.writeString 16 fields.query else []).length =
        if 0 < fields.query.length then 2 + w.stringSize fields.query else 0 := by
      rw [apply_ite List.length, MessageCode.length_writeString hw (by decide) hsized]
      rfl
    change (internalSerialize w fields).length = byteSize w fields
    rw [internalSerialize, List.length_append, List.length_append, hquery,
      MessageCode.length_int32Field hw (by decide), MessageCode.length_int32Field hw (by decide),
      ← Nat.add_assoc]
    rfl

end QueryResults

namespace AnswerResults

structure Fields where
  page_number : BitVec 32
  dataValue : List (List UInt8)
  deriving DecidableEq, Repr

def clear : Fields := ⟨0, []⟩

/-- The inner loop of case 17, which takes further values as long as their tag follows. -/
def parseDataValue (fields : Fields) (ptr : List UInt8) : Fields × Option (List UInt8) :=
  match _h : w.inlineGreedyStringParser [] ptr with
  | (str, none) => ({ fields with dataValue := fields.dataValue ++ [str] }, none)
  | (str, some rest) =>
    let fields := { fields with dataValue := fields.dataValue ++ [str] }
    if w.verifyUTF8 str then
      if _hrest : rest.isEmpty then (fields, some rest)
      else if w.expectTag 138 rest then parseDataValue fields (rest.drop 2)
      else (fields, some rest)
    else (fields, none)
termination_by ptr.length
decreasing_by
  have hle := w.stringParser_le _h
  have hpos := List.length_pos_iff.mpr fun hnil => _hrest (List.isEmpty_iff.mpr hnil)
  rw [List.length_drop]
  omega

def parseField (fields : Fields) (tag : BitVec 32) (ptr : List UInt8) :
    Option (Fields × Option (List UInt8)) :=
  match (tag >>> 3).toNat with
  | 16 =>
    if tag.setWidth 8 = 128#8 then
      some (w.varintField (fun value => { fields with page_number := value }) ptr)
    else none
  | 17 => if tag.setWidth 8 = 138#8 then some (parseDataValue w fields ptr) else none
  | _ => none

def internalSerialize (fields : Fields) : List UInt8 :=
  (if fields.page_number ≠ 0 then w.writeInt32ToArray 16 fields.page_number else []) ++
    fields.dataValue.flatMap (w.writeString 17)

def byteSize (fields : Fields) : Nat :=
  2 * fields.dataValue.length + (fields.dataValue.map w.stringSize).sum +
    if fields.page_number ≠ 0 then 2 + w.int32Size fields.page_number else 0

def mergeFrom (fields other : Fields) : Fields where
  page_number := if other.page_number ≠ 0 then other.page_number else fields.page_number
  dataValue := fields.dataValue ++ other.dataValue

def Knows (tag : BitVec 32) : Prop := tag = 128 ∨ tag = 138

theorem parseField_eq_none_iff {fields : Fields} {tag : BitVec 32} {ptr : List UInt8} :
    parseField w fields tag ptr = none ↔ ¬ Knows tag := by
  constructor
  · rintro hnone (rfl | rfl) <;> cases hnone
  · intro hknows
    rw [parseField]
    split
    · rename_i hnumber
      exact if_neg fun hlow => hknows (Or.inl ((tag_eq_iff (by decide) hnumber).mp hlow))
    · rename_i hnumber
      exact if_neg fun hlow => hknows (Or.inr ((tag_eq_iff (by decide) hnumber).mp hlow))
    · rfl

theorem parseDataValue_keeps {P : List UInt8 → Prop}
    (hstr : ∀ {str ptr rest}, w.inlineGreedyStringParser [] ptr = (str, some rest) →
      w.verifyUTF8 str = true → P str)
    {fields fields' : Fields} {ptr rest : List UInt8}
    (h : parseDataValue w fields ptr = (fields', some rest)) (hP : ∀ s ∈ fields.dataValue, P s) :
    (∀ s ∈ fields'.dataValue, P s) ∧ rest.length ≤ ptr.length := by
  have hadd : ∀ {fields : Fields} {str}, (∀ s ∈ fields.dataValue, P s) → P str →
      ∀ s ∈ fields.dataValue ++ [str], P s := by
    intro fields str hP hlast s hmem
    rcases List.mem_append.mp hmem with hmem | hmem
    · exact hP s hmem
    · rw [List.mem_singleton.mp hmem]
      exact hlast
  fun_induction parseDataValue w fields ptr with
  | case1 => cases h
  | case2 fields ptr str rest' hread added hutf8 =>
      obtain ⟨hfields, hrest⟩ := Prod.mk.inj h
      rw [← hfields, ← Option.some.inj hrest]
      exact ⟨hadd hP (hstr hread hutf8), w.stringParser_le hread⟩
  | case3 fields ptr str rest' hread added hutf8 hmore hexpect ih =>
      have hle := w.stringParser_le hread
      obtain ⟨hall, hrest⟩ := ih h (hadd hP (hstr hread hutf8))
      rw [List.length_drop] at hrest
      exact ⟨hall, by omega⟩
  | case4 fields ptr str rest' hread added hutf8 =>
      obtain ⟨hfields, hrest⟩ := Prod.mk.inj h
      rw [← hfields, ← Option.some.inj hrest]
      exact ⟨hadd hP (hstr hread hutf8), w.stringParser_le hread⟩
  | case5 => cases (Prod.mk.inj h).2

theorem parseField_keeps {P : List UInt8 → Prop}
    (hstr : ∀ {str ptr rest}, w.inlineGreedyStringParser [] ptr = (str, some rest) →
      w.verifyUTF8 str = true → P str)
    {fields fields' : Fields} {tag : BitVec 32} {ptr rest : List UInt8}
    (h : parseField w fields tag ptr = some (fields', some rest))
    (hP : ∀ s ∈ fields.dataValue, P s) :
    (∀ s ∈ fields'.dataValue, P s) ∧ rest.length ≤ ptr.length := by
  have hknows : Knows tag := by
    by_contra hknows
    rw [(parseField_eq_none_iff w).mpr hknows] at h
    cases h
  rcases hknows with rfl | rfl
  · obtain ⟨⟨value, rfl⟩, hle⟩ := WireFormat.varintField_eq_some (Option.some.inj h)
    exact ⟨hP, hle⟩
  · exact parseDataValue_keeps w hstr (Option.some.inj h) hP

def code : MessageCode w Fields where
  clear := clear
  parseField := parseField w
  internalSerialize := internalSerialize w
  byteSize := byteSize w
  mergeFrom := mergeFrom
  parseField_le h := (parseField_keeps w (P := fun _ => True) (fun _ _ => trivial) h
    fun _ _ => trivial).2

variable {w} {enc : WireEncoding UnknownField}

theorem parseDataValue_eq (fields : Fields) {ptr str rest : List UInt8}
    (hread : w.inlineGreedyStringParser [] ptr = (str, some rest))
    (hutf8 : w.verifyUTF8 str = true) :
    parseDataValue w fields ptr =
      if rest.isEmpty then ({ fields with dataValue := fields.dataValue ++ [str] }, some rest)
      else if w.expectTag 138 rest then
        parseDataValue w { fields with dataValue := fields.dataValue ++ [str] } (rest.drop 2)
      else ({ fields with dataValue := fields.dataValue ++ [str] }, some rest) := by
  rw [parseDataValue]
  split
  · rename_i hnone
    cases hread.symm.trans hnone
  · rename_i hsome
    cases hread.symm.trans hsome
    rw [if_pos hutf8]
    rfl

/-- A value that the inner loop takes is one that the outer loop would take. -/
theorem parse_dataValue (hw : w.Lawful enc) {s : List UInt8} (hsize : s.length ≤ maxStringSize)
    (hutf8 : w.verifyUTF8 s = true) (message : ProtoMessage Fields UnknownField)
    (rest : List UInt8) :
    (code w).internalParse message (w.writeString 17 s ++ rest) =
      (code w).internalParse
        { message with fields :=
          { message.fields with dataValue := message.fields.dataValue ++ [s] } } rest := by
  have htag : w.readTag (w.writeString 17 s ++ rest) =
      some (BitVec.ofNat 32 (8 * 17 + 2), enc.stringPayload s ++ rest) :=
    MessageCode.readTag_writeString hw (by decide) s
  have hvalue := parseDataValue_eq message.fields
    (hw.stringParser_stringPayload [] rest hsize) hutf8
  by_cases hmore : ¬ rest.isEmpty ∧ w.expectTag 138 rest = true
  · rw [if_neg hmore.1, if_pos hmore.2] at hvalue
    obtain ⟨rest', rfl⟩ := (hw.expectTag_iff rest (by decide) (by decide)).mp hmore.2
    have hnext : w.readTag (tagBytes 138 ++ rest') = some (BitVec.ofNat 32 138, rest') :=
      hw.readTag_tagBytes rest' (by decide) (by decide)
    have hdrop : (tagBytes 138 ++ rest').drop 2 = rest' := rfl
    rw [hdrop] at hvalue
    rcases hloop : parseDataValue w { message.fields with
        dataValue := message.fields.dataValue ++ [s] } rest' with ⟨fields, _ | rest''⟩
    · rw [hloop] at hvalue
      rw [(code w).internalParse_field_failure htag (congrArg some hvalue),
        (code w).internalParse_field_failure hnext (congrArg some hloop)]
    · rw [hloop] at hvalue
      rw [(code w).internalParse_field htag (congrArg some hvalue),
        (code w).internalParse_field hnext (congrArg some hloop)]
  · have hstop : parseDataValue w message.fields (enc.stringPayload s ++ rest) =
        ({ message.fields with dataValue := message.fields.dataValue ++ [s] }, some rest) := by
      rw [hvalue]
      split
      · rfl
      · rename_i hne
        exact if_neg fun hexpect => hmore ⟨hne, hexpect⟩
    rw [(code w).internalParse_field htag (congrArg some hstop)]

theorem parse_dataValue_failure (hw : w.Lawful enc) {s : List UInt8}
    (hsize : s.length ≤ maxStringSize) (hutf8 : ¬ w.verifyUTF8 s = true)
    (message : ProtoMessage Fields UnknownField) (rest : List UInt8) :
    ((code w).internalParse message (w.writeString 17 s ++ rest)).2 = .failure := by
  have htag : w.readTag (w.writeString 17 s ++ rest) =
      some (BitVec.ofNat 32 (8 * 17 + 2), enc.stringPayload s ++ rest) :=
    MessageCode.readTag_writeString hw (by decide) s
  have hvalue : parseDataValue w message.fields (enc.stringPayload s ++ rest) =
      ({ message.fields with dataValue := message.fields.dataValue ++ [s] }, none) := by
    rw [parseDataValue]
    split
    · rename_i hnone
      cases (hw.stringParser_stringPayload [] rest hsize).symm.trans hnone
    · rename_i hsome
      cases (hw.stringParser_stringPayload [] rest hsize).symm.trans hsome
      exact if_neg hutf8
  rw [(code w).internalParse_field_failure htag (congrArg some hvalue)]

theorem parse_dataValues (hw : w.Lawful enc) {values : List (List UInt8)}
    (hsize : ∀ s ∈ values, s.length ≤ maxStringSize) (hutf8 : ∀ s ∈ values, w.verifyUTF8 s = true)
    (message : ProtoMessage Fields UnknownField) (rest : List UInt8) :
    (code w).internalParse message (values.flatMap (w.writeString 17) ++ rest) =
      (code w).internalParse
        { message with fields :=
          { message.fields with dataValue := message.fields.dataValue ++ values } } rest := by
  induction values generalizing message with
  | nil => simp
  | cons s values ih =>
      rw [List.flatMap_cons, List.append_assoc,
        parse_dataValue hw (hsize s List.mem_cons_self) (hutf8 s List.mem_cons_self),
        ih (fun s hmem => hsize s (List.mem_cons_of_mem _ hmem))
          fun s hmem => hutf8 s (List.mem_cons_of_mem _ hmem), List.append_assoc]
      rfl

theorem parse_dataValues_failure (hw : w.Lawful enc) {values : List (List UInt8)}
    (hsize : ∀ s ∈ values, s.length ≤ maxStringSize)
    (hutf8 : ¬ ∀ s ∈ values, w.verifyUTF8 s = true)
    (message : ProtoMessage Fields UnknownField) (rest : List UInt8) :
    ((code w).internalParse message (values.flatMap (w.writeString 17) ++ rest)).2 = .failure := by
  induction values generalizing message with
  | nil => exact absurd (fun _ hmem => absurd hmem List.not_mem_nil) hutf8
  | cons s values ih =>
      rw [List.flatMap_cons, List.append_assoc]
      by_cases hfirst : w.verifyUTF8 s = true
      · rw [parse_dataValue hw (hsize s List.mem_cons_self) hfirst]
        refine ih (fun s hmem => hsize s (List.mem_cons_of_mem _ hmem)) (fun hall => hutf8 ?_) _
        intro s' hmem
        rcases List.mem_cons.mp hmem with rfl | hmem
        · exact hfirst
        · exact hall s' hmem
      · exact parse_dataValue_failure hw (hsize s List.mem_cons_self) hfirst message _

theorem parse_page_number (hw : w.Lawful enc) (value : BitVec 32)
    (message : ProtoMessage Fields UnknownField) (rest : List UInt8) :
    (code w).internalParse message
        ((if value ≠ 0 then w.writeInt32ToArray 16 value else []) ++ rest) =
      (code w).internalParse { message with fields := { message.fields with
        page_number := if value ≠ 0 then value else message.fields.page_number } } rest :=
  (code w).parse_int32Field hw Fields.page_number
    (fun value fields => { fields with page_number := value }) (fun _ => rfl) (by decide)
    (fun _ _ => rfl) value

theorem correct (hw : w.Lawful enc) :
    (code w).Correct Knows (fun fields => ∀ s ∈ fields.dataValue, s.length ≤ maxStringSize)
      (fun fields => ∀ s ∈ fields.dataValue, w.verifyUTF8 s = true) where
  parseField_none := parseField_eq_none_iff w
  sized_clear _ hmem := absurd hmem List.not_mem_nil
  utf8_clear _ hmem := absurd hmem List.not_mem_nil
  sized_parseField hsized h :=
    (parseField_keeps w (fun hread _ => hw.stringParser_size hread) h hsized).1
  utf8_parseField hutf8 h :=
    (parseField_keeps w (P := fun s => w.verifyUTF8 s = true) (fun _ hstr => hstr) h hutf8).1
  clear_mergeFrom fields := by
    obtain ⟨page_number, dataValue⟩ := fields
    exact congrArg₂ Fields.mk (MessageCode.default_or_self not_not.mp) (List.nil_append _)
  parse_serialize {fields} message rest hsized hutf8 := by
    change (code w).internalParse message (internalSerialize w fields ++ rest) = _
    rw [internalSerialize, List.append_assoc, parse_page_number hw,
      parse_dataValues hw hsized hutf8]
    rfl
  parse_failure {fields} message rest hsized hutf8 := by
    change ((code w).internalParse message (internalSerialize w fields ++ rest)).2 = _
    rw [internalSerialize, List.append_assoc, parse_page_number hw]
    exact parse_dataValues_failure hw hsized hutf8 _ _
  length_internalSerialize {fields} hsized := by
    have hvalues : ∀ values : List (List UInt8), (∀ s ∈ values, s.length ≤ maxStringSize) →
        (values.flatMap (w.writeString 17)).length =
          2 * values.length + (values.map w.stringSize).sum := by
      intro values hsized
      induction values with
      | nil => rfl
      | cons s values ih =>
          have hrest := ih fun s hmem => hsized s (List.mem_cons_of_mem _ hmem)
          have hfirst := MessageCode.length_writeString hw (show 0 < 17 ∧ 17 < 2048 by decide)
            (hsized s List.mem_cons_self)
          have htag : (tagBytes (8 * 17 + 2)).length = 2 := rfl
          rw [htag] at hfirst
          rw [List.flatMap_cons, List.length_append, hfirst, hrest, List.length_cons, List.map_cons,
            List.sum_cons]
          omega
    change (internalSerialize w fields).length = byteSize w fields
    rw [internalSerialize, List.length_append, MessageCode.length_int32Field hw (by decide),
      hvalues _ hsized, Nat.add_comm]
    rfl

end AnswerResults

namespace Empty

structure Fields where
  id : BitVec 32
  deriving DecidableEq, Repr

def clear : Fields := ⟨0⟩

def parseField (fields : Fields) (tag : BitVec 32) (ptr : List UInt8) :
    Option (Fields × Option (List UInt8)) :=
  match (tag >>> 3).toNat with
  | 1 =>
    if tag.setWidth 8 = 8#8 then
      some (w.varintField (fun value => { fields with id := value }) ptr)
    else none
  | _ => none

def internalSerialize (fields : Fields) : List UInt8 :=
  if fields.id ≠ 0 then w.writeInt32ToArray 1 fields.id else []

def byteSize (fields : Fields) : Nat :=
  if fields.id ≠ 0 then 1 + w.int32Size fields.id else 0

def mergeFrom (fields other : Fields) : Fields where
  id := if other.id ≠ 0 then other.id else fields.id

def Knows (tag : BitVec 32) : Prop := tag = 8

theorem parseField_eq_none_iff {fields : Fields} {tag : BitVec 32} {ptr : List UInt8} :
    parseField w fields tag ptr = none ↔ ¬ Knows tag := by
  constructor
  · rintro hnone rfl
    cases hnone
  · intro hknows
    rw [parseField]
    split
    · rename_i hnumber
      exact if_neg fun hlow => hknows ((tag_eq_iff (by decide) hnumber).mp hlow)
    · rfl

theorem parseField_le {fields fields' : Fields} {tag : BitVec 32} {ptr rest : List UInt8}
    (h : parseField w fields tag ptr = some (fields', some rest)) : rest.length ≤ ptr.length := by
  have hknows : Knows tag := by
    by_contra hknows
    rw [(parseField_eq_none_iff w).mpr hknows] at h
    cases h
  obtain rfl := hknows
  exact (WireFormat.varintField_eq_some (Option.some.inj h)).2

def code : MessageCode w Fields where
  clear := clear
  parseField := parseField w
  internalSerialize := internalSerialize w
  byteSize := byteSize w
  mergeFrom := mergeFrom
  parseField_le := parseField_le w

variable {w} {enc : WireEncoding UnknownField}

theorem correct (hw : w.Lawful enc) :
    (code w).Correct Knows (fun _ => True) (fun _ => True) where
  parseField_none {fields tag ptr} :=
    show parseField w fields tag ptr = none ↔ ¬ Knows tag from parseField_eq_none_iff w
  sized_clear := trivial
  utf8_clear := trivial
  sized_parseField _ _ := trivial
  utf8_parseField _ _ := trivial
  clear_mergeFrom _ := congrArg Fields.mk (MessageCode.default_or_self not_not.mp)
  parse_serialize {fields} message rest _ _ :=
    (code w).parse_int32Field hw Fields.id (fun value fields => { fields with id := value })
      (fun _ => rfl) (by decide) (fun _ _ => rfl) fields.id
  parse_failure _ _ _ hutf8 := absurd trivial hutf8
  length_internalSerialize _ :=
    MessageCode.length_int32Field hw (show 0 < 1 ∧ 1 < 2048 by decide) _

end Empty

end LearnMuduo
