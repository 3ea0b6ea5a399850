import LearnMuduo.Base.ConvertFormat
import LearnMuduo.Framework.BoundedLog

/-!
# The log stream

A `LogStream` renders what is inserted into a buffer of 4000 characters. Text goes in if it leaves
room behind it; a number goes in if 32 characters are free, since it is rendered into the buffer
before its length is known.
-/

namespace LearnMuduo

open Framework

/-- `FixedBuffer<SIZE>`; `curPos` is a position in `data`. -/
structure FixedBuffer (size : Nat) where
  data : List Char
  curPos : Nat
  deriving DecidableEq, Repr

namespace FixedBuffer

variable {size : Nat}

def create (size : Nat) : FixedBuffer size := ⟨List.replicate size '\x00', 0⟩

def avail (b : FixedBuffer size) : Int := wrapInt ((size : Int) - b.curPos)

def length (b : FixedBuffer size) : Int := wrapInt b.curPos

def add (b : FixedBuffer size) (len : Nat) : FixedBuffer size :=
  { b with curPos := b.curPos + len }

/-- `memcpy(m_curPos, buf, len)` -/
def copyToCurrent (b : FixedBuffer size) (buf : List Char) (len : Nat) :
    Checked (FixedBuffer size) := do
  Checked.assert (len ≤ buf.length ∧ b.curPos + len ≤ b.data.length)
  pure { b with data := overwrite b.data b.curPos (buf.take len) }

/-- `buf` is the memory that the pointer leads to. -/
def append (b : FixedBuffer size) (buf : List Char) (len : Nat) : Checked (FixedBuffer size) :=
  if len < sizeOfInt b.avail then do
    let b ← b.copyToCurrent buf len
    pure (b.add len)
  else pure b

/-- `*m_curPos = '\0'` -/
def debugString (b : FixedBuffer size) : Checked (FixedBuffer size) := do
  let data ← store b.data b.curPos '\x00'
  pure { b with data := data }

/-- The characters up to the write position. -/
def content (b : FixedBuffer size) : List Char := b.data.take b.curPos

/-- The write position is inside the storage, which has not moved. -/
structure Inside (b : FixedBuffer size) : Prop where
  length_data : b.data.length = size
  curPos_lt : b.curPos < size

end FixedBuffer

/-- A C string: its characters; a NUL stands behind them. -/
structure CString where
  text : List Char
  noNul : '\x00' ∉ text

def CString.memory (s : CString) : List Char := s.text ++ ['\x00']

def strlen (memory : List Char) : Nat := (memory.takeWhile (· ≠ '\x00')).length

/-- A piece of text whose length is an `int`. -/
structure StringPiece where
  text : List Char
  length_lt : text.length < 2 ^ 31

def StringPiece.size (s : StringPiece) : Int := s.text.length

/-- What `%.12g` makes of a number. -/
abbrev NumericText : Type := { text : List Char // text.length < 32 }

/-- The arguments of `operator<<`; a pointer is given by its address. -/
inductive Insertion
  | bool (v : Bool)
  | short (v : BitVec 16)
  | unsignedShort (v : BitVec 16)
  | integer (τ : IntegerType) (v : τ.Value)
  | pointer (p : IntegerType.unsignedLong.Value)
  | double (v : NumericText)
  | char (v : Char)
  | cString (str : Option CString)
  | string (v : List Char)
  | stringPiece (v : StringPiece)

def kSmallBuffer : Nat := 4000

def kMaxNumericSize : Nat := 32

/-- `m_buffer` is the only member. -/
abbrev LogStream : Type := FixedBuffer kSmallBuffer

namespace LogStream

def create : LogStream := FixedBuffer.create kSmallBuffer

/-- `LogStream::append` -/
def appendInt (b : LogStream) (data : List Char) (len : Int) : Checked LogStream :=
  b.append data (sizeOfInt len)

def formatInteger (b : LogStream) (τ : IntegerType) (v : Int) : Checked LogStream :=
  if kMaxNumericSize ≤ b.avail then do
    let (data, len) ← convert τ b.data b.curPos v
    pure (FixedBuffer.add { b with data := data } len)
  else pure b

def formatPointer (b : LogStream) (v : Int) : Checked LogStream :=
  if kMaxNumericSize ≤ b.avail then do
    let data ← store b.data b.curPos '0'
    let data ← store data (b.curPos + 1) 'x'
    let (data, len) ← convertHex data (b.curPos + 2) v
    pure (FixedBuffer.add { b with data := data } (len + 2))
  else pure b

/-- `snprintf` writes a NUL behind the text. -/
def formatDouble (b : LogStream) (v : NumericText) : Checked LogStream :=
  if kMaxNumericSize ≤ b.avail then do
    let written : List Char := v.val ++ ['\x00']
    let b ← b.copyToCurrent written written.length
    pure (b.add v.val.length)
  else pure b

/-- `operator<<` -/
def insert (b : LogStream) : Insertion → Checked LogStream
  | .bool v => b.append (if v then "1" else "0").toList 1
  | .short v => b.formatInteger .int v.toInt
  | .unsignedShort v => b.formatInteger .unsignedInt v.toNat
  | .integer τ v => b.formatInteger τ v
  | .pointer p => b.formatPointer p
  | .double v => b.formatDouble v
  | .char v => b.append [v] 1
  | .cString (some str) => b.append str.memory (strlen str.memory)
  | .cString none => b.append "(null)".toList 6
  | .string v => b.append v v.length
  | .stringPiece v => b.append v.text (sizeOfInt v.size)

def insertAll (b : LogStream) (is : List Insertion) : Checked LogStream := is.foldlM insert b

end LogStream

namespace Insertion

/-- The full rendering. -/
def text : Insertion → List Char
  | .bool v => if v then ['1'] else ['0']
  | .short v => numeralText 10 v.toInt
  | .unsignedShort v => numeralText 10 v.toNat
  | .integer _ v => numeralText 10 v
  | .pointer p => '0' :: 'x' :: numeralText 16 p
  | .double v => v
  | .char v => [v]
  | .cString (some str) => str.text
  | .cString none => "(null)".toList
  | .string v => v
  | .stringPiece v => v.text

def isNumeric : Insertion → Bool
  | .short _ | .unsignedShort _ | .integer _ _ | .pointer _ | .double _ => true
  | _ => false

/-- The room that has to be free: 32 characters for a number, one more than it has for a text. -/
def need (i : Insertion) : Nat := if i.isNumeric then kMaxNumericSize else i.text.length + 1

end Insertion

namespace FixedBuffer

variable {size : Nat} {b : FixedBuffer size}

theorem inside_create (h : 0 < size) : (create size).Inside :=
  ⟨List.length_replicate, h⟩

theorem Inside.length_content (h : b.Inside) : b.content.length = b.curPos := by
  have hlt := h.curPos_lt
  rw [content, List.length_take, h.length_data]
  omega

theorem Inside.avail_eq (h : b.Inside) (hsize : size < 2 ^ 31) :
    b.avail = ((size - b.content.length : Nat) : Int) := by
  have hlt := h.curPos_lt
  rw [avail, h.length_content, wrapInt_of_natAbs_lt]
  · omega
  · omega

theorem Inside.length_eq (h : b.Inside) (hsize : size < 2 ^ 31) :
    b.length = (b.content.length : Int) := by
  have hlt := h.curPos_lt
  rw [length, h.length_content, wrapInt_natCast (by omega)]

theorem Inside.take_length (h : b.Inside) (hsize : size < 2 ^ 31) :
    b.data.take (sizeOfInt b.length) = b.content := by
  have hlt := h.curPos_lt
  rw [h.length_eq hsize, h.length_content, sizeOfInt_natCast (by omega), content]

theorem Inside.debugString (h : b.Inside) : b.debugString.ok = true := by
  have hlt : b.curPos < b.data.length := by
    rw [h.length_data]
    exact h.curPos_lt
  rw [FixedBuffer.debugString, store_eq hlt]
  rfl

/-- The call stays inside the storage, and the buffer holds `log` after it. -/
structure Leaves (r : Checked (FixedBuffer size)) (log : List Char) : Prop where
  ok : r.ok = true
  inside : r.val.Inside
  content : r.val.content = log

theorem Inside.leaves_pure (h : b.Inside) : Leaves (pure b) b.content :=
  ⟨rfl, h, rfl⟩

theorem Leaves.bind {r : Checked (FixedBuffer size)}
    {f : FixedBuffer size → Checked (FixedBuffer size)} {log log' : List Char}
    (h : Leaves r log) (hf : Leaves (f r.val) log') : Leaves (r >>= f) log' :=
  ⟨by rw [Checked.ok_bind, h.ok, hf.ok, Bool.true_and], hf.inside, hf.content⟩

theorem Inside.leaves_written (h : b.Inside) {text rest : List Char}
    (hlt : b.curPos + text.length < size) (hfit : b.curPos + (text ++ rest).length ≤ size) :
    Leaves (pure (⟨overwrite b.data b.curPos (text ++ rest), b.curPos + text.length⟩ :
      FixedBuffer size)) (b.content ++ text) := by
  have hdata := h.length_data
  have htake : (overwrite b.data b.curPos (text ++ rest)).take (b.curPos + text.length) =
      b.data.take b.curPos ++ text := by
    have hlen : (b.data.take b.curPos ++ text).length = b.curPos + text.length := by
      rw [List.length_append, List.length_take_of_le (by omega)]
    rw [overwrite, ← hlen, ← List.append_assoc, List.append_assoc (b.data.take b.curPos ++ text)]
    exact List.take_left
  refine ⟨rfl, ⟨?_, hlt⟩, htake⟩
  exact (length_overwrite (by omega)).trans hdata

theorem Inside.leaves_append (h : b.Inside) (hsize : size < 2 ^ 31) {buf : List Char} {len : Nat}
    (hlen : len < size → len ≤ buf.length) :
    Leaves (b.append buf len)
      (if len + 1 ≤ size - b.content.length then b.content ++ buf.take len else b.content) := by
  have hlt := h.curPos_lt
  have hdata := h.length_data
  have hcontent := h.length_content
  rw [append, h.avail_eq hsize, sizeOfInt_natCast (by omega)]
  by_cases hfits : len < size - b.content.length
  · have hread : len ≤ buf.length := hlen (by omega)
    have htake : (buf.take len).length = len := List.length_take_of_le hread
    have hcopy : b.copyToCurrent buf len =
        pure { b with data := overwrite b.data b.curPos (buf.take len) } := by
      rw [copyToCurrent, Checked.assert_eq_pure (decide_eq_true ⟨hread, by omega⟩),
        Checked.pure_bind_eq]
    have hroom : b.curPos + (buf.take len ++ []).length ≤ size := by
      rw [List.append_nil]
      omega
    have hwritten := h.leaves_written (by omega) hroom
    rw [List.append_nil, htake] at hwritten
    rw [if_pos hfits, if_pos (Nat.succ_le_of_lt hfits), hcopy, Checked.pure_bind_eq]
    exact hwritten
  · rw [if_neg hfits, if_neg (by omega)]
    exact h.leaves_pure

end FixedBuffer

theorem strlen_memory (s : CString) : strlen s.memory = s.text.length := by
  have hchars : ∀ c ∈ s.text, decide (c ≠ '\x00') = true := by
    intro c hc
    rw [decide_eq_true_iff]
    rintro rfl
    exact s.noNul hc
  rw [strlen, CString.memory, List.takeWhile_append_of_pos hchars, List.takeWhile_cons_of_neg,
    List.append_nil]
  decide

namespace Insertion

theorem holds_short (v : BitVec 16) : IntegerType.int.Holds v.toInt := by
  have hlt := BitVec.toInt_lt (x := v)
  have hle := BitVec.le_toInt v
  constructor
  · exact le_trans (by decide) hle
  · exact hlt.le.trans (by decide)

theorem holds_unsignedShort (v : BitVec 16) : IntegerType.unsignedInt.Holds v.toNat := by
  have hlt := v.isLt
  constructor
  · exact le_trans (by decide) (Int.natCast_nonneg _)
  · exact le_trans (Int.ofNat_le.mpr hlt.le) (by decide)

theorem length_text_lt_need (i : Insertion) : i.text.length < i.need := by
  have hdecimal : ∀ {τ : IntegerType} {v : Int}, τ.Holds v →
      (numeralText 10 v).length < kMaxNumericSize :=
    fun h => h.length_decimal.trans_lt (by decide)
  cases i with
  | short v => exact hdecimal (holds_short v)
  | unsignedShort v => exact hdecimal (holds_unsignedShort v)
  | integer τ v => exact hdecimal v.property
  | pointer p =>
      have hhex := length_hex p.property
      change (numeralText 16 p).length + 2 < 32
      omega
  | double v => exact v.property
  | bool v => exact Nat.lt_succ_self _
  | char v => exact Nat.lt_succ_self _
  | cString str => exact Nat.lt_succ_self _
  | string v => exact Nat.lt_succ_self _
  | stringPiece v => exact Nat.lt_succ_self _

/-- What a log stream takes in. -/
def pieces : Pieces Insertion Char := ⟨text, need, length_text_lt_need⟩

theorem put_eq {i : Insertion} {k : Nat} (h : i.need + k = kSmallBuffer) (log : List Char) :
    pieces.put kSmallBuffer log i = if log.length ≤ k then log ++ i.text else log := by
  have hpos := i.length_text_lt_need
  have hfits : i.need ≤ kSmallBuffer - log.length ↔ log.length ≤ k := by
    omega
  exact if_congr hfits rfl rfl

end Insertion

namespace LogStream

open FixedBuffer

variable {b : LogStream}

theorem inside_create : create.Inside :=
  FixedBuffer.inside_create (by decide)

theorem smallBuffer_lt : kSmallBuffer < 2 ^ 31 := by
  decide

theorem numeric_iff (h : b.Inside) :
    (kMaxNumericSize : Int) ≤ b.avail ↔ kMaxNumericSize ≤ kSmallBuffer - b.content.length := by
  rw [h.avail_eq smallBuffer_lt]
  exact Int.ofNat_le

theorem leaves_reserved (h : b.Inside) {r : Checked LogStream} {text : List Char}
    (htext : text.length < kMaxNumericSize)
    (hr : b.curPos + kMaxNumericSize ≤ b.data.length →
      r = pure ⟨overwrite b.data b.curPos (text ++ ['\x00']), b.curPos + text.length⟩) :
    Leaves (if (kMaxNumericSize : Int) ≤ b.avail then r else pure b)
      (if kMaxNumericSize ≤ kSmallBuffer - b.content.length then b.content ++ text
        else b.content) := by
  have hdata := h.length_data
  have hcontent := h.length_content
  have hlt := h.curPos_lt
  by_cases hfits : kMaxNumericSize ≤ kSmallBuffer - b.content.length
  · have hroom : b.curPos + (text ++ ['\x00']).length ≤ kSmallBuffer := by
      rw [List.length_append, List.length_singleton]
      omega
    rw [if_pos ((numeric_iff h).mpr hfits), if_pos hfits, hr (by omega)]
    exact h.leaves_written (by omega) hroom
  · rw [if_neg (mt (numeric_iff h).mp hfits), if_neg hfits]
    exact h.leaves_pure

theorem leaves_formatInteger (h : b.Inside) {τ : IntegerType} {v : Int} (hv : τ.Holds v) :
    Leaves (b.formatInteger τ v)
      (if kMaxNumericSize ≤ kSmallBuffer - b.content.length then b.content ++ numeralText 10 v
        else b.content) := by
  have hlen : (numeralText 10 v).length < kMaxNumericSize :=
    hv.length_decimal.trans_lt (by decide)
  apply leaves_reserved h hlen
  intro hroom
  rw [convert_eq hv (by omega), Checked.pure_bind_eq]
  rfl

theorem leaves_formatPointer (h : b.Inside) {v : Int} (hv : IntegerType.unsignedLong.Holds v) :
    Leaves (b.formatPointer v)
      (if kMaxNumericSize ≤ kSmallBuffer - b.content.length then
        b.content ++ '0' :: 'x' :: numeralText 16 v else b.content) := by
  have hlen := length_hex hv
  apply leaves_reserved h
  · simp only [List.length_cons, kMaxNumericSize]
    omega
  · intro hroom
    rw [kMaxNumericSize] at hroom
    have hzero : b.curPos + ['0'].length ≤ b.data.length := by
      rw [List.length_singleton]
      omega
    have hprefix : b.curPos + ['0', 'x'].length ≤ b.data.length := by
      simp only [List.length_cons, List.length_nil]
      omega
    have hstored : overwrite (overwrite b.data b.curPos ['0']) (b.curPos + 1) ['x'] =
        overwrite b.data b.curPos ['0', 'x'] :=
      overwrite_append hzero
    have hbytes : overwrite (overwrite b.data b.curPos ['0', 'x']) (b.curPos + 2)
        (numeralText 16 v ++ ['\x00']) =
          overwrite b.data b.curPos (('0' :: 'x' :: numeralText 16 v) ++ ['\x00']) :=
      overwrite_append hprefix
    rw [store_eq (by omega), Checked.pure_bind_eq, store_eq (by rw [length_overwrite hzero]; omega),
      Checked.pure_bind_eq, hstored, convertHex_eq hv (by rw [length_overwrite hprefix]; omega),
      Checked.pure_bind_eq, hbytes]
    rfl

theorem leaves_formatDouble (h : b.Inside) (v : NumericText) :
    Leaves (b.formatDouble v)
      (if kMaxNumericSize ≤ kSmallBuffer - b.content.length then b.content ++ v.val
        else b.content) := by
  have hlen := v.property
  apply leaves_reserved h hlen
  intro hroom
  have hcopy : b.copyToCurrent (v.val ++ ['\x00']) (v.val ++ ['\x00']).length =
      pure { b with data := overwrite b.data b.curPos (v.val ++ ['\x00']) } := by
    have hfit : b.curPos + (v.val ++ ['\x00']).length ≤ b.data.length := by
      rw [kMaxNumericSize] at hroom
      rw [List.length_append, List.length_singleton]
      omega
    rw [FixedBuffer.copyToCurrent, Checked.assert_eq_pure (decide_eq_true ⟨le_rfl, hfit⟩),
      Checked.pure_bind_eq, List.take_length]
  dsimp only
  rw [hcopy, Checked.pure_bind_eq]
  rfl

/-- An insertion is taken as a whole or dropped. -/
theorem leaves_insert (h : b.Inside) (i : Insertion) :
    Leaves (b.insert i) (Insertion.pieces.put kSmallBuffer b.content i) := by
  have hwhole : ∀ buf : List Char, Leaves (b.append buf buf.length)
      (if buf.length + 1 ≤ kSmallBuffer - b.content.length then b.content ++ buf
        else b.content) := by
    intro buf
    have htext := h.leaves_append smallBuffer_lt fun _ => Nat.le_refl buf.length
    rwa [List.take_length] at htext
  cases i with
  | short v => exact leaves_formatInteger h (Insertion.holds_short v)
  | unsignedShort v => exact leaves_formatInteger h (Insertion.holds_unsignedShort v)
  | integer τ v => exact leaves_formatInteger h v.property
  | pointer p => exact leaves_formatPointer h p.property
  | double v => exact leaves_formatDouble h v
  | bool v =>
      cases v with
      | true => exact hwhole ['1']
      | false => exact hwhole ['0']
  | char v => exact hwhole [v]
  | string v => exact hwhole v
  | stringPiece v =>
      have hsize : sizeOfInt v.size = v.text.length :=
        sizeOfInt_natCast (v.length_lt.trans (by decide))
      rw [insert, hsize]
      exact hwhole v.text
  | cString str =>
      cases str with
      | none => exact hwhole "(null)".toList
      | some str =>
          have htake : str.memory.take str.text.length = str.text := List.take_left
          have hmemory : str.text.length ≤ str.memory.length := by
            rw [CString.memory, List.length_append]
            omega
          rw [insert, strlen_memory]
          have htext := h.leaves_append smallBuffer_lt fun _ => hmemory
          rwa [htake] at htext

theorem leaves_insertAll (h : b.Inside) (is : List Insertion) :
    Leaves (b.insertAll is) (is.foldl (Insertion.pieces.put kSmallBuffer) b.content) := by
  induction is generalizing b with
  | nil => exact h.leaves_pure
  | cons i is ih =>
      have hfirst := leaves_insert h i
      have hrest := ih hfirst.inside
      rw [hfirst.content] at hrest
      rw [insertAll, List.foldlM_cons, List.foldl_cons]
      exact hfirst.bind hrest

/-- The insertions of a sequence that a new stream takes. -/
def accepted (is : List Insertion) : List Insertion := Insertion.pieces.accepted kSmallBuffer 0 is

/-- Whatever is inserted, nothing is stored outside the 4000 characters and the write position stays
before the last one. The content is what the accepted insertions render to, one after the other, and
a further insertion adds its whole rendering or nothing. -/
theorem content_eq_accepted (is : List Insertion) :
    (create.insertAll is).ok = true ∧
      (create.insertAll is).val.data.length = 4000 ∧
      (create.insertAll is).val.curPos < 4000 ∧
      (create.insertAll is).val.debugString.ok = true ∧
      (create.insertAll is).val.content = (accepted is).flatMap Insertion.text ∧
      (accepted is).Sublist is ∧
      ∀ i, ((create.insertAll is).val.insert i).val.content =
        if i.need ≤ 4000 - (create.insertAll is).val.content.length then
          (create.insertAll is).val.content ++ i.text
        else (create.insertAll is).val.content := by
  have h := leaves_insertAll inside_create is
  have hcontent := h.content
  rw [Pieces.foldl_put] at hcontent
  refine ⟨h.ok, h.inside.length_data, h.inside.curPos_lt, h.inside.debugString, hcontent,
    Pieces.accepted_sublist is, fun i => ?_⟩
  exact (leaves_insert h.inside i).content

end LogStream

end LearnMuduo
