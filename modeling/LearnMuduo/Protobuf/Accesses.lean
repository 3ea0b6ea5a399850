import LearnMuduo.Framework.Traced
import LearnMuduo.Protobuf.Decode

/-!
# What the decoder touches

The text of `onMessage`, `parse` and `asInt32` once more, with every read of memory and every value
of type `int` written down. It computes what they compute, and nothing it writes down leaves the
readable bytes, the frame or the range of an `int`.
-/

namespace LearnMuduo

open Framework

/-- A read of `len` bytes at `pointer + offset`, the exact value of an `int` expression, or the size
that `ParseFromArray` is given. -/
inductive Access
  | read (offset len : Int)
  | int32 (value : Int)
  | parseFromArray (size : Int)
  deriving DecidableEq, Repr

/-- Reads are of the bytes from `low` to `high`, and no `int` overflows. -/
def Access.Within (low high : Int) : Access → Prop
  | read offset len => low ≤ offset ∧ 0 ≤ len ∧ offset + len ≤ high
  | int32 value => -2 ^ 31 ≤ value ∧ value < 2 ^ 31
  | parseFromArray size => 0 ≤ size

/-- The same access, from a pointer `offset` bytes earlier. -/
def Access.shift (d : Int) : Access → Access
  | read offset len => read (d + offset) len
  | a => a

theorem Access.Within.shift {low high d : Int} {a : Access} (h : a.Within low high) :
    (a.shift d).Within (d + low) (d + high) := by
  cases a with
  | read offset len =>
      rcases h with ⟨hlow, hlen, hhigh⟩
      refine ⟨?_, hlen, ?_⟩
      · omega
      · omega
  | int32 value => exact h
  | parseFromArray size => exact h

theorem Access.Within.mono {low high low' high' : Int} {a : Access} (h : a.Within low high)
    (hlow : low' ≤ low) (hhigh : high ≤ high') : a.Within low' high' := by
  cases a with
  | read offset len =>
      rcases h with ⟨hstart, hlen, hend⟩
      refine ⟨?_, hlen, ?_⟩
      · omega
      · omega
  | int32 value => exact h
  | parseFromArray size => exact h

/-- An access of `onMessage`, from `getReadPos()`: the buffer at that time and, once a frame has
been accepted for parsing, the size of the frame. -/
structure BufferAccess where
  buffer : Buffer
  frame : Option Int
  access : Access
  deriving DecidableEq, Repr

/-- Inside the readable bytes, and inside the frame. -/
def BufferAccess.Safe (a : BufferAccess) : Prop :=
  a.access.Within 0 a.buffer.readableBytes ∧ ∀ size, a.frame = some size → a.access.Within 0 size

namespace ProtobufCodec

variable {Descriptor Message : Type} (pb : Protobuf Descriptor Message)

/-- An expression of type `int`. -/
def int32 (value : Int) : Traced Access Int := do
  Traced.emit (.int32 value)
  pure value

/-- `asInt32(buf + offset)` -/
def asInt32Traced (buf : List UInt8) (offset : Int) : Traced Access (BitVec 32) := do
  Traced.emit (.read offset 4)
  pure (asInt32 (buf.drop offset.toNat))

def parseTraced (buf : List UInt8) (len : Int) : Traced Access (Option Message × ErrorCode) := do
  let expectedCheckSum ← asInt32Traced buf (len - headerLen)
  let coveredLen ← int32 (len - headerLen)
  Traced.emit (.read 0 coveredLen)
  let checkSum := pb.adler32 1 (buf.take coveredLen.toNat)
  if checkSum ≠ expectedCheckSum then pure (none, .checkSumError)
  else
    let nameLen := (← asInt32Traced buf 0).toInt
    if nameLen < 2 then pure (none, .invalidNameLen)
    else
      let headers ← int32 (2 * headerLen)
      let limit ← int32 (len - headers)
      if limit < nameLen then pure (none, .invalidNameLen)
      else
        Traced.emit (.read headerLen (nameLen - 1))
        let typeName := (buf.drop headerLen.toNat).take (nameLen - 1).toNat
        match createMessage pb typeName with
        | none => pure (none, .unknownMessageType)
        | some message =>
            let data := buf.drop (headerLen + nameLen).toNat
            let rest ← int32 (len - nameLen)
            let headers ← int32 (2 * headerLen)
            let dataLen ← int32 (rest - headers)
            Traced.emit (.parseFromArray dataLen)
            Traced.emit (.read (headerLen + nameLen) dataLen)
            let parsed := pb.parseFromArray message (data.take dataLen.toNat)
            pure (some parsed.1, bif parsed.2 then .noError else .parseError)

@[simp] theorem val_int32 (value : Int) : (int32 value).val = value := rfl

@[simp] theorem val_asInt32Traced (buf : List UInt8) (offset : Int) :
    (asInt32Traced buf offset).val = asInt32 (buf.drop offset.toNat) := rfl

theorem val_parseTraced (buf : List UInt8) (len : Int) :
    (parseTraced pb buf len).val = parse pb buf len := by
  show (if pb.adler32 1 (buf.take (len - headerLen).toNat) ≠
      asInt32 (buf.drop (len - headerLen).toNat) then _ else _ : Traced Access _).val =
    if pb.adler32 1 (buf.take (len - headerLen).toNat) ≠
      asInt32 (buf.drop (len - headerLen).toNat) then _ else _
  split
  · rfl
  · show (if (asInt32 buf).toInt < 2 then _ else _ : Traced Access _).val =
      if (asInt32 buf).toInt < 2 ∨ len - 2 * headerLen < (asInt32 buf).toInt then _ else _
    by_cases hlow : (asInt32 buf).toInt < 2
    · rw [if_pos hlow, if_pos (Or.inl hlow)]
      rfl
    · rw [if_neg hlow]
      show (if len - 2 * headerLen < (asInt32 buf).toInt then _ else _ : Traced Access _).val = _
      by_cases hhigh : len - 2 * headerLen < (asInt32 buf).toInt
      · rw [if_pos hhigh, if_pos (Or.inr hhigh)]
        rfl
      · rw [if_neg hhigh, if_neg (not_or_intro hlow hhigh)]
        show (match createMessage pb
          ((buf.drop headerLen.toNat).take ((asInt32 buf).toInt - 1).toNat) with
          | none => _
          | some message => _ : Traced Access _).val =
          match createMessage pb
            ((buf.drop headerLen.toNat).take ((asInt32 buf).toInt - 1).toNat) with
          | none => _
          | some message => _
        cases createMessage pb
          ((buf.drop headerLen.toNat).take ((asInt32 buf).toInt - 1).toNat) <;> rfl

section Within

variable {low high : Int}

theorem within_int32 {value : Int} (hlow : -2 ^ 31 ≤ value) (hhigh : value < 2 ^ 31) :
    (int32 value).All (Access.Within low high) :=
  (Traced.all_emit ⟨hlow, hhigh⟩).bind (Traced.all_pure value)

theorem within_read {offset len : Int} (hlow : low ≤ offset) (hlen : 0 ≤ len)
    (hhigh : offset + len ≤ high) :
    (Traced.emit (Access.read offset len)).All (Access.Within low high) :=
  Traced.all_emit ⟨hlow, hlen, hhigh⟩

theorem within_parseFromArray {size : Int} (h : 0 ≤ size) :
    (Traced.emit (Access.parseFromArray size)).All (Access.Within low high) :=
  Traced.all_emit h

theorem within_asInt32Traced (buf : List UInt8) {offset : Int} (hlow : low ≤ offset)
    (hhigh : offset + 4 ≤ high) : (asInt32Traced buf offset).All (Access.Within low high) :=
  (within_read hlow (by decide) hhigh).bind (Traced.all_pure _)

end Within

theorem within_parseTraced (buf : List UInt8) {len : Int} (hmin : minMessageLen ≤ len)
    (hmax : len ≤ maxMessageLen) : (parseTraced pb buf len).All (Access.Within 0 len) := by
  have hheader := headerLen_eq
  have hminimum := minMessageLen_eq
  have hmaximum : maxMessageLen = 67108864 := rfl
  rw [parseTraced]
  apply Traced.All.bind (within_asInt32Traced buf (by omega) (by omega))
  apply Traced.All.bind (within_int32 (by omega) (by omega))
  apply Traced.All.bind (within_read (by omega) (by rw [val_int32]; omega)
    (by rw [val_int32]; omega))
  apply Traced.all_ite
  · intro _
    exact Traced.all_pure _
  · intro _
    apply Traced.All.bind (within_asInt32Traced buf (by omega) (by omega))
    apply Traced.all_ite
    · intro _
      exact Traced.all_pure _
    · intro hlow
      apply Traced.All.bind (within_int32 (by omega) (by omega))
      apply Traced.All.bind (within_int32 (by rw [val_int32]; omega) (by rw [val_int32]; omega))
      apply Traced.all_ite
      · intro _
        exact Traced.all_pure _
      · intro hhigh
        -- from here on the two range tests have passed
        simp only [val_int32, val_asInt32Traced] at hlow hhigh ⊢
        apply Traced.All.bind (within_read (by omega) (by omega) (by omega))
        cases createMessage pb ((buf.drop headerLen.toNat).take
          ((asInt32 (buf.drop (0 : Int).toNat)).toInt - 1).toNat) with
        | none => exact Traced.all_pure _
        | some message =>
            apply Traced.All.bind (within_int32 (by omega) (by omega))
            apply Traced.All.bind (within_int32 (by omega) (by omega))
            apply Traced.All.bind (within_int32 (by rw [val_int32, val_int32]; omega)
              (by rw [val_int32, val_int32]; omega))
            simp only [val_int32]
            apply Traced.All.bind (within_parseFromArray (by omega))
            apply Traced.All.bind (within_read (by omega) (by omega) (by omega))
            exact Traced.all_pure _

def onMessageTraced (buf : Buffer) : Traced BufferAccess (Received Message) := do
  Traced.emit ⟨buf, none, .int32 (minMessageLen + headerLen)⟩
  if _hmin : minMessageLen + headerLen ≤ buf.readableBytes then
    Traced.emit ⟨buf, none, .read 0 4⟩
    let len := buf.peekInt32.val.toInt
    if _hlen : len < minMessageLen ∨ maxMessageLen < len then
      pure ⟨[], [.invalidLength], buf⟩
    else
      Traced.emit ⟨buf, none, .int32 (len + headerLen)⟩
      if (buf.readableBytes : Int) < len + headerLen then pure ⟨[], [], buf⟩
      else
        let parsed ← (parseTraced pb (buf.getReadPos.drop headerLen.toNat) len).mapEvents
          fun access => ⟨buf, some (headerLen + len), access.shift headerLen⟩
        match accepted parsed with
        | some message => do
            Traced.emit ⟨buf, some (headerLen + len), .int32 (headerLen + len)⟩
            let rest ← onMessageTraced (buf.retrieve (headerLen + len).toNat).val
            pure { rest with delivered := message :: rest.delivered }
        | none => pure ⟨[], [parsed.2], buf⟩
  else pure ⟨[], [], buf⟩
termination_by buf.readableBytes
decreasing_by
  have hheader := headerLen_eq
  have hminimum := minMessageLen_eq
  apply readableBytes_retrieve_lt <;> omega

theorem val_onMessageTraced (buf : Buffer) :
    (onMessageTraced pb buf).val = onMessage pb buf := by
  induction buf using onMessage.induct pb with
  | case1 buf hmin len hlen =>
      rw [onMessageTraced, onMessage]
      simp only [Traced.val_bind, dif_pos hmin, dif_pos hlen, Traced.val_pure, len]
  | case2 buf hmin len hlen hshort =>
      rw [onMessageTraced, onMessage]
      simp only [Traced.val_bind, dif_pos hmin, dif_neg hlen, if_pos hshort, Traced.val_pure, len]
  | case3 buf hmin len hlen hshort parsed message haccepted ih =>
      have hparsed : accepted (parse pb (buf.getReadPos.drop headerLen.toNat)
          buf.peekInt32.val.toInt) = some message := haccepted
      rw [onMessageTraced, onMessage]
      simp only [Traced.val_bind, dif_pos hmin, dif_neg hlen, if_neg hshort,
        Traced.val_mapEvents, val_parseTraced, hparsed, len]
      rw [← ih]
      rfl
  | case4 buf hmin len hlen hshort parsed haccepted =>
      have hparsed : accepted (parse pb (buf.getReadPos.drop headerLen.toNat)
          buf.peekInt32.val.toInt) = none := haccepted
      rw [onMessageTraced, onMessage]
      simp only [Traced.val_bind, dif_pos hmin, dif_neg hlen, if_neg hshort,
        Traced.val_mapEvents, val_parseTraced, hparsed, Traced.val_pure, len]
  | case5 buf hmin =>
      rw [onMessageTraced, onMessage]
      simp only [Traced.val_bind, dif_neg hmin, Traced.val_pure]

theorem safe_parseTraced (buf : Buffer) (memory : List UInt8) {len : Int}
    (hlen : ¬ (len < minMessageLen ∨ maxMessageLen < len))
    (hwhole : ¬ (buf.readableBytes : Int) < len + headerLen) :
    ((parseTraced pb memory len).mapEvents fun access =>
      (⟨buf, some (headerLen + len), access.shift headerLen⟩ : BufferAccess)).All
        BufferAccess.Safe := by
  have hheader := headerLen_eq
  rw [not_or, not_lt, not_lt] at hlen
  have hwithin := within_parseTraced pb memory hlen.1 hlen.2
  refine hwithin.mapEvents fun access haccess => ?_
  have hshifted := haccess.shift (d := headerLen)
  have hfits : headerLen + len ≤ (buf.readableBytes : Int) := by omega
  constructor
  · exact hshifted.mono (by omega) hfits
  · intro size hsize
    rw [← Option.some.inj hsize]
    exact hshifted.mono (by omega) (Int.le_refl _)

theorem safe_int32 {buf : Buffer} {frame : Option Int} {value : Int} (hlow : -2 ^ 31 ≤ value)
    (hhigh : value < 2 ^ 31) :
    (Traced.emit (⟨buf, frame, .int32 value⟩ : BufferAccess)).All BufferAccess.Safe :=
  Traced.all_emit ⟨⟨hlow, hhigh⟩, fun _ _ => ⟨hlow, hhigh⟩⟩

theorem safe_peekInt32 {buf : Buffer} (h : (4 : Int) ≤ buf.readableBytes) :
    (Traced.emit (⟨buf, none, .read 0 4⟩ : BufferAccess)).All BufferAccess.Safe :=
  Traced.all_emit
    ⟨⟨by decide, by decide, h⟩, fun _ hsize => absurd hsize.symm (Option.some_ne_none _)⟩

/-- Turn by turn, as the readable bytes get fewer. -/
theorem safe_onMessageTraced (buf : Buffer) :
    (onMessageTraced pb buf).All BufferAccess.Safe := by
  have hheader := headerLen_eq
  have hminimum := minMessageLen_eq
  have hmaximum : maxMessageLen = 67108864 := rfl
  induction hn : buf.readableBytes using Nat.strong_induction_on generalizing buf with
  | _ n ih =>
      rw [onMessageTraced]
      apply Traced.All.bind (safe_int32 (by omega) (by omega))
      apply Traced.all_dite
      · intro hmin
        apply Traced.All.bind (safe_peekInt32 (by omega))
        apply Traced.all_dite
        · intro _
          exact Traced.all_pure _
        · intro hlen
          apply Traced.All.bind (safe_int32 (by omega) (by omega))
          apply Traced.all_ite
          · intro _
            exact Traced.all_pure _
          · intro hwhole
            apply Traced.All.bind (safe_parseTraced pb buf _ hlen hwhole)
            dsimp only [Traced.val_mapEvents]
            cases accepted (parseTraced pb (buf.getReadPos.drop headerLen.toNat)
                buf.peekInt32.val.toInt).val with
            | none => exact Traced.all_pure _
            | some message =>
                have hfewer : (buf.retrieve
                    (headerLen + buf.peekInt32.val.toInt).toNat).val.readableBytes < n := by
                  rw [← hn]
                  apply readableBytes_retrieve_lt
                  · omega
                  · omega
                apply Traced.All.bind (safe_int32 (by omega) (by omega))
                apply Traced.All.bind (ih _ hfewer _ rfl)
                exact Traced.all_pure _
      · intro _
        exact Traced.all_pure _

/-- The decoder computes what `onMessage` computes, and everything that it touches on the way is
inside the readable bytes, inside the accepted frame and in the range of an `int`. -/
theorem onMessageTraced_safe (buf : Buffer) :
    (onMessageTraced pb buf).val = onMessage pb buf ∧
      ∀ access ∈ (onMessageTraced pb buf).events, access.Safe :=
  ⟨val_onMessageTraced pb buf, safe_onMessageTraced pb buf⟩

example : (parseTraced emptyRuntime ((frameOfFive 0x22750416).drop 4) 21).events =
    [.read 17 4, .int32 17, .read 0 17, .read 0 4, .int32 8, .int32 13, .read 4 10, .int32 10,
      .int32 8, .int32 2, .parseFromArray 2, .read 15 2] := by
  decide

end ProtobufCodec

end LearnMuduo
