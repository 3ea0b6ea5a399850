import LearnMuduo.Protobuf.Decode

/-!
# What a frame is

A reference for the decoder, in terms of whole frames: which frames are valid, which check of a
frame fails first, and where decoding stops. `onMessage` delivers the messages of the valid frames
at the front of its buffer, as many as there are, and takes nothing else away.
-/

namespace LearnMuduo

open Framework

namespace ProtobufCodec

variable {Descriptor Message : Type} (pb : Protobuf Descriptor Message)

/-- The length word at the head of a stream or a frame. -/
def headLen (l : List UInt8) : Int := (networkToHost32 l).toInt

def LegalLen (len : Int) : Prop := minMessageLen ≤ len ∧ len ≤ maxMessageLen

/-- What follows the length word. -/
def body (frame : List UInt8) : List UInt8 := frame.drop 4

/-- The body without its last word. -/
def covered (frame : List UInt8) : List UInt8 := (body frame).take ((body frame).length - 4)

def checkSumWord (frame : List UInt8) : BitVec 32 :=
  networkToHost32 ((body frame).drop ((body frame).length - 4))

def nameLen (frame : List UInt8) : Int := (networkToHost32 (body frame)).toInt

/-- The name without its terminator. -/
def typeName (frame : List UInt8) : List UInt8 :=
  ((body frame).drop 4).take (nameLen frame - 1).toNat

def payload (frame : List UInt8) : List UInt8 := (covered frame).drop (4 + nameLen frame).toNat

/-- The message that the payload is parsed into, and whether it could be parsed. -/
def parsed (frame : List UInt8) : Option (Message × Bool) :=
  (createMessage pb (typeName frame)).map fun prototype =>
    pb.parseFromArray prototype (payload frame)

/-- The checks of a complete frame in their order, each with the code that reports it. -/
def frameChecks (frame : List UInt8) : List (ErrorCode × Bool) :=
  [(.checkSumError, pb.adler32 1 (covered frame) == checkSumWord frame),
    (.invalidNameLen, decide (2 ≤ nameLen frame) && decide (nameLen frame ≤ headLen frame - 8)),
    (.unknownMessageType, (createMessage pb (typeName frame)).isSome),
    (.parseError, (parsed pb frame).any Prod.snd)]

def firstFailed (frame : List UInt8) : Option ErrorCode :=
  ((frameChecks pb frame).find? fun check => !check.2).map Prod.fst

/-- A frame of a legal length and of no other, which passes every check and holds `message`. -/
structure ValidFrame (frame : List UInt8) (message : Message) : Prop where
  legal : LegalLen (headLen frame)
  size : (frame.length : Int) = headerLen + headLen frame
  checks : ∀ check ∈ frameChecks pb frame, check.2 = true
  message_eq : (parsed pb frame).map Prod.fst = some message

/-- The bytes of the frame at the head, if the length word is right. -/
def headFrame (l : List UInt8) : List UInt8 := l.take (headerLen + headLen l).toNat

/-- Where decoding stops, and what is then reported. -/
inductive StopsAt (rest : List UInt8) : List ErrorCode → Prop
  | short : rest.length < 14 → StopsAt rest []
  | incomplete : LegalLen (headLen rest) → (rest.length : Int) < headerLen + headLen rest →
      StopsAt rest []
  | invalidLength : 14 ≤ rest.length → ¬ LegalLen (headLen rest) →
      StopsAt rest [.invalidLength]
  | failed {code : ErrorCode} : LegalLen (headLen rest) →
      headerLen + headLen rest ≤ rest.length → firstFailed pb (headFrame rest) = some code →
      StopsAt rest [code]

/-- Of the stream `q`, the frames `frames` are delivered and `rest` is kept. -/
structure Decoded (q : List UInt8) (result : Received Message) (frames : List (List UInt8))
    (rest : List UInt8) : Prop where
  split : q = frames.flatten ++ rest
  delivered : List.Forall₂ (ValidFrame pb) frames result.delivered
  longest : ∀ frame message tail, rest = frame ++ tail → ¬ ValidFrame pb frame message
  kept : result.buf.Represents rest
  stops : StopsAt pb rest result.errors

theorem firstFailed_eq_none_iff (frame : List UInt8) :
    firstFailed pb frame = none ↔ ∀ check ∈ frameChecks pb frame, check.2 = true := by
  simp [firstFailed]

theorem parse_body {frame : List UInt8} (hlegal : LegalLen (headLen frame))
    (hsize : (frame.length : Int) = headerLen + headLen frame) :
    (parse pb (body frame) (headLen frame)).2 = (firstFailed pb frame).getD .noError ∧
      (firstFailed pb frame = none →
        (parse pb (body frame) (headLen frame)).1 = (parsed pb frame).map Prod.fst) := by
  have hheader := headerLen_eq
  have hminimum := minMessageLen_eq
  have hlegalMin := hlegal.1
  have hbody : ((body frame).length : Int) = headLen frame := by
    rw [body, List.length_drop]
    omega
  have hcut : (headLen frame - headerLen).toNat = (body frame).length - 4 := by omega
  have hword : networkToHost32 ((body frame).drop ((body frame).length - 4)) =
      checkSumWord frame := rfl
  have hcovered : (body frame).take ((body frame).length - 4) = covered frame := rfl
  have hnameLen : (networkToHost32 (body frame)).toInt = nameLen frame := rfl
  simp only [parse, asInt32, hcut, hword, hcovered, hnameLen]
  by_cases hsum : pb.adler32 1 (covered frame) = checkSumWord frame
  · have hsame : (pb.adler32 1 (covered frame) == checkSumWord frame) = true :=
      beq_iff_eq.mpr hsum
    by_cases hname : nameLen frame < 2 ∨ headLen frame - 2 * headerLen < nameLen frame
    · have hfails : (decide (2 ≤ nameLen frame) &&
          decide (nameLen frame ≤ headLen frame - 8)) = false := by
        rw [Bool.and_eq_false_iff, decide_eq_false_iff_not, decide_eq_false_iff_not]
        omega
      rw [if_neg (not_not_intro hsum), if_pos hname, firstFailed, frameChecks, hsame, hfails]
      exact ⟨rfl, fun hnone => absurd hnone (Option.some_ne_none _)⟩
    · have hpasses : (decide (2 ≤ nameLen frame) &&
          decide (nameLen frame ≤ headLen frame - 8)) = true := by
        rw [Bool.and_eq_true, decide_eq_true_eq, decide_eq_true_eq]
        omega
      have htype : ((body frame).drop headerLen.toNat).take (nameLen frame - 1).toNat =
          typeName frame := rfl
      have hdata : ((body frame).drop (headerLen + nameLen frame).toNat).take
          (headLen frame - nameLen frame - 2 * headerLen).toNat = payload frame := by
        have hrest : (headLen frame - nameLen frame - 2 * headerLen).toNat =
            (body frame).length - 4 - (4 + nameLen frame).toNat := by omega
        rw [payload, covered, List.drop_take, hrest, hheader]
      rw [if_neg (not_not_intro hsum), if_neg hname, htype, hdata, firstFailed, frameChecks,
        hsame, hpasses, parsed]
      cases createMessage pb (typeName frame) with
      | none => exact ⟨rfl, fun hnone => absurd hnone (Option.some_ne_none _)⟩
      | some prototype =>
          simp only [Option.map_some, Option.isSome_some, Option.any_some]
          cases (pb.parseFromArray prototype (payload frame)).2 with
          | true => exact ⟨rfl, fun _ => trivial⟩
          | false => exact ⟨rfl, fun hnone => absurd hnone (Option.some_ne_none _)⟩
  · have hdiffers : (pb.adler32 1 (covered frame) == checkSumWord frame) = false :=
      beq_eq_false_iff_ne.mpr hsum
    rw [if_pos hsum, firstFailed, frameChecks, hdiffers]
    exact ⟨rfl, fun hnone => absurd hnone (Option.some_ne_none _)⟩

theorem headLen_append {frame : List UInt8} (tail : List UInt8)
    (hsize : 4 ≤ frame.length) : headLen (frame ++ tail) = headLen frame := by
  rw [headLen, networkToHost32_append _ _ hsize, headLen]

theorem headFrame_spec {l : List UInt8} (hlegal : LegalLen (headLen l))
    (hwhole : headerLen + headLen l ≤ l.length) :
    headLen (headFrame l) = headLen l ∧
      ((headFrame l).length : Int) = headerLen + headLen (headFrame l) := by
  have hheader := headerLen_eq
  have hminimum := minMessageLen_eq
  have hlegalMin := hlegal.1
  have hlength : ((headFrame l).length : Int) = headerLen + headLen l := by
    rw [headFrame, List.length_take]
    omega
  have hlen : headLen (headFrame l) = headLen l := by
    have happend := headLen_append (l.drop (headerLen + headLen l).toNat)
      (show 4 ≤ (headFrame l).length by omega)
    rw [headFrame, List.take_append_drop] at happend
    exact happend.symm
  rw [hlen]
  exact ⟨rfl, hlength⟩

theorem headFrame_append {frame : List UInt8} (tail : List UInt8)
    (hlegal : LegalLen (headLen frame))
    (hsize : (frame.length : Int) = headerLen + headLen frame) :
    headFrame (frame ++ tail) = frame := by
  have hheader := headerLen_eq
  have hminimum := minMessageLen_eq
  have hlegalMin := hlegal.1
  have hlen : (headerLen + headLen frame).toNat = frame.length := by omega
  rw [headFrame, headLen_append tail (by omega), hlen, List.take_left]

theorem firstFailed_ne_noError {frame : List UInt8} {code : ErrorCode}
    (h : firstFailed pb frame = some code) : code ≠ .noError := by
  obtain ⟨check, hfind, rfl⟩ := Option.map_eq_some_iff.mp h
  have hmem := List.mem_of_find?_eq_some hfind
  simp only [frameChecks, List.mem_cons, List.not_mem_nil, or_false] at hmem
  rcases hmem with rfl | rfl | rfl | rfl <;> exact ErrorCode.noConfusion

theorem exists_parsed {frame : List UInt8}
    (h : ∀ check ∈ frameChecks pb frame, check.2 = true) :
    ∃ message, parsed pb frame = some (message, true) := by
  have hpayload := h _ (List.mem_of_getLast? (show (frameChecks pb frame).getLast? =
    some (.parseError, (parsed pb frame).any Prod.snd) from rfl))
  cases hparsed : parsed pb frame with
  | none => simp [hparsed] at hpayload
  | some result =>
      have hparses : result.2 = true := by simpa [hparsed] using hpayload
      exact ⟨result.1, by rw [← hparses]⟩

theorem headVerdict_whole {l : List UInt8} (hlegal : LegalLen (headLen l))
    (hwhole : headerLen + headLen l ≤ l.length) :
    headVerdict pb l =
      match accepted (parse pb (body (headFrame l)) (headLen l)) with
      | some message => .frame message (headerLen + headLen l).toNat
      | none => .malformed (parse pb (body (headFrame l)) (headLen l)).2 := by
  have hheader := headerLen_eq
  have hminimum := minMessageLen_eq
  have hlegalMin := hlegal.1
  have hlegalMax := hlegal.2
  obtain ⟨hlen, hsize⟩ := headFrame_spec hlegal hwhole
  have hparse : parse pb (l.drop headerLen.toNat) (headLen l) =
      parse pb (body (headFrame l)) (headLen l) := by
    have hbody : ((body (headFrame l)).length : Int) = headLen l := by
      rw [body, List.length_drop]
      omega
    have hdrop : l.drop headerLen.toNat =
        body (headFrame l) ++ l.drop (headerLen + headLen l).toNat := by
      rw [body, hheader, ← List.drop_append_of_le_length (by omega), headFrame, hheader,
        List.take_append_drop]
      rfl
    rw [hdrop]
    exact parse_append pb _ _ hlegalMin (by omega)
  have hmin : minMessageLen + headerLen ≤ (l.length : Int) := by omega
  have hrange : ¬ (headLen l < minMessageLen ∨ maxMessageLen < headLen l) := by omega
  have hcomplete : ¬ (l.length : Int) < headLen l + headerLen := by omega
  rw [← hparse, headVerdict, if_pos hmin]
  show (if headLen l < minMessageLen ∨ maxMessageLen < headLen l then _
    else if (l.length : Int) < headLen l + headerLen then _ else _) = _
  rw [if_neg hrange, if_neg hcomplete]
  rfl

theorem headVerdict_valid {l : List UInt8} (hlegal : LegalLen (headLen l))
    (hwhole : headerLen + headLen l ≤ l.length) (hnone : firstFailed pb (headFrame l) = none) :
    ∃ message, headVerdict pb l = .frame message (headerLen + headLen l).toNat ∧
      ValidFrame pb (headFrame l) message := by
  obtain ⟨hlen, hsize⟩ := headFrame_spec hlegal hwhole
  have hlegal' : LegalLen (headLen (headFrame l)) := by
    rw [hlen]
    exact hlegal
  have hparse := parse_body pb hlegal' hsize
  have hchecks := (firstFailed_eq_none_iff pb (headFrame l)).mp hnone
  obtain ⟨message, hparsed⟩ := exists_parsed pb hchecks
  rw [hlen, hnone, Option.getD_none, hparsed] at hparse
  have haccepted : accepted (parse pb (body (headFrame l)) (headLen l)) = some message := by
    rw [accepted, if_pos hparse.1, hparse.2 rfl]
    rfl
  refine ⟨message, ?_, hlegal', hsize, hchecks, ?_⟩
  · rw [headVerdict_whole pb hlegal hwhole, haccepted]
  · rw [hparsed]
    rfl

theorem headVerdict_failed {l : List UInt8} {code : ErrorCode} (hlegal : LegalLen (headLen l))
    (hwhole : headerLen + headLen l ≤ l.length)
    (hcode : firstFailed pb (headFrame l) = some code) :
    headVerdict pb l = .malformed code := by
  obtain ⟨hlen, hsize⟩ := headFrame_spec hlegal hwhole
  have hlegal' : LegalLen (headLen (headFrame l)) := by
    rw [hlen]
    exact hlegal
  have hparse := (parse_body pb hlegal' hsize).1
  rw [hlen, hcode, Option.getD_some] at hparse
  have haccepted : accepted (parse pb (body (headFrame l)) (headLen l)) = none := by
    rw [accepted, hparse, if_neg (firstFailed_ne_noError pb hcode)]
  rw [headVerdict_whole pb hlegal hwhole, haccepted, hparse]

theorem headVerdict_cases (l : List UInt8) :
    (∃ message, headVerdict pb l = .frame message (headerLen + headLen l).toNat ∧
        ValidFrame pb (headFrame l) message) ∨
      (headVerdict pb l = .incomplete ∧ StopsAt pb l []) ∨
      ∃ code, headVerdict pb l = .malformed code ∧ StopsAt pb l [code] := by
  have hheader := headerLen_eq
  have hminimum := minMessageLen_eq
  by_cases hshort : l.length < 14
  · right
    left
    refine ⟨?_, .short hshort⟩
    rw [headVerdict, if_neg (by omega)]
  · by_cases hlegal : LegalLen (headLen l)
    · have hrange : ¬ (headLen l < minMessageLen ∨ maxMessageLen < headLen l) := by
        rcases hlegal with ⟨hlegalMin, hlegalMax⟩
        omega
      by_cases hwhole : headerLen + headLen l ≤ l.length
      · cases hchecks : firstFailed pb (headFrame l) with
        | none =>
            left
            exact headVerdict_valid pb hlegal hwhole hchecks
        | some code =>
            right
            right
            exact ⟨code, headVerdict_failed pb hlegal hwhole hchecks,
              .failed hlegal hwhole hchecks⟩
      · right
        left
        refine ⟨?_, .incomplete hlegal (by omega)⟩
        rw [headVerdict, if_pos (by omega)]
        show (if headLen l < minMessageLen ∨ maxMessageLen < headLen l then _
          else if (l.length : Int) < headLen l + headerLen then _ else _) = _
        rw [if_neg hrange, if_pos (by omega)]
    · have hrange : headLen l < minMessageLen ∨ maxMessageLen < headLen l := by
        rw [LegalLen] at hlegal
        omega
      right
      right
      refine ⟨.invalidLength, ?_, .invalidLength (by omega) hlegal⟩
      rw [headVerdict, if_pos (by omega)]
      show (if headLen l < minMessageLen ∨ maxMessageLen < headLen l then _ else _) = _
      rw [if_pos hrange]

theorem StopsAt.not_valid {rest frame tail : List UInt8} {errors : List ErrorCode}
    {message : Message} (h : StopsAt pb rest errors) (hrest : rest = frame ++ tail) :
    ¬ ValidFrame pb frame message := by
  intro hvalid
  have hheader := headerLen_eq
  have hminimum := minMessageLen_eq
  have hlegalMin := hvalid.legal.1
  have hsize := hvalid.size
  have hlen : headLen rest = headLen frame := by
    rw [hrest]
    exact headLen_append tail (by omega)
  have hlength : rest.length = frame.length + tail.length := by
    rw [hrest, List.length_append]
  cases h with
  | short hshort => omega
  | incomplete _ hincomplete => omega
  | invalidLength _ hillegal =>
      rw [hlen] at hillegal
      exact hillegal hvalid.legal
  | failed _ _ hfailed =>
      rw [hrest, headFrame_append tail hvalid.legal hsize,
        (firstFailed_eq_none_iff pb frame).mpr hvalid.checks] at hfailed
      exact Option.some_ne_none _ hfailed.symm

/-- Draining a stream takes off the valid frames at its front, by induction on the drained
frames. -/
theorem drain_decoded (q : List UInt8) :
    ∃ valid, q = valid.flatten ++ ((frames pb).drain q).rest ∧
      List.Forall₂ (ValidFrame pb) valid ((frames pb).drain q).messages ∧
      StopsAt pb ((frames pb).drain q).rest ((frames pb).drain q).error.toList := by
  induction q using Framing.drain.induct (frames pb) with
  | case1 q h =>
      have hverdict : headVerdict pb q = .incomplete := h
      rw [Framing.drain_incomplete h]
      rcases headVerdict_cases pb q with ⟨_, hframe, _⟩ | ⟨_, hstops⟩ | ⟨_, hmalformed, _⟩
      · cases hframe.symm.trans hverdict
      · exact ⟨[], rfl, .nil, hstops⟩
      · cases hmalformed.symm.trans hverdict
  | case2 q e h =>
      have hverdict : headVerdict pb q = .malformed e := h
      rw [Framing.drain_malformed h]
      rcases headVerdict_cases pb q with ⟨_, hframe, _⟩ | ⟨hincomplete, _⟩ | ⟨_, hmalformed, hstops⟩
      · cases hframe.symm.trans hverdict
      · cases hincomplete.symm.trans hverdict
      · cases hmalformed.symm.trans hverdict
        exact ⟨[], rfl, .nil, hstops⟩
  | case3 q m n h ih =>
      have hverdict : headVerdict pb q = .frame m n := h
      rw [Framing.drain_frame h]
      rcases headVerdict_cases pb q with ⟨_, hframe, hvalid⟩ | ⟨hincomplete, _⟩ | ⟨_, hmalformed, _⟩
      · cases hframe.symm.trans hverdict
        obtain ⟨valid, hsplit, hmessages, hstops⟩ := ih
        refine ⟨headFrame q :: valid, ?_, .cons hvalid hmessages, hstops⟩
        rw [List.flatten_cons, List.append_assoc, ← hsplit, headFrame, List.take_append_drop]
      · cases hincomplete.symm.trans hverdict
      · cases hmalformed.symm.trans hverdict

/-- For every content of its buffer, `onMessage` delivers the messages of the valid frames at the
front, as many as there are, and removes these frames. Then it stops: without a report if the next
frame is not there yet, else with one report, of an illegal length or of the first check that the
next frame fails. -/
theorem onMessage_decoded (b : Buffer) (q : List UInt8) (hq : b.Represents q) :
    ∃ valid rest, Decoded pb q (onMessage pb b) valid rest := by
  obtain ⟨hdelivered, herrors, hkept⟩ := onMessage_drain pb hq
  obtain ⟨valid, hsplit, hmessages, hstops⟩ := drain_decoded pb q
  rw [← hdelivered] at hmessages
  rw [← herrors] at hstops
  exact ⟨valid, _, hsplit, hmessages, fun _ _ _ hrest => hstops.not_valid pb hrest, hkept, hstops⟩

theorem onMessage_decoded_goodThenBad :
    let result := onMessage emptyRuntime ((Buffer.create 0 0).append goodThenBad).val
    (∃ valid rest, Decoded emptyRuntime goodThenBad result valid rest) ∧
      result.delivered = [5] ∧ result.errors = [.checkSumError] ∧
      result.buf.readable = frameOfFive 0 := by
  intro result
  have hbuf : ((Buffer.create 0 0).append goodThenBad).val.Represents goodThenBad :=
    Buffer.Represents.create.append goodThenBad
  obtain ⟨hdelivered, herrors, hkept⟩ := onMessage_drain emptyRuntime hbuf
  rw [drain_goodThenBad] at hdelivered herrors hkept
  exact ⟨onMessage_decoded emptyRuntime _ goodThenBad hbuf, hdelivered, herrors, hkept.readable_eq⟩

end ProtobufCodec

end LearnMuduo
