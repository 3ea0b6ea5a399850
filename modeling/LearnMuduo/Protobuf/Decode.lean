import LearnMuduo.Framework.Framing
import LearnMuduo.Protobuf.Codec

/-!
# Decoding a byte stream

The decision that one turn of the loop in `onMessage` takes about the head of the stream is a
framing: more bytes never revise it. `onMessage` on a buffer is that framing's `drain` on the
bytes the buffer represents, so where the network cuts the stream does not matter.
-/

namespace LearnMuduo

open Framework

namespace ProtobufCodec

variable {Descriptor Message : Type} (pb : Protobuf Descriptor Message)

theorem parse_append (buf rest : List UInt8) {len : Int} (hmin : minMessageLen ≤ len)
    (hlen : len ≤ buf.length) : parse pb (buf ++ rest) len = parse pb buf len := by
  have hheader := headerLen_eq
  have hminimum := minMessageLen_eq
  have hcheck : networkToHost32 ((buf ++ rest).drop (len - headerLen).toNat) =
      networkToHost32 (buf.drop (len - headerLen).toNat) := by
    rw [List.drop_append_of_le_length (by omega),
      networkToHost32_append _ _ (by rw [List.length_drop]; omega)]
  have hbody : (buf ++ rest).take (len - headerLen).toNat = buf.take (len - headerLen).toNat :=
    List.take_append_of_le_length (by omega)
  have hname : networkToHost32 (buf ++ rest) = networkToHost32 buf :=
    networkToHost32_append _ _ (by omega)
  simp only [parse, asInt32, hcheck, hbody, hname]
  refine ite_congr rfl (fun _ => rfl) fun _ => ite_congr rfl (fun _ => rfl) fun hgood => ?_
  rw [not_or, not_lt, not_lt] at hgood
  have htype : ((buf ++ rest).drop headerLen.toNat).take ((networkToHost32 buf).toInt - 1).toNat =
      (buf.drop headerLen.toNat).take ((networkToHost32 buf).toInt - 1).toNat := by
    rw [List.drop_append_of_le_length (by omega),
      List.take_append_of_le_length (by rw [List.length_drop]; omega)]
  have hdata : ((buf ++ rest).drop (headerLen + (networkToHost32 buf).toInt).toNat).take
        (len - (networkToHost32 buf).toInt - 2 * headerLen).toNat =
      (buf.drop (headerLen + (networkToHost32 buf).toInt).toNat).take
        (len - (networkToHost32 buf).toInt - 2 * headerLen).toNat := by
    rw [List.drop_append_of_le_length (by omega),
      List.take_append_of_le_length (by rw [List.length_drop]; omega)]
  simp only [htype, hdata]

/-- One turn of the loop in `onMessage`, as a decision about the readable bytes. -/
def headVerdict (l : List UInt8) : Verdict Message ErrorCode :=
  if minMessageLen + headerLen ≤ l.length then
    let len := (networkToHost32 l).toInt
    if len < minMessageLen ∨ maxMessageLen < len then .malformed .invalidLength
    else if (l.length : Int) < len + headerLen then .incomplete
    else
      let parsed := parse pb (l.drop headerLen.toNat) len
      match accepted parsed with
      | some message => .frame message (headerLen + len).toNat
      | none => .malformed parsed.2
  else .incomplete

theorem headVerdict_eq_frame {l : List UInt8} {m : Message} {n : Nat}
    (h : headVerdict pb l = .frame m n) :
    minMessageLen ≤ (networkToHost32 l).toInt ∧
      (networkToHost32 l).toInt + headerLen ≤ l.length ∧
      n = (headerLen + (networkToHost32 l).toInt).toNat := by
  simp only [headVerdict] at h
  split at h
  · split at h
    · cases h
    · rename_i hlen
      split at h
      · cases h
      · rename_i hwhole
        split at h
        · rw [Verdict.frame.injEq] at h
          rw [not_or, not_lt] at hlen
          exact ⟨hlen.1, not_lt.mp hwhole, h.2.symm⟩
        · cases h
  · cases h

/-- A verdict other than `incomplete` is final. -/
theorem headVerdict_append {l : List UInt8} (x : List UInt8)
    (h : headVerdict pb l ≠ .incomplete) : headVerdict pb (l ++ x) = headVerdict pb l := by
  have hheader := headerLen_eq
  have hminimum := minMessageLen_eq
  have hmin : minMessageLen + headerLen ≤ (l.length : Int) := by
    by_contra hshort
    exact h (if_neg hshort)
  have hmin' : minMessageLen + headerLen ≤ ((l ++ x).length : Int) := by
    rw [List.length_append]
    omega
  have hword : networkToHost32 (l ++ x) = networkToHost32 l :=
    networkToHost32_append l x (by omega)
  simp only [headVerdict, hword, if_pos hmin, if_pos hmin'] at h ⊢
  refine ite_congr rfl (fun _ => rfl) fun hlen => ?_
  rw [if_neg hlen] at h
  have hwhole : ¬ (l.length : Int) < (networkToHost32 l).toInt + headerLen := by
    intro hshort
    exact h (if_pos hshort)
  have hwhole' : ¬ ((l ++ x).length : Int) < (networkToHost32 l).toInt + headerLen := by
    rw [List.length_append]
    omega
  rw [not_or, not_lt] at hlen
  have hparse : parse pb ((l ++ x).drop headerLen.toNat) (networkToHost32 l).toInt =
      parse pb (l.drop headerLen.toNat) (networkToHost32 l).toInt := by
    rw [List.drop_append_of_le_length (by omega)]
    exact parse_append pb _ x hlen.1 (by rw [List.length_drop]; omega)
  rw [if_neg hwhole', if_neg hwhole, hparse]

/-- The codec's frames on a stream. -/
def frames : Framing UInt8 Message ErrorCode where
  verdict := headVerdict pb
  size_pos h := by
    obtain ⟨hmin, _, rfl⟩ := headVerdict_eq_frame pb h
    have hheader := headerLen_eq
    have hminimum := minMessageLen_eq
    omega
  size_le h := by
    obtain ⟨hmin, hlen, rfl⟩ := headVerdict_eq_frame pb h
    have hminimum := minMessageLen_eq
    omega
  frame_append x h := (headVerdict_append pb x (by rw [h]; simp)).trans h
  malformed_append x h := (headVerdict_append pb x (by rw [h]; simp)).trans h

/-- One turn of the loop, read off the verdict about the readable bytes. -/
private theorem onMessage_eq {b : Buffer} {q : List UInt8} (hb : b.Represents q) :
    onMessage pb b =
      match headVerdict pb q with
      | .incomplete => ⟨[], [], b⟩
      | .malformed e => ⟨[], [e], b⟩
      | .frame m n =>
          { onMessage pb (b.retrieve n).val with
            delivered := m :: (onMessage pb (b.retrieve n).val).delivered } := by
  have hheader := headerLen_eq
  have hminimum := minMessageLen_eq
  rw [onMessage, hb.length_eq]
  by_cases hmin : minMessageLen + headerLen ≤ (q.length : Int)
  · have hpeek := hb.peekInt32 (by omega)
    simp only [headVerdict, dif_pos hmin, if_pos hmin, hpeek]
    by_cases hlen : (networkToHost32 q).toInt < minMessageLen ∨
        maxMessageLen < (networkToHost32 q).toInt
    · simp only [dif_pos hlen, if_pos hlen]
    · simp only [dif_neg hlen, if_neg hlen]
      by_cases hwhole : (q.length : Int) < (networkToHost32 q).toInt + headerLen
      · simp only [if_pos hwhole]
      · simp only [if_neg hwhole]
        rw [not_or, not_lt] at hlen
        obtain ⟨rest, hrest⟩ : ∃ rest, b.getReadPos = q ++ rest :=
          ⟨_, by rw [← hb.readable_eq]; exact (List.take_append_drop _ _).symm⟩
        have hparse : parse pb (b.getReadPos.drop headerLen.toNat) (networkToHost32 q).toInt =
            parse pb (q.drop headerLen.toNat) (networkToHost32 q).toInt := by
          rw [hrest, List.drop_append_of_le_length (by omega)]
          exact parse_append pb _ rest hlen.1 (by rw [List.length_drop]; omega)
        rw [hparse]
        cases accepted (parse pb (q.drop headerLen.toNat) (networkToHost32 q).toInt) <;> rfl
  · simp only [headVerdict, dif_neg hmin, if_neg hmin]

theorem onMessage_drain {b : Buffer} {q : List UInt8} (hb : b.Represents q) :
    (onMessage pb b).delivered = ((frames pb).drain q).messages ∧
      (onMessage pb b).errors = ((frames pb).drain q).error.toList ∧
      (onMessage pb b).buf.Represents ((frames pb).drain q).rest := by
  induction q using Framing.drain.induct (frames pb) generalizing b with
  | case1 q h =>
      have hverdict : headVerdict pb q = .incomplete := h
      rw [onMessage_eq pb hb, hverdict, Framing.drain_incomplete h]
      exact ⟨rfl, rfl, hb⟩
  | case2 q e h =>
      have hverdict : headVerdict pb q = .malformed e := h
      rw [onMessage_eq pb hb, hverdict, Framing.drain_malformed h]
      exact ⟨rfl, rfl, hb⟩
  | case3 q m n h ih =>
      have hverdict : headVerdict pb q = .frame m n := h
      obtain ⟨hdelivered, herrors, hrest⟩ := ih (hb.retrieve n)
      rw [onMessage_eq pb hb, hverdict, Framing.drain_frame h]
      exact ⟨congrArg (m :: ·) hdelivered, herrors, hrest⟩

theorem receiveAll_feedAll {b : Buffer} (hb : b.Represents []) (chunks : List (List UInt8)) :
    (receiveAll pb b chunks).delivered = ((frames pb).feedAll chunks).delivered ∧
      (receiveAll pb b chunks).errors = ((frames pb).feedAll chunks).reported ∧
      (receiveAll pb b chunks).buf.Represents ((frames pb).feedAll chunks).rest := by
  induction chunks using List.reverseRecOn with
  | nil => exact ⟨rfl, rfl, hb⟩
  | append_singleton chunks chunk ih =>
      obtain ⟨hdelivered, herrors, hrest⟩ := ih
      have hstep : receiveAll pb b (chunks ++ [chunk]) =
          receive pb (receiveAll pb b chunks) chunk := by
        simp [receiveAll]
      obtain ⟨hmessages, herror, hleft⟩ := onMessage_drain pb (hrest.append chunk)
      rw [hstep, Framing.feedAll_append_singleton]
      refine ⟨?_, ?_, hleft⟩
      · simp only [receive, Framing.feed, hdelivered, hmessages]
      · simp only [receive, Framing.feed, herrors, herror]

/-- Two ways of cutting one stream into chunks give the same messages and leave the same bytes,
and nothing is delivered after an error report. -/
theorem receiveAll_cut {b b' : Buffer} (hb : b.Represents []) (hb' : b'.Represents [])
    (chunks chunks' : List (List UInt8)) (hstream : chunks.flatten = chunks'.flatten) :
    (receiveAll pb b chunks).delivered = (receiveAll pb b' chunks').delivered ∧
      (receiveAll pb b chunks).buf.readable = (receiveAll pb b' chunks').buf.readable ∧
      ∀ early late, chunks = early ++ late → (receiveAll pb b early).errors ≠ [] →
        (receiveAll pb b chunks).delivered = (receiveAll pb b early).delivered := by
  obtain ⟨hdelivered, _, hrest⟩ := receiveAll_feedAll pb hb chunks
  obtain ⟨hdelivered', _, hrest'⟩ := receiveAll_feedAll pb hb' chunks'
  obtain ⟨hdrain, hleft⟩ := (frames pb).feedAll_eq_drain chunks
  obtain ⟨hdrain', hleft'⟩ := (frames pb).feedAll_eq_drain chunks'
  refine ⟨?_, ?_, ?_⟩
  · rw [hdelivered, hdelivered', hdrain, hdrain', hstream]
  · rw [hrest.readable_eq, hrest'.readable_eq, hleft, hleft', hstream]
  · intro early late hcut herrors
    subst hcut
    obtain ⟨hearly, hreported, _⟩ := receiveAll_feedAll pb hb early
    rw [hreported] at herrors
    rw [hdelivered, hearly, Framing.delivered_append_of_reported early late herrors]

/-- A frame with a `ynet.Empty` of the id 5, and its checksum if `checkSum` is that. -/
def frameOfFive (checkSum : BitVec 32) : List UInt8 :=
  [0, 0, 0, 21, 0, 0, 0, 11, 121, 110, 101, 116, 46, 69, 109, 112, 116, 121, 0, 8, 5] ++
    hostToNetwork32 checkSum

/-- A good frame, and one with a wrong checksum behind it. -/
def goodThenBad : List UInt8 := frameOfFive 0x22750416 ++ frameOfFive 0

theorem drain_goodThenBad : (frames emptyRuntime).drain goodThenBad =
    ⟨[5], some .checkSumError, frameOfFive 0⟩ := by
  have hgood : (frames emptyRuntime).verdict goodThenBad = .frame 5 25 := rfl
  have hbad : (frames emptyRuntime).verdict (frameOfFive 0) = .malformed .checkSumError := rfl
  have hrest : goodThenBad.drop 25 = frameOfFive 0 := rfl
  rw [Framing.drain_frame hgood, hrest, Framing.drain_malformed hbad]

/-- Cut inside the first length word, or not at all: the first frame is delivered, the second one
reported, and the third one stays where it is. -/
theorem receiveAll_cut_insideWord :
    let cut := [goodThenBad.take 2, goodThenBad.drop 2]
    let early := receiveAll emptyRuntime (Buffer.create 0 0) cut
    let late := receiveAll emptyRuntime (Buffer.create 0 0) (cut ++ [frameOfFive 0x22750416])
    let whole := receiveAll emptyRuntime (Buffer.create 0 0)
      [goodThenBad ++ frameOfFive 0x22750416]
    early.delivered = [5] ∧ early.errors = [.checkSumError] ∧
      late.delivered = whole.delivered ∧ late.buf.readable = whole.buf.readable ∧
      late.delivered = early.delivered := by
  intro cut early late whole
  have hshort : (frames emptyRuntime).drain (goodThenBad.take 2) = ⟨[], none, goodThenBad.take 2⟩ :=
    Framing.drain_incomplete rfl
  obtain ⟨hdelivered, herrors, -⟩ := receiveAll_feedAll emptyRuntime Buffer.Represents.create cut
  have hfed : (frames emptyRuntime).feedAll cut = ⟨[5], [.checkSumError], frameOfFive 0⟩ := by
    simp only [cut, Framing.feedAll, Framing.feed, Framing.start, List.foldl_cons, List.foldl_nil,
      List.nil_append, hshort, List.take_append_drop, drain_goodThenBad]
    rfl
  rw [hfed] at hdelivered herrors
  obtain ⟨hsame, hleft, hsilent⟩ := receiveAll_cut emptyRuntime Buffer.Represents.create
    Buffer.Represents.create (cut ++ [frameOfFive 0x22750416])
    [goodThenBad ++ frameOfFive 0x22750416] rfl
  refine ⟨hdelivered, herrors, hsame, hleft, hsilent cut [frameOfFive 0x22750416] rfl ?_⟩
  rw [herrors]
  exact List.cons_ne_nil _ _

end ProtobufCodec

end LearnMuduo
