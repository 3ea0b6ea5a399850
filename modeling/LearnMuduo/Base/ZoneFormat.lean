import LearnMuduo.Framework.MachineInt
import LearnMuduo.Base.ZoneFile

/-!
# The format of zone files

A file holds a header with the counts, the times of the transitions, the types they lead to, the
types themselves and their abbreviations, each in the order that `readTimeZoneFile` asks for.
-/

namespace LearnMuduo

open Framework
open ByteReader (ReadsRecord)

/-- A zone whose numbers fit the fields of a file, and whose transitions have the local times that
follow from their types. -/
structure ZoneData.Encodable (data : ZoneData) : Prop where
  time : ∀ transition ∈ data.transitions,
    -2147483648 ≤ transition.gmttime ∧ transition.gmttime ≤ 2147483647
  local_eq : ∀ transition ∈ data.transitions,
    transition.localtime = transition.gmttime + (data.typeOf transition).gmtOffset
  idx_lt : ∀ transition ∈ data.transitions,
    transition.localtimeIdx < data.localtimes.length ∧ transition.localtimeIdx < 256
  offset : ∀ loc ∈ data.localtimes, -2147483648 ≤ loc.gmtOffset ∧ loc.gmtOffset ≤ 2147483647
  arrbIdx : ∀ loc ∈ data.localtimes, loc.arrbIdx < 256
  char : ∀ c ∈ data.abbreviation, c.toNat < 256
  size : data.transitions.length < 2147483648 ∧ data.localtimes.length < 2147483648 ∧
    data.abbreviation.length < 2147483648

theorem encodable_berlin : TimeZone.berlin.Encodable where
  time := by decide
  local_eq := by decide
  idx_lt := by decide
  offset := by decide
  arrbIdx := by decide
  char := by simp [TimeZone.berlin]
  size := by decide

/-- A file with a zone, as the format has it. -/
structure ZoneFile where
  version : UInt8
  reserved : List UInt8
  isgmtcnt : BitVec 32
  isstdcnt : BitVec 32
  leapcnt : BitVec 32
  data : ZoneData
  /-- leap seconds, and what later versions of the format add -/
  trailer : List UInt8
  reserved_length : reserved.length = 15
  encodable : data.Encodable

namespace ZoneFile

def htobe32 (x : BitVec 32) : List UInt8 := beEncode 4 x.toNat

def localtimeBytes (loc : Localtime) : List UInt8 :=
  htobe32 (BitVec.ofInt 32 loc.gmtOffset) ++
    [if loc.isDst then 1 else 0, UInt8.ofNat loc.arrbIdx]

variable (file : ZoneFile)

/-- The part of the header before the counts that `readTimeZoneFile` uses. -/
def leadBytes : List UInt8 :=
  magic ++ [file.version] ++ file.reserved ++
    htobe32 file.isgmtcnt ++ htobe32 file.isstdcnt ++ htobe32 file.leapcnt

def countBytes : List UInt8 :=
  htobe32 (BitVec.ofNat 32 file.data.transitions.length) ++
    htobe32 (BitVec.ofNat 32 file.data.localtimes.length) ++
    htobe32 (BitVec.ofNat 32 file.data.abbreviation.length)

def timeBytes : List UInt8 :=
  file.data.transitions.flatMap fun transition => htobe32 (BitVec.ofInt 32 transition.gmttime)

def idxBytes : List UInt8 :=
  file.data.transitions.map fun transition => UInt8.ofNat transition.localtimeIdx

def typeBytes : List UInt8 := file.data.localtimes.flatMap localtimeBytes

def charBytes : List UInt8 := file.data.abbreviation.map fun c => UInt8.ofNat c.toNat

def bodyBytes : List UInt8 :=
  file.timeBytes ++ (file.idxBytes ++ (file.typeBytes ++ (file.charBytes ++ file.trailer)))

def bytes : List UInt8 := file.leadBytes ++ file.countBytes ++ file.bodyBytes

@[simp] theorem length_htobe32 (x : BitVec 32) : (htobe32 x).length = 4 := length_beEncode 4 _

@[simp] theorem length_localtimeBytes (loc : Localtime) : (localtimeBytes loc).length = 6 := by
  simp [localtimeBytes]

@[simp] theorem length_leadBytes : file.leadBytes.length = 32 := by
  simp [leadBytes, magic, file.reserved_length]

@[simp] theorem length_countBytes : file.countBytes.length = 12 := by
  simp [countBytes]

@[simp] theorem length_timeBytes :
    file.timeBytes.length = 4 * file.data.transitions.length := by
  simp [timeBytes, List.length_flatMap, Nat.mul_comm]

@[simp] theorem length_idxBytes : file.idxBytes.length = file.data.transitions.length := by
  simp [idxBytes]

@[simp] theorem length_typeBytes :
    file.typeBytes.length = 6 * file.data.localtimes.length := by
  simp [typeBytes, List.length_flatMap, Nat.mul_comm]

@[simp] theorem length_charBytes : file.charBytes.length = file.data.abbreviation.length := by
  simp [charBytes]

theorem be32toh_htobe32 (x : BitVec 32) : be32toh (htobe32 x) = x := by
  rw [be32toh, htobe32, beDecode_beEncode 4 _ x.isLt]
  exact BitVec.eq_of_toNat_eq (by simp)

theorem toInt_be32toh_htobe32 {x : Int} (h : -2147483648 ≤ x ∧ x ≤ 2147483647) :
    (be32toh (htobe32 (BitVec.ofInt 32 x))).toInt = x := by
  rw [be32toh_htobe32, BitVec.toInt_ofInt_eq_self (by decide)] <;> omega

theorem int32At_eq {content before after : List UInt8} {x : BitVec 32} {i : Nat}
    (hcontent : content = before ++ (htobe32 x ++ after)) (h : before.length = i) :
    int32At content i = x.toInt := by
  rw [int32At, hcontent, List.drop_left' h, List.take_left' (length_htobe32 x), be32toh_htobe32]

theorem toInt_ofNat {n : Nat} (h : n < 2147483648) : (BitVec.ofNat 32 n).toInt = n :=
  intOfSize_of_lt h

theorem hasHeader_bytes : HasHeader file.bytes := by
  constructor
  · simp [bytes]
    omega
  · rfl

theorem headerOf_counts (content : List UInt8) :
    (headerOf content).timecnt = int32At content 32 ∧
      (headerOf content).typecnt = int32At content 36 ∧
      (headerOf content).charcnt = int32At content 40 :=
  ⟨rfl, rfl, rfl⟩

theorem counts_bytes :
    (headerOf file.bytes).timecnt = file.data.transitions.length ∧
      (headerOf file.bytes).typecnt = file.data.localtimes.length ∧
      (headerOf file.bytes).charcnt = file.data.abbreviation.length := by
  obtain ⟨htimes, htypes, hchars⟩ := file.encodable.size
  have hbytes : file.bytes = file.leadBytes ++ (htobe32 (BitVec.ofNat 32
      file.data.transitions.length) ++ (htobe32 (BitVec.ofNat 32 file.data.localtimes.length) ++
      (htobe32 (BitVec.ofNat 32 file.data.abbreviation.length) ++ file.bodyBytes))) := by
    simp only [bytes, countBytes, List.append_assoc]
  obtain ⟨htimecnt, htypecnt, hcharcnt⟩ := headerOf_counts file.bytes
  rw [htimecnt, htypecnt, hcharcnt, ← toInt_ofNat htimes, ← toInt_ofNat htypes,
    ← toInt_ofNat hchars]
  refine ⟨int32At_eq hbytes (by simp), ?_, ?_⟩
  · rw [← List.append_assoc] at hbytes
    exact int32At_eq hbytes (by simp)
  · rw [← List.append_assoc, ← List.append_assoc] at hbytes
    exact int32At_eq hbytes (by simp)

theorem localtimeOf_localtimeBytes {loc : Localtime}
    (hoffset : -2147483648 ≤ loc.gmtOffset ∧ loc.gmtOffset ≤ 2147483647)
    (hidx : loc.arrbIdx < 256) :
    localtimeOf (localtimeBytes loc) = loc := by
  obtain ⟨gmtOffset, isDst, arrbIdx⟩ := loc
  have htake : (localtimeBytes ⟨gmtOffset, isDst, arrbIdx⟩).take 4 =
      htobe32 (BitVec.ofInt 32 gmtOffset) := List.take_left' (length_htobe32 _)
  have hdrop : (localtimeBytes ⟨gmtOffset, isDst, arrbIdx⟩).drop 4 =
      [if isDst then 1 else 0, UInt8.ofNat arrbIdx] := List.drop_left' (length_htobe32 _)
  have hdrop' : (localtimeBytes ⟨gmtOffset, isDst, arrbIdx⟩).drop 5 = [UInt8.ofNat arrbIdx] := by
    rw [show 5 = 4 + 1 from rfl, ← List.drop_drop, hdrop]
    rfl
  have hdst : decide (beDecode [if isDst then 1 else 0] ≠ 0) = isDst := by
    cases isDst <;> rfl
  rw [localtimeOf, int32At, List.drop_zero, htake, hdrop, hdrop', toInt_be32toh_htobe32 hoffset]
  have harrb : beDecode [UInt8.ofNat arrbIdx] = arrbIdx := by
    simp [beDecode, Nat.mod_eq_of_lt hidx]
  rw [List.take_succ_cons, List.take_zero, hdst, List.take_succ_cons, List.take_zero, harrb]

theorem typesIn_bodyBytes (header : ZoneHeader)
    (htimes : header.timecnt = file.data.transitions.length)
    (htypes : header.typecnt = file.data.localtimes.length) :
    typesIn header file.bodyBytes = file.data.localtimes := by
  have hlength : 5 * file.data.transitions.length + 6 * file.data.localtimes.length ≤
      file.bodyBytes.length := by
    simp [bodyBytes]
    omega
  have hdrop : file.bodyBytes.drop (5 * file.data.transitions.length) =
      file.data.localtimes.flatMap localtimeBytes ++ (file.charBytes ++ file.trailer) := by
    rw [bodyBytes, ← List.append_assoc, List.drop_left']
    · rfl
    · simp
      omega
  have hcount : file.data.localtimes.length ≤
      (file.bodyBytes.length - 5 * file.data.transitions.length) / 6 := by
    omega
  rw [typesIn, htimes, htypes, Int.toNat_natCast, Int.toNat_natCast, if_pos (by omega),
    Nat.min_eq_left hcount, hdrop, ByteReader.records_flatMap length_localtimeBytes, List.map_map]
  refine (List.map_congr_left fun loc hmem => ?_).trans (List.map_id _)
  exact localtimeOf_localtimeBytes (file.encodable.offset loc hmem)
    (file.encodable.arrbIdx loc hmem)

theorem roundsIn_bodyBytes :
    roundsIn file.data.transitions.length file.bodyBytes =
      file.data.transitions.map fun transition =>
        (transition.gmttime, transition.localtimeIdx) := by
  have htimes : file.bodyBytes.take (4 * file.data.transitions.length) =
      file.data.transitions.flatMap (fun transition =>
        htobe32 (BitVec.ofInt 32 transition.gmttime)) ++ [] := by
    rw [List.append_nil]
    exact List.take_left' file.length_timeBytes
  have hindices : (file.bodyBytes.drop (4 * file.data.transitions.length)).take
      (1 * file.data.transitions.length) = file.idxBytes := by
    rw [bodyBytes, List.drop_left' file.length_timeBytes, Nat.one_mul,
      List.take_left' file.length_idxBytes]
  rw [roundsIn, htimes, hindices, ByteReader.records_flatMap fun _ => length_htobe32 _,
    records_one file.length_idxBytes.ge, ← file.length_idxBytes, List.take_length, idxBytes,
    List.map_map, List.map_map, List.zip_map', List.map_inj_left]
  intro transition hmem
  have htime : (be32toh (htobe32 (BitVec.ofInt 32 transition.gmttime))).toInt =
      transition.gmttime := toInt_be32toh_htobe32 (file.encodable.time transition hmem)
  have hidx : (UInt8.ofNat transition.localtimeIdx).toNat = transition.localtimeIdx := by
    simp [Nat.mod_eq_of_lt (file.encodable.idx_lt transition hmem).2]
  exact Prod.ext htime hidx

theorem transitionsOf_rounds :
    transitionsOf file.data.localtimes (file.data.transitions.map fun transition =>
      (transition.gmttime, transition.localtimeIdx)) = file.data.transitions := by
  rw [transitionsOf, List.map_map]
  refine (List.map_congr_left fun transition hmem => ?_).trans (List.map_id _)
  have hlocal := file.encodable.local_eq transition hmem
  rw [ZoneData.typeOf] at hlocal
  change Transition.mk _ _ _ = transition
  rw [← hlocal]

theorem abbreviation_charBytes :
    file.charBytes.map (fun byte => Char.ofNat byte.toNat) = file.data.abbreviation := by
  rw [charBytes, List.map_map]
  refine (List.map_congr_left fun c hmem => ?_).trans (List.map_id _)
  have hlt := file.encodable.char c hmem
  simp [Nat.mod_eq_of_lt hlt]

theorem readZone_bytes {room : StackRoom} (h : file.data.abbreviation.length ≤ room.bytes) :
    readZone room ⟨file.bytes, ⟨[], [], []⟩⟩ = .ok () ⟨file.trailer, file.data⟩ := by
  obtain ⟨htimes, htypes, hchars⟩ := file.counts_bytes
  have hbody : file.bytes.drop 44 = file.bodyBytes := List.drop_left' (by simp)
  have hlength : 5 * file.data.transitions.length + 6 * file.data.localtimes.length ≤
      file.bodyBytes.length := by
    simp [bodyBytes]
    omega
  have hrest : file.bodyBytes.drop (5 * file.data.transitions.length +
      6 * file.data.localtimes.length) = file.charBytes ++ file.trailer := by
    rw [bodyBytes, ← List.append_assoc, ← List.append_assoc, List.drop_left']
    simp
    omega
  have hpush := pushTransitions_eq (file.charBytes ++ file.trailer)
    ⟨[], file.data.localtimes, []⟩ (l := file.data.transitions.map fun transition =>
      (transition.gmttime, transition.localtimeIdx)) (by
      intro round hmem
      obtain ⟨transition, hmem', rfl⟩ := List.mem_map.mp hmem
      exact (file.encodable.idx_lt transition hmem').1)
  have hfits : room.Fits file.data.abbreviation.length := ⟨Int.natCast_nonneg _, Int.ofNat_le.mpr h⟩
  have hread := (readsRecord_readBytes_file hfits).enough
    ⟨file.data.transitions, file.data.localtimes, []⟩
    (show _ ≤ (file.charBytes ++ file.trailer).length by simp)
  rw [Int.toNat_natCast, List.take_left' file.length_charBytes,
    List.drop_left' file.length_charBytes] at hread
  rw [readZone, ByteReader.bind_of_ok (readHeader_ok room file.hasHeader_bytes _), hbody,
    if_neg (by omega), readBody_eq room _ (by rw [htimes, htypes]; exact hlength),
    file.typesIn_bodyBytes _ htimes htypes, htimes, htypes, Int.toNat_natCast, Int.toNat_natCast,
    roundsIn_bodyBytes, hrest, finishBody, ByteReader.bind_of_ok hpush, List.nil_append,
    transitionsOf_rounds, hchars, ByteReader.bind_of_ok hread]
  change EStateM.Result.ok () (ReaderState.mk file.trailer (ZoneData.mk _ _
    (file.charBytes.map fun byte => Char.ofNat byte.toNat))) = _
  rw [abbreviation_charBytes]
  rfl

/-- A zone comes back from its file, whatever else the file holds, and nothing is printed, if the
stack has room for the abbreviations. -/
theorem readTimeZoneFile_bytes {room : StackRoom}
    (h : file.data.abbreviation.length ≤ room.bytes) :
    readTimeZoneFile room (some file.bytes) ⟨[], [], []⟩ = pure (true, file.data, []) := by
  rw [readTimeZoneFile, file.readZone_bytes h]

/-- A file of the second version, with the footer that the version has. -/
def berlin : ZoneFile where
  version := 50
  reserved := List.replicate 15 0
  isgmtcnt := 2
  isstdcnt := 2
  leapcnt := 0
  data := TimeZone.berlin
  trailer := [0, 1, 0, 1, 10, 67, 69, 84, 45, 49, 10]
  reserved_length := rfl
  encodable := encodable_berlin

theorem readTimeZoneFile_bytes_berlin :
    readTimeZoneFile TimeZone.eightMiB (some berlin.bytes) ⟨[], [], []⟩ =
      pure (true, TimeZone.berlin, []) :=
  berlin.readTimeZoneFile_bytes (by decide)

end ZoneFile

end LearnMuduo
