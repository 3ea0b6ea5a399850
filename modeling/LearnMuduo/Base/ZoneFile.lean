import LearnMuduo.Framework.BigEndian
import LearnMuduo.Framework.ByteReader
import LearnMuduo.Base.TimeZone

/-!
# Zone files

`readTimeZoneFile` puts what it reads into the zone as it comes. A `logic_error` ends the reading
with a line on `stderr`, and the zone counts as valid with what has been read until then. It is of
use if and only if a type of local time is there, since `findLocaltime` looks no further.
-/

namespace LearnMuduo

open Framework

/-- How reading ends early: with a `logic_error`, or where the program's behaviour is undefined. -/
inductive ReadError where
  | logicError (what : String)
  | undefined
  deriving DecidableEq, Repr

abbrev ZoneReader := ByteReader ReadError ZoneData

def be32toh (memory : List UInt8) : BitVec 32 := BitVec.ofNat 32 (beDecode memory)

/-- The room that the stack has for an array of `File::readBytes`. Those of the header fit. -/
structure StackRoom where
  bytes : Nat
  header_le : 15 ≤ bytes
  deriving DecidableEq, Repr

namespace File

def readBytes (room : StackRoom) (n : Int) : ZoneReader (List UInt8) :=
  -- the length of an array on the stack; an empty one is an extension that the compiler has
  if n < 0 ∨ room.bytes < n then throw ReadError.undefined
  else ByteReader.readBytes (.logicError "no enough data") n.toNat

def readInt32 : ZoneReader Int := do
  let x ← ByteReader.readBytes (.logicError "bad int32_t data") 4
  pure (be32toh x).toInt

def readUInt8 : ZoneReader Nat := do
  let x ← ByteReader.readBytes (.logicError "bad uint8_t data") 1
  pure (beDecode x)

end File

structure ZoneHeader where
  version : List UInt8
  isgmtcnt : Int
  isstdcnt : Int
  leapcnt : Int
  timecnt : Int
  typecnt : Int
  charcnt : Int
  deriving DecidableEq, Repr

/-- `"TZif"` -/
def magic : List UInt8 := [84, 90, 105, 102]

/-- The part of the header after the magic. -/
def readCounts (room : StackRoom) : ZoneReader ZoneHeader := do
  let version ← File.readBytes room 1
  let _ ← File.readBytes room 15
  let isgmtcnt ← File.readInt32
  let isstdcnt ← File.readInt32
  let leapcnt ← File.readInt32
  let timecnt ← File.readInt32
  let typecnt ← File.readInt32
  let charcnt ← File.readInt32
  pure ⟨version, isgmtcnt, isstdcnt, leapcnt, timecnt, typecnt, charcnt⟩

def readHeader (room : StackRoom) : ZoneReader ZoneHeader := do
  let head ← File.readBytes room 4
  if head ≠ magic then throw (.logicError "bad head") else readCounts room

def pushLocaltime (loc : Localtime) (data : ZoneData) : ZoneData :=
  { data with localtimes := data.localtimes ++ [loc] }

def readLocaltime : ZoneReader Unit := do
  let gmtoff ← File.readInt32
  let isdst ← File.readUInt8
  let abbrind ← File.readUInt8
  ByteReader.update (pushLocaltime ⟨gmtoff, isdst ≠ 0, abbrind⟩)

/-- One round of the loop that fills `data->transitions`. -/
def pushTransition (trans : Int) (localIdx : Nat) : ZoneReader Unit := fun s =>
  match s.state.localtimes[localIdx]? with
  | none => .error .undefined s
  | some loc => .ok () { s with state := { s.state with
      transitions := s.state.transitions ++ [⟨trans, trans + loc.gmtOffset, localIdx⟩] } }

def pushTransitions : List (Int × Nat) → ZoneReader Unit
  | [] => pure ()
  | (time, localIdx) :: l => do
    pushTransition time localIdx
    pushTransitions l

/-- What follows the header. -/
def readBody (room : StackRoom) (header : ZoneHeader) : ZoneReader Unit := do
  let trans ← ByteReader.readMany File.readInt32 header.timecnt.toNat
  let localtimes ← ByteReader.readMany File.readUInt8 header.timecnt.toNat
  let _ ← ByteReader.readMany readLocaltime header.typecnt.toNat
  pushTransitions (trans.zip localtimes)
  let abbreviation ← File.readBytes room header.charcnt
  ByteReader.update fun data =>
    { data with abbreviation := abbreviation.map fun byte => Char.ofNat byte.toNat }

def readZone (room : StackRoom) : ZoneReader Unit := do
  let header ← readHeader room
  -- `trans.reserve`
  if header.timecnt < 0 then throw (.logicError "vector::reserve") else readBody room header

/-- The result, the zone, and what goes to `stderr`. The file has no contents if it cannot be
opened. -/
def readTimeZoneFile (room : StackRoom) (zonefile : Option (List UInt8)) (data : ZoneData) :
    Checked (Bool × ZoneData × List String) :=
  match zonefile with
  | none => pure (true, data, [])
  | some content =>
    match readZone room ⟨content, data⟩ with
    | .ok _ s => pure (true, s.state, [])
    | .error (.logicError what) s => pure (true, s.state, [what ++ "\n"])
    | .error .undefined s => ⟨(true, s.state, []), false⟩

namespace TimeZone

/-- `TimeZone::TimeZone(zonefile)`; the zone, if it is valid. -/
def ofFile (room : StackRoom) (zonefile : Option (List UInt8)) : Checked (Option ZoneData) := do
  let (result, data, _) ← readTimeZoneFile room zonefile ⟨[], [], []⟩
  pure (if result then some data else none)

/-- `TimeZone::TimeZone(eastOfUtc, name)` -/
def fixed (eastOfUtc : Int) (name : List Char) : Option ZoneData :=
  some ⟨[], [⟨eastOfUtc, false, 0⟩], name⟩

/-- The zone converts local times, whatever its offset is. -/
theorem wellFormed_fixed {eastOfUtc : Int}
    (h : -2147483648 ≤ eastOfUtc ∧ eastOfUtc ≤ 2147483647) (name : List Char) :
    ∀ data ∈ fixed eastOfUtc name, data.WellFormed := by
  rintro data ⟨⟩
  constructor
  · exact ⟨List.cons_ne_nil _ _, fun _ hmem => absurd hmem List.not_mem_nil⟩
  · rintro loc hmem
    rw [List.mem_singleton.mp hmem]
    exact h
  · rintro loc hmem
    rw [List.mem_singleton.mp hmem]
    exact Nat.zero_le _
  · trivial

end TimeZone

/-- The `int32_t` at an offset of a file. -/
def int32At (content : List UInt8) (i : Nat) : Int := (be32toh ((content.drop i).take 4)).toInt

def headerOf (content : List UInt8) : ZoneHeader where
  version := (content.drop 4).take 1
  isgmtcnt := int32At content 20
  isstdcnt := int32At content 24
  leapcnt := int32At content 28
  timecnt := int32At content 32
  typecnt := int32At content 36
  charcnt := int32At content 40

def localtimeOf (bytes : List UInt8) : Localtime where
  gmtOffset := int32At bytes 0
  isDst := beDecode ((bytes.drop 4).take 1) ≠ 0
  arrbIdx := beDecode ((bytes.drop 5).take 1)

open ByteReader (ReadsRecord readsRecord_readBytes)

variable (room : StackRoom)

/-- An array can be made of `n` bytes. -/
def StackRoom.Fits (n : Int) : Prop := 0 ≤ n ∧ n ≤ room.bytes

theorem StackRoom.fits_of_le {n : Int} (h : 0 ≤ n ∧ n ≤ 15) : room.Fits n := by
  have hroom := room.header_le
  refine ⟨h.1, ?_⟩
  omega

variable {room}

theorem readBytes_file_eq {n : Int} (h : room.Fits n) :
    File.readBytes room n = ByteReader.readBytes (.logicError "no enough data") n.toNat := by
  have hfits : ¬ (n < 0 ∨ (room.bytes : Int) < n) := by
    rw [not_or, Int.not_lt, Int.not_lt]
    exact h
  rw [File.readBytes, if_neg hfits]

theorem readsRecord_readBytes_file {n : Int} (h : room.Fits n) :
    ReadsRecord (File.readBytes room n) n.toNat id (fun _ => id) := by
  rw [readBytes_file_eq h]
  exact readsRecord_readBytes _ n.toNat

variable (room)

theorem readsRecord_head : ReadsRecord (File.readBytes room 4) 4 id (fun _ => id) :=
  readsRecord_readBytes_file (room.fits_of_le (by decide))

theorem readsRecord_readInt32 :
    ReadsRecord File.readInt32 4 (fun bytes => (be32toh bytes).toInt) (fun _ => id) :=
  (readsRecord_readBytes _ 4).map

theorem readsRecord_readUInt8 : ReadsRecord File.readUInt8 1 beDecode (fun _ => id) :=
  (readsRecord_readBytes _ 1).map

theorem readsRecord_readLocaltime :
    ReadsRecord readLocaltime 6 (fun _ => ()) (fun bytes => pushLocaltime (localtimeOf bytes)) := by
  have hread := readsRecord_readInt32.bind fun gmtoff => readsRecord_readUInt8.bind fun isdst =>
    readsRecord_readUInt8.bind fun abbrind =>
      ByteReader.readsRecord_update (ε := ReadError) (pushLocaltime ⟨gmtoff, isdst ≠ 0, abbrind⟩)
  refine hread.of_eq (fun _ => rfl) fun bytes => ?_
  rw [List.drop_drop]
  rfl

theorem readsRecord_readCounts :
    ReadsRecord (readCounts room) 40 (fun bytes => headerOf (magic ++ bytes)) (fun _ => id) := by
  have hread := (readsRecord_readBytes_file (room.fits_of_le (n := 1) (by decide))).bind
    fun version => (readsRecord_readBytes_file
      (room.fits_of_le (n := 15) (by decide))).bind fun _ =>
    readsRecord_readInt32.bind fun isgmtcnt => readsRecord_readInt32.bind fun isstdcnt =>
    readsRecord_readInt32.bind fun leapcnt => readsRecord_readInt32.bind fun timecnt =>
    readsRecord_readInt32.bind fun typecnt => readsRecord_readInt32.bind fun charcnt =>
    ByteReader.readsRecord_pure
      (ε := ReadError) (σ := ZoneData)
      (ZoneHeader.mk version isgmtcnt isstdcnt leapcnt timecnt typecnt charcnt)
  refine hread.of_eq (fun bytes => ?_) fun _ => rfl
  simp only [List.drop_drop]
  rfl

/-- The file starts with a whole header. -/
def HasHeader (content : List UInt8) : Prop := 44 ≤ content.length ∧ content.take 4 = magic

theorem readHeader_ok {content : List UInt8} (h : HasHeader content) (data : ZoneData) :
    readHeader room ⟨content, data⟩ = .ok (headerOf content) ⟨content.drop 44, data⟩ := by
  have hhead := (readsRecord_head room).enough data (show 4 ≤ content.length by
    have hlength := h.1
    omega)
  have hcounts := (readsRecord_readCounts room).enough data (show 40 ≤ (content.drop 4).length by
    have hlength := h.1
    rw [List.length_drop]
    omega)
  have hheader : headerOf (magic ++ (content.drop 4).take 40) = headerOf content := by
    have hcontent : magic ++ (content.drop 4).take 40 = content.take 44 := by
      rw [← h.2, ← List.take_add]
    simp only [hcontent, headerOf, int32At, List.drop_take, List.take_take]
    rfl
  rw [readHeader, ByteReader.bind_of_ok hhead]
  simp only [id, h.2, ne_eq, not_true_eq_false, if_false]
  rw [hcounts, hheader, List.drop_drop]
  rfl

theorem readHeader_error {content : List UInt8} (h : ¬ HasHeader content) (data : ZoneData) :
    ∃ e rest, readHeader room ⟨content, data⟩ = .error e ⟨rest, data⟩ := by
  rcases Nat.lt_or_ge content.length 4 with hshort | hlong
  · rcases (readsRecord_head room).short data hshort with ⟨e, rest, herror⟩
    exact ⟨e, rest, ByteReader.bind_of_error herror⟩
  · rw [readHeader, ByteReader.bind_of_ok ((readsRecord_head room).enough data hlong)]
    by_cases hmagic : content.take 4 = magic
    · simp only [id, hmagic, ne_eq, not_true_eq_false, if_false]
      apply (readsRecord_readCounts room).short
      rw [List.length_drop]
      by_contra hge
      exact h ⟨by omega, hmagic⟩
    · rw [if_pos (show id (content.take 4) ≠ magic from hmagic)]
      exact ⟨_, _, rfl⟩

/-- The types are `types`, and every transition leads to one of them. -/
def Settled (types : List Localtime) (data : ZoneData) : Prop :=
  data.localtimes = types ∧ ∀ transition ∈ data.transitions, transition.localtimeIdx < types.length

open ByteReader (Keeps stateAfter)

theorem keeps_pushTransition (types : List Localtime) (time : Int) (localIdx : Nat) :
    Keeps (Settled types) (pushTransition time localIdx) := by
  rintro s ⟨htypes, hidx⟩
  rw [pushTransition]
  cases hloc : s.state.localtimes[localIdx]? with
  | none => exact ⟨htypes, hidx⟩
  | some loc =>
      refine ⟨htypes, fun transition hmem => ?_⟩
      rcases List.mem_append.mp hmem with hmem | hmem
      · exact hidx transition hmem
      · rw [List.mem_singleton.mp hmem, ← htypes]
        exact (List.getElem?_eq_some_iff.mp hloc).1

theorem keeps_pushTransitions (types : List Localtime) (l : List (Int × Nat)) :
    Keeps (Settled types) (pushTransitions l) := by
  induction l with
  | nil => exact ByteReader.keeps_pure _ ()
  | cons round l ih => exact (keeps_pushTransition types round.1 round.2).bind fun _ => ih

theorem keeps_readBytes_file (P : ZoneData → Prop) (n : Int) :
    Keeps P (File.readBytes room n) := by
  rw [File.readBytes]
  split
  · exact fun _ hs => hs
  · exact ByteReader.keeps_readBytes P _ _

theorem foldl_pushLocaltime (l : List (List UInt8)) (data : ZoneData) :
    l.foldl (fun data bytes => pushLocaltime (localtimeOf bytes) data) data =
      { data with localtimes := data.localtimes ++ l.map localtimeOf } := by
  induction l generalizing data with
  | nil => simp
  | cons bytes l ih =>
      rw [List.foldl_cons, ih, pushLocaltime, List.append_assoc, List.map_cons]
      rfl

/-- The types of local time that are there as whole records, up to the number in the header. -/
def typesIn (header : ZoneHeader) (input : List UInt8) : List Localtime :=
  let timecnt := header.timecnt.toNat
  if 5 * timecnt ≤ input.length then
    (ByteReader.records 6 (min header.typecnt.toNat ((input.length - 5 * timecnt) / 6))
      (input.drop (5 * timecnt))).map localtimeOf
  else []

theorem settled_readBody (header : ZoneHeader) (input : List UInt8) :
    Settled (typesIn header input) (stateAfter (readBody room header ⟨input, ⟨[], [], []⟩⟩)) := by
  have htimes := ByteReader.readsRecord_readMany readsRecord_readInt32 header.timecnt.toNat
  have hindices := ByteReader.readsRecord_readMany readsRecord_readUInt8 header.timecnt.toNat
  have hempty : Settled [] ⟨[], [], []⟩ := ⟨rfl, fun _ hmem => absurd hmem List.not_mem_nil⟩
  rcases Nat.lt_or_ge input.length (4 * header.timecnt.toNat) with hshort | hlong
  · rcases htimes.short ⟨[], [], []⟩ hshort with ⟨e, rest, herror⟩
    rw [readBody, ByteReader.bind_of_error herror, typesIn, if_neg (by omega)]
    exact hempty
  · rw [readBody, ByteReader.bind_of_ok (htimes.enough ⟨[], [], []⟩ hlong)]
    rcases Nat.lt_or_ge (input.drop (4 * header.timecnt.toNat)).length (1 * header.timecnt.toNat)
      with hshort | hlong'
    · rcases hindices.short ⟨[], [], []⟩ hshort with ⟨e, rest, herror⟩
      rw [List.length_drop] at hshort
      rw [id, ByteReader.bind_of_error herror, typesIn, if_neg (by omega)]
      exact hempty
    · rw [id, ByteReader.bind_of_ok (hindices.enough ⟨[], [], []⟩ hlong')]
      rw [List.length_drop] at hlong'
      apply ByteReader.stateAfter_bind
      · rw [readsRecord_readLocaltime.stateAfter_readMany (by decide), foldl_pushLocaltime, typesIn,
          if_pos (by omega), List.drop_drop, List.length_drop, ← Nat.add_mul]
        exact ⟨rfl, fun _ hmem => absurd hmem List.not_mem_nil⟩
      · intro _
        refine (keeps_pushTransitions _ _).bind fun _ =>
          (keeps_readBytes_file room _ _).bind fun _ => ?_
        exact ByteReader.keeps_update fun _ hsettled => hsettled

/-- A whole type of local time is in the file. -/
def HoldsType (content : List UInt8) : Prop :=
  content.take 4 = magic ∧ 0 ≤ int32At content 32 ∧ 0 < int32At content 36 ∧
    44 + 5 * (int32At content 32).toNat + 6 ≤ content.length

instance (content : List UInt8) : Decidable (HoldsType content) :=
  inferInstanceAs (Decidable (_ ∧ _ ∧ _ ∧ _))

theorem typesIn_ne_nil_iff {content : List UInt8} (h : HasHeader content)
    (htimecnt : 0 ≤ (headerOf content).timecnt) :
    typesIn (headerOf content) (content.drop 44) ≠ [] ↔ HoldsType content := by
  have hlength := h.1
  have htimes : (headerOf content).timecnt = int32At content 32 := rfl
  have htypes : (headerOf content).typecnt = int32At content 36 := rfl
  simp only [HoldsType, typesIn, List.length_drop, htimes, htypes] at htimecnt ⊢
  split
  · rename_i hle
    rw [← List.length_pos_iff, List.length_map, ByteReader.length_records, Nat.lt_min]
    constructor
    · rintro ⟨hcount, hrecords⟩
      exact ⟨h.2, htimecnt, by omega, by omega⟩
    · rintro ⟨_, _, hcount, hrecords⟩
      constructor <;> omega
  · rename_i hlt
    refine iff_of_false (fun hne => hne rfl) fun hholds => hlt ?_
    have hlong := hholds.2.2.2
    omega

theorem settled_readZone (content : List UInt8) :
    ∃ types, Settled types (stateAfter (readZone room ⟨content, ⟨[], [], []⟩⟩)) ∧
      (types ≠ [] ↔ HoldsType content) := by
  have hempty : Settled [] ⟨[], [], []⟩ := ⟨rfl, fun _ hmem => absurd hmem List.not_mem_nil⟩
  by_cases hheader : HasHeader content
  · rw [readZone, ByteReader.bind_of_ok (readHeader_ok room hheader _)]
    by_cases htimecnt : (headerOf content).timecnt < 0
    · rw [if_pos htimecnt]
      refine ⟨[], hempty, iff_of_false (fun h => h rfl) fun hholds => ?_⟩
      exact absurd hholds.2.1 (Int.not_le.mpr htimecnt)
    · rw [if_neg htimecnt]
      exact ⟨_, settled_readBody room (headerOf content) (content.drop 44),
        typesIn_ne_nil_iff hheader (Int.not_lt.mp htimecnt)⟩
  · rcases readHeader_error room hheader ⟨[], [], []⟩ with ⟨e, rest, herror⟩
    rw [readZone, ByteReader.bind_of_error herror]
    refine ⟨[], hempty, iff_of_false (fun h => h rfl) fun hholds => hheader ⟨?_, hholds.1⟩⟩
    have hlength := hholds.2.2.2
    omega

theorem Settled.indexed {types : List Localtime} {data : ZoneData} (h : Settled types data)
    (hne : types ≠ []) : data.Indexed where
  nonempty := h.1.symm ▸ hne
  idx_lt := h.1.symm ▸ h.2

/-- Without a type there is no transition, and the first element of an empty vector is asked for. -/
theorem Settled.not_ok_findLocaltime {data : ZoneData} (h : Settled [] data) (sentry : Transition)
    (compareGmt : Bool) : (findLocaltime data sentry compareGmt).ok = false := by
  have htransitions : data.transitions = [] :=
    List.eq_nil_iff_forall_not_mem.mpr fun transition hmem =>
      absurd (h.2 transition hmem) (Nat.not_lt_zero _)
  rw [findLocaltime]
  simp only []
  rw [if_pos (Or.inl (List.isEmpty_iff.mpr htransitions)), h.1]
  rfl

theorem settled_readTimeZoneFile (zonefile : Option (List UInt8)) :
    (readTimeZoneFile room zonefile ⟨[], [], []⟩).val.1 = true ∧
      ∃ types, Settled types (readTimeZoneFile room zonefile ⟨[], [], []⟩).val.2.1 ∧
        (types ≠ [] ↔ ∃ content, zonefile = some content ∧ HoldsType content) := by
  cases zonefile with
  | none =>
      refine ⟨rfl, [], ⟨rfl, fun _ hmem => absurd hmem List.not_mem_nil⟩, ?_⟩
      refine iff_of_false (fun hne => hne rfl) ?_
      rintro ⟨content, hnone, -⟩
      exact absurd hnone.symm (Option.some_ne_none content)
  | some content =>
      obtain ⟨types, hsettled, htypes⟩ := settled_readZone room content
      have hfile : (∃ content', some content = some content' ∧ HoldsType content') ↔
          HoldsType content := by simp
      rw [readTimeZoneFile, hfile, ← htypes]
      generalize readZone room ⟨content, ⟨[], [], []⟩⟩ = result at hsettled
      cases result with
      | ok _ s => exact ⟨rfl, types, hsettled, Iff.rfl⟩
      | error e s => cases e <;> exact ⟨rfl, types, hsettled, Iff.rfl⟩

/-- What the rounds of the loop push, as long as the indices are within the types. -/
def transitionsOf (types : List Localtime) (l : List (Int × Nat)) : List Transition :=
  l.map fun round =>
    ⟨round.1, round.1 + (types.getD round.2 default).gmtOffset, round.2⟩

theorem pushTransitions_eq {l : List (Int × Nat)} (input : List UInt8) (data : ZoneData)
    (h : ∀ round ∈ l, round.2 < data.localtimes.length) :
    pushTransitions l ⟨input, data⟩ = .ok () ⟨input,
      { data with transitions := data.transitions ++ transitionsOf data.localtimes l }⟩ := by
  induction l generalizing data with
  | nil =>
      rw [transitionsOf, List.map_nil, List.append_nil]
      rfl
  | cons round l ih =>
      have hround := h round List.mem_cons_self
      have hpush : pushTransition round.1 round.2 ⟨input, data⟩ = .ok () ⟨input, { data with
          transitions := data.transitions ++ transitionsOf data.localtimes [round] }⟩ := by
        rw [pushTransition]
        simp only [List.getElem?_eq_getElem hround]
        rw [transitionsOf, List.map_singleton, List.getD_eq_getElem _ _ hround]
      have hrest := ih { data with
          transitions := data.transitions ++ transitionsOf data.localtimes [round] }
        fun round' hmem => h round' (List.mem_cons_of_mem _ hmem)
      rw [pushTransitions, ByteReader.bind_of_ok hpush, hrest, List.append_assoc]
      rfl

theorem pushTransitions_undefined {l : List (Int × Nat)} (input : List UInt8) {data : ZoneData}
    (h : ∃ round ∈ l, data.localtimes.length ≤ round.2) :
    ∃ t, pushTransitions l ⟨input, data⟩ = .error .undefined t := by
  induction l generalizing data with
  | nil =>
      obtain ⟨round, hmem, -⟩ := h
      exact absurd hmem List.not_mem_nil
  | cons round l ih =>
      rw [pushTransitions]
      cases hloc : data.localtimes[round.2]? with
      | none =>
          refine ⟨⟨input, data⟩, ByteReader.bind_of_error ?_⟩
          rw [pushTransition]
          simp only [hloc]
      | some loc =>
          have hpush : pushTransition round.1 round.2 ⟨input, data⟩ = .ok () ⟨input, { data with
              transitions := data.transitions ++
                [⟨round.1, round.1 + loc.gmtOffset, round.2⟩] }⟩ := by
            rw [pushTransition]
            simp only [hloc]
          have hround := (List.getElem?_eq_some_iff.mp hloc).1
          obtain ⟨round', hmem, hle⟩ := h
          rw [ByteReader.bind_of_ok hpush]
          rcases List.mem_cons.mp hmem with rfl | hmem
          · exact absurd hround (Nat.not_lt.mpr hle)
          · exact ih ⟨round', hmem, hle⟩

/-- The rounds of the loop that fills `data->transitions`, from the part after the header. -/
def roundsIn (timecnt : Nat) (input : List UInt8) : List (Int × Nat) :=
  ((ByteReader.records 4 timecnt (input.take (4 * timecnt))).map
      fun bytes => (be32toh bytes).toInt).zip
    ((ByteReader.records 1 timecnt ((input.drop (4 * timecnt)).take (1 * timecnt))).map beDecode)

/-- What is left to do once the types are read. -/
def finishBody (header : ZoneHeader) (rounds : List (Int × Nat)) : ZoneReader Unit := do
  pushTransitions rounds
  let abbreviation ← File.readBytes room header.charcnt
  ByteReader.update fun data =>
    { data with abbreviation := abbreviation.map fun byte => Char.ofNat byte.toNat }

theorem readBody_eq (header : ZoneHeader) {input : List UInt8}
    (h : 5 * header.timecnt.toNat + 6 * header.typecnt.toNat ≤ input.length) :
    readBody room header ⟨input, ⟨[], [], []⟩⟩ =
      finishBody room header (roundsIn header.timecnt.toNat input)
        ⟨input.drop (5 * header.timecnt.toNat + 6 * header.typecnt.toNat),
          ⟨[], typesIn header input, []⟩⟩ := by
  have htimes := (ByteReader.readsRecord_readMany readsRecord_readInt32 header.timecnt.toNat).enough
    ⟨[], [], []⟩ (show _ ≤ input.length by omega)
  have hindices := (ByteReader.readsRecord_readMany readsRecord_readUInt8
    header.timecnt.toNat).enough ⟨[], [], []⟩
    (show _ ≤ (input.drop (4 * header.timecnt.toNat)).length by
      rw [List.length_drop]
      omega)
  have htypes := readsRecord_readLocaltime.readMany_enough (n := header.typecnt.toNat)
    ⟨[], [], []⟩ (show _ ≤ (input.drop (5 * header.timecnt.toNat)).length by
      rw [List.length_drop]
      omega)
  have hcount : header.typecnt.toNat ≤ (input.length - 5 * header.timecnt.toNat) / 6 := by omega
  rw [readBody, ByteReader.bind_of_ok htimes, id, ByteReader.bind_of_ok hindices, id,
    List.drop_drop, ← Nat.add_mul, ByteReader.bind_of_ok htypes, foldl_pushLocaltime,
    List.drop_drop, typesIn, if_pos (by omega), Nat.min_eq_left hcount]
  rfl

/-- The types and the abbreviations' length of a file are there, but the program's behaviour is
undefined: a transition leads to no type, or no array can be made of that length. -/
def Misread (content : List UInt8) : Prop :=
  HasHeader content ∧ 0 ≤ int32At content 32 ∧
    44 + 5 * (int32At content 32).toNat + 6 * (int32At content 36).toNat ≤ content.length ∧
    ((∃ byte ∈ (content.drop (44 + 4 * (int32At content 32).toNat)).take
        (int32At content 32).toNat, (int32At content 36).toNat ≤ byte.toNat) ∨
      ¬ room.Fits (int32At content 40))

theorem records_one {n : Nat} {input : List UInt8} (h : n ≤ input.length) :
    (ByteReader.records 1 n input).map beDecode = (input.take n).map UInt8.toNat := by
  induction n generalizing input with
  | zero => rfl
  | succ n ih =>
      cases input with
      | nil => exact absurd h (Nat.not_succ_le_zero n)
      | cons byte input =>
          have hrest := ih (Nat.le_of_succ_le_succ h)
          rw [ByteReader.records, List.map_cons]
          change _ :: List.map beDecode (ByteReader.records 1 n input) = _
          rw [hrest]
          simp [beDecode]

theorem map_snd_roundsIn {n : Nat} {input : List UInt8} (h : 5 * n ≤ input.length) :
    (roundsIn n input).map Prod.snd = ((input.drop (4 * n)).take n).map UInt8.toNat := by
  have hlength : n ≤ ((input.drop (4 * n)).take (1 * n)).length := by
    rw [List.length_take, List.length_drop]
    omega
  rw [roundsIn, List.map_snd_zip, records_one hlength, List.take_take, Nat.one_mul, Nat.min_self]
  rw [List.length_map, List.length_map, ByteReader.length_records, ByteReader.length_records]

theorem length_typesIn {header : ZoneHeader} {input : List UInt8}
    (h : 5 * header.timecnt.toNat + 6 * header.typecnt.toNat ≤ input.length) :
    (typesIn header input).length = header.typecnt.toNat := by
  have hcount : header.typecnt.toNat ≤ (input.length - 5 * header.timecnt.toNat) / 6 := by omega
  rw [typesIn, if_pos (by omega), List.length_map, ByteReader.length_records,
    Nat.min_eq_left hcount]

def IsLogicError (e : ReadError) : Prop := e ≠ .undefined

theorem isLogicError (what : String) : IsLogicError (.logicError what) := ReadError.noConfusion

open ByteReader (FailsOnly)

theorem failsOnly_readInt32 : FailsOnly IsLogicError File.readInt32 :=
  (ByteReader.failsOnly_readBytes (isLogicError _) 4).bind fun _ =>
    ByteReader.failsOnly_pure _ _

theorem failsOnly_readUInt8 : FailsOnly IsLogicError File.readUInt8 :=
  (ByteReader.failsOnly_readBytes (isLogicError _) 1).bind fun _ =>
    ByteReader.failsOnly_pure _ _

theorem failsOnly_readBytes_file {n : Int} (h : room.Fits n) :
    FailsOnly IsLogicError (File.readBytes room n) := by
  rw [readBytes_file_eq h]
  exact ByteReader.failsOnly_readBytes (isLogicError _) n.toNat

theorem failsOnly_readLocaltime : FailsOnly IsLogicError readLocaltime :=
  failsOnly_readInt32.bind fun _ => failsOnly_readUInt8.bind fun _ => failsOnly_readUInt8.bind
    fun _ => ByteReader.failsOnly_update _ _

theorem failsOnly_readHeader : FailsOnly IsLogicError (readHeader room) := by
  refine (failsOnly_readBytes_file room (room.fits_of_le (n := 4) (by decide))).bind fun head => ?_
  split
  · exact ByteReader.failsOnly_throw (isLogicError _)
  · exact (failsOnly_readBytes_file room (room.fits_of_le (n := 1) (by decide))).bind fun _ =>
      (failsOnly_readBytes_file room (room.fits_of_le (n := 15) (by decide))).bind fun _ =>
      failsOnly_readInt32.bind fun _ => failsOnly_readInt32.bind fun _ =>
      failsOnly_readInt32.bind fun _ => failsOnly_readInt32.bind fun _ =>
      failsOnly_readInt32.bind fun _ => failsOnly_readInt32.bind fun _ =>
      ByteReader.failsOnly_pure _ _

/-- The behaviour of the program is undefined. -/
def IsUndefined {α : Type} (result : EStateM.Result ReadError (ReaderState ZoneData) α) : Prop :=
  ∃ t, result = .error .undefined t

theorem ByteReader.FailsOnly.not_isUndefined {α : Type} {p : ZoneReader α}
    (h : FailsOnly IsLogicError p) (s : ReaderState ZoneData) : ¬ IsUndefined (p s) := by
  rintro ⟨t, herror⟩
  exact h _ _ _ herror rfl

theorem isUndefined_finishBody_iff (header : ZoneHeader) (rounds : List (Int × Nat))
    (input : List UInt8) (data : ZoneData) :
    IsUndefined (finishBody room header rounds ⟨input, data⟩) ↔
      (∃ round ∈ rounds, data.localtimes.length ≤ round.2) ∨ ¬ room.Fits header.charcnt := by
  rw [finishBody]
  by_cases hround : ∃ round ∈ rounds, data.localtimes.length ≤ round.2
  · obtain ⟨t, hundefined⟩ := pushTransitions_undefined input hround
    exact iff_of_true ⟨t, ByteReader.bind_of_error hundefined⟩ (Or.inl hround)
  · have hpush := pushTransitions_eq (l := rounds) input data
      fun round hmem => Nat.not_le.mp fun hle => hround ⟨round, hmem, hle⟩
    rw [ByteReader.bind_of_ok hpush]
    by_cases hcharcnt : room.Fits header.charcnt
    · refine iff_of_false ?_ fun h => h.elim hround (not_not_intro hcharcnt)
      apply ByteReader.FailsOnly.not_isUndefined
      exact (failsOnly_readBytes_file room hcharcnt).bind fun _ => ByteReader.failsOnly_update _ _
    · have hread : ∀ s, File.readBytes room header.charcnt s = .error .undefined s := by
        intro s
        have hfails : header.charcnt < 0 ∨ (room.bytes : Int) < header.charcnt := by
          rw [StackRoom.Fits, not_and_or, Int.not_le, Int.not_le] at hcharcnt
          exact hcharcnt
        rw [File.readBytes, if_pos hfails]
        rfl
      exact iff_of_true ⟨_, ByteReader.bind_of_error (hread _)⟩ (Or.inr hcharcnt)

theorem not_isUndefined_readBody (header : ZoneHeader) {input : List UInt8}
    (h : input.length < 5 * header.timecnt.toNat + 6 * header.typecnt.toNat) :
    ¬ IsUndefined (readBody room header ⟨input, ⟨[], [], []⟩⟩) := by
  have htimes := ByteReader.readsRecord_readMany readsRecord_readInt32 header.timecnt.toNat
  have hindices := ByteReader.readsRecord_readMany readsRecord_readUInt8 header.timecnt.toNat
  have hstop : ∀ {α β : Type} {p : ZoneReader α} {q : α → ZoneReader β} {s : ReaderState ZoneData},
      FailsOnly IsLogicError p → (∃ e t, p s = .error e t) → ¬ IsUndefined ((p >>= q) s) := by
    rintro α β p q s hp ⟨e, t, herror⟩ ⟨t', hundefined⟩
    rw [ByteReader.bind_of_error herror] at hundefined
    cases hundefined
    exact hp _ _ _ herror rfl
  rw [readBody]
  rcases Nat.lt_or_ge input.length (4 * header.timecnt.toNat) with hshort | hlong
  · obtain ⟨e, rest, herror⟩ := htimes.short ⟨[], [], []⟩ hshort
    exact hstop (failsOnly_readInt32.readMany _) ⟨e, _, herror⟩
  · rw [ByteReader.bind_of_ok (htimes.enough ⟨[], [], []⟩ hlong), id]
    rcases Nat.lt_or_ge (input.drop (4 * header.timecnt.toNat)).length (1 * header.timecnt.toNat)
      with hshort | hlong'
    · obtain ⟨e, rest, herror⟩ := hindices.short ⟨[], [], []⟩ hshort
      exact hstop (failsOnly_readUInt8.readMany _) ⟨e, _, herror⟩
    · rw [ByteReader.bind_of_ok (hindices.enough ⟨[], [], []⟩ hlong'), id, List.drop_drop,
        ← Nat.add_mul]
      rw [List.length_drop] at hlong'
      obtain ⟨e, rest, herror⟩ := readsRecord_readLocaltime.readMany_short
        (n := header.typecnt.toNat) ⟨[], [], []⟩
        (show (input.drop (5 * header.timecnt.toNat)).length < _ by
          rw [List.length_drop]
          omega)
      exact hstop (failsOnly_readLocaltime.readMany _) ⟨e, _, herror⟩

theorem isUndefined_readZone_iff (content : List UInt8) :
    IsUndefined (readZone room ⟨content, ⟨[], [], []⟩⟩) ↔ Misread room content := by
  by_cases hheader : HasHeader content
  · have hlength := hheader.1
    have htimes : (headerOf content).timecnt = int32At content 32 := rfl
    have htypes : (headerOf content).typecnt = int32At content 36 := rfl
    rw [readZone, ByteReader.bind_of_ok (readHeader_ok room hheader _)]
    by_cases htimecnt : (headerOf content).timecnt < 0
    · rw [if_pos htimecnt]
      refine iff_of_false ?_ fun hmisread => absurd hmisread.2.1 (Int.not_le.mpr htimecnt)
      exact ByteReader.FailsOnly.not_isUndefined (ByteReader.failsOnly_throw (isLogicError _)) _
    · rw [if_neg htimecnt]
      rcases Nat.lt_or_ge (content.drop 44).length (5 * (headerOf content).timecnt.toNat +
        6 * (headerOf content).typecnt.toNat) with hshort | hlong
      · refine iff_of_false (not_isUndefined_readBody room _ hshort) fun hmisread => ?_
        have hlong := hmisread.2.2.1
        rw [List.length_drop, htimes, htypes] at hshort
        omega
      · rw [readBody_eq room _ hlong, isUndefined_finishBody_iff, length_typesIn hlong]
        rw [List.length_drop] at hlong
        have hrounds := map_snd_roundsIn (n := (headerOf content).timecnt.toNat)
          (show _ ≤ (content.drop 44).length by
            rw [List.length_drop]
            omega)
        rw [List.drop_drop] at hrounds
        have hexists : (∃ round ∈ roundsIn (headerOf content).timecnt.toNat (content.drop 44),
            (headerOf content).typecnt.toNat ≤ round.2) ↔
            ∃ byte ∈ (content.drop (44 + 4 * (headerOf content).timecnt.toNat)).take
              (headerOf content).timecnt.toNat, (headerOf content).typecnt.toNat ≤ byte.toNat := by
          have hmem := congrArg (fun l => ∃ idx ∈ l, (headerOf content).typecnt.toNat ≤ idx) hrounds
          simpa only [List.mem_map, exists_exists_and_eq_and, eq_iff_iff] using hmem
        have hsize : 44 + 5 * (headerOf content).timecnt.toNat +
            6 * (headerOf content).typecnt.toNat ≤ content.length := by
          omega
        rw [hexists]
        exact ⟨fun hundefined => ⟨hheader, Int.not_lt.mp htimecnt, hsize, hundefined⟩,
          fun hmisread => hmisread.2.2.2⟩
  · obtain ⟨e, rest, herror⟩ := readHeader_error room hheader ⟨[], [], []⟩
    refine iff_of_false ?_ fun hmisread => hheader hmisread.1
    rw [readZone, ByteReader.bind_of_error herror]
    rintro ⟨t, hundefined⟩
    cases hundefined
    exact failsOnly_readHeader room _ _ _ herror rfl

theorem ok_readTimeZoneFile_iff (content : List UInt8) (data : ZoneData) :
    (readTimeZoneFile room (some content) data).ok = true ↔
      ¬ IsUndefined (readZone room ⟨content, data⟩) := by
  rw [readTimeZoneFile]
  generalize readZone room ⟨content, data⟩ = result
  cases result with
  | ok _ s =>
      refine iff_of_true rfl ?_
      rintro ⟨t, ht⟩
      cases ht
  | error e s =>
      cases e with
      | logicError what =>
          refine iff_of_true rfl ?_
          rintro ⟨t, ht⟩
          cases ht
      | undefined => exact iff_of_false Bool.false_ne_true fun h => h ⟨s, rfl⟩

namespace TimeZone

/-- A zone made from a file is always valid, and `findLocaltime` gives an answer if and only if the
file holds a type of local time; it is the type at the instant if the transitions are in order. -/
theorem findLocaltime_ofFile (zonefile : Option (List UInt8)) :
    ∃ data, (ofFile room zonefile).val = some data ∧
      ((ofFile room zonefile).ok = true → ∀ sentry compareGmt,
        ((findLocaltime data sentry compareGmt).ok = true ↔
          ∃ content, zonefile = some content ∧ HoldsType content) ∧
        ((findLocaltime data sentry compareGmt).ok = true →
          (data.transitions.Pairwise fun a b => compKey compareGmt a < compKey compareGmt b) →
          (findLocaltime data sentry compareGmt).val =
            data.typeAt compareGmt (compKey compareGmt sentry))) := by
  obtain ⟨hvalid, types, hsettled, htypes⟩ := settled_readTimeZoneFile room zonefile
  refine ⟨(readTimeZoneFile room zonefile ⟨[], [], []⟩).val.2.1, if_pos hvalid, ?_⟩
  intro _ sentry compareGmt
  rw [← htypes]
  by_cases hne : types = []
  · rw [hne] at hsettled
    rw [hsettled.not_ok_findLocaltime]
    exact ⟨iff_of_false Bool.false_ne_true fun h => h hne, fun hok => absurd hok Bool.false_ne_true⟩
  · have hfind := findLocaltime_eq_typeAt (hsettled.indexed hne) sentry compareGmt
    exact ⟨iff_of_true hfind.1 hne, fun _ => hfind.2⟩

/-- A file with two types and a transition to the second one, an hour after the epoch. -/
def smallFile (charcnt : List UInt8) : List UInt8 :=
  magic ++ List.replicate 28 0 ++ [0, 0, 0, 1] ++ [0, 0, 0, 2] ++ charcnt ++
    [0, 0, 14, 16] ++ [1] ++ [0, 0, 0, 0, 0, 0] ++ [0, 0, 14, 16, 1, 0]

/-- A stack of 8 MiB. -/
def eightMiB : StackRoom := ⟨8388608, by decide⟩

theorem findLocaltime_ofFile_smallFile :
    ∃ data, (ofFile eightMiB (some (smallFile [0, 0, 0, 0]))).val = some data ∧
      (findLocaltime data ⟨7200, 0, 0⟩ true).ok = true ∧
      (findLocaltime data ⟨7200, 0, 0⟩ true).val = data.typeAt true 7200 := by
  obtain ⟨data, hdata, hfind⟩ := findLocaltime_ofFile eightMiB (some (smallFile [0, 0, 0, 0]))
  have hread : (ofFile eightMiB (some (smallFile [0, 0, 0, 0]))).val =
      some ⟨[⟨3600, 7200, 1⟩], [⟨0, false, 0⟩, ⟨3600, true, 0⟩], []⟩ := by
    decide +kernel
  obtain rfl := Option.some.inj (hread.symm.trans hdata)
  obtain ⟨hanswers, htype⟩ := hfind (by decide +kernel) ⟨7200, 0, 0⟩ true
  have hok := hanswers.mpr ⟨_, rfl, by decide⟩
  exact ⟨_, hdata, hok, htype hok (List.pairwise_singleton _ _)⟩

/-- Loading a zone goes wrong, other than by an exception, in the ways of `Misread` only. -/
theorem ofFile_ok_iff (zonefile : Option (List UInt8)) :
    (ofFile room zonefile).ok = true ↔
      ∀ content, zonefile = some content → ¬ Misread room content := by
  rw [ofFile, Checked.ok_bind, Checked.ok_pure, Bool.and_true]
  cases zonefile with
  | none => exact iff_of_true rfl fun content hnone => absurd hnone.symm (Option.some_ne_none _)
  | some content =>
      rw [ok_readTimeZoneFile_iff, isUndefined_readZone_iff]
      constructor
      · rintro hmisread _ ⟨⟩
        exact hmisread
      · exact fun h => h content rfl

example : (ofFile eightMiB (some (smallFile [0, 144, 0, 0]))).ok = false := by
  decide +kernel

end TimeZone

end LearnMuduo
