import LearnMuduo.Base.UtcTime
import LearnMuduo.Framework.StepFunction

/-!
# Time zones

A zone has a list of transitions, in the order of their times, and a list of the types of local time
that they lead to. What holds at an instant is looked up by its UTC time, and what a local time
means by the local times of the transitions. In the hour that comes twice when daylight saving time
ends `fromLocalTime` goes by `tm_isdst`.
-/

namespace LearnMuduo

open Framework

structure Transition where
  gmttime : Int
  localtime : Int
  localtimeIdx : Nat
  deriving DecidableEq, Repr, Inhabited

structure Localtime where
  gmtOffset : Int
  isDst : Bool
  arrbIdx : Nat
  deriving DecidableEq, Repr, Inhabited

/-- `TimeZone::Data` -/
structure ZoneData where
  transitions : List Transition
  localtimes : List Localtime
  abbreviation : List Char
  deriving DecidableEq, Repr

/-- `Comp`, by its `compareGmt` -/
def compKey (compareGmt : Bool) (transition : Transition) : Int :=
  if compareGmt then transition.gmttime else transition.localtime

/-- `v[i]` of a vector; no index leaves it. -/
def elementAt {α : Type} [Inhabited α] (v : List α) (i : Nat) : Checked α := do
  Checked.assert (i < v.length)
  pure (v.getD i default)

def findLocaltime (data : ZoneData) (sentry : Transition) (compareGmt : Bool) :
    Checked Localtime := do
  let key := compKey compareGmt
  if data.transitions.isEmpty ∨ key sentry < key (data.transitions.headD default) then
    elementAt data.localtimes 0
  else
    let transI := lowerBound (fun i => key (data.transitions.getD i default) < key sentry)
      data.transitions.length
    if transI ≠ data.transitions.length then
      let transition ← elementAt data.transitions transI
      let transition ← if key sentry ≠ key transition then do
          Checked.assert (transI ≠ 0)
          elementAt data.transitions (transI - 1)
        else pure transition
      elementAt data.localtimes transition.localtimeIdx
    else
      elementAt data.localtimes (data.transitions.getLastD default).localtimeIdx

/-- `gmtime_r` with all of its fields -/
def gmtime_r (t : Int) : BrokenDownTime :=
  { gmtime t with
    wday := (dateOf t).dayNumber % 7
    yday := (dateOf t).dayNumber - (firstOfYear (dateOf t).year).dayNumber
    isdst := 0
    gmtoff := 0
    zone := "GMT".toList }

namespace TimeZone

/-- The text at `&abbreviation[i]`, which ends with a NUL after the string at the latest. -/
def abbreviationAt (abbreviation : List Char) (i : Nat) : Checked (List Char) := do
  Checked.assert (i ≤ abbreviation.length)
  pure ((abbreviation.drop i).takeWhile (· ≠ '\x00'))

def toLocalTime (data : ZoneData) (seconds : Int) : Checked BrokenDownTime := do
  let sentry : Transition := ⟨seconds, 0, 0⟩
  let loc ← findLocaltime data sentry true
  let localSeconds ← long (seconds + loc.gmtOffset)
  let zone ← abbreviationAt data.abbreviation loc.arrbIdx
  pure { gmtime_r localSeconds with
    isdst := if loc.isDst then 1 else 0
    gmtoff := loc.gmtOffset
    zone := zone }

def fromLocalTime (data : ZoneData) (localTm : BrokenDownTime) : Checked Int := do
  let seconds := timegm localTm.toTm
  let sentry : Transition := ⟨0, seconds, 0⟩
  let loc ← findLocaltime data sentry false
  let seconds ← if localTm.isdst ≠ 0 then do
      let tryTm ← toLocalTime data (← long (seconds - loc.gmtOffset))
      if tryTm.isdst = 0 ∧ tryTm.hour = localTm.hour ∧ tryTm.min = localTm.min then
        long (seconds - 3600)
      else pure seconds
    else pure seconds
  long (seconds - loc.gmtOffset)

end TimeZone

namespace ZoneData

/-- There is a type of local time, and every transition leads to one. -/
structure Indexed (data : ZoneData) : Prop where
  nonempty : data.localtimes ≠ []
  idx_lt : ∀ transition ∈ data.transitions, transition.localtimeIdx < data.localtimes.length

/-- The type ahead of all transitions. -/
def firstType (data : ZoneData) : Localtime := data.localtimes.getD 0 default

def typeOf (data : ZoneData) (transition : Transition) : Localtime :=
  data.localtimes.getD transition.localtimeIdx default

/-- The type of local time that holds at `x`, as the transitions are in the order of their UTC or of
their local times. -/
def typeAt (data : ZoneData) (compareGmt : Bool) (x : Int) : Localtime :=
  stepAt (compKey compareGmt) data.typeOf data.firstType data.transitions x

end ZoneData

theorem elementAt_eq {α : Type} [Inhabited α] {v : List α} {i : Nat} (h : i < v.length) :
    elementAt v i = pure (v.getD i default) := by
  rw [elementAt, Checked.assert_eq_pure (decide_eq_true h), Checked.pure_bind_eq]

variable {data : ZoneData}

theorem ZoneData.Indexed.elementAt_localtimes (h : data.Indexed) {i : Nat}
    (hi : i < data.transitions.length) :
    elementAt data.localtimes (data.transitions.getD i default).localtimeIdx =
      pure (data.typeOf (data.transitions.getD i default)) := by
  have hmem : data.transitions.getD i default ∈ data.transitions := by
    rw [List.getD_eq_getElem _ _ hi]
    exact List.getElem_mem hi
  exact elementAt_eq (h.idx_lt _ hmem)

/-- The transition that `findLocaltime` comes to once the first one is reached: what it has tested
shows that it is reached and the next one is not, unless their keys are out of order. -/
theorem findLocaltime_transition (h : data.Indexed) {sentry : Transition} {compareGmt : Bool}
    (hne : data.transitions ≠ [])
    (hfirst : compKey compareGmt (data.transitions.headD default) ≤ compKey compareGmt sentry) :
    ∃ c < data.transitions.length,
      findLocaltime data sentry compareGmt =
        pure (data.typeOf (data.transitions.getD c default)) ∧
      compKey compareGmt (data.transitions.getD c default) ≤ compKey compareGmt sentry ∧
      (data.transitions.Pairwise
          (fun a b => compKey compareGmt a < compKey compareGmt b) →
        c + 1 < data.transitions.length → compKey compareGmt sentry <
          compKey compareGmt (data.transitions.getD (c + 1) default)) := by
  have hpos : 0 < data.transitions.length := List.length_pos_iff.mpr hne
  have hhead : data.transitions.headD default = data.transitions.getD 0 default := by
    rcases hl : data.transitions with _ | ⟨a, l⟩
    · exact absurd hl hne
    · rfl
  have hskip : ¬ (data.transitions.isEmpty = true ∨
      compKey compareGmt sentry < compKey compareGmt (data.transitions.headD default)) := by
    rw [List.isEmpty_iff]
    exact not_or.mpr ⟨hne, Int.not_lt.mpr hfirst⟩
  rw [findLocaltime]
  simp only []
  rw [if_neg hskip]
  generalize hbelow : (fun i => decide (compKey compareGmt (data.transitions.getD i default) <
    compKey compareGmt sentry)) = below
  have hedge : ∀ i, below i = true ↔
      compKey compareGmt (data.transitions.getD i default) < compKey compareGmt sentry := by
    intro i
    rw [← hbelow, decide_eq_true_iff]
  have hbefore : 0 < lowerBound below data.transitions.length →
      below (lowerBound below data.transitions.length - 1) = true := below_of_lt_lowerBound
  have hafter : lowerBound below data.transitions.length < data.transitions.length →
      below (lowerBound below data.transitions.length) = false := not_below_lowerBound
  have hle := lowerBound_le below data.transitions.length
  generalize lowerBound below data.transitions.length = r at *
  by_cases hr : r = data.transitions.length
  · -- all transitions are reached, and the last one holds
    subst hr
    have hlast : data.transitions.getLastD default =
        data.transitions.getD (data.transitions.length - 1) default := by
      rw [List.getLastD_eq_getLast?, List.getLast?_eq_getElem?, List.getD_eq_getElem?_getD]
    refine ⟨data.transitions.length - 1, by omega, ?_, ?_, fun _ hlt => by omega⟩
    · rw [if_neg (not_not.mpr rfl), hlast, h.elementAt_localtimes (by omega)]
    · exact Int.le_of_lt ((hedge _).mp (hbefore hpos))
  · have hlt : r < data.transitions.length := by omega
    have hnot : compKey compareGmt sentry ≤
        compKey compareGmt (data.transitions.getD r default) := by
      rw [← Int.not_lt, ← hedge, hafter hlt]
      exact Bool.false_ne_true
    rw [if_pos hr, elementAt_eq hlt, Checked.pure_bind_eq]
    by_cases hkey : compKey compareGmt sentry = compKey compareGmt (data.transitions.getD r default)
    · refine ⟨r, hlt, ?_, hkey.ge, fun hsorted hnext => ?_⟩
      · rw [if_neg (not_not.mpr hkey), Checked.pure_bind_eq, h.elementAt_localtimes hlt]
      · rw [hkey, List.getD_eq_getElem _ _ hlt, List.getD_eq_getElem _ _ hnext]
        exact List.pairwise_iff_getElem.mp hsorted _ _ hlt hnext (Nat.lt_succ_self r)
    · -- the transition found is not reached, so it is not the first
      have hr₀ : 0 < r := by
        rcases Nat.eq_zero_or_pos r with hzero | hr₀
        · rw [hhead] at hfirst
          rw [hzero] at hnot hkey
          omega
        · exact hr₀
      have hprev : r - 1 < data.transitions.length := by omega
      refine ⟨r - 1, hprev, ?_, Int.le_of_lt ((hedge _).mp (hbefore hr₀)), fun _ _ => ?_⟩
      · rw [if_pos hkey, Checked.assert_eq_pure (decide_eq_true (Nat.ne_of_gt hr₀)),
          Checked.pure_bind_eq, elementAt_eq hprev, Checked.pure_bind_eq,
          h.elementAt_localtimes hprev]
      · rw [Nat.sub_add_cancel hr₀]
        omega

theorem findLocaltime_eq_typeAt (h : data.Indexed) (sentry : Transition) (compareGmt : Bool) :
    (findLocaltime data sentry compareGmt).ok = true ∧
    (data.transitions.Pairwise (fun a b => compKey compareGmt a < compKey compareGmt b) →
      (findLocaltime data sentry compareGmt).val =
        data.typeAt compareGmt (compKey compareGmt sentry)) := by
  by_cases hreached : data.transitions ≠ [] ∧
      compKey compareGmt (data.transitions.headD default) ≤ compKey compareGmt sentry
  · rcases findLocaltime_transition h hreached.1 hreached.2 with ⟨c, hc, hfind, hle, hnext⟩
    rw [hfind]
    refine ⟨rfl, fun hsorted => ?_⟩
    rw [List.getD_eq_getElem _ _ hc] at hle
    change data.typeOf _ = stepAt _ _ _ _ _
    rw [List.getD_eq_getElem _ _ hc, stepAt_eq hsorted hc hle]
    intro hlt
    rw [← List.getD_eq_getElem _ default hlt]
    exact hnext hsorted hlt
  · have hfirst : findLocaltime data sentry compareGmt = pure data.firstType := by
      have hskip : data.transitions.isEmpty = true ∨
          compKey compareGmt sentry < compKey compareGmt (data.transitions.headD default) := by
        rw [List.isEmpty_iff]
        by_cases hnil : data.transitions = []
        · exact Or.inl hnil
        · exact Or.inr (Int.not_le.mp fun hle => hreached ⟨hnil, hle⟩)
      rw [findLocaltime]
      simp only []
      rw [if_pos hskip, elementAt_eq (List.length_pos_iff.mpr h.nonempty)]
      rfl
    rw [hfirst]
    refine ⟨rfl, fun _ => ?_⟩
    rw [ZoneData.typeAt]
    change data.firstType = _
    rcases hl : data.transitions with _ | ⟨a, l⟩
    · rfl
    · rw [stepAt_cons_of_lt]
      rw [hl] at hreached
      exact Int.not_le.mp fun hle => hreached ⟨List.cons_ne_nil _ _, hle⟩

namespace ZoneData

/-- Changes of the clock as daylight saving time makes them, from the type `before` on: a local time
comes twice only in the one hour after daylight saving time ends, and no two transitions are within
an hour. -/
def Regular (data : ZoneData) : Localtime → List Transition → Prop
  | _, [] => True
  | before, a :: l =>
    a.localtime = a.gmttime + (data.typeOf a).gmtOffset ∧
      (before.gmtOffset ≤ (data.typeOf a).gmtOffset ∨ before.isDst = true ∧
        (data.typeOf a).isDst = false ∧ before.gmtOffset = (data.typeOf a).gmtOffset + 3600) ∧
      (∀ b ∈ l.head?, a.gmttime + 3600 < b.gmttime) ∧ data.Regular (data.typeOf a) l

/-- The type that holds at an instant, and the one that a local time is taken for. -/
def typeAtGmt (data : ZoneData) (before : Localtime) (l : List Transition) (t : Int) : Localtime :=
  stepAt Transition.gmttime data.typeOf before l t

def typeAtLocal (data : ZoneData) (before : Localtime) (l : List Transition) (x : Int) :
    Localtime :=
  stepAt Transition.localtime data.typeOf before l x

variable {before : Localtime} {l : List Transition}

theorem Regular.offset_le {a : Transition} (h : data.Regular before (a :: l)) :
    before.gmtOffset ≤ (data.typeOf a).gmtOffset + 3600 := by
  rcases h.2.1 with hle | ⟨_, _, heq⟩ <;> omega

theorem Regular.local_le (h : data.Regular before l) {g t : Int} (hg : g ≤ t)
    (hgap : ∀ b ∈ l.head?, g + 3600 < b.gmttime) :
    g + before.gmtOffset ≤ t + (data.typeAtGmt before l t).gmtOffset := by
  induction l generalizing before g with
  | nil => exact Int.add_le_add_right hg _
  | cons a l ih =>
      have hoffset := h.offset_le
      have hfirst := hgap a rfl
      rw [typeAtGmt]
      rcases lt_or_ge t a.gmttime with hlt | hge
      · rw [stepAt_cons_of_lt hlt]
        omega
      · have hrest := ih h.2.2.2 hge h.2.2.1
        rw [stepAt_cons_of_le hge]
        rw [typeAtGmt] at hrest
        omega

theorem typeAtGmt_of_gap {g t : Int} (ht : t < g + 3600)
    (hgap : ∀ b ∈ l.head?, g + 3600 < b.gmttime) : data.typeAtGmt before l t = before := by
  cases l with
  | nil => rfl
  | cons b l =>
      have hfirst := hgap b rfl
      exact stepAt_cons_of_lt (by omega)

/-- What the local time of an instant is taken for: the type that holds then, or, in the hour that
comes twice, the standard time that holds an hour later. -/
theorem Regular.typeAtLocal_cases (h : data.Regular before l) (t : Int) :
    let a := data.typeAtGmt before l t
    let b := data.typeAtLocal before l (t + a.gmtOffset)
    b = a ∨ a.isDst = true ∧ b.isDst = false ∧ a.gmtOffset = b.gmtOffset + 3600 ∧
      data.typeAtGmt before l (t + 3600) = b := by
  induction l generalizing before with
  | nil => exact Or.inl rfl
  | cons c l ih =>
      rcases h with ⟨hlocal, hoffset, hgap, hrest⟩
      simp only [typeAtGmt, typeAtLocal] at ih ⊢
      rcases lt_or_ge t c.gmttime with hlt | hge
      · rw [stepAt_cons_of_lt hlt]
        by_cases hx : t + before.gmtOffset < c.localtime
        · exact Or.inl (stepAt_cons_of_lt hx)
        · -- the clock is put back: `c` is the end of daylight saving time
          rcases hoffset with hle | ⟨hdst, hstandard, heq⟩
          · omega
          · have hlater : data.typeAtGmt (data.typeOf c) l (t + 3600) = data.typeOf c :=
              typeAtGmt_of_gap (g := c.gmttime) (by omega) hgap
            have htaken : stepAt Transition.localtime data.typeOf (data.typeOf c) l
                (t + before.gmtOffset) = data.typeOf c := by
              cases l with
              | nil => rfl
              | cons d l =>
                  have hnext := hgap d rfl
                  have hdlocal := hrest.1
                  apply stepAt_cons_of_lt
                  rcases hrest.2.1 with hle | ⟨hdst', _, _⟩
                  · omega
                  · exact absurd hdst' (by rw [hstandard]; decide)
            right
            rw [stepAt_cons_of_le (by omega), htaken, stepAt_cons_of_le (by omega)]
            exact ⟨hdst, hstandard, heq, hlater⟩
      · have hle := hrest.local_le hge hgap
        rw [typeAtGmt] at hle
        rw [stepAt_cons_of_le hge, stepAt_cons_of_le (by omega), stepAt_cons_of_le (by omega)]
        exact ih hrest

theorem Regular.gmttime_lt {a b : Transition} (h : data.Regular before (a :: l))
    (hb : b ∈ l) : a.gmttime < b.gmttime := by
  induction l generalizing before a with
  | nil => exact absurd hb List.not_mem_nil
  | cons c l ih =>
      have hfirst := h.2.2.1 c rfl
      rcases List.mem_cons.mp hb with rfl | hb
      · omega
      · have hrest := ih h.2.2.2 hb
        omega

theorem Regular.localtime_lt {a b : Transition} (h : data.Regular before (a :: l))
    (hb : b ∈ l) : a.localtime < b.localtime := by
  induction l generalizing before a with
  | nil => exact absurd hb List.not_mem_nil
  | cons c l ih =>
      have hfirst := h.2.2.1 c rfl
      have hoffset := h.2.2.2.offset_le
      have halocal := h.1
      have hclocal := h.2.2.2.1
      rcases List.mem_cons.mp hb with rfl | hb
      · omega
      · have hrest := ih h.2.2.2 hb
        omega

theorem Regular.pairwise (h : data.Regular before l) (compareGmt : Bool) :
    l.Pairwise fun a b => compKey compareGmt a < compKey compareGmt b := by
  induction l generalizing before with
  | nil => exact List.Pairwise.nil
  | cons a l ih =>
      refine List.pairwise_cons.mpr ⟨fun b hb => ?_, ih h.2.2.2⟩
      cases compareGmt with
      | true => exact h.gmttime_lt hb
      | false => exact h.localtime_lt hb

/-- A zone as the rules of daylight saving time make it. -/
structure WellFormed (data : ZoneData) : Prop extends Indexed data where
  offset : ∀ loc ∈ data.localtimes, -2147483648 ≤ loc.gmtOffset ∧ loc.gmtOffset ≤ 2147483647
  abbreviated : ∀ loc ∈ data.localtimes, loc.arrbIdx ≤ data.abbreviation.length
  regular : data.Regular data.firstType data.transitions

theorem WellFormed.findLocaltime (h : data.WellFormed) (sentry : Transition) (compareGmt : Bool) :
    findLocaltime data sentry compareGmt =
      pure (data.typeAt compareGmt (compKey compareGmt sentry)) := by
  obtain ⟨hok, hval⟩ := findLocaltime_eq_typeAt h.toIndexed sentry compareGmt
  exact Checked.ext (hval (h.regular.pairwise compareGmt)) hok

/-- The type that holds at an instant. -/
def holdsAt (data : ZoneData) (t : Int) : Localtime :=
  data.typeAtGmt data.firstType data.transitions t

end ZoneData

namespace TimeZone

theorem stepAt_mem_localtimes (h : data.Indexed) (key : Transition → Int) (x : Int) :
    stepAt key data.typeOf data.firstType data.transitions x ∈ data.localtimes := by
  have hmem : ∀ i, i < data.localtimes.length →
      data.localtimes.getD i default ∈ data.localtimes := by
    intro i hi
    rw [List.getD_eq_getElem _ _ hi]
    exact List.getElem_mem hi
  rcases stepAt_cases key data.typeOf data.firstType data.transitions x with
    heq | ⟨a, ha, heq⟩
  · rw [heq]
    exact hmem 0 (List.length_pos_iff.mpr h.nonempty)
  · rw [heq]
    exact hmem _ (h.idx_lt a ha)

theorem long_eq_pure {x : Int} (h : x.natAbs < 2 ^ 63) : long x = pure x :=
  Checked.ext rfl (ok_long.mpr (by omega))

theorem abbreviationAt_eq {abbreviation : List Char} {i : Nat} (h : i ≤ abbreviation.length) :
    abbreviationAt abbreviation i = pure ((abbreviation.drop i).takeWhile (· ≠ '\x00')) := by
  rw [abbreviationAt, Checked.assert_eq_pure (decide_eq_true h), Checked.pure_bind_eq]

/-- The local time of an instant. -/
def localTime (data : ZoneData) (t : Int) : BrokenDownTime :=
  let loc := data.holdsAt t
  { gmtime_r (t + loc.gmtOffset) with
    isdst := if loc.isDst then 1 else 0
    gmtoff := loc.gmtOffset
    zone := (data.abbreviation.drop loc.arrbIdx).takeWhile (· ≠ '\x00') }

theorem toLocalTime_eq (h : data.WellFormed) {t : Int} (ht : t.natAbs < 2 ^ 62) :
    toLocalTime data t = pure (localTime data t) := by
  have hmem : data.holdsAt t ∈ data.localtimes := stepAt_mem_localtimes h.toIndexed _ t
  have hoffset := h.offset _ hmem
  have hfind : findLocaltime data ⟨t, 0, 0⟩ true = pure (data.holdsAt t) :=
    h.findLocaltime ⟨t, 0, 0⟩ true
  rw [toLocalTime]
  simp only []
  rw [hfind, Checked.pure_bind_eq, long_eq_pure (by omega), Checked.pure_bind_eq,
    abbreviationAt_eq (h.abbreviated _ hmem), Checked.pure_bind_eq]
  rfl

/-- The years that `tm_year` holds. -/
def InTmRange (t : Int) : Prop := t.natAbs ≤ 2 ^ 55

instance (t : Int) : Decidable (InTmRange t) := inferInstanceAs (Decidable (_ ≤ _))

/-- `fromLocalTime` undoes `toLocalTime` at every instant, in the hours that come twice as well. -/
theorem fromLocalTime_toLocalTime (h : data.WellFormed) {t : Int} (ht : InTmRange t) :
    (toLocalTime data t >>= fromLocalTime data) = pure t := by
  rw [InTmRange] at ht
  have hmem : data.holdsAt t ∈ data.localtimes := stepAt_mem_localtimes h.toIndexed _ t
  have hoffset := h.offset _ hmem
  have hcases := h.regular.typeAtLocal_cases t
  change data.typeAtLocal data.firstType data.transitions (t + (data.holdsAt t).gmtOffset) =
    data.holdsAt t ∨ _ at hcases
  have hfind : findLocaltime data ⟨0, t + (data.holdsAt t).gmtOffset, 0⟩ false =
      pure (data.typeAtLocal data.firstType data.transitions (t + (data.holdsAt t).gmtOffset)) :=
    h.findLocaltime _ false
  have hseconds : timegm (localTime data t).toTm = t + (data.holdsAt t).gmtOffset :=
    timegm_gmtime _
  rw [toLocalTime_eq h (by omega), Checked.pure_bind_eq, fromLocalTime]
  simp only []
  rw [hseconds, hfind, Checked.pure_bind_eq]
  rcases hcases with hsame | ⟨hdst, hstandard, hback, hlater⟩
  · -- the type found is the one that holds; the instant tried is the one asked about
    rw [hsame, Int.add_sub_cancel, long_eq_pure (by omega)]
    cases hdst : (data.holdsAt t).isDst with
    | false =>
        have hzero : (localTime data t).isdst = 0 := by rw [localTime, hdst]; rfl
        rw [hzero, if_neg (not_not.mpr rfl), Checked.pure_bind_eq, Int.add_sub_cancel,
          long_eq_pure (by omega)]
    | true =>
        have hone : (localTime data t).isdst = 1 := by rw [localTime, hdst]; rfl
        rw [hone, if_pos (by decide), Checked.pure_bind_eq, toLocalTime_eq h (by omega),
          Checked.pure_bind_eq, hone, if_neg (fun hand => absurd hand.1 (by decide)),
          Checked.pure_bind_eq, Int.add_sub_cancel, long_eq_pure (by omega)]
  · -- the hour comes a second time: the instant tried is an hour later, in standard time
    change (data.holdsAt t).isDst = true at hdst
    change (data.typeAtLocal data.firstType data.transitions
      (t + (data.holdsAt t).gmtOffset)).isDst = false at hstandard
    change (data.holdsAt t).gmtOffset = (data.typeAtLocal data.firstType data.transitions
      (t + (data.holdsAt t).gmtOffset)).gmtOffset + 3600 at hback
    change data.holdsAt (t + 3600) = data.typeAtLocal data.firstType data.transitions
      (t + (data.holdsAt t).gmtOffset) at hlater
    rw [← hlater] at hstandard hback ⊢
    have hmem' : data.holdsAt (t + 3600) ∈ data.localtimes :=
      stepAt_mem_localtimes h.toIndexed _ (t + 3600)
    have hoffset' := h.offset _ hmem'
    have hone : (localTime data t).isdst = 1 := by
      change (if (data.holdsAt t).isDst then 1 else 0) = (1 : Int)
      rw [hdst]
      rfl
    have hzero : (localTime data (t + 3600)).isdst = 0 := by
      change (if (data.holdsAt (t + 3600)).isDst then 1 else 0) = (0 : Int)
      rw [hstandard]
      rfl
    have hclock : (localTime data (t + 3600)).toTm = (localTime data t).toTm := by
      change gmtime (t + 3600 + (data.holdsAt (t + 3600)).gmtOffset) =
        gmtime (t + (data.holdsAt t).gmtOffset)
      congr 1
      omega
    have htried : t + (data.holdsAt t).gmtOffset - (data.holdsAt (t + 3600)).gmtOffset =
        t + 3600 := by
      omega
    rw [hone, if_pos (by decide), htried, long_eq_pure (by omega), Checked.pure_bind_eq,
      toLocalTime_eq h (by omega), Checked.pure_bind_eq, hclock, hzero,
      if_pos ⟨rfl, rfl, rfl⟩, long_eq_pure (by omega), Checked.pure_bind_eq]
    have hresult : t + (data.holdsAt t).gmtOffset - 3600 -
        (data.holdsAt (t + 3600)).gmtOffset = t := by
      omega
    rw [hresult, long_eq_pure (by omega)]

/-- Central European Time in 2014. -/
def berlin : ZoneData where
  transitions := [⟨1396141200, 1396148400, 1⟩, ⟨1414285200, 1414288800, 0⟩]
  localtimes := [⟨3600, false, 0⟩, ⟨7200, true, 4⟩]
  abbreviation := "CET\x00CEST\x00".toList

theorem wellFormed_berlin : berlin.WellFormed where
  nonempty := by decide
  idx_lt := by decide
  offset := by decide
  abbreviated := by decide
  regular := by
    refine ⟨rfl, Or.inl (by decide), ?_, rfl, Or.inr (by decide), ?_, trivial⟩
    · rintro b ⟨⟩
      decide
    · rintro b ⟨⟩

/-- Half past two comes twice on 2014-10-26. -/
theorem fromLocalTime_toLocalTime_berlin :
    gmtime (1414283400 + 7200) = gmtime (1414287000 + 3600) ∧
      (toLocalTime berlin 1414283400 >>= fromLocalTime berlin) = pure 1414283400 ∧
      (toLocalTime berlin 1414287000 >>= fromLocalTime berlin) = pure 1414287000 :=
  ⟨rfl, fromLocalTime_toLocalTime wellFormed_berlin (by decide),
    fromLocalTime_toLocalTime wellFormed_berlin (by decide)⟩

end TimeZone

end LearnMuduo
