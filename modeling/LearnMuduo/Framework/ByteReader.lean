import Mathlib.Data.List.Basic

/-!
# Readers of binary files

A reader takes bytes off the front of its input and updates a state, which it keeps if it stops with
an error. Files are read in records of a fixed length: a record is either there as a whole, or the
reader stops and the records before it have had their effect.
-/

namespace Framework

structure ReaderState (σ : Type) where
  rest : List UInt8
  state : σ
  deriving DecidableEq, Repr

abbrev ByteReader (ε σ α : Type) := EStateM ε (ReaderState σ) α

namespace ByteReader

variable {ε σ α β : Type}

/-- The next `n` bytes; all that is left is taken if they are fewer. -/
def readBytes (short : ε) (n : Nat) : ByteReader ε σ (List UInt8) := fun s =>
  if n ≤ s.rest.length then .ok (s.rest.take n) { s with rest := s.rest.drop n }
  else .error short { s with rest := [] }

def update (f : σ → σ) : ByteReader ε σ Unit := fun s => .ok () { s with state := f s.state }

/-- The next `n` records. -/
def readMany (p : ByteReader ε σ α) : Nat → ByteReader ε σ (List α)
  | 0 => pure []
  | n + 1 => do
    let a ← p
    let as ← readMany p n
    pure (a :: as)

theorem bind_of_ok {p : ByteReader ε σ α} {q : α → ByteReader ε σ β} {s t : ReaderState σ} {a : α}
    (h : p s = .ok a t) : (p >>= q) s = q a t := by
  change EStateM.bind p q s = q a t
  rw [EStateM.bind, h]

theorem bind_of_error {p : ByteReader ε σ α} {q : α → ByteReader ε σ β} {s t : ReaderState σ}
    {e : ε} (h : p s = .error e t) : (p >>= q) s = .error e t := by
  change EStateM.bind p q s = .error e t
  rw [EStateM.bind, h]

/-- The reader takes one record of `k` bytes. -/
structure ReadsRecord (p : ByteReader ε σ α) (k : Nat) (value : List UInt8 → α)
    (effect : List UInt8 → σ → σ) : Prop where
  enough : ∀ {input : List UInt8} (s : σ), k ≤ input.length →
    p ⟨input, s⟩ = .ok (value (input.take k)) ⟨input.drop k, effect (input.take k) s⟩
  short : ∀ {input : List UInt8} (s : σ), input.length < k →
    ∃ e rest, p ⟨input, s⟩ = .error e ⟨rest, s⟩

/-- The first `n` records of `k` bytes. -/
def records (k : Nat) : Nat → List UInt8 → List (List UInt8)
  | 0, _ => []
  | n + 1, input => input.take k :: records k n (input.drop k)

variable {p : ByteReader ε σ α} {q : α → ByteReader ε σ β} {k l : Nat}
  {value : List UInt8 → α} {effect : List UInt8 → σ → σ}

theorem ReadsRecord.of_eq {value' : List UInt8 → α} {effect' : List UInt8 → σ → σ}
    (h : ReadsRecord p k value effect) (hvalue : ∀ bytes, value bytes = value' bytes)
    (heffect : ∀ bytes, effect bytes = effect' bytes) : ReadsRecord p k value' effect' := by
  rw [← funext hvalue, ← funext heffect]
  exact h

theorem readsRecord_readBytes (e : ε) (k : Nat) :
    ReadsRecord (readBytes e k : ByteReader ε σ _) k id (fun _ => id) where
  enough _ h := if_pos h
  short _ h := ⟨e, [], if_neg (Nat.not_le.mpr h)⟩

theorem readsRecord_pure (a : α) :
    ReadsRecord (pure a : ByteReader ε σ α) 0 (fun _ => a) (fun _ => id) where
  enough _ _ := rfl
  short _ h := absurd h (Nat.not_lt_zero _)

theorem readsRecord_update (f : σ → σ) :
    ReadsRecord (update f : ByteReader ε σ Unit) 0 (fun _ => ()) (fun _ => f) where
  enough _ _ := rfl
  short _ h := absurd h (Nat.not_lt_zero _)

/-- Two records, one after the other, are a record. The first must not have an effect, since it
would be left if the second is not there. -/
theorem ReadsRecord.bind {value' : α → List UInt8 → β} {effect' : α → List UInt8 → σ → σ}
    (hp : ReadsRecord p k value (fun _ => id))
    (hq : ∀ a, ReadsRecord (q a) l (value' a) (effect' a)) :
    ReadsRecord (p >>= q) (k + l)
      (fun bytes => value' (value (bytes.take k)) (bytes.drop k))
      (fun bytes => effect' (value (bytes.take k)) (bytes.drop k)) where
  enough {input} s h := by
    have hfirst := hp.enough s (show k ≤ input.length by omega)
    have hlength : l ≤ (input.drop k).length := by
      rw [List.length_drop]
      omega
    have htake : (input.take (k + l)).take k = input.take k := by
      rw [List.take_take, Nat.min_eq_left (Nat.le_add_right k l)]
    have hdrop : (input.take (k + l)).drop k = (input.drop k).take l := by
      rw [List.drop_take, Nat.add_sub_cancel_left]
    rw [bind_of_ok hfirst, (hq _).enough _ hlength, List.drop_drop, htake, hdrop]
    rfl
  short {input} s h := by
    rcases Nat.lt_or_ge input.length k with hlt | hge
    · rcases hp.short s hlt with ⟨e, rest, herror⟩
      exact ⟨e, rest, bind_of_error herror⟩
    · have hlength : (input.drop k).length < l := by
        rw [List.length_drop]
        omega
      rcases (hq (value (input.take k))).short s hlength with ⟨e, rest, herror⟩
      refine ⟨e, rest, ?_⟩
      rw [bind_of_ok (hp.enough s hge)]
      exact herror

theorem ReadsRecord.map {f : α → β} (hp : ReadsRecord p k value effect) :
    ReadsRecord (do let a ← p; pure (f a)) k (fun bytes => f (value bytes)) effect where
  enough s h := bind_of_ok (hp.enough s h)
  short s h := by
    rcases hp.short s h with ⟨e, rest, herror⟩
    exact ⟨e, rest, bind_of_error herror⟩

theorem readsRecord_readMany (hp : ReadsRecord p k value (fun _ => id)) (n : Nat) :
    ReadsRecord (readMany p n) (k * n) (fun bytes => (records k n bytes).map value)
      (fun _ => id) := by
  induction n with
  | zero => exact readsRecord_pure []
  | succ n ih =>
      rw [Nat.mul_succ, Nat.add_comm (k * n)]
      exact hp.bind fun a => ih.map (f := (a :: ·))

theorem ReadsRecord.readMany_enough (hp : ReadsRecord p k value effect) {n : Nat}
    {input : List UInt8} (s : σ) (h : k * n ≤ input.length) :
    readMany p n ⟨input, s⟩ = .ok ((records k n input).map value)
      ⟨input.drop (k * n), (records k n input).foldl (fun s bytes => effect bytes s) s⟩ := by
  induction n generalizing input s with
  | zero => rfl
  | succ n ih =>
      rw [Nat.mul_succ] at h
      have hrest : k * n ≤ (input.drop k).length := by
        rw [List.length_drop]
        omega
      rw [readMany, bind_of_ok (hp.enough s (by omega)), bind_of_ok (ih _ hrest), List.drop_drop,
        Nat.mul_succ, Nat.add_comm k]
      rfl

theorem ReadsRecord.readMany_short (hp : ReadsRecord p k value effect) {n : Nat}
    {input : List UInt8} (s : σ) (h : input.length < k * n) :
    ∃ e rest, readMany p n ⟨input, s⟩ = .error e
      ⟨rest, (records k (input.length / k) input).foldl (fun s bytes => effect bytes s) s⟩ := by
  induction n generalizing input s with
  | zero => exact absurd h (Nat.not_lt_zero _)
  | succ n ih =>
      rw [Nat.mul_succ] at h
      rcases Nat.lt_or_ge input.length k with hlt | hge
      · rcases hp.short s hlt with ⟨e, rest, herror⟩
        refine ⟨e, rest, ?_⟩
        rw [Nat.div_eq_of_lt hlt, readMany, bind_of_error herror]
        rfl
      · have hrest : (input.drop k).length < k * n := by
          rw [List.length_drop]
          omega
        have hk : 0 < k := Nat.pos_of_mul_pos_right (Nat.zero_lt_of_lt hrest)
        rcases ih (effect (input.take k) s) hrest with ⟨e, rest, herror⟩
        refine ⟨e, rest, ?_⟩
        have hcount : input.length / k = (input.drop k).length / k + 1 := by
          rw [List.length_drop, Nat.div_eq_sub_div hk hge]
        rw [readMany, bind_of_ok (hp.enough s hge), bind_of_error herror, hcount]
        rfl

theorem length_records (k n : Nat) (input : List UInt8) : (records k n input).length = n := by
  induction n generalizing input with
  | zero => rfl
  | succ n ih => rw [records, List.length_cons, ih]

theorem records_flatMap {ι : Type} {enc : ι → List UInt8} (henc : ∀ i, (enc i).length = k)
    (items : List ι) (rest : List UInt8) :
    records k items.length (items.flatMap enc ++ rest) = items.map enc := by
  induction items with
  | nil => rfl
  | cons i items ih =>
      rw [List.length_cons, records, List.flatMap_cons, List.append_assoc,
        List.take_left' (henc i), List.drop_left' (henc i), ih, List.map_cons]

/-- The state that a reader ends in, with an error or without. -/
def stateAfter (r : EStateM.Result ε (ReaderState σ) α) : σ :=
  match r with
  | .ok _ s => s.state
  | .error _ s => s.state

/-- `P` stays true of the state, at an error too. -/
def Keeps (P : σ → Prop) (p : ByteReader ε σ α) : Prop :=
  ∀ s : ReaderState σ, P s.state → P (stateAfter (p s))

theorem stateAfter_bind {P : σ → Prop} {s : ReaderState σ} (hp : P (stateAfter (p s)))
    (hq : ∀ a, Keeps P (q a)) : P (stateAfter ((p >>= q) s)) := by
  cases hread : p s with
  | ok a t =>
      rw [bind_of_ok hread]
      rw [hread] at hp
      exact hq a t hp
  | error e t =>
      rw [bind_of_error hread]
      rw [hread] at hp
      exact hp

theorem Keeps.bind {P : σ → Prop} (hp : Keeps P p) (hq : ∀ a, Keeps P (q a)) :
    Keeps P (p >>= q) := fun s hs => stateAfter_bind (hp s hs) hq

theorem keeps_pure (P : σ → Prop) (a : α) : Keeps P (pure a : ByteReader ε σ α) := fun _ hs => hs

theorem keeps_update {P : σ → Prop} {f : σ → σ} (h : ∀ x, P x → P (f x)) :
    Keeps P (update f : ByteReader ε σ Unit) := fun s hs => h s.state hs

theorem keeps_readBytes (P : σ → Prop) (e : ε) (n : Nat) :
    Keeps P (readBytes e n : ByteReader ε σ _) := by
  intro s hs
  rw [readBytes]
  split <;> exact hs

/-- An error that the reader stops with is one of `E`. -/
def FailsOnly (E : ε → Prop) (p : ByteReader ε σ α) : Prop :=
  ∀ (s t : ReaderState σ) (e : ε), p s = .error e t → E e

theorem FailsOnly.bind {E : ε → Prop} (hp : FailsOnly E p) (hq : ∀ a, FailsOnly E (q a)) :
    FailsOnly E (p >>= q) := by
  intro s t e herror
  cases hread : p s with
  | ok a u =>
      rw [bind_of_ok hread] at herror
      exact hq a _ _ _ herror
  | error e' u =>
      rw [bind_of_error hread] at herror
      cases herror
      exact hp _ _ _ hread

theorem failsOnly_pure (E : ε → Prop) (a : α) : FailsOnly E (pure a : ByteReader ε σ α) := by
  intro s t e herror
  cases herror

theorem failsOnly_throw {E : ε → Prop} {e : ε} (h : E e) :
    FailsOnly E (throw e : ByteReader ε σ α) := by
  intro s t e' herror
  cases herror
  exact h

theorem failsOnly_update (E : ε → Prop) (f : σ → σ) :
    FailsOnly E (update f : ByteReader ε σ Unit) := by
  intro s t e herror
  cases herror

theorem failsOnly_readBytes {E : ε → Prop} {e : ε} (h : E e) (n : Nat) :
    FailsOnly E (readBytes e n : ByteReader ε σ _) := by
  intro s t e' herror
  rw [readBytes] at herror
  split at herror <;> cases herror
  exact h

theorem FailsOnly.readMany {E : ε → Prop} (hp : FailsOnly E p) (n : Nat) :
    FailsOnly E (readMany p n) := by
  induction n with
  | zero => exact failsOnly_pure E []
  | succ n ih => exact hp.bind fun a => ih.bind fun as => failsOnly_pure E (a :: as)

theorem ReadsRecord.stateAfter_readMany (hp : ReadsRecord p k value effect) (hk : 0 < k) (n : Nat)
    (input : List UInt8) (s : σ) :
    stateAfter (readMany p n ⟨input, s⟩) =
      (records k (min n (input.length / k)) input).foldl (fun s bytes => effect bytes s) s := by
  rcases Nat.lt_or_ge input.length (k * n) with hlt | hge
  · rcases hp.readMany_short s hlt with ⟨e, rest, herror⟩
    have hcount : input.length / k ≤ n := by
      rw [Nat.div_le_iff_le_mul_add_pred hk]
      omega
    rw [herror, Nat.min_eq_right hcount]
    rfl
  · have hcount : n ≤ input.length / k := by
      rw [Nat.le_div_iff_mul_le hk, Nat.mul_comm]
      exact hge
    rw [hp.readMany_enough s hge, Nat.min_eq_left hcount]
    rfl

end ByteReader

end Framework
