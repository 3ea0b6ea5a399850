import Mathlib.Data.List.Induction

/-!
# Framed byte streams

A framing looks at the head of a stream and answers with a verdict: too little data, one
complete frame of a given size, or a malformed head. When more data never revises a verdict
other than `incomplete`, decoding the stream in arbitrary pieces is decoding it at once.
-/

namespace Framework

/-- What the head of a stream is. -/
inductive Verdict (μ ε : Type*)
  | incomplete
  | frame (message : μ) (size : Nat)
  | malformed (error : ε)

/-- A head decision that appended data cannot revise. -/
structure Framing (α μ ε : Type*) where
  verdict : List α → Verdict μ ε
  size_pos : ∀ {l m n}, verdict l = .frame m n → 0 < n
  size_le : ∀ {l m n}, verdict l = .frame m n → n ≤ l.length
  frame_append : ∀ {l m n} (x : List α), verdict l = .frame m n → verdict (l ++ x) = .frame m n
  malformed_append : ∀ {l e} (x : List α), verdict l = .malformed e →
    verdict (l ++ x) = .malformed e

/-- The messages taken off the front, the error that stopped the decoder if one did, and what
is left. -/
structure Drained (α μ ε : Type*) where
  messages : List μ
  error : Option ε
  rest : List α

/-- The state of a decoder fed piece by piece. -/
structure Fed (α μ ε : Type*) where
  delivered : List μ
  reported : List ε
  rest : List α

namespace Framing

variable {α μ ε : Type*} (F : Framing α μ ε)

/-- Take frames off the front until the head is not one. -/
def drain (l : List α) : Drained α μ ε :=
  match _h : F.verdict l with
  | .incomplete => ⟨[], none, l⟩
  | .malformed e => ⟨[], some e, l⟩
  | .frame m n =>
      let tail := drain (l.drop n)
      ⟨m :: tail.messages, tail.error, tail.rest⟩
termination_by l.length
decreasing_by
  have hpos := F.size_pos _h
  have hle := F.size_le _h
  rw [List.length_drop]
  omega

variable {F}

theorem drain_incomplete {l : List α} (h : F.verdict l = .incomplete) :
    F.drain l = ⟨[], none, l⟩ := by
  rw [drain]
  split <;> simp_all

theorem drain_malformed {l : List α} {e : ε} (h : F.verdict l = .malformed e) :
    F.drain l = ⟨[], some e, l⟩ := by
  rw [drain]
  split <;> simp_all

theorem drain_frame {l : List α} {m : μ} {n : Nat} (h : F.verdict l = .frame m n) :
    F.drain l = ⟨m :: (F.drain (l.drop n)).messages, (F.drain (l.drop n)).error,
      (F.drain (l.drop n)).rest⟩ := by
  rw [drain]
  split <;> simp_all

/-- Draining a longer stream is draining the shorter one and then what it left. -/
theorem drain_append (l x : List α) :
    F.drain (l ++ x) =
      ⟨(F.drain l).messages ++ (F.drain ((F.drain l).rest ++ x)).messages,
        (F.drain ((F.drain l).rest ++ x)).error, (F.drain ((F.drain l).rest ++ x)).rest⟩ := by
  induction l using drain.induct F with
  | case1 l h => simp [drain_incomplete h]
  | case2 l e h => simp [drain_malformed h]
  | case3 l m n h ih =>
      have hdrop : (l ++ x).drop n = l.drop n ++ x := List.drop_append_of_le_length (F.size_le h)
      rw [drain_frame (F.frame_append x h), drain_frame h, hdrop, ih]
      simp

theorem verdict_rest_of_error {l : List α} {e : ε} (h : (F.drain l).error = some e) :
    F.verdict (F.drain l).rest = .malformed e := by
  induction l using drain.induct F with
  | case1 l hv => simp [drain_incomplete hv] at h
  | case2 l e' hv =>
      rw [drain_malformed hv] at h ⊢
      obtain rfl : e' = e := by simpa using h
      exact hv
  | case3 l m n hv ih =>
      rw [drain_frame hv] at h ⊢
      exact ih h

theorem rest_of_messages_nil {l : List α} (h : (F.drain l).messages = []) :
    (F.drain l).rest = l := by
  cases hv : F.verdict l with
  | incomplete => rw [drain_incomplete hv]
  | malformed e => rw [drain_malformed hv]
  | frame m n => rw [drain_frame hv] at h; cases h

theorem rest_of_messages_singleton {l : List α} {m : μ} (h : (F.drain l).messages = [m]) :
    ∃ n, F.verdict l = .frame m n ∧ (F.drain l).rest = l.drop n := by
  cases hv : F.verdict l with
  | incomplete => rw [drain_incomplete hv] at h; cases h
  | malformed e => rw [drain_malformed hv] at h; cases h
  | frame m' n =>
      rw [drain_frame hv] at h ⊢
      obtain ⟨rfl, htail⟩ := List.cons.inj h
      exact ⟨n, rfl, rest_of_messages_nil htail⟩

variable (F)

def start : Fed α μ ε := ⟨[], [], []⟩

/-- One more piece of the stream arrives and the decoder runs. -/
def feed (s : Fed α μ ε) (chunk : List α) : Fed α μ ε :=
  let d := F.drain (s.rest ++ chunk)
  ⟨s.delivered ++ d.messages, s.reported ++ d.error.toList, d.rest⟩

def feedAll (chunks : List (List α)) : Fed α μ ε := chunks.foldl F.feed start

variable {F}

theorem feedAll_append_singleton (chunks : List (List α)) (chunk : List α) :
    F.feedAll (chunks ++ [chunk]) = F.feed (F.feedAll chunks) chunk := by
  simp [feedAll]

theorem drain_nil_rest : (F.drain []).messages = [] ∧ (F.drain []).rest = [] := by
  cases h : F.verdict [] with
  | incomplete => simp [drain_incomplete h]
  | malformed e => simp [drain_malformed h]
  | frame m n =>
      have hpos := F.size_pos h
      have hle := F.size_le h
      simp at hle
      omega

/-- However the stream was cut, the decoder has delivered, and keeps, what draining the whole
stream at once delivers and keeps. -/
theorem feedAll_eq_drain (chunks : List (List α)) :
    (F.feedAll chunks).delivered = (F.drain chunks.flatten).messages ∧
      (F.feedAll chunks).rest = (F.drain chunks.flatten).rest := by
  induction chunks using List.reverseRecOn with
  | nil => exact ⟨drain_nil_rest.1.symm, drain_nil_rest.2.symm⟩
  | append_singleton chunks chunk ih =>
      have hflat : (chunks ++ [chunk]).flatten = chunks.flatten ++ chunk := by simp
      rw [feedAll_append_singleton, hflat, drain_append]
      simp only [feed, ih.1, ih.2, and_self]

theorem malformed_of_reported (chunks : List (List α)) (h : (F.feedAll chunks).reported ≠ []) :
    ∃ e, F.verdict (F.feedAll chunks).rest = .malformed e := by
  induction chunks using List.reverseRecOn with
  | nil => exact absurd rfl h
  | append_singleton chunks chunk ih =>
      rw [feedAll_append_singleton] at h ⊢
      cases herr : (F.drain ((F.feedAll chunks).rest ++ chunk)).error with
      | some e => exact ⟨e, verdict_rest_of_error herr⟩
      | none =>
          simp only [feed, herr, Option.toList_none, List.append_nil] at h
          obtain ⟨e, he⟩ := ih h
          rw [drain_malformed (F.malformed_append chunk he)] at herr
          exact absurd herr (by simp)

theorem delivered_append_of_reported (chunks more : List (List α))
    (h : (F.feedAll chunks).reported ≠ []) :
    (F.feedAll (chunks ++ more)).delivered = (F.feedAll chunks).delivered := by
  -- the reports only grow, so the head stays malformed through every further chunk
  suffices hboth : (F.feedAll (chunks ++ more)).delivered = (F.feedAll chunks).delivered ∧
      (F.feedAll (chunks ++ more)).reported ≠ [] from hboth.1
  induction more using List.reverseRecOn with
  | nil => simpa using h
  | append_singleton more chunk ih =>
      obtain ⟨hdelivered, hreported⟩ := ih
      obtain ⟨e, he⟩ := malformed_of_reported (chunks ++ more) hreported
      rw [← List.append_assoc, feedAll_append_singleton, feed,
        drain_malformed (F.malformed_append chunk he)]
      refine ⟨by simpa using hdelivered, by simp⟩

theorem rest_append_of_reported (chunks more : List (List α))
    (h : (F.feedAll chunks).reported ≠ []) :
    (F.feedAll (chunks ++ more)).rest = (F.feedAll chunks).rest ++ more.flatten ∧
      (F.feedAll (chunks ++ more)).reported ≠ [] := by
  induction more using List.reverseRecOn with
  | nil => simpa using h
  | append_singleton more chunk ih =>
      obtain ⟨hrest, hreported⟩ := ih
      obtain ⟨e, he⟩ := malformed_of_reported (chunks ++ more) hreported
      rw [← List.append_assoc, feedAll_append_singleton, feed,
        drain_malformed (F.malformed_append chunk he)]
      simp [hrest]

theorem verdict_rest {l : List α} (h : (F.drain l).error = none) :
    F.verdict (F.drain l).rest = .incomplete := by
  induction l using drain.induct F with
  | case1 l hv =>
      rw [drain_incomplete hv]
      exact hv
  | case2 l e hv =>
      rw [drain_malformed hv] at h
      cases h
  | case3 l m n hv ih =>
      rw [drain_frame hv] at h ⊢
      exact ih h

theorem verdict_rest_of_unreported (hstart : F.verdict [] = .incomplete) (chunks : List (List α))
    (h : (F.feedAll chunks).reported = []) : F.verdict (F.feedAll chunks).rest = .incomplete := by
  induction chunks using List.reverseRecOn with
  | nil => exact hstart
  | append_singleton chunks chunk _ =>
      rw [feedAll_append_singleton] at h ⊢
      apply verdict_rest
      simpa using (List.append_eq_nil_iff.mp h).2

end Framing

end Framework
