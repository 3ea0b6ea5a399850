import LearnMuduo.Protobuf.Decode

/-!
# The backlog of a decoder

What `onMessage` leaves in the receive buffer is less than the longest frame, until a frame is
refused. From then on nothing leaves the buffer.
-/

namespace LearnMuduo

open Framework

namespace ProtobufCodec

variable {Descriptor Message : Type} (pb : Protobuf Descriptor Message)

theorem length_of_incomplete {l : List UInt8} (h : headVerdict pb l = .incomplete) :
    (l.length : Int) < maxMessageLen + headerLen := by
  have hminimum : minMessageLen ≤ maxMessageLen := by
    decide
  simp only [headVerdict] at h
  split at h
  · split at h
    · cases h
    · rename_i hlen
      rw [not_or, not_lt, not_lt] at hlen
      split at h
      · omega
      · split at h <;> cases h
  · omega

theorem headVerdict_nil : headVerdict pb [] = .incomplete :=
  if_neg (by decide)

/-- Over any chunks, the buffer holds less than the longest frame as long as no error is reported,
and after the first report it keeps every byte that comes. -/
theorem backlog_receiveAll {b : Buffer} (hb : b.Represents []) (chunks : List (List UInt8)) :
    ((receiveAll pb b chunks).errors = [] →
        ((receiveAll pb b chunks).buf.readableBytes : Int) < maxMessageLen + headerLen) ∧
      ((receiveAll pb b chunks).errors ≠ [] → ∀ more,
        (receiveAll pb b (chunks ++ more)).buf.readable =
          (receiveAll pb b chunks).buf.readable ++ more.flatten) := by
  obtain ⟨-, herrors, hrest⟩ := receiveAll_feedAll pb hb chunks
  constructor
  · intro hnone
    rw [herrors] at hnone
    rw [hrest.length_eq]
    exact length_of_incomplete pb
      (Framing.verdict_rest_of_unreported (F := frames pb) (headVerdict_nil pb) chunks hnone)
  · intro hsome more
    rw [herrors] at hsome
    obtain ⟨-, -, hrest'⟩ := receiveAll_feedAll pb hb (chunks ++ more)
    rw [hrest'.readable_eq, hrest.readable_eq,
      (Framing.rest_append_of_reported chunks more hsome).1]

theorem backlog_receiveAll_zeros :
    (receiveAll emptyRuntime (Buffer.create 0 0)
        ([List.replicate 14 0] ++ [[1], [2]])).buf.readable =
      (receiveAll emptyRuntime (Buffer.create 0 0) [List.replicate 14 0]).buf.readable ++
        [1, 2] := by
  have hverdict : headVerdict emptyRuntime (List.replicate 14 0) = .malformed .invalidLength := rfl
  have hmalformed : (frames emptyRuntime).drain (List.replicate 14 0) = _ :=
    Framing.drain_malformed hverdict
  have herrors :
      (receiveAll emptyRuntime (Buffer.create 0 0) [List.replicate 14 0]).errors ≠ [] := by
    rw [(receiveAll_feedAll emptyRuntime Buffer.Represents.create _).2.1]
    simp only [Framing.feedAll, Framing.feed, Framing.start, List.foldl_cons, List.foldl_nil,
      List.nil_append, hmalformed]
    exact List.cons_ne_nil _ _
  exact (backlog_receiveAll emptyRuntime Buffer.Represents.create _).2 herrors [[1], [2]]

end ProtobufCodec

end LearnMuduo
