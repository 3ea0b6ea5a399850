import LearnMuduo.Net.Buffer.Queue

/-!
# The assertions of the buffer

A debug build stops at the first assertion that fails. The assertions about room and about what
can be read hold whenever the callers keep to their part. The last one in `append` asks for more:
the write position must stay short of the end of the vector, so filling the vector to the last
byte stops the program.
-/

namespace LearnMuduo

open Framework

namespace Buffer

/-- An append of `len` bytes leaves no free byte behind: it fills the room at the end, or the room
that compaction makes, or, with the vector full, exactly the room that was added for it. -/
def Fills (b : Buffer) (len : Nat) : Prop :=
  if len ≤ b.writableBytes then len = b.writableBytes
  else if len ≤ b.readPos + b.writableBytes then len = b.readPos + b.writableBytes
  else b.writableBytes = 0

instance (b : Buffer) (len : Nat) : Decidable (b.Fills len) := by
  unfold Fills
  infer_instance

variable {b : Buffer} {q : List UInt8}

theorem Represents.ok_ensureSpace (h : b.Represents q) (len : Nat) :
    (b.ensureSpace len).ok = true := by
  have hroom := h.writableBytes_makeSpace len
  rw [Buffer.ensureSpace]
  split
  · rfl
  · simpa using hroom

theorem Represents.writableBytes_ensureSpace_eq (h : b.Represents q) (len : Nat) :
    (b.ensureSpace len).val.writableBytes =
      if len ≤ b.writableBytes then b.writableBytes
      else if len ≤ b.readPos + b.writableBytes then b.readPos + b.writableBytes
      else b.writableBytes + len := by
  rw [Buffer.ensureSpace]
  split
  · rfl
  · exact h.writableBytes_makeSpace_eq len

theorem length_copyToWritePos {data : List UInt8} (hwrite : b.writePos ≤ b.vec.length)
    (hroom : data.length ≤ b.writableBytes) :
    (b.copyToWritePos data).vec.length = b.vec.length := by
  apply length_overwrite
  rw [writableBytes] at hroom
  omega

/-- Of the assertions in `append`, only the last one can fail, and it does exactly when no free
byte is left. -/
theorem Represents.ok_append (h : b.Represents q) (data : List UInt8) :
    (b.append data).ok = true ↔ ¬ b.Fills data.length := by
  have hspace := h.ensureSpace data.length
  have hroom := h.writableBytes_ensureSpace data.length
  have hfree := h.writableBytes_ensureSpace_eq data.length
  have hok := h.ok_ensureSpace data.length
  have hwrite := hspace.write_le_size
  generalize hroomy : (b.ensureSpace data.length).val = r at *
  have hsize := length_copyToWritePos hwrite hroom
  have hcopied : (r.copyToWritePos data).writableBytes = r.writableBytes := by
    rw [writableBytes, hsize]
    rfl
  have hlast : (b.append data).ok = true ↔ r.writePos + data.length < r.vec.length := by
    simp only [Buffer.append, Checked.ok_bind, Checked.ok_assert, hroomy, Checked.ok_pure, hok,
      hcopied, hsize, Bool.and_true, Bool.true_and, Bool.and_eq_true, decide_eq_true_eq]
    exact and_iff_right hroom
  have hbytes : r.writableBytes = r.vec.length - r.writePos := rfl
  rw [hlast, Fills]
  by_cases hfits : data.length ≤ b.writableBytes
  · rw [if_pos hfits] at hfree ⊢
    omega
  · rw [if_neg hfits] at hfree ⊢
    by_cases hcompact : data.length ≤ b.readPos + b.writableBytes
    · rw [if_pos hcompact] at hfree ⊢
      omega
    · rw [if_neg hcompact] at hfree ⊢
      omega

end Buffer

namespace BufferOp

/-- What a caller of a debug build has to see to. -/
def Legal (b : Buffer) : BufferOp → Prop
  | written data len => data.length ≤ b.writableBytes ∧ len ≤ b.writableBytes
  | retrieve len => len ≤ b.readableBytes
  | peekInt32 => 4 ≤ b.readableBytes
  | readFromFd result => b.Scatters result
  | _ => True

/-- The operation appends, and fills the vector. A spill is appended when the vector is full. -/
def Fills (b : Buffer) : BufferOp → Prop
  | append data => b.Fills data.length
  | appendInt32 _ => b.Fills 4
  | readFromFd (.scattered bytes) =>
      b.writableBytes < bytes.length ∧ b.readPos ≤ bytes.length - b.writableBytes
  | _ => False

end BufferOp

namespace Buffer

variable {b : Buffer} {q : List UInt8}

/-- The positions are in order and inside the vector. -/
def Ordered (b : Buffer) : Prop := b.Represents b.readable

theorem Represents.ordered (h : b.Represents q) : b.Ordered :=
  ⟨h.read_le_write, h.write_le_size, rfl⟩

theorem Ordered.apply (h : b.Ordered) {op : BufferOp} (hop : op.Legal b) :
    (op.apply b).val.Ordered := by
  cases op with
  | append data => exact (h.append data).ordered
  | appendInt32 x => exact (h.appendInt32 x).ordered
  | ensureSpace len => exact (h.ensureSpace len).ordered
  | written data len =>
      have hread := h.read_le_write
      have hwrite := h.write_le_size
      have hsize := length_copyToWritePos hwrite hop.1
      have hlen : len ≤ b.vec.length - b.writePos := hop.2
      refine ⟨Nat.le_add_right_of_le hread, ?_, rfl⟩
      show b.writePos + len ≤ (b.copyToWritePos data).vec.length
      omega
  | retrieve len => exact (h.retrieve len).ordered
  | retrieveAll => exact (Represents.retrieveAll b).ordered
  | peekInt32 => exact h
  | readFromFd result => exact (h.ofReadv result).ordered

/-- The spill of `readFromFd` is appended with nothing writable. -/
theorem Represents.ok_readFromFd (h : b.Represents q) (bytes : List UInt8) :
    (b.readFromFd (.scattered bytes)).ok = true ↔
      ¬ (b.writableBytes < bytes.length ∧ b.readPos ≤ bytes.length - b.writableBytes) := by
  by_cases hfits : bytes.length ≤ b.writableBytes
  · simp [Buffer.readFromFd, hfits, Nat.not_lt.mpr hfits]
  · have hwrite := h.write_le_size
    have hroom : (bytes.take b.writableBytes).length = b.writableBytes := by
      rw [List.length_take]
      omega
    have hfull := h.advance (Nat.le_of_eq hroom)
    have hsize := length_copyToWritePos hwrite (Nat.le_of_eq hroom)
    have hend : b.writePos + (bytes.take b.writableBytes).length =
        (b.copyToWritePos (bytes.take b.writableBytes)).vec.length := by
      rw [hroom, hsize, writableBytes]
      omega
    rw [hend] at hfull
    have happend := hfull.ok_append (bytes.drop b.writableBytes)
    simp only [Buffer.readFromFd, hfits, if_false, Checked.ok_bind, Checked.ok_pure,
      Bool.and_true]
    have hfree : ({ b.copyToWritePos (bytes.take b.writableBytes) with
        writePos := (b.copyToWritePos (bytes.take b.writableBytes)).vec.length } :
        Buffer).writableBytes = 0 := Nat.sub_self _
    rw [happend, Fills, List.length_drop, hfree]
    show ¬ (if _ then _ else if _ ≤ b.readPos + 0 then _ = b.readPos + 0 else _) ↔ _
    rw [if_neg (by omega)]
    by_cases hcompact : bytes.length - b.writableBytes ≤ b.readPos + 0
    · rw [if_pos hcompact]
      omega
    · rw [if_neg hcompact]
      simp only [not_true_eq_false, false_iff, not_not]
      omega

theorem Ordered.ok_apply (h : b.Ordered) {op : BufferOp} (hop : op.Legal b) :
    (op.apply b).ok = true ↔ ¬ op.Fills b := by
  cases op with
  | append data => exact h.ok_append data
  | appendInt32 x =>
      have happend := h.ok_append (hostToNetwork32 x)
      rw [length_hostToNetwork32] at happend
      exact happend
  | ensureSpace len => exact iff_of_true (h.ok_ensureSpace len) not_false
  | written data len =>
      have hlen : len ≤ (b.copyToWritePos data).writableBytes := by
        rw [writableBytes, length_copyToWritePos h.write_le_size hop.1]
        exact hop.2
      apply iff_of_true
      · simp [BufferOp.apply, hasWritten, hlen]
      · exact not_false
  | retrieve len =>
      have hlen : len ≤ b.readableBytes := hop
      apply iff_of_true
      · simp [BufferOp.apply, retrieve, hlen]
      · exact not_false
  | retrieveAll => exact iff_of_true rfl not_false
  | peekInt32 =>
      have hfour : 4 ≤ b.readableBytes := hop
      apply iff_of_true
      · simp [BufferOp.apply, peekInt32, hfour]
      · exact not_false
  | readFromFd result =>
      cases result with
      | failed errno => exact iff_of_true rfl not_false
      | scattered bytes =>
          have hread := h.ok_readFromFd bytes
          simp only [BufferOp.apply, Checked.ok_bind, Checked.ok_pure, Bool.and_true]
          exact hread

end Buffer

/-- A legal call, and whether an assertion has failed so far. -/
def BufferStep (s : Checked Buffer) (op : BufferOp) (s' : Checked Buffer) : Prop :=
  op.Legal s.val ∧ s' = s >>= fun b => op.apply b

/-- A legal call that does not fill the vector. -/
def RoomyStep (s : Checked Buffer) (op : BufferOp) (s' : Checked Buffer) : Prop :=
  BufferStep s op s' ∧ ¬ op.Fills s.val

namespace BufferStep

variable {s s' s'' : Checked Buffer} {op : BufferOp} {ops : List BufferOp}

theorem unique (h : BufferStep s op s') (h' : BufferStep s op s'') : s' = s'' :=
  h.2.trans h'.2.symm

theorem ordered (hs : s.val.Ordered) (h : BufferStep s op s') : s'.val.Ordered := by
  rcases h with ⟨hop, rfl⟩
  exact hs.apply hop

theorem ok_iff (hs : s.val.Ordered) (h : BufferStep s op s') :
    s'.ok = true ↔ s.ok = true ∧ ¬ op.Fills s.val := by
  rcases h with ⟨hop, rfl⟩
  rw [Checked.ok_bind, Bool.and_eq_true, hs.ok_apply hop]

end BufferStep

namespace Buffer

variable {b : Buffer} {s : Checked Buffer} {ops : List BufferOp}

/-- In a run of legal calls no assertion fails exactly if no call fills the vector. -/
theorem assertions_hold_iff (h : Run BufferStep (pure (create 0 0)) ops s) :
    s.ok = true ↔ Run RoomyStep (pure (create 0 0)) ops s := by
  show s.ok = true ↔ Run (fun s op s' => BufferStep s op s' ∧ ¬ op.Fills s.val) _ ops s
  apply Run.iff_forall_good (I := fun s : Checked Buffer => s.val.Ordered)
    (P := fun s : Checked Buffer => s.ok = true)
  · intro t e u u' hu hu'
    exact hu.unique hu'
  · intro t e u ht hu
    exact hu.ordered ht
  · intro t e u ht hu
    exact hu.ok_iff ht
  · exact h
  · exact Represents.create.ordered
  · rfl

/-- The spill of the read is compacted into the space of what was retrieved, and the last append
makes the vector grow. -/
def moved : List BufferOp :=
  [.append (List.replicate 800 0), .retrieve 600, .readFromFd (.scattered (List.replicate 500 0)),
    .append (List.replicate 2000 0)]

theorem moved_run : ∃ s : Checked Buffer, Run RoomyStep (pure (create 0 0)) moved s ∧
    s.val.readPos = 0 ∧ s.val.vec.length = 3024 := by
  refine ⟨_, (((Run.nil.snoc ⟨⟨trivial, rfl⟩, ?first⟩).snoc ⟨⟨?read, rfl⟩, not_false⟩).snoc
    ⟨⟨?offered, rfl⟩, ?spill⟩).snoc ⟨⟨trivial, rfl⟩, ?grow⟩, ?compacted, ?grown⟩
  case first =>
    change ¬ Buffer.Fills _ _
    decide +kernel
  case read =>
    change 600 ≤ Buffer.readableBytes _
    decide +kernel
  case offered =>
    change List.length _ ≤ Buffer.offered _
    decide +kernel
  case spill =>
    change ¬ (Buffer.writableBytes _ < List.length _ ∧
      Buffer.readPos _ ≤ List.length _ - Buffer.writableBytes _)
    decide +kernel
  case grow =>
    change ¬ Buffer.Fills _ _
    decide +kernel
  case compacted => decide +kernel
  case grown => decide +kernel

theorem assertions_hold_moved : ∃ s : Checked Buffer,
    Run BufferStep (pure (create 0 0)) moved s ∧ s.val.readPos = 0 ∧ s.val.vec.length = 3024 ∧
      s.ok = true := by
  obtain ⟨s, hroomy, hcompacted, hgrown⟩ := moved_run
  have hrun : Run BufferStep (pure (create 0 0)) moved s := hroomy.mono fun _ _ _ h => h.1
  exact ⟨s, hrun, hcompacted, hgrown, (assertions_hold_iff hrun).mpr hroomy⟩

theorem writableBytes_create : (create 0 0).writableBytes = initialSize := by
  rw [create, writableBytes, List.length_replicate, Nat.sub_zero]

theorem ok_append_create {data : List UInt8} (h : data.length = initialSize) :
    ((create 0 0).append data).ok = false := by
  have hfills : (create 0 0).Fills data.length := by
    rw [Fills, writableBytes_create, h, if_pos (Nat.le_refl _)]
  have hok := Represents.create.ok_append data
  rw [iff_false_right (not_not_intro hfills)] at hok
  exact Bool.eq_false_iff.mpr hok

/-- A first message that fills the new buffer to the last byte. -/
theorem append_full_fails : ∃ s : Checked Buffer,
    Run BufferStep (pure (create 0 0)) [.append (List.replicate initialSize 0)] s ∧
      s.ok = false := by
  have hok := ok_append_create (@List.length_replicate UInt8 initialSize 0)
  refine ⟨_, Run.single ⟨trivial, rfl⟩, ?_⟩
  rw [Checked.ok_bind, Checked.val_pure, Bool.and_eq_false_iff]
  exact Or.inr hok

end Buffer

end LearnMuduo
