import LearnMuduo.Net.Buffer.Queue

/-!
# Sending a buffer from another thread

`send_mt(Buffer*)` on the loop thread sends the readable bytes at once. From another thread it
posts a task that keeps the pointer, and returns: what is sent is what the `Buffer` holds when the
task runs, after everything that its owner did with it in between.
-/

namespace LearnMuduo

open Framework

/-- The memory that `getReadPos()` points to. -/
def Buffer.memory (b : Buffer) : Memory where
  before := (b.vec.take b.readPos).getLastD 0
  bytes := b.getReadPos

/-- A connection and the caller's `Buffer`, which is gone once its owner has destroyed it. -/
structure BufferSend where
  conn : TcpConnection
  message : Option Buffer
  /-- how many tasks that call `send_mt(message)` are queued -/
  posted : Nat
  /-- the bytes given to each call of `sendInLoop`; none where the `Buffer` was gone -/
  handed : List (Option (List UInt8))
  deriving DecidableEq, Repr

namespace BufferSend

/-- What `send_mt(message)` does on the loop thread. What a pointer to a destroyed `Buffer` gives is
unknown. -/
def sendNow (s : BufferSend) (result : WriteResult) : Checked BufferSend :=
  match s.message with
  | none => pure { s with handed := s.handed ++ [none] }
  | some b => do
      let conn ← s.conn.sendInLoop b.memory b.readableBytes result
      pure { s with
        conn := conn
        message := some b.retrieveAll
        handed := s.handed ++ [some b.readable] }

/-- `result` is what `::write` answers if it is called. -/
def send_mt (s : BufferSend) (inLoopThread : Bool) (result : WriteResult) : Checked BufferSend :=
  if s.conn.state = .connected then
    if inLoopThread then s.sendNow result
    else pure { s with posted := s.posted + 1 }
  else pure s

/-- A posted task runs on the loop thread. -/
def runTask (s : BufferSend) (result : WriteResult) : Checked BufferSend :=
  { s with posted := s.posted - 1 }.send_mt true result

end BufferSend

/-- What can happen between the call and its task. -/
inductive Meanwhile
  /-- the caller uses its `Buffer` -/
  | change (op : BufferOp)
  | destroy
  /-- the connection is in the state `conn` after something else -/
  | connection (conn : TcpConnection)
  /-- a task posted by an earlier call with the same `Buffer` runs -/
  | task (result : WriteResult)
  deriving DecidableEq, Repr

/-- The connection stays connected. -/
inductive MeanwhileStep : BufferSend → Meanwhile → BufferSend → Prop
  | change {s : BufferSend} {b : Buffer} {op : BufferOp} :
      s.message = some b → op.Fits b →
      MeanwhileStep s (.change op) { s with message := some (op.apply b).val }
  | destroy {s : BufferSend} : MeanwhileStep s .destroy { s with message := none }
  | connection {s : BufferSend} {conn : TcpConnection} :
      conn.state = .connected → MeanwhileStep s (.connection conn) { s with conn := conn }
  | task {s : BufferSend} {result : WriteResult} :
      1 < s.posted → (s.runTask result).val.conn.state = .connected →
      MeanwhileStep s (.task result) (s.runTask result).val

/-- What happens to the queue of readable bytes. A task takes all of them. -/
def Meanwhile.toFifo : Meanwhile → FifoOp UInt8
  | .change op => op.toFifo
  | .task _ => .clear
  | _ => .keep

/-- As many bytes are taken out as are put in, what is then left is `q` again, and the `Buffer` is
still there. -/
def Restores (q : List UInt8) (es : List Meanwhile) : Prop :=
  .destroy ∉ es ∧
    Fifo.removed q (es.map Meanwhile.toFifo) =
      (Fifo.added (es.map Meanwhile.toFifo)).length ∧
    (q ++ Fifo.added (es.map Meanwhile.toFifo)).drop
      (Fifo.added (es.map Meanwhile.toFifo)).length = q

namespace Meanwhile

/-- The content after `e`. -/
def after (q : Option (List UInt8)) : Meanwhile → Option (List UInt8)
  | .destroy => none
  | e => q.map e.toFifo.apply

/-- What is left of `q` after `es`. -/
def afterAll (q : List UInt8) (es : List Meanwhile) : Option (List UInt8) :=
  if .destroy ∈ es then none else some (Fifo.run q (es.map toFifo))

theorem afterAll_append_singleton (q : List UInt8) (es : List Meanwhile)
    (e : Meanwhile) :
    afterAll q (es ++ [e]) = after (afterAll q es) e := by
  by_cases hes : .destroy ∈ es
  · have hall : .destroy ∈ es ++ [e] := List.mem_append_left _ hes
    rw [afterAll, afterAll, if_pos hes, if_pos hall]
    cases e <;> rfl
  · by_cases he : e = .destroy
    · subst he
      simp [afterAll, after]
    · have hall : .destroy ∉ es ++ [e] := by
        simp [hes, Ne.symm he]
      rw [afterAll, afterAll, if_neg hes, if_neg hall, List.map_append, List.map_singleton,
        Fifo.run_append_singleton]
      cases e with
      | destroy => exact absurd rfl he
      | change op => rfl
      | connection conn => rfl
      | task result => rfl

theorem afterAll_eq_iff (q : List UInt8) (es : List Meanwhile) :
    afterAll q es = some q ↔ Restores q es := by
  rw [afterAll, Restores]
  by_cases hes : .destroy ∈ es
  · simp [hes]
  · simp only [hes, if_false, Option.some.injEq, not_false_eq_true, true_and]
    exact Fifo.run_eq_self_iff q _

end Meanwhile

namespace BufferSend

variable {s u : BufferSend} {b : Buffer} {q : List UInt8} {e : Meanwhile} {es : List Meanwhile}

theorem handed_sendNow (s : BufferSend) (result : WriteResult) :
    (s.sendNow result).val.handed = s.handed ++ [s.message.map Buffer.readable] := by
  rw [sendNow]
  cases s.message with
  | none => rfl
  | some b => rfl

theorem message_sendNow (s : BufferSend) (result : WriteResult) :
    (s.sendNow result).val.message = s.message.map Buffer.retrieveAll := by
  rw [sendNow]
  cases s.message with
  | none => rfl
  | some b => rfl

theorem runTask_of_connected (hconn : s.conn.state = .connected) (result : WriteResult) :
    (s.runTask result).val.handed = s.handed ++ [s.message.map Buffer.readable] ∧
      (s.runTask result).val.message = s.message.map Buffer.retrieveAll := by
  rw [runTask, send_mt, if_pos hconn, if_pos rfl]
  exact ⟨handed_sendNow _ result, message_sendNow _ result⟩

/-- The connection is up, and the `Buffer` is there and holds `q`, or is gone. -/
structure Holds (s : BufferSend) (q : Option (List UInt8)) : Prop where
  connected : s.conn.state = .connected
  content : match q with
    | none => s.message = none
    | some q => ∃ b, s.message = some b ∧ b.Represents q

theorem Holds.step {q : Option (List UInt8)} (h : s.Holds q) (hstep : MeanwhileStep s e u) :
    u.Holds (Meanwhile.after q e) := by
  cases hstep with
  | @change b op hb hfits =>
      refine ⟨h.connected, ?_⟩
      cases q with
      | none => exact absurd (hb.symm.trans h.content) (Option.some_ne_none b)
      | some q =>
          obtain ⟨b', hb', hq⟩ := h.content
          have hsame : b' = b := Option.some.inj (hb'.symm.trans hb)
          subst hsame
          exact ⟨_, rfl, hq.apply hfits⟩
  | destroy => exact ⟨h.connected, rfl⟩
  | connection hconn =>
      refine ⟨hconn, ?_⟩
      cases q with
      | none => exact h.content
      | some q => exact h.content
  | @task result _ hconn =>
      have hmessage := (runTask_of_connected h.connected result).2
      refine ⟨hconn, ?_⟩
      cases q with
      | none =>
          show (s.runTask result).val.message = none
          rw [hmessage, show s.message = none from h.content]
          rfl
      | some q =>
          obtain ⟨b', hb', hq⟩ := h.content
          refine ⟨b'.retrieveAll, ?_, Buffer.Represents.retrieveAll b'⟩
          rw [hmessage, hb']
          rfl

theorem Holds.run (h : s.Holds (some q)) (hrun : Run MeanwhileStep s es u) :
    u.Holds (Meanwhile.afterAll q es) := by
  induction hrun with
  | nil => exact h
  | snoc _ hstep ih =>
      rw [Meanwhile.afterAll_append_singleton]
      exact ih.step hstep

theorem Holds.readable {q : Option (List UInt8)} (h : s.Holds q) :
    s.message.map Buffer.readable = q := by
  cases q with
  | none =>
      rw [show s.message = none from h.content]
      rfl
  | some q =>
      obtain ⟨b, hb, hq⟩ := h.content
      rw [hb, ← hq.readable_eq]
      rfl

/-- On the loop thread the bytes of the `Buffer` are handed over as they are. From another thread
they are exactly when the caller puts the content back before the task runs. -/
theorem handed_iff_restores (hconn : s.conn.state = .connected) (hmessage : s.message = some b)
    (hq : b.Represents q) (first result : WriteResult)
    (h : Run MeanwhileStep (s.send_mt false first).val es u) :
    (s.send_mt true first).val.handed = s.handed ++ [some q] ∧
      ((u.runTask result).val.handed = u.handed ++ [some q] ↔ Restores q es) := by
  have hposted : (s.send_mt false first).val = { s with posted := s.posted + 1 } := by
    rw [send_mt, if_pos hconn]
    rfl
  have hnow : s.Holds (some q) := ⟨hconn, b, hmessage, hq⟩
  have hcall : (s.send_mt false first).val.Holds (some q) := by
    rw [hposted]
    exact ⟨hconn, b, hmessage, hq⟩
  constructor
  · rw [send_mt, if_pos hconn, if_pos rfl, handed_sendNow, hnow.readable]
  · have hu := hcall.run h
    have hhanded := (runTask_of_connected hu.connected result).1
    rw [hhanded, hu.readable, ← Meanwhile.afterAll_eq_iff, List.append_cancel_left_eq,
      List.singleton_inj]

/-- A new connection is established, and the caller has put one byte into a new `Buffer`. -/
def oneByte : BufferSend where
  conn := (TcpConnection.create 5 [] false).connectionEstablished.val
  message := some ((Buffer.create 0 0).append [1]).val
  posted := 0
  handed := []

theorem represents_oneByte : ((Buffer.create 0 0).append [1]).val.Represents [1] :=
  Buffer.Represents.create.append [1]

/-- The caller asks for room and then leaves the `Buffer` alone. -/
theorem handed_iff_restores_oneByte : ∃ u : BufferSend,
    (oneByte.send_mt true (.accepted 1)).val.handed = [some [1]] ∧
      ((u.runTask (.accepted 1)).val.handed = u.handed ++ [some [1]] ↔
        Restores [1] [.change (.ensureSpace 8)]) := by
  have hstep : MeanwhileStep (oneByte.send_mt false (.accepted 1)).val
      (.change (.ensureSpace 8)) _ := .change rfl trivial
  exact ⟨_, handed_iff_restores rfl rfl represents_oneByte (.accepted 1) (.accepted 1)
    (Run.single hstep)⟩

/-- The caller uses the `Buffer` for its next message, and the task sends that one. -/
theorem handed_next_message : ∃ u : BufferSend,
    Run MeanwhileStep (oneByte.send_mt false (.accepted 1)).val
      [.change .retrieveAll, .change (.append [2])] u ∧
    (u.runTask (.accepted 1)).val.handed = [some [2]] ∧
    (oneByte.send_mt true (.accepted 1)).val.handed = [some [1]] := by
  have hcall : (oneByte.send_mt false (.accepted 1)).val.Holds (some [1]) :=
    ⟨rfl, _, rfl, represents_oneByte⟩
  have hnow : oneByte.Holds (some [1]) := ⟨rfl, _, rfl, represents_oneByte⟩
  have hrun : Run MeanwhileStep (oneByte.send_mt false (.accepted 1)).val
      [.change .retrieveAll, .change (.append [2])] _ :=
    (Run.nil.snoc (.change rfl trivial)).snoc (.change rfl trivial)
  have hu := hcall.run hrun
  refine ⟨_, hrun, ?_, ?_⟩
  · rw [(runTask_of_connected hu.connected _).1, hu.readable]
    rfl
  · rw [send_mt, if_pos hnow.connected, if_pos rfl, handed_sendNow, hnow.readable]
    rfl

end BufferSend

end LearnMuduo
