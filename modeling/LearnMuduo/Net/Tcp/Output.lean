import LearnMuduo.Framework.Run
import LearnMuduo.Net.Tcp.Connection

/-!
# The output stream of a connection

The stream is what the kernel took followed by the backlog. Every event of the loop thread
extends it by the bytes that `sendInLoop` hands over; those are the message's own bytes, except
when a direct write is answered `EWOULDBLOCK` and the backlog is filled from `message + sent`
with `sent` equal to -1.
-/

namespace LearnMuduo

open Framework

/-- What a nonblocking `::write` of `requested` bytes may answer. -/
def WriteResult.Answers (result : WriteResult) (requested : Nat) : Prop :=
  match result with
  | .accepted count => count ≤ requested
  | .failed errno => errno = .ewouldblock

instance (result : WriteResult) (requested : Nat) : Decidable (result.Answers requested) :=
  match result with
  | .accepted count => inferInstanceAs (Decidable (count ≤ requested))
  | .failed errno => inferInstanceAs (Decidable (errno = .ewouldblock))

namespace Memory

theorem read_natCast (m : Memory) {n len : Nat} (h : n + len = m.bytes.length) :
    m.read n len = m.bytes.drop n := by
  have hoffset : ((n : Int) + 1).toNat = n + 1 := by omega
  rw [read, hoffset, List.drop_succ_cons]
  apply List.take_of_length_le
  rw [List.length_drop]
  omega

/-- Reading from one byte before the memory shifts its bytes, which shows unless all are equal. -/
theorem read_neg_one_eq_iff (m : Memory) :
    m.read (-1) m.bytes.length = m.bytes ↔ ∀ b ∈ m.bytes, b = m.before := by
  rcases m with ⟨before, bytes⟩
  show (before :: bytes).take bytes.length = bytes ↔ ∀ b ∈ bytes, b = before
  induction bytes generalizing before with
  | nil => simp
  | cons b bytes ih =>
      rw [List.length_cons, List.take_succ_cons, List.cons.injEq, ih b]
      constructor
      · intro hequal
        rcases hequal with ⟨rfl, hall⟩
        intro x hx
        rcases List.mem_cons.mp hx with rfl | hx
        · rfl
        · exact hall x hx
      · intro hall
        have hb : b = before := hall b (by simp)
        refine ⟨hb.symm, fun x hx => ?_⟩
        rw [hall x (by simp [hx]), hb]

end Memory

namespace TcpConnection

inductive OutputEvent
  | send (message : Memory) (result : WriteResult)
  | writable (result : WriteResult)
  deriving DecidableEq, Repr

def output (c : TcpConnection) : OutputEvent → TcpConnection
  | .send message result => (c.sendInLoop message message.bytes.length result).val
  | .writable result => (c.handleWrite result).val

/-- The kernel's answers fit their requests, and messages are shorter than 2^31 bytes. -/
def Legal (c : TcpConnection) : OutputEvent → Prop
  | .send message result =>
      message.bytes.length < 2 ^ 31 ∧ result.Answers message.bytes.length
  | .writable result => result.Answers c.sendBuf.readableBytes

def OutputStep (c : TcpConnection) (e : OutputEvent) (c' : TcpConnection) : Prop :=
  c.Legal e ∧ c' = c.output e

def outputStream (c : TcpConnection) : List UInt8 := c.socket.accepted ++ c.sendBuf.readable

def OutputEvent.message : OutputEvent → List UInt8
  | .send message _ => message.bytes
  | .writable _ => []

/-- The concatenation of the messages sent by `es`, in call order. -/
def messages (es : List OutputEvent) : List UInt8 := es.flatMap OutputEvent.message

/-- A direct write of a message is blocked, and shifting the message by a byte changes it. -/
def Shifts (c : TcpConnection) : OutputEvent → Prop
  | .send message (.failed _) =>
      c.writesDirectly = true ∧ ∃ b ∈ message.bytes, b ≠ message.before
  | _ => False

/-- The bytes by which an event extends the stream. -/
def enqueued (c : TcpConnection) : OutputEvent → List UInt8
  | .send message (.failed _) =>
      if c.writesDirectly then message.read (-1) message.bytes.length else message.bytes
  | e => e.message

theorem enqueued_eq_message_iff (c : TcpConnection) (e : OutputEvent) :
    c.enqueued e = e.message ↔ ¬ c.Shifts e := by
  cases e with
  | writable result => simp [enqueued, Shifts]
  | send message result =>
      cases result with
      | accepted count => simp [enqueued, Shifts]
      | failed errno =>
          cases hdirect : c.writesDirectly with
          | false => simp [enqueued, Shifts, OutputEvent.message, hdirect]
          | true =>
              simp only [enqueued, Shifts, OutputEvent.message, hdirect, if_true, true_and]
              rw [message.read_neg_one_eq_iff]
              push Not
              rfl

/-- The connection is up, its backlog represents `backlog`, and the kernel has `taken`. -/
structure Backlogged (c : TcpConnection) (taken backlog : List UInt8) : Prop where
  up : c.state ≠ .disconnected
  backlog : c.sendBuf.Represents backlog
  taken : c.socket.accepted = taken

theorem Backlogged.outputStream_eq {c : TcpConnection} {taken backlog : List UInt8}
    (h : c.Backlogged taken backlog) : c.outputStream = taken ++ backlog := by
  rw [outputStream, h.taken, h.backlog.readable_eq]

section Frame

variable {c : TcpConnection} {taken backlog : List UInt8}

theorem Backlogged.call (h : c.Backlogged taken backlog) (callback : Call) :
    (c.call callback).Backlogged taken backlog :=
  ⟨h.up, h.backlog, h.taken⟩

theorem Backlogged.postWriteComplete (h : c.Backlogged taken backlog) :
    c.postWriteComplete.Backlogged taken backlog := by
  rw [TcpConnection.postWriteComplete]
  split
  · exact h.call .writeComplete
  · exact h

theorem Backlogged.setChannel (h : c.Backlogged taken backlog) (channel : Channel) :
    { c with channel := channel }.Backlogged taken backlog :=
  ⟨h.up, h.backlog, h.taken⟩

theorem Backlogged.accept (h : c.Backlogged taken backlog) (bytes : List UInt8) :
    { c with socket := c.socket.accept bytes }.Backlogged (taken ++ bytes) backlog :=
  ⟨h.up, h.backlog, congrArg (· ++ bytes) h.taken⟩

theorem Backlogged.shutdownInLoop (h : c.Backlogged taken backlog) :
    c.shutdownInLoop.Backlogged taken backlog := by
  rw [TcpConnection.shutdownInLoop]
  split
  · exact ⟨h.up, h.backlog, h.taken⟩
  · exact h

theorem Backlogged.appendRemaining (h : c.Backlogged taken backlog) (message : Memory)
    (locals : SendLocals) (hremain : locals.remain < 2 ^ 31) :
    (c.appendRemaining message locals).val.Backlogged taken
      (backlog ++ message.read locals.sent locals.remain) := by
  have hint : sizeOfInt (intOfSize locals.remain) = locals.remain := by
    rw [intOfSize_of_lt hremain, sizeOfInt_natCast (by omega)]
  have happend := h.backlog.append (message.read locals.sent locals.remain)
  simp only [TcpConnection.appendRemaining, hint, Checked.val_bind, Checked.val_pure]
  split <;> split <;> (try split) <;>
    exact ⟨h.up, happend, h.taken⟩

end Frame

theorem Backlogged.handleWrite {c : TcpConnection} {taken backlog : List UInt8}
    (h : c.Backlogged taken backlog) {result : WriteResult} :
    ∃ n, (c.handleWrite result).val.Backlogged (taken ++ backlog.take n) (backlog.drop n) := by
  have hstay : c.Backlogged (taken ++ backlog.take 0) (backlog.drop 0) := by simpa using h
  rw [TcpConnection.handleWrite.eq_def]
  split
  · cases result with
    | failed errno => exact ⟨0, hstay⟩
    | accepted n =>
        dsimp only
        split
        · have hdrained : { c with
              socket := c.socket.accept (c.sendBuf.readable.take n)
              sendBuf := (c.sendBuf.retrieve n).val }.Backlogged
                (taken ++ backlog.take n) (backlog.drop n) := by
            have haccept := h.accept (c.sendBuf.readable.take n)
            rw [h.backlog.readable_eq] at haccept ⊢
            exact ⟨haccept.up, h.backlog.retrieve n, haccept.taken⟩
          refine ⟨n, ?_⟩
          simp only [Checked.val_bind, Checked.val_ite, Checked.val_pure]
          have hdone := (hdrained.setChannel c.channel.disableWrite).postWriteComplete
          split
          · split
            · exact hdone.shutdownInLoop
            · exact hdone
          · exact hdrained
        · exact ⟨0, hstay⟩
  · exact ⟨0, hstay⟩

theorem Backlogged.writeDirectly {c : TcpConnection} {taken backlog : List UInt8}
    (h : c.Backlogged taken backlog) (message : Memory) (n : Nat) :
    (c.writeDirectly message message.bytes.length (.accepted n)).1.Backlogged
      (taken ++ message.bytes.take n) backlog := by
  have haccept := h.accept (message.bytes.take n)
  simp only [TcpConnection.writeDirectly]
  split
  · exact haccept.postWriteComplete
  · exact haccept

theorem writesDirectly_backlog_nil {c : TcpConnection} {backlog : List UInt8}
    (h : c.sendBuf.Represents backlog) (hdirect : c.writesDirectly = true) : backlog = [] := by
  simp only [writesDirectly, Bool.and_eq_true, beq_iff_eq] at hdirect
  exact List.eq_nil_of_length_eq_zero (h.length_eq ▸ hdirect.2)

/-- What `sendInLoop` does to the kernel's bytes and the backlog, as one queue. -/
theorem Backlogged.sendInLoop {c : TcpConnection} {taken backlog : List UInt8}
    (h : c.Backlogged taken backlog) {message : Memory} {result : WriteResult}
    (hlegal : c.Legal (.send message result)) :
    ∃ taken' backlog',
      (c.sendInLoop message message.bytes.length result).val.Backlogged taken' backlog' ∧
      taken' ++ backlog' = taken ++ backlog ++ c.enqueued (.send message result) := by
  rcases hlegal with ⟨hlen, hanswer⟩
  rw [TcpConnection.sendInLoop, if_neg h.up]
  cases hdirect : c.writesDirectly with
  | false =>
      have henqueued : c.enqueued (.send message result) = message.bytes := by
        cases result <;> simp [enqueued, OutputEvent.message, hdirect]
      have hread : message.read 0 message.bytes.length = message.bytes :=
        message.read_natCast (n := 0) (Nat.zero_add _)
      rw [henqueued]
      by_cases hremain : 0 < message.bytes.length
      · have hqueue := h.appendRemaining message ⟨message.bytes.length, 0, false⟩ hlen
        rw [hread] at hqueue
        refine ⟨_, _, ?_, (List.append_assoc _ _ _).symm⟩
        simpa [hremain] using hqueue
      · have hnil : message.bytes = [] := List.eq_nil_of_length_eq_zero (by omega)
        refine ⟨taken, backlog, ?_, by simp [hnil]⟩
        simpa [hremain] using h
  | true =>
      have hempty : backlog = [] := writesDirectly_backlog_nil h.backlog hdirect
      subst hempty
      cases result with
      | accepted n =>
          have hn : n ≤ message.bytes.length := hanswer
          have hwritten := h.writeDirectly message n
          have hread : message.read n (message.bytes.length - n) = message.bytes.drop n :=
            message.read_natCast (by omega)
          refine ⟨taken ++ message.bytes.take n, message.bytes.drop n, ?_, ?_⟩
          · by_cases hremain : 0 < message.bytes.length - n
            · have hqueue := hwritten.appendRemaining message
                ⟨message.bytes.length - n, n, false⟩ (by simp only; omega)
              rw [hread] at hqueue
              simpa [TcpConnection.writeDirectly, hremain] using hqueue
            · have hdrop : message.bytes.drop n = [] := List.drop_eq_nil_of_le (by omega)
              rw [hdrop]
              simpa [TcpConnection.writeDirectly, hremain] using hwritten
          · simp [enqueued, OutputEvent.message]
      | failed errno =>
          have herrno : errno = .ewouldblock := hanswer
          subst herrno
          have hfault :
              (Errno.ewouldblock == .epipe || Errno.ewouldblock == .econnreset) = false := by
            decide
          simp only [enqueued, hdirect, if_true]
          by_cases hremain : 0 < message.bytes.length
          · have hqueue := h.appendRemaining message ⟨message.bytes.length, -1, false⟩ hlen
            refine ⟨_, _, ?_, (List.append_assoc _ _ _).symm⟩
            simpa [TcpConnection.writeDirectly, hremain, hfault] using hqueue
          · have hzero : message.bytes.length = 0 := by omega
            refine ⟨taken, [], ?_, by simp [Memory.read, hzero]⟩
            simpa [TcpConnection.writeDirectly, hremain] using h

theorem Backlogged.output {c : TcpConnection} {taken backlog : List UInt8}
    (h : c.Backlogged taken backlog) {e : OutputEvent} (hlegal : c.Legal e) :
    ∃ taken' backlog', (c.output e).Backlogged taken' backlog' ∧
      taken' ++ backlog' = taken ++ backlog ++ c.enqueued e := by
  cases e with
  | send message result => exact h.sendInLoop hlegal
  | writable result =>
      obtain ⟨n, hn⟩ := @Backlogged.handleWrite _ _ _ h result
      refine ⟨_, _, hn, ?_⟩
      simp [enqueued, OutputEvent.message]

/-- The connection is up and its backlog is a queue. -/
def Up (c : TcpConnection) : Prop := ∃ taken backlog, c.Backlogged taken backlog

theorem OutputStep.up {c c' : TcpConnection} {e : OutputEvent} (h : c.Up)
    (hstep : OutputStep c e c') : c'.Up := by
  rcases h with ⟨taken, backlog, hbacklogged⟩
  rcases hstep with ⟨hlegal, rfl⟩
  obtain ⟨taken', backlog', hnext, -⟩ := hbacklogged.output hlegal
  exact ⟨taken', backlog', hnext⟩

theorem OutputStep.outputStream_eq {c c' : TcpConnection} {e : OutputEvent} (h : c.Up)
    (hstep : OutputStep c e c') : c'.outputStream = c.outputStream ++ c.enqueued e := by
  rcases h with ⟨taken, backlog, hbacklogged⟩
  rcases hstep with ⟨hlegal, rfl⟩
  obtain ⟨taken', backlog', hnext, hstream⟩ := hbacklogged.output hlegal
  rw [hnext.outputStream_eq, hbacklogged.outputStream_eq, hstream]

theorem messages_snoc (es : List OutputEvent) (e : OutputEvent) :
    messages (es ++ [e]) = messages es ++ e.message := by
  simp [messages]

/-- A step that does not hand the backlog bytes from one before the message. -/
def UnshiftedStep (c : TcpConnection) (e : OutputEvent) (c' : TcpConnection) : Prop :=
  OutputStep c e c' ∧ ¬ c.Shifts e

theorem outputStep_deterministic (c : TcpConnection) (e : OutputEvent) (u u' : TcpConnection)
    (h : OutputStep c e u) (h' : OutputStep c e u') : u = u' :=
  h.2.trans h'.2.symm

theorem outputStream_eq_messages {c₀ c : TcpConnection} {es : List OutputEvent} (h₀ : c₀.Up)
    (hrun : Run UnshiftedStep c₀ es c) :
    c.outputStream = c₀.outputStream ++ messages es := by
  induction hrun with
  | nil => simp [messages]
  | @snoc es t e u hrun hstep ih =>
      have hup : t.Up := hrun.invariant (fun _ _ _ h he => he.1.up h) h₀
      have hmessage : t.enqueued e = e.message := (t.enqueued_eq_message_iff e).mpr hstep.2
      rw [hstep.1.outputStream_eq hup, hmessage, ih, messages_snoc, List.append_assoc]

/-- After every prefix of the events `es` the stream holds exactly the messages sent by then. -/
def StreamsMessages (c₀ : TcpConnection) (es : List OutputEvent) : Prop :=
  ∀ es' c', es' <+: es → Run OutputStep c₀ es' c' →
    c'.outputStream = c₀.outputStream ++ messages es'

/-- The stream holds exactly the messages all along a run if and only if no step of the run is a
blocked direct write of a message that a shift by one byte changes. -/
theorem outputStream_eq_messages_iff {c₀ c : TcpConnection} {es : List OutputEvent}
    {backlog : List UInt8} (hup : c₀.state ≠ .disconnected)
    (hbacklog : c₀.sendBuf.Represents backlog) (hrun : Run OutputStep c₀ es c) :
    StreamsMessages c₀ es ↔ Run UnshiftedStep c₀ es c := by
  have h₀ : c₀.Up := ⟨_, backlog, hup, hbacklog, rfl⟩
  constructor
  · intro hstream
    induction hrun with
    | nil => exact Run.nil
    | @snoc es t e u hrun hstep ih =>
        have hguarded : Run UnshiftedStep c₀ es t :=
          ih fun es' c' hpre => hstream es' c' (hpre.trans (List.prefix_append es [e]))
        have ht := outputStream_eq_messages h₀ hguarded
        have hu := hstream _ u (List.prefix_refl _) (hrun.snoc hstep)
        have htup : t.Up := hrun.invariant (fun _ _ _ h he => he.up h) h₀
        rw [hstep.outputStream_eq htup, ht, messages_snoc, ← List.append_assoc] at hu
        have hmessage : t.enqueued e = e.message := List.append_cancel_left hu
        exact hguarded.snoc ⟨hstep, (t.enqueued_eq_message_iff e).mp hmessage⟩
  · intro hguarded es' c' hpre
    rcases hpre with ⟨fs, rfl⟩
    intro hrun'
    rcases hguarded.exists_of_append with ⟨t, hfirst, -⟩
    have hfirst' : Run OutputStep c₀ es' t := hfirst.mono fun _ _ _ he => he.1
    have hsame : c' = t := hrun'.unique outputStep_deterministic hfirst'
    exact hsame ▸ outputStream_eq_messages h₀ hfirst

/-- An established connection on descriptor 5 that has sent nothing yet. -/
def fresh : TcpConnection := (create 5 [] false).connectionEstablished.val

theorem fresh_backlogged : fresh.Backlogged [] [] :=
  ⟨by decide, Buffer.Represents.create, rfl⟩

/-- The message `[1, 2]`, with a zero byte in the memory before it, sent into a full socket. -/
def blockedSend : OutputEvent := .send ⟨0, [1, 2]⟩ (.failed .ewouldblock)

theorem blockedSend_step : OutputStep fresh blockedSend (fresh.output blockedSend) :=
  ⟨⟨by decide, rfl⟩, rfl⟩

/-- The backlog gets the byte before the message and loses its last byte. -/
theorem blockedSend_shifts :
    fresh.state ≠ .disconnected ∧ fresh.sendBuf.Represents [] ∧
      Run OutputStep fresh [blockedSend] (fresh.output blockedSend) ∧
      (fresh.output blockedSend).outputStream = [0, 1] ∧
      fresh.outputStream ++ messages [blockedSend] = [1, 2] ∧
      ¬ StreamsMessages fresh [blockedSend] := by
  have hup : fresh.Up := ⟨_, _, fresh_backlogged⟩
  have hstart : fresh.outputStream = [] := fresh_backlogged.outputStream_eq
  have hrun : Run OutputStep fresh [blockedSend] (fresh.output blockedSend) :=
    Run.single blockedSend_step
  have hshifted : (fresh.output blockedSend).outputStream = [0, 1] := by
    rw [blockedSend_step.outputStream_eq hup, hstart]
    decide
  have hmessages : fresh.outputStream ++ messages [blockedSend] = [1, 2] := by
    rw [hstart]
    rfl
  refine ⟨fresh_backlogged.up, fresh_backlogged.backlog, hrun, hshifted, hmessages, ?_⟩
  intro hstream
  have hsame := hstream _ _ (List.prefix_refl _) hrun
  rw [hshifted, hmessages] at hsame
  exact absurd hsame (by decide)

/-- The same message while the socket has room for its first byte. -/
def partialSend : OutputEvent := .send ⟨0, [1, 2]⟩ (.accepted 1)

theorem outputStream_eq_messages_partialSend : StreamsMessages fresh [partialSend] := by
  have hstep : OutputStep fresh partialSend (fresh.output partialSend) :=
    ⟨⟨by decide, by decide⟩, rfl⟩
  have hunshifted : ¬ fresh.Shifts partialSend := not_false
  exact (outputStream_eq_messages_iff fresh_backlogged.up fresh_backlogged.backlog
    (Run.single hstep)).mpr (Run.single ⟨hstep, hunshifted⟩)

end TcpConnection

end LearnMuduo
