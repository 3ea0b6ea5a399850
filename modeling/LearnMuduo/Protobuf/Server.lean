import LearnMuduo.Protobuf.Decode
import LearnMuduo.Protobuf.RequestCodec

/-!
# The protobuf server

`Server` gives the messages of the codec to a dispatcher, which has a callback for queries. What a
connection comes to depends on its byte stream alone. A query is answered by setting the second
data value of an answer that has none.
-/

namespace LearnMuduo

open Framework

variable {UnknownField : Type}

/-- `datavalue_.Mutable(index)->assign(value)`, which is undefined without such an element. -/
def AnswerResults.Fields.setDataValue (fields : AnswerResults.Fields) (index : Int)
    (value : List UInt8) : Option AnswerResults.Fields :=
  if 0 ≤ index ∧ index < fields.dataValue.length then
    some { fields with dataValue := fields.dataValue.set index.toNat value }
  else none

/-- A connection as the server's callbacks see it: `isConnected`, and what was sent on it. -/
structure ServerConn (UnknownField : Type) where
  connected : Bool
  sent : List (RequestMessage UnknownField)

namespace ServerConn

def shutdown_mt (conn : ServerConn UnknownField) : ServerConn UnknownField :=
  { conn with connected := false }

/-- `ProtobufCodec::send`; nothing is sent on a connection that is not up. -/
def send (conn : ServerConn UnknownField) (message : RequestMessage UnknownField) :
    ServerConn UnknownField :=
  if conn.connected then { conn with sent := conn.sent ++ [message] } else conn

end ServerConn

/-- `none` is undefined behaviour. -/
def MessageCallback (UnknownField : Type) : Type :=
  ServerConn UnknownField → RequestMessage UnknownField → Option (ServerConn UnknownField)

structure DispatcherLite (UnknownField : Type) where
  defaultCallback : MessageCallback UnknownField
  callbackMap : MessageType → Option (MessageCallback UnknownField)

namespace DispatcherLite

def create (defaultCb : MessageCallback UnknownField) : DispatcherLite UnknownField :=
  ⟨defaultCb, fun _ => none⟩

def registerMessageCallback (d : DispatcherLite UnknownField) (desc : MessageType)
    (messageCb : MessageCallback UnknownField) : DispatcherLite UnknownField :=
  { d with callbackMap := Function.update d.callbackMap desc (some messageCb) }

def onProtobufMessage (d : DispatcherLite UnknownField) (conn : ServerConn UnknownField)
    (message : RequestMessage UnknownField) : Option (ServerConn UnknownField) :=
  match d.callbackMap message.type with
  | some callback => callback conn message
  | none => d.defaultCallback conn message

end DispatcherLite

namespace Server

open ProtobufCodec

def onUnknownMessage : MessageCallback UnknownField := fun conn _ => some conn.shutdown_mt

def onQueryResults (w : WireFormat UnknownField) : MessageCallback UnknownField :=
  fun conn message =>
    if message.type = .queryResults then do
      let answer : AnswerResults.Fields := (AnswerResults.code w).clear
      let answer := { answer with page_number := 99 }
      let answer ← answer.setDataValue 1 (nameBytes "this the first answer")
      pure (conn.send ⟨.answerResults, ⟨answer, []⟩⟩)
    else pure conn

def dispatcher (w : WireFormat UnknownField) : DispatcherLite UnknownField :=
  (DispatcherLite.create onUnknownMessage).registerMessageCallback .queryResults (onQueryResults w)

/-- The codec's own callback for errors. -/
def defaultErrorCallback (conn : ServerConn UnknownField) : ServerConn UnknownField :=
  if conn.connected then conn.shutdown_mt else conn

/-- A connection, with its receive buffer. -/
structure Serving (UnknownField : Type) where
  buf : Buffer
  conn : ServerConn UnknownField

/-- A chunk arrives, and the codec calls the dispatcher for the messages in it, and then for an
error, if there is one, its callback for errors. -/
def onMessage (w : WireFormat UnknownField) (adler32 : BitVec 32 → List UInt8 → BitVec 32)
    (s : Serving UnknownField) (chunk : List UInt8) : Option (Serving UnknownField) := do
  let received := ProtobufCodec.onMessage (requestRuntime w adler32) (s.buf.append chunk).val
  let conn ← received.delivered.foldlM (dispatcher w).onProtobufMessage s.conn
  pure ⟨received.buf, received.errors.foldl (fun conn _ => defaultErrorCallback conn) conn⟩

/-- What a stream comes to on a connection: undefined behaviour if there is a query among its
messages, and otherwise a connection that stays up if there was no message and no error. -/
def outcome (conn : ServerConn UnknownField)
    (drained : Drained UInt8 (RequestMessage UnknownField) ErrorCode) :
    Option (ServerConn UnknownField) :=
  if drained.messages.any (fun message => message.type = .queryResults) then none
  else some ⟨conn.connected && drained.messages.isEmpty && drained.error.isNone, conn.sent⟩

theorem outcome_append {conn : ServerConn UnknownField}
    {before after : Drained UInt8 (RequestMessage UnknownField) ErrorCode}
    (herror : ∀ e, before.error = some e → after.messages = [] ∧ after.error = some e) :
    (outcome conn before).bind (fun conn' => outcome conn' after) =
      outcome conn ⟨before.messages ++ after.messages, after.error, after.rest⟩ := by
  simp only [outcome, List.any_append, Bool.or_eq_true]
  by_cases hquery : before.messages.any (fun message => message.type = .queryResults) = true
  · simp [hquery]
  · simp only [hquery, false_or, Bool.false_eq_true, if_false, Option.bind_some]
    cases he : before.error with
    | none => cases before.messages <;> simp [Bool.and_assoc]
    | some e => simp [herror e he]

variable {w : WireFormat UnknownField} {adler32 : BitVec 32 → List UInt8 → BitVec 32}

/-- The result of a stream on a connection, with what the decoder left of it in the buffer. -/
structure Comes (conn : ServerConn UnknownField)
    (drained : Drained UInt8 (RequestMessage UnknownField) ErrorCode)
    (result : Option (Serving UnknownField)) : Prop where
  conn : result.map Serving.conn = outcome conn drained
  buf : ∀ s, result = some s → s.buf.Represents drained.rest

theorem Comes.bind {conn : ServerConn UnknownField}
    {before after : Drained UInt8 (RequestMessage UnknownField) ErrorCode}
    {result : Option (Serving UnknownField)}
    {next : Serving UnknownField → Option (Serving UnknownField)}
    (h : Comes conn before result)
    (herror : ∀ e, before.error = some e → after.messages = [] ∧ after.error = some e)
    (hnext : ∀ s, result = some s → Comes s.conn after (next s)) :
    Comes conn ⟨before.messages ++ after.messages, after.error, after.rest⟩ (result.bind next) where
  conn := by
    rw [← outcome_append herror, ← h.conn]
    cases result with
    | none => rfl
    | some s => exact (hnext s rfl).conn
  buf := by
    intro s hs
    obtain ⟨s₀, hs₀, hs⟩ := Option.bind_eq_some_iff.mp hs
    exact (hnext s₀ hs₀).buf s hs

end Server

end LearnMuduo
