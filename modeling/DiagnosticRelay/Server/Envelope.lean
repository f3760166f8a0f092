import DiagnosticRelay.Server.Lifecycle

/-!
# Envelopes

On the wire every message is a JSON object. Calls have a method, requests and
their answers have an id, and an answer carries the id of its request.

## Main definitions

* `Incoming`: what an editor sends.
* `Incoming.ofValue?`: what a value is on the wire.
* `Answer.envelope?`, `Message.envelope`: what the server sends.
* `Server.take`, `Server.takeAll`: what values on the wire do.
-/

namespace DiagnosticRelay

open Json (Value)

/-- What an editor sends. -/
inductive Incoming where
  /-- A call; with an id it wants an answer. -/
  | call (id : Option Value) (call : Call)
  /-- The reply to a query of the server. -/
  | reply (id : Value) (reply : Reply)

namespace Envelope

/-- The version that every message states. -/
def version : String × Value := ("jsonrpc", .string "2.0")

/-- The JSON of a fault. -/
def ofFault (f : CallFault) : Value :=
  .object ([("code", .int f.code), ("message", .string f.message)] ++ memberOf "data" f.data?)

/-- The answer to a request that has a result. -/
def ofResult (id result : Value) : Value := .object [version, ("result", result), ("id", id)]

/-- The answer to a request that has none. -/
def ofRefusal (id : Value) (f : CallFault) : Value :=
  .object [version, ("error", ofFault f), ("id", id)]

end Envelope

namespace Incoming

/-- The reply of members without a method. -/
def replyOf (v : Value) : Reply :=
  match v.member? "result" with
  | some result => .result result
  | none => .refusal

/-- What a value is on the wire. -/
def ofValue? (v : Value) : Option Incoming :=
  match v.member? "method", v.member? "id" with
  | some (.scalar (.string method)), id =>
    some (.call id { method, params := v.member? "params", isRequest := id.isSome })
  | none, some id => some (.reply id (replyOf v))
  | _, _ => none

end Incoming

/-- The envelope of an answer to a request. -/
def Answer.envelope? (id : Value) : Answer → Option Value
  | .silence | .gone => none
  | .result v => some (Envelope.ofResult id v)
  | .fault f => some (Envelope.ofRefusal id f)

/-- The envelope of a message. Queries are numbered. -/
def Message.envelope (number : Nat) (m : Message) : Value :=
  let content := [Envelope.version, ("method", .string m.method), ("params", m.params)]
  match m with
  | .notice _ => .object content
  | .query _ => .object (content ++ [("id", .int number)])

namespace Server

/-- What an incoming message does, and the answer to it. -/
def takeIncoming (s : Server) : Option Incoming → Dialogue (Server × Option Value)
  | none => return (s, some (Envelope.ofRefusal .null .invalidRequest))
  | some (.reply _ _) => return (s, none)
  | some (.call id c) => do
    let (after, answer) ← s.receive c
    return (after, id.bind answer.envelope?)

/-- What a value on the wire does, and the answer to it. -/
def take (s : Server) (v : Value) : Dialogue (Server × Option Value) :=
  s.takeIncoming (Incoming.ofValue? v)

/-- Whether the server takes no more messages. -/
def isGone (s : Server) : Bool := s.phase = .exited

/-- What values on the wire do one after another, and the answers to them. -/
def takeAll (s : Server) : List Value → Dialogue (Server × List Value)
  | [] => return (s, [])
  | v :: rest =>
    if s.isGone then return (s, [])
    else do
      let (s, answer) ← s.take v
      let (s, answers) ← s.takeAll rest
      return (s, answer.toList ++ answers)

end Server

end DiagnosticRelay
