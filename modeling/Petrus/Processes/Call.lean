import Petrus.Fabric.Envelope

/-!
# Calls between processes

A call is a request envelope with a reply route and one reply, a result or an error, bound
to the request by the callee, the route and the call id. Delivery ids are derived from
digests of the call.
-/

namespace Petrus.Processes

open Lib Fabric

structure CallRequest where
  callId : Text
  operation : Text
  input : Members

structure CallResult where
  callId : Text
  result : Json

structure CallError where
  callId : Text
  code : Text
  message : Text
  details : Json

def exactPayload (members : Members) (kind : String) (fields : List String) : Except Exc Unit := do
  let message := s!"payload requires exact version-1 {kind} fields"
  exactObject members fields message
  require (Dict.lookup "version" members = some (.num (.int 1)) ∧
    Dict.lookup "kind" members = some (.str kind)) (valueError message)

namespace CallRequest

def kind : String := "process.call.request"

def toData (r : CallRequest) : Members :=
  [("version", .num (.int 1)), ("kind", .str kind), ("call_id", .str r.callId.value),
    ("operation", .str r.operation.value), ("input", .obj r.input)]

def fromData (members : Members) : Except Exc CallRequest := do
  exactPayload members kind ["version", "kind", "call_id", "operation", "input"]
  match Dict.lookup "input" members with
  | some (.obj input) =>
    let callId ← textMember members "call_id"
    let operation ← textMember members "operation"
    return ⟨callId, operation, input⟩
  | _ => .error (typeError "input must be a JSON object")

end CallRequest

namespace CallResult

def kind : String := "process.call.result"

def toData (r : CallResult) : Members :=
  [("version", .num (.int 1)), ("kind", .str kind), ("call_id", .str r.callId.value),
    ("result", r.result)]

def fromData (members : Members) : Except Exc CallResult := do
  exactPayload members kind ["version", "kind", "call_id", "result"]
  let callId ← textMember members "call_id"
  return ⟨callId, (Dict.lookup "result" members).getD .null⟩

end CallResult

namespace CallError

def kind : String := "process.call.error"

def toData (e : CallError) : Members :=
  [("version", .num (.int 1)), ("kind", .str kind), ("call_id", .str e.callId.value),
    ("code", .str e.code.value), ("message", .str e.message.value), ("details", e.details)]

def fromData (members : Members) : Except Exc CallError := do
  exactPayload members kind ["version", "kind", "call_id", "code", "message", "details"]
  let callId ← textMember members "call_id"
  let code ← textMember members "code"
  let message ← textMember members "message"
  return ⟨callId, code, message, (Dict.lookup "details" members).getD .null⟩

end CallError

def requiredReplyRoute (request : Envelope) : Except Exc ReplyRoute :=
  match request.replyRoute with
  | none => .error (valueError "call request must carry a reply route")
  | some route => .ok route

abbrev Sha256 := List UInt8 → String

variable (H : Sha256) (repr : Dyadic → String)

def bytes (s : String) : List UInt8 := s.toUTF8.data.toList

def deliveryId (callId : Text) (leg : String) : String :=
  s!"process-call-v1-{leg}-{H (bytes callId.value)}"

def bigEndian4 (n : Nat) : List UInt8 :=
  [(n / 2 ^ 24).toUInt8, (n / 2 ^ 16).toUInt8, (n / 2 ^ 8).toUInt8, n.toUInt8]

def replyDeliveryId (caller callId : Text) : String :=
  let callerBytes := bytes caller.value
  s!"process-call-v1-reply-{H (bigEndian4 callerBytes.length ++ callerBytes ++ bytes callId.value)}"

/-- Python's `given or default`. -/
def orDefault (given : Option String) (default : String) : String :=
  match given with
  | none => default
  | some id => if id = "" then default else id

def requestFromEnvelope (envelope : Envelope) : Except Exc CallRequest := do
  let request ← CallRequest.fromData envelope.payload
  require (request.callId = envelope.correlation)
    (valueError "call request payload must match the envelope correlation")
  let route ← requiredReplyRoute envelope
  require (route.instanceId = envelope.sender)
    (valueError "call request must reply to its sender process")
  return request

inductive Reply where
  | result (r : CallResult)
  | error (e : CallError)

namespace Reply

def callId : Reply → Text
  | result r => r.callId
  | error e => e.callId

def toData : Reply → Members
  | result r => r.toData
  | error e => e.toData

def fromData (payload : Members) : Except Exc Reply :=
  if Dict.lookup "kind" payload = some (.str CallResult.kind) then
    Reply.result <$> CallResult.fromData payload
  else if Dict.lookup "kind" payload = some (.str CallError.kind) then
    Reply.error <$> CallError.fromData payload
  else .error (valueError
    "call reply payload must be a process.call.result or process.call.error")

end Reply

def replyFromEnvelope (envelope request : Envelope) : Except Exc Reply := do
  let call ← requestFromEnvelope request
  let route ← requiredReplyRoute request
  let reply ← Reply.fromData envelope.payload
  require (reply.callId = call.callId ∧ envelope.correlation = call.callId)
    (valueError "call reply payload and envelope must match the request correlation")
  require (envelope.sender = request.recipient ∧ envelope.recipient = request.sender ∧
    envelope.source = route.source) (valueError
      "call reply must come from the request callee through the requested reply route")
  require (envelope.replyRoute = none)
    (valueError "call reply must not carry another reply route")
  return reply

def requestEnvelope (request : CallRequest) (sender recipient source : String)
    (replyRoute : ReplyRoute) (given : Option String) : Except Exc Envelope := do
  require (replyRoute.instanceId.value = sender)
    (valueError "call reply_route must belong to the sender process")
  Envelope.of repr (orDefault given (deliveryId H request.callId "request")) sender recipient
    source request.callId.value request.toData (some replyRoute)

/-- The envelope of a reply; `noun` is what the refusal calls it. -/
def replyEnvelope (noun : String) (reply : Reply) (request : Envelope) (sender : String)
    (given : Option String) : Except Exc Envelope := do
  let call ← requestFromEnvelope request
  let route ← requiredReplyRoute request
  require (reply.callId = call.callId ∧ sender = request.recipient.value)
    (valueError s!"call {noun} must correlate to a request with a reply route")
  Envelope.of repr (orDefault given (replyDeliveryId H request.sender reply.callId)) sender
    route.instanceId.value route.source.value reply.callId.value reply.toData none

def resultEnvelope (result : CallResult) : Envelope → String → Option String →
    Except Exc Envelope :=
  replyEnvelope H repr "result" (.result result)

def errorEnvelope (error : CallError) : Envelope → String → Option String →
    Except Exc Envelope :=
  replyEnvelope H repr "error" (.error error)

def Reply.envelope : Reply → Envelope → String → Option String → Except Exc Envelope
  | .result r => resultEnvelope H repr r
  | .error e => errorEnvelope H repr e

end Petrus.Processes
