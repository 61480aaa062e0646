import Petrus.Motus.Dispatch.Run

/-!
# The ZeroMQ transport of worker dispatch

A server answers one request at a time: it parses the frame, decodes the operation,
finds the provider of the client, lets the provider run its transaction and encodes the
reply. Whatever raises on the way becomes a refusal, whose kind tells the client who is to
blame. The worker reads a reply back with the same decoders. What Python's `json` and `int`
read from a text is a parameter.
-/

namespace Petrus.Motus.ZeroMQ

open Lib LocalDispatch

def version : Nat := 2

def maxMessageBytes : Nat := 1024 * 1024

def maxClients : Nat := 1000

def maxIdentityBytes : Nat := 256

def maxQueueCount : Nat := 32

def maxErrorBytes : Nat := 1024

/-- `json.loads`, `int` and `str.isspace`, with the operations on floats. -/
structure Library where
  float : FloatArithmetic
  loads : String → Except Exc Json
  int : String → Option Int
  isspace : Char → Bool

variable (L : Library)

/-! ## Names and fields -/

def protocolError (text : String) : Exc := ⟨"_ProtocolError", true, text, [quoted text]⟩

def runtimeError (text : String) : Exc := ⟨"RuntimeError", false, text, [quoted text]⟩

abbrev Name := {s : String // validName s = true}

def name (value : Json) (noun : String) : Except Exc Name :=
  let e := valueError s!"ZeroMQ Dispatch {noun} must be a non-empty string without NUL"
  match value with
  | .str s => if h : validName s = true then .ok ⟨s, h⟩ else .error e
  | _ => .error e

def wireName (value : Json) (noun : String) : Except Exc Name := do
  let spelling ← name value noun
  require (spelling.1.utf8ByteSize ≤ maxIdentityBytes) (valueError
    s!"ZeroMQ Dispatch {noun} exceeds the {maxIdentityBytes}-byte protocol limit")
  return spelling

def optionalName (value : Json) (noun : String) : Except Exc (Option Name) :=
  match value with
  | .null => .ok none
  | value => some <$> name value noun

abbrev Members := List (String × Json)

/-- `value[name]` of a field known to be there. -/
def field (members : Members) (name : String) : Json := (Dict.lookup name members).getD .null

/-- `set(value) == fields`. -/
def hasFields (members : Members) (fields : List String) : Bool :=
  decide ((∀ m ∈ members, m.1 ∈ fields) ∧ ∀ f ∈ fields, f ∈ members.map Prod.fst)

def listed (fields : List String) : String :=
  "[" ++ ", ".intercalate ((fields.mergeSort fun a b => decide (a ≤ b)).map quoted) ++ "]"

/-- `_exact`. -/
def exactFields (value : Json) (fields : List String) (noun : String) : Except Exc Members :=
  let e := valueError s!"{noun} requires exactly {listed fields}"
  match value with
  | .obj members => do
    require (hasFields members fields = true) e
    return members
  | _ => .error e

def requireFields (members : Members) (fields : List String) (operation : String) :
    Except Exc Unit :=
  require (hasFields members fields = true)
    (valueError s!"{operation} request requires exactly {listed fields}")

/-! ## Messages -/

def dumps (value : Json) : String := value.spelling.text L.float.repr

def messageTooLarge : Exc := valueError "ZeroMQ Dispatch message exceeds the maximum size"

def encodeMessage (value : Json) : Except Exc ByteArray := do
  let encoded := (dumps L value).toUTF8
  require (encoded.size ≤ maxMessageBytes) messageTooLarge
  return encoded

def decodeMessage (payload : ByteArray) : Except Exc Members :=
  match String.fromUTF8? payload with
  | none => .error (valueError "invalid ZeroMQ Dispatch JSON message: invalid UTF-8")
  | some text =>
    match L.loads text with
    | .ok (.obj members) => .ok members
    | .ok _ => .error (valueError "ZeroMQ Dispatch message must be a JSON object")
    | .error e =>
      if e.name = "JSONDecodeError" then
        .error (valueError s!"invalid ZeroMQ Dispatch JSON message: {e.text}")
      else .error e

/-! ## Attempts and invocations -/

def epochText : EpochText → String
  | .str n => n.repr
  | .other (some n) => toString n
  | .other none => ""

def readEpoch (text : String) : EpochText :=
  match text.toNat? with
  | some n => if n.repr = text then .str n else .other (L.int text)
  | none => .other (L.int text)

def attemptIdText : Option Json → String
  | some id => id.text L.float.repr
  | none => ""

def readAttemptId (text : String) : Option Json := (L.loads text).toOption

def invocationMembers (i : ActivityInvocation Json) : Members :=
  [("activity", .str i.activity), ("input", i.input), ("policy", policyWire i.policy),
    ("correlation", text i.correlation), ("idempotency", text i.idempotency)]

def encodeInvocation (i : ActivityInvocation Json) : Json := .obj (invocationMembers i)

def attemptMembers (attempt : ActivityAttempt) : Members :=
  [("attempt_id", .str (attemptIdText L attempt.attemptId)),
    ("epoch", .str (epochText attempt.epoch)), ("claimant", .str attempt.claimant),
    ("queue", .str attempt.queue), ("invocation", encodeInvocation attempt.invocation),
    ("latest_details", attempt.latestDetails), ("instance", text attempt.instanceId)]

def encodeAttempt (attempt : ActivityAttempt) : Json := .obj (attemptMembers L attempt)

def legacyPolicy : List String := ["attempts", "heartbeat_timeout"]

def currentPolicy : List String :=
  ["attempts", "heartbeat_timeout", "initial_interval", "coefficient", "max_interval", "jitter",
    "start_to_close", "schedule_to_close"]

def policyMembers (value : Json) : Except Exc Members :=
  let e := valueError "execution policy requires exact legacy or current fields"
  match value with
  | .obj members => do
    require (hasFields members legacyPolicy = true ∨ hasFields members currentPolicy = true) e
    return members
  | _ => .error e

def isInteger : Json → Bool
  | .num (.int _) => true
  | _ => false

def requireInteger (policy : Members) (name : String) : Except Exc Unit :=
  require (isInteger (field policy name) = true)
    (valueError s!"execution policy {name} must be an integer")

/-- `ExecutionPolicy(**policy)`. -/
def policyOf (policy : Members) : Except Exc ExecutionPolicy :=
  let given (name : String) (standard : Json) := (Dict.lookup name policy).getD standard
  ExecutionPolicy.ofFields (field policy "attempts") (field policy "heartbeat_timeout")
    (given "initial_interval" (.num (.int 0))) (given "coefficient" (.num (.int 2)))
    (given "max_interval" (.num (.int 60))) (given "jitter" (.num (.int 0)))
    (given "start_to_close" .null) (given "schedule_to_close" .null)

lemma ne_empty_of_validName {s : String} (h : validName s = true) : s ≠ "" := by
  unfold validName at h
  rw [Bool.and_eq_true, decide_eq_true_eq] at h
  exact h.1

lemma optional_ne_empty (n : Option Name) : n.map Subtype.val ≠ some "" := by
  cases n with
  | none => exact none_ne_empty
  | some n => exact fun h => ne_empty_of_validName n.2 (Option.some.inj h)

def decodeInvocation (value : Json) : Except Exc (ActivityInvocation Json) := do
  let data ← exactFields value ["activity", "input", "policy", "correlation", "idempotency"]
    "Activity invocation"
  let policy ← policyMembers (field data "policy")
  requireInteger policy "attempts"
  requireInteger policy "heartbeat_timeout"
  let activity ← name (field data "activity") "Activity name"
  let correlation ← optionalName (field data "correlation") "Activity correlation"
  let idempotency ← optionalName (field data "idempotency") "Activity idempotency"
  let policy ← policyOf policy
  return { activity := activity.1, input := field data "input", policy
           correlation := correlation.map Subtype.val, idempotency := idempotency.map Subtype.val
           activity_ne := ne_empty_of_validName activity.2
           correlation_ne := optional_ne_empty correlation
           idempotency_ne := optional_ne_empty idempotency }

def attemptFields : List String :=
  ["attempt_id", "epoch", "claimant", "queue", "invocation", "latest_details", "instance"]

def decodeAttempt (value : Json) : Except Exc ActivityAttempt := do
  let data ← exactFields value attemptFields "Activity Attempt"
  let instanceId ← optionalName (field data "instance") "attempt instance"
  let attemptId ← name (field data "attempt_id") "attempt id"
  let epoch ← name (field data "epoch") "attempt epoch"
  let claimant ← name (field data "claimant") "attempt claimant"
  let queue ← name (field data "queue") "attempt queue"
  let invocation ← decodeInvocation (field data "invocation")
  let latestDetails ← snapshotHeartbeatDetails L.float (.faithful (field data "latest_details"))
  return { attemptId := readAttemptId L attemptId.1, epoch := readEpoch L epoch.1
           claimant := claimant.1, queue := queue.1, invocation, latestDetails
           instanceId := instanceId.map Subtype.val }

/-! ## Failures -/

def failureDetailsLimit : Nat := 16384

def failureText (value : Json) (noun : String) (limit : Nat) :
    Except Exc {s : String // s ≠ "" ∧ s.length ≤ limit} :=
  let e := valueError
    s!"ActivityFailure {noun} must be a non-empty string of at most {limit} characters"
  match value with
  | .str s => if h : s ≠ "" ∧ s.length ≤ limit then .ok ⟨s, h⟩ else .error e
  | _ => .error e

def retryAfter (value : Json) :
    Except Exc {d : Option PyNumber // ∀ n ∈ d, 0 ≤ n.toDyadic ∧ n.toDyadic ≤ maxDurationSeconds} :=
  match value with
  | .null => .ok ⟨none, ActivityFailure.no_retryAfter⟩
  | .num n =>
    if h : 0 ≤ n.toDyadic then
      if hmax : n.toDyadic ≤ maxDurationSeconds then
        .ok ⟨some n, fun _ hn => Option.some.inj hn ▸ ⟨h, hmax⟩⟩
      else .error (valueError
        "ActivityFailure retry_after must be at most 1000000000 seconds for provider-neutral duration safety")
    else .error (valueError "ActivityFailure retry_after must be a non-negative number or None")
  | _ => .error (valueError "ActivityFailure retry_after must be a non-negative number or None")

/-- `ActivityFailure(error, kind, details, retryable, retry_after)`. -/
def failureOf (error kind details retryable after : Json) : Except Exc ActivityFailure := do
  let ⟨error, error_bound⟩ ← failureText error "error" 4096
  let ⟨kind, kind_bound⟩ ← failureText kind "kind" 128
  match retryable with
  | .bool retryable => do
    let ⟨retryAfter, retryAfter_bound⟩ ← retryAfter after
    require (details.size L.float.repr ≤ failureDetailsLimit) (valueError
      "Activity failure details must be JSON-faithful: Activity failure details exceed the 16384-byte limit")
    return {
      error, kind, details, retryable, retryAfter, error_bound, kind_bound, retryAfter_bound }
  | _ => .error (typeError "ActivityFailure retryable must be bool")

def decodeFailure (value : Json) : Except Exc ActivityFailure := do
  let data ← exactFields value ["type", "error", "kind", "details", "retryable", "retry_after"]
    "failure"
  require (field data "type" = .str "activity_failure")
    (valueError "unsupported failure payload type")
  failureOf L (field data "error") (field data "kind") (field data "details")
    (field data "retryable") (field data "retry_after")

/-! ## Requests -/

structure Request where
  requestId : Name
  clientId : Name
  workerId : Name
  queues : List Name
  members : Members

inductive Operation where
  | claim
  | heartbeat (attempt : ActivityAttempt) (details : Option Json)
  | complete (attempt : ActivityAttempt) (result : Json)
  | fail (attempt : ActivityAttempt) (failure : ActivityFailure)

def baseFields : List String :=
  ["version", "request_id", "client_id", "worker_id", "queues", "operation"]

/-- A refused value of a request is a protocol error; any other exception passes. -/
def asProtocol {α : Type} (x : Except Exc α) : Except Exc α :=
  match x with
  | .ok a => .ok a
  | .error e => .error (if e.isValueError then protocolError e.text else e)

def requestQueues (value : Json) : Except Exc (List Name) :=
  let e := valueError s!"request queues must contain from 1 to {maxQueueCount} names"
  match value with
  | .arr items => do
    require (1 ≤ items.length ∧ items.length ≤ maxQueueCount) e
    items.mapM fun queue => wireName queue "queue"
  | _ => .error e

def readRequest (limit : Nat) : List ByteArray → Except Exc Request
  | [frame] => do
    require (frame.size ≤ limit) (valueError "request exceeds the maximum message size")
    let members ← decodeMessage L frame
    require (∀ f ∈ baseFields, f ∈ members.map Prod.fst)
      (valueError s!"request requires base fields {listed baseFields}")
    let requestId ← wireName (field members "request_id") "request id"
    let clientId ← wireName (field members "client_id") "client id"
    let workerId ← wireName (field members "worker_id") "worker id"
    let queues ← requestQueues (field members "queues")
    require (field members "version" = .num (.int version))
      (valueError "unsupported ZeroMQ Dispatch protocol version")
    return { requestId, clientId, workerId, queues, members }
  | _ => .error (valueError "request must contain exactly one application frame")

def parseRequest (limit : Nat) (frames : List ByteArray) : Except Exc Request :=
  asProtocol (readRequest L limit frames)

def readOperation (request : Members) : Except Exc Operation := do
  let operation ← wireName (field request "operation") "operation"
  let given (name : String) : Bool := decide (name ∈ request.map Prod.fst)
  if operation.1 = "claim" then
    requireFields request baseFields "claim"
    return .claim
  else if operation.1 = "heartbeat" then
    let details := if given "details" then some (field request "details") else none
    requireFields request (baseFields ++ ["attempt"] ++ if given "details" then ["details"] else [])
      "heartbeat"
    let attempt ← decodeAttempt L (field request "attempt")
    return .heartbeat attempt details
  else if operation.1 = "complete" then
    requireFields request (baseFields ++ ["attempt", "result"]) "complete"
    let attempt ← decodeAttempt L (field request "attempt")
    return .complete attempt (field request "result")
  else if operation.1 = "fail" then
    if given "failure" then
      requireFields request (baseFields ++ ["attempt", "failure"]) "fail"
      let failure ← decodeFailure L (field request "failure")
      let attempt ← decodeAttempt L (field request "attempt")
      return .fail attempt failure
    else
      requireFields request (baseFields ++ ["attempt", "error"]) "fail"
      match field request "error" with
      | .str error =>
        let failure ← failureOf L (.str error) (.str "ActivityError") .null (.bool true) .null
        let attempt ← decodeAttempt L (field request "attempt")
        return .fail attempt failure
      | _ => .error (valueError "failure error must be a string")
  else .error (valueError s!"unknown Worker Dispatch operation {quoted operation.1}")

def decodeOperation (request : Request) : Except Exc Operation :=
  asProtocol (readOperation L request.members)

/-! ## The server -/

structure Config where
  permitted : List Name
  maxMessageBytes : Nat
  permitted_ne : permitted ≠ []
  bytes_bound : 1 ≤ maxMessageBytes ∧ maxMessageBytes ≤ ZeroMQ.maxMessageBytes

/-- The worker a client's requests run as. -/
structure Provider where
  queues : List Name
  workerId : Name
  claimant : Name

def Provider.worker (p : Provider) : Worker := ⟨p.queues.map Subtype.val, p.claimant.1⟩

/-- The custody domain, the providers of the clients in order of arrival and the drain flag. -/
structure Server where
  world : World := {}
  providers : Dict String Provider := .empty
  draining : Bool := false

lemma validName_iff {s : String} : validName s = true ↔ s ≠ "" ∧ '\x00' ∉ s.toList := by
  simp [validName]

lemma claimant_valid (label uuid : Name) : validName (label.1 ++ ":" ++ uuid.1) = true := by
  have hlabel := validName_iff.mp label.2
  have huuid := validName_iff.mp uuid.2
  rw [validName_iff]
  simp only [ne_eq, String.append_eq_empty_iff, String.toList_append, List.mem_append, not_or]
  exact ⟨fun h => hlabel.1 h.1.1, ⟨hlabel.2, by decide⟩, huuid.2⟩

/-- The provider factory over a local custody domain; `uuid` is fresh. -/
def localFactory (config : Config) (queues : List Name) (workerId uuid : Name) :
    Except Exc Provider := do
  require (queues ≠ [] ∧ ∀ q ∈ queues, q ∈ config.permitted)
    (valueError "Worker requested queues outside the server allowlist")
  return ⟨queues, workerId, _, claimant_valid workerId uuid⟩

/-- The cached provider of the client, or a new one; the latest client makes room. -/
def provider (config : Config) (request : Request) (uuid : Name)
    (providers : Dict String Provider) : Except Exc Provider × Dict String Provider :=
  let queues := request.queues.eraseDups
  match providers.get? request.clientId.1 with
  | some cached =>
    if queues = cached.queues ∧ request.workerId = cached.workerId then (.ok cached, providers)
    else (.error (valueError "client identity cannot change Worker queues or identity"), providers)
  | none =>
    let providers := match providers.entries.getLast? with
      | some latest => if maxClients ≤ providers.entries.length then providers.erase latest.1
        else providers
      | none => providers
    match localFactory config queues request.workerId uuid with
    | .ok p => (.ok p, providers.set request.clientId.1 p)
    | .error e => (.error e, providers)

def operate (operation : Operation) (worker : Worker) (draining : Bool) (now : Nat)
    (db : Database) : Except Exc (Json × Database) :=
  match operation with
  | .claim =>
    if draining then .ok (.obj [("attempt", .null)], db)
    else do
      let (attempt, db) ← LocalDispatch.claim L.float worker now db
      return (.obj [("attempt", (attempt.map (encodeAttempt L)).getD .null)], db)
  | .heartbeat attempt details => do
    let (latest, db) ← LocalDispatch.heartbeat L.float attempt (details.map .faithful) now db
    return (.obj [("details", latest)], db)
  | .complete attempt result => do
    let (_, db) ← LocalDispatch.complete attempt (.faithful result) now db
    return (.obj [("completed", .bool true)], db)
  | .fail attempt failure => do
    let (_, db) ← LocalDispatch.fail L.float attempt (.classified failure) now db
    return (.obj [("failed", .bool true)], db)

inductive Kind where
  | protocol
  | refused
  | service
  deriving DecidableEq

def Kind.text : Kind → String
  | .protocol => "protocol"
  | .refused => "refused"
  | .service => "service"

def Kind.of (e : Exc) : Kind :=
  if e.name = "_ProtocolError" then .protocol else if e.isValueError then .refused else .service

inductive Reply where
  | ok (requestId : String) (value : Json)
  | refusal (requestId : String) (kind : Kind) (message : String)
  deriving DecidableEq

def Reply.members : Reply → Members
  | .ok requestId value =>
    [("version", .num (.int version)), ("request_id", .str requestId), ("ok", .bool true),
      ("value", value)]
  | .refusal requestId kind message =>
    [("version", .num (.int version)), ("request_id", .str requestId), ("ok", .bool false),
      ("error", .obj [("kind", .str kind.text), ("message", .str message)])]

def Reply.json (reply : Reply) : Json := .obj reply.members

def Reply.payload (reply : Reply) : Except Exc ByteArray := encodeMessage L reply.json

def strip (text : String) : String :=
  String.ofList (((text.toList.dropWhile L.isspace).reverse.dropWhile L.isspace).reverse)

/-- The characters that fit, and a replacement character for one cut in two. -/
def truncated : Nat → List Char → List Char
  | _, [] => []
  | budget, c :: cs =>
    if c.utf8Size ≤ budget then c :: truncated (budget - c.utf8Size) cs
    else if budget = 0 then [] else [Char.ofNat 0xFFFD]

def errorMessage (e : Exc) : String :=
  let message := if strip L e.text = "" then e.name else strip L e.text
  String.ofList (truncated maxErrorBytes message.toList)

def refusal (requestId : String) (e : Exc) : Reply :=
  .refusal requestId (Kind.of e) (errorMessage L e)

/-- The reply to a decoded request whose provider is known. The transaction has committed before
its reply is encoded. -/
def Server.reply (s : Server) (requestId : String) (operation : Operation) (p : Provider)
    (now : Nat) : Reply × Server :=
  match operate L operation p.worker s.draining now s.world.db with
  | .error e => (refusal L requestId e, s)
  | .ok (value, db) =>
    let s := { s with world := { s.world with db } }
    match (Reply.ok requestId value).payload L with
    | .ok _ => (.ok requestId value, s)
    | .error e => (refusal L requestId e, s)

def Server.answer (s : Server) (config : Config) (request : Request) (now : Nat) (uuid : Name) :
    Reply × Server :=
  match decodeOperation L request with
  | .error e => (refusal L request.requestId.1 e, s)
  | .ok operation =>
    match provider config request uuid s.providers with
    | (.error e, providers) => (refusal L request.requestId.1 e, { s with providers })
    | (.ok p, providers) => { s with providers }.reply L request.requestId.1 operation p now

/-- `_handle`. -/
def Server.handle (s : Server) (config : Config) (frames : List ByteArray)
    (fault : Option String) (now : Nat) (uuid : Name) : Reply × Server :=
  match fault with
  | some text => (refusal L "unknown" (protocolError text), s)
  | none =>
    match parseRequest L config.maxMessageBytes frames with
    | .error e => (refusal L "unknown" e, s)
    | .ok request => s.answer L config request now uuid

def receiveRequest (limit : Nat) (frames : List ByteArray) : List ByteArray × Option String :=
  let total := (frames.map ByteArray.size).sum
  let body := (frames.take 1).filter fun frame => decide (frame.size ≤ limit)
  if frames.length ≠ 1 then (body, some "request must contain exactly one application frame")
  else if limit < total then ([], some "request exceeds the maximum message size")
  else (body, none)

def Server.serve (s : Server) (config : Config) (frames : List ByteArray) (now : Nat)
    (uuid : Name) : Reply × Server :=
  let (body, fault) := receiveRequest config.maxMessageBytes frames
  s.handle L config body fault now uuid

/-! ## The worker -/

def decodeResponse (payload : ByteArray) (requestId : String) : Except Exc Json := do
  let response ← decodeMessage L payload
  if field response "ok" = .bool true then
    let data ← exactFields (.obj response) ["version", "request_id", "ok", "value"]
      "successful response"
    require ((field data "version").value = .num (.int version) ∧
        field data "request_id" = .str requestId)
      (runtimeError "ZeroMQ Dispatch response version or request identity mismatch")
    return field data "value"
  else
    let data ← exactFields (.obj response) ["version", "request_id", "ok", "error"]
      "refused response"
    let error ← exactFields (field data "error") ["kind", "message"] "refused response error"
    require ((field data "version").value = .num (.int version) ∧
        field data "request_id" = .str requestId)
      (runtimeError "ZeroMQ Dispatch refusal version or request identity mismatch")
    match field data "ok", field error "kind", field error "message" with
    | .bool false, .str kind, .str message =>
      require (kind ∈ ["protocol", "refused", "service"])
        (runtimeError "ZeroMQ Dispatch returned an invalid refusal")
      if kind = "refused" then
        .error (valueError s!"ZeroMQ Dispatch refused request: {message}")
      else .error (runtimeError s!"ZeroMQ Dispatch {kind} error: {message}")
    | _, _, _ => .error (runtimeError "ZeroMQ Dispatch returned an invalid refusal")

/-- What the worker's `claim` makes of the reply to its request. -/
def readClaim (payload : ByteArray) (requestId : String) : Except Exc (Option ActivityAttempt) := do
  let value ← decodeResponse L payload requestId
  let mapping ← exactFields value ["attempt"] "claim result"
  match field mapping "attempt" with
  | .null => return none
  | attempt => some <$> decodeAttempt L attempt

end Petrus.Motus.ZeroMQ
