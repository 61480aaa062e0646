import Petrus.Impetus.History.Record
import Petrus.Lib.Arguments

/-!
# Record codec

The canonical spelling of history records. A decoded record is a constructed object:
its type and its fields, each as the decoder left it. The constructors of several
record types accept values the writer never hands them, so such an object is more
than a `Record`; `Record.object` is the object of a typed record.
-/

namespace Petrus.Impetus

open Lib Motus

def schemaVersion : Int := 5

inductive RecordType where
  | instanceCreated
  | tokensInitialized
  | scopeOpened
  | scopeClosed
  | scopeReset
  | candidateSelected
  | externalEventDelivered
  | scopedDeliveryDropped
  | scopedDeliveryQuarantined
  | deliveryRegistrationOpened
  | deliveryRegistrationClosed
  | timerMatured
  | firingBegun
  | tokensConsumed
  | tokensRead
  | activityRequested
  | activityCompleted
  | activityTerminalQuarantined
  | tokensProduced
  | firingCompleted
  | activityFailed
  | firingFailed
  deriving DecidableEq

/-- A constructed `Token`; nothing in its constructor asks for a color name. -/
structure TokenObject where
  color : Json
  data : Json
  deriving DecidableEq

/-- What a field of a record holds. -/
inductive FieldValue where
  | node (path : NetPath)
  | tokens (tokens : List TokenObject)
  | ids (values : List Json)
  | scope (scope : LifecycleScope)
  | policy (policy : ExecutionPolicy)
  | plain (value : Json)
  deriving DecidableEq

instance : Inhabited Json := ⟨.null⟩

instance : Inhabited FieldValue := ⟨.plain .null⟩

namespace RecordType

def name : RecordType → String
  | instanceCreated => "InstanceCreated"
  | tokensInitialized => "TokensInitialized"
  | scopeOpened => "ScopeOpened"
  | scopeClosed => "ScopeClosed"
  | scopeReset => "ScopeReset"
  | candidateSelected => "CandidateSelected"
  | externalEventDelivered => "ExternalEventDelivered"
  | scopedDeliveryDropped => "ScopedDeliveryDropped"
  | scopedDeliveryQuarantined => "ScopedDeliveryQuarantined"
  | deliveryRegistrationOpened => "DeliveryRegistrationOpened"
  | deliveryRegistrationClosed => "DeliveryRegistrationClosed"
  | timerMatured => "TimerMatured"
  | firingBegun => "FiringBegun"
  | tokensConsumed => "TokensConsumed"
  | tokensRead => "TokensRead"
  | activityRequested => "ActivityRequested"
  | activityCompleted => "ActivityCompleted"
  | activityTerminalQuarantined => "ActivityTerminalQuarantined"
  | tokensProduced => "TokensProduced"
  | firingCompleted => "FiringCompleted"
  | activityFailed => "ActivityFailed"
  | firingFailed => "FiringFailed"

def all : List RecordType :=
  [instanceCreated, tokensInitialized, scopeOpened, scopeClosed, scopeReset, candidateSelected,
    externalEventDelivered, scopedDeliveryDropped, scopedDeliveryQuarantined,
    deliveryRegistrationOpened, deliveryRegistrationClosed, timerMatured, firingBegun,
    tokensConsumed, tokensRead, activityRequested, activityCompleted, activityTerminalQuarantined,
    tokensProduced, firingCompleted, activityFailed, firingFailed]

def instantField : Parameter FieldValue := ⟨"instant", some (.plain (.num (.int 0)))⟩

def scopeField : Parameter FieldValue := ⟨"scope", some (.plain .null)⟩

def idsField (name : String) : Parameter FieldValue := ⟨name, some (.ids [])⟩

def required (name : String) : Parameter FieldValue := ⟨name, none⟩

def movementFields : List (Parameter FieldValue) :=
  [required "place", required "tokens", required "occurrence", idsField "entries", scopeField,
    instantField]

def registrationFields : List (Parameter FieldValue) :=
  [required "source", required "key", required "occurrence", instantField]

/-- The fields of each record type, in order of declaration, with their defaults. -/
def fields : RecordType → List (Parameter FieldValue)
  | instanceCreated => [required "instance", ⟨"name", some (.plain .null)⟩, instantField]
  | tokensInitialized =>
    [required "place", required "tokens", instantField, idsField "entries", scopeField]
  | scopeOpened => [required "scope", instantField]
  | scopeClosed => [required "scope", idsField "discarded", idsField "cancelled", instantField]
  | scopeReset =>
    [required "closed", required "opened", idsField "discarded", idsField "cancelled", instantField]
  | candidateSelected => [required "transition", required "occurrence", instantField]
  | externalEventDelivered =>
    [required "source", required "tokens", required "identity", required "occurrence", scopeField,
      instantField]
  | scopedDeliveryDropped | scopedDeliveryQuarantined =>
    [required "source", required "tokens", required "identity", required "scope", instantField]
  | deliveryRegistrationOpened | deliveryRegistrationClosed => registrationFields
  | timerMatured => [required "maturation_instant", required "instant"]
  | firingBegun => [required "transition", required "occurrence", scopeField, instantField]
  | tokensConsumed | tokensRead | tokensProduced => movementFields
  | activityRequested =>
    [required "transition", required "activity", required "input", required "policy",
      required "correlation", required "idempotency", required "occurrence", scopeField,
      instantField]
  | activityCompleted =>
    [required "transition", required "result", required "occurrence", instantField]
  | activityTerminalQuarantined =>
    [required "transition", required "outcome", required "scope", required "occurrence",
      instantField]
  | firingCompleted => [required "transition", required "occurrence", instantField]
  | activityFailed =>
    [required "transition", required "error", ⟨"kind", some (.plain (.str "ActivityError"))⟩,
      ⟨"details", some (.plain .null)⟩, ⟨"retryable", some (.plain (.bool false))⟩,
      ⟨"retry_after", some (.plain .null)⟩, required "occurrence", instantField]
  | firingFailed => [required "transition", required "error", required "occurrence", instantField]

end RecordType

/-- A constructed record: its type and the value of each declared field. -/
structure RecordObject where
  type : RecordType
  fields : List (String × FieldValue)
  deriving DecidableEq

namespace FieldValue

def positive : FieldValue → Bool
  | plain (.num (.int n)) => 1 ≤ n
  | _ => false

def nonEmptyString : FieldValue → Bool
  | plain (.str s) => s ≠ ""
  | _ => false

def isNone (v : FieldValue) : Bool := v = plain .null

def isScope : FieldValue → Bool
  | scope _ => true
  | _ => false

def idList : FieldValue → List Json
  | ids values => values
  | _ => []

def tokenList : FieldValue → List TokenObject
  | tokens ts => ts
  | _ => []

def positiveId : Json → Bool
  | .num (.int n) => 1 ≤ n
  | _ => false

end FieldValue

namespace RecordObject

open FieldValue

def occurrenceId (v : FieldValue) (noun : String) : Except Exc Unit :=
  require (v.positive = true) (valueError s!"{noun} must be a positive integer")

def exactScope (v : FieldValue) (noun : String) : Except Exc Unit :=
  require (v.isScope = true) (valueError s!"{noun} requires an exact LifecycleScope generation")

def optionalScope (v : FieldValue) (noun : String) : Except Exc Unit :=
  require (v.isNone = true ∨ v.isScope = true)
    (valueError s!"{noun} requires an exact LifecycleScope generation")

def positiveIds (v : FieldValue) (noun : String) : Except Exc Unit := do
  require (∀ i ∈ v.idList, positiveId i = true)
    (valueError s!"{noun} must use exact positive integers")
  require v.idList.Nodup (valueError s!"{noun} must be unique")

def entriesCheck (tokens entries scope : FieldValue) (noun : String) : Except Exc Unit := do
  require (entries.idList = [] ∨ entries.idList.length = tokens.tokenList.length)
    (valueError s!"{noun} requires one queue-entry identity per token")
  require (∀ e ∈ entries.idList, positiveId e = true)
    (valueError s!"{noun} queue-entry identities must be positive integers")
  require entries.idList.Nodup (valueError s!"{noun} queue-entry identities must be unique")
  require (scope.isNone = true ∨ entries.idList.length = tokens.tokenList.length)
    (valueError s!"{noun} scoped movements require one queue-entry identity per token")
  require (entries.idList = [] ∨ scope.isNone = false)
    (valueError s!"{noun} queue-entry identities require lifecycle scope provenance")

def deliveryIdentity (v : FieldValue) (record : String) : Except Exc Unit :=
  require (v.nonEmptyString = true)
    (valueError s!"{record} requires an exact non-empty string identity")

def colorName : Json → Bool
  | .null => true
  | .str _ => true
  | _ => false

def deliveryTokens (v : FieldValue) (record : String) : Except Exc Unit := do
  require (v.tokenList ≠ [])
    (valueError s!"{record} tokens must be a non-empty tuple of canonical Tokens")
  require (∀ t ∈ v.tokenList, colorName t.color = true)
    (valueError s!"{record} token color must be an exact string or None")

def registration (key occurrence : FieldValue) (noun : String) : Except Exc Unit := do
  require (key.nonEmptyString = true)
    (valueError s!"{noun} requires a non-empty string key of the exact built-in type")
  require (occurrence.isNone = true ∨ occurrence.positive = true)
    (valueError s!"{noun} occurrence must be a positive integer")

def scopeName : FieldValue → Bool
  | .plain (.str s) => s ≠ "" ∧ '\x00' ∉ s.toList
  | _ => false

def nextGeneration : FieldValue → FieldValue → Bool
  | .scope closed, .scope opened =>
    opened.name = closed.name ∧ opened.generation = closed.generation + 1
  | _, _ => false

def boundedText : FieldValue → Bool
  | .plain (.str s) => s ≠ "" ∧ s.length ≤ 4096
  | _ => false

/-- The value Python's `<` compares: a boolean is a number. -/
def ordinal : Json → Option Dyadic
  | .bool b => some (if b then 1 else 0)
  | .num n => some n.toDyadic
  | _ => none

mutual

/-- Python's `a < b` on JSON values. -/
def less : Json → Json → Except Exc Bool
  | .arr as, .arr bs => lessItems as bs
  | .str s, .str t => .ok (decide (s < t))
  | a, b =>
    match ordinal a, ordinal b with
    | some x, some y => .ok (decide (x < y))
    | _, _ => .error (typeError "'<' not supported between these instances")

def lessItems : List Json → List Json → Except Exc Bool
  | _, [] => .ok false
  | [], _ :: _ => .ok true
  | a :: as, b :: bs => if a.value = b.value then lessItems as bs else less a b

end

def plainValue : FieldValue → Json
  | .plain v => v
  | _ => .null

def observedInTime (matured observed : FieldValue) : Except Exc Unit := do
  let early ← less (plainValue observed) (plainValue matured)
  require (early = false)
    (valueError "timer maturation observed before its maturation instant: a wakeup cannot precede what it observes")

def postInit (type : RecordType) (f : String → FieldValue) : Except Exc Unit :=
  match type with
  | .instanceCreated | .activityCompleted | .activityFailed => .ok ()
  | .tokensInitialized => do
    entriesCheck (f "tokens") (f "entries") (f "scope") type.name
    optionalScope (f "scope") type.name
  | .scopeOpened => exactScope (f "scope") type.name
  | .scopeClosed => do
    exactScope (f "scope") type.name
    positiveIds (f "discarded") "ScopeClosed discarded queue entries"
    positiveIds (f "cancelled") "ScopeClosed cancelled occurrences"
  | .scopeReset => do
    exactScope (f "closed") "ScopeReset closed"
    exactScope (f "opened") "ScopeReset opened"
    require (nextGeneration (f "closed") (f "opened") = true)
      (valueError "ScopeReset must open the immediate next generation of the same name")
    positiveIds (f "discarded") "ScopeReset discarded queue entries"
    positiveIds (f "cancelled") "ScopeReset cancelled occurrences"
  | .candidateSelected => occurrenceId (f "occurrence") "CandidateSelected occurrence"
  | .externalEventDelivered => do
    occurrenceId (f "occurrence") "ExternalEventDelivered occurrence"
    deliveryIdentity (f "identity") type.name
    deliveryTokens (f "tokens") type.name
    optionalScope (f "scope") type.name
  | .scopedDeliveryDropped => do
    deliveryIdentity (f "identity") type.name
    deliveryTokens (f "tokens") type.name
    exactScope (f "scope") type.name
  | .scopedDeliveryQuarantined => do
    deliveryIdentity (f "identity") type.name
    deliveryTokens (f "tokens") type.name
    require ((f "scope").isScope = true ∨ scopeName (f "scope") = true)
      (valueError "ScopedDeliveryQuarantined requires a non-empty scope name without NUL")
  | .deliveryRegistrationOpened | .deliveryRegistrationClosed =>
    registration (f "key") (f "occurrence") type.name
  | .timerMatured => observedInTime (f "maturation_instant") (f "instant")
  | .firingBegun => do
    occurrenceId (f "occurrence") "FiringBegun occurrence"
    optionalScope (f "scope") type.name
  | .tokensConsumed | .tokensRead => do
    entriesCheck (f "tokens") (f "entries") (f "scope") type.name
    optionalScope (f "scope") type.name
  | .activityRequested => do
    require ((f "activity").nonEmptyString = true)
      (valueError "ActivityRequested requires a non-empty string activity")
    require ((f "correlation").nonEmptyString = true)
      (valueError "ActivityRequested requires a non-empty string correlation")
    require ((f "idempotency").nonEmptyString = true)
      (valueError "ActivityRequested requires a non-empty string idempotency")
    optionalScope (f "scope") type.name
  | .activityTerminalQuarantined => exactScope (f "scope") type.name
  | .tokensProduced => do
    occurrenceId (f "occurrence") "TokensProduced occurrence"
    entriesCheck (f "tokens") (f "entries") (f "scope") type.name
    optionalScope (f "scope") type.name
  | .firingCompleted => occurrenceId (f "occurrence") "FiringCompleted occurrence"
  | .firingFailed => do
    occurrenceId (f "occurrence") "FiringFailed occurrence"
    require (boundedText (f "error") = true)
      (valueError "FiringFailed error must be a non-empty string of at most 4096 characters")

def construct (type : RecordType) (args : List (String × FieldValue)) :
    Except Exc RecordObject := do
  let fields ← bindArguments type.name type.fields args
  postInit type (argument fields)
  return ⟨type, fields⟩

end RecordObject

def Token.object (t : Token) : TokenObject :=
  ⟨match t.color with
    | none => .null
    | some color => .str color, t.data⟩

namespace FieldValue

def natural (n : Nat) : FieldValue := plain (.num (.int n))

def optionalNatural : Option Nat → FieldValue
  | none => plain .null
  | some n => natural n

def text (s : String) : FieldValue := plain (.str s)

def optionalText : Option String → FieldValue
  | none => plain .null
  | some s => text s

def atInstant (i : Instant) : FieldValue := plain (.num (.int i))

def naturals (ns : List Nat) : FieldValue := ids (ns.map fun n : Nat => .num (.int n))

def tokenObjects (ts : List Token) : FieldValue := tokens (ts.map Token.object)

def optionalScope : Option LifecycleScope → FieldValue
  | none => plain .null
  | some s => scope s

def scopeTarget : ScopeTarget → FieldValue
  | .exact s => scope s
  | .named name => text name

end FieldValue

section Objects

open FieldValue

def RegistrationFact.values (r : RegistrationFact) : List (String × FieldValue) :=
  [("source", node r.source), ("key", text r.key), ("occurrence", optionalNatural r.occurrence),
    ("instant", atInstant r.instant)]

def Movement.values (r : Movement) : List (String × FieldValue) :=
  [("place", node r.place), ("tokens", tokenObjects r.tokens), ("occurrence", natural r.occurrence),
    ("entries", naturals r.entries), ("scope", FieldValue.optionalScope r.scope),
    ("instant", atInstant r.instant)]

def Record.object : Record → RecordObject
  | instanceCreated r => ⟨.instanceCreated, [("instance", text r.instanceId),
      ("name", optionalText r.name), ("instant", atInstant r.instant)]⟩
  | tokensInitialized r => ⟨.tokensInitialized, [("place", node r.place),
      ("tokens", tokenObjects r.tokens), ("instant", atInstant r.instant),
      ("entries", naturals r.entries), ("scope", FieldValue.optionalScope r.scope)]⟩
  | scopeOpened r => ⟨.scopeOpened, [("scope", scope r.scope), ("instant", atInstant r.instant)]⟩
  | scopeClosed r => ⟨.scopeClosed, [("scope", scope r.scope),
      ("discarded", naturals r.discarded), ("cancelled", naturals r.cancelled),
      ("instant", atInstant r.instant)]⟩
  | scopeReset r => ⟨.scopeReset, [("closed", scope r.closed), ("opened", scope r.opened),
      ("discarded", naturals r.discarded), ("cancelled", naturals r.cancelled),
      ("instant", atInstant r.instant)]⟩
  | candidateSelected r => ⟨.candidateSelected, [("transition", node r.transition),
      ("occurrence", natural r.occurrence), ("instant", atInstant r.instant)]⟩
  | externalEventDelivered r => ⟨.externalEventDelivered, [("source", node r.source),
      ("tokens", tokenObjects r.tokens), ("identity", text r.identity),
      ("occurrence", natural r.occurrence), ("scope", FieldValue.optionalScope r.scope),
      ("instant", atInstant r.instant)]⟩
  | scopedDeliveryDropped r => ⟨.scopedDeliveryDropped, [("source", node r.source),
      ("tokens", tokenObjects r.tokens), ("identity", text r.identity), ("scope", scope r.scope),
      ("instant", atInstant r.instant)]⟩
  | scopedDeliveryQuarantined r => ⟨.scopedDeliveryQuarantined, [("source", node r.source),
      ("tokens", tokenObjects r.tokens), ("identity", text r.identity),
      ("scope", scopeTarget r.scope), ("instant", atInstant r.instant)]⟩
  | deliveryRegistrationOpened r => ⟨.deliveryRegistrationOpened, r.values⟩
  | deliveryRegistrationClosed r => ⟨.deliveryRegistrationClosed, r.values⟩
  | timerMatured r => ⟨.timerMatured, [("maturation_instant", atInstant r.maturationInstant),
      ("instant", atInstant r.instant)]⟩
  | firingBegun r => ⟨.firingBegun, [("transition", node r.transition),
      ("occurrence", natural r.occurrence), ("scope", FieldValue.optionalScope r.scope),
      ("instant", atInstant r.instant)]⟩
  | tokensConsumed r => ⟨.tokensConsumed, r.values⟩
  | tokensRead r => ⟨.tokensRead, r.values⟩
  | activityRequested r => ⟨.activityRequested, [("transition", node r.transition),
      ("activity", text r.activity), ("input", plain r.input), ("policy", policy r.policy),
      ("correlation", text r.correlation), ("idempotency", text r.idempotency),
      ("occurrence", natural r.occurrence), ("scope", FieldValue.optionalScope r.scope),
      ("instant", atInstant r.instant)]⟩
  | activityCompleted r => ⟨.activityCompleted, [("transition", node r.transition),
      ("result", plain r.result), ("occurrence", natural r.occurrence),
      ("instant", atInstant r.instant)]⟩
  | activityTerminalQuarantined r => ⟨.activityTerminalQuarantined,
      [("transition", node r.transition), ("outcome", plain r.outcome), ("scope", scope r.scope),
        ("occurrence", natural r.occurrence), ("instant", atInstant r.instant)]⟩
  | tokensProduced r => ⟨.tokensProduced, r.values⟩
  | firingCompleted r => ⟨.firingCompleted, [("transition", node r.transition),
      ("occurrence", natural r.occurrence), ("instant", atInstant r.instant)]⟩
  | activityFailed r => ⟨.activityFailed, [("transition", node r.transition),
      ("error", text r.failure.error), ("kind", text r.failure.kind),
      ("details", plain r.failure.details), ("retryable", plain (.bool r.failure.retryable)),
      ("retry_after", plain (ActivityFailure.number r.failure.retryAfter)),
      ("occurrence", natural r.occurrence), ("instant", atInstant r.instant)]⟩
  | firingFailed r => ⟨.firingFailed, [("transition", node r.transition), ("error", text r.error),
      ("occurrence", natural r.occurrence), ("instant", atInstant r.instant)]⟩

end Objects

def TokenObject.members (t : TokenObject) : List (String × Json) :=
  [("color", t.color), ("data", t.data)]

def LifecycleScope.members (s : LifecycleScope) : List (String × Json) :=
  [("name", .str s.name), ("generation", .num (.int s.generation))]

def FieldValue.encoded : FieldValue → Json
  | node path => .str path.str
  | tokens ts => .arr (ts.map fun t => .obj t.members)
  | ids values => .arr values
  | scope s => .obj s.members
  | policy p => .obj p.members
  | plain value => value

def encodeRecord (o : RecordObject) : Json :=
  .obj (("record", .str o.type.name) :: ("schema", .num (.int schemaVersion)) ::
    o.fields.map fun f => (f.1, f.2.encoded))

def iterate : Json → Except Exc (List Json)
  | .arr items => .ok items
  | .str s => .ok (s.toList.map fun c => .str (String.singleton c))
  | .obj members => .ok (members.map fun m => .str m.1)
  | _ => .error (typeError "object is not iterable")

def tokenFields : List (Parameter Json) := [⟨"color", some .null⟩, ⟨"data", some .null⟩]

def decodedToken : Json → Except Exc TokenObject
  | .obj members => do
    let bound ← bindArguments "Token" tokenFields members
    return ⟨argument bound "color", argument bound "data"⟩
  | _ => .error (typeError "argument after ** must be a mapping")

def scopeFields : List (Parameter Json) := [⟨"name", none⟩, ⟨"generation", none⟩]

def LifecycleScope.ofFields (name generation : Json) : Except Exc LifecycleScope :=
  match name with
  | .str s =>
    if h : s ≠ "" ∧ '\x00' ∉ s.toList then
      match generation with
      | .num (.int (.ofNat (n + 1))) => .ok ⟨s, n + 1, h, ExecutionPolicy.positive_succ n⟩
      | _ => .error (valueError
        "LifecycleScope generation must be a positive integer of the exact built-in type")
    else .error (valueError
      "LifecycleScope name must be a non-empty string without NUL and use the exact built-in type")
  | _ => .error (valueError
    "LifecycleScope name must be a non-empty string without NUL and use the exact built-in type")

def decodedScope : Json → Except Exc LifecycleScope
  | .obj members => do
    let bound ← bindArguments "LifecycleScope" scopeFields members
    LifecycleScope.ofFields (argument bound "name") (argument bound "generation")
  | _ => .error (typeError "argument after ** must be a mapping")

def policyFields : List (Parameter Json) :=
  [⟨"attempts", some (.num (.int 1))⟩, ⟨"heartbeat_timeout", some (.num (.int 30))⟩,
    ⟨"initial_interval", some (.num (.int 0))⟩, ⟨"coefficient", some (.num (.int 2))⟩,
    ⟨"max_interval", some (.num (.int 60))⟩, ⟨"jitter", some (.num (.int 0))⟩,
    ⟨"start_to_close", some .null⟩, ⟨"schedule_to_close", some .null⟩]

def isInteger : Json → Bool
  | .num (.int _) => true
  | _ => false

/-- Whether the members are exactly the current policy fields, the two counts exact integers. -/
def currentPolicy (members : List (String × Json)) : Bool :=
  (∀ m ∈ members, m.1 ∈ policyFields.map Parameter.name) ∧
    (∀ p ∈ policyFields, p.name ∈ members.map Prod.fst) ∧
      isInteger (argument members "attempts") ∧ isInteger (argument members "heartbeat_timeout")

def policyRefused : Exc := valueError
  "cannot decode ExecutionPolicy: policy must be exactly the current exact policy fields"

def decodedPolicy : Json → Except Exc ExecutionPolicy
  | .obj members => do
    require (currentPolicy members = true) policyRefused
    let bound ← bindArguments "ExecutionPolicy" policyFields members
    ExecutionPolicy.ofFields (argument bound "attempts") (argument bound "heartbeat_timeout")
      (argument bound "initial_interval") (argument bound "coefficient")
      (argument bound "max_interval") (argument bound "jitter") (argument bound "start_to_close")
      (argument bound "schedule_to_close")
  | _ => .error policyRefused

def nodeFields : List String := ["place", "transition", "source"]

def idFields : List String := ["entries", "discarded", "cancelled"]

def decodedNode : Json → Except Exc NetPath
  | .str s => NetPath.parse s
  | _ => .error (valueError "NetPath requires a non-empty dotted string or a NetPath")

def decodedTokens (value : Json) : Except Exc (List TokenObject) := do
  (← iterate value).mapM decodedToken

def scopeSpelling : Json → Except Exc FieldValue
  | .null => .ok (.plain .null)
  | .str s => .ok (.plain (.str s))
  | value => FieldValue.scope <$> decodedScope value

def decoded (field : String) (value : Json) : Except Exc FieldValue :=
  if field ∈ nodeFields then FieldValue.node <$> decodedNode value
  else if field = "tokens" then FieldValue.tokens <$> decodedTokens value
  else if field ∈ idFields then FieldValue.ids <$> iterate value
  else if field = "scope" then scopeSpelling value
  else if field = "closed" ∨ field = "opened" then FieldValue.scope <$> decodedScope value
  else if field = "policy" then FieldValue.policy <$> decodedPolicy value
  else .ok (.plain value)

def hashable : Json → Bool
  | .arr _ => false
  | .obj _ => false
  | _ => true

def pair (item : Json) : Except Exc (Json × Json) := do
  match ← iterate item with
  | [k, v] => if hashable k then .ok (k, v) else .error (typeError "unhashable type")
  | items => .error (valueError
    s!"dictionary update sequence element has length {items.length}; 2 is required")

def toDict : Json → Except Exc (Dict Json Json)
  | .obj members => .ok (Dict.ofList (members.map fun m => (Json.str m.1, m.2)))
  | payload => do
    let pairs ← (← iterate payload).mapM pair
    return Dict.ofList pairs

def member (data : Dict Json Json) (name : String) (missing : Exc) : Except Exc Json :=
  match data.get? (.str name) with
  | some value => .ok value
  | none => .error missing

def v1Successors : List (String × String) :=
  [("RegistrationOpened", "DeliveryRegistrationOpened"),
    ("RegistrationClosed", "DeliveryRegistrationClosed"),
    ("ExternalEventRecorded", "ExternalEventDelivered")]

def recordType : Json → Except Exc RecordType
  | .str name =>
    match RecordType.all.find? fun type => type.name = name with
    | some type => .ok type
    | none =>
      match Dict.lookup name v1Successors with
      | some successor => .error (valueError
        s!"cannot decode event history record: {quoted name} is a schema-1 discriminator — the CV3 schema-2 migration renamed it to {quoted successor}, and no v1 converter exists (no production histories predate the migration)")
      | none => .error (valueError
        s!"cannot decode event history record: unknown 'record' discriminator {quoted name} — not a record type the kernel emits")
  | name =>
    if hashable name then .error (valueError
      "cannot decode event history record: unknown 'record' discriminator — not a record type the kernel emits")
    else .error (typeError "unhashable type")

def decodedMember : Json × Json → Except Exc (Json × FieldValue)
  | (.str field, value) => (fun v => (.str field, v)) <$> decoded field value
  | (key, value) => .ok (key, .plain value)

def keyword : Json × FieldValue → Except Exc (String × FieldValue)
  | (.str field, value) => .ok (field, value)
  | _ => .error (typeError "keywords must be strings")

def dictObject (data : Dict Json Json) : Json :=
  .obj (data.entries.filterMap fun
    | (.str k, v) => some (k, v)
    | _ => none)

def decodeRecord (payload : Json) : Except Exc RecordObject := do
  let data ← toDict payload
  let name ← member data "record" (valueError
    "cannot decode event history record: payload has no 'record' discriminator")
  let schema ← member data "schema" (valueError
    "cannot decode event history record: payload has no 'schema' version — this kernel writes schema 5, reads schema 5 only, and has no converter for older durable data")
  require (schema = .num (.int schemaVersion)) (valueError
    "cannot decode event history record: this kernel reads schema 5 only — no migration or converter exists")
  let type ← recordType name
  let values ← ((data.erase (.str "record")).erase (.str "schema")).entries.mapM decodedMember
  let args ← values.mapM keyword
  let object ← RecordObject.construct type args
  require ((encodeRecord object).value = (dictObject data).value) (valueError
    s!"cannot decode event history record {quoted type.name}: payload is not its exact canonical schema-5 spelling")
  return object

end Petrus.Impetus
