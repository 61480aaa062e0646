import Petrus.Impetus.Marking

/-!
# History records

One structure per record type of the event history, and the checks every record
passes before the writer appends it and before resume reads it.
-/

namespace Petrus.Impetus

open Lib Motus

structure InstanceCreated where
  instanceId : String
  name : Option String := none
  instant : Instant := 0
  deriving DecidableEq

structure TokensInitialized where
  place : NetPath
  tokens : List Token
  instant : Instant := 0
  entries : List Nat := []
  scope : Option LifecycleScope := none
  deriving DecidableEq

structure ScopeOpened where
  scope : LifecycleScope
  instant : Instant := 0
  deriving DecidableEq

structure ScopeClosed where
  scope : LifecycleScope
  discarded : List Nat := []
  cancelled : List Nat := []
  instant : Instant := 0
  deriving DecidableEq

structure ScopeReset where
  closed : LifecycleScope
  opened : LifecycleScope
  discarded : List Nat := []
  cancelled : List Nat := []
  instant : Instant := 0
  deriving DecidableEq

structure CandidateSelected where
  transition : NetPath
  occurrence : Nat
  instant : Instant := 0
  deriving DecidableEq

structure ExternalEventDelivered where
  source : NetPath
  tokens : List Token
  identity : String
  occurrence : Nat
  scope : Option LifecycleScope := none
  instant : Instant := 0
  deriving DecidableEq

structure ScopedDeliveryDropped where
  source : NetPath
  tokens : List Token
  identity : String
  scope : LifecycleScope
  instant : Instant := 0
  deriving DecidableEq

/-- The scope a delivery names: an exact generation, or a bare name. -/
inductive ScopeTarget where
  | exact (scope : LifecycleScope)
  | named (name : String)
  deriving DecidableEq

structure ScopedDeliveryQuarantined where
  source : NetPath
  tokens : List Token
  identity : String
  scope : ScopeTarget
  instant : Instant := 0
  deriving DecidableEq

/-- The fields of `DeliveryRegistrationOpened` and of `DeliveryRegistrationClosed`. -/
structure RegistrationFact where
  source : NetPath
  key : String
  occurrence : Option Nat
  instant : Instant := 0
  deriving DecidableEq

structure TimerMatured where
  maturationInstant : Instant
  instant : Instant
  deriving DecidableEq

structure FiringBegun where
  transition : NetPath
  occurrence : Nat
  scope : Option LifecycleScope := none
  instant : Instant := 0
  deriving DecidableEq

/-- The fields of `TokensConsumed`, of `TokensRead` and of `TokensProduced`. -/
structure Movement where
  place : NetPath
  tokens : List Token
  occurrence : Nat
  entries : List Nat := []
  scope : Option LifecycleScope := none
  instant : Instant := 0
  deriving DecidableEq

structure ActivityRequested where
  transition : NetPath
  activity : String
  input : Json
  policy : ExecutionPolicy
  correlation : String
  idempotency : String
  occurrence : Nat
  scope : Option LifecycleScope := none
  instant : Instant := 0
  deriving DecidableEq

structure ActivityCompleted where
  transition : NetPath
  result : Json
  occurrence : Nat
  instant : Instant := 0
  deriving DecidableEq

structure ActivityFailed where
  transition : NetPath
  failure : ActivityFailure
  occurrence : Nat
  instant : Instant := 0
  deriving DecidableEq

structure ActivityTerminalQuarantined where
  transition : NetPath
  outcome : Json
  scope : LifecycleScope
  occurrence : Nat
  instant : Instant := 0
  deriving DecidableEq

structure FiringCompleted where
  transition : NetPath
  occurrence : Nat
  instant : Instant := 0
  deriving DecidableEq

structure FiringFailed where
  transition : NetPath
  error : String
  occurrence : Nat
  instant : Instant := 0
  deriving DecidableEq

inductive Record where
  | instanceCreated (r : InstanceCreated)
  | tokensInitialized (r : TokensInitialized)
  | scopeOpened (r : ScopeOpened)
  | scopeClosed (r : ScopeClosed)
  | scopeReset (r : ScopeReset)
  | candidateSelected (r : CandidateSelected)
  | externalEventDelivered (r : ExternalEventDelivered)
  | scopedDeliveryDropped (r : ScopedDeliveryDropped)
  | scopedDeliveryQuarantined (r : ScopedDeliveryQuarantined)
  | deliveryRegistrationOpened (r : RegistrationFact)
  | deliveryRegistrationClosed (r : RegistrationFact)
  | timerMatured (r : TimerMatured)
  | firingBegun (r : FiringBegun)
  | tokensConsumed (r : Movement)
  | tokensRead (r : Movement)
  | activityRequested (r : ActivityRequested)
  | activityCompleted (r : ActivityCompleted)
  | activityTerminalQuarantined (r : ActivityTerminalQuarantined)
  | tokensProduced (r : Movement)
  | firingCompleted (r : FiringCompleted)
  | activityFailed (r : ActivityFailed)
  | firingFailed (r : FiringFailed)
  deriving DecidableEq

namespace Record

def instant : Record → Instant
  | instanceCreated r => r.instant
  | tokensInitialized r => r.instant
  | scopeOpened r => r.instant
  | scopeClosed r => r.instant
  | scopeReset r => r.instant
  | candidateSelected r => r.instant
  | externalEventDelivered r => r.instant
  | scopedDeliveryDropped r => r.instant
  | scopedDeliveryQuarantined r => r.instant
  | deliveryRegistrationOpened r => r.instant
  | deliveryRegistrationClosed r => r.instant
  | timerMatured r => r.instant
  | firingBegun r => r.instant
  | tokensConsumed r => r.instant
  | tokensRead r => r.instant
  | activityRequested r => r.instant
  | activityCompleted r => r.instant
  | activityTerminalQuarantined r => r.instant
  | tokensProduced r => r.instant
  | firingCompleted r => r.instant
  | activityFailed r => r.instant
  | firingFailed r => r.instant

def occurrence? : Record → Option Nat
  | candidateSelected r => some r.occurrence
  | externalEventDelivered r => some r.occurrence
  | deliveryRegistrationOpened r => r.occurrence
  | deliveryRegistrationClosed r => r.occurrence
  | firingBegun r => some r.occurrence
  | tokensConsumed r => some r.occurrence
  | tokensRead r => some r.occurrence
  | activityRequested r => some r.occurrence
  | activityCompleted r => some r.occurrence
  | activityTerminalQuarantined r => some r.occurrence
  | tokensProduced r => some r.occurrence
  | firingCompleted r => some r.occurrence
  | activityFailed r => some r.occurrence
  | firingFailed r => some r.occurrence
  | _ => none

def typeName : Record → String
  | instanceCreated _ => "InstanceCreated"
  | tokensInitialized _ => "TokensInitialized"
  | scopeOpened _ => "ScopeOpened"
  | scopeClosed _ => "ScopeClosed"
  | scopeReset _ => "ScopeReset"
  | candidateSelected _ => "CandidateSelected"
  | externalEventDelivered _ => "ExternalEventDelivered"
  | scopedDeliveryDropped _ => "ScopedDeliveryDropped"
  | scopedDeliveryQuarantined _ => "ScopedDeliveryQuarantined"
  | deliveryRegistrationOpened _ => "DeliveryRegistrationOpened"
  | deliveryRegistrationClosed _ => "DeliveryRegistrationClosed"
  | timerMatured _ => "TimerMatured"
  | firingBegun _ => "FiringBegun"
  | tokensConsumed _ => "TokensConsumed"
  | tokensRead _ => "TokensRead"
  | activityRequested _ => "ActivityRequested"
  | activityCompleted _ => "ActivityCompleted"
  | activityTerminalQuarantined _ => "ActivityTerminalQuarantined"
  | tokensProduced _ => "TokensProduced"
  | firingCompleted _ => "FiringCompleted"
  | activityFailed _ => "ActivityFailed"
  | firingFailed _ => "FiringFailed"

end Record

def validatePositiveIds (values : List Nat) (noun : String) : Except Exc Unit := do
  require (∀ v ∈ values, 1 ≤ v) (valueError s!"{noun} must use exact positive integers")
  require values.Nodup (valueError s!"{noun} must be unique")

def validateEntries (tokens : List Token) (entries : List Nat) (scope : Option LifecycleScope)
    (noun : String) : Except Exc Unit := do
  require (entries = [] ∨ entries.length = tokens.length)
    (valueError s!"{noun} requires one queue-entry identity per token")
  require (∀ e ∈ entries, 1 ≤ e)
    (valueError s!"{noun} queue-entry identities must be positive integers")
  require entries.Nodup (valueError s!"{noun} queue-entry identities must be unique")
  require (scope = none ∨ entries.length = tokens.length)
    (valueError s!"{noun} scoped movements require one queue-entry identity per token")
  require (entries = [] ∨ scope ≠ none)
    (valueError s!"{noun} queue-entry identities require lifecycle scope provenance")

def validateOccurrenceId (value : Nat) (noun : String) : Except Exc Unit :=
  require (1 ≤ value) (valueError s!"{noun} must be a positive integer, got {value}")

def validateDeliveryTokens (tokens : List Token) (record : String) : Except Exc Unit :=
  require (tokens ≠ [])
    (valueError s!"{record} tokens must be a non-empty tuple of canonical Tokens")

def validateDeliveryIdentity (identity record : String) : Except Exc Unit :=
  require (identity ≠ "")
    (valueError s!"{record} requires an exact non-empty string identity, got {quoted identity}")

def validateText (value record field : String) : Except Exc Unit :=
  require (value ≠ "") (valueError s!"{record} {field} must be a non-empty string")

def RegistrationFact.check (r : RegistrationFact) (record : String) : Except Exc Unit := do
  require (r.key ≠ "") (valueError
    s!"{record} requires a non-empty string key of the exact built-in type, got {quoted r.key}")
  match r.occurrence with
  | none => return ()
  | some occurrence => validateOccurrenceId occurrence s!"{record} occurrence"

def Movement.check (r : Movement) (record : String) : Except Exc Unit := do
  validateOccurrenceId r.occurrence s!"{record} occurrence"
  validateEntries r.tokens r.entries r.scope record

namespace Record

/-- What the constructor and the field validators of a record require of its values. -/
def check : Record → Except Exc Unit
  | instanceCreated r => require (r.instanceId ≠ "")
      (valueError s!"Instance identity must be a non-empty string, got {quoted r.instanceId}")
  | tokensInitialized r => validateEntries r.tokens r.entries r.scope "TokensInitialized"
  | scopeOpened _ => .ok ()
  | scopeClosed r => do
    validatePositiveIds r.discarded "ScopeClosed discarded queue entries"
    validatePositiveIds r.cancelled "ScopeClosed cancelled occurrences"
  | scopeReset r => do
    require (r.opened.name = r.closed.name ∧ r.opened.generation = r.closed.generation + 1)
      (valueError "ScopeReset must open the immediate next generation of the same name")
    validatePositiveIds r.discarded "ScopeReset discarded queue entries"
    validatePositiveIds r.cancelled "ScopeReset cancelled occurrences"
  | candidateSelected r => validateOccurrenceId r.occurrence "CandidateSelected occurrence"
  | externalEventDelivered r => do
    validateOccurrenceId r.occurrence "ExternalEventDelivered occurrence"
    validateDeliveryIdentity r.identity "ExternalEventDelivered"
    validateDeliveryTokens r.tokens "ExternalEventDelivered"
  | scopedDeliveryDropped r => do
    validateDeliveryIdentity r.identity "ScopedDeliveryDropped"
    validateDeliveryTokens r.tokens "ScopedDeliveryDropped"
  | scopedDeliveryQuarantined r => do
    validateDeliveryIdentity r.identity "ScopedDeliveryQuarantined"
    validateDeliveryTokens r.tokens "ScopedDeliveryQuarantined"
    match r.scope with
    | .exact _ => return ()
    | .named name =>
      require (name ≠ "" ∧ '\x00' ∉ name.toList)
        (valueError "ScopedDeliveryQuarantined requires a non-empty scope name without NUL")
  | deliveryRegistrationOpened r => r.check "DeliveryRegistrationOpened"
  | deliveryRegistrationClosed r => r.check "DeliveryRegistrationClosed"
  | timerMatured r => require (r.maturationInstant ≤ r.instant) (valueError
      s!"timer maturation observed at {r.instant}, before its maturation instant {r.maturationInstant}: a wakeup cannot precede what it observes")
  | firingBegun r => validateOccurrenceId r.occurrence "FiringBegun occurrence"
  | tokensConsumed r => r.check "TokensConsumed"
  | tokensRead r => r.check "TokensRead"
  | activityRequested r => do
    validateText r.activity "ActivityRequested" "activity"
    validateText r.correlation "ActivityRequested" "correlation"
    validateText r.idempotency "ActivityRequested" "idempotency"
    validateOccurrenceId r.occurrence "ActivityRequested occurrence"
  | activityCompleted r => validateOccurrenceId r.occurrence "ActivityCompleted occurrence"
  | activityTerminalQuarantined r =>
    validateOccurrenceId r.occurrence "ActivityTerminalQuarantined occurrence"
  | tokensProduced r => r.check "TokensProduced"
  | firingCompleted r => validateOccurrenceId r.occurrence "FiringCompleted occurrence"
  | activityFailed r => validateOccurrenceId r.occurrence "ActivityFailed occurrence"
  | firingFailed r => do
    validateOccurrenceId r.occurrence "FiringFailed occurrence"
    require (r.error ≠ "" ∧ r.error.length ≤ 4096)
      (valueError "FiringFailed error must be a non-empty string of at most 4096 characters")

end Record

def validateHistoryRecords (records : List Record) : Except Exc Unit :=
  records.foldlM (fun _ r => r.check) ()

def writerRecords (records : List Record) : Except Exc (List Record) :=
  match validateHistoryRecords records with
  | .ok () => .ok records
  | .error e =>
    .error
      (if e.isValueError then valueError s!"cannot write non-canonical History: {e.text}" else e)

lemma validateHistoryRecords_ok {records : List Record} :
    validateHistoryRecords records = .ok () ↔ ∀ r ∈ records, r.check = .ok () := by
  unfold validateHistoryRecords
  induction records with
  | nil => simp
  | cons r rs ih =>
    rw [foldlM_cons_eq_ok]
    simp only [List.forall_mem_cons, ← ih]
    constructor
    · intro ⟨_, h, h'⟩
      exact ⟨h, h'⟩
    · intro ⟨h, h'⟩
      exact ⟨(), h, h'⟩

lemma writerRecords_eq_ok {records batch : List Record} :
    writerRecords records = .ok batch ↔ batch = records ∧ ∀ r ∈ records, r.check = .ok () := by
  unfold writerRecords
  rw [← validateHistoryRecords_ok]
  cases validateHistoryRecords records with
  | ok u => simp [eq_comm]
  | error e => simp

/-! ## The movement fold -/

abbrev Queues := Dict NetPath TokenQueue

namespace Queues

def at_ (queues : Queues) (place : NetPath) : TokenQueue := (queues.get? place).getD []

def all (queues : Queues) : List Entry := queues.values.flatten

def marking (queues : Queues) : Marking :=
  Marking.ofDict (queues.mapValues fun _ queue => TokenQueue.tokens queue)

def entryInstants (queues : Queues) (place : NetPath) : List Instant :=
  TokenQueue.instants (queues.at_ place)

end Queues

def nextQueueIdentity (queues : Queues) : Nat := (queues.all.map Entry.identity).foldl max 0 + 1

/-- New entries for `tokens`, one identity each. -/
def minted (tokens : List Token) (instant : Instant) (identities : List Nat)
    (scope : Option LifecycleScope) : List Entry :=
  List.zipWith (fun token identity => ⟨token, instant, identity, scope⟩) tokens identities

/-- `a or b or ...` over tuples: the first non-empty one. -/
def orElse (a b : List Nat) : List Nat := if a = [] then b else a

def deposit (queues : Queues) (place : NetPath) (tokens : List Token) (entries : List Nat)
    (scope : Option LifecycleScope) (instant : Instant) (inferred : List Nat) :
    Except Exc Queues := do
  let next := nextQueueIdentity queues
  let identities := orElse entries (orElse inferred (List.range' next tokens.length))
  require (identities.length = tokens.length)
    (valueError "movement fold requires one inferred queue-entry identity per token")
  require (∀ i ∈ identities, i ∉ queues.all.map Entry.identity)
    (valueError "replay divergence: queue-entry identities already present")
  return queues.set place (queues.at_ place ++ minted tokens instant identities scope)

/-- Discard the scope's named entries from one place; the second part is still to be found. -/
def cleanupStep (closed : LifecycleScope) (state : Queues × List Nat) (e : NetPath × TokenQueue) :
    Except Exc (Queues × List Nat) :=
  let present := (e.2.filter fun entry =>
    entry.identity ∈ state.2 ∧ entry.scope = some closed).map Entry.identity
  if present = [] then .ok state
  else do
    let queue ← TokenQueue.discard e.2 present
    return (state.1.set e.1 queue, state.2.filter fun i => i ∉ present)

/-- Discard one close or reset record's exact entries and prove completeness. -/
def applyScopeCleanup (queues : Queues) (closed : LifecycleScope) (discarded : List Nat) :
    Except Exc Queues := do
  let (queues, remaining) ← queues.entries.foldlM (cleanupStep closed) (queues, discarded)
  require (remaining = [])
    (valueError
      s!"replay divergence: cannot discard queue entries from lifecycle scope {closed.name}")
  require (∀ e ∈ queues.all, e.scope ≠ some closed)
    (valueError s!"replay divergence: lifecycle close left queue entries in scope {closed.name}")
  return queues

/-- One record applied to the queues; `TokensRead` and non-movements apply as nothing. -/
def applyMovement (queues : Queues) (record : Record) (inferred : List Nat := []) :
    Except Exc Queues :=
  match record with
  | .tokensInitialized r =>
    deposit queues r.place r.tokens r.entries r.scope r.instant inferred
  | .tokensProduced r => deposit queues r.place r.tokens r.entries r.scope r.instant inferred
  | .tokensConsumed r => do
    let queue ← readdress
      s!"replay divergence: cannot consume token from {r.place.str}: token not present"
      (TokenQueue.remove (queues.at_ r.place) r.tokens r.entries)
    return queues.set r.place queue
  | .scopeClosed r => applyScopeCleanup queues r.scope r.discarded
  | .scopeReset r => applyScopeCleanup queues r.closed r.discarded
  | _ => .ok queues

/-- The state of the queue replay: the queues, the next identity and the spent ones. -/
structure QueueFold where
  queues : Queues := Dict.empty
  nextIdentity : Nat := 1
  spent : List Nat := []

namespace QueueFold

/-- The deposit of a record, if it is one: its tokens and recorded entries. -/
def deposited : Record → Option (List Token × List Nat)
  | .tokensInitialized r => some (r.tokens, r.entries)
  | .tokensProduced r => some (r.tokens, r.entries)
  | _ => none

def step (s : QueueFold) (record : Record) : Except Exc QueueFold :=
  match deposited record with
  | none => do return { s with queues := ← applyMovement s.queues record }
  | some (tokens, entries) => do
    let inferred := orElse entries (List.range' s.nextIdentity tokens.length)
    require (∀ i ∈ inferred, i ∉ s.spent)
      (valueError "replay divergence: queue-entry identities were already spent")
    return {
      queues := ← applyMovement s.queues record inferred
      nextIdentity := inferred.foldl (fun next i => max next (i + 1)) s.nextIdentity
      spent := s.spent ++ inferred }

end QueueFold

def replayQueueProjection (records : List Record) : Except Exc QueueFold :=
  records.foldlM QueueFold.step {}

def replayQueues (records : List Record) : Except Exc Queues :=
  QueueFold.queues <$> replayQueueProjection records

def replayNextQueueIdentity (records : List Record) : Except Exc Nat :=
  QueueFold.nextIdentity <$> replayQueueProjection records

def watermarkStep (watermark : Option Instant) (record : Record) : Except Exc (Option Instant) := do
  match watermark with
  | none => return some record.instant
  | some w =>
    require (w ≤ record.instant) (valueError
      s!"replay divergence: instant {record.instant} steps backwards past {w}: the single writer appends monotone instants")
    return some record.instant

def replayWatermark (records : List Record) : Except Exc Instant := do
  match ← records.foldlM watermarkStep none with
  | none => .error (valueError "an empty history proves no watermark")
  | some w => .ok w

end Petrus.Impetus
