import Petrus.Impetus.History.Record

/-!
# Registration, delivery, scope and identity projections

The replay folds of the history that are about nodes and names rather than token
movements: armed delivery registrations, accepted delivery identities, lifecycle
scopes, the spent occurrence ids and the instance identity.
-/

namespace Petrus.Impetus

open Lib

/-- Position of a record inside a completion batch: productions, then closes, then opens. -/
def effectRank : Record → Option Nat
  | .tokensProduced _ => some 0
  | .deliveryRegistrationClosed _ => some 1
  | .deliveryRegistrationOpened _ => some 2
  | _ => none

def effectOccurrences (records : List Record) : List Nat :=
  records.filterMap fun
    | .deliveryRegistrationOpened r => r.occurrence
    | .deliveryRegistrationClosed r => r.occurrence
    | _ => none

structure CorrelationFold where
  begun : Dict Nat NetPath := Dict.empty
  active : Option (Nat × Instant × Nat) := none

namespace CorrelationFold

def refusal (occurrence : Nat) : Exc :=
  valueError s!"replay divergence: correlated delivery registration effect for occurrence {occurrence} does not belong to a contiguous writer-valid completion batch"

/-- Whether the record is the boundary that ends the open completion batch. -/
def completes (s : CorrelationFold) (occurrence : Nat) (instant : Instant) : Record → Bool
  | .firingCompleted r => r.occurrence = occurrence ∧ r.instant = instant ∧
      s.begun.get? occurrence = some r.transition
  | _ => false

def continued (s : CorrelationFold) (occurrence : Nat) (instant : Instant) (priorRank : Nat)
    (record : Record) : Except Exc CorrelationFold := do
  if s.completes occurrence instant record then
    return { s with active := none }
  else
    match effectRank record with
    | none => .error (refusal occurrence)
    | some rank =>
      require (record.occurrence? = some occurrence ∧ record.instant = instant ∧ priorRank ≤ rank)
        (refusal occurrence)
      return { s with active := some (occurrence, instant, rank) }

def opened (s : CorrelationFold) (occurrence : Nat) (instant : Instant) (rank : Nat) :
    Except Exc CorrelationFold := do
  require (s.begun.contains occurrence) (refusal occurrence)
  return { s with active := some (occurrence, instant, rank) }

def step (effects : List Nat) (s : CorrelationFold) (record : Record) :
    Except Exc CorrelationFold :=
  match s.active with
  | some (occurrence, instant, rank) => s.continued occurrence instant rank record
  | none =>
    match record with
    | .firingBegun r => .ok { s with begun := s.begun.set r.occurrence r.transition }
    | .tokensProduced r =>
      if r.occurrence ∈ effects then s.opened r.occurrence r.instant 0 else .ok s
    | .deliveryRegistrationClosed r =>
      match r.occurrence with
      | none => .ok s
      | some occurrence => s.opened occurrence r.instant 1
    | .deliveryRegistrationOpened r =>
      match r.occurrence with
      | none => .ok s
      | some occurrence => s.opened occurrence r.instant 2
    | _ => .ok s

end CorrelationFold

/-- Every firing-correlated registration effect ends in its contiguous completion batch. -/
def validateCorrelatedDeliveryRegistrationBatches (records : List Record) : Except Exc Unit := do
  let s ← records.foldlM (CorrelationFold.step (effectOccurrences records)) {}
  match s.active with
  | none => return ()
  | some (occurrence, _, _) => .error (CorrelationFold.refusal occurrence)

/-- The armed keys of a source; a key set is kept in the order its keys were opened. -/
abbrev Armed := Dict NetPath (List String)

structure ArmedFold where
  armed : Armed := Dict.empty
  initialRegistrationBatch : Bool := true
  registrationsStarted : Bool := false

namespace ArmedFold

/-- Validate and advance the construction prefix before the record is applied. -/
def advance (s : ArmedFold) : Record → Except Exc ArmedFold
  | .deliveryRegistrationOpened { occurrence := none, .. } =>
    .ok { s with registrationsStarted := true }
  | .tokensInitialized _ => do
    require (s.initialRegistrationBatch = true ∧ s.registrationsStarted = false) (valueError
      "replay divergence: TokensInitialized appears outside the contiguous initial construction prefix")
    return s
  | .instanceCreated _ => .ok s
  | _ => .ok { s with initialRegistrationBatch := false }

def opening (s : ArmedFold) (initialInstant : Instant) (r : RegistrationFact) :
    Except Exc Armed := do
  let keys := (s.armed.get? r.source).getD []
  require (r.key ∉ keys) (valueError
    s!"replay divergence: delivery registration {quoted r.key} on {r.source.str} opened while armed")
  if r.occurrence = none then
    require (s.initialRegistrationBatch = true) (valueError
      s!"replay divergence: uncorrelated delivery registration {quoted r.key} on {r.source.str} opened outside the initial construction batch; the single writer emits an uncorrelated open only in the initial construction batch")
    require (r.key = "default") (valueError
      s!"replay divergence: initial delivery registration on {r.source.str} uses key {quoted r.key}; the single writer uses only 'default'")
    require (r.instant = initialInstant) (valueError
      s!"replay divergence: initial delivery registration {quoted r.key} on {r.source.str} uses instant {r.instant}, not construction instant {initialInstant}")
  return s.armed.set r.source (keys ++ [r.key])

def closing (s : ArmedFold) (r : RegistrationFact) : Except Exc Armed := do
  let keys := (s.armed.get? r.source).getD []
  require (r.key ∈ keys) (valueError
    s!"replay divergence: delivery registration {quoted r.key} on {r.source.str} closed while not armed")
  return s.armed.set r.source (keys.filter (· ≠ r.key))

def applyDeliveryRegistration (s : ArmedFold) (initialInstant : Instant) :
    Record → Except Exc ArmedFold
  | .deliveryRegistrationOpened r => do return { s with armed := ← s.opening initialInstant r }
  | .deliveryRegistrationClosed r => do return { s with armed := ← s.closing r }
  | _ => .ok s

def step (initialInstant : Instant) (s : ArmedFold) (record : Record) : Except Exc ArmedFold := do
  let s ← s.advance record
  s.applyDeliveryRegistration initialInstant record

end ArmedFold

def initialInstant (records : List Record) : Instant :=
  match records with
  | [] => 0
  | r :: _ => r.instant

def replayArmed (records : List Record) : Except Exc Armed := do
  validateCorrelatedDeliveryRegistrationBatches records
  let s ← records.foldlM (ArmedFold.step (initialInstant records)) {}
  return s.armed

inductive AcceptedDeliveryFact where
  | delivered (r : ExternalEventDelivered)
  | dropped (r : ScopedDeliveryDropped)
  | quarantined (r : ScopedDeliveryQuarantined)
  deriving DecidableEq

namespace AcceptedDeliveryFact

def source : AcceptedDeliveryFact → NetPath
  | delivered r => r.source
  | dropped r => r.source
  | quarantined r => r.source

def tokens : AcceptedDeliveryFact → List Token
  | delivered r => r.tokens
  | dropped r => r.tokens
  | quarantined r => r.tokens

def identity : AcceptedDeliveryFact → String
  | delivered r => r.identity
  | dropped r => r.identity
  | quarantined r => r.identity

def scope : AcceptedDeliveryFact → Option ScopeTarget
  | delivered r => r.scope.map .exact
  | dropped r => some (.exact r.scope)
  | quarantined r => some r.scope

def record : AcceptedDeliveryFact → Record
  | delivered r => .externalEventDelivered r
  | dropped r => .scopedDeliveryDropped r
  | quarantined r => .scopedDeliveryQuarantined r

end AcceptedDeliveryFact

def Record.acceptedFact? : Record → Option AcceptedDeliveryFact
  | .externalEventDelivered r => some (.delivered r)
  | .scopedDeliveryDropped r => some (.dropped r)
  | .scopedDeliveryQuarantined r => some (.quarantined r)
  | _ => none

structure AcceptedFold where
  accepted : Dict String AcceptedDeliveryFact := Dict.empty
  registrations : ArmedFold := {}

namespace AcceptedFold

/-- What the acceptance of an external event requires of the registrations and the next record. -/
def requireAcceptance (s : AcceptedFold) (r : ExternalEventDelivered) (following : Option Record) :
    Except Exc Unit := do
  require ((s.registrations.armed.get? r.source).getD [] ≠ []) (valueError
    s!"replay divergence: accepted delivery identity {quoted r.identity} source {r.source.str} had no armed delivery registration")
  require (following = some (.firingBegun ⟨r.source, r.occurrence, r.scope, r.instant⟩)) (valueError
    s!"replay divergence: accepted delivery identity {quoted r.identity} requires an immediately following matching FiringBegun")

def step (initialInstant : Instant) (s : AcceptedFold) (record : Record)
    (following : Option Record) : Except Exc AcceptedFold := do
  let registrations ← ArmedFold.step initialInstant s.registrations record
  let s := { s with registrations }
  match record.acceptedFact? with
  | none => return s
  | some fact =>
    validateDeliveryTokens fact.tokens
      s!"replay divergence: {record.typeName} identity {quoted fact.identity}"
    match fact with
    | .delivered r => s.requireAcceptance r following
    | _ => pure ()
    require (s.accepted.contains fact.identity = false) (valueError
      s!"replay divergence: delivery identity {quoted fact.identity} accepted twice — the single writer accepts an identity once and answers redelivery from that accepted fact")
    return { s with accepted := s.accepted.set fact.identity fact }

end AcceptedFold

def replayAcceptedIdentities (records : List Record) :
    Except Exc (Dict String AcceptedDeliveryFact) := do
  validateCorrelatedDeliveryRegistrationBatches records
  let s ← foldlNext (AcceptedFold.step (initialInstant records)) {} records none
  return s.accepted

structure ScopeFold where
  active : Dict String LifecycleScope := Dict.empty
  generations : Dict String Nat := Dict.empty

def Record.provenance? : Record → Option LifecycleScope
  | .tokensInitialized r => r.scope
  | .externalEventDelivered r => r.scope
  | .firingBegun r => r.scope
  | .tokensConsumed r => r.scope
  | .tokensRead r => r.scope
  | .activityRequested r => r.scope
  | .tokensProduced r => r.scope
  | _ => none

namespace ScopeFold

def spent (s : ScopeFold) (name : String) : Nat := (s.generations.get? name).getD 0

def step (s : ScopeFold) (record : Record) : Except Exc ScopeFold :=
  match record with
  | .scopeOpened r => do
    require (s.active.contains r.scope.name = false ∧ r.scope.generation = s.spent r.scope.name + 1)
      (valueError s!"replay divergence: invalid scope open {r.scope.name}")
    return { active := s.active.set r.scope.name r.scope
             generations := s.generations.set r.scope.name r.scope.generation }
  | .scopeClosed r => do
    require (s.active.get? r.scope.name = some r.scope)
      (valueError s!"replay divergence: scope {r.scope.name} closed while not active")
    return { s with active := s.active.erase r.scope.name }
  | .scopeReset r => do
    require (s.active.get? r.closed.name = some r.closed)
      (valueError s!"replay divergence: scope {r.closed.name} reset while not active")
    return { active := s.active.set r.opened.name r.opened
             generations := s.generations.set r.opened.name r.opened.generation }
  | .scopedDeliveryDropped r => do
    require (s.active.get? r.scope.name ≠ some r.scope ∧ r.scope.generation ≤ s.spent r.scope.name)
      (valueError
        s!"replay divergence: delivery dropped for scope {r.scope.name} without proof it was closed")
    return s
  | .scopedDeliveryQuarantined { scope := .exact scope, .. } => do
    require (s.active.get? scope.name ≠ some scope ∧ s.spent scope.name < scope.generation)
      (valueError
        s!"replay divergence: exact delivery target {scope.name} was quarantined despite a known disposition")
    return s
  | _ =>
    match record.provenance? with
    | none => .ok s
    | some scope => do
      require (s.active.get? scope.name = some scope) (valueError
        s!"replay divergence: {record.typeName} uses inactive lifecycle scope {scope.name}")
      return s

end ScopeFold

def replayScopes (records : List Record) : Except Exc ScopeFold :=
  records.foldlM ScopeFold.step {}

def replayNextOccurrence (records : List Record) : Nat :=
  (records.filterMap Record.occurrence?).foldl max 0 + 1

def Record.isInstanceCreated : Record → Bool
  | .instanceCreated _ => true
  | _ => false

def replayInstanceIdentity (records : List Record) : Except Exc InstanceCreated :=
  match records with
  | .instanceCreated r :: rest => do
    require (∀ record ∈ rest, record.isInstanceCreated = false) (valueError
      "replay divergence: InstanceCreated past position 0: the single writer records identity as the first record, exactly once")
    return r
  | _ => .error (valueError
      "replay divergence: the construction batch requires InstanceCreated as its first record")

end Petrus.Impetus
