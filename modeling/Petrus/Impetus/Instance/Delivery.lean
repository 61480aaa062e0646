import Petrus.Impetus.Instance.End

/-!
# Deliveries, sealing and wakeups

The delivery door accepts an external event once per identity and answers every
redelivery from the recorded fact. Sealing closes every armed registration of a
source; a wakeup records that time has matured a binding.
-/

namespace Petrus.Impetus

open Lib Motus

/-- A token as an ingress adapter supplies it. -/
structure SuppliedToken where
  color : Option Color := none
  data : Payload
  deriving DecidableEq

structure AcceptedDelivery where
  instanceId : String
  source : NetPath
  identity : String
  occurrence : Nat
  deriving DecidableEq

inductive DeliveryDisposition where
  | dropped
  | quarantined
  deriving DecidableEq

inductive DeliveryAnswer where
  | accepted (a : AcceptedDelivery)
  | priorAcknowledgement (identity : String) (occurrence : Nat)
  | scoped (identity : String) (disposition : DeliveryDisposition) (scope : Option ScopeTarget)
  deriving DecidableEq

/-- A delivery request, as its caller spells it. -/
structure DeliveryRequest where
  source : Destination
  tokens : List SuppliedToken
  atInstant : Option Instant := none
  identity : String
  scope : Option ScopeTarget := none

/-- A request whose source, tokens, scope and identity passed the door's shape checks. -/
structure CanonicalDelivery where
  source : NetPath
  tokens : List Token
  identity : String
  scope : Option ScopeTarget

def canonicalDeliveryTokens (path : NetPath) :
    Nat → List SuppliedToken → Except Exc (List Token)
  | _, [] => .ok []
  | position, token :: rest => do
    let data ← canonicalPayload token.data
      s!"delivery to {path.str}: token {position} has invalid data"
    let others ← canonicalDeliveryTokens path (position + 1) rest
    return ⟨token.color, data⟩ :: others

def DeliveryRequest.canonical (r : DeliveryRequest) : Except Exc CanonicalDelivery := do
  let path ← r.source.resolve
  match r.scope with
  | some (.named name) =>
    require (name ≠ "" ∧ '\x00' ∉ name.toList)
      (valueError "uncertain delivery scope must be a non-empty name without NUL")
  | _ => pure ()
  require (r.tokens ≠ []) (valueError s!"delivery to {path.str} requires at least one token")
  let tokens ← canonicalDeliveryTokens path 1 r.tokens
  require (r.identity ≠ "") (valueError
    s!"delivery to {path.str}: identity must be a non-empty string of the exact built-in type, got {quoted r.identity}")
  return ⟨path, tokens, r.identity, r.scope⟩

/-- The same source, type-sensitive token content and scope as the recorded fact. -/
def AcceptedDeliveryFact.matches_ (prior : AcceptedDeliveryFact) (d : CanonicalDelivery) : Bool :=
  prior.source = d.source ∧ prior.tokens.map Token.spelling = d.tokens.map Token.spelling ∧
    prior.scope = d.scope

def redeliveryAnswer (s : Instance) (identity : String) : AcceptedDeliveryFact → DeliveryAnswer
  | .dropped r => .scoped identity .dropped (some (.exact r.scope))
  | .quarantined r => .scoped identity .quarantined (some r.scope)
  | .delivered r =>
    if s.inFlight.contains r.occurrence then
      .accepted ⟨s.instanceId, r.source, r.identity, r.occurrence⟩
    else .priorAcknowledgement identity r.occurrence

/-- Where a delivery goes: to a firing in the given scope, or to a recorded disposition. -/
inductive Routing where
  | fires (scope : Option LifecycleScope)
  | dropped (scope : LifecycleScope)
  | quarantined (target : ScopeTarget)

def routing (s : Instance) : Option ScopeTarget → Routing
  | none => .fires none
  | some (.named name) => .quarantined (.named name)
  | some (.exact scope) =>
    if s.activeScopes.get? scope.name = some scope then .fires (some scope)
    else if scope.generation ≤ (s.scopeGenerations.get? scope.name).getD 0 then .dropped scope
    else .quarantined (.exact scope)

structure DispositionPlan where
  fact : AcceptedDeliveryFact
  answer : DeliveryAnswer
  instant : Instant

def dispositionSettle (p : DispositionPlan) : Door DeliveryAnswer := do
  advance p.instant
  Act.modify fun s => { s with
    acceptedIdentities := s.acceptedIdentities.set p.fact.identity p.fact }
  return p.answer

def dispositionPlan (fact : AcceptedDeliveryFact) (answer : DeliveryAnswer) (instant : Instant) :
    Except Exc (Plan DispositionPlan DeliveryAnswer) := do
  let batch ← writerRecords [fact.record]
  return .batch batch ⟨fact, answer, instant⟩

def deliveredRecord (d : CanonicalDelivery) (scope : Option LifecycleScope) (occurrence : Nat)
    (instant : Instant) : ExternalEventDelivered :=
  ⟨d.source, d.tokens, d.identity, occurrence, scope, instant⟩

/-- Begin the source occurrence of an accepted delivery and remember its identity. -/
def beginDelivery (store : Store) (d : CanonicalDelivery) (scope : Option LifecycleScope)
    (atInstant : Option Instant) : Door DeliveryAnswer := do
  let occurrence ← beginOccurrence store (Binding.delivery d.source d.tokens) atInstant
    (fun occurrence instant => .externalEventDelivered (deliveredRecord d scope occurrence instant))
    none scope
  Act.modify fun s => { s with
    acceptedIdentities := s.acceptedIdentities.set d.identity
      (.delivered (deliveredRecord d scope occurrence.id s.watermark)) }
  let s ← Act.get
  return .accepted ⟨s.instanceId, d.source, d.identity, occurrence.id⟩

/-- The refusal of an identity reused for another source, content or scope. -/
def identityConflict (prior : AcceptedDeliveryFact) (d : CanonicalDelivery) : Exc :=
  valueError s!"delivery identity conflict for {quoted d.identity}: recorded source {prior.source.str}; attempted source {d.source.str}"

def validateDeliverySource (D : Definition) (path : NetPath) : Except Exc Unit := do
  require (path ∈ D.net.transitionPaths)
    (valueError s!"cannot deliver to {path.str}: not a transition of this net")
  require (D.net.isSource path) (valueError
    s!"cannot deliver to transition {path.str}: it has input arcs — only a source transition takes delivery")

def acceptFresh (D : Definition) (store : Store) (d : CanonicalDelivery)
    (atInstant : Option Instant) : Door DeliveryAnswer := do
  let s ← Act.get
  Act.lift (validateDeliverySource D d.source)
  let instant := s.effective atInstant
  match routing s d.scope with
  | .dropped scope =>
    door (commit store (fun _ => dispositionPlan
      (.dropped ⟨d.source, d.tokens, d.identity, scope, instant⟩)
      (.scoped d.identity .dropped (some (.exact scope))) instant) dispositionSettle)
  | .quarantined target =>
    door (commit store (fun _ => dispositionPlan
      (.quarantined ⟨d.source, d.tokens, d.identity, target, instant⟩)
      (.scoped d.identity .quarantined (some target)) instant) dispositionSettle)
  | .fires scope => do
    Act.lift (require (s.armedKeys d.source ≠ []) (valueError
      s!"cannot deliver to source transition {d.source.str}: no armed delivery registration"))
    beginDelivery store d scope atInstant

def acceptDelivery (D : Definition) (store : Store) (r : DeliveryRequest) :
    Door DeliveryAnswer := do
  let d ← Act.lift r.canonical
  let s ← Act.get
  match s.acceptedIdentities.get? d.identity with
  | some prior =>
    Act.lift (require (prior.matches_ d) (identityConflict prior d))
    return redeliveryAnswer s d.identity prior
  | none => acceptFresh D store d r.atInstant

def deliveredOccurrence (D : Definition) (s : Instance) (a : AcceptedDelivery) :
    Except Exc FiringOccurrence := do
  require (a.instanceId = s.instanceId) (valueError
    s!"cannot complete delivery for Instance {quoted a.instanceId}: this is Instance {quoted s.instanceId}")
  let recorded : Option ExternalEventDelivered :=
    match s.acceptedIdentities.get? a.identity with
    | some (.delivered prior) =>
      if prior.source = a.source ∧ prior.identity = a.identity ∧ prior.occurrence = a.occurrence
      then some prior else none
    | _ => none
  match s.inFlight.get? a.occurrence with
  | none =>
    if recorded = none then
      .error (valueError
        s!"cannot complete delivery {quoted a.identity}: no matching accepted unfinished occurrence")
    else .error (valueError
        s!"cannot complete accepted delivery {quoted a.identity}: firing occurrence {a.occurrence} already ended")
  | some occurrence =>
    let t := occurrence.binding.transition
    require (D.net.isSource t) (valueError
      s!"cannot complete delivery {quoted a.identity}: firing occurrence {a.occurrence} belongs to a non-source transition {t.str}")
    require (occurrence.invocation = none ∧ D.activityBound t = false) (valueError
      s!"cannot complete delivery {quoted a.identity}: firing occurrence {a.occurrence} is impure")
    require (t = a.source ∧ recorded.any fun prior =>
        tokenValues occurrence.binding.delivered = tokenValues prior.tokens ∧
          occurrence.scope = prior.scope) (valueError
      s!"cannot complete delivery {quoted a.identity}: acceptance does not match firing occurrence {a.occurrence}")
    return occurrence

def completeDelivery (D : Definition) (store : Store) (a : AcceptedDelivery)
    (atInstant : Option Instant) : Door FiringOutcome := do
  let s ← Act.get
  let occurrence ← Act.lift (deliveredOccurrence D s a)
  execute D store occurrence atInstant

/-! ## Sealing and waking -/

def sealRecords (source : NetPath) (keys : List String) (instant : Instant) : List Record :=
  keys.map fun key => .deliveryRegistrationClosed ⟨source, key, none, instant⟩

def sealPlan (D : Definition) (source : Destination) (atInstant : Option Instant) (s : Instance) :
    Except Exc (Plan (NetPath × Instant) Unit) := do
  let path ← source.resolve
  require (path ∈ D.net.transitionPaths)
    (valueError s!"cannot seal {path.str}: not a transition of this net")
  require (D.net.isSource path) (valueError
    s!"cannot seal transition {path.str}: it has input arcs — only a source transition has delivery registrations")
  require (s.armedKeys path ≠ []) (valueError
    s!"cannot seal source transition {path.str}: no armed delivery registration")
  let instant := s.effective atInstant
  let batch ← writerRecords
    (sealRecords path ((s.armedKeys path).insertionSort (· ≤ ·)) instant)
  return .batch batch (path, instant)

def sealSettle (p : NetPath × Instant) : Door Unit := do
  advance p.2
  Act.modify fun s => { s with armed := s.armed.set p.1 [] }

def sealSource (D : Definition) (store : Store) (source : Destination)
    (atInstant : Option Instant) :
    Door Unit :=
  door (commit store (sealPlan D source atInstant) sealSettle)

def wakePlan (D : Definition) (atInstant : Instant) (s : Instance) :
    Except Exc (Plan TimerMatured (Option TimerMatured)) := do
  let pending ← s.nextMaturation D
  let instant := s.effective (some atInstant)
  match pending with
  | none => return .answer none
  | some mature =>
    if instant < mature then return .answer none
    else do
      let record : TimerMatured := ⟨mature, instant⟩
      let batch ← writerRecords [.timerMatured record]
      return .batch batch record

def wake (D : Definition) (store : Store) (atInstant : Instant) : Door (Option TimerMatured) :=
  door (commit store (wakePlan D atInstant) fun record => do
    advance record.instant
    return some record)

end Petrus.Impetus
