import Petrus.Impetus.Instance.Delivery

/-!
# Resume

Rebuilding a live instance from its recorded history. Every piece of live state is
the projection of the records; what the single writer cannot have written is
refused.
-/

namespace Petrus.Impetus

open Lib Motus

/-! ## The construction batch -/

structure ConstructionFold where
  registrations : List RegistrationFact := []
  registrationsStarted : Bool := false
  initialized : List NetPath := []
  constructionEnded : Bool := false

namespace ConstructionFold

def initialization (net : Net) (instant : Instant) (s : ConstructionFold) (r : TokensInitialized) :
    Except Exc ConstructionFold := do
  require (r.place ∈ net.placePaths) (valueError
    s!"replay divergence: unknown place {r.place.str} in the initial marking; the live constructor initializes only declared places")
  require (r.place ∉ s.initialized) (valueError
    s!"replay divergence: initial marking place {r.place.str} must be initialized exactly once")
  require (r.tokens ≠ []) (valueError
    s!"replay divergence: initial marking place {r.place.str} has no tokens; the live constructor omits empty places")
  require (r.instant = instant) (valueError
    s!"replay divergence: initial tokens on {r.place.str} use instant {r.instant}, not construction instant {instant}")
  require (r.entries = [] ∧ r.scope = none) (valueError
    s!"replay divergence: initial marking place {r.place.str} carries queue entries or scope; the live constructor records neither")
  validateInitialTokens net r.place r.tokens
  return { s with initialized := s.initialized ++ [r.place] }

def step (net : Net) (instant : Instant) (s : ConstructionFold) (record : Record) :
    Except Exc ConstructionFold :=
  match record with
  | .tokensInitialized r =>
    if s.constructionEnded then .error (valueError
      "replay divergence: TokensInitialized appears outside the contiguous initial construction prefix")
    else if s.registrationsStarted then .error (valueError
      "replay divergence: initial construction prefix is a construction batch that requires every TokensInitialized record before its source registrations")
    else initialization net instant s r
  | .deliveryRegistrationOpened r =>
    if s.constructionEnded then .ok s
    else if r.occurrence = none then
      .ok { s with registrationsStarted := true, registrations := s.registrations ++ [r] }
    else .ok { s with constructionEnded := true }
  | _ => .ok { s with constructionEnded := true }

end ConstructionFold

def validateConstructionBatch (net : Net) (records : List Record) (identity : InstanceCreated) :
    Except Exc Unit := do
  let s ← records.tail.foldlM (ConstructionFold.step net identity.instant) {}
  require (s.registrations = net.sourceTransitions.map fun source =>
      { source, key := "default", occurrence := none, instant := identity.instant }) (valueError
    "replay divergence: initial construction prefix is a construction batch whose source registrations require exactly one ordered default open for every source")

/-! ## Accepted source occurrences -/

def sourceOccurrences (accepted : Dict String AcceptedDeliveryFact) :
    Dict Nat ExternalEventDelivered :=
  Dict.ofList (accepted.values.filterMap fun
    | .delivered r => some (r.occurrence, r)
    | _ => none)

structure SourceFold where
  phases : Dict Nat Nat := Dict.empty
  phaseNames : Dict Nat String := Dict.empty
  endInstants : Dict Nat Instant := Dict.empty
  terminals : Dict Nat String := Dict.empty
  producedPlaces : Dict Nat (List NetPath) := Dict.empty
  productions : Dict Nat (List Selection) := Dict.empty
  cancelled : List Nat := []
  observedAcceptances : List Nat := []
  nextEntry : Nat := 1
  activeCompletion : Option Nat := none

def productionSpelling (selections : List Selection) : List Selection :=
  selections.map fun s => (s.1, s.2.map Token.spelling)

def defaultProductions (D : Definition) (accepted : ExternalEventDelivered) : List Selection :=
  (passthrough (Binding.delivery accepted.source accepted.tokens)
    (D.net.outputs accepted.source)).entries

def completionRank : Record → Option Nat
  | .tokensProduced _ => some 0
  | .deliveryRegistrationClosed _ => some 1
  | .deliveryRegistrationOpened _ => some 2
  | .firingCompleted _ => some 3
  | _ => none

def Record.isActivityOrSelection : Record → Bool
  | .tokensConsumed _ => true
  | .tokensRead _ => true
  | .activityRequested _ => true
  | .activityCompleted _ => true
  | .activityFailed _ => true
  | .activityTerminalQuarantined _ => true
  | _ => false

def Record.isRegistration : Record → Bool
  | .deliveryRegistrationClosed _ => true
  | .deliveryRegistrationOpened _ => true
  | _ => false

namespace SourceFold

def rejection (accepted : ExternalEventDelivered) : String :=
  s!"cannot resume: accepted delivery identity {quoted accepted.identity} source occurrence {accepted.occurrence}"

/-- A close may cancel an accepted occurrence only between its acceptance and its end. -/
def cancel (sources : Dict Nat ExternalEventDelivered) (typeName : String) (s : SourceFold)
    (occurrence : Nat) : Except Exc SourceFold :=
  match sources.get? occurrence with
  | none => .ok s
  | some accepted => do
    require (occurrence ∈ s.observedAcceptances) (valueError
      s!"{rejection accepted} contains {typeName} cancellation before its acceptance pair")
    require (s.phases.contains occurrence = false ∧ s.terminals.contains occurrence = false)
      (valueError s!"{rejection accepted} was lifecycle-cancelled after its end")
    return { s with cancelled := s.cancelled ++ [occurrence] }

def production (D : Definition) (accepted : ExternalEventDelivered) (s : SourceFold) (r : Movement)
    (expectedEntries : List Nat) : Except Exc SourceFold := do
  let places := (s.producedPlaces.get? r.occurrence).getD []
  require (r.tokens ≠ [])
    (valueError s!"{rejection accepted} contains an empty TokensProduced record")
  require (r.place ∉ places) (valueError
    s!"{rejection accepted} contains a second TokensProduced record for {r.place.str}")
  require (r.scope = accepted.scope) (valueError
    s!"{rejection accepted} production on {r.place.str} has another lifecycle scope than the accepted one")
  require (r.scope = none ∨ r.entries = expectedEntries) (valueError
    s!"{rejection accepted} production on {r.place.str} has queue-entry identities other than the writer's exact next identities")
  require (∀ token ∈ r.tokens, (D.net.outputs accepted.source).any fun arc =>
      arc.target = r.place && arc.admits token.color) (valueError
    s!"{rejection accepted} production on {r.place.str} carries token(s) not admitted by any output arc of source {accepted.source.str}")
  return { s with
    producedPlaces := s.producedPlaces.set r.occurrence (places ++ [r.place])
    productions := s.productions.set r.occurrence
      ((s.productions.get? r.occurrence).getD [] ++ [(r.place, r.tokens)]) }

/-- Require the exact output of the built-in passthrough when the source declares no handler. -/
def passthroughComplete (D : Definition) (accepted : ExternalEventDelivered)
    (productions : List Selection) : Except Exc Unit :=
  require (D.declaresHandler accepted.source ∨
      productionSpelling productions = productionSpelling (defaultProductions D accepted))
    (valueError s!"{rejection accepted} default passthrough requires exact productions")

def completion (D : Definition) (accepted : ExternalEventDelivered) (s : SourceFold)
    (record : Record) (expectedEntries : List Nat) : Except Exc SourceFold := do
  let occurrence := accepted.occurrence
  require (record.isRegistration = false ∨ D.declaresHandler accepted.source) (valueError
    s!"{rejection accepted} default passthrough does not permit delivery-registration effects; found {record.typeName}")
  match completionRank record with
  | none => .error (valueError s!"{rejection accepted} contains writer-invalid {record.typeName}")
  | some rank =>
    require (∀ prior ∈ s.phases.get? occurrence, prior ≤ rank)
      (valueError s!"{rejection accepted} contains disordered {record.typeName}")
    require (∀ instant ∈ s.endInstants.get? occurrence, record.instant = instant) (valueError
      s!"{rejection accepted} completion batch changes instant to {record.instant}")
    let s := { s with
      activeCompletion := some (s.activeCompletion.getD occurrence)
      endInstants := if s.endInstants.contains occurrence then s.endInstants
        else s.endInstants.set occurrence record.instant
      phases := s.phases.set occurrence rank
      phaseNames := s.phaseNames.set occurrence record.typeName }
    match record with
    | .tokensProduced r => production D accepted s r expectedEntries
    | .firingCompleted _ => do
      passthroughComplete D accepted ((s.productions.get? occurrence).getD [])
      return { s with
        terminals := s.terminals.set occurrence record.typeName
        activeCompletion := none }
    | _ => return s

def correlated (D : Definition) (accepted : ExternalEventDelivered) (s : SourceFold)
    (record : Record) (expectedEntries : List Nat) : Except Exc SourceFold :=
  let occurrence := accepted.occurrence
  match record with
  | .externalEventDelivered _ => .ok s
  | .firingBegun _ => .ok { s with observedAcceptances := s.observedAcceptances ++ [occurrence] }
  | _ => do
    require (occurrence ∈ s.observedAcceptances) (valueError
      s!"{rejection accepted} contains {record.typeName} before its acceptance pair")
    require (occurrence ∉ s.cancelled) (valueError
      s!"{rejection accepted} contains {record.typeName} after lifecycle cancellation")
    require (s.terminals.contains occurrence = false)
      (valueError s!"{rejection accepted} contains {record.typeName} after its end")
    require (record.isActivityOrSelection = false) (valueError
      s!"{rejection accepted} contains {record.typeName} — a source delivery is a pure occurrence with no consume, read, or activity records")
    match record with
    | .firingFailed _ => do
      require (s.phases.contains occurrence = false) (valueError
        s!"{rejection accepted} contains FiringFailed after its completion began — a pure source failure batch contains only FiringFailed")
      return { s with terminals := s.terminals.set occurrence record.typeName }
    | _ => completion D accepted s record expectedEntries

def entriesAfter (next : Nat) (record : Record) : List Nat × Nat :=
  match QueueFold.deposited record with
  | none => ([], next)
  | some (tokens, entries) =>
    let expected := List.range' next tokens.length
    (expected, (orElse entries expected).foldl (fun next i => max next (i + 1)) next)

def step (D : Definition) (sources : Dict Nat ExternalEventDelivered) (s : SourceFold)
    (record : Record) : Except Exc SourceFold := do
  let (expectedEntries, nextEntry) := entriesAfter s.nextEntry record
  let s := { s with nextEntry }
  require (∀ active ∈ s.activeCompletion, record.occurrence? = some active) (valueError
    s!"cannot resume: accepted delivery completion batch was interrupted by {record.typeName}")
  match record.closure? with
  | some (_, ids) => ids.foldlM (cancel sources record.typeName) s
  | none =>
    match record.occurrence?.bind sources.get? with
    | none => return s
    | some accepted => correlated D accepted s record expectedEntries

end SourceFold

def validateAcceptedSourceOccurrences (D : Definition) (records : List Record)
    (accepted : Dict String AcceptedDeliveryFact) : Except Exc Unit := do
  let _ ← records.foldlM (SourceFold.step D (sourceOccurrences accepted)) {}
  return ()

/-! ## The door -/

/-- Require one reconstructed begin batch to match the net and its handlers. -/
def validateReplayedOccurrence (D : Definition) (occurrence : FiringOccurrence) :
    Except Exc Unit := do
  let t := occurrence.binding.transition
  let rejection := s!"cannot resume firing occurrence {occurrence.id} ({t.str})"
  require (t ∈ D.net.transitionPaths) (valueError s!"{rejection}: not a transition of this net")
  require (D.net.isSource t = false ∨ occurrence.binding.delivered ≠ []) (valueError
    s!"{rejection}: a scheduled selection on a source transition — a source fires only through accept_delivery()")
  require (D.net.isSource t = true ∨ occurrence.binding.delivered = []) (valueError
    s!"{rejection}: an external event on a transition with input arcs — only a source transition takes delivery")
  validateBindingShape D.net occurrence.binding rejection
  require (occurrence.invocation = none ∨ D.activityBound t) (valueError
    s!"{rejection}: its begin batch froze an activity request, but the transition is not bound to an ActivityHandler — projection needs the handler that prepared it")
  require (occurrence.invocation ≠ none ∨ D.activityBound t = false) (valueError
    s!"{rejection}: the transition binds an ActivityHandler, but the begin batch froze no ActivityRequested — the live writer always freezes the request at begin")

def validateSelection (net : Net) : Record → Except Exc Unit
  | .candidateSelected r => do
    require (r.transition ∈ net.transitionPaths) (valueError
      s!"cannot resume firing occurrence {r.occurrence} ({r.transition.str}): not a transition of this net")
    require (net.isSource r.transition = false) (valueError
      s!"cannot resume firing occurrence {r.occurrence} ({r.transition.str}): a scheduled selection on a source transition — a source fires only through accept_delivery()")
  | _ => .ok ()

def validateArmedSource (net : Net) (source : NetPath) : Except Exc Unit := do
  require (source ∈ net.transitionPaths) (valueError
    s!"cannot resume: delivery-registration records on {source.str}: not a transition of this net")
  require (net.isSource source) (valueError
    s!"cannot resume: delivery-registration records on transition {source.str}: it has input arcs — only a source transition has delivery registrations")

def validateAcceptedSource (net : Net) (record : Record) : Except Exc Unit :=
  match record.acceptedFact? with
  | none => .ok ()
  | some fact => do
    require (fact.source ∈ net.transitionPaths) (valueError
      s!"cannot resume: accepted delivery identity {quoted fact.identity} records source {fact.source.str}: not a transition of this net")
    require (net.isSource fact.source) (valueError
      s!"cannot resume: accepted delivery identity {quoted fact.identity} records transition {fact.source.str} with input arcs — only a source transition can accept delivery")

def checkEach {α : Type} (check : α → Except Exc Unit) (items : List α) : Except Exc Unit :=
  items.foldlM (fun _ item => check item) ()

def byId (occurrences : List FiringOccurrence) : Dict Nat FiringOccurrence :=
  Dict.ofList (occurrences.map fun o => (o.id, o))

def resume (D : Definition) (history : History) : Except Exc Instance := do
  let net := D.net
  let records := history.flatten
  require (records ≠ []) (valueError
    "cannot resume from an empty history: nothing is recorded — construct an Instance instead")
  validateHistoryRecords records
  let identity ← replayInstanceIdentity records
  validateConstructionBatch net records identity
  require (identity.name = none ∨ net.name = none ∨ identity.name = net.name) (valueError
    "cannot resume: the history records another net name than the supplied net's — a foreign trace")
  checkEach (validateSelection net) records
  let queues ← replayQueues records
  checkEach (fun e => require (e.1 ∈ net.placePaths) (valueError
    s!"cannot resume: token records on {e.1.str}: not a place of this net"))
    queues.marking.queues.entries
  let watermark ← replayWatermark records
  let armed ← replayArmed records
  checkEach (validateArmedSource net) armed.keys
  let inFlight ← replayInFlight records
  let effects ← replayFiringOccurrences records (effectOccurrences records)
  checkEach (validateReplayedOccurrence D) (inFlight ++ effects)
  let activityOccurrences ← replayActivityOccurrences records
  let cancelled ← replayCancelled records
  let frozenResults ← replayProjectionPending records
  let terminalActivity ← replayTerminalActivity records
  let quarantinedActivity ← replayQuarantinedActivity records
  checkEach (validateAcceptedSource net) records
  let acceptedIdentities ← replayAcceptedIdentities records
  validateAcceptedSourceOccurrences D records acceptedIdentities
  let nextEntry ← replayNextQueueIdentity records
  let scopes ← replayScopes records
  require (∀ o ∈ inFlight, ∀ scope ∈ o.scope, scopes.active.get? scope.name = some scope)
    (valueError
      "replay divergence: lifecycle close left scoped firing occurrence(s) in flight")
  return {
    instanceId := identity.instanceId, history, watermark
    armed := Dict.ofList
      (net.sourceTransitions.map fun source => (source, (armed.get? source).getD []))
    queues, nextOccurrence := replayNextOccurrence records, nextEntry
    inFlight := byId inFlight, activityOccurrences := byId activityOccurrences
    cancelled := byId cancelled, frozenResults, terminalActivity, quarantinedActivity
    acceptedIdentities, activeScopes := scopes.active, scopeGenerations := scopes.generations }

end Petrus.Impetus
