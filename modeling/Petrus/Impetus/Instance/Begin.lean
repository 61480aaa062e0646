import Petrus.Impetus.Instance.State

/-!
# Lifecycle scopes and the begin of a firing

The doors that open, close and reset a lifecycle scope, and the birth of a firing
occurrence shared by the scheduler's door and the delivery door.
-/

namespace Petrus.Impetus

open Lib Motus

/-! ## Scopes -/

def openScopePlan (name : String) (atInstant : Option Instant) (s : Instance) :
    Except Exc (Plan (LifecycleScope × Instant) LifecycleScope) :=
  if h : name ≠ "" ∧ '\x00' ∉ name.toList then do
    require (s.activeScopes.contains name = false) (valueError
      s!"cannot open lifecycle scope {quoted name}: a generation is already active")
    let scope : LifecycleScope :=
      ⟨name, (s.scopeGenerations.get? name).getD 0 + 1, h, Nat.le_add_left _ _⟩
    let instant := s.effective atInstant
    let batch ← writerRecords [.scopeOpened ⟨scope, instant⟩]
    return .batch batch (scope, instant)
  else .error (valueError
    "LifecycleScope name must be a non-empty string without NUL and use the exact built-in type")

def openScopeSettle (p : LifecycleScope × Instant) : Door LifecycleScope := do
  advance p.2
  Act.modify fun s => { s with
    activeScopes := s.activeScopes.set p.1.name p.1
    scopeGenerations := s.scopeGenerations.set p.1.name p.1.generation }
  return p.1

def openScope (store : Store) (name : String) (atInstant : Option Instant) : Door LifecycleScope :=
  door (commit store (openScopePlan name atInstant) openScopeSettle)

structure ScopeClosure where
  scope : LifecycleScope
  discarded : List Nat
  cancelled : List Nat

def scopeEntries (s : Instance) (scope : LifecycleScope) : List Nat :=
  (s.queues.all.filter fun e => e.scope = some scope).map Entry.identity

def scopeOccurrences (s : Instance) (scope : LifecycleScope) : List Nat :=
  (s.inFlight.values.filter fun o => o.scope = some scope).map FiringOccurrence.id

def scopeClosure (s : Instance) (scope : LifecycleScope) : Except Exc ScopeClosure := do
  require (s.activeScopes.get? scope.name = some scope) (valueError
    s!"cannot close lifecycle scope {scope.name}: it is not the active generation")
  require (∀ o ∈ s.projectionPending, o.scope ≠ some scope) (valueError
    s!"cannot close lifecycle scope {scope.name}: accepted Activity terminal(s) still require deterministic projection")
  return ⟨scope, scopeEntries s scope, scopeOccurrences s scope⟩

def cancelOccurrence (id : Nat) : Door Unit := do
  let occurrence ← popInFlight id
  Act.modify fun s => { s with
    frozenResults := s.frozenResults.erase id
    cancelled := s.cancelled.set id occurrence }

def cancelOccurrences : List Nat → Door Unit
  | [] => pure ()
  | id :: ids => do
    cancelOccurrence id
    cancelOccurrences ids

def applyScopeTerminal (record : Record) (closure : ScopeClosure)
    (opened : Option LifecycleScope) : Door Unit := do
  applyMovements [(record, [])]
  Act.modify fun s => { s with activeScopes := s.activeScopes.erase closure.scope.name }
  match opened with
  | none => pure ()
  | some scope => Act.modify fun s => { s with
      activeScopes := s.activeScopes.set scope.name scope
      scopeGenerations := s.scopeGenerations.set scope.name scope.generation }
  cancelOccurrences closure.cancelled

structure ClosePlan where
  record : Record
  closure : ScopeClosure
  opened : Option LifecycleScope
  instant : Instant

def closeSettle (p : ClosePlan) : Door Unit := do
  applyScopeTerminal p.record p.closure p.opened
  advance p.instant

def closeScopePlan (scope : LifecycleScope) (atInstant : Option Instant) (s : Instance) :
    Except Exc (Plan ClosePlan ScopeClosure) := do
  let closure ← scopeClosure s scope
  let instant := s.effective atInstant
  let record := .scopeClosed ⟨scope, closure.discarded, closure.cancelled, instant⟩
  let batch ← writerRecords [record]
  return .batch batch ⟨record, closure, none, instant⟩

def closeScope (store : Store) (scope : LifecycleScope) (atInstant : Option Instant) :
    Door ScopeClosure :=
  door (commit store (closeScopePlan scope atInstant) fun p => do
    closeSettle p
    return p.closure)

def LifecycleScope.next (scope : LifecycleScope) : LifecycleScope :=
  { scope with generation := scope.generation + 1, generation_pos := Nat.le_add_left _ _ }

def resetScopePlan (scope : LifecycleScope) (atInstant : Option Instant) (s : Instance) :
    Except Exc (Plan ClosePlan LifecycleScope) := do
  let closure ← scopeClosure s scope
  let instant := s.effective atInstant
  let record := .scopeReset ⟨scope, scope.next, closure.discarded, closure.cancelled, instant⟩
  let batch ← writerRecords [record]
  return .batch batch ⟨record, closure, some scope.next, instant⟩

def resetScope (store : Store) (scope : LifecycleScope) (atInstant : Option Instant) :
    Door LifecycleScope :=
  door (commit store (resetScopePlan scope atInstant) fun p => do
    closeSettle p
    return scope.next)

/-! ## The birth of an occurrence -/

/-- Consumes, then reads, against a marking; only whether the tokens are there matters. -/
def beginFiring (m : Marking) (binding : Binding) : Except Exc Marking := do
  let m ← binding.consumed.foldlM (fun m selection => m.consume selection.1 selection.2) m
  binding.read.forM fun selection =>
    match Marking.withdraw (m.place selection.1) selection.2 with
    | some _ => .ok ()
    | none => .error (valueError s!"cannot read token from {selection.1.str}: token not present")
  return m

def takeEntries (queues : Queues) (selection : Selection) : Except Exc (List Entry × Queues) := do
  let queue := queues.at_ selection.1
  let selected ← TokenQueue.selected queue selection.2
  let rest ← TokenQueue.remove queue selection.2 (selected.map Entry.identity)
  return (selected, queues.set selection.1 rest)

def consumedEntries : Queues → List Selection → Except Exc (List (List Entry) × Queues)
  | queues, [] => .ok ([], queues)
  | queues, selection :: rest => do
    let (selected, queues) ← takeEntries queues selection
    let (others, queues) ← consumedEntries queues rest
    return (selected :: others, queues)

/-- The exact live queue occurrences a value binding resolves to. -/
structure BindingEntries where
  consumed : List (List Entry)
  read : List (List Entry)

def BindingEntries.scopes (e : BindingEntries) : List LifecycleScope :=
  (e.consumed ++ e.read).flatten.filterMap Entry.scope

def bindingEntries (queues : Queues) (binding : Binding) : Except Exc BindingEntries := do
  let (consumed, queues) ← consumedEntries queues binding.consumed
  let read ← binding.read.mapM fun selection =>
    TokenQueue.selected (queues.at_ selection.1) selection.2
  return ⟨consumed, read⟩

def provenance (t : NetPath) (inferred : List LifecycleScope) (scope : Option LifecycleScope) :
    Except Exc (Option LifecycleScope) := do
  let scopes := inferred ++ scope.toList
  require (∀ a ∈ scopes, ∀ b ∈ scopes, a = b)
    (valueError s!"firing {t.str} combines different lifecycle scopes")
  return scopes.head?

def narrate (occurrence : Nat) (scope : Option LifecycleScope) (instant : Instant)
    (selection : Selection) (entries : List Entry) : Movement :=
  { place := selection.1, tokens := selection.2, occurrence
    entries := if scope = none then [] else entries.map Entry.identity
    scope, instant }

def ActivityInvocation.resolved (invocation : ActivityInvocation Json) (occurrence : Nat) :
    ActivityInvocation Json :=
  { invocation with
    correlation := some (invocation.correlation.getD s!"occurrence-{occurrence}")
    idempotency := some (invocation.idempotency.getD s!"occurrence-{occurrence}")
    correlation_ne := by
      cases h : invocation.correlation with
      | none => simp [String.append_eq_empty_iff]
      | some c =>
        intro e
        exact invocation.correlation_ne (by rw [h]; simpa using e)
    idempotency_ne := by
      cases h : invocation.idempotency with
      | none => simp [String.append_eq_empty_iff]
      | some c =>
        intro e
        exact invocation.idempotency_ne (by rw [h]; simpa using e) }

def requestRecord (t : NetPath) (invocation : ActivityInvocation Json) (occurrence : Nat)
    (scope : Option LifecycleScope) (instant : Instant) : ActivityRequested :=
  { transition := t, activity := invocation.activity, input := invocation.input
    policy := invocation.policy
    correlation := invocation.correlation.getD s!"occurrence-{occurrence}"
    idempotency := invocation.idempotency.getD s!"occurrence-{occurrence}"
    occurrence, scope, instant }

/-- The begin records: the boundary, the consumes, the reads, then the request. -/
def beginRecords (binding : Binding) (entries : BindingEntries)
    (invocation : Option (ActivityInvocation Json)) (occurrence : Nat)
    (scope : Option LifecycleScope) (instant : Instant) : List Record :=
  .firingBegun ⟨binding.transition, occurrence, scope, instant⟩ ::
    List.zipWith (fun selection selected =>
      .tokensConsumed (narrate occurrence scope instant selection selected))
      binding.consumed entries.consumed ++
    List.zipWith (fun selection selected =>
      .tokensRead (narrate occurrence scope instant selection selected))
      binding.read entries.read ++
    (invocation.toList.map fun invocation =>
      .activityRequested (requestRecord binding.transition invocation occurrence scope instant))

structure BeginPlan where
  occurrence : FiringOccurrence
  instant : Instant

def beginPlan (binding : Binding) (atInstant : Option Instant)
    (initiation : Nat → Instant → Record) (invocation : Option (ActivityInvocation Json))
    (scope : Option LifecycleScope) (s : Instance) :
    Except Exc (Plan BeginPlan FiringOccurrence) := do
  let instant := s.effective atInstant
  let _ ← beginFiring s.marking binding
  let entries ← bindingEntries s.queues binding
  let scope ← provenance binding.transition entries.scopes scope
  let records := beginRecords binding entries invocation s.nextOccurrence scope instant
  let batch ← writerRecords (initiation s.nextOccurrence instant :: records)
  return .batch batch {
    occurrence := {
      id := s.nextOccurrence, binding, records, scope
      invocation := invocation.map fun i => ActivityInvocation.resolved i s.nextOccurrence }
    instant }

def beginSettle (p : BeginPlan) : Door FiringOccurrence := do
  advance p.instant
  Act.modify fun s => { s with nextOccurrence := s.nextOccurrence + 1 }
  applyMovements (p.occurrence.records.map fun r => (r, []))
  Act.modify fun s => { s with
    inFlight := s.inFlight.set p.occurrence.id p.occurrence
    activityOccurrences :=
      if p.occurrence.invocation = none then s.activityOccurrences
      else s.activityOccurrences.set p.occurrence.id p.occurrence }
  return p.occurrence

def beginOccurrence (store : Store) (binding : Binding) (atInstant : Option Instant)
    (initiation : Nat → Instant → Record) (invocation : Option (ActivityInvocation Json))
    (scope : Option LifecycleScope) : Door FiringOccurrence :=
  door (commit store (beginPlan binding atInstant initiation invocation scope) beginSettle)

/-! ## The scheduler's door -/

def shapeMatches (arcs : List Arc) (selections : List Selection) : Bool :=
  selections.map Prod.fst = arcs.map Arc.source ∧
    ∀ p ∈ arcs.zip selections, p.2.2.length = p.1.weight

/-- One consume selection per consume arc and one read selection per read arc, in input order. -/
def validateBindingShape (net : Net) (binding : Binding) (rejection : String) :
    Except Exc Unit := do
  let inputs := net.inputs binding.transition
  require (shapeMatches (inputs.filter fun arc => arc.mode = .consume) binding.consumed) (valueError
    s!"{rejection}: its consume selections do not match the transition's consume arcs — a live begin takes one consume selection per arc, in input-arc order, weight tokens each")
  require (shapeMatches (inputs.filter fun arc => arc.mode = .read) binding.read) (valueError
    s!"{rejection}: its read selections do not match the transition's read arcs — a live begin takes one read selection per arc, in input-arc order, weight tokens each")

/-- The JSON round trip of a payload whose durable equality is load-bearing. -/
def canonicalPayload (value : Payload) (rejection : String) : Except Exc Json :=
  match value with
  | .faithful json => .ok json
  | .foreign => .error (valueError
      s!"{rejection}: the payload must be JSON-faithful — objects, arrays, strings, numbers, booleans, null — and never net state")

def reserved (identity : Option String) : Bool :=
  identity.any fun value => "occurrence-".toList.isPrefixOf value.toList

def preparedInvocation (D : Definition) (binding : Binding) :
    Except Exc (Option (ActivityInvocation Json)) :=
  match D.boundHandler binding.transition with
  | .plain _ => .ok none
  | .activity handler => do
    match ← handler.prepare binding with
    | none => .error (valueError
        s!"cannot begin firing {binding.transition.str}: prepare must return an ActivityInvocation")
    | some invocation =>
      require (reserved invocation.correlation = false) (valueError
        s!"cannot begin firing {binding.transition.str}: correlation uses the writer-reserved 'occurrence-' prefix — the derived self-identity namespace; supply an identity outside it, or None for the writer to derive")
      require (reserved invocation.idempotency = false) (valueError
        s!"cannot begin firing {binding.transition.str}: idempotency uses the writer-reserved 'occurrence-' prefix — the derived self-identity namespace; supply an identity outside it, or None for the writer to derive")
      let input ← canonicalPayload invocation.input
        s!"cannot begin firing {binding.transition.str}: invalid activity input"
      return some {
        activity := invocation.activity, input, policy := invocation.policy
        correlation := invocation.correlation, idempotency := invocation.idempotency
        activity_ne := invocation.activity_ne
        correlation_ne := invocation.correlation_ne
        idempotency_ne := invocation.idempotency_ne }

def validateScheduled (D : Definition) (binding : Binding) : Except Exc Unit := do
  let t := binding.transition
  require (t ∈ D.net.transitionPaths)
    (valueError s!"cannot begin firing {t.str}: not a transition of this net")
  require (D.net.isSource t = false) (valueError
    s!"cannot begin firing {t.str}: a source transition is never scheduled — it fires only through accept_delivery()")
  require (binding.delivered = []) (valueError
    s!"cannot begin a delivered binding for {t.str}: a source firing enters through accept_delivery()")
  validateBindingShape D.net binding s!"cannot begin firing {t.str}"

def staleSelection (t : NetPath) (e : Exc) : Exc :=
  if e.isValueError then
    valueError s!"cannot begin firing {t.str}: stale selection — {e.text}"
  else e

def selectedRecord (t : NetPath) (occurrence : Nat) (instant : Instant) : Record :=
  .candidateSelected ⟨t, occurrence, instant⟩

def begin_ (D : Definition) (store : Store) (binding : Binding) (atInstant : Option Instant) :
    Door FiringOccurrence := do
  Act.lift (validateScheduled D binding)
  let invocation ← Act.lift (preparedInvocation D binding)
  Act.mapError (staleSelection binding.transition)
    (beginOccurrence store binding atInstant (selectedRecord binding.transition) invocation none)

end Petrus.Impetus
