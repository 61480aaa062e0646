import Petrus.Impetus.History.Queues
import Petrus.Impetus.Instance.Resume

/-!
# Commits

Every door changes an instance by appending one batch and settling the live state.
A commit is a certificate that such an append is possible: what was planned, the
facts the plan established, the batch and the state left behind. There is one kind
of commit per kind of batch. The doors refine this abstract machine, and every
invariant is proved commit by commit.
-/

namespace Petrus.Impetus

open Lib Motus List

def Instance.extend (s : Instance) (batch : List Record) (instant : Instant) : Instance :=
  { s with history := s.history ++ [batch], watermark := instant }

/-! ## Begin -/

lemma validateBindingShape_ok {net : Net} {binding : Binding} {rejection : String} :
    validateBindingShape net binding rejection = .ok () ↔
      shapeMatches ((net.inputs binding.transition).filter fun arc => arc.mode = .consume)
        binding.consumed = true ∧
      shapeMatches ((net.inputs binding.transition).filter fun arc => arc.mode = .read)
        binding.read = true := by
  unfold validateBindingShape
  rw [require_bind_eq_ok, require_eq_ok]

/-- What initiates a firing: the scheduler's selection, or a delivery under an identity. -/
def Initiated (D : Definition) (s : Instance) (binding : Binding) : Option String → Prop
  | none => D.net.isSource binding.transition = false ∧ binding.delivered = []
  | some identity => D.net.isSource binding.transition = true ∧ binding.delivered ≠ [] ∧
      s.acceptedIdentities.get? identity = none ∧ s.armedKeys binding.transition ≠ []

structure Begun (D : Definition) (s : Instance) where
  binding : Binding
  invocation : Option (ActivityInvocation Json)
  scope : Option LifecycleScope
  entries : BindingEntries
  rest : Queues
  identity : Option String
  instant : Instant
  instant_le : s.watermark ≤ instant
  consumed_ok : consumedEntries s.queues binding.consumed = .ok (entries.consumed, rest)
  read_ok : (binding.read.mapM fun selection =>
    TokenQueue.selected (rest.at_ selection.1) selection.2) = .ok entries.read
  scope_entries : ∀ sc ∈ entries.scopes, scope = some sc
  scope_active : ∀ sc ∈ scope, s.activeScopes.get? sc.name = some sc
  transition_mem : binding.transition ∈ D.net.transitionPaths
  shape : validateBindingShape D.net binding "" = .ok ()
  impure : invocation.isSome = D.activityBound binding.transition
  initiated : Initiated D s binding identity

namespace Begun

variable {D : Definition} {s : Instance} (c : Begun D s)

def delivered (identity : String) : ExternalEventDelivered :=
  ⟨c.binding.transition, c.binding.delivered, identity, s.nextOccurrence, c.scope, c.instant⟩

def initiation : Record :=
  match c.identity with
  | none => selectedRecord c.binding.transition s.nextOccurrence c.instant
  | some identity => .externalEventDelivered (c.delivered identity)

def records : List Record :=
  beginRecords c.binding c.entries c.invocation s.nextOccurrence c.scope c.instant

def boundary : FiringBegun := ⟨c.binding.transition, s.nextOccurrence, c.scope, c.instant⟩

def consumes : List Record :=
  List.zipWith (fun selection taken =>
    .tokensConsumed (narrate s.nextOccurrence c.scope c.instant selection taken))
    c.binding.consumed c.entries.consumed

def reads : List Record :=
  List.zipWith (fun selection taken =>
    .tokensRead (narrate s.nextOccurrence c.scope c.instant selection taken))
    c.binding.read c.entries.read

def requests : List Record := c.invocation.toList.map fun invocation => .activityRequested
  (requestRecord c.binding.transition invocation s.nextOccurrence c.scope c.instant)

def tail : List Record := c.consumes ++ (c.reads ++ c.requests)

lemma records_eq : c.records = .firingBegun c.boundary :: c.tail := by
  unfold records beginRecords
  rw [append_assoc, cons_append]
  rfl

lemma mem_consumes {r : Record} (h : r ∈ c.consumes) : ∃ selection taken,
    r = .tokensConsumed (narrate s.nextOccurrence c.scope c.instant selection taken) := by
  unfold consumes at h
  obtain ⟨i, hi, rfl⟩ := getElem_of_mem h
  rw [getElem_zipWith]
  exact ⟨_, _, rfl⟩

lemma mem_reads {r : Record} (h : r ∈ c.reads) : ∃ selection taken,
    r = .tokensRead (narrate s.nextOccurrence c.scope c.instant selection taken) := by
  unfold reads at h
  obtain ⟨i, hi, rfl⟩ := getElem_of_mem h
  rw [getElem_zipWith]
  exact ⟨_, _, rfl⟩

lemma mem_requests {r : Record} (h : r ∈ c.requests) : ∃ i ∈ c.invocation,
    r = .activityRequested
      (requestRecord c.binding.transition i s.nextOccurrence c.scope c.instant) := by
  obtain ⟨i, hi, rfl⟩ := mem_map.mp h
  exact ⟨i, by simpa using hi, rfl⟩

lemma mem_tail {r : Record} (h : r ∈ c.tail) :
    (∃ selection taken, r = .tokensConsumed
      (narrate s.nextOccurrence c.scope c.instant selection taken)) ∨
    (∃ selection taken, r = .tokensRead
      (narrate s.nextOccurrence c.scope c.instant selection taken)) ∨
    ∃ i ∈ c.invocation, r = .activityRequested
      (requestRecord c.binding.transition i s.nextOccurrence c.scope c.instant) := by
  rw [tail, mem_append, mem_append] at h
  rcases h with h | h | h
  · exact .inl (c.mem_consumes h)
  · exact .inr (.inl (c.mem_reads h))
  · exact .inr (.inr (c.mem_requests h))

def occurrence : FiringOccurrence where
  id := s.nextOccurrence
  binding := c.binding
  records := c.records
  invocation := c.invocation.map fun i => ActivityInvocation.resolved i s.nextOccurrence
  scope := c.scope

def batch : List Record := c.initiation :: c.records

lemma batch_eq : c.batch = c.initiation :: .firingBegun c.boundary :: c.tail := by
  rw [batch, records_eq]

lemma mem_batch {r : Record} (h : r ∈ c.batch) :
    r = c.initiation ∨ r = .firingBegun c.boundary ∨ r ∈ c.tail := by
  rw [batch_eq, mem_cons, mem_cons] at h
  exact h

def after : Instance :=
  { s.extend c.batch c.instant with
    nextOccurrence := s.nextOccurrence + 1
    queues := c.rest
    inFlight := s.inFlight.set s.nextOccurrence c.occurrence
    activityOccurrences :=
      if c.invocation = none then s.activityOccurrences
      else s.activityOccurrences.set s.nextOccurrence c.occurrence
    acceptedIdentities :=
      match c.identity with
      | none => s.acceptedIdentities
      | some identity => s.acceptedIdentities.set identity (.delivered (c.delivered identity)) }

end Begun

/-- A selection recorded without its begin: the id is spent and nothing else happened. -/
structure Orphaned (D : Definition) (s : Instance) where
  transition : NetPath
  instant : Instant
  instant_le : s.watermark ≤ instant
  transition_mem : transition ∈ D.net.transitionPaths
  scheduled : D.net.isSource transition = false

namespace Orphaned

variable {D : Definition} {s : Instance} (c : Orphaned D s)

def batch : List Record := [selectedRecord c.transition s.nextOccurrence c.instant]

def after : Instance :=
  { s.extend c.batch c.instant with nextOccurrence := s.nextOccurrence + 1 }

end Orphaned

/-! ## Completion -/

structure Completed (D : Definition) (s : Instance) where
  occurrence : FiringOccurrence
  effects : List Selection
  closes : List DeliveryRegistration
  opens : List DeliveryRegistration
  armed : Armed
  instant : Instant
  instant_le : s.watermark ≤ instant
  inFlight : s.inFlight.get? occurrence.id = some occurrence
  frozen : occurrence.invocation ≠ none → s.frozenResults.contains occurrence.id = true
  effects_ne : ∀ e ∈ effects, e.2 ≠ []
  effects_distinct : (effects.map Prod.fst).Nodup
  admitted : ∀ e ∈ effects, ∀ token ∈ e.2,
    (D.net.outputs occurrence.binding.transition).any
      (fun arc => arc.target = e.1 && arc.admits token.color) = true
  sources : ∀ r ∈ closes ++ opens,
    r.source ∈ D.net.transitionPaths ∧ D.net.isSource r.source = true
  armed_ok : (closes.foldlM (closeEffect "") s.armed >>= opens.foldlM (openEffect "")) = .ok armed

namespace Completed

variable {D : Definition} {s : Instance} (c : Completed D s)

def production (e : Selection × List Nat) : Movement where
  place := e.1.1
  tokens := e.1.2
  occurrence := c.occurrence.id
  entries := if c.occurrence.scope = none then [] else e.2
  scope := c.occurrence.scope
  instant := c.instant

def registration (r : DeliveryRegistration) : RegistrationFact :=
  ⟨r.source, r.key, some c.occurrence.id, c.instant⟩

def produced : List Record :=
  (numbered s.nextEntry c.effects).map fun e => .tokensProduced (c.production e)

def closings : List Record := c.closes.map fun r => .deliveryRegistrationClosed (c.registration r)

def openings : List Record := c.opens.map fun r => .deliveryRegistrationOpened (c.registration r)

def boundary : Record :=
  .firingCompleted ⟨c.occurrence.binding.transition, c.occurrence.id, c.instant⟩

def batch : List Record :=
  completionRecords c.occurrence (numbered s.nextEntry c.effects) c.closes c.opens c.instant

lemma batch_eq : c.batch = c.produced ++ (c.closings ++ (c.openings ++ [c.boundary])) := by
  unfold batch completionRecords
  rw [append_assoc, append_assoc]
  rfl

lemma mem_batch {r : Record} (h : r ∈ c.batch) : (∃ e, r = .tokensProduced (c.production e)) ∨
    (∃ e ∈ c.closes, r = .deliveryRegistrationClosed (c.registration e)) ∨
    (∃ e ∈ c.opens, r = .deliveryRegistrationOpened (c.registration e)) ∨ r = c.boundary := by
  rw [batch_eq] at h
  simp only [produced, closings, openings, mem_append, mem_map, mem_singleton] at h
  rcases h with ⟨e, -, rfl⟩ | ⟨e, he, rfl⟩ | ⟨e, he, rfl⟩ | rfl
  · exact .inl ⟨e, rfl⟩
  · exact .inr (.inl ⟨e, he, rfl⟩)
  · exact .inr (.inr (.inl ⟨e, he, rfl⟩))
  · exact .inr (.inr (.inr rfl))

def after : Instance :=
  { s.extend c.batch c.instant with
    nextEntry := s.nextEntry + producedCount c.effects
    queues := depositAll c.occurrence.scope c.instant s.queues s.nextEntry c.effects
    armed := c.armed
    inFlight := s.inFlight.erase c.occurrence.id
    frozenResults := s.frozenResults.erase c.occurrence.id
    terminalActivity :=
      match s.frozenResults.get? c.occurrence.id with
      | none => s.terminalActivity
      | some outcome => s.terminalActivity.set c.occurrence.id outcome }

end Completed

/-! ## Failure and terminal reports -/

structure Failed (D : Definition) (s : Instance) where
  occurrence : FiringOccurrence
  error : String
  instant : Instant
  instant_le : s.watermark ≤ instant
  inFlight : s.inFlight.get? occurrence.id = some occurrence
  frozen : occurrence.invocation ≠ none → s.frozenResults.contains occurrence.id = true
  error_bound : error ≠ "" ∧ error.length ≤ 4096

namespace Failed

variable {D : Definition} {s : Instance} (c : Failed D s)

def batch : List Record :=
  [.firingFailed ⟨c.occurrence.binding.transition, c.error, c.occurrence.id, c.instant⟩]

def after : Instance :=
  { s.extend c.batch c.instant with
    inFlight := s.inFlight.erase c.occurrence.id
    frozenResults := s.frozenResults.erase c.occurrence.id
    terminalActivity :=
      match s.frozenResults.get? c.occurrence.id with
      | none => s.terminalActivity
      | some outcome => s.terminalActivity.set c.occurrence.id outcome }

end Failed

structure Frozen (D : Definition) (s : Instance) where
  occurrence : FiringOccurrence
  outcome : Outcome
  instant : Instant
  instant_le : s.watermark ≤ instant
  inFlight : s.inFlight.get? occurrence.id = some occurrence
  impure : occurrence.invocation ≠ none
  first : s.frozenResults.get? occurrence.id = none

namespace Frozen

variable {D : Definition} {s : Instance} (c : Frozen D s)

def record : Record :=
  match c.outcome with
  | .completed result =>
    .activityCompleted ⟨c.occurrence.binding.transition, result, c.occurrence.id, c.instant⟩
  | .failed failure =>
    .activityFailed ⟨c.occurrence.binding.transition, failure, c.occurrence.id, c.instant⟩

def batch : List Record := [c.record]

def after : Instance :=
  { s.extend c.batch c.instant with
    frozenResults := s.frozenResults.set c.occurrence.id c.outcome }

end Frozen

structure Quarantined (D : Definition) (s : Instance) where
  occurrence : FiringOccurrence
  outcome : Json
  scope : LifecycleScope
  instant : Instant
  instant_le : s.watermark ≤ instant
  cancelled : s.cancelled.get? occurrence.id = some occurrence
  impure : occurrence.invocation ≠ none
  occurrence_scope : occurrence.scope = some scope
  first : s.quarantinedActivity.get? occurrence.id = none

namespace Quarantined

variable {D : Definition} {s : Instance} (c : Quarantined D s)

def batch : List Record :=
  [.activityTerminalQuarantined
    ⟨c.occurrence.binding.transition, c.outcome, c.scope, c.occurrence.id, c.instant⟩]

def after : Instance :=
  { s.extend c.batch c.instant with
    quarantinedActivity := s.quarantinedActivity.set c.occurrence.id c.outcome }

end Quarantined

/-! ## Deliveries without a firing, registrations and time -/

/-- The disposition of a delivery whose target is not an active generation. -/
inductive Disposed (s : Instance) (source : NetPath) (tokens : List Token) (identity : String)
    (instant : Instant) : AcceptedDeliveryFact → Prop
  | dropped (scope : LifecycleScope) (inactive : s.activeScopes.get? scope.name ≠ some scope)
      (spent : scope.generation ≤ (s.scopeGenerations.get? scope.name).getD 0) :
      Disposed s source tokens identity instant
        (.dropped ⟨source, tokens, identity, scope, instant⟩)
  | unknown (scope : LifecycleScope) (inactive : s.activeScopes.get? scope.name ≠ some scope)
      (unspent : (s.scopeGenerations.get? scope.name).getD 0 < scope.generation) :
      Disposed s source tokens identity instant
        (.quarantined ⟨source, tokens, identity, .exact scope, instant⟩)
  | named (name : String) (valid : name ≠ "" ∧ '\x00' ∉ name.toList) :
      Disposed s source tokens identity instant
        (.quarantined ⟨source, tokens, identity, .named name, instant⟩)

structure Dispositioned (D : Definition) (s : Instance) where
  source : NetPath
  tokens : List Token
  identity : String
  instant : Instant
  fact : AcceptedDeliveryFact
  instant_le : s.watermark ≤ instant
  source_mem : source ∈ D.net.transitionPaths
  isSource : D.net.isSource source = true
  tokens_ne : tokens ≠ []
  identity_ne : identity ≠ ""
  fresh : s.acceptedIdentities.get? identity = none
  disposed : Disposed s source tokens identity instant fact

namespace Dispositioned

variable {D : Definition} {s : Instance} (c : Dispositioned D s)

def batch : List Record := [c.fact.record]

def after : Instance :=
  { s.extend c.batch c.instant with
    acceptedIdentities := s.acceptedIdentities.set c.identity c.fact }

end Dispositioned

/-- Some armed registrations of a source closed by runtime policy. -/
structure Sealed (D : Definition) (s : Instance) where
  source : NetPath
  keys : List String
  instant : Instant
  instant_le : s.watermark ≤ instant
  source_mem : source ∈ D.net.transitionPaths
  isSource : D.net.isSource source = true
  keys_ne : keys ≠ []
  keys_nodup : keys.Nodup
  keys_armed : ∀ key ∈ keys, key ∈ s.armedKeys source

namespace Sealed

variable {D : Definition} {s : Instance} (c : Sealed D s)

def batch : List Record := sealRecords c.source c.keys c.instant

def after : Instance :=
  { s.extend c.batch c.instant with
    armed := s.armed.set c.source ((s.armedKeys c.source).filter fun key => key ∉ c.keys) }

end Sealed

structure Woken (s : Instance) where
  mature : Instant
  instant : Instant
  instant_le : s.watermark ≤ instant
  mature_le : mature ≤ instant

namespace Woken

variable {s : Instance} (c : Woken s)

def batch : List Record := [.timerMatured ⟨c.mature, c.instant⟩]

def after : Instance := s.extend c.batch c.instant

end Woken

/-! ## Scopes -/

structure Opened (s : Instance) where
  scope : LifecycleScope
  instant : Instant
  instant_le : s.watermark ≤ instant
  inactive : s.activeScopes.get? scope.name = none
  next : scope.generation = (s.scopeGenerations.get? scope.name).getD 0 + 1

namespace Opened

variable {s : Instance} (c : Opened s)

def batch : List Record := [.scopeOpened ⟨c.scope, c.instant⟩]

def after : Instance :=
  { s.extend c.batch c.instant with
    activeScopes := s.activeScopes.set c.scope.name c.scope
    scopeGenerations := s.scopeGenerations.set c.scope.name c.scope.generation }

end Opened

/-- A close, or a reset that opens the next generation. -/
structure Closed (s : Instance) where
  scope : LifecycleScope
  reset : Bool
  instant : Instant
  instant_le : s.watermark ≤ instant
  active : s.activeScopes.get? scope.name = some scope
  settled : ∀ id o, s.inFlight.get? id = some o → o.scope = some scope →
    s.frozenResults.get? id = none

namespace Closed

variable {s : Instance} (c : Closed s)

def record : Record :=
  if c.reset then .scopeReset ⟨c.scope, c.scope.next, scopeEntries s c.scope,
    scopeOccurrences s c.scope, c.instant⟩
  else .scopeClosed ⟨c.scope, scopeEntries s c.scope, scopeOccurrences s c.scope, c.instant⟩

def batch : List Record := [c.record]

def cancelled : List (Nat × FiringOccurrence) :=
  s.inFlight.entries.filter fun e => e.2.scope = some c.scope

def after : Instance :=
  { s.extend c.batch c.instant with
    queues := withoutScope s.queues c.scope
    activeScopes :=
      if c.reset then (s.activeScopes.erase c.scope.name).set c.scope.name c.scope.next
      else s.activeScopes.erase c.scope.name
    scopeGenerations :=
      if c.reset then s.scopeGenerations.set c.scope.name c.scope.next.generation
      else s.scopeGenerations
    inFlight := s.inFlight.filter fun _ o => o.scope ≠ some c.scope
    cancelled := c.cancelled.foldl (fun d e => d.set e.1 e.2) s.cancelled }

end Closed

/-! ## The machine -/

inductive Commit (D : Definition) (s : Instance) where
  | begun (c : Begun D s)
  | orphaned (c : Orphaned D s)
  | completed (c : Completed D s)
  | failed (c : Failed D s)
  | frozen (c : Frozen D s)
  | quarantined (c : Quarantined D s)
  | dispositioned (c : Dispositioned D s)
  | sealed (c : Sealed D s)
  | woken (c : Woken s)
  | opened (c : Opened s)
  | closed (c : Closed s)

namespace Commit

variable {D : Definition} {s : Instance}

def batch : Commit D s → List Record
  | begun c => c.batch
  | orphaned c => c.batch
  | completed c => c.batch
  | failed c => c.batch
  | frozen c => c.batch
  | quarantined c => c.batch
  | dispositioned c => c.batch
  | sealed c => c.batch
  | woken c => c.batch
  | opened c => c.batch
  | closed c => c.batch

def after : Commit D s → Instance
  | begun c => c.after
  | orphaned c => c.after
  | completed c => c.after
  | failed c => c.after
  | frozen c => c.after
  | quarantined c => c.after
  | dispositioned c => c.after
  | sealed c => c.after
  | woken c => c.after
  | opened c => c.after
  | closed c => c.after

def instant : Commit D s → Instant
  | begun c => c.instant
  | orphaned c => c.instant
  | completed c => c.instant
  | failed c => c.instant
  | frozen c => c.instant
  | quarantined c => c.instant
  | dispositioned c => c.instant
  | sealed c => c.instant
  | woken c => c.instant
  | opened c => c.instant
  | closed c => c.instant

lemma after_history (c : Commit D s) : c.after.history = s.history ++ [c.batch] := by
  cases c <;> rfl

lemma after_watermark (c : Commit D s) : c.after.watermark = c.instant := by
  cases c <;> rfl

lemma after_records (c : Commit D s) : c.after.records = s.records ++ c.batch := by
  simp [Instance.records, after_history]

lemma instant_le (c : Commit D s) : s.watermark ≤ c.instant := by
  cases c with
  | begun c | orphaned c | completed c | failed c | frozen c | quarantined c | dispositioned c
  | sealed c | woken c | opened c | closed c => exact c.instant_le

end Commit

end Petrus.Impetus
