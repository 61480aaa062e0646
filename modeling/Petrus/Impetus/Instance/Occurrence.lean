import Petrus.Impetus.History.Projections

/-!
# Firing occurrences and their replay

A firing occurrence is a binding whose begin has been recorded. The lifecycle fold
sorts the records of a history into the buckets from which the in-flight, cancelled
and activity occurrences are rebuilt, and refuses orders the single writer never
produces.
-/

namespace Petrus.Impetus

open Lib Motus

structure FiringOccurrence where
  id : Nat
  binding : Binding
  records : List Record
  invocation : Option (ActivityInvocation Json) := none
  scope : Option LifecycleScope := none
  deriving DecidableEq

/-! ## Python equality of occurrences -/

def tokenValues (tokens : List Token) : List Token := tokens.map Token.value

def selectionValues (selections : List Selection) : List Selection :=
  selections.map fun s => (s.1, tokenValues s.2)

def policyValues (p : ExecutionPolicy) : List (Option PyNumber) :=
  [some (.int p.attempts), some (.int p.heartbeatTimeout), some p.initialInterval.value,
    some p.coefficient.value, some p.maxInterval.value, some p.jitter.value,
    p.startToClose.map PyNumber.value, p.scheduleToClose.map PyNumber.value]

def Movement.equals (a b : Movement) : Bool :=
  { a with tokens := [] } = { b with tokens := [] } ∧ tokenValues a.tokens = tokenValues b.tokens

/-- Equality of two begin records; other record types never occur in an occurrence. -/
def Record.equals : Record → Record → Bool
  | .tokensConsumed a, .tokensConsumed b => a.equals b
  | .tokensRead a, .tokensRead b => a.equals b
  | .activityRequested a, .activityRequested b =>
    { a with input := .null, policy := .standard } =
      { b with input := .null, policy := .standard } ∧
      a.input.value = b.input.value ∧ policyValues a.policy = policyValues b.policy
  | a, b => a = b

def invocationEquals : Option (ActivityInvocation Json) → Option (ActivityInvocation Json) → Bool
  | none, none => true
  | some a, some b => a.activity = b.activity ∧ a.input.value = b.input.value ∧
      policyValues a.policy = policyValues b.policy ∧ a.correlation = b.correlation ∧
      a.idempotency = b.idempotency
  | _, _ => false

def Binding.equals (a b : Binding) : Bool :=
  a.transition = b.transition ∧ selectionValues a.consumed = selectionValues b.consumed ∧
    selectionValues a.read = selectionValues b.read ∧
    tokenValues a.delivered = tokenValues b.delivered

def recordsEqual : List Record → List Record → Bool
  | [], [] => true
  | a :: as, b :: bs => a.equals b && recordsEqual as bs
  | _, _ => false

def FiringOccurrence.equals (a b : FiringOccurrence) : Bool :=
  a.id = b.id ∧ a.binding.equals b.binding ∧ recordsEqual a.records b.records ∧
    invocationEquals a.invocation b.invocation ∧ a.scope = b.scope

/-! ## Sorting the lifecycle records -/

structure Lifecycle where
  initiated : Dict Nat (NetPath × List Token) := Dict.empty
  begun : Dict Nat (List Record) := Dict.empty
  ended : List Nat := []
  ending : List Nat := []
  frozen : Dict Nat Outcome := Dict.empty
  scopedOpen : Dict Nat LifecycleScope := Dict.empty
  lifecycleCancelled : List Nat := []
  activeBegin : Option (Nat × Instant) := none
  previous : Option Record := none

def Record.isBeginTail : Record → Bool
  | .tokensConsumed _ => true
  | .tokensRead _ => true
  | .activityRequested _ => true
  | _ => false

def Record.isActivityRequested : Record → Bool
  | .activityRequested _ => true
  | _ => false

def Record.initiation? : Record → Option (Nat × Instant)
  | .candidateSelected r => some (r.occurrence, r.instant)
  | .externalEventDelivered r => some (r.occurrence, r.instant)
  | _ => none

namespace Lifecycle

variable (s : Lifecycle)

def requested (occurrence : Nat) : Bool :=
  ((s.begun.get? occurrence).getD []).any Record.isActivityRequested

/-- The transition of the occurrence's `FiringBegun` boundary. -/
def boundary (occurrence : Nat) : Option NetPath :=
  match (s.begun.get? occurrence).getD [] with
  | .firingBegun r :: _ => some r.transition
  | _ => none

def initiate (occurrence : Nat) (t : NetPath) (tokens : List Token) : Except Exc Lifecycle := do
  require (s.initiated.contains occurrence = false) (valueError
    s!"replay divergence: firing occurrence {occurrence} initiated more than once")
  return { s with initiated := s.initiated.set occurrence (t, tokens) }

def begin_ (r : FiringBegun) : Except Exc Lifecycle := do
  require (s.initiated.contains r.occurrence) (valueError
    s!"replay divergence: firing occurrence {r.occurrence} ({r.transition.str}) begun with no initiation record")
  require (s.begun.contains r.occurrence = false) (valueError
    s!"replay divergence: firing occurrence {r.occurrence} has more than one FiringBegun record")
  match s.previous.bind Record.initiation? with
  | none => .error (valueError
      s!"replay divergence: FiringBegun for occurrence {r.occurrence} does not immediately follow its initiation in the contiguous begin batch")
  | some (occurrence, instant) =>
    require (occurrence = r.occurrence) (valueError
      s!"replay divergence: FiringBegun for occurrence {r.occurrence} does not immediately follow its initiation in the contiguous begin batch")
    require (instant = r.instant) (valueError
      s!"replay divergence: FiringBegun for occurrence {r.occurrence} has instant {r.instant}, not its initiation instant {instant}")
    return { s with
      begun := s.begun.set r.occurrence [.firingBegun r]
      activeBegin := some (r.occurrence, r.instant)
      scopedOpen := match r.scope with
        | none => s.scopedOpen
        | some scope => s.scopedOpen.set r.occurrence scope }

/-- A begin fact stays before the end of its occurrence and inside its begin batch. -/
def tail (record : Record) (occurrence : Nat) : Except Exc Lifecycle := do
  require (occurrence ∉ s.ended) (valueError
    s!"replay divergence: {record.typeName} for firing occurrence {occurrence} appears after its terminal boundary")
  require (occurrence ∉ s.ending) (valueError
    s!"replay divergence: {record.typeName} for firing occurrence {occurrence} appears after completion began")
  match s.activeBegin with
  | none => .error (valueError
      s!"replay divergence: {record.typeName} for firing occurrence {occurrence} does not belong to its contiguous begin batch")
  | some (active, instant) =>
    require (active = occurrence) (valueError
      s!"replay divergence: {record.typeName} for firing occurrence {occurrence} does not belong to its contiguous begin batch")
    require (record.instant = instant) (valueError
      s!"replay divergence: {record.typeName} for firing occurrence {occurrence} has instant {record.instant}, not its begin batch instant {instant}")
    return { s with
      begun := s.begun.set occurrence ((s.begun.get? occurrence).getD [] ++ [record]) }

def selects (record : Record) (verb : String) (r : Movement) : Except Exc Lifecycle := do
  require (s.begun.contains r.occurrence) (valueError
    s!"replay divergence: tokens {verb} from {r.place.str} for firing occurrence {r.occurrence} with no begun boundary")
  s.tail record r.occurrence

def requireTransition (record : Record) (occurrence : Nat) (t : NetPath) : Except Exc Unit :=
  require (s.boundary occurrence = some t) (valueError
    s!"replay divergence: {record.typeName} transition {t.str} for firing occurrence {occurrence} does not match begun transition")

def request (r : ActivityRequested) : Except Exc Lifecycle := do
  require (s.begun.contains r.occurrence) (valueError
    s!"replay divergence: activity {quoted r.activity} requested for firing occurrence {r.occurrence} with no begun boundary — the request joins the begin batch")
  s.requireTransition (.activityRequested r) r.occurrence r.transition
  require (s.requested r.occurrence = false) (valueError
    s!"replay divergence: firing occurrence {r.occurrence} ({r.transition.str}) requested a second activity — one impure handler maps to exactly one activity")
  s.tail (.activityRequested r) r.occurrence

def freeze (record : Record) (verb : String) (occurrence : Nat) (t : NetPath)
    (outcome : Outcome) : Except Exc Lifecycle := do
  require (s.requested occurrence) (valueError
    s!"replay divergence: activity {verb} for firing occurrence {occurrence} ({t.str}) but no activity was requested in its begin batch")
  s.requireTransition record occurrence t
  require (s.frozen.contains occurrence = false) (valueError
    s!"replay divergence: a second terminal activity fact for firing occurrence {occurrence} ({t.str})")
  require (occurrence ∉ s.lifecycleCancelled) (valueError
    s!"replay divergence: activity {verb} for lifecycle-cancelled firing occurrence {occurrence} ({t.str}) — late terminal reports are quarantined")
  return { s with frozen := s.frozen.set occurrence outcome }

def quarantine (r : ActivityTerminalQuarantined) : Except Exc Lifecycle := do
  require (s.begun.contains r.occurrence) (valueError
    s!"replay divergence: terminal quarantined for firing occurrence {r.occurrence} with no begun boundary")
  s.requireTransition (.activityTerminalQuarantined r) r.occurrence r.transition
  return s

def close (scope : LifecycleScope) (cancelled : List Nat) : Except Exc Lifecycle := do
  let expected := (s.scopedOpen.filter fun _ provenance => provenance = scope).keys
  require (cancelled = expected) (valueError
    s!"replay divergence: lifecycle close for {scope.name} cancels other occurrences than the exact open occurrence set at this append position")
  require (∀ occurrence ∈ expected, s.frozen.contains occurrence = false) (valueError
    s!"replay divergence: lifecycle close for {scope.name} cancels accepted Activity terminal(s) still awaiting deterministic projection")
  return { s with
    scopedOpen := s.scopedOpen.filter fun occurrence _ => occurrence ∉ expected
    lifecycleCancelled := s.lifecycleCancelled ++ expected
    ended := s.ended ++ expected }

def effect (occurrence : Option Nat) : Lifecycle :=
  match occurrence with
  | none => s
  | some occurrence => { s with ending := s.ending ++ [occurrence] }

def finish (record : Record) (occurrence : Nat) (t : NetPath) : Except Exc Lifecycle := do
  require (s.begun.contains occurrence) (valueError
    s!"replay divergence: firing occurrence {occurrence} reached {record.typeName} with no begun boundary")
  require (s.boundary occurrence = some t) (valueError
    s!"replay divergence: firing occurrence {occurrence} terminal transition {t.str} does not match begun transition")
  require (occurrence ∉ s.lifecycleCancelled) (valueError
    s!"replay divergence: firing occurrence {occurrence} reached {record.typeName} after lifecycle cancellation")
  require (occurrence ∉ s.ended) (valueError
    s!"replay divergence: firing occurrence {occurrence} has more than one firing terminal")
  return { s with scopedOpen := s.scopedOpen.erase occurrence, ended := s.ended ++ [occurrence] }

def sort (record : Record) : Except Exc Lifecycle :=
  match record with
  | .candidateSelected r => s.initiate r.occurrence r.transition []
  | .externalEventDelivered r => s.initiate r.occurrence r.source r.tokens
  | .firingBegun r => s.begin_ r
  | .tokensConsumed r => s.selects record "consumed" r
  | .tokensRead r => s.selects record "read" r
  | .activityRequested r => s.request r
  | .activityCompleted r =>
    s.freeze record "completed" r.occurrence r.transition (.completed r.result)
  | .activityFailed r => s.freeze record "failed" r.occurrence r.transition (.failed r.failure)
  | .activityTerminalQuarantined r => s.quarantine r
  | .scopeClosed r => s.close r.scope r.cancelled
  | .scopeReset r => s.close r.closed r.cancelled
  | .tokensProduced r => .ok (s.effect (some r.occurrence))
  | .deliveryRegistrationOpened r => .ok (s.effect r.occurrence)
  | .deliveryRegistrationClosed r => .ok (s.effect r.occurrence)
  | .firingCompleted r => s.finish record r.occurrence r.transition
  | .firingFailed r => s.finish record r.occurrence r.transition
  | _ => .ok s

def step (record : Record) : Except Exc Lifecycle := do
  let s := if record.isBeginTail then s else { s with activeBegin := none }
  let s ← s.sort record
  return { s with previous := some record }

end Lifecycle

def sortedLifecycle (records : List Record) : Except Exc Lifecycle :=
  records.foldlM Lifecycle.step {}

/-! ## Rebuilding occurrences -/

def Record.beginRank : Record → Nat
  | .firingBegun _ => 0
  | .tokensConsumed _ => 1
  | .tokensRead _ => 2
  | _ => 3

def refuseDisorderedBeginBatch (occurrence : Nat) (t : NetPath) (records : List Record) :
    Except Exc Unit :=
  require ((records.map Record.beginRank).Pairwise (· ≤ ·)) (valueError
    s!"replay divergence: firing occurrence {occurrence} ({t.str}) carries a disordered begin batch — the live writer accounts consumes, then reads, then freezes at most one activity request")

def refuseTornBatch (occurrence : Nat) (t : NetPath) (ending : List Nat) : Except Exc Unit :=
  require (occurrence ∉ ending) (valueError
    s!"replay divergence: firing occurrence {occurrence} ({t.str}) carries end records with no terminal boundary — a torn commit batch")

def consumedSelections (records : List Record) : List Selection :=
  records.filterMap fun
    | .tokensConsumed r => some (r.place, r.tokens)
    | _ => none

def readSelections (records : List Record) : List Selection :=
  records.filterMap fun
    | .tokensRead r => some (r.place, r.tokens)
    | _ => none

def Record.begunFact? : Record → Option FiringBegun
  | .firingBegun r => some r
  | _ => none

def Record.requestFact? : Record → Option ActivityRequested
  | .activityRequested r => some r
  | _ => none

def ActivityRequested.invocation (r : ActivityRequested) : Except Exc (ActivityInvocation Json) :=
  if h : r.activity ≠ "" ∧ r.correlation ≠ "" ∧ r.idempotency ≠ "" then
    .ok { activity := r.activity, input := r.input, policy := r.policy
          correlation := some r.correlation, idempotency := some r.idempotency
          activity_ne := h.1
          correlation_ne := fun e => h.2.1 (Option.some.inj e)
          idempotency_ne := fun e => h.2.2 (Option.some.inj e) }
  else .error (valueError "ActivityInvocation requires a non-empty string activity name")

def rebuiltInvocation (records : List Record) : Except Exc (Option (ActivityInvocation Json)) :=
  match records.findSome? Record.requestFact? with
  | none => .ok none
  | some r => some <$> r.invocation

def rebuiltOccurrence (occurrence : Nat) (t : NetPath) (delivered : List Token)
    (records : List Record) : Except Exc FiringOccurrence := do
  let invocation ← rebuiltInvocation records
  match records.findSome? Record.begunFact? with
  | none => .error ⟨"StopIteration", false, "", []⟩
  | some begun =>
    require (begun.transition = t) (valueError
      s!"replay divergence: firing occurrence {occurrence} initiation transition {t.str} does not match begun transition {begun.transition.str}")
    require (∀ r ∈ records, r.provenance? = begun.scope) (valueError
      s!"replay divergence: firing occurrence {occurrence} ({t.str}) has scope provenance inconsistent with FiringBegun")
    if h : delivered = [] ∨ consumedSelections records = [] ∧ readSelections records = [] then
      return { id := occurrence
               binding := ⟨t, consumedSelections records, readSelections records, delivered, h⟩
               records, invocation, scope := begun.scope }
    else .error (valueError
      s!"binding for {t.str}: a delivered binding is a source firing and selects nothing — it cannot also carry consumed or read selections")

def Lifecycle.rebuild (s : Lifecycle) (occurrence : Nat) (records : List Record) :
    Except Exc FiringOccurrence :=
  match s.initiated.get? occurrence with
  | none => .error (valueError
      s!"replay divergence: Activity occurrence {occurrence} was not initiated")
  | some (t, delivered) => rebuiltOccurrence occurrence t delivered records

/-- Rebuild one occurrence whose begin batch is in the writer's order and, while open, not torn. -/
def Lifecycle.rebuildOpen (s : Lifecycle) (occurrence : Nat) (records : List Record) :
    Except Exc FiringOccurrence :=
  match s.initiated.get? occurrence with
  | none => .error (valueError
      s!"replay divergence: Activity occurrence {occurrence} was not initiated")
  | some (t, delivered) => do
    if occurrence ∉ s.ended then refuseTornBatch occurrence t s.ending
    refuseDisorderedBeginBatch occurrence t records
    rebuiltOccurrence occurrence t delivered records

def replayInFlight (records : List Record) : Except Exc (List FiringOccurrence) := do
  let s ← sortedLifecycle records
  (s.begun.entries.filter fun e => e.1 ∉ s.ended).mapM fun e => s.rebuildOpen e.1 e.2

def replayFiringOccurrences (records : List Record) (ids : List Nat) :
    Except Exc (List FiringOccurrence) := do
  let s ← sortedLifecycle records
  (s.begun.entries.filter fun e => e.1 ∈ ids).mapM fun e => s.rebuildOpen e.1 e.2

def replayActivityOccurrences (records : List Record) : Except Exc (List FiringOccurrence) := do
  let s ← sortedLifecycle records
  (s.begun.entries.filter fun e => e.2.any Record.isActivityRequested).mapM fun e => do
    match s.initiated.get? e.1 with
    | none => .error (valueError
        s!"replay divergence: Activity occurrence {e.1} was not initiated")
    | some (t, _) => refuseDisorderedBeginBatch e.1 t e.2
    s.rebuild e.1 e.2

def replayProjectionPending (records : List Record) : Except Exc (Dict Nat Outcome) := do
  let s ← sortedLifecycle records
  return s.frozen.filter fun occurrence _ => s.begun.contains occurrence ∧ occurrence ∉ s.ended

structure TerminalFold where
  ended : List Nat := []
  terminal : Dict Nat Outcome := Dict.empty

namespace TerminalFold

def freeze (s : TerminalFold) (occurrence : Nat) (t : NetPath) (outcome : Outcome) :
    Except Exc TerminalFold := do
  require (s.terminal.contains occurrence = false) (valueError
    s!"replay divergence: a second terminal activity fact for firing occurrence {occurrence} ({t.str}) — the first one wins, the writer appends no second")
  require (occurrence ∉ s.ended) (valueError
    s!"replay divergence: a terminal activity fact for firing occurrence {occurrence} ({t.str}) after its firing ended — the live writer freezes the activity fact before the terminal boundary")
  return { s with terminal := s.terminal.set occurrence outcome }

def step (s : TerminalFold) : Record → Except Exc TerminalFold
  | .firingCompleted r => .ok { s with ended := s.ended ++ [r.occurrence] }
  | .firingFailed r => .ok { s with ended := s.ended ++ [r.occurrence] }
  | .activityCompleted r => s.freeze r.occurrence r.transition (.completed r.result)
  | .activityFailed r => s.freeze r.occurrence r.transition (.failed r.failure)
  | _ => .ok s

end TerminalFold

def replayTerminalActivity (records : List Record) : Except Exc (Dict Nat Outcome) := do
  let s ← records.foldlM TerminalFold.step {}
  return s.terminal.filter fun occurrence _ => occurrence ∈ s.ended

/-- A close or reset: the closed generation and the occurrences it cancels. -/
def Record.closure? : Record → Option (LifecycleScope × List Nat)
  | .scopeClosed r => some (r.scope, r.cancelled)
  | .scopeReset r => some (r.closed, r.cancelled)
  | _ => none

def cancelAll (cancelled : Dict Nat LifecycleScope) (scope : LifecycleScope) (ids : List Nat) :
    Except Exc (Dict Nat LifecycleScope) :=
  ids.foldlM (fun cancelled occurrence => do
    require (cancelled.contains occurrence = false)
      (valueError s!"replay divergence: firing occurrence {occurrence} cancelled twice")
    return cancelled.set occurrence scope) cancelled

structure QuarantineFold where
  quarantined : Dict Nat Json := Dict.empty
  cancelled : Dict Nat LifecycleScope := Dict.empty

namespace QuarantineFold

def quarantine (s : QuarantineFold) (r : ActivityTerminalQuarantined) :
    Except Exc QuarantineFold := do
  require (s.cancelled.get? r.occurrence = some r.scope) (valueError
    s!"replay divergence: terminal quarantined for firing occurrence {r.occurrence} outside its lifecycle cancellation")
  require (s.quarantined.contains r.occurrence = false) (valueError
    s!"replay divergence: a second quarantined terminal for firing occurrence {r.occurrence}")
  return { s with quarantined := s.quarantined.set r.occurrence r.outcome }

def step (s : QuarantineFold) (record : Record) : Except Exc QuarantineFold :=
  match record with
  | .activityTerminalQuarantined r => s.quarantine r
  | _ =>
    match record.closure? with
    | none => .ok s
    | some (scope, ids) => do return { s with cancelled := ← cancelAll s.cancelled scope ids }

end QuarantineFold

def replayQuarantinedActivity (records : List Record) : Except Exc (Dict Nat Json) :=
  QuarantineFold.quarantined <$> records.foldlM QuarantineFold.step {}

def cancellations (records : List Record) : Except Exc (Dict Nat LifecycleScope) :=
  records.foldlM (fun cancelled record =>
    match record.closure? with
    | none => .ok cancelled
    | some (scope, ids) => cancelAll cancelled scope ids) Dict.empty

def replayCancelled (records : List Record) : Except Exc (List FiringOccurrence) := do
  let s ← sortedLifecycle records
  let cancelled ← cancellations records
  cancelled.entries.mapM fun (occurrence, scope) => do
    match s.begun.get? occurrence with
    | none => .error (valueError
        s!"replay divergence: cancelled firing occurrence {occurrence} was not begun")
    | some begun =>
      let rebuilt ← s.rebuild occurrence begun
      require (rebuilt.scope = some scope) (valueError
        s!"replay divergence: firing occurrence {occurrence} belongs to another lifecycle scope than the closing {scope.name}")
      return rebuilt

end Petrus.Impetus
