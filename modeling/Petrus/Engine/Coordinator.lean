import Petrus.Lib.Act
import Petrus.Impetus.Selection
import Petrus.Impetus.Instance.Resume
import Petrus.Motus.Dispatch.Local

/-!
# The asynchronous coordinator

One drive reconciles once, observes the available actions, lets a policy choose
one and applies it against the instance. What lies outside is a host: the history
store, the dispatch, the clock, the sensor and, for a joined transaction, the
commit point. A session keeps, beside the coordinator, the durable history and
what the coordinator asked of its dispatch and collected from it.
-/

namespace Petrus.Engine

open Lib Motus Impetus
open Motus.LocalDispatch (CancellationInstruction CancellationDisposition)

structure Delivery where
  source : NetPath
  tokens : List SuppliedToken
  identity : String
  scope : Option ScopeTarget := none
  deriving DecidableEq

def Delivery.request (d : Delivery) (atInstant : Option Instant) : DeliveryRequest where
  source := .path d.source
  tokens := d.tokens
  atInstant := atInstant
  identity := d.identity
  scope := d.scope

/-- A collected outcome: a terminal failure, or whatever the activity returned. -/
inductive Arrival where
  | returned (result : Payload)
  | failed (failure : ActivityFailure)
  deriving DecidableEq

inductive Action where
  | acceptResult (occurrence : Nat) (outcome : Arrival)
  | acceptDelivery (delivery : Delivery)
  | beginCandidate (binding : Binding) (proposal : SelectionProposal)
  | advanceTime (instant : Instant)
  | wait
  | stop
  deriving DecidableEq

/-- A policy's detached view of one in-flight occurrence. -/
structure InFlightView where
  occurrence : Nat
  transition : NetPath
  consumed : List Selection
  impure : Bool

structure Snapshot where
  actions : List Action
  inFlight : List InFlightView
  previous : Option Action

abbrev DrivingPolicy := Snapshot → Except Exc Action

/-- What a coordinator is composed of; `joined` when a commit point was supplied. -/
structure Composition (κ : Type) where
  definition : Definition
  policy : DrivingPolicy
  selection : SelectionPolicy κ
  joined : Bool
  cancellable : Bool

/-- What becomes of a joined transaction at its commit point. -/
inductive CommitFate where
  | acknowledged
  /-- It raises and nothing is durable. -/
  | refused (e : Exc)
  /-- It raises with the transaction durable. -/
  | acknowledgementLost (e : Exc)

/-- What the outside answers during one call. -/
structure Host where
  store : Store
  now : History → Instant
  observe : Instant → Option Instant
  collect : Except Exc (List (Nat × Arrival))
  dispatch : Nat → ActivityInvocation Json → Option Exc
  cancel : CancellationInstruction → Except Exc CancellationDisposition
  /-- `none` without a sensor; a sensor may answer `None`. -/
  sensor : Option (Except Exc (Option (List Delivery)))
  commit : History → CommitFate

inductive Call where
  | dispatch (occurrence : Nat) (invocation : ActivityInvocation Json)
  | cancel (occurrence : Nat) (invocation : ActivityInvocation Json) (historyPosition : Nat)
  deriving DecidableEq

structure Coordinator where
  instance_ : Instance
  selectionState : SelectionState
  arrived : List (Nat × Arrival) := []
  deliveries : List Delivery := []
  dispatched : Dict Nat FiringOccurrence
  reconciled : Bool := false
  previous : Option Action := none

structure Session extends Coordinator where
  durable : History
  calls : List Call := []
  collected : List (Nat × Arrival) := []
  answered : List (Nat × Arrival × TerminalDisposition) := []

abbrev Driver (α : Type) := Act Session Exc α

def runtimeError (text : String) : Exc := ⟨"RuntimeError", false, text, [quoted text]⟩

variable {κ : Type} [LinearOrder κ] (C : Composition κ) (host : Host)

def Coordinator.create (i : Instance) : Except Exc Coordinator := do
  let selectionState ← foldHistory C.selection none i.records
  require (C.cancellable = true ∨ ∀ o ∈ i.cancelled.values, o.invocation = none) (typeError
    "cannot load lifecycle-cancelled Activities with this Dispatch: it does not implement the recoverable cancellation extension")
  return { instance_ := i, selectionState, dispatched := i.activityOccurrences }

/-! ## Reaching the instance, the dispatch and the transaction -/

/-- A call on the instance; without a commit point what it appends is durable at once. -/
def onInstance {ε α : Type} (m : Act Instance ε α) : Act Session ε α := fun s =>
  ((m s.instance_).1, { s with
    instance_ := (m s.instance_).2
    durable := if C.joined then s.durable else (m s.instance_).2.history })

def committed : Driver Unit := fun s =>
  if C.joined then
    match host.commit s.instance_.history with
    | .acknowledged => (.ok (), { s with durable := s.instance_.history })
    | .refused e => (.error e, s)
    | .acknowledgementLost e => (.error e, { s with durable := s.instance_.history })
  else (.ok (), s)

def now (s : Session) : Option Instant := some (host.now s.instance_.history)

def installSelection (proposal : SelectionProposal) : Driver Unit := do
  let s ← Act.get
  if s.selectionState = proposal.priorState then
    Act.modify fun s => { s with selectionState := proposal.nextState }
  else Act.throw (runtimeError
    "selection state changed before its begin commit: the proposal prior state no longer matches")

def dispatchOccurrence (o : FiringOccurrence) (invocation : ActivityInvocation Json) :
    Driver Unit := do
  Act.modify fun s => { s with
    dispatched := s.dispatched.set o.id o
    calls := s.calls ++ [.dispatch o.id invocation] }
  match host.dispatch o.id invocation with
  | some e => Act.throw e
  | none => pure ()

def cancelOccurrence (o : FiringOccurrence) (invocation : ActivityInvocation Json)
    (historyPosition : Nat) : Driver Unit := do
  if C.cancellable then
    Act.modify fun s => { s with dispatched := s.dispatched.set o.id o }
    if h : 1 ≤ o.id ∧ 1 ≤ historyPosition then
      Act.modify fun s => { s with calls := s.calls ++ [.cancel o.id invocation historyPosition] }
      let _ ← Act.lift (host.cancel ⟨o.id, invocation, historyPosition, h.1, h.2⟩)
      return ()
    else Act.throw (valueError
      "Cancellation Instruction occurrence and history_position must be positive integers")
  else Act.throw (typeError
    "cannot cancel lifecycle-scoped Activity: this Dispatch does not implement the recoverable cancellation extension")

def recordArrival (o : FiringOccurrence) (outcome : Arrival) : Driver Unit := do
  let s ← Act.get
  let disposition ← onInstance C (match outcome with
    | .returned result => recordActivityCompletion host.store o result (now host s)
    | .failed failure => recordActivityFailure host.store o failure (now host s))
  Act.modify fun s => { s with answered := s.answered ++ [(o.id, outcome, disposition)] }

/-- Drive a begun pure occurrence to its end; a recorded failure is committed before it
propagates. -/
def completePure (o : FiringOccurrence) : Driver FiringOutcome :=
  let D := C.definition
  let t := o.binding.transition
  match D.boundHandler t with
  | .activity _ => Act.throw (typeError s!"pure firing {t.str} is bound to an ActivityHandler")
  | .plain run =>
    Act.catching (do
      let result ← Act.mapError Failure.raised (Act.lift (run o.binding (D.net.outputs t)))
      let s ← Act.get
      onInstance C (commitCompletion D host.store o result (now host s))) fun
    | .refused e => Act.throw e
    | .raised e => do
      let s ← Act.get
      if s.instance_.inFlight.contains o.id then
        onInstance C (fail D host.store o (.text (firingFailureText e)) (now host s))
        committed C host
      Act.throw e

/-! ## Reconciling -/

def cancellationPositions (records : List Record) : Except Exc (Dict Nat Nat) :=
  (records.zipIdx 1).foldlM (fun positions e =>
    match e.1.closure? with
    | none => .ok positions
    | some (_, ids) => ids.foldlM (fun positions id => do
        require (positions.contains id = false)
          (valueError s!"replay divergence: firing occurrence {id} cancelled twice")
        return positions.set id e.2) positions) Dict.empty

def reconcileCancellations : Driver Unit := do
  let s ← Act.get
  let positions ← Act.lift (cancellationPositions s.instance_.records)
  Act.forEach (fun o =>
    match o.invocation with
    | none => pure ()
    | some invocation =>
      match positions.get? o.id with
      | none => Act.throw (keyError s!"{o.id}")
      | some position => cancelOccurrence C host o invocation position) s.instance_.cancelled.values

def republish (pending : List Nat) (o : FiringOccurrence) : Driver Unit :=
  match o.invocation with
  | none => pure ()
  | some invocation =>
    if o.id ∈ pending then pure () else dispatchOccurrence host o invocation

def terminalFailure (o : FiringOccurrence) (failure : ActivityFailure) : Exc :=
  runtimeError
    s!"activity for firing occurrence {o.id} ({o.binding.transition.str}) failed terminally: {failure.error}"

/-- End an occurrence whose outcome is frozen: by projection, or by its failure. -/
def settleFrozen (o : FiringOccurrence) : Driver FiringOutcome := do
  let D := C.definition
  let s ← Act.get
  match s.instance_.frozenResults.get? o.id with
  | none => Act.throw (keyError s!"{o.id}")
  | some (.failed failure) =>
    if projectsFailure D o.binding.transition then
      onInstance C (complete D host.store o none (now host s))
    else do
      onInstance C (fail D host.store o (.classified failure) (now host s))
      committed C host
      Act.throw (terminalFailure o failure)
  | some (.completed _) => onInstance C (complete D host.store o none (now host s))

/-- Cancellations, then the outbox, then the frozen, then the pure in flight. -/
def reconcile : Driver (List FiringOutcome) := do
  reconcileCancellations C host
  let s ← Act.get
  let inFlight := s.instance_.inFlight.values
  let pending := s.instance_.projectionPending.map FiringOccurrence.id
  Act.forEach (republish host pending) inFlight
  let projected ← Act.collect (settleFrozen C host)
    (inFlight.filter fun o => o.invocation ≠ none ∧ o.id ∈ pending)
  let completed ← Act.collect (completePure C host) (inFlight.filter fun o => o.invocation = none)
  return projected ++ completed

def reconcileOnce : Driver (List FiringOutcome) := do
  let s ← Act.get
  if s.reconciled then return []
  else
    Act.modify fun s => { s with reconciled := true }
    let firings ← reconcile C host
    committed C host
    return firings

/-! ## Observing -/

/-- Keep what is in flight; acknowledge or quarantine what ended, refuse what was never
dispatched. -/
def resolveArrivals (inFlight : List Nat) : List (Nat × Arrival) → Driver (List (Nat × Arrival))
  | [] => pure []
  | (id, outcome) :: rest => do
    if id ∈ inFlight then
      let remaining ← resolveArrivals inFlight rest
      return (id, outcome) :: remaining
    else
      let s ← Act.get
      match s.dispatched.get? id with
      | none => Act.throw (valueError
          s!"the Dispatch completed occurrence {id}, which is not in flight: a Dispatch answers only for invocations its coordinator dispatched")
      | some o =>
        recordArrival C host o outcome
        resolveArrivals inFlight rest

def collectArrivals (inFlight : List Nat) : Driver Unit := do
  let outcomes ← Act.lift host.collect
  Act.modify fun s => { s with
    arrived := s.arrived ++ outcomes
    collected := s.collected ++ outcomes }
  let s ← Act.get
  let remaining ← resolveArrivals C host inFlight s.arrived
  Act.modify fun s => { s with arrived := remaining }

def offerCandidate : Driver (List Action) := do
  let s ← Act.get
  let enabled ← Act.lift (s.instance_.candidates C.definition)
  if enabled = [] then return []
  else
    match ← Act.lift (C.selection.propose enabled s.selectionState) with
    | none => return []
    | some proposal =>
      Act.lift (require (enabled.any (·.equals proposal.binding))
        (valueError "candidate selection proposed a binding outside the enabled offer"))
      Act.lift (require (proposal.priorState = s.selectionState)
        (valueError "candidate selection proposal does not carry the live prior state"))
      return [.beginCandidate proposal.binding proposal]

/-- Consult the sensor while a registration is armed and nothing is buffered. -/
def sense : Driver Unit := do
  let s ← Act.get
  if s.deliveries = [] ∧ s.instance_.armed.values.any (· ≠ []) then
    match host.sensor with
    | none => pure ()
    | some answer =>
      match ← Act.lift answer with
      | none => Act.throw (valueError
          "sensor returned None: a sensor answers with a sequence of deliveries — empty to decline")
      | some parcels => Act.modify fun s => { s with deliveries := s.deliveries ++ parcels }

def view (o : FiringOccurrence) : InFlightView where
  occurrence := o.id
  transition := o.binding.transition
  consumed := o.binding.consumed
  impure := o.invocation.isSome

def outstanding (s : Session) (inFlight : List FiringOccurrence) : Bool :=
  inFlight.any fun o => o.invocation ≠ none ∧ o.id ∉ s.arrived.map Prod.fst ∧
    o.id ∉ s.instance_.projectionPending.map FiringOccurrence.id

def observe : Driver Snapshot := do
  let s ← Act.get
  let inFlight := s.instance_.inFlight.values
  collectArrivals C host (inFlight.map FiringOccurrence.id)
  let candidate ← offerCandidate C
  let s ← Act.get
  let maturation ← Act.lift (s.instance_.nextMaturation C.definition)
  sense host
  let s ← Act.get
  return {
    actions := (s.arrived.map fun a => .acceptResult a.1 a.2) ++ candidate ++
      (maturation.toList.map .advanceTime) ++
      ((s.deliveries.takeWhile fun d => s.instance_.armedKeys d.source ≠ []).map .acceptDelivery) ++
      (if outstanding s inFlight then [.wait] else []) ++ [.stop]
    inFlight := inFlight.map view
    previous := s.previous }

def choose (snapshot : Snapshot) : Driver Action := do
  let action ← Act.lift (C.policy snapshot)
  Act.lift (require (action ∈ snapshot.actions)
    (valueError "the policy chose an action the coordinator did not offer"))
  return action

/-! ## Applying -/

/-- What an applied action leaves to its drive. -/
structure Applied where
  proposal : Option SelectionProposal := none
  firings : List FiringOutcome := []

def unbufferArrival (occurrence : Nat) : Driver Unit :=
  Act.modify fun s => { s with arrived := s.arrived.eraseP fun a => a.1 = occurrence }

def acceptResult (occurrence : Nat) (outcome : Arrival) : Driver Applied := do
  let D := C.definition
  let s ← Act.get
  match s.instance_.inFlight.values.find? fun o => o.id = occurrence with
  | none => Act.throw ⟨"StopIteration", false, "", []⟩
  | some o =>
    unbufferArrival occurrence
    recordArrival C host o outcome
    committed C host
    let s ← Act.get
    match outcome with
    | .returned _ =>
      let firing ← onInstance C (complete D host.store o none (now host s))
      return { firings := [firing] }
    | .failed failure =>
      if projectsFailure D o.binding.transition then
        let firing ← onInstance C (complete D host.store o none (now host s))
        committed C host
        return { firings := [firing] }
      else
        onInstance C (fail D host.store o (.classified failure) (now host s))
        committed C host
        Act.throw (terminalFailure o failure)

/-- The delivery's completion appended its recorded failure and nothing else. -/
def failureRecorded (before : Nat) (occurrence : Nat) (s : Session) : Bool :=
  s.instance_.records.length = before + 1 ∧
    s.instance_.records.getLast?.any fun
      | .firingFailed r => r.occurrence = occurrence
      | _ => false

/-- Complete an accepted delivery; a recorded failure is committed before it propagates. -/
def completeAccepted (a : AcceptedDelivery) : Driver FiringOutcome := do
  let s ← Act.get
  Act.catching (onInstance C (completeDelivery C.definition host.store a (now host s))) fun e => do
    let t ← Act.get
    if failureRecorded s.instance_.records.length a.occurrence t then committed C host
    Act.throw e

def acceptDelivery (delivery : Delivery) : Driver Applied := do
  Act.modify fun s => { s with deliveries := s.deliveries.erase delivery }
  let s ← Act.get
  match ← onInstance C (Impetus.acceptDelivery C.definition host.store
      (delivery.request (now host s))) with
  | .accepted a =>
    let t ← Act.get
    if t.instance_.records.length ≠ s.instance_.records.length then committed C host
    let firing ← completeAccepted C host a
    return { firings := [firing] }
  | _ => return {}

def runBegun (o : FiringOccurrence) (earned : Option SelectionProposal) : Driver Applied :=
  match o.invocation with
  | none => do
    let firing ← completePure C host o
    return { proposal := earned, firings := [firing] }
  | some invocation => do
    dispatchOccurrence host o invocation
    return { proposal := earned }

/-- Without a commit point the selection is installed with the begin; with one it is returned to
the drive, which commits first. -/
def beginCandidate (binding : Binding) (proposal : SelectionProposal) : Driver Applied := do
  let s ← Act.get
  let o ← onInstance C (begin_ C.definition host.store binding (now host s))
  if C.joined then runBegun C host o (some proposal)
  else
    installSelection proposal
    runBegun C host o none

/-- `none` when the clock has not reached the requested instant. -/
def advanceTime (instant : Instant) : Driver (Option Applied) :=
  match host.observe instant with
  | none => return none
  | some observed =>
    if observed < instant then Act.throw (valueError
      s!"clock observed {observed}, before the requested maturation {instant}: observe must return None or an instant at least as late as requested")
    else do
      let _ ← onInstance C (wake C.definition host.store observed)
      return some {}

/-- `none` when nothing was applied. -/
def apply : Action → Driver (Option Applied)
  | .acceptResult occurrence outcome => some <$> acceptResult C host occurrence outcome
  | .acceptDelivery delivery => some <$> acceptDelivery C host delivery
  | .beginCandidate binding proposal => some <$> beginCandidate C host binding proposal
  | .advanceTime instant => advanceTime C host instant
  | .wait | .stop => Act.throw (valueError "cannot apply non-mutating host posture")

/-! ## Driving -/

structure DriveOutcome where
  firings : List FiringOutcome
  waiting : Bool
  ready : Bool
  nextMaturation : Option Instant

def posture (firings : List FiringOutcome) (waiting ready : Bool) : Driver DriveOutcome := do
  let s ← Act.get
  let nextMaturation ← Act.lift (s.instance_.nextMaturation C.definition)
  return { firings, waiting, ready, nextMaturation }

def Action.isDelivery : Action → Bool
  | .acceptDelivery _ => true
  | _ => false

/-- Commit what an applied action left open, then install the selection its begin earned. -/
def settle (action : Action) (before : Nat) (applied : Applied) : Driver Unit := do
  let s ← Act.get
  if action.isDelivery = false ∨ s.instance_.records.length ≠ before then committed C host
  match applied.proposal with
  | none => pure ()
  | some proposal => installSelection proposal
  Act.modify fun s => { s with previous := some action }

/-- Apply the chosen action; an instant not yet due is withdrawn and the policy asked again. The
fuel is the number of offered actions. -/
def turn : Nat → Snapshot → Action → List FiringOutcome → Driver DriveOutcome
  | 0, _, _, _ => Act.throw (runtimeError "no action left")
  | fuel + 1, snapshot, action, firings => do
    if action = .wait ∨ action = .stop then
      committed C host
      posture C firings (action = .wait) false
    else
      let s ← Act.get
      match ← apply C host action with
      | some applied =>
        settle C host action s.instance_.records.length applied
        posture C (firings ++ applied.firings) false true
      | none =>
        let snapshot := { snapshot with actions := snapshot.actions.filter (· ≠ action) }
        let action ← choose C snapshot
        turn fuel snapshot action firings

def drive : Driver DriveOutcome := do
  let firings ← reconcileOnce C host
  let snapshot ← observe C host
  let action ← choose C snapshot
  turn C host snapshot.actions.length snapshot action firings

/-! ## Driving policies -/

section

namespace Action

def isResult : Action → Bool
  | .acceptResult .. => true
  | _ => false

def isBegin : Action → Bool
  | .beginCandidate .. => true
  | _ => false

def isTime : Action → Bool
  | .advanceTime _ => true
  | _ => false

end Action

def noAction : Exc := valueError "no available action: the coordinator always offers Stop"

def firstOf (kinds : List (Action → Bool)) (actions : List Action) : Option Action :=
  kinds.findSome? fun kind => actions.find? kind

/-- A delivery has priority unless the last action was one; nothing begins while a result is
outstanding. -/
def chooseConservative (snapshot : Snapshot) : Except Exc Action :=
  let actions := snapshot.actions
  match actions.find? Action.isResult with
  | some action => .ok action
  | none =>
    let delivery := actions.find? Action.isDelivery
    let interrupts := delivery.filter fun _ => !snapshot.previous.any Action.isDelivery
    match interrupts with
    | some action => .ok action
    | none =>
      if .wait ∈ actions then .ok (delivery.getD .wait)
      else
        match firstOf [Action.isBegin, Action.isTime] actions <|> delivery with
        | some action => .ok action
        | none => if .stop ∈ actions then .ok .stop else .error noAction

end

end Petrus.Engine
