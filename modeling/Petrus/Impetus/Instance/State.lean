import Petrus.Lib.Act
import Petrus.Impetus.Enabledness
import Petrus.Impetus.Instance.Occurrence

/-!
# The live instance

The state an instance keeps beside its history, its constructor, and the one shape
every appending door has: plan against the live state, append the planned batch,
settle the live state. The history is kept as the list of appended batches.
-/

namespace Petrus.Impetus

open Lib Motus

abbrev History := List (List Record)

/-- What a history store does with a batch: `some e` raises and stores nothing, `none` stores it
whole. -/
abbrev Store := History → List Record → Option Exc

structure Instance where
  instanceId : String
  history : History
  watermark : Instant
  armed : Armed
  queues : Queues
  nextOccurrence : Nat
  nextEntry : Nat
  inFlight : Dict Nat FiringOccurrence
  activityOccurrences : Dict Nat FiringOccurrence
  cancelled : Dict Nat FiringOccurrence
  frozenResults : Dict Nat Outcome
  terminalActivity : Dict Nat Outcome
  quarantinedActivity : Dict Nat Json
  acceptedIdentities : Dict String AcceptedDeliveryFact
  activeScopes : Dict String LifecycleScope
  scopeGenerations : Dict String Nat

namespace Instance

variable (s : Instance)

def records : List Record := s.history.flatten

def marking : Marking := s.queues.marking

def effective (atInstant : Option Instant) : Instant :=
  match atInstant with
  | none => s.watermark
  | some i => max i s.watermark

def armedKeys (source : NetPath) : List String := (s.armed.get? source).getD []

def candidates (D : Definition) : Except Exc (List Binding) :=
  Impetus.candidates D s.marking s.watermark s.queues.entryInstants

def nextMaturation (D : Definition) : Except Exc (Option Instant) :=
  Impetus.nextMaturation D s.marking s.watermark s.queues.entryInstants

def projectionPending : List FiringOccurrence :=
  s.inFlight.values.filter fun occurrence => s.frozenResults.contains occurrence.id

end Instance

/-! ## Construction -/

def validateInitialTokens (net : Net) (place : NetPath) (tokens : List Token) : Except Exc Unit :=
  match (net.place? place).bind Place.color with
  | none => .ok ()
  | some color => require (∀ token ∈ tokens, token.color = some color)
      (valueError s!"initial marking for place {place.str} requires color {quoted color}")

def initialRecords (net : Net) (m : Marking) (instanceId : String) (instant : Instant) :
    List Record :=
  .instanceCreated { instanceId, name := net.name, instant } ::
    (m.queues.entries.map fun e =>
      .tokensInitialized { place := e.1, tokens := e.2, instant }) ++
    (net.sourceTransitions.map fun source =>
      .deliveryRegistrationOpened { source, key := "default", occurrence := none, instant })

def tokenCount (m : Marking) : Nat := (m.queues.entries.map fun e => e.2.length).sum

def Instance.create (D : Definition) (m : Marking) (instanceId : String) (instant : Instant)
    (store : Store) : Except Exc Instance := do
  require (instanceId ≠ "") (valueError
    s!"Instance identity must be a non-empty string of the exact built-in type, got {quoted instanceId}")
  m.queues.entries.forM fun e => validateInitialTokens D.net e.1 e.2
  let initial ← writerRecords (initialRecords D.net m instanceId instant)
  match store [] initial with
  | some e => .error e
  | none =>
    let queues ← initial.foldlM (fun queues record => applyMovement queues record) Dict.empty
    return {
      instanceId, history := [initial], watermark := instant
      armed := Dict.ofList (D.net.sourceTransitions.map fun source => (source, ["default"]))
      queues, nextOccurrence := 1, nextEntry := 1 + tokenCount m
      inFlight := Dict.empty, activityOccurrences := Dict.empty, cancelled := Dict.empty
      frozenResults := Dict.empty, terminalActivity := Dict.empty
      quarantinedActivity := Dict.empty, acceptedIdentities := Dict.empty
      activeScopes := Dict.empty, scopeGenerations := Dict.empty }

/-! ## The shape of a door -/

abbrev Door (α : Type) := Act Instance Exc α

/-- Why a commit raised: its plan or settlement did, or the store refused the batch. -/
inductive Failure where
  | raised (e : Exc)
  | refused (e : Exc)

def Failure.exc : Failure → Exc
  | raised e => e
  | refused e => e

/-- What a door decides to do: answer at once, or append a batch. -/
inductive Plan (α β : Type) where
  | answer (b : β)
  | batch (records : List Record) (a : α)

def append (store : Store) (batch : List Record) : Act Instance Failure Unit := fun s =>
  match store s.history batch with
  | some e => (.error (.refused e), s)
  | none => (.ok (), { s with history := s.history ++ [batch] })

/-- Plan against the live state, append the planned batch, settle the live state. -/
def commit {α β : Type} (store : Store) (plan : Instance → Except Exc (Plan α β))
    (settle : α → Door β) : Act Instance Failure β := do
  let s ← Act.get
  match ← Act.mapError Failure.raised (Act.lift (plan s)) with
  | .answer b => return b
  | .batch records a =>
    append store records
    Act.mapError Failure.raised (settle a)

def door {α : Type} (m : Act Instance Failure α) : Door α := Act.mapError Failure.exc m

def advance (instant : Instant) : Door Unit :=
  Act.modify fun s => { s with watermark := instant }

def keyError (key : String) : Exc := ⟨"KeyError", false, key, [key]⟩

def applyMovements (movements : List (Record × List Nat)) : Door Unit :=
  Act.each (fun s m => do return { s with queues := ← applyMovement s.queues m.1 m.2 }) movements

def popInFlight (id : Nat) : Door FiringOccurrence := do
  let s ← Act.get
  match s.inFlight.get? id with
  | none => Act.throw (keyError s!"{id}")
  | some occurrence =>
    Act.modify fun s => { s with inFlight := s.inFlight.erase id }
    return occurrence

def settleOutcome (id : Nat) : Door Unit := do
  let s ← Act.get
  match s.frozenResults.get? id with
  | none => Act.throw (keyError s!"{id}")
  | some outcome =>
    Act.modify fun s => { s with
      frozenResults := s.frozenResults.erase id
      terminalActivity := s.terminalActivity.set id outcome }

end Petrus.Impetus
