import Petrus.Lib.Dict
import Petrus.Lib.Fold
import Petrus.Lib.Trace
import Petrus.Lib.Act

/-!
# The vocabulary of a deterministic world

Commands, faults, observations and what a world records of them: expanded operations
and journal entries. Payloads are of a type `V` of strict JSON data, compared by the
equality of the host language. A profile and its checkers are outside code; a profile
keeps a state of its own and may ask the world for the instant, stable ids and faults
while one of its operations runs.
-/

namespace Petrus.Testing.Dst

open Lib

inductive Disposition where
  | converged
  | quiescent
  | externalWait
  | budgetExhausted
  | invariantFailure
  | quarantined
  deriving DecidableEq

namespace Disposition

def value : Disposition → String
  | converged => "converged"
  | quiescent => "quiescent"
  | externalWait => "external_wait"
  | budgetExhausted => "budget_exhausted"
  | invariantFailure => "invariant_failure"
  | quarantined => "quarantined"

def isAuthored : Disposition → Bool
  | budgetExhausted => false
  | invariantFailure => false
  | _ => true

end Disposition

inductive ActionDisposition where
  | applied
  | idempotent
  | refusedExpected
  | quarantined
  deriving DecidableEq

inductive FaultDisposition where
  | refuse
  | raise
  | delay
  | drop
  | duplicate
  deriving DecidableEq

inductive CommandSource where
  | authored
  | profile
  deriving DecidableEq

/-- A letter, then letters, digits and `_.:-`. -/
def isName (s : String) : Bool :=
  match s.toList with
  | [] => false
  | c :: cs => c.isAlpha && cs.all fun c => c.isAlphanum || c ∈ ['_', '.', ':', '-']

structure ComponentIdentity where
  name : String
  version : Nat
  digest : String
  deriving DecidableEq

def maxArtifactBytes : Nat := 4194304

def maxPortableInteger : Nat := 2 ^ 53 - 1

structure Limits where
  actions : Nat
  queuedCommands : Nat
  timerAdvances : Nat
  logicalInstant : Nat
  reloads : Nat
  predicatePolls : Nat
  artifactBytes : Nat
  profileResources : Option (List (String × Nat)) := none
  deriving DecidableEq

def Limits.Valid (l : Limits) : Prop :=
  (1 ≤ l.actions ∧ l.actions ≤ 100000) ∧ (1 ≤ l.queuedCommands ∧ l.queuedCommands ≤ 10000) ∧
    l.timerAdvances ≤ 10000 ∧ l.logicalInstant ≤ maxPortableInteger ∧ l.reloads ≤ 1000 ∧
    (1 ≤ l.predicatePolls ∧ l.predicatePolls ≤ 100000) ∧
    (1 ≤ l.artifactBytes ∧ l.artifactBytes ≤ maxArtifactBytes) ∧
    ∀ resources ∈ l.profileResources, ∀ r ∈ resources, isName r.1 ∧ r.2 ≤ maxPortableInteger

/-- The limits of a world; `profileResources` are those of the current version. -/
structure Budget extends Limits where
  valid : toLimits.Valid

instance : DecidableEq Budget := fun a b =>
  decidable_of_iff (a.toLimits = b.toLimits) (by cases a; cases b; simp)

section Recorded

variable (V : Type)

structure Command where
  profile : ComponentIdentity
  name : String
  payload : V
  deriving BEq, ReflBEq

structure Fault where
  profile : ComponentIdentity
  name : String
  target : String
  occurrence : Nat
  disposition : FaultDisposition
  payload : V
  deriving BEq, ReflBEq

structure ScheduledCommand where
  instant : Nat
  command : Command V
  deriving BEq, ReflBEq

structure ApplyResult where
  disposition : ActionDisposition
  value : V
  scheduled : List (ScheduledCommand V)
  deriving BEq, ReflBEq

structure ObservationRequest where
  name : String
  payload : V
  deriving BEq, ReflBEq

structure Observation where
  name : String
  value : V
  instant : Nat
  generation : Nat
  sequence : Nat
  deriving BEq, ReflBEq

structure CheckResult where
  passed : Bool
  detail : V
  deriving BEq, ReflBEq

/-- A call of the interpreter, as it was asked for. -/
inductive Attempt where
  | submit (generation : Nat) (command : Command V)
  | step
  | activateFault (generation : Nat) (fault : Fault V)
  | observe (generation : Nat) (request : ObservationRequest V) (poll : Bool)
  | crash (generation : Nat) (cut : String)
  | restart
  | beginFair (generation : Nat)
  | finish (generation : Nat) (disposition : Disposition)
  deriving BEq, ReflBEq

inductive FailureDetail where
  | budgetExhausted (bound : String) (limit : Nat) (error : String)
  | invariantFailure (error : String)
  deriving DecidableEq

def FailureDetail.kind : FailureDetail → Disposition
  | budgetExhausted .. => .budgetExhausted
  | invariantFailure _ => .invariantFailure

inductive Operation where
  | execute (position : Nat) (source : CommandSource) (queueOrder instant generation : Nat)
      (command : Command V) (result : ApplyResult V)
  | fault (position instant generation : Nat) (fault : Fault V)
  | observe (position : Nat) (poll : Bool) (observation : Observation V)
      (request : ObservationRequest V)
  | crash (position instant generation : Nat) (cut : String) (discardedCommands : Nat)
  | restart (position instant generation : Nat)
  | fair (position instant generation : Nat)
  | finish (position instant generation : Nat) (disposition : Disposition)
  | failure (position instant : Nat) (generation : Option Nat) (acceptedOperations : Nat)
      (attempt : Attempt V) (failure : FailureDetail)
  deriving BEq, ReflBEq

inductive JournalKind where
  | created
  | loaded
  | command
  | fault
  | observation
  | check
  | crash
  | fair
  | finish
  | budget
  | failure
  | resource
  deriving DecidableEq

/-- What a journal entry retains. -/
inductive JournalValue where
  | scheduled (commands : List (ScheduledCommand V))
  | operation (operation : Operation V)
  | check (checker : ComponentIdentity) (trigger : String) (observation : Observation V)
      (result : CheckResult V)
  | limit (limit : Nat)
  | usage (usage : List (String × Nat))
  deriving BEq, ReflBEq

structure JournalEntry where
  position : Nat
  instant : Nat
  generation : Option Nat
  kind : JournalKind
  name : String
  value : JournalValue V
  deriving BEq, ReflBEq

end Recorded

variable {V : Type}

namespace Operation

def position : Operation V → Nat
  | execute position .. => position
  | fault position .. => position
  | observe position .. => position
  | crash position .. => position
  | restart position .. => position
  | fair position .. => position
  | finish position .. => position
  | failure position .. => position

def failure? : Operation V → Option FailureDetail
  | failure _ _ _ _ _ detail => some detail
  | _ => none

end Operation

/-! ## Profiles and checkers -/

/-- What a profile operation may ask: the instant, a stable id, the faults due at a target, and
the profile's own state. -/
inductive ContextRequest (σ : Type) where
  | now
  | stableId (ns : String)
  | faults (target : String)
  | own
  | keep (state : σ)

def ContextRequest.Answer (V : Type) {σ : Type} : ContextRequest σ → Type
  | now => Nat
  | stableId _ => Except Exc String
  | faults _ => Except Exc (List (Fault V))
  | own => σ
  | keep _ => Unit

abbrev ProfileProgram (V σ α : Type) := Proc (ContextRequest σ) (ContextRequest.Answer V) Exc α

/-- A new generation and the work it discloses. -/
structure GenerationStart (V G : Type) where
  generation : G
  scheduled : List (ScheduledCommand V) := []

/-- The application's adapter over its runtime: `σ` is the profile's own state, `G` its handle on
one runtime generation. -/
structure ScenarioProfile (V σ G : Type) where
  identity : ComponentIdentity
  validate : Command V → Except Exc (Command V)
  validateFault : Fault V → Except Exc (Fault V)
  create : ProfileProgram V σ (GenerationStart V G)
  load : ProfileProgram V σ (GenerationStart V G)
  apply : G → Command V → ProfileProgram V σ (ApplyResult V)
  observe : G → ObservationRequest V → ProfileProgram V σ V
  drop : G → ProfileProgram V σ Unit
  close : G → ProfileProgram V σ Unit
  resourceUsage : Option (Option G → ProfileProgram V σ (List (String × Nat)))

structure Checker (V : Type) where
  identity : ComponentIdentity
  request : ObservationRequest V
  check : Observation V → Except Exc (CheckResult V)

/-! ## Artifacts and acknowledged progress -/

section

structure ChoiceProvenance where
  seed : Nat
  draws : List (String × Nat)
  deriving DecidableEq

structure ScenarioExpected (V : Type) where
  disposition : Disposition
  failure : Option FailureDetail
  checks : List (JournalEntry V)
  journalDigest : String
  deriving BEq, ReflBEq

/-- The artifact of an ended world; its version follows from the kind of its budget. -/
structure Artifact (V : Type) where
  scenarioId : String
  profile : ComponentIdentity
  checkers : List ComponentIdentity
  budget : Budget
  operations : List (Operation V)
  origin : Option ChoiceProvenance
  expected : ScenarioExpected V
  deriving BEq, ReflBEq

/-- What a child announces before it acts. -/
inductive ProcessAttempt (V : Type) where
  | call (attempt : Attempt V)
  | construct
  | close (generation : Nat)
  deriving BEq, ReflBEq

structure ProcessWorldMetadata where
  profile : ComponentIdentity
  checkers : List ComponentIdentity
  budget : Budget
  seed : Option Nat
  deriving DecidableEq

/-- What a world has recorded, and where it stands. -/
structure Snapshot (V : Type) where
  operations : List (Operation V) := []
  journal : List (JournalEntry V) := []
  instant : Nat := 0
  generation : Option Nat := none
  disposition : Option Disposition := none

inductive Frame (V : Type) where
  | started (sequence : Nat) (scenarioId : String)
  | world (sequence : Nat) (metadata : ProcessWorldMetadata)
  | attempt (sequence : Nat) (attempt : ProcessAttempt V)
  | boundary (sequence : Nat) (delta : Snapshot V)
  | complete (sequence : Nat) (artifact : Artifact V)
  | failed (sequence : Nat) (code : String)

namespace Frame

def sequence : Frame V → Nat
  | started sequence _ => sequence
  | world sequence _ => sequence
  | attempt sequence _ => sequence
  | boundary sequence _ => sequence
  | complete sequence _ => sequence
  | failed sequence _ => sequence

end Frame

/-- The spellings of artifacts, frames and journals. -/
structure Codec (V : Type) where
  dumpArtifact : Artifact V → List UInt8
  loadArtifact : List UInt8 → Option (Artifact V)
  dumpFrame : Frame V → List UInt8
  loadFrame : List UInt8 → Option (Frame V)
  digest : List (JournalEntry V) → String

/-- A written frame, and for a boundary the world it was written about. -/
structure Written (V : Type) where
  frame : Frame V
  seen : Option (Snapshot V) := none

/-- The child's writer of its progress file. -/
structure FileProgress (V : Type) where
  limit : Nat
  written : Nat := 0
  sequence : Nat := 0
  operationPosition : Nat := 0
  journalPosition : Nat := 0
  terminal : Bool := false
  log : List (Written V) := []

namespace FileProgress

variable (codec : Codec V)

def line (frame : Frame V) : List UInt8 := codec.dumpFrame frame ++ [10]

def write (frame : Frame V) (seen : Option (Snapshot V) := none) : Act (FileProgress V) Exc Unit :=
  fun p =>
    let size := (line codec frame).length
    if p.limit < p.written + size then
      (.error (valueError "DST process progress exceeds its byte limit"), p)
    else (.ok (), { p with
      written := p.written + size
      sequence := p.sequence + 1
      log := p.log ++ [⟨frame, seen⟩] })

def start (limit : Nat) (scenarioId : String) : Except Exc Unit × FileProgress V :=
  write codec (.started 0 scenarioId) none { limit }

def world (metadata : ProcessWorldMetadata) : Act (FileProgress V) Exc Unit := do
  let p ← Act.get
  write codec (.world p.sequence metadata)

def attempt (attempt : ProcessAttempt V) : Act (FileProgress V) Exc Unit := do
  let p ← Act.get
  write codec (.attempt p.sequence attempt)

def boundary (now : Snapshot V) : Act (FileProgress V) Exc Unit := do
  let p ← Act.get
  let operations := now.operations.drop p.operationPosition
  let journal := now.journal.drop p.journalPosition
  Act.modify fun p => { p with
    operationPosition := p.operationPosition + operations.length
    journalPosition := p.journalPosition + journal.length }
  write codec (.boundary p.sequence { now with operations, journal }) (some now)

def complete (artifact : Artifact V) : Act (FileProgress V) Exc Unit := do
  let p ← Act.get
  write codec (.complete p.sequence artifact)
  Act.modify fun p => { p with terminal := true }

def failed (code : String) : Act (FileProgress V) Exc Unit := do
  let p ← Act.get
  if p.terminal then return ()
  else do
    write codec (.failed p.sequence code)
    Act.modify fun p => { p with terminal := true }

def file (p : FileProgress V) : List UInt8 := p.log.flatMap fun w => line codec w.frame

end FileProgress

end

end Petrus.Testing.Dst
