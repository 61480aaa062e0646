import Petrus.Testing.Dst.World

/-!
# Artifacts and their replay

The artifact of an ended world, the checks it must pass, its encoding under a byte
budget, and the replay of its operations through the calls of a new world.
-/

namespace Petrus.Testing.Dst

open Lib

variable {V σ G : Type} [BEq V]

/-! ## Artifacts -/

def Attempt.producedOperation : Attempt V → Operation V → Bool
  | .submit generation attempted, .execute _ .authored _ _ accepted command _ =>
    attempted == command && generation == accepted
  | .step, .execute _ .profile _ _ _ _ _ => true
  | .activateFault generation attempted, .fault _ _ accepted armed =>
    attempted == armed && generation == accepted
  | .observe generation attempted poll, .observe _ polled observation request =>
    attempted == request && generation == observation.generation && poll == polled
  | .crash generation attempted, .crash _ _ accepted cut _ =>
    attempted == cut && generation == accepted
  | .restart, .restart .. => true
  | .beginFair generation, .fair _ _ accepted => generation == accepted
  | .finish generation attempted, .finish _ _ accepted disposition =>
    attempted == disposition && generation == accepted
  | _, _ => false

def JournalEntry.isCheck (entry : JournalEntry V) : Bool := entry.kind = .check

namespace Artifact

variable (a : Artifact V)

def validateShape : Except Exc Unit := do
  require (a.operations.map Operation.position = List.range a.operations.length)
    (valueError "DST operation positions must be dense and zero-based")
  require ((a.expected.checks.map JournalEntry.position).Pairwise (· < ·) ∧
      a.expected.checks.all JournalEntry.isCheck)
    (valueError "DST expected checks must be ordered unique check-journal entries")
  require a.checkers.Nodup (valueError "DST checker manifest identities must be unique")

def failures : List (Operation V) := a.operations.filter fun op => op.failure?.isSome

/-- A failed artifact ends with its one failure, whose attempt names the operation it accepted. -/
def validateFailure : Except Exc Unit :=
  if a.expected.disposition.isAuthored then
    require (a.failures.length = 0 ∧ a.expected.failure = none)
      (valueError "a successful DST artifact cannot contain an expected failure")
  else
    match a.failures, a.operations.reverse with
    | [_], .failure _ _ _ accepted attempt failure :: before => do
      require (some failure = a.expected.failure)
        (valueError "DST expected failure must equal the terminal failure operation")
      require (accepted = 0 ∨ before.head?.any attempt.producedOperation)
        (valueError "DST failed attempt does not identify its accepted operation")
    | _, _ => .error (valueError
        "a failed DST artifact must end with exactly one failure operation")

def validateAttempt : Attempt V → Except Exc Unit
  | .submit _ command =>
    require (command.profile = a.profile)
      (valueError "DST failed command attempt does not match the artifact profile")
  | .activateFault _ fault =>
    require (fault.profile = a.profile)
      (valueError "DST failed fault attempt does not match the artifact profile")
  | _ => .ok ()

def validateProfile : Operation V → Except Exc Unit
  | .execute _ _ _ _ _ command _ =>
    require (command.profile = a.profile)
      (valueError "DST operation command does not match the artifact profile")
  | .fault _ _ _ armed =>
    require (armed.profile = a.profile)
      (valueError "DST operation fault does not match the artifact profile")
  | .failure _ _ _ _ attempt detail => do
    require (detail.kind = a.expected.disposition)
      (valueError "DST terminal failure kind must equal the expected disposition")
    a.validateAttempt attempt
  | _ => .ok ()

def coherent : Except Exc Unit := do
  a.validateShape
  a.validateFailure
  a.operations.forM a.validateProfile

end Artifact

def encodeArtifact (codec : Codec V) (a : Artifact V) : Except Exc (List UInt8) := do
  let payload := codec.dumpArtifact a
  require (payload.length ≤ a.budget.artifactBytes) (valueError
    s!"DST artifact has {payload.length} bytes; limit is {a.budget.artifactBytes}")
  return payload

def validScenarioId (scenarioId : String) : Except Exc Unit :=
  require (isName scenarioId) (valueError "scenario id must be a normalized non-empty name")

def ChoiceProvenance.sorted (c : ChoiceProvenance) : ChoiceProvenance :=
  { c with draws := c.draws.insertionSort fun a b => a.1 ≤ b.1 }

namespace World

def outcome (C : Config V σ G) (scenarioId : String) (disposition : Disposition)
    (w : World V σ G) : Artifact V where
  scenarioId := scenarioId
  profile := C.profile.identity
  checkers := C.checkers.map Checker.identity
  budget := C.budget
  operations := w.operations
  origin := w.choices.map ChoiceProvenance.sorted
  expected := {
    disposition
    failure := (w.operations.filterMap Operation.failure?).getLast?
    checks := w.journal.filter JournalEntry.isCheck
    journalDigest := C.codec.digest w.journal }

def artifact (C : Config V σ G) (scenarioId : String) (w : World V σ G) :
    Except Exc (Artifact V) :=
  match w.disposition with
  | none => .error (dstError "finish the DST World before producing an artifact")
  | some disposition => do
    validScenarioId scenarioId
    (w.outcome C scenarioId disposition).coherent
    let _ ← encodeArtifact C.codec (w.outcome C scenarioId disposition)
    return w.outcome C scenarioId disposition

end World

/-! ## Replay -/

def Operation.call : Operation V → Attempt V
  | .execute _ .authored _ _ generation command _ => .submit generation command
  | .execute _ .profile _ _ _ _ _ => .step
  | .fault _ _ generation armed => .activateFault generation armed
  | .observe _ poll observation request => .observe observation.generation request poll
  | .crash _ _ generation cut _ => .crash generation cut
  | .restart .. => .restart
  | .fair _ _ generation => .beginFair generation
  | .finish _ _ generation disposition => .finish generation disposition
  | .failure _ _ _ _ attempt _ => attempt

/-- Whether the operation is a failure whose attempt had accepted the operation before it. -/
def Operation.isPaired : Operation V → Bool
  | .failure _ _ _ accepted _ _ => accepted == 1
  | _ => false

/-- Make a call; `true` when it failed as a failure of the interpreter does. -/
def failing (m : Step V σ G Unit) : Act (World V σ G) Exc Bool := fun w =>
  match m w with
  | (.ok (), w') => (.ok false, w')
  | (.error (.budget _ _), w') => (.ok true, w')
  | (.error (.invariant _), w') => (.ok true, w')
  | (.error (.other e), w') => (.error e, w')

def Raise.exc : Raise → Exc
  | budget bound limit => ⟨"BudgetExhausted", false,
      s!"DST budget {quoted bound} exhausted at limit {limit}", [quoted bound, toString limit]⟩
  | invariant failed =>
    let text := s!"DST checker failure after atomic boundary: {listText failed}"
    ⟨"InvariantViolation", false, text, [quoted text]⟩
  | other e => e

def Config.registered (C : Config V σ G) (identity : ComponentIdentity) : Except Exc (Checker V) :=
  match C.checkers.find? fun checker => checker.identity = identity with
  | some checker => .ok checker
  | none => .error (valueError "DST artifact checker is not registered exactly")

/-- The registered profile and checkers of an artifact, set up with its budget. -/
def resolve (C : Config V σ G) (a : Artifact V) : Except Exc (Config V σ G) := do
  require (C.profile.identity = a.profile)
    (valueError "DST artifact profile is not registered exactly")
  let checkers ← a.checkers.mapM C.registered
  return { C with budget := a.budget, checkers }

end Petrus.Testing.Dst
