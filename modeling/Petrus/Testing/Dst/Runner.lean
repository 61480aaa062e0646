import Petrus.Lib.Lines
import Petrus.Testing.Dst.Runs

/-!
# The process runner

A child process runs a scenario in one world and acknowledges it frame by frame in a
progress file; the parent reads the file back, folds the frames and reports what the
child did.
-/

namespace Petrus.Testing.Dst

open Lib

variable {V σ G : Type}

structure ProcessRunSpec where
  scenarioId : String
  wallClockMs : Nat
  progressBytes : Nat

/-! ## The child -/

def processMetadata (C : Config V σ G) (choices : Option ChoiceProvenance) :
    ProcessWorldMetadata where
  profile := C.profile.identity
  checkers := C.checkers.map Checker.identity
  budget := C.budget
  seed := choices.map ChoiceProvenance.seed

def childFailed (C : Config V σ G) (p : FileProgress V) : Int × FileProgress V :=
  (70, (FileProgress.failed C.codec "scenario-failed" p).2)

def childReturned (C : Config V σ G) (spec : ProcessRunSpec) (artifact : Artifact V)
    (p : FileProgress V) (w : World V σ G) : Int × FileProgress V :=
  if artifact.scenarioId ≠ spec.scenarioId then childFailed C p
  else
    match encodeArtifact C.codec artifact with
    | .error _ => childFailed C p
    | .ok _ =>
      match close C w with
      | (.error _, w') => childFailed C (w'.progress.getD p)
      | (.ok (), w') =>
        match FileProgress.complete C.codec artifact (w'.progress.getD p) with
        | (.error _, p') => childFailed C p'
        | (.ok (), p') => (0, p')

/-- The child of a scenario that opens one world, makes the calls, each whether it returns or
raises, and returns the artifact: its return code and its progress. -/
def processChildMain (C : Config V σ G) (spec : ProcessRunSpec) (choices : Option ChoiceProvenance)
    (methods : List (Method V)) (artifact : Artifact V) : Int × FileProgress V :=
  match FileProgress.start C.codec spec.progressBytes spec.scenarioId with
  | (.error _, p) => (1, p)
  | (.ok (), p) =>
    match FileProgress.world C.codec (processMetadata C choices) p with
    | (.error _, p) => childFailed C p
    | (.ok (), p) =>
      match World.create C choices (some p) with
      | (.error _, w) => childFailed C (w.progress.getD p)
      | (.ok (), w) =>
        let w := w.after C methods
        childReturned C spec artifact (w.progress.getD p) w

/-! ## Reading the frames -/

/-- The lines of a byte string; a line ends at a line feed, a carriage return or both. -/
def splitLines (line : List UInt8) : List UInt8 → List (List UInt8)
  | [] => if line = [] then [] else [line.reverse]
  | 13 :: 10 :: rest => line.reverse :: splitLines [] rest
  | b :: rest =>
    if b = 10 ∨ b = 13 then line.reverse :: splitLines [] rest else splitLines (b :: line) rest

def parseFrames (codec : Codec V) : List (List UInt8) → List (Frame V) × Option String
  | [] => ([], none)
  | raw :: rest =>
    match codec.loadFrame raw with
    | none => ([], some "malformed-frame")
    | some frame => (frame :: (parseFrames codec rest).1, (parseFrames codec rest).2)

def readProcessFrames (codec : Codec V) (file : Option (List UInt8)) (limit : Nat)
    (allowPartial : Bool) : List (Frame V) × Option String :=
  match file with
  | none => ([], some "progress-missing")
  | some payload =>
    if limit < payload.length then ([], some "progress-overflow")
    else if payload ≠ [] ∧ payload.getLast? ≠ some 10 then
      if allowPartial then parseFrames codec (splitLines [] (completed 10 payload))
      else ([], some "partial-frame")
    else parseFrames codec (splitLines [] payload)

/-! ## Folding the frames -/

/-- The boundaries the child acknowledged. -/
structure AcknowledgedPrefix (V : Type) extends Snapshot V where
  world : Option ProcessWorldMetadata := none

def AcknowledgedPrefix.coherent (a : AcknowledgedPrefix V) : Except Exc Unit := do
  require (a.operations.map Operation.position = List.range a.operations.length)
    (valueError "acknowledged operation positions must be dense and zero-based")
  require (a.journal.map JournalEntry.position = List.range a.journal.length)
    (valueError "acknowledged journal positions must be dense and zero-based")
  require (a.world.isSome ∨ a.operations.isEmpty ∧ a.journal.isEmpty ∧ a.generation = none)
    (valueError "acknowledged World progress requires World metadata")

structure Folding (V : Type) where
  acknowledged : AcknowledgedPrefix V := {}
  attempt : Option (ProcessAttempt V) := none
  artifact : Option (Artifact V) := none
  childCode : Option String := none
  started : Bool := false
  terminal : Bool := false

namespace Folding

def Continues (s : Folding V) (delta : Snapshot V) : Prop :=
  delta.operations.map Operation.position =
      (List.range delta.operations.length).map (s.acknowledged.operations.length + ·) ∧
    delta.journal.map JournalEntry.position =
      (List.range delta.journal.length).map (s.acknowledged.journal.length + ·)

instance (s : Folding V) (delta : Snapshot V) : Decidable (s.Continues delta) :=
  inferInstanceAs (Decidable (_ ∧ _))

def step (spec : ProcessRunSpec) (sequence : Nat) (s : Folding V) (frame : Frame V) :
    Except String (Folding V) :=
  if frame.sequence ≠ sequence ∨ s.terminal = true then .error "frame-order"
  else
    match frame with
    | .started _ scenarioId =>
      if s.started = true ∨ sequence ≠ 0 ∨ scenarioId ≠ spec.scenarioId then .error "frame-order"
      else .ok { s with started := true }
    | .world _ metadata =>
      if s.started = false ∨ s.acknowledged.world.isSome ∨ s.attempt.isSome then
        .error "frame-order"
      else .ok { s with acknowledged := { s.acknowledged with world := some metadata } }
    | .attempt _ attempt =>
      if s.started = false ∨ s.acknowledged.world.isNone ∨ s.attempt.isSome then
        .error "frame-order"
      else .ok { s with attempt := some attempt }
    | .boundary _ delta =>
      if s.attempt.isNone then .error "frame-order"
      else if s.Continues delta then .ok { s with
        acknowledged := {
          operations := s.acknowledged.operations ++ delta.operations
          journal := s.acknowledged.journal ++ delta.journal
          instant := delta.instant, generation := delta.generation
          disposition := delta.disposition, world := s.acknowledged.world }
        attempt := none }
      else .error "prefix-position"
    | .complete _ artifact =>
      if s.attempt.isSome ∨ s.acknowledged.world.isNone ∨ artifact.scenarioId ≠ spec.scenarioId then
        .error "frame-order"
      else .ok { s with artifact := some artifact, terminal := true }
    | .failed _ code => .ok { s with childCode := some code, terminal := true }

def refused (s : Folding V) : Folding V := { s with artifact := none, childCode := none }

end Folding

def foldFrom (spec : ProcessRunSpec) :
    Nat → Folding V → List (Frame V) → Folding V × Option String
  | _, s, [] => (s, none)
  | sequence, s, frame :: rest =>
    match s.step spec sequence frame with
    | .error code => (s.refused, some code)
    | .ok s' => foldFrom spec (sequence + 1) s' rest

def foldProcessFrames (spec : ProcessRunSpec) (frames : List (Frame V)) :
    Folding V × Option String :=
  match foldFrom spec 0 {} frames with
  | (s, some code) => (s, some code)
  | (s, none) => if s.started then (s, none) else (s.refused, some "start-missing")

/-! ## The report -/

inductive ProcessOutcome where
  | completed
  | harnessFailure
  deriving DecidableEq

def ProcessOutcome.of {α : Type} : Option α → ProcessOutcome
  | none => completed
  | some _ => harnessFailure

inductive Termination where
  | exited
  | terminated
  | killed
  deriving DecidableEq

inductive ProcessFailure where
  | wallClock (limit : Nat)
  | child (code : String)
  | protocol (code : String)
  deriving DecidableEq

structure ProcessRunResult (V : Type) where
  scenarioId : String
  outcome : ProcessOutcome
  termination : Termination
  returncode : Int
  acknowledged : AcknowledgedPrefix V
  unfinishedAttempt : Option (ProcessAttempt V)
  artifact : Option (Artifact V)
  failure : Option ProcessFailure

variable [BEq V]

def AcknowledgedPrefix.agrees (codec : Codec V) (a : AcknowledgedPrefix V) (artifact : Artifact V) :
    Bool :=
  a.operations == artifact.operations && codec.digest a.journal == artifact.expected.journalDigest

def ProcessRunResult.coherent (codec : Codec V) (r : ProcessRunResult V) : Except Exc Unit :=
  match r.outcome, r.artifact with
  | .completed, some artifact => do
    require (r.termination = .exited ∧ r.returncode = 0 ∧ r.unfinishedAttempt.isNone ∧
        r.failure = none)
      (valueError "a completed process run requires one clean artifact and no unfinished attempt")
    require (artifact.scenarioId = r.scenarioId)
      (valueError "process result and artifact scenario identities differ")
    require (r.acknowledged.operations == artifact.operations)
      (valueError "process result prefix operations differ from the completed artifact")
    require (codec.digest r.acknowledged.journal = artifact.expected.journalDigest)
      (valueError "process result prefix journal differs from the completed artifact")
  | .completed, none => .error
    (valueError "a completed process run requires one clean artifact and no unfinished attempt")
  | .harnessFailure, artifact =>
    require (artifact.isNone ∧ r.failure.isSome)
      (valueError "a process harness failure cannot contain a deterministic artifact")

/-- The code of the protocol failure, and the artifact the frames disclosed. -/
def disclosed (codec : Codec V) (s : Folding V) (code : Option String) :
    Option String × Option (Artifact V) :=
  match s.artifact with
  | none => (code, none)
  | some artifact =>
    if s.acknowledged.agrees codec artifact then (code, some artifact)
    else (code <|> some "artifact-prefix-mismatch", none)

def verdict (spec : ProcessRunSpec) (returncode : Int) (timedOut : Bool)
    (childCode protocolCode : Option String) (artifact : Option (Artifact V)) :
    Option (Artifact V) × Option ProcessFailure :=
  if timedOut then (none, some (.wallClock spec.wallClockMs))
  else
    match protocolCode with
    | some code => (none, some (.protocol code))
    | none =>
      if returncode ≠ 0 ∨ childCode.isSome then
        (none, some (.child (childCode.getD "child-exited")))
      else
        match artifact with
        | none => (none, some (.protocol "terminal-missing"))
        | some artifact => (some artifact, none)

def processResult (codec : Codec V) (spec : ProcessRunSpec) (returncode : Int)
    (termination : Termination) (timedOut : Bool) (file : Option (List UInt8)) :
    Except Exc (ProcessRunResult V) := do
  let (frames, readCode) := readProcessFrames codec file spec.progressBytes timedOut
  let (folded, foldCode) := foldProcessFrames spec frames
  folded.acknowledged.coherent
  let (protocolCode, artifact) := disclosed codec folded (readCode <|> foldCode)
  let (artifact, failure) := verdict spec returncode timedOut folded.childCode protocolCode artifact
  let result : ProcessRunResult V := {
    scenarioId := spec.scenarioId
    outcome := .of failure
    termination, returncode, acknowledged := folded.acknowledged
    unfinishedAttempt := folded.attempt, artifact, failure }
  result.coherent codec
  return result

end Petrus.Testing.Dst
