import Petrus.Testing.Dst.Vocabulary

/-!
# The world

The interpreter over a profile: its queue, its counters, what it records, and every
call an author may make. A call first announces its attempt; the failures that end the
world are recorded with the attempt, anything else raised is passed on.
-/

namespace Petrus.Testing.Dst

open Lib

variable {V σ G α : Type}

def dstError (text : String) : Exc := ⟨"DstError", false, text, [quoted text]⟩

def staleGeneration (text : String) : Exc := ⟨"StaleGeneration", false, text, [quoted text]⟩

def pendingWork (text : String) : Exc := ⟨"PendingWork", false, text, [quoted text]⟩

def listText (items : List String) : String := "[" ++ ", ".intercalate (items.map quoted) ++ "]"

/-- What a call raises: a budget ran out, a checker refused a boundary, or anything else. -/
inductive Raise where
  | budget (bound : String) (limit : Nat)
  | invariant (failed : List String)
  | other (e : Exc)

/-! ## What a profile operation sees -/

structure ActiveFault (V : Type) where
  fault : Fault V
  seen : Nat := 0

/-- The profile's own state, the stable ids given out and the faults still armed. -/
structure Scene (V σ : Type) where
  own : σ
  ids : Dict String Nat := Dict.empty
  activeFaults : List (ActiveFault V) := []

def padded (n : Nat) : String :=
  let digits := toString n
  String.ofList (List.replicate (8 - digits.length) '0') ++ digits

namespace Scene

def stableId (ns : String) (s : Scene V σ) : String × Scene V σ :=
  let value := (s.ids.get? ns).getD 0 + 1
  (ns ++ "-" ++ padded value, { s with ids := s.ids.set ns value })

/-- Count one more pass of the target; a fault is due at its occurrence and then disarmed. -/
def passTarget (target : String) :
    List (ActiveFault V) → List (Fault V) × List (ActiveFault V)
  | [] => ([], [])
  | active :: rest =>
    let (matched, retained) := passTarget target rest
    if active.fault.target = target then
      if active.seen + 1 = active.fault.occurrence then (active.fault :: matched, retained)
      else (matched, { active with seen := active.seen + 1 } :: retained)
    else (matched, active :: retained)

def faults (target : String) (s : Scene V σ) : List (Fault V) × Scene V σ :=
  let (matched, retained) := passTarget target s.activeFaults
  (matched, { s with activeFaults := retained })

def answer (instant : Nat) (s : Scene V σ) :
    (q : ContextRequest σ) → q.Answer V × Scene V σ
  | .now => (instant, s)
  | .stableId ns =>
    if isName ns then
      let (id, s') := s.stableId ns
      (.ok id, s')
    else (.error (valueError "stable id namespace must be a normalized non-empty name"), s)
  | .faults target =>
    if isName target then
      let (due, s') := s.faults target
      (.ok due, s')
    else (.error (valueError "fault target must be a normalized non-empty name"), s)
  | .own => (s.own, s)
  | .keep state => ((), { s with own := state })

def run (instant : Nat) : ProfileProgram V σ α → Scene V σ → Except Exc α × Scene V σ
  | .done result, s => (result, s)
  | .ask q next, s =>
    let (a, s') := s.answer instant q
    run instant (next a) s'

end Scene

/-! ## The queue -/

structure Queued (V : Type) where
  instant : Nat
  order : Nat
  generation : Nat
  source : CommandSource
  command : Command V

def push (work : Queued V) : List (Queued V) → List (Queued V)
  | [] => [work]
  | head :: rest =>
    if work.instant < head.instant ∨ work.instant = head.instant ∧ work.order < head.order then
      work :: head :: rest
    else head :: push work rest

/-! ## The state and its parts -/

/-- Everything a world is set up with; `fresh` is the state of a new profile object. -/
structure Config (V σ G : Type) where
  profile : ScenarioProfile V σ G
  budget : Budget
  checkers : List (Checker V)
  codec : Codec V
  fresh : σ

structure World (V σ G : Type) where
  instant : Nat := 0
  /-- The id of the live generation and the profile's handle on it. -/
  generation : Option (Nat × G) := none
  lastGenerationId : Nat := 0
  queue : List (Queued V) := []
  queueOrder : Nat := 0
  operations : List (Operation V) := []
  journal : List (JournalEntry V) := []
  scene : Scene V σ
  actions : Nat := 0
  timerAdvances : Nat := 0
  reloads : Nat := 0
  predicatePolls : Nat := 0
  fair : Bool := false
  disposition : Option Disposition := none
  choices : Option ChoiceProvenance := none
  progress : Option (FileProgress V) := none

namespace World

def generationId (w : World V σ G) : Option Nat := w.generation.map Prod.fst

def snapshot (w : World V σ G) : Snapshot V where
  operations := w.operations
  journal := w.journal
  instant := w.instant
  generation := w.generationId
  disposition := w.disposition

end World

abbrev Step (V σ G α : Type) := Act (World V σ G) Raise α

def refuse (e : Exc) : Step V σ G α := Act.throw (.other e)

def invoke (program : ProfileProgram V σ α) : Step V σ G α := fun w =>
  let (result, scene) := Scene.run w.instant program w.scene
  (result.mapError Raise.other, { w with scene })

def notify (m : Act (FileProgress V) Exc Unit) : Step V σ G Unit := fun w =>
  match w.progress with
  | none => (.ok (), w)
  | some p =>
    let (result, p') := m p
    (result.mapError Raise.other, { w with progress := some p' })

def notifyAttempt (C : Config V σ G) (attempt : ProcessAttempt V) : Step V σ G Unit :=
  notify (FileProgress.attempt C.codec attempt)

def notifyBoundary (C : Config V σ G) : Step V σ G Unit := do
  let w ← Act.get
  notify (FileProgress.boundary C.codec w.snapshot)

def recordFor (generation : Option Nat) (kind : JournalKind) (name : String)
    (value : JournalValue V) : Step V σ G Unit :=
  Act.modify fun w => { w with
    journal := w.journal ++ [{
      position := w.journal.length, instant := w.instant, generation, kind, name, value }] }

def record (kind : JournalKind) (name : String) (value : JournalValue V) : Step V σ G Unit := do
  let w ← Act.get
  recordFor w.generationId kind name value

def exhaust (bound : String) (limit : Nat) : Step V σ G α := do
  Act.modify fun w => { w with disposition := some .budgetExhausted }
  record .budget bound (.limit limit)
  Act.throw (.budget bound limit)

def reserveAction (C : Config V σ G) : Step V σ G Unit := do
  let w ← Act.get
  if C.budget.actions ≤ w.actions then exhaust "actions" C.budget.actions
  else Act.modify fun w => { w with actions := w.actions + 1 }

def generationText : Option Nat → String
  | none => "None"
  | some id => toString id

def requireGeneration (generation : Nat) : Step V σ G Unit := do
  let w ← Act.get
  if w.generationId = some generation then return ()
  else refuse (staleGeneration
    s!"DST generation {generation} is stale; live generation is {generationText w.generationId}")

def liveGeneration : Step V σ G (Nat × G) := do
  let w ← Act.get
  match w.generation with
  | some live => return live
  | none => refuse (staleGeneration "DST World has no live generation")

def requireUnfinished : Step V σ G Unit := do
  let w ← Act.get
  match w.disposition with
  | none => return ()
  | some disposition => refuse (dstError s!"DST World already ended as {disposition.value}")

def append (operation : Nat → Operation V) : Step V σ G (Operation V) := do
  let w ← Act.get
  let operation := operation w.operations.length
  Act.modify fun w => { w with operations := w.operations ++ [operation] }
  return operation

/-! ## Scheduling -/

def validateCommand (C : Config V σ G) (command : Command V) : Except Exc (Command V) := do
  require (command.profile = C.profile.identity)
    (valueError "DST command profile does not match this World")
  let validated ← C.profile.validate command
  require (validated.profile = C.profile.identity)
    (typeError "ScenarioProfile.validate must return a Command for its exact identity")
  return validated

def enqueueValidated (instant : Nat) (command : Command V) (source : CommandSource) :
    Step V σ G Nat := do
  let (generation, _) ← liveGeneration
  let w ← Act.get
  Act.modify fun w => { w with
    queueOrder := w.queueOrder + 1
    queue := push { instant, order := w.queueOrder, generation, source, command } w.queue }
  return w.queueOrder

def enqueue (C : Config V σ G) (scheduled : ScheduledCommand V) (source : CommandSource) :
    Step V σ G Nat := do
  let w ← Act.get
  if w.generation.isNone then
    refuse (staleGeneration "cannot schedule work without a live generation")
  else if scheduled.instant < w.instant then
    refuse (valueError "DST profile cannot schedule a command in the past")
  else if C.budget.logicalInstant < scheduled.instant then
    exhaust "logical_instant" C.budget.logicalInstant
  else do
    let command ← Act.mapError Raise.other (Act.lift (validateCommand C scheduled.command))
    if C.budget.queuedCommands ≤ w.queue.length then
      exhaust "queued_commands" C.budget.queuedCommands
    else enqueueValidated scheduled.instant command source

def validateScheduled (C : Config V σ G) :
    List (ScheduledCommand V) → Step V σ G (List (Nat × Command V))
  | [] => return []
  | scheduled :: rest => do
    let w ← Act.get
    if scheduled.instant < w.instant then
      refuse (valueError "DST profile cannot schedule a command in the past")
    else if C.budget.logicalInstant < scheduled.instant then
      exhaust "logical_instant" C.budget.logicalInstant
    else do
      let command ← Act.mapError Raise.other (Act.lift (validateCommand C scheduled.command))
      let others ← validateScheduled C rest
      return (scheduled.instant, command) :: others

def enqueueEach (source : CommandSource) : List (Nat × Command V) → Step V σ G Unit
  | [] => return ()
  | (instant, command) :: rest => do
    let _ ← enqueueValidated instant command source
    enqueueEach source rest

def enqueueAll (C : Config V σ G) (scheduled : List (ScheduledCommand V)) (source : CommandSource) :
    Step V σ G Unit := do
  let w ← Act.get
  if C.budget.queuedCommands < w.queue.length + scheduled.length then
    exhaust "queued_commands" C.budget.queuedCommands
  else do
    let validated ← validateScheduled C scheduled
    enqueueEach source validated

/-! ## Checkers and resources -/

/-- A checker's verdict on an observation. -/
structure Captured (V : Type) where
  checker : ComponentIdentity
  observation : Observation V
  result : CheckResult V
  trigger : String

def captureChecks (C : Config V σ G) (trigger : String) (sequence : Nat) (live : Nat × G) :
    List (Checker V) → Step V σ G (List (Captured V))
  | [] => return []
  | checker :: rest => do
    let value ← invoke (C.profile.observe live.2 checker.request)
    let w ← Act.get
    let observation : Observation V := {
      name := checker.request.name, value, instant := w.instant, generation := live.1, sequence }
    let result ← Act.mapError Raise.other (Act.lift (checker.check observation))
    let others ← captureChecks C trigger sequence live rest
    return ⟨checker.identity, observation, result, trigger⟩ :: others

def recordEach : List (Captured V) → Step V σ G Unit
  | [] => return ()
  | captured :: rest => do
    recordFor (some captured.observation.generation) .check captured.checker.name
      (.check captured.checker captured.trigger captured.observation captured.result)
    recordEach rest

def recordChecks (captured : List (Captured V)) : Step V σ G Unit := do
  recordEach captured
  let failed := (captured.filter fun c => c.result.passed = false).map fun c => c.checker.name
  if failed = [] then return ()
  else do
    Act.modify fun w => { w with disposition := some .invariantFailure }
    Act.throw (.invariant failed)

def evaluateCheckers (C : Config V σ G) (trigger : String) (sequence : Nat) (live : Nat × G) :
    Step V σ G Unit := do
  let captured ← captureChecks C trigger sequence live C.checkers
  recordChecks captured

def unmatched (declared sampled : List String) : List String × List String :=
  ((declared.filter fun name => name ∉ sampled).insertionSort (· ≤ ·),
   (sampled.filter fun name => name ∉ declared).insertionSort (· ≤ ·))

def exceeded? (limits usage : List (String × Nat)) : Option (String × Nat) :=
  ((limits.filter fun limit => usage.any fun sample => sample.1 = limit.1 && limit.2 < sample.2)
    |>.insertionSort fun a b => a.1 ≤ b.1).head?

def recordUsage (limits usage : List (String × Nat)) (live : Option (Nat × G)) (trigger : String) :
    Step V σ G Unit := do
  let w ← Act.get
  recordFor (if live.isNone then none else w.generationId) .resource trigger
    (.usage (usage.insertionSort fun a b => a.1 ≤ b.1))
  match exceeded? limits usage with
  | none => return ()
  | some (name, limit) => exhaust s!"profile_resources:{name}" limit

def sampleResources (C : Config V σ G) (live : Option (Nat × G)) (trigger : String) :
    Step V σ G Unit :=
  match C.budget.profileResources with
  | none => return ()
  | some limits =>
    match C.profile.resourceUsage with
    | none => refuse (typeError "a version-4 DST profile must define resource_usage")
    | some sample => do
      let usage ← invoke (sample (live.map Prod.snd))
      let names := unmatched (limits.map Prod.fst) (usage.map Prod.fst)
      if names = ([], []) then recordUsage limits usage live trigger
      else refuse (valueError s!"profile resource usage keys must exactly match its budget; missing={listText names.1}, additional={listText names.2}")

/-! ## Generations -/

def installGeneration (C : Config V σ G) (started : GenerationStart V G) (loaded : Bool) :
    Step V σ G Unit := do
  Act.modify fun w => { w with
    lastGenerationId := w.lastGenerationId + 1
    generation := some (w.lastGenerationId + 1, started.generation) }
  enqueueAll C started.scheduled .profile
  if loaded then return ()
  else do
    record .created C.profile.identity.name (.scheduled started.scheduled)
    let live ← liveGeneration
    sampleResources C (some live) "create"
    evaluateCheckers C "create" 0 live

def World.blank (C : Config V σ G) (choices : Option ChoiceProvenance)
    (progress : Option (FileProgress V)) : World V σ G where
  scene := { own := C.fresh }
  choices := choices
  progress := progress

/-- The constructor's work on a blank world; a generation it made is closed when it raises. -/
def construct (C : Config V σ G) : Step V σ G Unit :=
  Act.catching (do
    notifyAttempt C .construct
    sampleResources C none "before_create"
    let started ← invoke C.profile.create
    installGeneration C started false
    notifyBoundary C) fun raised => do
      let w ← Act.get
      match w.generation with
      | none => Act.throw raised
      | some (_, generation) =>
        Act.modify fun w => { w with generation := none, queue := [] }
        invoke (C.profile.close generation)
        Act.throw raised

def World.create (C : Config V σ G) (choices : Option ChoiceProvenance)
    (progress : Option (FileProgress V)) : Except Raise Unit × World V σ G :=
  if (C.checkers.map Checker.identity).Nodup then construct C (World.blank C choices progress)
  else (.error (.other (valueError "DST World checker identities must be unique")),
    World.blank C choices progress)

/-! ## Calls -/

def runQueued (C : Config V σ G) (live : Nat × G) (queued : Queued V) (rest : List (Queued V)) :
    Step V σ G (Operation V × ApplyResult V) := do
  reserveAction C
  Act.modify fun w => { w with
    queue := rest
    timerAdvances := if w.instant < queued.instant then w.timerAdvances + 1 else w.timerAdvances
    instant := max w.instant queued.instant }
  let result ← invoke (C.profile.apply live.2 queued.command)
  let w ← Act.get
  let operation ← append fun position =>
    .execute position queued.source queued.order w.instant live.1 queued.command result
  record .command queued.command.name (.operation operation)
  enqueueAll C result.scheduled .profile
  sampleResources C (some live) queued.command.name
  evaluateCheckers C queued.command.name operation.position live
  return (operation, result)

def step_ (C : Config V σ G) : Step V σ G (Operation V × Nat × ApplyResult V) := do
  requireUnfinished
  let w ← Act.get
  match w.generation, w.queue with
  | none, _ => refuse (staleGeneration "DST World has no live generation")
  | some _, [] => refuse (dstError "DST World is waiting with no scheduled command")
  | some live, queued :: rest =>
    if queued.generation ≠ live.1 then
      refuse (staleGeneration s!"queued generation {queued.generation} is no longer live")
    else if w.instant < queued.instant ∧ C.budget.timerAdvances ≤ w.timerAdvances then
      exhaust "timer_advances" C.budget.timerAdvances
    else if w.instant < queued.instant ∧ C.budget.logicalInstant < queued.instant then
      exhaust "logical_instant" C.budget.logicalInstant
    else do
      let ran ← runQueued C live queued rest
      return (ran.1, queued.order, ran.2)

def World.eligible (w : World V σ G) : Bool :=
  match w.queue with
  | [] => false
  | queued :: _ => queued.instant ≤ w.instant

def submit_ (C : Config V σ G) (command : Command V) (generation : Nat) :
    Step V σ G (ApplyResult V) := do
  requireGeneration generation
  let w ← Act.get
  if w.fair then refuse (dstError "authored commands cannot enter an active DST fair phase")
  else if w.eligible then
    refuse (pendingWork "run eligible profile work before submitting another authored command")
  else do
    let order ← enqueue C { instant := w.instant, command } .authored
    let executed ← step_ C
    if executed.2.1 ≠ order then refuse (assertionError
      "DST authored command was not the scheduler's next total-order choice")
    else return executed.2.2

def activateFault_ (C : Config V σ G) (fault : Fault V) (generation : Nat) : Step V σ G Unit := do
  requireGeneration generation
  requireUnfinished
  let w ← Act.get
  if w.fair then refuse (dstError "faults cannot enter an active DST fair phase")
  else if fault.profile ≠ C.profile.identity then
    refuse (valueError "DST fault profile does not match this World")
  else if w.eligible then
    refuse (pendingWork "a fault cannot overtake already eligible profile work")
  else do
    let validated ← Act.mapError Raise.other (Act.lift (C.profile.validateFault fault))
    if validated.profile ≠ C.profile.identity then refuse (typeError
      "ScenarioProfile.validate_fault must return a Fault for its exact identity")
    else do
      reserveAction C
      let operation ← append fun position => .fault position w.instant generation validated
      Act.modify fun w => { w with scene := { w.scene with
        activeFaults := w.scene.activeFaults ++ [{ fault := validated }] } }
      record .fault validated.name (.operation operation)
      let live ← liveGeneration
      sampleResources C (some live) s!"fault:{validated.name}"
      evaluateCheckers C s!"fault:{validated.name}" operation.position (generation, live.2)

def reservePoll (C : Config V σ G) (poll : Bool) : Step V σ G Unit := do
  let w ← Act.get
  if poll then
    if C.budget.predicatePolls ≤ w.predicatePolls then
      exhaust "predicate_polls" C.budget.predicatePolls
    else Act.modify fun w => { w with predicatePolls := w.predicatePolls + 1 }
  else return ()

def observe_ (C : Config V σ G) (request : ObservationRequest V) (generation : Nat) (poll : Bool) :
    Step V σ G (Observation V) := do
  requireGeneration generation
  requireUnfinished
  reserveAction C
  reservePoll C poll
  let w ← Act.get
  let live ← liveGeneration
  let value ← invoke (C.profile.observe live.2 request)
  let observation : Observation V := {
    name := request.name, value, instant := w.instant, generation := live.1
    sequence := w.operations.length }
  let operation ← append fun position => .observe position poll observation request
  record .observation request.name (.operation operation)
  sampleResources C (some live) s!"observe:{request.name}"
  return observation

def crash_ (C : Config V σ G) (cut : String) (generation : Nat) : Step V σ G Unit := do
  requireGeneration generation
  requireUnfinished
  let w ← Act.get
  if w.fair then refuse (dstError "process crashes cannot enter an active DST fair phase")
  else do
    reserveAction C
    let dropped ← liveGeneration
    let captured ← captureChecks C s!"crash:{cut}" w.operations.length dropped C.checkers
    let w ← Act.get
    Act.modify fun w => { w with generation := none, queue := [] }
    invoke (C.profile.drop dropped.2)
    let operation ← append fun position =>
      .crash position w.instant dropped.1 cut w.queue.length
    recordFor none .crash cut (.operation operation)
    sampleResources C none s!"crash:{cut}"
    recordChecks captured

def restart_ (C : Config V σ G) : Step V σ G Nat := do
  requireUnfinished
  let w ← Act.get
  if w.generation.isSome then
    refuse (dstError "DST restart requires an abruptly dropped generation")
  else if C.budget.reloads ≤ w.reloads then exhaust "reloads" C.budget.reloads
  else do
    reserveAction C
    Act.modify fun w => { w with reloads := w.reloads + 1 }
    let started ← invoke C.profile.load
    installGeneration C started true
    let live ← liveGeneration
    let operation ← append fun position => .restart position w.instant live.1
    record .loaded C.profile.identity.name (.operation operation)
    sampleResources C (some live) "load"
    evaluateCheckers C "load" operation.position live
    return live.1

def beginFair_ (C : Config V σ G) (generation : Nat) : Step V σ G Unit := do
  requireGeneration generation
  requireUnfinished
  let w ← Act.get
  if w.fair then refuse (dstError "DST fair phase has already begun")
  else if w.scene.activeFaults.isEmpty = false then
    refuse (dstError "DST fair phase requires every activated fault to be consumed")
  else do
    reserveAction C
    Act.modify fun w => { w with fair := true }
    let operation ← append fun position => .fair position w.instant generation
    record .fair "begin" (.operation operation)
    let live ← liveGeneration
    sampleResources C (some live) "begin_fair"
    evaluateCheckers C "begin_fair" operation.position (generation, live.2)

def finish_ (C : Config V σ G) (disposition : Disposition) (generation : Nat) :
    Step V σ G Unit := do
  requireGeneration generation
  requireUnfinished
  let w ← Act.get
  if w.fair ∧ disposition = .externalWait then
    refuse (dstError "an active DST fair phase cannot end as an external wait")
  else if w.queue.isEmpty = false then
    refuse (pendingWork s!"cannot finish {disposition.value} while scheduled work remains")
  else do
    reserveAction C
    let operation ← append fun position => .finish position w.instant generation disposition
    Act.modify fun w => { w with disposition := some disposition }
    record .finish disposition.value (.operation operation)
    let live ← liveGeneration
    sampleResources C (some live) s!"finish:{disposition.value}"

/-! ## Attempts -/

def Raise.failure? (w : World V σ G) : Raise → Option FailureDetail
  | budget bound limit =>
    if w.disposition = some .budgetExhausted then
      some (.budgetExhausted bound limit s!"DST budget {quoted bound} exhausted at limit {limit}")
    else none
  | invariant failed =>
    if w.disposition = some .invariantFailure then
      some (.invariantFailure s!"DST checker failure after atomic boundary: {listText failed}")
    else none
  | other _ => none

def recordFailure (C : Config V σ G) (attempt : Attempt V) (before : Nat) (raised : Raise) :
    Step V σ G Unit := do
  let w ← Act.get
  match raised.failure? w with
  | none => return ()
  | some failure =>
    let accepted := w.operations.length - before
    if 1 < accepted then refuse (assertionError
      "one DST interpreter attempt accepted more than one operation")
    else do
      let operation ← append fun position =>
        .failure position w.instant w.generationId accepted attempt failure
      record .failure failure.kind.value (.operation operation)
      notifyBoundary C

def attempting (C : Config V σ G) (attempt : Attempt V) (body : Step V σ G α) : Step V σ G α := do
  notifyAttempt C (.call attempt)
  let before ← Act.get
  let result ← Act.catching body fun raised => do
    recordFailure C attempt before.operations.length raised
    Act.throw raised
  notifyBoundary C
  return result

def Attempt.check : Attempt V → Except Exc Unit
  | .submit generation _ => positive generation
  | .step => .ok ()
  | .activateFault generation _ => positive generation
  | .observe generation _ _ => positive generation
  | .crash generation cut => do
    positive generation
    require (isName cut) (valueError "crash cut must be a normalized non-empty name")
  | .restart => .ok ()
  | .beginFair generation => positive generation
  | .finish generation disposition => do
    require disposition.isAuthored (valueError
      s!"DST disposition {quoted disposition.value} is reserved for interpreter failures")
    positive generation
where
  positive (generation : Nat) : Except Exc Unit :=
    require (1 ≤ generation) (valueError "Input should be greater than or equal to 1")

def submit (C : Config V σ G) (command : Command V) (generation : Nat) :
    Step V σ G (ApplyResult V) :=
  attempting C (.submit generation command) (submit_ C command generation)

def step (C : Config V σ G) : Step V σ G (Operation V) :=
  attempting C .step (Prod.fst <$> step_ C)

def activateFault (C : Config V σ G) (fault : Fault V) (generation : Nat) : Step V σ G Unit :=
  attempting C (.activateFault generation fault) (activateFault_ C fault generation)

def observe (C : Config V σ G) (request : ObservationRequest V) (generation : Nat) (poll : Bool) :
    Step V σ G (Observation V) :=
  attempting C (.observe generation request poll) (observe_ C request generation poll)

def crash (C : Config V σ G) (cut : String) (generation : Nat) : Step V σ G Unit :=
  attempting C (.crash generation cut) (crash_ C cut generation)

def restart (C : Config V σ G) : Step V σ G Nat := attempting C .restart (restart_ C)

def beginFair (C : Config V σ G) (generation : Nat) : Step V σ G Unit :=
  attempting C (.beginFair generation) (beginFair_ C generation)

def finish (C : Config V σ G) (disposition : Disposition) (generation : Nat) : Step V σ G Unit :=
  attempting C (.finish generation disposition) (finish_ C disposition generation)

def Attempt.perform (C : Config V σ G) (attempt : Attempt V) : Step V σ G Unit := do
  Act.mapError Raise.other (Act.lift attempt.check)
  match attempt with
  | .submit generation command => discard (Dst.submit C command generation)
  | .step => discard (Dst.step C)
  | .activateFault generation fault => Dst.activateFault C fault generation
  | .observe generation request poll => discard (Dst.observe C request generation poll)
  | .crash generation cut => Dst.crash C cut generation
  | .restart => discard (Dst.restart C)
  | .beginFair generation => Dst.beginFair C generation
  | .finish generation disposition => Dst.finish C disposition generation

def close (C : Config V σ G) : Step V σ G Unit := do
  let w ← Act.get
  match w.generation with
  | none => return ()
  | some (id, generation) =>
    notifyAttempt C (.close id)
    Act.modify fun w => { w with generation := none, queue := [] }
    invoke (C.profile.close generation)
    notifyBoundary C

end Petrus.Testing.Dst
