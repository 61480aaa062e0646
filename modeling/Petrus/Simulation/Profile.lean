import Petrus.Lib.JsonText
import Petrus.Engine.Hosting
import Petrus.Engine.Coordinator
import Petrus.Impetus.History.Codec
import Petrus.Impetus.NetDefinition
import Petrus.Impetus.Observation

/-!
# Bounded simulations

One run of a fresh engine over a net without implementations. Admission bounds the net and
the initial marking once; the loop checks what the run retains before and after every
advance. What compiles a CEL expression and what evaluates it is given.
-/

namespace Petrus.Simulation

open Lib Motus Impetus Engine

def maxPlaces : Nat := 128
def maxTransitions : Nat := 128
def maxArcs : Nat := 512
def maxInitialTokens : Nat := 512
def maxInitialPayloadBytes : Nat := 1000000
def maxActions : Nat := 256
def maxRetainedTokens : Nat := 4096
def maxRetainedPayloadBytes : Nat := 4194304
def maxHistoryRecords : Nat := 50000
def maxHistoryPayloadBytes : Nat := 4194304
def maxCandidateOffers : Nat := 10000
def maxCelBytes : Nat := 4096
def maxDefinitionBytes : Nat := 1000000

def profileError (text : String) : Exc := ⟨"SimulationProfileError", true, text, [quoted text]⟩

/-- A built net, with the addresses its constructor computed; of the implementations only the
addresses matter. -/
structure BuiltNet where
  net : Net
  declarations : Declarations
  completion : Option FilterDeclaration
  handlers : List NetUri
  guards : List NetUri
  constructed : net.declarations = .ok declarations

variable (repr : Dyadic → String)

/-! ## Admission -/

def checkCel (expression subject : String) : Except Exc Unit :=
  require (expression.utf8ByteSize ≤ maxCelBytes) (profileError
    s!"implementation-free-v1 CEL expression limit is {maxCelBytes} UTF-8 bytes; {subject} has {expression.utf8ByteSize}")

def checkLimit (label : String) (actual limit : Nat) : Except Exc Unit :=
  require (actual ≤ limit)
    (profileError s!"implementation-free-v1 {label} limit is {limit}, found {actual}")

def checkGuard (t : Transition) : GuardDeclaration → Except Exc Unit
  | .cel expression => checkCel expression s!"transition {t.path.str} guard"
  | _ => .error (profileError
      s!"implementation-free-v1 requires transition {t.path.str} guards to be inline Cel")

def checkTimerValue (t : Transition) (kind : String) (value : Int) : Except Exc Unit :=
  require (0 ≤ value) (profileError
    s!"implementation-free-v1 requires transition {t.path.str} {kind} value to be an exact non-boolean non-negative integer, got {value}")

def checkTimer (t : Transition) : Timer → Except Exc Unit
  | .delay duration => checkTimerValue t "Delay" duration
  | .untilAt instant => checkTimerValue t "Until" instant

def checkTransition (t : Transition) : Except Exc Unit := do
  require (t.handler = none) (profileError
    s!"implementation-free-v1 requires transition {t.path.str} handler to be absent")
  t.guards.forM (checkGuard t)
  t.timers.forM (checkTimer t)

def checkFilter (position : Nat) : Option FilterDeclaration → Except Exc Unit
  | none => .ok ()
  | some (.cel expression) => checkCel expression s!"arc {position} filter"
  | some (.symbol _) => .error (profileError
      s!"implementation-free-v1 requires arc {position} filter to be inline Cel")

def checkArc (arc : Arc × Nat) : Except Exc Unit := do
  require (arc.1.weight = 1) (profileError
    s!"implementation-free-v1 requires arc {arc.2} weight to be exact non-boolean integer 1, got {arc.1.weight}")
  checkFilter arc.2 arc.1.filter

def selecting (net : Net) (path : NetPath) : List Arc :=
  net.arcs.filter fun arc => arc.target = path ∧ arc.source ∈ net.placePaths ∧ arc.mode ≠ .inhibit

def checkIncidence (net : Net) (path : NetPath) : Except Exc Unit := do
  require ((selecting net path).length ≤ 1) (profileError
    s!"implementation-free-v1 allows transition {path.str} at most one selecting input arc, found {(selecting net path).length}")
  require (∀ arc ∈ (selecting net path).head?, arc.mode = .consume) (profileError
    s!"implementation-free-v1 requires transition {path.str}'s selecting input arc to consume")
  require ((net.outputs path).length ≤ 1) (profileError
    s!"implementation-free-v1 allows transition {path.str} at most one output arc, found {(net.outputs path).length}")

def checkCompletion : Option FilterDeclaration → Except Exc Unit
  | none => .ok ()
  | some (.cel expression) => checkCel expression "completion"
  | some (.symbol _) => .error (profileError
      "implementation-free-v1 requires completion to be inline Cel")

/-- The canonical definition; what refuses to project it is a profile error. -/
def projectedDefinition (built : BuiltNet) : Except Exc NetDefinition :=
  match projectNetDefinition built.net built.declarations built.completion with
  | .ok definition => .ok definition
  | .error e => .error (profileError
      s!"canonical definition must be strict JSON-faithful: observation data must be strict JSON-faithful: {e.text}")

def checkBuild (built : BuiltNet) : Except Exc Unit := do
  checkLimit "places" built.net.places.length maxPlaces
  checkLimit "transitions" built.net.transitions.length maxTransitions
  checkLimit "arcs" built.net.arcs.length maxArcs
  require (built.handlers = [])
    (profileError "implementation-free-v1 forbids BuiltNet handler implementations")
  require (built.guards = [])
    (profileError "implementation-free-v1 forbids BuiltNet guard implementations")
  built.net.transitions.forM checkTransition
  built.net.arcs.zipIdx.forM checkArc
  built.net.transitionPaths.forM (checkIncidence built.net)
  checkCompletion built.completion
  let definition ← projectedDefinition built
  let size := definition.dump.size repr
  require (size ≤ maxDefinitionBytes) (profileError
    s!"implementation-free-v1 canonical definition limit is {maxDefinitionBytes} bytes, found {size}")

def checkInitialToken (net : Net) (place : NetPath) (token : Token) : Except Exc Unit := do
  require (token.color ≠ some "") (profileError
    s!"implementation-free-v1 token color at {place.str} must be None or a nonempty exact str, got ''")
  let expected := (net.place? place).bind Place.color
  require (expected = none ∨ token.color = expected) (profileError
    s!"implementation-free-v1 token color {colorRepr token.color} does not match place {place.str} color {colorRepr expected}")

def checkQueue (net : Net) (queue : NetPath × List Token) : Except Exc Unit := do
  require (queue.1 ∈ net.placePaths) (profileError
    s!"implementation-free-v1 initial marking names foreign place {queue.1.str}")
  queue.2.forM (checkInitialToken net queue.1)

def Token.dump (token : Token) : Json :=
  .obj [("color", textOrNull token.color), ("data", token.data)]

def PlaceMarking.dump (m : PlaceMarking) : Json :=
  .obj [("place", .str m.place), ("tokens", .arr (m.tokens.map Token.dump))]

def projectMarking (m : Marking) : Json := .arr ((observedMarking m).map PlaceMarking.dump)

def incidence (net : Net) (place : NetPath) : Nat :=
  net.arcs.countP fun arc => arc.source = place ∧ arc.target ∈ net.transitionPaths

def maximumIncidence (net : Net) : Nat := (net.placePaths.map (incidence net)).foldl max 0

def checkMarking (net : Net) (m : Marking) : Except Exc Unit := do
  let count := tokenCount m
  require (count ≤ maxInitialTokens) (profileError
    s!"implementation-free-v1 initial token limit is {maxInitialTokens}, found {count}")
  m.queues.entries.forM (checkQueue net)
  let payload := (projectMarking m).size repr
  require (payload ≤ maxInitialPayloadBytes) (profileError
    s!"implementation-free-v1 initial token payload limit is {maxInitialPayloadBytes} bytes, found {payload}")
  let bound := count * maximumIncidence net
  require (bound ≤ maxCandidateOffers) (profileError
    s!"implementation-free-v1 reachable input-scan limit is {maxCandidateOffers}, found bound {bound} from {count} initial tokens and maximum place incidence {maximumIncidence net}")

def admit_ (built : BuiltNet) (m : Marking) (actions : Int) : Except Exc Unit := do
  require (1 ≤ actions ∧ actions ≤ maxActions) (profileError
    s!"max_actions must be an integer from 1 through {maxActions}, got {actions}")
  checkBuild repr built
  checkMarking repr built.net m

/-! ## Checks of a run -/

def inputScanBound (net : Net) (m : Marking) : Nat :=
  ((net.arcs.filter fun arc => arc.source ∈ net.placePaths ∧ arc.target ∈ net.transitionPaths).map
    fun arc => (m.place arc.source).length).sum

def checkInputScans (net : Net) (m : Marking) : Except Exc Unit :=
  require (inputScanBound net m ≤ maxCandidateOffers) (profileError
    s!"implementation-free-v1 input-scan limit is {maxCandidateOffers} before advance, found {inputScanBound net m}")

def checkRetained (m : Marking) : Except Exc Unit :=
  require (tokenCount m ≤ maxRetainedTokens) (profileError
    s!"implementation-free-v1 retained token limit is {maxRetainedTokens}, found {tokenCount m}")

def addWithin (limit : Nat) (text : String) (total size : Nat) : Except Exc Nat := do
  require (total + size ≤ limit) (profileError text)
  return total + size

def retainedPayload (m : Marking) : Except Exc Nat :=
  m.queues.entries.foldlM (fun total queue =>
    (queue.2.map fun token => (Token.dump token).size repr).foldlM
      (addWithin maxRetainedPayloadBytes
      s!"implementation-free-v1 retained token payload limit is {maxRetainedPayloadBytes} bytes, found more than that limit")
      (total + queue.1.str.utf8ByteSize)) 0

def historyPayload (records : List Record) : Except Exc Nat :=
  (records.map fun record => (encodeRecord record.object).size repr).foldlM
    (addWithin maxHistoryPayloadBytes
      s!"implementation-free-v1 History payload limit is {maxHistoryPayloadBytes} bytes, found more than that limit") 0

def checkHistory (i : Instance) : Except Exc Unit := do
  let _ ← retainedPayload repr i.marking
  require (i.records.length ≤ maxHistoryRecords) (profileError
    s!"implementation-free-v1 History record limit is {maxHistoryRecords}, found {i.records.length}")
  let _ ← historyPayload repr i.records
  require (i.inFlight.values = []) (profileError "implementation-free-v1 forbids in-flight work")

/-! ## The run -/

/-- What CEL is compiled to and what the compiled expressions answer. -/
structure Cel where
  compileGuard : String → NetPath → List NetPath → Except Exc (Binding → Except Exc Bool)
  compileFilter : String → Except Exc (Token → Except Exc Bool)
  compileCompletion : String → List NetPath → Except Exc (Marking → Except Exc Bool)

def guardScope (net : Net) (t : Transition) : List NetPath :=
  (net.inputs t.path).filterMap fun arc => if arc.mode = .inhibit then none else some arc.source

def missing (kind : String) (names : List String) : Except Exc Unit :=
  let listed := (names.insertionSort (· ≤ ·)).map quoted
  require (names = [])
    (valueError s!"{kind} declaration(s) with no implementation: {listed}")

def guardName : GuardDeclaration × NetUri → Option String
  | (.symbol name, _) => some name
  | (.cel _, _) => none
  | (.anonymous, uri) => some uri.value

def compileGuards (cel : Cel) (net : Net) (t : Transition) :
    Except Exc (NetPath × List (Binding → Except Exc Bool)) := do
  let compiled ← t.guards.filterMapM fun
    | .cel expression => some <$> cel.compileGuard expression t.path (guardScope net t)
    | _ => .ok none
  return (t.path, compiled)

def compileArc (cel : Cel) (arc : Arc) : Except Exc (Option (Token → Except Exc Bool)) :=
  match arc.filter with
  | some (.cel expression) => some <$> cel.compileFilter expression
  | _ => .ok none

def filterName : Option FilterDeclaration × Option NetUri → Option String
  | (some (.symbol name), some uri) => some s!"{quoted name} ({uri.value})"
  | _ => none

def compileCompletion (cel : Cel) (built : BuiltNet) :
    Except Exc (Option (Marking → Except Exc Bool)) :=
  match built.completion with
  | none => .ok none
  | some (.cel expression) => some <$> cel.compileCompletion expression built.net.placePaths
  | some (.symbol name) => .error
    (valueError s!"completion symbol with no implementation: {quoted name}")

/-- A definition together with its compiled completion condition. -/
structure Bound where
  definition : Definition
  completion : Option (Marking → Except Exc Bool)

/-- Resolve the declarations of the net with nothing but CEL to supply them. -/
def bindSymbols (cel : Cel) (built : BuiltNet) : Except Exc Bound := do
  let net := built.net
  let d := built.declarations
  missing "handler" (d.handlers.entries.map fun e => match e.2 with
    | .symbol name => name
    | .anonymous => e.1.value)
  let guards ← net.transitions.mapM (compileGuards cel net)
  missing "guard" (d.guards.entries.filterMap fun e => guardName (e.2, e.1))
  let filters ← net.arcs.mapM (compileArc cel)
  missing "filter" ((net.arcs.map Arc.filter).zip d.filterUris |>.filterMap filterName)
  let completion ← compileCompletion cel built
  return {
    definition := {
      net
      handlers := fun _ => passthroughHandler
      guards := fun t position =>
        ((guards.find? fun g => g.1 = t).bind fun g => g.2[position]?).getD fun _ =>
          .error (keyError t.str)
      filters := fun position => ((filters[position]?).join).getD fun _ =>
        .error (keyError s!"{position}")
      scheduler := selectConservative
      sourcePlain := fun _ _ _ _ => rfl }
    completion }

/-- The two checks of the loop that refuse for the number of tokens. -/
structure TokenChecks where
  scans : Marking → Except Exc Unit
  retained : Marking → Except Exc Unit

def tokenChecks (net : Net) : TokenChecks := ⟨checkInputScans net, checkRetained⟩

inductive Reason where
  | rest
  | actionLimit
  deriving DecidableEq

/-- A run between two advances: the engine, its clock, and the actions applied. -/
structure Run where
  session : Session
  clock : Instant := 0
  actions : Nat := 0

/-- The simulated clock jumps to the instant it observes; nothing is dispatched or sensed. -/
def host (clock : Instant) : Host where
  store := fun _ _ => none
  now := fun _ => clock
  observe := fun instant => some (max clock instant)
  collect := .ok []
  dispatch := fun _ _ => some (profileError "implementation-free-v1 forbids Dispatch use")
  cancel := fun _ => .error (typeError "the dispatch does not cancel")
  sensor := none
  commit := fun _ => .acknowledged

def observed (clock : Instant) : Option Action → Instant
  | some (.advanceTime instant) => max clock instant
  | _ => clock

def composition (D : Definition) : Composition Nat where
  definition := D
  policy := chooseConservative
  selection := .pipeline [] [] .first
  joined := false
  cancellable := false

def checkResources (checks : TokenChecks) (i : Instance) : Except Exc Unit := do
  checks.retained i.marking
  checkHistory repr i

def advances (D : Definition) (checks : TokenChecks) : Nat → Run → Except Exc (Run × Reason)
  | 0, run => .ok (run, .actionLimit)
  | limit + 1, run => do
    checks.scans run.session.instance_.marking
    match drive (composition D) (host run.clock) run.session with
    | (.error e, _) => .error e
    | (.ok outcome, session) =>
      require (outcome.waiting = false)
        (profileError "implementation-free-v1 forbids waiting for external work")
      let clock := observed run.clock session.previous
      if outcome.ready = false then return ({ run with session, clock }, .rest)
      else
        checkResources repr checks session.instance_
        advances D checks limit { session, clock, actions := run.actions + 1 }

def execute (D : Definition) (checks : TokenChecks) (m : Marking) (limit : Nat) :
    Except Exc (Run × Reason) := do
  let i ← Instance.create D m "simulation" 0 fun _ _ => none
  let session ← Session.open (composition D) i
  checkResources repr checks i
  advances repr D checks limit { session }

/-- A session of the simulated engine: newly opened, or after one more advance. -/
inductive Visits (D : Definition) (m : Marking) : Session → Prop
  | opened {i : Instance} {session : Session}
      (created : Instance.create D m "simulation" 0 (fun _ _ => none) = .ok i)
      (opens : Session.open (composition D) i = .ok session) : Visits D m session
  | advanced {session : Session} (h : Visits D m session) (clock : Instant) :
      Visits D m (drive (composition D) (host clock) session).2

end Petrus.Simulation
