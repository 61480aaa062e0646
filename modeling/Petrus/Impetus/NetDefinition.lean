import Petrus.Lib.Json
import Petrus.Impetus.Uri

/-!
# Portable net definitions

A net as other systems read it: nodes in the order of their paths, arcs in their own order,
behaviors with their addresses, every integer within what JavaScript keeps exact.
-/

namespace Petrus.Impetus

open Lib

def jsonSafeIntegerMin : Int := -(2 ^ 53 - 1)

def jsonSafeIntegerMax : Int := 2 ^ 53 - 1

def netDefinitionError (text : String) : Exc :=
  ⟨"NetDefinitionError", true, text, [quoted text]⟩

def validationError (text : String) : Exc := ⟨"ValidationError", true, text, [quoted text]⟩

structure TransitionDefinition where
  path : NetPath
  handler : Option (HandlerDeclaration × NetUri)
  guards : List (GuardDeclaration × NetUri)
  timers : List Timer
  deriving DecidableEq

/-- The body of one canonical definition; the position of an arc is its index. -/
structure NetDefinition where
  name : Option String
  places : List Place
  transitions : List TransitionDefinition
  arcs : List Arc
  completion : Option FilterDeclaration
  deriving DecidableEq

/-! ## Projecting a net -/

def validColor (owner : String) (color : Option Color) : Except Exc Unit :=
  require (color ≠ some "") (validationError s!"{owner} color must be non-empty or null")

def validSymbol (name : String) : Except Exc Unit :=
  require (name ≠ "" ∧ startsWithDollar name = false)
    (validationError "symbol name must be non-empty and cannot start with '$'")

def validExpression (expression : String) : Except Exc Unit :=
  require (expression ≠ "") (validationError "CEL expression must be non-empty")

def validPure : FilterDeclaration → Except Exc Unit
  | .symbol name => validSymbol name
  | .cel expression => validExpression expression

def validHandler : HandlerDeclaration → Except Exc Unit
  | .symbol name => validSymbol name
  | .anonymous => .ok ()

def validGuard : GuardDeclaration → Except Exc Unit
  | .symbol name => validSymbol name
  | .cel expression => validExpression expression
  | .anonymous => .ok ()

def validInteger (value : Int) (subject : String) : Except Exc Unit :=
  require (jsonSafeIntegerMin ≤ value ∧ value ≤ jsonSafeIntegerMax) (netDefinitionError
    s!"v3 {subject} {value} is outside the inclusive interoperable range [{jsonSafeIntegerMin}, {jsonSafeIntegerMax}]")

def validTimer : Timer → Except Exc Unit
  | .delay duration => validInteger duration "Delay duration"
  | .untilAt instant => validInteger instant "Until instant"

def projectTransition (d : Declarations) (t : Transition) : Except Exc TransitionDefinition := do
  t.handler.toList.forM validHandler
  t.guards.forM validGuard
  t.timers.forM validTimer
  return {
    path := t.path
    handler := t.handler.bind fun handler =>
      (d.handlerUris.find? fun e => e.1 = t.path).map fun e => (handler, e.2)
    guards := t.guards.zip (((d.guardUris.find? fun e => e.1 = t.path).map Prod.snd).getD [])
    timers := t.timers }

def projectArc (arc : Arc × Nat) : Except Exc Unit := do
  validInteger arc.2 "arc position"
  validInteger arc.1.weight "arc weight"
  validColor "arc" arc.1.color
  arc.1.filter.toList.forM validPure

/-- The definition of a net whose constructor built the addresses `d`. -/
def projectNetDefinition (net : Net) (d : Declarations) (completion : Option FilterDeclaration) :
    Except Exc NetDefinition := do
  let places := net.places.insertionSort fun a b => a.path.str ≤ b.path.str
  places.forM fun place => validColor "place" place.color
  let transitions ← (net.transitions.insertionSort fun a b => a.path.str ≤ b.path.str).mapM
    (projectTransition d)
  net.arcs.zipIdx.forM projectArc
  completion.toList.forM validPure
  require (net.name ≠ some "") (validationError "Net name must be non-empty or null")
  return { name := net.name, places, transitions, arcs := net.arcs, completion }

/-! ## Its JSON -/

def textOrNull : Option String → Json
  | none => .null
  | some text => .str text

def FilterDeclaration.members : FilterDeclaration → List (String × Json)
  | .symbol name => [("kind", .str "symbol"), ("name", .str name)]
  | .cel expression => [("kind", .str "cel"), ("expression", .str expression)]

def HandlerDeclaration.members : HandlerDeclaration → List (String × Json)
  | .symbol name => [("kind", .str "symbol"), ("name", .str name)]
  | .anonymous => [("kind", .str "anonymous")]

def GuardDeclaration.members : GuardDeclaration → List (String × Json)
  | .symbol name => [("kind", .str "symbol"), ("name", .str name)]
  | .cel expression => [("kind", .str "cel"), ("expression", .str expression)]
  | .anonymous => [("kind", .str "anonymous")]

def behavior (members : List (String × Json)) (uri : NetUri) : Json :=
  .obj (members ++ [("uri", .str uri.value)])

def pureExpression : Option FilterDeclaration → Json
  | none => .null
  | some declaration => .obj declaration.members

def Timer.dump : Timer → Json
  | .delay duration => .obj [("kind", .str "delay"), ("duration", .num (.int duration))]
  | .untilAt instant => .obj [("kind", .str "until"), ("instant", .num (.int instant))]

def ArcMode.spelling : ArcMode → String
  | .consume => "consume"
  | .read => "read"
  | .inhibit => "inhibit"

def Place.dump (place : Place) : Json :=
  .obj [("path", .str place.path.str), ("color", textOrNull place.color)]

def TransitionDefinition.dump (t : TransitionDefinition) : Json :=
  .obj [("path", .str t.path.str),
    ("handler", match t.handler with
      | none => .null
      | some handler => behavior handler.1.members handler.2),
    ("guards", .arr (t.guards.map fun guard => behavior guard.1.members guard.2)),
    ("timers", .arr (t.timers.map Timer.dump))]

def dumpArc (arc : Arc × Nat) : Json :=
  .obj [("position", .num (.int arc.2)), ("source", .str arc.1.source.str),
    ("target", .str arc.1.target.str), ("mode", .str arc.1.mode.spelling),
    ("weight", .num (.int arc.1.weight)), ("color", textOrNull arc.1.color),
    ("filter", pureExpression arc.1.filter)]

def NetDefinition.dump (d : NetDefinition) : Json :=
  .obj [("name", textOrNull d.name), ("time_domain", .str "integer"),
    ("places", .arr (d.places.map Place.dump)),
    ("transitions", .arr (d.transitions.map TransitionDefinition.dump)),
    ("arcs", .arr (d.arcs.zipIdx.map dumpArc)), ("completion", pureExpression d.completion)]

end Petrus.Impetus
