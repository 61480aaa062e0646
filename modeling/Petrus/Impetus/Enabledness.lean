import Petrus.Lib.Choices
import Petrus.Impetus.Marking

/-!
# Enabledness

Which bindings are enabled under a marking at a watermark. Each input arc answers
with its offer; the alternatives of a transition are the product of the offers;
guards and then timers judge the assembled bindings. A raising filter or guard
counts as not admitted or not satisfied.
-/

namespace Petrus.Impetus

open Lib

variable (D : Definition)

def admitted (arc : Arc) (position : Nat) (token : Token) : Bool :=
  arc.admits token.color &&
    match arc.filter with
    | none => true
    | some _ =>
      match D.filters position token with
      | .ok satisfied => satisfied
      | .error _ => false

def admittedBy (admits : Token → Bool) (queue : List Token) : List Nat :=
  (queue.zipIdx.filter fun e => admits e.1).map Prod.snd

structure Alternative where
  selection : Selection
  anchors : List Instant

inductive Offer where
  | veto
  | satisfied
  | alternatives (arc : Arc) (choices : List Alternative)

/-- The arc's answer to a marking; `anchors` are the entry instants when a timer demands them. -/
def offer (arc : Arc) (position : Nat) (m : Marking) (anchors : Option (NetPath → List Instant)) :
    Except Exc Offer :=
  let queue := m.place arc.source
  let positions := admittedBy (admitted D arc position) queue
  if arc.mode = .inhibit then
    .ok (if arc.weight ≤ positions.length then .veto else .satisfied)
  else if positions.length < arc.weight then .ok .veto
  else
    match anchors.map fun instants => instants arc.source with
    | some instants =>
      if instants.length ≤ (positions.getLast?).getD 0 then
        .error (valueError s!"candidate computation for timed transition {arc.target.str}: entry instants for place {arc.source.str} are missing or misaligned")
      else .ok (.alternatives arc ((combinations arc.weight positions).map fun c =>
        { selection := (arc.source, c.filterMap (queue[·]?))
          anchors := c.filterMap (instants[·]?) }))
    | none => .ok (.alternatives arc ((combinations arc.weight positions).map fun c =>
        { selection := (arc.source, c.filterMap (queue[·]?)), anchors := [] }))

/-- The offers of the selecting arcs, or `none` at the first veto. -/
def offers (m : Marking) (anchors : Option (NetPath → List Instant)) :
    List (Arc × Nat) → Except Exc (Option (List (Arc × List Alternative)))
  | [] => .ok (some [])
  | (arc, position) :: rest => do
    match ← offer D arc position m anchors with
    | .veto => return none
    | .satisfied => offers m anchors rest
    | .alternatives arc choices =>
      return (← offers m anchors rest).map fun others => (arc, choices) :: others

def guardsHold (t : Transition) (binding : Binding) : Bool :=
  (List.range t.guards.length).all fun position =>
    match D.guards t.path position binding with
    | .ok satisfied => satisfied
    | .error _ => false

def latest : List Instant → Option Instant
  | [] => none
  | i :: is => some (is.foldl max i)

def earliest : List Instant → Option Instant
  | [] => none
  | i :: is => some (is.foldl min i)

def Timer.matures (anchor : Option Instant) : Timer → Except Exc Instant
  | .delay duration =>
    match anchor with
    | some a => .ok (a + duration)
    | none => .error (typeError "unsupported operand type(s) for +: 'NoneType' and 'int'")
  | .untilAt instant => .ok instant

/-- The instant at which every timer has matured; `none` without timers. -/
def maturation (timers : List Timer) (anchor : Option Instant) : Except Exc (Option Instant) :=
  latest <$> timers.mapM (Timer.matures anchor)

inductive Verdict where
  | skipped
  | enabled (binding : Binding)
  | pending (mature : Instant)

/-- The binding one choice of alternatives assembles, and its timer anchors. -/
def assemble (t : NetPath) (choice : List (Arc × Alternative)) : Binding × List Instant :=
  (Binding.selection t
    ((choice.filter fun c => c.1.mode = .consume).map fun c => c.2.selection)
    ((choice.filter fun c => c.1.mode ≠ .consume).map fun c => c.2.selection),
   choice.flatMap fun c => c.2.anchors)

def judge (t : Transition) (watermark : Instant) (choice : List (Arc × Alternative)) :
    Except Exc Verdict :=
  let (binding, anchors) := assemble t.path choice
  if guardsHold D t binding = false then .ok .skipped
  else do
    match ← maturation t.timers (latest anchors) with
    | none => return .enabled binding
    | some mature => return if mature ≤ watermark then .enabled binding else .pending mature

/-- The choices of one alternative per selecting arc, in enumeration order. -/
def choices (offered : List (Arc × List Alternative)) : List (List (Arc × Alternative)) :=
  product (offered.map fun o => o.2.map fun alternative => (o.1, alternative))

def surveyTransition (m : Marking) (watermark : Instant) (entryInstants : NetPath → List Instant)
    (t : Transition) : Except Exc (List Verdict) := do
  let anchors := if t.timers.any Timer.isDelay then some entryInstants else none
  match ← offers D m anchors (D.net.inputPositions t.path) with
  | none => return []
  | some offered => (choices offered).mapM (judge D t watermark)

def scheduled : List Transition :=
  (D.net.transitions.filter fun t => D.net.isSource t.path = false).insertionSort
    fun a b => a.path.str ≤ b.path.str

def survey (m : Marking) (watermark : Instant) (entryInstants : NetPath → List Instant) :
    Except Exc (List Verdict) :=
  List.flatten <$> (scheduled D).mapM (surveyTransition D m watermark entryInstants)

def Verdict.binding? : Verdict → Option Binding
  | .enabled binding => some binding
  | _ => none

def Verdict.maturation? : Verdict → Option Instant
  | .pending mature => some mature
  | _ => none

def candidates (m : Marking) (watermark : Instant) (entryInstants : NetPath → List Instant) :
    Except Exc (List Binding) :=
  (fun verdicts => verdicts.filterMap Verdict.binding?) <$> survey D m watermark entryInstants

def nextMaturation (m : Marking) (watermark : Instant) (entryInstants : NetPath → List Instant) :
    Except Exc (Option Instant) :=
  (fun verdicts => earliest (verdicts.filterMap Verdict.maturation?)) <$>
    survey D m watermark entryInstants

end Petrus.Impetus
