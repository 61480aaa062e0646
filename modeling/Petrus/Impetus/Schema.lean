import Petrus.Lib.Fold

/-!
# Net structure

Node addresses, arcs, places, transitions and the flattened net. A net carries the
rules its constructor enforces, so enabledness and firing never meet a net the
constructor would have refused. Arcs are the resolved ones: an untyped arc already
carries the color of its place.
-/

namespace Petrus.Impetus

open Lib List

abbrev Instant := Int
abbrev Duration := Int
abbrev Color := String

def splitDots : List Char → List (List Char)
  | [] => [[]]
  | c :: cs =>
    match splitDots cs with
    | [] => [[c]]
    | w :: ws => if c = '.' then [] :: w :: ws else (c :: w) :: ws

/-- A node address, carried by its dotted spelling. -/
structure NetPath where
  str : String
  wellFormed : str ≠ "" ∧ [] ∉ splitDots str.toList
  deriving DecidableEq

namespace NetPath

def parse (value : String) : Except Exc NetPath :=
  if h : value = "" then
    .error
      (valueError s!"NetPath requires a non-empty dotted string or a NetPath, got {quoted value}")
  else if hs : [] ∈ splitDots value.toList then
    .error (valueError s!"NetPath segments must be non-empty, got {quoted value}")
  else .ok ⟨value, h, hs⟩

lemma parse_str (p : NetPath) : parse p.str = .ok p := by
  simp [parse, p.wellFormed.1, p.wellFormed.2]

lemma ext_str {p q : NetPath} (h : p.str = q.str) : p = q := by
  cases p
  cases q
  simp_all

end NetPath

/-! ## Nodes of the examples -/

abbrev nodeP : NetPath := ⟨"p", by decide⟩

abbrev nodeQ : NetPath := ⟨"q", by decide⟩

abbrev nodeS : NetPath := ⟨"s", by decide⟩

abbrev nodeT : NetPath := ⟨"t", by decide⟩

abbrev nodeX : NetPath := ⟨"x", by decide⟩

abbrev nodeZ : NetPath := ⟨"z", by decide⟩

inductive ArcMode where
  | consume
  | read
  | inhibit
  deriving DecidableEq

inductive FilterDeclaration where
  | symbol (name : String)
  | cel (expression : String)
  deriving DecidableEq

inductive HandlerDeclaration where
  | symbol (name : String)
  | anonymous
  deriving DecidableEq

inductive GuardDeclaration where
  | symbol (name : String)
  | cel (expression : String)
  | anonymous
  deriving DecidableEq

inductive Timer where
  | delay (duration : Duration)
  | untilAt (instant : Instant)
  deriving DecidableEq

def Timer.isDelay : Timer → Bool
  | .delay _ => true
  | .untilAt _ => false

structure Arc where
  source : NetPath
  target : NetPath
  mode : ArcMode := .consume
  weight : Nat := 1
  color : Option Color := none
  filter : Option FilterDeclaration := none
  weight_pos : 1 ≤ weight := by decide
  deriving DecidableEq

structure Place where
  path : NetPath
  color : Option Color := none
  deriving DecidableEq

structure Transition where
  path : NetPath
  handler : Option HandlerDeclaration := none
  guards : List GuardDeclaration := []
  timers : List Timer := []
  deriving DecidableEq

lemma Arc.weight_one : 1 ≤ 1 := le_rfl

def Arc.admits (arc : Arc) (color : Option Color) : Bool :=
  arc.color = none ∨ arc.color = color

/-- Nodes and arcs as the net's constructor receives them, colors already resolved. -/
structure NetShape where
  places : List Place
  transitions : List Transition
  arcs : List Arc
  name : Option String := none
  deriving DecidableEq

namespace NetShape

variable (n : NetShape)

def placePaths : List NetPath := n.places.map Place.path

def transitionPaths : List NetPath := n.transitions.map Transition.path

def inputs (t : NetPath) : List Arc :=
  n.arcs.filter fun arc => arc.target = t ∧ arc.source ∈ n.placePaths

def outputs (t : NetPath) : List Arc :=
  n.arcs.filter fun arc => arc.source = t ∧ arc.target ∈ n.placePaths

def isSource (t : NetPath) : Bool := n.inputs t = []

def DistinctNodes : Prop :=
  n.placePaths.Nodup ∧ n.transitionPaths.Nodup ∧ ∀ p ∈ n.placePaths, p ∉ n.transitionPaths

def ArcsConnect : Prop :=
  ∀ arc ∈ n.arcs, (arc.source ∈ n.placePaths ∧ arc.target ∈ n.transitionPaths) ∨
    (arc.source ∈ n.transitionPaths ∧ arc.target ∈ n.placePaths)

def ColorsResolved : Prop :=
  ∀ arc ∈ n.arcs, ∀ place ∈ n.places, place.path = arc.source ∨ place.path = arc.target →
    place.color = none ∨ arc.color = place.color

def OutputsPlain : Prop :=
  ∀ arc ∈ n.arcs, arc.source ∈ n.transitionPaths → arc.mode = .consume ∧ arc.filter = none

/-- A transition with inputs and no handler has a consume input, else it would fire forever. -/
def PassthroughConsumes : Prop :=
  ∀ t ∈ n.transitions, n.isSource t.path = false → t.handler = none →
    ∃ arc ∈ n.inputs t.path, arc.mode = .consume

def SourcesPlain : Prop :=
  ∀ t ∈ n.transitions, n.isSource t.path = true → t.guards = [] ∧ t.timers = []

def DelaysAnchored : Prop :=
  ∀ t ∈ n.transitions, (∃ timer ∈ t.timers, timer.isDelay = true) →
    ∃ arc ∈ n.inputs t.path, arc.mode ≠ .inhibit

def Valid : Prop :=
  n.DistinctNodes ∧ n.ArcsConnect ∧ n.ColorsResolved ∧ n.OutputsPlain ∧ n.PassthroughConsumes ∧
    n.SourcesPlain ∧ n.DelaysAnchored ∧ n.name ≠ some ""

instance : Decidable n.Valid := by
  unfold Valid DistinctNodes ArcsConnect ColorsResolved OutputsPlain PassthroughConsumes
    SourcesPlain DelaysAnchored
  infer_instance

end NetShape

/-- A net the constructor accepts. -/
structure Net extends NetShape where
  valid : toNetShape.Valid

namespace Net

variable {net : Net} {t p : NetPath} {arc : Arc}

def place? (net : Net) (p : NetPath) : Option Place :=
  net.places.find? fun place => place.path = p

def inputPositions (net : Net) (t : NetPath) : List (Arc × Nat) :=
  net.arcs.zipIdx.filter fun a => a.1.target = t ∧ a.1.source ∈ net.placePaths

def sourceTransitions (net : Net) : List NetPath :=
  (net.transitionPaths.filter fun t => net.isSource t).insertionSort fun a b => a.str ≤ b.str

lemma mem_sourceTransitions :
    t ∈ net.sourceTransitions ↔ t ∈ net.transitionPaths ∧ net.isSource t = true := by
  simp [sourceTransitions]

lemma nodup_sourceTransitions : net.sourceTransitions.Nodup :=
  (perm_insertionSort _ _).nodup_iff.mpr (net.valid.1.2.1.filter _)

lemma target_mem_places (h : arc ∈ net.outputs t) : arc.target ∈ net.placePaths := by
  simp only [NetShape.outputs, mem_filter, decide_eq_true_eq] at h
  exact h.2.2

lemma map_fst_inputPositions : (net.inputPositions t).map Prod.fst = net.inputs t := by
  rw [inputPositions, NetShape.inputs]
  conv_rhs => rw [← zipIdx_map_fst 0 net.arcs, filter_map]
  rfl

end Net

end Petrus.Impetus
