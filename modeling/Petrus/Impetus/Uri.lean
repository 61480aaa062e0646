import Petrus.Impetus.Schema
import Petrus.Lib.Dict
import Petrus.Lib.Quote

/-!
# Net URIs

Every arc, handler, guard and filter of a net has a canonical ASCII address, spelled from
percent-encoded path segments, an arrow and an occurrence suffix. The constructor of a net
keeps the declarations in maps keyed by these addresses.
-/

namespace Petrus.Impetus

open Lib

def NetPath.segments (p : NetPath) : List String := (splitDots p.str.toList).map String.ofList

def isAsciiText (cs : List Char) : Bool := cs.all fun c => c.toNat < 128

/-- What `NetUri` accepts once the text is known to be ASCII and not empty. -/
def isCanonical (cs : List Char) : Bool :=
  ("place:/".toList.isPrefixOf cs || "transition:/".toList.isPrefixOf cs ||
    "arc:/".toList.isPrefixOf cs) &&
  cs.count '#' ≤ 1 && !cs.any isSpace && !cs.contains '?' && !cs.contains '\\' && escapesComplete cs

structure NetUri where
  value : String
  valid : value ≠ "" ∧ isAsciiText value.toList = true ∧ isCanonical value.toList = true

lemma NetUri.ext_value {a b : NetUri} (h : a.value = b.value) : a = b := by
  cases a
  cases b
  cases h
  rfl

instance : DecidableEq NetUri := fun a b =>
  decidable_of_iff (a.value = b.value) ⟨NetUri.ext_value, congrArg NetUri.value⟩

def NetUri.of (value : String) : Except Exc NetUri :=
  if hascii : value ≠ "" ∧ isAsciiText value.toList = true then
    if hcanonical : isCanonical value.toList = true then
      .ok ⟨value, hascii.1, hascii.2, hcanonical⟩
    else .error (valueError s!"invalid canonical NetUri {quoted value}")
  else .error (valueError
    s!"NetUri requires a non-empty canonical ASCII value, got {quoted value}")

inductive Owner where
  | place
  | transition
  deriving DecidableEq

def Owner.spelling : Owner → String
  | place => "place"
  | transition => "transition"

def encodedPath (path : NetPath) : List Char :=
  joinWith '/' (path.segments.map (quote isUnreserved))

/-- Declaration names keep their `$`. -/
def isNameSafe (c : Char) : Bool := isUnreserved c || c = '$'

def isDeclarationKind (kind : String) : Bool :=
  kind ≠ "" && isAsciiText kind.toList &&
    (let bare := kind.toList.filter fun c => c ≠ '-'
     bare ≠ [] && bare.all Char.isAlphanum)

def fragmentOf (kind : String) : Option String → List Char
  | none => kind.toList
  | some name => kind.toList ++ ':' :: quote isNameSafe name

namespace NetUri

def declaration (owner : Owner) (path : NetPath) (kind : String) (name : Option String) :
    Except Exc NetUri := do
  require (isDeclarationKind kind = true)
    (valueError s!"declaration kind must be a non-empty ASCII name, got {quoted kind}")
  require (name ≠ some "")
    (valueError "declaration name must be a non-empty string or None, got ''")
  NetUri.of (String.ofList
    (owner.spelling.toList ++ ":/".toList ++ encodedPath path ++ '#' :: fragmentOf kind name))

def occurrenceOf : Option Nat → List Char
  | none => []
  | some occurrence => '#' :: '$' :: (toString occurrence).toList

def arc (source target : NetPath) (occurrence : Option Nat) : Except Exc NetUri :=
  NetUri.of (String.ofList ("arc:/".toList ++ encodedPath source ++ "->/".toList ++
    encodedPath target ++ occurrenceOf occurrence))

/-- A `$` and then one digit or more. -/
def isOccurrence : List Char → Bool
  | '$' :: digits => digits ≠ [] && digits.all Char.isDigit
  | _ => false

def arcFilter (arc : NetUri) : Except Exc NetUri := do
  let cs := arc.value.toList
  require ("arc:/".toList.isPrefixOf cs = true)
    (valueError s!"arc filter owner must be an arc NetUri, got {quoted arc.value}")
  let base := cs.takeWhile fun c => c ≠ '#'
  match cs.dropWhile fun c => c ≠ '#' with
  | [] => NetUri.of (String.ofList (base ++ "#filter".toList))
  | _ :: occurrence =>
    require (isOccurrence occurrence = true) (valueError
      s!"arc filter owner must use a generated occurrence fragment, got {quoted arc.value}")
    NetUri.of (String.ofList (base ++ "#filter:".toList ++ occurrence))

end NetUri

/-! ## Declarations of a transition -/

def startsWithDollar (s : String) : Bool := s.toList.head? = some '$'

def GuardDeclaration.uriName (guard : GuardDeclaration) (position : Nat) : String :=
  match guard with
  | .symbol name => name
  | _ => s!"${position}"

/-! ## The maps of a net -/

structure Declarations where
  handlerUris : List (NetPath × NetUri)
  guardUris : List (NetPath × List NetUri)
  arcUris : List NetUri
  filterUris : List (Option NetUri)
  handlers : Dict NetUri HandlerDeclaration
  guards : Dict NetUri GuardDeclaration
  filters : Dict NetUri FilterDeclaration

def Declarations.empty : Declarations := ⟨[], [], [], [], Dict.empty, Dict.empty, Dict.empty⟩

namespace Declarations

def addHandler (d : Declarations) (t : Transition) : Except Exc Declarations :=
  match t.handler with
  | none => return d
  | some handler => do
    let uri ← NetUri.declaration .transition t.path "handler" none
    return { d with
      handlerUris := d.handlerUris ++ [(t.path, uri)]
      handlers := d.handlers.set uri handler }

def addGuards (d : Declarations) (t : Transition) : Except Exc Declarations := do
  let uris ← t.guards.zipIdx.mapM fun guard =>
    NetUri.declaration .transition t.path "guard" (some (guard.1.uriName guard.2))
  return { d with
    guardUris := d.guardUris ++ [(t.path, uris)]
    guards := (uris.zip t.guards).foldl (fun guards entry => guards.set entry.1 entry.2) d.guards }

def addTransition (d : Declarations) (t : Transition) : Except Exc Declarations := do
  (← d.addHandler t).addGuards t

def samePair (a b : Arc) : Bool := a.source = b.source && a.target = b.target

/-- The occurrence of an arc among those of its pair, when there is more than one. -/
def occurrence (arcs seen : List Arc) (arc : Arc) : Option Nat :=
  if 1 < arcs.countP (samePair arc) then some (seen.countP (samePair arc)) else none

def addFilter (d : Declarations) (uri : NetUri) : Option FilterDeclaration →
    Except Exc Declarations
  | none => return { d with filterUris := d.filterUris ++ [none] }
  | some filter => do
    let filterUri ← uri.arcFilter
    require (d.filters.contains filterUri = false)
      (valueError s!"arc filter URI collision: {filterUri.value}")
    return { d with
      filterUris := d.filterUris ++ [some filterUri]
      filters := d.filters.set filterUri filter }

def addArc (arcs : List Arc) (state : Declarations × List Arc) (arc : Arc) :
    Except Exc (Declarations × List Arc) := do
  let uri ← NetUri.arc arc.source arc.target (occurrence arcs state.2 arc)
  let d ← { state.1 with arcUris := state.1.arcUris ++ [uri] }.addFilter uri arc.filter
  return (d, state.2 ++ [arc])

end Declarations

def NetShape.declarations (n : NetShape) : Except Exc Declarations := do
  let d ← n.transitions.foldlM Declarations.addTransition Declarations.empty
  let (d, _) ← n.arcs.foldlM (Declarations.addArc n.arcs) (d, [])
  require d.arcUris.Nodup (valueError "arc URI collision")
  return d

end Petrus.Impetus
