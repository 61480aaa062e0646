import Petrus.Lib.Dict
import Petrus.Lib.Front
import Petrus.Lib.Json
import Petrus.Impetus.Schema
import Petrus.Motus.Activity

/-!
# Tokens, token queues and markings

A place's queue pairs each token with its entry instant, its durable identity and
its lifecycle scope. Removal is front-most by Python equality of tokens; the
marking is the time-blind view of the queues and never holds an empty place.
-/

namespace Petrus.Impetus

open Lib List

structure LifecycleScope where
  name : String
  generation : Nat
  name_valid : name ≠ "" ∧ '\x00' ∉ name.toList
  generation_pos : 1 ≤ generation

lemma LifecycleScope.eq_iff (a b : LifecycleScope) :
    a.name = b.name ∧ a.generation = b.generation ↔ a = b := by
  obtain ⟨_, _, _, _⟩ := a
  obtain ⟨_, _, _, _⟩ := b
  simp

instance : DecidableEq LifecycleScope := fun a b => decidable_of_iff _ (LifecycleScope.eq_iff a b)

structure Token where
  color : Option Color := none
  data : Json := .null
  deriving DecidableEq

namespace Token

def black : Token := {}

def value (t : Token) : Token := { t with data := t.data.value }

def spelling (t : Token) : Token := { t with data := t.data.spelling }

end Token

structure Entry where
  token : Token
  instant : Instant
  identity : Nat
  scope : Option LifecycleScope
  deriving DecidableEq

def Entry.key (e : Entry) : Token := e.token.value

abbrev TokenQueue := List Entry

def tokenNotPresent : Exc :=
  ⟨"TokenNotPresent", true, "cannot remove token: token not present",
    [quoted "cannot remove token: token not present"]⟩

/-- Replace a `TokenNotPresent` by a rejection in the caller's own terms. -/
def readdress {α : Type} (text : String) : Except Exc α → Except Exc α
  | .ok a => .ok a
  | .error e => .error (if e.name = "TokenNotPresent" then valueError text else e)

@[simp] lemma readdress_eq_ok {α : Type} {text : String} {x : Except Exc α} {a : α} :
    readdress text x = .ok a ↔ x = .ok a := by
  cases x <;> simp [readdress]

def orNotPresent {α : Type} : Option α → Except Exc α
  | some a => .ok a
  | none => .error tokenNotPresent

@[simp] lemma orNotPresent_eq_ok {α : Type} {x : Option α} {a : α} :
    orNotPresent x = .ok a ↔ x = some a := by
  cases x <;> simp [orNotPresent]

namespace TokenQueue

def tokens (q : TokenQueue) : List Token := q.map Entry.token

def instants (q : TokenQueue) : List Instant := q.map Entry.instant

/-- The front-most equal occurrences of the requested tokens, and what they leave behind. -/
def take (q : TokenQueue) (tokens : List Token) : Option (List Entry × TokenQueue) :=
  takeEach Entry.key (tokens.map Token.value) q

def selected (q : TokenQueue) (tokens : List Token) : Except Exc (List Entry) :=
  Prod.fst <$> orNotPresent (q.take tokens)

def remove (q : TokenQueue) (tokens : List Token) (identities : List Nat) :
    Except Exc TokenQueue := do
  require (identities = [] ∨ identities.length = tokens.length)
    (valueError "TokenQueue exact removal requires one identity per token")
  Prod.snd <$> orNotPresent (if identities = [] then q.take tokens
    else takeEach (fun e => (e.key, e.identity)) ((tokens.map Token.value).zip identities) q)

def discard (q : TokenQueue) (identities : List Nat) : Except Exc TokenQueue :=
  match takeEach Entry.identity identities q with
  | some p => .ok p.2
  | none => .error (valueError "cannot discard queue entry: identity not present")

variable {q rest : TokenQueue} {tokens : List Token} {taken : List Entry}

lemma selected_eq_ok :
    q.selected tokens = .ok taken ↔ ∃ rest, q.take tokens = some (taken, rest) := by
  simp only [selected, map_eq_ok, orNotPresent_eq_ok]
  constructor
  · intro ⟨p, hp, h⟩
    exact ⟨p.2, by rw [hp, ← h]⟩
  · intro ⟨rest, h⟩
    exact ⟨(taken, rest), h, rfl⟩

lemma remove_nil_eq_ok :
    q.remove tokens [] = .ok rest ↔ ∃ taken, q.take tokens = some (taken, rest) := by
  simp only [remove, true_or, require_true, ok_bind, if_true, map_eq_ok, orNotPresent_eq_ok]
  constructor
  · intro h
    obtain ⟨p, hp, h⟩ := h
    exact ⟨p.1, by rw [hp, ← h]⟩
  · intro h
    obtain ⟨taken, h⟩ := h
    exact ⟨(taken, rest), h, rfl⟩

lemma zip_keys (h : q.take tokens = some (taken, rest)) :
    (tokens.map Token.value).zip (taken.map Entry.identity) =
      taken.map fun e => (e.key, e.identity) := by
  rw [← takeEach_keys h, zip_map', map_inj_left.mpr]
  intro e _
  rfl

lemma remove_selected (hq : (q.map Entry.identity).Nodup) (htokens : tokens ≠ [])
    (h : q.take tokens = some (taken, rest)) :
    q.remove tokens (taken.map Entry.identity) = .ok rest := by
  have hlen : taken.length = tokens.length := by
    rw [takeEach_length h, length_map]
  have hne : taken.map Entry.identity ≠ [] := by
    intro hnil
    rw [map_eq_nil_iff] at hnil
    exact htokens (length_eq_zero_iff.mp (by rw [← hlen, hnil]; rfl))
  have hex := takeEach_exact hq h
  simp only [remove, length_map, hlen, or_true, require_true, ok_bind, hne, if_false,
    zip_keys h, hex]
  rfl

end TokenQueue

/-- A sparse distribution of tokens across places. -/
structure Marking where
  queues : Dict NetPath (List Token)
  sparse : ∀ e ∈ queues.entries, e.2 ≠ []

namespace Marking

def ofDict (queues : Dict NetPath (List Token)) : Marking where
  queues := queues.filter fun _ q => decide (q ≠ [])
  sparse e he := by
    have h := (mem_filter.mp he).2
    simpa using h

def empty : Marking := ⟨Dict.empty, by simp [Dict.empty]⟩

def place (m : Marking) (path : NetPath) : List Token := (m.queues.get? path).getD []

/-- Remove the front-most equal occurrences of `tokens` from a list of tokens. -/
def withdraw (queue tokens : List Token) : Option (List Token) :=
  (takeEach Token.value (tokens.map Token.value) queue).map Prod.snd

def consume (m : Marking) (path : NetPath) (tokens : List Token) : Except Exc Marking :=
  match withdraw (m.place path) tokens with
  | none => .error (valueError s!"cannot consume token from {path.str}: token not present")
  | some remaining =>
    .ok (ofDict (if remaining = [] then m.queues.erase path else m.queues.set path remaining))

variable {m m' : Marking} {path p : NetPath} {tokens : List Token}

lemma get?_ofDict (queues : Dict NetPath (List Token)) (p : NetPath) :
    (ofDict queues).place p = (queues.get? p).getD [] := by
  have hmem : ∀ q, (ofDict queues).queues.get? p = some q ↔ queues.get? p = some q ∧ q ≠ [] := by
    intro q
    rw [Dict.get?_eq_some, Dict.get?_eq_some]
    simp [ofDict, Dict.filter]
  unfold place
  cases h : queues.get? p with
  | none =>
    cases h' : (ofDict queues).queues.get? p with
    | none => rfl
    | some q => rw [hmem, h] at h'; cases h'.1
  | some q =>
    by_cases hq : q = []
    · cases h' : (ofDict queues).queues.get? p with
      | none => simp [hq]
      | some q' =>
        obtain ⟨heq, hne⟩ := (hmem q').mp h'
        rw [h] at heq
        cases heq
        exact absurd hq hne
    · rw [(hmem q).mpr ⟨h, hq⟩]

end Marking

/-! ## Bindings, handlers and the bound definition -/

section

open Motus

abbrev Selection := NetPath × List Token

structure Binding where
  transition : NetPath
  consumed : List Selection
  read : List Selection := []
  delivered : List Token := []
  selectsNothing : delivered = [] ∨ consumed = [] ∧ read = [] := by decide
  deriving DecidableEq

namespace Binding

def tokens (b : Binding) : List Token := b.consumed.flatMap Prod.snd ++ b.delivered

def delivery (source : NetPath) (tokens : List Token) : Binding :=
  { transition := source, consumed := [], delivered := tokens, selectsNothing := .inr ⟨rfl, rfl⟩ }

def selection (t : NetPath) (consumed read : List Selection) : Binding :=
  { transition := t, consumed, read, selectsNothing := .inl rfl }

end Binding

structure DeliveryRegistration where
  source : NetPath
  key : String
  key_ne : key ≠ ""

lemma DeliveryRegistration.eq_iff (a b : DeliveryRegistration) :
    a.source = b.source ∧ a.key = b.key ↔ a = b := by
  obtain ⟨_, _, _⟩ := a
  obtain ⟨_, _, _⟩ := b
  simp

instance : DecidableEq DeliveryRegistration := fun a b =>
  decidable_of_iff _ (DeliveryRegistration.eq_iff a b)

/-- A key of a handler's token mapping: a node address or its spelling. -/
inductive Destination where
  | path (p : NetPath)
  | text (s : String)
  deriving DecidableEq

def Destination.resolve : Destination → Except Exc NetPath
  | path p => .ok p
  | text s => NetPath.parse s

/-- Output tokens and registration effects; `none` is an effect that is no registration. -/
structure HandlerResult where
  tokens : List (Destination × List Token) := []
  opens : List (Option DeliveryRegistration) := []
  closes : List (Option DeliveryRegistration) := []
  deriving DecidableEq

/-- What a handler returns; `none` is Python's `None`. -/
abbrev Projected := Except Exc (Option HandlerResult)

structure ActivityHandler where
  /-- `none` is a prepared value that is no invocation. -/
  prepare : Binding → Except Exc (Option (ActivityInvocation Payload))
  project : Binding → Json → Projected
  projectFailure : Option (Binding → ActivityFailure → Projected) := none

inductive Handler where
  | plain (run : Binding → List Arc → Projected)
  | activity (handler : ActivityHandler)

def Handler.isActivity : Handler → Bool
  | plain _ => false
  | activity _ => true

/-- Each token goes through every admitting output arc, concatenated per target. -/
def route (tokens : List Token) (outputs : List Arc) : Dict NetPath (List Token) :=
  outputs.foldl (fun routed arc =>
    let admitted := tokens.filter fun token => arc.admits token.color
    if admitted = [] then routed
    else routed.set arc.target ((routed.get? arc.target).getD [] ++ admitted)) Dict.empty

def passthrough (binding : Binding) (outputs : List Arc) : Dict NetPath (List Token) :=
  route binding.tokens outputs

def passthroughHandler : Handler :=
  .plain fun binding outputs =>
    .ok (some { tokens := (passthrough binding outputs).entries.map fun e => (.path e.1, e.2) })

structure Definition where
  net : Net
  handlers : NetPath → Handler
  /-- A guard is addressed by its transition and its position there. -/
  guards : NetPath → Nat → Binding → Except Exc Bool
  /-- A filter is addressed by the global position of its arc. -/
  filters : Nat → Token → Except Exc Bool
  scheduler : List Binding → Except Exc (Option Binding)
  sourcePlain : ∀ t ∈ net.transitions, net.isSource t.path = true → t.handler ≠ none →
    (handlers t.path).isActivity = false

namespace Definition

variable (D : Definition)

/-- Whether the transition declares a handler (`handler_uri` is not `None`). -/
def declaresHandler (t : NetPath) : Bool :=
  D.net.transitions.any fun transition => transition.path = t ∧ transition.handler ≠ none

def boundHandler (t : NetPath) : Handler :=
  if D.declaresHandler t then D.handlers t else passthroughHandler

def activityBound (t : NetPath) : Bool := (D.boundHandler t).isActivity

variable {D}

lemma activityBound_source {t : NetPath} (h : D.net.isSource t = true) :
    D.activityBound t = false := by
  unfold activityBound boundHandler
  split_ifs with hd
  · simp only [declaresHandler, List.any_eq_true, decide_eq_true_eq] at hd
    obtain ⟨transition, hmem, rfl, hne⟩ := hd
    exact D.sourcePlain transition hmem h hne
  · rfl

end Definition

def selectConservative (bindings : List Binding) : Except Exc (Option Binding) :=
  .ok bindings.head?

end

end Petrus.Impetus
