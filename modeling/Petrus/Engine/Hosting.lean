import Petrus.Engine.Coordinator
import Petrus.Impetus.Run

/-!
# The engine around a coordinator

Every public door of the engine runs one guarded call against the coordinator's
session. A door that raises poisons the engine: from then on every door refuses, and
the way on is a load over the durable history. A load may find the history cut after
any batch, or after the lone selection a batch begins with.
-/

namespace Petrus.Engine

open Lib Motus Impetus

variable {κ : Type} [LinearOrder κ] (C : Composition κ) (host : Host)

/-! ## Doors -/

def acceptIdentified (source : Destination) (tokens : List SuppliedToken) (identity : String)
    (scope : Option ScopeTarget) : Driver DeliveryAnswer := do
  let s ← Act.get
  let answer ← onInstance C (Impetus.acceptDelivery C.definition host.store
    ⟨source, tokens, now host s, identity, scope⟩)
  let t ← Act.get
  if t.instance_.records.length ≠ s.instance_.records.length then committed C host
  return answer

def deliver (source : Destination) (tokens : List SuppliedToken) (identity : String)
    (scope : Option ScopeTarget) : Driver Unit := do
  match ← acceptIdentified C host source tokens identity scope with
  | .accepted a =>
    let _ ← completeAccepted C host a
    committed C host
  | _ => pure ()

def completeDelivery (a : AcceptedDelivery) : Driver Unit := do
  let _ ← completeAccepted C host a
  committed C host

def openScope (name : String) : Driver Unit := do
  let s ← Act.get
  let _ ← onInstance C (Impetus.openScope host.store name (now host s))
  committed C host

def requireScopeCancellation (scope : LifecycleScope) : Driver Unit := do
  let s ← Act.get
  Act.lift (require (C.cancellable = true ∨
      ∀ o ∈ s.instance_.inFlight.values, o.scope = some scope → o.invocation = none) (typeError
    "cannot close lifecycle scope with in-flight Activities: this Dispatch does not implement the recoverable cancellation extension"))

def cancelClosure (cancelled : List Nat) (historyPosition : Nat) : Driver Unit := do
  let s ← Act.get
  Act.forEach (fun id =>
    match s.instance_.cancelled.get? id with
    | none => Act.throw (keyError s!"{id}")
    | some o =>
      match o.invocation with
      | none => pure ()
      | some invocation => cancelOccurrence C host o invocation historyPosition) cancelled

def closeScope (scope : LifecycleScope) : Driver Unit := do
  requireScopeCancellation C scope
  let s ← Act.get
  let closure ← onInstance C (Impetus.closeScope host.store scope (now host s))
  let t ← Act.get
  committed C host
  cancelClosure C host closure.cancelled t.instance_.records.length
  committed C host

def resetCancelled (records : List Record) : List Nat :=
  match records.getLast? with
  | some (.scopeReset r) => r.cancelled
  | _ => []

def resetScope (scope : LifecycleScope) : Driver Unit := do
  requireScopeCancellation C scope
  let s ← Act.get
  let _ ← onInstance C (Impetus.resetScope host.store scope (now host s))
  let t ← Act.get
  committed C host
  cancelClosure C host (resetCancelled t.instance_.records) t.instance_.records.length
  committed C host

def sealSource (source : Destination) : Driver Unit := do
  let s ← Act.get
  onInstance C (Impetus.sealSource C.definition host.store source (now host s))
  committed C host

inductive Op where
  | advance
  | deliver (source : Destination) (tokens : List SuppliedToken) (identity : String)
      (scope : Option ScopeTarget)
  | acceptDelivery (source : Destination) (tokens : List SuppliedToken) (identity : String)
      (scope : Option ScopeTarget)
  | completeDelivery (accepted : AcceptedDelivery)
  | openScope (name : String)
  | closeScope (scope : LifecycleScope)
  | resetScope (scope : LifecycleScope)
  | sealSource (source : Destination)

def Op.run : Op → Driver Unit
  | .advance => do
    let _ ← drive C host
    return ()
  | .deliver source tokens identity scope => Engine.deliver C host source tokens identity scope
  | .acceptDelivery source tokens identity scope => do
    let _ ← acceptIdentified C host source tokens identity scope
    return ()
  | .completeDelivery accepted => Engine.completeDelivery C host accepted
  | .openScope name => Engine.openScope C host name
  | .closeScope scope => Engine.closeScope C host scope
  | .resetScope scope => Engine.resetScope C host scope
  | .sealSource source => Engine.sealSource C host source

/-! ## Runs -/

/-- A session and whether one of its doors has raised. -/
structure Hosted where
  session : Session
  broken : Bool := false

def Session.open (i : Instance) : Except Exc Session := do
  let coordinator ← Coordinator.create C i
  return { toCoordinator := coordinator, durable := i.history }

def Hosted.guarded (w : Hosted) (op : Op) : Hosted :=
  if w.broken then w
  else
    match op.run C host w.session with
    | (.ok _, s) => { session := s }
    | (.error _, s) => { session := s, broken := true }

/-- A history as a crash leaves it: whole batches, then at most a lone selection. -/
def cut (history : History) (batches : Nat) (torn : Bool) : History :=
  history.take batches ++
    match torn, history[batches]? with
    | true, some (.candidateSelected r :: _) => [[.candidateSelected r]]
    | _, _ => []

def load (history : History) : Except Exc Session := do
  let i ← resume C.definition history
  Session.open C i

variable {C}

/-- Reached from a new instance by doors that meet `allowed`, and by loads. -/
inductive Hosts (allowed : Host → Session → Op → Prop) : Hosted → Prop
  | created {i : Instance} {s : Session} (created : Created C.definition i)
      (opened : Session.open C i = .ok s) : Hosts allowed { session := s }
  | door {w : Hosted} (h : Hosts allowed w) (host : Host) (op : Op)
      (ok : w.broken = false → allowed host w.session op) : Hosts allowed (w.guarded C host op)
  | load {w : Hosted} (h : Hosts allowed w) (batches : Nat) (torn : Bool) {s : Session}
      (loaded : Engine.load C (cut w.session.durable batches torn) = .ok s) :
      Hosts allowed { session := s }

end Petrus.Engine
