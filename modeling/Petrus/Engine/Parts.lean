import Petrus.Engine.Coordinator

/-!
# The parts of a drive

Beside its begins, dispatches and deliveries a drive makes a few calls on the instance,
reaches its commit point and keeps its own books. A preorder of sessions that each of
these follows is followed by every part made of them.
-/

namespace Petrus.Engine

open Lib Motus Impetus
open Act (Moves)

def Call.dispatched? : Call → Option Nat
  | .dispatch occurrence _ => some occurrence
  | .cancel .. => none

def Session.dispatches (s : Session) : List Nat := s.calls.filterMap Call.dispatched?

/-- Neither the instance nor its durable history is touched, and nothing is dispatched. -/
structure Rests (s t : Session) : Prop where
  instance_ : t.instance_ = s.instance_
  durable : t.durable = s.durable
  state : t.selectionState = s.selectionState
  dispatches : t.dispatches = s.dispatches
  reconciled : s.reconciled = true → t.reconciled = true

variable {κ : Type} {C : Composition κ} {host : Host} {R : Session → Session → Prop}

/-- What a coordinator does on its way to the end of a firing stays in `R`. -/
structure Follows (C : Composition κ) (host : Host) (R : Session → Session → Prop) : Prop where
  books {s t : Session} : Rests s t → t.deliveries = s.deliveries → R s t
  committed : Moves R (committed C host)
  recorded (o : FiringOccurrence) (result : Payload) (atInstant : Option Instant) :
    Moves R (onInstance C (recordActivityCompletion host.store o result atInstant))
  refused (o : FiringOccurrence) (failure : ActivityFailure) (atInstant : Option Instant) :
    Moves R (onInstance C (recordActivityFailure host.store o failure atInstant))
  complete (o : FiringOccurrence) (atInstant : Option Instant) :
    Moves R (onInstance C (complete C.definition host.store o none atInstant))
  commit {o : FiringOccurrence} {run : Binding → List Arc → Projected}
    {result : Option HandlerResult} (atInstant : Option Instant) :
    C.definition.boundHandler o.binding.transition = .plain run →
      run o.binding (C.definition.net.outputs o.binding.transition) = .ok result →
        Moves R (onInstance C (commitCompletion C.definition host.store o result atInstant))
  fail (o : FiringOccurrence) (report : FailureReport) (atInstant : Option Instant) :
    Moves R (onInstance C (fail C.definition host.store o report atInstant))
  wake (instant : Instant) : Moves R (onInstance C (wake C.definition host.store instant))

lemma Follows.mono {R' : Session → Session → Prop} (h : Follows C host R)
    (hR : ∀ {s t}, R s t → R' s t) : Follows C host R' where
  books hrests hdeliveries := hR (h.books hrests hdeliveries)
  committed s := hR (h.committed s)
  recorded o result atInstant s := hR (h.recorded o result atInstant s)
  refused o failure atInstant s := hR (h.refused o failure atInstant s)
  complete o atInstant s := hR (h.complete o atInstant s)
  commit atInstant hbound hrun s := hR (h.commit atInstant hbound hrun s)
  fail o report atInstant s := hR (h.fail o report atInstant s)
  wake instant s := hR (h.wake instant s)

lemma Follows.modify (h : Follows C host R) {f : Session → Session} (hf : ∀ s, Rests s (f s))
    (hdeliveries : ∀ s, (f s).deliveries = s.deliveries) : Moves R (Act.modify f : Driver Unit) :=
  fun s => h.books (hf s) (hdeliveries s)

lemma choose_returned {snapshot : Snapshot} {action : Action} {s t : Session}
    (h : choose C snapshot s = (.ok action, t)) : t = s ∧ action ∈ snapshot.actions := by
  unfold choose at h
  obtain ⟨chosen, u, hpolicy, h⟩ := Act.bind_returned.mp h
  obtain ⟨-, rfl⟩ := Prod.mk.inj hpolicy
  obtain ⟨_, u, hrequire, h⟩ := Act.bind_returned.mp h
  obtain ⟨hmem, rfl⟩ := Prod.mk.inj hrequire
  cases h
  exact ⟨rfl, require_eq_ok.mp hmem⟩

variable [Std.Refl R] [IsTrans Session R]

lemma posture_moves (firings : List FiringOutcome) (waiting ready : Bool) :
    Moves R (posture C firings waiting ready) := by
  unfold posture
  refine Moves.bind Moves.get fun s => ?_
  exact Moves.bind (Moves.lift _) fun _ => Moves.pure _

lemma choose_moves (snapshot : Snapshot) : Moves R (choose C snapshot) := by
  unfold choose
  refine Moves.bind (Moves.lift _) fun action => ?_
  exact Moves.bind (Moves.lift _) fun _ => Moves.pure action

lemma offerCandidate_moves [LinearOrder κ] : Moves R (offerCandidate C) := by
  unfold offerCandidate
  refine Moves.bind Moves.get fun s => ?_
  refine Moves.bind (Moves.lift _) fun enabled => ?_
  split_ifs
  · exact Moves.pure _
  · refine Moves.bind (Moves.lift _) fun proposed => ?_
    cases proposed with
    | none => exact Moves.pure _
    | some proposal =>
      refine Moves.bind (Moves.lift _) fun _ => ?_
      exact Moves.bind (Moves.lift _) fun _ => Moves.pure _

namespace Follows

lemma cancelOccurrence (h : Follows C host R) (o : FiringOccurrence)
    (invocation : ActivityInvocation Json) (historyPosition : Nat) :
    Moves R (cancelOccurrence C host o invocation historyPosition) := by
  unfold Engine.cancelOccurrence
  have hbooked : Moves R (Act.modify fun s => { s with dispatched := s.dispatched.set o.id o } :
      Driver Unit) := h.modify (fun _ => ⟨rfl, rfl, rfl, rfl, id⟩) fun _ => rfl
  split_ifs
  · refine Moves.bind hbooked fun _ => ?_
    refine Moves.bind (h.modify (fun s => ⟨rfl, rfl, rfl, ?_, id⟩) fun _ => rfl) fun _ => ?_
    · simp [Session.dispatches, Call.dispatched?]
    · exact Moves.bind (Moves.lift _) fun _ => Moves.pure ()
  · exact Moves.bind hbooked fun _ => Moves.throw _
  · exact Moves.throw _

lemma recordArrival (h : Follows C host R) (o : FiringOccurrence) (outcome : Arrival) :
    Moves R (recordArrival C host o outcome) := by
  unfold Engine.recordArrival
  refine Moves.bind Moves.get fun s => ?_
  refine Moves.bind ?_ fun _ => h.modify (fun _ => ⟨rfl, rfl, rfl, rfl, id⟩) fun _ => rfl
  cases outcome with
  | returned result => exact h.recorded o result _
  | failed failure => exact h.refused o failure _

lemma completePure (h : Follows C host R) (o : FiringOccurrence) :
    Moves R (completePure C host o) := by
  unfold Engine.completePure
  dsimp only
  cases hbound : C.definition.boundHandler o.binding.transition with
  | activity handler => exact Moves.throw _
  | plain run =>
    refine Moves.catching ?_ ?_
    · refine Moves.bind_of ((Moves.lift _).mapError _) fun s result t hresult => ?_
      have hrun := (Prod.mk.inj (Act.mapError_eq_ok.mp hresult)).1
      exact Moves.bind Moves.get fun s => h.commit _ hbound hrun
    · intro e
      cases e with
      | refused e => exact Moves.throw e
      | raised e =>
        refine Moves.bind Moves.get fun s => ?_
        split_ifs
        · refine Moves.bind (h.fail o _ _) fun _ => ?_
          exact Moves.bind h.committed fun _ => Moves.throw e
        · exact Moves.throw e

lemma reconcileCancellations (h : Follows C host R) :
    Moves R (reconcileCancellations C host) := by
  unfold Engine.reconcileCancellations
  refine Moves.bind Moves.get fun s => ?_
  refine Moves.bind (Moves.lift _) fun positions => ?_
  refine Moves.forEach fun o _ => ?_
  cases o.invocation with
  | none => exact Moves.pure ()
  | some invocation =>
    dsimp only
    cases positions.get? o.id with
    | none => exact Moves.throw _
    | some position => exact h.cancelOccurrence o invocation position

lemma settleFrozen (h : Follows C host R) (o : FiringOccurrence) :
    Moves R (settleFrozen C host o) := by
  unfold Engine.settleFrozen
  refine Moves.bind Moves.get fun s => ?_
  cases s.instance_.frozenResults.get? o.id with
  | none => exact Moves.throw _
  | some outcome =>
    cases outcome with
    | completed value => exact h.complete o _
    | failed failure =>
      dsimp only
      split_ifs
      · exact h.complete o _
      · refine Moves.bind (h.fail o _ _) fun _ => ?_
        exact Moves.bind h.committed fun _ => Moves.throw _

lemma resolveArrivals (h : Follows C host R) (inFlight : List Nat)
    (arrived : List (Nat × Arrival)) : Moves R (resolveArrivals C host inFlight arrived) := by
  induction arrived with
  | nil => exact Moves.pure []
  | cons a rest ih =>
    obtain ⟨id, outcome⟩ := a
    unfold Engine.resolveArrivals
    split_ifs
    · exact Moves.bind ih fun remaining => Moves.pure _
    · refine Moves.bind Moves.get fun s => ?_
      cases s.dispatched.get? id with
      | none => exact Moves.throw _
      | some o => exact Moves.bind (h.recordArrival o outcome) fun _ => ih

lemma collectArrivals (h : Follows C host R) (inFlight : List Nat) :
    Moves R (collectArrivals C host inFlight) := by
  unfold Engine.collectArrivals
  refine Moves.bind (Moves.lift _) fun outcomes => ?_
  refine Moves.bind (h.modify (fun _ => ⟨rfl, rfl, rfl, rfl, id⟩) fun _ => rfl) fun _ => ?_
  refine Moves.bind Moves.get fun s => ?_
  refine Moves.bind (h.resolveArrivals inFlight s.arrived) fun remaining => ?_
  exact h.modify (fun _ => ⟨rfl, rfl, rfl, rfl, id⟩) fun _ => rfl

lemma acceptResult (h : Follows C host R) (occurrence : Nat) (outcome : Arrival) :
    Moves R (acceptResult C host occurrence outcome) := by
  unfold Engine.acceptResult
  refine Moves.bind Moves.get fun s => ?_
  cases s.instance_.inFlight.values.find? fun o => o.id = occurrence with
  | none => exact Moves.throw _
  | some o =>
    refine Moves.bind (h.modify (fun _ => ⟨rfl, rfl, rfl, rfl, id⟩) fun _ => rfl) fun _ => ?_
    refine Moves.bind (h.recordArrival o outcome) fun _ => ?_
    refine Moves.bind h.committed fun _ => ?_
    refine Moves.bind Moves.get fun t => ?_
    cases outcome with
    | returned result => exact Moves.bind (h.complete o _) fun _ => Moves.pure _
    | failed failure =>
      dsimp only
      split_ifs
      · refine Moves.bind (h.complete o _) fun _ => ?_
        exact Moves.bind h.committed fun _ => Moves.pure _
      · refine Moves.bind (h.fail o _ _) fun _ => ?_
        exact Moves.bind h.committed fun _ => Moves.throw _

lemma advanceTime (h : Follows C host R) (instant : Instant) :
    Moves R (advanceTime C host instant) := by
  unfold Engine.advanceTime
  cases host.observe instant with
  | none => exact Moves.pure none
  | some observed =>
    dsimp only
    split_ifs
    · exact Moves.throw _
    · exact Moves.bind (h.wake observed) fun _ => Moves.pure _

lemma settle (h : Follows C host R) (action : Action) (before : Nat) {applied : Applied}
    (hinstall : ∀ proposal ∈ applied.proposal, Moves R (installSelection proposal)) :
    Moves R (settle C host action before applied) := by
  have hbooked : Moves R (Act.modify fun s => { s with previous := some action } : Driver Unit) :=
    h.modify (fun _ => ⟨rfl, rfl, rfl, rfl, id⟩) fun _ => rfl
  unfold Engine.settle
  refine Moves.bind Moves.get fun s => ?_
  cases hproposal : applied.proposal with
  | none =>
    split_ifs
    · exact Moves.bind h.committed fun _ => hbooked
    · exact hbooked
  | some proposal =>
    have hinstalled := Moves.bind (hinstall proposal hproposal) fun _ => hbooked
    split_ifs
    · exact Moves.bind h.committed fun _ => hinstalled
    · exact hinstalled

lemma halted (h : Follows C host R) {action : Action} (haction : action = .wait ∨ action = .stop)
    (fuel : Nat) (snapshot : Snapshot) (firings : List FiringOutcome) :
    Moves R (turn C host (fuel + 1) snapshot action firings) := by
  rw [turn, if_pos haction]
  exact Moves.bind h.committed fun _ => posture_moves _ _ _

lemma turn (h : Follows C host R) (hinstall : ∀ proposal, Moves R (installSelection proposal))
    (fuel : Nat) {snapshot : Snapshot} {action : Action} (firings : List FiringOutcome)
    (hoffered : ∀ a ∈ snapshot.actions, Moves R (apply C host a))
    (haction : Moves R (apply C host action)) :
    Moves R (turn C host fuel snapshot action firings) := by
  induction fuel generalizing snapshot action with
  | zero => exact Moves.throw _
  | succ fuel ih =>
    by_cases hhalt : action = .wait ∨ action = .stop
    · exact h.halted hhalt fuel snapshot firings
    · rw [Engine.turn, if_neg hhalt]
      refine Moves.bind Moves.get fun s => ?_
      refine Moves.bind haction fun applied => ?_
      cases applied with
      | some applied =>
        exact Moves.bind (h.settle action _ fun proposal _ => hinstall proposal)
          fun _ => posture_moves _ _ _
      | none =>
        have hfewer : ∀ a ∈ snapshot.actions.filter (· ≠ action), Moves R (apply C host a) :=
          fun a ha => hoffered a (List.mem_of_mem_filter ha)
        exact Moves.bind_of (choose_moves _) fun _ next _ hnext =>
          ih hfewer (hfewer next (choose_returned hnext).2)

/-! ## With dispatches -/

variable (hdispatch : ∀ o invocation, Moves R (dispatchOccurrence host o invocation))

include hdispatch

omit [IsTrans Session R] in
lemma republish (pending : List Nat) (o : FiringOccurrence) :
    Moves R (republish host pending o) := by
  unfold Engine.republish
  cases o.invocation with
  | none => exact Moves.pure ()
  | some invocation =>
    dsimp only
    split_ifs
    · exact Moves.pure ()
    · exact hdispatch o invocation

lemma reconcile (h : Follows C host R) : Moves R (reconcile C host) := by
  unfold Engine.reconcile
  refine Moves.bind h.reconcileCancellations fun _ => ?_
  refine Moves.bind Moves.get fun t => ?_
  refine Moves.bind (Moves.forEach fun o _ => republish hdispatch _ o) fun _ => ?_
  refine Moves.bind (Moves.collect fun o _ => h.settleFrozen o) fun _ => ?_
  exact Moves.bind (Moves.collect fun o _ => h.completePure o) fun _ => Moves.pure _

lemma reconcileOnce (h : Follows C host R) : Moves R (reconcileOnce C host) := by
  unfold Engine.reconcileOnce
  refine Moves.bind Moves.get fun s => ?_
  split_ifs
  · exact Moves.pure []
  · refine Moves.bind (h.modify (fun _ => ⟨rfl, rfl, rfl, rfl, fun _ => rfl⟩) fun _ => rfl)
      fun _ => ?_
    refine Moves.bind (reconcile hdispatch h) fun firings => ?_
    exact Moves.bind h.committed fun _ => Moves.pure firings

lemma runBegun (h : Follows C host R) (o : FiringOccurrence)
    (earned : Option SelectionProposal) : Moves R (runBegun C host o earned) := by
  unfold Engine.runBegun
  cases o.invocation with
  | none => exact Moves.bind (h.completePure o) fun _ => Moves.pure _
  | some invocation => exact Moves.bind (hdispatch o invocation) fun _ => Moves.pure _

end Follows

end Petrus.Engine
