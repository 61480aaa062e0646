import Petrus.Engine.Quiet

/-!
# The outbox of a loaded coordinator

The first drive of a coordinator cancels at the dispatch what a close cancelled and
republishes what is in flight without a frozen outcome, before it moves the instance.
Every later dispatch is of an occurrence begun since.
-/

namespace Petrus.Engine

open Lib Motus Impetus List Dict Act

variable {κ : Type} {C : Composition κ} {host : Host} {D : Definition} {s t : Session}
variable {i : Instance} {α : Type}

/-! ## Where each cancellation stands -/

/-- Each cancelled occurrence has the one-based position of the close that names it. -/
structure Fences (i : Instance) (positions : Dict Nat Nat) : Prop where
  keys : ∀ id, (∃ p, positions.get? id = some p) ↔ ∃ o, i.cancelled.get? id = some o
  closed : ∀ id p, positions.get? id = some p → ∃ n r scope ids, p = n + 1 ∧
    i.records[n]? = some r ∧ r.closure? = some (scope, ids) ∧ id ∈ ids

lemma foldlM_cancelled {ids : List Nat} (hnodup : ids.Nodup) (positions : Dict Nat Nat) (p : Nat)
    (hfresh : ∀ id ∈ ids, positions.get? id = none) :
    ∃ positions', ids.foldlM (fun positions id => do
        require (positions.contains id = false)
          (valueError s!"replay divergence: firing occurrence {id} cancelled twice")
        return positions.set id p) positions = (.ok positions' : Except Exc _) ∧
      ∀ id, positions'.get? id = if id ∈ ids then some p else positions.get? id := by
  induction ids generalizing positions with
  | nil => exact ⟨positions, rfl, fun _ => by simp⟩
  | cons id ids ih =>
    obtain ⟨hnot, hnodup⟩ := nodup_cons.mp hnodup
    obtain ⟨hid, hrest⟩ := forall_mem_cons.mp hfresh
    have hlater : ∀ j ∈ ids, (positions.set id p).get? j = none := by
      intro j hj
      have hne : id ≠ j := by
        intro heq
        exact hnot (heq ▸ hj)
      rw [get?_set_ne _ _ hne]
      exact hrest j hj
    obtain ⟨positions', hfold, hget⟩ := ih hnodup (positions.set id p) hlater
    refine ⟨positions', ?_, ?_⟩
    · rw [foldlM_cons, require_bind (contains_eq_false.mpr hid)]
      exact hfold
    · intro j
      rw [hget j, get?_set]
      by_cases hj : j ∈ ids
      · simp [hj]
      · by_cases heq : id = j
        · simp [heq]
        · simp [hj, heq, Ne.symm heq]

lemma Fences.grow {positions : Dict Nat Nat} (h : Fences i positions) {j : Instance}
    {batch : List Record} (hrecords : j.records = i.records ++ batch) {id p : Nat}
    (hget : positions.get? id = some p) : ∃ n r scope ids, p = n + 1 ∧
      j.records[n]? = some r ∧ r.closure? = some (scope, ids) ∧ id ∈ ids := by
  obtain ⟨n, r, scope, ids, hp, hr, hclosure, hmem⟩ := h.closed id p hget
  refine ⟨n, r, scope, ids, hp, ?_, hclosure, hmem⟩
  rw [hrecords, getElem?_append_left (List.getElem?_eq_some_iff.mp hr).1]
  exact hr

lemma Fences.close {positions positions' : Dict Nat Nat} (h : Fences i positions)
    (hl : FlightLive i) (c : Closed i)
    (hget : ∀ id, positions'.get? id = if id ∈ scopeOccurrences i c.scope
      then some (1 + i.records.length) else positions.get? id) : Fences c.after positions' := by
  have hrecords : c.after.records = i.records ++ [c.record] := by
    have hhistory : c.after.history = i.history ++ [[c.record]] := rfl
    simp [Instance.records, hhistory]
  constructor
  · intro id
    rw [hget id, FlightLive.get?_cancelled]
    by_cases hid : id ∈ scopeOccurrences i c.scope
    · obtain ⟨o, ho, hscope⟩ := (hl.mem_scopeOccurrences c.scope).mp hid
      have hfilter : (i.inFlight.filter fun _ o => decide (o.scope = some c.scope)).get? id =
          some o := get?_filter.mpr ⟨ho, by simpa using hscope⟩
      simp [hid, hfilter]
    · have hfilter : (i.inFlight.filter fun _ o => decide (o.scope = some c.scope)).get? id =
          none := by
        cases hnew : (i.inFlight.filter fun _ o => decide (o.scope = some c.scope)).get? id with
        | none => rfl
        | some o =>
          obtain ⟨ho, hscope⟩ := get?_filter.mp hnew
          exact absurd ((hl.mem_scopeOccurrences c.scope).mpr ⟨o, ho, by simpa using hscope⟩) hid
      simp [hid, hfilter, h.keys id]
  · intro id p hp
    rw [hget id] at hp
    split_ifs at hp with hid
    · cases hp
      refine ⟨i.records.length, c.record, _, _, Nat.add_comm _ _, ?_, Closed.closure?_record c, hid⟩
      rw [hrecords]
      simp
    · exact h.grow hrecords hp

lemma Reached.cancellationPositions (h : Reached D i) :
    ∃ positions, cancellationPositions i.records = .ok positions ∧ Fences i positions := by
  induction h with
  | @created m instanceId instant _ =>
    refine ⟨Dict.empty, ?_, fun id => by simp [Instance.initial, get?_empty], ?_⟩
    · apply foldlM_inert
      intro e he
      have hr := fst_mem_of_mem_zipIdx he
      rw [Instance.records, Instance.initial, flatten_singleton] at hr
      have hnone : e.1.closure? = none := by
        rcases mem_initialRecords hr with heq | ⟨_, -, heq⟩ | ⟨_, -, heq⟩ <;> rw [heq] <;> rfl
      simp only [hnone]
    · intro id p hp
      cases hp
  | reordered _ _ _ ih =>
    obtain ⟨positions, hfold, hfences⟩ := ih
    exact ⟨positions, hfold, hfences.keys, hfences.closed⟩
  | @commit i h c _ ih =>
    obtain ⟨positions, hfold, hfences⟩ := ih
    unfold Engine.cancellationPositions at hfold ⊢
    rw [c.after_records, zipIdx_append, foldlM_append_ok hfold]
    rcases c.closure?_cases with ⟨c, rfl⟩ | ⟨hbatch, hcancelled⟩
    · have hfresh : ∀ id ∈ scopeOccurrences i c.scope, positions.get? id = none := by
        intro id hid
        obtain ⟨o, ho, -⟩ := (h.live.flight.mem_scopeOccurrences c.scope).mp hid
        have hnone := h.live.flight.cancelled_of_inFlight ho
        cases hget : positions.get? id with
        | none => rfl
        | some p =>
          obtain ⟨o', ho'⟩ := (hfences.keys id).mp ⟨p, hget⟩
          rw [hnone] at ho'
          cases ho'
      obtain ⟨positions', hids, hget⟩ := foldlM_cancelled
        (h.live.flight.scopeOccurrences_nodup c.scope) positions (1 + i.records.length) hfresh
      refine ⟨positions', ?_, hfences.close h.live.flight c hget⟩
      have hbatch : (Commit.closed c : Commit D i).batch = [c.record] := rfl
      rw [hbatch, zipIdx_singleton, foldlM_cons_ok]
      · rfl
      · simp only [Closed.closure?_record]
        exact hids
    · refine ⟨positions, ?_, ?_, ?_⟩
      · apply foldlM_inert
        intro e he
        simp only [hbatch e.1 (fst_mem_of_mem_zipIdx he)]
      · rw [hcancelled]
        exact hfences.keys
      · intro id p hp
        exact hfences.grow c.after_records hp

/-! ## Publishing -/

def publish (C : Composition κ) (host : Host) : Driver Instance := do
  reconcileCancellations C host
  let s ← Act.get
  Act.forEach (republish host (s.instance_.projectionPending.map FiringOccurrence.id))
    s.instance_.inFlight.values
  return s.instance_

def settleHeld (C : Composition κ) (host : Host) (i : Instance) : Driver (List FiringOutcome) := do
  let pending := i.projectionPending.map FiringOccurrence.id
  let projected ← Act.collect (settleFrozen C host)
    (i.inFlight.values.filter fun o => o.invocation ≠ none ∧ o.id ∈ pending)
  let completed ← Act.collect (completePure C host)
    (i.inFlight.values.filter fun o => o.invocation = none)
  return projected ++ completed

lemma reconcile_eq : reconcile C host = publish C host >>= settleHeld C host := by
  unfold reconcile publish
  rw [bind_assoc]
  congr 1
  funext _
  rw [bind_assoc]
  congr 1
  funext s
  rw [bind_assoc]
  congr 1

def fenceCall (positions : Dict Nat Nat) (o : FiringOccurrence) : List Call :=
  match o.invocation, positions.get? o.id with
  | some invocation, some position => [.cancel o.id invocation position]
  | _, _ => []

def requestCall (pending : List Nat) (o : FiringOccurrence) : List Call :=
  match o.invocation with
  | none => []
  | some invocation => if o.id ∈ pending then [] else [.dispatch o.id invocation]

def requestCalls (i : Instance) : List Call :=
  i.inFlight.values.flatMap (requestCall (i.projectionPending.map FiringOccurrence.id))

/-- What the dispatch is owed: the fences, then the requests without a frozen outcome. -/
def outbox (positions : Dict Nat Nat) (i : Instance) : List Call :=
  i.cancelled.values.flatMap (fenceCall positions) ++ requestCalls i

def Host.Refuses (host : Host) (e : Exc) : Prop :=
  (∃ id invocation, host.dispatch id invocation = some e) ∨
    ∃ instruction, host.cancel instruction = .error e

/-- Calls on the dispatch that leave the instance alone; the dispatch may raise at any of them. -/
structure Asks {α : Type} (host : Host) (asked : List Call) (s : Session)
    (r : Except Exc α × Session) : Prop where
  instance_ : r.2.instance_ = s.instance_
  durable : r.2.durable = s.durable
  reconciled : r.2.reconciled = s.reconciled
  made : ∃ made, r.2.calls = s.calls ++ made ∧ made <+: asked
  returned : ∀ a, r.1 = .ok a → r.2.calls = s.calls ++ asked
  raised : ∀ e, r.1 = .error e → host.Refuses e

namespace Asks

lemma pure (a : α) : Asks host [] s ((pure a : Driver α) s) where
  instance_ := rfl
  durable := rfl
  reconciled := rfl
  made := ⟨[], by simp [pure_apply], prefix_rfl⟩
  returned _ _ := by simp [pure_apply]
  raised _ h := by cases h

lemma bind {β : Type} {m : Driver α} {f : α → Driver β} {first second : List Call}
    (h : Asks host first s (m s)) (hf : ∀ a t, m s = (.ok a, t) → Asks host second t (f a t)) :
    Asks host (first ++ second) s ((m >>= f) s) := by
  rw [bind_apply]
  generalize hr : m s = r at h hf
  obtain ⟨x, t⟩ := r
  cases x with
  | error e =>
    obtain ⟨made, hmade, hleads⟩ := h.made
    exact ⟨h.instance_, h.durable, h.reconciled,
      ⟨made, hmade, hleads.trans (prefix_append _ _)⟩, nofun,
      fun e' he => h.raised e' (by cases he; rfl)⟩
  | ok a =>
    have hcalls := h.returned a rfl
    have hthen := hf a t rfl
    dsimp only at hcalls ⊢
    refine ⟨hthen.instance_.trans h.instance_, hthen.durable.trans h.durable,
      hthen.reconciled.trans h.reconciled, ?_, ?_, hthen.raised⟩
    · obtain ⟨made, hmade, hleads⟩ := hthen.made
      refine ⟨first ++ made, ?_, (prefix_append_right_inj _).mpr hleads⟩
      rw [hmade, hcalls, append_assoc]
    · intro b hb
      rw [hthen.returned b hb, hcalls, append_assoc]

lemma forEach {f : α → Driver Unit} {asked : α → List Call} (as : List α)
    (h : ∀ a ∈ as, ∀ t, Asks host (asked a) t (f a t)) :
    Asks host (as.flatMap asked) s (Act.forEach f as s) := by
  induction as generalizing s with
  | nil => exact Asks.pure ()
  | cons a as ih =>
    rw [flatMap_cons]
    exact bind (h a mem_cons_self s)
      fun _ t _ => ih fun b hb => h b (mem_cons_of_mem _ hb)

end Asks

lemma dispatchOccurrence_asks (o : FiringOccurrence) (invocation : ActivityInvocation Json) :
    Asks host [.dispatch o.id invocation] s (dispatchOccurrence host o invocation s) := by
  unfold dispatchOccurrence
  rw [modify_bind_apply]
  cases hdispatch : host.dispatch o.id invocation with
  | none =>
    exact ⟨rfl, rfl, rfl, ⟨_, rfl, prefix_rfl⟩, fun _ _ => rfl, nofun⟩
  | some e =>
    refine ⟨rfl, rfl, rfl, ⟨_, rfl, prefix_rfl⟩, nofun, ?_⟩
    intro e' he
    cases he
    exact .inl ⟨_, _, hdispatch⟩

lemma republish_asks (pending : List Nat) (o : FiringOccurrence) :
    Asks host (requestCall pending o) s (republish host pending o s) := by
  unfold republish requestCall
  cases o.invocation with
  | none => exact Asks.pure ()
  | some invocation =>
    dsimp only
    split_ifs
    · exact Asks.pure ()
    · exact dispatchOccurrence_asks o invocation

lemma cancelOccurrence_asks (hcancellable : C.cancellable = true) {o : FiringOccurrence}
    (invocation : ActivityInvocation Json) {position : Nat} (hid : 1 ≤ o.id)
    (hposition : 1 ≤ position) :
    Asks host [.cancel o.id invocation position] s
      (cancelOccurrence C host o invocation position s) := by
  unfold cancelOccurrence
  rw [if_pos hcancellable, modify_bind_apply, dif_pos ⟨hid, hposition⟩, modify_bind_apply]
  cases hcancel : host.cancel ⟨o.id, invocation, position, hid, hposition⟩ with
  | ok disposition =>
    exact ⟨rfl, rfl, rfl, ⟨_, rfl, prefix_rfl⟩, fun _ _ => rfl, nofun⟩
  | error e =>
    refine ⟨rfl, rfl, rfl, ⟨_, rfl, prefix_rfl⟩, nofun, ?_⟩
    intro e' he
    cases he
    exact .inr ⟨_, hcancel⟩

lemma reconcileCancellations_asks (h : Reached C.definition s.instance_)
    (hcancellable : C.cancellable = true ∨
      ∀ o ∈ s.instance_.cancelled.values, o.invocation = none) :
    ∃ positions, cancellationPositions s.instance_.records = .ok positions ∧
      Fences s.instance_ positions ∧
      Asks host (s.instance_.cancelled.values.flatMap (fenceCall positions)) s
        (reconcileCancellations C host s) := by
  obtain ⟨positions, hpositions, hfences⟩ := Reached.cancellationPositions h
  refine ⟨positions, hpositions, hfences, ?_⟩
  have hlift : Act.lift (cancellationPositions s.instance_.records) s = (.ok positions, s) := by
    rw [hpositions]
    rfl
  unfold reconcileCancellations
  rw [get_bind_apply, bind_ok_apply hlift]
  apply Asks.forEach
  intro o ho t
  obtain ⟨id, hget⟩ := mem_values.mp ho
  obtain ⟨hpos, rfl⟩ := h.held_pos (.inr hget)
  obtain ⟨p, hp⟩ := (hfences.keys o.id).mpr ⟨o, hget⟩
  obtain ⟨n, -, -, -, rfl, -⟩ := hfences.closed o.id p hp
  unfold fenceCall
  cases hinvocation : o.invocation with
  | none => exact Asks.pure ()
  | some invocation =>
    have hable : C.cancellable = true := by
      rcases hcancellable with hable | hpure
      · exact hable
      · rw [hpure o ho] at hinvocation
        cases hinvocation
    simp only [hp]
    exact cancelOccurrence_asks hable invocation hpos (Nat.le_add_left 1 n)

lemma publish_asks (h : Reached C.definition s.instance_)
    (hcancellable : C.cancellable = true ∨
      ∀ o ∈ s.instance_.cancelled.values, o.invocation = none) :
    ∃ positions, cancellationPositions s.instance_.records = .ok positions ∧
      Fences s.instance_ positions ∧
      Asks host (outbox positions s.instance_) s (publish C host s) := by
  obtain ⟨positions, hpositions, hfences, hasks⟩ := reconcileCancellations_asks h hcancellable
  refine ⟨positions, hpositions, hfences, ?_⟩
  unfold publish outbox requestCalls
  refine hasks.bind fun _ t ht => ?_
  have hinstance := hasks.instance_
  rw [ht] at hinstance
  rw [get_bind_apply, hinstance]
  let pending := s.instance_.projectionPending.map FiringOccurrence.id
  have hpublished : Asks host (s.instance_.inFlight.values.flatMap (requestCall pending)) t
      (Act.forEach (republish host pending) s.instance_.inFlight.values t) :=
    Asks.forEach _ fun o _ u => republish_asks pending o
  have hreturned : ∀ u, Asks host [] u ((pure s.instance_ : Driver Instance) u) :=
    fun u => Asks.pure s.instance_
  have hthen := hpublished.bind fun _ u _ => hreturned u
  rw [append_nil] at hthen
  exact hthen

lemma requestCalls_dispatched (i : Instance) : (requestCalls i).filterMap Call.dispatched? =
    (i.inFlight.values.filter fun o => o.invocation ≠ none ∧
      o.id ∉ i.projectionPending.map FiringOccurrence.id).map FiringOccurrence.id := by
  unfold requestCalls
  generalize i.projectionPending.map FiringOccurrence.id = pending
  induction i.inFlight.values with
  | nil => rfl
  | cons o os ih =>
    rw [flatMap_cons, filterMap_append, ih, filter_cons]
    unfold requestCall
    cases hinvocation : o.invocation with
    | none => simp
    | some invocation =>
      by_cases hpending : o.id ∈ pending
      · simp [hpending]
      · simp [hpending, Call.dispatched?]

/-! ## The first drive -/

section First

variable [LinearOrder κ]

def afterOutbox (C : Composition κ) (host : Host) (i : Instance) : Driver DriveOutcome := do
  let firings ← settleHeld C host i
  committed C host
  let snapshot ← observe C host
  let action ← choose C snapshot
  turn C host snapshot.actions.length snapshot action firings

lemma drive_first (h : s.reconciled = false) :
    drive C host s = (publish C host >>= afterOutbox C host) { s with reconciled := true } := by
  have hopen : ¬s.reconciled = true := by simp [h]
  unfold drive reconcileOnce
  rw [bind_assoc, get_bind_apply, if_neg hopen, bind_assoc, modify_bind_apply,
    reconcile_eq, bind_assoc, bind_assoc]
  refine congrFun (congrArg (publish C host >>= ·) (funext fun i => ?_)) _
  unfold afterOutbox
  refine congrArg (settleHeld C host i >>= ·) (funext fun firings => ?_)
  rw [bind_assoc]
  rfl

end First

end Petrus.Engine
