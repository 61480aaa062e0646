import Petrus.Impetus.Replay.Names

/-!
# A begun occurrence rebuilds to itself

The begin records of an occurrence determine it: its binding, its frozen request and
its scope are read back exactly, in the order the writer appends them, and what is
read back passes the checks of resume.
-/

namespace Petrus.Impetus

open Lib Motus List

variable {D : Definition} {s : Instance}

structure WellBegun (D : Definition) (o : FiringOccurrence) : Prop where
  rebuilt : rebuiltOccurrence o.id o.binding.transition o.binding.delivered o.records = .ok o
  ordered : (o.records.map Record.beginRank).Pairwise (· ≤ ·)
  valid : validateReplayedOccurrence D o = .ok ()
  requested : o.records.any Record.isActivityRequested = o.invocation.isSome
  boundary : ∃ r rest, o.records = .firingBegun r :: rest ∧ r.transition = o.binding.transition ∧
    r.scope = o.scope

/-! ## Reading the sections back -/

section Sections

variable {occurrence : Nat} {scope : Option LifecycleScope} {instant : Instant}

lemma filterMap_zipWith_selection {f : Record → Option Selection}
    {mk : Selection → List Entry → Record} (hf : ∀ selection taken, f (mk selection taken) =
      some selection) {selections : List Selection} {takens : List (List Entry)}
    (h : takens.length = selections.length) :
    (List.zipWith mk selections takens).filterMap f = selections := by
  induction selections generalizing takens with
  | nil => simp
  | cons selection selections ih =>
    cases takens with
    | nil => simp at h
    | cons taken takens =>
      rw [zipWith_cons_cons, filterMap_cons_some (hf selection taken), ih (by simpa using h)]

end Sections

namespace Begun

variable (c : Begun D s)

lemma consumed_length : c.entries.consumed.length = c.binding.consumed.length :=
  consumedEntries_length c.consumed_ok

lemma read_length : c.entries.read.length = c.binding.read.length :=
  (mapM_eq_ok.mp c.read_ok).length_eq.symm

lemma filterMap_consumes {α : Type} {f : Record → Option α}
    (hf : ∀ m, f (.tokensConsumed m) = none) : c.consumes.filterMap f = [] := by
  rw [filterMap_eq_nil_iff]
  intro r hr
  obtain ⟨_, _, rfl⟩ := c.mem_consumes hr
  exact hf _

lemma filterMap_reads {α : Type} {f : Record → Option α}
    (hf : ∀ m, f (.tokensRead m) = none) : c.reads.filterMap f = [] := by
  rw [filterMap_eq_nil_iff]
  intro r hr
  obtain ⟨_, _, rfl⟩ := c.mem_reads hr
  exact hf _

lemma filterMap_requests {α : Type} {f : Record → Option α}
    (hf : ∀ r, f (.activityRequested r) = none) : c.requests.filterMap f = [] := by
  rw [filterMap_eq_nil_iff]
  intro r hr
  obtain ⟨_, -, rfl⟩ := c.mem_requests hr
  exact hf _

lemma consumedSelections_records : consumedSelections c.records = c.binding.consumed := by
  unfold consumedSelections
  rw [c.records_eq, filterMap_cons_none rfl, tail, filterMap_append,
    filterMap_append, c.filterMap_reads fun _ => rfl, c.filterMap_requests fun _ => rfl,
    append_nil, append_nil]
  exact filterMap_zipWith_selection (fun _ _ => rfl) c.consumed_length

lemma readSelections_records : readSelections c.records = c.binding.read := by
  unfold readSelections
  rw [c.records_eq, filterMap_cons_none rfl, tail, filterMap_append,
    filterMap_append, c.filterMap_consumes fun _ => rfl, c.filterMap_requests fun _ => rfl,
    nil_append, append_nil]
  exact filterMap_zipWith_selection (fun _ _ => rfl) c.read_length

lemma requestFact_records : c.records.findSome? Record.requestFact? =
    c.invocation.map fun i =>
      requestRecord c.binding.transition i s.nextOccurrence c.scope c.instant := by
  have hhead : c.records.filterMap Record.requestFact? =
      c.invocation.toList.map fun i =>
        requestRecord c.binding.transition i s.nextOccurrence c.scope c.instant := by
    rw [c.records_eq, filterMap_cons_none rfl, tail, filterMap_append,
      filterMap_append, c.filterMap_consumes fun _ => rfl, c.filterMap_reads fun _ => rfl,
      nil_append, nil_append, requests, filterMap_map]
    cases c.invocation <;> rfl
  rw [← head?_filterMap, hhead]
  cases c.invocation <;> rfl

lemma invocation_requestRecord (t : NetPath) (i : ActivityInvocation Json) (occurrence : Nat)
    (scope : Option LifecycleScope) (instant : Instant) :
    (requestRecord t i occurrence scope instant).invocation =
      .ok (ActivityInvocation.resolved i occurrence) := by
  have hcorrelation : i.correlation.getD s!"occurrence-{occurrence}" ≠ "" := by
    intro h
    exact (ActivityInvocation.resolved i occurrence).correlation_ne (congrArg some h)
  have hidempotency : i.idempotency.getD s!"occurrence-{occurrence}" ≠ "" := by
    intro h
    exact (ActivityInvocation.resolved i occurrence).idempotency_ne (congrArg some h)
  unfold ActivityRequested.invocation
  rw [dif_pos ⟨i.activity_ne, hcorrelation, hidempotency⟩]
  rfl

lemma rebuiltInvocation_records : rebuiltInvocation c.records = .ok c.occurrence.invocation := by
  unfold rebuiltInvocation
  rw [c.requestFact_records]
  unfold occurrence
  cases c.invocation with
  | none => rfl
  | some i =>
    simp only [Option.map_some]
    rw [invocation_requestRecord]
    rfl

lemma provenance_records : ∀ r ∈ c.records, r.provenance? = c.scope := by
  intro r hr
  rw [c.records_eq, mem_cons] at hr
  rcases hr with rfl | hr
  · rfl
  · rcases c.mem_tail hr with ⟨_, _, rfl⟩ | ⟨_, _, rfl⟩ | ⟨_, -, rfl⟩ <;> rfl

lemma rebuilt : rebuiltOccurrence c.occurrence.id c.occurrence.binding.transition
    c.occurrence.binding.delivered c.occurrence.records = .ok c.occurrence := by
  have hbegun : c.records.findSome? Record.begunFact? = some c.boundary := by
    rw [c.records_eq]
    rfl
  have hscope : ∀ r ∈ c.records, r.provenance? = c.boundary.scope := c.provenance_records
  have hnothing : c.binding.delivered = [] ∨
      consumedSelections c.records = [] ∧ readSelections c.records = [] := by
    rw [c.consumedSelections_records, c.readSelections_records]
    exact c.binding.selectsNothing
  have htransition : c.boundary.transition = c.binding.transition := rfl
  change rebuiltOccurrence s.nextOccurrence c.binding.transition c.binding.delivered c.records = _
  unfold rebuiltOccurrence
  rw [c.rebuiltInvocation_records, ok_bind]
  simp only [hbegun]
  rw [require_bind htransition, require_bind hscope, dif_pos hnothing]
  simp only [c.consumedSelections_records, c.readSelections_records]
  rfl

/-! ## What is read back passes the checks -/

lemma pairwise_rank {records : List Record} {rank : Nat}
    (h : ∀ r ∈ records, r.beginRank = rank) :
    records.Pairwise fun a b => a.beginRank ≤ b.beginRank := by
  apply pairwise_of_forall_mem_list
  intro a ha b hb
  rw [h a ha, h b hb]

lemma ordered : (c.records.map Record.beginRank).Pairwise (· ≤ ·) := by
  have hconsumes : ∀ r ∈ c.consumes, r.beginRank = 1 := by
    intro r hr
    obtain ⟨_, _, rfl⟩ := c.mem_consumes hr
    rfl
  have hreads : ∀ r ∈ c.reads, r.beginRank = 2 := by
    intro r hr
    obtain ⟨_, _, rfl⟩ := c.mem_reads hr
    rfl
  have hrequests : ∀ r ∈ c.requests, r.beginRank = 3 := by
    intro r hr
    obtain ⟨_, -, rfl⟩ := c.mem_requests hr
    rfl
  rw [pairwise_map, c.records_eq, pairwise_cons, tail, pairwise_append, pairwise_append]
  refine ⟨fun r _ => Nat.zero_le _, pairwise_rank hconsumes,
    ⟨pairwise_rank hreads, pairwise_rank hrequests, ?_⟩, ?_⟩
  · intro a ha b hb
    rw [hreads a ha, hrequests b hb]
    omega
  · intro a ha b hb
    rw [hconsumes a ha]
    rcases mem_append.mp hb with hb | hb
    · rw [hreads b hb]
      omega
    · rw [hrequests b hb]
      omega

lemma any_consumes : c.consumes.any Record.isActivityRequested = false := by
  rw [any_eq_false]
  intro r hr
  obtain ⟨_, _, rfl⟩ := c.mem_consumes hr
  simp [Record.isActivityRequested]

lemma any_reads : c.reads.any Record.isActivityRequested = false := by
  rw [any_eq_false]
  intro r hr
  obtain ⟨_, _, rfl⟩ := c.mem_reads hr
  simp [Record.isActivityRequested]

lemma requested : c.records.any Record.isActivityRequested = c.occurrence.invocation.isSome := by
  rw [c.records_eq, any_cons, tail, any_append, any_append, c.any_consumes, c.any_reads]
  unfold occurrence requests
  cases c.invocation <;> rfl

lemma valid : validateReplayedOccurrence D c.occurrence = .ok () := by
  have hshape : ∀ rejection, validateBindingShape D.net c.binding rejection = .ok () :=
    fun rejection => validateBindingShape_ok.mpr (validateBindingShape_ok.mp c.shape)
  have hsource : (D.net.isSource c.binding.transition = false ∨ c.binding.delivered ≠ []) ∧
      (D.net.isSource c.binding.transition = true ∨ c.binding.delivered = []) := by
    have hinitiated := c.initiated
    cases hid : c.identity with
    | none =>
      rw [hid] at hinitiated
      exact ⟨.inl hinitiated.1, .inr hinitiated.2⟩
    | some identity =>
      rw [hid] at hinitiated
      exact ⟨.inr hinitiated.2.1, .inl hinitiated.1⟩
  have hinvocation : c.occurrence.invocation.isSome = D.activityBound c.binding.transition := by
    rw [← c.impure, occurrence, Option.isSome_map]
  have hbound : c.occurrence.invocation = none ∨ D.activityBound c.binding.transition = true := by
    rw [← hinvocation]
    cases c.occurrence.invocation <;> simp
  have hplain : c.occurrence.invocation ≠ none ∨ D.activityBound c.binding.transition = false := by
    rw [← hinvocation]
    cases c.occurrence.invocation <;> simp
  have hbinding : c.occurrence.binding = c.binding := rfl
  simp only [validateReplayedOccurrence, hbinding]
  rw [require_bind c.transition_mem, require_bind hsource.1, require_bind hsource.2, hshape,
    ok_bind, require_bind hbound, require_true hplain]

lemma wellBegun : WellBegun D c.occurrence where
  rebuilt := c.rebuilt
  ordered := c.ordered
  valid := c.valid
  requested := c.requested
  boundary := ⟨c.boundary, c.tail, c.records_eq, rfl, rfl⟩

end Begun

end Petrus.Impetus
