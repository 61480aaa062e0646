import Petrus.Impetus.Replay.Queues

/-!
# Deliveries and the occurrences they began

Every accepted external event began one occurrence of its own, which while it is in
flight or cancelled is the source firing of the delivered tokens.
-/

namespace Petrus.Impetus

open Lib Motus List Dict

variable {D : Definition} {s : Instance}

def AcceptedDeliveryFact.delivered? : AcceptedDeliveryFact → Option ExternalEventDelivered
  | .delivered r => some r
  | _ => none

def Instance.deliveries (s : Instance) : List ExternalEventDelivered :=
  s.acceptedIdentities.values.filterMap AcceptedDeliveryFact.delivered?

lemma Instance.mem_deliveries {r : ExternalEventDelivered} : r ∈ s.deliveries ↔
    ∃ identity, s.acceptedIdentities.get? identity = some (.delivered r) := by
  unfold Instance.deliveries
  rw [mem_filterMap]
  constructor
  · rintro ⟨fact, hfact, hr⟩
    obtain ⟨identity, hget⟩ := mem_values.mp hfact
    cases fact with
    | delivered r' =>
      cases hr
      exact ⟨identity, hget⟩
    | dropped r' => cases hr
    | quarantined r' => cases hr
  · rintro ⟨identity, hget⟩
    exact ⟨.delivered r, mem_values.mpr ⟨identity, hget⟩, rfl⟩

structure BegunBy (r : ExternalEventDelivered) (o : FiringOccurrence) : Prop where
  binding : o.binding = Binding.delivery r.source r.tokens
  scope : o.scope = r.scope
  invocation : o.invocation = none

structure DeliveredLive (s : Instance) : Prop where
  distinct : (s.deliveries.map ExternalEventDelivered.occurrence).Nodup
  below : ∀ r ∈ s.deliveries, r.occurrence < s.nextOccurrence
  begun : ∀ r ∈ s.deliveries, ∀ o,
    s.inFlight.get? r.occurrence = some o ∨ s.cancelled.get? r.occurrence = some o → BegunBy r o

lemma Binding.eq_delivery {b : Binding} (h : b.delivered ≠ []) :
    b = Binding.delivery b.transition b.delivered := by
  obtain ⟨t, consumed, read, delivered, hselects⟩ := b
  obtain ⟨rfl, rfl⟩ := hselects.resolve_left h
  rfl

lemma Begun.begunBy (c : Begun D s) {identity : String} (hid : c.identity = some identity) :
    BegunBy (c.delivered identity) c.occurrence := by
  have hinitiated := c.initiated
  rw [hid] at hinitiated
  have himpure := c.impure
  rw [Definition.activityBound_source hinitiated.1] at himpure
  refine ⟨Binding.eq_delivery hinitiated.2.1, rfl, ?_⟩
  cases hi : c.invocation with
  | none => simp only [Begun.occurrence, hi, Option.map_none]
  | some i =>
    rw [hi] at himpure
    cases himpure

lemma Begun.deliveries_after (c : Begun D s) : c.after.deliveries =
    s.deliveries ++ c.identity.toList.map c.delivered := by
  have hinitiated := c.initiated
  unfold Instance.deliveries
  cases hid : c.identity with
  | none => simp [Begun.after, hid, Instance.extend]
  | some identity =>
    rw [hid] at hinitiated
    simp only [Begun.after, hid]
    rw [values_set_of_absent hinitiated.2.2.1, filterMap_append]
    rfl

lemma Dispositioned.deliveries_after (c : Dispositioned D s) :
    c.after.deliveries = s.deliveries := by
  change ((s.acceptedIdentities.set c.identity c.fact).values.filterMap _) = _
  rw [values_set_of_absent c.fresh, filterMap_append]
  have hnone : c.fact.delivered? = none := by
    have hdisposed := c.disposed
    generalize c.fact = fact at hdisposed ⊢
    cases hdisposed <;> rfl
  rw [filterMap_cons_none hnone, filterMap_nil, append_nil]
  rfl

namespace DeliveredLive

lemma begin_ (h : DeliveredLive s) (c : Begun D s) (hl : FlightLive s) :
    DeliveredLive c.after := by
  have hnew : ∀ r ∈ c.identity.toList.map c.delivered, r.occurrence = s.nextOccurrence := by
    intro r hr
    obtain ⟨identity, -, rfl⟩ := mem_map.mp hr
    rfl
  constructor
  · rw [c.deliveries_after, map_append, nodup_append]
    refine ⟨h.distinct, ?_, ?_⟩
    · cases c.identity with
      | none => exact nodup_nil
      | some identity => exact nodup_singleton _
    · intro i hi j hj
      obtain ⟨r, hr, rfl⟩ := mem_map.mp hi
      obtain ⟨r', hr', rfl⟩ := mem_map.mp hj
      have hlt := h.below r hr
      have heq := hnew r' hr'
      omega
  · intro r hr
    change r.occurrence < s.nextOccurrence + 1
    rw [c.deliveries_after] at hr
    rcases mem_append.mp hr with hr | hr
    · have hlt := h.below r hr
      omega
    · have heq := hnew r hr
      omega
  · intro r hr o ho
    rw [c.deliveries_after] at hr
    change (s.inFlight.set s.nextOccurrence c.occurrence).get? r.occurrence = some o ∨
      s.cancelled.get? r.occurrence = some o at ho
    rcases mem_append.mp hr with hr | hr
    · have hlt := h.below r hr
      rw [get?_set_ne _ _ (by omega)] at ho
      exact h.begun r hr o ho
    · obtain ⟨identity, hid, rfl⟩ := mem_map.mp hr
      rw [hnew _ hr, get?_set_self] at ho
      rcases ho with ho | ho
      · cases ho
        exact c.begunBy (by simpa using hid)
      · have hlt := (hl.cancelled _ _ ho).2.1
        omega

lemma frame (h : DeliveredLive s) {s' : Instance} (hdeliveries : s'.deliveries = s.deliveries)
    (hnext : s.nextOccurrence ≤ s'.nextOccurrence)
    (hbegun : ∀ id o, s'.inFlight.get? id = some o ∨ s'.cancelled.get? id = some o →
      s.inFlight.get? id = some o ∨ s.cancelled.get? id = some o) : DeliveredLive s' := by
  constructor
  · rw [hdeliveries]
    exact h.distinct
  · rw [hdeliveries]
    intro r hr
    exact (h.below r hr).trans_le hnext
  · rw [hdeliveries]
    intro r hr o ho
    exact h.begun r hr o (hbegun _ o ho)

lemma erased {id : Nat} {o : FiringOccurrence} {k : Nat}
    (h : (s.inFlight.erase k).get? id = some o ∨ s.cancelled.get? id = some o) :
    s.inFlight.get? id = some o ∨ s.cancelled.get? id = some o := by
  refine h.imp_left ?_
  intro ho
  rw [get?_erase] at ho
  split_ifs at ho
  exact ho

lemma commit (h : DeliveredLive s) (c : Commit D s) (hl : FlightLive s) :
    DeliveredLive c.after := by
  cases c with
  | begun c => exact h.begin_ c hl
  | orphaned c => exact h.frame rfl (Nat.le_succ _) fun _ _ ho => ho
  | completed | failed => exact h.frame rfl le_rfl fun _ _ ho => erased ho
  | dispositioned c => exact h.frame c.deliveries_after le_rfl fun _ _ ho => ho
  | closed c =>
    refine h.frame rfl le_rfl ?_
    intro id o ho
    rcases ho with ho | ho
    · exact .inl (get?_filter.mp ho).1
    · change c.after.cancelled.get? id = some o at ho
      rw [FlightLive.get?_cancelled, Option.or_eq_some_iff] at ho
      rcases ho with hnew | ⟨-, hold⟩
      · exact .inl (get?_filter.mp hnew).1
      · exact .inr hold
  | _ => exact h.frame rfl le_rfl fun _ _ ho => ho

end DeliveredLive

lemma Reached.delivered (h : Reached D s) : DeliveredLive s := by
  induction h with
  | created _ => exact ⟨nodup_nil, by simp [Instance.deliveries, Instance.initial,
      Dict.values, Dict.empty], by simp [Instance.deliveries, Instance.initial, Dict.values,
      Dict.empty]⟩
  | commit hs c _ ih => exact ih.commit c hs.live.flight
  | reordered _ _ _ ih => exact ⟨ih.distinct, ih.below, ih.begun⟩

lemma Reached.deliveries_source (h : Reached D s) {r : ExternalEventDelivered}
    (hr : r ∈ s.deliveries) : D.net.isSource r.source = true := by
  obtain ⟨identity, hget⟩ := Instance.mem_deliveries.mp hr
  exact (h.live.accepted.source identity _ hget).2

end Petrus.Impetus
