import Petrus.Impetus.Replay.Selections

/-!
# Requests along a run

The requests of a reached history are, in order, those of its activity occurrences:
one record for each, with the invocation the occurrence carries. An occurrence in
flight or cancelled that carries an invocation is one of them.
-/

namespace Petrus.Impetus

open Lib Motus List Dict

variable {D : Definition} {s t : Instance} {id : Nat} {o : FiringOccurrence}

/-- The request an occurrence was begun with. -/
structure Requests (r : ActivityRequested) (e : Nat × FiringOccurrence) : Prop where
  occurrence : r.occurrence = e.1
  invocation : ∃ i, r.invocation = .ok i ∧ e.2.invocation = some i

lemma Begun.requestFacts (c : Begun D s) : c.batch.filterMap Record.requestFact? =
    c.invocation.toList.map fun i =>
      requestRecord c.binding.transition i s.nextOccurrence c.scope c.instant := by
  have hinitiation : c.initiation.requestFact? = none := by
    unfold initiation
    cases c.identity <;> rfl
  rw [c.batch_eq, filterMap_cons_none hinitiation, filterMap_cons_none rfl, tail,
    filterMap_append, filterMap_append, c.filterMap_consumes fun _ => rfl,
    c.filterMap_reads fun _ => rfl, nil_append, nil_append, requests, filterMap_map]
  cases c.invocation <;> rfl

lemma Commit.batch_unrequested (c : Commit D s) (h : ∀ k, c ≠ .begun k) :
    c.batch.filterMap Record.requestFact? = [] := by
  rw [filterMap_eq_nil_iff]
  intro r hr
  cases c with
  | begun c => exact absurd rfl (h c)
  | _ => cases Commit.batch_appends _ r hr <;> rfl

lemma Requests.begun (c : Begun D s) : List.Forall₂ Requests
    (c.batch.filterMap Record.requestFact?)
    (c.invocation.toList.map fun _ => (s.nextOccurrence, c.occurrence)) := by
  rw [c.requestFacts]
  cases hinvocation : c.invocation with
  | none => exact .nil
  | some i =>
    refine .cons ⟨rfl, _, Begun.invocation_requestRecord .., ?_⟩ .nil
    rw [Begun.occurrence, hinvocation]
    rfl

lemma Requests.keys {rs : List ActivityRequested} {es : List (Nat × FiringOccurrence)}
    (h : List.Forall₂ Requests rs es) :
    rs.map ActivityRequested.occurrence = es.map Prod.fst := by
  induction h with
  | nil => rfl
  | cons hr _ ih => rw [map_cons, map_cons, hr.occurrence, ih]

lemma Requests.of_mem {rs : List ActivityRequested} {es : List (Nat × FiringOccurrence)}
    (h : List.Forall₂ Requests rs es) {e : Nat × FiringOccurrence} (he : e ∈ es) :
    ∃ r ∈ rs, Requests r e := by
  induction h with
  | nil => cases he
  | @cons r e' rs es hr _ ih =>
    rcases mem_cons.mp he with rfl | he
    · exact ⟨r, mem_cons_self, hr⟩
    · obtain ⟨r', hr', hrequests⟩ := ih he
      exact ⟨r', mem_cons_of_mem _ hr', hrequests⟩

lemma mem_requestFacts {records : List Record} {r : ActivityRequested} :
    r ∈ records.filterMap Record.requestFact? ↔ .activityRequested r ∈ records := by
  rw [mem_filterMap]
  constructor
  · intro h
    obtain ⟨record, hmem, hfact⟩ := h
    cases record <;> cases hfact
    exact hmem
  · intro h
    exact ⟨_, h, rfl⟩

lemma Begun.activityOccurrences_entries (c : Begun D s)
    (habsent : s.activityOccurrences.get? s.nextOccurrence = none) :
    c.after.activityOccurrences.entries = s.activityOccurrences.entries ++
      c.invocation.toList.map fun _ => (s.nextOccurrence, c.occurrence) := by
  unfold after
  dsimp only
  cases c.invocation with
  | none => simp
  | some i =>
    rw [if_neg (by simp), entries_set_of_absent habsent]
    rfl

lemma Reached.requests (h : Reached D s) : List.Forall₂ Requests
    (s.records.filterMap Record.requestFact?) s.activityOccurrences.entries := by
  induction h with
  | @created m instanceId instant _ =>
    have hnone : (Instance.initial D m instanceId instant).records.filterMap
        Record.requestFact? = [] := by
      rw [filterMap_eq_nil_iff]
      intro r hr
      rw [Instance.records, Instance.initial, flatten_singleton] at hr
      rcases mem_initialRecords hr with rfl | ⟨_, -, rfl⟩ | ⟨_, -, rfl⟩ <;> rfl
    rw [hnone]
    exact .nil
  | reordered _ _ _ ih => exact ih
  | @commit s h c _ ih =>
    rw [c.after_records, filterMap_append]
    by_cases hbegun : ∃ k, c = .begun k
    · obtain ⟨c, rfl⟩ := hbegun
      have habsent : s.activityOccurrences.get? s.nextOccurrence = none := by
        rw [get?_eq_none, Dict.keys, ← Requests.keys ih]
        intro hmem
        obtain ⟨r, hr, hnext⟩ := mem_map.mp hmem
        have hlt := h.occurrence_lt _ (mem_requestFacts.mp hr) _ rfl
        omega
      rw [show (Commit.begun c).after = c.after from rfl, c.activityOccurrences_entries habsent]
      exact rel_append ih (Requests.begun c)
    · have hsame : c.after.activityOccurrences = s.activityOccurrences := by
        cases c with
        | begun c => exact absurd ⟨c, rfl⟩ hbegun
        | _ => rfl
      rw [c.batch_unrequested fun k hk => hbegun ⟨k, hk⟩, append_nil, hsame]
      exact ih

lemma Reached.request (h : Reached D s) (ho : s.activityOccurrences.get? id = some o) :
    ∃ r i, .activityRequested r ∈ s.records ∧ r.occurrence = id ∧ r.invocation = .ok i ∧
      o.invocation = some i ∧
      ∀ r', .activityRequested r' ∈ s.records → r'.occurrence = id → r' = r := by
  obtain ⟨r, hr, hoccurrence, i, hinvocation, hsome⟩ :=
    Requests.of_mem h.requests (get?_eq_some.mp ho)
  refine ⟨r, i, mem_requestFacts.mp hr, hoccurrence, hinvocation, hsome, ?_⟩
  intro r' hr' hoccurrence'
  have hnodup : ((s.records.filterMap Record.requestFact?).map
      ActivityRequested.occurrence).Nodup := by
    rw [Requests.keys h.requests]
    exact s.activityOccurrences.nodup
  exact inj_on_of_nodup_map hnodup (mem_requestFacts.mpr hr') hr
    (hoccurrence'.trans hoccurrence.symm)

/-! ## In flight or cancelled -/

def Instance.holds (s : Instance) (id : Nat) (o : FiringOccurrence) : Prop :=
  s.inFlight.get? id = some o ∨ s.cancelled.get? id = some o

lemma Commit.holds_after (c : Commit D s) (h : c.after.holds id o) : s.holds id o ∨
      ∃ k, c = .begun k ∧ id = s.nextOccurrence ∧ o = k.occurrence := by
  unfold Instance.holds at h ⊢
  have herase : ∀ k, (s.inFlight.erase k).get? id = some o → s.inFlight.get? id = some o := by
    intro k hget
    rw [get?_erase] at hget
    split_ifs at hget
    exact hget
  cases c with
  | begun c =>
    rcases h with h | h
    · have hget : (s.inFlight.set s.nextOccurrence c.occurrence).get? id = some o := h
      rw [get?_set] at hget
      split_ifs at hget with hid
      · cases hget
        exact .inr ⟨c, rfl, hid.symm, rfl⟩
      · exact .inl (.inl hget)
    · exact .inl (.inr h)
  | completed c | failed c => exact .inl (h.imp_left (herase _))
  | closed c =>
    rcases h with h | h
    · exact .inl (.inl (get?_filter.mp h).1)
    · have hget : c.after.cancelled.get? id = some o := h
      rw [FlightLive.get?_cancelled, Option.or_eq_some_iff] at hget
      rcases hget with hnew | ⟨-, hold⟩
      · exact .inl (.inl (get?_filter.mp hnew).1)
      · exact .inl (.inr hold)
  | _ => exact .inl h

lemma Reached.activity (h : Reached D s) (ho : s.holds id o) (himpure : o.invocation ≠ none) :
    s.activityOccurrences.get? id = some o := by
  induction h with
  | created => rcases ho with ho | ho <;> cases ho
  | reordered _ _ _ ih => exact ih ho
  | @commit s h c _ ih =>
    rcases c.holds_after ho with hold | ⟨k, rfl, rfl, rfl⟩
    · have hget := ih hold
      cases c with
      | begun c =>
        have hlt : id ≠ s.nextOccurrence := by
          rcases hold with hold | hold
          · exact Nat.ne_of_lt (h.live.flight.flying id o hold).2.2
          · exact Nat.ne_of_lt (h.live.flight.cancelled id o hold).2.1
        change (if c.invocation = none then _ else _ : Dict Nat FiringOccurrence).get? id = some o
        split_ifs
        · exact hget
        · rw [get?_set_ne _ _ hlt.symm]
          exact hget
      | _ => exact hget
    · have hsome : k.invocation ≠ none := by
        intro hnone
        apply himpure
        rw [Begun.occurrence, hnone]
        rfl
      change (if k.invocation = none then _ else _ : Dict Nat FiringOccurrence).get? _ = _
      rw [if_neg hsome, get?_set_self]

lemma Reached.held_pos (h : Reached D s) (ho : s.holds id o) :
    1 ≤ id ∧ o.id = id := by
  induction h with
  | created => rcases ho with ho | ho <;> cases ho
  | reordered _ _ _ ih => exact ih ho
  | @commit s h c _ ih =>
    rcases c.holds_after ho with hold | ⟨k, -, rfl, rfl⟩
    · exact ih hold
    · exact ⟨h.live.flight.next_pos, rfl⟩

/-! ## Retired occurrences -/

/-- An id that is spent, and not in flight without a frozen outcome. -/
structure Instance.Retired (s : Instance) (id : Nat) : Prop where
  spent : id < s.nextOccurrence
  settled : ∀ o, s.inFlight.get? id = some o → ∃ outcome, s.frozenResults.get? id = some outcome

lemma Instance.Retired.commit (h : s.Retired id) (c : Commit D s) :
    c.after.Retired id := by
  refine ⟨Nat.lt_of_lt_of_le h.spent c.nextOccurrence_le, ?_⟩
  intro o ho
  have hends : ∀ k, (s.inFlight.erase k).get? id = some o →
      ∃ outcome, (s.frozenResults.erase k).get? id = some outcome := by
    intro k hget
    rw [get?_erase] at hget ⊢
    split_ifs at hget with hid
    rw [if_neg hid]
    exact h.settled o hget
  cases c with
  | begun c =>
    have hget : (s.inFlight.set s.nextOccurrence c.occurrence).get? id = some o := ho
    rw [get?_set_ne _ _ (Nat.ne_of_gt h.spent)] at hget
    exact h.settled o hget
  | completed c | failed c => exact hends _ ho
  | frozen c =>
    change ∃ outcome, (s.frozenResults.set c.occurrence.id c.outcome).get? id = some outcome
    rw [get?_set]
    split_ifs
    · exact ⟨_, rfl⟩
    · exact h.settled o ho
  | closed c => exact h.settled o (get?_filter.mp ho).1
  | _ => exact h.settled o ho

end Petrus.Impetus
