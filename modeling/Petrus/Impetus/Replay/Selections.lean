import Petrus.Impetus.Selection
import Petrus.Impetus.Replay.Fidelity

/-!
# Selections along a run

The records of a reached instance pair each selection with at most one begin of the
same transition, and only a scheduled begin adds a chosen transition.
-/

namespace Petrus.Impetus

open Lib Motus List

variable {D : Definition} {s t : Instance} {records batch : List Record} {n : Nat}

lemma Reached.occurrence_lt (h : Reached D s) :
    ∀ r ∈ s.records, ∀ id ∈ r.occurrence?, id < s.nextOccurrence := by
  induction h with
  | created _ =>
    intro r hr id hid
    rw [Instance.records, Instance.initial, flatten_singleton] at hr
    rcases mem_initialRecords hr with rfl | ⟨_, -, rfl⟩ | ⟨_, -, rfl⟩ <;> cases hid
  | reordered _ _ _ ih => exact ih
  | @commit s h c _ ih =>
    intro r hr id hid
    rw [c.after_records] at hr
    rcases mem_append.mp hr with hr | hr
    · have hlt := ih r hr id hid
      exact Nat.lt_of_lt_of_le hlt c.nextOccurrence_le
    · by_cases hnext : c.after.nextOccurrence = s.nextOccurrence
      · rw [hnext]
        exact c.batch_occurrence h.live.flight hnext r hr id hid
      · cases c with
        | begun c =>
          rw [c.batch_occurrence r hr] at hid
          cases hid
          exact Nat.lt_succ_self _
        | orphaned c =>
          obtain rfl := mem_singleton.mp hr
          cases hid
          exact Nat.lt_succ_self _
        | _ => exact absurd rfl hnext

lemma Commit.batch_unselected (c : Commit D s)
    (hnext : c.after.nextOccurrence = s.nextOccurrence) :
    ∀ r ∈ c.batch, r.selection? = none ∧ r.begin? = none := by
  intro r hr
  cases c with
  | begun c => exact absurd hnext (by simp [Commit.after, Begun.after])
  | orphaned c => exact absurd hnext (by simp [Commit.after, Orphaned.after])
  | _ => cases Commit.batch_appends _ r hr <;> exact ⟨rfl, rfl⟩

lemma filterMap_selection_nil (h : ∀ r ∈ records, r.selection? = none ∧ r.begin? = none) :
    records.filterMap Record.selection? = [] ∧ records.filterMap Record.begin? = [] :=
  ⟨filterMap_eq_nil_iff.mpr fun r hr => (h r hr).1,
    filterMap_eq_nil_iff.mpr fun r hr => (h r hr).2⟩

namespace Begun

lemma tail_unselected (c : Begun D s) : ∀ r ∈ c.tail, r.selection? = none ∧ r.begin? = none := by
  intro r hr
  rcases c.mem_tail hr with ⟨_, _, rfl⟩ | ⟨_, _, rfl⟩ | ⟨_, -, rfl⟩ <;> exact ⟨rfl, rfl⟩

lemma batch_begins (c : Begun D s) : c.batch.filterMap Record.begin? = [c.boundary] := by
  have hinitiation : c.initiation.begin? = none := by
    unfold initiation
    cases c.identity <;> rfl
  have hboundary : (Record.firingBegun c.boundary).begin? = some c.boundary := rfl
  rw [c.batch_eq, filterMap_cons_none hinitiation, filterMap_cons_some hboundary,
    (filterMap_selection_nil c.tail_unselected).2]

lemma batch_selections (c : Begun D s) : c.batch.filterMap Record.selection? =
    if c.identity = none then [⟨c.binding.transition, s.nextOccurrence, c.instant⟩] else [] := by
  have hrest : (Record.firingBegun c.boundary :: c.tail).filterMap Record.selection? = [] := by
    rw [filterMap_cons_none rfl, (filterMap_selection_nil c.tail_unselected).1]
  rw [c.batch_eq, ← singleton_append, filterMap_append, hrest, append_nil]
  unfold initiation
  cases c.identity <;> rfl

end Begun

/-! ## Pairing -/

lemma mem_selection_occurrence {r : CandidateSelected}
    (h : r ∈ records.filterMap Record.selection?) :
    ∃ record ∈ records, record.occurrence? = some r.occurrence := by
  obtain ⟨record, hrecord, hr⟩ := mem_filterMap.mp h
  cases record <;> cases hr
  exact ⟨_, hrecord, rfl⟩

lemma mem_begin_occurrence {b : FiringBegun} (h : b ∈ records.filterMap Record.begin?) :
    ∃ record ∈ records, record.occurrence? = some b.occurrence := by
  obtain ⟨record, hrecord, hb⟩ := mem_filterMap.mp h
  cases record <;> cases hb
  exact ⟨_, hrecord, rfl⟩

lemma Paired.append (h : Paired records) (hlt : ∀ r ∈ records, ∀ id ∈ r.occurrence?, id < n)
    (hselected : ∀ r ∈ batch.filterMap Record.selection?, r.occurrence = n)
    (hbegun : ∀ b ∈ batch.filterMap Record.begin?, b.occurrence = n) (hbatch : Paired batch) :
    Paired (records ++ batch) where
  selected := by
    rw [filterMap_append, map_append, nodup_append]
    refine ⟨h.selected, hbatch.selected, ?_⟩
    intro a ha b hb heq
    obtain ⟨r, hr, rfl⟩ := mem_map.mp ha
    obtain ⟨r', hr', rfl⟩ := mem_map.mp hb
    obtain ⟨record, hrecord, hid⟩ := mem_selection_occurrence hr
    have hold := hlt record hrecord _ hid
    rw [heq, hselected r' hr'] at hold
    exact absurd hold (Nat.lt_irrefl n)
  begun := by
    rw [filterMap_append, map_append, nodup_append]
    refine ⟨h.begun, hbatch.begun, ?_⟩
    intro a ha b hb heq
    obtain ⟨r, hr, rfl⟩ := mem_map.mp ha
    obtain ⟨r', hr', rfl⟩ := mem_map.mp hb
    obtain ⟨record, hrecord, hid⟩ := mem_begin_occurrence hr
    have hold := hlt record hrecord _ hid
    rw [heq, hbegun r' hr'] at hold
    exact absurd hold (Nat.lt_irrefl n)
  agree := by
    intro r hr b hb heq
    rw [filterMap_append, mem_append] at hr hb
    rcases hr with hr | hr <;> rcases hb with hb | hb
    · exact h.agree r hr b hb heq
    · obtain ⟨record, hrecord, hid⟩ := mem_selection_occurrence hr
      have hold := hlt record hrecord _ hid
      rw [← heq, hbegun b hb] at hold
      exact absurd hold (Nat.lt_irrefl n)
    · obtain ⟨record, hrecord, hid⟩ := mem_begin_occurrence hb
      have hold := hlt record hrecord _ hid
      rw [heq, hselected r hr] at hold
      exact absurd hold (Nat.lt_irrefl n)
    · exact hbatch.agree r hr b hb heq

lemma Paired.of_nil (h : records.filterMap Record.begin? = [])
    (hs : ((records.filterMap Record.selection?).map CandidateSelected.occurrence).Nodup) :
    Paired records where
  selected := hs
  begun := by rw [h]; exact nodup_nil
  agree r _ b hb := by
    rw [h] at hb
    cases hb

/-- A batch selects and begins at most the next occurrence. -/
structure Mints (n : Nat) (batch : List Record) : Prop where
  selected : ∀ r ∈ batch.filterMap Record.selection?, r.occurrence = n
  begun : ∀ b ∈ batch.filterMap Record.begin?, b.occurrence = n
  paired : Paired batch

lemma Commit.mints (c : Commit D s) : Mints s.nextOccurrence c.batch := by
  by_cases hnext : c.after.nextOccurrence = s.nextOccurrence
  · obtain ⟨hselected, hbegun⟩ := filterMap_selection_nil (c.batch_unselected hnext)
    refine ⟨?_, ?_, Paired.of_nil hbegun (by rw [hselected]; exact nodup_nil)⟩
    · rw [hselected]
      exact fun r hr => by cases hr
    · rw [hbegun]
      exact fun r hr => by cases hr
  · cases c with
    | begun c =>
      have hselections := c.batch_selections
      have hbegins := c.batch_begins
      refine ⟨?_, ?_, ?_, ?_, ?_⟩
      · rw [Commit.batch, hselections]
        split_ifs <;> simp
      · rw [Commit.batch, hbegins]
        simp [Begun.boundary]
      · rw [Commit.batch, hselections]
        split_ifs <;> simp
      · rw [Commit.batch, hbegins]
        simp
      · rw [Commit.batch, hselections, hbegins]
        split_ifs <;> simp [Begun.boundary]
    | orphaned c =>
      refine ⟨?_, ?_, Paired.of_nil rfl ?_⟩
      · simp [Commit.batch, Orphaned.batch, selectedRecord, Record.selection?]
      · simp [Commit.batch, Orphaned.batch, selectedRecord, Record.begin?]
      · exact nodup_singleton _
    | _ => exact absurd rfl hnext

lemma Reached.paired (h : Reached D s) : Paired s.records := by
  induction h with
  | @created m instanceId instant _ =>
    have hnone : ∀ r ∈ (Instance.initial D m instanceId instant).records,
        r.selection? = none ∧ r.begin? = none := by
      intro r hr
      rw [Instance.records, Instance.initial, flatten_singleton] at hr
      rcases mem_initialRecords hr with rfl | ⟨_, -, rfl⟩ | ⟨_, -, rfl⟩ <;> exact ⟨rfl, rfl⟩
    obtain ⟨hselected, hbegun⟩ := filterMap_selection_nil hnone
    exact Paired.of_nil hbegun (by rw [hselected]; exact nodup_nil)
  | reordered _ _ _ ih => exact ih
  | @commit s h c _ ih =>
    rw [c.after_records]
    exact ih.append h.occurrence_lt c.mints.selected c.mints.begun c.mints.paired

/-! ## The chosen transitions -/

lemma beginsOf_append_of_ne {m : Nat}
    (hbegun : ∀ b ∈ batch.filterMap Record.begin?, b.occurrence = n) (hne : m ≠ n) :
    beginsOf (records ++ batch) m = beginsOf records m := by
  unfold beginsOf
  rw [filterMap_append, filter_append]
  have hnone : (batch.filterMap Record.begin?).filter (fun b => b.occurrence = m) = [] := by
    rw [filter_eq_nil_iff]
    intro b hb
    rw [hbegun b hb]
    simpa using hne.symm
  rw [hnone, append_nil]

lemma beginsOf_fresh (hlt : ∀ r ∈ records, ∀ id ∈ r.occurrence?, id < n) :
    beginsOf records n = [] := by
  unfold beginsOf
  rw [filter_eq_nil_iff]
  intro b hb
  obtain ⟨record, hrecord, hid⟩ := mem_begin_occurrence hb
  have hold := hlt record hrecord _ hid
  simpa using Nat.ne_of_lt hold

lemma chosen_append (hlt : ∀ r ∈ records, ∀ id ∈ r.occurrence?, id < n) (hmints : Mints n batch) :
    chosen (records ++ batch) = chosen records ++ chosen batch := by
  unfold chosen
  rw [filterMap_append, filter_append, map_append]
  congr 2
  · apply filter_congr
    intro r hr
    obtain ⟨record, hrecord, hid⟩ := mem_selection_occurrence hr
    have hne : r.occurrence ≠ n := Nat.ne_of_lt (hlt record hrecord _ hid)
    rw [beginsOf_append_of_ne hmints.begun hne]
  · apply filter_congr
    intro r hr
    rw [hmints.selected r hr]
    have hold := beginsOf_fresh hlt
    unfold beginsOf at hold ⊢
    rw [filterMap_append, filter_append, hold, nil_append]

def Commit.chooses : Commit D s → List NetPath
  | .begun c => if c.identity = none then [c.binding.transition] else []
  | _ => []

lemma Commit.chosen_batch (c : Commit D s) : chosen c.batch = c.chooses := by
  by_cases hnext : c.after.nextOccurrence = s.nextOccurrence
  · obtain ⟨hselected, -⟩ := filterMap_selection_nil (c.batch_unselected hnext)
    unfold chosen
    rw [hselected]
    cases c with
    | begun c => exact absurd hnext (by simp [Commit.after, Begun.after])
    | _ => rfl
  · cases c with
    | begun c =>
      unfold chosen
      rw [Commit.batch, c.batch_selections]
      unfold beginsOf
      rw [c.batch_begins]
      unfold Commit.chooses
      split_ifs with hidentity
      · simp [Begun.boundary, hidentity]
      · simp [hidentity]
    | orphaned c =>
      simp [chosen, Commit.batch, Orphaned.batch, selectedRecord, beginsOf, Commit.chooses,
        Record.selection?, Record.begin?]
    | _ => exact absurd rfl hnext

lemma Commit.chosen_after (h : Reached D s) (c : Commit D s) :
    chosen c.after.records = chosen s.records ++ c.chooses := by
  rw [c.after_records, chosen_append h.occurrence_lt c.mints, c.chosen_batch]

end Petrus.Impetus
