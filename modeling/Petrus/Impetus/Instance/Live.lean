import Petrus.Impetus.Instance.Commit

/-!
# Invariants of the live state

What holds of the live state after every commit, in groups that each read a few of
its parts: the queues, the lifecycle scopes, the occurrences with their outcome
tables, the armed registrations and the accepted identities.
-/

namespace Petrus.Impetus

open Lib Motus List Dict

variable {D : Definition} {s : Instance}

/-! ## Queues -/

structure QueueLive (s : Instance) : Prop where
  distinct : s.queues.Distinct
  below : s.queues.Below s.nextEntry
  positive : ∀ e ∈ s.queues.all, 1 ≤ e.identity
  next_pos : 1 ≤ s.nextEntry
  timed : ∀ e ∈ s.queues.all, e.instant ≤ s.watermark
  sorted : ∀ p, (s.queues.at_ p).Pairwise fun a b => a.instant ≤ b.instant

namespace QueueLive

lemma mem_rest (h : QueueLive s) (c : Begun D s) {e : Entry} (he : e ∈ c.rest.all) :
    e ∈ s.queues.all :=
  (consumedEntries_perm h.distinct c.consumed_ok).1.mem_iff.mpr (mem_append_right _ he)

lemma begun (h : QueueLive s) (c : Begun D s) : QueueLive c.after where
  distinct := (consumedEntries_perm h.distinct c.consumed_ok).2
  below e he := h.below e (h.mem_rest c he)
  positive e he := h.positive e (h.mem_rest c he)
  next_pos := h.next_pos
  timed e he := (h.timed e (h.mem_rest c he)).trans c.instant_le
  sorted p := (h.sorted p).sublist (consumedEntries_sublist h.distinct c.consumed_ok p)

lemma mem_deposited (c : Completed D s) {e : Entry} (he : e ∈ c.after.queues.all) :
    e ∈ s.queues.all ∨ e ∈ mintedAll c.occurrence.scope c.instant s.nextEntry c.effects :=
  mem_append.mp (all_depositAll.mem_iff.mp he)

lemma completed (h : QueueLive s) (c : Completed D s) : QueueLive c.after where
  distinct := h.distinct.depositAll h.below
  below := h.below.depositAll
  positive e he := by
    rcases mem_deposited c he with hold | hnew
    · exact h.positive e hold
    · have hid := mem_map_of_mem (f := Entry.identity) hnew
      rw [map_identity_mintedAll, mem_range'_1] at hid
      have hpos := h.next_pos
      omega
  next_pos := Nat.le_add_right_of_le h.next_pos
  timed e he := by
    rcases mem_deposited c he with hold | hnew
    · exact (h.timed e hold).trans c.instant_le
    · exact (mem_mintedAll hnew).1.le
  sorted p := by
    obtain ⟨new, hat, hnew, -⟩ := at_depositAll c.occurrence.scope c.instant s.queues
      s.nextEntry c.effects p
    change ((depositAll ..).at_ p).Pairwise _
    rw [hat, pairwise_append]
    refine ⟨h.sorted p, ?_, ?_⟩
    · apply pairwise_of_forall_mem_list
      intro a ha b hb
      rw [(hnew a ha).1, (hnew b hb).1]
    · intro a ha b hb
      have hle := h.timed a (Queues.mem_all.mpr ⟨p, ha⟩)
      rw [(hnew b hb).1]
      exact hle.trans c.instant_le

lemma closed (h : QueueLive s) (c : Closed s) : QueueLive c.after := by
  have hmem : ∀ e ∈ c.after.queues.all, e ∈ s.queues.all := fun e he => (mem_withoutScope.mp he).1
  refine ⟨?_, fun e he => h.below e (hmem e he), fun e he => h.positive e (hmem e he), h.next_pos,
    fun e he => (h.timed e (hmem e he)).trans c.instant_le, fun p => (h.sorted p).sublist ?_⟩
  · change ((withoutScope s.queues c.scope).all.map Entry.identity).Nodup
    rw [all_withoutScope]
    exact h.distinct.sublist (filter_sublist.map _)
  · change ((withoutScope s.queues c.scope).at_ p).Sublist _
    rw [at_withoutScope]
    exact filter_sublist

lemma frame (h : QueueLive s) {s' : Instance} (hq : s'.queues = s.queues)
    (hn : s'.nextEntry = s.nextEntry) (hw : s.watermark ≤ s'.watermark) : QueueLive s' := by
  obtain ⟨hd, hb, hp, hpos, ht, hs⟩ := h
  constructor
  · rwa [hq]
  · rwa [hq, hn]
  · rwa [hq]
  · rwa [hn]
  · rw [hq]
    intro e he
    exact (ht e he).trans hw
  · rwa [hq]

lemma commit (h : QueueLive s) (c : Commit D s) : QueueLive c.after := by
  have hw : s.watermark ≤ c.after.watermark := by
    rw [c.after_watermark]
    exact c.instant_le
  cases c with
  | begun c => exact h.begun c
  | completed c => exact h.completed c
  | closed c => exact h.closed c
  | _ => exact h.frame rfl rfl hw

end QueueLive

/-! ## Scopes -/

structure ScopeLive (s : Instance) : Prop where
  active : ∀ name scope, s.activeScopes.get? name = some scope →
    scope.name = name ∧ s.scopeGenerations.get? name = some scope.generation
  entries : ∀ e ∈ s.queues.all, ∀ scope ∈ e.scope, s.activeScopes.get? scope.name = some scope
  flights : ∀ id o, s.inFlight.get? id = some o → ∀ scope ∈ o.scope,
    s.activeScopes.get? scope.name = some scope

namespace ScopeLive

lemma begun (h : ScopeLive s) (hq : QueueLive s) (c : Begun D s) : ScopeLive c.after where
  active := h.active
  entries e he := h.entries e (hq.mem_rest c he)
  flights id o ho := by
    change (s.inFlight.set s.nextOccurrence c.occurrence).get? id = some o at ho
    rw [get?_set] at ho
    split_ifs at ho with hid
    · cases ho
      exact c.scope_active
    · exact h.flights id o ho

lemma flights_erase (h : ScopeLive s) (k id : Nat) (o : FiringOccurrence)
    (ho : (s.inFlight.erase k).get? id = some o) :
    ∀ scope ∈ o.scope, s.activeScopes.get? scope.name = some scope := by
  rw [get?_erase] at ho
  split_ifs at ho
  exact h.flights id o ho

lemma completed (h : ScopeLive s) (c : Completed D s) : ScopeLive c.after where
  active := h.active
  entries e he := by
    rcases QueueLive.mem_deposited c he with hold | hnew
    · exact h.entries e hold
    · rw [(mem_mintedAll hnew).2]
      exact h.flights c.occurrence.id c.occurrence c.inFlight
  flights id o ho := h.flights_erase c.occurrence.id id o ho

lemma failed (h : ScopeLive s) (c : Failed D s) : ScopeLive c.after where
  active := h.active
  entries := h.entries
  flights id o ho := h.flights_erase c.occurrence.id id o ho

lemma opened_active (c : Opened s) {scope : LifecycleScope}
    (h : s.activeScopes.get? scope.name = some scope) :
    c.after.activeScopes.get? scope.name = some scope := by
  change (s.activeScopes.set c.scope.name c.scope).get? scope.name = some scope
  rw [get?_set_ne _ _ _, h]
  intro heq
  rw [← heq, c.inactive] at h
  cases h

lemma opened (h : ScopeLive s) (c : Opened s) : ScopeLive c.after where
  active name scope hname := by
    change (s.activeScopes.set c.scope.name c.scope).get? name = some scope at hname
    change scope.name = name ∧
      (s.scopeGenerations.set c.scope.name c.scope.generation).get? name = some scope.generation
    rw [get?_set] at hname ⊢
    split_ifs at hname ⊢ with hn
    · cases hname
      exact ⟨hn, rfl⟩
    · exact h.active name scope hname
  entries e he scope hscope := opened_active c (h.entries e he scope hscope)
  flights id o ho scope hscope := opened_active c (h.flights id o ho scope hscope)

lemma closed_active (c : Closed s) {scope : LifecycleScope}
    (h : s.activeScopes.get? scope.name = some scope) (hne : scope ≠ c.scope) :
    c.after.activeScopes.get? scope.name = some scope := by
  have hname : c.scope.name ≠ scope.name := by
    intro heq
    have hactive := c.active
    rw [heq, h] at hactive
    exact hne (Option.some.inj hactive)
  change (if c.reset then (s.activeScopes.erase c.scope.name).set c.scope.name c.scope.next
    else s.activeScopes.erase c.scope.name).get? scope.name = some scope
  split_ifs
  · rw [get?_set_ne _ _ hname, get?_erase_ne _ hname, h]
  · rw [get?_erase_ne _ hname, h]

lemma closed (h : ScopeLive s) (c : Closed s) : ScopeLive c.after where
  active name scope hname := by
    change (if c.reset then (s.activeScopes.erase c.scope.name).set c.scope.name c.scope.next
      else s.activeScopes.erase c.scope.name).get? name = some scope at hname
    change scope.name = name ∧
      (if c.reset then s.scopeGenerations.set c.scope.name c.scope.next.generation
        else s.scopeGenerations).get? name = some scope.generation
    split_ifs at hname ⊢
    · rw [get?_set] at hname ⊢
      split_ifs at hname ⊢ with hn
      · cases hname
        exact ⟨hn, rfl⟩
      · rw [get?_erase_ne _ hn] at hname
        exact h.active name scope hname
    · rw [get?_erase] at hname
      split_ifs at hname
      exact h.active name scope hname
  entries e he scope hscope := by
    obtain ⟨hmem, hne⟩ := mem_withoutScope.mp he
    apply closed_active c (h.entries e hmem scope hscope)
    rintro rfl
    exact hne hscope
  flights id o ho scope hscope := by
    obtain ⟨hmem, hne⟩ := get?_filter.mp ho
    apply closed_active c (h.flights id o hmem scope hscope)
    rintro rfl
    simp only [decide_eq_true_eq] at hne
    exact hne hscope

lemma commit (h : ScopeLive s) (hq : QueueLive s) (c : Commit D s) : ScopeLive c.after := by
  cases c with
  | begun c => exact h.begun hq c
  | completed c => exact h.completed c
  | failed c => exact h.failed c
  | opened c => exact h.opened c
  | closed c => exact h.closed c
  | _ => exact ⟨h.active, h.entries, h.flights⟩

end ScopeLive

/-! ## Occurrences and outcomes -/

/-- Where an occurrence id can stand: in flight, cancelled or ended, never in two of them. -/
structure FlightLive (s : Instance) : Prop where
  next_pos : 1 ≤ s.nextOccurrence
  flying : ∀ id o, s.inFlight.get? id = some o → o.id = id ∧ 1 ≤ id ∧ id < s.nextOccurrence
  frozen : ∀ id outcome, s.frozenResults.get? id = some outcome →
    ∃ o, s.inFlight.get? id = some o ∧ o.invocation ≠ none
  cancelled : ∀ id o, s.cancelled.get? id = some o →
    o.id = id ∧ id < s.nextOccurrence ∧ s.inFlight.get? id = none
  terminal : ∀ id outcome, s.terminalActivity.get? id = some outcome →
    id < s.nextOccurrence ∧ s.inFlight.get? id = none ∧ s.cancelled.get? id = none
  quarantined : ∀ id outcome, s.quarantinedActivity.get? id = some outcome →
    ∃ o, s.cancelled.get? id = some o ∧ o.invocation ≠ none

namespace FlightLive

lemma absent_next (h : FlightLive s) : s.inFlight.get? s.nextOccurrence = none := by
  cases hget : s.inFlight.get? s.nextOccurrence with
  | none => rfl
  | some o =>
    have hlt := (h.flying _ o hget).2.2
    omega

lemma begun (h : FlightLive s) (c : Begun D s) : FlightLive c.after := by
  have hget : ∀ id, c.after.inFlight.get? id =
      if s.nextOccurrence = id then some c.occurrence else s.inFlight.get? id :=
    fun id => get?_set s.inFlight s.nextOccurrence id c.occurrence
  have hnext : c.after.nextOccurrence = s.nextOccurrence + 1 := rfl
  constructor
  · exact Nat.le_add_left _ _
  · intro id o ho
    rw [hget] at ho
    rw [hnext]
    split_ifs at ho with hid
    · cases ho
      have hpos := h.next_pos
      exact ⟨hid, by omega, by omega⟩
    · have hold := h.flying id o ho
      exact ⟨hold.1, hold.2.1, by omega⟩
  · intro id outcome hout
    obtain ⟨o, ho, himpure⟩ := h.frozen id outcome hout
    have hlt := (h.flying id o ho).2.2
    refine ⟨o, ?_, himpure⟩
    rw [hget, if_neg (by omega), ho]
  · intro id o ho
    obtain ⟨heq, hlt, hnone⟩ := h.cancelled id o ho
    refine ⟨heq, by omega, ?_⟩
    rw [hget, if_neg (by omega), hnone]
  · intro id outcome hout
    obtain ⟨hlt, hnone, hcancelled⟩ := h.terminal id outcome hout
    refine ⟨by omega, ?_, hcancelled⟩
    rw [hget, if_neg (by omega), hnone]
  · exact h.quarantined

lemma ended (h : FlightLive s) {o : FiringOccurrence} {s' : Instance}
    (ho : s.inFlight.get? o.id = some o) (hnext : s'.nextOccurrence = s.nextOccurrence)
    (hflight : s'.inFlight = s.inFlight.erase o.id)
    (hfrozen : s'.frozenResults = s.frozenResults.erase o.id)
    (hterminal : s'.terminalActivity = match s.frozenResults.get? o.id with
      | none => s.terminalActivity
      | some outcome => s.terminalActivity.set o.id outcome)
    (hcancelled : s'.cancelled = s.cancelled)
    (hquarantined : s'.quarantinedActivity = s.quarantinedActivity) : FlightLive s' := by
  have hget : ∀ id, s'.inFlight.get? id = if o.id = id then none else s.inFlight.get? id := by
    intro id
    rw [hflight, get?_erase]
  constructor
  · rw [hnext]
    exact h.next_pos
  · intro id o' ho'
    rw [hget] at ho'
    split_ifs at ho'
    rw [hnext]
    exact h.flying id o' ho'
  · intro id outcome hout
    rw [hfrozen, get?_erase] at hout
    split_ifs at hout with hid
    obtain ⟨o', ho', himpure⟩ := h.frozen id outcome hout
    exact ⟨o', by rw [hget, if_neg hid, ho'], himpure⟩
  · intro id o' ho'
    rw [hcancelled] at ho'
    obtain ⟨heq, hlt, hnone⟩ := h.cancelled id o' ho'
    refine ⟨heq, by rw [hnext]; exact hlt, ?_⟩
    rw [hget, hnone, ite_self]
  · intro id outcome hout
    have hold : o.id = id ∨ s.terminalActivity.get? id = some outcome := by
      rw [hterminal] at hout
      cases hf : s.frozenResults.get? o.id with
      | none =>
        rw [hf] at hout
        exact .inr hout
      | some first =>
        rw [hf] at hout
        simp only [get?_set] at hout
        split_ifs at hout with hid
        · exact .inl hid
        · exact .inr hout
    rw [hnext, hget, hcancelled]
    rcases hold with rfl | hold
    · refine ⟨(h.flying o.id o ho).2.2, if_pos rfl, ?_⟩
      cases hc : s.cancelled.get? o.id with
      | none => rfl
      | some o' =>
        have hnone := (h.cancelled o.id o' hc).2.2
        rw [ho] at hnone
        cases hnone
    · obtain ⟨hlt, hnone, hc⟩ := h.terminal id outcome hold
      exact ⟨hlt, by rw [hnone, ite_self], hc⟩
  · intro id outcome hout
    rw [hquarantined] at hout
    rw [hcancelled]
    exact h.quarantined id outcome hout

lemma froze (h : FlightLive s) (c : Frozen D s) : FlightLive c.after where
  next_pos := h.next_pos
  flying := h.flying
  frozen id outcome hout := by
    change (s.frozenResults.set c.occurrence.id c.outcome).get? id = some outcome at hout
    rw [get?_set] at hout
    split_ifs at hout with hid
    · subst hid
      exact ⟨c.occurrence, c.inFlight, c.impure⟩
    · exact h.frozen id outcome hout
  cancelled := h.cancelled
  terminal := h.terminal
  quarantined := h.quarantined

lemma quarantine (h : FlightLive s) (c : Quarantined D s) : FlightLive c.after where
  next_pos := h.next_pos
  flying := h.flying
  frozen := h.frozen
  cancelled := h.cancelled
  terminal := h.terminal
  quarantined id outcome hout := by
    change (s.quarantinedActivity.set c.occurrence.id c.outcome).get? id = some outcome at hout
    rw [get?_set] at hout
    split_ifs at hout with hid
    · subst hid
      exact ⟨c.occurrence, c.cancelled, c.impure⟩
    · exact h.quarantined id outcome hout

lemma get?_cancelled (c : Closed s) (id : Nat) : c.after.cancelled.get? id =
    ((s.inFlight.filter fun _ o => o.scope = some c.scope).get? id).or (s.cancelled.get? id) :=
  get?_addAll (s.inFlight.filter fun _ o => decide (o.scope = some c.scope)).nodup
    s.cancelled id

lemma scopeOccurrences_eq (h : FlightLive s) (scope : LifecycleScope) :
    scopeOccurrences s scope =
      (s.inFlight.entries.filter fun e => e.2.scope = some scope).map Prod.fst := by
  unfold scopeOccurrences Dict.values
  rw [filter_map, map_map]
  apply map_congr_left
  intro e he
  exact (h.flying e.1 e.2 (get?_eq_some.mpr (mem_filter.mp he).1)).1

lemma mem_scopeOccurrences (h : FlightLive s) (scope : LifecycleScope) {id : Nat} :
    id ∈ scopeOccurrences s scope ↔ ∃ o, s.inFlight.get? id = some o ∧ o.scope = some scope := by
  rw [h.scopeOccurrences_eq, mem_map]
  constructor
  · rintro ⟨e, he, rfl⟩
    rw [mem_filter, decide_eq_true_eq] at he
    exact ⟨e.2, get?_eq_some.mpr he.1, he.2⟩
  · rintro ⟨o, ho, hscope⟩
    exact ⟨(id, o), mem_filter.mpr ⟨get?_eq_some.mp ho, by simpa using hscope⟩, rfl⟩

lemma scopeOccurrences_nodup (h : FlightLive s) (scope : LifecycleScope) :
    (scopeOccurrences s scope).Nodup := by
  rw [h.scopeOccurrences_eq]
  exact s.inFlight.nodup.sublist (filter_sublist.map _)

lemma cancelled_of_inFlight (h : FlightLive s) {id : Nat} {o : FiringOccurrence}
    (ho : s.inFlight.get? id = some o) : s.cancelled.get? id = none := by
  cases hc : s.cancelled.get? id with
  | none => rfl
  | some o' =>
    have hnone := (h.cancelled id o' hc).2.2
    rw [ho] at hnone
    cases hnone

lemma entries_cancelled (h : FlightLive s) (c : Closed s) :
    c.after.cancelled.entries = s.cancelled.entries ++ c.cancelled := by
  apply Dict.entries_addAll
  rw [map_append, nodup_append]
  refine ⟨s.cancelled.nodup, s.inFlight.nodup.sublist (filter_sublist.map _), ?_⟩
  intro id hold id' hnew heq
  subst heq
  obtain ⟨e, he, rfl⟩ := mem_map.mp hnew
  have hnone := h.cancelled_of_inFlight (get?_eq_some.mpr (mem_filter.mp he).1)
  exact get?_eq_none.mp hnone hold

lemma closed (h : FlightLive s) (c : Closed s) : FlightLive c.after := by
  have hflight : c.after.inFlight = s.inFlight.filter fun _ o => o.scope ≠ some c.scope := rfl
  constructor
  · exact h.next_pos
  · intro id o ho
    exact h.flying id o (get?_filter.mp ho).1
  · intro id outcome hout
    obtain ⟨o, ho, himpure⟩ := h.frozen id outcome hout
    refine ⟨o, ?_, himpure⟩
    rw [hflight, get?_filter]
    refine ⟨ho, ?_⟩
    simp only [decide_eq_true_eq]
    intro hscope
    have hnone := c.settled id o ho hscope
    change s.frozenResults.get? id = some outcome at hout
    rw [hnone] at hout
    cases hout
  · intro id o ho
    rw [get?_cancelled, Option.or_eq_some_iff] at ho
    rcases ho with hnew | ⟨hnone, hold⟩
    · obtain ⟨hget, hscope⟩ := get?_filter.mp hnew
      obtain ⟨heq, -, hlt⟩ := h.flying id o hget
      refine ⟨heq, hlt, ?_⟩
      cases hk : c.after.inFlight.get? id with
      | none => rfl
      | some o' =>
        obtain ⟨hget', hscope'⟩ := get?_filter.mp hk
        rw [hget] at hget'
        cases hget'
        simp_all
    · obtain ⟨heq, hlt, habsent⟩ := h.cancelled id o hold
      exact ⟨heq, hlt, get?_filter_none habsent⟩
  · intro id outcome hout
    obtain ⟨hlt, hnone, hc⟩ := h.terminal id outcome hout
    refine ⟨hlt, get?_filter_none hnone, ?_⟩
    rw [get?_cancelled, get?_filter_none hnone, hc]
    rfl
  · intro id outcome hout
    obtain ⟨o, ho, himpure⟩ := h.quarantined id outcome hout
    refine ⟨o, ?_, himpure⟩
    rw [get?_cancelled, get?_filter_none (h.cancelled id o ho).2.2, ho]
    rfl

lemma commit (h : FlightLive s) (c : Commit D s) : FlightLive c.after := by
  cases c with
  | begun c => exact h.begun c
  | orphaned c =>
    refine ⟨Nat.le_add_left _ _, ?_, h.frozen, ?_, ?_, h.quarantined⟩
    · intro id o ho
      obtain ⟨heq, hpos, hlt⟩ := h.flying id o ho
      exact ⟨heq, hpos, Nat.lt_succ_of_lt hlt⟩
    · intro id o ho
      obtain ⟨heq, hlt, hnone⟩ := h.cancelled id o ho
      exact ⟨heq, Nat.lt_succ_of_lt hlt, hnone⟩
    · intro id outcome hout
      obtain ⟨hlt, hrest⟩ := h.terminal id outcome hout
      exact ⟨Nat.lt_succ_of_lt hlt, hrest⟩
  | completed c | failed c => exact h.ended c.inFlight rfl rfl rfl rfl rfl rfl
  | frozen c => exact h.froze c
  | quarantined c => exact h.quarantine c
  | closed c => exact h.closed c
  | _ => exact ⟨h.next_pos, h.flying, h.frozen, h.cancelled, h.terminal, h.quarantined⟩

end FlightLive

/-! ## Armed registrations -/

section Effects

variable {armed armed' : Armed} {effect : DeliveryRegistration} {rejection : String}

lemma closeEffect_eq_ok : closeEffect rejection armed effect = .ok armed' ↔
    effect.key ∈ (armed.get? effect.source).getD [] ∧
      armed' = armed.set effect.source
        (((armed.get? effect.source).getD []).filter (· ≠ effect.key)) := by
  simp only [closeEffect, require_bind_eq_ok, except_pure, Except.ok.injEq]
  exact and_congr_right fun _ => eq_comm

lemma openEffect_eq_ok : openEffect rejection armed effect = .ok armed' ↔
    effect.key ∉ (armed.get? effect.source).getD [] ∧
      armed' = armed.set effect.source ((armed.get? effect.source).getD [] ++ [effect.key]) := by
  simp only [openEffect, require_bind_eq_ok, except_pure, Except.ok.injEq]
  exact and_congr_right fun _ => eq_comm

end Effects

/-- Exactly the sources are keyed, each by distinct keys. -/
structure ArmedOk (net : Net) (armed : Armed) : Prop where
  keys : armed.keys = net.sourceTransitions
  nodup : ∀ p, ((armed.get? p).getD []).Nodup

namespace ArmedOk

variable {net : Net} {armed armed' : Armed} {source : NetPath} {keys : List String}

lemma set (h : ArmedOk net armed) (hs : source ∈ net.sourceTransitions) (hn : keys.Nodup) :
    ArmedOk net (armed.set source keys) where
  keys := by
    rw [keys_set, if_pos (by rw [h.keys]; exact hs), h.keys]
  nodup p := by
    rw [get?_set]
    split_ifs
    · exact hn
    · exact h.nodup p

lemma closes {closes : List DeliveryRegistration} {rejection : String} (h : ArmedOk net armed)
    (hs : ∀ r ∈ closes, r.source ∈ net.sourceTransitions)
    (hfold : closes.foldlM (closeEffect rejection) armed = .ok armed') : ArmedOk net armed' := by
  refine foldlM_invariant ?_ h hfold
  intro a r b hr ha hb
  obtain ⟨-, rfl⟩ := closeEffect_eq_ok.mp hb
  exact ha.set (hs r hr) ((ha.nodup r.source).filter _)

lemma opens {opens : List DeliveryRegistration} {rejection : String} (h : ArmedOk net armed)
    (hs : ∀ r ∈ opens, r.source ∈ net.sourceTransitions)
    (hfold : opens.foldlM (openEffect rejection) armed = .ok armed') : ArmedOk net armed' := by
  refine foldlM_invariant ?_ h hfold
  intro a r b hr ha hb
  obtain ⟨hfresh, rfl⟩ := openEffect_eq_ok.mp hb
  apply ha.set (hs r hr)
  rw [nodup_append]
  refine ⟨ha.nodup r.source, nodup_singleton _, ?_⟩
  intro k hk k' hk' heq
  rw [mem_singleton] at hk'
  subst heq
  subst hk'
  exact hfresh hk

lemma commit (h : ArmedOk D.net s.armed) (c : Commit D s) : ArmedOk D.net c.after.armed := by
  cases c with
  | completed c =>
    obtain ⟨mid, hcloses, hopens⟩ := bind_eq_ok.mp c.armed_ok
    have hsource : ∀ r ∈ c.closes ++ c.opens, r.source ∈ D.net.sourceTransitions :=
      fun r hr => Net.mem_sourceTransitions.mpr (c.sources r hr)
    have hmid := h.closes (fun r hr => hsource r (mem_append_left _ hr)) hcloses
    exact hmid.opens (fun r hr => hsource r (mem_append_right _ hr)) hopens
  | sealed c =>
    exact h.set (Net.mem_sourceTransitions.mpr ⟨c.source_mem, c.isSource⟩)
      ((h.nodup c.source).filter _)
  | _ => exact h

end ArmedOk

/-! ## Accepted identities -/

structure AcceptedLive (D : Definition) (s : Instance) : Prop where
  identity : ∀ k fact, s.acceptedIdentities.get? k = some fact → fact.identity = k
  source : ∀ k fact, s.acceptedIdentities.get? k = some fact →
    fact.source ∈ D.net.transitionPaths ∧ D.net.isSource fact.source = true
  occurrence : ∀ k r, s.acceptedIdentities.get? k = some (.delivered r) →
    r.occurrence < s.nextOccurrence

namespace AcceptedLive

lemma set (h : AcceptedLive D s) {s' : Instance} {k : String} {fact : AcceptedDeliveryFact}
    (hnext : s.nextOccurrence ≤ s'.nextOccurrence)
    (haccepted : s'.acceptedIdentities = s.acceptedIdentities.set k fact)
    (hidentity : fact.identity = k)
    (hsource : fact.source ∈ D.net.transitionPaths ∧ D.net.isSource fact.source = true)
    (hoccurrence : ∀ r, fact = .delivered r → r.occurrence < s'.nextOccurrence) :
    AcceptedLive D s' := by
  constructor
  · intro j f hf
    rw [haccepted, get?_set] at hf
    split_ifs at hf with hj
    · cases hf
      rw [hidentity, hj]
    · exact h.identity j f hf
  · intro j f hf
    rw [haccepted, get?_set] at hf
    split_ifs at hf with hj
    · cases hf
      exact hsource
    · exact h.source j f hf
  · intro j r hr
    rw [haccepted, get?_set] at hr
    split_ifs at hr with hj
    · exact hoccurrence r (Option.some.inj hr)
    · exact (h.occurrence j r hr).trans_le hnext

lemma frame (h : AcceptedLive D s) {s' : Instance} (hnext : s.nextOccurrence ≤ s'.nextOccurrence)
    (haccepted : s'.acceptedIdentities = s.acceptedIdentities) : AcceptedLive D s' := by
  constructor
  · rw [haccepted]
    exact h.identity
  · rw [haccepted]
    exact h.source
  · intro k r hr
    rw [haccepted] at hr
    exact (h.occurrence k r hr).trans_le hnext

lemma begun (h : AcceptedLive D s) (c : Begun D s) : AcceptedLive D c.after := by
  have hnext : s.nextOccurrence ≤ c.after.nextOccurrence := Nat.le_succ _
  cases hid : c.identity with
  | none =>
    apply h.frame hnext
    simp only [Begun.after, hid, Instance.extend]
  | some identity =>
    have hsource := c.initiated
    rw [hid] at hsource
    have haccepted : c.after.acceptedIdentities =
        s.acceptedIdentities.set identity (.delivered (c.delivered identity)) := by
      simp only [Begun.after, hid, Instance.extend]
    refine h.set hnext haccepted rfl ⟨c.transition_mem, hsource.1⟩ ?_
    · intro r hr
      cases hr
      exact Nat.lt_succ_self _

lemma disposed_fact {source : NetPath} {tokens : List Token} {identity : String}
    {instant : Instant} {fact : AcceptedDeliveryFact}
    (h : Disposed s source tokens identity instant fact) :
    fact.identity = identity ∧ fact.source = source ∧ fact.tokens = tokens ∧
      ∀ r, fact ≠ .delivered r := by
  cases h <;> exact ⟨rfl, rfl, rfl, by simp⟩

lemma dispositioned (h : AcceptedLive D s) (c : Dispositioned D s) : AcceptedLive D c.after := by
  obtain ⟨hidentity, hsource, -, hdelivered⟩ := disposed_fact c.disposed
  refine h.set (Nat.le_refl s.nextOccurrence) rfl hidentity ?_ ?_
  · rw [hsource]
    exact ⟨c.source_mem, c.isSource⟩
  · intro r hr
    exact absurd hr (hdelivered r)

lemma commit (h : AcceptedLive D s) (c : Commit D s) : AcceptedLive D c.after := by
  cases c with
  | begun c => exact h.begun c
  | dispositioned c => exact h.dispositioned c
  | orphaned c => exact h.frame (Nat.le_succ _) rfl
  | _ => exact h.frame (Nat.le_refl _) rfl

end AcceptedLive

/-! ## All of it -/

structure Live (D : Definition) (s : Instance) : Prop where
  queue : QueueLive s
  scope : ScopeLive s
  flight : FlightLive s
  armed : ArmedOk D.net s.armed
  accepted : AcceptedLive D s

lemma Live.commit (h : Live D s) (c : Commit D s) : Live D c.after where
  queue := h.queue.commit c
  scope := h.scope.commit h.queue c
  flight := h.flight.commit c
  armed := h.armed.commit c
  accepted := h.accepted.commit c

end Petrus.Impetus
