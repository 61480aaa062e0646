import Petrus.Impetus.Replay.Lifecycle

/-!
# Occurrences are replayed

The remaining commits keep the lifecycle relation: the end of an occurrence, its
terminal report, the close of its scope. Every occurrence the instance holds is then
rebuilt from the history: those in flight, those with an activity request, and the
outcomes still to be projected.
-/

namespace Petrus.Impetus

open Lib Motus List Dict

variable {D : Definition} {s : Instance} {o : FiringOccurrence} {s' : Instance}

/-! ## The end of an occurrence -/

namespace LifecycleRel

variable {occs : List FiringOccurrence} {f : Lifecycle}

def finished (f : Lifecycle) (o : FiringOccurrence) (ending : List Nat) : Lifecycle :=
  { f with scopedOpen := f.scopedOpen.erase o.id, ended := f.ended ++ [o.id], ending }

lemma finish (h : LifecycleRel D occs s f) (hl : FlightLive s)
    (ho : s.inFlight.get? o.id = some o) (r : Record) (ending : List Nat)
    (active : Option (Nat × Instant)) (previous : Option Record) :
    Lifecycle.finish { f with ending, activeBegin := active, previous } r o.id
      o.binding.transition =
        .ok { finished f o ending with activeBegin := active, previous } := by
  obtain ⟨hmem, -, hended⟩ := h.mem_inFlight.mp ho
  exact Lifecycle.finish_open (f := { f with ending, activeBegin := active, previous })
    (h.contains_begun hmem) (h.boundary hmem) (h.not_cancelled hl ho) hended r

lemma ends (h : LifecycleRel D occs s f) {ending : List Nat}
    (ho : s.inFlight.get? o.id = some o) (hnext : s'.nextOccurrence = s.nextOccurrence)
    (hflight : s'.inFlight = s.inFlight.erase o.id)
    (hfrozen : s'.frozenResults = s.frozenResults.erase o.id)
    (hactivity : s'.activityOccurrences = s.activityOccurrences)
    (hcancelled : s'.cancelled = s.cancelled) (hending : ∀ id ∈ ending, id ∈ f.ending ∨ id = o.id) :
    LifecycleRel D occs s' (finished f o ending) := by
  obtain ⟨hmem, -, -⟩ := h.mem_inFlight.mp ho
  have hsplit : ∀ id, decide (id ∉ f.ended ++ [o.id]) =
      (decide (id ≠ o.id) && decide (id ∉ f.ended)) := by
    intro id
    by_cases h₁ : id = o.id <;> by_cases h₂ : id ∈ f.ended <;> simp [h₁, h₂]
  constructor
  · exact h.begun
  · exact h.wellBegun
  · exact h.initiated
  · rw [hnext]
    exact h.fresh
  · rw [hnext]
    intro id hid
    rcases mem_append.mp hid with hid | hid
    · exact h.ended id hid
    · rw [mem_singleton.mp hid]
      exact h.lt_next hmem
  · intro id hid
    rcases hending id hid with hid | rfl
    · exact mem_append_left _ (h.ending id hid)
    · exact mem_append_right _ (mem_singleton_self _)
  · rw [hflight, entries_erase, h.inFlight, filter_map]
    congr 1
    change List.filter _ (List.filter _ occs) =
      occs.filter fun o' => decide (o'.id ∉ f.ended ++ [o.id])
    rw [filter_filter]
    apply filter_congr
    intro o' _
    rw [hsplit]
    rfl
  · rw [hactivity]
    exact h.activity
  · change (f.scopedOpen.erase o.id).entries = _
    rw [hflight, entries_erase, h.scopedOpen, entries_erase]
    exact filter_openScopes (fun id => decide (id ≠ o.id)) s.inFlight.entries
  · rw [hfrozen, entries_erase, h.frozen, filter_filter]
    apply filter_congr
    intro e _
    exact (hsplit e.1).symm
  · exact h.frozen_begun
  · rw [hcancelled]
    exact h.lifecycleCancelled
  · rw [hcancelled]
    exact h.cancelled

end LifecycleRel

lemma Lifecycle.foldlM_effects {f : Lifecycle} {id : Nat} {records : List Record}
    (h : ∀ r ∈ records, r.isBeginTail = false ∧
      ∀ g : Lifecycle, g.sort r = .ok { g with ending := g.ending ++ [id] }) :
    ∃ ending active previous, records.foldlM Lifecycle.step f =
        .ok { f with ending := ending, activeBegin := active, previous := previous } ∧
      ∀ i ∈ ending, i ∈ f.ending ∨ i = id := by
  induction records generalizing f with
  | nil => exact ⟨f.ending, f.activeBegin, f.previous, rfl, fun i hi => .inl hi⟩
  | cons r records ih =>
    rw [forall_mem_cons] at h
    obtain ⟨⟨htail, hsort⟩, hrest⟩ := h
    rw [foldlM_cons_ok (Lifecycle.step_sort htail (hsort _))]
    obtain ⟨ending, active, previous, hfold, hmem⟩ := ih (f := _) hrest
    refine ⟨ending, active, previous, hfold, ?_⟩
    intro i hi
    rcases hmem i hi with hold | rfl
    · rcases mem_append.mp hold with hold | hnew
      · exact .inl hold
      · exact .inr (mem_singleton.mp hnew)
    · exact .inr rfl

lemma Completed.effects_ending (c : Completed D s) :
    ∀ r ∈ c.produced ++ (c.closings ++ c.openings), r.isBeginTail = false ∧
      ∀ g : Lifecycle, g.sort r = .ok { g with ending := g.ending ++ [c.occurrence.id] } := by
  intro r hr
  simp only [produced, closings, openings, mem_append, mem_map] at hr
  rcases hr with ⟨e, -, rfl⟩ | ⟨e, -, rfl⟩ | ⟨e, -, rfl⟩ <;> exact ⟨rfl, fun _ => rfl⟩

section Commits

variable {occs : List FiringOccurrence} {f : Lifecycle}

lemma lifecycle_completed (c : Completed D s) (h : LifecycleRel D occs s f)
    (hl : FlightLive s) :
    ∃ f', c.batch.foldlM Lifecycle.step f = .ok f' ∧ LifecycleRel D occs c.after f' := by
  obtain ⟨ending, active, previous, hfold, hending⟩ :=
    Lifecycle.foldlM_effects (f := f) c.effects_ending
  have hrel : LifecycleRel D occs c.after (LifecycleRel.finished f c.occurrence ending) :=
    h.ends c.inFlight rfl rfl rfl rfl rfl hending
  have hbatch : c.batch = (c.produced ++ (c.closings ++ c.openings)) ++ [c.boundary] := by
    rw [c.batch_eq, append_assoc, append_assoc]
  have hsort : Lifecycle.sort { f with ending, activeBegin := none, previous } c.boundary = _ :=
    h.finish hl c.inFlight c.boundary ending none previous
  have hstep : Lifecycle.step { f with ending, activeBegin := active, previous } c.boundary = _ :=
    Lifecycle.step_sort rfl hsort
  refine ⟨_, ?_, hrel.forget none (some c.boundary)⟩
  rw [hbatch, foldlM_append_ok hfold]
  exact foldlM_cons_ok hstep

lemma LifecycleRel.single {occs' : List FiringOccurrence} {r : Record}
    (h : LifecycleRel D occs s f) (ht : r.isBeginTail = false)
    (hsort : ∀ g, LifecycleRel D occs s g → ∃ g', g.sort r = .ok g' ∧ LifecycleRel D occs' s' g') :
    ∃ f', [r].foldlM Lifecycle.step f = .ok f' ∧ LifecycleRel D occs' s' f' := by
  obtain ⟨g', hg', hrel⟩ := hsort _ (h.forget none f.previous)
  exact ⟨_, foldlM_cons_ok (Lifecycle.step_sort ht hg'), hrel.forget g'.activeBegin (some r)⟩

lemma lifecycle_failed (c : Failed D s) (h : LifecycleRel D occs s f) (hl : FlightLive s) :
    ∃ f', c.batch.foldlM Lifecycle.step f = .ok f' ∧ LifecycleRel D occs c.after f' := by
  refine h.single rfl ?_
  intro g hg
  have hrel : LifecycleRel D occs c.after (LifecycleRel.finished g c.occurrence g.ending) :=
    hg.ends c.inFlight rfl rfl rfl rfl rfl fun _ hid => .inl hid
  exact ⟨_, hg.finish hl c.inFlight _ g.ending g.activeBegin g.previous, hrel⟩

/-! ## Terminal reports -/

lemma LifecycleRel.freeze (c : Frozen D s) (h : LifecycleRel D occs s f) :
    LifecycleRel D occs c.after { f with frozen := f.frozen.set c.occurrence.id c.outcome } := by
  obtain ⟨hmem, -, hended⟩ := h.mem_inFlight.mp c.inFlight
  have habsent : f.frozen.get? c.occurrence.id = none := by
    rw [h.get?_frozen hended]
    exact c.first
  refine ⟨h.begun, h.wellBegun, h.initiated, h.fresh, h.ended, h.ending, h.inFlight, h.activity,
    h.scopedOpen, ?_, ?_, h.lifecycleCancelled, h.cancelled⟩
  · change (s.frozenResults.set c.occurrence.id c.outcome).entries =
      (f.frozen.set c.occurrence.id c.outcome).entries.filter fun e => e.1 ∉ f.ended
    rw [entries_set_of_absent c.first, entries_set_of_absent habsent, filter_append, ← h.frozen]
    simp [hended]
  · intro id hid
    rcases mem_keys_set.mp hid with rfl | hid
    · exact ⟨c.occurrence, hmem, rfl⟩
    · exact h.frozen_begun id hid

lemma lifecycle_frozen (c : Frozen D s) (h : LifecycleRel D occs s f) (hl : FlightLive s) :
    ∃ f', c.batch.foldlM Lifecycle.step f = .ok f' ∧ LifecycleRel D occs c.after f' := by
  have hfreeze : ∀ g, LifecycleRel D occs s g → ∀ r verb, g.freeze r verb c.occurrence.id
      c.occurrence.binding.transition c.outcome =
        .ok { g with frozen := g.frozen.set c.occurrence.id c.outcome } := by
    intro g hg r verb
    obtain ⟨hmem, -, hended⟩ := hg.mem_inFlight.mp c.inFlight
    have hrequested : g.requested c.occurrence.id = true := by
      rw [hg.requested hmem, Option.isSome_iff_ne_none]
      exact c.impure
    have habsent : g.frozen.contains c.occurrence.id = false := by
      rw [contains_eq_false, hg.get?_frozen hended]
      exact c.first
    exact Lifecycle.freeze_first hrequested (hg.boundary hmem) habsent
      (hg.not_cancelled hl c.inFlight) r verb c.outcome
  have hrecord : c.record.isBeginTail = false ∧ ∃ verb, ∀ g : Lifecycle, g.sort c.record =
      g.freeze c.record verb c.occurrence.id c.occurrence.binding.transition c.outcome := by
    unfold Frozen.record
    cases c.outcome with
    | completed result => exact ⟨rfl, "completed", fun _ => rfl⟩
    | failed failure => exact ⟨rfl, "failed", fun _ => rfl⟩
  obtain ⟨htail, verb, hsort⟩ := hrecord
  refine h.single htail ?_
  intro g hg
  exact ⟨_, by rw [hsort, hfreeze g hg], hg.freeze c⟩

lemma lifecycle_quarantined (c : Quarantined D s) (h : LifecycleRel D occs s f) :
    ∃ f', c.batch.foldlM Lifecycle.step f = .ok f' ∧ LifecycleRel D occs c.after f' := by
  refine h.single rfl ?_
  intro g hg
  have hmem := hg.cancelled _ _ c.cancelled
  refine ⟨g, Lifecycle.quarantine_begun (hg.contains_begun hmem) (hg.boundary hmem), ?_⟩
  exact ⟨hg.begun, hg.wellBegun, hg.initiated, hg.fresh, hg.ended, hg.ending, hg.inFlight,
    hg.activity, hg.scopedOpen, hg.frozen, hg.frozen_begun, hg.lifecycleCancelled, hg.cancelled⟩

/-! ## Closing a scope -/

namespace LifecycleRel

lemma mem_scopeOccurrences_entry (hl : FlightLive s) (scope : LifecycleScope)
    {e : Nat × FiringOccurrence} (he : e ∈ s.inFlight.entries) :
    e.1 ∈ scopeOccurrences s scope ↔ e.2.scope = some scope := by
  have hget : s.inFlight.get? e.1 = some e.2 := get?_eq_some.mpr he
  rw [hl.mem_scopeOccurrences, hget]
  simp

def closing (f : Lifecycle) (ids : List Nat) : Lifecycle :=
  { f with
    scopedOpen := f.scopedOpen.filter fun id _ => id ∉ ids
    lifecycleCancelled := f.lifecycleCancelled ++ ids
    ended := f.ended ++ ids }

lemma closes (c : Closed s) (h : LifecycleRel D occs s f) (hl : FlightLive s) :
    f.close c.scope (scopeOccurrences s c.scope) =
      .ok (closing f (scopeOccurrences s c.scope)) := by
  have hexpected : (f.scopedOpen.filter fun _ scope => scope = c.scope).keys =
      scopeOccurrences s c.scope := by
    rw [hl.scopeOccurrences_eq, ← keys_openScopes, ← h.scopedOpen]
    rfl
  have hsettled : ∀ id ∈ scopeOccurrences s c.scope, f.frozen.contains id = false := by
    intro id hid
    obtain ⟨o, ho, hscope⟩ := (hl.mem_scopeOccurrences c.scope).mp hid
    rw [contains_eq_false, h.get?_frozen (h.mem_inFlight.mp ho).2.2]
    exact c.settled id o ho hscope
  simp only [Lifecycle.close, hexpected]
  rw [require_bind trivial, require_true hsettled]
  rfl

lemma closed (c : Closed s) (h : LifecycleRel D occs s f) (hl : FlightLive s) :
    LifecycleRel D occs c.after (closing f (scopeOccurrences s c.scope)) := by
  have hsplit : ∀ id, decide (id ∉ f.ended ++ scopeOccurrences s c.scope) =
      (decide (id ∉ scopeOccurrences s c.scope) && decide (id ∉ f.ended)) := by
    intro id
    by_cases h₁ : id ∈ scopeOccurrences s c.scope <;> by_cases h₂ : id ∈ f.ended <;> simp [h₁, h₂]
  have hflight : c.after.inFlight.entries =
      s.inFlight.entries.filter fun e => e.1 ∉ scopeOccurrences s c.scope := by
    change s.inFlight.entries.filter (fun e => decide (e.2.scope ≠ some c.scope)) = _
    apply filter_congr
    intro e he
    rw [decide_eq_decide, mem_scopeOccurrences_entry hl c.scope he]
  constructor
  · exact h.begun
  · exact h.wellBegun
  · exact h.initiated
  · exact h.fresh
  · intro id hid
    rcases mem_append.mp hid with hid | hid
    · exact h.ended id hid
    · obtain ⟨o, ho, -⟩ := (hl.mem_scopeOccurrences c.scope).mp hid
      obtain ⟨hmem, rfl, -⟩ := h.mem_inFlight.mp ho
      exact h.lt_next hmem
  · intro id hid
    exact mem_append_left _ (h.ending id hid)
  · rw [hflight, h.inFlight, filter_map]
    congr 1
    change List.filter _ (List.filter _ occs) =
      occs.filter fun o => decide (o.id ∉ f.ended ++ scopeOccurrences s c.scope)
    rw [filter_filter]
    apply filter_congr
    intro o _
    rw [hsplit]
    rfl
  · exact h.activity
  · change (f.scopedOpen.entries.filter fun e => decide (e.1 ∉ scopeOccurrences s c.scope)) = _
    rw [h.scopedOpen, hflight]
    exact filter_openScopes (fun id => decide (id ∉ scopeOccurrences s c.scope)) _
  · change s.frozenResults.entries =
      f.frozen.entries.filter fun e => decide (e.1 ∉ f.ended ++ scopeOccurrences s c.scope)
    have hkept : (s.frozenResults.entries.filter
        fun e => decide (e.1 ∉ scopeOccurrences s c.scope)) = s.frozenResults.entries := by
      rw [filter_eq_self]
      intro e he
      rw [decide_eq_true_eq, hl.mem_scopeOccurrences]
      rintro ⟨o, ho, hscope⟩
      have hnone := c.settled e.1 o ho hscope
      rw [get?_eq_some.mpr he] at hnone
      cases hnone
    rw [← hkept, h.frozen, filter_filter]
    apply filter_congr
    intro e _
    exact (hsplit e.1).symm
  · exact h.frozen_begun
  · intro id
    change id ∈ f.lifecycleCancelled ++ scopeOccurrences s c.scope ↔ _
    rw [mem_append, h.lifecycleCancelled, hl.mem_scopeOccurrences, contains_iff_get?,
      contains_iff_get?, FlightLive.get?_cancelled]
    constructor
    · rintro (⟨o, ho⟩ | ⟨o, ho, hscope⟩)
      · cases hnew : (s.inFlight.filter fun _ o => decide (o.scope = some c.scope)).get? id with
        | none => exact ⟨o, by simpa using ho⟩
        | some o' => exact ⟨o', rfl⟩
      · have hnew : (s.inFlight.filter fun _ o => decide (o.scope = some c.scope)).get? id =
            some o := get?_filter.mpr ⟨ho, by simpa using hscope⟩
        exact ⟨o, by rw [hnew]; rfl⟩
    · rintro ⟨o, ho⟩
      rcases Option.or_eq_some_iff.mp ho with hnew | ⟨-, hold⟩
      · obtain ⟨hget, hscope⟩ := get?_filter.mp hnew
        exact .inr ⟨o, hget, by simpa using hscope⟩
      · exact .inl ⟨o, hold⟩
  · intro id o ho
    rw [FlightLive.get?_cancelled, Option.or_eq_some_iff] at ho
    rcases ho with hnew | ⟨-, hold⟩
    · exact (h.mem_inFlight.mp (get?_filter.mp hnew).1).1
    · exact h.cancelled id o hold

end LifecycleRel

lemma lifecycle_closed (c : Closed s) (h : LifecycleRel D occs s f) (hl : FlightLive s) :
    ∃ f', c.batch.foldlM Lifecycle.step f = .ok f' ∧ LifecycleRel D occs c.after f' := by
  have hrecord : c.record.isBeginTail = false ∧
      ∀ g : Lifecycle, g.sort c.record = g.close c.scope (scopeOccurrences s c.scope) := by
    unfold Closed.record
    split_ifs <;> exact ⟨rfl, fun _ => rfl⟩
  refine h.single hrecord.1 ?_
  intro g hg
  exact ⟨_, by rw [hrecord.2, hg.closes c hl], hg.closed c hl⟩

/-! ## Every commit -/

def Record.unsorted : Record → Prop
  | .instanceCreated _ => True
  | .tokensInitialized _ => True
  | .scopeOpened _ => True
  | .scopedDeliveryDropped _ => True
  | .scopedDeliveryQuarantined _ => True
  | .timerMatured _ => True
  | .deliveryRegistrationOpened r => r.occurrence = none
  | .deliveryRegistrationClosed r => r.occurrence = none
  | _ => False

lemma Record.sort_unsorted {r : Record} (h : r.unsorted) (g : Lifecycle) :
    r.isBeginTail = false ∧ g.sort r = .ok g := by
  cases r with
  | deliveryRegistrationOpened | deliveryRegistrationClosed =>
    simp only [Record.unsorted] at h
    exact ⟨rfl, by simp only [Lifecycle.sort, h, Lifecycle.effect]⟩
  | _ => first | exact ⟨rfl, rfl⟩ | exact absurd h id

lemma lifecycle_unsorted {batch : List Record} (hbatch : ∀ r ∈ batch, r.unsorted)
    (f : Lifecycle) : ∃ active previous,
      batch.foldlM Lifecycle.step f =
        .ok { f with activeBegin := active, previous := previous } := by
  induction batch generalizing f with
  | nil => exact ⟨f.activeBegin, f.previous, rfl⟩
  | cons r batch ih =>
    rw [forall_mem_cons] at hbatch
    obtain ⟨htail, hsort⟩ := Record.sort_unsorted hbatch.1 { f with activeBegin := none }
    rw [foldlM_cons_ok (Lifecycle.step_sort htail hsort)]
    exact ih hbatch.2 _

lemma lifecycle_frame {batch : List Record} (h : LifecycleRel D occs s f)
    (hbatch : ∀ r ∈ batch, r.unsorted) (hnext : s'.nextOccurrence = s.nextOccurrence)
    (hflight : s'.inFlight = s.inFlight)
    (hactivity : s'.activityOccurrences = s.activityOccurrences)
    (hfrozen : s'.frozenResults = s.frozenResults) (hcancelled : s'.cancelled = s.cancelled) :
    ∃ f', batch.foldlM Lifecycle.step f = .ok f' ∧ LifecycleRel D occs s' f' := by
  obtain ⟨active, previous, hfold⟩ := lifecycle_unsorted hbatch f
  obtain ⟨h1, h2, h3, h4, h5, h6, h7, h8, h9, h10, h11, h12, h13⟩ := h.forget active previous
  refine ⟨_, hfold, h1, h2, h3, ?_, ?_, h6, ?_, ?_, ?_, ?_, h11, ?_, ?_⟩
  · rwa [hnext]
  · rwa [hnext]
  · rwa [hflight]
  · rwa [hactivity]
  · rwa [hflight]
  · rwa [hfrozen]
  · rwa [hcancelled]
  · rwa [hcancelled]

lemma lifecycle_orphaned (c : Orphaned D s) (h : LifecycleRel D occs s f) :
    ∃ f', c.batch.foldlM Lifecycle.step f = .ok f' ∧ LifecycleRel D occs c.after f' := by
  refine h.single rfl ?_
  intro g hg
  refine ⟨_, Lifecycle.initiate_fresh hg.initiated_next c.transition [], ?_⟩
  refine ⟨hg.begun, hg.wellBegun, ?_, ?_, ?_, hg.ending, hg.inFlight, hg.activity, hg.scopedOpen,
    hg.frozen, hg.frozen_begun, hg.lifecycleCancelled, hg.cancelled⟩
  · intro o ho
    have hlt := hg.lt_next ho
    rw [get?_set_ne _ _ (by omega), hg.initiated o ho]
  · intro id hid
    change id < s.nextOccurrence + 1
    rcases mem_keys_set.mp hid with rfl | hid
    · omega
    · have hlt := hg.fresh id hid
      omega
  · intro id hid
    exact Nat.lt_succ_of_lt (hg.ended id hid)

end Commits

lemma lifecycle_commit (hl : FlightLive s) (c : Commit D s) {occs : List FiringOccurrence}
    {f : Lifecycle} (h : LifecycleRel D occs s f) :
    ∃ f', c.batch.foldlM Lifecycle.step f = .ok f' ∧ ∃ occs', LifecycleRel D occs' c.after f' := by
  have hframe : (∀ r ∈ c.batch, r.unsorted) → c.after.nextOccurrence = s.nextOccurrence →
      c.after.inFlight = s.inFlight → c.after.activityOccurrences = s.activityOccurrences →
      c.after.frozenResults = s.frozenResults → c.after.cancelled = s.cancelled →
      ∃ f', c.batch.foldlM Lifecycle.step f = .ok f' ∧
        ∃ occs', LifecycleRel D occs' c.after f' := by
    intro hbatch hnext hflight hactivity hfrozen hcancelled
    obtain ⟨f', hfold, hrel⟩ := lifecycle_frame h hbatch hnext hflight hactivity hfrozen hcancelled
    exact ⟨f', hfold, occs, hrel⟩
  have hkeep : (∃ f', c.batch.foldlM Lifecycle.step f = .ok f' ∧ LifecycleRel D occs c.after f') →
      ∃ f', c.batch.foldlM Lifecycle.step f = .ok f' ∧
        ∃ occs', LifecycleRel D occs' c.after f' := by
    rintro ⟨f', hfold, hrel⟩
    exact ⟨f', hfold, occs, hrel⟩
  cases c with
  | begun c =>
    obtain ⟨active, previous, hfold⟩ := lifecycle_begun c h
    exact ⟨_, hfold, _, (h.begin_ c hl).forget active previous⟩
  | orphaned c => exact hkeep (lifecycle_orphaned c h)
  | completed c => exact hkeep (lifecycle_completed c h hl)
  | failed c => exact hkeep (lifecycle_failed c h hl)
  | frozen c => exact hkeep (lifecycle_frozen c h hl)
  | quarantined c => exact hkeep (lifecycle_quarantined c h)
  | closed c => exact hkeep (lifecycle_closed c h hl)
  | _ =>
    refine hframe (fun r hr => ?_) rfl rfl rfl rfl rfl
    cases Commit.batch_appends _ r hr <;> first | rfl | trivial

lemma lifecycleRel_initial (m : Marking) (instanceId : String) (instant : Instant) :
    LifecycleRel D [] (Instance.initial D m instanceId instant) {} where
  begun := rfl
  wellBegun := by simp
  initiated := by simp
  fresh id hid := absurd hid not_mem_nil
  ended := by simp
  ending := by simp
  inFlight := rfl
  activity := rfl
  scopedOpen := rfl
  frozen := rfl
  frozen_begun id hid := absurd hid not_mem_nil
  lifecycleCancelled id := by simp [Dict.contains, Instance.initial]
  cancelled id o ho := by simp [Instance.initial] at ho

lemma lifecycle_tracks : Tracks D (fun _ => Lifecycle.step) {}
    fun s f => ∃ occs, LifecycleRel D occs s f where
  created {m} instanceId instant _ := by
    have hbatch : ∀ r ∈ initialRecords D.net m instanceId instant, r.unsorted := by
      intro r hr
      rcases mem_initialRecords hr with rfl | ⟨_, -, rfl⟩ | ⟨_, -, rfl⟩ <;> trivial
    obtain ⟨active, previous, hfold⟩ := lifecycle_unsorted hbatch {}
    exact ⟨_, hfold, [], (lifecycleRel_initial m instanceId instant).forget active previous⟩
  commit _ c hs := by
    rintro ⟨occs, hrel⟩
    exact lifecycle_commit hs.live.flight c hrel
  reorder _ _ := by
    rintro ⟨occs, h⟩
    exact ⟨occs, h.begun, h.wellBegun, h.initiated, h.fresh, h.ended, h.ending, h.inFlight,
      h.activity, h.scopedOpen, h.frozen, h.frozen_begun, h.lifecycleCancelled, h.cancelled⟩

lemma Reached.sortedLifecycle (h : Reached D s) :
    ∃ f occs, sortedLifecycle s.records = .ok f ∧ LifecycleRel D occs s f := by
  obtain ⟨f, hfold, occs, hrel⟩ := lifecycle_tracks.reached h
  exact ⟨f, occs, hfold, hrel⟩

/-! ## Rebuilding -/

section Rebuilt

variable {occs : List FiringOccurrence} {f : Lifecycle}

namespace LifecycleRel

lemma rebuild (h : LifecycleRel D occs s f) (ho : o ∈ occs) :
    f.rebuild o.id o.records = .ok o := by
  simp only [Lifecycle.rebuild, h.initiated o ho]
  exact (h.wellBegun o ho).rebuilt

lemma refuseDisordered (h : LifecycleRel D occs s f) (ho : o ∈ occs) :
    refuseDisorderedBeginBatch o.id o.binding.transition o.records = .ok () :=
  require_true (h.wellBegun o ho).ordered

lemma rebuildOpen (h : LifecycleRel D occs s f) (ho : o ∈ occs) :
    f.rebuildOpen o.id o.records = .ok o := by
  have htorn : o.id ∉ f.ended →
      refuseTornBatch o.id o.binding.transition f.ending = .ok () := by
    intro hended
    exact require_true fun hending => hended (h.ending o.id hending)
  simp only [Lifecycle.rebuildOpen, h.initiated o ho]
  split_ifs with hended
  · rw [h.refuseDisordered ho, ok_bind]
    exact (h.wellBegun o ho).rebuilt
  · rw [htorn hended, ok_bind, h.refuseDisordered ho, ok_bind]
    exact (h.wellBegun o ho).rebuilt

lemma mapM_rebuildOpen (h : LifecycleRel D occs s f) (p : Nat × List Record → Bool) :
    ((f.begun.entries.filter p).mapM fun e => f.rebuildOpen e.1 e.2) =
      .ok (occs.filter fun o => p (o.id, o.records)) := by
  rw [h.begun, filter_map]
  conv_rhs => rw [← map_id (occs.filter _)]
  apply mapM_map_ok
  intro o ho
  exact h.rebuildOpen (mem_filter.mp ho).1

end LifecycleRel

lemma byId_values {d : Dict Nat FiringOccurrence} (h : ∀ e ∈ d.entries, e.2.id = e.1) :
    byId d.values = d := by
  have hentries : d.values.map (fun o => (o.id, o)) = d.entries := by
    rw [Dict.values, map_map]
    conv_rhs => rw [← map_id d.entries]
    apply map_congr_left
    intro e he
    simp only [Function.comp_apply, h e he, id_eq]
  rw [byId, hentries, ofList_entries]

end Rebuilt

namespace Reached

lemma replayInFlight (h : Reached D s) :
    replayInFlight s.records = .ok s.inFlight.values ∧ ∀ o ∈ s.inFlight.values, WellBegun D o := by
  obtain ⟨f, occs, hfold, hrel⟩ := h.sortedLifecycle
  have hvalues : s.inFlight.values = occs.filter fun o => o.id ∉ f.ended := by
    rw [Dict.values, hrel.inFlight, map_map]
    exact map_id _
  constructor
  · rw [Impetus.replayInFlight, hfold, ok_bind, hrel.mapM_rebuildOpen, hvalues]
  · intro o ho
    rw [hvalues] at ho
    exact hrel.wellBegun o (mem_filter.mp ho).1

lemma byId_inFlight (h : Reached D s) : byId s.inFlight.values = s.inFlight := by
  apply byId_values
  intro e he
  exact (h.live.flight.flying e.1 e.2 (get?_eq_some.mpr he)).1

lemma replayFiringOccurrences (h : Reached D s) (ids : List Nat) :
    ∃ os, replayFiringOccurrences s.records ids = .ok os ∧ ∀ o ∈ os, WellBegun D o := by
  obtain ⟨f, occs, hfold, hrel⟩ := h.sortedLifecycle
  refine ⟨occs.filter fun o => o.id ∈ ids, ?_, ?_⟩
  · rw [Impetus.replayFiringOccurrences, hfold, ok_bind, hrel.mapM_rebuildOpen]
  · intro o ho
    exact hrel.wellBegun o (mem_filter.mp ho).1

lemma replayActivityOccurrences (h : Reached D s) :
    replayActivityOccurrences s.records = .ok s.activityOccurrences.values ∧
      byId s.activityOccurrences.values = s.activityOccurrences := by
  obtain ⟨f, occs, hfold, hrel⟩ := h.sortedLifecycle
  have hvalues : s.activityOccurrences.values = occs.filter fun o => o.invocation ≠ none := by
    rw [Dict.values, hrel.activity, map_map]
    exact map_id _
  constructor
  · have hfilter : (occs.filter fun o => o.records.any Record.isActivityRequested) =
        occs.filter fun o => o.invocation ≠ none := by
      apply filter_congr
      intro o ho
      rw [(hrel.wellBegun o ho).requested]
      cases o.invocation <;> simp
    rw [Impetus.replayActivityOccurrences, hfold, ok_bind, hrel.begun, filter_map, hvalues,
      ← hfilter]
    conv_rhs => rw [← map_id (occs.filter _)]
    apply mapM_map_ok
    intro o ho
    have hmem := (mem_filter.mp ho).1
    simp only [hrel.initiated o hmem]
    rw [hrel.refuseDisordered hmem, ok_bind, hrel.rebuild hmem]
    rfl
  · apply byId_values
    intro e he
    rw [hrel.activity] at he
    obtain ⟨o, -, rfl⟩ := mem_map.mp he
    rfl

lemma replayProjectionPending (h : Reached D s) :
    replayProjectionPending s.records = .ok s.frozenResults := by
  obtain ⟨f, occs, hfold, hrel⟩ := h.sortedLifecycle
  have hpending : (f.frozen.filter fun id _ => f.begun.contains id ∧ id ∉ f.ended) =
      s.frozenResults := by
    apply ext_entries
    rw [hrel.frozen]
    apply filter_congr
    intro e he
    obtain ⟨o, ho, hid⟩ := hrel.frozen_begun e.1 (mem_map_of_mem he)
    have hbegun := hrel.contains_begun ho
    rw [hid] at hbegun
    simp only [hbegun, true_and]
  rw [Impetus.replayProjectionPending, hfold, ok_bind, hpending]
  rfl

end Reached

end Petrus.Impetus
