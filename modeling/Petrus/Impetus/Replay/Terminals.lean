import Petrus.Impetus.Replay.Flights

/-!
# Outcomes and cancellations are replayed

The terminal fold finds every outcome ever frozen; those of ended occurrences are
the instance's ended outcomes. The cancellation and quarantine folds find what each
close took out of flight and the first late report of each of those.
-/

namespace Petrus.Impetus

open Lib Motus List Dict

variable {D : Definition} {s : Instance} {f : TerminalFold}

/-! ## Outcomes -/

structure TerminalRel (s : Instance) (f : TerminalFold) : Prop where
  terminal : ∀ id, f.terminal.get? id = (s.frozenResults.get? id).or (s.terminalActivity.get? id)
  ended : ∀ id ∈ f.ended, s.inFlight.get? id = none ∧ id < s.nextOccurrence
  outcomes : ∀ id outcome, s.terminalActivity.get? id = some outcome → id ∈ f.ended

namespace TerminalRel

lemma ends (h : TerminalRel s f) {o : FiringOccurrence} {s' : Instance}
    (ho : o.id < s.nextOccurrence) (hnext : s'.nextOccurrence = s.nextOccurrence)
    (hflight : s'.inFlight = s.inFlight.erase o.id)
    (hfrozen : s'.frozenResults = s.frozenResults.erase o.id)
    (hterminal : s'.terminalActivity = match s.frozenResults.get? o.id with
      | none => s.terminalActivity
      | some outcome => s.terminalActivity.set o.id outcome) :
    TerminalRel s' { f with ended := f.ended ++ [o.id] } := by
  constructor
  · intro id
    rw [hfrozen, hterminal, h.terminal id, get?_erase]
    by_cases hid : o.id = id
    · subst hid
      rw [if_pos rfl]
      cases s.frozenResults.get? o.id with
      | none => rfl
      | some outcome => simp
    · rw [if_neg hid]
      cases s.frozenResults.get? o.id with
      | none => rfl
      | some outcome => simp only [get?_set_ne _ _ hid]
  · intro id hid
    rw [hnext, hflight, get?_erase]
    rcases mem_append.mp hid with hid | hid
    · obtain ⟨hnone, hlt⟩ := h.ended id hid
      exact ⟨by rw [hnone, ite_self], hlt⟩
    · rw [mem_singleton.mp hid]
      exact ⟨if_pos rfl, ho⟩
  · intro id outcome hout
    rw [hterminal] at hout
    by_cases hid : o.id = id
    · exact mem_append_right _ (mem_singleton.mpr hid.symm)
    · apply mem_append_left
      cases hf : s.frozenResults.get? o.id with
      | none =>
        rw [hf] at hout
        exact h.outcomes id outcome hout
      | some first =>
        rw [hf] at hout
        simp only [get?_set_ne _ _ hid] at hout
        exact h.outcomes id outcome hout

lemma freeze (h : TerminalRel s f) (c : Frozen D s) :
    TerminalRel c.after { f with terminal := f.terminal.set c.occurrence.id c.outcome } where
  terminal id := by
    change (f.terminal.set c.occurrence.id c.outcome).get? id =
      ((s.frozenResults.set c.occurrence.id c.outcome).get? id).or (s.terminalActivity.get? id)
    rw [get?_set, get?_set, h.terminal id]
    split_ifs <;> rfl
  ended := h.ended
  outcomes := h.outcomes

lemma frame (h : TerminalRel s f) {s' : Instance} (hnext : s.nextOccurrence ≤ s'.nextOccurrence)
    (hflight : ∀ id, id < s.nextOccurrence → s.inFlight.get? id = none →
      s'.inFlight.get? id = none)
    (hfrozen : s'.frozenResults = s.frozenResults)
    (hterminal : s'.terminalActivity = s.terminalActivity) : TerminalRel s' f := by
  constructor
  · intro id
    rw [hfrozen, hterminal, h.terminal id]
  · intro id hid
    obtain ⟨hnone, hlt⟩ := h.ended id hid
    exact ⟨hflight id hlt hnone, hlt.trans_le hnext⟩
  · rw [hterminal]
    exact h.outcomes

end TerminalRel

def Record.unreported : Record → Bool
  | .firingCompleted _ => false
  | .firingFailed _ => false
  | .activityCompleted _ => false
  | .activityFailed _ => false
  | _ => true

lemma TerminalFold.step_unreported {r : Record} (h : r.unreported = true) :
    f.step r = .ok f := by
  cases r <;> first | rfl | cases h

lemma terminal_completed (c : Completed D s) (hl : FlightLive s) (h : TerminalRel s f) :
    ∃ f', c.batch.foldlM TerminalFold.step f = .ok f' ∧ TerminalRel c.after f' := by
  have heffects :
      (c.produced ++ (c.closings ++ c.openings)).foldlM TerminalFold.step f = .ok f := by
    apply foldlM_inert
    intro r hr
    simp only [Completed.produced, Completed.closings, Completed.openings, mem_append,
      mem_map] at hr
    rcases hr with ⟨e, -, rfl⟩ | ⟨e, -, rfl⟩ | ⟨e, -, rfl⟩ <;> rfl
  have hbatch : c.batch = (c.produced ++ (c.closings ++ c.openings)) ++ [c.boundary] := by
    rw [c.batch_eq, append_assoc, append_assoc]
  refine ⟨_, ?_, h.ends (hl.flying _ _ c.inFlight).2.2 rfl rfl rfl rfl⟩
  rw [hbatch, foldlM_append_ok heffects]
  rfl

lemma terminal_frozen (c : Frozen D s) (hl : FlightLive s) (h : TerminalRel s f) :
    ∃ f', c.batch.foldlM TerminalFold.step f = .ok f' ∧ TerminalRel c.after f' := by
  have hterminal : s.terminalActivity.get? c.occurrence.id = none := by
    cases hout : s.terminalActivity.get? c.occurrence.id with
    | none => rfl
    | some outcome =>
      have hnone := (hl.terminal _ _ hout).2.1
      rw [c.inFlight] at hnone
      cases hnone
  have hfirst : f.terminal.contains c.occurrence.id = false := by
    rw [contains_eq_false, h.terminal, c.first, hterminal]
    rfl
  have hended : c.occurrence.id ∉ f.ended := by
    intro hmem
    have hnone := (h.ended _ hmem).1
    rw [c.inFlight] at hnone
    cases hnone
  have hfreeze : f.freeze c.occurrence.id c.occurrence.binding.transition c.outcome =
      .ok { f with terminal := f.terminal.set c.occurrence.id c.outcome } := by
    rw [TerminalFold.freeze, require_bind hfirst, require_true hended]
    rfl
  have hstep : f.step c.record =
      f.freeze c.occurrence.id c.occurrence.binding.transition c.outcome := by
    unfold Frozen.record
    cases c.outcome <;> rfl
  refine ⟨_, ?_, h.freeze c⟩
  rw [Frozen.batch, foldlM_cons_ok (hstep.trans hfreeze)]
  rfl

lemma terminal_commit (hl : FlightLive s) (c : Commit D s) (h : TerminalRel s f) :
    ∃ f', c.batch.foldlM TerminalFold.step f = .ok f' ∧ TerminalRel c.after f' := by
  have hinert : (∀ r ∈ c.batch, r.unreported = true) → TerminalRel c.after f →
      ∃ f', c.batch.foldlM TerminalFold.step f = .ok f' ∧ TerminalRel c.after f' := by
    intro hbatch hrel
    exact ⟨f, foldlM_inert fun r hr => TerminalFold.step_unreported (hbatch r hr), hrel⟩
  cases c with
  | begun c =>
    refine hinert (fun r hr => ?_) (h.frame (Nat.le_succ _) (fun id hlt hnone => ?_) rfl rfl)
    · cases Commit.batch_appends _ r hr <;> rfl
    · change (s.inFlight.set s.nextOccurrence c.occurrence).get? id = none
      rw [get?_set_ne _ _ (by omega), hnone]
  | orphaned c =>
    exact hinert (forall_mem_singleton.mpr rfl)
      (h.frame (Nat.le_succ _) (fun _ _ hnone => hnone) rfl rfl)
  | completed c => exact terminal_completed c hl h
  | failed c => exact ⟨_, rfl, h.ends (hl.flying _ _ c.inFlight).2.2 rfl rfl rfl rfl⟩
  | frozen c => exact terminal_frozen c hl h
  | closed c =>
    refine hinert (fun r hr => ?_)
      (h.frame le_rfl (fun _ _ hnone => get?_filter_none hnone) rfl rfl)
    cases Commit.batch_appends _ r hr <;> rfl
  | _ =>
    refine hinert (fun r hr => ?_) (h.frame le_rfl (fun _ _ hnone => hnone) rfl rfl)
    cases Commit.batch_appends _ r hr <;> rfl

lemma terminal_tracks : Tracks D (fun _ => TerminalFold.step) {} TerminalRel where
  created {m} instanceId instant _ := by
    refine ⟨{}, foldlM_inert ?_, fun _ => rfl, by simp, fun _ _ hout => by
      simp [Instance.initial] at hout⟩
    intro r hr
    rcases mem_initialRecords hr with rfl | ⟨_, -, rfl⟩ | ⟨_, -, rfl⟩ <;> rfl
  commit _ c hs hrel := terminal_commit hs.live.flight c hrel
  reorder {s f active terminal} _ hterminal hrel := by
    refine ⟨?_, hrel.ended, ?_⟩
    · intro id
      change _ = (s.frozenResults.get? id).or (terminal.get? id)
      rw [hrel.terminal, hterminal id]
    · intro id outcome hout
      change terminal.get? id = some outcome at hout
      rw [hterminal id] at hout
      exact hrel.outcomes id outcome hout

lemma Reached.replayTerminalActivity (h : Reached D s) :
    ∃ d, replayTerminalActivity s.records = .ok d ∧ d.Same s.terminalActivity := by
  obtain ⟨f, hfold, hrel⟩ := terminal_tracks.reached h
  refine ⟨f.terminal.filter fun id _ => id ∈ f.ended, ?_, ?_⟩
  · rw [Impetus.replayTerminalActivity, hfold]
    rfl
  · intro id
    rw [get?_filter_key f.terminal (fun id => decide (id ∈ f.ended)), hrel.terminal]
    by_cases hid : id ∈ f.ended
    · have hfrozen : s.frozenResults.get? id = none := by
        cases hout : s.frozenResults.get? id with
        | none => rfl
        | some outcome =>
          obtain ⟨o, ho, -⟩ := h.live.flight.frozen id outcome hout
          rw [(hrel.ended id hid).1] at ho
          cases ho
      rw [if_pos (by simpa using hid), hfrozen]
      rfl
    · rw [if_neg (by simpa using hid)]
      cases hout : s.terminalActivity.get? id with
      | none => rfl
      | some outcome => exact absurd (hrel.outcomes id outcome hout) hid

/-! ## Cancellations -/

/-- The replayed cancellations are the cancelled occurrences with their scopes, in order. -/
def CancelledRel (s : Instance) (d : Dict Nat LifecycleScope) : Prop :=
  (d.entries.map fun e => (e.1, some e.2)) = s.cancelled.entries.map fun e => (e.1, e.2.scope)

namespace CancelledRel

variable {d : Dict Nat LifecycleScope}

lemma keys (h : CancelledRel s d) : d.keys = s.cancelled.keys := by
  have hfst := congrArg (List.map Prod.fst) h
  rw [map_map, map_map] at hfst
  exact hfst

lemma get? (h : CancelledRel s d) {id : Nat} {o : FiringOccurrence} {scope : LifecycleScope}
    (ho : s.cancelled.get? id = some o) (hscope : o.scope = some scope) :
    d.get? id = some scope := by
  have hmem : (id, o.scope) ∈ s.cancelled.entries.map fun e => (e.1, e.2.scope) :=
    mem_map.mpr ⟨(id, o), get?_eq_some.mp ho, rfl⟩
  rw [← h, hscope] at hmem
  obtain ⟨e, he, heq⟩ := mem_map.mp hmem
  cases heq
  exact get?_eq_some.mpr he

lemma frame (h : CancelledRel s d) {s' : Instance} (hs : s'.cancelled = s.cancelled) :
    CancelledRel s' d := by
  unfold CancelledRel
  rw [hs]
  exact h

end CancelledRel

lemma cancelAll_fresh {d : Dict Nat LifecycleScope} {ids : List Nat} (scope : LifecycleScope)
    (hn : ids.Nodup) (h : ∀ id ∈ ids, d.get? id = none) :
    ∃ d', cancelAll d scope ids = .ok d' ∧
      d'.entries = d.entries ++ ids.map fun id => (id, scope) := by
  unfold cancelAll
  induction ids generalizing d with
  | nil => exact ⟨d, rfl, by simp⟩
  | cons id ids ih =>
    rw [nodup_cons] at hn
    rw [forall_mem_cons] at h
    have hstep : (do
        require (d.contains id = false)
          (valueError s!"replay divergence: firing occurrence {id} cancelled twice")
        return d.set id scope : Except Exc (Dict Nat LifecycleScope)) = .ok (d.set id scope) := by
      rw [require_true (contains_eq_false.mpr h.1)]
      rfl
    have hrest : ∀ other ∈ ids, (d.set id scope).get? other = none := by
      intro other hother
      rw [get?_set_ne, h.2 other hother]
      rintro rfl
      exact hn.1 hother
    obtain ⟨d', hfold, hentries⟩ := ih hn.2 hrest
    refine ⟨d', by rw [foldlM_cons_ok hstep, hfold], ?_⟩
    rw [hentries, entries_set_of_absent h.1, append_assoc]
    rfl

lemma Closed.closure?_record (c : Closed s) :
    c.record.closure? = some (c.scope, scopeOccurrences s c.scope) := by
  unfold record
  split_ifs <;> rfl

lemma CancelledRel.closed (c : Closed s) (hl : FlightLive s) {d : Dict Nat LifecycleScope}
    (h : CancelledRel s d) :
    ∃ d', cancelAll d c.scope (scopeOccurrences s c.scope) = .ok d' ∧ CancelledRel c.after d' := by
  have hfresh : ∀ id ∈ scopeOccurrences s c.scope, d.get? id = none := by
    intro id hid
    obtain ⟨o, ho, -⟩ := (hl.mem_scopeOccurrences c.scope).mp hid
    rw [get?_eq_none, h.keys, ← get?_eq_none]
    exact hl.cancelled_of_inFlight ho
  obtain ⟨d', hd', hentries⟩ := cancelAll_fresh c.scope (hl.scopeOccurrences_nodup c.scope) hfresh
  refine ⟨d', hd', ?_⟩
  unfold CancelledRel
  rw [hentries, hl.entries_cancelled c, map_append, map_append, h,
    hl.scopeOccurrences_eq, map_map, map_map]
  congr 1
  apply map_congr_left
  intro e he
  have hscope := (mem_filter.mp he).2
  rw [decide_eq_true_eq] at hscope
  simp only [Function.comp_apply, hscope]

def cancellationStep (cancelled : Dict Nat LifecycleScope) (record : Record) :
    Except Exc (Dict Nat LifecycleScope) :=
  match record.closure? with
  | none => .ok cancelled
  | some (scope, ids) => cancelAll cancelled scope ids

lemma Commit.closure?_cases (c : Commit D s) :
    (∃ d, c = .closed d) ∨
      (∀ r ∈ c.batch, r.closure? = none) ∧ c.after.cancelled = s.cancelled := by
  cases c with
  | closed c => exact .inl ⟨c, rfl⟩
  | _ =>
    refine .inr ⟨fun r hr => ?_, rfl⟩
    cases Commit.batch_appends _ r hr <;> rfl

lemma cancellation_tracks : Tracks D (fun _ => cancellationStep) Dict.empty CancelledRel where
  created {m} instanceId instant _ := by
    refine ⟨Dict.empty, foldlM_inert ?_, rfl⟩
    intro r hr
    rcases mem_initialRecords hr with rfl | ⟨_, -, rfl⟩ | ⟨_, -, rfl⟩ <;> rfl
  commit {s f} _ c hs hrel := by
    rcases c.closure?_cases with ⟨c, rfl⟩ | ⟨hbatch, hcancelled⟩
    · obtain ⟨d', hd', hrel'⟩ := hrel.closed c hs.live.flight
      have hstep : cancellationStep f c.record = .ok d' := by
        simp only [cancellationStep, c.closure?_record, hd']
      exact ⟨d', foldlM_cons_ok hstep, hrel'⟩
    · refine ⟨f, foldlM_inert ?_, hrel.frame hcancelled⟩
      intro r hr
      simp only [cancellationStep, hbatch r hr]
  reorder _ _ hrel := hrel

lemma Reached.replayCancelled (h : Reached D s) :
    replayCancelled s.records = .ok s.cancelled.values ∧ byId s.cancelled.values = s.cancelled := by
  obtain ⟨f, occs, hsorted, hrel⟩ := h.sortedLifecycle
  obtain ⟨d, hd, hcancelled⟩ := cancellation_tracks.reached h
  have hcancellations : cancellations s.records = .ok d := hd
  have hid : ∀ e ∈ s.cancelled.entries, e.2.id = e.1 :=
    fun e he => (h.live.flight.cancelled e.1 e.2 (get?_eq_some.mpr he)).1
  refine ⟨?_, byId_values hid⟩
  rw [Impetus.replayCancelled, hsorted, ok_bind, hcancellations, ok_bind]
  rw [mapM_eq_ok]
  -- The two tables agree entry by entry, so each entry rebuilds the occurrence beside it.
  have hpairs : List.Forall₂ (fun (a : Nat × LifecycleScope) (b : Nat × FiringOccurrence) =>
      (a.1, some a.2) = (b.1, b.2.scope)) d.entries s.cancelled.entries := by
    have heq : List.Forall₂ (· = ·) (d.entries.map fun e => (e.1, some e.2))
        (s.cancelled.entries.map fun e => (e.1, e.2.scope)) := by
      rw [forall₂_eq_eq_eq]
      exact hcancelled
    rwa [forall₂_map_left_iff, forall₂_map_right_iff] at heq
  rw [Dict.values, forall₂_map_right_iff]
  have hmem : List.Forall₂ (fun (a : Nat × LifecycleScope) (b : Nat × FiringOccurrence) =>
      (a.1, some a.2) = (b.1, b.2.scope) ∧ b ∈ s.cancelled.entries)
      d.entries s.cancelled.entries := by
    rw [forall₂_iff_get] at hpairs ⊢
    refine ⟨hpairs.1, ?_⟩
    intro i h₁ h₂
    exact ⟨hpairs.2 i h₁ h₂, get_mem _ _⟩
  refine hmem.imp ?_
  rintro ⟨id, scope⟩ ⟨id', o⟩ ⟨heq, ho⟩
  have hoid : o.id = id' := hid _ ho
  subst hoid
  simp only [Prod.mk.injEq] at heq
  obtain ⟨rfl, hscope⟩ := heq
  have hocc := hrel.cancelled _ _ (get?_eq_some.mpr ho)
  simp only [hrel.get?_begun hocc]
  rw [hrel.rebuild hocc, ok_bind, require_true hscope.symm]
  rfl

/-! ## Late reports -/

structure QuarantineRel (s : Instance) (f : QuarantineFold) : Prop where
  quarantined : f.quarantined = s.quarantinedActivity
  cancelled : CancelledRel s f.cancelled

lemma QuarantineFold.step_inert {f : QuarantineFold} {r : Record}
    (h : r.closure? = none) (hq : ∀ q, r ≠ .activityTerminalQuarantined q) : f.step r = .ok f := by
  cases r with
  | activityTerminalQuarantined q => exact absurd rfl (hq q)
  | _ => first | rfl | cases h

lemma quarantine_quarantined (c : Quarantined D s) {f : QuarantineFold}
    (h : QuarantineRel s f) :
    ∃ f', c.batch.foldlM QuarantineFold.step f = .ok f' ∧ QuarantineRel c.after f' := by
  have hcancelled : f.cancelled.get? c.occurrence.id = some c.scope :=
    h.cancelled.get? c.cancelled c.occurrence_scope
  have hfirst : f.quarantined.contains c.occurrence.id = false := by
    rw [contains_eq_false, h.quarantined]
    exact c.first
  have hstep : f.quarantine
      ⟨c.occurrence.binding.transition, c.outcome, c.scope, c.occurrence.id, c.instant⟩ =
        .ok { f with quarantined := f.quarantined.set c.occurrence.id c.outcome } := by
    rw [QuarantineFold.quarantine, require_bind hcancelled, require_true hfirst]
    rfl
  refine ⟨_, foldlM_cons_ok hstep, ?_, h.cancelled⟩
  rw [h.quarantined]
  rfl

lemma quarantine_tracks : Tracks D (fun _ => QuarantineFold.step) {} QuarantineRel where
  created {m} instanceId instant _ := by
    refine ⟨{}, foldlM_inert ?_, rfl, rfl⟩
    intro r hr
    rcases mem_initialRecords hr with rfl | ⟨_, -, rfl⟩ | ⟨_, -, rfl⟩ <;> rfl
  commit {s f} _ c hs hrel := by
    have hinert : (∀ r ∈ c.batch, ∀ q, r ≠ .activityTerminalQuarantined q) →
        (∀ r ∈ c.batch, r.closure? = none) → c.after.cancelled = s.cancelled →
        c.after.quarantinedActivity = s.quarantinedActivity →
        ∃ f', c.batch.foldlM QuarantineFold.step f = .ok f' ∧ QuarantineRel c.after f' := by
      intro hq hbatch hcancelled hquarantined
      refine ⟨f, foldlM_inert fun r hr => QuarantineFold.step_inert (hbatch r hr) (hq r hr),
        by rw [hquarantined, hrel.quarantined], hrel.cancelled.frame hcancelled⟩
    rcases c.closure?_cases with ⟨c, rfl⟩ | ⟨hbatch, hcancelled⟩
    · obtain ⟨d', hd', hrel'⟩ := hrel.cancelled.closed c hs.live.flight
      have hstep : f.step c.record = .ok { f with cancelled := d' } := by
        have hrecord : ∀ r : Record, r.closure? = some (c.scope, scopeOccurrences s c.scope) →
            f.step r = .ok { f with cancelled := d' } := by
          intro r hr
          cases r <;> first
            | cases hr
            | (simp only [QuarantineFold.step, hr, hd', ok_bind]; rfl)
        exact hrecord _ c.closure?_record
      exact ⟨_, foldlM_cons_ok hstep, hrel.quarantined, hrel'⟩
    · cases c with
      | quarantined c => exact quarantine_quarantined c hrel
      | _ =>
        refine hinert (fun r hr q heq => ?_) hbatch hcancelled rfl
        cases Commit.batch_appends _ r hr <;> cases heq
  reorder _ _ hrel := ⟨hrel.quarantined, hrel.cancelled⟩

lemma Reached.replayQuarantinedActivity (h : Reached D s) :
    replayQuarantinedActivity s.records = .ok s.quarantinedActivity := by
  obtain ⟨f, hfold, hrel⟩ := quarantine_tracks.reached h
  rw [Impetus.replayQuarantinedActivity, hfold, ← hrel.quarantined]
  rfl

end Petrus.Impetus
