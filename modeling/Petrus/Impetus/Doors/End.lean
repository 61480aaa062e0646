import Petrus.Impetus.Doors.Begin

/-!
# The doors that end a firing refine commits

A terminal door is handed an occurrence equal to the one in flight, not the same one;
what a commit reads of an occurrence is the same for both.
-/

namespace Petrus.Impetus

open Lib Motus List Dict Act

variable {D : Definition} {s : Instance}
variable {occurrence o : FiringOccurrence} {atInstant : Option Instant} {rejection : String}
  {envelope : HandlerResult}

/-! ## The occurrence in hand and the one in flight -/

/-- Two occurrences agree on what ending a firing reads of them. -/
structure SameFiring (a b : FiringOccurrence) : Prop where
  id : a.id = b.id
  transition : a.binding.transition = b.binding.transition
  scope : a.scope = b.scope
  impure : a.invocation ≠ none ↔ b.invocation ≠ none

lemma sameFiring {a b : FiringOccurrence} (h : a.equals b = true) :
    SameFiring a b := by
  simp only [FiringOccurrence.equals, Binding.equals, decide_eq_true_eq] at h
  obtain ⟨hid, ⟨htransition, -⟩, -, hinvocation, hscope⟩ := h
  refine ⟨hid, htransition, hscope, ?_⟩
  cases ha : a.invocation with
  | none | some => cases hb : b.invocation <;> simp [ha, hb, invocationEquals] at hinvocation ⊢

lemma any_equals {table : Dict Nat FiringOccurrence} :
    (table.get? occurrence.id).any (·.equals occurrence) = true ↔
      ∃ o, table.get? occurrence.id = some o ∧ o.equals occurrence = true := by
  cases table.get? occurrence.id <;> simp

lemma ensureInFlight_eq_ok {verb : String} :
    ensureInFlight s occurrence verb = .ok () ↔
      ∃ o, s.inFlight.get? occurrence.id = some o ∧ o.equals occurrence = true := by
  rw [← any_equals]
  unfold ensureInFlight
  split_ifs with h <;> simp [h]

lemma FiringOccurrence.equals_self (o : FiringOccurrence) : o.equals o = true := by
  have hrecord : ∀ r : Record, r.equals r = true := by
    intro r
    cases r <;> simp [Record.equals, Movement.equals]
  have hrecords : ∀ rs : List Record, recordsEqual rs rs = true := by
    intro rs
    induction rs with
    | nil => rfl
    | cons r rs ih => rw [recordsEqual, hrecord, ih]; rfl
  have hinvocation : invocationEquals o.invocation o.invocation = true := by
    cases o.invocation <;> simp [invocationEquals]
  simp [FiringOccurrence.equals, Binding.equals, hrecords, hinvocation]

/-! ## Terminal activity reports -/

lemma freezePlan_settles {outcome : Outcome} (ho : s.inFlight.get? occurrence.id = some o)
    (hsame : o.equals occurrence = true) (himpure : occurrence.invocation ≠ none)
    (hfirst : s.frozenResults.get? occurrence.id = none) :
    Settles (fun (c : Commit D s) _ => ∃ k : Frozen D s, c = .frozen k ∧ k.occurrence = o ∧
      k.outcome = outcome) (freezePlan s occurrence outcome atInstant) terminalSettle := by
  have hsame := sameFiring hsame
  let k : Frozen D s :=
    { occurrence := o, outcome, instant := s.effective atInstant
      instant_le := s.watermark_le_effective atInstant
      inFlight := by rw [hsame.id]; exact ho
      impure := hsame.impure.mpr himpure
      first := by rw [hsame.id]; exact hfirst }
  intro records effect hplan
  simp only [freezePlan, bind_eq_ok, writerRecords_eq_ok] at hplan
  obtain ⟨batch, ⟨hrecords, hchecked⟩, heq⟩ := hplan
  have hbatch : k.batch = batch := by
    unfold Frozen.batch Frozen.record
    rw [hsame.id, hsame.transition]
    refine Eq.trans ?_ hrecords.symm
    cases outcome <;> rfl
  rw [← hrecords, ← hbatch] at hchecked
  rw [← hbatch] at heq
  cases heq
  refine ⟨.frozen k, .accepted, ⟨k, rfl, rfl, rfl⟩, rfl, hchecked, ?_⟩
  change _ = (_, k.after)
  unfold Frozen.after
  rw [show k.occurrence.id = occurrence.id from hsame.id]
  rfl

lemma freezePlan_ne_answer {outcome : Outcome} (b : TerminalDisposition) :
    freezePlan s occurrence outcome atInstant ≠ .ok (.answer b) := by
  intro h
  obtain ⟨_, -, heq⟩ := bind_eq_ok.mp h
  cases heq

lemma quarantineTerminal_settles {outcome : Json} :
    Settles (fun (c : Commit D s) _ => ∃ k : Quarantined D s,
      c = .quarantined k ∧ k.occurrence.id = occurrence.id ∧ k.outcome = outcome)
        (quarantineTerminal s occurrence outcome atInstant) terminalSettle := by
  intro records effect hplan
  unfold quarantineTerminal at hplan
  rw [require_bind_eq_ok, any_equals] at hplan
  obtain ⟨⟨⟨o, ho, hsame⟩, himpure⟩, hplan⟩ := hplan
  have hsame := sameFiring hsame
  cases hscope : occurrence.scope with
  | none => simp [hscope] at hplan
  | some scope =>
    simp only [hscope] at hplan
    cases hprior : s.quarantinedActivity.get? occurrence.id with
    | some prior =>
      rw [hprior] at hplan
      simp only [bind_eq_ok] at hplan
      obtain ⟨_, -, heq⟩ := hplan
      cases heq
    | none =>
      rw [hprior] at hplan
      simp only [bind_eq_ok, writerRecords_eq_ok] at hplan
      obtain ⟨_, ⟨rfl, hchecked⟩, heq⟩ := hplan
      cases heq
      let k : Quarantined D s :=
        { occurrence := o, outcome, scope, instant := s.effective atInstant
          instant_le := s.watermark_le_effective atInstant
          cancelled := by rw [hsame.id]; exact ho
          impure := hsame.impure.mpr himpure
          occurrence_scope := by rw [hsame.scope]; exact hscope
          first := by rw [hsame.id]; exact hprior }
      have hbatch : k.batch = [.activityTerminalQuarantined ⟨occurrence.binding.transition,
          outcome, scope, occurrence.id, s.effective atInstant⟩] := by
        unfold Quarantined.batch
        rw [hsame.id, hsame.transition]
      refine ⟨.quarantined k, .quarantined, ⟨k, rfl, hsame.id, rfl⟩, hbatch, hchecked, ?_⟩
      rw [← hbatch]
      change _ = (_, k.after)
      simp only [Quarantined.after]
      rw [show k.occurrence.id = occurrence.id from hsame.id]
      rfl

/-- What a terminal report may commit: a frozen outcome, or a quarantined one. -/
def Reports (id : Nat) (outcome : Outcome) (c : Commit D s) : Prop :=
  (∃ k : Frozen D s, c = .frozen k ∧ k.occurrence.id = id ∧ k.outcome = outcome) ∨
    ∃ k : Quarantined D s, c = .quarantined k ∧ k.occurrence.id = id ∧ k.outcome = outcome.terminal

lemma canonicalPayload_eq_ok {value : Payload} {json : Json} :
    canonicalPayload value rejection = .ok json ↔ value = .faithful json := by
  cases value <;> simp [canonicalPayload]

lemma recordActivityCompletion_atMostOne (store : Store) (occurrence : FiringOccurrence)
    (result : Payload) (atInstant : Option Instant) :
    AtMostOne (fun (c : Commit D s) _ => ∃ json, result = .faithful json ∧
      Reports occurrence.id (.completed json) c)
        (recordActivityCompletion store occurrence result atInstant s) := by
  apply door_atMostOne
  unfold recordActivityCompletionPlan
  dsimp only
  split
  · apply Settles.bind
    intro json hjson
    refine quarantineTerminal_settles.mono fun c _ hc => ?_
    exact ⟨json, canonicalPayload_eq_ok.mp hjson, .inr hc⟩
  split
  · exact Settles.bind fun json _ => Settles.answer
  apply Settles.bind
  intro _ hflight
  obtain ⟨o, ho, hequals⟩ := ensureInFlight_eq_ok.mp hflight
  apply Settles.bind
  intro _ himpure
  apply Settles.bind
  intro json hjson
  split
  · exact Settles.answer
  · rename_i hfirst
    refine (freezePlan_settles ho hequals (require_eq_ok.mp himpure) hfirst).mono ?_
    rintro c _ ⟨k, rfl, rfl, houtcome⟩
    exact ⟨json, canonicalPayload_eq_ok.mp hjson,
      .inl ⟨k, rfl, (sameFiring hequals).id, houtcome⟩⟩

lemma recordActivityFailure_atMostOne (store : Store) (occurrence : FiringOccurrence)
    (failure : ActivityFailure) (atInstant : Option Instant) :
    AtMostOne (fun (c : Commit D s) _ => Reports occurrence.id (.failed failure) c)
      (recordActivityFailure store occurrence failure atInstant s) := by
  apply door_atMostOne
  unfold recordActivityFailurePlan
  split
  · exact quarantineTerminal_settles.mono fun c _ hc => .inr hc
  split
  · exact Settles.answer
  apply Settles.bind
  intro _ hflight
  obtain ⟨o, ho, hequals⟩ := ensureInFlight_eq_ok.mp hflight
  apply Settles.bind
  intro _ himpure
  split
  · exact Settles.answer
  · rename_i hfirst
    refine (freezePlan_settles ho hequals (require_eq_ok.mp himpure) hfirst).mono ?_
    rintro c _ ⟨k, rfl, rfl, houtcome⟩
    exact .inl ⟨k, rfl, (sameFiring hequals).id, houtcome⟩

/-! ## Completion -/

lemma mem_completeFiring {net : Net} {t : NetPath} {tokens : List (Destination × List Token)}
    {effects : List Selection} (h : completeFiring net t tokens = .ok effects) :
    (∀ e ∈ effects, e.2 ≠ []) ∧ (effects.map Prod.fst).Nodup ∧
      ∀ e ∈ effects, ∀ token ∈ e.2,
        (net.outputs t).any (fun arc => arc.target = e.1 && arc.admits token.color) = true := by
  obtain ⟨routed, -, heq⟩ := bind_eq_ok.mp h
  cases heq
  refine ⟨fun e he => of_decide_eq_true (mem_filter.mp he).2, ?_, ?_⟩
  · have hkeys : (routed.entries.map fun e =>
        (e.1, deposited (net.outputs t) e.1 e.2)).map Prod.fst = routed.keys := by
      rw [map_map]
      rfl
    have hsub : (((routed.entries.map fun e => (e.1, deposited (net.outputs t) e.1 e.2)).filter
        fun e => e.2 ≠ []).map Prod.fst).Sublist routed.keys := by
      rw [← hkeys]
      exact filter_sublist.map _
    exact routed.nodup.sublist hsub
  · intro e he token htoken
    obtain ⟨e', -, rfl⟩ := mem_map.mp (mem_filter.mp he).1
    exact (mem_filter.mp htoken).2

lemma requireEffect_eq_ok {effect : Option DeliveryRegistration} {r : DeliveryRegistration} :
    requireEffect D rejection effect = .ok r ↔ effect = some r ∧
      r.source ∈ D.net.transitionPaths ∧ D.net.isSource r.source = true := by
  cases effect with
  | none => simp [requireEffect]
  | some effect =>
    simp only [requireEffect]
    rw [require_bind_eq_ok, require_bind_eq_ok]
    constructor
    · rintro ⟨hmem, hsource, heq⟩
      cases heq
      exact ⟨rfl, hmem, hsource⟩
    · rintro ⟨heq, hmem, hsource⟩
      cases heq
      exact ⟨hmem, hsource, rfl⟩

lemma mapM_requireEffect {effects : List (Option DeliveryRegistration)}
    {rs : List DeliveryRegistration} (h : effects.mapM (requireEffect D rejection) = .ok rs) :
    effects = rs.map some := by
  rw [← forall₂_eq_eq_eq, forall₂_map_right_iff]
  exact (mapM_eq_ok.mp h).imp fun _ _ hr => (requireEffect_eq_ok.mp hr).1

lemma armedAfter_ok {after : ArmedAfter} (h : armedAfter D s occurrence envelope = .ok after) :
    (envelope.closes = after.closes.map some ∧ envelope.opens = after.opens.map some) ∧
    (∀ r ∈ after.closes ++ after.opens,
      r.source ∈ D.net.transitionPaths ∧ D.net.isSource r.source = true) ∧
    (after.closes.foldlM (closeEffect "") s.armed >>= after.opens.foldlM (openEffect "")) =
      .ok after.armed := by
  simp only [armedAfter, bind_eq_ok] at h
  obtain ⟨closes, hcloses, opens, hopens, closed, hclosed, armed, harmed, heq⟩ := h
  cases heq
  refine ⟨⟨mapM_requireEffect hcloses, mapM_requireEffect hopens⟩, ?_, ?_⟩
  · intro r hr
    rcases mem_append.mp hr with hr | hr
    · obtain ⟨effect, -, heffect⟩ := mem_of_mapM hcloses hr
      exact (requireEffect_eq_ok.mp heffect).2
    · obtain ⟨effect, -, heffect⟩ := mem_of_mapM hopens hr
      exact (requireEffect_eq_ok.mp heffect).2
  · have hclose : closes.foldlM (closeEffect "") s.armed = .ok closed :=
      foldlM_mono (fun _ _ _ ha => closeEffect_eq_ok.mpr (closeEffect_eq_ok.mp ha)) hclosed
    have hopen : opens.foldlM (openEffect "") closed = .ok armed :=
      foldlM_mono (fun _ _ _ ha => openEffect_eq_ok.mpr (openEffect_eq_ok.mp ha)) harmed
    rw [hclose]
    exact hopen

lemma projection_pure {result : Option HandlerResult}
    (h : projection D s occurrence result = .ok envelope) (hpure : occurrence.invocation = none) :
    result = some envelope := by
  simp only [projection, hpure, bind_eq_ok] at h
  obtain ⟨projected, ⟨_, -, hresult⟩, henvelope⟩ := h
  cases hresult
  cases result with
  | none => cases henvelope
  | some r =>
    cases henvelope
    rfl

lemma projection_frozen {result : Option HandlerResult}
    (h : projection D s occurrence result = .ok envelope) (himpure : occurrence.invocation ≠ none) :
    s.frozenResults.contains occurrence.id = true := by
  cases hinvocation : occurrence.invocation with
  | none => exact absurd hinvocation himpure
  | some invocation =>
    simp only [projection, hinvocation, bind_eq_ok] at h
    obtain ⟨projected, ⟨_, -, hfrozen⟩, -⟩ := h
    cases hget : s.frozenResults.get? occurrence.id with
    | none =>
      rw [hget] at hfrozen
      cases hfrozen
    | some outcome =>
      rw [contains_iff_get?]
      exact ⟨outcome, hget⟩

lemma foldlM_productions (c : Completed D s) {queues : Queues} {next : Nat}
    (effects : List Selection) (hb : queues.Below next) :
    ((numbered next effects).map fun e => (Record.tokensProduced (c.production e), e.2)).foldlM
      (fun queues m => applyMovement queues m.1 m.2) queues =
        .ok (depositAll c.occurrence.scope c.instant queues next effects) := by
  induction effects generalizing queues next with
  | nil => rfl
  | cons effect effects ih =>
    have hentries : (c.production (effect, List.range' next effect.2.length)).entries = [] ∨
        (c.production (effect, List.range' next effect.2.length)).entries =
          List.range' next effect.2.length := by
      unfold Completed.production
      dsimp only
      split_ifs
      · exact .inl rfl
      · exact .inr rfl
    have hchosen := orElse_inferred (nextQueueIdentity queues) hentries
    rw [length_range'] at hchosen
    rw [numbered, map_cons, foldlM_cons_eq_ok]
    exact ⟨_, deposit_fresh hb hchosen effect.1 c.occurrence.scope c.instant,
      ih (hb.deposited effect)⟩

lemma end_apply {α : Type} (k : Door α) {t : Instance}
    (ho : t.inFlight.get? occurrence.id = some o)
    (hfrozen : occurrence.invocation ≠ none ↔ t.frozenResults.contains occurrence.id = true) :
    (do
      if occurrence.invocation ≠ none then settleOutcome occurrence.id
      let _ ← popInFlight occurrence.id
      k : Door α) t = k { t with
        inFlight := t.inFlight.erase occurrence.id
        frozenResults := t.frozenResults.erase occurrence.id
        terminalActivity :=
          match t.frozenResults.get? occurrence.id with
          | none => t.terminalActivity
          | some outcome => t.terminalActivity.set occurrence.id outcome } := by
  cases hget : t.frozenResults.get? occurrence.id with
  | none =>
    have hpure : ¬ occurrence.invocation ≠ none := by
      rw [hfrozen, contains_eq_false.mpr hget]
      exact Bool.false_ne_true
    rw [if_neg hpure]
    change (popInFlight occurrence.id >>= fun _ => k) t = _
    rw [bind_ok_apply (popInFlight_ok ho), erase_absent hget]
  | some outcome =>
    have himpure : occurrence.invocation ≠ none := by
      rw [hfrozen, contains_iff_get?]
      exact ⟨outcome, hget⟩
    rw [if_pos himpure]
    rw [bind_ok_apply (settleOutcome_ok hget)]
    exact bind_ok_apply (popInFlight_ok ho)

lemma Completed.filter_isTokensProduced (c : Completed D s) :
    c.batch.filter Record.isTokensProduced = c.produced := by
  have hproduced : c.produced.filter Record.isTokensProduced = c.produced := by
    rw [filter_eq_self]
    intro r hr
    obtain ⟨e, -, rfl⟩ := mem_map.mp hr
    rfl
  have hrest :
      (c.closings ++ (c.openings ++ [c.boundary])).filter Record.isTokensProduced = [] := by
    rw [filter_eq_nil_iff]
    intro r hr
    simp only [closings, openings, mem_append, mem_map, mem_singleton] at hr
    rcases hr with ⟨e, -, rfl⟩ | ⟨e, -, rfl⟩ | rfl <;> exact Bool.false_ne_true
  rw [c.batch_eq, filter_append, hproduced, hrest, append_nil]

def Completed.plan (c : Completed D s) (occurrence : FiringOccurrence) : CompletionPlan where
  occurrence := occurrence
  effects := numbered s.nextEntry c.effects
  appended := c.batch
  armed := c.armed
  nextEntry := s.nextEntry + producedCount c.effects
  instant := c.instant

lemma Completed.productions_plan (c : Completed D s) (occurrence : FiringOccurrence) :
    productions (c.plan occurrence) = (numbered s.nextEntry c.effects).map
      fun e => (Record.tokensProduced (c.production e), e.2) := by
  unfold productions
  change (c.batch.filter _).zip ((numbered s.nextEntry c.effects).map Prod.snd) = _
  rw [c.filter_isTokensProduced, Completed.produced, zip_map']

lemma FlightLive.contains_frozen (h : FlightLive s) (ho : s.inFlight.get? o.id = some o)
    (hfrozen : o.invocation ≠ none → s.frozenResults.contains o.id = true) :
    o.invocation ≠ none ↔ s.frozenResults.contains o.id = true := by
  refine ⟨hfrozen, ?_⟩
  intro hcontains
  obtain ⟨outcome, houtcome⟩ := contains_iff_get?.mp hcontains
  obtain ⟨o', ho', himpure⟩ := h.frozen o.id outcome houtcome
  rw [ho] at ho'
  cases ho'
  exact himpure

lemma completionSettle_ok (hl : Live D s) (c : Completed D s)
    (hsame : SameFiring c.occurrence occurrence) :
    completionSettle (c.plan occurrence) (s.appended c.batch) =
      (.ok (completionOutcome (c.plan occurrence)), c.after) := by
  have hqueues := foldlM_productions c c.effects hl.queue.below
  rw [← c.productions_plan occurrence] at hqueues
  have hmoved := applyMovements_ok (t := { s.appended c.batch with
    watermark := c.instant, nextEntry := s.nextEntry + producedCount c.effects }) hqueues
  have hflight : s.inFlight.get? occurrence.id = some c.occurrence := by
    rw [← hsame.id]
    exact c.inFlight
  have hfrozen : occurrence.invocation ≠ none ↔
      s.frozenResults.contains occurrence.id = true := by
    rw [← hsame.impure, ← hsame.id]
    exact hl.flight.contains_frozen c.inFlight c.frozen
  unfold completionSettle
  refine (bind_ok_apply hmoved).trans ?_
  refine (end_apply (t := { s.appended c.batch with
      watermark := c.instant, nextEntry := s.nextEntry + producedCount c.effects, armed := c.armed
      queues := depositAll c.occurrence.scope c.instant s.queues s.nextEntry c.effects })
    (pure (completionOutcome (c.plan occurrence))) hflight hfrozen).trans ?_
  simp only [Completed.after, hsame.id]
  rfl

lemma completionRecords_same {a b : FiringOccurrence} (h : SameFiring a b)
    (effects : List (Selection × List Nat)) (closes opens : List DeliveryRegistration)
    (instant : Instant) : completionRecords a effects closes opens instant =
      completionRecords b effects closes opens instant := by
  unfold completionRecords
  rw [h.id, h.scope, h.transition]

/-- A completion commits what its projected envelope says. -/
structure CompletesWith (occurrence : FiringOccurrence) (result : Option HandlerResult)
    (c : Completed D s) : Prop where
  equals : c.occurrence.equals occurrence = true
  projected : ∃ envelope, projection D s occurrence result = .ok envelope ∧
    completeFiring D.net occurrence.binding.transition envelope.tokens = .ok c.effects ∧
      envelope.closes = c.closes.map some ∧ envelope.opens = c.opens.map some

lemma completion_settles (hl : Live D s) (occurrence : FiringOccurrence)
    (result : Option HandlerResult) (atInstant : Option Instant) :
    Settles (fun (c : Commit D s) _ => ∃ k : Completed D s, c = .completed k ∧
      CompletesWith occurrence result k)
        (completionPlan D occurrence result atInstant s) completionSettle := by
  intro records p hplan
  simp only [completionPlan, bind_eq_ok, writerRecords_eq_ok] at hplan
  obtain ⟨_, hflight, envelope, henvelope, after, hafter, effects, heffects, _, ⟨rfl, hchecked⟩,
    heq⟩ := hplan
  obtain ⟨o, ho, hequals⟩ := ensureInFlight_eq_ok.mp hflight
  have hsame := sameFiring hequals
  obtain ⟨⟨hcloses, hopens⟩, hsources, harmed⟩ := armedAfter_ok hafter
  obtain ⟨hne, hdistinct, hadmitted⟩ := mem_completeFiring heffects
  let k : Completed D s :=
    { occurrence := o, effects, closes := after.closes, opens := after.opens, armed := after.armed
      instant := s.effective atInstant
      instant_le := s.watermark_le_effective atInstant
      inFlight := by rw [hsame.id]; exact ho
      frozen := by
        rw [hsame.impure, hsame.id]
        exact projection_frozen henvelope
      effects_ne := hne
      effects_distinct := hdistinct
      admitted := by
        rw [hsame.transition]
        exact hadmitted
      sources := hsources
      armed_ok := harmed }
  have hbatch : k.batch = completionRecords occurrence (numbered s.nextEntry effects)
      after.closes after.opens (s.effective atInstant) := completionRecords_same hsame ..
  rw [← hbatch] at hchecked heq
  cases heq
  exact ⟨.completed k, completionOutcome (k.plan occurrence),
    ⟨k, rfl, hequals, envelope, henvelope, heffects, hcloses, hopens⟩, rfl, hchecked,
    completionSettle_ok hl k hsame⟩

lemma complete_atMostOne (hl : Live D s) (store : Store) (occurrence : FiringOccurrence)
    (result : Option HandlerResult) (atInstant : Option Instant) :
    AtMostOne (fun (c : Commit D s) _ => ∃ k : Completed D s, c = .completed k ∧
      CompletesWith occurrence result k) (complete D store occurrence result atInstant s) :=
  door_atMostOne store (completion_settles hl occurrence result atInstant)

/-! ## Terminal failure -/

lemma failPlan_settles (hl : Live D s) (ho : s.inFlight.get? occurrence.id = some o)
    (hequals : o.equals occurrence = true)
    (hfrozen : occurrence.invocation ≠ none → s.frozenResults.contains occurrence.id = true)
    (failure : ActivityFailure) (atInstant : Option Instant) :
    Settles (fun (c : Commit D s) _ => ∃ k : Failed D s, c = .failed k ∧ k.occurrence = o)
      (failPlan occurrence failure atInstant s) failSettle := by
  have hsame := sameFiring hequals
  intro records p hplan
  simp only [failPlan, bind_eq_ok, writerRecords_eq_ok] at hplan
  obtain ⟨_, ⟨rfl, hchecked⟩, heq⟩ := hplan
  have hbound : failure.error ≠ "" ∧ failure.error.length ≤ 4096 := by
    have hrecord := hchecked _ (mem_singleton.mpr rfl)
    simp only [Record.check, bind_eq_ok, require_eq_ok] at hrecord
    obtain ⟨_, -, hbound⟩ := hrecord
    exact hbound
  let k : Failed D s :=
    { occurrence := o, error := failure.error, instant := s.effective atInstant
      instant_le := s.watermark_le_effective atInstant
      inFlight := by rw [hsame.id]; exact ho
      frozen := by
        rw [hsame.impure, hsame.id]
        exact hfrozen
      error_bound := hbound }
  have hbatch : k.batch = [.firingFailed ⟨occurrence.binding.transition, failure.error,
      occurrence.id, s.effective atInstant⟩] := by
    unfold Failed.batch
    rw [hsame.id, hsame.transition]
  have hcontains : occurrence.invocation ≠ none ↔
      s.frozenResults.contains occurrence.id = true := by
    rw [← hsame.impure, ← hsame.id]
    exact hl.flight.contains_frozen k.inFlight k.frozen
  rw [← hbatch] at hchecked heq
  cases heq
  refine ⟨.failed k, (), ⟨k, rfl, rfl⟩, rfl, hchecked, ?_⟩
  refine (end_apply (t := { s.appended k.batch with watermark := k.instant }) (pure ()) ho
    hcontains).trans ?_
  change _ = (_, k.after)
  unfold Failed.after
  rw [show k.occurrence.id = occurrence.id from hsame.id]
  rfl

/-- What recording a failure may commit for the occurrence `id`: the frozen failure, its
projection, or the failure itself. -/
def FailsWith (id : Nat) : (s : Instance) → Commit D s → Prop
  | _, .frozen k => k.occurrence.id = id
  | _, .completed k => k.occurrence.id = id ∧ k.occurrence.invocation ≠ none
  | _, .failed k => k.occurrence.id = id
  | _, _ => False

lemma recordActivityFailurePlan_first (hl : Live D s)
    (ho : s.inFlight.get? occurrence.id = some o) (hequals : o.equals occurrence = true)
    (himpure : occurrence.invocation ≠ none) (hfirst : s.frozenResults.get? occurrence.id = none)
    (failure : ActivityFailure) (atInstant : Option Instant) :
    recordActivityFailurePlan occurrence failure atInstant s =
      freezePlan s occurrence (.failed failure) atInstant := by
  have hcancelled : s.cancelled.contains occurrence.id = false :=
    contains_eq_false.mpr (hl.flight.cancelled_of_inFlight ho)
  have hterminal : s.terminalActivity.get? occurrence.id = none := by
    cases hget : s.terminalActivity.get? occurrence.id with
    | none => rfl
    | some outcome =>
      have habsent := (hl.flight.terminal _ outcome hget).2.1
      rw [ho] at habsent
      cases habsent
  have hflight : ensureInFlight s occurrence "record an activity failure for" = .ok () :=
    ensureInFlight_eq_ok.mpr ⟨o, ho, hequals⟩
  unfold recordActivityFailurePlan
  rw [hcancelled, hterminal, hflight, hfirst]
  simp only [Bool.false_eq_true, if_false, ok_bind]
  rw [require_bind himpure]

lemma validateFailure_eq_ok {report : FailureReport} {failure : ActivityFailure}
    (h : validateFailure s occurrence report = .ok failure) :
    ∃ o, s.inFlight.get? occurrence.id = some o ∧ o.equals occurrence = true := by
  obtain ⟨_, hflight, -⟩ := bind_eq_ok.mp h
  exact ensureInFlight_eq_ok.mp hflight

lemma fail_ending (hl : Live D s) (ho : s.inFlight.get? occurrence.id = some o)
    (hequals : o.equals occurrence = true)
    (hfrozen : occurrence.invocation ≠ none → s.frozenResults.contains occurrence.id = true)
    (store : Store) (failure : ActivityFailure) (atInstant : Option Instant) :
    Chain D (FailsWith occurrence.id) s ((if occurrence.invocation ≠ none ∧
        projectsFailure D occurrence.binding.transition then do
      let _ ← complete D store occurrence none atInstant
    else door (commit store (failPlan occurrence failure atInstant) failSettle) :
      Door Unit) s).2 := by
  split_ifs with hproject
  · refine Chain.bind ((complete_atMostOne hl store occurrence none atInstant).chain ?_)
      fun _ _ _ => .refl
    rintro c _ ⟨k, rfl, hk⟩
    have hsame := sameFiring hk.equals
    exact ⟨hsame.id, hsame.impure.mpr hproject.1⟩
  · refine (door_atMostOne store
      (failPlan_settles hl ho hequals hfrozen failure atInstant)).chain ?_
    rintro c _ ⟨k, rfl, rfl⟩
    exact (sameFiring hequals).id

lemma fail_chain (hl : Live D s) (store : Store) (occurrence : FiringOccurrence)
    (report : FailureReport) (atInstant : Option Instant) :
    Chain D (FailsWith occurrence.id) s (fail D store occurrence report atInstant s).2 := by
  unfold fail
  rw [get_bind_apply]
  apply Chain.bind .refl
  intro failure t hvalid
  simp only [lift_apply, Prod.mk.injEq] at hvalid
  obtain ⟨hvalid, rfl⟩ := hvalid
  obtain ⟨o, ho, hequals⟩ := validateFailure_eq_ok hvalid
  by_cases hrecord : occurrence.invocation ≠ none ∧ s.frozenResults.contains occurrence.id = false
  · rw [if_pos hrecord]
    have hfirst := contains_eq_false.mp hrecord.2
    have hsettles : Settles (fun (c : Commit D s) _ => ∃ k : Frozen D s, c = .frozen k ∧
        k.occurrence = o ∧ k.outcome = .failed failure)
        (recordActivityFailurePlan occurrence failure atInstant s) terminalSettle := by
      rw [recordActivityFailurePlan_first hl ho hequals hrecord.1 hfirst]
      exact freezePlan_settles ho hequals hrecord.1 hfirst
    have hreport : Chain D (FailsWith occurrence.id) s
        (recordActivityFailure store occurrence failure atInstant s).2 := by
      refine (door_atMostOne store hsettles).chain ?_
      rintro c _ ⟨k, rfl, rfl, -⟩
      exact (sameFiring hequals).id
    apply Chain.bind hreport
    intro disposition t hok
    have hbatch : ∀ b, recordActivityFailurePlan occurrence failure atInstant s ≠
        .ok (.answer b) := by
      rw [recordActivityFailurePlan_first hl ho hequals hrecord.1 hfirst]
      exact freezePlan_ne_answer
    obtain ⟨c, ⟨k, rfl, rfl, -⟩, hchecked, rfl⟩ := door_returned hsettles hbatch hok
    have hid := (sameFiring hequals).id
    apply fail_ending (hl.commit (.frozen k)) ho hequals
    intro _
    rw [contains_iff_get?, ← hid]
    exact ⟨k.outcome, get?_set_self ..⟩
  · rw [if_neg hrecord]
    apply fail_ending hl ho hequals
    intro himpure
    by_contra hfrozen
    exact hrecord ⟨himpure, Bool.eq_false_iff.mpr hfrozen⟩

/-! ## The inline driver -/

/-- What executing the occurrence in flight may commit: its pure handler's result, or a failure. -/
def Executes (occurrence : FiringOccurrence) (s : Instance) (c : Commit D s) : Prop :=
  FailsWith occurrence.id s c ∨ ∃ (k : Completed D s) (run : Binding → List Arc → Projected)
    (result : Option HandlerResult), c = .completed k ∧ k.occurrence = occurrence ∧
      D.boundHandler occurrence.binding.transition = .plain run ∧
      run occurrence.binding (D.net.outputs occurrence.binding.transition) = .ok result ∧
      CompletesWith occurrence result k

lemma execute_chain (hl : Live D s) (store : Store)
    (ho : s.inFlight.get? occurrence.id = some occurrence) (atInstant : Option Instant) :
    Chain D (Executes occurrence) s (execute D store occurrence atInstant s).2 := by
  unfold execute
  cases hbound : D.boundHandler occurrence.binding.transition with
  | activity handler => exact .refl
  | plain run =>
    have hcompletion : ∀ result,
        run occurrence.binding (D.net.outputs occurrence.binding.transition) = .ok result →
        AtMostOne (fun c _ => Executes (D := D) occurrence s c)
          (commitCompletion D store occurrence result atInstant s) := by
      intro result hresult
      refine (commit_atMostOne store
        (completion_settles hl occurrence result atInstant)).mono ?_
      rintro c _ ⟨k, rfl, hk⟩
      have hstored : k.occurrence = occurrence := by
        have hflight := k.inFlight
        rw [(sameFiring hk.equals).id, ho] at hflight
        exact (Option.some.inj hflight).symm
      exact .inr ⟨k, run, result, rfl, hstored, hbound, hresult, hk⟩
    have hbody : AtMostOne (fun c _ => Executes (D := D) occurrence s c) ((do
        let result ← Act.mapError Failure.raised (Act.lift
          (run occurrence.binding (D.net.outputs occurrence.binding.transition)))
        commitCompletion D store occurrence result atInstant : Act Instance Failure _) s) := by
      cases hresult : run occurrence.binding (D.net.outputs occurrence.binding.transition) with
      | error e => exact .still _
      | ok result => exact hcompletion result hresult
    apply Chain.catching (hbody.chain fun _ _ h => h)
    intro failure t herror
    rw [herror] at hbody
    have hstill := hbody.raised
    subst hstill
    cases failure with
    | refused e => exact .refl
    | raised e =>
      dsimp only
      rw [get_bind_apply]
      split_ifs with hflight
      · apply Chain.bind
        · have hfail := fail_chain hl store occurrence (.text (firingFailureText e)) atInstant
          exact hfail.weaken fun _ _ h => .inl h
        · exact fun _ _ _ => .refl
      · exact .refl

lemma step_chain (hl : Live D s) (store : Store) (atInstant : Option Instant) :
    Chain D (fun u c => (∃ k : Begun D u, c = .begun k) ∨ ∃ occurrence, Executes occurrence u c) s
      (step D store atInstant s).2 := by
  unfold step
  rw [get_bind_apply]
  apply Chain.bind .refl
  intro enabled t henabled
  obtain ⟨-, rfl⟩ := Prod.mk.inj henabled
  apply Chain.bind .refl
  intro chosen t hchosen
  obtain ⟨-, rfl⟩ := Prod.mk.inj hchosen
  cases chosen with
  | none => exact .refl
  | some binding =>
    dsimp only
    split_ifs with hactivity
    · exact .refl
    apply Chain.bind
    · refine (begin_atMostOne hl store binding atInstant).chain ?_
      rintro c _ ⟨k, rfl, -⟩
      exact .inl ⟨k, rfl⟩
    · intro o t hbegin
      obtain ⟨k, -, -, rfl, rfl, -⟩ := begin_returned hl hbegin
      have hflight : k.after.inFlight.get? k.occurrence.id = some k.occurrence :=
        get?_set_self ..
      apply Chain.bind
      · have hexecute := execute_chain (hl.commit (.begun k)) store hflight none
        exact hexecute.weaken fun _ _ h => .inr ⟨_, h⟩
      · exact fun _ _ _ => .refl

end Petrus.Impetus
