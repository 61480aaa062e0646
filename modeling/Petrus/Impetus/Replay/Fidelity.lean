import Petrus.Impetus.Replay.Sources

/-!
# Resume rebuilds the live state

Every projection of a reached history but one is the live state, and succeeds. Resume
therefore raises exactly when the check of the accepted source occurrences does, and
otherwise returns the live state, up to the order of its active scopes and of its
ended outcomes.
-/

namespace Petrus.Impetus

open Lib Motus Dict

variable {D : Definition} {s : Instance} {history : History}

/-! ## Places that hold tokens -/

/-- Every place that holds tokens is declared. -/
def Placed (D : Definition) (s : Instance) : Prop :=
  ∀ p, s.queues.at_ p ≠ [] → p ∈ D.net.placePaths

lemma Placed.of_sublist (h : Placed D s) {s' : Instance}
    (hsub : ∀ p, (s'.queues.at_ p).Sublist (s.queues.at_ p)) : Placed D s' := by
  intro p hp
  apply h p
  intro hnil
  have hempty := hsub p
  rw [hnil] at hempty
  exact hp (List.sublist_nil.mp hempty)

lemma at_deposited_ne {scope : Option LifecycleScope} {instant : Instant} {queues : Queues}
    {next : Nat} {effects : List Selection} {p : NetPath}
    (h : (depositAll scope instant queues next effects).at_ p ≠ []) :
    queues.at_ p ≠ [] ∨ ∃ effect ∈ effects, effect.1 = p := by
  obtain ⟨new, hat, -, htokens⟩ := at_depositAll scope instant queues next effects p
  by_cases hnew : new = []
  · left
    rwa [hat, hnew, List.append_nil] at h
  · exact .inr (boundAt_ne (htokens ▸ mt List.map_eq_nil_iff.mp hnew))

lemma Placed.commit (h : Placed D s) (hl : QueueLive s) (c : Commit D s) : Placed D c.after := by
  cases c with
  | begun c => exact h.of_sublist (consumedEntries_sublist hl.distinct c.consumed_ok)
  | closed c =>
    refine h.of_sublist fun p => ?_
    change ((withoutScope s.queues c.scope).at_ p).Sublist _
    rw [at_withoutScope]
    exact List.filter_sublist
  | completed c =>
    intro p hp
    rcases at_deposited_ne hp with hold | ⟨effect, heffect, rfl⟩
    · exact h p hold
    · obtain ⟨token, htoken⟩ := List.exists_mem_of_ne_nil _ (c.effects_ne effect heffect)
      obtain ⟨arc, harc, hadmits⟩ := List.any_eq_true.mp (c.admitted effect heffect token htoken)
      simp only [Bool.and_eq_true, decide_eq_true_eq] at hadmits
      rw [← hadmits.1]
      exact Net.target_mem_places harc
  | _ => exact h

lemma Reached.placed (h : Reached D s) (hdeclared : Declared D s) : Placed D s := by
  induction h with
  | created _ =>
    intro p hp
    rcases at_deposited_ne hp with hold | ⟨effect, heffect, rfl⟩
    · exact absurd rfl hold
    · exact declared_initial.mp hdeclared _ (List.mem_map_of_mem heffect)
  | commit hs c _ ih => exact (ih (c.declared_after.mp hdeclared)).commit hs.live.queue c
  | reordered _ _ _ ih => exact ih hdeclared

/-! ## The projections -/

namespace Reached

lemma replayQueues (h : Reached D s) : replayQueues s.records = .ok s.queues := by
  obtain ⟨f, hfold, hrel⟩ := h.replayQueueProjection
  rw [Impetus.replayQueues, hfold, ← hrel.queues]
  rfl

lemma replayNextQueueIdentity (h : Reached D s) :
    replayNextQueueIdentity s.records = .ok s.nextEntry := by
  obtain ⟨f, hfold, hrel⟩ := h.replayQueueProjection
  rw [Impetus.replayNextQueueIdentity, hfold, ← hrel.next]
  rfl

lemma markedPlaces (h : Reached D s) (hdeclared : Declared D s) : checkEach (fun e : Selection =>
    require (e.1 ∈ D.net.placePaths) (valueError
      s!"cannot resume: token records on {e.1.str}: not a place of this net"))
    s.queues.marking.queues.entries = .ok () := by
  apply checkEach_ok
  intro e he
  apply require_true
  apply h.placed hdeclared
  -- A place of the marking holds tokens, so its queue is not empty.
  have hne := s.queues.marking.sparse e he
  obtain ⟨hget, -⟩ := get?_filter.mp (get?_eq_some.mpr he)
  rw [get?_mapValues, Option.map_eq_some_iff] at hget
  obtain ⟨queue, hqueue, htokens⟩ := hget
  intro hempty
  apply hne
  rw [Queues.at_, hqueue] at hempty
  rw [← htokens, show queue = [] from hempty]
  rfl

lemma armedSources (h : Reached D s) :
    checkEach (validateArmedSource D.net) s.armed.keys = .ok () := by
  apply checkEach_ok
  intro source hsource
  rw [h.live.armed.keys] at hsource
  obtain ⟨hmem, hisSource⟩ := Net.mem_sourceTransitions.mp hsource
  rw [validateArmedSource, require_bind hmem, require_true hisSource]

lemma armed_rebuilt (h : Reached D s) : Dict.ofList
    (D.net.sourceTransitions.map fun source => (source, (s.armed.get? source).getD [])) =
      s.armed := by
  rw [← h.live.armed.keys, ofList_keys]

lemma flightScopes (h : Reached D s) {f : ScopeFold} (hf : ScopeRel s f) :
    ∀ o ∈ s.inFlight.values, ∀ scope ∈ o.scope, f.active.get? scope.name = some scope := by
  intro o ho scope hscope
  obtain ⟨id, hget⟩ := mem_values.mp ho
  rw [hf.active scope.name]
  exact h.live.scope.flights id o hget scope hscope

lemma resume (h : Reached D s) (hdeclared : Declared D s) : ∃ active terminal,
    Dict.Same active s.activeScopes ∧ Dict.Same terminal s.terminalActivity ∧
    Impetus.resume D s.history = do
      validateAcceptedSourceOccurrences D s.records s.acceptedIdentities
      return s.reorder active terminal := by
  obtain ⟨r, rest, hconstructed⟩ := h.constructed
  obtain ⟨terminal, hterminal, hsame⟩ := h.replayTerminalActivity
  obtain ⟨f, hscopes, hrel⟩ := h.replayScopes
  obtain ⟨effects, heffects, hvalid⟩ := h.replayFiringOccurrences (effectOccurrences s.records)
  obtain ⟨hinFlight, hflights⟩ := h.replayInFlight
  obtain ⟨hactivity, hactivityId⟩ := h.replayActivityOccurrences
  obtain ⟨hcancelled, hcancelledId⟩ := h.replayCancelled
  have hnames : r.name = none ∨ D.net.name = none ∨ r.name = D.net.name :=
    .inr (.inr hconstructed.name)
  have hoccurrences : checkEach (validateReplayedOccurrence D) (s.inFlight.values ++ effects) =
      .ok () := by
    apply checkEach_ok
    intro o ho
    rcases List.mem_append.mp ho with ho | ho
    · exact (hflights o ho).valid
    · exact (hvalid o ho).valid
  refine ⟨f.active, terminal, hrel.active, hsame, ?_⟩
  have hrecords : s.history.flatten = s.records := rfl
  simp only [Impetus.resume, hrecords]
  rw [require_bind h.records_ne, h.checked, ok_bind, hconstructed.replayInstanceIdentity, ok_bind,
    hconstructed.validateConstructionBatch hdeclared, ok_bind, require_bind hnames, h.selections,
    ok_bind, h.replayQueues, ok_bind, h.markedPlaces hdeclared, ok_bind, h.replayWatermark, ok_bind,
    h.replayArmed, ok_bind, h.armedSources, ok_bind, hinFlight, ok_bind, heffects, ok_bind,
    hoccurrences, ok_bind, hactivity, ok_bind, hcancelled, ok_bind, h.replayProjectionPending,
    ok_bind, hterminal, ok_bind, h.replayQuarantinedActivity, ok_bind, h.acceptedSources, ok_bind,
    h.replayAcceptedIdentities, ok_bind]
  congr 1
  funext _
  rw [h.replayNextQueueIdentity, ok_bind, hscopes, ok_bind, require_bind (h.flightScopes hrel),
    h.armed_rebuilt, h.byId_inFlight, hactivityId, hcancelledId, h.replayNextOccurrence,
    hconstructed.instanceId, hrel.generations]
  rfl

end Reached

lemma ReachedExactly.resume (h : ReachedExactly D s) (hdeclared : Declared D s) :
    ∃ active terminal,
    Dict.Same active s.activeScopes ∧ Dict.Same terminal s.terminalActivity ∧
    Impetus.resume D s.history = .ok (s.reorder active terminal) := by
  obtain ⟨active, terminal, hactive, hterminal, hresume⟩ := h.reached.resume hdeclared
  refine ⟨active, terminal, hactive, hterminal, ?_⟩
  rw [hresume, h.validateAcceptedSourceOccurrences]
  rfl

/-! ## Histories cut at a batch -/

section

open List

variable {t : Instance}

lemma resume_history (h : resume D history = .ok t) :
    t.history = history := by
  unfold resume at h
  repeat obtain ⟨_, -, h⟩ := bind_eq_ok.mp h
  cases h
  rfl

lemma Reached.declared_of_resume (h : Reached D s) (hresume : Impetus.resume D s.history = .ok t) :
    Declared D s := by
  obtain ⟨r, rest, hconstructed⟩ := h.constructed
  obtain ⟨_, -, hresume⟩ := bind_eq_ok.mp hresume
  obtain ⟨_, -, hresume⟩ := bind_eq_ok.mp hresume
  obtain ⟨identity, -, hresume⟩ := bind_eq_ok.mp hresume
  obtain ⟨_, hvalid, -⟩ := bind_eq_ok.mp hresume
  exact hconstructed.declared hvalid

lemma Reached.of_resume (h : Reached D s) (hresume : Impetus.resume D s.history = .ok t) :
    Reached D t ∧ ∃ active terminal, Dict.Same active s.activeScopes ∧
      Dict.Same terminal s.terminalActivity ∧ t = s.reorder active terminal := by
  obtain ⟨active, terminal, hactive, hterminal, heq⟩ := h.resume (h.declared_of_resume hresume)
  rw [hresume] at heq
  obtain ⟨_, -, heq⟩ := bind_eq_ok.mp heq.symm
  cases heq
  exact ⟨h.reordered hactive hterminal, active, terminal, hactive, hterminal, rfl⟩

lemma Reached.of_leading (h : Reached D s) (hleads : history <+: s.history)
    (hne : history ≠ []) : ∃ t, Reached D t ∧ t.history = history := by
  induction h with
  | @created m instanceId instant constructible =>
    have hinitial : (Instance.initial D m instanceId instant).history =
        [] ++ [initialRecords D.net m instanceId instant] := rfl
    rw [hinitial, prefix_concat_iff] at hleads
    rcases hleads with hwhole | hnil
    · exact ⟨_, .created constructible, hwhole.symm⟩
    · exact absurd (prefix_nil.mp hnil) hne
  | reordered _ _ _ ih => exact ih hleads
  | commit h c checked ih =>
    rw [c.after_history, prefix_concat_iff] at hleads
    rcases hleads with hwhole | hleads
    · exact ⟨_, h.commit c checked, by rw [c.after_history, hwhole]⟩
    · exact ih hleads

lemma Reached.batch_commit (h : Reached D s) {batch : List Record}
    (hleads : history ++ [batch] <+: s.history) (hne : history ≠ []) :
    ∃ t, Reached D t ∧ t.history = history ∧ ∃ c : Commit D t, c.batch = batch ∧
      ∀ r ∈ c.batch, r.check = .ok () := by
  induction h with
  | created constructible =>
    have hlength := hleads.length_le
    simp only [Instance.initial, length_append, length_singleton] at hlength
    exact absurd (length_eq_zero_iff.mp (by omega)) hne
  | reordered _ _ _ ih => exact ih hleads
  | @commit u h c checked ih =>
    rw [c.after_history, prefix_concat_iff] at hleads
    rcases hleads with hwhole | hleads
    · obtain ⟨hhistory, hbatch⟩ := append_inj' hwhole rfl
      exact ⟨u, h, hhistory.symm, c, by simpa using hbatch.symm, checked⟩
    · exact ih hleads

lemma Reached.orphan (h : Reached D s) {r : CandidateSelected}
    {rest : List Record} (hleads : history ++ [.candidateSelected r :: rest] <+: s.history)
    (hne : history ≠ []) :
    ∃ t, Reached D t ∧ t.history = history ++ [[.candidateSelected r]] := by
  obtain ⟨t, ht, hhistory, c, hbatch, hchecked⟩ := h.batch_commit hleads hne
  have hmem : Record.candidateSelected r ∈ c.batch := by
    rw [hbatch]
    exact mem_cons_self
  cases c with
  | begun c =>
    have hinitiated := c.initiated
    rw [Commit.batch, c.batch_eq] at hbatch
    have hfirst := (List.cons.inj hbatch).1
    cases hidentity : c.identity with
    | some identity =>
      rw [Begun.initiation, hidentity] at hfirst
      cases hfirst
    | none =>
      rw [Begun.initiation, hidentity] at hfirst
      cases hfirst
      rw [hidentity] at hinitiated
      let k : Orphaned D t := ⟨c.binding.transition, c.instant, c.instant_le, c.transition_mem,
        hinitiated.1⟩
      refine ⟨k.after, ht.commit (.orphaned k) ?_, ?_⟩
      · intro record hrecord
        obtain rfl := mem_singleton.mp hrecord
        exact hchecked _ hmem
      · rw [← hhistory]
        exact (Commit.orphaned k).after_history
  | orphaned c =>
    obtain ⟨hfirst, -⟩ := List.cons.inj hbatch
    refine ⟨c.after, ht.commit (.orphaned c) hchecked, ?_⟩
    rw [← hfirst, ← hhistory]
    exact (Commit.orphaned c).after_history
  | _ => cases Commit.batch_appends _ _ hmem

end

end Petrus.Impetus
