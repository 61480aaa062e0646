import Petrus.Impetus.Instance.Reached

/-!
# Replay tracks the live state

A replay fold tracks the live state when folding a commit's batch from a state
related to the one before leads to a state related to the one after. Tracking is
proved commit by commit; that the fold of a whole history succeeds and is related
to the live state follows for every reached state. The queues and the watermark
come first.
-/

namespace Petrus.Impetus

open Lib List

variable {D : Definition} {s : Instance} {instant : Instant}

/-! ## The rule -/

/-- `step`, given the construction instant, keeps `R` between its state and the live one. -/
structure Tracks (D : Definition) {σ : Type} (step : Instant → σ → Record → Except Exc σ)
    (start : σ) (R : Instance → σ → Prop) : Prop where
  created : ∀ {m : Marking} {instanceId : String} (instant : Instant),
    Constructible D m instanceId →
    ∃ f, (initialRecords D.net m instanceId instant).foldlM (step instant) start = .ok f ∧
      R (Instance.initial D m instanceId instant) f
  commit : ∀ {s : Instance} {f : σ} (instant : Instant) (c : Commit D s), Reached D s → R s f →
    ∃ f', c.batch.foldlM (step instant) f = .ok f' ∧ R c.after f'
  reorder : ∀ {s : Instance} {f : σ} {active : Dict String LifecycleScope}
    {terminal : Dict Nat Motus.Outcome}, active.Same s.activeScopes →
    terminal.Same s.terminalActivity → R s f → R (s.reorder active terminal) f

lemma Reached.records_ne (h : Reached D s) : s.records ≠ [] := by
  induction h with
  | created _ => simp [Instance.records, Instance.initial, initialRecords]
  | commit _ c _ ih =>
    rw [c.after_records]
    exact append_ne_nil_of_left_ne_nil ih _
  | reordered _ _ _ ih => exact ih

lemma initialInstant_append {records : List Record} (h : records ≠ []) (more : List Record) :
    initialInstant (records ++ more) = initialInstant records := by
  cases records with
  | nil => exact absurd rfl h
  | cons r rs => rfl

lemma Tracks.reached {σ : Type} {step : Instant → σ → Record → Except Exc σ} {start : σ}
    {R : Instance → σ → Prop} (ht : Tracks D step start R) (h : Reached D s) :
    ∃ f, s.records.foldlM (step (initialInstant s.records)) start = .ok f ∧ R s f := by
  induction h with
  | @created m instanceId instant constructible =>
    obtain ⟨f, hfold, hrel⟩ := ht.created instant constructible
    refine ⟨f, ?_, hrel⟩
    simpa [Instance.records, Instance.initial, initialInstant, initialRecords, Record.instant]
      using hfold
  | @commit s hs c _ ih =>
    obtain ⟨f, hfold, hrel⟩ := ih
    obtain ⟨f', hbatch, hrel'⟩ := ht.commit (initialInstant s.records) c hs hrel
    refine ⟨f', ?_, hrel'⟩
    rw [c.after_records, initialInstant_append hs.records_ne, foldlM_append_ok hfold, hbatch]
  | reordered _ hactive hterminal ih =>
    obtain ⟨f, hfold, hrel⟩ := ih
    exact ⟨f, hfold, ht.reorder hactive hterminal hrel⟩

/-! ## What the batches hold -/

/-- What a commit appends. -/
inductive Commit.Appends : Commit D s → Record → Prop
  | selected (h : c.identity = none) :
    Appends (.begun c) (selectedRecord c.binding.transition s.nextOccurrence c.instant)
  | delivered (h : c.identity = some identity) :
    Appends (.begun c) (.externalEventDelivered (c.delivered identity))
  | begun : Appends (.begun c) (.firingBegun c.boundary)
  | consumed : Appends (.begun c)
    (.tokensConsumed (narrate s.nextOccurrence c.scope c.instant selection taken))
  | read : Appends (.begun c)
    (.tokensRead (narrate s.nextOccurrence c.scope c.instant selection taken))
  | requested : Appends (.begun c) (.activityRequested
    (requestRecord c.binding.transition i s.nextOccurrence c.scope c.instant))
  | orphaned : Appends (.orphaned c) (selectedRecord c.transition s.nextOccurrence c.instant)
  | produced : Appends (.completed c) (.tokensProduced (c.production e))
  | closing : Appends (.completed c) (.deliveryRegistrationClosed (c.registration r))
  | opening : Appends (.completed c) (.deliveryRegistrationOpened (c.registration r))
  | completed : Appends (.completed c) c.boundary
  | failed : Appends (.failed c)
    (.firingFailed ⟨c.occurrence.binding.transition, c.error, c.occurrence.id, c.instant⟩)
  | frozen : Appends (.frozen c)
    (.activityCompleted ⟨c.occurrence.binding.transition, result, c.occurrence.id, c.instant⟩)
  | refused : Appends (.frozen c)
    (.activityFailed ⟨c.occurrence.binding.transition, cause, c.occurrence.id, c.instant⟩)
  | quarantined : Appends (.quarantined c) (.activityTerminalQuarantined
    ⟨c.occurrence.binding.transition, c.outcome, c.scope, c.occurrence.id, c.instant⟩)
  | dropped : Appends (.dispositioned c)
    (.scopedDeliveryDropped ⟨c.source, c.tokens, c.identity, scope, c.instant⟩)
  | unknown : Appends (.dispositioned c)
    (.scopedDeliveryQuarantined ⟨c.source, c.tokens, c.identity, target, c.instant⟩)
  | sealed : Appends (.sealed c) (.deliveryRegistrationClosed ⟨c.source, key, none, c.instant⟩)
  | woken : Appends (.woken c) (.timerMatured ⟨c.mature, c.instant⟩)
  | opened : Appends (.opened c) (.scopeOpened ⟨c.scope, c.instant⟩)
  | closed : Appends (.closed c)
    (.scopeClosed ⟨c.scope, scopeEntries s c.scope, scopeOccurrences s c.scope, c.instant⟩)
  | reset : Appends (.closed c) (.scopeReset
    ⟨c.scope, c.scope.next, scopeEntries s c.scope, scopeOccurrences s c.scope, c.instant⟩)

lemma Begun.initiation_appends (c : Begun D s) : (Commit.begun c).Appends c.initiation := by
  unfold initiation
  cases hid : c.identity with
  | none => exact .selected hid
  | some identity => exact .delivered hid

lemma Dispositioned.appends (c : Dispositioned D s) {fact : AcceptedDeliveryFact}
    (h : Disposed s c.source c.tokens c.identity c.instant fact) :
    (Commit.dispositioned c).Appends fact.record := by
  cases h <;> constructor

lemma Commit.batch_appends (c : Commit D s) : ∀ r ∈ c.batch, c.Appends r := by
  intro r hr
  cases c with
  | begun c =>
    rcases c.mem_batch hr with rfl | rfl | hr
    · exact c.initiation_appends
    · exact .begun
    · rcases c.mem_tail hr with ⟨_, _, rfl⟩ | ⟨_, _, rfl⟩ | ⟨_, -, rfl⟩ <;> constructor
  | completed c =>
    rcases c.mem_batch hr with ⟨_, rfl⟩ | ⟨_, -, rfl⟩ | ⟨_, -, rfl⟩ | rfl <;> constructor
  | sealed c =>
    obtain ⟨_, -, rfl⟩ := mem_map.mp hr
    exact .sealed
  | frozen c =>
    obtain rfl := mem_singleton.mp hr
    unfold Frozen.record
    cases c.outcome <;> constructor
  | dispositioned c =>
    obtain rfl := mem_singleton.mp hr
    exact c.appends c.disposed
  | closed c =>
    obtain rfl := mem_singleton.mp hr
    unfold Closed.record
    split_ifs <;> constructor
  | _ =>
    obtain rfl := mem_singleton.mp hr
    constructor

lemma mem_initialRecords {net : Net} {m : Marking} {instanceId : String} {r : Record}
    (h : r ∈ initialRecords net m instanceId instant) :
    r = .instanceCreated { instanceId, name := net.name, instant } ∨
      (∃ e ∈ m.queues.entries, r = .tokensInitialized { place := e.1, tokens := e.2, instant }) ∨
      ∃ source ∈ net.sourceTransitions, r = .deliveryRegistrationOpened
        { source, key := "default", occurrence := none, instant } := by
  simp only [initialRecords, cons_append, mem_cons, mem_append, mem_map] at h
  rcases h with rfl | ⟨e, he, rfl⟩ | ⟨source, hsource, rfl⟩
  · exact .inl rfl
  · exact .inr (.inl ⟨e, he, rfl⟩)
  · exact .inr (.inr ⟨source, hsource, rfl⟩)

/-! ## The queue fold -/

structure QueueRel (s : Instance) (f : QueueFold) : Prop where
  queues : f.queues = s.queues
  next : f.nextIdentity = s.nextEntry
  spent : ∀ i, i ∈ f.spent ↔ 1 ≤ i ∧ i < s.nextEntry

namespace QueueFold

lemma foldlM_moves {records : List Record} (hn : ∀ r ∈ records, deposited r = none)
    {queues queues' : Queues} (next : Nat) (spent : List Nat)
    (h : records.foldlM (fun queues record => applyMovement queues record) queues = .ok queues') :
    records.foldlM step ⟨queues, next, spent⟩ = .ok ⟨queues', next, spent⟩ := by
  induction records generalizing queues with
  | nil =>
    cases h
    rfl
  | cons r rs ih =>
    obtain ⟨mid, hr, hrs⟩ := foldlM_cons_eq_ok.mp h
    rw [forall_mem_cons] at hn
    have hstep : step ⟨queues, next, spent⟩ r = .ok ⟨mid, next, spent⟩ := by
      simp only [step, hn.1, hr, ok_bind]
      rfl
    rw [foldlM_cons_ok hstep]
    exact ih hn.2 hrs

lemma foldl_next_range' (next k : Nat) :
    (List.range' next k).foldl (fun next i => max next (i + 1)) next = next + k := by
  induction k with
  | zero => simp
  | succ k ih =>
    rw [range'_1_concat, foldl_append, ih]
    simp only [foldl_cons, foldl_nil]
    omega

lemma step_deposit {f : QueueFold} {r : Record} {place : NetPath} {tokens : List Token}
    {entries : List Nat} {scope : Option LifecycleScope}
    (hr : deposited r = some (tokens, entries))
    (happly : ∀ queues inferred, applyMovement queues r inferred =
      deposit queues place tokens entries scope instant inferred)
    (hentries : entries = [] ∨ entries = List.range' f.nextIdentity tokens.length)
    (hb : f.queues.Below f.nextIdentity) (hspent : ∀ i ∈ f.spent, i < f.nextIdentity) :
    f.step r = .ok
      ⟨f.queues.set place (f.queues.at_ place ++
          minted tokens instant (List.range' f.nextIdentity tokens.length) scope),
        f.nextIdentity + tokens.length,
        f.spent ++ List.range' f.nextIdentity tokens.length⟩ := by
  have hinferred : orElse entries (List.range' f.nextIdentity tokens.length) =
      List.range' f.nextIdentity tokens.length := by
    unfold orElse
    rcases hentries with rfl | rfl
    · rfl
    · split_ifs <;> rfl
  have hchosen := orElse_inferred (nextQueueIdentity f.queues) hentries
  rw [length_range'] at hchosen
  have hfresh : ∀ i ∈ List.range' f.nextIdentity tokens.length, i ∉ f.spent := by
    intro i hi hmem
    have hlt := hspent i hmem
    rw [mem_range'_1] at hi
    omega
  simp only [step, hr, hinferred, happly, deposit_fresh hb hchosen, foldl_next_range']
  rw [require_bind hfresh, ok_bind]
  rfl

lemma foldlM_numbered (mk : Selection × List Nat → Record) (scope : Option LifecycleScope)
    (instant : Instant)
    (hmk : ∀ e ids, ∃ entries, (entries = [] ∨ entries = ids) ∧
      deposited (mk (e, ids)) = some (e.2, entries) ∧
      ∀ queues inferred, applyMovement queues (mk (e, ids)) inferred =
        deposit queues e.1 e.2 entries scope instant inferred)
    {queues : Queues} {next : Nat} {spent : List Nat} (effects : List Selection)
    (hb : queues.Below next) (hspent : ∀ i ∈ spent, i < next) :
    ((numbered next effects).map mk).foldlM step ⟨queues, next, spent⟩ =
      .ok ⟨depositAll scope instant queues next effects, next + producedCount effects,
        spent ++ List.range' next (producedCount effects)⟩ := by
  induction effects generalizing queues next spent with
  | nil => simp [numbered, depositAll]
  | cons effect effects ih =>
    obtain ⟨entries, hentries, hdeposited, happly⟩ :=
      hmk effect (List.range' next effect.2.length)
    have hstep := step_deposit (f := ⟨queues, next, spent⟩) hdeposited happly hentries hb hspent
    have hspent' : ∀ i ∈ spent ++ List.range' next effect.2.length, i < next + effect.2.length := by
      intro i hi
      rcases mem_append.mp hi with hold | hnew
      · have hlt := hspent i hold
        omega
      · exact (mem_range'_1.mp hnew).2
    rw [numbered, map_cons, foldlM_cons_ok hstep, ih (hb.deposited effect) hspent', depositAll,
      producedCount_cons, append_assoc, range'_append_1, Nat.add_assoc]

end QueueFold

lemma map_fst_numbered (next : Nat) (effects : List Selection) :
    (numbered next effects).map Prod.fst = effects := by
  induction effects generalizing next with
  | nil => rfl
  | cons effect effects ih => rw [numbered, map_cons, ih]

lemma map_initialized_numbered (entries : List Selection) (instant : Instant) :
    (entries.map fun e => Record.tokensInitialized { place := e.1, tokens := e.2, instant }) =
      (numbered 1 entries).map
        fun e => Record.tokensInitialized { place := e.1.1, tokens := e.1.2, instant } := by
  conv_lhs => rw [← map_fst_numbered 1 entries]
  rw [map_map]
  rfl

lemma queueFold_initial (net : Net) (m : Marking) (instanceId : String) (instant : Instant) :
    (initialRecords net m instanceId instant).foldlM QueueFold.step {} =
      .ok ⟨depositAll none instant Dict.empty 1 m.queues.entries, 1 + tokenCount m,
        List.range' 1 (tokenCount m)⟩ := by
  have hb : Queues.Below Dict.empty 1 := by simp [Queues.Below, Queues.all, Dict.values, Dict.empty]
  have hspent : ∀ i ∈ ([] : List Nat), i < 1 := by simp
  have htokens := QueueFold.foldlM_numbered
    (fun e => Record.tokensInitialized { place := e.1.1, tokens := e.1.2, instant }) none instant
    (fun e ids => ⟨[], .inl rfl, rfl, fun _ _ => rfl⟩) m.queues.entries hb hspent
  unfold initialRecords
  rw [map_initialized_numbered, cons_append, foldlM_cons_ok (t := {}) rfl, foldlM_append_ok htokens]
  apply foldlM_inert
  intro record hrecord
  obtain ⟨source, -, rfl⟩ := mem_map.mp hrecord
  rfl

lemma queueFold_completed (c : Completed D s) (hq : QueueLive s) {spent : List Nat}
    (hspent : ∀ i ∈ spent, i < s.nextEntry) :
    c.batch.foldlM QueueFold.step ⟨s.queues, s.nextEntry, spent⟩ =
      .ok ⟨c.after.queues, c.after.nextEntry,
        spent ++ List.range' s.nextEntry (producedCount c.effects)⟩ := by
  have htokens := QueueFold.foldlM_numbered
    (fun e => Record.tokensProduced (c.production e)) c.occurrence.scope c.instant
    (fun e ids => ⟨(c.production (e, ids)).entries, by
      unfold Completed.production
      split_ifs <;> simp, rfl, fun _ _ => rfl⟩) c.effects hq.below hspent
  rw [c.batch_eq, Completed.produced, foldlM_append_ok htokens]
  apply foldlM_inert
  intro record hrecord
  simp only [Completed.closings, Completed.openings, mem_append, mem_map, mem_singleton] at hrecord
  rcases hrecord with ⟨r, -, rfl⟩ | ⟨r, -, rfl⟩ | rfl <;> rfl

lemma queueFold_begun (c : Begun D s) (hq : QueueLive s) (next : Nat) (spent : List Nat) :
    c.batch.foldlM QueueFold.step ⟨s.queues, next, spent⟩ = .ok ⟨c.rest, next, spent⟩ := by
  have hinit : QueueFold.step ⟨s.queues, next, spent⟩ c.initiation =
      .ok ⟨s.queues, next, spent⟩ := by
    unfold Begun.initiation
    cases c.identity <;> rfl
  unfold Begun.batch
  rw [foldlM_cons_ok hinit]
  apply QueueFold.foldlM_moves
  · intro r hr
    cases (Commit.begun c).batch_appends r (mem_cons_of_mem _ hr) <;> rfl
  · exact foldlM_beginRecords hq.distinct c.consumed_ok c.invocation s.nextOccurrence
      c.scope c.instant

lemma queueFold_closed (c : Closed s) (hq : QueueLive s) (next : Nat) (spent : List Nat) :
    c.batch.foldlM QueueFold.step ⟨s.queues, next, spent⟩ =
      .ok ⟨withoutScope s.queues c.scope, next, spent⟩ := by
  have hclean : applyScopeCleanup s.queues c.scope (scopeEntries s c.scope) =
      .ok (withoutScope s.queues c.scope) := applyScopeCleanup_exact hq.distinct
  unfold Closed.batch Closed.record
  apply QueueFold.foldlM_moves
  · intro r hr
    rw [mem_singleton] at hr
    subst hr
    split_ifs <;> rfl
  · split_ifs <;> rw [foldlM_cons_ok (t := withoutScope s.queues c.scope)] <;>
      first | rfl | exact hclean

lemma queueFold_inert {batch : List Record}
    (h : ∀ r ∈ batch, QueueFold.deposited r = none ∧ ∀ queues, applyMovement queues r = .ok queues)
    (f : QueueFold) : batch.foldlM QueueFold.step f = .ok f := by
  apply foldlM_inert
  intro r hr
  obtain ⟨hdeposited, happly⟩ := h r hr
  simp only [QueueFold.step, hdeposited, happly, ok_bind]
  rfl

lemma queueFold_commit (hq : QueueLive s) (c : Commit D s) {f : QueueFold} (h : QueueRel s f) :
    ∃ f', c.batch.foldlM QueueFold.step f = .ok f' ∧ QueueRel c.after f' := by
  obtain ⟨queues, next, spent⟩ := f
  obtain ⟨rfl, rfl, hspent⟩ := h
  have hinert : (∀ r ∈ c.batch, QueueFold.deposited r = none ∧
      ∀ queues, applyMovement queues r = .ok queues) → c.after.queues = s.queues →
      c.after.nextEntry = s.nextEntry →
      ∃ f', c.batch.foldlM QueueFold.step ⟨s.queues, s.nextEntry, spent⟩ = .ok f' ∧
        QueueRel c.after f' := by
    intro hrecords hqueues hnext
    exact ⟨_, queueFold_inert hrecords _, hqueues.symm, hnext.symm, by rw [hnext]; exact hspent⟩
  cases c with
  | begun c => exact ⟨_, queueFold_begun c hq _ _, rfl, rfl, hspent⟩
  | closed c => exact ⟨_, queueFold_closed c hq _ _, rfl, rfl, hspent⟩
  | completed c =>
    refine ⟨_, queueFold_completed c hq (fun i hi => ((hspent i).mp hi).2), rfl, rfl, ?_⟩
    intro i
    change i ∈ spent ++ List.range' s.nextEntry (producedCount c.effects) ↔
      1 ≤ i ∧ i < s.nextEntry + producedCount c.effects
    have hpos := hq.next_pos
    rw [mem_append, hspent, mem_range'_1]
    omega
  | _ =>
    refine hinert (fun r hr => ?_) rfl rfl
    cases Commit.batch_appends _ r hr <;> exact ⟨rfl, fun _ => rfl⟩

lemma queueFold_tracks : Tracks D (fun _ => QueueFold.step) {} QueueRel where
  created {m} instanceId instant _ := by
    refine ⟨_, queueFold_initial D.net m instanceId instant, rfl, rfl, ?_⟩
    intro i
    change i ∈ List.range' 1 (tokenCount m) ↔ 1 ≤ i ∧ i < 1 + tokenCount m
    rw [mem_range'_1]
  commit _ c hs hrel := queueFold_commit hs.live.queue c hrel
  reorder _ _ hrel := ⟨hrel.queues, hrel.next, hrel.spent⟩

lemma Reached.replayQueueProjection (h : Reached D s) :
    ∃ f, replayQueueProjection s.records = .ok f ∧ QueueRel s f :=
  queueFold_tracks.reached h

/-! ## The watermark -/

lemma Commit.batch_instant (c : Commit D s) :
    c.batch ≠ [] ∧ ∀ r ∈ c.batch, r.instant = c.instant := by
  refine ⟨?_, fun r hr => ?_⟩
  · cases c with
    | completed c => simp [batch, Completed.batch, completionRecords]
    | sealed c => simpa [batch, Sealed.batch, sealRecords] using c.keys_ne
    | _ => exact cons_ne_nil _ _
  · cases c.batch_appends r hr <;> rfl

lemma foldlM_watermarkStep {batch : List Record} (hne : batch ≠ [])
    (hbatch : ∀ r ∈ batch, r.instant = instant) {start : Option Instant}
    (hstart : ∀ w ∈ start, w ≤ instant) :
    batch.foldlM watermarkStep start = .ok (some instant) := by
  induction batch generalizing start with
  | nil => exact absurd rfl hne
  | cons r rs ih =>
    rw [forall_mem_cons] at hbatch
    have hstep : watermarkStep start r = .ok (some instant) := by
      cases start with
      | none => simp [watermarkStep, hbatch.1]
      | some w =>
        have hle := hstart w rfl
        simp [watermarkStep, hbatch.1, hle]
    rw [foldlM_cons_ok hstep]
    by_cases hrs : rs = []
    · subst hrs
      rfl
    · exact ih hrs hbatch.2 (by simp)

lemma watermark_tracks :
    Tracks D (fun _ => watermarkStep) none fun s f => f = some s.watermark where
  created {m} instanceId instant _ := by
    have hinstant : ∀ r ∈ initialRecords D.net m instanceId instant, r.instant = instant := by
      intro r hr
      rcases mem_initialRecords hr with rfl | ⟨_, -, rfl⟩ | ⟨_, -, rfl⟩ <;> rfl
    exact ⟨_, foldlM_watermarkStep (by simp [initialRecords]) hinstant (by simp), rfl⟩
  commit _ c _ hrel := by
    obtain ⟨hne, hinstant⟩ := c.batch_instant
    refine ⟨_, foldlM_watermarkStep hne hinstant ?_, by rw [c.after_watermark]⟩
    intro w hw
    rw [hrel] at hw
    cases hw
    exact c.instant_le
  reorder _ _ hrel := hrel

lemma Reached.replayWatermark (h : Reached D s) :
    replayWatermark s.records = .ok s.watermark := by
  obtain ⟨f, hfold, rfl⟩ := watermark_tracks.reached h
  rw [Impetus.replayWatermark, hfold]
  rfl

end Petrus.Impetus
