import Petrus.Impetus.Replay.Queues

/-!
# Registrations and accepted deliveries

The folds that rebuild the armed keys and the accepted identities, with the check
that registration effects belong to contiguous completion batches.
-/

namespace Petrus.Impetus

open Lib List Dict

variable {D : Definition} {s : Instance}
variable {begun : Dict Nat NetPath} {occurrence rank : Nat} {record : Record}
  {batch : List Record}
variable {instant : Instant} {f : CorrelationFold}

/-! ## Contiguous completion batches -/

structure CorrelationRel (s : Instance) (f : CorrelationFold) : Prop where
  idle : f.active = none
  begun : ∀ id o, s.inFlight.get? id = some o → f.begun.get? id = some o.binding.transition

namespace CorrelationFold

/-- The states inside a completion batch of an occurrence, its records up to `rank` seen. -/
def Inside (begun : Dict Nat NetPath) (occurrence : Nat) (instant : Instant) (rank : Nat)
    (f : CorrelationFold) : Prop :=
  f.begun = begun ∧
    (f.active = none ∨ ∃ k ≤ rank, f.active = some (occurrence, instant, k))

lemma Inside.mono {rank' : Nat}
    (h : Inside begun occurrence instant rank f) (hle : rank ≤ rank') :
    Inside begun occurrence instant rank' f := by
  obtain ⟨hbegun, hactive⟩ := h
  refine ⟨hbegun, ?_⟩
  rcases hactive with hnone | ⟨k, hk, hsome⟩
  · exact .inl hnone
  · exact .inr ⟨k, by omega, hsome⟩

lemma inside_effect (hbegun : begun.contains occurrence = true)
    (hrank : effectRank record = some rank) (hoccurrence : record.occurrence? = some occurrence)
    (hinstant : record.instant = instant)
    (hidle : ∀ effects f, f.active = none → step effects f record = .ok f ∨
      step effects f record = f.opened occurrence instant rank)
    (effects : List Nat) (h : Inside begun occurrence instant rank f) :
    ∃ t, step effects f record = .ok t ∧ Inside begun occurrence instant rank t := by
  obtain ⟨hfbegun, hactive⟩ := h
  rcases hactive with hnone | ⟨k, hk, hsome⟩
  · rcases hidle effects f hnone with hsame | hopened
    · exact ⟨f, hsame, hfbegun, .inl hnone⟩
    · refine ⟨{ f with active := some (occurrence, instant, rank) }, ?_, hfbegun,
        .inr ⟨rank, Nat.le_refl _, rfl⟩⟩
      rw [hopened, opened, hfbegun, require_true hbegun]
      rfl
  · refine ⟨{ f with active := some (occurrence, instant, rank) }, ?_, hfbegun,
      .inr ⟨rank, Nat.le_refl _, rfl⟩⟩
    have hnot : f.completes occurrence instant record = false := by
      cases record <;> simp_all [completes, effectRank]
    have hok : record.occurrence? = some occurrence ∧ record.instant = instant ∧ k ≤ rank :=
      ⟨hoccurrence, hinstant, hk⟩
    simp only [step, hsome, continued, hnot, hrank]
    rw [require_true hok]
    rfl

lemma inside_completed {t : NetPath} (hbegun : begun.get? occurrence = some t) (effects : List Nat)
    (h : Inside begun occurrence instant rank f) :
    step effects f (.firingCompleted ⟨t, occurrence, instant⟩) = .ok ⟨begun, none⟩ := by
  obtain ⟨hfbegun, hactive⟩ := h
  obtain ⟨fbegun, factive⟩ := f
  subst hfbegun
  rcases hactive with hnone | ⟨k, -, hsome⟩
  · subst hnone
    rfl
  · subst hsome
    simp [step, continued, completes, hbegun]

end CorrelationFold

lemma correlation_completed (c : Completed D s) (effects : List Nat) (h : CorrelationRel s f) :
    c.batch.foldlM (CorrelationFold.step effects) f = .ok ⟨f.begun, none⟩ := by
  have hbegun := h.begun c.occurrence.id c.occurrence c.inFlight
  have hcontains : f.begun.contains c.occurrence.id = true :=
    contains_iff_get?.mpr ⟨_, hbegun⟩
  have hstart : CorrelationFold.Inside f.begun c.occurrence.id c.instant 0 f :=
    ⟨rfl, .inl h.idle⟩
  -- Productions, closes and opens each keep the batch open at their own rank.
  obtain ⟨t₀, hfold₀, hin₀⟩ := foldlM_exists (f := CorrelationFold.step effects) (l := c.produced)
    (P := CorrelationFold.Inside f.begun c.occurrence.id c.instant 0) (by
      intro g r hr hg
      obtain ⟨e, -, rfl⟩ := mem_map.mp hr
      refine CorrelationFold.inside_effect hcontains rfl rfl rfl ?_ effects hg
      intro effects g hidle
      by_cases hmem : (c.production e).occurrence ∈ effects
      · simp only [CorrelationFold.step, hidle, hmem, if_true]
        exact .inr rfl
      · left
        simp only [CorrelationFold.step, hidle, hmem, if_false]) hstart
  obtain ⟨t₁, hfold₁, hin₁⟩ := foldlM_exists (f := CorrelationFold.step effects) (l := c.closings)
    (P := CorrelationFold.Inside f.begun c.occurrence.id c.instant 1) (by
      intro g r hr hg
      obtain ⟨e, -, rfl⟩ := mem_map.mp hr
      refine CorrelationFold.inside_effect hcontains rfl rfl rfl ?_ effects hg
      intro effects g hidle
      simp only [CorrelationFold.step, hidle]
      exact .inr rfl) (hin₀.mono (by omega))
  obtain ⟨t₂, hfold₂, hin₂⟩ := foldlM_exists (f := CorrelationFold.step effects) (l := c.openings)
    (P := CorrelationFold.Inside f.begun c.occurrence.id c.instant 2) (by
      intro g r hr hg
      obtain ⟨e, -, rfl⟩ := mem_map.mp hr
      refine CorrelationFold.inside_effect hcontains rfl rfl rfl ?_ effects hg
      intro effects g hidle
      simp only [CorrelationFold.step, hidle]
      exact .inr rfl) (hin₁.mono (by omega))
  have hlast := CorrelationFold.inside_completed hbegun effects hin₂
  rw [c.batch_eq, foldlM_append_ok hfold₀, foldlM_append_ok hfold₁, foldlM_append_ok hfold₂]
  exact foldlM_cons_ok hlast

/-- A record that neither begins an occurrence nor can open a completion batch. -/
def Record.uncorrelated : Record → Bool
  | .firingBegun _ => false
  | .tokensProduced _ => false
  | .deliveryRegistrationClosed r => r.occurrence = none
  | .deliveryRegistrationOpened r => r.occurrence = none
  | _ => true

lemma CorrelationFold.step_uncorrelated (h : record.uncorrelated = true) (effects : List Nat)
    (hidle : f.active = none) :
    step effects f record = .ok f := by
  cases record <;> simp_all [step, Record.uncorrelated]

lemma correlation_begun (c : Begun D s) (effects : List Nat)
    (h : f.active = none) : c.batch.foldlM (CorrelationFold.step effects) f =
      .ok { f with begun := f.begun.set s.nextOccurrence c.binding.transition } := by
  have hinit : CorrelationFold.step effects f c.initiation = .ok f := by
    apply CorrelationFold.step_uncorrelated _ effects h
    unfold Begun.initiation
    cases c.identity <;> rfl
  have hbegun : CorrelationFold.step effects f (.firingBegun c.boundary) =
      .ok { f with begun := f.begun.set s.nextOccurrence c.binding.transition } := by
    simp only [CorrelationFold.step, h]
    rfl
  rw [c.batch_eq, foldlM_cons_ok hinit, foldlM_cons_ok hbegun]
  apply foldlM_inert
  intro r hr
  refine CorrelationFold.step_uncorrelated ?_ effects h
  rcases c.mem_tail hr with ⟨_, _, rfl⟩ | ⟨_, _, rfl⟩ | ⟨_, -, rfl⟩ <;> rfl

lemma correlation_commit (effects : List Nat) (c : Commit D s) (h : CorrelationRel s f) :
    ∃ f', c.batch.foldlM (CorrelationFold.step effects) f = .ok f' ∧ CorrelationRel c.after f' := by
  have hinert : (∀ r ∈ c.batch, r.uncorrelated = true) →
      (∀ id o, c.after.inFlight.get? id = some o → s.inFlight.get? id = some o) →
      ∃ f', c.batch.foldlM (CorrelationFold.step effects) f = .ok f' ∧
        CorrelationRel c.after f' := by
    intro hbatch hflight
    refine ⟨f, foldlM_inert ?_, h.idle, fun id o ho => h.begun id o (hflight id o ho)⟩
    intro r hr
    exact CorrelationFold.step_uncorrelated (hbatch r hr) effects h.idle
  have herase : ∀ k id (o : FiringOccurrence), (s.inFlight.erase k).get? id = some o →
      s.inFlight.get? id = some o := by
    intro k id o ho
    rw [get?_erase] at ho
    split_ifs at ho
    exact ho
  cases c with
  | begun c =>
    refine ⟨_, correlation_begun c effects h.idle, h.idle, ?_⟩
    intro id o ho
    change (s.inFlight.set s.nextOccurrence c.occurrence).get? id = some o at ho
    change (f.begun.set s.nextOccurrence c.binding.transition).get? id = _
    rw [get?_set] at ho ⊢
    split_ifs at ho ⊢ with hid
    · cases ho
      rfl
    · exact h.begun id o ho
  | completed c =>
    refine ⟨_, correlation_completed c effects h, rfl, ?_⟩
    intro id o ho
    exact h.begun id o (herase _ id o ho)
  | failed c => exact hinert (forall_mem_singleton.mpr rfl) (herase _)
  | closed c =>
    refine hinert (fun r hr => ?_) (fun id o ho => (get?_filter.mp ho).1)
    cases Commit.batch_appends _ r hr <;> rfl
  | _ =>
    refine hinert (fun r hr => ?_) (fun _ _ ho => ho)
    cases Commit.batch_appends _ r hr <;> rfl

lemma correlation_tracks (effects : List Nat) :
    Tracks D (fun _ => CorrelationFold.step effects) {} CorrelationRel where
  created {m} instanceId instant _ := by
    refine ⟨{}, foldlM_inert ?_, rfl, by simp [Instance.initial]⟩
    intro r hr
    apply CorrelationFold.step_uncorrelated _ effects rfl
    rcases mem_initialRecords hr with rfl | ⟨_, -, rfl⟩ | ⟨_, -, rfl⟩ <;> rfl
  commit _ c _ hrel := correlation_commit effects c hrel
  reorder _ _ hrel := ⟨hrel.idle, hrel.begun⟩

lemma Reached.correlated (h : Reached D s) :
    validateCorrelatedDeliveryRegistrationBatches s.records = .ok () := by
  obtain ⟨f, hfold, hrel⟩ := (correlation_tracks (effectOccurrences s.records)).reached h
  rw [validateCorrelatedDeliveryRegistrationBatches, hfold, ok_bind, hrel.idle]
  rfl

/-! ## Armed keys -/

/-- A record that touches neither the registrations nor the construction prefix. -/
def Record.unregistered (record : Record) : Bool :=
  match record with
  | .tokensInitialized _ => false
  | .deliveryRegistrationClosed _ => false
  | .deliveryRegistrationOpened _ => false
  | _ => true

namespace ArmedFold

variable {armed armed' : Armed} {f : ArmedFold}
variable (instant) in
lemma step_unregistered (h : record.unregistered = true) :
    ∃ f', step instant f record = .ok f' ∧ f'.armed = f.armed := by
  cases record <;> first | exact ⟨_, rfl, rfl⟩ | cases h

variable (instant) in
lemma foldlM_unregistered (h : ∀ r ∈ batch, r.unregistered = true) :
    ∃ f', batch.foldlM (step instant) f = .ok f' ∧ f'.armed = f.armed := by
  refine foldlM_exists (P := fun g : ArmedFold => g.armed = f.armed) ?_ rfl
  intro g r hr hg
  obtain ⟨g', hstep, harmed⟩ := step_unregistered instant (f := g) (h r hr)
  exact ⟨g', hstep, harmed.trans hg⟩

variable (instant) in
lemma step_closed {r : RegistrationFact} (h : r.key ∈ (f.armed.get? r.source).getD []) :
    ∃ f', step instant f (.deliveryRegistrationClosed r) = .ok f' ∧
      f'.armed = f.armed.set r.source (((f.armed.get? r.source).getD []).filter (· ≠ r.key)) := by
  refine ⟨⟨f.armed.set r.source (((f.armed.get? r.source).getD []).filter (· ≠ r.key)), false,
    f.registrationsStarted⟩, ?_, rfl⟩
  simp only [step, advance, ok_bind, applyDeliveryRegistration, closing]
  rw [require_true h]
  rfl

lemma step_opened {r : RegistrationFact} (ho : r.occurrence = some occurrence)
    (h : r.key ∉ (f.armed.get? r.source).getD []) :
    ∃ f', step instant f (.deliveryRegistrationOpened r) = .ok f' ∧
      f'.armed = f.armed.set r.source ((f.armed.get? r.source).getD [] ++ [r.key]) := by
  refine ⟨⟨f.armed.set r.source ((f.armed.get? r.source).getD [] ++ [r.key]), false,
    f.registrationsStarted⟩, ?_, rfl⟩
  obtain ⟨source, key, rocc, rinstant⟩ := r
  subst ho
  simp only [step, advance, ok_bind, applyDeliveryRegistration, opening]
  rw [require_true h]
  rfl

lemma step_default {source : NetPath} {started : Bool} (h : armed.get? source = none) :
    step instant ⟨armed, true, started⟩ (.deliveryRegistrationOpened
      { source, key := "default", occurrence := none, instant }) =
        .ok ⟨armed.set source ["default"], true, true⟩ := by
  simp [step, advance, applyDeliveryRegistration, opening, h]

lemma foldlM_default {sources : List NetPath} (hn : sources.Nodup) {started : Bool}
    (h : ∀ source ∈ sources, armed.get? source = none) :
    ∃ f', (sources.map fun source => Record.deliveryRegistrationOpened
      { source, key := "default", occurrence := none, instant }).foldlM (step instant)
        ⟨armed, true, started⟩ = .ok f' ∧
      f'.armed = (sources.map fun source => (source, ["default"])).foldl
        (fun d e => d.set e.1 e.2) armed := by
  induction sources generalizing armed started with
  | nil => exact ⟨_, rfl, rfl⟩
  | cons source sources ih =>
    rw [nodup_cons] at hn
    rw [forall_mem_cons] at h
    rw [map_cons, foldlM_cons_ok (step_default h.1)]
    apply ih hn.2
    intro other hother
    rw [get?_set_ne, h.2 other hother]
    rintro rfl
    exact hn.1 hother

variable (instant) in
lemma foldlM_seal {source : NetPath} {keys : List String} (hne : keys ≠ []) (hn : keys.Nodup)
    (h : ∀ key ∈ keys, key ∈ (f.armed.get? source).getD []) (instant' : Instant) :
    ∃ f', (sealRecords source keys instant').foldlM (step instant) f = .ok f' ∧
      f'.armed = f.armed.set source
        (((f.armed.get? source).getD []).filter fun key => key ∉ keys) := by
  induction keys generalizing f with
  | nil => exact absurd rfl hne
  | cons key keys ih =>
    rw [nodup_cons] at hn
    rw [forall_mem_cons] at h
    obtain ⟨f₁, hstep, harmed⟩ := step_closed instant (f := f)
      (r := ⟨source, key, none, instant'⟩) h.1
    have hkeys : (f₁.armed.get? source).getD [] =
        ((f.armed.get? source).getD []).filter (· ≠ key) := by
      rw [harmed, get?_set_self]
      rfl
    rw [sealRecords, map_cons, foldlM_cons_ok hstep]
    by_cases hlast : keys = []
    · subst hlast
      refine ⟨f₁, rfl, ?_⟩
      rw [harmed]
      simp
    · have hrest : ∀ k ∈ keys, k ∈ (f₁.armed.get? source).getD [] := by
        intro k hk
        rw [hkeys, mem_filter]
        refine ⟨h.2 k hk, ?_⟩
        simp only [decide_eq_true_eq]
        rintro rfl
        exact hn.1 hk
      obtain ⟨f₂, hfold, harmed₂⟩ := ih hlast hn.2 hrest
      refine ⟨f₂, hfold, ?_⟩
      rw [harmed₂, hkeys, harmed, Dict.set_set, filter_filter]
      congr 1
      apply filter_congr
      intro k _
      simp [Bool.and_comm]

end ArmedFold

lemma armed_completed (c : Completed D s) (instant : Instant) {f : ArmedFold}
    (h : f.armed = s.armed) :
    ∃ f', c.batch.foldlM (ArmedFold.step instant) f = .ok f' ∧ f'.armed = c.armed := by
  obtain ⟨mid, hcloses, hopens⟩ := bind_eq_ok.mp c.armed_ok
  have hproduced : ∀ r ∈ c.produced, r.unregistered = true := by
    intro r hr
    obtain ⟨e, -, rfl⟩ := mem_map.mp hr
    rfl
  have hboundary : ∀ r ∈ [c.boundary], r.unregistered = true := forall_mem_singleton.mpr rfl
  obtain ⟨f₀, hfold₀, harmed₀⟩ := ArmedFold.foldlM_unregistered instant (f := f) hproduced
  obtain ⟨f₁, hfold₁, harmed₁⟩ := foldlM_map_sim (R := fun armed (g : ArmedFold) => g.armed = armed)
    (f := ArmedFold.step instant) (s := f₀)
    (m := fun r => Record.deliveryRegistrationClosed (c.registration r)) (by
      intro e _ armed armed' g hg hclose
      obtain ⟨hkey, rfl⟩ := closeEffect_eq_ok.mp hclose
      subst hg
      exact ArmedFold.step_closed instant (r := c.registration e) hkey) (harmed₀.trans h) hcloses
  obtain ⟨f₂, hfold₂, harmed₂⟩ := foldlM_map_sim (R := fun armed (g : ArmedFold) => g.armed = armed)
    (f := ArmedFold.step instant) (s := f₁)
    (m := fun r => Record.deliveryRegistrationOpened (c.registration r)) (by
      intro e _ armed armed' g hg hopen
      obtain ⟨hkey, rfl⟩ := openEffect_eq_ok.mp hopen
      subst hg
      exact ArmedFold.step_opened (r := c.registration e) rfl hkey) harmed₁ hopens
  obtain ⟨f₃, hfold₃, harmed₃⟩ := ArmedFold.foldlM_unregistered instant (f := f₂) hboundary
  refine ⟨f₃, ?_, harmed₃.trans harmed₂⟩
  rw [c.batch_eq, foldlM_append_ok hfold₀, Completed.closings, foldlM_append_ok hfold₁,
    Completed.openings, foldlM_append_ok hfold₂, hfold₃]

lemma Begun.unregistered (c : Begun D s) : ∀ r ∈ c.batch, r.unregistered = true := by
  intro r hr
  cases (Commit.begun c).batch_appends r hr <;> rfl

lemma armed_commit (c : Commit D s) (instant : Instant) {f : ArmedFold}
    (h : f.armed = s.armed) :
    ∃ f', c.batch.foldlM (ArmedFold.step instant) f = .ok f' ∧ f'.armed = c.after.armed := by
  have hinert : (∀ r ∈ c.batch, r.unregistered = true) → c.after.armed = s.armed →
      ∃ f', c.batch.foldlM (ArmedFold.step instant) f = .ok f' ∧ f'.armed = c.after.armed := by
    intro hbatch harmed
    obtain ⟨f', hfold, hf'⟩ := ArmedFold.foldlM_unregistered instant (f := f) hbatch
    exact ⟨f', hfold, by rw [hf', h, harmed]⟩
  cases c with
  | completed c => exact armed_completed c instant h
  | sealed c =>
    have hkeys : ∀ key ∈ c.keys, key ∈ (f.armed.get? c.source).getD [] := by
      rw [h]
      exact c.keys_armed
    obtain ⟨f', hfold, hf'⟩ := ArmedFold.foldlM_seal instant c.keys_ne c.keys_nodup hkeys
      c.instant
    rw [h] at hf'
    exact ⟨f', hfold, hf'⟩
  | _ =>
    refine hinert (fun r hr => ?_) rfl
    cases Commit.batch_appends _ r hr <;> rfl

lemma armed_initial (m : Marking) (instanceId : String) (instant : Instant) :
    ∃ f, (initialRecords D.net m instanceId instant).foldlM (ArmedFold.step instant) {} = .ok f ∧
      f.armed = (Instance.initial D m instanceId instant).armed := by
  have htokens : (m.queues.entries.map fun e => Record.tokensInitialized
      { place := e.1, tokens := e.2, instant }).foldlM (ArmedFold.step instant) {} = .ok {} := by
    apply foldlM_inert
    intro r hr
    obtain ⟨e, -, rfl⟩ := mem_map.mp hr
    rfl
  unfold initialRecords
  rw [cons_append, foldlM_cons_ok (t := {}) rfl, foldlM_append_ok htokens]
  exact ArmedFold.foldlM_default Net.nodup_sourceTransitions (by simp)

lemma armed_tracks : Tracks D ArmedFold.step {} fun s f => f.armed = s.armed where
  created {m} instanceId instant _ := armed_initial m instanceId instant
  commit instant c _ hrel := armed_commit c instant hrel
  reorder _ _ hrel := hrel

lemma Reached.replayArmed (h : Reached D s) : replayArmed s.records = .ok s.armed := by
  obtain ⟨f, hfold, hrel⟩ := armed_tracks.reached h
  rw [Impetus.replayArmed, h.correlated, ok_bind, hfold, ok_bind, hrel]
  rfl

/-! ## Accepted identities -/

structure AcceptedRel (s : Instance) (f : AcceptedFold) : Prop where
  accepted : f.accepted = s.acceptedIdentities
  armed : f.registrations.armed = s.armed

namespace AcceptedFold

variable {f : AcceptedFold}

lemma foldlNext_registrations {registrations : ArmedFold}
    (hn : ∀ r ∈ batch, r.acceptedFact? = none)
    (h : batch.foldlM (ArmedFold.step instant) f.registrations = .ok registrations)
    (last : Option Record) :
    foldlNext (step instant) f batch last = .ok { f with registrations } := by
  induction batch generalizing f with
  | nil =>
    cases h
    rfl
  | cons r rs ih =>
    obtain ⟨mid, hmid, h⟩ := foldlM_cons_eq_ok.mp h
    rw [forall_mem_cons] at hn
    have hstep : step instant f r (rs.head?.or last) = .ok { f with registrations := mid } := by
      simp only [step, hmid, ok_bind, hn.1]
      rfl
    rw [foldlNext, hstep, ok_bind]
    exact ih hn.2 h

lemma step_accepted {r : Record} {fact : AcceptedDeliveryFact} {following : Option Record}
    (hr : r.acceptedFact? = some fact) (hunregistered : r.unregistered = true)
    (htokens : fact.tokens ≠ []) (hfresh : f.accepted.get? fact.identity = none)
    (hdelivered : ∀ d, fact = .delivered d → (f.registrations.armed.get? d.source).getD [] ≠ [] ∧
      following = some (.firingBegun ⟨d.source, d.occurrence, d.scope, d.instant⟩)) :
    ∃ f', step instant f r following = .ok f' ∧
      f'.accepted = f.accepted.set fact.identity fact ∧
      f'.registrations.armed = f.registrations.armed := by
  obtain ⟨registrations, hstep, harmed⟩ :=
    ArmedFold.step_unregistered instant (f := f.registrations) hunregistered
  refine ⟨⟨f.accepted.set fact.identity fact, registrations⟩, ?_, rfl, harmed⟩
  have hcontains : f.accepted.contains fact.identity = false := contains_eq_false.mpr hfresh
  simp only [step, hstep, ok_bind, hr, validateDeliveryTokens]
  rw [require_bind htokens]
  cases fact with
  | delivered d =>
    obtain ⟨hkeys, hnext⟩ := hdelivered d rfl
    simp only [requireAcceptance]
    rw [harmed, require_bind hkeys, require_bind hnext, require_true hcontains]
    rfl
  | dropped | quarantined =>
    simp only [except_pure]
    rw [require_true hcontains]
    rfl

end AcceptedFold

lemma AcceptedDeliveryFact.acceptedFact?_record (fact : AcceptedDeliveryFact) :
    fact.record.acceptedFact? = some fact ∧ fact.record.unregistered = true := by
  cases fact <;> exact ⟨rfl, rfl⟩

def AcceptsTo (instant : Instant) (f : AcceptedFold) (batch : List Record) (f' : AcceptedFold) :
    Prop :=
  ∀ last, foldlNext (AcceptedFold.step instant) f batch last = .ok f'

lemma accepted_inert {s' : Instance} {f : AcceptedFold}
    (h : AcceptedRel s f) (hn : ∀ r ∈ batch, r.acceptedFact? = none)
    (haccepted : s'.acceptedIdentities = s.acceptedIdentities) {registrations : ArmedFold}
    (hfold : batch.foldlM (ArmedFold.step instant) f.registrations = .ok registrations)
    (harmed : registrations.armed = s'.armed) :
    ∃ f', AcceptsTo instant f batch f' ∧ AcceptedRel s' f' :=
  ⟨_, AcceptedFold.foldlNext_registrations hn hfold, by rw [haccepted]; exact h.accepted, harmed⟩

lemma Begun.tail_acceptedFact? (c : Begun D s) :
    ∀ r ∈ .firingBegun c.boundary :: c.tail, r.acceptedFact? = none := by
  intro r hr
  rcases mem_cons.mp hr with rfl | hr
  · rfl
  · rcases c.mem_tail hr with ⟨_, _, rfl⟩ | ⟨_, _, rfl⟩ | ⟨_, -, rfl⟩ <;> rfl

lemma accepted_delivered (c : Begun D s) {identity : String} (hid : c.identity = some identity)
    (instant : Instant) {f : AcceptedFold} (h : AcceptedRel s f) :
    ∃ f', AcceptsTo instant f c.batch f' ∧ AcceptedRel c.after f' := by
  have hinitiated := c.initiated
  rw [hid] at hinitiated
  obtain ⟨-, htokens, hfresh, harmed⟩ := hinitiated
  have hrecord : c.initiation = .externalEventDelivered (c.delivered identity) := by
    simp only [Begun.initiation, hid]
  have haccept : ∃ f', AcceptedFold.step instant f (.externalEventDelivered (c.delivered identity))
        (some (.firingBegun c.boundary)) = .ok f' ∧
      f'.accepted = f.accepted.set identity (.delivered (c.delivered identity)) ∧
      f'.registrations.armed = f.registrations.armed := by
    have hfact : (Record.externalEventDelivered (c.delivered identity)).acceptedFact? =
        some (.delivered (c.delivered identity)) := rfl
    refine AcceptedFold.step_accepted hfact rfl htokens ?_ ?_
    · rw [h.accepted]
      exact hfresh
    · intro d hd
      cases hd
      refine ⟨?_, rfl⟩
      rw [h.armed]
      exact harmed
  have htail : ∀ r ∈ .firingBegun c.boundary :: c.tail, r.unregistered = true := by
    intro r hr
    apply c.unregistered r
    rw [c.batch_eq]
    exact mem_cons_of_mem _ hr
  obtain ⟨f₁, hstep, haccepted₁, harmed₁⟩ := haccept
  obtain ⟨registrations, hfold, hregistrations⟩ :=
    ArmedFold.foldlM_unregistered instant (f := f₁.registrations) htail
  refine ⟨{ f₁ with registrations }, ?_, ?_, ?_⟩
  · intro last
    rw [c.batch_eq, hrecord, foldlNext]
    change (AcceptedFold.step instant f _ (some (.firingBegun c.boundary)) >>= _) = _
    rw [hstep, ok_bind]
    exact AcceptedFold.foldlNext_registrations c.tail_acceptedFact? hfold last
  · simp only [haccepted₁, h.accepted, Begun.after, hid]
  · exact (hregistrations.trans harmed₁).trans h.armed

lemma accepted_dispositioned (c : Dispositioned D s) (instant : Instant) {f : AcceptedFold}
    (h : AcceptedRel s f) : ∃ f', AcceptsTo instant f c.batch f' ∧ AcceptedRel c.after f' := by
  obtain ⟨hidentity, -, htokens, hdelivered⟩ := AcceptedLive.disposed_fact c.disposed
  obtain ⟨hfact, hunregistered⟩ := c.fact.acceptedFact?_record
  have hstep : ∀ last, ∃ f', AcceptedFold.step instant f c.fact.record last = .ok f' ∧
      f'.accepted = f.accepted.set c.fact.identity c.fact ∧
      f'.registrations.armed = f.registrations.armed := by
    intro last
    refine AcceptedFold.step_accepted hfact hunregistered (by rw [htokens]; exact c.tokens_ne) ?_ ?_
    · rw [h.accepted, hidentity]
      exact c.fresh
    · intro d hd
      exact absurd hd (hdelivered d)
  obtain ⟨f', hnone, haccepted, harmed⟩ := hstep none
  -- The step of a disposition does not look at the record that follows.
  have hsame : ∀ last, AcceptedFold.step instant f c.fact.record last =
      AcceptedFold.step instant f c.fact.record none := by
    intro last
    have happends := c.appends c.disposed
    generalize c.fact.record = r at happends
    cases happends <;> rfl
  refine ⟨f', ?_, ?_, harmed.trans h.armed⟩
  · intro last
    change (AcceptedFold.step instant f c.fact.record last >>= _) = _
    rw [hsame, hnone]
    rfl
  · rw [haccepted, h.accepted, hidentity]
    rfl

lemma accepted_commit (c : Commit D s) (instant : Instant) {f : AcceptedFold}
    (h : AcceptedRel s f) : ∃ f', AcceptsTo instant f c.batch f' ∧ AcceptedRel c.after f' := by
  obtain ⟨registrations, hfold, harmed⟩ := armed_commit c instant h.armed
  cases c with
  | begun c =>
    cases hid : c.identity with
    | some identity => exact accepted_delivered c hid instant h
    | none =>
      refine accepted_inert h (fun r hr => ?_) ?_ hfold harmed
      · cases Commit.batch_appends _ r hr with
        | delivered h => rw [hid] at h; cases h
        | _ => rfl
      · simp only [Commit.after, Begun.after, hid, Instance.extend]
  | dispositioned c => exact accepted_dispositioned c instant h
  | _ =>
    refine accepted_inert h (fun r hr => ?_) rfl hfold harmed
    cases Commit.batch_appends _ r hr <;> rfl

lemma Reached.accepts (h : Reached D s) :
    ∃ f, AcceptsTo (initialInstant s.records) {} s.records f ∧ AcceptedRel s f := by
  induction h with
  | @created m instanceId instant constructible =>
    obtain ⟨g, hfold, harmed⟩ := armed_initial (D := D) m instanceId instant
    refine ⟨{ registrations := g }, ?_, rfl, harmed⟩
    have hrecords : (Instance.initial D m instanceId instant).records =
        initialRecords D.net m instanceId instant := by simp [Instance.records, Instance.initial]
    rw [hrecords]
    have hn : ∀ r ∈ initialRecords D.net m instanceId instant, r.acceptedFact? = none := by
      intro r hr
      rcases mem_initialRecords hr with rfl | ⟨_, -, rfl⟩ | ⟨_, -, rfl⟩ <;> rfl
    have haccepts : AcceptsTo instant {} (initialRecords D.net m instanceId instant)
        { registrations := g } := AcceptedFold.foldlNext_registrations hn hfold
    exact haccepts
  | @commit s hs c _ ih =>
    obtain ⟨f, hfold, hrel⟩ := ih
    obtain ⟨f', hbatch, hrel'⟩ := accepted_commit c (initialInstant s.records) hrel
    refine ⟨f', ?_, hrel'⟩
    intro last
    rw [c.after_records, initialInstant_append hs.records_ne, foldlNext_append_ok (hfold _)]
    exact hbatch last
  | reordered _ _ _ ih =>
    obtain ⟨f, hfold, haccepted, harmed⟩ := ih
    exact ⟨f, hfold, haccepted, harmed⟩

lemma Reached.replayAcceptedIdentities (h : Reached D s) :
    replayAcceptedIdentities s.records = .ok s.acceptedIdentities := by
  obtain ⟨f, hfold, hrel⟩ := h.accepts
  rw [Impetus.replayAcceptedIdentities, h.correlated, ok_bind, hfold none, ok_bind, hrel.accepted]
  rfl

end Petrus.Impetus
