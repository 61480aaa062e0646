import Petrus.Impetus.Replay.Registrations

/-!
# Construction, occurrence ids and scopes

What resume checks record by record, the construction prefix, the identity of the
instance, the next occurrence id and the lifecycle scopes.
-/

namespace Petrus.Impetus

open Lib List Dict

variable {D : Definition} {s : Instance}
variable {m : Marking} {instanceId : String} {r : Record} {batch : List Record}
variable {instant : Instant} {rest : List Record} {f : ScopeFold}

/-! ## Record by record -/

lemma Reached.forall_records {P : Record → Prop} (h : Reached D s)
    (hcreated : ∀ {m : Marking} {instanceId : String} {instant : Instant},
      Constructible D m instanceId → ∀ r ∈ initialRecords D.net m instanceId instant, P r)
    (hcommit : ∀ {s : Instance} (c : Commit D s), Reached D s →
      (∀ r ∈ c.batch, r.check = .ok ()) → ∀ r ∈ c.batch, P r) :
    ∀ r ∈ s.records, P r := by
  induction h with
  | created constructible =>
    intro r hr
    exact hcreated constructible r (by simpa [Instance.records, Instance.initial] using hr)
  | commit hs c checked ih =>
    intro r hr
    rw [c.after_records, mem_append] at hr
    rcases hr with hold | hnew
    · exact ih r hold
    · exact hcommit c hs checked r hnew
  | reordered _ _ _ ih => exact ih

lemma Reached.checked (h : Reached D s) : validateHistoryRecords s.records = .ok () :=
  validateHistoryRecords_ok.mpr (h.forall_records
    (fun constructible => initialRecords_checked constructible.identity) fun _ _ checked => checked)

lemma checkEach_ok {α : Type} {check : α → Except Exc Unit} {items : List α}
    (h : ∀ a ∈ items, check a = .ok ()) : checkEach check items = .ok () :=
  foldlM_inert h

lemma Reached.selections (h : Reached D s) :
    checkEach (validateSelection D.net) s.records = .ok () := by
  refine checkEach_ok (h.forall_records ?_ ?_)
  · intro m instanceId instant _ r hr
    rcases mem_initialRecords hr with rfl | ⟨_, -, rfl⟩ | ⟨_, -, rfl⟩ <;> rfl
  · intro s c _ _ r hr
    cases c.batch_appends r hr with
    | @selected c hid =>
      have hinitiated := c.initiated
      rw [hid] at hinitiated
      simp only [selectedRecord, validateSelection]
      rw [require_bind c.transition_mem, require_true hinitiated.1]
    | @orphaned c =>
      simp only [selectedRecord, validateSelection]
      rw [require_bind c.transition_mem, require_true c.scheduled]
    | _ => rfl

lemma validateAcceptedSource_ok
    (h : ∀ fact, r.acceptedFact? = some fact →
      fact.source ∈ D.net.transitionPaths ∧ D.net.isSource fact.source = true) :
    validateAcceptedSource D.net r = .ok () := by
  unfold validateAcceptedSource
  cases hfact : r.acceptedFact? with
  | none => rfl
  | some fact =>
    obtain ⟨hmem, hsource⟩ := h fact hfact
    simp only
    rw [require_bind hmem, require_true hsource]

lemma Reached.acceptedSources (h : Reached D s) :
    checkEach (validateAcceptedSource D.net) s.records = .ok () := by
  refine checkEach_ok (h.forall_records ?_ ?_)
  · intro m instanceId instant _ r hr
    rcases mem_initialRecords hr with rfl | ⟨_, -, rfl⟩ | ⟨_, -, rfl⟩ <;> rfl
  · intro s c _ _ r hr
    cases c.batch_appends r hr with
    | @delivered identity c hid =>
      have hinitiated := c.initiated
      rw [hid] at hinitiated
      exact validateAcceptedSource_ok fun fact hfact => by
        cases hfact
        exact ⟨c.transition_mem, hinitiated.1⟩
    | @dropped c | @unknown c =>
      exact validateAcceptedSource_ok fun fact hfact => by
        cases hfact
        exact ⟨c.source_mem, c.isSource⟩
    | _ => rfl

/-! ## The construction prefix -/

def Record.later : Record → Bool
  | .instanceCreated _ => false
  | .tokensInitialized _ => false
  | .deliveryRegistrationOpened r => r.occurrence ≠ none
  | _ => true

lemma Commit.batch_later (c : Commit D s) : ∀ r ∈ c.batch, r.later = true := by
  intro r hr
  cases c.batch_appends r hr <;> rfl

def initialRegistrations (net : Net) (instant : Instant) : List RegistrationFact :=
  net.sourceTransitions.map fun source =>
    { source, key := "default", occurrence := none, instant }

namespace ConstructionFold

variable (net : Net) (instant : Instant) (f : ConstructionFold)

lemma step_later (h : r.later = true) :
    ∃ f', step net instant f r = .ok f' ∧ f'.registrations = f.registrations := by
  cases r with
  | instanceCreated r => cases h
  | tokensInitialized r => cases h
  | deliveryRegistrationOpened r =>
    simp only [Record.later, decide_eq_true_eq] at h
    cases hended : f.constructionEnded with
    | true => exact ⟨f, by simp [step, hended], rfl⟩
    | false => exact ⟨{ f with constructionEnded := true }, by simp [step, hended, h], rfl⟩
  | _ => exact ⟨_, rfl, rfl⟩

lemma foldlM_later (h : ∀ r ∈ batch, r.later = true) :
    ∃ f', batch.foldlM (step net instant) f = .ok f' ∧ f'.registrations = f.registrations := by
  refine foldlM_exists (P := fun g : ConstructionFold => g.registrations = f.registrations) ?_ rfl
  intro g r hr hg
  obtain ⟨g', hstep, hregistrations⟩ := step_later net instant g (h r hr)
  exact ⟨g', hstep, hregistrations.trans hg⟩

lemma foldlM_registrations (sources : List NetPath) (hended : f.constructionEnded = false) :
    ∃ f', (sources.map fun source => Record.deliveryRegistrationOpened
      { source, key := "default", occurrence := none, instant }).foldlM (step net instant) f =
        .ok f' ∧
      f'.registrations = f.registrations ++ sources.map fun source =>
        { source, key := "default", occurrence := none, instant } := by
  induction sources generalizing f with
  | nil => exact ⟨f, rfl, by simp⟩
  | cons source sources ih =>
    have hstep : step net instant f (.deliveryRegistrationOpened
        { source, key := "default", occurrence := none, instant }) =
          .ok { f with
            registrationsStarted := true
            registrations := f.registrations ++
              [{ source, key := "default", occurrence := none, instant }] } := by
      simp [step, hended]
    rw [map_cons, foldlM_cons_ok hstep]
    obtain ⟨f', hfold, hregistrations⟩ := ih ({ f with
      registrationsStarted := true
      registrations := f.registrations ++
        [{ source, key := "default", occurrence := none, instant }] }) hended
    refine ⟨f', hfold, ?_⟩
    rw [hregistrations, map_cons]
    simp

lemma foldlM_initialization {entries : List Selection}
    (hn : (f.initialized ++ entries.map Prod.fst).Nodup)
    (hdeclared : ∀ e ∈ entries, e.1 ∈ net.placePaths) (hne : ∀ e ∈ entries, e.2 ≠ [])
    (hcolored : ∀ e ∈ entries, validateInitialTokens net e.1 e.2 = .ok ())
    (hended : f.constructionEnded = false) (hstarted : f.registrationsStarted = false) :
    (entries.map fun e => Record.tokensInitialized { place := e.1, tokens := e.2, instant }).foldlM
      (step net instant) f =
        .ok { f with initialized := f.initialized ++ entries.map Prod.fst } := by
  induction entries generalizing f with
  | nil => simp
  | cons e entries ih =>
    rw [forall_mem_cons] at hdeclared hne hcolored
    have hfresh : e.1 ∉ f.initialized := by
      intro hmem
      rw [map_cons, nodup_append] at hn
      exact hn.2.2 _ hmem _ (by simp) rfl
    have hstep : step net instant f (.tokensInitialized { place := e.1, tokens := e.2, instant }) =
        .ok { f with initialized := f.initialized ++ [e.1] } := by
      simp [step, hended, hstarted, initialization, hdeclared.1, hfresh, hne.1, hcolored.1]
    rw [map_cons, foldlM_cons_ok hstep]
    rw [ih { f with initialized := f.initialized ++ [e.1] } (by simpa using hn) hdeclared.2
      hne.2 hcolored.2 hended hstarted]
    simp

end ConstructionFold

def Record.initialized? : Record → Option NetPath
  | .tokensInitialized r => some r.place
  | _ => none

/-- Every place the initial marking named is a place of the net. -/
abbrev Declared (D : Definition) (s : Instance) : Prop :=
  ∀ p ∈ s.records.filterMap Record.initialized?, p ∈ D.net.placePaths

lemma declared_initial : Declared D (Instance.initial D m instanceId instant) ↔
    ∀ p ∈ m.queues.keys, p ∈ D.net.placePaths := by
  have hplaces : (Instance.initial D m instanceId instant).records.filterMap Record.initialized? =
      m.queues.keys := by
    rw [Instance.records, Instance.initial, flatten_singleton, initialRecords, cons_append,
      filterMap_cons_none rfl, filterMap_append, filterMap_map, filterMap_map]
    simp [Function.comp_def, Record.initialized?, Dict.keys]
  rw [Declared, hplaces]

lemma Commit.declared_after (c : Commit D s) : Declared D c.after ↔ Declared D s := by
  have hnone : c.batch.filterMap Record.initialized? = [] := by
    rw [filterMap_eq_nil_iff]
    intro r hr
    have hlater := c.batch_later r hr
    cases r <;> first | rfl | cases hlater
  rw [Declared, c.after_records, filterMap_append, hnone, append_nil]

/-- A history starts with the identity, and its construction prefix is complete where the places it
names are declared. -/
structure Constructed (D : Definition) (s : Instance) (r : InstanceCreated) (rest : List Record) :
    Prop where
  records : s.records = .instanceCreated r :: rest
  instanceId : r.instanceId = s.instanceId
  name : r.name = D.net.name
  once : ∀ x ∈ rest, x.isInstanceCreated = false
  complete : Declared D s → ∃ f, rest.foldlM (ConstructionFold.step D.net r.instant) {} = .ok f ∧
    f.registrations = initialRegistrations D.net r.instant

lemma constructed_initial (constructible : Constructible D m instanceId) :
    ∃ rest, Constructed D (Instance.initial D m instanceId instant)
      { instanceId, name := D.net.name, instant } rest := by
  refine ⟨(initialRecords D.net m instanceId instant).tail, ?_, rfl, rfl, ?_, ?_⟩
  · simp [Instance.records, Instance.initial, initialRecords]
  · intro x hx
    simp only [initialRecords, cons_append, tail_cons, mem_append, mem_map] at hx
    rcases hx with ⟨_, -, rfl⟩ | ⟨_, -, rfl⟩ <;> rfl
  · intro hdeclared
    rw [declared_initial] at hdeclared
    have htokens := ConstructionFold.foldlM_initialization D.net instant {}
      (by simpa using m.queues.nodup : ([] ++ m.queues.entries.map Prod.fst).Nodup)
      (fun e he => hdeclared e.1 (mem_map_of_mem he)) m.sparse constructible.colored rfl rfl
    rw [initialRecords, cons_append, tail_cons, foldlM_append_ok htokens]
    obtain ⟨f', hfold, hregistrations⟩ := ConstructionFold.foldlM_registrations D.net instant
      { initialized := [] ++ m.queues.entries.map Prod.fst } D.net.sourceTransitions rfl
    exact ⟨f', hfold, hregistrations⟩

lemma Reached.constructed (h : Reached D s) : ∃ r rest, Constructed D s r rest := by
  induction h with
  | created constructible =>
    obtain ⟨rest, hrest⟩ := constructed_initial constructible
    exact ⟨_, rest, hrest⟩
  | @commit s hs c _ ih =>
    obtain ⟨r, rest, hrecords, hid, hname, honce, hcomplete⟩ := ih
    refine ⟨r, rest ++ c.batch, ?_, ?_, hname, ?_, ?_⟩
    · rw [c.after_records, hrecords, cons_append]
    · rw [hid]
      cases c <;> rfl
    · intro x hx
      rcases mem_append.mp hx with hold | hnew
      · exact honce x hold
      · have hlater := c.batch_later x hnew
        cases x <;> first | rfl | cases hlater
    · intro hdeclared
      obtain ⟨f, hfold, hregistrations⟩ := hcomplete (c.declared_after.mp hdeclared)
      obtain ⟨f', hfold', hregistrations'⟩ := ConstructionFold.foldlM_later D.net r.instant f
        c.batch_later
      exact ⟨f', by rw [foldlM_append_ok hfold, hfold'], hregistrations'.trans hregistrations⟩
  | reordered _ _ _ ih =>
    obtain ⟨r, rest, hrecords, hid, hname, honce, hcomplete⟩ := ih
    exact ⟨r, rest, hrecords, hid, hname, honce, hcomplete⟩

lemma Constructed.replayInstanceIdentity {r : InstanceCreated}
    (h : Constructed D s r rest) : replayInstanceIdentity s.records = .ok r := by
  rw [h.records, Impetus.replayInstanceIdentity, require_true h.once]
  rfl

lemma Constructed.validateConstructionBatch {r : InstanceCreated}
    (h : Constructed D s r rest) (hdeclared : Declared D s) :
    validateConstructionBatch D.net s.records r = .ok () := by
  obtain ⟨f, hfold, hregistrations⟩ := h.complete hdeclared
  rw [Impetus.validateConstructionBatch, h.records, tail_cons, hfold, ok_bind]
  exact require_true hregistrations

lemma ConstructionFold.step_declared {net : Net} {f f' : ConstructionFold}
    {place : NetPath} (h : step net instant f r = .ok f') (hr : r.initialized? = some place) :
    place ∈ net.placePaths := by
  cases r <;> cases hr
  simp only [step] at h
  split_ifs at h
  rw [initialization, require_bind_eq_ok] at h
  exact h.1

lemma Constructed.declared {r identity : InstanceCreated} (h : Constructed D s r rest)
    (hvalid : Impetus.validateConstructionBatch D.net s.records identity = .ok ()) :
    Declared D s := by
  rw [Impetus.validateConstructionBatch, h.records, tail_cons] at hvalid
  obtain ⟨f, hfold, -⟩ := bind_eq_ok.mp hvalid
  intro place hplace
  rw [h.records, filterMap_cons_none rfl] at hplace
  obtain ⟨record, hrecord, hplaced⟩ := mem_filterMap.mp hplace
  obtain ⟨f₁, f₂, hstep⟩ := foldlM_step hfold hrecord
  exact ConstructionFold.step_declared hstep hplaced

/-! ## Occurrence ids -/

def greatestOccurrence (greatest : Nat) (r : Record) : Nat :=
  match r.occurrence? with
  | none => greatest
  | some occurrence => max greatest occurrence

lemma foldlM_greatest_le {greatest : Nat} (h : ∀ r ∈ batch, ∀ id ∈ r.occurrence?, id ≤ greatest) :
    batch.foldlM (fun n r => (.ok (greatestOccurrence n r) : Except Exc Nat)) greatest =
      .ok greatest := by
  apply foldlM_inert
  intro r hr
  unfold greatestOccurrence
  cases hid : r.occurrence? with
  | none => rfl
  | some id =>
    have hle := h r hr id hid
    simp [hle]

lemma Commit.batch_occurrence (c : Commit D s) (hf : FlightLive s)
    (hnext : c.after.nextOccurrence = s.nextOccurrence) :
    ∀ r ∈ c.batch, ∀ id ∈ r.occurrence?, id < s.nextOccurrence := by
  have hflight : ∀ o : FiringOccurrence, s.inFlight.get? o.id = some o →
      o.id < s.nextOccurrence := fun o ho => (hf.flying o.id o ho).2.2
  intro r hr id hid
  cases c with
  | begun c => exact absurd hnext (by simp [Commit.after, Begun.after])
  | orphaned c => exact absurd hnext (by simp [Commit.after, Orphaned.after])
  | completed c | failed c | frozen c =>
    cases Commit.batch_appends _ r hr <;>
      · cases hid
        exact hflight c.occurrence c.inFlight
  | quarantined c =>
    cases Commit.batch_appends _ r hr
    cases hid
    exact (hf.cancelled _ _ c.cancelled).2.1
  | _ => cases Commit.batch_appends _ r hr <;> cases hid

lemma Begun.batch_occurrence (c : Begun D s) :
    ∀ r ∈ c.batch, r.occurrence? = some s.nextOccurrence := by
  intro r hr
  cases (Commit.begun c).batch_appends r hr <;> rfl

lemma foldlM_greatest_begun (c : Begun D s) {n : Nat} (h : n + 1 = s.nextOccurrence) :
    c.batch.foldlM (fun n r => (.ok (greatestOccurrence n r) : Except Exc Nat)) n =
      .ok s.nextOccurrence := by
  have hall := c.batch_occurrence
  rw [Begun.batch, forall_mem_cons] at hall
  have hfirst : greatestOccurrence n c.initiation = s.nextOccurrence := by
    rw [greatestOccurrence, hall.1]
    simp only
    omega
  rw [Begun.batch, foldlM_cons_ok (t := s.nextOccurrence) (by rw [hfirst])]
  apply foldlM_greatest_le
  intro r hr id hid
  rw [hall.2 r hr] at hid
  cases hid
  exact Nat.le_refl _

lemma greatest_tracks : Tracks D (fun _ n r => .ok (greatestOccurrence n r)) 0
    fun s n => n + 1 = s.nextOccurrence where
  created {m} instanceId instant _ := by
    refine ⟨0, foldlM_greatest_le ?_, rfl⟩
    intro r hr id hid
    rcases mem_initialRecords hr with rfl | ⟨_, -, rfl⟩ | ⟨_, -, rfl⟩ <;> cases hid
  commit {s n} _ c hs hrel := by
    by_cases hnext : c.after.nextOccurrence = s.nextOccurrence
    · refine ⟨n, foldlM_greatest_le ?_, by rw [hnext]; exact hrel⟩
      intro r hr id hid
      have hlt := c.batch_occurrence hs.live.flight hnext r hr id hid
      omega
    · cases c with
      | begun c => exact ⟨_, foldlM_greatest_begun c hrel, rfl⟩
      | orphaned c =>
        refine ⟨s.nextOccurrence, ?_, rfl⟩
        refine foldlM_cons_ok ?_
        simp only [greatestOccurrence, selectedRecord, Record.occurrence?]
        congr 1
        omega
      | _ => exact absurd rfl hnext
  reorder _ _ hrel := hrel

lemma foldl_greatest (records : List Record) (n : Nat) :
    records.foldl greatestOccurrence n = (records.filterMap Record.occurrence?).foldl max n := by
  induction records generalizing n with
  | nil => rfl
  | cons r rs ih =>
    rw [foldl_cons, ih, filterMap_cons, greatestOccurrence]
    cases r.occurrence? <;> rfl

lemma Reached.replayNextOccurrence (h : Reached D s) :
    replayNextOccurrence s.records = s.nextOccurrence := by
  obtain ⟨n, hfold, hrel⟩ := greatest_tracks.reached h
  have hpure : s.records.foldlM (fun n r => (.ok (greatestOccurrence n r) : Except Exc Nat)) 0 =
      .ok (s.records.foldl greatestOccurrence 0) :=
    foldlM_eq_foldl (P := fun _ => True) (fun _ _ _ _ => ⟨rfl, trivial⟩) trivial
  rw [hpure] at hfold
  cases hfold
  rw [Impetus.replayNextOccurrence, ← foldl_greatest]
  exact hrel

/-! ## Lifecycle scopes -/

structure ScopeRel (s : Instance) (f : ScopeFold) : Prop where
  active : f.active.Same s.activeScopes
  generations : f.generations = s.scopeGenerations

def Record.unscoped : Record → Bool
  | .scopeOpened _ => false
  | .scopeClosed _ => false
  | .scopeReset _ => false
  | .scopedDeliveryDropped _ => false
  | .scopedDeliveryQuarantined _ => false
  | _ => true

lemma ScopeFold.step_unscoped (h : r.unscoped = true)
    (hactive : ∀ scope ∈ r.provenance?, f.active.get? scope.name = some scope) :
    f.step r = .ok f := by
  cases hscope : r.provenance? with
  | none => cases r <;> first | (cases h; done) | simp only [ScopeFold.step, hscope]
  | some scope =>
    have hrequire (e : Exc) : require (f.active.get? scope.name = some scope) e = .ok () :=
      require_true (hactive scope hscope)
    cases r <;> first
      | (cases h; done)
      | simp only [ScopeFold.step, hscope, hrequire, ok_bind, except_pure]

lemma scope_inert {s' : Instance} (h : ScopeRel s f) (hbatch : ∀ r ∈ batch, r.unscoped = true ∧
      ∀ scope ∈ r.provenance?, s.activeScopes.get? scope.name = some scope)
    (hactive : s'.activeScopes = s.activeScopes)
    (hgenerations : s'.scopeGenerations = s.scopeGenerations) :
    ∃ f', batch.foldlM ScopeFold.step f = .ok f' ∧ ScopeRel s' f' := by
  refine ⟨f, foldlM_inert ?_, ?_, ?_⟩
  · intro r hr
    obtain ⟨hunscoped, hprovenance⟩ := hbatch r hr
    apply ScopeFold.step_unscoped hunscoped
    intro scope hscope
    rw [h.active]
    exact hprovenance scope hscope
  · rw [hactive]
    exact h.active
  · rw [hgenerations]
    exact h.generations

lemma scope_begun (c : Begun D s) : ∀ r ∈ c.batch, r.unscoped = true ∧
    ∀ scope ∈ r.provenance?, s.activeScopes.get? scope.name = some scope := by
  have hscope : ∀ {p : Option LifecycleScope}, p = none ∨ p = c.scope → ∀ scope ∈ p,
      s.activeScopes.get? scope.name = some scope := by
    rintro p (rfl | rfl) scope hscope
    · cases hscope
    · exact c.scope_active scope hscope
  intro r hr
  cases (Commit.begun c).batch_appends r hr with
  | selected => exact ⟨rfl, hscope (.inl rfl)⟩
  | _ => exact ⟨rfl, hscope (.inr rfl)⟩

lemma scope_completed (c : Completed D s) (hl : ScopeLive s) : ∀ r ∈ c.batch, r.unscoped = true ∧
    ∀ scope ∈ r.provenance?, s.activeScopes.get? scope.name = some scope := by
  intro r hr
  cases (Commit.completed c).batch_appends r hr with
  | produced => exact ⟨rfl, hl.flights c.occurrence.id c.occurrence c.inFlight⟩
  | _ => exact ⟨rfl, fun _ hscope => nomatch hscope⟩

lemma scope_dispositioned (c : Dispositioned D s) (h : ScopeRel s f) :
    c.batch.foldlM ScopeFold.step f = .ok f := by
  have hspent : ∀ name, f.spent name = (s.scopeGenerations.get? name).getD 0 := by
    intro name
    rw [ScopeFold.spent, h.generations]
  have hstep : ∀ {fact}, Disposed s c.source c.tokens c.identity c.instant fact →
      f.step fact.record = .ok f := by
    intro fact hfact
    cases hfact with
    | dropped scope inactive spent =>
      have hok : f.active.get? scope.name ≠ some scope ∧ scope.generation ≤ f.spent scope.name := by
        rw [h.active, hspent]
        exact ⟨inactive, spent⟩
      change (require _ _ >>= _) = _
      rw [require_true hok]
      rfl
    | unknown scope inactive unspent =>
      have hok : f.active.get? scope.name ≠ some scope ∧ f.spent scope.name < scope.generation := by
        rw [h.active, hspent]
        exact ⟨inactive, unspent⟩
      change (require _ _ >>= _) = _
      rw [require_true hok]
      rfl
    | named name valid => rfl
  exact foldlM_inert (forall_mem_singleton.mpr (hstep c.disposed))

lemma scope_opened (c : Opened s) (h : ScopeRel s f) :
    ∃ f', c.batch.foldlM ScopeFold.step f = .ok f' ∧ ScopeRel c.after f' := by
  have hok : f.active.contains c.scope.name = false ∧
      c.scope.generation = f.spent c.scope.name + 1 := by
    rw [contains_eq_false, h.active, ScopeFold.spent, h.generations]
    exact ⟨c.inactive, c.next⟩
  refine ⟨⟨f.active.set c.scope.name c.scope,
    f.generations.set c.scope.name c.scope.generation⟩, foldlM_cons_ok ?_, ?_, ?_⟩
  · simp only [ScopeFold.step]
    rw [require_true hok]
    rfl
  · intro name
    change (f.active.set _ _).get? name = (s.activeScopes.set _ _).get? name
    rw [get?_set, get?_set, h.active]
  · change f.generations.set _ _ = s.scopeGenerations.set _ _
    rw [h.generations]

lemma scope_closed (c : Closed s) (h : ScopeRel s f) :
    ∃ f', c.batch.foldlM ScopeFold.step f = .ok f' ∧ ScopeRel c.after f' := by
  have hactive : f.active.get? c.scope.name = some c.scope := by
    rw [h.active]
    exact c.active
  cases hreset : c.reset with
  | false =>
    refine ⟨{ f with active := f.active.erase c.scope.name }, foldlM_cons_ok ?_, ?_, ?_⟩
    · simp only [Closed.record, hreset, Bool.false_eq_true, if_false, ScopeFold.step]
      rw [require_true hactive]
      rfl
    · intro name
      simp only [Closed.after, hreset, Bool.false_eq_true, if_false]
      rw [get?_erase, get?_erase, h.active]
    · simp only [Closed.after, hreset, Bool.false_eq_true, if_false]
      exact h.generations
  | true =>
    refine ⟨⟨f.active.set c.scope.name c.scope.next,
      f.generations.set c.scope.name c.scope.next.generation⟩, foldlM_cons_ok ?_, ?_, ?_⟩
    · simp only [Closed.record, hreset, if_true, ScopeFold.step]
      rw [require_true hactive]
      rfl
    · intro name
      simp only [Closed.after, hreset, if_true]
      rw [get?_set, get?_set, get?_erase, h.active]
      split_ifs <;> rfl
    · simp only [Closed.after, hreset, if_true]
      rw [h.generations]

lemma scope_commit (hl : ScopeLive s) (c : Commit D s) (h : ScopeRel s f) :
    ∃ f', c.batch.foldlM ScopeFold.step f = .ok f' ∧ ScopeRel c.after f' := by
  have hnone : ∀ {r : Record}, r.provenance? = none → ∀ scope ∈ r.provenance?,
      s.activeScopes.get? scope.name = some scope := by
    intro r hr scope hscope
    rw [hr] at hscope
    cases hscope
  cases c with
  | begun c => exact scope_inert h (scope_begun c) rfl rfl
  | completed c => exact scope_inert h (scope_completed c hl) rfl rfl
  | dispositioned c => exact ⟨f, scope_dispositioned c h, h.active, h.generations⟩
  | opened c => exact scope_opened c h
  | closed c => exact scope_closed c h
  | _ =>
    refine scope_inert h (fun r hr => ?_) rfl rfl
    cases Commit.batch_appends _ r hr <;> exact ⟨rfl, hnone rfl⟩

lemma scope_tracks : Tracks D (fun _ => ScopeFold.step) {} ScopeRel where
  created {m} instanceId instant _ := by
    refine ⟨{}, foldlM_inert ?_, Dict.Same.refl _, rfl⟩
    intro r hr
    rcases mem_initialRecords hr with rfl | ⟨_, -, rfl⟩ | ⟨_, -, rfl⟩ <;> rfl
  commit _ c hs hrel := scope_commit hs.live.scope c hrel
  reorder hactive _ hrel := ⟨fun name => (hrel.active name).trans (hactive name).symm,
    hrel.generations⟩

lemma Reached.replayScopes (h : Reached D s) :
    ∃ f, replayScopes s.records = .ok f ∧ ScopeRel s f :=
  scope_tracks.reached h

end Petrus.Impetus
