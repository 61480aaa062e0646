import Petrus.Impetus.Replay.Occurrences

/-!
# The lifecycle fold tracks the occurrences

The relation between the lifecycle fold and the live state carries the list of every
occurrence ever begun. The fold has their begin records in begin order; what is in
flight, what froze an outcome and what can be cancelled are parts of that list.
-/

namespace Petrus.Impetus

open Lib Motus List Dict

variable {D : Definition} {s : Instance} {o : FiringOccurrence} {id : Nat} {f : Lifecycle}

def openScopes (flights : List (Nat × FiringOccurrence)) : List (Nat × LifecycleScope) :=
  flights.filterMap fun e => e.2.scope.map fun scope => (e.1, scope)

lemma filter_openScopes (p : Nat → Bool) (flights : List (Nat × FiringOccurrence)) :
    (openScopes flights).filter (fun e => p e.1) =
      openScopes (flights.filter fun e => p e.1) := by
  unfold openScopes
  rw [filter_filterMap, filterMap_filter]
  apply filterMap_congr
  intro e _
  cases e.2.scope with
  | none => simp
  | some scope => by_cases h : p e.1 = true <;> simp [h]

lemma keys_openScopes (scope : LifecycleScope) (flights : List (Nat × FiringOccurrence)) :
    ((openScopes flights).filter fun e => e.2 = scope).map Prod.fst =
      (flights.filter fun e => e.2.scope = some scope).map Prod.fst := by
  induction flights with
  | nil => rfl
  | cons e flights ih =>
    unfold openScopes at ih ⊢
    cases hscope : e.2.scope with
    | none => simp [hscope, ih]
    | some other =>
      by_cases h : other = scope <;> simp [hscope, h, ih]

structure LifecycleRel (D : Definition) (occs : List FiringOccurrence) (s : Instance)
    (f : Lifecycle) : Prop where
  begun : f.begun.entries = occs.map fun o => (o.id, o.records)
  wellBegun : ∀ o ∈ occs, WellBegun D o
  initiated : ∀ o ∈ occs, f.initiated.get? o.id = some (o.binding.transition, o.binding.delivered)
  fresh : ∀ id ∈ f.initiated.keys, id < s.nextOccurrence
  ended : ∀ id ∈ f.ended, id < s.nextOccurrence
  ending : ∀ id ∈ f.ending, id ∈ f.ended
  inFlight : s.inFlight.entries =
    (occs.filter fun o => o.id ∉ f.ended).map fun o => (o.id, o)
  activity : s.activityOccurrences.entries =
    (occs.filter fun o => o.invocation ≠ none).map fun o => (o.id, o)
  scopedOpen : f.scopedOpen.entries = openScopes s.inFlight.entries
  frozen : s.frozenResults.entries = f.frozen.entries.filter fun e => e.1 ∉ f.ended
  frozen_begun : ∀ id ∈ f.frozen.keys, ∃ o ∈ occs, o.id = id
  lifecycleCancelled : ∀ id, id ∈ f.lifecycleCancelled ↔ s.cancelled.contains id = true
  cancelled : ∀ id o, s.cancelled.get? id = some o → o ∈ occs

namespace LifecycleRel

variable {occs : List FiringOccurrence}

lemma forget (h : LifecycleRel D occs s f) (active : Option (Nat × Instant))
    (previous : Option Record) :
    LifecycleRel D occs s { f with activeBegin := active, previous := previous } :=
  ⟨h.begun, h.wellBegun, h.initiated, h.fresh, h.ended, h.ending, h.inFlight, h.activity,
    h.scopedOpen, h.frozen, h.frozen_begun, h.lifecycleCancelled, h.cancelled⟩

lemma get?_begun (h : LifecycleRel D occs s f) (ho : o ∈ occs) :
    f.begun.get? o.id = some o.records := by
  rw [get?_eq_some, h.begun]
  exact mem_map_of_mem ho

lemma contains_begun (h : LifecycleRel D occs s f) (ho : o ∈ occs) :
    f.begun.contains o.id = true :=
  contains_iff_get?.mpr ⟨_, h.get?_begun ho⟩

lemma lt_next (h : LifecycleRel D occs s f) (ho : o ∈ occs) :
    o.id < s.nextOccurrence :=
  h.fresh o.id (mem_keys_of_get? (h.initiated o ho))

lemma begun_next (h : LifecycleRel D occs s f) : f.begun.get? s.nextOccurrence = none := by
  rw [get?_eq_none, Dict.keys, h.begun, map_map]
  intro hmem
  obtain ⟨o, ho, heq⟩ := mem_map.mp hmem
  have hlt := h.lt_next ho
  simp only [Function.comp_apply] at heq
  omega

lemma initiated_next (h : LifecycleRel D occs s f) :
    f.initiated.get? s.nextOccurrence = none := by
  rw [get?_eq_none]
  intro hmem
  have hlt := h.fresh _ hmem
  omega

lemma ended_next (h : LifecycleRel D occs s f) : s.nextOccurrence ∉ f.ended := by
  intro hmem
  have hlt := h.ended _ hmem
  omega

lemma activity_next (h : LifecycleRel D occs s f) :
    s.activityOccurrences.get? s.nextOccurrence = none := by
  rw [get?_eq_none, Dict.keys, h.activity, map_map]
  intro hmem
  obtain ⟨o, ho, heq⟩ := mem_map.mp hmem
  have hlt := h.lt_next (mem_filter.mp ho).1
  simp only [Function.comp_apply] at heq
  omega

lemma mem_inFlight (h : LifecycleRel D occs s f) :
    s.inFlight.get? id = some o ↔ o ∈ occs ∧ o.id = id ∧ id ∉ f.ended := by
  rw [get?_eq_some, h.inFlight, mem_map]
  constructor
  · rintro ⟨o', ho', heq⟩
    rw [mem_filter, decide_eq_true_eq] at ho'
    cases heq
    exact ⟨ho'.1, rfl, ho'.2⟩
  · rintro ⟨ho, rfl, hended⟩
    exact ⟨o, mem_filter.mpr ⟨ho, by simpa using hended⟩, rfl⟩

lemma boundary (h : LifecycleRel D occs s f) (ho : o ∈ occs) :
    f.boundary o.id = some o.binding.transition := by
  obtain ⟨r, rest, hrecords, htransition, -⟩ := (h.wellBegun o ho).boundary
  simp only [Lifecycle.boundary, h.get?_begun ho, Option.getD_some, hrecords, htransition]

lemma requested (h : LifecycleRel D occs s f) (ho : o ∈ occs) :
    f.requested o.id = o.invocation.isSome := by
  rw [Lifecycle.requested, h.get?_begun ho, Option.getD_some, (h.wellBegun o ho).requested]

lemma get?_frozen (h : LifecycleRel D occs s f) (hid : id ∉ f.ended) :
    f.frozen.get? id = s.frozenResults.get? id := by
  have hlookup := lookup_filter_key (fun i => decide (i ∉ f.ended)) id f.frozen.entries
  rw [if_pos (by simpa using hid)] at hlookup
  rw [Dict.get?, Dict.get?, h.frozen]
  exact hlookup.symm

lemma not_cancelled (h : LifecycleRel D occs s f) (hl : FlightLive s)
    (ho : s.inFlight.get? id = some o) : id ∉ f.lifecycleCancelled := by
  rw [h.lifecycleCancelled, contains_iff_get?, hl.cancelled_of_inFlight ho]
  simp

end LifecycleRel

/-! ## Single records -/

namespace Lifecycle

variable {g : Lifecycle} {r : Record}

lemma step_sort (ht : r.isBeginTail = false)
    (h : Lifecycle.sort { f with activeBegin := none } r = .ok g) :
    f.step r = .ok { g with previous := some r } := by
  simp only [step, ht, Bool.false_eq_true, if_false]
  rw [h]
  rfl

lemma initiate_fresh {n : Nat} (h : f.initiated.get? n = none) (t : NetPath)
    (tokens : List Token) :
    f.initiate n t tokens = .ok { f with initiated := f.initiated.set n (t, tokens) } := by
  have hcontains : f.initiated.contains n = false := contains_eq_false.mpr h
  rw [initiate, require_true hcontains]
  rfl

lemma finish_open {t : NetPath} (hbegun : f.begun.contains id = true)
    (hboundary : f.boundary id = some t) (hcancelled : id ∉ f.lifecycleCancelled)
    (hended : id ∉ f.ended) (r : Record) :
    f.finish r id t =
      .ok { f with scopedOpen := f.scopedOpen.erase id, ended := f.ended ++ [id] } := by
  rw [finish, require_bind hbegun, require_bind hboundary,
    require_bind hcancelled, require_true hended]
  rfl

lemma freeze_first {t : NetPath} (hrequested : f.requested id = true)
    (hboundary : f.boundary id = some t) (hfrozen : f.frozen.contains id = false)
    (hcancelled : id ∉ f.lifecycleCancelled) (r : Record) (verb : String) (outcome : Outcome) :
    f.freeze r verb id t outcome = .ok { f with frozen := f.frozen.set id outcome } := by
  rw [freeze, require_bind hrequested, requireTransition, require_bind hboundary,
    require_bind hfrozen, require_true hcancelled]
  rfl

lemma quarantine_begun {q : ActivityTerminalQuarantined}
    (hbegun : f.begun.contains q.occurrence = true)
    (hboundary : f.boundary q.occurrence = some q.transition) : f.quarantine q = .ok f := by
  rw [quarantine, require_bind hbegun, requireTransition, require_true hboundary]
  rfl

/-! ## A begin batch -/

/-- Inside the begin batch of `n`: `done` is recorded, nothing else moved since `g`. -/
def Beginning (g : Lifecycle) (n : Nat) (instant : Instant) (done : List Record) (f : Lifecycle) :
    Prop :=
  ∃ previous, f = { g with
    begun := g.begun.set n done, activeBegin := some (n, instant), previous := previous }

variable {n : Nat} {instant : Instant} {done : List Record}

lemma Beginning.tail (h : Beginning g n instant done f) (hended : n ∉ g.ended)
    (hending : n ∉ g.ending) (hr : r.instant = instant) :
    f.tail r n = .ok { f with begun := g.begun.set n (done ++ [r]) } := by
  obtain ⟨previous, rfl⟩ := h
  simp only [Lifecycle.tail]
  rw [require_bind hended, require_bind hending, require_bind trivial,
    require_bind hr, get?_set_self, Option.getD_some, Dict.set_set]
  rfl

lemma Beginning.record (h : Beginning g n instant done f) (ht : r.isBeginTail = true)
    (hsort : f.sort r = .ok { f with begun := g.begun.set n (done ++ [r]) }) :
    ∃ f', f.step r = .ok f' ∧ Beginning g n instant (done ++ [r]) f' := by
  obtain ⟨previous, rfl⟩ := h
  refine ⟨_, ?_, some r, rfl⟩
  simp only [step, ht, if_true]
  rw [hsort]
  rfl

lemma Beginning.contains (h : Beginning g n instant done f) : f.begun.contains n = true := by
  obtain ⟨previous, rfl⟩ := h
  exact contains_iff_get?.mpr ⟨_, get?_set_self _ _ _⟩

lemma Beginning.selects (h : Beginning g n instant done f) (hended : n ∉ g.ended)
    (hending : n ∉ g.ending) {m : Movement} (hn : m.occurrence = n) (hm : m.instant = instant)
    (hr : r = .tokensConsumed m ∨ r = .tokensRead m) :
    ∃ f', f.step r = .ok f' ∧ Beginning g n instant (done ++ [r]) f' := by
  subst hn
  have hinstant : r.instant = instant := by
    rcases hr with rfl | rfl <;> exact hm
  have hselects : ∀ verb, f.selects r verb m =
      .ok { f with begun := g.begun.set m.occurrence (done ++ [r]) } := by
    intro verb
    rw [Lifecycle.selects, require_bind h.contains, h.tail hended hending hinstant]
  rcases hr with rfl | rfl
  · exact h.record rfl (hselects _)
  · exact h.record rfl (hselects _)

lemma Beginning.foldlM_selects (h : Beginning g n instant done f) (hended : n ∉ g.ended)
    (hending : n ∉ g.ending) {records : List Record}
    (hr : ∀ r ∈ records, ∃ m : Movement, m.occurrence = n ∧ m.instant = instant ∧
      (r = .tokensConsumed m ∨ r = .tokensRead m)) :
    ∃ f', records.foldlM step f = .ok f' ∧ Beginning g n instant (done ++ records) f' := by
  induction records generalizing done f with
  | nil => exact ⟨f, rfl, by rwa [append_nil]⟩
  | cons r records ih =>
    rw [forall_mem_cons] at hr
    obtain ⟨⟨m, hn, hm, hrm⟩, hrest⟩ := hr
    obtain ⟨f₁, hstep, h₁⟩ := h.selects hended hending hn hm hrm
    obtain ⟨f', hfold, h'⟩ := ih h₁ hrest
    refine ⟨f', by rw [foldlM_cons_ok hstep, hfold], ?_⟩
    rwa [append_assoc] at h'

lemma Beginning.request (h : Beginning g n instant done f) (hended : n ∉ g.ended)
    (hending : n ∉ g.ending) {m : ActivityRequested} (hn : m.occurrence = n)
    (hm : m.instant = instant) {b : FiringBegun} {rest : List Record}
    (hdone : done = .firingBegun b :: rest) (htransition : b.transition = m.transition)
    (hfirst : done.any Record.isActivityRequested = false) :
    ∃ f', f.step (.activityRequested m) = .ok f' ∧
      Beginning g n instant (done ++ [.activityRequested m]) f' := by
  subst hn
  have hget : f.begun.get? m.occurrence = some done := by
    obtain ⟨previous, rfl⟩ := h
    exact get?_set_self _ _ _
  have hboundary : f.boundary m.occurrence = some m.transition := by
    simp only [Lifecycle.boundary, hget, Option.getD_some, hdone, htransition]
  have hinstant : (Record.activityRequested m).instant = instant := hm
  have hrequested : f.requested m.occurrence = false := by
    rw [Lifecycle.requested, hget, Option.getD_some, hfirst]
  apply h.record rfl
  simp only [sort, Lifecycle.request, requireTransition]
  rw [require_bind h.contains, require_bind hboundary, require_bind hrequested,
    h.tail hended hending hinstant]

end Lifecycle

/-! ## Begin -/

lemma Begun.sort_initiation (c : Begun D s) (h : f.initiated.get? s.nextOccurrence = none) :
    c.initiation.isBeginTail = false ∧ f.sort c.initiation = .ok { f with
      initiated :=
        f.initiated.set s.nextOccurrence (c.binding.transition, c.binding.delivered) } := by
  have hinitiated := c.initiated
  cases hid : c.identity with
  | none =>
    rw [hid] at hinitiated
    have hrecord : c.initiation =
        selectedRecord c.binding.transition s.nextOccurrence c.instant := by
      simp only [Begun.initiation, hid]
    rw [hrecord, hinitiated.2]
    exact ⟨rfl, Lifecycle.initiate_fresh h _ _⟩
  | some identity =>
    have hrecord : c.initiation = .externalEventDelivered (c.delivered identity) := by
      simp only [Begun.initiation, hid]
    rw [hrecord]
    exact ⟨rfl, Lifecycle.initiate_fresh h _ _⟩

lemma lifecycle_initiation (c : Begun D s) (h : f.initiated.get? s.nextOccurrence = none) :
    f.step c.initiation = .ok { f with
      initiated := f.initiated.set s.nextOccurrence (c.binding.transition, c.binding.delivered)
      activeBegin := none
      previous := some c.initiation } := by
  have hfresh : Dict.get? { f with activeBegin := none }.initiated s.nextOccurrence = none := h
  obtain ⟨htail, hsort⟩ := c.sort_initiation hfresh
  exact Lifecycle.step_sort htail hsort

lemma Begun.initiation?_initiation (c : Begun D s) :
    c.initiation.initiation? = some (s.nextOccurrence, c.instant) := by
  unfold Begun.initiation
  cases c.identity <;> rfl

def Begun.sorted (c : Begun D s) (f : Lifecycle) : Lifecycle :=
  { f with
    initiated := f.initiated.set s.nextOccurrence (c.binding.transition, c.binding.delivered)
    begun := f.begun.set s.nextOccurrence c.records
    scopedOpen := match c.scope with
      | none => f.scopedOpen
      | some scope => f.scopedOpen.set s.nextOccurrence scope }

/-- The fold after the boundary of a begin batch, apart from the begin records. -/
def Begun.initiatedFold (c : Begun D s) (f : Lifecycle) : Lifecycle :=
  { c.sorted f with begun := f.begun }

lemma lifecycle_boundary (c : Begun D s) (h : f.begun.get? s.nextOccurrence = none) :
    ∃ f', Lifecycle.step { f with
        initiated := f.initiated.set s.nextOccurrence (c.binding.transition, c.binding.delivered)
        activeBegin := none
        previous := some c.initiation } (.firingBegun c.boundary) = .ok f' ∧
      Lifecycle.Beginning (c.initiatedFold f) s.nextOccurrence c.instant
        [.firingBegun c.boundary] f' := by
  have hbegun : f.begun.contains c.boundary.occurrence = false := contains_eq_false.mpr h
  have hinitiated : (f.initiated.set s.nextOccurrence
      (c.binding.transition, c.binding.delivered)).contains c.boundary.occurrence = true :=
    contains_iff_get?.mpr ⟨_, get?_set_self _ _ _⟩
  have hoccurrence : s.nextOccurrence = c.boundary.occurrence := rfl
  have hinstant : c.instant = c.boundary.instant := rfl
  have hsort : Lifecycle.sort { f with
        initiated := f.initiated.set s.nextOccurrence (c.binding.transition, c.binding.delivered)
        activeBegin := none
        previous := some c.initiation } (.firingBegun c.boundary) =
      .ok { c.initiatedFold f with
        begun := f.begun.set s.nextOccurrence [.firingBegun c.boundary]
        activeBegin := some (s.nextOccurrence, c.instant)
        previous := some c.initiation } := by
    simp only [Lifecycle.sort, Lifecycle.begin_, Option.bind_some, c.initiation?_initiation]
    rw [require_bind hinitiated, require_bind hbegun, require_bind hoccurrence,
      require_true hinstant]
    rfl
  exact ⟨_, Lifecycle.step_sort rfl hsort, some (.firingBegun c.boundary), rfl⟩

lemma lifecycle_begun (c : Begun D s) {occs : List FiringOccurrence} (h : LifecycleRel D occs s f) :
    ∃ active previous, c.batch.foldlM Lifecycle.step f =
      .ok { c.sorted f with activeBegin := active, previous := previous } := by
  obtain ⟨f₁, hboundary, h₁⟩ := lifecycle_boundary c h.begun_next
  have hended : s.nextOccurrence ∉ (c.initiatedFold f).ended := h.ended_next
  have hending : s.nextOccurrence ∉ (c.initiatedFold f).ending :=
    fun hmem => h.ended_next (h.ending _ hmem)
  have hselects : ∀ r ∈ c.consumes ++ c.reads, ∃ m : Movement,
      m.occurrence = s.nextOccurrence ∧ m.instant = c.instant ∧
        (r = .tokensConsumed m ∨ r = .tokensRead m) := by
    intro r hr
    rcases mem_append.mp hr with hr | hr
    · obtain ⟨_, _, rfl⟩ := c.mem_consumes hr
      exact ⟨_, rfl, rfl, .inl rfl⟩
    · obtain ⟨_, _, rfl⟩ := c.mem_reads hr
      exact ⟨_, rfl, rfl, .inr rfl⟩
  obtain ⟨f₂, hfold₂, h₂⟩ := h₁.foldlM_selects hended hending hselects
  have htail : ∃ f', c.requests.foldlM Lifecycle.step f₂ = .ok f' ∧
      Lifecycle.Beginning (c.initiatedFold f) s.nextOccurrence c.instant c.records f' := by
    have hrecords : c.records =
        [.firingBegun c.boundary] ++ (c.consumes ++ c.reads) ++ c.requests := by
      rw [c.records_eq, Begun.tail, append_assoc, append_assoc]
      rfl
    rw [hrecords]
    cases hi : c.invocation with
    | none =>
      have hnone : c.requests = [] := by simp only [Begun.requests, hi, Option.toList_none, map_nil]
      rw [hnone, append_nil]
      exact ⟨f₂, rfl, h₂⟩
    | some i =>
      have hone : c.requests = [.activityRequested
          (requestRecord c.binding.transition i s.nextOccurrence c.scope c.instant)] := by
        simp only [Begun.requests, hi, Option.toList_some, map_cons, map_nil]
      have hfirst : ([Record.firingBegun c.boundary] ++ (c.consumes ++ c.reads)).any
          Record.isActivityRequested = false := by
        rw [any_append, any_append, c.any_consumes, c.any_reads]
        rfl
      obtain ⟨f', hstep, h'⟩ := h₂.request hended hending
        (m := requestRecord c.binding.transition i s.nextOccurrence c.scope c.instant) rfl rfl
        (cons_append) rfl hfirst
      rw [hone]
      exact ⟨f', foldlM_cons_ok hstep, h'⟩
  obtain ⟨f', hfold', previous, rfl⟩ := htail
  refine ⟨some (s.nextOccurrence, c.instant), previous, ?_⟩
  rw [c.batch_eq, foldlM_cons_ok (lifecycle_initiation c h.initiated_next),
    foldlM_cons_ok hboundary, Begun.tail, ← append_assoc, foldlM_append_ok hfold₂, hfold']
  rfl

lemma LifecycleRel.begin_ (c : Begun D s) {occs : List FiringOccurrence}
    (h : LifecycleRel D occs s f) (hl : FlightLive s) :
    LifecycleRel D (occs ++ [c.occurrence]) c.after (c.sorted f) where
  begun := by
    change (f.begun.set s.nextOccurrence c.records).entries = _
    rw [entries_set_of_absent h.begun_next, h.begun, map_append]
    rfl
  wellBegun o ho := by
    rcases mem_append.mp ho with ho | ho
    · exact h.wellBegun o ho
    · rw [mem_singleton.mp ho]
      exact c.wellBegun
  initiated o ho := by
    change (f.initiated.set s.nextOccurrence _).get? o.id = _
    rcases mem_append.mp ho with ho | ho
    · have hlt := h.lt_next ho
      rw [get?_set_ne _ _ (by omega), h.initiated o ho]
    · rw [mem_singleton.mp ho]
      exact get?_set_self _ _ _
  fresh id hid := by
    change id < s.nextOccurrence + 1
    rcases mem_keys_set.mp hid with rfl | hid
    · omega
    · have hlt := h.fresh id hid
      omega
  ended id hid := Nat.lt_succ_of_lt (h.ended id hid)
  ending := h.ending
  inFlight := by
    have hnew : ([c.occurrence].filter fun o => o.id ∉ f.ended) = [c.occurrence] := by
      have hnext : c.occurrence.id ∉ f.ended := h.ended_next
      simp [hnext]
    change (s.inFlight.set s.nextOccurrence c.occurrence).entries =
      ((occs ++ [c.occurrence]).filter fun o => o.id ∉ f.ended).map fun o => (o.id, o)
    rw [entries_set_of_absent hl.absent_next, h.inFlight, filter_append, hnew, map_append]
    rfl
  activity := by
    change (if c.invocation = none then s.activityOccurrences
      else s.activityOccurrences.set s.nextOccurrence c.occurrence).entries = _
    have hnone : c.occurrence.invocation = none ↔ c.invocation = none := Option.map_eq_none_iff
    rw [filter_append, map_append, ← h.activity]
    split_ifs with hi
    · simp [hnone.mpr hi]
    · rw [entries_set_of_absent h.activity_next]
      have hsome : c.occurrence.invocation ≠ none := fun hc => hi (hnone.mp hc)
      simp only [filter_cons, filter_nil, ne_eq, hsome, not_false_eq_true, decide_true,
        if_true, map_cons, map_nil]
      rfl
  scopedOpen := by
    have hflight : c.after.inFlight.entries =
        s.inFlight.entries ++ [(s.nextOccurrence, c.occurrence)] :=
      entries_set_of_absent hl.absent_next _
    have habsent : f.scopedOpen.get? s.nextOccurrence = none := by
      rw [get?_eq_none, Dict.keys, h.scopedOpen]
      intro hmem
      obtain ⟨e, he, heq⟩ := mem_map.mp hmem
      obtain ⟨e', he', hscope⟩ := mem_filterMap.mp he
      obtain ⟨scope, -, rfl⟩ := Option.map_eq_some_iff.mp hscope
      have hget : s.inFlight.get? s.nextOccurrence = some e'.2 := by
        rw [get?_eq_some, ← heq]
        exact he'
      rw [hl.absent_next] at hget
      cases hget
    have happend : openScopes c.after.inFlight.entries = openScopes s.inFlight.entries ++
        openScopes [(s.nextOccurrence, c.occurrence)] := by
      rw [hflight, openScopes, filterMap_append]
      rfl
    have hscope : c.occurrence.scope = c.scope := rfl
    rw [happend, ← h.scopedOpen]
    unfold Begun.sorted openScopes
    cases hc : c.scope with
    | none => simp [hscope, hc]
    | some scope => simp [hscope, hc, entries_set_of_absent habsent]
  frozen := h.frozen
  frozen_begun id hid := by
    obtain ⟨o, ho, heq⟩ := h.frozen_begun id hid
    exact ⟨o, mem_append_left _ ho, heq⟩
  lifecycleCancelled := h.lifecycleCancelled
  cancelled id o ho := mem_append_left _ (h.cancelled id o ho)

end Petrus.Impetus
