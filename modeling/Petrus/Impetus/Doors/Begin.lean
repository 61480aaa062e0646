import Petrus.Impetus.Doors.Rule

/-!
# The scope doors and the begin of a firing refine commits
-/

namespace Petrus.Impetus

open Lib Motus List Dict Act

variable {D : Definition} {s : Instance}
variable {binding : Binding} {invocation : Option (ActivityInvocation Json)}
variable {scope result : Option LifecycleScope} {atInstant : Option Instant}

/-! ## Opening a scope -/

lemma openScope_settles (name : String) (atInstant : Option Instant) :
    Settles (fun (c : Commit D s) _ => ∃ k : Opened s, c = .opened k ∧ k.scope.name = name)
      (openScopePlan name atInstant s) openScopeSettle := by
  intro records p hplan
  unfold openScopePlan at hplan
  split at hplan
  case isFalse => cases hplan
  case isTrue hname =>
    rw [require_bind_eq_ok] at hplan
    simp only [bind_eq_ok, writerRecords_eq_ok] at hplan
    obtain ⟨hinactive, _, ⟨rfl, hchecked⟩, heq⟩ := hplan
    cases heq
    let k : Opened s :=
      { scope := ⟨name, (s.scopeGenerations.get? name).getD 0 + 1, hname, Nat.le_add_left _ _⟩
        instant := s.effective atInstant
        instant_le := s.watermark_le_effective atInstant
        inactive := contains_eq_false.mp hinactive
        next := rfl }
    exact ⟨.opened k, _, ⟨k, rfl, rfl⟩, rfl, hchecked, rfl⟩

lemma openScope_atMostOne (store : Store) (name : String) (atInstant : Option Instant) :
    AtMostOne (fun (c : Commit D s) _ => ∃ k : Opened s, c = .opened k ∧ k.scope.name = name)
      (openScope store name atInstant s) :=
  door_atMostOne store (openScope_settles name atInstant)

/-! ## Closing and resetting a scope -/

lemma scopeClosure_eq_ok {scope : LifecycleScope} {closure : ScopeClosure} :
    scopeClosure s scope = .ok closure ↔ s.activeScopes.get? scope.name = some scope ∧
      (∀ o ∈ s.projectionPending, o.scope ≠ some scope) ∧
        closure = ⟨scope, scopeEntries s scope, scopeOccurrences s scope⟩ := by
  unfold scopeClosure
  rw [require_bind_eq_ok, require_bind_eq_ok]
  simp [eq_comm]

lemma FlightLive.settled (h : FlightLive s) {scope : LifecycleScope}
    (hpending : ∀ o ∈ s.projectionPending, o.scope ≠ some scope) (id : Nat) (o : FiringOccurrence)
    (ho : s.inFlight.get? id = some o) (hscope : o.scope = some scope) :
    s.frozenResults.get? id = none := by
  by_contra hfrozen
  apply hpending o _ hscope
  unfold Instance.projectionPending
  rw [mem_filter, (h.flying id o ho).1]
  refine ⟨mem_values.mpr ⟨id, ho⟩, ?_⟩
  rw [contains_iff_get?]
  exact Option.ne_none_iff_exists'.mp hfrozen

lemma cancelOccurrences_ok {es : List (Nat × FiringOccurrence)} {t : Instance}
    (hn : (es.map Prod.fst).Nodup) (hin : ∀ e ∈ es, t.inFlight.get? e.1 = some e.2)
    (hfrozen : ∀ e ∈ es, t.frozenResults.get? e.1 = none) :
    cancelOccurrences (es.map Prod.fst) t = (.ok (), { t with
      inFlight := t.inFlight.filter fun id _ => id ∉ es.map Prod.fst
      cancelled := es.foldl (fun d e => d.set e.1 e.2) t.cancelled }) := by
  induction es generalizing t with
  | nil =>
    have hall : t.inFlight.filter (fun id _ => id ∉ ([] : List Nat)) = t.inFlight := by
      apply ext_entries
      simp [Dict.filter]
    simp only [map_nil, hall]
    rfl
  | cons e es ih =>
    rw [map_cons, nodup_cons] at hn
    have hpop := popInFlight_ok (hin e mem_cons_self)
    have hone : cancelOccurrence e.1 t = (.ok (), { t with
        inFlight := t.inFlight.erase e.1
        cancelled := t.cancelled.set e.1 e.2 }) := by
      unfold cancelOccurrence
      rw [bind_ok_apply hpop, modify_apply]
      simp only [erase_absent (hfrozen e mem_cons_self)]
    have hin' : ∀ e' ∈ es, (t.inFlight.erase e.1).get? e'.1 = some e'.2 := by
      intro e' he'
      have hne : e.1 ≠ e'.1 := by
        intro heq
        apply hn.1
        rw [heq]
        exact mem_map_of_mem he'
      rw [get?_erase_ne _ hne]
      exact hin e' (mem_cons_of_mem _ he')
    have hrest := ih (t := { t with
        inFlight := t.inFlight.erase e.1
        cancelled := t.cancelled.set e.1 e.2 }) hn.2 hin'
      (fun e' he' => hfrozen e' (mem_cons_of_mem _ he'))
    rw [map_cons, cancelOccurrences, bind_ok_apply hone, hrest]
    simp only [foldl_cons, filter_erase, mem_cons, not_or, Bool.decide_and]

section Close

variable {scope : LifecycleScope}

lemma Closed.after_inFlight (c : Closed s) : c.after.inFlight =
    s.inFlight.filter fun id _ => id ∉ c.cancelled.map Prod.fst := by
  apply ext_entries
  apply filter_congr
  intro e he
  rw [decide_eq_decide, not_iff_not]
  constructor
  · intro hscope
    exact mem_map_of_mem (mem_filter.mpr ⟨he, decide_eq_true hscope⟩)
  · intro hid
    obtain ⟨e', he', hkey⟩ := mem_map.mp hid
    rw [Closed.cancelled, mem_filter, decide_eq_true_eq] at he'
    have hsame : some e'.2 = some e.2 := by
      rw [← get?_eq_some.mpr he'.1, hkey]
      exact get?_eq_some.mpr he
    rw [← Option.some.inj hsame]
    exact he'.2

lemma closeSettle_ok (hl : Live D s) (c : Closed s) :
    closeSettle ⟨c.record, ⟨c.scope, scopeEntries s c.scope, scopeOccurrences s c.scope⟩,
      if c.reset then some c.scope.next else none, c.instant⟩ (s.appended c.batch) =
        (.ok (), c.after) := by
  have hqueues : [(c.record, ([] : List Nat))].foldlM
      (fun queues m => applyMovement queues m.1 m.2) s.queues =
        .ok (withoutScope s.queues c.scope) := by
    rw [foldlM_cons_eq_ok]
    refine ⟨_, ?_, rfl⟩
    have hclean : applyScopeCleanup s.queues c.scope (scopeEntries s c.scope) =
        .ok (withoutScope s.queues c.scope) := applyScopeCleanup_exact hl.queue.distinct
    unfold Closed.record
    split_ifs <;> exact hclean
  have hcancel : ∀ t : Instance, t.inFlight = s.inFlight → t.frozenResults = s.frozenResults →
      t.cancelled = s.cancelled → cancelOccurrences (scopeOccurrences s c.scope) t =
        (.ok (), { t with inFlight := c.after.inFlight, cancelled := c.after.cancelled }) := by
    intro t hinFlight hfrozen hcancelled
    have hn : (c.cancelled.map Prod.fst).Nodup := by
      rw [Closed.cancelled, ← hl.flight.scopeOccurrences_eq]
      exact hl.flight.scopeOccurrences_nodup c.scope
    have hin : ∀ e ∈ c.cancelled, s.inFlight.get? e.1 = some e.2 :=
      fun e he => get?_eq_some.mpr (mem_filter.mp he).1
    have hscope : ∀ e ∈ c.cancelled, e.2.scope = some c.scope :=
      fun e he => of_decide_eq_true (mem_filter.mp he).2
    rw [hl.flight.scopeOccurrences_eq, c.after_inFlight]
    have hrun := cancelOccurrences_ok (t := t) hn (by rw [hinFlight]; exact hin) (by
      rw [hfrozen]
      exact fun e he => c.settled e.1 e.2 (hin e he) (hscope e he))
    rw [hinFlight, hcancelled] at hrun
    exact hrun
  have hmoved := applyMovements_ok (t := s.appended c.batch) hqueues
  have hterminal : applyScopeTerminal c.record
      ⟨c.scope, scopeEntries s c.scope, scopeOccurrences s c.scope⟩
      (if c.reset then some c.scope.next else none) (s.appended c.batch) =
        (.ok (), { c.after with watermark := s.watermark }) := by
    unfold applyScopeTerminal
    rw [bind_ok_apply hmoved, modify_bind_apply]
    cases hreset : c.reset with
    | false | true =>
      refine (hcancel _ ?_ ?_ ?_).trans ?_
      · rfl
      · rfl
      · rfl
      · simp only [Closed.after, hreset]
        rfl
  unfold closeSettle
  rw [bind_ok_apply hterminal]
  rfl

def closing (hl : Live D s) (scope : LifecycleScope) (reset : Bool) (atInstant : Option Instant)
    (hactive : s.activeScopes.get? scope.name = some scope)
    (hpending : ∀ o ∈ s.projectionPending, o.scope ≠ some scope) : Closed s where
  scope := scope
  reset := reset
  instant := s.effective atInstant
  instant_le := s.watermark_le_effective atInstant
  active := hactive
  settled := hl.flight.settled hpending

lemma closeScope_atMostOne (hl : Live D s) (store : Store) (scope : LifecycleScope)
    (atInstant : Option Instant) : AtMostOne (fun (c : Commit D s) _ => ∃ k : Closed s,
      c = .closed k ∧ k.scope = scope ∧ k.reset = false) (closeScope store scope atInstant s) := by
  apply door_atMostOne
  intro records p hplan
  simp only [closeScopePlan, bind_eq_ok, scopeClosure_eq_ok, writerRecords_eq_ok] at hplan
  obtain ⟨_, ⟨hactive, hpending, rfl⟩, _, ⟨rfl, hchecked⟩, heq⟩ := hplan
  cases heq
  let k := closing hl scope false atInstant hactive hpending
  exact ⟨.closed k, ⟨scope, scopeEntries s scope, scopeOccurrences s scope⟩, ⟨k, rfl, rfl, rfl⟩,
    rfl, hchecked, bind_ok_apply (closeSettle_ok hl k)⟩

lemma resetScope_atMostOne (hl : Live D s) (store : Store) (scope : LifecycleScope)
    (atInstant : Option Instant) : AtMostOne (fun (c : Commit D s) _ => ∃ k : Closed s,
      c = .closed k ∧ k.scope = scope ∧ k.reset = true) (resetScope store scope atInstant s) := by
  apply door_atMostOne
  intro records p hplan
  simp only [resetScopePlan, bind_eq_ok, scopeClosure_eq_ok, writerRecords_eq_ok] at hplan
  obtain ⟨_, ⟨hactive, hpending, rfl⟩, _, ⟨rfl, hchecked⟩, heq⟩ := hplan
  cases heq
  let k := closing hl scope true atInstant hactive hpending
  exact ⟨.closed k, scope.next, ⟨k, rfl, rfl, rfl⟩, rfl, hchecked,
    bind_ok_apply (closeSettle_ok hl k)⟩

end Close

/-! ## The begin of a firing -/

lemma bindingEntries_eq_ok {queues : Queues} {entries : BindingEntries} :
    bindingEntries queues binding = .ok entries ↔ ∃ rest,
      consumedEntries queues binding.consumed = .ok (entries.consumed, rest) ∧
        (binding.read.mapM fun selection =>
          TokenQueue.selected (rest.at_ selection.1) selection.2) = .ok entries.read := by
  simp only [bindingEntries, bind_eq_ok]
  constructor
  · rintro ⟨⟨consumed, rest⟩, hconsumed, read, hread, heq⟩
    cases heq
    exact ⟨rest, hconsumed, hread⟩
  · rintro ⟨rest, hconsumed, hread⟩
    exact ⟨(entries.consumed, rest), hconsumed, entries.read, hread, rfl⟩

lemma provenance_eq_ok {t : NetPath} {inferred : List LifecycleScope} :
    provenance t inferred scope = .ok result ↔
      (∀ a ∈ inferred ++ scope.toList, ∀ b ∈ inferred ++ scope.toList, a = b) ∧
        result = (inferred ++ scope.toList).head? := by
  unfold provenance
  rw [require_bind_eq_ok]
  simp [eq_comm]

lemma provenance_scope {t : NetPath} {inferred : List LifecycleScope}
    (h : provenance t inferred scope = .ok result) :
    (∀ sc ∈ inferred, result = some sc) ∧ ∀ sc ∈ result, sc ∈ inferred ++ scope.toList := by
  obtain ⟨hall, rfl⟩ := provenance_eq_ok.mp h
  constructor
  · intro sc hsc
    have hmem := mem_append_left scope.toList hsc
    obtain ⟨x, hx⟩ : ∃ x, (inferred ++ scope.toList).head? = some x := by
      rw [← Option.isSome_iff_exists, isSome_head?]
      exact ne_nil_of_mem hmem
    rw [hx, hall x (mem_of_head? hx) sc hmem]
  · intro sc hsc
    exact mem_of_head? hsc

lemma beginPlan_eq_ok {initiation : Nat → Instant → Record}
    {scope : Option LifecycleScope} {plan : Plan BeginPlan FiringOccurrence} :
    beginPlan binding atInstant initiation invocation scope s = .ok plan ↔
      (∃ m, beginFiring s.marking binding = .ok m) ∧
      ∃ entries, bindingEntries s.queues binding = .ok entries ∧
      ∃ sc, provenance binding.transition entries.scopes scope = .ok sc ∧
      (∀ r ∈ initiation s.nextOccurrence (s.effective atInstant) ::
        beginRecords binding entries invocation s.nextOccurrence sc (s.effective atInstant),
          r.check = .ok ()) ∧
      plan = .batch (initiation s.nextOccurrence (s.effective atInstant) ::
        beginRecords binding entries invocation s.nextOccurrence sc (s.effective atInstant))
        { occurrence := {
            id := s.nextOccurrence, binding, scope := sc
            records := beginRecords binding entries invocation s.nextOccurrence sc
              (s.effective atInstant)
            invocation := invocation.map fun i => ActivityInvocation.resolved i s.nextOccurrence }
          instant := s.effective atInstant } := by
  simp only [beginPlan, bind_eq_ok, writerRecords_eq_ok]
  constructor
  · rintro ⟨m, hm, entries, hentries, sc, hsc, _, ⟨rfl, hchecked⟩, heq⟩
    cases heq
    exact ⟨⟨m, hm⟩, entries, hentries, sc, hsc, hchecked, rfl⟩
  · rintro ⟨⟨m, hm⟩, entries, hentries, sc, hsc, hchecked, rfl⟩
    exact ⟨m, hm, entries, hentries, sc, hsc, _, ⟨rfl, hchecked⟩, rfl⟩

lemma beginSettle_ok (hl : Live D s) (c : Begun D s) :
    beginSettle ⟨c.occurrence, c.instant⟩ (s.appended c.batch) =
      (.ok c.occurrence, { c.after with acceptedIdentities := s.acceptedIdentities }) := by
  have hqueues : (c.records.map fun r => (r, ([] : List Nat))).foldlM
      (fun queues m => applyMovement queues m.1 m.2) s.queues = .ok c.rest := by
    rw [foldlM_map]
    exact foldlM_beginRecords hl.queue.distinct c.consumed_ok c.invocation s.nextOccurrence
      c.scope c.instant
  have hnone : c.occurrence.invocation = none ↔ c.invocation = none := Option.map_eq_none_iff
  have hmoved := applyMovements_ok (t := { s.appended c.batch with
    watermark := c.instant, nextOccurrence := s.nextOccurrence + 1 }) hqueues
  unfold beginSettle
  change (applyMovements _ >>= _) _ = _
  refine (bind_ok_apply hmoved).trans ?_
  simp only [hnone]
  rfl

lemma beginSettle_scheduled (hl : Live D s) (c : Begun D s) (h : c.identity = none) :
    beginSettle ⟨c.occurrence, c.instant⟩ (s.appended c.batch) = (.ok c.occurrence, c.after) := by
  have hafter : { c.after with acceptedIdentities := s.acceptedIdentities } = c.after := by
    simp only [Begun.after, h]
  rw [beginSettle_ok hl c, hafter]

lemma preparedInvocation_isSome (h : preparedInvocation D binding = .ok invocation) :
    invocation.isSome = D.activityBound binding.transition := by
  unfold preparedInvocation at h
  unfold Definition.activityBound
  cases hbound : D.boundHandler binding.transition with
  | plain run =>
    rw [hbound] at h
    cases h
    rfl
  | activity handler =>
    rw [hbound] at h
    simp only [bind_eq_ok] at h
    obtain ⟨prepared, -, hprepared⟩ := h
    cases prepared with
    | none => cases hprepared
    | some prepared =>
      simp only [bind_eq_ok] at hprepared
      obtain ⟨-, -, -, -, input, -, heq⟩ := hprepared
      cases heq
      rfl

lemma validateScheduled_eq_ok : validateScheduled D binding = .ok () ↔
    binding.transition ∈ D.net.transitionPaths ∧
      D.net.isSource binding.transition = false ∧ binding.delivered = [] ∧
        validateBindingShape D.net binding "" = .ok () := by
  unfold validateScheduled
  rw [require_bind_eq_ok, require_bind_eq_ok, require_bind_eq_ok, validateBindingShape_ok,
    validateBindingShape_ok]

lemma begin_plan_commit (hl : Live D s) {records : List Record} {p : BeginPlan}
    (hscheduled : validateScheduled D binding = .ok ())
    (hprepared : preparedInvocation D binding = .ok invocation)
    (hplan : beginPlan binding atInstant (selectedRecord binding.transition) invocation none s =
      .ok (.batch records p)) :
    ∃ c : Begun D s, c.binding = binding ∧ c.identity = none ∧ c.invocation = invocation ∧
      c.instant = s.effective atInstant ∧ c.batch = records ∧
        (∀ r ∈ records, r.check = .ok ()) ∧ p = ⟨c.occurrence, c.instant⟩ := by
  obtain ⟨-, entries, hentries, sc, hsc, hchecked, heq⟩ := beginPlan_eq_ok.mp hplan
  cases heq
  obtain ⟨rest, hconsumed, hread⟩ := bindingEntries_eq_ok.mp hentries
  obtain ⟨hinferred, hresult⟩ := provenance_scope hsc
  obtain ⟨hmem, hsource, hdelivered, hshape⟩ := validateScheduled_eq_ok.mp hscheduled
  have hactive : ∀ x ∈ sc, s.activeScopes.get? x.name = some x := by
    intro x hx
    have hx := hresult x hx
    rw [Option.toList_none, append_nil] at hx
    obtain ⟨e, he, hscope⟩ := mem_filterMap.mp hx
    exact hl.scope.entries e (mem_entries_all hl.queue.distinct hconsumed hread he) x hscope
  let c : Begun D s :=
    { binding, invocation, scope := sc, entries, rest, identity := none
      instant := s.effective atInstant
      instant_le := s.watermark_le_effective atInstant
      consumed_ok := hconsumed
      read_ok := hread
      scope_entries := hinferred
      scope_active := hactive
      transition_mem := hmem
      shape := hshape
      impure := preparedInvocation_isSome hprepared
      initiated := ⟨hsource, hdelivered⟩ }
  exact ⟨c, rfl, rfl, rfl, rfl, rfl, hchecked, rfl⟩

lemma begin_settles (hl : Live D s) (hscheduled : validateScheduled D binding = .ok ())
    (hprepared : preparedInvocation D binding = .ok invocation) :
    Settles (fun (c : Commit D s) o => ∃ k : Begun D s, c = .begun k ∧ k.binding = binding ∧
        k.identity = none ∧ o = k.occurrence)
      (beginPlan binding atInstant (selectedRecord binding.transition) invocation none s)
      beginSettle := by
  intro records p hplan
  obtain ⟨c, hbinding, hidentity, -, -, hbatch, hchecked, rfl⟩ :=
    begin_plan_commit hl hscheduled hprepared hplan
  refine ⟨.begun c, c.occurrence, ⟨c, rfl, hbinding, hidentity, rfl⟩, hbatch, hchecked, ?_⟩
  rw [← hbatch]
  exact beginSettle_scheduled hl c hidentity

lemma begin_atMostOne (hl : Live D s) (store : Store) (binding : Binding)
    (atInstant : Option Instant) : AtMostOne (fun (c : Commit D s) o => ∃ k : Begun D s,
      c = .begun k ∧ k.binding = binding ∧ k.identity = none ∧ o = k.occurrence)
        (begin_ D store binding atInstant s) := by
  unfold begin_
  apply AtMostOne.lift_bind
  intro _ hscheduled
  apply AtMostOne.lift_bind
  intro invocation hprepared
  exact (door_atMostOne store (begin_settles hl hscheduled hprepared)).mapError _

lemma begin_returned (hl : Live D s) {store : Store}
    {o : FiringOccurrence} {t : Instance} (h : begin_ D store binding atInstant s = (.ok o, t)) :
    ∃ k : Begun D s, k.binding = binding ∧ k.identity = none ∧ o = k.occurrence ∧ t = k.after ∧
      ∀ r ∈ k.batch, r.check = .ok () := by
  unfold begin_ at h
  cases hscheduled : validateScheduled D binding with
  | error e =>
    rw [hscheduled] at h
    cases h
  | ok u =>
    rw [hscheduled, lift_ok_bind_apply] at h
    cases hprepared : preparedInvocation D binding with
    | error e =>
      rw [hprepared] at h
      cases h
    | ok invocation =>
      rw [hprepared, lift_ok_bind_apply] at h
      have hdoor := mapError_eq_ok.mp h
      have hbatch : ∀ b, beginPlan binding atInstant (selectedRecord binding.transition)
          invocation none s ≠ .ok (.answer b) := by
        intro b hplan
        obtain ⟨-, _, -, _, -, -, heq⟩ := beginPlan_eq_ok.mp hplan
        cases heq
      obtain ⟨c, ⟨k, rfl, hbinding, hidentity, rfl⟩, hchecked, rfl⟩ :=
        door_returned (begin_settles hl hscheduled hprepared) hbatch hdoor
      exact ⟨k, hbinding, hidentity, rfl, rfl, hchecked⟩

end Petrus.Impetus
