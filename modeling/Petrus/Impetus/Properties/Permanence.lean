import Petrus.Impetus.Properties.Consumption

/-!
# What a run never takes back

A run only adds: the history grows at its end, time and the counters do not go back, an
accepted delivery stays accepted, the first outcome of an activity stays its outcome, an
occurrence that ended does not fly again, and a generation of a scope that is over does not
come back. Calls that raise and restarts are part of a run.
-/

namespace Petrus.Impetus

open Lib Motus List Dict

variable {D : Definition} {s t u : Instance}

def Instance.generation (s : Instance) (name : String) : Nat :=
  (s.scopeGenerations.get? name).getD 0

/-- The first outcome reported for the activity, still waiting to be applied or applied. -/
def Instance.Decided (s : Instance) (id : Nat) (outcome : Outcome) : Prop :=
  s.frozenResults.get? id = some outcome ∨ s.terminalActivity.get? id = some outcome

/-- The generation was opened before and is not the active one. -/
def Instance.Past (s : Instance) (scope : LifecycleScope) : Prop :=
  scope.generation ≤ s.generation scope.name ∧ s.activeScopes.get? scope.name ≠ some scope

structure Instance.Extends (s t : Instance) : Prop where
  history : s.history <+: t.history
  watermark : s.watermark ≤ t.watermark
  occurrences : s.nextOccurrence ≤ t.nextOccurrence
  accepted : ∀ identity fact, s.acceptedIdentities.get? identity = some fact →
    t.acceptedIdentities.get? identity = some fact
  decided : ∀ id outcome, s.Decided id outcome → t.Decided id outcome
  quarantined : ∀ id outcome, s.quarantinedActivity.get? id = some outcome →
    t.quarantinedActivity.get? id = some outcome
  ended : ∀ id < s.nextOccurrence, s.inFlight.get? id = none → t.inFlight.get? id = none
  past : ∀ scope, s.Past scope → t.Past scope

namespace Instance.Extends

lemma refl (s : Instance) : s.Extends s where
  history := prefix_rfl
  watermark := le_rfl
  occurrences := le_rfl
  accepted _ _ h := h
  decided _ _ h := h
  quarantined _ _ h := h
  ended _ _ h := h
  past _ h := h

lemma trans (h : s.Extends t) (h' : t.Extends u) : s.Extends u where
  history := h.history.trans h'.history
  watermark := h.watermark.trans h'.watermark
  occurrences := h.occurrences.trans h'.occurrences
  accepted k fact hk := h'.accepted k fact (h.accepted k fact hk)
  decided id outcome hid := h'.decided id outcome (h.decided id outcome hid)
  quarantined id outcome hid := h'.quarantined id outcome (h.quarantined id outcome hid)
  ended id hlt hid := h'.ended id (hlt.trans_le h.occurrences) (h.ended id hlt hid)
  past scope hscope := h'.past scope (h.past scope hscope)

end Instance.Extends

/-! ## One commit -/

namespace Commit

lemma accepted_kept (c : Commit D s) {identity : String} {fact : AcceptedDeliveryFact}
    (h : s.acceptedIdentities.get? identity = some fact) :
    c.after.acceptedIdentities.get? identity = some fact := by
  cases c with
  | begun c =>
    change c.after.acceptedIdentities.get? identity = some fact
    have hinitiated := c.initiated
    cases hid : c.identity with
    | none => simpa only [Begun.after, hid] using h
    | some accepted =>
      rw [hid] at hinitiated
      -- a delivery begins a firing only under an identity not accepted before
      have hne : accepted ≠ identity := by
        rintro rfl
        rw [hinitiated.2.2.1] at h
        cases h
      simp only [Begun.after, hid]
      rw [get?_set_ne _ _ hne, h]
  | dispositioned c =>
    have hne : c.identity ≠ identity := by
      intro heq
      rw [← heq, c.fresh] at h
      cases h
    exact (get?_set_ne _ _ hne).trans h
  | _ => exact h

lemma decided_settled {id : Nat} {outcome : Outcome} {t : Instance} {k : Nat}
    (hnone : s.terminalActivity.get? k = none)
    (hfrozen : t.frozenResults = s.frozenResults.erase k)
    (hset : ∀ o, s.frozenResults.get? k = some o →
      t.terminalActivity = s.terminalActivity.set k o)
    (hkeep : s.frozenResults.get? k = none → t.terminalActivity = s.terminalActivity)
    (h : s.Decided id outcome) : t.Decided id outcome := by
  by_cases hk : k = id
  · subst hk
    rcases h with h | h
    · right
      rw [hset outcome h, get?_set_self]
    · rw [hnone] at h
      cases h
  · refine h.imp ?_ ?_
    · intro h
      rw [hfrozen, get?_erase_ne _ hk, h]
    · intro h
      cases ho : s.frozenResults.get? k with
      | none => rw [hkeep ho, h]
      | some o => rw [hset o ho, get?_set_ne _ _ hk, h]

lemma decided_kept (c : Commit D s) (hl : FlightLive s) {id : Nat} {outcome : Outcome}
    (h : s.Decided id outcome) : c.after.Decided id outcome := by
  -- what is in flight has no terminal outcome yet
  have hflying : ∀ {o : FiringOccurrence}, s.inFlight.get? o.id = some o →
      s.terminalActivity.get? o.id = none := by
    intro o ho
    cases hterminal : s.terminalActivity.get? o.id with
    | none => rfl
    | some x =>
      rw [(hl.terminal _ _ hterminal).2.1] at ho
      cases ho
  cases c with
  | completed c =>
    refine decided_settled (hflying c.inFlight) rfl ?_ ?_ h
    · intro o ho
      simp only [after, Completed.after, ho]
    · intro ho
      simp only [after, Completed.after, ho]
  | failed c =>
    refine decided_settled (hflying c.inFlight) rfl ?_ ?_ h
    · intro o ho
      simp only [after, Failed.after, ho]
    · intro ho
      simp only [after, Failed.after, ho]
  | frozen c =>
    refine h.imp_left ?_
    intro h
    have hne : c.occurrence.id ≠ id := by
      intro heq
      rw [← heq, c.first] at h
      cases h
    exact (get?_set_ne _ _ hne).trans h
  | _ => exact h

lemma quarantined_kept (c : Commit D s) {id : Nat} {outcome : Json}
    (h : s.quarantinedActivity.get? id = some outcome) :
    c.after.quarantinedActivity.get? id = some outcome := by
  cases c with
  | quarantined c =>
    have hne : c.occurrence.id ≠ id := by
      intro heq
      rw [← heq, c.first] at h
      cases h
    exact (get?_set_ne _ _ hne).trans h
  | _ => exact h

lemma inFlight_ended (c : Commit D s) {id : Nat} (hlt : id < s.nextOccurrence)
    (h : s.inFlight.get? id = none) : c.after.inFlight.get? id = none := by
  have herased : ∀ k, (s.inFlight.erase k).get? id = none := by
    intro k
    by_cases hk : k = id
    · rw [hk, get?_erase_self]
    · rw [get?_erase_ne _ hk, h]
  cases c with
  | begun c => exact (get?_set_ne _ _ hlt.ne').trans h
  | completed c => exact herased _
  | failed c => exact herased _
  | closed c =>
    cases ho : c.after.inFlight.get? id with
    | none => exact ho
    | some o =>
      rw [(get?_filter.mp ho).1] at h
      cases h
  | _ => exact h

lemma past_kept (c : Commit D s) (hl : ScopeLive s) {scope : LifecycleScope} (h : s.Past scope) :
    c.after.Past scope := by
  cases c with
  | opened c =>
    obtain ⟨hle, hne⟩ := h
    have hnext : c.scope.generation = s.generation c.scope.name + 1 := c.next
    unfold Instance.Past Instance.generation
    simp only [after, Opened.after, get?_set]
    split_ifs with hname
    · rw [← hname] at hle
      refine ⟨by rw [Option.getD_some]; omega, ?_⟩
      rintro ⟨⟩
      omega
    · exact ⟨hle, hne⟩
  | closed c =>
    obtain ⟨hle, hne⟩ := h
    by_cases hname : c.scope.name = scope.name
    · have hgeneration : s.generation scope.name = c.scope.generation := by
        have hactive := (hl.active _ _ c.active).2
        rw [hname] at hactive
        rw [Instance.generation, hactive, Option.getD_some]
      unfold Instance.Past Instance.generation
      simp only [after, Closed.after, hname]
      split_ifs
      · rw [get?_set_self, get?_set_self, Option.getD_some]
        have hnext : c.scope.next.generation = c.scope.generation + 1 := rfl
        refine ⟨by omega, ?_⟩
        intro heq
        have hsame := congrArg LifecycleScope.generation (Option.some.inj heq)
        omega
      · rw [get?_erase_self]
        exact ⟨hle, by simp⟩
    · unfold Instance.Past Instance.generation
      simp only [after, Closed.after]
      split_ifs
      · rw [get?_set_ne _ _ hname, get?_set_ne _ _ hname, get?_erase_ne _ hname]
        exact ⟨hle, hne⟩
      · rw [get?_erase_ne _ hname]
        exact ⟨hle, hne⟩
  | _ => exact h

lemma extends_after (c : Commit D s) (hl : Live D s) : s.Extends c.after where
  history := by
    rw [c.after_history]
    exact prefix_append _ _
  watermark := by
    rw [c.after_watermark]
    exact c.instant_le
  occurrences := c.nextOccurrence_le
  accepted _ _ h := c.accepted_kept h
  decided _ _ h := c.decided_kept hl.flight h
  quarantined _ _ h := c.quarantined_kept h
  ended _ hlt h := c.inFlight_ended hlt h
  past _ h := c.past_kept hl.scope h

end Commit

/-! ## Whole runs -/

lemma extends_reorder {active : Dict String LifecycleScope} {terminal : Dict Nat Outcome}
    (hactive : active.Same s.activeScopes) (hterminal : terminal.Same s.terminalActivity) :
    s.Extends (s.reorder active terminal) where
  history := prefix_rfl
  watermark := le_rfl
  occurrences := le_rfl
  accepted _ _ h := h
  decided id _ h := h.imp_right (hterminal id).trans
  quarantined _ _ h := h
  ended _ _ h := h
  past scope h := ⟨h.1, by
    change active.get? scope.name ≠ some scope
    rw [hactive scope.name]
    exact h.2⟩

lemma Path.extends_ (h : Path D s t) (hs : Reached D s) : s.Extends t := by
  induction h with
  | refl => exact .refl s
  | commit hpath c _ ih => exact ih.trans (c.extends_after (hpath.reached hs).live)
  | reordered _ hactive hterminal ih => exact ih.trans (extends_reorder hactive hterminal)

/-- Whatever is called and whatever the stores answer, a run takes nothing back. -/
theorem runs_extend {allowed : Instance → Op → Prop} (hs : Reachable D s)
    (h : Runs D allowed s t) : s.Extends t :=
  (h.path hs.reached).extends_ hs.reached

lemma gateScope_valid : "a" ≠ "" ∧ '\x00' ∉ "a".toList := by decide

def gateScope : LifecycleScope := ⟨"a", 1, gateScope_valid, le_rfl⟩

def gateOpened : Instance := Op.perform gate storesAll (gateStart [flag]) (.openScope "a" none)

def gateClosed : Instance := Op.perform gate storesAll gateOpened (.closeScope gateScope none)

def gateFired : Instance := Op.perform gate storesAll gateClosed (.step none)

lemma gate_runs : Runs gate (fun _ _ => True) (gateStart [flag]) gateClosed :=
  (Runs.refl.perform storesAll (.openScope "a" none) trivial).perform storesAll
    (.closeScope gateScope none) trivial

/-- A scope opened and closed, a firing, and a restart. -/
theorem runs_extend_gate :
    (gateStart [flag]).Extends (Op.perform gate storesAll gateFired .resume) ∧
      gateClosed.nextOccurrence < gateFired.nextOccurrence ∧
      (resume gate gateFired.history).toOption.isSome :=
  ⟨runs_extend gate_decided.1.1 ((gate_runs.perform storesAll (.step none) trivial).perform
    storesAll .resume trivial), by decide +kernel, by decide +kernel⟩

/-- Nothing of a generation that is over is queued, in flight or active again after any run. -/
theorem past_scope_stays_empty {allowed : Instance → Op → Prop} {scope : LifecycleScope}
    (hs : Reachable D s) (hpast : s.Past scope) (h : Runs D allowed s t) :
    (∀ e ∈ t.queues.all, scope ∉ e.scope) ∧
      (∀ id o, t.inFlight.get? id = some o → scope ∉ o.scope) ∧
      t.activeScopes.get? scope.name ≠ some scope := by
  have hpath := h.path hs.reached
  have hl := (hpath.reached hs.reached).live.scope
  have hne := ((hpath.extends_ hs.reached).past scope hpast).2
  exact ⟨fun e he hscope => hne (hl.entries e he scope hscope),
    fun id o ho hscope => hne (hl.flights id o ho scope hscope), hne⟩

lemma gateClosed_reachable : Reachable gate gateClosed := by
  obtain ⟨s, hcreated, hruns⟩ := gate_decided.1.1
  exact ⟨s, hcreated, (hruns.perform storesAll (.openScope "a" none) trivial).perform storesAll
    (.closeScope gateScope none) trivial⟩

lemma gateClosed_past : gateClosed.Past gateScope := by
  unfold Instance.Past Instance.generation
  decide +kernel

def gateReopened : Instance := Op.perform gate storesAll gateClosed (.openScope "a" none)

theorem past_scope_stays_empty_gate :
    (∀ e ∈ gateReopened.queues.all, gateScope ∉ e.scope) ∧
      (∀ id o, gateReopened.inFlight.get? id = some o → gateScope ∉ o.scope) ∧
      gateReopened.activeScopes.get? gateScope.name ≠ some gateScope := by
  have hruns : Runs gate (fun _ _ => True) gateClosed gateReopened :=
    Runs.refl.perform storesAll (.openScope "a" none) trivial
  exact past_scope_stays_empty gateClosed_reachable gateClosed_past hruns

end Petrus.Impetus
