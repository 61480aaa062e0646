import Petrus.Impetus.Instance.Delivered
import Petrus.Impetus.Replay.Terminals

/-!
# Accepted source occurrences are replayed

The last fold of resume follows the occurrences begun by accepted external events.
It refuses one thing the doors allow: a source that declares no handler, completed
with something else than the built-in passthrough deposits. A completion is exact
when it is no such one; histories of exact completions are accepted.
-/

namespace Petrus.Impetus

open Lib Motus List Dict

variable {D : Definition} {s : Instance}
variable {r : ExternalEventDelivered} {next : Nat} {accepted : ExternalEventDelivered}
variable {s' : Instance}

/-! ## Which occurrences are sources -/

lemma sourceOccurrences_eq (accepted : Dict String AcceptedDeliveryFact) :
    sourceOccurrences accepted = Dict.ofList
      ((accepted.values.filterMap AcceptedDeliveryFact.delivered?).map
        fun r => (r.occurrence, r)) := by
  unfold sourceOccurrences
  rw [map_filterMap]
  congr 1
  apply filterMap_congr
  intro fact _
  cases fact <;> rfl

lemma DeliveredLive.get?_sourceOccurrences (h : DeliveredLive s) {id : Nat} :
    (sourceOccurrences s.acceptedIdentities).get? id = some r ↔
      r ∈ s.deliveries ∧ r.occurrence = id := by
  have hn : ((s.deliveries.map fun r => (r.occurrence, r)).map Prod.fst).Nodup := by
    rw [map_map]
    exact h.distinct
  have hentries : (sourceOccurrences s.acceptedIdentities).entries =
      s.deliveries.map fun r => (r.occurrence, r) := by
    rw [sourceOccurrences_eq]
    exact entries_ofList hn
  rw [get?_eq_some, hentries, mem_map]
  constructor
  · rintro ⟨r', hr', heq⟩
    cases heq
    exact ⟨hr', rfl⟩
  · rintro ⟨hr, rfl⟩
    exact ⟨r, hr, rfl⟩

/-- Of the occurrences begun so far `sources` knows those the accepted events began. -/
def Knows (sources : Dict Nat ExternalEventDelivered) (s : Instance) : Prop :=
  ∀ id < s.nextOccurrence, ∀ r, sources.get? id = some r ↔ r ∈ s.deliveries ∧ r.occurrence = id

lemma Commit.nextOccurrence_le (c : Commit D s) : s.nextOccurrence ≤ c.after.nextOccurrence := by
  cases c with
  | begun c => exact Nat.le_succ _
  | orphaned c => exact Nat.le_succ _
  | _ => exact le_rfl

lemma Commit.mem_deliveries (c : Commit D s)
    (hr : r.occurrence < s.nextOccurrence) : r ∈ c.after.deliveries ↔ r ∈ s.deliveries := by
  cases c with
  | begun c =>
    change r ∈ c.after.deliveries ↔ _
    rw [c.deliveries_after, mem_append]
    refine or_iff_left ?_
    intro hnew
    obtain ⟨identity, -, rfl⟩ := mem_map.mp hnew
    exact lt_irrefl _ hr
  | dispositioned c =>
    change r ∈ c.after.deliveries ↔ _
    rw [c.deliveries_after]
  | _ => exact Iff.rfl

lemma Knows.before {sources : Dict Nat ExternalEventDelivered} (c : Commit D s)
    (h : Knows sources c.after) : Knows sources s := by
  intro id hid r
  rw [h id (hid.trans_le c.nextOccurrence_le)]
  constructor
  · rintro ⟨hr, rfl⟩
    exact ⟨(c.mem_deliveries hid).mp hr, rfl⟩
  · rintro ⟨hr, rfl⟩
    exact ⟨(c.mem_deliveries hid).mpr hr, rfl⟩

/-! ## The relation -/

/-- Nothing was recorded of the occurrence since its acceptance. -/
structure SourceFold.Clean (f : SourceFold) (id : Nat) : Prop where
  cancelled : id ∉ f.cancelled
  terminal : f.terminals.get? id = none
  phase : f.phases.get? id = none
  instant : f.endInstants.get? id = none
  places : f.producedPlaces.get? id = none
  productions : f.productions.get? id = none

/-- In flight, or not begun yet. -/
abbrev Instance.Unended (s : Instance) (id : Nat) : Prop :=
  (∃ o, s.inFlight.get? id = some o) ∨ s.nextOccurrence ≤ id

structure SourceRel (sources : Dict Nat ExternalEventDelivered) (s : Instance) (f : SourceFold) :
    Prop where
  next : f.nextEntry = s.nextEntry
  idle : f.activeCompletion = none
  observed : ∀ id < s.nextOccurrence, ∀ r, sources.get? id = some r → id ∈ f.observedAcceptances
  clean : ∀ id, s.Unended id → f.Clean id

/-- The fold accepts the batch and comes to an instance it is related to. -/
abbrev SourceFold.Takes (D : Definition) (sources : Dict Nat ExternalEventDelivered)
    (f : SourceFold) (batch : List Record) (s : Instance) : Prop :=
  ∃ f', batch.foldlM (step D sources) f = .ok f' ∧ SourceRel sources s f'

namespace SourceFold

variable {sources : Dict Nat ExternalEventDelivered} {f : SourceFold} {r : Record}

lemma entriesAfter_deposit {tokens : List Token} {entries : List Nat}
    (hr : QueueFold.deposited r = some (tokens, entries))
    (hentries : entries = [] ∨ entries = List.range' next tokens.length) :
    entriesAfter next r = (List.range' next tokens.length, next + tokens.length) := by
  have hinferred : orElse entries (List.range' next tokens.length) =
      List.range' next tokens.length := by
    unfold orElse
    rcases hentries with rfl | rfl
    · rfl
    · split_ifs <;> rfl
  simp only [entriesAfter, hr, hinferred, QueueFold.foldl_next_range']

lemma entriesAfter_none (hr : QueueFold.deposited r = none) :
    entriesAfter next r = ([], next) := by
  simp only [entriesAfter, hr]

lemma step_unrelated (hidle : f.activeCompletion = none) (hclosure : r.closure? = none)
    (hr : r.occurrence?.bind sources.get? = none) :
    step D sources f r = .ok { f with nextEntry := (entriesAfter f.nextEntry r).2 } := by
  have hactive : ∀ active ∈ f.activeCompletion, r.occurrence? = some active := by
    rw [hidle]
    simp
  simp only [step, hclosure, hr]
  rw [require_true hactive]
  rfl

lemma step_correlated (hactive : ∀ active ∈ f.activeCompletion, r.occurrence? = some active)
    (hclosure : r.closure? = none) (hr : r.occurrence?.bind sources.get? = some accepted) :
    step D sources f r = correlated D accepted
      { f with nextEntry := (entriesAfter f.nextEntry r).2 } r (entriesAfter f.nextEntry r).1 := by
  simp only [step, hclosure, hr]
  rw [require_true hactive]
  rfl

lemma step_inert (hidle : f.activeCompletion = none) (hclosure : r.closure? = none)
    (hr : r.occurrence?.bind sources.get? = none) (hdeposit : QueueFold.deposited r = none) :
    step D sources f r = .ok f := by
  rw [step_unrelated hidle hclosure hr, entriesAfter_none hdeposit]

lemma foldlM_inert {batch : List Record} (hidle : f.activeCompletion = none)
    (h : ∀ r ∈ batch, r.closure? = none ∧ r.occurrence?.bind sources.get? = none ∧
      QueueFold.deposited r = none) : batch.foldlM (step D sources) f = .ok f := by
  apply Lib.foldlM_inert
  intro r hr
  obtain ⟨hclosure, hunrelated, hdeposit⟩ := h r hr
  exact step_inert hidle hclosure hunrelated hdeposit

lemma foldlM_numbered (mk : Selection × List Nat → Record)
    (hmk : ∀ e ids, (mk (e, ids)).closure? = none ∧
      (mk (e, ids)).occurrence?.bind sources.get? = none ∧
      ∃ entries, (entries = [] ∨ entries = ids) ∧
        QueueFold.deposited (mk (e, ids)) = some (e.2, entries))
    (effects : List Selection) (hidle : f.activeCompletion = none) (hnext : f.nextEntry = next) :
    ((numbered next effects).map mk).foldlM (step D sources) f =
      .ok { f with nextEntry := next + producedCount effects } := by
  induction effects generalizing f next with
  | nil =>
    subst hnext
    rfl
  | cons effect effects ih =>
    subst hnext
    obtain ⟨hclosure, hunrelated, entries, hentries, hdeposit⟩ :=
      hmk effect (List.range' f.nextEntry effect.2.length)
    have hstep := step_unrelated (D := D) hidle hclosure hunrelated
    rw [entriesAfter_deposit hdeposit hentries] at hstep
    have hrest := ih (f := { f with nextEntry := f.nextEntry + effect.2.length }) hidle rfl
    rw [numbered, map_cons, foldlM_cons_ok hstep, hrest, producedCount_cons, Nat.add_assoc]

lemma production_ok {m : Movement} {expected : List Nat}
    (htokens : m.tokens ≠ []) (hfresh : m.place ∉ (f.producedPlaces.get? m.occurrence).getD [])
    (hscope : m.scope = accepted.scope) (hentries : m.scope = none ∨ m.entries = expected)
    (hadmitted : ∀ token ∈ m.tokens, (D.net.outputs accepted.source).any fun arc =>
      arc.target = m.place && arc.admits token.color) :
    production D accepted f m expected = .ok { f with
      producedPlaces := f.producedPlaces.set m.occurrence
        ((f.producedPlaces.get? m.occurrence).getD [] ++ [m.place])
      productions := f.productions.set m.occurrence
        ((f.productions.get? m.occurrence).getD [] ++ [(m.place, m.tokens)]) } := by
  simp only [production]
  rw [require_bind htokens, require_bind hfresh, require_bind hscope,
    require_bind hentries, require_true hadmitted]
  rfl

/-- The occurrence of `accepted` is known, its acceptance was seen, and nothing since. -/
structure Awaits (sources : Dict Nat ExternalEventDelivered) (accepted : ExternalEventDelivered)
    (f : SourceFold) : Prop where
  source : sources.get? accepted.occurrence = some accepted
  observed : accepted.occurrence ∈ f.observedAcceptances
  clean : f.Clean accepted.occurrence

/-! ## A completion batch -/

/-- Inside the completion batch of `accepted`: `done` is deposited, the batch has reached `rank`,
and of the other occurrences nothing changed since `g`. -/
structure Completing (accepted : ExternalEventDelivered) (instant : Instant) (g : SourceFold)
    (done : List Selection) (rank : Nat) (f : SourceFold) : Prop where
  active : ∀ id ∈ f.activeCompletion, id = accepted.occurrence
  observed : f.observedAcceptances = g.observedAcceptances
  cancelled : f.cancelled = g.cancelled
  terminals : f.terminals = g.terminals
  phase : ∀ prior ∈ f.phases.get? accepted.occurrence, prior ≤ rank
  instant : ∀ i ∈ f.endInstants.get? accepted.occurrence, instant = i
  places : (f.producedPlaces.get? accepted.occurrence).getD [] = done.map Prod.fst
  productions : (f.productions.get? accepted.occurrence).getD [] = done
  others : ∀ id, id ≠ accepted.occurrence → g.Clean id → f.Clean id

variable {instant : Instant} {g : SourceFold} {done : List Selection} {rank : Nat}

namespace Completing

lemma mono (h : Completing accepted instant g done rank f) {rank' : Nat} (hle : rank ≤ rank') :
    Completing accepted instant g done rank' f :=
  { h with phase := fun prior hprior => (h.phase prior hprior).trans hle }

def entered (f : SourceFold) (occurrence rank : Nat) (r : Record) : SourceFold :=
  { f with
    activeCompletion := some (f.activeCompletion.getD occurrence)
    endInstants := if f.endInstants.contains occurrence then f.endInstants
      else f.endInstants.set occurrence r.instant
    phases := f.phases.set occurrence rank
    phaseNames := f.phaseNames.set occurrence r.typeName }

lemma enter (h : Completing accepted instant g done rank f) (hr : r.instant = instant)
    (next : Nat) :
    Completing accepted instant g done rank
      (entered { f with nextEntry := next } accepted.occurrence rank r) := by
  have hother : ∀ id, id ≠ accepted.occurrence →
      (entered { f with nextEntry := next } accepted.occurrence rank r).endInstants.get? id =
        f.endInstants.get? id := by
    intro id hid
    simp only [entered]
    split_ifs
    · rfl
    · exact get?_set_ne _ _ hid.symm
  refine ⟨?_, h.observed, h.cancelled, h.terminals, ?_, ?_, h.places, h.productions, ?_⟩
  · intro id hid
    simp only [entered, Option.mem_def, Option.some.injEq] at hid
    subst hid
    cases hactive : f.activeCompletion with
    | none => rfl
    | some active => exact h.active active hactive
  · intro prior hprior
    simp only [entered, get?_set_self, Option.mem_def, Option.some.injEq] at hprior
    exact hprior.ge
  · intro i hi
    simp only [entered] at hi
    split_ifs at hi with hcontains
    · exact h.instant i hi
    · rw [get?_set_self] at hi
      cases hi
      exact hr.symm
  · intro id hid hclean
    obtain ⟨h₁, h₂, h₃, h₄, h₅, h₆⟩ := h.others id hid hclean
    refine ⟨h₁, h₂, ?_, ?_, h₅, h₆⟩
    · exact (get?_set_ne _ _ hid.symm).trans h₃
    · rw [hother id hid, h₄]

lemma completion_eq (h : Completing accepted instant g done rank f) (hr : r.instant = instant)
    (hrank : completionRank r = some rank)
    (hregistration : r.isRegistration = false ∨ D.declaresHandler accepted.source = true)
    (next : Nat) (expected : List Nat) :
    completion D accepted { f with nextEntry := next } r expected =
      match r with
      | .tokensProduced m => production D accepted
          (entered { f with nextEntry := next } accepted.occurrence rank r) m expected
      | .firingCompleted _ => do
        passthroughComplete D accepted ((f.productions.get? accepted.occurrence).getD [])
        return { entered { f with nextEntry := next } accepted.occurrence rank r with
          terminals := f.terminals.set accepted.occurrence r.typeName
          activeCompletion := none }
      | _ => .ok (entered { f with nextEntry := next } accepted.occurrence rank r) := by
  have hinstant : ∀ i ∈ f.endInstants.get? accepted.occurrence, r.instant = i := by
    intro i hi
    rw [hr]
    exact h.instant i hi
  simp only [completion, hrank]
  rw [require_bind hregistration, require_bind h.phase, require_bind hinstant]
  cases r <;> rfl

lemma step_eq (h : Completing accepted instant g done rank f) (hw : Awaits sources accepted g)
    (hr : r.occurrence? = some accepted.occurrence) (hrank : completionRank r = some rank) :
    step D sources f r = completion D accepted
      { f with nextEntry := (entriesAfter f.nextEntry r).2 }
      r (entriesAfter f.nextEntry r).1 := by
  have hactive : ∀ active ∈ f.activeCompletion, r.occurrence? = some active := by
    intro active hmem
    rw [hr, h.active active hmem]
  have hclosure : r.closure? = none := by
    cases r <;> first | rfl | cases hrank
  have hpure : r.isActivityOrSelection = false := by
    cases r <;> first | rfl | cases hrank
  have hobserved : accepted.occurrence ∈ f.observedAcceptances := by
    rw [h.observed]
    exact hw.observed
  have hcancelled : accepted.occurrence ∉ f.cancelled := by
    rw [h.cancelled]
    exact hw.clean.cancelled
  have hterminal : f.terminals.contains accepted.occurrence = false := by
    rw [h.terminals, contains_eq_false]
    exact hw.clean.terminal
  rw [step_correlated hactive hclosure (by rw [hr]; exact hw.source)]
  cases r <;> first
    | (cases hrank; done)
    | (simp only [correlated]
       rw [require_bind hobserved, require_bind hcancelled,
         require_bind hterminal, require_bind hpure])

lemma produce (h : Completing accepted instant g done 0 f)
    (hw : Awaits sources accepted g)
    {m : Movement} (hm : m.occurrence = accepted.occurrence) (hinstant : m.instant = instant)
    (htokens : m.tokens ≠ []) (hplace : m.place ∉ done.map Prod.fst)
    (hscope : m.scope = accepted.scope)
    (hentries : m.entries =
      if m.scope = none then [] else List.range' f.nextEntry m.tokens.length)
    (hadmitted : ∀ token ∈ m.tokens, (D.net.outputs accepted.source).any fun arc =>
      arc.target = m.place && arc.admits token.color) :
    ∃ f', step D sources f (.tokensProduced m) = .ok f' ∧
      Completing accepted instant g (done ++ [(m.place, m.tokens)]) 0 f' ∧
      f'.nextEntry = f.nextEntry + m.tokens.length := by
  have hchosen : m.entries = [] ∨ m.entries = List.range' f.nextEntry m.tokens.length := by
    rw [hentries]
    split_ifs <;> simp
  have hafter : entriesAfter f.nextEntry (.tokensProduced m) =
      (List.range' f.nextEntry m.tokens.length, f.nextEntry + m.tokens.length) :=
    entriesAfter_deposit rfl hchosen
  have hexpected : m.scope = none ∨ m.entries = List.range' f.nextEntry m.tokens.length := by
    by_cases hnone : m.scope = none
    · exact .inl hnone
    · rw [if_neg hnone] at hentries
      exact .inr hentries
  have hoccurrence : (Record.tokensProduced m).occurrence? = some accepted.occurrence :=
    congrArg some hm
  have hrank : completionRank (.tokensProduced m) = some 0 := rfl
  have hrecord : (Record.tokensProduced m).instant = instant := hinstant
  have hfresh : m.place ∉ (f.producedPlaces.get? m.occurrence).getD [] := by
    rw [hm, h.places]
    exact hplace
  rw [h.step_eq hw hoccurrence hrank, hafter, h.completion_eq hrecord hrank (.inl rfl)]
  have hentered := h.enter hrecord (f.nextEntry + m.tokens.length)
  refine ⟨{ entered { f with nextEntry := f.nextEntry + m.tokens.length } accepted.occurrence 0
      (.tokensProduced m) with
    producedPlaces := f.producedPlaces.set m.occurrence
      ((f.producedPlaces.get? m.occurrence).getD [] ++ [m.place])
    productions := f.productions.set m.occurrence
      ((f.productions.get? m.occurrence).getD [] ++ [(m.place, m.tokens)]) }, ?_, ?_, rfl⟩
  · exact production_ok (f := entered _ accepted.occurrence 0 _) htokens hfresh hscope hexpected
      hadmitted
  · rw [hm]
    refine ⟨hentered.active, hentered.observed, hentered.cancelled, hentered.terminals,
      hentered.phase, hentered.instant, ?_, ?_, ?_⟩
    · simp only [get?_set_self, Option.getD_some]
      rw [h.places, map_append]
      rfl
    · simp only [get?_set_self, Option.getD_some]
      rw [h.productions]
    · intro id hid hother
      obtain ⟨h₁, h₂, h₃, h₄, h₅, h₆⟩ := hentered.others id hid hother
      exact ⟨h₁, h₂, h₃, h₄, (get?_set_ne _ _ hid.symm).trans h₅,
        (get?_set_ne _ _ hid.symm).trans h₆⟩

lemma register (h : Completing accepted instant g done rank f)
    (hw : Awaits sources accepted g)
    (hregistration : r.isRegistration = true)
    (hhandler : D.declaresHandler accepted.source = true)
    (hr : r.occurrence? = some accepted.occurrence) (hinstant : r.instant = instant)
    (hrank : completionRank r = some rank) :
    ∃ f', step D sources f r = .ok f' ∧ Completing accepted instant g done rank f' ∧
      f'.nextEntry = f.nextEntry := by
  have hafter : entriesAfter f.nextEntry r = ([], f.nextEntry) := by
    apply entriesAfter_none
    cases r <;> first | rfl | cases hregistration
  rw [h.step_eq hw hr hrank, hafter, h.completion_eq hinstant hrank (.inr hhandler)]
  refine ⟨_, ?_, h.enter hinstant f.nextEntry, rfl⟩
  cases r <;> first | rfl | cases hregistration

end Completing

end SourceFold

/-! ## Exact completions -/

/-- A source without a handler is completed with what the built-in passthrough deposits. -/
def Completed.Exact (c : Completed D s) : Prop :=
  D.net.isSource c.occurrence.binding.transition = true →
    D.declaresHandler c.occurrence.binding.transition = false →
      c.closes = [] ∧ c.opens = [] ∧ productionSpelling c.effects = productionSpelling
        (passthrough c.occurrence.binding (D.net.outputs c.occurrence.binding.transition)).entries

def Commit.Exact : Commit D s → Prop
  | .completed c => c.Exact
  | _ => True

section Completed

variable {sources : Dict Nat ExternalEventDelivered} {f g : SourceFold}

lemma source_produced (c : Completed D s) (hid : accepted.occurrence = c.occurrence.id)
    (hby : BegunBy accepted c.occurrence)
    (hw : SourceFold.Awaits sources accepted g)
    {done effects : List Selection} (hsub : ∀ e ∈ effects, e ∈ c.effects)
    (hn : ((done ++ effects).map Prod.fst).Nodup) (hnext : f.nextEntry = next)
    (h : SourceFold.Completing accepted c.instant g done 0 f) :
    ∃ f', ((numbered next effects).map fun e => Record.tokensProduced (c.production e)).foldlM
        (SourceFold.step D sources) f = .ok f' ∧
      SourceFold.Completing accepted c.instant g (done ++ effects) 0 f' ∧
      f'.nextEntry = next + producedCount effects := by
  induction effects generalizing done next f with
  | nil => exact ⟨f, rfl, by rwa [append_nil], by simp [hnext]⟩
  | cons effect effects ih =>
    subst hnext
    rw [forall_mem_cons] at hsub
    have hfresh : effect.1 ∉ done.map Prod.fst := by
      intro hmem
      rw [map_append, map_cons, nodup_append] at hn
      exact hn.2.2 _ hmem _ (by simp) rfl
    have hsourcePath : accepted.source = c.occurrence.binding.transition := by
      rw [hby.binding]
      rfl
    obtain ⟨f₁, hstep, h₁, hnext₁⟩ := h.produce (D := D)
      (m := c.production (effect, List.range' f.nextEntry effect.2.length)) hw
      hid.symm rfl (c.effects_ne effect hsub.1) hfresh hby.scope rfl (by
        rw [hsourcePath]
        exact c.admitted effect hsub.1)
    have hdone : SourceFold.Completing accepted c.instant g (done ++ [effect]) 0 f₁ := h₁
    obtain ⟨f', hfold, h', hnext'⟩ := ih hsub.2 (by simpa using hn) hnext₁ hdone
    refine ⟨f', ?_, by simpa using h', ?_⟩
    · rw [numbered, map_cons, foldlM_cons_ok hstep]
      exact hfold
    · rw [hnext', producedCount_cons, ← Nat.add_assoc]
      rfl

lemma source_registered {rank : Nat} {instant : Instant} {done : List Selection}
    (mk : DeliveryRegistration → Record) (effects : List DeliveryRegistration)
    (hmk : ∀ e, (mk e).isRegistration = true ∧ (mk e).occurrence? = some accepted.occurrence ∧
      (mk e).instant = instant ∧ completionRank (mk e) = some rank)
    (hhandler : effects ≠ [] → D.declaresHandler accepted.source = true)
    (hw : SourceFold.Awaits sources accepted g)
    (h : SourceFold.Completing accepted instant g done rank f) :
    ∃ f', (effects.map mk).foldlM (SourceFold.step D sources) f = .ok f' ∧
      SourceFold.Completing accepted instant g done rank f' ∧ f'.nextEntry = f.nextEntry := by
  induction effects generalizing f with
  | nil => exact ⟨f, rfl, h, rfl⟩
  | cons effect effects ih =>
    obtain ⟨hregistration, hoccurrence, hinstant, hrank⟩ := hmk effect
    have hdeclared := hhandler (cons_ne_nil _ _)
    obtain ⟨f₁, hstep, h₁, hnext₁⟩ := h.register hw hregistration hdeclared
      hoccurrence hinstant hrank
    obtain ⟨f', hfold, h', hnext'⟩ := ih (fun _ => hdeclared) h₁
    exact ⟨f', by rw [map_cons, foldlM_cons_ok hstep, hfold], h', hnext'.trans hnext₁⟩

lemma passthroughComplete_exact (c : Completed D s) (hexact : c.Exact)
    (hby : BegunBy accepted c.occurrence) (hisSource : D.net.isSource accepted.source = true) :
    SourceFold.passthroughComplete D accepted c.effects = .ok () := by
  have htransition : c.occurrence.binding.transition = accepted.source := by
    rw [hby.binding]
    rfl
  apply require_true
  cases hdeclared : D.declaresHandler accepted.source with
  | true => exact .inl rfl
  | false =>
    obtain ⟨-, -, hspelling⟩ := hexact (by rw [htransition]; exact hisSource)
      (by rw [htransition]; exact hdeclared)
    rw [hspelling, hby.binding]
    exact .inr rfl

lemma source_completed_batch (c : Completed D s) (hexact : c.Exact)
    (hid : accepted.occurrence = c.occurrence.id) (hby : BegunBy accepted c.occurrence)
    (hisSource : D.net.isSource accepted.source = true)
    (hw : SourceFold.Awaits sources accepted g)
    (hidle : g.activeCompletion = none) (hnext : g.nextEntry = s.nextEntry) :
    ∃ f, c.batch.foldlM (SourceFold.step D sources) g = .ok f ∧ f.activeCompletion = none ∧
      f.nextEntry = s.nextEntry + producedCount c.effects ∧
      f.observedAcceptances = g.observedAcceptances ∧
      ∀ id, id ≠ accepted.occurrence → g.Clean id → f.Clean id := by
  have htransition : c.occurrence.binding.transition = accepted.source := by
    rw [hby.binding]
    rfl
  have hhandler : c.closes ++ c.opens ≠ [] → D.declaresHandler accepted.source = true := by
    intro hne
    cases hdeclared : D.declaresHandler accepted.source with
    | true => rfl
    | false =>
      obtain ⟨hcloses, hopens, -⟩ := hexact (by rw [htransition]; exact hisSource)
        (by rw [htransition]; exact hdeclared)
      rw [hcloses, hopens] at hne
      exact absurd rfl hne
  have hstart : SourceFold.Completing accepted c.instant g [] 0 g := by
    constructor <;> simp [hidle, hw.clean.phase, hw.clean.instant, hw.clean.places,
      hw.clean.productions]
  obtain ⟨f₀, hfold₀, h₀, hnext₀⟩ := source_produced c hid hby hw
    (fun e he => he) (by simpa using c.effects_distinct) hnext hstart
  obtain ⟨f₁, hfold₁, h₁, hnext₁⟩ := source_registered
    (fun r => .deliveryRegistrationClosed (c.registration r)) c.closes
    (fun e => ⟨rfl, by rw [hid]; rfl, rfl, rfl⟩)
    (fun hne => hhandler (append_ne_nil_of_left_ne_nil hne _)) hw
    (h₀.mono (Nat.zero_le 1))
  obtain ⟨f₂, hfold₂, h₂, hnext₂⟩ := source_registered
    (fun r => .deliveryRegistrationOpened (c.registration r)) c.opens
    (fun e => ⟨rfl, by rw [hid]; rfl, rfl, rfl⟩)
    (fun hne => hhandler (append_ne_nil_of_right_ne_nil _ hne)) hw
    (h₁.mono (Nat.le_succ 1))
  have hrank : completionRank c.boundary = some 3 := rfl
  have hoccurrence : c.boundary.occurrence? = some accepted.occurrence := by
    rw [hid]
    rfl
  have h₃ := h₂.mono (Nat.le_succ 2)
  have hproductions : (f₂.productions.get? accepted.occurrence).getD [] = c.effects := by
    rw [h₂.productions]
    rfl
  have hlast : SourceFold.step D sources f₂ c.boundary = .ok
      { SourceFold.Completing.entered f₂ accepted.occurrence 3 c.boundary with
        terminals := f₂.terminals.set accepted.occurrence "FiringCompleted"
        activeCompletion := none } := by
    rw [h₃.step_eq hw hoccurrence hrank, h₃.completion_eq rfl hrank (.inl rfl)]
    simp only [Completed.boundary, hproductions]
    rw [passthroughComplete_exact c hexact hby hisSource]
    rfl
  refine ⟨{ SourceFold.Completing.entered f₂ accepted.occurrence 3 c.boundary with
    terminals := f₂.terminals.set accepted.occurrence "FiringCompleted"
    activeCompletion := none }, ?_, rfl, ?_, ?_, ?_⟩
  · rw [c.batch_eq, Completed.produced, foldlM_append_ok hfold₀, Completed.closings,
      foldlM_append_ok hfold₁, Completed.openings, foldlM_append_ok hfold₂]
    exact foldlM_cons_ok hlast
  · exact hnext₂.trans (hnext₁.trans hnext₀)
  · exact h₂.observed
  · intro id hne hother
    have hentered : c.boundary.instant = c.instant := rfl
    obtain ⟨k₁, k₂, k₃, k₄, k₅, k₆⟩ := (h₃.enter hentered f₂.nextEntry).others id hne hother
    exact ⟨k₁, (get?_set_ne _ _ hne.symm).trans k₂, k₃, k₄, k₅, k₆⟩

end Completed

/-! ## Every commit -/

section Commits

variable {sources : Dict Nat ExternalEventDelivered} {f : SourceFold}

namespace SourceRel

lemma frame (h : SourceRel sources s f) (hnext : s'.nextEntry = s.nextEntry)
    (hobserved : ∀ id < s'.nextOccurrence, ∀ r, sources.get? id = some r → id < s.nextOccurrence)
    (hclean : ∀ id, s'.Unended id → s.Unended id) : SourceRel sources s' f where
  next := h.next.trans hnext.symm
  idle := h.idle
  observed id hid r hr := h.observed id (hobserved id hid r hr) r hr
  clean id hid := h.clean id (hclean id hid)

lemma same (h : SourceRel sources s f) (hnext : s'.nextEntry = s.nextEntry)
    (hoccurrence : s'.nextOccurrence = s.nextOccurrence) (hflight : s'.inFlight = s.inFlight) :
    SourceRel sources s' f := by
  apply h.frame hnext
  · intro id hid r _
    rwa [hoccurrence] at hid
  · intro id hid
    rwa [Instance.Unended, hflight, hoccurrence] at hid

lemma unaccepted (h : SourceRel sources s f)
    (hnone : sources.get? s.nextOccurrence = none) (hnext : s'.nextEntry = s.nextEntry)
    (hoccurrence : s'.nextOccurrence = s.nextOccurrence + 1)
    (hclean : ∀ id, s'.Unended id → s.Unended id) : SourceRel sources s' f := by
  refine h.frame hnext ?_ hclean
  intro id hlt r hr
  rw [hoccurrence] at hlt
  refine lt_of_le_of_ne (Nat.le_of_lt_succ hlt) ?_
  rintro rfl
  rw [hnone] at hr
  cases hr

end SourceRel

lemma Begun.unended (c : Begun D s) {id : Nat} (h : c.after.Unended id) : s.Unended id := by
  rcases h with ⟨o, ho⟩ | hle
  · change (s.inFlight.set s.nextOccurrence c.occurrence).get? id = some o at ho
    rw [get?_set] at ho
    split_ifs at ho with heq
    · exact .inr heq.le
    · exact .inl ⟨o, ho⟩
  · exact .inr (Nat.le_of_succ_le hle)

lemma Knows.pure (hk : Knows sources s) (hd : DeliveredLive s) (hl : FlightLive s)
    {o : FiringOccurrence}
    (ho : s.inFlight.get? o.id = some o ∨ s.cancelled.get? o.id = some o)
    (himpure : o.invocation ≠ none) : sources.get? o.id = none := by
  have hlt : o.id < s.nextOccurrence := by
    rcases ho with ho | ho
    · exact (hl.flying _ _ ho).2.2
    · exact (hl.cancelled _ _ ho).2.1
  cases hr : sources.get? o.id with
  | none => rfl
  | some r =>
    obtain ⟨hmem, heq⟩ := (hk o.id hlt r).mp hr
    exact absurd (hd.begun r hmem o (by rw [heq]; exact ho)).invocation himpure

lemma Knows.scheduled (c : Commit D s) (hk : Knows sources c.after) (hd : DeliveredLive s)
    (hnext : s.nextOccurrence < c.after.nextOccurrence)
    (hdeliveries : c.after.deliveries = s.deliveries) : sources.get? s.nextOccurrence = none := by
  cases hr : sources.get? s.nextOccurrence with
  | none => rfl
  | some r =>
    obtain ⟨hmem, heq⟩ := (hk _ hnext r).mp hr
    rw [hdeliveries] at hmem
    have hlt := hd.below r hmem
    omega

lemma source_scheduled (c : Begun D s) (hid : c.identity = none) (hd : DeliveredLive s)
    (hk : Knows sources c.after) (h : SourceRel sources s f) :
    f.Takes D sources c.batch c.after := by
  have hdeliveries : c.after.deliveries = s.deliveries := by
    rw [c.deliveries_after, hid]
    simp
  have hnone := Knows.scheduled (.begun c) hk hd (Nat.lt_succ_self _) hdeliveries
  refine ⟨f, SourceFold.foldlM_inert h.idle ?_, h.unaccepted hnone rfl rfl fun _ => c.unended⟩
  · intro r hr
    have happends := (Commit.begun c).batch_appends r hr
    refine ⟨by cases happends <;> rfl, ?_, by cases happends <;> rfl⟩
    rw [c.batch_occurrence r hr, Option.bind_some, hnone]

lemma source_delivered (c : Begun D s) {identity : String} (hid : c.identity = some identity)
    (hk : Knows sources c.after) (h : SourceRel sources s f) :
    f.Takes D sources c.batch c.after := by
  have hby := c.begunBy hid
  have hsource : sources.get? s.nextOccurrence = some (c.delivered identity) := by
    rw [hk s.nextOccurrence (Nat.lt_succ_self _), c.deliveries_after, hid]
    exact ⟨mem_append_right _ (mem_singleton_self _), rfl⟩
  have hbatch : c.batch = [.externalEventDelivered (c.delivered identity),
      .firingBegun c.boundary] := by
    have hinvocation : c.invocation = none := Option.map_eq_none_iff.mp hby.invocation
    have hconsumed : c.binding.consumed = [] := congrArg Binding.consumed hby.binding
    have hread : c.binding.read = [] := congrArg Binding.read hby.binding
    rw [c.batch_eq]
    simp [Begun.initiation, hid, Begun.tail, Begun.consumes, Begun.reads, Begun.requests,
      hinvocation, hconsumed, hread]
  have hactive : ∀ r : Record, ∀ active ∈ f.activeCompletion, r.occurrence? = some active := by
    intro r active hmem
    rw [h.idle] at hmem
    cases hmem
  have haccepted : SourceFold.step D sources f (.externalEventDelivered (c.delivered identity)) =
      .ok f :=
    SourceFold.step_correlated (r := .externalEventDelivered (c.delivered identity))
      (hactive _) rfl hsource
  have hbegun : SourceFold.step D sources f (.firingBegun c.boundary) =
      .ok { f with observedAcceptances := f.observedAcceptances ++ [s.nextOccurrence] } :=
    SourceFold.step_correlated (r := .firingBegun c.boundary) (hactive _) rfl hsource
  refine ⟨{ f with observedAcceptances := f.observedAcceptances ++ [s.nextOccurrence] }, ?_,
    h.next, h.idle, ?_, ?_⟩
  · rw [hbatch, foldlM_cons_ok haccepted]
    exact foldlM_cons_ok hbegun
  · intro id hlt r hr
    change id < s.nextOccurrence + 1 at hlt
    by_cases heq : id = s.nextOccurrence
    · exact mem_append_right _ (mem_singleton.mpr heq)
    · exact mem_append_left _ (h.observed id (by omega) r hr)
  · intro id hid
    exact { h.clean id (c.unended hid) with }

lemma SourceRel.ends (h : SourceRel sources s f) {f' : SourceFold} {k : Nat}
    (hk : k < s.nextOccurrence) (hoccurrence : s'.nextOccurrence = s.nextOccurrence)
    (hflight : s'.inFlight = s.inFlight.erase k) (hnext : f'.nextEntry = s'.nextEntry)
    (hidle : f'.activeCompletion = none)
    (hobserved : f'.observedAcceptances = f.observedAcceptances)
    (hclean : ∀ id, id ≠ k → f.Clean id → f'.Clean id) : SourceRel sources s' f' where
  next := hnext
  idle := hidle
  observed id hid r hr := by
    rw [hoccurrence] at hid
    rw [hobserved]
    exact h.observed id hid r hr
  clean id hor := by
    rw [Instance.Unended, hflight, hoccurrence] at hor
    have hne : id ≠ k := by
      rintro rfl
      rcases hor with ⟨o, ho⟩ | hle
      · rw [get?_erase_self] at ho
        cases ho
      · omega
    apply hclean id hne
    apply h.clean id
    refine hor.imp_left ?_
    rintro ⟨o, ho⟩
    rw [get?_erase_ne _ hne.symm] at ho
    exact ⟨o, ho⟩

lemma SourceRel.awaits (h : SourceRel sources s f) {id : Nat}
    (hid : accepted.occurrence = id) (hlt : id < s.nextOccurrence) {o : FiringOccurrence}
    (ho : s.inFlight.get? id = some o) (hr : sources.get? id = some accepted) :
    f.Awaits sources accepted := by
  subst hid
  exact ⟨hr, h.observed _ hlt accepted hr, h.clean _ (.inl ⟨o, ho⟩)⟩

lemma source_completed (c : Completed D s) (hexact : c.Exact) (hs : Reached D s)
    (hk : Knows sources s) (h : SourceRel sources s f) :
    f.Takes D sources c.batch c.after := by
  have hlt := (hs.live.flight.flying _ _ c.inFlight).2.2
  cases hr : sources.get? c.occurrence.id with
  | none =>
    have hmk : ∀ e ids, (Record.tokensProduced (c.production (e, ids))).closure? = none ∧
        (Record.tokensProduced (c.production (e, ids))).occurrence?.bind sources.get? = none ∧
        ∃ entries, (entries = [] ∨ entries = ids) ∧ QueueFold.deposited
          (.tokensProduced (c.production (e, ids))) = some (e.2, entries) := by
      intro e ids
      refine ⟨rfl, hr, _, ?_, rfl⟩
      unfold Completed.production
      split_ifs <;> simp
    have hproduced := SourceFold.foldlM_numbered (D := D)
      (fun e => Record.tokensProduced (c.production e)) hmk c.effects h.idle h.next
    have hrest : (c.closings ++ (c.openings ++ [c.boundary])).foldlM (SourceFold.step D sources)
        { f with nextEntry := s.nextEntry + producedCount c.effects } =
          .ok { f with nextEntry := s.nextEntry + producedCount c.effects } := by
      apply SourceFold.foldlM_inert
      · exact h.idle
      · intro r hr'
        simp only [Completed.closings, Completed.openings, mem_append, mem_map,
          mem_singleton] at hr'
        rcases hr' with ⟨e, -, rfl⟩ | ⟨e, -, rfl⟩ | rfl <;> exact ⟨rfl, hr, rfl⟩
    refine ⟨{ f with nextEntry := s.nextEntry + producedCount c.effects }, ?_, ?_⟩
    · rw [c.batch_eq, Completed.produced, foldlM_append_ok hproduced, hrest]
    · refine h.ends hlt rfl rfl rfl h.idle rfl ?_
      intro id _ hclean
      exact { hclean with }
  | some accepted =>
    obtain ⟨hmem, hid⟩ := (hk _ hlt accepted).mp hr
    have hby := hs.delivered.begun accepted hmem c.occurrence (.inl (by rw [hid]; exact c.inFlight))
    have hisSource : D.net.isSource accepted.source = true := hs.deliveries_source hmem
    obtain ⟨f', hfold, hidle, hnext, hobserved, hclean⟩ := source_completed_batch c hexact hid hby
      hisSource (h.awaits hid hlt c.inFlight hr) h.idle h.next
    refine ⟨f', hfold, h.ends hlt rfl rfl hnext hidle hobserved ?_⟩
    rw [← hid]
    exact hclean

lemma source_failed (c : Failed D s) (hl : FlightLive s) (hk : Knows sources s)
    (h : SourceRel sources s f) :
    f.Takes D sources c.batch c.after := by
  have hlt := (hl.flying _ _ c.inFlight).2.2
  cases hr : sources.get? c.occurrence.id with
  | none =>
    refine ⟨f, SourceFold.foldlM_inert h.idle (forall_mem_singleton.mpr ⟨rfl, hr, rfl⟩), ?_⟩
    exact h.ends hlt rfl rfl h.next h.idle rfl fun _ _ hclean => hclean
  | some accepted =>
    obtain ⟨-, hid⟩ := (hk _ hlt accepted).mp hr
    have hw := h.awaits hid hlt c.inFlight hr
    have hactive : ∀ active ∈ f.activeCompletion, some c.occurrence.id = some active := by
      rw [h.idle]
      simp
    set failure : FiringFailed :=
      ⟨c.occurrence.binding.transition, c.error, c.occurrence.id, c.instant⟩
    have hpure : (Record.firingFailed failure).isActivityOrSelection = false := rfl
    have hstep : SourceFold.step D sources f (.firingFailed failure) =
        .ok { f with terminals := f.terminals.set accepted.occurrence "FiringFailed" } := by
      rw [SourceFold.step_correlated (r := .firingFailed failure) hactive rfl hr]
      simp only [SourceFold.correlated]
      rw [require_bind hw.observed, require_bind hw.clean.cancelled,
        require_bind (contains_eq_false.mpr hw.clean.terminal), require_bind hpure,
        require_true (contains_eq_false.mpr hw.clean.phase)]
      rfl
    refine ⟨_, foldlM_cons_ok hstep, h.ends hlt rfl rfl h.next h.idle rfl ?_⟩
    intro id hne hother
    rw [hid]
    exact { hother with terminal := (get?_set_ne _ _ hne.symm).trans hother.terminal }

lemma SourceFold.foldlM_cancel (typeName : String) {ids : List Nat}
    (h : ∀ id ∈ ids, ∀ accepted, sources.get? id = some accepted →
      id ∈ f.observedAcceptances ∧ f.phases.contains id = false ∧ f.terminals.contains id = false) :
    ∃ cancelled, ids.foldlM (SourceFold.cancel sources typeName) f =
        .ok { f with cancelled := cancelled } ∧ ∀ id ∈ cancelled, id ∈ f.cancelled ∨ id ∈ ids := by
  induction ids generalizing f with
  | nil => exact ⟨f.cancelled, rfl, fun id hid => .inl hid⟩
  | cons id ids ih =>
    rw [forall_mem_cons] at h
    cases hr : sources.get? id with
    | none =>
      have hstep : SourceFold.cancel sources typeName f id = .ok f := by
        simp only [SourceFold.cancel, hr]
      obtain ⟨cancelled, hfold, hmem⟩ := ih h.2
      refine ⟨cancelled, by rw [foldlM_cons_ok hstep, hfold], ?_⟩
      intro k hk
      exact (hmem k hk).imp_right (mem_cons_of_mem _)
    | some accepted =>
      obtain ⟨hobserved, hopen⟩ := h.1 accepted hr
      have hstep : SourceFold.cancel sources typeName f id =
          .ok { f with cancelled := f.cancelled ++ [id] } := by
        simp only [SourceFold.cancel, hr]
        rw [require_bind hobserved, require_true hopen]
        rfl
      obtain ⟨cancelled, hfold, hmem⟩ := ih (f := { f with cancelled := f.cancelled ++ [id] }) h.2
      refine ⟨cancelled, by rw [foldlM_cons_ok hstep, hfold], ?_⟩
      intro k hk
      rcases hmem k hk with hold | hrest
      · rcases mem_append.mp hold with hold | hnew
        · exact .inl hold
        · exact .inr (mem_cons.mpr (.inl (mem_singleton.mp hnew)))
      · exact .inr (mem_cons_of_mem _ hrest)

lemma source_closed (c : Closed s) (hl : FlightLive s) (h : SourceRel sources s f) :
    f.Takes D sources c.batch c.after := by
  have hopen : ∀ id ∈ scopeOccurrences s c.scope, ∀ accepted, sources.get? id = some accepted →
      id ∈ f.observedAcceptances ∧ f.phases.contains id = false ∧
        f.terminals.contains id = false := by
    intro id hid accepted hr
    obtain ⟨o, ho, -⟩ := (hl.mem_scopeOccurrences c.scope).mp hid
    have hclean := h.clean id (.inl ⟨o, ho⟩)
    exact ⟨h.observed id (hl.flying id o ho).2.2 accepted hr,
      contains_eq_false.mpr hclean.phase, contains_eq_false.mpr hclean.terminal⟩
  obtain ⟨cancelled, hfold, hmem⟩ := SourceFold.foldlM_cancel c.record.typeName hopen
  have hactive : ∀ active ∈ f.activeCompletion, c.record.occurrence? = some active := by
    rw [h.idle]
    simp
  have hdeposit : QueueFold.deposited c.record = none := by
    unfold Closed.record
    split_ifs <;> rfl
  have hstep : SourceFold.step D sources f c.record = .ok { f with cancelled := cancelled } := by
    simp only [SourceFold.step, c.closure?_record, SourceFold.entriesAfter_none hdeposit]
    rw [require_bind hactive]
    exact hfold
  refine ⟨_, foldlM_cons_ok hstep, h.next, h.idle, h.observed, ?_⟩
  intro id hor
  have hkept : id ∉ scopeOccurrences s c.scope ∧ s.Unended id := by
    rw [hl.mem_scopeOccurrences]
    rcases hor with ⟨o, ho⟩ | hle
    · obtain ⟨hget, hscope⟩ := get?_filter.mp ho
      refine ⟨?_, .inl ⟨o, hget⟩⟩
      rintro ⟨o', ho', hscope'⟩
      rw [hget] at ho'
      cases ho'
      simp only [decide_eq_true_eq] at hscope
      exact hscope hscope'
    · change s.nextOccurrence ≤ id at hle
      refine ⟨?_, .inr hle⟩
      rintro ⟨o', ho', -⟩
      have hlt := (hl.flying id o' ho').2.2
      omega
  obtain ⟨hnot, hold⟩ := hkept
  have hclean := h.clean id hold
  refine { hclean with cancelled := ?_ }
  intro hin
  rcases hmem id hin with hin | hin
  · exact hclean.cancelled hin
  · exact hnot hin

lemma source_orphaned (c : Orphaned D s) (hd : DeliveredLive s) (hk : Knows sources c.after)
    (h : SourceRel sources s f) :
    f.Takes D sources c.batch c.after := by
  have hnone := Knows.scheduled (.orphaned c) hk hd (Nat.lt_succ_self _) rfl
  refine ⟨f, SourceFold.foldlM_inert h.idle (forall_mem_singleton.mpr ⟨rfl, hnone, rfl⟩),
    h.unaccepted hnone rfl rfl ?_⟩
  rintro id (hflight | hle)
  · exact .inl hflight
  · exact .inr (Nat.le_of_succ_le hle)

end Commits

lemma source_commit {sources : Dict Nat ExternalEventDelivered} {f : SourceFold} (c : Commit D s)
    (hexact : c.Exact) (hs : Reached D s) (hk : Knows sources c.after)
    (h : SourceRel sources s f) :
    f.Takes D sources c.batch c.after := by
  have hbefore := hk.before c
  have hl := hs.live.flight
  have hinert : (∀ r ∈ c.batch, r.closure? = none ∧ r.occurrence?.bind sources.get? = none ∧
      QueueFold.deposited r = none) → c.after.nextEntry = s.nextEntry →
      c.after.nextOccurrence = s.nextOccurrence → c.after.inFlight = s.inFlight →
      f.Takes D sources c.batch c.after := by
    intro hbatch hnext hoccurrence hflight
    exact ⟨f, SourceFold.foldlM_inert h.idle hbatch, h.same hnext hoccurrence hflight⟩
  cases c with
  | begun c =>
    cases hid : c.identity with
    | none => exact source_scheduled c hid hs.delivered hk h
    | some identity => exact source_delivered c hid hk h
  | orphaned c => exact source_orphaned c hs.delivered hk h
  | completed c => exact source_completed c hexact hs hbefore h
  | failed c => exact source_failed c hl hbefore h
  | frozen c =>
    have hnone := hbefore.pure hs.delivered hl (.inl c.inFlight) c.impure
    refine hinert (forall_mem_singleton.mpr ?_) rfl rfl rfl
    unfold Frozen.record
    cases c.outcome <;> exact ⟨rfl, hnone, rfl⟩
  | quarantined c =>
    have hnone := hbefore.pure hs.delivered hl (.inr c.cancelled) c.impure
    exact hinert (forall_mem_singleton.mpr ⟨rfl, hnone, rfl⟩) rfl rfl rfl
  | closed c => exact source_closed c hl h
  | _ =>
    refine hinert (fun r hr => ?_) rfl rfl rfl
    cases Commit.batch_appends _ r hr <;> exact ⟨rfl, rfl, rfl⟩

/-! ## Histories of exact completions -/

lemma source_initial (D : Definition) (m : Marking) (instanceId : String) (instant : Instant)
    (sources : Dict Nat ExternalEventDelivered) :
    (initialRecords D.net m instanceId instant).foldlM (SourceFold.step D sources) {} =
      .ok { nextEntry := 1 + tokenCount m } := by
  have htokens : ((numbered 1 m.queues.entries).map fun e => Record.tokensInitialized
      { place := e.1.1, tokens := e.1.2, instant }).foldlM (SourceFold.step D sources) {} =
        .ok { nextEntry := 1 + tokenCount m } :=
    SourceFold.foldlM_numbered _ (fun e ids => ⟨rfl, rfl, [], .inl rfl, rfl⟩) _ rfl rfl
  unfold initialRecords
  rw [map_initialized_numbered, cons_append, foldlM_cons_ok (t := {}) rfl, foldlM_append_ok htokens]
  apply SourceFold.foldlM_inert
  · rfl
  · intro record hrecord
    obtain ⟨source, -, rfl⟩ := mem_map.mp hrecord
    exact ⟨rfl, rfl, rfl⟩

/-- Reached by commits whose completions are all exact. -/
inductive ReachedExactly (D : Definition) : Instance → Prop
  | created {m : Marking} {instanceId : String} {instant : Instant}
      (constructible : Constructible D m instanceId) :
      ReachedExactly D (Instance.initial D m instanceId instant)
  | commit {s : Instance} (h : ReachedExactly D s) (c : Commit D s) (exact : c.Exact)
      (checked : ∀ r ∈ c.batch, r.check = .ok ()) : ReachedExactly D c.after
  | reordered {s : Instance} (h : ReachedExactly D s) {active : Dict String LifecycleScope}
      {terminal : Dict Nat Outcome} (hactive : active.Same s.activeScopes)
      (hterminal : terminal.Same s.terminalActivity) :
      ReachedExactly D (s.reorder active terminal)

namespace ReachedExactly

lemma reached (h : ReachedExactly D s) : Reached D s := by
  induction h with
  | created constructible => exact .created constructible
  | commit _ c _ checked ih => exact .commit ih c checked
  | reordered _ hactive hterminal ih => exact .reordered ih hactive hterminal

lemma sources (h : ReachedExactly D s) (sources : Dict Nat ExternalEventDelivered)
    (hk : Knows sources s) :
    ∃ f, s.records.foldlM (SourceFold.step D sources) {} = .ok f ∧ SourceRel sources s f := by
  induction h with
  | @created m instanceId instant _ =>
    refine ⟨{ nextEntry := 1 + tokenCount m }, ?_, rfl, rfl, ?_, ?_⟩
    · simpa [Instance.records, Instance.initial] using
        source_initial D m instanceId instant sources
    · intro id hid r hr
      have hmem := ((hk id hid r).mp hr).1
      simp [Instance.deliveries, Instance.initial, Dict.values, Dict.empty] at hmem
    · intro id _
      exact ⟨not_mem_nil, rfl, rfl, rfl, rfl, rfl⟩
  | @commit s hs c hexact _ ih =>
    obtain ⟨f, hfold, hrel⟩ := ih (hk.before c)
    obtain ⟨f', hbatch, hrel'⟩ := source_commit c hexact hs.reached hk hrel
    refine ⟨f', ?_, hrel'⟩
    rw [c.after_records, foldlM_append_ok hfold, hbatch]
  | reordered _ _ _ ih =>
    obtain ⟨f, hfold, hrel⟩ := ih hk
    exact ⟨f, hfold, hrel.next, hrel.idle, hrel.observed, hrel.clean⟩

lemma validateAcceptedSourceOccurrences (h : ReachedExactly D s) :
    validateAcceptedSourceOccurrences D s.records s.acceptedIdentities = .ok () := by
  obtain ⟨f, hfold, -⟩ := h.sources (sourceOccurrences s.acceptedIdentities)
    fun id _ r => h.reached.delivered.get?_sourceOccurrences
  rw [Impetus.validateAcceptedSourceOccurrences, hfold]
  rfl

end ReachedExactly

end Petrus.Impetus
