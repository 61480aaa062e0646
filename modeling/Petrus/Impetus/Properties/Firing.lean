import Petrus.Impetus.Doors.Passthrough
import Petrus.Impetus.Properties.Consumption
import Petrus.Impetus.Properties.Enumeration

/-!
# What a firing moves

A candidate selects queue positions, and a begin takes front-most equal tokens. Where the
selecting arcs of a transition come from different places, each place holds what the
binding asks of it, so the begin goes through; completing without a handler then
deposits, arc by arc, what was taken.
-/

namespace Petrus.Impetus

open Lib Motus List Dict

variable {D : Definition} {s t : Instance} {m : Marking} {instants : NetPath → List Instant}
  {binding : Binding} {bindings : List Binding} {p : NetPath}

/-! ## What a candidate selects -/

lemma filterMap_range_getElem? {α : Type} (as : List α) :
    (List.range as.length).filterMap (fun i => as[i]?) = as := by
  induction as with
  | nil => rfl
  | cons a as ih =>
    rw [length_cons, range_succ_eq_map, filterMap_cons, filterMap_map]
    exact congrArg (a :: ·) ih

section Selects

variable {arc : Arc × Nat} {positions : List Nat}

lemma Selects.tokensAt_sublist (h : Selects D m arc positions) :
    (tokensAt m arc.1.source positions).Sublist (m.place arc.1.source) := by
  have hpositions : positions.Sublist (List.range (m.place arc.1.source).length) := by
    refine sublist_of_subperm_of_pairwise ?_ h.ascending pairwise_lt_range
    refine subperm_of_subset (h.ascending.imp Nat.ne_of_lt) fun i hi => ?_
    obtain ⟨token, htoken, -⟩ := h.admitted i hi
    exact mem_range.mpr (List.getElem?_eq_some_iff.mp htoken).1
  have hsublist := hpositions.filterMap fun i => (m.place arc.1.source)[i]?
  rwa [filterMap_range_getElem?] at hsublist

lemma Selects.length_tokensAt (h : Selects D m arc positions) :
    (tokensAt m arc.1.source positions).length = arc.1.weight := by
  rw [tokensAt, length_filterMap_eq_countP, ← h.size, countP_eq_length]
  intro i hi
  obtain ⟨token, htoken, -⟩ := h.admitted i hi
  rw [htoken]
  rfl

end Selects

lemma shapeMatches_cons {arc : Arc} {arcs : List Arc} {tokens : List Token}
    {selections : List Selection} (hlength : tokens.length = arc.weight)
    (h : shapeMatches arcs selections = true) :
    shapeMatches (arc :: arcs) ((arc.source, tokens) :: selections) = true := by
  simp only [shapeMatches, decide_eq_true_eq] at h ⊢
  refine ⟨by rw [map_cons, map_cons, h.1], ?_⟩
  rw [zip_cons_cons, forall_mem_cons]
  exact ⟨hlength, h.2⟩

lemma chosen_selections {arcs : List (Arc × Nat)} {choice : List (List Nat)}
    (h : List.Forall₂ (Selects D m) arcs choice) (kind : Arc → Bool) :
    shapeMatches ((arcs.map Prod.fst).filter kind)
        (((arcs.zip choice).filter fun c => kind c.1.1).map fun c =>
          (c.1.1.source, tokensAt m c.1.1.source c.2)) = true ∧
      ∀ selection ∈ ((arcs.zip choice).filter fun c => kind c.1.1).map fun c =>
          (c.1.1.source, tokensAt m c.1.1.source c.2),
        selection.2.Sublist (m.place selection.1) := by
  induction h with
  | nil => exact ⟨rfl, fun _ h => absurd h not_mem_nil⟩
  | @cons arc positions _ _ hfirst _ ih =>
    rw [map_cons, zip_cons_cons]
    cases hkind : kind arc.1 with
    | true =>
      simp only [filter_cons, hkind, ↓reduceIte, map_cons, forall_mem_cons]
      exact ⟨shapeMatches_cons hfirst.length_tokensAt ih.1, hfirst.tokensAt_sublist, ih.2⟩
    | false =>
      simp only [filter_cons, hkind, Bool.false_eq_true, ↓reduceIte]
      exact ih

/-- A candidate fits its transition, which the scheduler may see, and finds its tokens on the
places. -/
structure Fits (D : Definition) (m : Marking) (binding : Binding) : Prop where
  mem : binding.transition ∈ D.net.transitionPaths
  scheduled : D.net.isSource binding.transition = false
  delivered : binding.delivered = []
  shape : validateBindingShape D.net binding "" = .ok ()
  consumed : ∀ selection ∈ binding.consumed, selection.2.Sublist (m.place selection.1)
  read : ∀ selection ∈ binding.read, selection.2.Sublist (m.place selection.1)

lemma map_selectingArcs (t : NetPath) : (selectingArcs D t).map Prod.fst =
    (D.net.inputs t).filter fun arc => arc.mode ≠ .inhibit := by
  rw [← Net.map_fst_inputPositions, filter_map, selectingArcs]
  rfl

lemma consuming_selectingArcs (t : NetPath) :
    ((selectingArcs D t).map Prod.fst).filter (fun arc => arc.mode = .consume) =
      (D.net.inputs t).filter fun arc => arc.mode = .consume := by
  rw [map_selectingArcs, filter_filter]
  refine filter_congr fun arc _ => ?_
  cases arc.mode <;> rfl

lemma reading_selectingArcs (t : NetPath) :
    ((selectingArcs D t).map Prod.fst).filter (fun arc => arc.mode ≠ .consume) =
      (D.net.inputs t).filter fun arc => arc.mode = .read := by
  rw [map_selectingArcs, filter_filter]
  refine filter_congr fun arc _ => ?_
  cases arc.mode <;> rfl

lemma fits_of_candidate {watermark : Instant} (haligned : Aligned m instants)
    (hbindings : candidates D m watermark instants = .ok bindings) (h : binding ∈ bindings) :
    Fits D m binding := by
  rw [candidates_eq watermark haligned] at hbindings
  cases hbindings
  obtain ⟨t, ht, hmem⟩ := mem_flatMap.mp h
  obtain ⟨htransition, hsource⟩ := mem_scheduled.mp ht
  obtain ⟨choice, hchoice, rfl⟩ := mem_map.mp hmem
  have henables := mem_enablingChoices.mp hchoice
  have hconsumed := chosen_selections henables.selects fun arc => arc.mode = .consume
  have hread := chosen_selections henables.selects fun arc => arc.mode ≠ .consume
  refine ⟨mem_map_of_mem htransition, hsource, rfl, ?_, hconsumed.2, hread.2⟩
  rw [consuming_selectingArcs] at hconsumed
  rw [reading_selectingArcs] at hread
  exact validateBindingShape_ok.mpr ⟨hconsumed.1, hread.1⟩

/-! ## Selecting arcs from different places -/

def Net.SelectsApart (net : Net) (t : NetPath) : Prop :=
  (((net.inputs t).filter fun arc => arc.mode ≠ .inhibit).map Arc.source).Nodup

instance (net : Net) (t : NetPath) : Decidable (net.SelectsApart t) :=
  inferInstanceAs (Decidable (List.Nodup _))

lemma shapeMatches_places {arcs : List Arc} {selections : List Selection}
    (h : shapeMatches arcs selections = true) :
    selections.map Prod.fst = arcs.map Arc.source := by
  simp only [shapeMatches, decide_eq_true_eq] at h
  exact h.1

lemma Fits.consumed_nodup (h : Fits D m binding) (hapart : D.net.SelectsApart binding.transition) :
    (binding.consumed.map Prod.fst).Nodup := by
  rw [shapeMatches_places (validateBindingShape_ok.mp h.shape).1]
  refine hapart.sublist (List.Sublist.map _ ?_)
  refine monotone_filter_right _ fun arc harc => ?_
  rw [decide_eq_true_eq] at harc ⊢
  rw [harc]
  decide

lemma Fits.read_apart (h : Fits D m binding) (hapart : D.net.SelectsApart binding.transition)
    {selection : Selection} (hselection : selection ∈ binding.read) :
    selection.1 ∉ binding.consumed.map Prod.fst := by
  obtain ⟨hconsumed, hread⟩ := validateBindingShape_ok.mp h.shape
  rw [shapeMatches_places hconsumed]
  intro hboth
  obtain ⟨taking, htaking, hplace⟩ := mem_map.mp hboth
  have hmem := mem_map_of_mem (f := Prod.fst) hselection
  rw [shapeMatches_places hread] at hmem
  obtain ⟨reading, hreading, hsame⟩ := mem_map.mp hmem
  simp only [mem_filter, decide_eq_true_eq] at htaking hreading
  have hselecting : ∀ arc ∈ D.net.inputs binding.transition,
      arc.mode = .consume ∨ arc.mode = .read →
      arc ∈ (D.net.inputs binding.transition).filter fun arc => arc.mode ≠ .inhibit := by
    intro arc harc hmode
    rw [mem_filter, decide_eq_true_eq]
    refine ⟨harc, ?_⟩
    rcases hmode with hmode | hmode <;> rw [hmode] <;> decide
  have heq := inj_on_of_nodup_map hapart (hselecting taking htaking.1 (.inl htaking.2))
    (hselecting reading hreading.1 (.inr hreading.2)) (hplace.trans hsame.symm)
  rw [heq, hreading.2] at htaking
  cases htaking.2

lemma take_of_sublist {queue : TokenQueue} {tokens : List Token}
    (h : tokens.Sublist queue.tokens) : (queue.take tokens).isSome = true := by
  unfold TokenQueue.take
  rw [takeEach_isSome_iff]
  intro v
  have hkeys : queue.map Entry.key = queue.tokens.map Token.value := by
    rw [TokenQueue.tokens, map_map]
    rfl
  rw [hkeys]
  exact (h.map Token.value).count_le v

lemma Fits.bindingEntries {queues : Queues} (hd : queues.Distinct)
    (h : Fits D queues.marking binding) (hapart : D.net.SelectsApart binding.transition) :
    ∃ entries, bindingEntries queues binding = .ok entries := by
  have hview := queues.views
  have htake : ∀ p,
      (TokenQueue.take (queues.at_ p) (boundAt binding.consumed p)).isSome = true := by
    intro p
    apply take_of_sublist
    by_cases hp : p ∈ binding.consumed.map Prod.fst
    · obtain ⟨selection, hselection, rfl⟩ := mem_map.mp hp
      rw [boundAt_mem (h.consumed_nodup hapart) hselection, ← hview]
      exact h.consumed selection hselection
    · rw [boundAt_absent hp]
      exact nil_sublist _
  obtain ⟨takens, rest, hconsumed⟩ := consumedEntries_exists hd htake
  -- a read place is no consumed place, so consumption left it as it was
  have hsame : ∀ selection ∈ binding.read, rest.at_ selection.1 = queues.at_ selection.1 := by
    intro selection hselection
    obtain ⟨taken, htaken⟩ := consumedEntries_at hd hconsumed selection.1
    rw [boundAt_absent (h.read_apart hapart hselection)] at htaken
    exact (Prod.mk.inj (Option.some.inj htaken)).2.symm
  have hread : ∀ selection ∈ binding.read, ∃ taken,
      TokenQueue.selected (rest.at_ selection.1) selection.2 = .ok taken ∧ True := by
    intro selection hselection
    have hsome := take_of_sublist (hview selection.1 ▸ h.read selection hselection)
    obtain ⟨⟨taken, remaining⟩, htaken⟩ := Option.isSome_iff_exists.mp hsome
    rw [← hsame selection hselection] at htaken
    exact ⟨taken, TokenQueue.selected_eq_ok.mpr ⟨remaining, htaken⟩, trivial⟩
  obtain ⟨reads, hreads, -⟩ := mapM_exists (P := fun _ _ => True) hread
  exact ⟨⟨takens, reads⟩, bindingEntries_eq_ok.mpr ⟨rest, hconsumed, hreads⟩⟩

/-! ## Without a handler -/

lemma Definition.boundHandler_none (h : D.declaresHandler binding.transition = false) :
    D.boundHandler binding.transition = passthroughHandler := by
  unfold Definition.boundHandler
  rw [h]
  rfl

lemma begin_unscoped (hl : Live D s) (hscopes : ∀ e ∈ s.queues.all, e.scope = none)
    (hfits : Fits D s.marking binding) (hapart : D.net.SelectsApart binding.transition)
    (hhandler : D.declaresHandler binding.transition = false) {store : Store}
    (hstore : ∀ batch, store s.history batch = none) (atInstant : Option Instant) :
    ∃ k : Begun D s, k.binding = binding ∧ k.invocation = none ∧ k.scope = none ∧
      begin_ D store binding atInstant s = (.ok k.occurrence, k.after) := by
  have hscheduled : validateScheduled D binding = .ok () :=
    validateScheduled_eq_ok.mpr ⟨hfits.mem, hfits.scheduled, hfits.delivered, hfits.shape⟩
  have hprepared : preparedInvocation D binding = .ok none := by
    unfold preparedInvocation
    rw [Definition.boundHandler_none hhandler]
    rfl
  obtain ⟨entries, hentries⟩ := hfits.bindingEntries hl.queue.distinct hapart
  have hnone : entries.scopes = [] := by
    obtain ⟨rest, hconsumed, hread⟩ := bindingEntries_eq_ok.mp hentries
    refine filterMap_eq_nil_iff.mpr fun e he => ?_
    exact hscopes e (mem_entries_all hl.queue.distinct hconsumed hread he)
  have hscope : provenance binding.transition entries.scopes none = .ok none := by
    rw [hnone]
    rfl
  exact begin_succeeds hl hscheduled hprepared hentries hscope hstore

def passedThrough (D : Definition) (binding : Binding) : HandlerResult :=
  { tokens := (passthrough binding (D.net.outputs binding.transition)).entries.map
      fun e => (.path e.1, e.2) }

lemma completionRecords_checked {o : FiringOccurrence} (hid : 1 ≤ o.id) (hscope : o.scope = none)
    (effects : List (Selection × List Nat)) (instant : Instant) :
    ∀ r ∈ completionRecords o effects [] [] instant, r.check = .ok () := by
  intro r hr
  simp only [completionRecords, map_nil, append_nil, mem_append, mem_map,
    mem_singleton, hscope, if_true] at hr
  rcases hr with ⟨e, -, rfl⟩ | rfl
  · exact require_bind_eq_ok.mpr ⟨hid, rfl⟩
  · exact require_true hid

lemma complete_unscoped (hl : Live D s) {o : FiringOccurrence}
    (hflight : s.inFlight.get? o.id = some o) (hpure : o.invocation = none)
    (hscope : o.scope = none)
    {store : Store} (hstore : ∀ batch, store s.history batch = none) (atInstant : Option Instant) :
    ∃ (k : Completed D s) (outcome : FiringOutcome), k.occurrence.scope = none ∧
      k.effects = (passthrough o.binding (D.net.outputs o.binding.transition)).entries ∧
      complete D store o (some (passedThrough D o.binding)) atInstant s =
        (.ok outcome, k.after) := by
  have heffects := completeFiring_passthrough D.net o.binding.transition o.binding
  have hensure : ensureInFlight s o "complete" = .ok () :=
    ensureInFlight_eq_ok.mpr ⟨o, hflight, o.equals_self⟩
  have hprojection : projection D s o (some (passedThrough D o.binding)) =
      .ok (passedThrough D o.binding) := by
    unfold projection
    rw [hpure]
    rfl
  have hafter : armedAfter D s o (passedThrough D o.binding) = .ok ⟨s.armed, [], []⟩ := rfl
  have hwritten (effects : List (Selection × List Nat)) :=
    writerRecords_eq_ok.mpr ⟨rfl,
      completionRecords_checked (hl.flight.flying _ o hflight).2.1 hscope
      effects (s.effective atInstant)⟩
  have hplan : ∃ records plan, completionPlan D o (some (passedThrough D o.binding)) atInstant s =
      .ok (.batch records plan) := by
    unfold completionPlan
    rw [hensure, ok_bind, hprojection, ok_bind, hafter, ok_bind, passedThrough, heffects, ok_bind]
    dsimp only
    rw [hwritten]
    exact ⟨_, _, rfl⟩
  obtain ⟨records, plan, hplan⟩ := hplan
  obtain ⟨c, outcome, ⟨k, rfl, hk⟩, -, -, hsettle⟩ :=
    completion_settles hl o (some (passedThrough D o.binding)) atInstant records plan hplan
  obtain ⟨envelope, henvelope, hrouted, -, -⟩ := hk.projected
  rw [hprojection] at henvelope
  cases henvelope
  rw [passedThrough, heffects] at hrouted
  refine ⟨k, outcome, ?_, (Except.ok.inj hrouted).symm, door_settled hplan (hstore _) hsettle⟩
  rw [(sameFiring hk.equals).scope, hscope]

/-! ## What is moved -/

/-- What a firing sends to a place: output arc by output arc, the tokens the arc admits. -/
def sentTo (D : Definition) (binding : Binding) (p : NetPath) : List Token :=
  (D.net.outputs binding.transition).flatMap fun arc =>
    if arc.target = p then binding.tokens.filter fun token => arc.admits token.color else []

lemma boundAt_entries (d : Dict NetPath (List Token)) (p : NetPath) :
    boundAt d.entries p = (d.get? p).getD [] := by
  cases h : d.get? p with
  | none => exact boundAt_absent (get?_eq_none.mp h)
  | some tokens => exact boundAt_mem d.nodup (get?_eq_some.mp h)

lemma boundAt_passthrough (binding : Binding) (p : NetPath) :
    boundAt (passthrough binding (D.net.outputs binding.transition)).entries p =
      sentTo D binding p := by
  have hfold : ∀ (arcs : List Arc) (d : Dict NetPath (List Token)),
      ((arcs.foldl (fun routed arc =>
        let admitted := binding.tokens.filter fun token => arc.admits token.color
        if admitted = [] then routed
        else
          routed.set arc.target ((routed.get? arc.target).getD [] ++ admitted)) d).get? p).getD [] =
      (d.get? p).getD [] ++ arcs.flatMap fun arc =>
        if arc.target = p then
          binding.tokens.filter fun token => arc.admits token.color
        else [] := by
    intro arcs
    induction arcs with
    | nil =>
      intro d
      rw [flatMap_nil, append_nil]
      rfl
    | cons arc arcs ih =>
      intro d
      rw [foldl_cons, ih, flatMap_cons, ← append_assoc]
      congr 1
      dsimp only
      split_ifs with hnone hp hp
      · rw [hnone, append_nil]
      · rw [append_nil]
      · rw [hp, get?_set_self]
        rfl
      · rw [get?_set_ne _ _ hp, append_nil]
  rw [boundAt_entries]
  exact hfold _ _

/-- What a begin and a handler-less completion leave of the queues. -/
structure Fired (D : Definition) (binding : Binding) (s s₁ s₂ : Instance) : Prop where
  /-- As many tokens leave a place, equal to the bound ones in their order. -/
  taken : ∀ p, ∃ taken, (s.queues.at_ p).Perm (taken ++ s₁.queues.at_ p) ∧
    taken.map Entry.key = (boundAt binding.consumed p).map Token.value
  order : ∀ p, (s₁.queues.at_ p).Sublist (s.queues.at_ p)
  kept : ∀ p, p ∉ binding.consumed.map Prod.fst → s₁.queues.at_ p = s.queues.at_ p
  gained : ∀ p, ∃ gained, s₂.queues.at_ p = s₁.queues.at_ p ++ gained ∧
    gained.map Entry.token = sentTo D binding p ∧
    ∀ e ∈ gained, e.instant = s₂.watermark ∧ e.scope = none ∧ s.nextEntry ≤ e.identity
  distinct : s₂.queues.Distinct

lemma fired (hl : Live D s) (b : Begun D s) (k : Completed D b.after)
    (hscope : k.occurrence.scope = none) (heffects : k.effects =
      (passthrough b.binding (D.net.outputs b.binding.transition)).entries) :
    Fired D b.binding s b.after k.after where
  taken p := by
    obtain ⟨taken, htake⟩ := consumedEntries_at hl.queue.distinct b.consumed_ok p
    exact ⟨taken, takeEach_perm htake, takeEach_keys htake⟩
  order := consumedEntries_sublist hl.queue.distinct b.consumed_ok
  kept p hp := by
    obtain ⟨taken, htake⟩ := consumedEntries_at hl.queue.distinct b.consumed_ok p
    rw [boundAt_absent hp] at htake
    exact (Prod.mk.inj (Option.some.inj htake)).2.symm
  gained p := by
    obtain ⟨gained, hat, hmem, htokens⟩ := at_depositAll k.occurrence.scope k.instant b.after.queues
      b.after.nextEntry k.effects p
    rw [heffects, boundAt_passthrough] at htokens
    rw [hscope] at hmem
    exact ⟨gained, hat, htokens, hmem⟩
  distinct := ((hl.queue.begun b).completed k).distinct

/-- Firing a candidate of unscoped tokens whose selecting arcs come from different places: both
calls return and move what the binding says, up to Python's equality; and what leaves the places is
spelled as it was bound exactly when no differently spelled equal token stands in front. -/
theorem candidate_fires_iff (hs : Reachable D s) (hscopes : ∀ e ∈ s.queues.all, e.scope = none)
    (hbindings : s.candidates D = .ok bindings) (hmem : binding ∈ bindings)
    (hapart : D.net.SelectsApart binding.transition)
    (hhandler : D.declaresHandler binding.transition = false) {store : Store}
    (hstore : ∀ history batch, store history batch = none) (atInstant atInstant' : Option Instant) :
    ∃ o s₁ outcome s₂, begin_ D store binding atInstant s = (.ok o, s₁) ∧
      complete D store o (some (passedThrough D binding)) atInstant' s₁ = (.ok outcome, s₂) ∧
      Fired D binding s s₁ s₂ ∧
      ((∀ p, ((removedAt s s₁ p).map fun e => e.token.spelling).Perm
          ((boundAt binding.consumed p).map Token.spelling)) ↔
        SpelledInFront s.queues binding.consumed) := by
  have hl := hs.reached.live
  have hfits := fits_of_candidate s.queues.aligned hbindings hmem
  obtain ⟨b, rfl, hinvocation, hscope, hbegin⟩ :=
    begin_unscoped hl hscopes hfits hapart hhandler (hstore s.history) atInstant
  have hflight : b.after.inFlight.get? b.occurrence.id = some b.occurrence :=
    get?_set_self ..
  have hpure : b.occurrence.invocation = none := Option.map_eq_none_iff.mpr hinvocation
  obtain ⟨k, outcome, hnone, heffects, hcomplete⟩ :=
    complete_unscoped (hl.commit (.begun b)) hflight hpure hscope (hstore _) atInstant'
  exact ⟨b.occurrence, b.after, outcome, k.after, hbegin, hcomplete, fired hl b k hnone heffects,
    removedAt_spelled_iff hl.queue.distinct (consumedEntries_at hl.queue.distinct b.consumed_ok)⟩

/-! ## A pipe for booleans -/

def firedAt (D : Definition) (binding : Binding) (s : Instance) (places : List NetPath) :
    Option (List (List Token)) :=
  (begin_ D storesAll binding none s).1.toOption.bind fun o =>
    let done := complete D storesAll o (some (passedThrough D binding)) none
      (begin_ D storesAll binding none s).2
    done.1.toOption.map fun _ => places.map fun p => TokenQueue.tokens (done.2.queues.at_ p)

lemma firedAt_eq_some {places : List NetPath} {found : List (List Token)}
    (h : firedAt D binding s places = some found) :
    ∃ o s₁ outcome s₂, begin_ D storesAll binding none s = (.ok o, s₁) ∧
      complete D storesAll o (some (passedThrough D binding)) none s₁ = (.ok outcome, s₂) ∧
      (places.map fun p => TokenQueue.tokens (s₂.queues.at_ p)) = found := by
  obtain ⟨o, ho, h⟩ := Option.bind_eq_some_iff.mp h
  obtain ⟨outcome, houtcome, heq⟩ := Option.map_eq_some_iff.mp h
  cases hbegin : begin_ D storesAll binding none s with
  | mk result s₁ =>
    rw [hbegin] at ho houtcome heq
    cases result with
    | error e => cases ho
    | ok o' =>
      cases ho
      cases hcomplete : complete D storesAll o (some (passedThrough D binding)) none s₁ with
      | mk result s₂ =>
        rw [hcomplete] at houtcome heq
        cases result with
        | error e => cases houtcome
        | ok outcome' => exact ⟨o, s₁, outcome', s₂, rfl, hcomplete, heq⟩

def pipeIn : NetPath := nodeP

def pipeOut : NetPath := nodeQ

/-- One transition moves `True`, and nothing else, from one place to another. -/
def pipeNet : Net where
  places := [{ path := pipeIn }, { path := pipeOut }]
  transitions := [{ path := nodeT }]
  arcs := [
    ⟨pipeIn, nodeT, .consume, 1, none, some (.symbol "flag"), Arc.weight_one⟩,
    ⟨nodeT, pipeOut, .consume, 1, none, none, Arc.weight_one⟩]
  valid := by decide

def pipe : Definition where
  net := pipeNet
  handlers := fun _ => passthroughHandler
  guards := fun _ _ _ => .ok true
  filters := fun _ token => .ok (decide (token.data = .bool true))
  scheduler := selectConservative
  sourcePlain := fun _ _ _ _ => rfl

def pipeStart (tokens : List Token) : Instance :=
  Instance.initial pipe (Marking.ofDict (Dict.ofList [(pipeIn, tokens)])) "i" 0

def pipeBinding : Binding := Binding.selection nodeT [(pipeIn, [flag])] []

lemma pipe_candidates (tokens : List Token)
    (h : ((pipeStart tokens).candidates pipe).toOption = some [pipeBinding]) :
    (pipeStart tokens).candidates pipe = .ok [pipeBinding] := by
  cases hcandidates : (pipeStart tokens).candidates pipe with
  | error e =>
    rw [hcandidates] at h
    cases h
  | ok bindings =>
    rw [hcandidates] at h
    exact congrArg Except.ok (Option.some.inj h)

lemma pipe_decided : (Reachable pipe (pipeStart [flag]) ∧
      (∀ e ∈ (pipeStart [flag]).queues.all, e.scope = none) ∧
      (pipeStart [flag]).candidates pipe = .ok [pipeBinding]) ∧
    Reachable pipe (pipeStart [numberOne, flag]) ∧
      (pipeStart [numberOne, flag]).candidates pipe = .ok [pipeBinding] ∧
      firedAt pipe pipeBinding (pipeStart [numberOne, flag]) [pipeIn, pipeOut] =
        some [[flag], [flag]] :=
  ⟨⟨initial_reachable (by decide +kernel), by decide +kernel,
      pipe_candidates [flag] (by decide +kernel)⟩,
    initial_reachable (by decide +kernel),
    pipe_candidates [numberOne, flag] (by decide +kernel), by decide +kernel⟩

/-- `True` alone goes through the pipe. -/
theorem candidate_fires_pipe :
    ∃ o s₁ outcome s₂,
      begin_ pipe storesAll pipeBinding none (pipeStart [flag]) = (.ok o, s₁) ∧
      complete pipe storesAll o (some (passedThrough pipe pipeBinding)) none s₁ =
        (.ok outcome, s₂) ∧
      Fired pipe pipeBinding (pipeStart [flag]) s₁ s₂ := by
  obtain ⟨⟨hreachable, hscopes, hcandidates⟩, -⟩ := pipe_decided
  have hstores : ∀ history batch, storesAll history batch = none := fun _ _ => rfl
  obtain ⟨o, s₁, outcome, s₂, hbegin, hcomplete, hfired, -⟩ :=
    candidate_fires_iff hreachable hscopes hcandidates (mem_singleton.mpr rfl)
      (by decide) (by decide) hstores none none
  exact ⟨o, s₁, outcome, s₂, hbegin, hcomplete, hfired⟩

/-- Behind a `1`, the selected `True` stays while the `1` is lost, and a second `True` comes out. -/
theorem pipe_loses_one : Reachable pipe (pipeStart [numberOne, flag]) ∧
    (pipeStart [numberOne, flag]).candidates pipe = .ok [pipeBinding] ∧
    pipeBinding.consumed = [(pipeIn, [flag])] ∧
    ∃ o s₁ outcome s₂,
      begin_ pipe storesAll pipeBinding none (pipeStart [numberOne, flag]) = (.ok o, s₁) ∧
      complete pipe storesAll o (some (passedThrough pipe pipeBinding)) none s₁ =
        (.ok outcome, s₂) ∧
      [pipeIn, pipeOut].map (fun p => TokenQueue.tokens (s₂.queues.at_ p)) = [[flag], [flag]] := by
  obtain ⟨-, hreachable, hcandidates, hfired⟩ := pipe_decided
  exact ⟨hreachable, hcandidates, rfl, firedAt_eq_some hfired⟩

end Petrus.Impetus
