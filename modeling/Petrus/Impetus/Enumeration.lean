import Petrus.Impetus.Enabledness

/-!
# Enumeration

What the candidate computation enumerates, said apart from how: a choice gives every
selecting arc a weight-sized set of admitted queue positions, and it enables the
transition when no inhibitor is met, the guards hold on its binding and the timers
have matured. The survey of a transition lists its enabling choices in order.
-/

namespace Petrus.Impetus

open Lib List

variable (D : Definition) (m : Marking) {arc : Arc × Nat} {choice : List (List Nat)}

/-! ## What a choice is -/

/-- The arc takes `positions` of its place's queue: a weight-sized set of admitted positions, listed
in ascending order. -/
structure Selects (arc : Arc × Nat) (positions : List Nat) : Prop where
  ascending : positions.Pairwise (· < ·)
  size : positions.length = arc.1.weight
  admitted : ∀ i ∈ positions, ∃ token, (m.place arc.1.source)[i]? = some token ∧
    admitted D arc.1 arc.2 token = true

/-- An inhibit arc is satisfied by `weight` admitted tokens. -/
def Inhibits (arc : Arc × Nat) : Prop :=
  arc.1.weight ≤ ((m.place arc.1.source).filter (admitted D arc.1 arc.2)).length

def selectingArcs (t : NetPath) : List (Arc × Nat) :=
  (D.net.inputPositions t).filter fun arc => arc.1.mode ≠ .inhibit

def tokensAt (place : NetPath) (positions : List Nat) : List Token :=
  positions.filterMap fun i => (m.place place)[i]?

def chosenBinding (t : NetPath) (choice : List (List Nat)) : Binding :=
  let taken := (selectingArcs D t).zip choice
  Binding.selection t
    ((taken.filter fun c => c.1.1.mode = .consume).map fun c =>
      (c.1.1.source, tokensAt m c.1.1.source c.2))
    ((taken.filter fun c => c.1.1.mode ≠ .consume).map fun c =>
      (c.1.1.source, tokensAt m c.1.1.source c.2))

def chosenInstants (instants : NetPath → List Instant) (t : NetPath) (choice : List (List Nat)) :
    List Instant :=
  ((selectingArcs D t).zip choice).flatMap fun c =>
    c.2.filterMap fun i => (instants c.1.1.source)[i]?

def Timer.Matured (watermark : Instant) (entered : List Instant) : Timer → Prop
  | .delay duration => ∀ instant ∈ entered, instant + duration ≤ watermark
  | .untilAt instant => instant ≤ watermark

instance (watermark : Instant) (entered : List Instant) :
    (timer : Timer) → Decidable (timer.Matured watermark entered)
  | .delay duration =>
    inferInstanceAs (Decidable (∀ instant ∈ entered, instant + duration ≤ watermark))
  | .untilAt instant => inferInstanceAs (Decidable (instant ≤ watermark))

/-- The choice enables the transition at the watermark. -/
structure Enables (watermark : Instant) (instants : NetPath → List Instant) (t : Transition)
    (choice : List (List Nat)) : Prop where
  selects : List.Forall₂ (Selects D m) (selectingArcs D t.path) choice
  uninhibited : ∀ arc ∈ D.net.inputPositions t.path, arc.1.mode = .inhibit → ¬ Inhibits D m arc
  guarded : ∀ position < t.guards.length,
    D.guards t.path position (chosenBinding D m t.path choice) = .ok true
  matured : ∀ timer ∈ t.timers, timer.Matured watermark (chosenInstants D instants t.path choice)

variable {D m}

/-! ## Admitted positions -/

section Positions

variable {admits : Token → Bool} {queue : List Token}

lemma mem_admittedBy {i : Nat} :
    i ∈ admittedBy admits queue ↔ ∃ token, queue[i]? = some token ∧ admits token = true := by
  simp only [admittedBy, mem_map, mem_filter, Prod.exists, exists_eq_right, mem_zipIdx_iff_getElem?]

lemma admittedBy_sorted : (admittedBy admits queue).Pairwise (· < ·) := by
  have hall : (queue.zipIdx.map Prod.snd).Pairwise (· < ·) := by
    rw [zipIdx_map_snd]
    exact pairwise_lt_range'
  exact hall.sublist (filter_sublist.map Prod.snd)

lemma length_admittedBy : (admittedBy admits queue).length = (queue.filter admits).length := by
  have hfilter : queue.filter admits =
      (queue.zipIdx.filter fun e => admits e.1).map Prod.fst := by
    conv_lhs => rw [← zipIdx_map_fst 0 queue, filter_map]
    rfl
  rw [hfilter, admittedBy, length_map, length_map]

end Positions

lemma mem_combinations_admittedBy {positions : List Nat} :
    positions ∈ combinations arc.1.weight
      (admittedBy (admitted D arc.1 arc.2) (m.place arc.1.source)) ↔ Selects D m arc positions := by
  rw [mem_combinations]
  constructor
  · intro h
    exact ⟨admittedBy_sorted.sublist h.1, h.2, fun i hi => mem_admittedBy.mp (h.1.subset hi)⟩
  · intro h
    refine ⟨?_, h.size⟩
    have hsubset : positions ⊆ admittedBy (admitted D arc.1 arc.2) (m.place arc.1.source) :=
      fun i hi => mem_admittedBy.mpr (h.admitted i hi)
    have hsubperm := subperm_of_subset (h.ascending.imp Nat.ne_of_lt) hsubset
    exact sublist_of_subperm_of_pairwise hsubperm h.ascending admittedBy_sorted

/-! ## Offers -/

def vetoes (D : Definition) (m : Marking) (arc : Arc × Nat) : Bool :=
  let count := (admittedBy (admitted D arc.1 arc.2) (m.place arc.1.source)).length
  if arc.1.mode = .inhibit then arc.1.weight ≤ count else count < arc.1.weight

/-- The alternative that takes `positions`. -/
def taking (m : Marking) (anchors : Option (NetPath → List Instant)) (arc : Arc × Nat)
    (positions : List Nat) : Alternative where
  selection := (arc.1.source, tokensAt m arc.1.source positions)
  anchors := match anchors with
    | some instants => positions.filterMap fun i => (instants arc.1.source)[i]?
    | none => []

def alternativesOf (D : Definition) (m : Marking) (anchors : Option (NetPath → List Instant))
    (arc : Arc × Nat) : List Alternative :=
  (combinations arc.1.weight
    (admittedBy (admitted D arc.1 arc.2) (m.place arc.1.source))).map (taking m anchors arc)

def Aligned (m : Marking) (instants : NetPath → List Instant) : Prop :=
  ∀ p, (instants p).length = (m.place p).length

variable {anchors : Option (NetPath → List Instant)}

lemma offer_eq (haligned : ∀ instants ∈ anchors, Aligned m instants) (arc : Arc × Nat) :
    offer D arc.1 arc.2 m anchors = .ok (if vetoes D m arc then .veto
      else if arc.1.mode = .inhibit then .satisfied
      else .alternatives arc.1 (alternativesOf D m anchors arc)) := by
  by_cases hinhibit : arc.1.mode = .inhibit
  · simp only [offer, vetoes, hinhibit, if_true, decide_eq_true_eq]
  · by_cases hshort : (admittedBy (admitted D arc.1 arc.2) (m.place arc.1.source)).length <
        arc.1.weight
    · simp only [offer, vetoes, hinhibit, if_false, hshort, if_true, decide_true]
    · cases anchors with
      | none =>
        simp only [offer, vetoes, hinhibit, if_false, hshort, decide_false, Option.map_none]
        rfl
      | some instants =>
        -- The last admitted position is one of the queue's, so it has its instant.
        have hcovered : ¬ (instants arc.1.source).length ≤
            ((admittedBy (admitted D arc.1 arc.2) (m.place arc.1.source)).getLast?).getD 0 := by
          rw [haligned instants rfl]
          have hne : admittedBy (admitted D arc.1 arc.2) (m.place arc.1.source) ≠ [] := by
            intro hnil
            rw [hnil] at hshort
            exact hshort arc.1.weight_pos
          rw [getLast?_eq_some_getLast hne, Option.getD_some, not_le]
          obtain ⟨token, htoken, -⟩ := mem_admittedBy.mp (getLast_mem hne)
          exact (List.getElem?_eq_some_iff.mp htoken).1
        simp only [offer, vetoes, hinhibit, if_false, hshort, decide_false, Option.map_some,
          hcovered]
        rfl

lemma offers_eq (haligned : ∀ instants ∈ anchors, Aligned m instants) (arcs : List (Arc × Nat)) :
    offers D m anchors arcs = .ok (if arcs.any (vetoes D m) then none
      else some ((arcs.filter fun arc => arc.1.mode ≠ .inhibit).map fun arc =>
        (arc.1, alternativesOf D m anchors arc))) := by
  induction arcs with
  | nil => rfl
  | cons arc arcs ih =>
    rw [offers, offer_eq haligned, ok_bind, any_cons]
    cases hveto : vetoes D m arc with
    | true => simp
    | false =>
      rw [Bool.false_or]
      by_cases hinhibit : arc.1.mode = .inhibit
      · simp [hinhibit, ih]
      · by_cases hrest : arcs.any (vetoes D m) = true
        · simp [hinhibit, ih, hrest]
        · simp [hinhibit, ih, hrest]

/-! ## Choices -/

def positionChoices (D : Definition) (m : Marking) (t : NetPath) : List (List (List Nat)) :=
  product ((selectingArcs D t).map fun arc =>
    combinations arc.1.weight (admittedBy (admitted D arc.1 arc.2) (m.place arc.1.source)))

lemma positionChoices_sorted (t : NetPath) : (positionChoices D m t).Pairwise (· < ·) := by
  apply product_sorted
  intro positions hpositions
  obtain ⟨arc, -, rfl⟩ := mem_map.mp hpositions
  exact combinations_sorted admittedBy_sorted

lemma mem_positionChoices {t : NetPath} :
    choice ∈ positionChoices D m t ↔ List.Forall₂ (Selects D m) (selectingArcs D t) choice := by
  rw [positionChoices, Lib.mem_product, forall₂_map_right_iff]
  simp only [mem_combinations_admittedBy]
  exact ⟨List.Forall₂.flip, List.Forall₂.flip⟩

def placed (D : Definition) (m : Marking) (anchors : Option (NetPath → List Instant)) (t : NetPath)
    (choice : List (List Nat)) : List (Arc × Alternative) :=
  List.zipWith (fun arc positions => (arc.1, taking m anchors arc positions)) (selectingArcs D t)
    choice

lemma choices_alternatives (t : NetPath) :
    choices ((selectingArcs D t).map fun arc => (arc.1, alternativesOf D m anchors arc)) =
      (positionChoices D m t).map (placed D m anchors t) := by
  have hmap := product_map (selectingArcs D t) (fun arc => combinations arc.1.weight
    (admittedBy (admitted D arc.1 arc.2) (m.place arc.1.source)))
    (fun arc positions => (arc.1, taking m anchors arc positions))
  rw [choices, map_map]
  simp only [Function.comp_def, alternativesOf, map_map]
  exact hmap

lemma placed_eq_map (t : NetPath) (choice : List (List Nat)) : placed D m anchors t choice =
    ((selectingArcs D t).zip choice).map fun c => (c.1.1, taking m anchors c.1 c.2) := by
  rw [placed, List.zip, map_zipWith]

lemma assemble_binding (t : NetPath) (choice : List (List Nat)) :
    (assemble t (placed D m anchors t choice)).1 = chosenBinding D m t choice := by
  rw [placed_eq_map]
  simp only [assemble, chosenBinding, filter_map, map_map]
  rfl

lemma assemble_anchors {instants : NetPath → List Instant} (t : NetPath)
    (choice : List (List Nat)) :
    (assemble t (placed D m (some instants) t choice)).2 = chosenInstants D instants t choice := by
  rw [placed_eq_map]
  simp only [assemble, chosenInstants, flatMap_map]
  rfl

/-! ## Judging a choice -/

lemma guardsHold_eq_true {t : Transition} {binding : Binding} : guardsHold D t binding = true ↔
    ∀ position < t.guards.length, D.guards t.path position binding = .ok true := by
  simp only [guardsHold, all_eq_true, mem_range]
  refine forall₂_congr fun position _ => ?_
  cases D.guards t.path position binding with
  | ok satisfied => simp
  | error e => simp

lemma latest_le (instants : List Instant) (bound : Instant) :
    (∀ i ∈ latest instants, i ≤ bound) ↔ ∀ i ∈ instants, i ≤ bound := by
  cases instants with
  | nil => simp [latest]
  | cons i is =>
    simp only [latest, Option.mem_some_iff, forall_eq', forall_mem_cons]
    induction is generalizing i with
    | nil => simp
    | cons j is ih => simp [ih, and_assoc]

lemma latest_isSome {instants : List Instant} (h : instants ≠ []) :
    ∃ i, latest instants = some i := by
  cases instants with
  | nil => exact absurd rfl h
  | cons i is => exact ⟨_, rfl⟩

lemma Timer.matures_latest {timer : Timer} {entered : List Instant}
    (h : timer.isDelay = true → entered ≠ []) : ∃ mature,
      timer.matures (latest entered) = .ok mature ∧
        ∀ watermark, mature ≤ watermark ↔ timer.Matured watermark entered := by
  cases timer with
  | untilAt instant => exact ⟨instant, rfl, fun _ => Iff.rfl⟩
  | delay duration =>
    obtain ⟨anchor, hanchor⟩ := latest_isSome (h rfl)
    refine ⟨anchor + duration, by rw [hanchor]; rfl, fun watermark => ?_⟩
    have hlatest := latest_le entered (watermark - duration)
    simp only [hanchor, Option.mem_some_iff, forall_eq'] at hlatest
    simp only [Timer.Matured, ← le_sub_iff_add_le]
    exact hlatest

lemma Timer.matured_instants {timer : Timer} {watermark : Instant} (h : timer.isDelay = false)
    (entered entered' : List Instant) :
    timer.Matured watermark entered ↔ timer.Matured watermark entered' := by
  cases timer with
  | untilAt instant => exact Iff.rfl
  | delay duration => cases h

lemma maturation_latest {timers : List Timer} {entered : List Instant}
    (h : ∀ timer ∈ timers, timer.isDelay = true → entered ≠ []) : ∃ mature,
      maturation timers (latest entered) = .ok mature ∧ ∀ watermark,
        (∀ i ∈ mature, i ≤ watermark) ↔ ∀ timer ∈ timers, timer.Matured watermark entered := by
  obtain ⟨instants, hinstants, hmatured⟩ := mapM_exists fun timer htimer =>
    Timer.matures_latest (h timer htimer)
  refine ⟨latest instants, by rw [maturation, hinstants]; rfl, fun watermark => ?_⟩
  rw [latest_le]
  clear hinstants h
  induction hmatured with
  | nil => simp
  | cons hfirst _ ih => simp only [forall_mem_cons, hfirst watermark, ih]

/-- The instants a survey of `t` threads to the offers. -/
def anchorsOf (instants : NetPath → List Instant) (t : Transition) :
    Option (NetPath → List Instant) :=
  if t.timers.any Timer.isDelay then some instants else none

variable {watermark : Instant} {instants : NetPath → List Instant} {t : Transition}

lemma maturation_placed (watermark : Instant)
    (h : ∀ timer ∈ t.timers, timer.isDelay = true → chosenInstants D instants t.path choice ≠ []) :
    ∃ mature, maturation t.timers
        (latest (assemble t.path (placed D m (anchorsOf instants t) t.path choice)).2) =
          .ok mature ∧
      ((∀ i ∈ mature, i ≤ watermark) ↔ ∀ timer ∈ t.timers,
        timer.Matured watermark (chosenInstants D instants t.path choice)) := by
  cases hdelay : t.timers.any Timer.isDelay with
  | true =>
    rw [anchorsOf, if_pos hdelay, assemble_anchors]
    obtain ⟨mature, hmature, hiff⟩ := maturation_latest h
    exact ⟨mature, hmature, hiff watermark⟩
  | false =>
    have hnone : ∀ timer ∈ t.timers, timer.isDelay = false := by
      simpa using hdelay
    have hvacuous : ∀ timer ∈ t.timers, timer.isDelay = true →
        (assemble t.path (placed D m (anchorsOf instants t) t.path choice)).2 ≠ [] :=
      fun timer htimer htrue => absurd (hnone timer htimer) (by simp [htrue])
    obtain ⟨mature, hmature, hiff⟩ := maturation_latest hvacuous
    refine ⟨mature, hmature, (hiff watermark).trans ?_⟩
    exact forall₂_congr fun timer htimer => Timer.matured_instants (hnone timer htimer) _ _

lemma judge_placed (watermark : Instant)
    (h : ∀ timer ∈ t.timers, timer.isDelay = true → chosenInstants D instants t.path choice ≠ []) :
    ∃ verdict, judge D t watermark (placed D m (anchorsOf instants t) t.path choice) =
        .ok verdict ∧
      ∀ binding, verdict.binding? = some binding ↔ binding = chosenBinding D m t.path choice ∧
        guardsHold D t binding = true ∧
        ∀ timer ∈ t.timers, timer.Matured watermark (chosenInstants D instants t.path choice) := by
  obtain ⟨mature, hmature, hiff⟩ := maturation_placed (m := m) watermark h
  have hjudge : judge D t watermark (placed D m (anchorsOf instants t) t.path choice) =
      if guardsHold D t (chosenBinding D m t.path choice) = false then .ok .skipped
      else .ok (match mature with
        | none => .enabled (chosenBinding D m t.path choice)
        | some instant => if instant ≤ watermark then .enabled (chosenBinding D m t.path choice)
            else .pending instant) := by
    simp only [judge, assemble_binding, hmature, ok_bind]
    cases mature <;> rfl
  rw [hjudge]
  cases hguards : guardsHold D t (chosenBinding D m t.path choice) with
  | false =>
    refine ⟨.skipped, rfl, fun binding => ⟨fun hb => (by cases hb), fun hb => ?_⟩⟩
    obtain ⟨rfl, hb, -⟩ := hb
    rw [hguards] at hb
    cases hb
  | true =>
    cases mature with
    | none =>
      refine ⟨.enabled _, rfl, fun binding => ?_⟩
      have hall := hiff.mp (by simp)
      constructor
      · intro hb
        cases hb
        exact ⟨rfl, hguards, hall⟩
      · intro hb
        rw [hb.1]
        rfl
    | some instant =>
      simp only [Option.mem_some_iff, forall_eq'] at hiff
      by_cases hle : instant ≤ watermark
      · refine ⟨.enabled (chosenBinding D m t.path choice), by simp [hle], fun binding => ?_⟩
        constructor
        · intro hb
          cases hb
          exact ⟨rfl, hguards, hiff.mp hle⟩
        · intro hb
          rw [hb.1]
          rfl
      · refine ⟨.pending instant, by simp [hle], fun binding => ⟨fun hb => (by cases hb), ?_⟩⟩
        intro hb
        exact absurd (hiff.mpr hb.2.2) hle

/-! ## The survey of a transition -/

lemma vetoes_eq_true_of_inhibit (h : arc.1.mode = .inhibit) :
    vetoes D m arc = true ↔ Inhibits D m arc := by
  simp only [vetoes, h, if_true, decide_eq_true_eq, length_admittedBy, Inhibits]

lemma vetoes_eq_false_of_selects (h : arc.1.mode ≠ .inhibit) {positions : List Nat}
    (hselects : Selects D m arc positions) : vetoes D m arc = false := by
  obtain ⟨hsub, hlen⟩ := mem_combinations.mp (mem_combinations_admittedBy.mpr hselects)
  have hle := hsub.length_le
  simp only [vetoes, h, if_false, decide_eq_false_iff_not, not_lt]
  omega

lemma mem_selectingArcs {t : NetPath} : arc ∈ selectingArcs D t ↔
    arc ∈ D.net.inputPositions t ∧ arc.1.mode ≠ .inhibit := by
  simp [selectingArcs]

lemma chosenInstants_ne {t : NetPath} (haligned : Aligned m instants)
    (hselects : List.Forall₂ (Selects D m) (selectingArcs D t) choice)
    (hsome : selectingArcs D t ≠ []) : chosenInstants D instants t choice ≠ [] := by
  cases harcs : selectingArcs D t with
  | nil => exact absurd harcs hsome
  | cons arc arcs =>
    rw [harcs] at hselects
    cases hselects with
    | @cons _ positions _ rest hfirst _ =>
      have hpos : 0 < positions.length := by
        rw [hfirst.size]
        exact arc.1.weight_pos
      obtain ⟨i, hi⟩ := exists_mem_of_length_pos hpos
      obtain ⟨token, htoken, -⟩ := hfirst.admitted i hi
      have hlt : i < (instants arc.1.source).length := by
        rw [haligned]
        exact (List.getElem?_eq_some_iff.mp htoken).1
      apply ne_nil_of_mem (a := (instants arc.1.source)[i])
      rw [chosenInstants, harcs, zip_cons_cons, flatMap_cons]
      apply mem_append_left
      exact mem_filterMap.mpr ⟨i, hi, getElem?_eq_getElem hlt⟩

lemma selectingArcs_ne (ht : t ∈ D.net.transitions)
    (hdelay : ∃ timer ∈ t.timers, timer.isDelay = true) : selectingArcs D t.path ≠ [] := by
  obtain ⟨arc, harc, hmode⟩ := D.net.valid.2.2.2.2.2.2.1 t ht hdelay
  rw [← Net.map_fst_inputPositions, mem_map] at harc
  obtain ⟨e, he, rfl⟩ := harc
  exact ne_nil_of_mem (mem_selectingArcs.mpr ⟨he, hmode⟩)

lemma filterMap_of_judged {choices : List (List (List Nat))} {verdicts : List Verdict}
    {p : List (List Nat) → Bool} {f : List (List Nat) → Binding}
    (h : List.Forall₂ (fun choice verdict => verdict.binding? =
      if p choice then some (f choice) else none) choices verdicts) :
    verdicts.filterMap Verdict.binding? = (choices.filter p).map f := by
  induction h with
  | nil => rfl
  | @cons choice verdict _ _ hfirst _ ih =>
    cases hp : p choice with
    | true => rw [filterMap_cons, hfirst, hp, filter_cons_of_pos hp, map_cons, ← ih]; rfl
    | false => rw [filterMap_cons, hfirst, hp, filter_cons_of_neg (by simp [hp]), ← ih]; rfl

lemma surveyTransition_eq (haligned : Aligned m instants) :
    surveyTransition D m watermark instants t =
      if (D.net.inputPositions t.path).any (vetoes D m) then .ok []
      else ((positionChoices D m t.path).map (placed D m (anchorsOf instants t) t.path)).mapM
        (judge D t watermark) := by
  have hanchors : ∀ given ∈ anchorsOf instants t, Aligned m given := by
    intro given hgiven
    unfold anchorsOf at hgiven
    split_ifs at hgiven
    · cases hgiven
      exact haligned
    · cases hgiven
  change (offers D m (anchorsOf instants t) (D.net.inputPositions t.path) >>= _) = _
  rw [offers_eq hanchors, ok_bind]
  split_ifs with hveto
  · rfl
  · exact congrArg (List.mapM (judge D t watermark)) (choices_alternatives t.path)

lemma Enables.any_vetoes (h : Enables D m watermark instants t choice) :
    (D.net.inputPositions t.path).any (vetoes D m) = false := by
  rw [any_eq_false]
  intro arc harc hvetoes
  by_cases hmode : arc.1.mode = .inhibit
  · exact h.uninhibited arc harc hmode ((vetoes_eq_true_of_inhibit hmode).mp hvetoes)
  · obtain ⟨positions, -, hselects⟩ := forall₂_exists h.selects
      (mem_selectingArcs.mpr ⟨harc, hmode⟩)
    rw [vetoes_eq_false_of_selects hmode hselects] at hvetoes
    cases hvetoes

lemma uninhibited_of_any_vetoes (h : (D.net.inputPositions t.path).any (vetoes D m) = false) :
    ∀ arc ∈ D.net.inputPositions t.path, arc.1.mode = .inhibit → ¬ Inhibits D m arc := by
  intro arc harc hmode hinhibits
  rw [any_eq_false] at h
  exact h arc harc ((vetoes_eq_true_of_inhibit hmode).mpr hinhibits)

def Listed (D : Definition) (m : Marking) (watermark : Instant)
    (instants : NetPath → List Instant) (t : Transition) (choice : List (List Nat)) : Prop :=
  guardsHold D t (chosenBinding D m t.path choice) = true ∧
    ∀ timer ∈ t.timers, timer.Matured watermark (chosenInstants D instants t.path choice)

instance (choice : List (List Nat)) : Decidable (Listed D m watermark instants t choice) :=
  inferInstanceAs (Decidable (_ ∧ _))

lemma judge_listed (watermark : Instant) (haligned : Aligned m instants)
    (ht : t ∈ D.net.transitions) (hchoice : choice ∈ positionChoices D m t.path) :
    ∃ verdict, judge D t watermark (placed D m (anchorsOf instants t) t.path choice) =
        .ok verdict ∧
      verdict.binding? = if Listed D m watermark instants t choice then
        some (chosenBinding D m t.path choice) else none := by
  have hentered : ∀ timer ∈ t.timers, timer.isDelay = true →
      chosenInstants D instants t.path choice ≠ [] := fun timer htimer hdelay =>
    chosenInstants_ne haligned (mem_positionChoices.mp hchoice)
      (selectingArcs_ne ht ⟨timer, htimer, hdelay⟩)
  obtain ⟨verdict, hjudge, hbinding⟩ := judge_placed (m := m) watermark hentered
  refine ⟨verdict, hjudge, ?_⟩
  by_cases hlisted : Listed D m watermark instants t choice
  · rw [if_pos hlisted]
    exact (hbinding _).mpr ⟨rfl, hlisted⟩
  · rw [if_neg hlisted]
    cases hb : verdict.binding? with
    | none => rfl
    | some binding =>
      obtain ⟨rfl, hmet⟩ := (hbinding binding).mp hb
      exact absurd hmet hlisted

def enablingChoices (D : Definition) (m : Marking) (watermark : Instant)
    (instants : NetPath → List Instant) (t : Transition) : List (List (List Nat)) :=
  if (D.net.inputPositions t.path).any (vetoes D m) then []
  else (positionChoices D m t.path).filter (Listed D m watermark instants t)

lemma enablingChoices_sorted :
    (enablingChoices D m watermark instants t).Pairwise (· < ·) := by
  unfold enablingChoices
  split_ifs
  · exact .nil
  · exact (positionChoices_sorted t.path).filter _

lemma mem_enablingChoices :
    choice ∈ enablingChoices D m watermark instants t ↔
      Enables D m watermark instants t choice := by
  unfold enablingChoices
  split_ifs with hveto
  · refine ⟨fun hmem => (by cases hmem), fun henables => ?_⟩
    rw [henables.any_vetoes] at hveto
    cases hveto
  · rw [mem_filter, mem_positionChoices, decide_eq_true_eq, Listed, guardsHold_eq_true]
    constructor
    · intro h
      exact ⟨h.1, uninhibited_of_any_vetoes (by simpa using hveto), h.2.1, h.2.2⟩
    · intro h
      exact ⟨h.selects, h.guarded, h.matured⟩

lemma surveyTransition_enables (watermark : Instant) (haligned : Aligned m instants)
    (ht : t ∈ D.net.transitions) :
    ∃ verdicts, surveyTransition D m watermark instants t = .ok verdicts ∧
      verdicts.filterMap Verdict.binding? =
        (enablingChoices D m watermark instants t).map (chosenBinding D m t.path) := by
  rw [surveyTransition_eq haligned, enablingChoices]
  split_ifs with hveto
  · exact ⟨[], rfl, rfl⟩
  · obtain ⟨verdicts, hverdicts, hjudged⟩ := mapM_exists fun choice hchoice =>
      judge_listed watermark haligned ht hchoice
    refine ⟨verdicts, ?_, ?_⟩
    · rw [mapM_map]
      exact hverdicts
    · apply filterMap_of_judged
      simpa only [decide_eq_true_eq] using hjudged

/-! ## The candidates -/

lemma mem_scheduled : t ∈ scheduled D ↔ t ∈ D.net.transitions ∧ D.net.isSource t.path = false := by
  simp [scheduled]

lemma scheduled_nodup : ((scheduled D).map Transition.path).Nodup := by
  refine ((perm_insertionSort _ _).map Transition.path).nodup_iff.mpr ?_
  exact D.net.valid.1.2.1.sublist (filter_sublist.map Transition.path)

lemma scheduled_sorted : (scheduled D).Pairwise fun a b => a.path.str ≤ b.path.str :=
  haveI : IsTrans Transition fun a b => a.path.str ≤ b.path.str := ⟨fun _ _ _ => le_trans⟩
  haveI : Std.Total fun a b : Transition => a.path.str ≤ b.path.str := ⟨fun _ _ => le_total _ _⟩
  pairwise_insertionSort _ _

lemma filterMap_flatten_of_surveyed {ts : List Transition} {verdicts : List (List Verdict)}
    {f : Transition → List Binding}
    (h : List.Forall₂ (fun t vs => vs.filterMap Verdict.binding? = f t) ts verdicts) :
    verdicts.flatten.filterMap Verdict.binding? = ts.flatMap f := by
  induction h with
  | nil => rfl
  | cons hfirst _ ih => rw [flatten_cons, filterMap_append, hfirst, ih, flatMap_cons]

lemma candidates_eq (watermark : Instant) (haligned : Aligned m instants) :
    candidates D m watermark instants = .ok ((scheduled D).flatMap fun t =>
      (enablingChoices D m watermark instants t).map (chosenBinding D m t.path)) := by
  obtain ⟨verdicts, hverdicts, hsurveyed⟩ := mapM_exists fun t ht =>
    surveyTransition_enables watermark haligned (mem_scheduled.mp ht).1
  rw [candidates, survey, hverdicts, ← filterMap_flatten_of_surveyed hsurveyed]
  rfl

lemma transition_of_mem {b : Binding}
    (h : b ∈ (enablingChoices D m watermark instants t).map (chosenBinding D m t.path)) :
    b.transition = t.path := by
  obtain ⟨choice, -, rfl⟩ := mem_map.mp h
  rfl

end Petrus.Impetus
