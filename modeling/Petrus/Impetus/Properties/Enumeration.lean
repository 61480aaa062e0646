import Petrus.Impetus.Enumeration
import Petrus.Impetus.History.Record

/-!
# Candidates are exact

The candidates of a transition are its enabling choices, each once and in order.
Transitions come in the order of their paths, which need not be the order the net
declares them in, and a source, which fires on delivery only, never comes.
-/

namespace Petrus.Impetus

open Lib List

variable {D : Definition} {m : Marking} {instants : NetPath → List Instant}

/-- The candidates of a transition that is no source are the bindings of its enabling choices, each
once and in lexicographic order of arcs and positions; the transitions come in the order of their
paths, and sources never come. -/
theorem candidates_exact (watermark : Instant) (haligned : Aligned m instants) :
    ∃ bindings, candidates D m watermark instants = .ok bindings ∧
      bindings.Pairwise (fun a b => a.transition.str ≤ b.transition.str) ∧
      (∀ b ∈ bindings, ∃ t ∈ D.net.transitions, D.net.isSource t.path = false ∧
        b.transition = t.path) ∧
      ∀ t ∈ D.net.transitions, D.net.isSource t.path = false →
        ∃ choices : List (List (List Nat)), choices.Pairwise (· < ·) ∧
          (∀ choice, choice ∈ choices ↔ Enables D m watermark instants t choice) ∧
          bindings.filter (fun b => b.transition = t.path) =
            choices.map (chosenBinding D m t.path) ∧
          (bindings.filter (fun b => b.transition = t.path) = [] ↔
            ∀ choice, ¬ Enables D m watermark instants t choice) := by
  refine ⟨_, candidates_eq watermark haligned, ?_, ?_, ?_⟩
  · rw [pairwise_flatMap]
    refine ⟨fun t _ => ?_, scheduled_sorted.imp fun hle a ha b hb => ?_⟩
    · apply pairwise_of_forall_mem_list
      intro a ha b hb
      rw [transition_of_mem ha, transition_of_mem hb]
    · rw [transition_of_mem ha, transition_of_mem hb]
      exact hle
  · intro b hb
    obtain ⟨t, ht, hmem⟩ := mem_flatMap.mp hb
    obtain ⟨htransition, hsource⟩ := mem_scheduled.mp ht
    exact ⟨t, htransition, hsource, transition_of_mem hmem⟩
  · intro t ht hsource
    have hgroup : ((scheduled D).flatMap fun t => (enablingChoices D m watermark instants t).map
        (chosenBinding D m t.path)).filter (fun b => b.transition = t.path) =
          (enablingChoices D m watermark instants t).map (chosenBinding D m t.path) :=
      filter_flatMap_key (fun _ _ _ hb => transition_of_mem hb) scheduled_nodup
        (mem_scheduled.mpr ⟨ht, hsource⟩)
    refine ⟨enablingChoices D m watermark instants t, enablingChoices_sorted,
      fun choice => mem_enablingChoices, hgroup, ?_⟩
    rw [hgroup, map_eq_nil_iff, eq_nil_iff_forall_not_mem]
    simp only [mem_enablingChoices]

lemma Queues.aligned (queues : Queues) : Aligned queues.marking queues.entryInstants := by
  intro p
  rw [Queues.marking, Marking.get?_ofDict, Dict.get?_mapValues, Queues.entryInstants,
    TokenQueue.instants, length_map, Queues.at_]
  cases queues.get? p with
  | none => rfl
  | some queue => exact (length_map _).symm

/-! ## A crossing -/

def crossSource : Transition := { path := nodeZ }

/-- Two transitions take from one place that a source feeds; `t` is declared before `s`. -/
def crossNet : Net where
  places := [{ path := nodeP }]
  transitions := [{ path := nodeT }, { path := nodeS },
    crossSource]
  arcs := [
    ⟨nodeP, nodeT, .consume, 1, none, none, Arc.weight_one⟩,
    ⟨nodeP, nodeS, .consume, 1, none, none, Arc.weight_one⟩,
    ⟨nodeZ, nodeP, .consume, 1, none, none, Arc.weight_one⟩]
  valid := by decide

def cross : Definition where
  net := crossNet
  handlers := fun _ => passthroughHandler
  guards := fun _ _ _ => .ok true
  filters := fun _ _ => .ok true
  scheduler := selectConservative
  sourcePlain := fun _ _ _ _ => rfl

def crossQueues : Queues :=
  Dict.ofList [(nodeP,
    [⟨⟨none, .str "x"⟩, 0, 1, none⟩, ⟨⟨none, .str "y"⟩, 0, 2, none⟩])]

/-- The candidates of `s` come before those of `t`, and the source has none though its one choice,
of nothing, meets every condition. -/
theorem cross_not_in_net_order :
    crossNet.transitions.map (fun t => t.path.str) = ["t", "s", "z"] ∧
    (candidates cross crossQueues.marking 0 crossQueues.entryInstants).toOption.map
      (fun bindings => bindings.map fun b => b.transition.str) = some ["s", "s", "t", "t"] ∧
    Enables cross crossQueues.marking 0 crossQueues.entryInstants crossSource [] := by
  refine ⟨by decide, by decide +kernel, ?_⟩
  constructor
  · exact List.Forall₂.nil
  · rw [show cross.net.inputPositions crossSource.path = [] from by decide]
    intro arc harc
    cases harc
  · decide
  · decide

/-- Every candidate of the crossing is accounted for. -/
theorem candidates_exact_cross :
    Aligned crossQueues.marking crossQueues.entryInstants ∧
    ∃ bindings, candidates cross crossQueues.marking 0 crossQueues.entryInstants = .ok bindings ∧
      bindings.Pairwise (fun a b => a.transition.str ≤ b.transition.str) := by
  obtain ⟨bindings, hbindings, hsorted, -⟩ := candidates_exact (D := cross) 0 crossQueues.aligned
  exact ⟨crossQueues.aligned, bindings, hbindings, hsorted⟩
end Petrus.Impetus
