import Petrus.Lib.Act
import Petrus.Testing.Dst.Course

/-!
# New worlds

What the constructor leaves when it returns: an open world with its first generation,
the same whether it is observed or not.
-/

namespace Petrus.Testing.Dst

open Lib Act

variable {V σ G α : Type} {C : Config V σ G} {w w' : World V σ G}

lemma Unobserved.ok {m : Step V σ G α} {a : α} (hm : Unobserved {} m) (h : m w = (.ok a, w')) :
    m w.bare = (.ok a, w'.bare) := by
  rw [hm.bare, h]

lemma installGeneration_keeps {started : GenerationStart V G}
    (h : installGeneration C started false w = (.ok (), w')) :
    Grown C w w' ∧ w'.operations = w.operations ∧ w'.disposition = w.disposition := by
  rw [installGeneration, modify_bind_apply] at h
  have hentered := Took.entered (C := C) w (w.lastGenerationId + 1, started.generation)
    (w.lastGenerationId + 1)
  obtain ⟨_, w₁, hqueued, h⟩ := bind_returned.mp h
  have hproposes : C.Proposes w.instant started.scheduled := by
    rw [enqueueAll, get_bind_apply] at hqueued
    split_ifs at hqueued
    · cases hqueued
    · obtain ⟨work, _, hwork, -⟩ := bind_returned.mp hqueued
      exact (Tail.validateScheduled_returned hwork).1
  have htail : Tail C { w with
      lastGenerationId := w.lastGenerationId + 1
      generation := some (w.lastGenerationId + 1, started.generation) } (.ok (), w₁) := by
    rw [← hqueued]
    exact Tail.enqueueAll rfl fun _ => hproposes
  obtain ⟨hkeeps₁, hopen₁⟩ := htail.keeps
  have hrest : Tail C w₁ (.ok (), w') := by
    rw [← h, if_neg Bool.false_ne_true]
    refine Tail.bind (Tail.record _ _ _) fun _ w₂ hkeeps₂ _ => ?_
    rw [bind_ok_apply (liveGeneration_apply (hkeeps₂.generation.trans hkeeps₁.generation))]
    exact Tail.bind (Tail.sampleResources _ _) fun _ _ _ _ => Tail.evaluateCheckers _ _ _
  obtain ⟨hkeeps', hopen'⟩ := hrest.keeps
  exact ⟨hentered.trans (hkeeps₁.toGrown.trans hkeeps'.toGrown), hkeeps'.same.trans hkeeps₁.same,
    hopen'.trans hopen₁⟩

lemma construct_returned (h : construct C w = (.ok (), w')) : ∃ w₁ w₂ w₃ w₄ started,
    notifyAttempt C .construct w = (.ok (), w₁) ∧
    sampleResources C none "before_create" w₁ = (.ok (), w₂) ∧
    invoke C.profile.create w₂ = (.ok started, w₃) ∧
    installGeneration C started false w₃ = (.ok (), w₄) ∧ notifyBoundary C w₄ = (.ok (), w') := by
  unfold construct Act.catching at h
  split at h
  · rename_i hbody
    obtain ⟨_, w₁, hannounced, hbody⟩ := bind_returned.mp hbody
    obtain ⟨_, w₂, hsampled, hbody⟩ := bind_returned.mp hbody
    obtain ⟨started, w₃, hcreated, hbody⟩ := bind_returned.mp hbody
    obtain ⟨_, w₄, hinstalled, hbody⟩ := bind_returned.mp hbody
    cases h
    exact ⟨w₁, w₂, w₃, w₄, started, hannounced, hsampled, hcreated, hinstalled, hbody⟩
  · -- The handler passes on what was raised.
    rename_i raised w₁ _
    obtain ⟨_, _, hread, h⟩ := bind_returned.mp h
    cases hread
    cases hlive : w₁.generation with
    | none =>
      rw [hlive] at h
      cases h
    | some live =>
      rw [hlive] at h
      obtain ⟨_, _, -, h⟩ := bind_returned.mp h
      obtain ⟨_, _, -, h⟩ := bind_returned.mp h
      cases h

lemma invoke_returned {program : ProfileProgram V σ α} {a : α}
    (h : (invoke program : Step V σ G α) w = (.ok a, w')) : ∃ scene, w' = { w with scene } := by
  rw [invoke] at h
  rcases hrun : Scene.run w.instant program w.scene with ⟨_ | _, scene⟩
  · rw [hrun] at h
    cases h
  · rw [hrun] at h
    cases h
    exact ⟨scene, rfl⟩

lemma construct_grown {w₁ w₂ w₃ w₄ : World V σ G} {started : GenerationStart V G}
    (hsampled : sampleResources C none "before_create" w₁ = (.ok (), w₂))
    (hcreated : invoke C.profile.create w₂ = (.ok started, w₃))
    (hinstalled : installGeneration C started false w₃ = (.ok (), w₄)) :
    Grown C w₁ w₄ ∧ w₄.operations = w₁.operations ∧ w₄.disposition = w₁.disposition := by
  obtain ⟨hkeeps₂, hopen₂⟩ : Keeps C w₁ w₂ ∧ w₂.disposition = w₁.disposition :=
    Tail.keeps (hsampled ▸ Tail.sampleResources none "before_create")
  obtain ⟨scene, rfl⟩ := invoke_returned hcreated
  obtain ⟨hgrown, hsame, hopen⟩ := installGeneration_keeps hinstalled
  exact ⟨hkeeps₂.toGrown.trans ((Tail.scene scene).toGrown.trans hgrown),
    hsame.trans hkeeps₂.same, hopen.trans hopen₂⟩

lemma create_eq_construct {choices : Option ChoiceProvenance} {progress : Option (FileProgress V)}
    (h : World.create C choices progress = (.ok (), w)) :
    (C.checkers.map Checker.identity).Nodup ∧
      construct C (World.blank C choices progress) = (.ok (), w) := by
  unfold World.create at h
  by_cases hnodup : (C.checkers.map Checker.identity).Nodup
  · rw [if_pos hnodup] at h
    exact ⟨hnodup, h⟩
  · rw [if_neg hnodup] at h
    cases h

end Petrus.Testing.Dst
