import Petrus.Testing.Dst.Calls

/-!
# Runs of a world

The calls and closings made of a world, one after the other, each whether it returns
or raises.
-/

namespace Petrus.Testing.Dst

open Lib Act

variable {V σ G α : Type} {C : Config V σ G} {w : World V σ G}

/-- A method of the world that may change it. -/
inductive Method (V : Type) where
  | call (attempt : Attempt V)
  | close

def Method.perform (C : Config V σ G) : Method V → Step V σ G Unit
  | .call attempt => attempt.perform C
  | .close => Dst.close C

def World.after (C : Config V σ G) : World V σ G → List (Method V) → World V σ G
  | w, [] => w
  | w, method :: rest => World.after C (method.perform C w).2 rest

/-! ## One call -/

def Attempt.body (C : Config V σ G) : Attempt V → Step V σ G Unit
  | .submit generation command => discard (submit_ C command generation)
  | .step => discard (Prod.fst <$> step_ C)
  | .activateFault generation fault => activateFault_ C fault generation
  | .observe generation request poll => discard (observe_ C request generation poll)
  | .crash generation cut => crash_ C cut generation
  | .restart => discard (restart_ C)
  | .beginFair generation => beginFair_ C generation
  | .finish generation disposition => finish_ C disposition generation

lemma discard_apply (m : Step V σ G α) (w : World V σ G) :
    (discard m : Step V σ G Unit) w = (m >>= fun _ => pure ()) w := rfl

lemma attempting_discard (attempt : Attempt V) (m : Step V σ G α) (w : World V σ G) :
    (discard (attempting C attempt m) : Step V σ G Unit) w =
      attempting C attempt (discard m) w := by
  unfold attempting
  rw [discard_apply, bind_apply, bind_apply, bind_apply]
  generalize notifyAttempt C (.call attempt) w = announced
  rcases announced with ⟨_ | _, w₁⟩
  · rfl
  dsimp only
  rw [get_bind_apply, get_bind_apply, bind_apply, bind_apply, Act.catching,
    Act.catching, discard_apply, bind_apply]
  generalize m w₁ = ran
  rcases ran with ⟨raised | a, w₂⟩
  · dsimp only
    rw [bind_apply, bind_apply]
    generalize recordFailure C attempt _ raised w₂ = recorded
    rcases recorded with ⟨_ | _, w₃⟩ <;> rfl
  · dsimp only [pure_apply]
    rw [bind_apply, bind_apply]
    generalize notifyBoundary C w₂ = noted
    rcases noted with ⟨_ | _, w₃⟩ <;> rfl

lemma perform_apply {attempt : Attempt V} (h : attempt.check = .ok ()) (w : World V σ G) :
    attempt.perform C w = attempting C attempt (attempt.body C) w := by
  have hcheck : (Act.mapError Raise.other (Act.lift attempt.check) : Step V σ G Unit) w =
      (.ok (), w) := by
    rw [h]
    rfl
  unfold Attempt.perform
  rw [bind_ok_apply hcheck]
  cases attempt with
  | submit | step | observe | restart => exact attempting_discard _ _ w
  | activateFault generation armed => rfl
  | crash generation cut => rfl
  | beginFair generation => rfl
  | finish generation disposition => rfl

lemma perform_unchecked {attempt : Attempt V} {e : Exc} (h : attempt.check = .error e)
    (w : World V σ G) : attempt.perform C w = (.error (.other e), w) := by
  unfold Attempt.perform
  rw [bind_apply, h]
  rfl

lemma notify_cases (m : Act (FileProgress V) Exc Unit) (w : World V σ G) :
    ∃ progress, notify m w = (.ok (), { w with progress }) ∨
      ∃ e, notify m w = (.error (.other e), { w with progress }) := by
  unfold notify
  cases hprogress : w.progress with
  | none =>
    have hw : { w with progress := none } = w := by rw [← hprogress]
    exact ⟨none, .inl (by rw [hw])⟩
  | some p =>
    rcases hrun : m p with ⟨_ | _, p'⟩
    · exact ⟨some p', .inr ⟨_, by simp only [hrun]; rfl⟩⟩
    · exact ⟨some p', .inl (by simp only [hrun]; rfl)⟩

end Petrus.Testing.Dst
