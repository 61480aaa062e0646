import Petrus.Testing.Dst.Runs

/-!
# Ended worlds

What the calls of an ended world can still change: a closing empties its queue, and a
submission may still enter the queue, since only the step after it asks whether the
world has ended.
-/

namespace Petrus.Testing.Dst

open Lib Act

variable {V σ G α β : Type} {C : Config V σ G} {w : World V σ G} {d : Disposition}

namespace Refuses

lemma discard {m : Step V σ G α} (h : Refuses m w) :
    Refuses (Functor.discard m : Step V σ G Unit) w := bind h

lemma requireUnfinished (h : w.disposition = some d) : Refuses Dst.requireUnfinished w := by
  unfold Refuses
  simp only [Dst.requireUnfinished, get_bind_apply, h]
  exact ⟨_, rfl⟩

lemma requireGeneration {generation : Nat} {f : Unit → Step V σ G α}
    (h : w.generationId = some generation → Refuses (f ()) w) :
    Refuses (Dst.requireGeneration generation >>= f) w := by
  by_cases hlive : w.generationId = some generation
  · obtain ⟨e, he⟩ := h hlive
    exact ⟨e, by rw [bind_ok_apply (requireGeneration_apply hlive), he]⟩
  · exact bind (.stale hlive)

end Refuses

def Attempt.Enters (C : Config V σ G) (w : World V σ G) : Attempt V → Prop
  | .submit generation command =>
    w.generationId = some generation ∧ w.fair = false ∧ w.eligible = false ∧
      (C.budget.logicalInstant < w.instant ∨ (validateCommand C command).isOk)
  | _ => False

lemma submit_refuses {generation : Nat} {command : Command V}
    (h : ¬ (Attempt.submit generation command).Enters C w) :
    Refuses (submit_ C command generation) w := by
  unfold submit_
  refine .requireGeneration fun hlive => ?_
  unfold Refuses
  rw [get_bind_apply]
  by_cases hfair : w.fair = true
  · rw [if_pos hfair]
    exact ⟨_, rfl⟩
  rw [if_neg hfair]
  by_cases heligible : w.eligible = true
  · rw [if_pos heligible]
    exact ⟨_, rfl⟩
  rw [if_neg heligible]
  have hrest : ¬ (C.budget.logicalInstant < w.instant ∨ (validateCommand C command).isOk) :=
    fun hrest => h ⟨hlive, by simpa using hfair, by simpa using heligible, hrest⟩
  obtain ⟨hbounded, hinvalid⟩ := not_or.mp hrest
  obtain ⟨live, hsome, -⟩ := Option.map_eq_some_iff.mp hlive
  refine Refuses.bind ?_
  cases hvalid : validateCommand C command with
  | ok validated =>
    rw [hvalid] at hinvalid
    exact absurd rfl hinvalid
  | error e => exact ⟨e, by rw [enqueue_apply hsome (not_lt.mp hbounded), hvalid]⟩

lemma body_refuses {attempt : Attempt V} (hended : w.disposition = some d)
    (h : ¬ attempt.Enters C w) : Refuses (attempt.body C) w := by
  have hguarded : ∀ {α : Type} {generation : Nat} (f : Unit → Step V σ G α),
      Refuses (do requireGeneration generation; requireUnfinished >>= f) w := fun f =>
    .requireGeneration fun _ => .bind (.requireUnfinished hended)
  cases attempt with
  | submit generation command => exact .discard (submit_refuses h)
  | step => exact .discard (.bind (.bind (.requireUnfinished hended)))
  | activateFault | crash | beginFair | finish => exact hguarded _
  | observe generation request poll => exact .discard (hguarded _)
  | restart => exact .discard (.bind (.requireUnfinished hended))

/-! ## Whole calls -/

/-- What the world recorded is as it was. -/
structure Settled (w w' : World V σ G) : Prop where
  operations : w'.operations = w.operations
  journal : w'.journal = w.journal
  disposition : w'.disposition = w.disposition
  choices : w'.choices = w.choices

lemma attempting_refused {attempt : Attempt V} {body : Step V σ G α}
    (h : ∀ progress, Refuses body { w with progress }) :
    ∃ progress, (attempting C attempt body w).2 = { w with progress } := by
  obtain ⟨progress, hok | ⟨e, he⟩⟩ := notify_cases (FileProgress.attempt C.codec (.call attempt)) w
  · obtain ⟨e, he⟩ := h progress
    refine ⟨progress, ?_⟩
    have hcaught : ∀ before, Act.catching body (fun raised => do
        recordFailure C attempt before raised
        Act.throw raised) { w with progress } = (.error (.other e), { w with progress }) := by
      intro before
      rw [Act.catching, he]
      rfl
    rw [attempting, notifyAttempt, bind_ok_apply hok, get_bind_apply, bind_error_apply (hcaught _)]
  · refine ⟨progress, ?_⟩
    rw [attempting, notifyAttempt, bind_error_apply he]

lemma perform_ended {attempt : Attempt V} (hended : w.disposition = some d)
    (h : ¬ attempt.Enters C w) : ∃ progress, (attempt.perform C w).2 = { w with progress } := by
  cases hcheck : attempt.check with
  | error e =>
    rw [perform_unchecked hcheck]
    exact ⟨w.progress, rfl⟩
  | ok _ =>
    rw [perform_apply hcheck]
    refine attempting_refused fun progress => body_refuses hended fun henters => h ?_
    cases attempt <;> exact henters

lemma close_settled : Settled w (Dst.close C w).2 ∧
    ((Dst.close C w).2.queue = w.queue ∨ (Dst.close C w).2.queue = []) := by
  unfold Dst.close
  rw [get_bind_apply]
  cases hlive : w.generation with
  | none => exact ⟨⟨rfl, rfl, rfl, rfl⟩, .inl rfl⟩
  | some live =>
    obtain ⟨progress, hok | ⟨e, he⟩⟩ :=
      notify_cases (FileProgress.attempt C.codec (.close live.1)) w
    · dsimp only
      rw [notifyAttempt, bind_ok_apply hok, modify_bind_apply, bind_apply, invoke]
      dsimp only
      rcases Scene.run _ (C.profile.close live.2) _ with ⟨_ | _, scene⟩
      · exact ⟨⟨rfl, rfl, rfl, rfl⟩, .inr rfl⟩
      · simp only [Except.mapError, notifyBoundary, get_bind_apply]
        obtain ⟨last, hlast | ⟨e, hlast⟩⟩ := notify_cases (FileProgress.boundary C.codec _) _
        · rw [hlast]
          exact ⟨⟨rfl, rfl, rfl, rfl⟩, .inr rfl⟩
        · rw [hlast]
          exact ⟨⟨rfl, rfl, rfl, rfl⟩, .inr rfl⟩
    · dsimp only
      rw [notifyAttempt, bind_error_apply he]
      exact ⟨⟨rfl, rfl, rfl, rfl⟩, .inl rfl⟩

lemma Settled.trans {w₁ w₂ w₃ : World V σ G} (h : Settled w₁ w₂) (h' : Settled w₂ w₃) :
    Settled w₁ w₃ :=
  ⟨h'.operations.trans h.operations, h'.journal.trans h.journal,
    h'.disposition.trans h.disposition, h'.choices.trans h.choices⟩

lemma Settled.artifact [BEq V] {w' : World V σ G} (h : Settled w w') (scenarioId : String) :
    w'.artifact C scenarioId = w.artifact C scenarioId := by
  have houtcome : ∀ disposition, w'.outcome C scenarioId disposition =
      w.outcome C scenarioId disposition := by
    intro disposition
    simp only [World.outcome, h.operations, h.journal, h.choices]
  simp only [World.artifact, h.disposition, houtcome]

lemma method_settled (method : Method V) (hended : w.disposition = some d)
    (h : ∀ attempt, method = .call attempt → ¬ attempt.Enters C w) :
    Settled w (method.perform C w).2 ∧ ((method.perform C w).2.queue = w.queue ∨
      method = .close ∧ (method.perform C w).2.queue = []) := by
  cases method with
  | call attempt =>
    obtain ⟨progress, hw⟩ := perform_ended hended (h attempt rfl)
    rw [Method.perform, hw]
    exact ⟨⟨rfl, rfl, rfl, rfl⟩, .inl rfl⟩
  | close =>
    obtain ⟨hsettled, hqueue⟩ := close_settled (w := w) (C := C)
    exact ⟨hsettled, hqueue.imp id fun hempty => ⟨rfl, hempty⟩⟩

lemma after_settled {methods : List (Method V)} (hended : w.disposition = some d)
    (h : ∀ earlier attempt later, methods = earlier ++ .call attempt :: later →
      (w.after C earlier).disposition.isSome → ¬ attempt.Enters C (w.after C earlier)) :
    Settled w (w.after C methods) ∧ ((w.after C methods).queue = w.queue ∨
      Method.close ∈ methods ∧ (w.after C methods).queue = []) := by
  induction methods generalizing w with
  | nil => exact ⟨⟨rfl, rfl, rfl, rfl⟩, .inl rfl⟩
  | cons method rest ih =>
    have hfirst := method_settled (C := C) method hended fun attempt hcall =>
      h [] attempt rest (by rw [hcall]; rfl) (Option.isSome_of_eq_some hended)
    have hrest := ih (w := (method.perform C w).2) (hfirst.1.disposition.trans hended)
      fun earlier attempt later hsplit => h (method :: earlier) attempt later (by rw [hsplit]; rfl)
    refine ⟨hfirst.1.trans hrest.1, ?_⟩
    rw [World.after]
    rcases hrest.2 with hsame | ⟨hclosed, hempty⟩
    · rw [hsame]
      exact hfirst.2.imp id fun hclose => ⟨by simp [hclose.1], hclose.2⟩
    · exact .inr ⟨by simp [hclosed], hempty⟩

/-- An ended world is final, but for the queue that a closing empties, as long as no submission
enters it. -/
theorem ended_world_final [BEq V] (C : Config V σ G) (w : World V σ G) {d : Disposition}
    (hended : w.disposition = some d) (methods : List (Method V))
    (h : ∀ earlier attempt later, methods = earlier ++ .call attempt :: later →
      ¬ attempt.Enters C (w.after C earlier)) :
    (w.after C methods).operations = w.operations ∧ (w.after C methods).journal = w.journal ∧
      (w.after C methods).disposition = w.disposition ∧
      ((w.after C methods).queue = w.queue ∨
        Method.close ∈ methods ∧ (w.after C methods).queue = []) ∧
      ∀ scenarioId, (w.after C methods).artifact C scenarioId = w.artifact C scenarioId := by
  obtain ⟨hsettled, hqueue⟩ := after_settled hended fun earlier attempt later hsplit _ =>
    h earlier attempt later hsplit
  exact ⟨hsettled.operations, hsettled.journal, hsettled.disposition, hqueue, hsettled.artifact⟩

/-! ## A world that ends with a full queue -/

def tickIdentity : ComponentIdentity := ⟨"tick", 1, "digest"⟩

def tick : Command Nat := ⟨tickIdentity, "tick", 0⟩

def tickProfile : ScenarioProfile Nat Unit Unit where
  identity := tickIdentity
  validate := .ok
  validateFault := .ok
  create := .done (.ok ⟨(), [⟨5, tick⟩]⟩)
  load := .done (.ok ⟨(), []⟩)
  apply := fun _ _ => .done (.ok ⟨.applied, 0, []⟩)
  observe := fun _ _ => .done (.ok 0)
  drop := fun _ => .done (.ok ())
  close := fun _ => .done (.ok ())
  resourceUsage := none

def silentCodec : Codec Nat where
  dumpArtifact := fun _ => []
  loadArtifact := fun _ => none
  dumpFrame := fun _ => []
  loadFrame := fun _ => none
  digest := fun _ => ""

def tickLimits (actions : Nat) : Limits where
  actions := actions
  queuedCommands := 1
  timerAdvances := 1
  logicalInstant := 9
  reloads := 0
  predicatePolls := 1
  artifactBytes := 4096

lemma tickLimits_valid {actions : Nat} (h : 1 ≤ actions ∧ actions ≤ 100000) :
    (tickLimits actions).Valid := by
  simp [Limits.Valid, tickLimits, maxArtifactBytes, maxPortableInteger, h]

lemma one_action : 1 ≤ 1 ∧ 1 ≤ 100000 := by decide

def ticking : Config Nat Unit Unit where
  profile := tickProfile
  budget := ⟨tickLimits 1, tickLimits_valid one_action⟩
  checkers := []
  codec := silentCodec
  fresh := ()

def fullWorld : World Nat Unit Unit :=
  (World.create ticking none none).2.after ticking [.call (.submit 1 tick)]

theorem ended_world_final_full : (fullWorld.after ticking [.call .step, .close]).operations =
    fullWorld.operations := by
  refine (ended_world_final ticking fullWorld (d := .budgetExhausted) rfl _ ?_).1
  intro earlier attempt later hsplit
  have hmem : Method.call attempt ∈ [Method.call .step, .close] := by
    rw [hsplit]
    simp
  have hstep : attempt = .step := by simpa using hmem
  rw [hstep]
  exact id

/-- Closing empties the queue of the ended world, and a submission that enters it makes a second
failure of it. -/
theorem ended_world_not_final : fullWorld.disposition = some .budgetExhausted ∧
    fullWorld.queue.length = 1 ∧ (fullWorld.after ticking [.close]).queue.length = 0 ∧
    fullWorld.operations.length = 1 ∧
    (fullWorld.after ticking [.call (.submit 1 tick)]).operations.length = 2 := by
  decide +kernel

end Petrus.Testing.Dst
