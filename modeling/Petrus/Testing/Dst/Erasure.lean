import Petrus.Lib.Act
import Petrus.Testing.Dst.Runs

/-!
# Worlds and their observers

The work of a call neither reads nor writes the provenance of the choices or the
progress that is acknowledged to a parent process, and of the actions and the polls
that refused observations have reserved it reads only whether the budget is spent. So a
world may be followed without them, up to a budget that they have spent.
-/

namespace Petrus.Testing.Dst

open Lib Act

variable {V σ G α : Type} {C : Config V σ G} {w : World V σ G}

/-- What a world has more than the one in which its accepted calls are replayed. -/
structure Observer (V : Type) where
  actions : Nat := 0
  polls : Nat := 0
  choices : Option ChoiceProvenance := none
  progress : Option (FileProgress V) := none

def Observer.of (o : Observer V) (w : World V σ G) : World V σ G := { w with
  actions := w.actions + o.actions
  predicatePolls := w.predicatePolls + o.polls
  choices := o.choices
  progress := o.progress }

def Observer.Lags (o : Observer V) : Prop := o.actions ≠ 0 ∨ o.polls ≠ 0

def World.bare (w : World V σ G) : World V σ G := { w with choices := none, progress := none }

def Raise.spends : Raise → Bool
  | .budget bound _ => bound = "actions" || bound = "predicate_polls"
  | _ => false

variable {o : Observer V}

abbrev Unobserved (o : Observer V) (m : Step V σ G α) : Prop :=
  Commutes o.of (fun raised => raised.spends ∧ o.Lags) m

namespace Unobserved

lemma of_eq {m : Step V σ G α} (h : ∀ w, m (o.of w) = ((m w).1, o.of (m w).2)) :
    Unobserved o m := fun w => .inr (h w)

lemma refuse (e : Exc) : Unobserved o (Dst.refuse e : Step V σ G α) := .throw _

lemma lifted (x : Except Exc α) :
    Unobserved o (Act.mapError Raise.other (Act.lift x) : Step V σ G α) :=
  of_eq fun _ => by cases x <;> rfl

lemma invoke (program : ProfileProgram V σ α) :
    Unobserved o (Dst.invoke program : Step V σ G α) := of_eq fun _ => rfl

lemma recordFor (generation : Option Nat) (kind : JournalKind) (name : String)
    (value : JournalValue V) :
    Unobserved o (Dst.recordFor generation kind name value : Step V σ G Unit) :=
  of_eq fun _ => rfl

lemma record (kind : JournalKind) (name : String) (value : JournalValue V) :
    Unobserved o (Dst.record kind name value : Step V σ G Unit) := of_eq fun _ => rfl

lemma exhaust (bound : String) (limit : Nat) :
    Unobserved o (Dst.exhaust bound limit : Step V σ G α) := of_eq fun _ => rfl

lemma append (operation : Nat → Operation V) :
    Unobserved o (Dst.append operation : Step V σ G (Operation V)) := of_eq fun _ => rfl

lemma reserve {bound : String} {limit more : Nat} {count : World V σ G → Nat}
    {f : World V σ G → World V σ G} (hmore : more ≠ 0 → o.Lags)
    (hcount : ∀ w, count (o.of w) = count w + more) (hf : ∀ w, f (o.of w) = o.of (f w))
    (hbound : (Raise.budget bound limit).spends) :
    Unobserved o (do
      let w ← Act.get
      if limit ≤ count w then Dst.exhaust bound limit else Act.modify f : Step V σ G Unit) := by
  intro w
  rw [get_bind_apply, get_bind_apply, hcount]
  by_cases hspent : limit ≤ count w
  · rw [if_pos hspent, if_pos (by omega)]
    exact .inr rfl
  · by_cases hboth : limit ≤ count w + more
    · rw [if_pos hboth]
      exact .inl ⟨_, rfl, hbound, hmore (by omega)⟩
    · rw [if_neg hboth, if_neg hspent, modify_apply, modify_apply, hf]
      exact .inr rfl

lemma reserveAction : Unobserved o (Dst.reserveAction C) :=
  reserve .inl (fun _ => rfl) (fun w => by simp only [Observer.of, Nat.add_right_comm]) rfl

lemma reservePoll (poll : Bool) : Unobserved o (Dst.reservePoll C poll) := by
  cases poll with
  | false => exact .get (fun _ => rfl) fun _ => .pure _
  | true =>
    exact reserve .inr (fun _ => rfl)
      (fun w => by simp only [Observer.of, Nat.add_right_comm]) rfl

lemma requireGeneration (generation : Nat) :
    Unobserved o (Dst.requireGeneration generation : Step V σ G Unit) :=
  .get (fun _ => rfl) fun _ => .ite (.pure _) (refuse _)

lemma liveGeneration : Unobserved o (Dst.liveGeneration : Step V σ G (Nat × G)) := by
  refine .get (fun _ => rfl) fun w => ?_
  cases w.generation with
  | none => exact refuse _
  | some live => exact .pure live

lemma requireUnfinished : Unobserved o (Dst.requireUnfinished : Step V σ G Unit) := by
  refine .get (fun _ => rfl) fun w => ?_
  cases w.disposition with
  | none => exact .pure _
  | some d => exact refuse _

/-! ### Scheduling -/

lemma enqueueValidated (instant : Nat) (command : Command V) (source : CommandSource) :
    Unobserved o (Dst.enqueueValidated instant command source : Step V σ G Nat) :=
  .bind liveGeneration fun _ => .get (fun _ => rfl) fun _ =>
    .bind (.modify fun _ => rfl) fun _ => .pure _

lemma enqueue (scheduled : ScheduledCommand V) (source : CommandSource) :
    Unobserved o (Dst.enqueue C scheduled source) := by
  refine .get (fun _ => rfl) fun w => .ite (refuse _) (.ite (refuse _) (.ite (exhaust _ _) ?_))
  exact .bind (lifted _) fun _ => .ite (exhaust _ _) (enqueueValidated _ _ _)

lemma validateScheduled (scheduled : List (ScheduledCommand V)) :
    Unobserved o (Dst.validateScheduled C scheduled) := by
  induction scheduled with
  | nil => exact .pure _
  | cons first rest ih =>
    refine .get (fun _ => rfl) fun w => .ite (refuse _) (.ite (exhaust _ _) ?_)
    exact .bind (lifted _) fun _ => .bind ih fun _ => .pure _

lemma enqueueEach (source : CommandSource) (work : List (Nat × Command V)) :
    Unobserved o (Dst.enqueueEach source work : Step V σ G Unit) := by
  induction work with
  | nil => exact .pure _
  | cons item rest ih => exact .bind (enqueueValidated _ _ _) fun _ => ih

lemma enqueueAll (scheduled : List (ScheduledCommand V)) (source : CommandSource) :
    Unobserved o (Dst.enqueueAll C scheduled source) := by
  refine .get (fun _ => rfl) fun w => .ite (exhaust _ _) ?_
  exact .bind (validateScheduled _) fun _ => enqueueEach _ _

/-! ### Checkers, resources and generations -/

lemma captureChecks (trigger : String) (sequence : Nat) (live : Nat × G)
    (checkers : List (Checker V)) :
    Unobserved o (Dst.captureChecks C trigger sequence live checkers) := by
  induction checkers with
  | nil => exact .pure _
  | cons checker rest ih =>
    refine .bind (invoke _) fun value => .get (fun _ => rfl) fun w => ?_
    exact .bind (lifted _) fun _ => .bind ih fun _ => .pure _

lemma recordEach (captured : List (Captured V)) :
    Unobserved o (Dst.recordEach captured : Step V σ G Unit) := by
  induction captured with
  | nil => exact .pure _
  | cons first rest ih => exact .bind (recordFor _ _ _ _) fun _ => ih

lemma recordChecks (captured : List (Captured V)) :
    Unobserved o (Dst.recordChecks captured : Step V σ G Unit) :=
  .bind (recordEach _) fun _ => .ite (.pure _) (.bind (.modify fun _ => rfl) fun _ => .throw _)

lemma evaluateCheckers (trigger : String) (sequence : Nat) (live : Nat × G) :
    Unobserved o (Dst.evaluateCheckers C trigger sequence live) :=
  .bind (captureChecks _ _ _ _) fun _ => recordChecks _

lemma recordUsage (limits usage : List (String × Nat)) (live : Option (Nat × G))
    (trigger : String) :
    Unobserved o (Dst.recordUsage limits usage live trigger : Step V σ G Unit) := by
  refine .get (fun _ => rfl) fun w => .bind (recordFor _ _ _ _) fun _ => ?_
  cases exceeded? limits usage with
  | none => exact .pure _
  | some first => exact exhaust _ _

lemma sampleResources (live : Option (Nat × G)) (trigger : String) :
    Unobserved o (Dst.sampleResources C live trigger) := by
  unfold Dst.sampleResources
  cases C.budget.profileResources with
  | none => exact .pure _
  | some limits =>
    cases C.profile.resourceUsage with
    | none => exact refuse _
    | some sample => exact .bind (invoke _) fun _ => .ite (recordUsage _ _ _ _) (refuse _)

lemma installGeneration (started : GenerationStart V G) (loaded : Bool) :
    Unobserved o (Dst.installGeneration C started loaded) := by
  refine .bind (.modify fun _ => rfl) fun _ => .bind (enqueueAll _ _) fun _ => .ite (.pure _) ?_
  refine .bind (record _ _ _) fun _ => .bind liveGeneration fun _ => ?_
  exact .bind (sampleResources _ _) fun _ => evaluateCheckers _ _ _

/-! ### The calls -/

lemma runQueued (live : Nat × G) (queued : Queued V) (rest : List (Queued V)) :
    Unobserved o (Dst.runQueued C live queued rest) := by
  refine .bind reserveAction fun _ => .bind (.modify fun _ => rfl) fun _ => ?_
  refine .bind (invoke _) fun _ => .get (fun _ => rfl) fun _ => .bind (append _) fun _ => ?_
  refine .bind (record _ _ _) fun _ => .bind (enqueueAll _ _) fun _ => ?_
  exact .bind (sampleResources _ _) fun _ => .bind (evaluateCheckers _ _ _) fun _ => .pure _

lemma step_ : Unobserved o (Dst.step_ C) := by
  refine .bind requireUnfinished fun _ => .get (fun _ => rfl) fun w => ?_
  cases w.generation with
  | none => exact refuse _
  | some live =>
    cases w.queue with
    | nil => exact refuse _
    | cons queued rest =>
      refine .ite (refuse _) (.ite (exhaust _ _) (.ite (exhaust _ _) ?_))
      exact .bind (runQueued _ _ _) fun _ => .pure _

lemma submit_ (command : Command V) (generation : Nat) :
    Unobserved o (Dst.submit_ C command generation) := by
  refine .bind (requireGeneration _) fun _ => .get (fun _ => rfl) fun w => ?_
  refine .ite (refuse _) (.ite (refuse _) (.bind (enqueue _ _) fun _ => .bind step_ fun _ => ?_))
  exact .ite (refuse _) (.pure _)

lemma activateFault_ (fault : Fault V) (generation : Nat) :
    Unobserved o (Dst.activateFault_ C fault generation) := by
  refine .bind (requireGeneration _) fun _ => .bind requireUnfinished fun _ => ?_
  refine .get (fun _ => rfl) fun w => .ite (refuse _) (.ite (refuse _) (.ite (refuse _) ?_))
  refine .bind (lifted _) fun _ => .ite (refuse _) (.bind reserveAction fun _ => ?_)
  refine .bind (append _) fun _ => .bind (.modify fun _ => rfl) fun _ => ?_
  refine .bind (record _ _ _) fun _ => .bind liveGeneration fun _ => ?_
  exact .bind (sampleResources _ _) fun _ => evaluateCheckers _ _ _

lemma observe_ (request : ObservationRequest V) (generation : Nat) (poll : Bool) :
    Unobserved o (Dst.observe_ C request generation poll) := by
  refine .bind (requireGeneration _) fun _ => .bind requireUnfinished fun _ => ?_
  refine .bind reserveAction fun _ => .bind (reservePoll _) fun _ => .get (fun _ => rfl) fun w => ?_
  refine .bind liveGeneration fun _ => .bind (invoke _) fun _ => .bind (append _) fun _ => ?_
  exact .bind (record _ _ _) fun _ => .bind (sampleResources _ _) fun _ => .pure _

lemma crash_ (cut : String) (generation : Nat) : Unobserved o (Dst.crash_ C cut generation) := by
  refine .bind (requireGeneration _) fun _ => .bind requireUnfinished fun _ => ?_
  refine .get (fun _ => rfl) fun w => .ite (refuse _) (.bind reserveAction fun _ => ?_)
  refine .bind liveGeneration fun _ => .bind (captureChecks _ _ _ _) fun _ => ?_
  refine .get (fun _ => rfl) fun w => .bind (.modify fun _ => rfl) fun _ => ?_
  refine .bind (invoke _) fun _ => .bind (append _) fun _ => .bind (recordFor _ _ _ _) fun _ => ?_
  exact .bind (sampleResources _ _) fun _ => recordChecks _

lemma restart_ : Unobserved o (Dst.restart_ C) := by
  refine .bind requireUnfinished fun _ => .get (fun _ => rfl) fun w => ?_
  refine .ite (refuse _) (.ite (exhaust _ _) (.bind reserveAction fun _ => ?_))
  refine .bind (.modify fun _ => rfl) fun _ => .bind (invoke _) fun _ => ?_
  refine .bind (installGeneration _ _) fun _ => .bind liveGeneration fun _ => ?_
  refine .bind (append _) fun _ => .bind (record _ _ _) fun _ => ?_
  exact .bind (sampleResources _ _) fun _ => .bind (evaluateCheckers _ _ _) fun _ => .pure _

lemma beginFair_ (generation : Nat) : Unobserved o (Dst.beginFair_ C generation) := by
  refine .bind (requireGeneration _) fun _ => .bind requireUnfinished fun _ => ?_
  refine .get (fun _ => rfl) fun w => .ite (refuse _) (.ite (refuse _) (.bind reserveAction ?_))
  refine fun _ => .bind (.modify fun _ => rfl) fun _ => .bind (append _) fun _ => ?_
  refine .bind (record _ _ _) fun _ => .bind liveGeneration fun _ => ?_
  exact .bind (sampleResources _ _) fun _ => evaluateCheckers _ _ _

lemma finish_ (disposition : Disposition) (generation : Nat) :
    Unobserved o (Dst.finish_ C disposition generation) := by
  refine .bind (requireGeneration _) fun _ => .bind requireUnfinished fun _ => ?_
  refine .get (fun _ => rfl) fun w => .ite (refuse _) (.ite (refuse _) (.bind reserveAction ?_))
  refine fun _ => .bind (append _) fun _ => .bind (.modify fun _ => rfl) fun _ => ?_
  exact .bind (record _ _ _) fun _ => .bind liveGeneration fun _ => sampleResources _ _

lemma body (attempt : Attempt V) : Unobserved o (attempt.body C) := by
  have hdiscard : ∀ {α : Type} {m : Step V σ G α}, Unobserved o m →
      Unobserved o (discard m : Step V σ G Unit) := fun h => .bind h fun _ => .pure _
  cases attempt with
  | submit generation command => exact hdiscard (submit_ command generation)
  | step => exact hdiscard (.bind step_ fun _ => .pure _)
  | activateFault generation armed => exact activateFault_ armed generation
  | observe generation request poll => exact hdiscard (observe_ request generation poll)
  | crash generation cut => exact crash_ cut generation
  | restart => exact hdiscard restart_
  | beginFair generation => exact beginFair_ generation
  | finish generation disposition => exact finish_ disposition generation

lemma bare {m : Step V σ G α} (hm : Unobserved {} m) (w : World V σ G) :
    m w.bare = ((m w).1, (m w).2.bare) :=
  (hm w).resolve_left (by rintro ⟨_, -, -, h | h⟩ <;> exact h rfl)

end Unobserved

end Petrus.Testing.Dst
