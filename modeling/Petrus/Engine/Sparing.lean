import Petrus.Engine.Parts
import Petrus.Impetus.Properties.Conservation

/-!
# An engine left to itself

Without a sensor nothing is delivered, and where no transition has a handler or more than one
output arc a drive never holds more tokens than it found.
-/

namespace Petrus.Engine

open Lib Motus Impetus List
open Act (Keeps Moves Returns)

variable {κ : Type} {C : Composition κ} {host : Host} {bound : Nat}

/-- A reached session with nothing to deliver and at most so many tokens. -/
structure Idle (C : Composition κ) (bound : Nat) (s : Session) : Prop where
  reached : Reached C.definition s.instance_
  deliveries : s.deliveries = []
  weight : s.instance_.weight ≤ bound

/-- No tokens and no deliveries come in. -/
def Spares (C : Composition κ) (s t : Session) : Prop :=
  ∀ bound, Idle C bound s → Idle C bound t

instance : Std.Refl (Spares C) where
  refl _ _ hs := hs

instance : IsTrans Session (Spares C) where
  trans _ _ _ h h' bound hs := h' bound (h bound hs)

lemma Spares.of_eq {s t : Session} (hinstance : t.instance_ = s.instance_)
    (hdeliveries : t.deliveries = s.deliveries) : Spares C s t := by
  intro bound hs
  refine ⟨?_, hdeliveries.trans hs.deliveries, ?_⟩
  · rw [hinstance]
    exact hs.reached
  · rw [hinstance]
    exact hs.weight

lemma Spares.keeps {α : Type} {m : Driver α} (h : Moves (Spares C) m) :
    Keeps (Idle C bound) m fun _ => True := fun s hs => ⟨h s bound hs, fun _ _ => trivial⟩

/-! ## Parts of a drive -/

lemma onInstance_spares {ε α : Type} {m : Act Instance ε α}
    (h : ∀ i, Reached C.definition i → SparingChain C.definition i (m i).2) :
    Moves (Spares C) (onInstance C m) := by
  intro s bound hs
  have hchain := h s.instance_ hs.reached
  exact ⟨Chain.reached hchain hs.reached, hs.deliveries,
    (SparingChain.weight_le hchain hs.reached).trans hs.weight⟩

lemma committed_spares : Moves (Spares C) (committed C host) := by
  intro s
  unfold committed
  split_ifs
  · cases host.commit s.instance_.history with
    | refused e => exact refl_of (Spares C) s
    | _ => exact .of_eq rfl rfl
  · exact refl_of (Spares C) s

lemma spares_follows (hslender : Slender C.definition) : Follows C host (Spares C) where
  books hrests hdeliveries := .of_eq hrests.instance_ hdeliveries
  committed := committed_spares
  recorded _ _ _ := onInstance_spares fun _ _ => recordActivityCompletion_sparing ..
  refused _ _ _ := onInstance_spares fun _ _ => recordActivityFailure_sparing ..
  complete _ _ := onInstance_spares fun _ hi => hslender.complete_sparing _ _ _ hi
  commit {o run result} _ hbound hrun := by
    refine onInstance_spares fun i hi => hslender.commitCompletion_sparing _ _ _ hi ?_
    intro envelope henvelope
    rw [hslender.boundHandler] at hbound
    cases hbound
    rw [henvelope] at hrun
    cases hrun
    rfl
  fail _ _ _ := onInstance_spares fun _ hi => hslender.fail_sparing _ _ _ hi _
  wake _ := onInstance_spares fun _ _ => wake_sparing _ _

lemma installSelection_spares (proposal : SelectionProposal) :
    Moves (Spares C) (installSelection proposal) := by
  unfold installSelection
  refine Moves.bind Moves.get fun s => ?_
  split_ifs
  · exact fun _ => .of_eq rfl rfl
  · exact Moves.throw _

lemma dispatchOccurrence_spares (o : FiringOccurrence) (invocation : ActivityInvocation Json) :
    Moves (Spares C) (dispatchOccurrence host o invocation) := by
  unfold dispatchOccurrence
  refine Moves.bind (fun _ => .of_eq rfl rfl) fun _ => ?_
  cases host.dispatch o.id invocation with
  | none => exact Moves.pure ()
  | some e => exact Moves.throw e

lemma sense_spares (hsensor : host.sensor = none) : Moves (Spares C) (sense host) := by
  unfold sense
  rw [hsensor]
  refine Moves.bind Moves.get fun s => ?_
  split_ifs <;> exact Moves.pure ()

lemma beginCandidate_spares (hslender : Slender C.definition) (binding : Binding)
    (proposal : SelectionProposal) : Moves (Spares C) (beginCandidate C host binding proposal) := by
  unfold beginCandidate
  refine Moves.bind Moves.get fun s => ?_
  refine Moves.bind (onInstance_spares fun i hi => begin_sparing _ _ hi binding) fun o => ?_
  have hfollows : Follows C host (Spares C) := spares_follows hslender
  have hrun := Follows.runBegun dispatchOccurrence_spares hfollows o
  split_ifs
  · exact hrun _
  · exact Moves.bind (installSelection_spares proposal) fun _ => hrun _

lemma apply_spares (hslender : Slender C.definition) {action : Action}
    (h : action.isDelivery = false) : Moves (Spares C) (apply C host action) := by
  cases action with
  | acceptResult occurrence outcome =>
    exact ((spares_follows hslender).acceptResult occurrence outcome).map some
  | acceptDelivery delivery => cases h
  | beginCandidate binding proposal =>
    exact (beginCandidate_spares hslender binding proposal).map some
  | advanceTime instant => exact (spares_follows hslender).advanceTime instant
  | wait => exact Moves.throw _
  | stop => exact Moves.throw _

/-! ## A whole drive -/

section Drive

variable [LinearOrder κ]

lemma offerCandidate_offers_begins :
    Returns (fun actions => ∀ a ∈ actions, a.isDelivery = false) (offerCandidate C) := by
  unfold offerCandidate
  refine Returns.bind fun s => Returns.bind fun enabled => ?_
  split_ifs
  · exact Returns.pure (by simp)
  · refine Returns.bind fun proposed => ?_
    cases proposed with
    | none => exact Returns.pure (by simp)
    | some proposal =>
      refine Returns.bind fun _ => Returns.bind fun _ => ?_
      exact Returns.pure (by simp [Action.isDelivery])

lemma observe_idle (hslender : Slender C.definition) (hsensor : host.sensor = none) :
    Keeps (Idle C bound) (observe C host)
      fun snapshot => ∀ a ∈ snapshot.actions, a.isDelivery = false := by
  unfold observe
  refine Keeps.get.bind fun s _ => ?_
  refine (Spares.keeps ((spares_follows hslender).collectArrivals _)).bind fun _ _ => ?_
  refine Keeps.bind (Keeps.returns (Spares.keeps offerCandidate_moves) offerCandidate_offers_begins)
    fun candidate hcandidate => ?_
  refine Keeps.get.bind fun t _ => ?_
  refine (Keeps.lift _).bind fun maturation _ => ?_
  refine (Spares.keeps (sense_spares hsensor)).bind fun _ _ => ?_
  refine Keeps.get.bind fun u hu => ?_
  refine Keeps.pure ?_
  intro a ha
  simp only [hu.deliveries, takeWhile_nil, map_nil, append_nil, mem_append,
    mem_map, mem_singleton] at ha
  rcases ha with (((⟨arrival, -, rfl⟩ | hoffered) | ⟨instant, -, rfl⟩) | hwait) | rfl
  · rfl
  · exact hcandidate a hoffered
  · rfl
  · split_ifs at hwait
    · rw [mem_singleton.mp hwait]
      rfl
    · cases hwait
  · rfl

lemma drive_idle (hslender : Slender C.definition) (hsensor : host.sensor = none) :
    Keeps (Idle C bound) (drive C host) fun _ => True := by
  have hfollows : Follows C host (Spares C) := spares_follows hslender
  unfold drive
  refine (Spares.keeps (Follows.reconcileOnce dispatchOccurrence_spares hfollows)).bind
    fun firings _ => ?_
  refine (observe_idle hslender hsensor).bind fun snapshot hsnapshot => ?_
  have hoffered : ∀ a ∈ snapshot.actions, Moves (Spares C) (apply C host a) :=
    fun a ha => apply_spares hslender (hsnapshot a ha)
  refine Spares.keeps (Moves.bind_of (choose_moves _) fun _ action _ haction => ?_)
  exact hfollows.turn installSelection_spares _ firings hoffered
    (hoffered action (choose_returned haction).2)

end Drive

end Petrus.Engine
