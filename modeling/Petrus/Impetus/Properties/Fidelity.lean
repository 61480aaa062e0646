import Petrus.Impetus.Run

/-!
# Resume fidelity

Restarting from the records gives back the live instance. The doors allow one thing
the restart refuses: completing a firing of a source without a handler by hand, with
something else than its built-in passthrough; and a marking of places the net does not
declare. Runs without these are resumed faithfully wherever they stop.
-/

namespace Petrus.Impetus

open Lib Motus

variable {D : Definition} {s t : Instance}

/-- Equal as live instances. The queues, the occurrences in flight and every table but two agree
with their order; the active scopes and the ended outcomes agree as mappings. -/
structure Instance.Agrees (t s : Instance) : Prop where
  instanceId : t.instanceId = s.instanceId
  history : t.history = s.history
  watermark : t.watermark = s.watermark
  armed : t.armed = s.armed
  queues : t.queues = s.queues
  nextOccurrence : t.nextOccurrence = s.nextOccurrence
  nextEntry : t.nextEntry = s.nextEntry
  inFlight : t.inFlight = s.inFlight
  activityOccurrences : t.activityOccurrences = s.activityOccurrences
  cancelled : t.cancelled = s.cancelled
  frozenResults : t.frozenResults = s.frozenResults
  terminalActivity : t.terminalActivity.Same s.terminalActivity
  quarantinedActivity : t.quarantinedActivity = s.quarantinedActivity
  acceptedIdentities : t.acceptedIdentities = s.acceptedIdentities
  activeScopes : t.activeScopes.Same s.activeScopes
  scopeGenerations : t.scopeGenerations = s.scopeGenerations

lemma Instance.agrees_reorder (s : Instance) {active : Dict String LifecycleScope}
    {terminal : Dict Nat Outcome} (hactive : active.Same s.activeScopes)
    (hterminal : terminal.Same s.terminalActivity) : (s.reorder active terminal).Agrees s := by
  constructor <;> first | rfl | assumption

/-- Wherever a run stops whose initial marking names declared places and whose completions of
handler-less sources keep to the passthrough, resume rebuilds the live instance. -/
theorem resume_faithful (h : ReachableBy D (Op.KeepsPassthrough D) s) (hdeclared : Declared D s) :
    ∃ t, resume D s.history = .ok t ∧ t.Agrees s := by
  obtain ⟨active, terminal, hactive, hterminal, hresume⟩ := h.exactly.resume hdeclared
  exact ⟨_, hresume, s.agrees_reorder hactive hterminal⟩

/-! ## A relay -/

def relayNet : Net where
  places := [{ path := nodeP }]
  transitions := [{ path := nodeS }]
  arcs := [⟨nodeS, nodeP, .consume, 1, none, none, Arc.weight_one⟩]
  valid := by decide

def relay : Definition where
  net := relayNet
  handlers := fun _ => passthroughHandler
  guards := fun _ _ _ => .ok true
  filters := fun _ _ => .ok true
  scheduler := selectConservative
  sourcePlain := by decide

def storesAll : Store := fun _ _ => none

def relayStart : Instance := Instance.initial relay Marking.empty "i" 0

def relayDelivery : Op :=
  .acceptDelivery
    { source := .text "s", tokens := [{ data := .faithful (.str "x") }], identity := "d" }

def relayOccurrence : FiringOccurrence where
  id := 1
  binding := Binding.delivery nodeS [⟨none, .str "x"⟩]
  records := [.firingBegun ⟨nodeS, 1, none, 0⟩]

/-- The relay after a delivery was accepted and completed with `tokens`. -/
def relayCompleted (tokens : List (Destination × List Token)) : Instance :=
  (Op.complete relayOccurrence (some { tokens }) none).perform relay storesAll
    (relayDelivery.perform relay storesAll relayStart)

lemma relay_created : Created relay relayStart :=
  ⟨Marking.empty, "i", 0, storesAll,
    create_eq_ok.mpr ⟨⟨by decide, by simp [Marking.empty, Dict.empty]⟩, rfl, rfl⟩⟩

lemma relay_keepsPassthrough : Op.KeepsPassthrough relay
    (relayDelivery.perform relay storesAll relayStart) (.complete relayOccurrence
      (some { tokens := [(.text "p", [⟨none, .str "x"⟩])] }) none) := by
  intro o ho _ _
  have hstored : (relayDelivery.perform relay storesAll relayStart).inFlight.get? 1 =
      some relayOccurrence := by decide +kernel
  rw [show relayOccurrence.id = 1 from rfl, hstored] at ho
  cases ho
  refine ⟨rfl, rfl, ?_⟩
  intro effects heffects
  have hpassed : completeFiring relay.net relayOccurrence.binding.transition
      [(.text "p", [⟨none, .str "x"⟩])] = .ok [(⟨"p", by decide⟩, [⟨none, .str "x"⟩])] := by
    decide +kernel
  rw [hpassed] at heffects
  cases heffects
  decide +kernel

/-- Completed with its token, the relay is resumed. -/
theorem resume_faithful_relay :
    ReachableBy relay (Op.KeepsPassthrough relay)
      (relayCompleted [(.text "p", [⟨none, .str "x"⟩])]) ∧
    ∃ t, resume relay (relayCompleted [(.text "p", [⟨none, .str "x"⟩])]).history = .ok t ∧
      t.Agrees (relayCompleted [(.text "p", [⟨none, .str "x"⟩])]) := by
  have hreachable : ReachableBy relay (Op.KeepsPassthrough relay)
      (relayCompleted [(.text "p", [⟨none, .str "x"⟩])]) :=
    ⟨relayStart, relay_created, (Runs.refl.perform storesAll relayDelivery trivial).perform
      storesAll _ relay_keepsPassthrough⟩
  exact ⟨hreachable, resume_faithful hreachable (by decide +kernel)⟩

/-- Completing the relay's delivery with no token at all is accepted, and then not resumed. -/
theorem resume_refuses_dropped_delivery : Reachable relay (relayCompleted []) ∧
    (relayCompleted []).inFlight.get? 1 = none ∧
      ∀ t, resume relay (relayCompleted []).history ≠ .ok t := by
  refine ⟨⟨relayStart, relay_created, (Runs.refl.perform storesAll relayDelivery trivial).perform
    storesAll _ trivial⟩, by decide +kernel, ?_⟩
  intro t h
  have hrefused : (resume relay (relayCompleted []).history).toOption.isNone = true := by
    decide +kernel
  rw [h] at hrefused
  cases hrefused

/-! ## What the constructor writes, resume reads -/

section

open List

variable {m : Marking} {instanceId : String} {instant : Instant}

/-- A new instance resumes from its own records, with its marking and its armed registrations,
exactly when its initial marking names declared places only. -/
theorem construction_resumes_iff {store : Store} {s : Instance}
    (hcreate : Instance.create D m instanceId instant store = .ok s) :
    (∃ t, resume D s.history = .ok t ∧ t.marking = s.marking ∧ t.armed = s.armed) ↔
      ∀ p ∈ m.queues.keys, p ∈ D.net.placePaths := by
  obtain ⟨hconstructible, -, rfl⟩ := create_eq_ok.mp hcreate
  constructor
  · rintro ⟨t, hresume, -, -⟩
    exact declared_initial.mp ((Reached.created hconstructible).declared_of_resume hresume)
  · intro hdeclared
    obtain ⟨active, terminal, -, -, hresume⟩ :=
      (ReachedExactly.created hconstructible).resume (declared_initial.mpr hdeclared)
    exact ⟨_, hresume, rfl, rfl⟩

/-! ## A stray token -/

/-- One black token on `place`. -/
def strayMarking (place : NetPath) : Marking :=
  Marking.ofDict (Dict.ofList [(place, [Token.black])])

def strayStart (place : NetPath) : Instance := Instance.initial relay (strayMarking place) "i" 0

lemma stray_created {place : NetPath} (h : ∀ e ∈ (strayMarking place).queues.entries,
    validateInitialTokens relayNet e.1 e.2 = .ok ()) :
    Instance.create relay (strayMarking place) "i" 0 storesAll = .ok (strayStart place) :=
  create_eq_ok.mpr ⟨⟨by decide, h⟩, rfl, rfl⟩

/-- With its token on the place the relay declares, the new instance resumes. -/
theorem construction_resumes_relay :
    Instance.create relay (strayMarking nodeP) "i" 0 storesAll =
      .ok (strayStart nodeP) ∧
    ∃ t, resume relay (strayStart nodeP).history = .ok t ∧
      t.marking = (strayStart nodeP).marking ∧
      t.armed = (strayStart nodeP).armed := by
  have hcreated : Instance.create relay (strayMarking nodeP) "i" 0 storesAll =
      .ok (strayStart nodeP) := stray_created (by decide +kernel)
  exact ⟨hcreated, (construction_resumes_iff hcreated).mpr (by decide +kernel)⟩

/-- A token on a place the relay does not declare is constructed, and then not resumed. -/
theorem resume_refuses_stray_token :
    Instance.create relay (strayMarking nodeX) "i" 0 storesAll =
      .ok (strayStart nodeX) ∧
    ∀ t, resume relay (strayStart nodeX).history ≠ .ok t := by
  refine ⟨stray_created (by decide +kernel), ?_⟩
  intro t h
  have hrefused : (resume relay
      (strayStart nodeX).history).toOption.isNone = true := by
    decide +kernel
  rw [h] at hrefused
  cases hrefused

end

/-! ## Failing doors change nothing -/

section

def Door.void {α : Type} (m : Door α) : Door Unit := fun s => ((m s).1.map fun _ => (), (m s).2)

def Op.call (D : Definition) (store : Store) : Op → Door Unit
  | .begin_ binding atInstant => Door.void (Impetus.begin_ D store binding atInstant)
  | .recordActivityCompletion occurrence result atInstant =>
    Door.void (Impetus.recordActivityCompletion store occurrence result atInstant)
  | .recordActivityFailure occurrence failure atInstant =>
    Door.void (Impetus.recordActivityFailure store occurrence failure atInstant)
  | .complete occurrence result atInstant =>
    Door.void (Impetus.complete D store occurrence result atInstant)
  | .fail occurrence report atInstant => Impetus.fail D store occurrence report atInstant
  | .step atInstant => Door.void (Impetus.step D store atInstant)
  | .acceptDelivery r => Door.void (Impetus.acceptDelivery D store r)
  | .completeDelivery a atInstant => Door.void (Impetus.completeDelivery D store a atInstant)
  | .sealSource source atInstant => Impetus.sealSource D store source atInstant
  | .wake atInstant => Door.void (Impetus.wake D store atInstant)
  | .openScope name atInstant => Door.void (Impetus.openScope store name atInstant)
  | .closeScope scope atInstant => Door.void (Impetus.closeScope store scope atInstant)
  | .resetScope scope atInstant => Door.void (Impetus.resetScope store scope atInstant)
  | .resume => fun s =>
    match Impetus.resume D s.history with
    | .ok t => (.ok (), t)
    | .error e => (.error e, s)

def Op.isDoor : Op → Bool
  | .fail .. | .step .. | .completeDelivery .. | .resume => false
  | _ => true

lemma AtMostOne.unchanged {ε α : Type} {P : Commit D s → α → Prop} {r : Except ε α × Instance}
    (h : AtMostOne P r) {e : ε} (he : r.1 = .error e) : r.2 = s := by
  cases h with
  | still r => rfl
  | moved a c holds checked => cases he

lemma AtMostOne.void_unchanged {α : Type} {P : Commit D s → α → Prop} {m : Door α}
    (h : AtMostOne P (m s)) {e : Exc} (he : (Door.void m s).1 = .error e) :
    (Door.void m s).2 = s := by
  apply h.unchanged (e := e)
  simp only [Door.void] at he
  cases hm : (m s).1 with
  | error e' =>
    rw [hm] at he
    cases he
    rfl
  | ok a =>
    rw [hm] at he
    cases he

lemma Op.raised_unchanged (hl : Live D s) (store : Store) {op : Op} (hop : op.isDoor = true)
    {e : Exc} (he : (op.call D store s).1 = .error e) : (op.call D store s).2 = s := by
  cases op with
  | begin_ binding atInstant =>
    exact (begin_atMostOne hl store binding atInstant).void_unchanged he
  | recordActivityCompletion occurrence result atInstant =>
    exact (recordActivityCompletion_atMostOne (D := D) store occurrence result
      atInstant).void_unchanged he
  | recordActivityFailure occurrence failure atInstant =>
    exact (recordActivityFailure_atMostOne (D := D) store occurrence failure
      atInstant).void_unchanged he
  | complete occurrence result atInstant =>
    exact (complete_atMostOne hl store occurrence result atInstant).void_unchanged he
  | acceptDelivery r => exact (acceptDelivery_atMostOne hl store r).void_unchanged he
  | sealSource source atInstant => exact (seal_atMostOne hl store source atInstant).unchanged he
  | wake atInstant => exact (wake_atMostOne (D := D) store atInstant).void_unchanged he
  | openScope name atInstant =>
    exact (openScope_atMostOne (D := D) store name atInstant).void_unchanged he
  | closeScope scope atInstant =>
    exact (closeScope_atMostOne hl store scope atInstant).void_unchanged he
  | resetScope scope atInstant =>
    exact (resetScope_atMostOne hl store scope atInstant).void_unchanged he
  | fail | step | completeDelivery | resume => cases hop

/-- A raising door leaves the records and every table of the instance as they were, and a door
that appended its batch returns. -/
theorem failing_doors_change_nothing (h : Reachable D s) (store : Store) (op : Op)
    (hop : op.isDoor = true) :
    (∀ e, (op.call D store s).1 = .error e → (op.call D store s).2 = s) ∧
      ((op.call D store s).2.history ≠ s.history → (op.call D store s).1 = .ok ()) := by
  have hl := h.reached.live
  refine ⟨fun e he => Op.raised_unchanged hl store hop he, ?_⟩
  intro hgrown
  cases hcall : (op.call D store s).1 with
  | ok u => rfl
  | error e =>
    exact absurd (congrArg Instance.history (Op.raised_unchanged hl store hop hcall)) hgrown

/-- A store that refuses every batch makes the relay's delivery raise, with nothing changed. -/
theorem failing_doors_change_nothing_relay :
    (relayDelivery.call relay (fun _ _ => some (valueError "full")) relayStart).1 =
        .error (valueError "full") ∧
      (relayDelivery.call relay (fun _ _ => some (valueError "full")) relayStart).2 =
        relayStart := by
  have hraised : (relayDelivery.call relay (fun _ _ => some (valueError "full")) relayStart).1 =
      .error (valueError "full") := by decide +kernel
  exact ⟨hraised, (failing_doors_change_nothing ⟨relayStart, relay_created, .refl⟩
    (fun _ _ => some (valueError "full")) relayDelivery rfl).1 _ hraised⟩

end

end Petrus.Impetus
