import Petrus.Impetus.Doors.Passthrough
import Petrus.Impetus.Replay.Fidelity
import Petrus.Impetus.Replay.Selections

/-!
# Runs

Every call on an instance, what it leaves of the instance whether it returns or
raises, and the states whole runs reach. A restart is a call like the others: the
instance is rebuilt from its history, and stays as it was when that is refused.
-/

namespace Petrus.Impetus

open Lib Motus

variable {D : Definition} {s t : Instance}

inductive Op where
  | begin_ (binding : Binding) (atInstant : Option Instant)
  | recordActivityCompletion (occurrence : FiringOccurrence) (result : Payload)
      (atInstant : Option Instant)
  | recordActivityFailure (occurrence : FiringOccurrence) (failure : ActivityFailure)
      (atInstant : Option Instant)
  | complete (occurrence : FiringOccurrence) (result : Option HandlerResult)
      (atInstant : Option Instant)
  | fail (occurrence : FiringOccurrence) (report : FailureReport) (atInstant : Option Instant)
  | step (atInstant : Option Instant)
  | acceptDelivery (r : DeliveryRequest)
  | completeDelivery (a : AcceptedDelivery) (atInstant : Option Instant)
  | sealSource (source : Destination) (atInstant : Option Instant)
  | wake (atInstant : Instant)
  | openScope (name : String) (atInstant : Option Instant)
  | closeScope (scope : LifecycleScope) (atInstant : Option Instant)
  | resetScope (scope : LifecycleScope) (atInstant : Option Instant)
  | resume

def Op.perform (D : Definition) (store : Store) (s : Instance) : Op → Instance
  | .begin_ binding atInstant => (Impetus.begin_ D store binding atInstant s).2
  | .recordActivityCompletion occurrence result atInstant =>
    (Impetus.recordActivityCompletion store occurrence result atInstant s).2
  | .recordActivityFailure occurrence failure atInstant =>
    (Impetus.recordActivityFailure store occurrence failure atInstant s).2
  | .complete occurrence result atInstant =>
    (Impetus.complete D store occurrence result atInstant s).2
  | .fail occurrence report atInstant => (Impetus.fail D store occurrence report atInstant s).2
  | .step atInstant => (Impetus.step D store atInstant s).2
  | .acceptDelivery r => (Impetus.acceptDelivery D store r s).2
  | .completeDelivery a atInstant => (Impetus.completeDelivery D store a atInstant s).2
  | .sealSource source atInstant => (Impetus.sealSource D store source atInstant s).2
  | .wake atInstant => (Impetus.wake D store atInstant s).2
  | .openScope name atInstant => (Impetus.openScope store name atInstant s).2
  | .closeScope scope atInstant => (Impetus.closeScope store scope atInstant s).2
  | .resetScope scope atInstant => (Impetus.resetScope store scope atInstant s).2
  | .resume =>
    match Impetus.resume D s.history with
    | .ok t => t
    | .error _ => s

/-- `t` is reached from `s` by calls that meet `allowed`; each call has its own store. -/
inductive Runs (D : Definition) (allowed : Instance → Op → Prop) (s : Instance) : Instance → Prop
  | refl : Runs D allowed s s
  | perform {t : Instance} (h : Runs D allowed s t) (store : Store) (op : Op)
      (ok : allowed t op) : Runs D allowed s (op.perform D store t)

def Created (D : Definition) (s : Instance) : Prop :=
  ∃ (m : Marking) (instanceId : String) (instant : Instant) (store : Store),
    Instance.create D m instanceId instant store = .ok s

/-- Reached from a new instance by calls that meet `allowed`. -/
def ReachableBy (D : Definition) (allowed : Instance → Op → Prop) (t : Instance) : Prop :=
  ∃ s, Created D s ∧ Runs D allowed s t

def Reachable (D : Definition) (t : Instance) : Prop := ReachableBy D (fun _ _ => True) t

/-! ## Calls are commits -/

/-- The calls that may begin a scheduled firing. -/
def Op.chooses : Op → Bool
  | .begin_ .. | .step _ | .resume => true
  | _ => false

lemma FailsWith.quiet {id : Nat} {c : Commit D s} (h : FailsWith id s c) : c.chooses = [] := by
  cases c with
  | begun c => exact h.elim
  | _ => rfl

lemma Executes.quiet {o : FiringOccurrence} {c : Commit D s} (h : Executes o s c) :
    c.chooses = [] := by
  rcases h with h | ⟨k, _, _, rfl, _⟩
  · exact FailsWith.quiet h
  · rfl

lemma Op.perform_chain (hs : Reached D s) (store : Store) (op : Op) (hop : op ≠ .resume)
    {Q : ∀ u, Commit D u → Prop} (hexact : ∀ u c, Reached D u → c.Exact →
      (op.chooses = false → c.chooses = []) → Q u c)
    (hcomplete : ∀ occurrence result atInstant (k : Completed D s),
      op = .complete occurrence result atInstant → CompletesWith occurrence result k →
        Q s (.completed k)) : Chain D Q s (op.perform D store s) := by
  have hl := hs.live
  have hone : ∀ {ε α : Type} {P : Commit D s → α → Prop} {r : Except ε α × Instance},
      AtMostOne P r → (∀ c a, P c a → c.Exact ∧ (op.chooses = false → c.chooses = [])) →
        Chain D Q s r.2 :=
    fun h hp => h.chain fun c a hc => hexact s c hs (hp c a hc).1 (hp c a hc).2
  have hmany : ∀ {P : ∀ u, Commit D u → Prop} {t : Instance},
      Chain D P s t → (∀ u c, Reached D u → P u c → c.Exact) →
        (∀ u c, P u c → op.chooses = false → c.chooses = []) → Chain D Q s t :=
    fun h hp hq => (h.mono hs fun u c hu hc => hexact u c hu (hp u c hu hc) (hq u c hc)).1
  cases op with
  | begin_ binding atInstant =>
    refine hone (begin_atMostOne hl store binding atInstant) ?_
    rintro c _ ⟨k, rfl, -⟩
    exact ⟨trivial, Bool.noConfusion⟩
  | recordActivityCompletion occurrence result atInstant =>
    refine hone (recordActivityCompletion_atMostOne store occurrence result atInstant) ?_
    rintro c _ ⟨json, -, ⟨k, rfl, -⟩ | ⟨k, rfl, -⟩⟩ <;> exact ⟨trivial, fun _ => rfl⟩
  | recordActivityFailure occurrence failure atInstant =>
    refine hone (recordActivityFailure_atMostOne store occurrence failure atInstant) ?_
    rintro c _ (⟨k, rfl, -⟩ | ⟨k, rfl, -⟩) <;> exact ⟨trivial, fun _ => rfl⟩
  | complete occurrence result atInstant =>
    refine (complete_atMostOne hl store occurrence result atInstant).chain ?_
    rintro c _ ⟨k, rfl, hk⟩
    exact hcomplete occurrence result atInstant k rfl hk
  | fail occurrence report atInstant =>
    exact hmany (fail_chain hl store occurrence report atInstant) (fun _ _ hu hc => hc.exact hu)
      fun _ _ hc _ => FailsWith.quiet hc
  | step atInstant =>
    refine hmany (step_chain hl store atInstant) ?_ fun _ _ _ => Bool.noConfusion
    rintro u c hu (⟨k, rfl⟩ | ⟨occurrence, hc⟩)
    · trivial
    · exact hc.exact hu
  | acceptDelivery r =>
    refine hone (acceptDelivery_atMostOne hl store r) ?_
    rintro c _ (⟨k, rfl, hk⟩ | ⟨k, rfl, -⟩)
    · refine ⟨trivial, fun _ => ?_⟩
      change (if k.identity = none then _ else _) = _
      rw [if_neg (by rw [hk]; simp)]
    · exact ⟨trivial, fun _ => rfl⟩
  | completeDelivery a atInstant =>
    refine hmany (completeDelivery_chain hl store a atInstant) ?_ ?_
    · rintro u c hu ⟨occurrence, hc⟩
      exact hc.exact hu
    · rintro u c ⟨occurrence, hc⟩ -
      exact Executes.quiet hc
  | sealSource source atInstant =>
    refine hone (seal_atMostOne hl store source atInstant) ?_
    rintro c _ ⟨k, rfl, -⟩
    exact ⟨trivial, fun _ => rfl⟩
  | wake atInstant =>
    refine hone (wake_atMostOne store atInstant) ?_
    rintro c _ ⟨k, rfl⟩
    exact ⟨trivial, fun _ => rfl⟩
  | openScope name atInstant =>
    refine hone (openScope_atMostOne store name atInstant) ?_
    rintro c _ ⟨k, rfl, -⟩
    exact ⟨trivial, fun _ => rfl⟩
  | closeScope scope atInstant =>
    refine hone (closeScope_atMostOne hl store scope atInstant) ?_
    rintro c _ ⟨k, rfl, -⟩
    exact ⟨trivial, fun _ => rfl⟩
  | resetScope scope atInstant =>
    refine hone (resetScope_atMostOne hl store scope atInstant) ?_
    rintro c _ ⟨k, rfl, -⟩
    exact ⟨trivial, fun _ => rfl⟩
  | resume => exact absurd rfl hop

lemma Op.perform_resume (hs : Reached D s) (store : Store) :
    Op.perform D store s .resume = s ∨ ∃ active terminal, Dict.Same active s.activeScopes ∧
      Dict.Same terminal s.terminalActivity ∧
        Op.perform D store s .resume = s.reorder active terminal := by
  simp only [Op.perform]
  cases hresume : Impetus.resume D s.history with
  | error e => exact .inl rfl
  | ok t =>
    obtain ⟨-, active, terminal, hactive, hterminal, rfl⟩ := hs.of_resume hresume
    exact .inr ⟨active, terminal, hactive, hterminal, rfl⟩

/-! ## What runs reach -/

/-- `t` is reached from `s` by commits and restarts. -/
inductive Path (D : Definition) (s : Instance) : Instance → Prop
  | refl : Path D s s
  | commit {t : Instance} (h : Path D s t) (c : Commit D t)
      (checked : ∀ r ∈ c.batch, r.check = .ok ()) : Path D s c.after
  | reordered {t : Instance} (h : Path D s t) {active : Dict String LifecycleScope}
      {terminal : Dict Nat Outcome} (hactive : active.Same t.activeScopes)
      (hterminal : terminal.Same t.terminalActivity) : Path D s (t.reorder active terminal)

lemma Path.trans {u : Instance} (h : Path D s t) (h' : Path D t u) : Path D s u := by
  induction h' with
  | refl => exact h
  | commit _ c checked ih => exact ih.commit c checked
  | reordered _ hactive hterminal ih => exact ih.reordered hactive hterminal

lemma Path.reached (h : Path D s t) (hs : Reached D s) : Reached D t := by
  induction h with
  | refl => exact hs
  | commit _ c checked ih => exact ih.commit c checked
  | reordered _ hactive hterminal ih => exact ih.reordered hactive hterminal

lemma Chain.path {P : ∀ u, Commit D u → Prop} (h : Chain D P s t) : Path D s t := by
  induction h with
  | refl => exact .refl
  | commit _ c _ checked ih => exact ih.commit c checked

lemma Op.perform_path (hs : Reached D s) (store : Store) (op : Op) :
    Path D s (op.perform D store s) := by
  by_cases hop : op = .resume
  · subst hop
    rcases Op.perform_resume hs store with hsame | ⟨active, terminal, hactive, hterminal, hsame⟩
    · rw [hsame]
      exact .refl
    · rw [hsame]
      exact Path.refl.reordered hactive hterminal
  · exact (Op.perform_chain hs store op hop (Q := fun _ _ => True)
      (fun _ _ _ _ _ => trivial) (fun _ _ _ _ _ _ => trivial)).path

lemma Runs.path {allowed : Instance → Op → Prop} (hs : Reached D s) (h : Runs D allowed s t) :
    Path D s t := by
  induction h with
  | refl => exact .refl
  | perform _ store op _ ih => exact ih.trans (Op.perform_path (ih.reached hs) store op)

lemma Created.reached (h : Created D s) : Reached D s := by
  obtain ⟨m, instanceId, instant, store, hcreate⟩ := h
  obtain ⟨hconstructible, -, rfl⟩ := create_eq_ok.mp hcreate
  exact .created hconstructible

lemma ReachableBy.reached {allowed : Instance → Op → Prop} (h : ReachableBy D allowed t) :
    Reached D t := by
  obtain ⟨s, hcreated, hruns⟩ := h
  exact (hruns.path hcreated.reached).reached hcreated.reached

/-! ## Runs that keep to the passthrough -/

/-- A `complete` call ends an occurrence of a source without a handler only with what the
built-in passthrough deposits, and changes no registration. -/
def Op.KeepsPassthrough (D : Definition) (s : Instance) : Op → Prop
  | .complete occurrence (some envelope) _ => ∀ o, s.inFlight.get? occurrence.id = some o →
      D.net.isSource o.binding.transition = true →
      D.declaresHandler o.binding.transition = false →
      envelope.closes = [] ∧ envelope.opens = [] ∧ ∀ effects,
        completeFiring D.net o.binding.transition envelope.tokens = .ok effects →
          productionSpelling effects = productionSpelling
            (passthrough o.binding (D.net.outputs o.binding.transition)).entries
  | _ => True

lemma Chain.exactly (h : Chain D (fun _ c => c.Exact) s t) (hs : ReachedExactly D s) :
    ReachedExactly D t := by
  induction h with
  | refl => exact hs
  | commit _ c exact_ checked ih => exact ih.commit c exact_ checked

lemma Op.perform_exactly (hs : ReachedExactly D s) (store : Store) (op : Op)
    (hop : op.KeepsPassthrough D s) : ReachedExactly D (op.perform D store s) := by
  by_cases hresume : op = .resume
  · subst hresume
    rcases Op.perform_resume hs.reached store with
      hsame | ⟨active, terminal, hactive, hterminal, hsame⟩
    · rw [hsame]
      exact hs
    · rw [hsame]
      exact hs.reordered hactive hterminal
  · refine (Op.perform_chain hs.reached store op hresume (fun _ _ _ hc _ => hc) ?_).exactly hs
    intro occurrence result atInstant k heq hk
    subst heq
    apply hk.exact hs.reached
    intro hsource hdeclares envelope henvelope
    subst henvelope
    refine hop k.occurrence ?_ hsource hdeclares
    rw [← (sameFiring hk.equals).id]
    exact k.inFlight

lemma ReachableBy.exactly (h : ReachableBy D (Op.KeepsPassthrough D) t) :
    ReachedExactly D t := by
  obtain ⟨s, hcreated, hruns⟩ := h
  induction hruns with
  | refl =>
    obtain ⟨m, instanceId, instant, store, hcreate⟩ := hcreated
    obtain ⟨hconstructible, -, rfl⟩ := create_eq_ok.mp hcreate
    exact .created hconstructible
  | perform _ store op ok ih => exact Op.perform_exactly ih store op ok

end Petrus.Impetus
