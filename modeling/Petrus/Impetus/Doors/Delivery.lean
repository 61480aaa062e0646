import Petrus.Impetus.Doors.End

/-!
# Deliveries, sealing and wakeups refine commits
-/

namespace Petrus.Impetus

open Lib Motus List Act

variable {D : Definition} {s : Instance} {r : DeliveryRequest} {d : CanonicalDelivery}

/-! ## Dispositions -/

lemma validateDeliverySource_eq_ok {path : NetPath} :
    validateDeliverySource D path = .ok () ↔
      path ∈ D.net.transitionPaths ∧ D.net.isSource path = true := by
  unfold validateDeliverySource
  rw [require_bind_eq_ok, require_eq_ok]

lemma canonicalDeliveryTokens_length {path : NetPath} {position : Nat}
    {supplied : List SuppliedToken} {tokens : List Token}
    (h : canonicalDeliveryTokens path position supplied = .ok tokens) :
    tokens.length = supplied.length := by
  induction supplied generalizing position tokens with
  | nil =>
    cases h
    rfl
  | cons token supplied ih =>
    simp only [canonicalDeliveryTokens, bind_eq_ok] at h
    obtain ⟨data, -, others, hothers, heq⟩ := h
    cases heq
    rw [length_cons, length_cons, ih hothers]

/-- What the shape checks of a delivery establish. -/
structure CanonicalDelivery.Of (d : CanonicalDelivery) (r : DeliveryRequest) : Prop where
  source : r.source.resolve = .ok d.source
  named : ∀ name, r.scope = some (.named name) → name ≠ "" ∧ '\x00' ∉ name.toList
  supplied : r.tokens ≠ []
  canonical : canonicalDeliveryTokens d.source 1 r.tokens = .ok d.tokens
  identity_ne : r.identity ≠ ""
  identity : d.identity = r.identity
  scope : d.scope = r.scope

lemma DeliveryRequest.canonical_of (h : r.canonical = .ok d) : d.Of r := by
  obtain ⟨path, hpath, hrest⟩ := bind_eq_ok.mp h
  have htail : (do
      require (r.tokens ≠ []) (valueError s!"delivery to {path.str} requires at least one token")
      let tokens ← canonicalDeliveryTokens path 1 r.tokens
      require (r.identity ≠ "") (valueError
        s!"delivery to {path.str}: identity must be a non-empty string of the exact built-in type, got {quoted r.identity}")
      return ⟨path, tokens, r.identity, r.scope⟩ : Except Exc CanonicalDelivery) = .ok d ∧
      ∀ name, r.scope = some (.named name) → name ≠ "" ∧ '\x00' ∉ name.toList := by
    split at hrest
    · rename_i name hname
      rw [require_bind_eq_ok] at hrest
      refine ⟨hrest.2, ?_⟩
      intro other hother
      rw [hname] at hother
      cases hother
      exact hrest.1
    · rename_i hname
      exact ⟨hrest, fun name hother => absurd hother (hname name)⟩
  obtain ⟨htail, hnamed⟩ := htail
  rw [require_bind_eq_ok] at htail
  obtain ⟨hsupplied, htail⟩ := htail
  obtain ⟨tokens, htokens, htail⟩ := bind_eq_ok.mp htail
  rw [require_bind_eq_ok] at htail
  obtain ⟨hidentity, heq⟩ := htail
  cases heq
  exact ⟨hpath, hnamed, hsupplied, htokens, hidentity, rfl, rfl⟩

lemma CanonicalDelivery.Of.tokens_ne (h : d.Of r) : d.tokens ≠ [] := by
  intro hnil
  apply h.supplied
  rw [← length_eq_zero_iff, ← canonicalDeliveryTokens_length h.canonical, hnil]
  rfl

lemma disposition_settles (hd : d.Of r)
    (hmem : d.source ∈ D.net.transitionPaths) (hsource : D.net.isSource d.source = true)
    (hfresh : s.acceptedIdentities.get? d.identity = none) {atInstant : Option Instant}
    {fact : AcceptedDeliveryFact} (hidentity : fact.identity = d.identity)
    (hdisposed : Disposed s d.source d.tokens d.identity (s.effective atInstant) fact)
    (answer : DeliveryAnswer) :
    Settles (fun (c : Commit D s) a => a = answer ∧ ∃ k : Dispositioned D s,
        c = .dispositioned k ∧ k.identity = d.identity ∧ k.fact = fact)
      (dispositionPlan fact answer (s.effective atInstant)) dispositionSettle := by
  intro records p hplan
  simp only [dispositionPlan, bind_eq_ok, writerRecords_eq_ok] at hplan
  obtain ⟨_, ⟨rfl, hchecked⟩, heq⟩ := hplan
  cases heq
  let k : Dispositioned D s :=
    { source := d.source, tokens := d.tokens, identity := d.identity, fact
      instant := s.effective atInstant
      instant_le := s.watermark_le_effective atInstant
      source_mem := hmem
      isSource := hsource
      tokens_ne := hd.tokens_ne
      identity_ne := by rw [hd.identity]; exact hd.identity_ne
      fresh := hfresh
      disposed := hdisposed }
  refine ⟨.dispositioned k, answer, ⟨rfl, k, rfl, rfl, rfl⟩, rfl, hchecked, ?_⟩
  change _ = (_, k.after)
  unfold Dispositioned.after
  rw [show k.identity = fact.identity from hidentity.symm]
  rfl

/-! ## A delivery that fires -/

lemma Net.validateBindingShape_delivery {net : Net} {source : NetPath}
    (h : net.isSource source = true) (tokens : List Token) :
    validateBindingShape net (Binding.delivery source tokens) "" = .ok () := by
  have hinputs : net.inputs source = [] := of_decide_eq_true h
  rw [validateBindingShape_ok]
  change shapeMatches ((net.inputs source).filter _) [] = true ∧
    shapeMatches ((net.inputs source).filter _) [] = true
  rw [hinputs]
  simp [shapeMatches]

lemma provenance_delivery (t : NetPath) (scope : Option LifecycleScope) :
    provenance t [] scope = .ok scope := by
  rw [provenance_eq_ok]
  cases scope <;> simp

/-- What the delivery door establishes before it begins a firing. -/
structure Deliverable (D : Definition) (s : Instance) (d : CanonicalDelivery)
    (scope : Option LifecycleScope) : Prop where
  source_mem : d.source ∈ D.net.transitionPaths
  isSource : D.net.isSource d.source = true
  tokens_ne : d.tokens ≠ []
  fresh : s.acceptedIdentities.get? d.identity = none
  armed : s.armedKeys d.source ≠ []
  active : ∀ sc ∈ scope, s.activeScopes.get? sc.name = some sc

def Deliverable.begun {d : CanonicalDelivery} {scope : Option LifecycleScope}
    (h : Deliverable D s d scope) (atInstant : Option Instant) : Begun D s where
  binding := Binding.delivery d.source d.tokens
  invocation := none
  scope := scope
  entries := ⟨[], []⟩
  rest := s.queues
  identity := some d.identity
  instant := s.effective atInstant
  instant_le := s.watermark_le_effective atInstant
  consumed_ok := rfl
  read_ok := rfl
  scope_entries := by simp [BindingEntries.scopes]
  scope_active := h.active
  transition_mem := h.source_mem
  shape := Net.validateBindingShape_delivery h.isSource d.tokens
  impure := (Definition.activityBound_source h.isSource).symm
  initiated := ⟨h.isSource, h.tokens_ne, h.fresh, h.armed⟩

section Fires

variable {scope : Option LifecycleScope} {atInstant : Option Instant}

lemma Deliverable.plan_commit (h : Deliverable D s d scope) {records : List Record}
    {p : BeginPlan} (hplan : beginPlan (Binding.delivery d.source d.tokens) atInstant
      (fun occurrence instant =>
        .externalEventDelivered (deliveredRecord d scope occurrence instant))
      none scope s = .ok (.batch records p)) :
    records = (h.begun atInstant).batch ∧
      p = ⟨(h.begun atInstant).occurrence, (h.begun atInstant).instant⟩ ∧
        ∀ r ∈ records, r.check = .ok () := by
  obtain ⟨-, entries, hentries, sc, hsc, hchecked, heq⟩ := beginPlan_eq_ok.mp hplan
  obtain ⟨rest, hconsumed, hread⟩ := bindingEntries_eq_ok.mp hentries
  have hempty : entries = ⟨[], []⟩ := by
    obtain ⟨consumed, read⟩ := entries
    cases hconsumed
    cases hread
    rfl
  subst hempty
  have hscope : sc = scope := by
    have hsame := hsc.symm.trans (provenance_delivery _ scope)
    exact Except.ok.inj hsame
  subst hscope
  cases heq
  exact ⟨rfl, rfl, hchecked⟩

lemma beginDelivery_atMostOne (hl : Live D s) (h : Deliverable D s d scope) (store : Store) :
    AtMostOne (fun (c : Commit D s) answer => c = .begun (h.begun atInstant) ∧
      answer = .accepted ⟨s.instanceId, d.source, d.identity, s.nextOccurrence⟩)
        (beginDelivery store d scope atInstant s) := by
  unfold beginDelivery beginOccurrence
  cases hplan : beginPlan (Binding.delivery d.source d.tokens) atInstant
      (fun occurrence instant =>
        .externalEventDelivered (deliveredRecord d scope occurrence instant))
      none scope s with
  | error e =>
    rw [bind_error_apply (door_raised hplan)]
    exact .still _
  | ok plan =>
    cases plan with
    | answer b =>
      obtain ⟨-, _, -, _, -, -, heq⟩ := beginPlan_eq_ok.mp hplan
      cases heq
    | batch records p =>
      obtain ⟨rfl, rfl, hchecked⟩ := h.plan_commit hplan
      cases hstore : store s.history (h.begun atInstant).batch with
      | some e =>
        rw [bind_error_apply (door_refused hplan hstore)]
        exact .still _
      | none =>
        have hsettle := beginSettle_ok hl (h.begun atInstant)
        rw [bind_ok_apply (door_settled hplan hstore hsettle)]
        exact .moved _ (.begun (h.begun atInstant)) ⟨rfl, rfl⟩ hchecked

end Fires

/-! ## The delivery doors -/

def Accepts (identity : String) (c : Commit D s) : Prop :=
  (∃ k : Begun D s, c = .begun k ∧ k.identity = some identity) ∨
    ∃ k : Dispositioned D s, c = .dispositioned k ∧ k.identity = identity

lemma acceptFresh_atMostOne (hl : Live D s) (hd : d.Of r)
    (hfresh : s.acceptedIdentities.get? d.identity = none) (store : Store)
    (atInstant : Option Instant) :
    AtMostOne (fun (c : Commit D s) _ => Accepts d.identity c)
      (acceptFresh D store d atInstant s) := by
  unfold acceptFresh
  rw [get_bind_apply]
  apply AtMostOne.lift_bind
  intro _ hvalid
  obtain ⟨hmem, hsource⟩ := validateDeliverySource_eq_ok.mp hvalid
  have hdisposes : ∀ {fact : AcceptedDeliveryFact} (answer : DeliveryAnswer),
      fact.identity = d.identity →
      Disposed s d.source d.tokens d.identity (s.effective atInstant) fact →
      AtMostOne (fun (c : Commit D s) _ => Accepts d.identity c)
        (door (commit store (fun _ => dispositionPlan fact answer (s.effective atInstant))
          dispositionSettle) s) := by
    intro fact answer hidentity hdisposed
    refine (door_atMostOne store
      (disposition_settles hd hmem hsource hfresh hidentity hdisposed answer)).mono ?_
    rintro c _ ⟨-, k, rfl, hk, -⟩
    exact .inr ⟨k, rfl, hk⟩
  have hfires : ∀ scope : Option LifecycleScope,
      (∀ sc ∈ scope, s.activeScopes.get? sc.name = some sc) →
      AtMostOne (fun (c : Commit D s) _ => Accepts d.identity c) ((do
        Act.lift (require (s.armedKeys d.source ≠ []) (valueError
          s!"cannot deliver to source transition {d.source.str}: no armed delivery registration"))
        beginDelivery store d scope atInstant : Door DeliveryAnswer) s) := by
    intro scope hactive
    apply AtMostOne.lift_bind
    intro _ harmed
    have h : Deliverable D s d scope :=
      ⟨hmem, hsource, hd.tokens_ne, hfresh, require_eq_ok.mp harmed, hactive⟩
    refine (beginDelivery_atMostOne hl h store).mono ?_
    rintro c _ ⟨rfl, -⟩
    exact .inl ⟨_, rfl, rfl⟩
  cases hscope : d.scope with
  | none => exact hfires none (by simp)
  | some target =>
    cases target with
    | named name =>
      exact hdisposes _ rfl (.named name (hd.named name (by rw [← hd.scope]; exact hscope)))
    | exact scope =>
      by_cases hactive : s.activeScopes.get? scope.name = some scope
      · simp only [routing, if_pos hactive]
        exact hfires (some scope) (by simpa using hactive)
      · by_cases hspent : scope.generation ≤ (s.scopeGenerations.get? scope.name).getD 0
        · simp only [routing, if_neg hactive, if_pos hspent]
          exact hdisposes _ rfl (.dropped scope hactive hspent)
        · simp only [routing, if_neg hactive, if_neg hspent]
          exact hdisposes _ rfl (.unknown scope hactive (Nat.lt_of_not_le hspent))

lemma acceptDelivery_atMostOne (hl : Live D s) (store : Store) (r : DeliveryRequest) :
    AtMostOne (fun (c : Commit D s) _ => Accepts r.identity c) (acceptDelivery D store r s) := by
  unfold acceptDelivery
  apply AtMostOne.lift_bind
  intro d hcanonical
  have hd := DeliveryRequest.canonical_of hcanonical
  rw [get_bind_apply]
  cases hprior : s.acceptedIdentities.get? d.identity with
  | some prior => exact AtMostOne.lift_bind fun _ _ => .still _
  | none =>
    rw [← hd.identity]
    exact acceptFresh_atMostOne hl hd hprior store r.atInstant

lemma deliveredOccurrence_eq_ok {a : AcceptedDelivery} {o : FiringOccurrence}
    (h : deliveredOccurrence D s a = .ok o) : s.inFlight.get? a.occurrence = some o := by
  unfold deliveredOccurrence at h
  rw [require_bind_eq_ok] at h
  obtain ⟨-, h⟩ := h
  cases hget : s.inFlight.get? a.occurrence with
  | none =>
    simp only [hget] at h
    split_ifs at h
  | some o' =>
    simp only [hget, bind_eq_ok] at h
    obtain ⟨_, -, _, -, _, -, heq⟩ := h
    cases heq
    rfl

lemma completeDelivery_chain (hl : Live D s) (store : Store) (a : AcceptedDelivery)
    (atInstant : Option Instant) :
    Chain D (fun u c => ∃ occurrence, Executes occurrence u c) s
      (completeDelivery D store a atInstant s).2 := by
  unfold completeDelivery
  rw [get_bind_apply]
  apply Chain.bind .refl
  intro o t hlift
  obtain ⟨hvalid, rfl⟩ := Prod.mk.inj hlift
  have ho := deliveredOccurrence_eq_ok hvalid
  have hstored : s.inFlight.get? o.id = some o := by
    rw [(hl.flight.flying _ o ho).1]
    exact ho
  exact (execute_chain hl store hstored atInstant).weaken fun _ _ h => ⟨o, h⟩

/-! ## Sealing and waking -/

lemma seal_atMostOne (hl : Live D s) (store : Store) (source : Destination)
    (atInstant : Option Instant) : AtMostOne (fun (c : Commit D s) _ => ∃ k : Sealed D s,
      c = .sealed k ∧ k.keys = (s.armedKeys k.source).insertionSort (· ≤ ·))
        (sealSource D store source atInstant s) := by
  apply door_atMostOne
  intro records p hplan
  obtain ⟨path, hpath, hplan⟩ := bind_eq_ok.mp hplan
  rw [require_bind_eq_ok, require_bind_eq_ok, require_bind_eq_ok] at hplan
  simp only [bind_eq_ok, writerRecords_eq_ok] at hplan
  obtain ⟨hmem, hsource, harmed, _, ⟨rfl, hchecked⟩, heq⟩ := hplan
  cases heq
  have hperm := perm_insertionSort (· ≤ ·) (s.armedKeys path)
  let k : Sealed D s :=
    { source := path, keys := (s.armedKeys path).insertionSort (· ≤ ·)
      instant := s.effective atInstant
      instant_le := s.watermark_le_effective atInstant
      source_mem := hmem
      isSource := hsource
      keys_ne := fun hnil => harmed (by
        rw [hnil] at hperm
        exact hperm.nil_eq.symm)
      keys_nodup := hperm.nodup_iff.mpr (hl.armed.nodup path)
      keys_armed := fun key hkey => hperm.mem_iff.mp hkey }
  have hleft : (s.armedKeys path).filter (fun key => key ∉ k.keys) = [] := by
    rw [filter_eq_nil_iff]
    intro key hkey
    rw [decide_eq_true_eq, not_not]
    exact hperm.mem_iff.mpr hkey
  refine ⟨.sealed k, (), ⟨k, rfl, rfl⟩, rfl, hchecked, ?_⟩
  change _ = (_, k.after)
  unfold Sealed.after
  rw [show (s.armedKeys k.source).filter (fun key => key ∉ k.keys) = [] from hleft]
  rfl

lemma wake_atMostOne (store : Store) (atInstant : Instant) :
    AtMostOne (fun (c : Commit D s) _ => ∃ k : Woken s, c = .woken k)
      (wake D store atInstant s) := by
  apply door_atMostOne
  intro records record hplan
  obtain ⟨pending, -, hplan⟩ := bind_eq_ok.mp hplan
  cases pending with
  | none => cases hplan
  | some mature =>
    dsimp only at hplan
    split_ifs at hplan with hlate
    · cases hplan
    · simp only [bind_eq_ok, writerRecords_eq_ok] at hplan
      obtain ⟨_, ⟨rfl, hchecked⟩, heq⟩ := hplan
      cases heq
      let k : Woken s := ⟨mature, s.effective (some atInstant), s.watermark_le_effective _,
        Int.not_lt.mp hlate⟩
      exact ⟨.woken k, _, ⟨k, rfl⟩, rfl, hchecked, rfl⟩

end Petrus.Impetus
