import Petrus.Agenticus.Effect.Gateway

/-!
# Effects are applied at most once

Calls for one proposal follow one another; what the adapter and the fence source answer in
them is one sequence of events. An honest adapter does not deny an effect it applied nor
prove one it did not apply.
-/

namespace Petrus.Agenticus.Effect

open Lib List

def Event.applies : Event → Bool
  | ⟨.lookup, _⟩ => false
  | ⟨.current, _⟩ => false
  | ⟨.execute _ _, e⟩ => Performed.applies e

@[simp] lemma Event.applies_lookup (a : Answer LookupResult) :
    (Event.lookup a).applies = false := rfl

@[simp] lemma Event.applies_current (c : Answer EffectFence) :
    (Event.current c).applies = false := rfl

@[simp] lemma Event.applies_execute (payload : Json) (fence : EffectFence) (e : Performed) :
    (Event.execute payload fence e).applies = e.applies := rfl

def applications (trace : List Event) : Nat := trace.countP Event.applies

/-- What an adapter that applied the effect `n` times may answer. -/
def HonestAt (H : Sha256) (p : EffectProposal) (n : Nat) : Event → Prop
  | ⟨.lookup, a⟩ => (a = Answer.value LookupResult.safeToRetry → n = 0) ∧
      ∀ receipt, a = Answer.value (LookupResult.applied receipt) →
        receipt.correlates H p = true → 0 < n
  | ⟨.current, _⟩ => True
  | ⟨.execute _ _, e⟩ => ∀ receipt, Performed.answer e = .value receipt →
      receipt.correlates H p = true → 0 < n ∨ Performed.applies e = true

/-- The adapter is honest from when it applied the effect `n` times on. -/
def HonestFrom (H : Sha256) (p : EffectProposal) : Nat → List Event → Prop
  | _, [] => True
  | n, e :: trace => HonestAt H p n e ∧ HonestFrom H p (n + if e.applies then 1 else 0) trace

abbrev Honest (H : Sha256) (p : EffectProposal) : List Event → Prop := HonestFrom H p 0

variable {H : Sha256} {p : EffectProposal} {fence : EffectFence} {copied : Json}
  {trace : List Event} {r : Except Exc EffectDecision} {n : Nat}

lemma applications_cons (e : Event) (trace : List Event) :
    applications (e :: trace) = applications trace + if e.applies then 1 else 0 :=
  countP_cons

lemma applications_append (before after : List Event) :
    applications (before ++ after) = applications before + applications after :=
  countP_append

lemma honestFrom_append {before after : List Event} :
    HonestFrom H p n (before ++ after) ↔
      HonestFrom H p n before ∧ HonestFrom H p (n + applications before) after := by
  induction before generalizing n with
  | nil => simp [HonestFrom, applications]
  | cons e before ih =>
    rw [cons_append, HonestFrom, HonestFrom, ih, applications_cons, and_assoc, Nat.add_assoc,
      Nat.add_comm (applications before)]

lemma HonestFrom.at {e : Event} (h : HonestFrom H p n trace) (he : e ∈ trace) :
    ∃ before after, trace = before ++ e :: after ∧ HonestAt H p (n + applications before) e := by
  obtain ⟨before, after, rfl⟩ := append_of_mem he
  exact ⟨before, after, rfl, (honestFrom_append.mp h).2.1⟩

/-! ## One call -/

lemma found_safeToRetry {a : Answer LookupResult} (h : found a = .safeToRetry) :
    a = .value .safeToRetry := by
  cases a with
  | raised => cases h
  | foreign => cases h
  | value looked => exact congrArg Answer.value h

lemma Course.applies_once (h : Course H p fence copied trace r) (hhonest : HonestFrom H p n trace) :
    applications trace = 0 ∨ applications trace = 1 ∧ n = 0 := by
  cases h with
  | resolved | unknown | superseded => exact .inl rfl
  | executed a e _ hsafe | recovered a e b hsafe =>
    have hnone : n = 0 := hhonest.1.1 (found_safeToRetry hsafe)
    cases happlies : e.applies <;> simp [applications, happlies, hnone]

lemma Course.observed {e : Event} (h : Course H p fence copied trace r) (he : e ∈ trace)
    (happlies : e.applies = true) :
    ∃ before after, trace = before ++ e :: after ∧ Event.current (.value fence) ∈ before := by
  have hlookup (a : Answer LookupResult) : e ≠ .lookup a := by
    rintro rfl
    cases happlies
  have hcurrent (c : Answer EffectFence) : e ≠ .current c := by
    rintro rfl
    cases happlies
  cases h with
  | resolved a => simp [hlookup] at he
  | unknown | superseded => simp [hlookup, hcurrent] at he
  | executed a performed =>
    simp only [mem_cons, hlookup, hcurrent, not_mem_nil, false_or, or_false] at he
    subst he
    exact ⟨[.lookup a, .current (.value fence)], [], rfl, by simp⟩
  | recovered a performed b =>
    simp only [mem_cons, hlookup, hcurrent, not_mem_nil, false_or, or_false] at he
    subst he
    exact ⟨[.lookup a, .current (.value fence)], [.lookup b], rfl, by simp⟩

lemma Course.decides_applied (hf : fence.matches_ H p = true)
    (h : Course H p fence copied trace r) (hhonest : HonestFrom H p n trace) {d : EffectDecision}
    (hd : r = .ok d) (hkind : d.kind.isApplied) :
    0 < n + applications trace ∧ ∃ receipt, receipt.correlates H p = true ∧ d.Says receipt := by
  obtain ⟨d', rfl, hsays⟩ := h.decides hf
  cases hd
  obtain ⟨receipt, hcorrelates, hsays, hshown⟩ := hsays hkind
  refine ⟨?_, receipt, hcorrelates, hsays⟩
  rcases hshown with hlooked | ⟨e, he, hexecuted⟩
  · obtain ⟨before, after, rfl, hat⟩ := hhonest.at hlooked
    have hpos := hat.2 receipt rfl hcorrelates
    rw [applications_append]
    omega
  · obtain ⟨before, after, rfl, hat⟩ := hhonest.at hexecuted
    rw [applications_append, applications_cons]
    rcases hat receipt he hcorrelates with hpos | happlies
    · omega
    · rw [Event.applies_execute, if_pos happlies]
      omega

/-! ## Sequences of calls -/

/-- A call with what was asked and answered in it, and its result. -/
structure Call where
  payload : Json
  approval : EffectDecision
  trace : List Event
  result : Except Exc EffectDecision

def Call.Made (H : Sha256) (p : EffectProposal) (c : Call) : Prop :=
  (execute H p c.payload c.approval).Ends c.trace c.result

lemma Call.Made.course {c : Call} (h : c.Made H p) :
    (c.trace = [] ∧ ∃ e, c.result = .error e) ∨
      ∃ fence copied, c.approval.fence = some fence ∧ fence.matches_ H p = true ∧
        Course H p fence copied c.trace c.result := by
  rcases execute_ends h with ⟨e, -, htrace, hresult⟩ | ⟨fence, copied, hadmitted, hcourse⟩
  · exact .inl ⟨htrace, e, hresult⟩
  · obtain ⟨hfence, hmatch⟩ := admitted_fence hadmitted
    exact .inr ⟨fence, copied, hfence, hmatch, hcourse hmatch⟩

lemma Call.Made.applies_once {c : Call} (h : c.Made H p) (hhonest : HonestFrom H p n c.trace) :
    applications c.trace = 0 ∨ applications c.trace = 1 ∧ n = 0 := by
  rcases h.course with ⟨htrace, -⟩ | ⟨fence, copied, -, -, hcourse⟩
  · exact .inl (by rw [htrace]; rfl)
  · exact hcourse.applies_once hhonest

lemma applications_le {calls : List Call} (hmade : ∀ c ∈ calls, c.Made H p)
    (hhonest : HonestFrom H p n (calls.flatMap Call.trace)) (hn : n ≤ 1) :
    n + applications (calls.flatMap Call.trace) ≤ 1 := by
  -- the bound on what was applied before a call is what its first lookup is honest about
  induction calls generalizing n with
  | nil => simpa [applications] using hn
  | cons c calls ih =>
    rw [flatMap_cons] at hhonest ⊢
    obtain ⟨hcall, hrest⟩ := honestFrom_append.mp hhonest
    have honce := (hmade c mem_cons_self).applies_once hcall
    have := ih (fun c hc => hmade c (mem_cons_of_mem _ hc)) hrest (by omega)
    rw [applications_append]
    omega

lemma CallOf.decides {payload : Json} {approval : EffectDecision}
    (h : CallOf H p payload approval) (hends : (execute H p payload approval).Ends trace r) :
    ∃ d, r = .ok d := by
  obtain ⟨fence, copied, hadmitted⟩ := h.admitted
  rcases execute_ends hends with ⟨e, herror, -⟩ | ⟨fence', copied', hadmitted', hcourse⟩
  · rw [hadmitted] at herror
    cases herror
  · obtain ⟨-, hmatch⟩ := admitted_fence hadmitted'
    obtain ⟨d, hd, -⟩ := (hcourse hmatch).decides hmatch
    exact ⟨d, hd⟩

theorem effect_applied_at_most_once (H : Sha256) (p : EffectProposal) (calls : List Call)
    (hmade : ∀ c ∈ calls, c.Made H p) (hhonest : Honest H p (calls.flatMap Call.trace)) :
    applications (calls.flatMap Call.trace) ≤ 1 ∧
    (∀ c ∈ calls, ∀ e ∈ c.trace, e.applies = true → ∃ fence before after,
      c.approval.fence = some fence ∧ c.trace = before ++ e :: after ∧
        Event.current (.value fence) ∈ before) ∧
    (∀ before c after d, calls = before ++ c :: after → c.result = .ok d → d.kind.isApplied →
      0 < applications ((before ++ [c]).flatMap Call.trace) ∧
        ∃ receipt, receipt.correlates H p = true ∧ d.Says receipt) ∧
    ∀ payload approval, CallOf H p payload approval →
      (∀ trace r, (execute H p payload approval).Ends trace r → ∃ d, r = .ok d) ∧
      ∀ answer past, ∃ trace d, (execute H p payload approval).Ends trace (.ok d) ∧
        Proc.Follows answer past trace := by
  refine ⟨?_, ?_, ?_, ?_⟩
  · simpa using applications_le hmade hhonest (Nat.zero_le 1)
  · intro c hc e he happlies
    rcases (hmade c hc).course with ⟨htrace, -⟩ | ⟨fence, copied, hfence, -, hcourse⟩
    · rw [htrace] at he
      cases he
    · obtain ⟨before, after, htrace, hobserved⟩ := hcourse.observed he happlies
      exact ⟨fence, before, after, hfence, htrace, hobserved⟩
  · rintro before c after d rfl hresult hkind
    rw [flatMap_append, flatMap_cons] at hhonest
    obtain ⟨hcall, -⟩ := honestFrom_append.mp (honestFrom_append.mp hhonest).2
    rcases (hmade c (by simp)).course with ⟨-, e, herror⟩ | ⟨fence, copied, -, hmatch, hcourse⟩
    · rw [herror] at hresult
      cases hresult
    · obtain ⟨hpos, hreceipt⟩ := hcourse.decides_applied hmatch hcall hresult hkind
      refine ⟨?_, hreceipt⟩
      rw [flatMap_append, applications_append, flatMap_singleton]
      omega
  · intro payload approval hcall
    refine ⟨fun trace r hends => hcall.decides hends, fun answer past => ?_⟩
    obtain ⟨trace, r, hends, hfollows⟩ :=
      Proc.exists_ends answer (execute H p payload approval) past
    obtain ⟨d, rfl⟩ := hcall.decides hends
    exact ⟨trace, d, hends, hfollows⟩

/-! An execution that applies the effect and raises, unknown to the lookup right after it, and
a second call that finds it applied. -/

def plainDigest : Digest :=
  ⟨"sha256:0000000000000000000000000000000000000000000000000000000000000000", by decide +kernel⟩

def plainSha256 : Sha256 := fun _ => plainDigest

def mergePull : EffectProposal where
  proposalId := ⟨"proposal", by decide +kernel⟩
  effectType := ⟨"pull.merge", by decide +kernel⟩
  effectVersion := ⟨1, Nat.one_pos⟩
  payloadDigest := plainDigest
  target := ⟨⟨"pull", by decide +kernel⟩, ⟨"7", by decide +kernel⟩⟩
  requestedAuthorityClass := ⟨"merge", by decide +kernel⟩

def mergeFence : EffectFence where
  proposalId := mergePull.proposalId
  proposalDigest := plainDigest
  authorityEpoch := ⟨1, Nat.one_pos⟩
  targetHead := ⟨"head", by decide +kernel⟩
  episodeId := ⟨"episode", by decide +kernel⟩
  attachmentId := ⟨"attachment", by decide +kernel⟩
  attachmentEpoch := ⟨1, Nat.one_pos⟩

def mergeReceipt : EffectReceipt :=
  ⟨mergePull.proposalId, plainDigest, plainDigest, mergePull.target, plainDigest⟩

lemma mergeApproval_valid :
    checkDecision .approve mergePull.proposalId plainDigest
      (some mergeFence) none none = .ok () := by
  decide +kernel

def mergeApproval : EffectDecision :=
  ⟨.approve, mergePull.proposalId, plainDigest, some mergeFence, none, none, mergeApproval_valid⟩

lemma mergeEvidence_valid :
    checkEvidence mergePull.proposalId plainDigest mergeFence (some .applied) (some plainDigest) =
      .ok () := by
  decide +kernel

def mergeEvidence : EffectEvidence :=
  ⟨mergePull.proposalId, plainDigest, plainDigest, mergePull.target, mergeFence, some .applied,
    some plainDigest, mergeEvidence_valid⟩

lemma mergeApplied_valid :
    checkDecision .alreadyApplied mergePull.proposalId plainDigest (some mergeFence)
      (some mergeEvidence) none = .ok () := by
  decide +kernel

def mergeApplied : EffectDecision :=
  ⟨.alreadyApplied, mergePull.proposalId, plainDigest, some mergeFence, some mergeEvidence, none,
    mergeApplied_valid⟩

def lostMerge : Call where
  payload := .obj []
  approval := mergeApproval
  trace := [.lookup (.value .safeToRetry), .current (.value mergeFence),
    .execute (.obj []) mergeFence ⟨true, .raised⟩, .lookup .foreign]
  result := outcome plainSha256 mergePull mergeFence .indeterminate (some .indeterminate) none

def foundMerge : Call where
  payload := .obj []
  approval := mergeApproval
  trace := [.lookup (.value (.applied mergeReceipt))]
  result := .ok mergeApplied

lemma admitted_merge :
    admitted plainSha256 mergePull (.obj []) mergeApproval = .ok (mergeFence, .obj []) := by
  decide +kernel

lemma lostMerge_made : lostMerge.Made plainSha256 mergePull := by
  refine Proc.ends_lift_bind.mpr (.inl ⟨_, admitted_merge, ?_⟩)
  refine ends_lookup_bind.mpr ⟨.value .safeToRetry, _, rfl, ?_⟩
  refine ends_current_bind.mpr ⟨.value mergeFence, _, rfl, ?_⟩
  change (if mergeFence ≠ mergeFence then _ else
    executeOnce plainSha256 mergePull (.obj []) mergeFence : Gateway _).Ends _ _
  rw [if_neg (not_not.mpr rfl)]
  exact .ask (.ask (.done _))

lemma foundMerge_made : foundMerge.Made plainSha256 mergePull := by
  refine Proc.ends_lift_bind.mpr (.inl ⟨_, admitted_merge, ?_⟩)
  refine ends_lookup_bind.mpr ⟨.value (.applied mergeReceipt), _, rfl, ?_⟩
  have hdecision : lookupDecision plainSha256 mergePull mergeFence (.applied mergeReceipt) =
      .ok (some mergeApplied) := by
    decide +kernel
  exact Proc.ends_lift_bind.mpr (.inl ⟨_, hdecision, .done _⟩)

lemma merge_honest : Honest plainSha256 mergePull ([lostMerge, foundMerge].flatMap Call.trace) := by
  refine ⟨⟨fun _ => rfl, fun receipt h => ?_⟩, trivial, fun receipt h => ?_,
    ⟨fun h => ?_, fun receipt h => ?_⟩, ⟨fun h => ?_, fun _ _ _ => Nat.one_pos⟩, trivial⟩
  all_goals cases h

theorem effect_applied_at_most_once_merge :
    applications ([lostMerge, foundMerge].flatMap Call.trace) ≤ 1 ∧
      ∃ receipt, receipt.correlates plainSha256 mergePull = true ∧ mergeApplied.Says receipt := by
  have hmade : ∀ c ∈ [lostMerge, foundMerge], c.Made plainSha256 mergePull := by
    intro c hc
    simp only [mem_cons, not_mem_nil, or_false] at hc
    rcases hc with rfl | rfl
    · exact lostMerge_made
    · exact foundMerge_made
  obtain ⟨honce, -, hdecided, -⟩ :=
    effect_applied_at_most_once plainSha256 mergePull [lostMerge, foundMerge] hmade merge_honest
  exact ⟨honce, (hdecided [lostMerge] foundMerge [] mergeApplied rfl rfl (.inr rfl)).2⟩

end Petrus.Agenticus.Effect
