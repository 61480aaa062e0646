import Petrus.Agenticus.Effect.Model
import Petrus.Lib.Trace

/-!
# The effect gateway

`EffectGateway.execute` looks the effect up, refreshes the fence, executes once and
reconciles an uncertain answer by another lookup. The adapter and the fence source are
outside the program: they answer its requests, raise, or return something of another type.
-/

namespace Petrus.Agenticus.Effect

open Lib

variable {recovery : Option LookupDisposition} {kind : EffectDecisionKind}

/-- What a call of the host's code came back with. -/
inductive Answer (α : Type) where
  | raised
  | foreign
  | value (a : α)
  deriving DecidableEq

/-- The value, unless the call raised or returned something of another type. -/
def Answer.get? {α : Type} : Answer α → Option α
  | raised => none
  | foreign => none
  | value a => some a

/-- How an execution went: whether it applied the effect, and what it came back with. The
gateway sees only the answer. -/
structure Performed where
  applies : Bool
  answer : Answer EffectReceipt
  deriving DecidableEq

inductive Ask where
  | lookup
  | current
  | execute (payload : Json) (fence : EffectFence)
  deriving DecidableEq

def Ask.Answered : Ask → Type
  | lookup => Answer LookupResult
  | current => Answer EffectFence
  | execute _ _ => Performed

abbrev Gateway := Proc Ask Ask.Answered Exc

variable (H : Sha256)

def LookupResult.receipt : LookupResult → Option EffectReceipt
  | applied receipt => some receipt
  | _ => none

def outcome (p : EffectProposal) (fence : EffectFence) (kind : EffectDecisionKind)
    (recovery : Option LookupDisposition) (receipt : Option EffectReceipt) :
    Except Exc EffectDecision := do
  let evidence ← EffectEvidence.of p.proposalId (p.digest H) p.payloadDigest p.target fence
    recovery (receipt.map EffectReceipt.receiptDigest)
  EffectDecision.of kind p.proposalId (p.digest H) (some fence) (some evidence) none

def appliedOrIndeterminate (p : EffectProposal) (fence : EffectFence) (lookup : LookupResult) :
    Except Exc EffectDecision :=
  match lookup.receipt with
  | none => outcome H p fence .indeterminate (some .indeterminate) none
  | some receipt =>
    if receipt.correlates H p = false then
      outcome H p fence .indeterminate (some .indeterminate) none
    else outcome H p fence .alreadyApplied (some .applied) (some receipt)

def reconciled (p : EffectProposal) (fence : EffectFence) (lookup : LookupResult) :
    Except Exc EffectDecision :=
  if lookup.disposition = .applied then appliedOrIndeterminate H p fence lookup
  else outcome H p fence
    (if lookup.disposition = .superseded then .superseded else .indeterminate)
    (some lookup.disposition) none

def lookupDecision (p : EffectProposal) (fence : EffectFence) (lookup : LookupResult) :
    Except Exc (Option EffectDecision) :=
  if lookup.disposition = .safeToRetry then .ok none
  else some <$> reconciled H p fence lookup

def approvalFence (p : EffectProposal) (approval : EffectDecision) : Except Exc EffectFence := do
  require (approval.kind = .approve)
    (typeError "effect gateway requires an approved EffectDecision")
  require (approval.proposalId = p.proposalId ∧ approval.proposalDigest = p.digest H)
    (valueError "effect approval does not match the proposal")
  match approval.fence with
  | none => .error (assertionError "approved effect decision has no fence")
  | some fence => .ok fence

def found (answer : Answer LookupResult) : LookupResult := answer.get?.getD .indeterminate

def lookup : Gateway LookupResult := do
  let answer ← Proc.request Ask.lookup
  return found answer

def current : Gateway (Option EffectFence) := do
  let answer ← Proc.request Ask.current
  return Answer.get? answer

def recover (p : EffectProposal) (fence : EffectFence) : Gateway EffectDecision := do
  let looked ← lookup
  Proc.lift (reconciled H p fence looked)

def executeOnce (p : EffectProposal) (payload : Json) (fence : EffectFence) :
    Gateway EffectDecision := do
  let performed ← Proc.request (Ask.execute payload fence)
  match Answer.get? (Performed.answer performed) with
  | none => recover H p fence
  | some receipt =>
    if receipt.correlates H p = false then recover H p fence
    else Proc.lift (outcome H p fence .execute none (some receipt))

def admitted (p : EffectProposal) (payload : Json) (approval : EffectDecision) :
    Except Exc (EffectFence × Json) := do
  let fence ← approvalFence H p approval
  let copied ← payloadCopy payload
  let digest ← digestPayload H copied
  require (digest = p.payloadDigest)
    (valueError "effect payload digest does not match the proposal")
  return (fence, copied)

def execute (p : EffectProposal) (payload : Json) (approval : EffectDecision) :
    Gateway EffectDecision := do
  let (fence, copied) ← Proc.lift (admitted H p payload approval)
  let looked ← lookup
  match ← Proc.lift (lookupDecision H p fence looked) with
  | some resolved => return resolved
  | none =>
    match ← current with
    | none => Proc.lift (outcome H p fence .indeterminate (some .safeToRetry) none)
    | some observed =>
      if observed ≠ fence then
        Proc.lift (outcome H p fence .superseded (some .superseded) none)
      else executeOnce H p copied fence

/-! ## Decisions never violate their validators -/

variable {H} {p : EffectProposal} {fence : EffectFence}

lemma evidence_of_eq_ok {proposalId : Text} {proposalDigest payloadDigest : Digest}
    {target : TargetIdentity} {receiptDigest : Option Digest}
    (h : checkEvidence proposalId proposalDigest fence recovery receiptDigest = .ok ()) :
    EffectEvidence.of proposalId proposalDigest payloadDigest target fence recovery receiptDigest =
      .ok ⟨proposalId, proposalDigest, payloadDigest, target, fence, recovery,
        receiptDigest, h⟩ := by
  unfold EffectEvidence.of
  split
  · rfl
  · rename_i e he
    rw [h] at he
    cases he

lemma decision_of_eq_ok {proposalId : Text} {proposalDigest : Digest} {f : Option EffectFence}
    {evidence : Option EffectEvidence} {reasonCode : Option Code}
    (h : checkDecision kind proposalId proposalDigest f evidence reasonCode = .ok ()) :
    EffectDecision.of kind proposalId proposalDigest f evidence reasonCode =
      .ok ⟨kind, proposalId, proposalDigest, f, evidence, reasonCode, h⟩ := by
  unfold EffectDecision.of
  split
  · rfl
  · rename_i e he
    rw [h] at he
    cases he

/-- The combinations the gateway decides with. -/
inductive Decides : EffectDecisionKind → Option LookupDisposition → Option EffectReceipt → Prop
  | execute (receipt : EffectReceipt) : Decides .execute none (some receipt)
  | alreadyApplied (receipt : EffectReceipt) :
      Decides .alreadyApplied (some .applied) (some receipt)
  | superseded : Decides .superseded (some .superseded) none
  | retry : Decides .indeterminate (some .safeToRetry) none
  | indeterminate : Decides .indeterminate (some .indeterminate) none

lemma fence_matches (h : fence.matches_ H p = true) :
    fence.proposalId = p.proposalId ∧ fence.proposalDigest = p.digest H := by
  simpa [EffectFence.matches_] using h

lemma outcome_eq_ok {receipt : Option EffectReceipt} (hf : fence.matches_ H p = true)
    (h : Decides kind recovery receipt) :
    ∃ d e, outcome H p fence kind recovery receipt = .ok d ∧ d.kind = kind ∧
      d.evidence = some e ∧ e.receiptDigest = receipt.map EffectReceipt.receiptDigest := by
  obtain ⟨hid, hdigest⟩ := fence_matches hf
  have he : checkEvidence p.proposalId (p.digest H) fence recovery
      (receipt.map EffectReceipt.receiptDigest) = .ok () := by
    cases h <;> simp [checkEvidence, hid, hdigest]
  let evidence : EffectEvidence := ⟨p.proposalId, p.digest H, p.payloadDigest, p.target, fence,
    recovery, receipt.map EffectReceipt.receiptDigest, he⟩
  have hd : checkDecision kind p.proposalId (p.digest H) (some fence) (some evidence) none =
      .ok () := by
    cases h <;> simp [evidence, checkDecision, checkOutcome, checkCorrelation,
      EffectDecisionKind.expectedRecovery, hid, hdigest]
  refine ⟨⟨kind, p.proposalId, p.digest H, some fence, some evidence, none, hd⟩, evidence, ?_, rfl,
    rfl, rfl⟩
  unfold outcome
  rw [evidence_of_eq_ok he, ok_bind, decision_of_eq_ok hd]

def LookupResult.proves (H : Sha256) (p : EffectProposal) (looked : LookupResult)
    (receipt : EffectReceipt) : Prop :=
  looked = .applied receipt ∧ receipt.correlates H p = true

/-- A decision that says the effect is applied carries the digest of the receipt. -/
def EffectDecision.Says (d : EffectDecision) (receipt : EffectReceipt) : Prop :=
  ∃ e, d.evidence = some e ∧ e.receiptDigest = some receipt.receiptDigest

def EffectDecisionKind.isApplied (kind : EffectDecisionKind) : Prop :=
  kind = .execute ∨ kind = .alreadyApplied

lemma outcome_undecided (hf : fence.matches_ H p = true) (h : Decides kind recovery none) :
    ∃ d, outcome H p fence kind recovery none = .ok d ∧ ¬d.kind.isApplied := by
  obtain ⟨d, e, hd, rfl, -, -⟩ := outcome_eq_ok hf h
  refine ⟨d, hd, ?_⟩
  generalize d.kind = kind at h
  cases h <;> simp [EffectDecisionKind.isApplied]

lemma outcome_says {receipt : EffectReceipt} (hf : fence.matches_ H p = true)
    (h : Decides kind recovery (some receipt)) :
    ∃ d, outcome H p fence kind recovery (some receipt) = .ok d ∧ d.Says receipt := by
  obtain ⟨d, e, hd, -, he, hdigest⟩ := outcome_eq_ok hf h
  exact ⟨d, hd, e, he, hdigest⟩

lemma reconciled_eq_ok (hf : fence.matches_ H p = true) (looked : LookupResult) :
    ∃ d, reconciled H p fence looked = .ok d ∧
      (d.kind.isApplied → ∃ receipt, looked.proves H p receipt ∧ d.Says receipt) := by
  have hno {recovery : Option LookupDisposition} {kind : EffectDecisionKind}
      (h : Decides kind recovery none) : ∃ d, outcome H p fence kind recovery none = .ok d ∧
        (d.kind.isApplied → ∃ receipt, looked.proves H p receipt ∧ d.Says receipt) := by
    obtain ⟨d, hd, hkind⟩ := outcome_undecided hf h
    exact ⟨d, hd, fun h => absurd h hkind⟩
  cases looked with
  | applied receipt =>
    by_cases hcorrelates : receipt.correlates H p = true
    · obtain ⟨d, hd, hsays⟩ := outcome_says hf (.alreadyApplied receipt)
      refine ⟨d, ?_, fun _ => ⟨receipt, ⟨rfl, hcorrelates⟩, hsays⟩⟩
      simpa [reconciled, LookupResult.disposition, appliedOrIndeterminate, LookupResult.receipt,
        hcorrelates] using hd
    · simpa [reconciled, LookupResult.disposition, appliedOrIndeterminate, LookupResult.receipt,
        hcorrelates] using hno .indeterminate
  | safeToRetry => exact hno .retry
  | superseded => exact hno .superseded
  | indeterminate => exact hno .indeterminate

/-! ## What a call does -/

abbrev Event := Σ q : Ask, q.Answered

def Event.lookup (a : Answer LookupResult) : Event := ⟨.lookup, a⟩

def Event.current (a : Answer EffectFence) : Event := ⟨.current, a⟩

def Event.execute (payload : Json) (fence : EffectFence) (a : Performed) : Event :=
  ⟨.execute payload fence, a⟩

def Performed.proves (H : Sha256) (p : EffectProposal) (a : Performed) (receipt : EffectReceipt) :
    Prop :=
  a.answer = .value receipt ∧ receipt.correlates H p = true

/-- The courses of an admitted call. -/
inductive Course (H : Sha256) (p : EffectProposal) (fence : EffectFence) (copied : Json) :
    List Event → Except Exc EffectDecision → Prop
  | resolved (a : Answer LookupResult) (h : found a ≠ .safeToRetry) :
      Course H p fence copied [.lookup a] (reconciled H p fence (found a))
  | unknown (a : Answer LookupResult) (c : Answer EffectFence) (h : found a = .safeToRetry)
      (hc : c.get? = none) :
      Course H p fence copied [.lookup a, .current c]
        (outcome H p fence .indeterminate (some .safeToRetry) none)
  | superseded (a : Answer LookupResult) (observed : EffectFence) (h : found a = .safeToRetry)
      (hc : observed ≠ fence) :
      Course H p fence copied [.lookup a, .current (.value observed)]
        (outcome H p fence .superseded (some .superseded) none)
  | executed (a : Answer LookupResult) (e : Performed) (receipt : EffectReceipt)
      (h : found a = .safeToRetry) (hreceipt : e.proves H p receipt) :
      Course H p fence copied [.lookup a, .current (.value fence), .execute copied fence e]
        (outcome H p fence .execute none (some receipt))
  | recovered (a : Answer LookupResult) (e : Performed) (b : Answer LookupResult)
      (h : found a = .safeToRetry) :
      Course H p fence copied
        [.lookup a, .current (.value fence), .execute copied fence e, .lookup b]
        (reconciled H p fence (found b))

lemma disposition_safeToRetry {looked : LookupResult} :
    looked.disposition = .safeToRetry ↔ looked = .safeToRetry := by
  cases looked <;> simp [LookupResult.disposition]

variable {trace : List Event} {r : Except Exc EffectDecision} {copied payload : Json}
  {approval : EffectDecision}

lemma ends_lookup_bind {α : Type} {f : LookupResult → Gateway α} {r : Except Exc α} :
    (lookup >>= f).Ends trace r ↔ ∃ a rest, trace = .lookup a :: rest ∧ (f (found a)).Ends rest r :=
  Proc.ends_ask

lemma ends_current_bind {α : Type} {f : Option EffectFence → Gateway α} {r : Except Exc α} :
    (current >>= f).Ends trace r ↔ ∃ c rest, trace = .current c :: rest ∧ (f c.get?).Ends rest r :=
  Proc.ends_ask

lemma recover_ends (h : (recover H p fence).Ends trace r) :
    ∃ b, trace = [.lookup b] ∧ r = reconciled H p fence (found b) := by
  obtain ⟨b, rest, rfl, hrest⟩ := ends_lookup_bind.mp h
  obtain ⟨rfl, rfl⟩ := Proc.ends_done.mp hrest
  exact ⟨b, rfl, rfl⟩

lemma executeOnce_ends (h : (executeOnce H p copied fence).Ends trace r) :
    ∃ e : Performed,
      (∃ receipt, e.proves H p receipt ∧ trace = [.execute copied fence e] ∧
        r = outcome H p fence .execute none (some receipt)) ∨
      ∃ b, trace = [.execute copied fence e, .lookup b] ∧ r = reconciled H p fence (found b) := by
  obtain ⟨e, rest, rfl, hrest⟩ := Proc.ends_request_bind.mp h
  refine ⟨e, ?_⟩
  have hrecover (h : (recover H p fence).Ends rest r) :
      ∃ b, Event.execute copied fence e :: rest = [.execute copied fence e, .lookup b] ∧
        r = reconciled H p fence (found b) := by
    obtain ⟨b, rfl, hr⟩ := recover_ends h
    exact ⟨b, rfl, hr⟩
  obtain ⟨applies, answer⟩ := e
  cases answer with
  | raised | foreign => exact .inr (hrecover hrest)
  | value receipt =>
    change (if receipt.correlates H p = false then recover H p fence else _ : Gateway _).Ends _ _
      at hrest
    by_cases hcorrelates : receipt.correlates H p = false
    · rw [if_pos hcorrelates] at hrest
      exact .inr (hrecover hrest)
    · rw [if_neg hcorrelates] at hrest
      obtain ⟨rfl, rfl⟩ := Proc.ends_done.mp hrest
      exact .inl ⟨receipt, ⟨rfl, by simpa using hcorrelates⟩, rfl, rfl⟩

lemma execute_ends (h : (execute H p payload approval).Ends trace r) :
    (∃ e, admitted H p payload approval = .error e ∧ trace = [] ∧ r = .error e) ∨
      ∃ fence copied, admitted H p payload approval = .ok (fence, copied) ∧
        (fence.matches_ H p = true → Course H p fence copied trace r) := by
  obtain ⟨⟨fence, copied⟩, hadmitted, hcall⟩ | hrefused := Proc.ends_lift_bind.mp h
  case inr => exact .inl hrefused
  refine .inr ⟨fence, copied, hadmitted, fun hf => ?_⟩
  obtain ⟨a, rest, rfl, hlooked⟩ := ends_lookup_bind.mp hcall
  by_cases hsafe : found a = .safeToRetry
  · have hdecision : lookupDecision H p fence (found a) = .ok none :=
      if_pos (disposition_safeToRetry.mpr hsafe)
    rw [hdecision] at hlooked
    obtain ⟨c, rest, rfl, hobserved⟩ := ends_current_bind.mp hlooked
    cases hc : c.get? with
    | none =>
      rw [hc] at hobserved
      obtain ⟨rfl, rfl⟩ := Proc.ends_done.mp hobserved
      exact .unknown a c hsafe hc
    | some observed =>
      obtain rfl : c = .value observed := by
        cases c <;> simp_all [Answer.get?]
      rw [hc] at hobserved
      by_cases hsame : observed = fence
      · subst hsame
        change (if observed ≠ observed then _ else executeOnce H p copied observed : Gateway _).Ends
          _ _ at hobserved
        rw [if_neg (not_not.mpr rfl)] at hobserved
        obtain ⟨e, ⟨receipt, hreceipt, rfl, rfl⟩ | ⟨b, rfl, rfl⟩⟩ := executeOnce_ends hobserved
        · exact .executed a e receipt hsafe hreceipt
        · exact .recovered a e b hsafe
      · change (if observed ≠ fence then _ else _ : Gateway _).Ends _ _ at hobserved
        rw [if_pos hsame] at hobserved
        obtain ⟨rfl, rfl⟩ := Proc.ends_done.mp hobserved
        exact .superseded a observed hsafe hsame
  · obtain ⟨d, hd, -⟩ := reconciled_eq_ok hf (found a)
    have hdecision : lookupDecision H p fence (found a) = .ok (some d) := by
      rw [lookupDecision, if_neg (fun h => hsafe (disposition_safeToRetry.mp h)), hd]
      rfl
    rw [hdecision] at hlooked
    obtain ⟨rfl, rfl⟩ := Proc.ends_done.mp hlooked
    rw [← hd]
    exact .resolved a hsafe

/-! ## Admission -/

def Approves (H : Sha256) (p : EffectProposal) (approval : EffectDecision) : Prop :=
  approval.kind = .approve ∧ approval.proposalId = p.proposalId ∧
    approval.proposalDigest = p.digest H

lemma approvalFence_eq_ok :
    approvalFence H p approval = .ok fence ↔
      Approves H p approval ∧ approval.fence = some fence := by
  unfold approvalFence Approves
  rw [require_bind_eq_ok, require_bind_eq_ok]
  cases approval.fence <;> simp [and_assoc]

lemma approval_fence (h : Approves H p approval) :
    ∃ fence, approval.fence = some fence ∧ fence.matches_ H p = true := by
  obtain ⟨hkind, hid, hdigest⟩ := h
  have hvalid := approval.valid
  rw [hkind, hid, hdigest] at hvalid
  change (checkApproval _ _ _ >>= fun _ => checkCorrelation _ _ _ _) = _ at hvalid
  obtain ⟨_, happroval, hcorrelation⟩ := bind_eq_ok.mp hvalid
  obtain ⟨fence, hfence⟩ := Option.ne_none_iff_exists'.mp (require_eq_ok.mp happroval).1
  obtain ⟨-, hcorrelation⟩ := require_bind_eq_ok.mp hcorrelation
  obtain ⟨hmatch, -⟩ := require_bind_eq_ok.mp hcorrelation
  refine ⟨fence, hfence, ?_⟩
  simpa [EffectFence.matches_] using hmatch fence hfence

lemma admitted_fence (h : admitted H p payload approval = .ok (fence, copied)) :
    approval.fence = some fence ∧ fence.matches_ H p = true := by
  obtain ⟨f, hf, h⟩ := bind_eq_ok.mp h
  obtain ⟨c, -, h⟩ := bind_eq_ok.mp h
  obtain ⟨d, -, h⟩ := bind_eq_ok.mp h
  obtain ⟨-, h⟩ := require_bind_eq_ok.mp h
  cases h
  obtain ⟨happroves, hfence⟩ := approvalFence_eq_ok.mp hf
  obtain ⟨f', hf', hmatch⟩ := approval_fence happroves
  rw [hfence] at hf'
  cases hf'
  exact ⟨hfence, hmatch⟩

/-- The call is for the proposal: an approval of it, and the payload it was made for. -/
structure CallOf (H : Sha256) (p : EffectProposal) (payload : Json) (approval : EffectDecision) :
    Prop where
  approves : Approves H p approval
  payload : digestPayload H payload = .ok p.payloadDigest

lemma CallOf.admitted (h : CallOf H p payload approval) :
    ∃ fence copied, admitted H p payload approval = .ok (fence, copied) := by
  obtain ⟨fence, hfence, -⟩ := approval_fence h.approves
  obtain ⟨copied, hcopied, -⟩ := (digestPayload_eq_ok H).mp h.payload
  refine ⟨fence, copied, ?_⟩
  unfold Effect.admitted
  rw [approvalFence_eq_ok.mpr ⟨h.approves, hfence⟩, ok_bind, hcopied, ok_bind,
    digestPayload_copied H hcopied, h.payload, ok_bind, require_true rfl]
  rfl

lemma Course.decides (hf : fence.matches_ H p = true) (h : Course H p fence copied trace r) :
    ∃ d, r = .ok d ∧ (d.kind.isApplied → ∃ receipt, receipt.correlates H p = true ∧ d.Says receipt ∧
      (Event.lookup (.value (.applied receipt)) ∈ trace ∨
        ∃ e : Performed, e.answer = .value receipt ∧ Event.execute copied fence e ∈ trace)) := by
  have hshown {a : Answer LookupResult} {receipt : EffectReceipt}
      (h : (found a).proves H p receipt) : a = .value (.applied receipt) := by
    cases a with
    | raised => cases h.1
    | foreign => cases h.1
    | value looked => exact congrArg Answer.value h.1
  cases h with
  | resolved a _ =>
    obtain ⟨d, hd, hsays⟩ := reconciled_eq_ok hf (found a)
    refine ⟨d, hd, fun hkind => ?_⟩
    obtain ⟨receipt, hproves, hsays⟩ := hsays hkind
    refine ⟨receipt, hproves.2, hsays, .inl ?_⟩
    rw [hshown hproves]
    exact List.mem_singleton_self _
  | unknown a c =>
    obtain ⟨d, hd, hno⟩ := outcome_undecided hf .retry
    exact ⟨d, hd, fun hkind => absurd hkind hno⟩
  | superseded a observed =>
    obtain ⟨d, hd, hno⟩ := outcome_undecided hf .superseded
    exact ⟨d, hd, fun hkind => absurd hkind hno⟩
  | executed a e receipt _ hreceipt =>
    obtain ⟨d, hd, hsays⟩ := outcome_says hf (.execute receipt)
    exact ⟨d, hd, fun _ => ⟨receipt, hreceipt.2, hsays, .inr ⟨e, hreceipt.1, by simp⟩⟩⟩
  | recovered a e b _ =>
    obtain ⟨d, hd, hsays⟩ := reconciled_eq_ok hf (found b)
    refine ⟨d, hd, fun hkind => ?_⟩
    obtain ⟨receipt, hproves, hsays⟩ := hsays hkind
    refine ⟨receipt, hproves.2, hsays, .inl ?_⟩
    rw [hshown hproves]
    simp

end Petrus.Agenticus.Effect
