import Petrus.Lib.Fold
import Petrus.Lib.JsonText
import Petrus.Lib.Quote

/-!
# Effects: proposals, fences, receipts and decisions

Strict values for proposing, fencing and evidencing external effects. Texts, codes and
digests carry the checks of their fields; evidence and decisions carry the combinations
their constructors admit. SHA-256 is a parameter.
-/

namespace Petrus.Agenticus.Effect

open Lib

/-! ## Texts, codes, digests -/

def isLower (c : Char) : Bool := decide (97 ≤ c.toNat ∧ c.toNat ≤ 122)

def isDigit (c : Char) : Bool := decide (48 ≤ c.toNat ∧ c.toNat ≤ 57)

/-- `[a-z0-9]+(?:[._-][a-z0-9]+)*`; `fresh` right after a separator. -/
def isParts : Bool → List Char → Bool
  | fresh, [] => !fresh
  | fresh, c :: cs =>
    if isLower c || isDigit c then isParts false cs
    else if c = '.' ∨ c = '_' ∨ c = '-' then !fresh && isParts true cs
    else false

/-- `[a-z][a-z0-9]*(?:[._-][a-z0-9]+)*`. -/
def isCode (s : String) : Bool :=
  boundedText 256 s && s.toList.head?.any isLower && isParts true s.toList

def isHex (c : Char) : Bool := isDigit c || decide (97 ≤ c.toNat ∧ c.toNat ≤ 102)

/-- `sha256:[0-9a-f]{64}`. -/
def isDigest (s : String) : Bool :=
  decide (s.toList.take 7 = "sha256:".toList) && decide (s.toList.length = 71) &&
    (s.toList.drop 7).all isHex

abbrev Text := {s : String // boundedText 256 s = true}

abbrev Code := {s : String // isCode s = true}

abbrev Digest := {s : String // isDigest s = true}

abbrev PositiveInteger := {n : Nat // 0 < n}

/-! ## Proposals -/

structure TargetIdentity where
  targetType : Code
  targetId : Text
  deriving DecidableEq

def TargetIdentity.toData (t : TargetIdentity) : Json :=
  .obj [("target_type", .str t.targetType.1), ("target_id", .str t.targetId.1)]

structure EffectProposal where
  proposalId : Text
  effectType : Code
  effectVersion : PositiveInteger
  payloadDigest : Digest
  target : TargetIdentity
  requestedAuthorityClass : Code
  deriving DecidableEq

def schemaVersion : Nat := 1

def EffectProposal.toData (p : EffectProposal) : Json :=
  .obj [("schema_version", .num (.int schemaVersion)), ("proposal_id", .str p.proposalId.1),
    ("effect_type", .str p.effectType.1), ("effect_version", .num (.int p.effectVersion.1)),
    ("payload_digest", .str p.payloadDigest.1), ("target", p.target.toData),
    ("requested_authority_class", .str p.requestedAuthorityClass.1)]

mutual

def strictJson : Json → Bool
  | .num (.int _) => true
  | .num _ => false
  | .arr items => strictItems items
  | .obj members => strictMembers members
  | _ => true

def strictItems : List Json → Bool
  | [] => true
  | a :: as => strictJson a && strictItems as

def strictMembers : List (String × Json) → Bool
  | [] => true
  | (_, a) :: ms => strictJson a && strictMembers ms

end

lemma strictItems_iff (items : List Json) :
    strictItems items = true ↔ ∀ a ∈ items, strictJson a = true := by
  induction items with
  | nil => simp [strictItems]
  | cons a as ih => simp [strictItems, ih]

lemma strictMembers_iff (ms : List (String × Json)) :
    strictMembers ms = true ↔ ∀ m ∈ ms, strictJson m.2 = true := by
  induction ms with
  | nil => simp [strictMembers]
  | cons m ms ih => simp [strictMembers, ih]

lemma strictJson_spelling {a : Json} (h : strictJson a = true) :
    strictJson a.spelling = true := by
  induction a using Json.members_induction with
  | scalar a hscalar =>
    have hspelling : a.spelling = a := Json.normal_scalar hscalar
    rwa [hspelling]
  | array items ih =>
    rw [Json.spelling, Json.normal, Json.normalItems_eq, strictJson, strictItems_iff]
    intro b hb
    obtain ⟨a, ha, rfl⟩ := List.mem_map.mp hb
    exact ih a ha ((strictItems_iff items).mp h a ha)
  | object ms ih =>
    rw [Json.spelling, Json.normal, strictJson, strictMembers_iff]
    rintro ⟨k, b⟩ hb
    obtain ⟨a, ha, rfl⟩ := Json.mem_normalMembers.mp ((Json.sortMembers_perm _).subset hb)
    exact ih (k, a) ha ((strictMembers_iff ms).mp h (k, a) ha)

def canonical (value : Json) : String := value.spelling.text fun _ => ""

def payloadCopy (payload : Json) : Except Exc Json :=
  match payload with
  | .obj members => do
    require (strictMembers members = true) (typeError
      "effect payload must contain only strict JSON values; floating-point and extended Python values are forbidden")
    return (Json.obj members).spelling
  | _ => .error (typeError "effect payload must be a strict JSON object")

abbrev Sha256 := String → Digest

variable (H : Sha256)

def digestPayload (payload : Json) : Except Exc Digest := do
  let copied ← payloadCopy payload
  return H (canonical copied)

lemma payloadCopy_copied {payload copied : Json} (h : payloadCopy payload = .ok copied) :
    payloadCopy copied = .ok copied := by
  cases payload with
  | obj members =>
    obtain ⟨hstrict, hcopied⟩ := require_bind_eq_ok.mp h
    obtain rfl : (Json.obj members).spelling = copied := Except.ok.inj hcopied
    have hspelled : (Json.obj members).spelling.spelling = (Json.obj members).spelling :=
      Json.spelling_spelling _
    have hstrict' := strictJson_spelling (a := .obj members) hstrict
    rw [Json.spelling, Json.normal] at hspelled hstrict' ⊢
    rw [strictJson] at hstrict'
    rw [payloadCopy, require_bind hstrict']
    exact congrArg Except.ok hspelled
  | _ => cases h

lemma digestPayload_eq_ok {payload : Json} {digest : Digest} :
    digestPayload H payload = .ok digest ↔
      ∃ copied, payloadCopy payload = .ok copied ∧ H (canonical copied) = digest := by
  unfold digestPayload
  rw [bind_eq_ok]
  simp only [except_pure, Except.ok.injEq]

lemma digestPayload_copied {payload copied : Json} (h : payloadCopy payload = .ok copied) :
    digestPayload H copied = digestPayload H payload := by
  unfold digestPayload
  rw [h, payloadCopy_copied h]

def EffectProposal.digest (p : EffectProposal) : Digest := H (canonical p.toData)

/-! ## Fences, receipts and lookups -/

structure EffectFence where
  proposalId : Text
  proposalDigest : Digest
  authorityEpoch : PositiveInteger
  targetHead : Text
  episodeId : Text
  attachmentId : Text
  attachmentEpoch : PositiveInteger
  deriving DecidableEq

def EffectFence.matches_ (fence : EffectFence) (p : EffectProposal) : Bool :=
  fence.proposalId = p.proposalId && fence.proposalDigest = p.digest H

structure EffectReceipt where
  proposalId : Text
  proposalDigest : Digest
  payloadDigest : Digest
  target : TargetIdentity
  receiptDigest : Digest
  deriving DecidableEq

def EffectReceipt.correlates (r : EffectReceipt) (p : EffectProposal) : Bool :=
  r.proposalId = p.proposalId && r.proposalDigest = p.digest H &&
    r.payloadDigest = p.payloadDigest && r.target = p.target

inductive LookupDisposition where
  | applied
  | safeToRetry
  | superseded
  | indeterminate
  deriving DecidableEq

/-- Only an applied lookup carries a receipt. -/
inductive LookupResult where
  | applied (receipt : EffectReceipt)
  | safeToRetry
  | superseded
  | indeterminate
  deriving DecidableEq

def LookupResult.disposition : LookupResult → LookupDisposition
  | applied _ => .applied
  | safeToRetry => .safeToRetry
  | superseded => .superseded
  | indeterminate => .indeterminate

/-! ## Evidence -/

/-- What the constructor of an evidence asks of its fence, recovery and receipt. -/
def checkEvidence (proposalId : Text) (proposalDigest : Digest) (fence : EffectFence)
    (recovery : Option LookupDisposition) (receiptDigest : Option Digest) : Except Exc Unit := do
  require (fence.proposalId = proposalId ∧ fence.proposalDigest = proposalDigest)
    (valueError "effect evidence fence does not match its proposal")
  require (¬(recovery = some .applied ∧ receiptDigest = none))
    (valueError "applied evidence requires a receipt digest")
  require (¬(recovery ≠ none ∧ recovery ≠ some .applied ∧ receiptDigest ≠ none))
    (valueError "non-applied recovery evidence cannot carry a receipt digest")
  require (¬(recovery = none ∧ receiptDigest = none))
    (valueError "direct execution evidence requires a receipt digest")

structure EffectEvidence where
  proposalId : Text
  proposalDigest : Digest
  payloadDigest : Digest
  target : TargetIdentity
  fence : EffectFence
  recovery : Option LookupDisposition
  receiptDigest : Option Digest
  valid : checkEvidence proposalId proposalDigest fence recovery receiptDigest = .ok ()

lemma EffectEvidence.eq_iff (a b : EffectEvidence) :
    (a.proposalId = b.proposalId ∧ a.proposalDigest = b.proposalDigest ∧
      a.payloadDigest = b.payloadDigest ∧ a.target = b.target ∧ a.fence = b.fence ∧
      a.recovery = b.recovery ∧ a.receiptDigest = b.receiptDigest) ↔ a = b := by
  cases a
  cases b
  simp

instance : DecidableEq EffectEvidence := fun a b =>
  decidable_of_iff _ (EffectEvidence.eq_iff a b)

def EffectEvidence.of (proposalId : Text) (proposalDigest payloadDigest : Digest)
    (target : TargetIdentity) (fence : EffectFence) (recovery : Option LookupDisposition)
    (receiptDigest : Option Digest) : Except Exc EffectEvidence :=
  match h : checkEvidence proposalId proposalDigest fence recovery receiptDigest with
  | .ok () => .ok ⟨proposalId, proposalDigest, payloadDigest, target, fence, recovery,
      receiptDigest, h⟩
  | .error e => .error e

/-! ## Decisions -/

inductive EffectDecisionKind where
  | reject
  | approve
  | execute
  | alreadyApplied
  | superseded
  | indeterminate
  deriving DecidableEq

def EffectDecisionKind.expectedRecovery : EffectDecisionKind → List (Option LookupDisposition)
  | reject => []
  | approve => []
  | execute => [none]
  | alreadyApplied => [some .applied]
  | superseded => [some .superseded]
  | indeterminate => [some .safeToRetry, some .indeterminate]

def checkRejection (fence : Option EffectFence) (evidence : Option EffectEvidence)
    (reasonCode : Option Code) : Except Exc Unit :=
  require (reasonCode ≠ none ∧ fence = none ∧ evidence = none)
    (valueError "reject requires only a secret-free reason code")

def checkApproval (fence : Option EffectFence) (evidence : Option EffectEvidence)
    (reasonCode : Option Code) : Except Exc Unit :=
  require (fence ≠ none ∧ evidence = none ∧ reasonCode = none)
    (valueError "approve requires exactly one fence")

def checkOutcome (kind : EffectDecisionKind) (fence : Option EffectFence)
    (evidence : Option EffectEvidence) (reasonCode : Option Code) : Except Exc Unit := do
  require (fence ≠ none ∧ evidence ≠ none ∧ reasonCode = none)
    (valueError "execution decisions require exact fence and evidence values")
  require (∀ e ∈ evidence, e.recovery ∈ kind.expectedRecovery)
    (valueError "effect evidence recovery does not match the decision kind")

def checkCorrelation (proposalId : Text) (proposalDigest : Digest) (fence : Option EffectFence)
    (evidence : Option EffectEvidence) : Except Exc Unit := do
  require (fence ≠ none) (assertionError "non-rejection decision has no fence")
  require (∀ f ∈ fence, f.proposalId = proposalId ∧ f.proposalDigest = proposalDigest)
    (valueError "effect decision fence does not match its proposal")
  require (∀ e ∈ evidence, e.proposalId = proposalId ∧ e.proposalDigest = proposalDigest ∧
      some e.fence = fence)
    (valueError "effect decision evidence does not match its proposal and fence")

def checkDecision (kind : EffectDecisionKind) (proposalId : Text) (proposalDigest : Digest)
    (fence : Option EffectFence) (evidence : Option EffectEvidence) (reasonCode : Option Code) :
    Except Exc Unit :=
  match kind with
  | .reject => checkRejection fence evidence reasonCode
  | .approve => do
    checkApproval fence evidence reasonCode
    checkCorrelation proposalId proposalDigest fence evidence
  | kind => do
    checkOutcome kind fence evidence reasonCode
    checkCorrelation proposalId proposalDigest fence evidence

structure EffectDecision where
  kind : EffectDecisionKind
  proposalId : Text
  proposalDigest : Digest
  fence : Option EffectFence
  evidence : Option EffectEvidence
  reasonCode : Option Code
  valid : checkDecision kind proposalId proposalDigest fence evidence reasonCode = .ok ()

lemma EffectDecision.eq_iff (a b : EffectDecision) :
    (a.kind = b.kind ∧ a.proposalId = b.proposalId ∧ a.proposalDigest = b.proposalDigest ∧
      a.fence = b.fence ∧ a.evidence = b.evidence ∧ a.reasonCode = b.reasonCode) ↔ a = b := by
  cases a
  cases b
  simp

instance : DecidableEq EffectDecision := fun a b =>
  decidable_of_iff _ (EffectDecision.eq_iff a b)

def EffectDecision.of (kind : EffectDecisionKind) (proposalId : Text) (proposalDigest : Digest)
    (fence : Option EffectFence) (evidence : Option EffectEvidence) (reasonCode : Option Code) :
    Except Exc EffectDecision :=
  match h : checkDecision kind proposalId proposalDigest fence evidence reasonCode with
  | .ok () => .ok ⟨kind, proposalId, proposalDigest, fence, evidence, reasonCode, h⟩
  | .error e => .error e

end Petrus.Agenticus.Effect
