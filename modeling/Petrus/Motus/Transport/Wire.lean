import Petrus.Motus.Transport.ZeroMQ

/-!
# What is read back from the wire

A message is written with sorted members, so a value comes back in its spelling. The
decoders look only at which fields there are and at what stands in each, and neither
changes with the order. What they refuse of an attempt are the names with a NUL.
-/

namespace Petrus.Motus.ZeroMQ

open Lib LocalDispatch Dict

variable {L : Library} {ms : Members} {value : Json} {a : ActivityAttempt}

def spelled (ms : Members) : Members := Json.sortMembers (Json.normalMembers id ms)

lemma spelling_obj (ms : Members) : (Json.obj ms).spelling = .obj (spelled ms) := rfl

@[simp] lemma spelling_str (s : String) : (Json.str s).spelling = .str s := rfl

@[simp] lemma spelling_num (n : PyNumber) : (Json.num n).spelling = .num n := rfl

@[simp] lemma spelling_null : Json.null.spelling = .null := rfl

@[simp] lemma spelling_bool (b : Bool) : (Json.bool b).spelling = .bool b := rfl

@[simp] lemma spelling_text (s : Option String) : (text s).spelling = text s := by
  cases s <;> rfl

lemma spelled_perm (ms : Members) : (spelled ms).Perm (Json.normalMembers id ms) :=
  Json.sortMembers_perm _

lemma keys_spelled (ms : Members) : ((spelled ms).map Prod.fst).Perm (ms.map Prod.fst) := by
  have hkeys := (spelled_perm ms).map Prod.fst
  rwa [Json.keys_normalMembers] at hkeys

lemma hasFields_iff {fields : List String} :
    hasFields ms fields = true ↔
      (∀ k ∈ ms.map Prod.fst, k ∈ fields) ∧ ∀ f ∈ fields, f ∈ ms.map Prod.fst := by
  rw [hasFields, decide_eq_true_eq, List.forall_mem_map]

lemma hasFields_spelled (ms : Members) (fields : List String) :
    hasFields (spelled ms) fields = hasFields ms fields := by
  rw [Bool.eq_iff_iff, hasFields_iff, hasFields_iff]
  simp only [(keys_spelled ms).mem_iff]

lemma lookup_spelled (hn : (ms.map Prod.fst).Nodup) (k : String) :
    Dict.lookup k (spelled ms) = (Dict.lookup k ms).map Json.spelling := by
  have hspelled : ((spelled ms).map Prod.fst).Nodup := (keys_spelled ms).symm.nodup hn
  cases h : Dict.lookup k ms with
  | none =>
    rw [Option.map_none, lookup_eq_none, (keys_spelled ms).mem_iff]
    exact lookup_eq_none.mp h
  | some a =>
    refine lookup_of_mem hspelled ((spelled_perm ms).mem_iff.mpr ?_)
    exact Json.mem_normalMembers.mpr ⟨a, mem_of_lookup h, rfl⟩

lemma field_spelled (hn : (ms.map Prod.fst).Nodup) (k : String) :
    field (spelled ms) k = (field ms k).spelling := by
  rw [field, field, lookup_spelled hn]
  cases Dict.lookup k ms <;> rfl

lemma exactFields_spelled {fields : List String} (noun : String)
    (h : hasFields ms fields = true) :
    exactFields (Json.obj ms).spelling fields noun = .ok (spelled ms) := by
  rw [spelling_obj, exactFields, require_bind (by rwa [hasFields_spelled]), except_pure]

/-! ## Names -/

lemma name_str {s noun : String} (h : validName s = true) : name (.str s) noun = .ok ⟨s, h⟩ :=
  dif_pos h

lemma optionalName_text {s : Option String} (noun : String)
    (h : ∀ t ∈ s, validName t = true) :
    ∃ n, optionalName (text s) noun = .ok n ∧ n.map Subtype.val = s := by
  cases s with
  | none => exact ⟨none, rfl, rfl⟩
  | some t =>
    refine ⟨some ⟨t, h t rfl⟩, ?_, rfl⟩
    change some <$> name (.str t) noun = _
    rw [name_str (h t rfl)]
    rfl

lemma valid_of_mem {n : Option Name} {t : String} (h : t ∈ n.map Subtype.val) :
    validName t = true := by
  obtain ⟨m, -, rfl⟩ := Option.mem_map.mp h
  exact m.2

/-- The names of an invocation that the wire can carry. -/
structure Readable (i : ActivityInvocation Json) : Prop where
  activity : validName i.activity = true
  correlation : ∀ t ∈ i.correlation, validName t = true
  idempotency : ∀ t ∈ i.idempotency, validName t = true

/-! ## Invocations -/

lemma policyMembers_wire (p : ExecutionPolicy) :
    policyMembers (policyWire p).spelling = .ok (spelled p.members) := by
  have hfields : hasFields (spelled p.members) currentPolicy = true := by
    rw [hasFields_spelled, hasFields_iff]
    simp [ExecutionPolicy.members, currentPolicy]
  change policyMembers (Json.obj p.members).spelling = _
  rw [spelling_obj, policyMembers, require_bind (.inr hfields), except_pure]

lemma members_nodup (p : ExecutionPolicy) : (p.members.map Prod.fst).Nodup := by
  simp [ExecutionPolicy.members]

@[simp] lemma spelling_optional (n : Option PyNumber) :
    (ExecutionPolicy.optional n).spelling = ExecutionPolicy.optional n := by
  cases n <;> rfl

lemma policyOf_wire (p : ExecutionPolicy) : policyOf (spelled p.members) = .ok p := by
  simp only [policyOf, field, lookup_spelled (members_nodup p)]
  refine ExecutionPolicy.ofFields_eq_ok.mpr ?_
  simp [ExecutionPolicy.members, Dict.lookup]

lemma requireInteger_wire (p : ExecutionPolicy) {name : String} (h : name ∈ legacyPolicy) :
    requireInteger (spelled p.members) name = .ok () := by
  refine require_true ?_
  rw [field_spelled (members_nodup p)]
  simp only [legacyPolicy, List.mem_cons, List.not_mem_nil, or_false] at h
  rcases h with rfl | rfl <;> simp [field, ExecutionPolicy.members, Dict.lookup, isInteger]

def spelledInvocation (i : ActivityInvocation Json) : ActivityInvocation Json :=
  { i with input := i.input.spelling }

lemma invocation_nodup (i : ActivityInvocation Json) :
    ((invocationMembers i).map Prod.fst).Nodup := by
  simp [invocationMembers]

lemma decodeInvocation_encode {i : ActivityInvocation Json} (h : Readable i) :
    decodeInvocation (encodeInvocation i).spelling = .ok (spelledInvocation i) := by
  obtain ⟨correlation, hcorrelation, hc⟩ :=
    optionalName_text "Activity correlation" h.correlation
  obtain ⟨idempotency, hidempotency, hi⟩ :=
    optionalName_text "Activity idempotency" h.idempotency
  unfold decodeInvocation encodeInvocation
  rw [exactFields_spelled _ (by simp [hasFields, invocationMembers]), ok_bind]
  simp only [field_spelled (invocation_nodup i)]
  simp only [invocationMembers, field, Dict.lookup, String.reduceEq, ↓reduceIte, Option.getD_some,
    spelling_str, spelling_text]
  rw [policyMembers_wire, ok_bind, requireInteger_wire _ (by decide), ok_bind,
    requireInteger_wire _ (by decide), ok_bind, name_str h.activity, ok_bind, hcorrelation, ok_bind,
    hidempotency, ok_bind, policyOf_wire, ok_bind, except_pure]
  simp only [hc, hi]
  rfl

lemma decodeInvocation_readable {i : ActivityInvocation Json}
    (h : decodeInvocation value = .ok i) : Readable i := by
  unfold decodeInvocation at h
  obtain ⟨data, -, h⟩ := bind_eq_ok.mp h
  obtain ⟨policy, -, h⟩ := bind_eq_ok.mp h
  obtain ⟨-, -, h⟩ := bind_eq_ok.mp h
  obtain ⟨-, -, h⟩ := bind_eq_ok.mp h
  obtain ⟨activity, -, h⟩ := bind_eq_ok.mp h
  obtain ⟨correlation, -, h⟩ := bind_eq_ok.mp h
  obtain ⟨idempotency, -, h⟩ := bind_eq_ok.mp h
  obtain ⟨policy, -, h⟩ := bind_eq_ok.mp h
  cases h
  exact ⟨activity.2, fun _ => valid_of_mem, fun _ => valid_of_mem⟩

/-! ## Attempts -/

def spelledAttempt (a : ActivityAttempt) : ActivityAttempt :=
  { a with invocation := spelledInvocation a.invocation, latestDetails := a.latestDetails.spelling }

lemma valid_repr (n : Nat) : validName n.repr = true := by
  rw [validName_iff]
  constructor
  · intro h
    have hlist := congrArg String.toList h
    rw [Nat.toList_repr] at hlist
    exact Nat.toDigits_ne_nil hlist
  · rw [Nat.toList_repr]
    intro h
    have hdigit := Nat.isDigit_of_mem_toDigits (by decide) (by decide) h
    exact absurd hdigit (by decide)

lemma readEpoch_repr (n : Nat) : readEpoch L n.repr = .str n := by
  rw [readEpoch, Nat.toNat?_repr]
  exact if_pos rfl

lemma attempt_nodup (a : ActivityAttempt) : ((attemptMembers L a).map Prod.fst).Nodup := by
  simp [attemptMembers]

/-- What an attempt needs for the wire to carry it. -/
structure Portable (L : Library) (a : ActivityAttempt) : Prop where
  id : validName (attemptIdText L a.attemptId) = true
  read : readAttemptId L (attemptIdText L a.attemptId) = a.attemptId
  epoch : ∃ n, a.epoch = .str n
  claimant : validName a.claimant = true
  queue : validName a.queue = true
  instanceId : ∀ t ∈ a.instanceId, validName t = true
  details : a.latestDetails.size L.float.repr ≤ heartbeatDetailsLimit

lemma decodeAttempt_encode (h : Portable L a) (hi : Readable a.invocation) :
    decodeAttempt L (encodeAttempt L a).spelling = .ok (spelledAttempt a) := by
  obtain ⟨n, hn⟩ := h.epoch
  obtain ⟨instanceId, hinstance, hid⟩ :=
    optionalName_text "attempt instance" h.instanceId
  have hepoch : validName (epochText a.epoch) = true := by
    rw [hn]
    exact valid_repr n
  have hdetails : a.latestDetails.spelling.size L.float.repr ≤ heartbeatDetailsLimit := by
    rw [Json.size_spelling]
    exact h.details
  unfold decodeAttempt encodeAttempt
  rw [exactFields_spelled _ (by simp [hasFields, attemptMembers, attemptFields]), ok_bind]
  simp only [field_spelled (attempt_nodup a)]
  simp only [attemptMembers, field, Dict.lookup, String.reduceEq, ↓reduceIte, Option.getD_some,
    spelling_str, spelling_text]
  rw [hinstance, ok_bind, name_str h.id, ok_bind, name_str hepoch, ok_bind, name_str h.claimant,
    ok_bind, name_str h.queue, ok_bind, decodeInvocation_encode hi, ok_bind,
    snapshotHeartbeatDetails, require_bind hdetails, except_pure, ok_bind, except_pure]
  simp only [h.read, hid, hn, epochText, readEpoch_repr, spelledAttempt]

lemma decodeAttempt_readable (h : decodeAttempt L value = .ok a) : Readable a.invocation := by
  unfold decodeAttempt at h
  obtain ⟨data, -, h⟩ := bind_eq_ok.mp h
  obtain ⟨instanceId, -, h⟩ := bind_eq_ok.mp h
  obtain ⟨attemptId, -, h⟩ := bind_eq_ok.mp h
  obtain ⟨epoch, -, h⟩ := bind_eq_ok.mp h
  obtain ⟨claimant, -, h⟩ := bind_eq_ok.mp h
  obtain ⟨queue, -, h⟩ := bind_eq_ok.mp h
  obtain ⟨invocation, hinvocation, h⟩ := bind_eq_ok.mp h
  obtain ⟨latestDetails, -, h⟩ := bind_eq_ok.mp h
  cases h
  exact decodeInvocation_readable hinvocation

/-! ## Replies -/

/-- `json.loads` reads back what `json.dumps` wrote. -/
def Library.ReadsBack (L : Library) (value : Json) : Prop :=
  L.loads (dumps L value) = .ok value.spelling

lemma fromUTF8?_toUTF8 (s : String) : String.fromUTF8? s.toUTF8 = some s := by
  have hvalid : s.toUTF8.IsValidUTF8 := s.isValidUTF8
  unfold String.fromUTF8?
  rw [dif_pos hvalid]
  rfl

lemma decodeMessage_dumps (h : L.ReadsBack (.obj ms)) :
    decodeMessage L (dumps L (.obj ms)).toUTF8 = .ok (spelled ms) := by
  rw [decodeMessage, fromUTF8?_toUTF8]
  dsimp only
  rw [h]
  rfl

lemma dumps_size (value : Json) : (dumps L value).toUTF8.size = value.size L.float.repr :=
  Json.size_spelling L.float.repr value

lemma encodeMessage_eq_ok {payload : ByteArray} :
    encodeMessage L value = .ok payload ↔
      value.size L.float.repr ≤ maxMessageBytes ∧ payload = (dumps L value).toUTF8 := by
  unfold encodeMessage
  dsimp only
  rw [require_bind_eq_ok, dumps_size, except_pure, Except.ok.injEq]
  exact and_congr_right fun _ => eq_comm

lemma reply_nodup (requestId : String) (value : Json) :
    ((Reply.ok requestId value).members.map Prod.fst).Nodup := by
  simp [Reply.members]

lemma decodeResponse_ok {requestId : String} (h : L.ReadsBack (Reply.ok requestId value).json) :
    decodeResponse L (dumps L (Reply.ok requestId value).json).toUTF8 requestId =
      .ok value.spelling := by
  have hn := reply_nodup requestId value
  have hfields : hasFields (Reply.ok requestId value).members
      ["version", "request_id", "ok", "value"]
      = true := by
    simp [hasFields, Reply.members]
  have hok : field (spelled (Reply.ok requestId value).members) "ok" = .bool true := by
    rw [field_spelled hn]
    simp [field, Reply.members, Dict.lookup]
  have hversion : field (spelled (Reply.ok requestId value).members) "version" =
      .num (.int version) := by
    rw [field_spelled hn]
    simp [field, Reply.members, Dict.lookup]
  have hrequest : field (spelled (Reply.ok requestId value).members) "request_id" =
      .str requestId := by
    rw [field_spelled hn]
    simp [field, Reply.members, Dict.lookup]
  have hvalue : field (spelled (Reply.ok requestId value).members) "value" = value.spelling := by
    rw [field_spelled hn]
    simp [field, Reply.members, Dict.lookup]
  unfold decodeResponse
  rw [Reply.json, decodeMessage_dumps h, ok_bind, if_pos hok, ← spelling_obj,
    exactFields_spelled _ hfields, ok_bind, hversion, hrequest, require_true ⟨rfl, rfl⟩, ok_bind,
    hvalue, except_pure]

def offer (L : Library) (a : ActivityAttempt) : Json := .obj [("attempt", encodeAttempt L a)]

lemma readClaim_offer {requestId : String}
    (h : L.ReadsBack (Reply.ok requestId (offer L a)).json) :
    readClaim L (dumps L (Reply.ok requestId (offer L a)).json).toUTF8 requestId =
      some <$> decodeAttempt L (encodeAttempt L a).spelling := by
  have hattempt : field (spelled [("attempt", encodeAttempt L a)]) "attempt" =
      (encodeAttempt L a).spelling := by
    rw [field_spelled (by simp)]
    simp [field, Dict.lookup]
  unfold readClaim
  rw [decodeResponse_ok h, ok_bind, offer, exactFields_spelled _ (by simp [hasFields]), ok_bind,
    hattempt]
  rfl

end Petrus.Motus.ZeroMQ
