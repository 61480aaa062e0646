import Petrus.Processes.Call

/-!
# The call protocol

A reply built for a request is read back as it was; one built for a request that differs in
caller, callee, route or call id is refused. The reply ids tell calls apart but not the two
kinds of reply to one call.
-/

namespace Petrus.Processes

open Lib Fabric List

variable {H : Sha256} {repr : Dyadic → String} {call call' : CallRequest}
  {request request' envelope : Envelope} {reply : Reply}
variable {route : ReplyRoute} {sender : String} {given : Option String}

/-! ## Payloads -/

lemma CallRequest.fromData_toData (r : CallRequest) : fromData r.toData = .ok r := by
  obtain ⟨callId, operation, input⟩ := r
  simp [fromData, toData, exactPayload, exactObject, Dict.lookup, textMember, text_value]

lemma CallResult.fromData_toData (r : CallResult) : fromData r.toData = .ok r := by
  obtain ⟨callId, result⟩ := r
  simp [fromData, toData, exactPayload, exactObject, Dict.lookup, textMember, text_value]

lemma CallError.fromData_toData (e : CallError) : fromData e.toData = .ok e := by
  obtain ⟨callId, code, message, details⟩ := e
  simp [fromData, toData, exactPayload, exactObject, Dict.lookup, textMember, text_value]

lemma Reply.fromData_toData (reply : Reply) : fromData reply.toData = .ok reply := by
  cases reply with
  | result r =>
    have hkind : Dict.lookup "kind" r.toData = some (.str CallResult.kind) := rfl
    change fromData r.toData = _
    rw [fromData, if_pos hkind, CallResult.fromData_toData]
    rfl
  | error e =>
    have hkind : Dict.lookup "kind" e.toData = some (.str CallError.kind) := rfl
    have hother : Dict.lookup "kind" e.toData ≠ some (.str CallResult.kind) := by
      rw [hkind]
      simp [CallError.kind, CallResult.kind]
    change fromData e.toData = _
    rw [fromData, if_neg hother, if_pos hkind, CallError.fromData_toData]
    rfl

/-! ## Requests and replies -/

/-- The envelope is one `requestEnvelope` built for the call. -/
def Requests (H : Sha256) (repr : Dyadic → String) (call : CallRequest) (request : Envelope) :
    Prop :=
  ∃ sender recipient source replyRoute given,
    requestEnvelope H repr call sender recipient source replyRoute given = .ok request

/-- What a built request is. -/
structure IsRequest (call : CallRequest) (request : Envelope) (route : ReplyRoute) : Prop where
  decoded : requestFromEnvelope request = .ok call
  routed : request.replyRoute = some route
  own : route.instanceId = request.sender

lemma Requests.isRequest (h : Requests H repr call request) :
    ∃ route, IsRequest call request route := by
  obtain ⟨sender, recipient, source, route, given, h⟩ := h
  obtain ⟨hroute, h⟩ := require_bind_eq_ok.mp h
  obtain ⟨-, hsender, -, -, hcorrelation, hpayload, hreply⟩ := Envelope.of_eq_ok repr h
  have hown : route.instanceId = request.sender := Text.ext_value (hroute.trans hsender.symm)
  have hcall : call.callId = request.correlation := Text.ext_value hcorrelation.symm
  refine ⟨route, ?_, hreply, hown⟩
  unfold requestFromEnvelope requiredReplyRoute
  rw [hpayload, CallRequest.fromData_toData, ok_bind, require_bind hcall, hreply, ok_bind,
    require_bind hown]
  rfl

lemma requiredReplyRoute_eq (h : request.replyRoute = some route) :
    requiredReplyRoute request = .ok route := by
  unfold requiredReplyRoute
  rw [h]

lemma replyEnvelope_eq_ok {noun : String} (hrequest : IsRequest call request route)
    (h : replyEnvelope H repr noun reply request sender given = .ok envelope) :
    reply.callId = call.callId ∧ envelope.sender = request.recipient ∧
      envelope.recipient = request.sender ∧ envelope.source = route.source ∧
      envelope.correlation = reply.callId ∧ envelope.payload = reply.toData ∧
      envelope.replyRoute = none ∧
      envelope.deliveryId.value =
        orDefault given (replyDeliveryId H request.sender reply.callId) := by
  unfold replyEnvelope at h
  rw [hrequest.decoded, ok_bind, requiredReplyRoute_eq hrequest.routed, ok_bind] at h
  obtain ⟨⟨hcall, hsender⟩, h⟩ := require_bind_eq_ok.mp h
  obtain ⟨hid, hfrom, hto, hsource, hcorrelation, hpayload, hroute⟩ := Envelope.of_eq_ok repr h
  exact ⟨hcall, Text.ext_value (hfrom.trans hsender),
    (Text.ext_value hto).trans hrequest.own, Text.ext_value hsource,
    Text.ext_value hcorrelation, hpayload, hroute, hid⟩

lemma replyFromEnvelope_eq {noun : String} {route' : ReplyRoute}
    (hrequest : IsRequest call request route) (hrequest' : IsRequest call' request' route')
    (h : replyEnvelope H repr noun reply request' sender given = .ok envelope) :
    replyFromEnvelope envelope request =
      if call'.callId = call.callId then
        if request'.recipient = request.recipient ∧ request'.sender = request.sender ∧
            route'.source = route.source then .ok reply
        else .error (valueError
          "call reply must come from the request callee through the requested reply route")
      else .error (valueError
        "call reply payload and envelope must match the request correlation") := by
  obtain ⟨hcall, hsender, hrecipient, hsource, hcorrelation, hpayload, hroute, -⟩ :=
    replyEnvelope_eq_ok hrequest' h
  unfold replyFromEnvelope
  rw [hrequest.decoded, ok_bind, requiredReplyRoute_eq hrequest.routed, ok_bind, hpayload,
    Reply.fromData_toData, ok_bind, hcorrelation, hcall, hsender, hrecipient, hsource, hroute]
  by_cases hid : call'.callId = call.callId
  · rw [if_pos hid, require_true ⟨hid, hid⟩, ok_bind]
    split_ifs with hends
    · rw [require_bind hends]
      rfl
    · rw [require_false hends, error_bind]
  · rw [if_neg hid, require_false (fun hboth => hid hboth.1), error_bind]

/-! ## Reply ids -/

lemma bytes_inj {s t : String} (h : bytes s = bytes t) : s = t :=
  String.toByteArray_inj.mp (ByteArray.ext (Array.toList_inj.mp h))

lemma bytes_length (s : String) : (bytes s).length = s.utf8ByteSize := rfl

lemma bigEndian4_inj {n m : Nat} (hn : n < 2 ^ 32) (hm : m < 2 ^ 32)
    (h : bigEndian4 n = bigEndian4 m) : n = m := by
  unfold bigEndian4 at h
  simp only [List.cons.injEq, and_true, ← UInt8.toNat_inj, Nat.toUInt8_eq, UInt8.toNat_ofNat'] at h
  omega

lemma replyDeliveryId_inj (hinj : Function.Injective H) {caller callId caller' callId' : Text}
    (h : replyDeliveryId H caller callId = replyDeliveryId H caller' callId') :
    caller = caller' ∧ callId = callId' := by
  unfold replyDeliveryId at h
  have hdigest := hinj (String.append_right_inj _ |>.mp h)
  rw [append_assoc, append_assoc] at hdigest
  obtain ⟨hlength, hrest⟩ := append_inj hdigest rfl
  have hbound : ∀ t : Text, (bytes t.value).length < 2 ^ 32 := by
    intro t
    rw [bytes_length]
    exact lt_of_le_of_lt t.bounded.2 (by decide)
  have hsame := bigEndian4_inj (hbound caller) (hbound caller') hlength
  obtain ⟨hcaller, hcallId⟩ := append_inj hrest hsame
  exact ⟨Text.ext_value (bytes_inj hcaller), Text.ext_value (bytes_inj hcallId)⟩

lemma replyDeliveryId_bounded (hH : ∀ b, (H b).utf8ByteSize = 64) (caller callId : Text) :
    replyDeliveryId H caller callId ≠ "" ∧
      (replyDeliveryId H caller callId).utf8ByteSize ≤ maxText := by
  have hsize : (replyDeliveryId H caller callId).utf8ByteSize = 22 + 64 := by
    unfold replyDeliveryId
    dsimp only
    rw [String.utf8ByteSize_append]
    exact congrArg (22 + ·) (hH _)
  refine ⟨?_, ?_⟩
  · intro hempty
    rw [hempty] at hsize
    exact absurd hsize (by decide)
  · rw [hsize]
    decide

lemma orDefault_text {default : String}
    (hgiven : ∀ id, given = some id → id.utf8ByteSize ≤ maxText)
    (hdefault : default ≠ "" ∧ default.utf8ByteSize ≤ maxText) :
    ∃ id : Text, orDefault given default = id.value := by
  unfold orDefault
  cases given with
  | none => exact ⟨⟨default, hdefault⟩, rfl⟩
  | some id =>
    by_cases hid : id = ""
    · exact ⟨⟨default, hdefault⟩, if_pos hid⟩
    · exact ⟨⟨id, hid, hgiven id rfl⟩, if_neg hid⟩

/-! ## The protocol -/

lemma Reply.envelope_eq (H : Sha256) (repr : Dyadic → String) (reply : Reply) :
    ∃ noun, ∀ request sender given,
    reply.envelope H repr request sender given =
      replyEnvelope H repr noun reply request sender given := by
  cases reply with
  | result r => exact ⟨"result", fun _ _ _ => rfl⟩
  | error e => exact ⟨"error", fun _ _ _ => rfl⟩

lemma envelope_deliveryId (hrequest : Requests H repr call request)
    (h : reply.envelope H repr request sender none = .ok envelope) :
    envelope.sender = request.recipient ∧
      envelope.deliveryId.value = replyDeliveryId H request.sender call.callId := by
  obtain ⟨route, hroute⟩ := hrequest.isRequest
  obtain ⟨noun, hnoun⟩ := reply.envelope_eq H repr
  rw [hnoun] at h
  obtain ⟨hcall, hsender, -, -, -, -, -, hid⟩ := replyEnvelope_eq_ok hroute h
  rw [hcall] at hid
  exact ⟨hsender, hid⟩

lemma envelope_exists (hH : ∀ b, (H b).utf8ByteSize = 64)
    (hrequest : Requests H repr call request) (hcall : reply.callId = call.callId)
    (hsize : Json.size repr (.obj reply.toData) ≤ maxInlinePayloadBytes)
    (hgiven : ∀ id, given = some id → id.utf8ByteSize ≤ maxText) :
    ∃ envelope, reply.envelope H repr request request.recipient.value given = .ok envelope := by
  obtain ⟨route, hroute⟩ := hrequest.isRequest
  obtain ⟨noun, hnoun⟩ := reply.envelope_eq H repr
  obtain ⟨id, hid⟩ := orDefault_text hgiven
    (replyDeliveryId_bounded hH request.sender reply.callId)
  rw [hnoun]
  unfold replyEnvelope
  rw [hroute.decoded, ok_bind, requiredReplyRoute_eq hroute.routed, ok_bind,
    require_true ⟨hcall, rfl⟩, ok_bind, hid, Envelope.of_texts repr _ _ _ _ _ hsize]
  exact ⟨_, rfl⟩

/-- Replies to a request are read back exactly, replies to a different one are refused, the two
kinds of reply to one call are one delivery, and different calls have different reply ids. -/
theorem call_protocol (H : Sha256) (repr : Dyadic → String) :
    (∀ call request reply sender given envelope, Requests H repr call request →
      Reply.envelope H repr reply request sender given = .ok envelope →
      replyFromEnvelope envelope request = .ok reply) ∧
    ((∀ b, (H b).utf8ByteSize = 64) →
      ∀ call request reply given, Requests H repr call request → Reply.callId reply = call.callId →
      Json.size repr (.obj reply.toData) ≤ maxInlinePayloadBytes →
      (∀ id, given = some id → id.utf8ByteSize ≤ maxText) →
      ∃ envelope, reply.envelope H repr request request.recipient.value given = .ok envelope) ∧
    (∀ call request call' request' reply sender given envelope, Requests H repr call request →
      Requests H repr call' request' →
      Reply.envelope H repr reply request' sender given = .ok envelope →
      request'.sender ≠ request.sender ∨ request'.recipient ≠ request.recipient ∨
        request'.replyRoute.map ReplyRoute.source ≠ request.replyRoute.map ReplyRoute.source ∨
        call'.callId ≠ call.callId →
      ∃ message, replyFromEnvelope envelope request = .error (valueError message)) ∧
    (∀ call request result error sender sender' envelope envelope', Requests H repr call request →
      resultEnvelope H repr result request sender none = .ok envelope →
      errorEnvelope H repr error request sender' none = .ok envelope' →
      envelope.deliveryId = envelope'.deliveryId ∧
        envelope.ingressIdentity = envelope'.ingressIdentity) ∧
    (Function.Injective H → ∀ caller callId caller' callId' : Text,
      (caller, callId) ≠ (caller', callId') →
      replyDeliveryId H caller callId ≠ replyDeliveryId H caller' callId') := by
  refine ⟨?_, ?_, ?_, ?_, ?_⟩
  · intro call request reply sender given envelope hrequest h
    obtain ⟨route, hroute⟩ := hrequest.isRequest
    obtain ⟨noun, hnoun⟩ := reply.envelope_eq H repr
    rw [hnoun] at h
    rw [replyFromEnvelope_eq hroute hroute h, if_pos rfl, if_pos ⟨rfl, rfl, rfl⟩]
  · intro hH call request reply given hrequest hcall hsize hgiven
    exact envelope_exists hH hrequest hcall hsize hgiven
  · intro call request call' request' reply sender given envelope hrequest hrequest' h hdiffers
    obtain ⟨route, hroute⟩ := hrequest.isRequest
    obtain ⟨route', hroute'⟩ := hrequest'.isRequest
    obtain ⟨noun, hnoun⟩ := reply.envelope_eq H repr
    rw [hnoun] at h
    rw [hroute.routed, hroute'.routed] at hdiffers
    rw [replyFromEnvelope_eq hroute hroute' h]
    by_cases hid : call'.callId = call.callId
    · have hends : ¬(request'.recipient = request.recipient ∧ request'.sender = request.sender ∧
          route'.source = route.source) := by
        rintro ⟨hrecipient, hsender, hsource⟩
        rcases hdiffers with hne | hne | hne | hne
        · exact hne hsender
        · exact hne hrecipient
        · exact hne (congrArg some hsource)
        · exact hne hid
      rw [if_pos hid, if_neg hends]
      exact ⟨_, rfl⟩
    · rw [if_neg hid]
      exact ⟨_, rfl⟩
  · intro call request result error sender sender' envelope envelope' hrequest hresult herror
    have hresult : (Reply.result result).envelope H repr request sender none = .ok envelope :=
      hresult
    have herror : (Reply.error error).envelope H repr request sender' none = .ok envelope' := herror
    obtain ⟨hsender, hid⟩ := envelope_deliveryId hrequest hresult
    obtain ⟨hsender', hid'⟩ := envelope_deliveryId hrequest herror
    have hdelivery : envelope.deliveryId = envelope'.deliveryId :=
      Text.ext_value (hid.trans hid'.symm)
    refine ⟨hdelivery, ?_⟩
    unfold Envelope.ingressIdentity
    rw [hdelivery, hsender, hsender']
  · intro hinj caller callId caller' callId' hne heq
    obtain ⟨rfl, rfl⟩ := replyDeliveryId_inj hinj heq
    exact hne rfl

def pricing : CallRequest := ⟨⟨"order-7", by decide +kernel⟩, ⟨"price", by decide +kernel⟩, []⟩

def pricingRoute : ReplyRoute := ⟨⟨"shop", by decide +kernel⟩, ⟨"prices", by decide +kernel⟩⟩

def pricingEnvelope : Envelope where
  deliveryId := ⟨"ask-7", by decide +kernel⟩
  sender := pricingRoute.instanceId
  recipient := ⟨"clerk", by decide +kernel⟩
  source := ⟨"desk", by decide +kernel⟩
  correlation := pricing.callId
  payload := pricing.toData
  replyRoute := some pricingRoute

def price : CallResult := ⟨pricing.callId, .num (.int 12)⟩

def zeros : Sha256 := fun _ => String.ofList (List.replicate 64 '0')

def spelled : Sha256 := fun b => String.ofList (b.map fun x => Char.ofNat x.toNat)

lemma spelled_injective : Function.Injective spelled := by
  intro a b h
  refine map_injective_iff.mpr ?_ (String.ofList_inj.mp h)
  intro x y hxy
  have hvalid : ∀ z : UInt8, (Char.ofNat z.toNat).toNat = z.toNat := by decide +kernel
  exact UInt8.toNat_inj.mp ((hvalid x).symm.trans ((congrArg Char.toNat hxy).trans (hvalid y)))

theorem call_protocol_pricing :
    (∃ envelope, (Reply.result price).envelope zeros (fun _ => "") pricingEnvelope "clerk" none =
        .ok envelope ∧ replyFromEnvelope envelope pricingEnvelope = .ok (.result price)) ∧
      replyDeliveryId spelled pricingEnvelope.sender pricing.callId ≠
        replyDeliveryId spelled pricingEnvelope.recipient pricing.callId := by
  have hsize : Json.size (fun _ => "") (.obj pricing.toData) ≤ maxInlinePayloadBytes := by
    decide +kernel
  have hrequest : Requests zeros (fun _ => "") pricing pricingEnvelope :=
    ⟨"shop", "clerk", "desk", pricingRoute, some "ask-7", require_bind_eq_ok.mpr ⟨rfl,
      Envelope.of_texts _ pricingEnvelope.deliveryId pricingEnvelope.sender
        pricingEnvelope.recipient pricingEnvelope.source pricing.callId hsize _⟩⟩
  obtain ⟨hread, hbuilt, -⟩ := call_protocol zeros fun _ => ""
  have hzeros : (String.ofList (List.replicate 64 '0')).utf8ByteSize = 64 := by decide +kernel
  obtain ⟨envelope, henvelope⟩ := hbuilt (fun _ => hzeros) pricing pricingEnvelope
    (.result price) none hrequest rfl (by decide +kernel) (fun _ h => nomatch h)
  refine ⟨⟨envelope, henvelope, hread _ _ _ _ _ _ hrequest henvelope⟩, ?_⟩
  refine (call_protocol spelled fun _ => "").2.2.2.2 spelled_injective _ _ _ _ ?_
  decide +kernel

end Petrus.Processes
