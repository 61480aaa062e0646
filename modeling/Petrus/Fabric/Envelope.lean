import Petrus.Lib.Dict
import Petrus.Lib.Fold
import Petrus.Lib.JsonText

/-!
# Fabric envelopes

Bounded identity texts, reply routes and the envelope that carries one JSON object from a
sender to a recipient. A JSON value is copied as it is.
-/

namespace Petrus.Fabric

open Lib

abbrev Members := List (String × Json)

def maxInlinePayloadBytes : Nat := 64 * 1024

def maxText : Nat := 1024

structure Text where
  value : String
  bounded : value ≠ "" ∧ value.utf8ByteSize ≤ maxText

lemma Text.ext_value {a b : Text} (h : a.value = b.value) : a = b := by
  cases a
  cases b
  cases h
  rfl

instance : DecidableEq Text := fun a b =>
  decidable_of_iff (a.value = b.value) ⟨Text.ext_value, congrArg Text.value⟩

def textError (name : String) : Exc :=
  valueError s!"{name} must be a non-empty string of at most {maxText} UTF-8 bytes"

def text (value name : String) : Except Exc Text :=
  if h : value ≠ "" ∧ value.utf8ByteSize ≤ maxText then .ok ⟨value, h⟩ else .error (textError name)

lemma text_value (t : Text) (name : String) : text t.value name = .ok t := by
  unfold text
  rw [dif_pos t.bounded]

lemma text_eq_ok {value name : String} {t : Text} (h : text value name = .ok t) :
    t.value = value := by
  unfold text at h
  split_ifs at h
  cases h
  rfl

def textMember (members : Members) (key : String) : Except Exc Text :=
  match Dict.lookup key members with
  | some (.str value) => text value key
  | _ => .error (textError key)

def exactObject (members : Members) (fields : List String) (message : String) :
    Except Exc Unit :=
  require ((∀ field ∈ fields, field ∈ members.map Prod.fst) ∧
    ∀ key ∈ members.map Prod.fst, key ∈ fields) (valueError message)

structure ReplyRoute where
  instanceId : Text
  source : Text
  deriving DecidableEq

structure Envelope where
  deliveryId : Text
  sender : Text
  recipient : Text
  source : Text
  correlation : Text
  payload : Members
  replyRoute : Option ReplyRoute

variable (repr : Dyadic → String)

def Envelope.of (deliveryId sender recipient source correlation : String) (payload : Members)
    (replyRoute : Option ReplyRoute) : Except Exc Envelope := do
  let deliveryId ← text deliveryId "delivery_id"
  let sender ← text sender "sender"
  let recipient ← text recipient "recipient"
  let source ← text source "source"
  let correlation ← text correlation "correlation"
  let size := Json.size repr (.obj payload)
  require (size ≤ maxInlinePayloadBytes) (valueError
    (s!"payload is {size} canonical JSON bytes; inline fabric payloads are limited to " ++
      s!"{maxInlinePayloadBytes} bytes — use the artifact protocol and send a verified artifact " ++
      "reference"))
  return ⟨deliveryId, sender, recipient, source, correlation, payload, replyRoute⟩

def Envelope.ingressIdentity (e : Envelope) : String :=
  s!"fabric:{e.sender.value.length}:{e.sender.value}:{e.deliveryId.value}"

lemma Envelope.of_eq_ok {deliveryId sender recipient source correlation : String}
    {payload : Members} {replyRoute : Option ReplyRoute} {e : Envelope}
    (h : Envelope.of repr deliveryId sender recipient source correlation payload replyRoute =
      .ok e) :
    e.deliveryId.value = deliveryId ∧ e.sender.value = sender ∧ e.recipient.value = recipient ∧
      e.source.value = source ∧ e.correlation.value = correlation ∧ e.payload = payload ∧
      e.replyRoute = replyRoute := by
  obtain ⟨d, hd, h⟩ := bind_eq_ok.mp h
  obtain ⟨s, hs, h⟩ := bind_eq_ok.mp h
  obtain ⟨r, hr, h⟩ := bind_eq_ok.mp h
  obtain ⟨o, ho, h⟩ := bind_eq_ok.mp h
  obtain ⟨c, hc, h⟩ := bind_eq_ok.mp h
  obtain ⟨-, h⟩ := require_bind_eq_ok.mp h
  cases h
  exact ⟨text_eq_ok hd, text_eq_ok hs, text_eq_ok hr, text_eq_ok ho, text_eq_ok hc, rfl, rfl⟩

lemma Envelope.of_texts (deliveryId sender recipient source correlation : Text)
    {payload : Members} (hsize : Json.size repr (.obj payload) ≤ maxInlinePayloadBytes)
    (replyRoute : Option ReplyRoute) :
    Envelope.of repr deliveryId.value sender.value recipient.value source.value correlation.value
      payload replyRoute =
      .ok ⟨deliveryId, sender, recipient, source, correlation, payload, replyRoute⟩ := by
  unfold Envelope.of
  rw [text_value, ok_bind, text_value, ok_bind, text_value, ok_bind, text_value, ok_bind,
    text_value, ok_bind]
  exact require_bind_eq_ok.mpr ⟨hsize, rfl⟩

end Petrus.Fabric
