import Petrus.Motus.Dispatch.Fencing
import Petrus.Motus.Transport.Serving

/-!
# Refusals and leases

A worker takes a refusal as final, so a refusal should mean that custody is as it was; and
it can only work on an attempt it can read. Both hold as long as the reply to a claim fits
a message and its names have no NUL: the limits the transport puts on a reply are not those
custody puts on what it leases.
-/

namespace Petrus.Motus.ZeroMQ

open Lib LocalDispatch List

variable {L : Library} {config : Config} {s : Server} {frames : List ByteArray} {now : Nat}
  {uuid : Name}
variable {request : Request} {p : Provider} {key : Key} {t : Task}

/-- The turn claims for the provider, and this row is next. -/
structure Offers (L : Library) (config : Config) (s : Server) (frames : List ByteArray) (now : Nat)
    (uuid : Name) (request : Request) (p : Provider) (key : Key) (t : Task) : Prop where
  passes : Passes L config s frames uuid request .claim p
  awake : s.draining = false
  next : leasable L.float now p.worker.queues s.world.db = some (key, t)

def delivery (L : Library) (request : Request) (p : Provider) (key : Key) (t : Task) : Reply :=
  .ok request.requestId.1 (offer L (t.offered key p.claimant.1))

/-- A refusal of the request leaves every row as it was, and an attempt the claim leased comes
back to the worker. -/
structure Definitive (L : Library) (config : Config) (s : Server) (frames : List ByteArray)
    (now : Nat) (uuid : Name) : Prop where
  refused : ∀ requestId kind message,
    (s.serve L config frames now uuid).1 = .refusal requestId kind message → kind ≠ .service →
      (s.serve L config frames now uuid).2.world.db = s.world.db
  leased : ∀ request p attempt db, Passes L config s frames uuid request .claim p →
    s.draining = false →
    LocalDispatch.claim L.float p.worker now s.world.db = .ok (some attempt, db) →
      ∃ payload, (s.serve L config frames now uuid).1.payload L = .ok payload ∧
        readClaim L payload request.requestId.1 = .ok (some (spelledAttempt attempt))

def Deliverable (L : Library) (config : Config) (s : Server) (frames : List ByteArray)
    (now : Nat) (uuid : Name) : Prop :=
  ∀ request p key t, Offers L config s frames now uuid request p key t →
    Readable t.invocation ∧
      (delivery L request p key t).json.size L.float.repr ≤ maxMessageBytes

/-! ## Short replies -/

lemma size_single (repr : Dyadic → String) (k : String) (v : Json) :
    (Json.obj [(k, v)]).size repr = (Json.quote k).utf8ByteSize + v.size repr + 3 := by
  rw [Json.size_obj]
  simp only [map_cons, map_nil, sum_cons, sum_nil, length_cons, length_nil, Json.memberSize]
  omega

lemma reply_fits {requestId : String} {value : Json}
    (hid : requestId.utf8ByteSize ≤ maxIdentityBytes)
    (hvalue : value.size L.float.repr ≤ 70000) :
    (Reply.ok requestId value).json.size L.float.repr ≤ maxMessageBytes := by
  have hquote := (Json.quote_size requestId).2
  have hversion : (Json.quote "version").utf8ByteSize = 9 := by decide
  have hrequest : (Json.quote "request_id").utf8ByteSize = 12 := by decide
  have hok : (Json.quote "ok").utf8ByteSize = 4 := by decide
  have hkey : (Json.quote "value").utf8ByteSize = 7 := by decide
  have hnumber : (Json.num (.int version)).size L.float.repr = 1 := by rfl
  have htrue : (Json.bool true).size L.float.repr = 4 := by rfl
  have hstring : (Json.str requestId).size L.float.repr = (Json.quote requestId).utf8ByteSize := rfl
  rw [Reply.json, Json.size_obj]
  simp only [Reply.members, map_cons, map_nil, sum_cons, sum_nil, length_cons, length_nil,
    Json.memberSize, hversion, hrequest, hok, hkey, hnumber, htrue, hstring]
  simp only [maxIdentityBytes] at hid
  simp only [maxMessageBytes]
  omega

lemma operate_short {operation : Operation} {worker : Worker} {draining : Bool} {value : Json}
    {w : World} {db : Database} (h : operate L operation worker draining now w.db = .ok (value, db))
    (hw : w.Sound L.float) :
    value.size L.float.repr ≤ 70000 ∨
      operation = .claim ∧ draining = false ∧ ∃ key t,
        leasable L.float now worker.queues w.db = some (key, t) ∧
          value = offer L (t.offered key worker.claimant) := by
  have hnull : Json.null.size L.float.repr = 4 := by rfl
  have htrue : (Json.bool true).size L.float.repr = 4 := by rfl
  have hattempt : (Json.quote "attempt").utf8ByteSize = 9 := by decide
  cases operation with
  | claim =>
    unfold operate at h
    dsimp only at h
    split_ifs at h with hdraining
    · cases h
      rw [size_single, hattempt, hnull]
      exact .inl (by decide)
    · obtain ⟨⟨handed, after⟩, hclaim, h⟩ := bind_eq_ok.mp h
      cases h
      cases handed with
      | none =>
        change Json.size L.float.repr (.obj [("attempt", .null)]) ≤ 70000 ∨ _
        rw [size_single, hattempt, hnull]
        exact .inl (by decide)
      | some attempt =>
        obtain ⟨key, t, hnext, rfl⟩ := claim_leasable hclaim
        exact .inr ⟨rfl, Bool.not_eq_true _ ▸ hdraining, key, t, hnext, rfl⟩
  | heartbeat attempt details =>
    obtain ⟨⟨latest, after⟩, hbeat, h⟩ := bind_eq_ok.mp h
    cases h
    have hdetails : (Json.quote "details").utf8ByteSize = 9 := by decide
    have hlatest := (heartbeat_effect hbeat).latest_le hw
    rw [size_single, hdetails]
    simp only [heartbeatDetailsLimit] at hlatest
    exact .inl (by omega)
  | complete attempt result =>
    obtain ⟨⟨d, after⟩, -, h⟩ := bind_eq_ok.mp h
    cases h
    have hcompleted : (Json.quote "completed").utf8ByteSize = 11 := by decide
    rw [size_single, hcompleted, htrue]
    exact .inl (by decide)
  | fail attempt failure =>
    obtain ⟨⟨d, after⟩, -, h⟩ := bind_eq_ok.mp h
    cases h
    have hfailed : (Json.quote "failed").utf8ByteSize = 8 := by decide
    rw [size_single, hfailed, htrue]
    exact .inl (by decide)

/-! ## The offered attempt on the wire -/

lemma attemptId_valid (key : Key) : validName (attemptIdText L (some (attemptId key))) = true := by
  have htext : attemptIdText L (some (attemptId key)) =
      "[" ++ (Json.quote key.1 ++ "," ++ Nat.repr key.2) ++ "]" := by
    rfl
  have hopen : ("[" : String) ≠ "" := by decide
  rw [validName_iff, htext]
  simp only [ne_eq, String.append_eq_empty_iff, hopen, false_and, not_false_eq_true,
    String.toList_append, mem_append, not_or, true_and]
  exact ⟨⟨by decide, ⟨Json.quote_nul _, by decide⟩, (validName_iff.mp (valid_repr key.2)).2⟩,
    by decide⟩

lemma Offers.portable (h : Offers L config s frames now uuid request p key t)
    (hs : s.world.db.Sound L.float) (hread : L.ReadsBack (attemptId key)) :
    Portable L (t.offered key p.claimant.1) := by
  obtain ⟨hqueue, prior, hprior, -, hdetails⟩ := leasable_row h.next
  have hrow := hs key prior hprior
  refine ⟨attemptId_valid key, ?_, ⟨_, rfl⟩, p.claimant.2, ?_, ?_, ?_⟩
  · have hloads : L.loads (attemptIdText L (some (attemptId key))) = .ok (attemptId key) := hread
    change (L.loads (attemptIdText L (some (attemptId key)))).toOption = some (attemptId key)
    rw [hloads]
    rfl
  · obtain ⟨q, -, hq⟩ := mem_map.mp hqueue
    change validName t.queue = true
    rw [← hq]
    exact q.2
  · intro name hname
    cases hname
    exact hrow.instanceId
  · change (t.details.getD .null).size L.float.repr ≤ heartbeatDetailsLimit
    rw [hdetails]
    cases hstored : prior.details with
    | none => exact (by decide : 4 ≤ heartbeatDetailsLimit)
    | some d => exact hrow.details d hstored

lemma Offers.operate (h : Offers L config s frames now uuid request p key t) :
    ∃ db, operate L .claim p.worker s.draining now s.world.db =
      .ok (offer L (t.offered key p.claimant.1), db) ∧ db ≠ s.world.db := by
  obtain ⟨db, hclaim, hne⟩ := claim_of_leasable h.next
  refine ⟨db, ?_, hne⟩
  unfold ZeroMQ.operate
  rw [h.awake]
  dsimp only
  rw [if_neg (by decide), hclaim]
  rfl

lemma Deliverable.refused (h : Deliverable L config s frames now uuid)
    (hs : Reachable L config s) {requestId : String} {kind : Kind} {message : String}
    (hreply : (s.serve L config frames now uuid).1 = .refusal requestId kind message) :
    (s.serve L config frames now uuid).2.world.db = s.world.db := by
  rcases serve_cases L config s frames now uuid with ⟨request, operation, p, hpasses⟩ | hsame
  · cases hrun : operate L operation p.worker s.draining now s.world.db with
    | error e => rw [hpasses.error hrun]
    | ok result =>
      obtain ⟨value, db⟩ := result
      have hfits : (Reply.ok request.requestId.1 value).json.size L.float.repr ≤
          maxMessageBytes := by
        rcases operate_short hrun hs.sound with hshort | ⟨rfl, hawake, key, t, hnext, rfl⟩
        · exact reply_fits (parseRequest_id hpasses.parsed) hshort
        · exact (h request p key t ⟨hpasses, hawake, hnext⟩).2
      rw [hpasses.ok hrun hfits] at hreply
      cases hreply
  · rw [hsame]

/-- A turn is definitive exactly when what it offers can be delivered. -/
theorem turn_definitive_iff (hs : Reachable L config s)
    (hread : ∀ request p key t, Offers L config s frames now uuid request p key t →
      L.ReadsBack (delivery L request p key t).json ∧ L.ReadsBack (attemptId key)) :
    Definitive L config s frames now uuid ↔ Deliverable L config s frames now uuid := by
  constructor
  · intro h request p key t hoffers
    obtain ⟨db, hrun, hne⟩ := hoffers.operate
    have hfits : (delivery L request p key t).json.size L.float.repr ≤ maxMessageBytes := by
      by_contra hlarge
      have hserve := hoffers.passes.refused hrun hlarge
      have hsame := h.refused _ _ _ (congrArg Prod.fst hserve) (by decide)
      rw [hserve] at hsame
      exact hne hsame
    refine ⟨?_, hfits⟩
    obtain ⟨db', hclaim, -⟩ := claim_of_leasable hoffers.next
    obtain ⟨payload, hpayload, hback⟩ :=
      h.leased request p _ db' hoffers.passes hoffers.awake hclaim
    rw [hoffers.passes.ok hrun hfits] at hpayload
    obtain ⟨-, rfl⟩ := encodeMessage_eq_ok.mp hpayload
    rw [readClaim_offer (hread request p key t hoffers).1] at hback
    obtain ⟨attempt, hdecoded, hsame⟩ := map_eq_ok.mp hback
    cases hsame
    have hreadable := decodeAttempt_readable hdecoded
    exact ⟨hreadable.activity, hreadable.correlation, hreadable.idempotency⟩
  · intro h
    refine ⟨fun _ _ _ hreply _ => h.refused hs hreply, ?_⟩
    intro request p attempt db hpasses hawake hclaim
    obtain ⟨key, t, hnext, rfl⟩ := claim_leasable hclaim
    have hoffers : Offers L config s frames now uuid request p key t := ⟨hpasses, hawake, hnext⟩
    obtain ⟨hreadable, hfits⟩ := h request p key t hoffers
    obtain ⟨hreply, hid⟩ := hread request p key t hoffers
    obtain ⟨db', hrun, -⟩ := hoffers.operate
    have hportable := hoffers.portable hs.sound.rows hid
    refine ⟨(dumps L (delivery L request p key t).json).toUTF8, ?_, ?_⟩
    · rw [hpasses.ok hrun hfits]
      exact encodeMessage_eq_ok.mpr ⟨hfits, rfl⟩
    · rw [delivery, readClaim_offer hreply, decodeAttempt_encode hportable hreadable]
      rfl

/-! ## A claim of one waiting task -/

def defaultQueue : Name := ⟨"default", by decide⟩

def workerName : Name := ⟨"worker", by decide⟩

def freshId : Name := ⟨"uuid", by decide⟩

def plainConfig : Config := ⟨[defaultQueue], maxMessageBytes, by decide, by decide⟩

def claimMembers : Members :=
  [("version", .num (.int 2)), ("request_id", .str "request"), ("client_id", .str "client"),
    ("worker_id", .str "worker"), ("queues", .arr [.str "default"]), ("operation", .str "claim")]

def claimRequest : Request :=
  ⟨⟨"request", by decide⟩, ⟨"client", by decide⟩, workerName, [defaultQueue], claimMembers⟩

def freshProvider : Provider :=
  ⟨[defaultQueue], workerName, _, claimant_valid workerName freshId⟩

def chargeOf (input : Json) : ActivityInvocation Json :=
  { activity := "charge", input, policy := .standard, activity_ne := charge_ne
    correlation_ne := none_ne_empty, idempotency_ne := none_ne_empty }

def waitingTask (input : Json) : Task :=
  { queue := "default", invocation := chargeOf input, scheduleStart := 0, availableAt := 0 }

def openOne : Op := .openSession 0 "one" "default" .empty

def sessionOne : Session := { instanceId := "one" }

def dispatchCharge (input : Json) : Op := .dispatch 0 1 (chargeOf input)

def waiting (F : FloatArithmetic) (input : Json) : Server :=
  { world := ((dispatchCharge input).perform F 0 (openOne.perform F 0 {}).2).2 }

lemma waiting_reachable (input : Json) : Reachable L plainConfig (waiting L.float input) :=
  (Reachable.start.custody openOne 0).custody (dispatchCharge input) 0

lemma dispatch_charge (input : Json) :
    LocalDispatch.dispatch sessionOne 1 (chargeOf input) 0 {} =
      .ok (sessionOne.publish 1, { tasks := Dict.empty.set ("one", 1) (waitingTask input) }) := by
  unfold LocalDispatch.dispatch
  rw [require_bind (by decide)]
  dsimp only
  have hfree : ({} : Database).cancellations.get? (sessionOne.instanceId, 1) = none := rfl
  have hrow : ({} : Database).tasks.get? (sessionOne.instanceId, 1) = none := rfl
  rw [hfree]
  dsimp only
  rw [hrow, Option.getD_none]
  dsimp only
  rw [require_bind rfl]
  rfl

lemma waiting_db (F : FloatArithmetic) (input : Json) :
    (waiting F input).world.db =
      { tasks := Dict.empty.set ("one", 1) (waitingTask input) } := by
  change ((dispatchCharge input).perform F 0
    { sessions := Dict.empty.set 0 sessionOne }).2.db = _
  simp only [dispatchCharge, Op.perform, World.session, Dict.get?_set_self]
  rw [dispatch_charge]

lemma decodeMessage_of_loads {text : String} {ms : Members} (h : L.loads text = .ok (.obj ms)) :
    decodeMessage L text.toUTF8 = .ok ms := by
  rw [decodeMessage, fromUTF8?_toUTF8]
  dsimp only
  rw [h]

lemma receive_single {limit : Nat} {frame : ByteArray} (h : frame.size ≤ limit) :
    receiveRequest limit [frame] = ([frame], none) := by
  simp [receiveRequest, h, Nat.not_lt.mpr h]

lemma waiting_offers {text : String} (hsize : text.toUTF8.size ≤ maxMessageBytes)
    (h : L.loads text = .ok (.obj claimMembers)) (input : Json) :
    Offers L plainConfig (waiting L.float input) [text.toUTF8] 5 freshId claimRequest freshProvider
      ("one", 1) (waitingTask input) := by
  have hreceived : receiveRequest maxMessageBytes [text.toUTF8] = ([text.toUTF8], none) :=
    receive_single hsize
  have hparsed : parseRequest L maxMessageBytes [text.toUTF8] = .ok claimRequest := by
    unfold parseRequest readRequest
    dsimp only
    rw [asProtocol_eq_ok, require_bind hsize, decodeMessage_of_loads h, ok_bind]
    rfl
  refine ⟨⟨?_, ?_, rfl, rfl⟩, rfl, ?_⟩
  · exact congrArg Prod.snd hreceived
  · change parseRequest L maxMessageBytes (receiveRequest maxMessageBytes [text.toUTF8]).1 = _
    rw [hreceived]
    exact hparsed
  · rw [waiting_db]
    rfl

def claimLibrary : Library where
  float := plainFloat
  loads _ := .ok (.obj claimMembers)
  int _ := none
  isspace c := decide (c = ' ')

def claimText : String := dumps claimLibrary (.obj claimMembers)

lemma claimText_size : claimText.toUTF8.size ≤ maxMessageBytes := by decide +kernel

def chargeDelivery : Json :=
  (delivery claimLibrary claimRequest freshProvider ("one", 1) (waitingTask .null)).json

def chargeLibrary : Library :=
  { claimLibrary with
    loads := fun text =>
      if text = claimText then .ok (.obj claimMembers)
      else if text = dumps claimLibrary (attemptId ("one", 1)) then .ok (attemptId ("one", 1))
      else .ok chargeDelivery.spelling }

lemma texts_differ : dumps claimLibrary (attemptId ("one", 1)) ≠ claimText ∧
    dumps claimLibrary chargeDelivery ≠ claimText ∧
    dumps claimLibrary chargeDelivery ≠ dumps claimLibrary (attemptId ("one", 1)) := by
  decide +kernel

lemma chargeDelivery_size : chargeDelivery.size plainFloat.repr ≤ maxMessageBytes := by
  decide +kernel

lemma charge_readable (input : Json) : Readable (chargeOf input) where
  activity := (by decide : validName "charge" = true)
  correlation := by simp [chargeOf]
  idempotency := by simp [chargeOf]

lemma chargeLibrary_loads (text : String) : chargeLibrary.loads text =
    if text = claimText then .ok (.obj claimMembers)
    else if text = dumps claimLibrary (attemptId ("one", 1)) then .ok (attemptId ("one", 1))
    else .ok chargeDelivery.spelling := rfl

lemma chargeLibrary_delivery : chargeLibrary.ReadsBack chargeDelivery := by
  change chargeLibrary.loads (dumps claimLibrary chargeDelivery) = _
  rw [chargeLibrary_loads, if_neg texts_differ.2.1, if_neg texts_differ.2.2]

lemma chargeLibrary_id : chargeLibrary.ReadsBack (attemptId ("one", 1)) := by
  change chargeLibrary.loads (dumps claimLibrary (attemptId ("one", 1))) = _
  rw [chargeLibrary_loads, if_neg texts_differ.1, if_pos rfl]
  rfl

lemma charge_offers :
    Offers chargeLibrary plainConfig (waiting plainFloat .null) [claimText.toUTF8] 5 freshId
      claimRequest freshProvider ("one", 1) (waitingTask .null) := by
  refine waiting_offers claimText_size ?_ .null
  rw [chargeLibrary_loads, if_pos rfl]

lemma Offers.unique {request' : Request} {p' : Provider} {key' : Key} {t' : Task}
    (h : Offers L config s frames now uuid request p key t)
    (h' : Offers L config s frames now uuid request' p' key' t') :
    request = request' ∧ p = p' ∧ key = key' ∧ t = t' := by
  have hrequest : request = request' := Except.ok.inj (h.passes.parsed.symm.trans h'.passes.parsed)
  subst hrequest
  have hprovider : p = p' := Except.ok.inj (h.passes.provided.symm.trans h'.passes.provided)
  subst hprovider
  have hrow := Option.some.inj (h.next.symm.trans h'.next)
  exact ⟨rfl, rfl, congrArg Prod.fst hrow, congrArg Prod.snd hrow⟩

/-- A small task is delivered. -/
theorem turn_definitive_charge :
    Deliverable chargeLibrary plainConfig (waiting plainFloat .null) [claimText.toUTF8] 5 freshId ∧
      Definitive chargeLibrary plainConfig (waiting plainFloat .null) [claimText.toUTF8] 5
        freshId := by
  have hdeliverable : Deliverable chargeLibrary plainConfig (waiting plainFloat .null)
      [claimText.toUTF8] 5 freshId := by
    intro request p key t h
    obtain ⟨rfl, rfl, rfl, rfl⟩ := charge_offers.unique h
    exact ⟨charge_readable .null, chargeDelivery_size⟩
  refine ⟨hdeliverable, (turn_definitive_iff (waiting_reachable .null) ?_).mpr hdeliverable⟩
  intro request p key t h
  obtain ⟨rfl, rfl, rfl, rfl⟩ := charge_offers.unique h
  exact ⟨chargeLibrary_delivery, chargeLibrary_id⟩

/-! ## A task too large to deliver -/

def oversized : Json := .str (String.ofList (List.replicate (maxMessageBytes + 1) 'a'))

lemma utf8Len_replicate (n : Nat) : String.utf8Len (List.replicate n 'a') = n := by
  induction n with
  | zero => rfl
  | succ n ih =>
    rw [replicate_succ, String.utf8Len_cons, ih]
    rfl

lemma oversized_size : maxMessageBytes < oversized.size plainFloat.repr := by
  have hquote := (Json.quote_size (String.ofList (List.replicate (maxMessageBytes + 1) 'a'))).1
  rw [String.utf8ByteSize_ofList, utf8Len_replicate] at hquote
  exact hquote

lemma delivery_size (request : Request) (p : Provider) (key : Key) (t : Task) :
    t.invocation.input.size L.float.repr ≤ (delivery L request p key t).json.size L.float.repr := by
  have hinvocation : t.invocation.input.size L.float.repr ≤
      (encodeInvocation t.invocation).size L.float.repr :=
    Json.size_member_le _ (k := "input") (by simp [invocationMembers])
  have hattempt : (encodeInvocation t.invocation).size L.float.repr ≤
      (encodeAttempt L (t.offered key p.claimant.1)).size L.float.repr :=
    Json.size_member_le _ (k := "invocation") (by simp [attemptMembers, Task.offered])
  have hoffer : (encodeAttempt L (t.offered key p.claimant.1)).size L.float.repr ≤
      (offer L (t.offered key p.claimant.1)).size L.float.repr :=
    Json.size_member_le _ (k := "attempt") (by simp)
  have hreply : (offer L (t.offered key p.claimant.1)).size L.float.repr ≤
      (delivery L request p key t).json.size L.float.repr :=
    Json.size_member_le _ (k := "value") (by simp [delivery, Reply.members])
  omega

/-- A claim of a task whose input exceeds a message is refused, and the task is leased. -/
theorem refused_claim_leases :
    Reachable claimLibrary plainConfig (waiting plainFloat oversized) ∧
      ∃ message,
        ((waiting plainFloat oversized).serve claimLibrary plainConfig [claimText.toUTF8] 5
          freshId).1 = .refusal "request" .refused message ∧
        ((waiting plainFloat oversized).serve claimLibrary plainConfig [claimText.toUTF8] 5
          freshId).2.world.db ≠ (waiting plainFloat oversized).world.db := by
  have hoffers : Offers claimLibrary plainConfig (waiting plainFloat oversized)
      [claimText.toUTF8] 5 freshId claimRequest freshProvider ("one", 1) (waitingTask oversized) :=
    waiting_offers claimText_size rfl oversized
  have hlarge : ¬(delivery claimLibrary claimRequest freshProvider ("one", 1)
      (waitingTask oversized)).json.size plainFloat.repr ≤ maxMessageBytes :=
    Nat.not_le.mpr (oversized_size.trans_le
      (delivery_size (L := claimLibrary) claimRequest freshProvider ("one", 1)
        (waitingTask oversized)))
  obtain ⟨db, hrun, hne⟩ := hoffers.operate
  have hserve := hoffers.passes.refused hrun hlarge
  refine ⟨waiting_reachable oversized, _, congrArg Prod.fst hserve, ?_⟩
  rw [hserve]
  exact hne

end Petrus.Motus.ZeroMQ
