import Petrus.Motus.Transport.Wire

/-!
# Turns of the server

A request either passes to the provider of its client or is answered without touching
custody. The states the server can be in are those reached from empty tables by its own
turns and by whatever the sessions and workers on the same host do in between; in all of
them the rows carry valid instance names and details within the heartbeat limit.
-/

namespace Petrus.Motus.LocalDispatch

open Lib Dict

variable {F : FloatArithmetic} {db db' : Database} {now : Nat}
variable {worker : Worker} {attempt : ActivityAttempt} {queues : List String} {key : Key}
  {t : Task} {session session' : Session} {w : World}

def leasable (F : FloatArithmetic) (now : Nat) (queues : List String) (db : Database) :
    Option (Key × Task) :=
  match terminalizeExhausted F now queues db with
  | .ok swept => swept.tasks.entries.find? (swept.claimable now queues)
  | .error _ => none

def Task.offered (t : Task) (key : Key) (claimant : String) : ActivityAttempt :=
  { attemptId := some (attemptId key), epoch := .str (t.epoch + 1), claimant
    queue := t.queue, invocation := t.invocation, latestDetails := t.details.getD .null
    instanceId := some key.1 }

lemma claim_leasable (h : claim F worker now db = .ok (some attempt, db')) :
    ∃ key t, leasable F now worker.queues db = some (key, t) ∧
      attempt = t.offered key worker.claimant := by
  unfold claim at h
  obtain ⟨swept, hsweep, h⟩ := bind_eq_ok.mp h
  split at h
  · cases h
  · rename_i key t hfind
    cases h
    refine ⟨key, t, ?_, rfl⟩
    rw [leasable, hsweep]
    exact hfind

lemma sweep_row {swept : Database} (h : terminalizeExhausted F now queues db = .ok swept)
    (ht : swept.tasks.get? key = some t) :
    ∃ prior, db.tasks.get? key = some prior ∧ t.epoch = prior.epoch ∧
      t.details = prior.details := by
  rw [((terminalizeExhausted_eq_ok h).2 key).1, Option.map_eq_some_iff] at ht
  obtain ⟨prior, hprior, rfl⟩ := ht
  refine ⟨prior, hprior, ?_⟩
  rcases delayed_cases F now db queues key prior with hsame | ⟨l, -, -, -, -, hdelayed⟩
  · rw [hsame]
    exact ⟨rfl, rfl⟩
  · rw [hdelayed]
    exact ⟨rfl, rfl⟩

lemma leasable_row (h : leasable F now queues db = some (key, t)) :
    t.queue ∈ queues ∧
      ∃ prior, db.tasks.get? key = some prior ∧ t.epoch = prior.epoch ∧
        t.details = prior.details := by
  unfold leasable at h
  split at h
  · rename_i swept hsweep
    obtain ⟨-, hqueue, -⟩ := claimable_iff.mp (List.find?_some h)
    have htask := get?_eq_some.mpr (List.mem_of_find?_eq_some h)
    exact ⟨hqueue, sweep_row hsweep htask⟩
  · cases h

lemma claim_of_leasable (h : leasable F now worker.queues db = some (key, t)) :
    ∃ db', claim F worker now db = .ok (some (t.offered key worker.claimant), db') ∧ db' ≠ db := by
  have hrow := leasable_row h
  unfold leasable at h
  split at h
  · rename_i swept hsweep
    refine ⟨{ swept with
      tasks := swept.tasks.set key (t.leased (t.claimed F worker.claimant now)) }, ?_, ?_⟩
    · unfold claim
      rw [hsweep, ok_bind]
      dsimp only
      rw [h]
      rfl
    · intro hsame
      obtain ⟨-, prior, hprior, hepoch, -⟩ := hrow
      rw [← hsame, get?_set_self, Option.some.injEq] at hprior
      rw [← hprior] at hepoch
      simp [Task.leased, Task.claimed, Task.epoch] at hepoch
  · cases h

/-! ## What every row keeps -/

structure RowSound (F : FloatArithmetic) (key : Key) (t : Task) : Prop where
  instanceId : validName key.1 = true
  details : ∀ d ∈ t.details, d.size F.repr ≤ heartbeatDetailsLimit

def Database.Sound (F : FloatArithmetic) (db : Database) : Prop :=
  ∀ key t, db.tasks.get? key = some t → RowSound F key t

namespace Database.Sound

lemma set (h : db.Sound F) (ht : RowSound F key t) :
    { db with tasks := db.tasks.set key t }.Sound F := by
  intro k t' hget
  rw [get?_set] at hget
  split_ifs at hget with hk
  · cases hget
    exact hk ▸ ht
  · exact h k t' hget

lemma sweep (h : db.Sound F) (hsweep : terminalizeExhausted F now queues db = .ok db') :
    db'.Sound F := by
  intro key t ht
  obtain ⟨prior, hprior, -, hdetails⟩ := sweep_row hsweep ht
  exact ⟨(h key prior hprior).instanceId, hdetails ▸ (h key prior hprior).details⟩

end Database.Sound

structure World.Sound (F : FloatArithmetic) (w : World) : Prop where
  rows : w.db.Sound F
  sessions : ∀ id session, w.sessions.get? id = some session → validName session.instanceId = true

namespace World.Sound

lemma withSession (h : w.Sound F) {id : Nat} (hsession : validName session.instanceId = true) :
    ∀ id' session', (w.sessions.set id session).get? id' = some session' →
      validName session'.instanceId = true := by
  intro id' session' hget
  rw [get?_set] at hget
  split_ifs at hget
  · cases hget
    exact hsession
  · exact h.sessions id' session' hget

end World.Sound

lemma Effect.sound {op : Op} {reply : Reply} (h : Effect F now w op reply db')
    (hw : w.Sound F) : db'.Sound F := by
  have hrows := hw.rows
  cases h with
  | still | cancelled | heard => exact hrows
  | polled sweep | unclaimed sweep => exact hrows.sweep sweep
  | claimed sweep task =>
    have hrow := hrows.sweep sweep _ _ task
    exact (hrows.sweep sweep).set ⟨hrow.instanceId, hrow.details⟩
  | @dispatched id occurrence _ session row _ session_eq _ row_eq =>
    refine hrows.set ⟨hw.sessions id session session_eq, ?_⟩
    subst row_eq
    cases htask : w.db.tasks.get? (session.instanceId, occurrence) with
    | none => simp
    | some t => exact (hrows _ _ htask).details
  | renewed active small =>
    have hrow := hrows _ _ active.task
    refine hrows.set ⟨hrow.instanceId, ?_⟩
    intro d hd
    rcases small d hd with hstored | hgiven
    · exact hrow.details d hstored
    · exact hgiven
  | released _ active =>
    have hrow := hrows _ _ active.task
    exact hrows.set ⟨hrow.instanceId, hrow.details⟩

lemma Effect.latest_le {op : Op} {latest : Json}
    (h : Effect F now w op (.beat latest) db') (hw : w.Sound F) :
    latest.size F.repr ≤ heartbeatDetailsLimit := by
  have hrows := h.sound hw
  cases h with
  | still passive => cases passive
  | @renewed _ _ _ _ _ details =>
    cases details with
    | none => exact (by decide : 4 ≤ heartbeatDetailsLimit)
    | some d => exact (hrows _ _ (get?_set_self _ _ _)).details d rfl

lemma open_valid {instanceId defaultQueue : String} {activityQueues : Dict String String}
    (h : Session.open_ instanceId defaultQueue activityQueues = .ok session) :
    validName session.instanceId = true := by
  unfold Session.open_ LocalDispatch.name at h
  obtain ⟨hname, h⟩ := require_bind_eq_ok.mp h
  obtain ⟨-, h⟩ := require_bind_eq_ok.mp h
  obtain ⟨-, -, h⟩ := bind_eq_ok.mp h
  cases h
  exact hname

lemma dispatch_session {occurrence : Nat} {invocation : ActivityInvocation Json}
    (h : dispatch session occurrence invocation now db = .ok (session', db')) :
    session'.instanceId = session.instanceId := by
  unfold dispatch at h
  obtain ⟨-, h⟩ := require_bind_eq_ok.mp h
  dsimp only at h
  split at h
  · obtain ⟨-, h⟩ := require_bind_eq_ok.mp h
    cases h
    rfl
  · obtain ⟨-, h⟩ := require_bind_eq_ok.mp h
    cases h
    rfl

lemma cancel_session {instruction : CancellationInstruction} {d : CancellationDisposition}
    (h : cancel session instruction db = .ok (d, session', db')) :
    session'.instanceId = session.instanceId := by
  unfold cancel at h
  obtain ⟨-, h⟩ := require_bind_eq_ok.mp h
  obtain ⟨-, h⟩ := require_bind_eq_ok.mp h
  cases h
  rfl

lemma transact_sessions {α : Type} {x : Except Exc (α × Database)}
    {reply : α → Reply} : (w.transact x reply).2.sessions = w.sessions := by
  unfold World.transact
  split <;> rfl

lemma Op.perform_sound (h : w.Sound F) (op : Op) (now : Nat) :
    (op.perform F now w).2.Sound F := by
  refine ⟨(op.perform_effect now w).sound h, ?_⟩
  cases op with
  | openSession id instanceId defaultQueue activityQueues =>
    simp only [Op.perform]
    split
    · rename_i hopen
      exact h.withSession (open_valid hopen)
    · exact h.sessions
  | dispatch id occurrence invocation =>
    simp only [Op.perform, World.session]
    split
    · exact h.sessions
    · rename_i session hsession
      split
      · rename_i hdispatch
        exact h.withSession (dispatch_session hdispatch ▸ h.sessions id session hsession)
      · exact h.sessions
  | cancel id instruction =>
    simp only [Op.perform, World.session]
    split
    · exact h.sessions
    · rename_i session hsession
      split
      · rename_i hcancel
        exact h.withSession (cancel_session hcancel ▸ h.sessions id session hsession)
      · exact h.sessions
  | collect id =>
    simp only [Op.perform, World.session]
    split
    · exact h.sessions
    · rename_i session hsession
      exact h.withSession (h.sessions id session hsession)
  | claim | poll | heartbeat | complete | fail =>
    rw [Op.perform, transact_sessions]
    exact h.sessions

end Petrus.Motus.LocalDispatch

namespace Petrus.Motus.ZeroMQ

open Lib LocalDispatch

variable {L : Library} {config : Config} {s : Server} {frames : List ByteArray} {now : Nat}
  {uuid : Name} {request : Request} {requestId : String} {operation : Operation} {p : Provider}
  {value : Json} {w : World} {db : Database}

/-! ## Requests that pass -/

lemma asProtocol_eq_ok {α : Type} {x : Except Exc α} {a : α} :
    asProtocol x = .ok a ↔ x = .ok a := by
  cases x <;> simp [asProtocol]

lemma wireName_le {noun : String} {n : Name} (h : wireName value noun = .ok n) :
    n.1.utf8ByteSize ≤ maxIdentityBytes := by
  unfold wireName at h
  obtain ⟨spelling, -, h⟩ := bind_eq_ok.mp h
  obtain ⟨hsize, h⟩ := require_bind_eq_ok.mp h
  cases h
  exact hsize

lemma parseRequest_id {limit : Nat} (h : parseRequest L limit frames = .ok request) :
    request.requestId.1.utf8ByteSize ≤ maxIdentityBytes := by
  have hread := asProtocol_eq_ok.mp h
  unfold readRequest at hread
  split at hread
  · obtain ⟨-, hread⟩ := require_bind_eq_ok.mp hread
    obtain ⟨members, -, hread⟩ := bind_eq_ok.mp hread
    obtain ⟨-, hread⟩ := require_bind_eq_ok.mp hread
    obtain ⟨requestId, hid, hread⟩ := bind_eq_ok.mp hread
    obtain ⟨clientId, -, hread⟩ := bind_eq_ok.mp hread
    obtain ⟨workerId, -, hread⟩ := bind_eq_ok.mp hread
    obtain ⟨queues, -, hread⟩ := bind_eq_ok.mp hread
    obtain ⟨-, hread⟩ := require_bind_eq_ok.mp hread
    cases hread
    exact wireName_le hid
  · cases hread

/-- The request is well formed and its client has a provider. -/
structure Passes (L : Library) (config : Config) (s : Server) (frames : List ByteArray)
    (uuid : Name) (request : Request) (operation : Operation) (p : Provider) : Prop where
  received : (receiveRequest config.maxMessageBytes frames).2 = none
  parsed : parseRequest L config.maxMessageBytes
    (receiveRequest config.maxMessageBytes frames).1 = .ok request
  decoded : decodeOperation L request = .ok operation
  provided : (provider config request uuid s.providers).1 = .ok p

lemma Passes.serve (h : Passes L config s frames uuid request operation p) :
    s.serve L config frames now uuid =
      { s with providers := (provider config request uuid s.providers).2 }.reply L
        request.requestId.1 operation p now := by
  have hanswer : s.answer L config request now uuid =
      { s with providers := (provider config request uuid s.providers).2 }.reply L
        request.requestId.1 operation p now := by
    unfold Server.answer
    rw [h.decoded]
    dsimp only
    have hprovided := h.provided
    generalize provider config request uuid s.providers = found at hprovided ⊢
    obtain ⟨result, providers⟩ := found
    cases hprovided
    rfl
  unfold Server.serve Server.handle
  dsimp only
  rw [h.received, h.parsed]
  exact hanswer

lemma serve_cases (L : Library) (config : Config) (s : Server) (frames : List ByteArray)
    (now : Nat) (uuid : Name) :
    (∃ request operation p, Passes L config s frames uuid request operation p) ∨
      (s.serve L config frames now uuid).2.world = s.world := by
  unfold Server.serve Server.handle
  dsimp only
  split
  · exact .inr rfl
  · rename_i hreceived
    split
    · exact .inr rfl
    · rename_i request hparsed
      unfold Server.answer
      split
      · exact .inr rfl
      · rename_i operation hdecoded
        split
        · exact .inr rfl
        · rename_i p providers hprovided
          exact .inl ⟨request, operation, p, hreceived, hparsed, hdecoded,
            congrArg Prod.fst hprovided⟩

lemma reply_ok (h : operate L operation p.worker s.draining now s.world.db = .ok (value, db))
    (hfits : (Reply.ok requestId value).json.size L.float.repr ≤ maxMessageBytes) :
    s.reply L requestId operation p now =
      (.ok requestId value, { s with world := { s.world with db } }) := by
  have hpayload : (Reply.ok requestId value).payload L =
      .ok (dumps L (Reply.ok requestId value).json).toUTF8 :=
    encodeMessage_eq_ok.mpr ⟨hfits, rfl⟩
  unfold Server.reply
  rw [h]
  dsimp only
  rw [hpayload]

lemma reply_refused (h : operate L operation p.worker s.draining now s.world.db = .ok (value, db))
    (hlarge : ¬(Reply.ok requestId value).json.size L.float.repr ≤ maxMessageBytes) :
    s.reply L requestId operation p now =
      (refusal L requestId messageTooLarge, { s with world := { s.world with db } }) := by
  have hpayload : (Reply.ok requestId value).payload L = .error messageTooLarge := by
    unfold Reply.payload encodeMessage
    dsimp only
    rw [dumps_size, require_false hlarge, error_bind]
  unfold Server.reply
  rw [h]
  dsimp only
  rw [hpayload]

lemma reply_error {e : Exc}
    (h : operate L operation p.worker s.draining now s.world.db = .error e) :
    s.reply L requestId operation p now = (refusal L requestId e, s) := by
  unfold Server.reply
  rw [h]

lemma Passes.error {e : Exc} (h : Passes L config s frames uuid request operation p)
    (hrun : operate L operation p.worker s.draining now s.world.db = .error e) :
    s.serve L config frames now uuid = (refusal L request.requestId.1 e,
      { s with providers := (provider config request uuid s.providers).2 }) :=
  h.serve.trans (reply_error hrun)

lemma Passes.ok (h : Passes L config s frames uuid request operation p)
    (hrun : operate L operation p.worker s.draining now s.world.db = .ok (value, db))
    (hfits : (Reply.ok request.requestId.1 value).json.size L.float.repr ≤ maxMessageBytes) :
    s.serve L config frames now uuid = (.ok request.requestId.1 value,
      { s with world := { s.world with db }
               providers := (provider config request uuid s.providers).2 }) :=
  h.serve.trans (reply_ok hrun hfits)

lemma Passes.refused (h : Passes L config s frames uuid request operation p)
    (hrun : operate L operation p.worker s.draining now s.world.db = .ok (value, db))
    (hlarge : ¬(Reply.ok request.requestId.1 value).json.size L.float.repr ≤ maxMessageBytes) :
    s.serve L config frames now uuid = (refusal L request.requestId.1 messageTooLarge,
      { s with world := { s.world with db }
               providers := (provider config request uuid s.providers).2 }) :=
  h.serve.trans (reply_refused hrun hlarge)

/-! ## The states of the server -/

/-- The states reached from empty tables by turns of the server and by whatever the sessions and
workers of the host do in between. -/
inductive Reachable (L : Library) (config : Config) : Server → Prop
  | start : Reachable L config {}
  | custody {s : Server} (h : Reachable L config s) (op : Op) (now : Nat) :
      Reachable L config { s with world := (op.perform L.float now s.world).2 }
  | turn {s : Server} (h : Reachable L config s) (frames : List ByteArray) (now : Nat)
      (uuid : Name) : Reachable L config (s.serve L config frames now uuid).2
  | drain {s : Server} (h : Reachable L config s) : Reachable L config { s with draining := true }

lemma operate_sound {worker : Worker} {draining : Bool}
    (h : operate L operation worker draining now w.db = .ok (value, db))
    (hw : w.Sound L.float) : db.Sound L.float := by
  cases operation with
  | claim =>
    unfold operate at h
    dsimp only at h
    split_ifs at h
    · cases h
      exact hw.rows
    · obtain ⟨⟨handed, after⟩, hclaim, h⟩ := bind_eq_ok.mp h
      cases h
      exact (claim_effect hclaim).sound hw
  | heartbeat attempt details =>
    obtain ⟨⟨latest, after⟩, hbeat, h⟩ := bind_eq_ok.mp h
    cases h
    exact (heartbeat_effect hbeat).sound hw
  | complete attempt result =>
    obtain ⟨⟨d, after⟩, hcomplete, h⟩ := bind_eq_ok.mp h
    cases h
    exact (complete_effect hcomplete).sound hw
  | fail attempt failure =>
    obtain ⟨⟨d, after⟩, hfail, h⟩ := bind_eq_ok.mp h
    cases h
    exact (fail_effect hfail).sound hw

lemma reply_sound (hs : s.world.Sound L.float) :
    (s.reply L requestId operation p now).2.world.Sound L.float := by
  cases hrun : operate L operation p.worker s.draining now s.world.db with
  | error e =>
    rw [reply_error hrun]
    exact hs
  | ok result =>
    obtain ⟨value, db⟩ := result
    have hdb : { s.world with db }.Sound L.float := ⟨operate_sound hrun hs, hs.sessions⟩
    by_cases hfits : (Reply.ok requestId value).json.size L.float.repr ≤ maxMessageBytes
    · rw [reply_ok hrun hfits]
      exact hdb
    · rw [reply_refused hrun hfits]
      exact hdb

lemma Reachable.sound (h : Reachable L config s) : s.world.Sound L.float := by
  induction h with
  | start =>
    refine ⟨?_, ?_⟩
    · intro key t hget
      cases hget
    · intro id session hget
      cases hget
  | custody _ op now ih => exact Op.perform_sound ih op now
  | @turn s _ frames now uuid ih =>
    rcases serve_cases L config s frames now uuid with ⟨request, operation, p, hpasses⟩ | hsame
    · rw [hpasses.serve]
      exact reply_sound ih
    · rw [hsame]
      exact ih
  | drain _ ih => exact ih

end Petrus.Motus.ZeroMQ
