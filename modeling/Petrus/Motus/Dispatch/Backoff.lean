import Petrus.Motus.Dispatch.Fencing

/-!
# The due time of a failed attempt

A retryable failure sets the due time to the greater of the policy's backoff and the
`retry_after` of the failure. Every claim sweeps first, and the sweep sets the due time
of an expired lease to the backoff alone.
-/

namespace Petrus.Motus.LocalDispatch

open Lib List Dict

variable {F : FloatArithmetic} {w w' : World} {es : List Event} {now : Nat} {key : Key}
variable {n floor : Nat} {attempt : ActivityAttempt}

lemma number_spelling {a b : Option PyNumber}
    (h : (ActivityFailure.number a).spelling = (ActivityFailure.number b).spelling) : a = b := by
  cases a <;> cases b <;> simp_all [ActivityFailure.number, Json.spelling, Json.normal]

lemma policy_of_encode {a b : ActivityInvocation Json}
    (h : encodeInvocation a = encodeInvocation b) : a.policy = b.policy := by
  have hwire : (policyWire a.policy).spelling = (policyWire b.policy).spelling :=
    Json.spelling_member h (k := "policy") (by simp) (by simp)
  have hnum : ∀ {m n : PyNumber}, (Json.num m).spelling = (Json.num n).spelling → m = n := by
    intro m n hmn
    exact Json.num.inj hmn
  have hattempts : PyNumber.int a.policy.attempts = .int b.policy.attempts :=
    hnum (Json.spelling_member hwire (k := "attempts") (by simp) (by simp))
  have hheartbeat : PyNumber.int a.policy.heartbeatTimeout = .int b.policy.heartbeatTimeout :=
    hnum (Json.spelling_member hwire (k := "heartbeat_timeout") (by simp) (by simp))
  have hinitial : a.policy.initialInterval = b.policy.initialInterval :=
    hnum (Json.spelling_member hwire (k := "initial_interval") (by simp) (by simp))
  have hcoefficient : a.policy.coefficient = b.policy.coefficient :=
    hnum (Json.spelling_member hwire (k := "coefficient") (by simp) (by simp))
  have hmax : a.policy.maxInterval = b.policy.maxInterval :=
    hnum (Json.spelling_member hwire (k := "max_interval") (by simp) (by simp))
  have hjitter : a.policy.jitter = b.policy.jitter :=
    hnum (Json.spelling_member hwire (k := "jitter") (by simp) (by simp))
  have hstart : a.policy.startToClose = b.policy.startToClose :=
    number_spelling (Json.spelling_member hwire (k := "start_to_close") (by simp) (by simp))
  have hschedule : a.policy.scheduleToClose = b.policy.scheduleToClose :=
    number_spelling (Json.spelling_member hwire (k := "schedule_to_close") (by simp) (by simp))
  cases ha : a.policy
  cases hb : b.policy
  simp_all

/-! ## A given-back row waits for its due time -/

/-- The lease ended at `n`, its backoff is at least `floor`, and the row is not due before that. -/
def Waiting (F : FloatArithmetic) (n floor : Nat) (c : Custody) : Prop :=
  ∃ t l, c.task = some t ∧ t.lease = some l ∧ l.deadline = n ∧
    floor ≤ milliseconds F (t.invocation.policy.delay F l.epoch) ∧ n + floor ≤ t.availableAt

lemma Move.waiting {a b : Custody} (m : Move F now a b) (hnow : n ≤ now)
    (h : Waiting F n floor a) : Waiting F n floor b := by
  obtain ⟨t, l, ht, hl, hdeadline, hfloor, hdue⟩ := h
  cases m with
  | published => cases ht
  | routed t' queue idle =>
    cases ht
    exact ⟨_, l, rfl, hl, hdeadline, hfloor, hdue⟩
  | delayed t' l' lease expired remaining =>
    cases ht
    obtain rfl := Option.some.inj (hl.symm.trans lease)
    refine ⟨_, l, rfl, hl, hdeadline, hfloor, ?_⟩
    rw [hdeadline]
    exact Nat.add_le_add_left hfloor n
  | exhausted | reported | cancelled => exact ⟨t, l, ht, hl, hdeadline, hfloor, hdue⟩
  | renewed t' l' details lease | released t' l' available lease =>
    cases ht
    obtain rfl := Option.some.inj (hl.symm.trans lease)
    omega

lemma invariant_waiting :
    Invariant F n fun now handed c => handed = [] ∧ Waiting F n floor c ∨ n + floor ≤ now where
  later _ _ _ _ hle h := h.imp_right fun hdue => hdue.trans hle
  move _ _ _ _ hnow h m := h.imp_left fun ⟨hnone, hwaiting⟩ => ⟨hnone, m.waiting hnow hwaiting⟩
  claim _ _ _ _ _ h _ due _ _ := by
    right
    rcases h with ⟨-, t, l, ht, -, -, -, hdue⟩ | hdue
    · cases ht
      exact hdue.trans due
    · exact hdue

lemma Runs.upto (h : Runs F w es w') {e : Event} (he : e ∈ es) :
    ∃ before after, Runs F w (before ++ [e]) after ∧ after.clock = e.now := by
  induction h with
  | refl => cases he
  | @step es mid h op now forward ih =>
    rcases mem_append.mp he with he | he
    · exact ih he
    · rw [mem_singleton.mp he]
      exact ⟨es, _, h.step op now forward, rfl⟩

lemma Runs.backoff (h : Runs F w es w') (hwaiting : Waiting F w.clock floor (w.db.custody key))
    {e : Event} (he : e ∈ es) (hattempt : e.reply.attempt? = some attempt)
    (hid : attempt.attemptId = some (attemptId key)) : w.clock + floor ≤ e.now := by
  obtain ⟨before, after, hrun, hclock⟩ := h.upto he
  have hstart : ([] : List ActivityAttempt) = [] ∧ Waiting F w.clock floor (w.db.custody key) ∨
      w.clock + floor ≤ w.clock := .inl ⟨rfl, hwaiting⟩
  have hinvariant := hrun.invariant (k := key) invariant_waiting hstart
  rcases hinvariant with ⟨hnone, -⟩ | hdue
  · -- the event itself handed out an attempt on the row
    rw [handedOut_append, append_eq_nil_iff] at hnone
    simp [hattempt, attemptsOn, hid] at hnone
  · rwa [hclock] at hdue

/-! ## A swept row is due at its backoff -/

/-- An expired row alone on its queue, with attempts and schedule left. -/
structure Alone (F : FloatArithmetic) (db : Database) (queue : String) (due : Nat) (key : Key)
    (t : Task) (l : Lease) : Prop where
  task : db.tasks.get? key = some t
  lease : t.lease = some l
  free : db.open_ key = true
  queue_eq : t.queue = queue
  only : ∀ k t', db.tasks.get? k = some t' → t'.queue = queue → k = key
  expired : l.deadline ≤ due
  remaining : l.epoch < t.attempts
  waited : l.deadline + milliseconds F (t.invocation.policy.delay F l.epoch) ≤ due
  scheduled : ∀ d ∈ t.invocation.policy.scheduleToClose, due < t.scheduleStart + milliseconds F d

variable {db : Database} {queue : String} {due : Nat} {t : Task} {l : Lease}

lemma delayed_queue (queues : List String) (k : Key) (t : Task) :
    (db.delayed F now queues k t).queue = t.queue := by
  rcases delayed_cases F now db queues k t with h | ⟨l, -, -, -, -, h⟩ <;>
    rw [h]

lemma Alone.delayed (h : Alone F db queue due key t l) :
    db.delayed F due [queue] key t = { t with
      availableAt := l.deadline + milliseconds F (t.invocation.policy.delay F l.epoch) } := by
  have hguard : db.open_ key = true ∧ t.queue ∈ [queue] ∧ l.deadline ≤ due ∧ l.epoch < t.attempts :=
    ⟨h.free, by simp [h.queue_eq], h.expired, h.remaining⟩
  simp only [Database.delayed, h.lease, if_pos hguard]

lemma Alone.not_exhausted (h : Alone F db queue due key t l) {row : Key × Task}
    (hrow : row ∈ (db.tasks.mapValues (db.delayed F due [queue])).entries) :
    db.exhausted F due [queue] row.1 row.2 = false := by
  rw [Bool.eq_false_iff]
  intro hexhausted
  have hget : (db.tasks.get? row.1).map (db.delayed F due [queue] row.1) = some row.2 := by
    rw [← get?_mapValues]
    exact get?_eq_some.mpr hrow
  obtain ⟨t', ht', hdelayed⟩ := Option.map_eq_some_iff.mp hget
  have hqueue : t'.queue = queue := by
    unfold Database.exhausted at hexhausted
    simp only [Bool.and_eq_true, contains_iff_mem, mem_singleton] at hexhausted
    rw [← hexhausted.1.2, ← hdelayed, delayed_queue]
  obtain hkey := h.only _ _ ht' hqueue
  rw [hkey, h.task, Option.some.injEq] at ht'
  rw [hkey, ← ht', h.delayed] at hdelayed
  obtain ⟨-, hover⟩ := exhausted_over hexhausted
  rw [← hdelayed] at hover
  rcases hover with ⟨-, hspent⟩ | ⟨d, hd, hclosed⟩
  · -- the lease was not the last one
    have hepoch := Task.epoch_lease h.lease
    change t.attempts ≤ t.epoch at hspent
    have := h.remaining
    omega
  · -- nor has the schedule deadline passed
    have hpos := (t.invocation.policy.schedule_bound d hd).1
    rw [sqlMilliseconds_eq F hpos] at hclosed
    have := h.scheduled d hd
    change t.scheduleStart + milliseconds F d ≤ due at hclosed
    omega

lemma Alone.swept (h : Alone F db queue due key t l) :
    terminalizeExhausted F due [queue] db =
      .ok { db with tasks := db.tasks.mapValues (db.delayed F due [queue]) } := by
  have hnone : ((db.tasks.mapValues (db.delayed F due [queue])).entries.filter fun row =>
      db.exhausted F due [queue] row.1 row.2) = [] := by
    rw [filter_eq_nil_iff]
    intro row hrow
    rw [h.not_exhausted hrow]
    simp
  unfold terminalizeExhausted
  simp only [hnone]
  rfl

lemma Alone.claim (h : Alone F db queue due key t l) (claimant : String) :
    ∃ attempt db', claim F ⟨[queue], claimant⟩ due db = .ok (some attempt, db') ∧
      attempt.attemptId = some (attemptId key) := by
  have htask : (db.tasks.mapValues (db.delayed F due [queue])).get? key = some { t with
      availableAt := l.deadline + milliseconds F (t.invocation.policy.delay F l.epoch) } := by
    rw [get?_mapValues, h.task, Option.map_some, h.delayed]
  cases hok : LocalDispatch.claim F ⟨[queue], claimant⟩ due db with
  | error e =>
    unfold LocalDispatch.claim at hok
    rw [h.swept, ok_bind] at hok
    split at hok <;> cases hok
  | ok answer =>
    obtain ⟨handed, db'⟩ := answer
    obtain ⟨swept, hsweep, hrow⟩ := claim_eq_ok hok
    obtain rfl := Except.ok.inj (h.swept.symm.trans hsweep)
    rcases hrow with ⟨rfl, -, hnone⟩ | ⟨k, row, attempt, rfl, hk, hclaimable, hid, -⟩
    · -- the row itself is claimable, so the search finds something
      refine absurd (claimable_iff.mpr ?_) (hnone _ (get?_eq_some.mp htask))
      refine ⟨h.free, by simp [h.queue_eq], ?_, h.waited, ?_⟩
      · change t.epoch < t.attempts
        rw [Task.epoch_lease h.lease]
        exact h.remaining
      · exact (Task.idle_lease h.lease).mpr h.expired
    · obtain ⟨-, hqueue, -⟩ := claimable_iff.mp hclaimable
      rw [get?_mapValues] at hk
      obtain ⟨t', ht', rfl⟩ := Option.map_eq_some_iff.mp hk
      rw [delayed_queue, mem_singleton] at hqueue
      rw [h.only _ _ ht' hqueue] at hid
      exact ⟨attempt, db', rfl, hid⟩

lemma exists_fresh_queue (db : Database) :
    ∃ queue, validName queue = true ∧ ∀ k t, db.tasks.get? k = some t → t.queue ≠ queue := by
  let lengths := db.tasks.values.map fun t => t.queue.length
  refine ⟨String.ofList (List.replicate (lengths.foldr max ⊥ + 1) 'q'), ?_, ?_⟩
  · simp [validName, replicate_succ]
  · intro k t ht heq
    have hmem : t.queue.length ∈ lengths :=
      mem_map_of_mem (mem_values.mpr ⟨k, ht⟩)
    have hle := le_max_of_le hmem (Nat.le_refl _)
    rw [heq, String.length_ofList, length_replicate] at hle
    omega

lemma attemptKey_eq_ok (h : attemptKey attempt = .ok key) :
    validName key.1 = true ∧ 0 < key.2 := by
  unfold attemptKey at h
  split at h
  · obtain ⟨⟨hname, hpos, -⟩, h⟩ := require_bind_eq_ok.mp h
    cases h
    exact ⟨hname, by omega⟩
  · cases h

lemma Effect.fail_retryable {report : Report} {db' : Database}
    (h : Effect F now w (.fail attempt report) (.reported .retryable) db') :
    ∃ key t l failure available, report.failed = .ok failure ∧ Active attempt w.db now key t l ∧
      Released F attempt failure now t l available ∧
      db' = { w.db with tasks := w.db.tasks.set key (t.released l now available) } := by
  cases h with
  | still passive => cases passive
  | heard _ ended => exact absurd rfl ended.2
  | released failed active released => exact ⟨_, _, _, _, _, failed, active, released, rfl⟩

lemma World.reroute (id : Nat) {queue : String} (hname : validName key.1 = true)
    (hpos : 0 < key.2) (hqueue : validName queue = true) (htask : w.db.tasks.get? key = some t)
    (hfree : w.db.open_ key = true) (hidle : t.idle now = true) (hclock : w.clock = now) :
    ∃ es w', Runs F w es w' ∧ w'.clock = now ∧
      w'.db = { w.db with tasks := w.db.tasks.set key { t with queue } } := by
  obtain ⟨hterminal, hopen⟩ := open_iff.mp hfree
  let session : Session := { instanceId := key.1, defaultQueue := queue }
  have hsession : Session.open_ key.1 queue .empty = .ok session := by
    simp [Session.open_, name, hname, hqueue, Dict.empty, session]
  have hopened : (Op.openSession id key.1 queue .empty).perform F now w =
      (.done, { w with sessions := w.sessions.set id session }) := by
    simp only [Op.perform, hsession]
  have hdispatch : LocalDispatch.dispatch session key.2 t.invocation now w.db =
      .ok (session.publish key.2, { w.db with tasks := w.db.tasks.set key { t with queue } }) := by
    have hmove : w.db.terminals.contains key = false ∧ t.idle now = true :=
      ⟨contains_eq_false.mpr hterminal, hidle⟩
    have hkey : (session.instanceId, key.2) = key := rfl
    have hroute : session.route t.invocation.activity = queue := rfl
    simp only [LocalDispatch.dispatch, hkey, hopen, htask, Option.getD_some, hroute]
    rw [require_bind hpos, require_bind trivial, if_pos hmove]
    rfl
  have hrun := (Runs.refl (F := F) (w := w)).step
    (Op.openSession id key.1 queue .empty) now hclock.le
  rw [hopened] at hrun
  have hrun' := hrun.step (Op.dispatch id key.2 t.invocation) now (Nat.le_refl _)
  refine ⟨_, _, hrun', rfl, ?_⟩
  simp only [Op.perform, World.session, get?_set_self, hdispatch]

lemma claimed_at_backoff {available : Nat} (hname : validName key.1 = true)
    (hpos : 0 < key.2) (htask : w.db.tasks.get? key = some (t.released l n available))
    (hfree : w.db.open_ key = true) (hclock : w.clock = n) (hremaining : l.epoch < t.attempts)
    (hscheduled : ∀ d ∈ t.invocation.policy.scheduleToClose,
      n + milliseconds F (t.invocation.policy.delay F l.epoch) <
        t.scheduleStart + milliseconds F d) :
    ∃ es w' e a, Runs F w es w' ∧ e ∈ es ∧ e.reply.attempt? = some a ∧
      a.attemptId = some (attemptId key) ∧
      e.now = n + milliseconds F (t.invocation.policy.delay F l.epoch) := by
  obtain ⟨queue, hqueue, hfresh⟩ := exists_fresh_queue w.db
  have hidle : (t.released l n available).idle n = true :=
    (Task.idle_lease (l := { l with deadline := n }) rfl).mpr (Nat.le_refl _)
  obtain ⟨es, w₁, hrun, hclock₁, hdb⟩ := World.reroute (F := F) 0 hname hpos hqueue htask
    hfree hidle hclock
  have halone : Alone F w₁.db queue (n + milliseconds F (t.invocation.policy.delay F l.epoch)) key
      { t.released l n available with queue } { l with deadline := n } := by
    refine ⟨?_, rfl, ?_, rfl, ?_, Nat.le_add_right _ _, hremaining, Nat.le_refl _, hscheduled⟩
    · rw [hdb, get?_set_self]
    · rw [hdb]
      exact hfree
    · intro k t' ht' hsame
      rw [hdb, get?_set] at ht'
      split_ifs at ht' with hk
      · exact hk.symm
      · exact absurd hsame (hfresh k t' ht')
  obtain ⟨attempt, db', hclaim, hid⟩ := halone.claim "worker"
  have hlater : w₁.clock ≤ n + milliseconds F (t.invocation.policy.delay F l.epoch) := by
    omega
  refine ⟨_, _, _, attempt, hrun.step (.claim ⟨[queue], "worker"⟩) _ hlater,
    mem_append_right _ (mem_singleton_self _), ?_, hid, rfl⟩
  simp only [Op.perform, World.transact, hclaim, Reply.attempt?]

/-- The floor `retry_after` asks for is kept exactly when the policy's own backoff reaches it. -/
theorem retry_after_floor {attempt : ActivityAttempt} {failure : ActivityFailure} {epoch : Nat}
    {r : PyNumber} (hkey : attemptKey attempt = .ok key) (hepoch : attempt.epoch = .str epoch)
    (hr : failure.retryAfter = some r)
    (hfail : ((Op.fail attempt (.classified failure)).perform F now w).1 = .reported .retryable) :
    (∀ es w', Runs F { ((Op.fail attempt (.classified failure)).perform F now w).2 with
        clock := now } es w' →
      ∀ e ∈ es, ∀ a, e.reply.attempt? = some a → a.attemptId = some (attemptId key) →
        now + milliseconds F (pyMax (attempt.invocation.policy.delay F epoch) r) ≤ e.now) ↔
      milliseconds F (pyMax (attempt.invocation.policy.delay F epoch) r) ≤
        milliseconds F (attempt.invocation.policy.delay F epoch) := by
  have heffect := (Op.fail attempt (.classified failure)).perform_effect (F := F) now w
  rw [hfail] at heffect
  obtain ⟨k, t, l, failure', available, hfailure, hactive, hreleased, hdb⟩ :=
    heffect.fail_retryable
  generalize ((Op.fail attempt (.classified failure)).perform F now w).2 = after at hdb ⊢
  obtain rfl := Except.ok.inj (hactive.key_eq.symm.trans hkey)
  cases hfailure
  obtain rfl : epoch = l.epoch := by
    have hspelled := hactive.spelled
    rw [hepoch] at hspelled
    injection hspelled
  have hpolicy := policy_of_encode hactive.invocation
  have hrow : after.db.tasks.get? k = some (t.released l now available) := by
    rw [hdb, get?_set_self]
  have hfloor : retryDelay F attempt.invocation.policy l.epoch failure =
      pyMax (attempt.invocation.policy.delay F l.epoch) r := by
    unfold retryDelay
    rw [hr]
    rfl
  have havailable := hreleased.available_eq
  rw [hfloor] at havailable
  constructor
  · -- a worker that sweeps between the backoff and the floor is handed the row
    intro hkept
    by_contra hlt
    obtain ⟨hname, hpos⟩ := attemptKey_eq_ok hkey
    have hscheduled : ∀ d ∈ t.invocation.policy.scheduleToClose,
        now + milliseconds F (t.invocation.policy.delay F l.epoch) <
          t.scheduleStart + milliseconds F d := by
      intro d hd
      rw [hpolicy] at hd ⊢
      have := hreleased.scheduled d hd
      omega
    have hfree : after.db.open_ k = true := by
      rw [hdb]
      exact open_iff.mpr ⟨hactive.unreported, hactive.open_⟩
    obtain ⟨es, w', e, a, hrun, he, ha, hid, hnow⟩ := claimed_at_backoff (F := F)
      (w := { after with clock := now }) hname hpos hrow hfree rfl hreleased.remaining hscheduled
    have hfloorKept := hkept es w' hrun e he a ha hid
    rw [hnow, hpolicy] at hfloorKept
    omega
  · -- the sweep writes the due time the failure already has
    intro hle es w' hrun e he a ha hid
    refine hrun.backoff ?_ he ha hid
    refine ⟨_, { l with deadline := now }, hrow, rfl, rfl, ?_, ?_⟩
    · rw [show (t.released l now available).invocation = t.invocation from rfl, hpolicy]
      exact hle
    · rw [← havailable]
      exact Nat.le_refl _

/-! ## A floor that is kept and one that is not -/

lemma busy_bound : "busy" ≠ "" ∧ "busy".length ≤ 4096 := by decide

lemma ten_seconds_bound :
    ∀ d ∈ some (PyNumber.int 10), 0 ≤ d.toDyadic ∧ d.toDyadic ≤ maxDurationSeconds := by decide

def busy : ActivityFailure where
  error := "busy"
  retryable := true
  retryAfter := some (.int 10)
  error_bound := busy_bound
  kind_bound := ActivityFailure.kind_default
  retryAfter_bound := ten_seconds_bound

/-- Leased by `left` at instant 10, under a policy with the given first interval. -/
def leasedCharge (interval : PyNumber)
    (h : 0 ≤ interval.toDyadic ∧ interval.toDyadic ≤ maxDurationSeconds) :
    World × ActivityAttempt :=
  let patient : ActivityInvocation Json :=
    { charge with policy := { charge.policy with initialInterval := interval, initial_bound := h } }
  ((World.play plainFloat {} [(.openSession 0 "one" "default" .empty, 0),
    (.dispatch 0 1 patient, 0),
    (.claim ⟨["default"], "left"⟩, 10)]).2, { chargeAttempt 1 "left" with invocation := patient })

/-- The policy waits a minute, so the ten seconds of the failure are kept. -/
theorem retry_after_floor_charge :
    let leased := leasedCharge (.int 60) (by decide)
    let failed := (Op.fail leased.2 (.classified busy)).perform plainFloat 20 leased.1
    failed.1 = .reported .retryable ∧
      ∀ es w', Runs plainFloat { failed.2 with clock := 20 } es w' → ∀ e ∈ es, ∀ a,
        e.reply.attempt? = some a → a.attemptId = some (attemptId ("one", 1)) → 60020 ≤ e.now := by
  intro leased failed
  have hfail : failed.1 = .reported .retryable := by decide +kernel
  have hkey : attemptKey leased.2 = .ok ("one", 1) := by decide +kernel
  have hepoch : leased.2.epoch = .str 1 := rfl
  have hfloor : milliseconds plainFloat (pyMax (leased.2.invocation.policy.delay plainFloat 1)
      (.int 10)) = 60000 := by decide +kernel
  have hbackoff : milliseconds plainFloat (leased.2.invocation.policy.delay plainFloat 1) =
      60000 := by decide +kernel
  refine ⟨hfail, ?_⟩
  intro es w' hrun e he a ha hid
  have hkept := (retry_after_floor hkey (r := .int 10) hepoch rfl hfail).mpr
    (by rw [hfloor, hbackoff]) es w' hrun e he a ha hid
  rw [hfloor] at hkept
  exact hkept

/-- The policy has no backoff of its own: the failure at instant 20 asks for ten seconds, and a
claim at instant 20 already returns the occurrence. -/
theorem retry_after_not_kept :
    let leased := leasedCharge (.int 0) (by decide)
    let failed := (Op.fail leased.2 (.classified busy)).perform plainFloat 20 leased.1
    failed.1 = .reported .retryable ∧
      (failed.2.db.tasks.get? ("one", 1)).map Task.availableAt = some 10020 ∧
      ((Op.claim ⟨["default"], "right"⟩).perform plainFloat 20 failed.2).1 =
        .claimed (some { leased.2 with epoch := .str 2, claimant := "right" }) := by
  decide +kernel

end Petrus.Motus.LocalDispatch
