import Petrus.Motus.Dispatch.Local

/-!
# Interleavings of local dispatch

Any number of sessions and workers share one database. Their operations are
serialized transactions under a provider clock that never goes back; a run is a list
of them with their replies. What an operation writes to the tables is said once, for
all that is to be proved of it.
-/

namespace Petrus.Motus.LocalDispatch

open Lib List Dict

/-- The database, the sessions open on it and the last sampled provider instant. -/
structure World where
  db : Database := {}
  sessions : Dict Nat Session := .empty
  clock : Nat := 0

inductive Op where
  | openSession (id : Nat) (instanceId defaultQueue : String) (activityQueues : Dict String String)
  | dispatch (id : Nat) (occurrence : Nat) (invocation : ActivityInvocation Json)
  | cancel (id : Nat) (instruction : CancellationInstruction)
  | collect (id : Nat)
  | claim (worker : Worker)
  | poll (worker : Worker)
  | heartbeat (attempt : ActivityAttempt) (details : Option Payload)
  | complete (attempt : ActivityAttempt) (result : Payload)
  | fail (attempt : ActivityAttempt) (report : Report)

inductive Reply where
  | raised (e : Exc)
  | noSession
  | done
  | cancelled (d : CancellationDisposition)
  | collected (outcomes : List (Nat × Outcome))
  | claimed (attempt : Option ActivityAttempt)
  | ready (claimable : Bool)
  | beat (latest : Json)
  | reported (d : Disposition)
  deriving DecidableEq

def World.transact {α : Type} (w : World) (x : Except Exc (α × Database)) (reply : α → Reply) :
    Reply × World :=
  match x with
  | .ok (a, db) => (reply a, { w with db })
  | .error e => (.raised e, w)

def World.session (w : World) (id : Nat) (f : Session → Reply × World) : Reply × World :=
  match w.sessions.get? id with
  | none => (.noSession, w)
  | some session => f session

def Op.perform (F : FloatArithmetic) (now : Nat) (w : World) : Op → Reply × World
  | .openSession id instanceId defaultQueue activityQueues =>
    match Session.open_ instanceId defaultQueue activityQueues with
    | .ok session => (.done, { w with sessions := w.sessions.set id session })
    | .error e => (.raised e, w)
  | .dispatch id occurrence invocation => w.session id fun session =>
    match LocalDispatch.dispatch session occurrence invocation now w.db with
    | .ok (session, db) => (.done, { w with db, sessions := w.sessions.set id session })
    | .error e => (.raised e, w)
  | .cancel id instruction => w.session id fun session =>
    match LocalDispatch.cancel session instruction w.db with
    | .ok (d, session, db) => (.cancelled d, { w with db, sessions := w.sessions.set id session })
    | .error e => (.raised e, w)
  | .collect id => w.session id fun session =>
    let (outcomes, session) := LocalDispatch.collect session w.db
    (.collected outcomes, { w with sessions := w.sessions.set id session })
  | .claim worker => w.transact (LocalDispatch.claim F worker now w.db) .claimed
  | .poll worker => w.transact (LocalDispatch.poll F worker now w.db) .ready
  | .heartbeat attempt details =>
    w.transact (LocalDispatch.heartbeat F attempt details now w.db) .beat
  | .complete attempt result =>
    w.transact (LocalDispatch.complete attempt result now w.db) .reported
  | .fail attempt report =>
    w.transact (LocalDispatch.fail F attempt report now w.db) .reported

structure Event where
  op : Op
  now : Nat
  reply : Reply

/-- The events from one world to another, at instants that never decrease. -/
inductive Runs (F : FloatArithmetic) (w : World) : List Event → World → Prop
  | refl : Runs F w [] w
  | step {es : List Event} {w' : World} (h : Runs F w es w') (op : Op) (now : Nat)
      (forward : w'.clock ≤ now) :
      Runs F w (es ++ [⟨op, now, (op.perform F now w').1⟩])
        { (op.perform F now w').2 with clock := now }

def Reply.attempt? : Reply → Option ActivityAttempt
  | .claimed attempt => attempt
  | _ => none

variable {F : FloatArithmetic} {w : World} {db db' : Database} {now : Nat} {key : Key}
  {attempt : ActivityAttempt} {t : Task} {l : Lease}
variable {queues : List String} {worker : Worker} {op : Op}

/-! ## What the tables say of an attempt -/

/-- The attempt names the current lease of an unreported row. -/
structure Fenced (attempt : ActivityAttempt) (db : Database) (key : Key) (t : Task) (l : Lease) :
    Prop where
  key_eq : attemptKey attempt = .ok key
  task : db.tasks.get? key = some t
  lease : t.lease = some l
  queue : t.queue = attempt.queue
  invocation : encodeInvocation t.invocation = encodeInvocation attempt.invocation
  epoch : attempt.epoch.int = .ok (l.epoch : Int)
  claimant : l.claimant = attempt.claimant
  unreported : db.terminals.get? key = none

lemma open_iff : db.open_ key = true ↔
    db.terminals.get? key = none ∧ db.cancellations.get? key = none := by
  unfold Database.open_
  rw [Bool.and_eq_true, Bool.not_eq_true', Bool.not_eq_true', contains_eq_false, contains_eq_false]

lemma Task.epoch_lease (h : t.lease = some l) : t.epoch = l.epoch := by
  simp [Task.epoch, h]

lemma Task.idle_lease (h : t.lease = some l) : t.idle now = true ↔ l.deadline ≤ now := by
  simp [Task.idle, h]

/-- In time, and not cancelled. -/
structure Active (attempt : ActivityAttempt) (db : Database) (now : Nat) (key : Key) (t : Task)
    (l : Lease) : Prop extends Fenced attempt db key t l where
  spelled : attempt.epoch = .str l.epoch
  open_ : db.cancellations.get? key = none
  live : now < l.deadline

lemma active_eq_ok (h : active attempt now db = .ok (key, t, l)) :
    Active attempt db now key t l := by
  unfold active at h
  obtain ⟨key', hkey, h⟩ := bind_eq_ok.mp h
  split at h
  · cases h
  · rename_i task htask
    split at h
    · cases h
    · rename_i lease hlease
      obtain ⟨⟨hopen, hqueue, hinvocation, hepoch, hclaimant, hdeadline⟩, h⟩ :=
        require_bind_eq_ok.mp h
      cases h
      obtain ⟨hterminal, hcancelled⟩ := open_iff.mp hopen
      have hint : attempt.epoch.int = .ok (l.epoch : Int) := by
        rw [← hepoch]
        rfl
      exact ⟨⟨hkey, htask, hlease, hqueue, hinvocation, hint, hclaimant, hterminal⟩, hepoch.symm,
        hcancelled, hdeadline⟩

lemma exists_classified (error kind : String) (retryable : Bool) :
    (∃ failure, ActivityFailure.classified error kind retryable = .ok failure) ↔
      (error ≠ "" ∧ error.length ≤ 4096) ∧ kind ≠ "" ∧ kind.length ≤ 128 := by
  unfold ActivityFailure.classified
  split_ifs with herror hkind
  · exact ⟨fun _ => ⟨herror, hkind⟩, fun _ => ⟨_, rfl⟩⟩
  · simp [hkind]
  · simp [herror]

lemma cancelledAttempt_eq_ok (h : cancelledAttempt attempt db = .ok true)
    (hkey : attemptKey attempt = .ok key) (hterminal : db.terminals.get? key = none) :
    db.cancellations.get? key ≠ none ∧ ∃ t l, Fenced attempt db key t l := by
  unfold cancelledAttempt at h
  rw [hkey, ok_bind] at h
  split_ifs at h with hcancelled
  · cases h
  obtain ⟨epoch, hepoch, h⟩ := bind_eq_ok.mp h
  obtain ⟨hrow, -⟩ := require_bind_eq_ok.mp h
  rw [contains_eq_false] at hcancelled
  refine ⟨hcancelled, ?_⟩
  obtain ⟨task, htask, hfields⟩ := Option.map_eq_some_iff.mp hrow
  simp only [Prod.mk.injEq] at hfields
  obtain ⟨hqueue, hinvocation, hnumber, hclaimant⟩ := hfields
  obtain ⟨lease, hlease, hname⟩ := Option.map_eq_some_iff.mp hclaimant
  rw [Task.epoch_lease hlease] at hnumber
  exact ⟨task, lease, hkey, htask, hlease, hqueue, hinvocation, by rw [hepoch, hnumber], hname,
    hterminal⟩

lemma acknowledgeTerminalRetry_eq_false {outcome : Outcome}
    (h : acknowledgeTerminalRetry attempt outcome db = .ok false) :
    ∃ key, attemptKey attempt = .ok key ∧ db.terminals.get? key = none := by
  unfold acknowledgeTerminalRetry at h
  obtain ⟨key, hkey, h⟩ := bind_eq_ok.mp h
  refine ⟨key, hkey, ?_⟩
  split at h
  · assumption
  · obtain ⟨_, -, h⟩ := bind_eq_ok.mp h
    obtain ⟨-, h⟩ := require_bind_eq_ok.mp h
    cases h

def Lease.terminal (l : Lease) (outcome : Outcome) : Terminal :=
  ⟨l.epoch, some l.claimant, outcome⟩

lemma Fenced.insertTerminal (h : Fenced attempt db key t l) (outcome : Outcome) :
    insertTerminal attempt outcome db =
      .ok { db with terminals := db.terminals.set key (l.terminal outcome) } := by
  have hcontains : db.tasks.contains key = true := contains_iff_get?.mpr ⟨t, h.task⟩
  have hfresh : db.terminals.contains key = false := contains_eq_false.mpr h.unreported
  have hpos : (0 : Int) < l.epoch := by
    have := l.epoch_pos
    omega
  unfold LocalDispatch.insertTerminal
  rw [h.key_eq, ok_bind, h.epoch, ok_bind, require_bind hfresh, require_bind hcontains,
    require_bind hpos, Lease.terminal, h.claimant]
  rfl

/-- A report is heard when it comes from the current lease in time, or from the lease a
cancellation fenced. -/
def Heard (attempt : ActivityAttempt) (db : Database) (now : Nat) (key : Key) (t : Task)
    (l : Lease) : Prop :=
  Fenced attempt db key t l ∧
    (db.cancellations.get? key = none ∧ attempt.epoch = .str l.epoch ∧ now < l.deadline ∨
      db.cancellations.get? key ≠ none)

lemma snapshotDetails_le {snapshot : Option Json} (h : snapshotDetails F details = .ok snapshot) :
    ∀ d ∈ snapshot, d.size F.repr ≤ heartbeatDetailsLimit := by
  cases details with
  | none =>
    cases h
    simp
  | some details =>
    obtain ⟨value, hvalue, rfl⟩ := map_eq_ok.mp h
    cases details with
    | foreign => cases hvalue
    | faithful value =>
      obtain ⟨hsize, hvalue⟩ := require_bind_eq_ok.mp hvalue
      cases hvalue
      simpa using hsize

lemma Active.heard (h : Active attempt db now key t l) : Heard attempt db now key t l :=
  ⟨h.toFenced, .inl ⟨h.open_, h.spelled, h.live⟩⟩

/-- A retryable failure ends the lease now and sets the due time. -/
structure Released (F : FloatArithmetic) (attempt : ActivityAttempt) (failure : ActivityFailure)
    (now : Nat) (t : Task) (l : Lease) (available : Nat) : Prop where
  remaining : l.epoch < t.attempts
  available_eq : available =
    now + milliseconds F (retryDelay F attempt.invocation.policy l.epoch failure)
  scheduled : ∀ d ∈ attempt.invocation.policy.scheduleToClose,
    available < t.scheduleStart + milliseconds F d

/-! ## The sweep -/

lemma exhaust_eq_ok {ts ts' : Dict Key Terminal} {row : Key × Task}
    (h : exhaust ts row = .ok ts') (k : Key) :
    ts'.get? k = ts.get? k ∨ ts.get? k = none ∧ k = row.1 ∧ ∃ failure, ts'.get? k =
      some ⟨row.2.epoch, row.2.lease.map Lease.claimant, .failed failure⟩ := by
  unfold exhaust at h
  obtain ⟨failure, -, h⟩ := bind_eq_ok.mp h
  cases h
  split_ifs with hcontains
  · exact .inl rfl
  · rw [Bool.not_eq_true, contains_eq_false] at hcontains
    rw [get?_set]
    split_ifs with hk
    · subst hk
      exact .inr ⟨hcontains, rfl, failure, rfl⟩
    · exact .inl rfl

lemma foldlM_exhaust {rows : List (Key × Task)} {ts ts' : Dict Key Terminal}
    (h : rows.foldlM exhaust ts = .ok ts') (k : Key) :
    ts'.get? k = ts.get? k ∨ ts.get? k = none ∧ ∃ t, (k, t) ∈ rows ∧ ∃ failure, ts'.get? k =
      some ⟨t.epoch, t.lease.map Lease.claimant, .failed failure⟩ := by
  induction rows generalizing ts with
  | nil =>
    cases h
    exact .inl rfl
  | cons row rows ih =>
    obtain ⟨mid, hstep, hrest⟩ := foldlM_cons_eq_ok.mp h
    rcases exhaust_eq_ok hstep k with hsame | ⟨hnone, rfl, failure, hwritten⟩
    · rcases ih hrest with hrows | ⟨hnone, t, ht, hwritten⟩
      · exact .inl (hrows.trans hsame)
      · exact .inr ⟨hsame ▸ hnone, t, mem_cons_of_mem _ ht, hwritten⟩
    · -- the row written here is kept by the rest of the sweep
      rcases ih hrest with hrows | ⟨habsent, -⟩
      · exact .inr ⟨hnone, row.2, mem_cons_self, failure, hrows.trans hwritten⟩
      · rw [hwritten] at habsent
        cases habsent

lemma terminalizeExhausted_eq_ok (h : terminalizeExhausted F now queues db = .ok db') :
    db'.cancellations = db.cancellations ∧
      ∀ k, db'.tasks.get? k = (db.tasks.get? k).map (db.delayed F now queues k) ∧
        (db'.terminals.get? k = db.terminals.get? k ∨ db.terminals.get? k = none ∧
          ∃ t, db'.tasks.get? k = some t ∧ db.exhausted F now queues k t = true ∧
            ∃ failure, db'.terminals.get? k =
              some ⟨t.epoch, t.lease.map Lease.claimant, .failed failure⟩) := by
  unfold terminalizeExhausted at h
  obtain ⟨terminals, hfold, h⟩ := bind_eq_ok.mp h
  cases h
  refine ⟨rfl, ?_⟩
  intro k
  refine ⟨get?_mapValues _ _ _, ?_⟩
  rcases foldlM_exhaust hfold k with hsame | ⟨hnone, t, ht, hwritten⟩
  · exact .inl hsame
  · obtain ⟨hmem, hexhausted⟩ := mem_filter.mp ht
    exact .inr ⟨hnone, t, get?_eq_some.mpr hmem, hexhausted, hwritten⟩

lemma delayed_cases (F : FloatArithmetic) (now : Nat) (db : Database) (queues : List String)
    (k : Key) (t : Task) :
    db.delayed F now queues k t = t ∨
      ∃ l, t.lease = some l ∧ db.open_ k = true ∧ l.deadline ≤ now ∧ l.epoch < t.attempts ∧
        db.delayed F now queues k t = { t with
          availableAt := l.deadline + milliseconds F (t.invocation.policy.delay F l.epoch) } := by
  unfold Database.delayed
  split
  · exact .inl rfl
  · rename_i l hl
    split_ifs with hdue
    · exact .inr ⟨l, hl, hdue.1, hdue.2.2.1, hdue.2.2.2, rfl⟩
    · exact .inl rfl

lemma exhausted_over (h : db.exhausted F now queues k t = true) :
    db.open_ k = true ∧ (t.expired now = true ∧ t.attempts ≤ t.epoch ∨
      ∃ d ∈ t.invocation.policy.scheduleToClose,
        t.scheduleStart + sqlMilliseconds F d ≤ now) := by
  unfold Database.exhausted at h
  simp only [Bool.and_eq_true, Bool.or_eq_true, decide_eq_true_eq, Option.any_eq_true] at h
  obtain ⟨⟨hopen, -⟩, hover⟩ := h
  exact ⟨hopen, hover⟩

lemma claimable_iff {row : Key × Task} :
    db.claimable now queues row = true ↔ db.open_ row.1 = true ∧ row.2.queue ∈ queues ∧
      row.2.epoch < row.2.attempts ∧ row.2.availableAt ≤ now ∧ row.2.idle now = true := by
  unfold Database.claimable
  simp only [Bool.and_eq_true, decide_eq_true_eq, contains_iff_mem, and_assoc]

lemma claim_eq_ok {handed : Option ActivityAttempt}
    (h : claim F worker now db = .ok (handed, db')) :
    ∃ swept, terminalizeExhausted F now worker.queues db = .ok swept ∧
      (handed = none ∧ db' = swept ∧
          (∀ row ∈ swept.tasks.entries, ¬swept.claimable now worker.queues row = true) ∨
        ∃ key t attempt, handed = some attempt ∧ swept.tasks.get? key = some t ∧
          swept.claimable now worker.queues (key, t) = true ∧
          attempt.attemptId = some (attemptId key) ∧ attempt.epoch = .str (t.epoch + 1) ∧
          db' = { swept with
            tasks := swept.tasks.set key (t.leased (t.claimed F attempt.claimant now)) }) := by
  unfold claim at h
  obtain ⟨swept, hsweep, h⟩ := bind_eq_ok.mp h
  refine ⟨swept, hsweep, ?_⟩
  split at h
  · rename_i hfind
    cases h
    exact .inl ⟨rfl, rfl, find?_eq_none.mp hfind⟩
  · rename_i key t hfind
    cases h
    have hclaimable := find?_some hfind
    have htask : swept.tasks.get? key = some t :=
      get?_eq_some.mpr (mem_of_find?_eq_some hfind)
    exact .inr ⟨key, t, _, rfl, htask, hclaimable, rfl, rfl, rfl⟩

/-! ## What a call writes -/

def Op.attempt? : Op → Option ActivityAttempt
  | .heartbeat attempt _ => some attempt
  | .complete attempt _ => some attempt
  | .fail attempt _ => some attempt
  | _ => none

/-- Nothing was handed out, cancelled or accepted. -/
def Reply.passive : Reply → Bool
  | .raised _ | .noSession | .done | .collected _ => true
  | .reported d => d = .terminalRetry
  | _ => false

lemma Reply.attempt?_passive {reply : Reply} (h : reply.passive = true) :
    reply.attempt? = none := by
  cases reply with
  | claimed => cases h
  | _ => rfl

/-- What a call writes to the tables, and what it answers. -/
inductive Effect (F : FloatArithmetic) (now : Nat) (w : World) : Op → Reply → Database → Prop
  | still {op : Op} {reply : Reply} (passive : reply.passive = true) :
      Effect F now w op reply w.db
  | polled {worker : Worker} {ready : Bool} {swept : Database}
      (sweep : terminalizeExhausted F now worker.queues w.db = .ok swept) :
      Effect F now w (.poll worker) (.ready ready) swept
  | unclaimed {worker : Worker} {swept : Database}
      (sweep : terminalizeExhausted F now worker.queues w.db = .ok swept) :
      Effect F now w (.claim worker) (.claimed none) swept
  | claimed {worker : Worker} {swept : Database} {key : Key} {t : Task} {attempt : ActivityAttempt}
      (sweep : terminalizeExhausted F now worker.queues w.db = .ok swept)
      (task : swept.tasks.get? key = some t)
      (claimable : swept.claimable now worker.queues (key, t) = true)
      (id : attempt.attemptId = some (attemptId key)) (epoch : attempt.epoch = .str (t.epoch + 1)) :
      Effect F now w (.claim worker) (.claimed (some attempt)) { swept with
        tasks := swept.tasks.set key (t.leased (t.claimed F attempt.claimant now)) }
  | dispatched {id occurrence : Nat} {invocation : ActivityInvocation Json} {session : Session}
      {row : Task} {queue : String} (session_eq : w.sessions.get? id = some session)
      (open_ : w.db.cancellations.get? (session.instanceId, occurrence) = none)
      (row_eq : (w.db.tasks.get? (session.instanceId, occurrence)).getD
        { queue := session.route invocation.activity, invocation, scheduleStart := now
          availableAt := now } = row)
      (routed : queue = row.queue ∨ queue = session.route invocation.activity ∧
        w.db.terminals.get? (session.instanceId, occurrence) = none ∧ row.idle now = true) :
      Effect F now w (.dispatch id occurrence invocation) .done { w.db with
        tasks := w.db.tasks.set (session.instanceId, occurrence) { row with queue } }
  | cancelled {id : Nat} {instruction : CancellationInstruction} {session : Session}
      {d : CancellationDisposition} {c : Cancellation}
      (session_eq : w.sessions.get? id = some session)
      (kept : ∀ prior ∈ w.db.cancellations.get? (session.instanceId, instruction.occurrence),
        c = prior) :
      Effect F now w (.cancel id instruction) (.cancelled d) { w.db with
        cancellations := w.db.cancellations.set (session.instanceId, instruction.occurrence) c }
  | renewed {attempt : ActivityAttempt} {given : Option Payload} {key : Key} {t : Task} {l : Lease}
      {details : Option Json} (active : Active attempt w.db now key t l)
      (small : ∀ d ∈ details, d ∈ t.details ∨ d.size F.repr ≤ heartbeatDetailsLimit) :
      Effect F now w (.heartbeat attempt given) (.beat (details.getD .null)) { w.db with
        tasks := w.db.tasks.set key (t.renewed l now details) }
  | heard {op : Op} {attempt : ActivityAttempt} {d : Disposition} {key : Key} {t : Task} {l : Lease}
      {outcome : Outcome} (report : op.attempt? = some attempt)
      (ended : d ≠ .terminalRetry ∧ d ≠ .retryable) (heard : Heard attempt w.db now key t l) :
      Effect F now w op (.reported d)
        { w.db with terminals := w.db.terminals.set key (l.terminal outcome) }
  | released {attempt : ActivityAttempt} {report : Report} {key : Key} {t : Task} {l : Lease}
      {failure : ActivityFailure} {available : Nat} (failed : report.failed = .ok failure)
      (active : Active attempt w.db now key t l)
      (released : Released F attempt failure now t l available) :
      Effect F now w (.fail attempt report) (.reported .retryable) { w.db with
        tasks := w.db.tasks.set key (t.released l now available) }

lemma claim_effect {handed : Option ActivityAttempt}
    (h : claim F worker now w.db = .ok (handed, db')) :
    Effect F now w (.claim worker) (.claimed handed) db' := by
  obtain ⟨swept, hsweep, hrow⟩ := claim_eq_ok h
  rcases hrow with ⟨rfl, rfl, -⟩ | ⟨key, t, attempt, rfl, htask, hclaimable, hid, hepoch, rfl⟩
  · exact .unclaimed hsweep
  · exact .claimed hsweep htask hclaimable hid hepoch

lemma poll_effect {ready : Bool} (h : poll F worker now w.db = .ok (ready, db')) :
    Effect F now w (.poll worker) (.ready ready) db' := by
  obtain ⟨swept, hsweep, h⟩ := bind_eq_ok.mp h
  cases h
  exact .polled hsweep

lemma heartbeat_effect {details : Option Payload} {latest : Json}
    (h : heartbeat F attempt details now w.db = .ok (latest, db')) :
    Effect F now w (.heartbeat attempt details) (.beat latest) db' := by
  obtain ⟨snapshot, hsnapshot, h⟩ := bind_eq_ok.mp h
  obtain ⟨⟨key, t, l⟩, hactive, h⟩ := bind_eq_ok.mp h
  cases h
  refine .renewed (active_eq_ok hactive) ?_
  intro d hd
  rcases Option.or_eq_some_iff.mp hd with hgiven | hstored
  · exact .inr (snapshotDetails_le hsnapshot d hgiven)
  · exact .inl hstored.2

lemma complete_effect {result : Payload} {d : Disposition}
    (h : complete attempt result now w.db = .ok (d, db')) :
    Effect F now w (.complete attempt result) (.reported d) db' := by
  obtain ⟨value, -, h⟩ := bind_eq_ok.mp h
  obtain ⟨retried, hretried, h⟩ := bind_eq_ok.mp h
  cases retried with
  | true =>
    cases h
    exact .still rfl
  | false =>
    obtain ⟨key, hkey, hterminal⟩ := acknowledgeTerminalRetry_eq_false hretried
    obtain ⟨cancelled, hcancelled, h⟩ := bind_eq_ok.mp h
    cases cancelled with
    | true =>
      obtain ⟨hfence, t, l, hfenced⟩ := cancelledAttempt_eq_ok hcancelled hkey hterminal
      simp only [↓reduceIte, hfenced.insertTerminal, ok_bind] at h
      cases h
      exact .heard rfl (by decide) ⟨hfenced, .inr hfence⟩
    | false =>
      obtain ⟨⟨key', t, l⟩, hactive, h⟩ := bind_eq_ok.mp h
      have hheard := (active_eq_ok hactive).heard
      rw [hheard.1.insertTerminal, ok_bind] at h
      cases h
      exact .heard rfl (by decide) hheard

lemma fail_effect {report : Report} {d : Disposition}
    (h : fail F attempt report now w.db = .ok (d, db')) :
    Effect F now w (.fail attempt report) (.reported d) db' := by
  obtain ⟨failure, hfailure, h⟩ := bind_eq_ok.mp h
  obtain ⟨retried, hretried, h⟩ := bind_eq_ok.mp h
  cases retried with
  | true =>
    cases h
    exact .still rfl
  | false =>
    obtain ⟨key, hkey, hterminal⟩ := acknowledgeTerminalRetry_eq_false hretried
    obtain ⟨cancelled, hcancelled, h⟩ := bind_eq_ok.mp h
    cases cancelled with
    | true =>
      obtain ⟨hfence, t, l, hfenced⟩ := cancelledAttempt_eq_ok hcancelled hkey hterminal
      simp only [↓reduceIte, hfenced.insertTerminal, ok_bind] at h
      cases h
      exact .heard rfl (by decide) ⟨hfenced, .inr hfence⟩
    | false =>
      obtain ⟨⟨key', t, l⟩, hactive, h⟩ := bind_eq_ok.mp h
      have hactive := active_eq_ok hactive
      dsimp only at h
      split_ifs at h with hretry
      · cases h
        obtain ⟨-, hremaining, hscheduled⟩ := hretry
        refine .released hfailure hactive ⟨hremaining, rfl, ?_⟩
        intro d hd
        exact hscheduled _ (Option.mem_map_of_mem _ hd)
      · rw [hactive.insertTerminal, ok_bind] at h
        cases h
        exact .heard rfl (by decide) hactive.heard

lemma dispatch_effect {session session' : Session} {id occurrence : Nat}
    {invocation : ActivityInvocation Json} (hsession : w.sessions.get? id = some session)
    (h : dispatch session occurrence invocation now w.db = .ok (session', db')) :
    Effect F now w (.dispatch id occurrence invocation) .done db' := by
  unfold dispatch at h
  obtain ⟨-, h⟩ := require_bind_eq_ok.mp h
  dsimp only at h
  split at h
  · obtain ⟨-, h⟩ := require_bind_eq_ok.mp h
    cases h
    exact .still rfl
  · rename_i hc
    obtain ⟨-, h⟩ := require_bind_eq_ok.mp h
    cases h
    refine .dispatched hsession hc rfl ?_
    split_ifs with hmove
    · exact .inr ⟨rfl, contains_eq_false.mp hmove.1, hmove.2⟩
    · exact .inl rfl

lemma cancel_effect {session session' : Session} {id : Nat} {instruction : CancellationInstruction}
    {d : CancellationDisposition} (hsession : w.sessions.get? id = some session)
    (h : cancel session instruction w.db = .ok (d, session', db')) :
    Effect F now w (.cancel id instruction) (.cancelled d) db' := by
  obtain ⟨-, h⟩ := require_bind_eq_ok.mp h
  obtain ⟨-, h⟩ := require_bind_eq_ok.mp h
  cases h
  refine .cancelled hsession ?_
  intro prior hprior
  rw [Option.mem_def.mp hprior]
  rfl

lemma transact_effect {α : Type} {x : Except Exc (α × Database)} {reply : α → Reply}
    (h : ∀ a db, x = .ok (a, db) → Effect F now w op (reply a) db) :
    Effect F now w op (w.transact x reply).1 (w.transact x reply).2.db := by
  unfold World.transact
  split
  · rename_i a db
    exact h a db rfl
  · exact .still rfl

lemma Op.perform_effect (op : Op) (now : Nat) (w : World) :
    Effect F now w op (op.perform F now w).1 (op.perform F now w).2.db := by
  cases op with
  | openSession id instanceId defaultQueue activityQueues =>
    simp only [Op.perform]
    split <;> exact .still rfl
  | dispatch id occurrence invocation =>
    simp only [Op.perform, World.session]
    split
    · exact .still rfl
    · rename_i session hsession
      split
      · rename_i h
        exact dispatch_effect hsession h
      · exact .still rfl
  | cancel id instruction =>
    simp only [Op.perform, World.session]
    split
    · exact .still rfl
    · rename_i session hsession
      split
      · rename_i h
        exact cancel_effect hsession h
      · exact .still rfl
  | collect id =>
    simp only [Op.perform, World.session]
    split <;> exact .still rfl
  | claim worker => exact transact_effect fun _ _ h => claim_effect h
  | poll worker => exact transact_effect fun _ _ h => poll_effect h
  | heartbeat attempt details => exact transact_effect fun _ _ h => heartbeat_effect h
  | complete attempt result => exact transact_effect fun _ _ h => complete_effect h
  | fail attempt report => exact transact_effect fun _ _ h => fail_effect h

end Petrus.Motus.LocalDispatch
