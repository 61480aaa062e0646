import Petrus.Motus.Dispatch.Run

/-!
# Custody of one occurrence

What the tables hold of one occurrence changes only in a few ways: it is published,
moved to another queue, leased, renewed, given back, delayed, ended or cancelled.
Every transaction moves every occurrence by such steps and no others; what every such
step keeps, a run keeps.
-/

namespace Petrus.Motus.LocalDispatch

open Lib List Dict

variable {F : FloatArithmetic} {db db' : Database} {now : Nat} {key k : Key}
  {attempt : ActivityAttempt} {t : Task} {l : Lease}
variable {queues : List String} {w w' : World}

structure Custody where
  task : Option Task
  terminal : Option Terminal
  cancellation : Option Cancellation

def Database.custody (db : Database) (key : Key) : Custody :=
  ⟨db.tasks.get? key, db.terminals.get? key, db.cancellations.get? key⟩

/-! ## The steps of one occurrence -/

inductive Move (F : FloatArithmetic) (now : Nat) : Custody → Custody → Prop
  | published (terminal : Option Terminal) (queue : String) (invocation : ActivityInvocation Json) :
      Move F now ⟨none, terminal, none⟩
        ⟨some { queue, invocation, scheduleStart := now, availableAt := now }, terminal, none⟩
  | routed (t : Task) (queue : String) (idle : t.idle now = true) :
      Move F now ⟨some t, none, none⟩ ⟨some { t with queue }, none, none⟩
  | delayed (t : Task) (l : Lease) (lease : t.lease = some l) (expired : l.deadline ≤ now)
      (remaining : l.epoch < t.attempts) :
      Move F now ⟨some t, none, none⟩ ⟨some { t with
        availableAt := l.deadline + milliseconds F (t.invocation.policy.delay F l.epoch) },
        none, none⟩
  | exhausted (t : Task) (failure : ActivityFailure)
      (spent : t.expired now = true ∧ t.attempts ≤ t.epoch ∨
        ∃ d ∈ t.invocation.policy.scheduleToClose, t.scheduleStart + sqlMilliseconds F d ≤ now) :
      Move F now ⟨some t, none, none⟩
        ⟨some t, some ⟨t.epoch, t.lease.map Lease.claimant, .failed failure⟩, none⟩
  | renewed (t : Task) (l : Lease) (details : Option Json) (lease : t.lease = some l)
      (live : now < l.deadline) :
      Move F now ⟨some t, none, none⟩ ⟨some (t.renewed l now details), none, none⟩
  | released (t : Task) (l : Lease) (available : Nat) (lease : t.lease = some l)
      (live : now < l.deadline) (remaining : l.epoch < t.attempts) :
      Move F now ⟨some t, none, none⟩ ⟨some (t.released l now available), none, none⟩
  | reported (t : Task) (l : Lease) (outcome : Outcome) (c : Option Cancellation)
      (lease : t.lease = some l) (live : c = none → now < l.deadline) :
      Move F now ⟨some t, none, c⟩ ⟨some t, some (l.terminal outcome), c⟩
  | cancelled (task : Option Task) (terminal : Option Terminal) (c : Cancellation) :
      Move F now ⟨task, terminal, none⟩ ⟨task, terminal, some c⟩

/-- What one transaction does to one occurrence, and the attempts on it that it hands out. -/
inductive Moves (F : FloatArithmetic) (now : Nat) (key : Key) :
    List ActivityAttempt → Custody → Custody → Prop
  | refl (c : Custody) : Moves F now key [] c c
  | move {handed : List ActivityAttempt} {a b c : Custody} (h : Moves F now key handed a b)
      (m : Move F now b c) : Moves F now key handed a c
  | claim {handed : List ActivityAttempt} {a : Custody} {t : Task}
      (h : Moves F now key handed a ⟨some t, none, none⟩) (attempt : ActivityAttempt)
      (remaining : t.epoch < t.attempts) (due : t.availableAt ≤ now) (idle : t.idle now = true)
      (id : attempt.attemptId = some (attemptId key)) (epoch : attempt.epoch = .str (t.epoch + 1)) :
      Moves F now key (handed ++ [attempt]) a
        ⟨some (t.leased (t.claimed F attempt.claimant now)), none, none⟩

lemma Move.moves {a b : Custody} (m : Move F now a b) : Moves F now key [] a b :=
  .move (.refl a) m

section Frames

lemma custody_setTask (db : Database) (key k : Key) (t : Task) :
    { db with tasks := db.tasks.set key t }.custody k =
      if key = k then { db.custody k with task := some t } else db.custody k := by
  unfold Database.custody
  rw [get?_set]
  split_ifs <;> rfl

lemma custody_setTerminal (db : Database) (key k : Key) (row : Terminal) :
    { db with terminals := db.terminals.set key row }.custody k =
      if key = k then { db.custody k with terminal := some row } else db.custody k := by
  unfold Database.custody
  rw [get?_set]
  split_ifs <;> rfl

lemma custody_setCancellation (db : Database) (key k : Key) (c : Cancellation) :
    { db with cancellations := db.cancellations.set key c }.custody k =
      if key = k then { db.custody k with cancellation := some c } else db.custody k := by
  unfold Database.custody
  rw [get?_set]
  split_ifs <;> rfl

end Frames

lemma Fenced.custody (h : Fenced attempt db key t l) :
    db.custody key = ⟨some t, none, db.cancellations.get? key⟩ := by
  simp only [Database.custody, h.task, h.unreported]

/-! ## Every transaction moves every occurrence -/

lemma Heard.moves (h : Heard attempt db now key t l) (outcome : Outcome) (k : Key) :
    Moves F now k [] (db.custody k)
      ({ db with terminals := db.terminals.set key (l.terminal outcome) }.custody k) := by
  obtain ⟨hfenced, hlive⟩ := h
  rw [custody_setTerminal]
  split_ifs with hk
  · subst hk
    rw [hfenced.custody]
    refine (Move.reported t l outcome _ hfenced.lease ?_).moves
    intro hopen
    rcases hlive with ⟨-, -, hlive⟩ | hcancelled
    · exact hlive
    · exact absurd hopen hcancelled
  · exact .refl _

lemma terminalizeExhausted_moves (h : terminalizeExhausted F now queues db = .ok db') (k : Key) :
    Moves F now k [] (db.custody k) (db'.custody k) := by
  obtain ⟨hcancellations, hrows⟩ := terminalizeExhausted_eq_ok h
  obtain ⟨htask, hterminal⟩ := hrows k
  cases ht : db.tasks.get? k with
  | none =>
    rw [ht, Option.map_none] at htask
    have hsame : db'.terminals.get? k = db.terminals.get? k := by
      rcases hterminal with hsame | ⟨-, t, hrow, -⟩
      · exact hsame
      · rw [htask] at hrow
        cases hrow
    simp only [Database.custody, htask, ht, hsame, hcancellations]
    exact .refl _
  | some t =>
    rw [ht, Option.map_some] at htask
    have hdelayed : Moves F now k [] (db.custody k)
        ⟨some (db.delayed F now queues k t), db.terminals.get? k, db.cancellations.get? k⟩ := by
      simp only [Database.custody, ht]
      rcases delayed_cases F now db queues k t with hsame |
        ⟨l, hl, hopen, hexpired, hremaining, hdue⟩
      · rw [hsame]
        exact .refl _
      · obtain ⟨hunreported, hfree⟩ := open_iff.mp hopen
        rw [hdue, hunreported, hfree]
        exact (Move.delayed t l hl hexpired hremaining).moves
    have hafter : db'.custody k =
        ⟨some (db.delayed F now queues k t), db'.terminals.get? k, db.cancellations.get? k⟩ := by
      simp only [Database.custody, htask, hcancellations]
    rw [hafter]
    rcases hterminal with hsame | ⟨hnone, row, hrow, hexhausted, failure, hwritten⟩
    · rw [hsame]
      exact hdelayed
    · obtain rfl := Option.some.inj (htask.symm.trans hrow)
      obtain ⟨hopen, hover⟩ := exhausted_over hexhausted
      obtain ⟨hunreported, hfree⟩ := open_iff.mp hopen
      rw [hunreported, hfree] at hdelayed
      rw [hwritten, hfree]
      exact hdelayed.move (Move.exhausted _ failure hover)

lemma attemptId_inj {a b : Key} : attemptId a = attemptId b ↔ a = b := by
  unfold attemptId
  simp [Prod.ext_iff]

def attemptsOn (k : Key) (handed : List ActivityAttempt) : List ActivityAttempt :=
  handed.filter fun a => a.attemptId = some (attemptId k)

lemma Effect.moves {op : Op} {reply : Reply} (h : Effect F now w op reply db') (k : Key) :
    Moves F now k (attemptsOn k reply.attempt?.toList) (w.db.custody k) (db'.custody k) := by
  cases h with
  | still passive =>
    rw [Reply.attempt?_passive passive]
    exact .refl _
  | polled sweep | unclaimed sweep => exact terminalizeExhausted_moves sweep k
  | @claimed _ swept key t attempt sweep task claimable id epoch =>
    have hswept := terminalizeExhausted_moves sweep k
    rw [custody_setTask]
    split_ifs with hk
    · subst hk
      obtain ⟨hopen, -, hremaining, hdue, hidle⟩ := claimable_iff.mp claimable
      obtain ⟨hunreported, hfree⟩ := open_iff.mp hopen
      simp only [Database.custody, task, hunreported, hfree] at hswept ⊢
      have hon : attemptsOn key (some attempt).toList = [] ++ [attempt] := by
        simp [attemptsOn, id]
      change Moves F now key (attemptsOn key (some attempt).toList) _ _
      rw [hon]
      exact hswept.claim attempt hremaining hdue hidle id epoch
    · have hon : attemptsOn k (some attempt).toList = [] := by
        simp [attemptsOn, id, attemptId_inj, hk]
      change Moves F now k (attemptsOn k (some attempt).toList) _ _
      rw [hon]
      exact hswept
  | @dispatched _ occurrence invocation session row queue _ open_ row_eq routed =>
    rw [custody_setTask]
    split_ifs with hk
    · subst hk
      cases htask : w.db.tasks.get? (session.instanceId, occurrence) with
      | none =>
        rw [htask] at row_eq
        subst row_eq
        have hsame : queue = session.route invocation.activity := by
          rcases routed with hqueue | ⟨hqueue, -⟩ <;> exact hqueue
        subst hsame
        simp only [Database.custody, htask, open_]
        exact (Move.published _ _ _).moves
      | some t =>
        rw [htask] at row_eq
        subst row_eq
        simp only [Database.custody, htask, open_]
        rcases routed with rfl | ⟨-, hterminal, hidle⟩
        · exact .refl _
        · rw [hterminal]
          exact (Move.routed t queue hidle).moves
    · exact .refl _
  | @cancelled _ instruction session _ c _ kept =>
    rw [custody_setCancellation]
    split_ifs with hk
    · subst hk
      cases hc : w.db.cancellations.get? (session.instanceId, instruction.occurrence) with
      | none =>
        simp only [Database.custody, hc]
        exact (Move.cancelled _ _ c).moves
      | some prior =>
        obtain rfl := kept prior hc
        simp only [Database.custody, hc]
        exact .refl _
    · exact .refl _
  | @renewed _ _ key t l details active =>
    rw [custody_setTask]
    split_ifs with hk
    · subst hk
      rw [active.custody, active.open_]
      exact (Move.renewed t l details active.lease active.live).moves
    · exact .refl _
  | @heard _ _ _ _ _ _ outcome _ _ heard => exact heard.moves outcome k
  | @released _ _ key t l _ available _ active released =>
    rw [custody_setTask]
    split_ifs with hk
    · subst hk
      rw [active.custody, active.open_]
      exact (Move.released t l available active.lease active.live released.remaining).moves
    · exact .refl _

/-! ## Invariants of runs -/

def handedOut (k : Key) (es : List Event) : List ActivityAttempt :=
  attemptsOn k (es.filterMap fun e => e.reply.attempt?)

lemma handedOut_append (k : Key) (es : List Event) (e : Event) :
    handedOut k (es ++ [e]) = handedOut k es ++ attemptsOn k e.reply.attempt?.toList := by
  unfold handedOut attemptsOn
  rw [filterMap_append, filter_append]
  congr 2

/-- What later instants, steps and claims of one occurrence keep. -/
structure Invariant (F : FloatArithmetic) (start : Nat)
    (P : Nat → List ActivityAttempt → Custody → Prop) : Prop where
  later : ∀ now now' handed c, now ≤ now' → P now handed c → P now' handed c
  move : ∀ now handed a b, start ≤ now → P now handed a → Move F now a b → P now handed b
  claim : ∀ now handed t attempt, start ≤ now → P now handed ⟨some t, none, none⟩ →
    t.epoch < t.attempts → t.availableAt ≤ now → t.idle now = true →
    attempt.epoch = .str (t.epoch + 1) →
    P now (handed ++ [attempt]) ⟨some (t.leased (t.claimed F attempt.claimant now)), none, none⟩

lemma Invariant.moves {start now : Nat} {k : Key} {P : Nat → List ActivityAttempt → Custody → Prop}
    (hP : Invariant F start P) (hnow : start ≤ now) {before handed : List ActivityAttempt}
    {a b : Custody} (h : Moves F now k handed a b) (ha : P now before a) :
    P now (before ++ handed) b := by
  induction h with
  | refl c => rwa [append_nil]
  | move _ m ih => exact hP.move _ _ _ _ hnow (ih ha) m
  | claim _ attempt remaining due idle _ epoch ih =>
    rw [← append_assoc]
    exact hP.claim _ _ _ _ hnow (ih ha) remaining due idle epoch

lemma Runs.clock_le {es : List Event} (h : Runs F w es w') : w.clock ≤ w'.clock := by
  induction h with
  | refl => exact Nat.le_refl _
  | step _ op now forward ih => exact ih.trans forward

lemma Runs.invariant {P : Nat → List ActivityAttempt → Custody → Prop} {es : List Event} {k : Key}
    (hP : Invariant F w.clock P) (h : Runs F w es w') (h₀ : P w.clock [] (w.db.custody k)) :
    P w'.clock (handedOut k es) (w'.db.custody k) := by
  induction h with
  | refl => exact h₀
  | @step es w' h op now forward ih =>
    rw [handedOut_append]
    exact hP.moves (h.clock_le.trans forward) ((op.perform_effect now w').moves k)
      (hP.later _ _ _ _ forward ih)

lemma Runs.trans {w'' : World} {es es' : List Event} (h : Runs F w es w')
    (h' : Runs F w' es' w'') : Runs F w (es ++ es') w'' := by
  induction h' with
  | refl => rwa [append_nil]
  | step _ op now forward ih =>
    rw [← append_assoc]
    exact ih.step op now forward

def World.play (F : FloatArithmetic) (w : World) : List (Op × Nat) → List Event × World
  | [] => ([], w)
  | (op, now) :: script =>
    let (reply, after) := op.perform F now w
    let (es, last) := World.play F { after with clock := now } script
    (⟨op, now, reply⟩ :: es, last)

lemma Runs.play {script : List (Op × Nat)}
    (h : (w.clock :: script.map Prod.snd).Pairwise (· ≤ ·)) :
    Runs F w (w.play F script).1 (w.play F script).2 := by
  induction script generalizing w with
  | nil => exact .refl
  | cons entry script ih =>
    obtain ⟨op, now⟩ := entry
    rw [map_cons, pairwise_cons] at h
    have hfirst : Runs F w [⟨op, now, (op.perform F now w).1⟩]
        { (op.perform F now w).2 with clock := now } :=
      Runs.refl.step op now (h.1 now mem_cons_self)
    exact hfirst.trans (ih h.2)

end Petrus.Motus.LocalDispatch
