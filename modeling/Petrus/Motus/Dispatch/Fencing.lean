import Petrus.Motus.Dispatch.Custody

/-!
# Fences

One terminal row per occurrence, epochs in order and within the policy, reports only
from the current lease, one unexpired lease at a time; and after a cancellation no
lease at all and at most one more report.
-/

namespace Petrus.Motus.LocalDispatch

open Lib List

variable {F : FloatArithmetic} {w w' : World} {es : List Event} {start now : Nat} {key : Key}
variable {a b : Custody} {handed : List ActivityAttempt} {id : Nat} {session : Session}
variable {op : Op} {reply : Reply} {db' : Database}
variable {attempt : ActivityAttempt} {instruction : CancellationInstruction}

def Custody.epoch (c : Custody) : Nat := (c.task.map Task.epoch).getD 0

/-! ## What a step keeps -/

lemma Move.epoch_eq (m : Move F now a b) : b.epoch = a.epoch := by
  cases m with
  | renewed t l details lease live =>
    simp [Custody.epoch, Task.epoch, Task.renewed, lease]
  | released t l available lease live remaining =>
    simp [Custody.epoch, Task.epoch, Task.released, lease]
  | _ => rfl

def Custody.Bounded (c : Custody) : Prop := ∀ t, c.task = some t → c.epoch ≤ t.attempts

lemma Move.bounded (m : Move F now a b) (h : a.Bounded) : b.Bounded := by
  intro t' ht'
  rw [m.epoch_eq]
  cases m with
  | published terminal queue invocation => exact Nat.zero_le _
  | routed t | delayed t | renewed t | released t =>
    cases ht'
    exact h t rfl
  | exhausted | reported | cancelled => exact h t' ht'

lemma Move.terminal (m : Move F now a b) {row : Terminal} (h : a.terminal = some row) :
    b.terminal = some row := by
  cases m with
  | published | cancelled => exact h
  | _ => cases h

/-- The epochs handed out so far are `1, 2, 3, ...` up to the epoch of the row. -/
structure Numbered (handed : List ActivityAttempt) (c : Custody) : Prop where
  epochs : handed.map ActivityAttempt.epoch = (List.range' 1 c.epoch).map EpochText.str
  bounded : c.Bounded

lemma invariant_numbered : Invariant F start fun _ handed c => Numbered handed c where
  later _ _ _ _ _ h := h
  move _ _ _ _ _ h m := ⟨by rw [m.epoch_eq]; exact h.epochs, m.bounded h.bounded⟩
  claim now handed t attempt _ h remaining _ _ epoch := by
    have hepoch :
        (Custody.mk (some (t.leased (t.claimed F attempt.claimant now))) none none).epoch =
          t.epoch + 1 := rfl
    have hbefore : (Custody.mk (some t) none none).epoch = t.epoch := rfl
    have hepochs := h.epochs
    rw [hbefore] at hepochs
    constructor
    · rw [hepoch, map_append, hepochs, range'_1_concat, map_append, map_singleton,
        map_singleton, epoch, Nat.add_comm 1]
    · intro t' ht'
      cases ht'
      exact remaining

lemma invariant_terminal (row : Terminal) :
    Invariant F start fun _ _ c => c.terminal = some row where
  later _ _ _ _ _ h := h
  move _ _ _ _ _ h m := m.terminal h
  claim _ _ _ _ _ h := by cases h

lemma Runs.numbered (h : Runs F {} es w) (key : Key) :
    Numbered (handedOut key es) (w.db.custody key) := by
  have hstart : Numbered [] (({} : World).db.custody key) := by
    refine ⟨rfl, ?_⟩
    intro t ht
    cases ht
  exact h.invariant (w := {}) invariant_numbered hstart

lemma Runs.terminal (h : Runs F w es w') {row : Terminal}
    (hrow : w.db.terminals.get? key = some row) : w'.db.terminals.get? key = some row :=
  h.invariant (k := key) (P := fun _ _ c => c.terminal = some row) (invariant_terminal row) hrow

/-! ## Reports take effect under the fence only -/

/-- The report of the current lease in time; or, of a cancelled row, the terminal report of the
lease it was cancelled under. -/
def TakesEffect (attempt : ActivityAttempt) (now : Nat) (db db' : Database) (key : Key) (t : Task)
    (l : Lease) : Prop :=
  Fenced attempt db key t l ∧
    (db.cancellations.get? key = none ∧ attempt.epoch = .str l.epoch ∧ now < l.deadline ∨
      db.cancellations.get? key ≠ none ∧ ∃ outcome,
        db' = { db with terminals := db.terminals.set key (l.terminal outcome) })

lemma Heard.takesEffect {db : Database} {t : Task} {l : Lease}
    (h : Heard attempt db now key t l) (outcome : Outcome) :
    TakesEffect attempt now db { db with terminals := db.terminals.set key (l.terminal outcome) }
      key t l :=
  ⟨h.1, h.2.imp_right fun hcancelled => ⟨hcancelled, outcome, rfl⟩⟩

lemma Effect.takesEffect (h : Effect F now w op reply db')
    (hop : op.attempt? = some attempt) (hchanged : db' ≠ w.db) :
    ∃ key t l, TakesEffect attempt now w.db db' key t l := by
  cases h with
  | still => exact absurd rfl hchanged
  | renewed active | released _ active =>
    cases hop
    exact ⟨_, _, _, active.toFenced, .inl ⟨active.open_, active.spelled, active.live⟩⟩
  | heard report _ heard =>
    rw [report] at hop
    cases hop
    exact ⟨_, _, _, heard.takesEffect _⟩
  | _ => cases hop

/-! ## After a cancellation -/

/-- What stays of an occurrence cancelled in custody `c₀`: its row, no further claim, and at most
the terminal of the lease it was cancelled under. -/
structure Retired (c₀ : Custody) (handed : List ActivityAttempt) (c : Custody) : Prop where
  unclaimed : handed = []
  task : c.task = c₀.task
  cancellation : c.cancellation = c₀.cancellation
  terminal : c.terminal = c₀.terminal ∨ c₀.terminal = none ∧ ∃ t l outcome, c₀.task = some t ∧
    t.lease = some l ∧ c.terminal = some (l.terminal outcome)

lemma Move.retired {c₀ : Custody} (m : Move F now a b) (hc : c₀.cancellation ≠ none)
    (h : Retired c₀ handed a) : Retired c₀ handed b := by
  have hcancelled := h.cancellation
  cases m with
  | reported t l outcome c lease live =>
    have hnone : c₀.terminal = none := by
      rcases h.terminal with hsame | ⟨hnone, -⟩
      · exact hsame.symm
      · exact hnone
    exact ⟨h.unclaimed, h.task, h.cancellation,
      .inr ⟨hnone, t, l, outcome, h.task.symm, lease, rfl⟩⟩
  | _ => exact absurd hcancelled.symm hc

lemma invariant_retired {c₀ : Custody} (hc : c₀.cancellation ≠ none) :
    Invariant F start fun _ handed c => Retired c₀ handed c where
  later _ _ _ _ _ h := h
  move _ _ _ _ _ h m := m.retired hc h
  claim _ _ _ _ _ h := absurd h.cancellation.symm hc

lemma Runs.retired (h : Runs F w es w') (hc : w.db.cancellations.get? key ≠ none) :
    Retired (w.db.custody key) (handedOut key es) (w'.db.custody key) := by
  have hstart : Retired (w.db.custody key) [] (w.db.custody key) := ⟨rfl, rfl, rfl, .inl rfl⟩
  exact h.invariant (invariant_retired hc) hstart

/-- The attempt whose report on the occurrence the event accepted; a repeated report that is only
acknowledged is none. -/
def Event.accepted (key : Key) (e : Event) : Option ActivityAttempt :=
  match e.reply with
  | .reported .terminalRetry => none
  | .reported _ | .beat _ => e.op.attempt?.filter fun a => attemptKey a = .ok key
  | _ => none

lemma Event.accepted_eq_some (h : Event.accepted key ⟨op, now, reply⟩ = some attempt) :
    reply.passive = false ∧ op.attempt? = some attempt ∧ attemptKey attempt = .ok key := by
  unfold Event.accepted at h
  split at h
  · cases h
  · rename_i d hne hreply
    obtain ⟨hop, hkey⟩ := Option.filter_eq_some_iff.mp h
    obtain rfl : reply = .reported d := hreply
    exact ⟨decide_eq_false hne, hop, of_decide_eq_true hkey⟩
  · rename_i latest hreply
    obtain ⟨hop, hkey⟩ := Option.filter_eq_some_iff.mp h
    obtain rfl : reply = .beat latest := hreply
    exact ⟨rfl, hop, of_decide_eq_true hkey⟩
  · cases h

lemma Effect.accepted_cancelled (heffect : Effect F now w op reply db')
    (h : Event.accepted key ⟨op, now, reply⟩ = some attempt)
    (hc : w.db.cancellations.get? key ≠ none) :
    ∃ t l outcome, Fenced attempt w.db key t l ∧
      db' = { w.db with terminals := w.db.terminals.set key (l.terminal outcome) } := by
  obtain ⟨haccepted, hop, hkey⟩ := Event.accepted_eq_some h
  cases heffect with
  | still passive =>
    rw [haccepted] at passive
    cases passive
  | renewed active | released _ active =>
    cases hop
    obtain rfl := Except.ok.inj (active.key_eq.symm.trans hkey)
    exact absurd active.open_ hc
  | heard report _ heard =>
    obtain rfl := Option.some.inj (report.symm.trans hop)
    obtain rfl := Except.ok.inj (heard.1.key_eq.symm.trans hkey)
    exact ⟨_, _, _, heard.1, rfl⟩
  | _ => cases hop

lemma Runs.accepted_once (h : Runs F w es w') (hc : w.db.cancellations.get? key ≠ none) :
    (es.filterMap (Event.accepted key) = [] ∨
        (es.filterMap (Event.accepted key)).length = 1 ∧ w'.db.terminals.get? key ≠ none) ∧
      ∀ a ∈ es.filterMap (Event.accepted key), ∃ t l, w.db.tasks.get? key = some t ∧
        t.lease = some l ∧ a.epoch.int = .ok (l.epoch : Int) ∧ a.claimant = l.claimant := by
  induction h with
  | refl => exact ⟨.inl rfl, by simp⟩
  | @step es mid h op now forward ih =>
    have hretired := h.retired hc
    have hmid : mid.db.cancellations.get? key ≠ none := by
      intro hnone
      exact hc (hretired.cancellation.symm.trans hnone)
    obtain ⟨hcount, hexact⟩ := ih
    rw [filterMap_append]
    cases haccepted : Event.accepted key ⟨op, now, (op.perform F now mid).1⟩ with
    | none =>
      rw [filterMap_cons_none haccepted, filterMap_nil, append_nil]
      refine ⟨hcount.imp_right ?_, hexact⟩
      intro hreported
      obtain ⟨hlength, hreported⟩ := hreported
      obtain ⟨row, hrow⟩ := Option.ne_none_iff_exists'.mp hreported
      have hstep : Runs F mid _ _ := Runs.refl.step op now forward
      exact ⟨hlength, by rw [hstep.terminal hrow]; simp⟩
    | some attempt =>
      obtain ⟨t, l, outcome, hfenced, hdb⟩ :=
        (op.perform_effect now mid).accepted_cancelled haccepted hmid
      have hempty : es.filterMap (Event.accepted key) = [] := by
        rcases hcount with hempty | ⟨-, hreported⟩
        · exact hempty
        · exact absurd hfenced.unreported hreported
      rw [filterMap_cons_some haccepted, filterMap_nil, hempty, nil_append]
      refine ⟨.inr ⟨rfl, ?_⟩, ?_⟩
      · change (op.perform F now mid).2.db.terminals.get? key ≠ none
        rw [hdb, Dict.get?_set_self]
        simp
      · intro a ha
        rw [mem_singleton.mp ha]
        have htask : w.db.tasks.get? key = some t := hretired.task.symm.trans hfenced.task
        exact ⟨t, l, htask, hfenced.lease, hfenced.epoch, hfenced.claimant.symm⟩

/-! ## The fence over whole runs -/

def Holds (attempt : ActivityAttempt) (db : Database) (key : Key) (now : Nat) : Prop :=
  ∃ t l, db.tasks.get? key = some t ∧ t.lease = some l ∧ attempt.epoch = .str l.epoch ∧
    attempt.claimant = l.claimant ∧ now < l.deadline

lemma delayed_lease (db : Database) (queues : List String) (t : Task) :
    (db.delayed F now queues key t).lease = t.lease := by
  rcases delayed_cases F now db queues key t with h | ⟨l, -, -, -, -, h⟩ <;>
    rw [h]

lemma Effect.claim_expired {worker : Worker} {t : Task} {l : Lease}
    (h : Effect F now w (.claim worker) (.claimed (some attempt)) db')
    (hid : attempt.attemptId = some (attemptId key)) (ht : w.db.tasks.get? key = some t)
    (hl : t.lease = some l) : l.deadline ≤ now := by
  cases h with
  | still passive => cases passive
  | @claimed _ swept k row _ sweep task claimable id =>
    obtain rfl := attemptId_inj.mp (Option.some.inj (hid.symm.trans id))
    obtain ⟨-, -, -, -, hidle⟩ := claimable_iff.mp claimable
    obtain ⟨-, hrows⟩ := terminalizeExhausted_eq_ok sweep
    rw [(hrows key).1, ht, Option.map_some, Option.some.injEq] at task
    have hlease : row.lease = some l := by
      rw [← task, delayed_lease, hl]
    exact (Task.idle_lease hlease).mp hidle

lemma Numbered.length_eq {c : Custody} (h : Numbered handed c) :
    handed.length = c.epoch := by
  have hlength := congrArg List.length h.epochs
  simpa using hlength

lemma Numbered.epoch_get {c : Custody} (h : Numbered handed c) {i : Nat} {a : ActivityAttempt}
    (ha : handed[i]? = some a) : a.epoch = .str (i + 1) := by
  have hget := congrArg (fun l => l[i]?) h.epochs
  rw [getElem?_map, ha, getElem?_map] at hget
  obtain ⟨hlt, -⟩ := List.getElem?_eq_some_iff.mp ha
  rw [h.length_eq] at hlt
  rw [getElem?_range' hlt, Option.map_some, Option.map_some, Option.some.injEq] at hget
  rw [hget]
  congr 1
  omega

lemma terminals_unique (db : Database) (key : Key) :
    (db.terminals.entries.filter fun row => row.1 = key).length ≤ 1 := by
  have hnodup : ((db.terminals.entries.filter fun row => row.1 = key).map Prod.fst).Nodup :=
    db.terminals.nodup.sublist (List.Sublist.map _ filter_sublist)
  have hsubset : ∀ k ∈ (db.terminals.entries.filter fun row => row.1 = key).map Prod.fst,
      k ∈ [key] := by
    intro k hk
    obtain ⟨row, hrow, rfl⟩ := mem_map.mp hk
    obtain ⟨-, hkey⟩ := mem_filter.mp hrow
    simpa using hkey
  rw [← length_map (f := Prod.fst)]
  exact hnodup.length_le_of_subset hsubset

theorem local_dispatch_fenced {es₁ es₂ : List Event} {w₁ w₂ : World} (h₁ : Runs F {} es₁ w₁)
    (h₂ : Runs F w₁ es₂ w₂) :
    -- each occurrence has at most one terminal row, and it never changes
    (∀ key, (w₂.db.terminals.entries.filter fun row => row.1 = key).length ≤ 1 ∧
      ∀ row, w₁.db.terminals.get? key = some row → w₂.db.terminals.get? key = some row) ∧
    -- a report takes effect for the current lease in time, or for the lease that was cancelled
    (∀ op now attempt, Op.attempt? op = some attempt → (op.perform F now w₂).2.db ≠ w₂.db →
      ∃ key t l, TakesEffect attempt now w₂.db (op.perform F now w₂).2.db key t l ∧
        (w₁.db.cancellations.get? key ≠ none →
          ∃ t₁, w₁.db.tasks.get? key = some t₁ ∧ t₁.lease = some l)) ∧
    -- successive claims hand out the epochs 1, 2, 3, ... within the attempts of the policy
    (∀ key, (handedOut key (es₁ ++ es₂)).map ActivityAttempt.epoch =
        (List.range' 1 (handedOut key (es₁ ++ es₂)).length).map EpochText.str ∧
      ∀ t, w₂.db.tasks.get? key = some t → (handedOut key (es₁ ++ es₂)).length ≤ t.attempts) ∧
    -- no two attempts handed out hold unexpired leases at once, and a claim waits for the expiry
    (∀ (key : Key) (now i j : Nat) (a b : ActivityAttempt),
      (handedOut key (es₁ ++ es₂))[i]? = some a →
      (handedOut key (es₁ ++ es₂))[j]? = some b → Holds a w₂.db key now → Holds b w₂.db key now →
      i = j) ∧
    (∀ worker now attempt key,
      ((Op.claim worker).perform F now w₂).1 = .claimed (some attempt) →
      attempt.attemptId = some (attemptId key) → ∀ t l, w₂.db.tasks.get? key = some t →
      t.lease = some l → l.deadline ≤ now) := by
  have hnumbered := fun key => (h₁.trans h₂).numbered key
  refine ⟨?_, ?_, ?_, ?_, ?_⟩
  · intro key
    exact ⟨terminals_unique w₂.db key, fun row hrow => h₂.terminal hrow⟩
  · intro op now attempt hop hchanged
    obtain ⟨key, t, l, heffect⟩ := (op.perform_effect now w₂).takesEffect hop hchanged
    refine ⟨key, t, l, heffect, ?_⟩
    intro hcancelled
    exact ⟨t, (h₂.retired hcancelled).task.symm.trans heffect.1.task, heffect.1.lease⟩
  · intro key
    have hlength := (hnumbered key).length_eq
    refine ⟨by rw [hlength]; exact (hnumbered key).epochs, ?_⟩
    intro t ht
    rw [hlength]
    exact (hnumbered key).bounded t ht
  · intro key now i j a b ha hb hholds hholds'
    obtain ⟨t, l, ht, hl, hepoch, -⟩ := hholds
    obtain ⟨t', l', ht', hl', hepoch', -⟩ := hholds'
    obtain rfl := Option.some.inj (ht.symm.trans ht')
    obtain rfl := Option.some.inj (hl.symm.trans hl')
    have hi := (hnumbered key).epoch_get ha
    have hj := (hnumbered key).epoch_get hb
    have heq : EpochText.str (i + 1) = EpochText.str (j + 1) := by
      rw [← hi, ← hj, hepoch, hepoch']
    injection heq with heq
    omega
  · intro worker now attempt key hclaimed hid t l ht hl
    have heffect := (Op.claim worker).perform_effect (F := F) now w₂
    rw [hclaimed] at heffect
    exact heffect.claim_expired hid ht hl

/-! ## The fence a cancellation leaves -/

lemma Effect.dispatch_cancelled {occurrence : Nat} {invocation : ActivityInvocation Json}
    (h : Effect F now w (.dispatch id occurrence invocation) reply db')
    (hsession : w.sessions.get? id = some session)
    (hc : w.db.cancellations.get? (session.instanceId, occurrence) ≠ none) : db' = w.db := by
  cases h with
  | still => rfl
  | dispatched session_eq open_ =>
    obtain rfl := Option.some.inj (hsession.symm.trans session_eq)
    exact absurd open_ hc
  | heard report => cases report

lemma Effect.cancel_again (h : Effect F now w (.cancel id instruction) reply db')
    (hsession : w.sessions.get? id = some session)
    (hc : w.db.cancellations.get? (session.instanceId, instruction.occurrence) ≠ none) :
    db' = w.db := by
  cases h with
  | still => rfl
  | cancelled session_eq kept =>
    obtain rfl := Option.some.inj (hsession.symm.trans session_eq)
    obtain ⟨prior, hget⟩ := Option.ne_none_iff_exists'.mp hc
    obtain rfl := kept prior hget
    rw [Dict.set_of_get? hget]
  | heard report => cases report

lemma Effect.cancel_committed {d : CancellationDisposition}
    (h : Effect F now w (.cancel id instruction) (.cancelled d) db')
    (hsession : w.sessions.get? id = some session) :
    db'.cancellations.get? (session.instanceId, instruction.occurrence) ≠ none ∧
      db'.tasks = w.db.tasks ∧ db'.terminals = w.db.terminals := by
  cases h with
  | still passive => cases passive
  | cancelled session_eq =>
    obtain rfl := Option.some.inj (hsession.symm.trans session_eq)
    exact ⟨by simp, rfl, rfl⟩

theorem local_dispatch_cancelled {id : Nat} {session : Session}
    {instruction : CancellationInstruction} {d : CancellationDisposition}
    (hsession : w.sessions.get? id = some session)
    (hcancel : ((Op.cancel id instruction).perform F now w).1 = .cancelled d)
    (h : Runs F { ((Op.cancel id instruction).perform F now w).2 with clock := now } es w') :
    let key : Key := (session.instanceId, instruction.occurrence)
    -- no later claim returns it and nothing makes it claimable
    handedOut key es = [] ∧
    (∀ now queues t, w'.db.tasks.get? key = some t →
      w'.db.claimable now queues (key, t) = false) ∧
    -- its row stays, absent if it was never published; repeated calls change nothing
    w'.db.tasks.get? key = w.db.tasks.get? key ∧
    (∀ id' session', w'.sessions.get? id' = some session' →
      session'.instanceId = session.instanceId →
      (∀ now invocation,
        ((Op.dispatch id' instruction.occurrence invocation).perform F now w').2.db = w'.db) ∧
      ∀ (now : Nat) (again : CancellationInstruction), again.occurrence = instruction.occurrence →
        ((Op.cancel id' again).perform F now w').2.db = w'.db) ∧
    -- at most one report is accepted, from the lease it was cancelled under
    (es.filterMap (Event.accepted key)).length ≤ 1 ∧
    (∀ a ∈ es.filterMap (Event.accepted key), ∃ t l, w.db.tasks.get? key = some t ∧
      t.lease = some l ∧ a.epoch.int = .ok (l.epoch : Int) ∧ a.claimant = l.claimant) ∧
    -- and none if it was never leased
    ((∀ t, w.db.tasks.get? key = some t → t.lease = none) →
      es.filterMap (Event.accepted key) = [] ∧
        w'.db.terminals.get? key = w.db.terminals.get? key) := by
  intro key
  have heffect := (Op.cancel id instruction).perform_effect (F := F) now w
  rw [hcancel] at heffect
  obtain ⟨hc, htasks, hterminals⟩ := heffect.cancel_committed hsession
  have hretired := h.retired hc
  obtain ⟨honce, hexact⟩ := h.accepted_once hc
  have hrow : w'.db.tasks.get? key = w.db.tasks.get? key := by
    rw [← htasks]
    exact hretired.task
  have hfence : w'.db.cancellations.get? key ≠ none := by
    intro hnone
    exact hc (hretired.cancellation.symm.trans hnone)
  refine ⟨hretired.unclaimed, ?_, hrow, ?_, ?_, ?_, ?_⟩
  · intro now queues t _
    rw [Bool.eq_false_iff]
    intro hclaimable
    obtain ⟨hopen, -⟩ := claimable_iff.mp hclaimable
    exact hfence (open_iff.mp hopen).2
  · intro id' session' hsession' hinstance
    have hfence' :
        w'.db.cancellations.get? (session'.instanceId, instruction.occurrence) ≠ none := by
      rw [hinstance]
      exact hfence
    constructor
    · intro now invocation
      exact (Op.perform_effect _ now w').dispatch_cancelled hsession' hfence'
    · intro now again hoccurrence
      apply (Op.perform_effect _ now w').cancel_again hsession'
      rw [hoccurrence]
      exact hfence'
  · rcases honce with hempty | ⟨hone, -⟩
    · exact (congrArg List.length hempty).le.trans (Nat.zero_le 1)
    · exact hone.le
  · intro a ha
    obtain ⟨t, l, ht, hl, hepoch, hclaimant⟩ := hexact a ha
    rw [htasks] at ht
    exact ⟨t, l, ht, hl, hepoch, hclaimant⟩
  · intro hunleased
    constructor
    · apply eq_nil_iff_forall_not_mem.mpr
      intro a ha
      obtain ⟨t, l, ht, hl, -⟩ := hexact a ha
      rw [htasks] at ht
      rw [hunleased t ht] at hl
      cases hl
    · rcases hretired.terminal with hsame | ⟨-, t, l, outcome, ht, hl, -⟩
      · rw [← hterminals]
        exact hsame
      · have ht' : w.db.tasks.get? key = some t := by
          rw [← htasks]
          exact ht
        rw [hunleased t ht'] at hl
        cases hl

/-! ## A published occurrence, leased, given back and leased again -/

def plainFloat : FloatArithmetic where
  scale d := d * 1000
  saturation _ _ _ := 0
  growth _ _ _ := .int 0
  repr d := toString d.toRat

lemma charge_ne : "charge" ≠ "" := by decide

lemma two_attempts : 1 ≤ 2 := by decide

def charge : ActivityInvocation Json where
  activity := "charge"
  input := .null
  policy := { ExecutionPolicy.standard with attempts := 2, attempts_pos := two_attempts }
  activity_ne := charge_ne
  correlation_ne := none_ne_empty
  idempotency_ne := none_ne_empty

/-- The attempt with the given epoch on occurrence 1 of the instance `one`. -/
def chargeAttempt (epoch : Nat) (claimant : String) : ActivityAttempt where
  attemptId := some (attemptId ("one", 1))
  epoch := .str epoch
  claimant
  queue := "default"
  invocation := charge
  instanceId := some "one"

def chargeClaims : List (Op × Nat) :=
  [(.openSession 0 "one" "default" .empty, 0), (.dispatch 0 1 charge, 0),
    (.claim ⟨["default"], "left"⟩, 10), (.claim ⟨["default"], "right"⟩, 20),
    (.claim ⟨["default"], "right"⟩, 30010)]

def chargeReports : List (Op × Nat) :=
  [(.complete (chargeAttempt 1 "left") (.faithful .null), 30020),
    (.complete (chargeAttempt 2 "right") (.faithful (.bool true)), 30030)]

theorem local_dispatch_fenced_charge :
    let claims := World.play plainFloat {} chargeClaims
    let reports := World.play plainFloat claims.2 chargeReports
    (handedOut ("one", 1) claims.1).map ActivityAttempt.claimant = ["left", "right"] ∧
      reports.2.db.terminals.keys = [("one", 1)] ∧
      (handedOut ("one", 1) (claims.1 ++ reports.1)).map ActivityAttempt.epoch =
        (List.range' 1 (handedOut ("one", 1) (claims.1 ++ reports.1)).length).map
          EpochText.str := by
  intro claims reports
  have hclaims : Runs plainFloat {} claims.1 claims.2 := Runs.play (by decide)
  have hreports : Runs plainFloat claims.2 reports.1 reports.2 := Runs.play (by decide +kernel)
  exact ⟨by decide +kernel, by decide +kernel,
    ((local_dispatch_fenced hclaims hreports).2.2.1 ("one", 1)).1⟩

lemma first_occurrence : 1 ≤ 1 := by decide

lemma seventh_position : 1 ≤ 7 := by decide

def chargeCancellation : CancellationInstruction where
  occurrence := 1
  invocation := charge
  historyPosition := 7
  occurrence_pos := first_occurrence
  position_pos := seventh_position

/-- Leased by `left` when it was cancelled: the report of `left` is accepted once, nothing else. -/
theorem local_dispatch_cancelled_charge :
    let leased := (World.play plainFloat {} (chargeClaims.take 3)).2
    let cancelled := (Op.cancel 0 chargeCancellation).perform plainFloat 40 leased
    let late := World.play plainFloat { cancelled.2 with clock := 40 }
      [(.claim ⟨["default"], "right"⟩, 50000), (.dispatch 0 1 charge, 50000),
        (.complete (chargeAttempt 2 "right") (.faithful .null), 50001),
        (.complete (chargeAttempt 1 "left") (.faithful .null), 50002),
        (.complete (chargeAttempt 1 "left") (.faithful .null), 50003)]
    cancelled.1 = .cancelled .fenced ∧
      (late.1.filterMap (Event.accepted ("one", 1))).map ActivityAttempt.claimant = ["left"] ∧
      handedOut ("one", 1) late.1 = [] := by
  intro leased cancelled late
  have hsession : ∃ session, leased.sessions.get? 0 = some session ∧ session.instanceId = "one" :=
    ⟨{ instanceId := "one", published := [1] }, by decide +kernel, rfl⟩
  obtain ⟨session, hsession, hinstance⟩ := hsession
  have hcancel : cancelled.1 = .cancelled .fenced := by decide +kernel
  have hruns : Runs plainFloat { cancelled.2 with clock := 40 } late.1 late.2 :=
    Runs.play (by decide +kernel)
  refine ⟨hcancel, by decide +kernel, ?_⟩
  have hfence := (local_dispatch_cancelled hsession hcancel hruns).1
  rw [hinstance] at hfence
  exact hfence

end Petrus.Motus.LocalDispatch
