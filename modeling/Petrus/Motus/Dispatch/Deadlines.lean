import Petrus.Motus.Dispatch.Backoff

/-!
# The times of a lease

A lease ends within its attempt, an attempt within the schedule of its task, and no renewal
moves that end. A claim leases nothing whose schedule has closed.
-/

namespace Petrus.Motus.LocalDispatch

open Lib List

variable {F : FloatArithmetic} {w w' : World} {start now : Nat} {key k : Key} {db db' : Database}
  {t : Task} {l : Lease} {queues : List String}
variable {attempt : ActivityAttempt} {op : Op} {reply : Reply}

/-! ## Limits -/

lemma minimum_le_first (first : Nat) (rest : List Nat) : minimum first rest ≤ first := by
  induction rest generalizing first with
  | nil => exact Nat.le_refl _
  | cons x rest ih => exact (ih (min first x)).trans (Nat.min_le_left _ _)

lemma minimum_le_mem (first : Nat) {rest : List Nat} {x : Nat} (h : x ∈ rest) :
    minimum first rest ≤ x := by
  induction rest generalizing first with
  | nil => cases h
  | cons y rest ih =>
    rcases mem_cons.mp h with rfl | h
    · exact (minimum_le_first _ rest).trans (Nat.min_le_right _ _)
    · exact ih (min first y) h

lemma minimum_mono {a b : Nat} (h : a ≤ b) (rest : List Nat) :
    minimum a rest ≤ minimum b rest := by
  induction rest generalizing a b with
  | nil => exact h
  | cons x rest ih => exact ih (min_le_min_right x h)

/-- The lease ends within the attempt, and the attempt within the schedule. -/
structure Timed (F : FloatArithmetic) (t : Task) (l : Lease) : Prop where
  attempt : ∀ d ∈ l.attemptDeadline, l.deadline ≤ d
  schedule : ∀ s ∈ t.scheduleDeadline F, ∃ d ∈ l.attemptDeadline, d ≤ s

lemma Timed.deadline_le (h : Timed F t l) {s : Nat} (hs : s ∈ t.scheduleDeadline F) :
    l.deadline ≤ s := by
  obtain ⟨d, hd, hle⟩ := h.schedule s hs
  exact (h.attempt d hd).trans hle

lemma Task.claimed_timed (t : Task) (claimant : String) (now : Nat) :
    Timed F t (t.claimed F claimant now) := by
  have hschedule : ∀ s ∈ t.scheduleDeadline F, s ∈ hardLimits F t now := by
    intro s hs
    rw [hardLimits, Option.mem_def.mp hs]
    simp
  unfold Task.claimed
  constructor
  · intro d hd
    dsimp only at hd ⊢
    cases hlimits : hardLimits F t now with
    | nil => simp [hlimits] at hd
    | cons first rest =>
      simp only [hlimits, Option.mem_def, Option.some.injEq] at hd
      rw [← hd]
      exact minimum_mono (Nat.min_le_right _ _) rest
  · intro s hs
    have hmem := hschedule s hs
    dsimp only
    cases hlimits : hardLimits F t now with
    | nil =>
      rw [hlimits] at hmem
      cases hmem
    | cons first rest =>
      refine ⟨minimum first rest, rfl, ?_⟩
      rw [hlimits] at hmem
      rcases mem_cons.mp hmem with rfl | hmem
      · exact minimum_le_first _ rest
      · exact minimum_le_mem first hmem

lemma Timed.renewed (h : Timed F t l) (now : Nat) (details : Option Json) :
    Timed F (t.renewed l now details) { l with deadline := t.renewedDeadline l now } where
  attempt _ hd := minimum_le_mem _ (Option.mem_toList.mpr hd)
  schedule := h.schedule

lemma Timed.released (h : Timed F t l) (live : now < l.deadline) (available : Nat) :
    Timed F (t.released l now available) { l with deadline := now } where
  attempt d hd := live.le.trans (h.attempt d hd)
  schedule := h.schedule

def Custody.Timed (F : FloatArithmetic) (c : Custody) : Prop :=
  ∀ t l, c.task = some t → t.lease = some l → LocalDispatch.Timed F t l

lemma Move.timed {a b : Custody} (m : Move F now a b) (h : a.Timed F) : b.Timed F := by
  intro t' l' ht hl
  cases m with
  | published terminal queue invocation =>
    cases ht
    cases hl
  | routed t | delayed t =>
    cases ht
    exact ⟨(h t l' rfl hl).attempt, (h t l' rfl hl).schedule⟩
  | renewed t l details lease live =>
    cases ht
    cases hl
    exact (h t l rfl lease).renewed now details
  | released t l available lease live remaining =>
    cases ht
    cases hl
    exact (h t l rfl lease).released live available
  | exhausted | reported | cancelled => exact h t' l' ht hl

lemma invariant_timed : Invariant F start fun _ _ c => c.Timed F where
  later _ _ _ _ _ h := h
  move _ _ _ _ _ h m := m.timed h
  claim now _ t attempt _ _ _ _ _ _ := by
    intro t' l' ht hl
    cases ht
    cases hl
    have htimed := t.claimed_timed (F := F) attempt.claimant now
    exact ⟨htimed.attempt, htimed.schedule⟩

/-! ## What a sweep ends -/

lemma exhaust_written {ts ts' : Dict Key Terminal} {row : Key × Task}
    (h : exhaust ts row = .ok ts') : ts'.get? row.1 ≠ none := by
  unfold exhaust at h
  obtain ⟨failure, -, h⟩ := bind_eq_ok.mp h
  cases h
  split_ifs with hcontains
  · obtain ⟨terminal, hterminal⟩ := Dict.contains_iff_get?.mp hcontains
    simp [hterminal]
  · simp

lemma foldlM_exhaust_written {rows : List (Key × Task)} {ts ts' : Dict Key Terminal}
    (h : rows.foldlM exhaust ts = .ok ts') {row : Key × Task} (hrow : row ∈ rows) :
    ts'.get? row.1 ≠ none := by
  induction rows generalizing ts with
  | nil => cases hrow
  | cons first rows ih =>
    obtain ⟨mid, hstep, hrest⟩ := foldlM_cons_eq_ok.mp h
    rcases mem_cons.mp hrow with rfl | hrow
    · rcases foldlM_exhaust hrest row.1 with hsame | ⟨hnone, -⟩
      · rw [hsame]
        exact exhaust_written hstep
      · exact absurd hnone (exhaust_written hstep)
    · exact ih hrest hrow

lemma swept_exhausted (h : terminalizeExhausted F now queues db = .ok db')
    (ht : db'.tasks.get? key = some t) (hexhausted : db.exhausted F now queues key t = true) :
    db'.terminals.get? key ≠ none := by
  unfold terminalizeExhausted at h
  obtain ⟨terminals, hfold, h⟩ := bind_eq_ok.mp h
  cases h
  exact foldlM_exhaust_written hfold (mem_filter.mpr ⟨Dict.get?_eq_some.mp ht, hexhausted⟩)

lemma exhausted_iff : db.exhausted F now queues key t = true ↔
    db.open_ key = true ∧ t.queue ∈ queues ∧ (t.expired now = true ∧ t.attempts ≤ t.epoch ∨
      ∃ s ∈ t.scheduleDeadline F, s ≤ now) := by
  have hschedule : (∃ d, t.invocation.policy.scheduleToClose = some d ∧
      t.scheduleStart + sqlMilliseconds F d ≤ now) ↔ ∃ s ∈ t.scheduleDeadline F, s ≤ now := by
    unfold Task.scheduleDeadline
    constructor
    · rintro ⟨d, hd, hle⟩
      rw [sqlMilliseconds_eq F (t.invocation.policy.schedule_bound d hd).1] at hle
      exact ⟨_, Option.mem_map_of_mem _ hd, hle⟩
    · rintro ⟨s, hs, hle⟩
      obtain ⟨d, hd, rfl⟩ := Option.mem_map.mp hs
      refine ⟨d, hd, ?_⟩
      rwa [sqlMilliseconds_eq F (t.invocation.policy.schedule_bound d hd).1]
  unfold Database.exhausted
  simp only [Bool.and_eq_true, Bool.or_eq_true, decide_eq_true_eq, Option.any_eq_true,
    contains_iff_mem, hschedule, and_assoc]

lemma delayed_same (F : FloatArithmetic) (now : Nat) (db : Database) (queues : List String)
    (k : Key) (t : Task) :
    (db.delayed F now queues k t).lease = t.lease ∧
      (db.delayed F now queues k t).invocation = t.invocation ∧
      (db.delayed F now queues k t).scheduleStart = t.scheduleStart ∧
      (db.delayed F now queues k t).queue = t.queue := by
  rcases delayed_cases F now db queues k t with h | ⟨l, -, -, -, -, h⟩ <;>
    rw [h] <;> exact ⟨rfl, rfl, rfl, rfl⟩

/-- What a claim leases: an open row of its queues that is due, unexpired by its schedule and
not leased. -/
structure Claims (F : FloatArithmetic) (db : Database) (now : Nat) (queues : List String)
    (key : Key) (t : Task) : Prop where
  task : db.tasks.get? key = some t
  free : db.open_ key = true
  queue : t.queue ∈ queues
  remaining : t.epoch < t.attempts
  idle : t.idle now = true
  due : (db.delayed F now queues key t).availableAt ≤ now
  scheduled : ∀ s ∈ t.scheduleDeadline F, now < s

lemma sweep_claims {t' : Task} (hsweep : terminalizeExhausted F now queues db = .ok db')
    (htask : db'.tasks.get? key = some t')
    (hclaimable : db'.claimable now queues (key, t') = true) :
    ∃ t, Claims F db now queues key t := by
  obtain ⟨hopen, hqueue, hremaining, hdue, hidle⟩ := claimable_iff.mp hclaimable
  obtain ⟨hcancellations, hrows⟩ := terminalizeExhausted_eq_ok hsweep
  obtain ⟨hterminal, hfree⟩ := open_iff.mp hopen
  obtain ⟨hdelayed, hsame⟩ := hrows key
  rw [htask] at hdelayed
  obtain ⟨t, ht, rfl⟩ := Option.map_eq_some_iff.mp hdelayed.symm
  obtain ⟨hlease, hinvocation, hstart, hq⟩ := delayed_same F now db queues key t
  have hterminal₀ : db.terminals.get? key = none := by
    rcases hsame with hsame | ⟨hnone, -⟩
    · rw [← hsame]
      exact hterminal
    · exact hnone
  have hopen₀ : db.open_ key = true := open_iff.mpr ⟨hterminal₀, hcancellations ▸ hfree⟩
  have hepoch : (db.delayed F now queues key t).epoch = t.epoch := by
    simp only [Task.epoch, hlease]
  have hattempts : (db.delayed F now queues key t).attempts = t.attempts := by
    simp only [Task.attempts, hinvocation]
  have hschedule : (db.delayed F now queues key t).scheduleDeadline F = t.scheduleDeadline F := by
    simp only [Task.scheduleDeadline, hinvocation, hstart]
  refine ⟨t, ⟨ht, hopen₀, hq ▸ hqueue, ?_, ?_, hdue, ?_⟩⟩
  · rwa [hepoch, hattempts] at hremaining
  · simpa only [Task.idle, hlease] using hidle
  · -- a closed schedule would have ended the row in the sweep
    intro s hs
    by_contra hle
    refine swept_exhausted hsweep htask (exhausted_iff.mpr ⟨hopen₀, hqueue, .inr ⟨s, ?_, ?_⟩⟩)
      hterminal
    · rwa [hschedule]
    · omega

lemma Effect.claims (h : Effect F now w op reply db') (hattempt : reply.attempt? = some attempt) :
    ∃ key t queues, attempt.attemptId = some (attemptId key) ∧ Claims F w.db now queues key t := by
  cases h with
  | still passive =>
    rw [Reply.attempt?_passive passive] at hattempt
    cases hattempt
  | @claimed worker _ key _ _ sweep task claimable id =>
    cases hattempt
    obtain ⟨t, hclaims⟩ := sweep_claims sweep task claimable
    exact ⟨key, t, worker.queues, id, hclaims⟩
  | _ => cases hattempt

/-! ## Due times -/

/-- The due time has come, or is at most the backoff after a lease that ended. -/
def Due (F : FloatArithmetic) (clock : Nat) (t : Task) : Prop :=
  t.availableAt ≤ clock ∨ ∃ l, t.lease = some l ∧ l.deadline ≤ clock ∧
    t.availableAt ≤ l.deadline + milliseconds F (t.invocation.policy.delay F l.epoch)

def Database.Due (F : FloatArithmetic) (clock : Nat) (db : Database) : Prop :=
  ∀ k t, db.tasks.get? k = some t → LocalDispatch.Due F clock t

def Op.Within (F : FloatArithmetic) : Op → Prop
  | .fail attempt report => ∀ failure r n, report.failed = .ok failure →
      failure.retryAfter = some r → attempt.epoch = .str n →
      milliseconds F (pyMax (attempt.invocation.policy.delay F n) r) ≤
        milliseconds F (attempt.invocation.policy.delay F n)
  | _ => True

lemma Due.later {clock : Nat} (h : Due F clock t) (hle : clock ≤ now) : Due F now t := by
  rcases h with h | ⟨l, hl, hended, hdue⟩
  · exact .inl (h.trans hle)
  · exact .inr ⟨l, hl, hended.trans hle, hdue⟩

lemma Due.live (h : Due F now t) (hl : t.lease = some l) (live : now < l.deadline) :
    t.availableAt ≤ now := by
  rcases h with h | ⟨l', hl', hended, -⟩
  · exact h
  · rw [hl, Option.some.injEq] at hl'
    subst hl'
    omega

lemma Database.Due.setTask (h : db.Due F now) (ht : LocalDispatch.Due F now t) :
    { db with tasks := db.tasks.set key t }.Due F now := by
  intro k t' ht'
  rw [Dict.get?_set] at ht'
  split_ifs at ht' with hk
  · cases ht'
    exact ht
  · exact h k t' ht'

lemma terminalizeExhausted_due (h : terminalizeExhausted F now queues db = .ok db')
    (hdue : db.Due F now) : db'.Due F now := by
  intro k t' ht'
  rw [((terminalizeExhausted_eq_ok h).2 k).1] at ht'
  obtain ⟨t, ht, rfl⟩ := Option.map_eq_some_iff.mp ht'
  rcases delayed_cases F now db queues k t with hsame | ⟨l, hl, -, hended, -, hdelayed⟩
  · rw [hsame]
    exact hdue k t ht
  · rw [hdelayed]
    exact .inr ⟨l, hl, hended, Nat.le_refl _⟩

lemma milliseconds_pyMax_zero (d : PyNumber) :
    milliseconds F (pyMax d (.int 0)) ≤ milliseconds F d := by
  unfold pyMax
  split_ifs
  · exact Nat.zero_le _
  · exact Nat.le_refl _

lemma retryDelay_le {report : Report} {failure : ActivityFailure} {n : Nat}
    (hwithin : (Op.fail attempt report).Within F) (hfailure : report.failed = .ok failure)
    (hepoch : attempt.epoch = .str n) :
    milliseconds F (retryDelay F attempt.invocation.policy n failure) ≤
      milliseconds F (attempt.invocation.policy.delay F n) := by
  unfold retryDelay
  cases hr : failure.retryAfter with
  | none => exact milliseconds_pyMax_zero _
  | some r => exact hwithin failure r n hfailure hr hepoch

lemma Effect.due (h : Effect F now w op reply db') (hwithin : op.Within F)
    (hdue : w.db.Due F now) : db'.Due F now := by
  cases h with
  | still | cancelled | heard => exact hdue
  | polled sweep | unclaimed sweep => exact terminalizeExhausted_due sweep hdue
  | claimed sweep _ claimable =>
    exact (terminalizeExhausted_due sweep hdue).setTask (.inl (claimable_iff.mp claimable).2.2.2.1)
  | @dispatched _ occurrence _ session _ _ _ _ row_eq =>
    subst row_eq
    refine hdue.setTask ?_
    cases htask : w.db.tasks.get? (session.instanceId, occurrence) with
    | none => exact .inl (Nat.le_refl _)
    | some t => exact hdue _ t htask
  | renewed active =>
    exact hdue.setTask (.inl ((hdue _ _ active.task).live active.lease active.live))
  | @released attempt _ _ t l _ available failed active released =>
    refine hdue.setTask (.inr ⟨{ l with deadline := now }, rfl, Nat.le_refl _, ?_⟩)
    have hdelay := retryDelay_le hwithin failed active.spelled
    rw [← policy_of_encode active.invocation] at hdelay
    change available ≤ now + milliseconds F (t.invocation.policy.delay F l.epoch)
    rw [released.available_eq, ← policy_of_encode active.invocation]
    omega

lemma Claims.available (h : Claims F db now queues key t) (hdue : db.Due F now) :
    t.availableAt ≤ now := by
  rcases hdue key t h.task with hcome | ⟨l, hl, hended, hle⟩
  · exact hcome
  · have hremaining : l.epoch < t.attempts := Task.epoch_lease hl ▸ h.remaining
    have hswept := h.due
    simp only [Database.delayed, hl,
      if_pos (show db.open_ key = true ∧ t.queue ∈ queues ∧ l.deadline ≤ now ∧ l.epoch < t.attempts
        from ⟨h.free, h.queue, hended, hremaining⟩)] at hswept
    omega

end Petrus.Motus.LocalDispatch
