import Petrus.Motus.Dispatch.Deadlines

/-!
# No task is stranded

An interleaving goes on forever: operations one after another, under a provider clock that
never goes back. Attempts on one task are bounded, so from some step on neither it nor any
task before it is leased again; from then on a claim either finds it leased, or ends it, or
would have to lease it.
-/

namespace Petrus.Motus.LocalDispatch

open Lib List Dict

variable {F : FloatArithmetic} {w : World} {now : Nat} {key k : Key} {db db' : Database}
  {t : Task} {l : Lease} {queues : List String}
variable {a b : Custody} {worker : Worker} {handed : Option ActivityAttempt} {n m : Nat}

/-! ## One step -/

lemma Moves.epoch_add {handed : List ActivityAttempt} (h : Moves F now k handed a b) :
    b.epoch = a.epoch + handed.length := by
  induction h with
  | refl c => rfl
  | move _ m ih => rw [m.epoch_eq, ih]
  | @claim handed a t _ attempt _ _ _ _ _ ih =>
    rw [length_append, length_singleton, ← Nat.add_assoc, ← ih]
    rfl

lemma Move.task (m : Move F now a b) (h : a.task = some t) :
    ∃ t', b.task = some t' ∧ t'.invocation = t.invocation := by
  cases m <;> cases h <;> exact ⟨_, rfl, rfl⟩

lemma Moves.task {handed : List ActivityAttempt} (h : Moves F now k handed a b)
    (ht : a.task = some t) : ∃ t', b.task = some t' ∧ t'.invocation = t.invocation := by
  induction h with
  | refl c => exact ⟨t, ht, rfl⟩
  | move _ m ih =>
    obtain ⟨t₁, ht₁, hsame₁⟩ := ih ht
    obtain ⟨t₂, ht₂, hsame₂⟩ := m.task ht₁
    exact ⟨t₂, ht₂, hsame₂.trans hsame₁⟩
  | claim _ attempt _ _ _ _ _ ih =>
    obtain ⟨t₁, ht₁, hsame₁⟩ := ih ht
    cases ht₁
    exact ⟨_, rfl, hsame₁⟩

lemma invariant_ended (e ended : Nat) (i : ActivityInvocation Json) :
    Invariant F ended fun _ _ c => (∃ t l, c.task = some t ∧ t.lease = some l ∧ l.epoch = e ∧
      l.deadline = ended ∧ t.invocation = i) ∨ e < c.epoch where
  later _ _ _ _ _ h := h
  move now _ a b hnow h m := by
    rcases h with ⟨t, l, ht, hl, he, hended, hi⟩ | h
    · left
      cases m with
      | published => cases ht
      | routed | delayed =>
        cases ht
        exact ⟨_, l, rfl, hl, he, hended, hi⟩
      | renewed t' l' details lease | released t' l' available lease =>
        cases ht
        obtain rfl := Option.some.inj (hl.symm.trans lease)
        omega
      | exhausted | reported | cancelled => exact ⟨t, l, ht, hl, he, hended, hi⟩
    · exact .inr (m.epoch_eq ▸ h)
  claim now _ t attempt _ h _ _ _ _ := by
    right
    change e < t.epoch + 1
    rcases h with ⟨t', l, ht, hl, he, -⟩ | h
    · cases ht
      rw [Task.epoch_lease hl]
      omega
    · exact Nat.lt_succ_of_lt h

lemma invariant_unleased {start : Nat} : Invariant F start fun now _ c =>
    ∀ t, c.task = some t → t.lease = none → t.availableAt ≤ now where
  later _ _ _ _ hle h t ht hl := (h t ht hl).trans hle
  move _ _ _ _ _ h m := by
    intro t ht hl
    cases m with
    | published terminal queue invocation =>
      cases ht
      exact Nat.le_refl _
    | routed t' queue idle =>
      cases ht
      exact h t' rfl hl
    | delayed t' l lease expired remaining =>
      cases ht
      cases lease.symm.trans hl
    | renewed | released =>
      cases ht
      cases hl
    | exhausted | reported | cancelled => exact h t ht hl
  claim _ _ _ _ _ _ _ _ _ _ := by
    intro t ht hl
    cases ht
    cases hl

/-! ## The order of tasks -/

def Database.earlier (db : Database) (key : Key) : List Key :=
  db.tasks.keys.takeWhile (· ≠ key)

lemma keys_set_prefix (d : Dict Key Task) (key : Key) (t : Task) :
    d.keys <+: (d.set key t).keys := by
  rw [keys_set]
  split_ifs
  · exact prefix_refl _
  · exact prefix_append _ _

lemma terminalizeExhausted_keys (h : terminalizeExhausted F now queues db = .ok db') :
    db'.tasks.keys = db.tasks.keys := by
  unfold terminalizeExhausted at h
  obtain ⟨terminals, -, h⟩ := bind_eq_ok.mp h
  cases h
  simp [Dict.keys, Dict.mapValues]

lemma Effect.keys {op : Op} {reply : Reply} (h : Effect F now w op reply db') :
    w.db.tasks.keys <+: db'.tasks.keys := by
  cases h with
  | still | cancelled | heard => exact prefix_refl _
  | polled sweep | unclaimed sweep => rw [terminalizeExhausted_keys sweep]
  | claimed sweep =>
    rw [← terminalizeExhausted_keys sweep]
    exact keys_set_prefix _ _ _
  | dispatched | renewed | released => exact keys_set_prefix _ _ _

lemma takeWhile_prefix {as bs : List Key} (h : as <+: bs) (hkey : key ∈ as) :
    bs.takeWhile (· ≠ key) = as.takeWhile (· ≠ key) := by
  obtain ⟨cs, rfl⟩ := h
  rw [takeWhile_append, if_neg]
  intro hall
  have hprefix := List.takeWhile_prefix (l := as) fun k => decide (k ≠ key)
  rw [← hprefix.eq_of_length hall] at hkey
  simpa using mem_takeWhile_imp hkey

/-! ## One claim -/

def Database.Storable (db : Database) : Prop := ∀ k t, db.tasks.get? k = some t → t.epoch < 2 ^ 63

lemma exhaustion_ok {epoch : Nat} (h : epoch < 2 ^ 63) :
    ∃ failure, exhaustion epoch = .ok failure := by
  have hdigits : (toString epoch).length ≤ 19 :=
    Nat.repr_length epoch 19 (by decide) (h.trans (by decide))
  have htext (noun : String) (hnoun : noun.length ≤ 8) :
      s!"Local Dispatch deadline exhausted after {epoch} {noun}" ≠ "" ∧
        s!"Local Dispatch deadline exhausted after {epoch} {noun}".length ≤ 4096 := by
    have hlength : s!"Local Dispatch deadline exhausted after {epoch} {noun}".length =
        40 + (toString epoch).length + 1 + noun.length := by
      rw [String.length_append, String.length_append, String.length_append]
      rfl
    refine ⟨fun hempty => ?_, by omega⟩
    rw [hempty, String.length_empty] at hlength
    omega
  refine (exists_classified _ _ _).mpr ⟨htext _ ?_, by decide, by decide⟩
  split_ifs <;> decide

lemma foldlM_exhaust_ok {rows : List (Key × Task)} (h : ∀ row ∈ rows, row.2.epoch < 2 ^ 63)
    (ts : Dict Key Terminal) : ∃ ts', rows.foldlM exhaust ts = .ok ts' := by
  induction rows generalizing ts with
  | nil => exact ⟨ts, rfl⟩
  | cons row rows ih =>
    obtain ⟨failure, hfailure⟩ := exhaustion_ok (h row mem_cons_self)
    obtain ⟨ts', hts'⟩ := ih (fun row hrow => h row (mem_cons_of_mem _ hrow))
      (if ts.contains row.1 then ts
        else ts.set row.1 ⟨row.2.epoch, row.2.lease.map Lease.claimant, .failed failure⟩)
    refine ⟨ts', ?_⟩
    rw [foldlM_cons, exhaust, hfailure]
    exact hts'

lemma Database.Storable.swept (h : db.Storable) (now : Nat) (queues : List String) :
    ∃ swept, terminalizeExhausted F now queues db = .ok swept := by
  have hrows : ∀ row ∈ (db.tasks.mapValues (db.delayed F now queues)).entries.filter
      (fun row => db.exhausted F now queues row.1 row.2), row.2.epoch < 2 ^ 63 := by
    intro row hrow
    have hget := get?_eq_some.mpr (mem_of_mem_filter hrow)
    rw [get?_mapValues] at hget
    obtain ⟨t, ht, hdelayed⟩ := Option.map_eq_some_iff.mp hget
    have hlease := (delayed_same F now db queues row.1 t).1
    rw [← hdelayed, Task.epoch, hlease]
    exact h row.1 t ht
  obtain ⟨terminals, hterminals⟩ := foldlM_exhaust_ok hrows db.terminals
  exact ⟨_, by rw [terminalizeExhausted, hterminals]; rfl⟩

lemma Database.Storable.claim (h : db.Storable) (worker : Worker) (now : Nat) :
    ∃ handed db', claim F worker now db = .ok (handed, db') := by
  obtain ⟨swept, hswept⟩ := h.swept (F := F) now worker.queues
  unfold LocalDispatch.claim
  rw [hswept, ok_bind]
  split
  · exact ⟨_, _, rfl⟩
  · exact ⟨_, _, rfl⟩

lemma claim_first {swept : Database} (h : claim F worker now db = .ok (handed, db'))
    (hsweep : terminalizeExhausted F now worker.queues db = .ok swept)
    (ht : swept.tasks.get? key = some t)
    (hclaimable : swept.claimable now worker.queues (key, t) = true) :
    ∃ attempt k, handed = some attempt ∧ attempt.attemptId = some (attemptId k) ∧
      (k = key ∨ k ∈ db.earlier key) := by
  unfold claim at h
  rw [hsweep, ok_bind] at h
  split at h
  · rename_i hfind
    exact absurd hclaimable (find?_eq_none.mp hfind _ (get?_eq_some.mp ht))
  · rename_i k row hfind
    cases h
    refine ⟨_, k, rfl, rfl, ?_⟩
    by_cases hk : k = key
    · exact .inl hk
    right
    obtain ⟨-, before, after, hentries, hbefore⟩ := find?_eq_some_iff_append.mp hfind
    have hkeys : db.tasks.keys = before.map Prod.fst ++ k :: after.map Prod.fst := by
      rw [← terminalizeExhausted_keys hsweep, Dict.keys, hentries, map_append, map_cons]
    have hnot : key ∉ before.map Prod.fst := by
      intro hmem
      obtain ⟨⟨key', t'⟩, hrow, rfl⟩ := mem_map.mp hmem
      have hrow' : swept.tasks.get? key' = some t' := by
        rw [get?_eq_some, hentries]
        exact mem_append_left _ hrow
      rw [ht, Option.some.injEq] at hrow'
      subst hrow'
      have := hbefore _ hrow
      simp [hclaimable] at this
    rw [Database.earlier, hkeys, takeWhile_append_of_pos]
    · rw [takeWhile_cons_of_pos (by simpa using hk)]
      simp
    · intro k' hk'
      simpa using fun heq : k' = key => hnot (heq ▸ hk')

lemma claim_progress (h : claim F worker now db = .ok (handed, db'))
    (ht : db.tasks.get? key = some t) (hopen : db.open_ key = true)
    (hqueue : t.queue ∈ worker.queues) (hidle : t.idle now = true)
    (hdue : t.epoch < t.attempts → (db.delayed F now worker.queues key t).availableAt ≤ now) :
    db'.terminals.get? key ≠ none ∨ ∃ attempt k, handed = some attempt ∧
      attempt.attemptId = some (attemptId k) ∧ (k = key ∨ k ∈ db.earlier key) := by
  obtain ⟨swept, hsweep, hrow⟩ := claim_eq_ok h
  have hterminals : db'.terminals = swept.terminals := by
    rcases hrow with ⟨-, rfl, -⟩ | ⟨key, t, attempt, -, -, -, -, -, rfl⟩ <;> rfl
  obtain ⟨hcancellations, hrows⟩ := terminalizeExhausted_eq_ok hsweep
  have htask : swept.tasks.get? key = some (db.delayed F now worker.queues key t) := by
    rw [(hrows key).1, ht, Option.map_some]
  obtain ⟨hlease, hinvocation, -, hq⟩ := delayed_same F now db worker.queues key t
  rw [hterminals]
  by_cases hended : swept.terminals.get? key = none
  case neg => exact .inl hended
  have hsweptOpen : swept.open_ key = true :=
    open_iff.mpr ⟨hended, hcancellations ▸ (open_iff.mp hopen).2⟩
  have hepoch : (db.delayed F now worker.queues key t).epoch = t.epoch := by
    simp only [Task.epoch, hlease]
  have hattempts : (db.delayed F now worker.queues key t).attempts = t.attempts := by
    simp only [Task.attempts, hinvocation]
  have hidle' : (db.delayed F now worker.queues key t).idle now = true := by
    simpa only [Task.idle, hlease] using hidle
  by_cases hremaining : t.epoch < t.attempts
  · right
    refine claim_first h hsweep htask (claimable_iff.mpr ⟨hsweptOpen, hq ▸ hqueue, ?_,
      hdue hremaining, hidle'⟩)
    rwa [hepoch, hattempts]
  · -- the last lease ran out, so the sweep ends the task
    exfalso
    obtain ⟨l, hl⟩ : ∃ l, t.lease = some l := by
      cases hl : t.lease with
      | some l => exact ⟨l, rfl⟩
      | none =>
        have := t.invocation.policy.attempts_pos
        simp only [Task.epoch, Task.attempts, hl] at hremaining
        exact absurd this hremaining
    have hexpired : (db.delayed F now worker.queues key t).expired now = true := by
      simp only [Task.expired, hlease, hl, Option.any_some, decide_eq_true_eq]
      exact (Task.idle_lease hl).mp hidle
    refine swept_exhausted hsweep htask (exhausted_iff.mpr ⟨hopen, hq ▸ hqueue, .inl
      ⟨hexpired, ?_⟩⟩) hended
    rw [hepoch, hattempts]
    omega

/-! ## Interleavings -/

/-- Operations one after another, at instants that never decrease. -/
structure Interleaving where
  op : Nat → Op
  time : Nat → Nat
  forward : Monotone time

namespace Interleaving

def world (F : FloatArithmetic) (I : Interleaving) : Nat → World
  | 0 => {}
  | n + 1 => { ((I.op n).perform F (I.time n) (I.world F n)).2 with clock := I.time n }

def reply (F : FloatArithmetic) (I : Interleaving) (n : Nat) : Reply :=
  ((I.op n).perform F (I.time n) (I.world F n)).1

def events (F : FloatArithmetic) (I : Interleaving) : Nat → List Event
  | 0 => []
  | n + 1 => I.events F n ++ [⟨I.op n, I.time n, I.reply F n⟩]

variable (I : Interleaving)

lemma clock_le (n : Nat) : (I.world F n).clock ≤ I.time n := by
  cases n with
  | zero => exact Nat.zero_le _
  | succ n => exact I.forward n.le_succ

lemma runs (n : Nat) : Runs F {} (I.events F n) (I.world F n) := by
  induction n with
  | zero => exact .refl
  | succ n ih => exact ih.step (I.op n) (I.time n) (I.clock_le n)

lemma effect (n : Nat) : Effect F (I.time n) (I.world F n) (I.op n) (I.reply F n)
    (I.world F (n + 1)).db :=
  (I.op n).perform_effect (I.time n) (I.world F n)

lemma moves (n : Nat) (k : Key) :
    Moves F (I.time n) k (attemptsOn k (I.reply F n).attempt?.toList) ((I.world F n).db.custody k)
      ((I.world F (n + 1)).db.custody k) :=
  (I.effect n).moves k

def epoch (F : FloatArithmetic) (n : Nat) (k : Key) : Nat := ((I.world F n).db.custody k).epoch

lemma epoch_succ (n : Nat) (k : Key) :
    I.epoch F (n + 1) k = I.epoch F n k + (attemptsOn k (I.reply F n).attempt?.toList).length :=
  (I.moves n k).epoch_add

lemma epoch_mono (k : Key) : Monotone fun n => I.epoch F n k := by
  refine monotone_nat_of_le_succ fun n => ?_
  rw [I.epoch_succ]
  exact Nat.le_add_right _ _

lemma task_stays (hm : n ≤ m) (ht : (I.world F n).db.tasks.get? k = some t) :
    ∃ t', (I.world F m).db.tasks.get? k = some t' ∧ t'.invocation = t.invocation := by
  induction m, hm using Nat.le_induction with
  | base => exact ⟨t, ht, rfl⟩
  | succ m _ ih =>
    obtain ⟨t₁, ht₁, hsame₁⟩ := ih
    obtain ⟨t₂, ht₂, hsame₂⟩ := (I.moves m k).task ht₁
    exact ⟨t₂, ht₂, hsame₂.trans hsame₁⟩

lemma epoch_le (ht : (I.world F n).db.tasks.get? k = some t) (m : Nat) :
    I.epoch F m k ≤ t.attempts := by
  obtain ⟨t', ht', hsame⟩ := I.task_stays (le_max_left n m) ht
  have hbounded := ((I.runs (F := F) (max n m)).numbered k).bounded t' ht'
  rw [Task.attempts, hsame] at hbounded
  exact (I.epoch_mono k (le_max_right n m)).trans hbounded

lemma eventually_epoch (ht : (I.world F n).db.tasks.get? k = some t) :
    ∀ᶠ m in Filter.atTop, I.epoch F (m + 1) k = I.epoch F m k := by
  have hbound : BddAbove (Set.range fun m => I.epoch F m k) := by
    refine ⟨t.attempts, ?_⟩
    rintro _ ⟨m, rfl⟩
    exact I.epoch_le ht m
  have hlimit := tendsto_atTop_ciSup (I.epoch_mono (F := F) k) hbound
  rw [nhds_discrete, Filter.tendsto_pure] at hlimit
  filter_upwards [hlimit, (Filter.tendsto_add_atTop_nat 1).eventually hlimit] with m hm hsucc
  rw [hsucc, hm]

lemma earlier_eq (hm : n ≤ m) (ht : (I.world F n).db.tasks.get? key = some t) :
    (I.world F m).db.earlier key = (I.world F n).db.earlier key := by
  have hprefix : (I.world F n).db.tasks.keys <+: (I.world F m).db.tasks.keys := by
    induction m, hm using Nat.le_induction with
    | base => exact prefix_refl _
    | succ m _ ih => exact ih.trans (I.effect m).keys
  exact takeWhile_prefix hprefix (mem_keys_of_get? ht)

lemma exists_settled (ht : (I.world F n).db.tasks.get? key = some t) :
    ∃ m₀, n ≤ m₀ ∧ ∀ m, m₀ ≤ m → ∀ k, k = key ∨ k ∈ (I.world F n).db.earlier key →
      I.epoch F (m + 1) k = I.epoch F m k := by
  have hall : ∀ k ∈ (key :: (I.world F n).db.earlier key).toFinset, ∀ᶠ m in Filter.atTop,
      I.epoch F (m + 1) k = I.epoch F m k := by
    intro k hk
    rcases mem_cons.mp (mem_toFinset.mp hk) with rfl | hk
    · exact I.eventually_epoch ht
    · obtain ⟨t', ht'⟩ := mem_keys_iff.mp ((List.takeWhile_prefix _).subset hk)
      exact I.eventually_epoch ht'
  obtain ⟨m₁, hm₁⟩ := Filter.eventually_atTop.mp ((Filter.eventually_all_finset _).mpr hall)
  refine ⟨max n m₁, le_max_left _ _, fun m hm k hk => ?_⟩
  exact hm₁ m ((le_max_right n m₁).trans hm) k (mem_toFinset.mpr (mem_cons.mpr hk))

lemma epoch_settled {m₀ : Nat} (h : ∀ m, m₀ ≤ m → I.epoch F (m + 1) k = I.epoch F m k)
    (hm : m₀ ≤ m) : I.epoch F m k = I.epoch F m₀ k := by
  induction m, hm using Nat.le_induction with
  | base => rfl
  | succ m hm ih => rw [h m hm, ih]

def Returns (F : FloatArithmetic) (m : Nat) (k : Key) : Prop :=
  ∃ attempt, (I.reply F m).attempt? = some attempt ∧ attempt.attemptId = some (attemptId k)

lemma Returns.epoch_lt (h : I.Returns F m k) : I.epoch F m k < I.epoch F (m + 1) k := by
  obtain ⟨attempt, hreply, hid⟩ := h
  rw [I.epoch_succ, hreply]
  simp [attemptsOn, hid]

lemma ended_stays {m₁ : Nat} (ht : (I.world F m₁).db.tasks.get? key = some t)
    (hl : t.lease = some l) (hended : l.deadline ≤ I.time m₁)
    (hsettled : ∀ m, m₁ ≤ m → I.epoch F (m + 1) key = I.epoch F m key) (hm : m₁ ≤ m) :
    ∃ t' l', (I.world F m).db.tasks.get? key = some t' ∧ t'.lease = some l' ∧ l'.epoch = l.epoch ∧
      l'.deadline = l.deadline ∧ t'.invocation = t.invocation := by
  have hepoch : I.epoch F m₁ key = l.epoch := by
    simp only [Interleaving.epoch, Custody.epoch, Database.custody, ht, Option.map_some,
      Option.getD_some]
    exact Task.epoch_lease hl
  induction m, hm using Nat.le_induction with
  | base => exact ⟨t, l, ht, hl, rfl, rfl, rfl⟩
  | succ m hm ih =>
    have hstep := @Invariant.moves F l.deadline (I.time m) key _
      (invariant_ended l.epoch l.deadline t.invocation) (hended.trans (I.forward hm)) [] _ _ _
      (I.moves m key) (.inl ih)
    rcases hstep with hsame | hlater
    · exact hsame
    · have hsame := I.epoch_settled hsettled (hm.trans m.le_succ)
      rw [hepoch] at hsame
      exact absurd hlater (by rw [← hsame]; exact Nat.lt_irrefl _)

def Serves (F : FloatArithmetic) (m : Nat) (key : Key) (t : Task) : Prop :=
  I.Returns F m key ∨ (∃ l, t.lease = some l ∧ I.time m < l.deadline) ∨
    (I.world F (m + 1)).db.terminals.get? key ≠ none

lemma serves {t₀ : Task} (hn : n ≤ m)
    (ht₀ : (I.world F n).db.tasks.get? key = some t₀) (hstorable : (I.world F m).db.Storable)
    (hop : I.op m = .claim worker) (ht : (I.world F m).db.tasks.get? key = some t)
    (hopen : (I.world F m).db.open_ key = true) (hqueue : t.queue ∈ worker.queues)
    (hidle : t.idle (I.time m) = true)
    (hdue : t.epoch < t.attempts →
      ((I.world F m).db.delayed F (I.time m) worker.queues key t).availableAt ≤ I.time m)
    (hsettled : ∀ k ∈ (I.world F n).db.earlier key, I.epoch F (m + 1) k = I.epoch F m k) :
    I.Serves F m key t := by
  obtain ⟨handed, db', hclaim⟩ := hstorable.claim (F := F) worker (I.time m)
  have hstep : (I.op m).perform F (I.time m) (I.world F m) =
      (.claimed handed, { I.world F m with db := db' }) := by
    simp only [hop, Op.perform, World.transact, hclaim]
  have hreply : I.reply F m = .claimed handed := by rw [reply, hstep]
  have hworld : (I.world F (m + 1)).db = db' := by rw [world, hstep]
  rcases claim_progress hclaim ht hopen hqueue hidle hdue with hended |
    ⟨attempt, k, rfl, hid, rfl | hk⟩
  · exact .inr (.inr (hworld ▸ hended))
  · exact .inl ⟨attempt, by rw [hreply]; rfl, hid⟩
  · have hlt : I.epoch F m k < I.epoch F (m + 1) k :=
      Returns.epoch_lt I ⟨attempt, by rw [hreply]; rfl, hid⟩
    rw [I.earlier_eq hn ht₀] at hk
    exact absurd (hsettled k hk) hlt.ne'

lemma time_lt {m₁ : Nat} (h : I.time m₁ < I.time m) : m₁ ≤ m := by
  by_contra hlt
  exact absurd (I.forward (not_le.mp hlt).le) (not_le.mpr h)

lemma eventually_serves (hstorable : ∀ m, (I.world F m).db.Storable) {t₀ : Task}
    (ht₀ : (I.world F n).db.tasks.get? key = some t₀) :
    ∃ T, ∀ m worker t, T ≤ I.time m → I.op m = .claim worker →
      (I.world F m).db.tasks.get? key = some t → (I.world F m).db.open_ key = true →
      t.queue ∈ worker.queues → I.Serves F m key t := by
  obtain ⟨m₀, hn, hsettled⟩ := I.exists_settled ht₀
  by_cases hended : ∃ m₁ t₁ l₁, m₀ ≤ m₁ ∧ (I.world F m₁).db.tasks.get? key = some t₁ ∧
      t₁.lease = some l₁ ∧ l₁.deadline ≤ I.time m₁
  · -- the last lease ended: the task is due its backoff later
    obtain ⟨m₁, t₁, l₁, hm₁, ht₁, hl₁, hended⟩ := hended
    refine ⟨max (I.time m₁ + 1)
      (l₁.deadline + milliseconds F (t₁.invocation.policy.delay F l₁.epoch)), ?_⟩
    intro m worker t hT hop ht hopen hqueue
    have hm : m₁ ≤ m := I.time_lt ((le_max_left _ _).trans hT)
    obtain ⟨t', l', ht', hl', he, hd, hi⟩ := I.ended_stays ht₁ hl₁ hended
      (fun m hm => hsettled m (hm₁.trans hm) key (.inl rfl)) hm
    rw [ht, Option.some.injEq] at ht'
    subst ht'
    have hexpired : l'.deadline ≤ I.time m := hd ▸ hended.trans (I.forward hm)
    refine I.serves (hn.trans (hm₁.trans hm)) ht₀ (hstorable m) hop ht hopen hqueue
      ((Task.idle_lease hl').mpr hexpired) ?_
      fun k hk => hsettled m (hm₁.trans hm) k (.inr hk)
    intro hremaining
    rw [Task.epoch_lease hl'] at hremaining
    simp only [Database.delayed, hl', if_pos (show (I.world F m).db.open_ key = true ∧
      t.queue ∈ worker.queues ∧ l'.deadline ≤ I.time m ∧ l'.epoch < t.attempts
      from ⟨hopen, hqueue, hexpired, hremaining⟩)]
    rw [hd, he, hi]
    exact (le_max_right _ _).trans hT
  · -- every lease from here on is found unexpired, or there is none
    refine ⟨I.time m₀ + 1, ?_⟩
    intro m worker t hT hop ht hopen hqueue
    have hm : m₀ ≤ m := I.time_lt hT
    cases hl : t.lease with
    | some l =>
      by_cases hle : l.deadline ≤ I.time m
      · exact absurd ⟨m, t, l, hm, ht, hl, hle⟩ hended
      · exact .inr (.inl ⟨l, hl, not_le.mp hle⟩)
    | none =>
      have hstart : ∀ t, (({} : World).db.custody key).task = some t → t.lease = none →
          t.availableAt ≤ ({} : World).clock := by
        intro t ht
        cases ht
      have hdue : t.availableAt ≤ I.time m :=
        ((I.runs (F := F) m).invariant (w := {}) invariant_unleased hstart t ht hl).trans
          (I.clock_le m)
      refine I.serves (hn.trans hm) ht₀ (hstorable m) hop ht hopen hqueue
        (by simp [Task.idle, hl]) ?_
        fun k hk => hsettled m hm k (.inr hk)
      intro _
      simpa only [Database.delayed, hl] using hdue

lemma timed (n : Nat) {t : Task} {l : Lease} (ht : (I.world F n).db.tasks.get? key = some t)
    (hl : t.lease = some l) : Timed F t l := by
  have hstart : (({} : World).db.custody key).Timed F := by
    intro t l ht
    cases ht
  exact (I.runs (F := F) n).invariant (w := {}) invariant_timed hstart t l ht hl

lemma due (n : Nat) (h : ∀ m < n, (I.op m).Within F) :
    (I.world F n).db.Due F (I.world F n).clock := by
  induction n with
  | zero =>
    intro k t ht
    cases ht
  | succ n ih =>
    have hdue : (I.world F n).db.Due F (I.time n) := fun k t ht =>
      (ih (fun m hm => h m (hm.trans n.lt_succ_self)) k t ht).later (I.clock_le n)
    exact (I.effect n).due (h n n.lt_succ_self) hdue

lemma renews {attempt : ActivityAttempt} {details : Option Payload} {latest : Json}
    (hop : I.op n = .heartbeat attempt details) (hreply : I.reply F n = .beat latest) :
    ∃ key t l t' l', attemptKey attempt = .ok key ∧
      (I.world F n).db.tasks.get? key = some t ∧ t.lease = some l ∧
      (I.world F (n + 1)).db.tasks.get? key = some t' ∧ t'.lease = some l' ∧
      l'.attemptDeadline = l.attemptDeadline ∧ t'.scheduleDeadline F = t.scheduleDeadline F := by
  have heffect := I.effect (F := F) n
  rw [hop, hreply] at heffect
  generalize (I.world F (n + 1)).db = after at heffect ⊢
  cases heffect with
  | still passive => cases passive
  | @renewed _ _ key t l kept active =>
    exact ⟨key, t, l, t.renewed l (I.time n) kept, _, active.key_eq, active.task, active.lease,
      get?_set_self _ _ _, rfl, rfl, rfl⟩

end Interleaving

theorem lease_times_within_policy (F : FloatArithmetic) (I : Interleaving) :
    (∀ n key t l, (I.world F n).db.tasks.get? key = some t → t.lease = some l →
      (∀ d ∈ l.attemptDeadline, l.deadline ≤ d) ∧
        ∀ s ∈ t.scheduleDeadline F, ∃ d ∈ l.attemptDeadline, d ≤ s) ∧
    (∀ n attempt details latest, I.op n = .heartbeat attempt details →
      I.reply F n = .beat latest → ∃ key t l t' l', attemptKey attempt = .ok key ∧
        (I.world F n).db.tasks.get? key = some t ∧ t.lease = some l ∧
        (I.world F (n + 1)).db.tasks.get? key = some t' ∧ t'.lease = some l' ∧
        (∀ d ∈ l.attemptDeadline, l'.deadline ≤ d) ∧
          ∀ s ∈ t.scheduleDeadline F, l'.deadline ≤ s) ∧
    (∀ n attempt, (I.reply F n).attempt? = some attempt → ∃ key t,
      attempt.attemptId = some (attemptId key) ∧ (I.world F n).db.tasks.get? key = some t ∧
        (∀ s ∈ t.scheduleDeadline F, I.time n < s) ∧
        ((∀ m < n, (I.op m).Within F) → t.availableAt ≤ I.time n)) ∧
    ((∀ m, (I.world F m).db.Storable) → ∀ n key t, (I.world F n).db.tasks.get? key = some t →
      ∃ T, ∀ m worker t', T ≤ I.time m → I.op m = .claim worker →
        (I.world F m).db.tasks.get? key = some t' → (I.world F m).db.open_ key = true →
        t'.queue ∈ worker.queues → I.Serves F m key t') := by
  refine ⟨?_, ?_, ?_, ?_⟩
  · intro n key t l ht hl
    exact ⟨(I.timed n ht hl).attempt, (I.timed n ht hl).schedule⟩
  · intro n attempt details latest hop hreply
    obtain ⟨key, t, l, t', l', hkey, ht, hl, ht', hl', hattempt, hschedule⟩ := I.renews hop hreply
    have htimed := I.timed (n + 1) ht' hl'
    refine ⟨key, t, l, t', l', hkey, ht, hl, ht', hl', ?_, ?_⟩
    · intro d hd
      exact htimed.attempt d (hattempt ▸ hd)
    · intro s hs
      exact htimed.deadline_le (hschedule ▸ hs)
  · intro n attempt hreply
    obtain ⟨key, t, queues, hid, hclaims⟩ := (I.effect n).claims hreply
    refine ⟨key, t, hid, hclaims.task, hclaims.scheduled, fun hwithin => ?_⟩
    refine hclaims.available fun k t ht => ?_
    exact (I.due n hwithin k t ht).later (I.clock_le n)
  · intro hstorable n key t ht
    exact I.eventually_serves hstorable ht

/-! ## A busy charge -/

/-- `left` leases a charge without a backoff of its own and gives it back, asking for ten
seconds. -/
def busyOps : Nat → Op
  | 0 => .openSession 0 "one" "default" .empty
  | 1 => .dispatch 0 1 charge
  | 2 => .claim ⟨["default"], "left"⟩
  | 3 => .fail (chargeAttempt 1 "left") (.classified busy)
  | _ => .claim ⟨["default"], "right"⟩

def busyTimes (n : Nat) : Nat := if n < 2 then 0 else if n < 3 then 10 else 20

lemma busyTimes_mono : Monotone busyTimes := by
  intro a b h
  unfold busyTimes
  split_ifs <;> omega

def busyCharge : Interleaving := ⟨busyOps, busyTimes, busyTimes_mono⟩

lemma sixty_seconds_bound :
    0 ≤ (PyNumber.int 60).toDyadic ∧ (PyNumber.int 60).toDyadic ≤ maxDurationSeconds := by decide

/-- The attempt on a charge whose policy waits for a minute, longer than the failure asks for. -/
def patientAttempt : ActivityAttempt := (leasedCharge (.int 60) sixty_seconds_bound).2

def patientOps : Nat → Op
  | 1 => .dispatch 0 1 patientAttempt.invocation
  | 3 => .fail patientAttempt (.classified busy)
  | n => busyOps n

def patientTimes (n : Nat) : Nat := if n < 4 then busyTimes n else 60020

lemma patientTimes_mono : Monotone patientTimes := by
  intro a b h
  unfold patientTimes busyTimes
  split_ifs <;> omega

def patientCharge : Interleaving := ⟨patientOps, patientTimes, patientTimes_mono⟩

/-- Given back at instant 20, the charge is handed out again a minute later. -/
theorem lease_times_patientCharge :
    ∃ attempt key t, (patientCharge.reply plainFloat 4).attempt? = some attempt ∧
      attempt.attemptId = some (attemptId key) ∧
      (patientCharge.world plainFloat 4).db.tasks.get? key = some t ∧ t.availableAt ≤ 60020 := by
  obtain ⟨attempt, hreply⟩ : ∃ attempt,
      (patientCharge.reply plainFloat 4).attempt? = some attempt :=
    Option.isSome_iff_exists.mp (by decide +kernel)
  obtain ⟨key, t, hid, ht, -, hdue⟩ :=
    (lease_times_within_policy plainFloat patientCharge).2.2.1 4 _ hreply
  refine ⟨attempt, key, t, hreply, hid, ht, hdue fun m hm => ?_⟩
  interval_cases m
  · exact trivial
  · exact trivial
  · exact trivial
  · intro failure r n hfailure hr hn
    cases hfailure
    cases hr
    cases hn
    decide +kernel

/-- At instant 20 the charge is stored as available at instant 10020, and `right` is handed it. -/
theorem claimed_before_available :
    (((busyCharge.world plainFloat 4).db.tasks.get? ("one", 1)).map Task.availableAt = some 10020) ∧
      busyCharge.time 4 = 20 ∧
      ((busyCharge.reply plainFloat 4).attempt?.map ActivityAttempt.attemptId) =
        some (some (attemptId ("one", 1))) := by
  decide +kernel

end Petrus.Motus.LocalDispatch
