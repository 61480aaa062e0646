import Petrus.Impetus.Instance.End

/-!
# Accounting over the queues

What each movement does to the bag of all queued entries. Identities are distinct
over the whole bag, so consuming by value, consuming by identity and the replayed
consume all leave the same queues behind.
-/

namespace Petrus.Impetus

open Lib List Dict

variable {tokens : List Token} {identities : List Nat}

namespace Queues

variable {queues rest : Queues} {place p : NetPath} {queue : TokenQueue} {e : Entry}

@[simp] lemma at_set : Queues.at_ (queues.set place queue) p =
    if place = p then queue else queues.at_ p := by
  unfold at_
  rw [get?_set]
  split_ifs <;> rfl

lemma all_set (queues : Queues) (place : NetPath) (queue : TokenQueue) :
    (Queues.all (queues.set place queue) ++ queues.at_ place).Perm (queues.all ++ queue) :=
  values_flatten_set queues place queue

lemma mem_all : e ∈ queues.all ↔ ∃ place, e ∈ queues.at_ place := by
  unfold all at_
  rw [mem_flatten]
  constructor
  · rintro ⟨queue, hqueue, he⟩
    obtain ⟨place, hplace⟩ := mem_values.mp hqueue
    exact ⟨place, by rw [hplace]; exact he⟩
  · rintro ⟨place, he⟩
    cases hplace : queues.get? place with
    | none => rw [hplace] at he; simp at he
    | some queue =>
      rw [hplace] at he
      exact ⟨queue, mem_values.mpr ⟨place, hplace⟩, he⟩

lemma at_sublist_all (queues : Queues) (place : NetPath) :
    (queues.at_ place).Sublist queues.all := by
  unfold all at_
  cases h : queues.get? place with
  | none => exact nil_sublist _
  | some queue =>
    exact sublist_flatten_of_mem (mem_values.mpr ⟨place, h⟩)

lemma all_take {taken : List Entry}
    (h : TokenQueue.take (queues.at_ place) tokens = some (taken, queue)) :
    queues.all.Perm (taken ++ Queues.all (queues.set place queue)) := by
  have hset := all_set queues place queue
  have hqueue : (queues.at_ place).Perm (taken ++ queue) := takeEach_perm h
  have hleft := ((hqueue.append_left _).symm.trans hset).symm
  rw [← append_assoc] at hleft
  exact ((perm_append_right_iff queue).mp hleft).trans perm_append_comm

lemma all_deposit (queues : Queues) (place : NetPath) (entries : List Entry) :
    (Queues.all (queues.set place (queues.at_ place ++ entries))).Perm (queues.all ++ entries) := by
  have hset := all_set queues place (queues.at_ place ++ entries)
  refine (perm_append_right_iff (queues.at_ place)).mp (hset.trans ?_)
  rw [append_assoc]
  exact perm_append_comm.append_left _

def Distinct (queues : Queues) : Prop := (queues.all.map Entry.identity).Nodup

lemma Distinct.at_ (h : queues.Distinct) (place : NetPath) :
    ((queues.at_ place).map Entry.identity).Nodup :=
  h.sublist ((at_sublist_all queues place).map _)

lemma Distinct.take {taken : List Entry} (h : queues.Distinct)
    (htake : TokenQueue.take (queues.at_ place) tokens = some (taken, queue)) :
    Distinct (queues.set place queue) := by
  have hperm := (all_take htake).map Entry.identity
  rw [map_append] at hperm
  exact (nodup_append.mp (hperm.nodup_iff.mp h)).2.1

end Queues

/-! ## What a place is asked for -/

section Bound

variable {selections : List Selection} {p : NetPath}

def boundAt (selections : List Selection) (p : NetPath) : List Token :=
  (selections.filter fun selection => selection.1 = p).flatMap Prod.snd

lemma boundAt_cons (selection : Selection) (selections : List Selection) (p : NetPath) :
    boundAt (selection :: selections) p =
      if selection.1 = p then selection.2 ++ boundAt selections p else boundAt selections p := by
  unfold boundAt
  rw [filter_cons]
  split_ifs with h <;> simp_all

lemma boundAt_absent (h : p ∉ selections.map Prod.fst) : boundAt selections p = [] := by
  have hnone : selections.filter (fun selection => selection.1 = p) = [] := by
    rw [filter_eq_nil_iff]
    intro selection hselection
    simpa using fun hp => h (mem_map.mpr ⟨selection, hselection, hp⟩)
  rw [boundAt, hnone, flatMap_nil]

lemma boundAt_ne (h : boundAt selections p ≠ []) : ∃ selection ∈ selections, selection.1 = p := by
  by_contra hnone
  exact h (boundAt_absent fun hp => hnone (mem_map.mp hp))

lemma boundAt_mem {selection : Selection} (hn : (selections.map Prod.fst).Nodup)
    (h : selection ∈ selections) : boundAt selections selection.1 = selection.2 := by
  induction selections with
  | nil => cases h
  | cons first selections ih =>
    rw [map_cons, nodup_cons] at hn
    rw [boundAt_cons]
    rcases mem_cons.mp h with rfl | hmem
    · rw [if_pos rfl, boundAt_absent hn.1, append_nil]
    · have hne : first.1 ≠ selection.1 := fun heq =>
        hn.1 (heq ▸ mem_map_of_mem hmem)
      rw [if_neg hne, ih hn.2 hmem]

end Bound

/-! ## Consumption -/

section Consumption

variable {queues rest : Queues} {selection : Selection} {selections : List Selection}
variable {taken : List Entry} {takens : List (List Entry)}

lemma remove_own_identities {q queue : TokenQueue} (hq : (q.map Entry.identity).Nodup)
    (h : q.take tokens = some (taken, queue)) :
    q.remove tokens (taken.map Entry.identity) = .ok queue := by
  by_cases htokens : tokens = []
  · subst htokens
    cases h
    rfl
  · exact TokenQueue.remove_selected hq htokens h

lemma takeEntries_eq_ok (hd : queues.Distinct) : takeEntries queues selection = .ok (taken, rest) ↔
    ∃ queue, TokenQueue.take (queues.at_ selection.1) selection.2 = some (taken, queue) ∧
      rest = queues.set selection.1 queue := by
  unfold takeEntries
  simp only [bind_eq_ok, except_pure, Except.ok.injEq, Prod.mk.injEq]
  constructor
  · rintro ⟨selected, hselected, queue, hremove, rfl, rfl⟩
    obtain ⟨queue', htake⟩ := TokenQueue.selected_eq_ok.mp hselected
    rw [remove_own_identities (hd.at_ _) htake] at hremove
    cases hremove
    exact ⟨queue, htake, rfl⟩
  · rintro ⟨queue, htake, rfl⟩
    exact ⟨taken, TokenQueue.selected_eq_ok.mpr ⟨queue, htake⟩, queue,
      remove_own_identities (hd.at_ _) htake, rfl, rfl⟩

lemma consumedEntries_nil : consumedEntries queues [] = .ok (takens, rest) ↔
    takens = [] ∧ rest = queues := by
  simp [consumedEntries, eq_comm]

lemma consumedEntries_cons :
    consumedEntries queues (selection :: selections) = .ok (takens, rest) ↔
      ∃ taken mid others, takeEntries queues selection = .ok (taken, mid) ∧
        consumedEntries mid selections = .ok (others, rest) ∧ takens = taken :: others := by
  simp only [consumedEntries, bind_eq_ok, except_pure, Except.ok.injEq, Prod.mk.injEq, Prod.exists]
  constructor
  · rintro ⟨taken, mid, htake, others, rest', hothers, rfl, rfl⟩
    exact ⟨taken, mid, others, htake, hothers, rfl⟩
  · rintro ⟨taken, mid, others, htake, hothers, rfl⟩
    exact ⟨taken, mid, htake, others, rest, hothers, rfl, rfl⟩

lemma consumedEntries_perm (hd : queues.Distinct)
    (h : consumedEntries queues selections = .ok (takens, rest)) :
    queues.all.Perm (takens.flatten ++ rest.all) ∧ rest.Distinct := by
  induction selections generalizing queues takens with
  | nil =>
    obtain ⟨rfl, rfl⟩ := consumedEntries_nil.mp h
    exact ⟨List.Perm.refl _, hd⟩
  | cons selection selections ih =>
    obtain ⟨taken, mid, others, htake, hothers, rfl⟩ := consumedEntries_cons.mp h
    obtain ⟨queue, hqueue, rfl⟩ := (takeEntries_eq_ok hd).mp htake
    obtain ⟨hperm, hdistinct⟩ := ih (hd.take hqueue) hothers
    refine ⟨?_, hdistinct⟩
    rw [flatten_cons, append_assoc]
    exact (Queues.all_take hqueue).trans (hperm.append_left taken)

lemma consumedEntries_sublist (hd : queues.Distinct)
    (h : consumedEntries queues selections = .ok (takens, rest)) (p : NetPath) :
    (rest.at_ p).Sublist (queues.at_ p) := by
  induction selections generalizing queues takens with
  | nil =>
    obtain ⟨rfl, rfl⟩ := consumedEntries_nil.mp h
    exact List.Sublist.refl _
  | cons selection selections ih =>
    obtain ⟨taken, mid, others, htake, hothers, rfl⟩ := consumedEntries_cons.mp h
    obtain ⟨queue, hqueue, rfl⟩ := (takeEntries_eq_ok hd).mp htake
    refine (ih (hd.take hqueue) hothers).trans ?_
    rw [Queues.at_set]
    split_ifs with hp
    · subst hp
      exact takeEach_sublist hqueue
    · exact List.Sublist.refl _

lemma mem_entries_all {binding : Binding} {entries : BindingEntries} (hd : queues.Distinct)
    (hconsumed : consumedEntries queues binding.consumed = .ok (entries.consumed, rest))
    (hread : (binding.read.mapM fun selection =>
      TokenQueue.selected (rest.at_ selection.1) selection.2) = .ok entries.read) {e : Entry}
    (he : e ∈ (entries.consumed ++ entries.read).flatten) : e ∈ queues.all := by
  have hperm := (consumedEntries_perm hd hconsumed).1
  rw [flatten_append, mem_append] at he
  rcases he with he | he
  · exact hperm.mem_iff.mpr (mem_append_left _ he)
  · obtain ⟨taken, htaken, he⟩ := mem_flatten.mp he
    obtain ⟨selection, -, hselected⟩ := mem_of_mapM hread htaken
    obtain ⟨_, htake⟩ := TokenQueue.selected_eq_ok.mp hselected
    have hrest : e ∈ rest.all := Queues.mem_all.mpr ⟨selection.1, mem_of_mem_taken htake he⟩
    exact hperm.mem_iff.mpr (mem_append_right _ hrest)

lemma consumedEntries_length (h : consumedEntries queues selections = .ok (takens, rest)) :
    takens.length = selections.length := by
  induction selections generalizing queues takens with
  | nil =>
    obtain ⟨rfl, rfl⟩ := consumedEntries_nil.mp h
    rfl
  | cons selection selections ih =>
    obtain ⟨taken, mid, others, -, hothers, rfl⟩ := consumedEntries_cons.mp h
    simp [ih hothers]

lemma applyMovement_narrate (hd : queues.Distinct)
    (h : takeEntries queues selection = .ok (taken, rest)) (occurrence : Nat)
    (scope : Option LifecycleScope) (instant : Instant) :
    applyMovement queues
      (.tokensConsumed (narrate occurrence scope instant selection taken)) = .ok rest := by
  obtain ⟨queue, hqueue, rfl⟩ := (takeEntries_eq_ok hd).mp h
  have hremove : TokenQueue.remove (queues.at_ selection.1) selection.2
      (if scope = none then [] else taken.map Entry.identity) = .ok queue := by
    split_ifs
    · exact TokenQueue.remove_nil_eq_ok.mpr ⟨taken, hqueue⟩
    · exact remove_own_identities (hd.at_ _) hqueue
  simp only [applyMovement, narrate, bind_eq_ok, readdress_eq_ok]
  exact ⟨queue, hremove, rfl⟩

lemma foldlM_consumed (hd : queues.Distinct)
    (h : consumedEntries queues selections = .ok (takens, rest)) (occurrence : Nat)
    (scope : Option LifecycleScope) (instant : Instant) :
    (List.zipWith (fun selection selected =>
      Record.tokensConsumed (narrate occurrence scope instant selection selected))
      selections takens).foldlM (fun queues record => applyMovement queues record) queues =
        .ok rest := by
  induction selections generalizing queues takens with
  | nil =>
    obtain ⟨rfl, rfl⟩ := consumedEntries_nil.mp h
    rfl
  | cons selection selections ih =>
    obtain ⟨taken, mid, others, htake, hothers, rfl⟩ := consumedEntries_cons.mp h
    obtain ⟨queue, hqueue, hmid⟩ := (takeEntries_eq_ok hd).mp htake
    have hdmid : mid.Distinct := by
      rw [hmid]
      exact hd.take hqueue
    rw [zipWith_cons_cons, foldlM_cons_eq_ok]
    exact ⟨mid, applyMovement_narrate hd htake occurrence scope instant, ih hdmid hothers⟩

lemma foldlM_beginRecords (hd : queues.Distinct) {binding : Binding} {entries : BindingEntries}
    (h : consumedEntries queues binding.consumed = .ok (entries.consumed, rest))
    (invocation : Option (Motus.ActivityInvocation Json)) (occurrence : Nat)
    (scope : Option LifecycleScope) (instant : Instant) :
    (beginRecords binding entries invocation occurrence scope instant).foldlM
      (fun queues record => applyMovement queues record) queues = .ok rest := by
  unfold beginRecords
  rw [append_assoc, cons_append, foldlM_cons_eq_ok]
  refine ⟨queues, rfl, ?_⟩
  rw [foldlM_append_eq_ok]
  refine ⟨rest, foldlM_consumed hd h occurrence scope instant, ?_⟩
  apply foldlM_inert
  intro record hrecord
  rcases mem_append.mp hrecord with hread | hrequest
  · obtain ⟨i, hi, hget⟩ := getElem_of_mem hread
    rw [getElem_zipWith] at hget
    subst hget
    rfl
  · obtain ⟨i, -, rfl⟩ := mem_map.mp hrequest
    rfl

end Consumption

/-! ## Deposits -/

lemma map_identity_minted (h : identities.length = tokens.length) (instant : Instant)
    (scope : Option LifecycleScope) :
    (minted tokens instant identities scope).map Entry.identity = identities := by
  unfold minted
  rw [map_zipWith]
  induction tokens generalizing identities with
  | nil => simpa using h
  | cons token tokens ih =>
    cases identities with
    | nil => simp at h
    | cons i is =>
      rw [zipWith_cons_cons, ih (by simpa using h)]

lemma map_token_minted (h : identities.length = tokens.length) (instant : Instant)
    (scope : Option LifecycleScope) :
    (minted tokens instant identities scope).map Entry.token = tokens := by
  unfold minted
  rw [map_zipWith]
  induction tokens generalizing identities with
  | nil => simp
  | cons token tokens ih =>
    cases identities with
    | nil => simp at h
    | cons i is =>
      rw [zipWith_cons_cons, ih (by simpa using h)]

lemma mem_minted {instant : Instant} {scope : Option LifecycleScope} {e : Entry}
    (h : e ∈ minted tokens instant identities scope) :
    e.token ∈ tokens ∧ e.instant = instant ∧ e.scope = scope := by
  unfold minted at h
  obtain ⟨i, hi, rfl⟩ := getElem_of_mem h
  rw [getElem_zipWith]
  exact ⟨getElem_mem _, rfl, rfl⟩

def Queues.Below (queues : Queues) (next : Nat) : Prop := ∀ e ∈ queues.all, e.identity < next

lemma orElse_inferred {entries : List Nat} (n : Nat) (h : entries = [] ∨ entries = identities) :
    orElse entries (orElse identities (List.range' n identities.length)) = identities := by
  unfold orElse
  rcases h with rfl | rfl
  · by_cases hne : identities = [] <;> simp [hne]
  · by_cases hne : entries = [] <;> simp [hne]

lemma deposit_fresh {queues : Queues} {next : Nat} (hb : queues.Below next)
    {entries inferred : List Nat}
    (hchosen : orElse entries (orElse inferred
      (List.range' (nextQueueIdentity queues) tokens.length)) = List.range' next tokens.length)
    (place : NetPath) (scope : Option LifecycleScope) (instant : Instant) :
    deposit queues place tokens entries scope instant inferred = .ok
      (queues.set place (queues.at_ place ++
        minted tokens instant (List.range' next tokens.length) scope)) := by
  have hfresh : ∀ i ∈ List.range' next tokens.length, i ∉ queues.all.map Entry.identity := by
    intro i hi hmem
    obtain ⟨e, he, rfl⟩ := mem_map.mp hmem
    have hlt := hb e he
    rw [mem_range'_1] at hi
    omega
  simp only [deposit, hchosen]
  rw [require_bind (length_range' ..), require_bind hfresh]
  rfl

/-- Deposit produced tokens, numbered from `next` on. -/
def depositAll (scope : Option LifecycleScope) (instant : Instant) :
    Queues → Nat → List Selection → Queues
  | queues, _, [] => queues
  | queues, next, effect :: effects =>
    depositAll scope instant
      (queues.set effect.1
        (queues.at_ effect.1 ++ minted effect.2 instant (List.range' next effect.2.length) scope))
      (next + effect.2.length) effects

def mintedAll (scope : Option LifecycleScope) (instant : Instant) :
    Nat → List Selection → List Entry
  | _, [] => []
  | next, effect :: effects =>
    minted effect.2 instant (List.range' next effect.2.length) scope ++
      mintedAll scope instant (next + effect.2.length) effects

section DepositAll

variable {scope : Option LifecycleScope} {instant : Instant} {queues : Queues} {next : Nat}
variable {effects : List Selection}

@[simp] lemma producedCount_nil : producedCount [] = 0 := rfl

@[simp] lemma producedCount_cons (effect : Selection) :
    producedCount (effect :: effects) = effect.2.length + producedCount effects := by
  simp [producedCount]

lemma map_identity_mintedAll :
    (mintedAll scope instant next effects).map Entry.identity =
      List.range' next (producedCount effects) := by
  induction effects generalizing next with
  | nil => rfl
  | cons effect effects ih =>
    rw [mintedAll, map_append, map_identity_minted (length_range' ..), ih,
      producedCount_cons, range'_append_1]

lemma mem_mintedAll {e : Entry} (h : e ∈ mintedAll scope instant next effects) :
    e.instant = instant ∧ e.scope = scope := by
  induction effects generalizing next with
  | nil => simp [mintedAll] at h
  | cons effect effects ih =>
    rcases mem_append.mp h with hhead | htail
    · exact (mem_minted hhead).2
    · exact ih htail

lemma all_depositAll :
    (depositAll scope instant queues next effects).all.Perm
      (queues.all ++ mintedAll scope instant next effects) := by
  induction effects generalizing queues next with
  | nil => simp [depositAll, mintedAll]
  | cons effect effects ih =>
    rw [depositAll, mintedAll, ← append_assoc]
    exact ih.trans ((Queues.all_deposit queues effect.1 _).append_right _)

lemma Queues.Below.depositAll (hb : queues.Below next) :
    (depositAll scope instant queues next effects).Below (next + producedCount effects) := by
  intro e he
  rcases mem_append.mp (all_depositAll.mem_iff.mp he) with hold | hnew
  · have hlt := hb e hold
    omega
  · have hid := mem_map_of_mem (f := Entry.identity) hnew
    rw [map_identity_mintedAll, mem_range'_1] at hid
    omega

lemma Queues.Distinct.depositAll (hd : queues.Distinct) (hb : queues.Below next) :
    (depositAll scope instant queues next effects).Distinct := by
  unfold Queues.Distinct
  rw [(all_depositAll.map Entry.identity).nodup_iff, map_append, map_identity_mintedAll]
  refine nodup_append.mpr ⟨hd, nodup_range', ?_⟩
  intro i hold j hnew
  obtain ⟨e, he, rfl⟩ := mem_map.mp hold
  have hlt := hb e he
  rw [mem_range'_1] at hnew
  omega

lemma at_depositAll (scope : Option LifecycleScope) (instant : Instant) (queues : Queues)
    (next : Nat) (effects : List Selection) (p : NetPath) :
    ∃ new, (depositAll scope instant queues next effects).at_ p = queues.at_ p ++ new ∧
      (∀ e ∈ new, e.instant = instant ∧ e.scope = scope ∧ next ≤ e.identity) ∧
      new.map Entry.token = boundAt effects p := by
  induction effects generalizing queues next with
  | nil => exact ⟨[], by simp [depositAll], by simp, rfl⟩
  | cons effect effects ih =>
    have hlength : (List.range' next effect.2.length).length = effect.2.length :=
      length_range' ..
    obtain ⟨new, hnew, hmem, htokens⟩ := ih (queues.set effect.1 (queues.at_ effect.1 ++
      minted effect.2 instant (List.range' next effect.2.length) scope)) (next + effect.2.length)
    have hlater : ∀ e ∈ new, e.instant = instant ∧ e.scope = scope ∧ next ≤ e.identity :=
      fun e he => ⟨(hmem e he).1, (hmem e he).2.1, Nat.le_of_add_right_le (hmem e he).2.2⟩
    rw [Queues.at_set] at hnew
    rw [depositAll, hnew, boundAt_cons]
    split_ifs with hp
    · refine ⟨minted effect.2 instant (List.range' next effect.2.length) scope ++ new, ?_, ?_, ?_⟩
      · rw [← hp, append_assoc]
      · rw [forall_mem_append]
        refine ⟨fun e he => ?_, hlater⟩
        have hid := mem_map_of_mem (f := Entry.identity) he
        rw [map_identity_minted hlength, mem_range'_1] at hid
        exact ⟨(mem_minted he).2.1, (mem_minted he).2.2, hid.1⟩
      · rw [map_append, map_token_minted hlength, htokens]
    · exact ⟨new, rfl, hlater, htokens⟩

lemma Queues.Below.deposited (hb : queues.Below next) (effect : Selection) :
    Queues.Below (queues.set effect.1 (queues.at_ effect.1 ++
      minted effect.2 instant (List.range' next effect.2.length) scope))
      (next + effect.2.length) := by
  have h : (Impetus.depositAll scope instant queues next [effect]).Below
      (next + producedCount [effect]) := hb.depositAll
  simpa [Impetus.depositAll] using h

end DepositAll

/-! ## Scope cleanup -/

def withoutScope (queues : Queues) (scope : LifecycleScope) : Queues :=
  queues.mapValues fun _ queue => queue.filter fun e => e.scope ≠ some scope

def scopeIdentities (scope : LifecycleScope) (entries : List Entry) : List Nat :=
  (entries.filter fun e => e.scope = some scope).map Entry.identity

section Cleanup

variable {queues : Queues} {scope : LifecycleScope} {queue : TokenQueue}

lemma discard_scope (hq : (queue.map Entry.identity).Nodup) :
    TokenQueue.discard queue (scopeIdentities scope queue) =
      .ok (queue.filter fun e => e.scope ≠ some scope) := by
  have htake := takeEach_selected hq fun e => decide (e.scope = some scope)
  unfold TokenQueue.discard scopeIdentities
  rw [htake]
  simp

lemma filter_other_scope (h : scopeIdentities scope queue = []) :
    (queue.filter fun e => e.scope ≠ some scope) = queue := by
  rw [filter_eq_self]
  intro e he
  rw [scopeIdentities, map_eq_nil_iff, filter_eq_nil_iff] at h
  simpa using h e he

lemma cleanup_place (scope : LifecycleScope) {todo : List Entry}
    (h : ((queue ++ todo).map Entry.identity).Nodup) :
    (queue.filter fun e => e.identity ∈ scopeIdentities scope (queue ++ todo) ∧
      e.scope = some scope).map Entry.identity = scopeIdentities scope queue ∧
    ((scopeIdentities scope (queue ++ todo)).filter fun i => i ∉ scopeIdentities scope queue) =
      scopeIdentities scope todo := by
  have hsplit : scopeIdentities scope (queue ++ todo) =
      scopeIdentities scope queue ++ scopeIdentities scope todo := by
    simp [scopeIdentities]
  rw [hsplit]
  constructor
  · unfold scopeIdentities
    congr 1
    apply filter_congr
    intro e he
    by_cases hscope : e.scope = some scope
    · have hmem : e.identity ∈ (queue.filter fun e => e.scope = some scope).map Entry.identity :=
        mem_map_of_mem (mem_filter.mpr ⟨he, by simpa using hscope⟩)
      simp only [mem_append, hmem, true_or, true_and]
    · simp [hscope]
  · rw [filter_append]
    have hgone : ((scopeIdentities scope queue).filter fun i => i ∉ scopeIdentities scope queue) =
        [] := by
      simp
    rw [hgone, nil_append, filter_eq_self]
    intro i hi
    rw [map_append, nodup_append] at h
    obtain ⟨e, he, rfl⟩ := mem_map.mp hi
    have hnot : e.identity ∉ scopeIdentities scope queue := by
      intro hqueue
      obtain ⟨e', he', heq⟩ := mem_map.mp hqueue
      exact h.2.2 _ (mem_map_of_mem (mem_filter.mp he').1) _
        (mem_map_of_mem (mem_filter.mp he).1) heq
    simpa using hnot

/-- The entries of a dictionary of queues, in the order `all` lists them. -/
def entriesOf (places : List (NetPath × TokenQueue)) : List Entry :=
  (places.map Prod.snd).flatten

def cleaned (scope : LifecycleScope) (e : NetPath × TokenQueue) : NetPath × TokenQueue :=
  (e.1, e.2.filter fun entry => entry.scope ≠ some scope)

-- The fold has cleaned `done`, has not touched `todo`, and still has the scope's entries of `todo`
-- to find.
lemma foldlM_cleanupStep {done todo : List (NetPath × TokenQueue)} {queues : Queues}
    (hentries : queues.entries = done.map (cleaned scope) ++ todo)
    (hn : ((entriesOf todo).map Entry.identity).Nodup) :
    ∃ result : Queues, todo.foldlM (cleanupStep scope)
        (queues, scopeIdentities scope (entriesOf todo)) = .ok (result, []) ∧
      result.entries = (done ++ todo).map (cleaned scope) := by
  induction todo generalizing done queues with
  | nil => exact ⟨queues, rfl, by simpa using hentries⟩
  | cons e todo ih =>
    have hcons : entriesOf (e :: todo) = e.2 ++ entriesOf todo := by simp [entriesOf]
    rw [hcons] at hn ⊢
    obtain ⟨hpresent, hremaining⟩ := cleanup_place scope hn
    have htodo : ((entriesOf todo).map Entry.identity).Nodup := by
      rw [map_append] at hn
      exact (nodup_append.mp hn).2.1
    have hqueue : (e.2.map Entry.identity).Nodup := by
      rw [map_append] at hn
      exact (nodup_append.mp hn).1
    have hshift : (done ++ [e]) ++ todo = done ++ e :: todo := by simp
    by_cases hnone : scopeIdentities scope e.2 = []
    · have hstep : cleanupStep scope (queues, scopeIdentities scope (e.2 ++ entriesOf todo)) e =
          .ok (queues, scopeIdentities scope (entriesOf todo)) := by
        rw [hnone] at hremaining
        simp only [cleanupStep, hpresent, hnone, if_true, ← hremaining]
        simp
      have hsame : cleaned scope e = e := by
        unfold cleaned
        rw [filter_other_scope hnone]
      rw [foldlM_cons_ok hstep, ← hshift]
      apply ih _ htodo
      rw [hentries, map_append, map_singleton, hsame, append_assoc]
      rfl
    · have hstep : cleanupStep scope (queues, scopeIdentities scope (e.2 ++ entriesOf todo)) e =
          .ok (queues.set e.1 (cleaned scope e).2, scopeIdentities scope (entriesOf todo)) := by
        simp only [cleanupStep, hpresent, hnone, if_false, hremaining,
          discard_scope hqueue, ok_bind]
        rfl
      rw [foldlM_cons_ok hstep, ← hshift]
      apply ih _ htodo
      have habsent : e.1 ∉ (done.map (cleaned scope)).map Prod.fst := by
        have hkeys := queues.nodup
        rw [hentries, map_append, map_cons] at hkeys
        intro hmem
        exact (nodup_append.mp hkeys).2.2 _ hmem _ (by simp) rfl
      change Dict.put e.1 _ queues.entries = _
      rw [hentries, put_mid _ _ habsent, map_append, map_singleton, append_assoc]
      rfl

lemma all_withoutScope : (withoutScope queues scope).all =
    queues.all.filter fun e => e.scope ≠ some scope := by
  unfold Queues.all withoutScope Dict.values Dict.mapValues
  rw [map_map, filter_flatten, map_map]
  rfl

lemma mem_withoutScope {e : Entry} :
    e ∈ (withoutScope queues scope).all ↔ e ∈ queues.all ∧ e.scope ≠ some scope := by
  rw [all_withoutScope, mem_filter, decide_eq_true_eq]

lemma applyScopeCleanup_exact (hd : queues.Distinct) :
    applyScopeCleanup queues scope (scopeIdentities scope queues.all) =
      .ok (withoutScope queues scope) := by
  have hentries : queues.entries = [].map (cleaned scope) ++ queues.entries := rfl
  obtain ⟨result, hfold, hresult⟩ := foldlM_cleanupStep hentries hd
  have heq : result = withoutScope queues scope := ext_entries hresult
  have hclean : ∀ e ∈ (withoutScope queues scope).all, e.scope ≠ some scope :=
    fun e he => (mem_withoutScope.mp he).2
  have hfold' : queues.entries.foldlM (cleanupStep scope)
      (queues, scopeIdentities scope queues.all) = .ok (withoutScope queues scope, []) := by
    rw [← heq]
    exact hfold
  simp only [applyScopeCleanup, hfold', ok_bind, require_true]
  rw [require_true hclean]
  rfl

lemma at_withoutScope (p : NetPath) : (withoutScope queues scope).at_ p =
    (queues.at_ p).filter fun e => e.scope ≠ some scope := by
  unfold Queues.at_ withoutScope
  rw [get?_mapValues]
  cases queues.get? p <;> simp

end Cleanup

end Petrus.Impetus
