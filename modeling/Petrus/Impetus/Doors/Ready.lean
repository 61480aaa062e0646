import Petrus.Impetus.Doors.Begin

/-!
# When a firing can begin

The marking is a view of the queues, so the check against it refuses nothing that the
queues grant, and the records of a begin the queues grant are always in form. A begin
then goes through as soon as the binding fits its transition, its handler prepares,
and the tokens are there under one scope.
-/

namespace Petrus.Impetus

open Lib Motus List Dict

variable {D : Definition} {s : Instance} {m : Marking} {queues rest : Queues} {p : NetPath}
  {selections : List Selection} {takens : List (List Entry)} {binding : Binding}
  {entries : BindingEntries}
variable {queue : TokenQueue} {taken : List Entry} {selection : Selection}

/-! ## What the queues grant -/

lemma consumedEntries_at (hd : queues.Distinct)
    (h : consumedEntries queues selections = .ok (takens, rest)) (p : NetPath) :
    ∃ taken, TokenQueue.take (queues.at_ p) (boundAt selections p) = some (taken, rest.at_ p) := by
  induction selections generalizing queues takens with
  | nil =>
    obtain ⟨-, rfl⟩ := consumedEntries_nil.mp h
    exact ⟨[], rfl⟩
  | cons selection selections ih =>
    obtain ⟨taken, mid, others, htake, hothers, rfl⟩ := consumedEntries_cons.mp h
    obtain ⟨queue, hqueue, rfl⟩ := (takeEntries_eq_ok hd).mp htake
    obtain ⟨other, hother⟩ := ih (hd.take hqueue) hothers
    rw [Queues.at_set] at hother
    rw [boundAt_cons]
    split_ifs at hother ⊢ with hp
    · subst hp
      refine ⟨taken ++ other, ?_⟩
      rw [TokenQueue.take, map_append]
      exact takeEach_append hqueue hother
    · exact ⟨other, hother⟩

lemma consumedEntries_exists (hd : queues.Distinct)
    (h : ∀ p, (TokenQueue.take (queues.at_ p) (boundAt selections p)).isSome = true) :
    ∃ takens rest, consumedEntries queues selections = .ok (takens, rest) := by
  induction selections generalizing queues with
  | nil => exact ⟨[], queues, rfl⟩
  | cons selection selections ih =>
    have hsplit (p : NetPath) : ∃ taken other queue rest,
        TokenQueue.take (queues.at_ p) (if selection.1 = p then selection.2 else []) =
          some (taken, queue) ∧
        TokenQueue.take queue (boundAt selections p) = some (other, rest) := by
      have hp := h p
      rw [boundAt_cons] at hp
      split_ifs at hp ⊢
      · rw [TokenQueue.take, map_append] at hp
        exact takeEach_split hp
      · obtain ⟨⟨other, rest⟩, hother⟩ := Option.isSome_iff_exists.mp hp
        exact ⟨[], other, _, rest, rfl, hother⟩
    obtain ⟨taken, -, queue, -, hqueue, -⟩ := hsplit selection.1
    rw [if_pos rfl] at hqueue
    have hrest : ∀ p, (TokenQueue.take (Queues.at_ (queues.set selection.1 queue) p)
        (boundAt selections p)).isSome = true := by
      intro p
      obtain ⟨taken', other, queue', rest, hqueue', hother⟩ := hsplit p
      rw [Queues.at_set]
      split_ifs at hqueue' ⊢ with hp
      · subst hp
        cases hqueue.symm.trans hqueue'
        rw [hother]
        rfl
      · cases hqueue'
        rw [hother]
        rfl
    obtain ⟨others, last, hothers⟩ := ih (hd.take hqueue) hrest
    exact ⟨taken :: others, last, consumedEntries_cons.mpr
      ⟨taken, _, others, (takeEntries_eq_ok hd).mpr ⟨queue, hqueue, rfl⟩, hothers, rfl⟩⟩

/-! ## The marking is a view -/

def Views (m : Marking) (queues : Queues) : Prop :=
  ∀ p, m.place p = TokenQueue.tokens (queues.at_ p)

lemma Queues.views (queues : Queues) : Views queues.marking queues := by
  intro p
  rw [Queues.marking, Marking.get?_ofDict, get?_mapValues, Queues.at_]
  cases queues.get? p <;> rfl

lemma withdraw_tokens {remaining : TokenQueue} {tokens : List Token}
    (h : queue.take tokens = some (taken, remaining)) :
    Marking.withdraw queue.tokens tokens = some remaining.tokens := by
  unfold Marking.withdraw TokenQueue.tokens
  rw [takeEach_map, show takeEach (Token.value ∘ Entry.token) (tokens.map Token.value) queue =
    some (taken, remaining) from h]
  rfl

lemma Views.consume (h : Views m queues)
    (htake : TokenQueue.take (queues.at_ selection.1) selection.2 = some (taken, queue)) :
    ∃ m', m.consume selection.1 selection.2 = .ok m' ∧
      Views m' (queues.set selection.1 queue) := by
  have hremaining : Marking.withdraw (m.place selection.1) selection.2 = some queue.tokens := by
    rw [h]
    exact withdraw_tokens htake
  refine ⟨_, by rw [Marking.consume, hremaining], fun p => ?_⟩
  rw [Marking.get?_ofDict, Queues.at_set]
  by_cases hp : selection.1 = p
  · subst hp
    rw [if_pos rfl]
    split_ifs with hnil
    · rw [get?_erase_self, hnil]
      rfl
    · rw [get?_set_self]
      rfl
  · rw [if_neg hp, ← h p]
    split_ifs
    · rw [get?_erase_ne _ hp]
      rfl
    · rw [get?_set_ne _ _ hp]
      rfl

lemma Views.consumes (hd : queues.Distinct) (h : Views m queues)
    (hconsumed : consumedEntries queues selections = .ok (takens, rest)) :
    ∃ m', selections.foldlM (fun m selection => m.consume selection.1 selection.2) m = .ok m' ∧
      Views m' rest := by
  induction selections generalizing queues takens m with
  | nil =>
    obtain ⟨-, rfl⟩ := consumedEntries_nil.mp hconsumed
    exact ⟨m, rfl, h⟩
  | cons selection selections ih =>
    obtain ⟨taken, mid, others, htake, hothers, rfl⟩ := consumedEntries_cons.mp hconsumed
    obtain ⟨queue, hqueue, rfl⟩ := (takeEntries_eq_ok hd).mp htake
    obtain ⟨next, hnext, hview⟩ := h.consume hqueue
    obtain ⟨last, hlast, hviews⟩ := ih (hd.take hqueue) hview hothers
    exact ⟨last, foldlM_cons_eq_ok.mpr ⟨next, hnext, hlast⟩, hviews⟩

lemma Views.beginFiring (hd : queues.Distinct) (h : Views m queues)
    (hentries : bindingEntries queues binding = .ok entries) :
    ∃ m', beginFiring m binding = .ok m' := by
  obtain ⟨rest, hconsumed, hread⟩ := bindingEntries_eq_ok.mp hentries
  obtain ⟨m', hm', hview⟩ := h.consumes hd hconsumed
  refine ⟨m', ?_⟩
  unfold Impetus.beginFiring
  rw [hm', ok_bind, then_eq_ok]
  refine ⟨forM_eq_ok.mpr fun selection hselection => ?_, rfl⟩
  obtain ⟨taken, -, hselected⟩ := forall₂_exists (mapM_eq_ok.mp hread) hselection
  obtain ⟨remaining, htake⟩ := TokenQueue.selected_eq_ok.mp hselected
  rw [hview, withdraw_tokens htake]

/-! ## The records are in form -/

/-- Entries that answer a selection: one for each token, each under its own identity. -/
structure Answers (queues : Queues) (selection : Selection) (taken : List Entry) : Prop where
  length : taken.length = selection.2.length
  nodup : (taken.map Entry.identity).Nodup
  mem : ∀ e ∈ taken, e ∈ queues.all

lemma Answers.take (hd : queues.Distinct)
    (h : TokenQueue.take (queues.at_ selection.1) selection.2 = some (taken, queue)) :
    Answers queues selection taken where
  length := by rw [takeEach_length h, length_map]
  nodup := by
    have hperm := (takeEach_perm h).map Entry.identity
    rw [map_append] at hperm
    exact (nodup_append.mp (hperm.nodup_iff.mp (hd.at_ selection.1))).1
  mem e he := Queues.mem_all.mpr ⟨selection.1, mem_of_mem_taken h he⟩

lemma consumedEntries_answers (hd : queues.Distinct)
    (h : consumedEntries queues selections = .ok (takens, rest)) :
    List.Forall₂ (Answers queues) selections takens := by
  induction selections generalizing queues takens with
  | nil =>
    obtain ⟨rfl, -⟩ := consumedEntries_nil.mp h
    exact .nil
  | cons selection selections ih =>
    obtain ⟨taken, mid, others, htake, hothers, rfl⟩ := consumedEntries_cons.mp h
    obtain ⟨queue, hqueue, rfl⟩ := (takeEntries_eq_ok hd).mp htake
    have hall := Queues.all_take hqueue
    refine .cons (Answers.take hd hqueue) ((ih (hd.take hqueue) hothers).imp ?_)
    exact fun _ _ hanswers => ⟨hanswers.length, hanswers.nodup, fun e he =>
      hall.mem_iff.mpr (mem_append_right _ (hanswers.mem e he))⟩

lemma readEntries_answers (hd : queues.Distinct)
    (h : (selections.mapM fun selection =>
      TokenQueue.selected (queues.at_ selection.1) selection.2) = .ok takens) :
    List.Forall₂ (Answers queues) selections takens := by
  refine (mapM_eq_ok.mp h).imp fun selection taken hselected => ?_
  obtain ⟨remaining, htake⟩ := TokenQueue.selected_eq_ok.mp hselected
  exact Answers.take hd htake

lemma Answers.checked (h : Answers queues selection taken)
    (hpositive : ∀ e ∈ queues.all, 1 ≤ e.identity) {occurrence : Nat}
    (hoccurrence : 1 ≤ occurrence) (scope : Option LifecycleScope) (instant : Instant)
    (noun : String) :
    (narrate occurrence scope instant selection taken).check noun = .ok () := by
  have hids : ∀ i ∈ taken.map Entry.identity, 1 ≤ i := by
    intro i hi
    obtain ⟨e, he, rfl⟩ := mem_map.mp hi
    exact hpositive e (h.mem e he)
  have hlength : (taken.map Entry.identity).length = selection.2.length := by
    rw [length_map, h.length]
  refine require_bind_eq_ok.mpr ⟨hoccurrence, ?_⟩
  cases scope with
  | none => rfl
  | some scope =>
    exact require_bind_eq_ok.mpr ⟨.inr hlength, require_bind_eq_ok.mpr ⟨hids,
      require_bind_eq_ok.mpr ⟨h.nodup, require_bind_eq_ok.mpr ⟨.inr hlength,
        require_true (.inr (Option.some_ne_none scope))⟩⟩⟩⟩

lemma zipWith_checked {f : Selection → List Entry → Record}
    (h : List.Forall₂ (Answers queues) selections takens)
    (hf : ∀ selection taken, Answers queues selection taken →
      (f selection taken).check = .ok ()) :
    ∀ r ∈ List.zipWith f selections takens, r.check = .ok () := by
  induction h with
  | nil => exact fun r hr => absurd hr not_mem_nil
  | cons hfirst _ ih =>
    rw [zipWith_cons_cons, forall_mem_cons]
    exact ⟨hf _ _ hfirst, ih⟩

lemma beginRecords_checked (hl : Live D s)
    (hentries : bindingEntries s.queues binding = .ok entries)
    (invocation : Option (ActivityInvocation Json)) (scope : Option LifecycleScope)
    (instant : Instant) :
    ∀ r ∈ selectedRecord binding.transition s.nextOccurrence instant ::
      beginRecords binding entries invocation s.nextOccurrence scope instant,
        r.check = .ok () := by
  have hnext := hl.flight.next_pos
  obtain ⟨rest, hconsumed, hread⟩ := bindingEntries_eq_ok.mp hentries
  obtain ⟨hperm, hrest⟩ := consumedEntries_perm hl.queue.distinct hconsumed
  have hpositive : ∀ e ∈ rest.all, 1 ≤ e.identity := fun e he =>
    hl.queue.positive e (hperm.mem_iff.mpr (mem_append_right _ he))
  rw [forall_mem_cons]
  refine ⟨require_true hnext, ?_⟩
  unfold beginRecords
  rw [append_assoc, cons_append, forall_mem_cons, forall_mem_append, forall_mem_append]
  refine ⟨require_true hnext, ?_, ?_, ?_⟩
  · exact zipWith_checked (consumedEntries_answers hl.queue.distinct hconsumed)
      fun selection taken h => h.checked hl.queue.positive hnext scope instant _
  · exact zipWith_checked (readEntries_answers hrest hread)
      fun selection taken h => h.checked hpositive hnext scope instant _
  · intro r hr
    obtain ⟨i, -, rfl⟩ := mem_map.mp hr
    have hcorrelation : (i.correlation.getD s!"occurrence-{s.nextOccurrence}") ≠ "" := by
      cases hc : i.correlation with
      | none => simp [String.append_eq_empty_iff]
      | some c =>
        intro he
        exact i.correlation_ne (by rw [hc]; simpa using he)
    have hidempotency : (i.idempotency.getD s!"occurrence-{s.nextOccurrence}") ≠ "" := by
      cases hc : i.idempotency with
      | none => simp [String.append_eq_empty_iff]
      | some c =>
        intro he
        exact i.idempotency_ne (by rw [hc]; simpa using he)
    exact require_bind_eq_ok.mpr ⟨i.activity_ne, require_bind_eq_ok.mpr ⟨hcorrelation,
      require_bind_eq_ok.mpr ⟨hidempotency, require_true hnext⟩⟩⟩

/-! ## Beginning -/

lemma begin_succeeds (hl : Live D s) {store : Store} {atInstant : Option Instant}
    {invocation : Option (ActivityInvocation Json)} {scope : Option LifecycleScope}
    (hscheduled : validateScheduled D binding = .ok ())
    (hprepared : preparedInvocation D binding = .ok invocation)
    (hentries : bindingEntries s.queues binding = .ok entries)
    (hscope : provenance binding.transition entries.scopes none = .ok scope)
    (hstore : ∀ batch, store s.history batch = none) :
    ∃ k : Begun D s, k.binding = binding ∧ k.invocation = invocation ∧ k.scope = scope ∧
      begin_ D store binding atInstant s = (.ok k.occurrence, k.after) := by
  have hplan := beginPlan_eq_ok.mpr ⟨(Queues.views s.queues).beginFiring hl.queue.distinct hentries,
    entries, hentries, scope, hscope,
    beginRecords_checked hl hentries invocation scope (s.effective atInstant), rfl⟩
  obtain ⟨k, hbinding, hidentity, hinvocation, -, hbatch, -, hk⟩ :=
    begin_plan_commit hl hscheduled hprepared hplan
  refine ⟨k, hbinding, hinvocation, (congrArg (fun p => p.occurrence.scope) hk).symm, ?_⟩
  rw [hk, ← hbatch] at hplan
  unfold begin_
  rw [hscheduled, Act.lift_ok_bind_apply, hprepared, Act.lift_ok_bind_apply]
  exact Act.mapError_eq_ok.mpr
    (door_settled hplan (hstore _) (beginSettle_scheduled hl k hidentity))

end Petrus.Impetus
