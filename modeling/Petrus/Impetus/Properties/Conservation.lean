import Petrus.Impetus.Doors.Passthrough

/-!
# Tokens are not multiplied

What stands in the queues and what the firings in flight hold. A scheduled begin moves tokens
from the one to the other; where no transition has a handler or more than one output arc, a
completion puts back at most what its firing took.
-/

namespace Petrus.Impetus

open Lib Motus List Dict

variable {D : Definition} {s t : Instance}

def Instance.weight (s : Instance) : Nat :=
  s.queues.all.length + (s.inFlight.values.map fun o => o.binding.tokens.length).sum

/-- A begin that brings no tokens in, a completion that puts back no more than was taken, or a
commit that moves none. -/
def Commit.Spares : (s : Instance) → Commit D s → Prop
  | _, .begun c => c.identity = none
  | _, .completed c => producedCount c.effects ≤ c.occurrence.binding.tokens.length
  | _, .closed _ => False
  | _, _ => True

/-! ## One commit -/

lemma consumedEntries_count {queues rest : Queues} {selections : List Selection}
    {takens : List (List Entry)} (hd : queues.Distinct)
    (h : consumedEntries queues selections = .ok (takens, rest)) :
    queues.all.length = (selections.flatMap Prod.snd).length + rest.all.length := by
  induction selections generalizing queues takens with
  | nil =>
    obtain ⟨rfl, rfl⟩ := consumedEntries_nil.mp h
    simp
  | cons selection selections ih =>
    obtain ⟨taken, mid, others, htake, hothers, rfl⟩ := consumedEntries_cons.mp h
    obtain ⟨queue, hqueue, rfl⟩ := (takeEntries_eq_ok hd).mp htake
    have hlength : taken.length = selection.2.length := by
      rw [takeEach_length hqueue, length_map]
    have hall := (Queues.all_take hqueue).length_eq
    have hrest := ih (hd.take hqueue) hothers
    rw [length_append] at hall
    rw [flatMap_cons, length_append]
    omega

lemma Begun.weight (hl : Live D s) (c : Begun D s) (h : c.identity = none) :
    c.after.weight = s.weight := by
  have hdelivered : c.binding.delivered = [] := by
    have hinitiated := c.initiated
    rw [h] at hinitiated
    exact hinitiated.2
  have hcount := consumedEntries_count hl.queue.distinct c.consumed_ok
  have hflight : c.after.inFlight.values = s.inFlight.values ++ [c.occurrence] :=
    values_set_of_absent hl.flight.absent_next _
  have htokens : c.occurrence.binding.tokens = c.binding.consumed.flatMap Prod.snd := by
    change c.binding.consumed.flatMap Prod.snd ++ c.binding.delivered = _
    rw [hdelivered, append_nil]
  unfold Instance.weight
  rw [hflight, map_append, sum_append, map_singleton, sum_singleton, htokens, hcount]
  change c.rest.all.length + _ = _
  omega

lemma Completed.weight_le (c : Completed D s)
    (h : producedCount c.effects ≤ c.occurrence.binding.tokens.length) :
    c.after.weight ≤ s.weight := by
  have hperm : c.after.queues.all.Perm (s.queues.all ++
      mintedAll c.occurrence.scope c.instant s.nextEntry c.effects) := all_depositAll
  have hminted : (mintedAll c.occurrence.scope c.instant s.nextEntry c.effects).length =
      producedCount c.effects := by
    rw [← length_map Entry.identity, map_identity_mintedAll, length_range']
  have hall := hperm.length_eq
  rw [length_append, hminted] at hall
  have hflight := sum_values_erase c.inFlight fun o => o.binding.tokens.length
  unfold Instance.weight
  rw [hall, hflight]
  change _ + ((s.inFlight.erase c.occurrence.id).values.map _).sum ≤ _
  omega

lemma Commit.weight_le (hl : Live D s) (c : Commit D s) (h : c.Spares) :
    c.after.weight ≤ s.weight := by
  cases c with
  | begun c => exact (c.weight hl h).le
  | completed c => exact c.weight_le h
  | failed c =>
    have hflight := sum_values_erase c.inFlight fun o => o.binding.tokens.length
    unfold Instance.weight
    rw [hflight]
    change s.queues.all.length + ((s.inFlight.erase c.occurrence.id).values.map _).sum ≤ _
    omega
  | closed c => exact h.elim
  | _ => exact le_rfl

abbrev SparingChain (D : Definition) := Chain D fun u c => c.Spares u

lemma SparingChain.weight_le (h : SparingChain D s t) (hs : Reached D s) :
    t.weight ≤ s.weight := by
  induction h with
  | refl => exact le_rfl
  | commit h c hspares _ ih => exact (c.weight_le (Chain.reached h hs).live hspares).trans ih

/-! ## Without handlers, with one output arc -/

structure Slender (D : Definition) : Prop where
  plain : ∀ t, D.declaresHandler t = false
  single : ∀ t, (D.net.outputs t).length ≤ 1

lemma route_count (tokens : List Token) {outputs : List Arc} (h : outputs.length ≤ 1) :
    producedCount (route tokens outputs).entries ≤ tokens.length := by
  match outputs, h with
  | [], _ => exact Nat.zero_le _
  | [arc], _ =>
    unfold route
    rw [foldl_cons, foldl_nil]
    dsimp only
    split_ifs
    · exact Nat.zero_le _
    · rw [entries_set_of_absent (get?_empty _), get?_empty]
      simpa [Dict.empty] using length_filter_le _ tokens

lemma Binding.equals_count {a b : Binding} (h : a.equals b = true) :
    a.tokens.length = b.tokens.length := by
  simp only [Binding.equals, decide_eq_true_eq] at h
  obtain ⟨-, hconsumed, -, hdelivered⟩ := h
  have hcount : ∀ selections : List Selection,
      ((selectionValues selections).flatMap Prod.snd).length =
      (selections.flatMap Prod.snd).length := by
    intro selections
    simp [selectionValues, tokenValues, length_flatMap, Function.comp_def]
  have hsame := congrArg List.length hdelivered
  rw [tokenValues, tokenValues, length_map, length_map] at hsame
  rw [Binding.tokens, Binding.tokens, length_append, length_append, ← hcount, hconsumed,
    hcount, hsame]

lemma Slender.unbound (h : Slender D) (hs : Reached D s) {id : Nat} {o : FiringOccurrence}
    (ho : s.inFlight.get? id = some o) : o.invocation = none := by
  have hbound := hs.bound id o ho
  rw [Definition.activityBound, Definition.boundHandler, h.plain] at hbound
  exact Option.not_isSome_iff_eq_none.mp (Bool.eq_false_iff.mp hbound)

lemma Slender.boundHandler (h : Slender D) (t : NetPath) :
    D.boundHandler t = passthroughHandler := by
  unfold Definition.boundHandler
  rw [h.plain]
  rfl

lemma Slender.completes (h : Slender D) (hs : Reached D s) {o : FiringOccurrence}
    {result : Option HandlerResult} {k : Completed D s} (hk : CompletesWith o result k)
    (hresult : ∀ envelope, result = some envelope →
      envelope.tokens = (passthrough o.binding (D.net.outputs o.binding.transition)).entries.map
        fun e => (.path e.1, e.2)) :
    producedCount k.effects ≤ k.occurrence.binding.tokens.length := by
  have hsame := sameFiring hk.equals
  have hpure : o.invocation = none := by
    by_contra himpure
    exact hsame.impure.mpr himpure (h.unbound hs k.inFlight)
  obtain ⟨envelope, hprojected, heffects, -, -⟩ := hk.projected
  rw [hresult envelope (projection_pure hprojected hpure), completeFiring_passthrough] at heffects
  have hequal : k.occurrence.binding.equals o.binding = true := by
    have hequals := hk.equals
    simp only [FiringOccurrence.equals, decide_eq_true_eq] at hequals
    exact hequals.2.1
  rw [← Except.ok.inj heffects, Binding.equals_count hequal]
  exact route_count _ (h.single _)

lemma Slender.fails (h : Slender D) (hs : Reached D s) {id : Nat} {c : Commit D s}
    (hc : FailsWith id s c) : c.Spares := by
  cases c with
  | completed k => exact absurd (h.unbound hs k.inFlight) hc.2
  | begun k => exact hc.elim
  | closed k => exact hc.elim
  | _ => trivial

/-! ## Doors -/

variable (store : Store) (o : FiringOccurrence) (atInstant : Option Instant)

lemma begin_sparing (hs : Reached D s) (binding : Binding) :
    SparingChain D s (begin_ D store binding atInstant s).2 := by
  refine (begin_atMostOne hs.live store binding atInstant).chain ?_
  rintro c _ ⟨k, rfl, -, hidentity, -⟩
  exact hidentity

lemma Slender.commitCompletion_sparing (h : Slender D) (hs : Reached D s)
    {result : Option HandlerResult} (hresult : ∀ envelope, result = some envelope →
      envelope.tokens = (passthrough o.binding (D.net.outputs o.binding.transition)).entries.map
        fun e => (.path e.1, e.2)) :
    SparingChain D s (commitCompletion D store o result atInstant s).2 := by
  refine (commit_atMostOne store (completion_settles hs.live o result atInstant)).chain ?_
  rintro c _ ⟨k, rfl, hk⟩
  exact h.completes hs hk hresult

lemma Slender.complete_sparing (h : Slender D) (hs : Reached D s) :
    SparingChain D s (complete D store o none atInstant s).2 := by
  refine (complete_atMostOne hs.live store o none atInstant).chain ?_
  rintro c _ ⟨k, rfl, hk⟩
  exact h.completes hs hk nofun

lemma Slender.fail_sparing (h : Slender D) (hs : Reached D s) (report : FailureReport) :
    SparingChain D s (fail D store o report atInstant s).2 :=
  ((fail_chain hs.live store o report atInstant).mono hs fun _ _ hu hc => h.fails hu hc).1

lemma recordActivityCompletion_sparing (result : Payload) :
    SparingChain D s (recordActivityCompletion store o result atInstant s).2 := by
  refine (recordActivityCompletion_atMostOne store o result atInstant).chain ?_
  rintro c _ ⟨json, -, ⟨k, rfl, -⟩ | ⟨k, rfl, -⟩⟩ <;> trivial

lemma recordActivityFailure_sparing (failure : ActivityFailure) :
    SparingChain D s (recordActivityFailure store o failure atInstant s).2 := by
  refine (recordActivityFailure_atMostOne store o failure atInstant).chain ?_
  rintro c _ (⟨k, rfl, -⟩ | ⟨k, rfl, -⟩) <;> trivial

lemma wake_sparing (instant : Instant) : SparingChain D s (wake D store instant s).2 := by
  refine (wake_atMostOne store instant).chain ?_
  rintro c _ ⟨k, rfl⟩
  trivial

end Petrus.Impetus
