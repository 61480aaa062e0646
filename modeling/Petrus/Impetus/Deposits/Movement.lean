import Petrus.Lib.Act
import Petrus.Impetus.Run

/-!
# What the queues may hold

A property of a token at a place that every deposited token has is had by every
queued token. An action keeps the property when it moves no token or deposits only
tokens that have it, whatever state it finds, live or not.
-/

namespace Petrus.Impetus

open Lib Motus List
open Act (Moves)

variable {P : NetPath → Token → Prop} {D : Definition} {s : Instance}

/-- Every token the record deposits has `P` at its place. -/
def Record.Deposits (P : NetPath → Token → Prop) : Record → Prop
  | .tokensInitialized r => ∀ token ∈ r.tokens, P r.place token
  | .tokensProduced r => ∀ token ∈ r.tokens, P r.place token
  | _ => True

def Queues.Hold (P : NetPath → Token → Prop) (queues : Queues) : Prop :=
  ∀ p, ∀ e ∈ queues.at_ p, P p e.token

namespace Queues.Hold

variable {queues after : Queues} {place : NetPath} {queue : TokenQueue}

lemma empty : Hold P Dict.empty := by
  intro p e he
  cases he

lemma set (h : Hold P queues) (hq : ∀ e ∈ queue, P place e.token) :
    Hold P (queues.set place queue) := by
  intro p e he
  rw [Queues.at_, Dict.get?_set] at he
  split_ifs at he with hp
  · rw [← hp]
    exact hq e he
  · exact h p e he

lemma sublist (h : Hold P queues) (hsub : queue.Sublist (queues.at_ place)) :
    Hold P (queues.set place queue) :=
  h.set fun e he => h place e (hsub.subset he)

lemma deposit (h : Hold P queues) {tokens : List Token} {entries inferred : List Nat}
    {scope : Option LifecycleScope} {instant : Instant}
    (htokens : ∀ token ∈ tokens, P place token)
    (hok : Impetus.deposit queues place tokens entries scope instant inferred = .ok after) :
    Hold P after := by
  obtain ⟨_, -, hrest⟩ := bind_eq_ok.mp hok
  obtain ⟨_, -, heq⟩ := bind_eq_ok.mp hrest
  cases heq
  refine h.set fun e he => ?_
  rcases mem_append.mp he with hold | hnew
  · exact h place e hold
  · exact htokens _ (mem_minted hnew).1

lemma cleanup (h : Hold P queues) {closed : LifecycleScope} {discarded : List Nat}
    (hok : applyScopeCleanup queues closed discarded = .ok after) : Hold P after := by
  obtain ⟨p, hfold, hrest⟩ := bind_eq_ok.mp hok
  obtain ⟨_, -, hrest⟩ := bind_eq_ok.mp hrest
  obtain ⟨_, -, heq⟩ := bind_eq_ok.mp hrest
  cases heq
  -- each step writes back part of a queue the cleanup found
  refine foldlM_invariant (P := fun state : Queues × List Nat => Hold P state.1) ?_ h hfold
  intro state e state' he hstate hstep
  unfold cleanupStep at hstep
  dsimp only at hstep
  split_ifs at hstep with hnone
  · cases hstep
    exact hstate
  · obtain ⟨queue, hqueue, heq⟩ := bind_eq_ok.mp hstep
    cases heq
    refine hstate.set fun entry hentry => ?_
    unfold TokenQueue.discard at hqueue
    split at hqueue
    · rename_i taken htake
      cases hqueue
      refine h e.1 entry ?_
      rw [Queues.at_, (Dict.get?_eq_some).mpr he]
      exact (takeEach_sublist htake).subset hentry
    · cases hqueue

lemma applyMovement (h : Hold P queues) {record : Record} {inferred : List Nat}
    (hr : record.Deposits P) (hok : Impetus.applyMovement queues record inferred = .ok after) :
    Hold P after := by
  cases record with
  | tokensInitialized | tokensProduced => exact h.deposit hr hok
  | tokensConsumed r =>
    obtain ⟨queue, hqueue, heq⟩ := bind_eq_ok.mp hok
    cases heq
    rw [readdress_eq_ok] at hqueue
    obtain ⟨_, -, hrest⟩ := bind_eq_ok.mp hqueue
    obtain ⟨taken, htaken, rfl⟩ := map_eq_ok.mp hrest
    rw [orNotPresent_eq_ok] at htaken
    refine h.sublist ?_
    split_ifs at htaken
    · exact takeEach_sublist htaken
    · exact takeEach_sublist htaken
  | scopeClosed r => exact h.cleanup hok
  | scopeReset r => exact h.cleanup hok
  | _ =>
    cases hok
    exact h

lemma step {fold fold' : QueueFold} {record : Record} (h : Hold P fold.queues)
    (hr : record.Deposits P) (hok : fold.step record = .ok fold') : Hold P fold'.queues := by
  unfold QueueFold.step at hok
  split at hok
  · obtain ⟨queues, hqueues, heq⟩ := bind_eq_ok.mp hok
    cases heq
    exact h.applyMovement hr hqueues
  · obtain ⟨_, -, hrest⟩ := bind_eq_ok.mp hok
    obtain ⟨queues, hqueues, heq⟩ := bind_eq_ok.mp hrest
    cases heq
    exact h.applyMovement hr hqueues

lemma replayed {records : List Record} (hr : ∀ r ∈ records, r.Deposits P)
    (hok : replayQueues records = .ok after) : Hold P after := by
  obtain ⟨fold, hfold, rfl⟩ := map_eq_ok.mp hok
  exact foldlM_invariant (P := fun state : QueueFold => Hold P state.queues)
    (fun state r _ hmem hstate hstep => step hstate (hr r hmem) hstep) empty hfold

end Queues.Hold

/-! ## Actions -/

/-- Every queued and every recorded token has `P` at its place. -/
structure Instance.Admitted (P : NetPath → Token → Prop) (s : Instance) : Prop where
  queued : s.queues.Hold P
  recorded : ∀ r ∈ s.records, r.Deposits P

def Admitting (P : NetPath → Token → Prop) (s t : Instance) : Prop := s.Admitted P → t.Admitted P

instance : Std.Refl (Admitting P) := ⟨fun _ h => h⟩

instance : IsTrans Instance (Admitting P) := ⟨fun _ _ _ h h' hs => h' (h hs)⟩

lemma modify_admitting {ε : Type} {f : Instance → Instance}
    (h : ∀ s, (f s).queues = s.queues ∧ (f s).history = s.history) :
    Moves (Admitting P) (Act.modify f : Act Instance ε Unit) := by
  intro s hs
  obtain ⟨hqueues, hhistory⟩ := h s
  refine ⟨?_, ?_⟩
  · change (f s).queues.Hold P
    rw [hqueues]
    exact hs.queued
  · change ∀ r ∈ (f s).history.flatten, r.Deposits P
    rw [hhistory]
    exact hs.recorded

lemma advance_admitting (instant : Instant) : Moves (Admitting P) (advance instant) :=
  modify_admitting fun _ => ⟨rfl, rfl⟩

lemma applyMovements_admitting {movements : List (Record × List Nat)}
    (h : ∀ m ∈ movements, m.1.Deposits P) :
    Moves (Admitting P) (applyMovements movements) := by
  induction movements with
  | nil => exact fun s hs => hs
  | cons m movements ih =>
    rw [forall_mem_cons] at h
    intro s hs
    unfold applyMovements Act.each
    cases hstep : applyMovement s.queues m.1 m.2 with
    | error e => exact hs
    | ok queues =>
      exact ih h.2 _ ⟨hs.queued.applyMovement h.1 hstep, hs.recorded⟩

lemma append_admitting (store : Store) {batch : List Record} (h : ∀ r ∈ batch, r.Deposits P) :
    Moves (Admitting P) (append store batch) := by
  intro s hs
  unfold append
  cases store s.history batch with
  | some e => exact hs
  | none =>
    refine ⟨hs.queued, fun r hr => ?_⟩
    simp only [Instance.records, flatten_append, flatten_singleton, mem_append] at hr
    rcases hr with hold | hnew
    · exact hs.recorded r hold
    · exact h r hnew

lemma commit_admitting {α β : Type} (store : Store) {plan : Instance → Except Exc (Plan α β)}
    {settle : α → Door β}
    (h : ∀ s records a, plan s = .ok (.batch records a) →
      (∀ r ∈ records, r.Deposits P) ∧ Moves (Admitting P) (settle a)) :
    Moves (Admitting P) (commit store plan settle) := by
  intro s
  cases hplan : plan s with
  | error e =>
    rw [commit_raised hplan]
    exact fun hs => hs
  | ok p =>
    cases p with
    | answer b =>
      rw [commit_answer hplan]
      exact fun hs => hs
    | batch records a =>
      obtain ⟨hrecords, hsettle⟩ := h s records a hplan
      have hrun : commit store plan settle s =
          (append store records >>= fun _ => Act.mapError Failure.raised (settle a)) s := by
        unfold commit
        rw [Act.get_bind_apply, hplan]
        rfl
      rw [hrun]
      exact Moves.bind (append_admitting store hrecords) (fun _ => hsettle.mapError _) s

lemma door_admitting {α : Type} {m : Act Instance Failure α} (h : Moves (Admitting P) m) :
    Moves (Admitting P) (door m) := h.mapError _

lemma popInFlight_admitting (id : Nat) : Moves (Admitting P) (popInFlight id) := by
  refine Moves.bind Moves.get fun s => ?_
  split
  · exact Moves.throw _
  · exact Moves.bind (modify_admitting fun _ => ⟨rfl, rfl⟩) fun _ => Moves.pure _

lemma settleOutcome_admitting (id : Nat) : Moves (Admitting P) (settleOutcome id) := by
  refine Moves.bind Moves.get fun s => ?_
  split
  · exact Moves.throw _
  · exact modify_admitting fun _ => ⟨rfl, rfl⟩

lemma writerRecords_deposits {records batch : List Record} (h : writerRecords records = .ok batch)
    (hr : ∀ r ∈ records, r.Deposits P) : ∀ r ∈ batch, r.Deposits P := by
  rw [(writerRecords_eq_ok.mp h).1]
  exact hr

end Petrus.Impetus
