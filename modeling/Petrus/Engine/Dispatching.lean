import Petrus.Engine.Outbox
import Petrus.Engine.Selecting

/-!
# Each occurrence is dispatched once

After its first drive a coordinator dispatches only occurrences it begins, whose ids
are minted there. Over the whole life of a loaded coordinator no id is dispatched
twice, and none that was cancelled, ended or frozen when it was loaded.
-/

namespace Petrus.Engine

open Lib Motus Impetus List Act

variable {κ : Type} {C : Composition κ} {host : Host} {s t u : Session}

/-- A move that keeps the instance reached and the durable history a part of its own. -/
structure Steady (C : Composition κ) (s t : Session) : Prop where
  reached : Reached C.definition t.instance_
  grown : s.history <+: t.history
  durable : s.durable <+: s.history → t.durable <+: t.history
  next : s.instance_.nextOccurrence ≤ t.instance_.nextOccurrence
  retired : ∀ id, s.instance_.Retired id → t.instance_.Retired id
  reconciled : s.reconciled = true → t.reconciled = true

/-- A steady move whose dispatches are of ids minted by it. -/
structure Hands (C : Composition κ) (s t : Session) : Prop extends Steady C s t where
  minted : ∃ new, t.dispatches = s.dispatches ++ new ∧ new.Nodup ∧
    ∀ id ∈ new, s.instance_.nextOccurrence ≤ id ∧ id < t.instance_.nextOccurrence

def Handing (C : Composition κ) (s t : Session) : Prop :=
  Reached C.definition s.instance_ → Hands C s t

lemma Steady.trans (h : Steady C s t) (h' : Steady C t u) : Steady C s u where
  reached := h'.reached
  grown := h.grown.trans h'.grown
  durable hle := h'.durable (h.durable hle)
  next := h.next.trans h'.next
  retired id hid := h'.retired id (h.retired id hid)
  reconciled hs := h'.reconciled (h.reconciled hs)

lemma Steady.of_eq (hs : Reached C.definition s.instance_) (hinstance : t.instance_ = s.instance_)
    (hdurable : t.durable = s.durable) (hreconciled : t.reconciled = s.reconciled) :
    Steady C s t where
  reached := by rw [hinstance]; exact hs
  grown := by rw [Session.history, Session.history, hinstance]
  durable hle := by
    rw [hdurable, Session.history, hinstance]
    exact hle
  next := by rw [hinstance]
  retired := by rw [hinstance]; exact fun _ hid => hid
  reconciled := by rw [hreconciled]; exact id

lemma CalmMove.steady (h : CalmMove C s t) : Steady C s t where
  reached := h.reached
  grown := h.grown
  durable hle := by
    rcases h.durable with hsame | ⟨-, hle', -⟩
    · rw [hsame]
      exact hle.trans h.grown
    · exact hle'
  next := h.next
  retired := h.retired
  reconciled := h.reconciled

lemma Hands.of_same (h : Steady C s t) (hdispatches : t.dispatches = s.dispatches) :
    Hands C s t :=
  ⟨h, [], by rw [hdispatches, append_nil], nodup_nil, nofun⟩

lemma Hands.trans (h : Hands C s t) (h' : Hands C t u) : Hands C s u where
  toSteady := h.toSteady.trans h'.toSteady
  minted := by
    obtain ⟨new, hnew, hnodup, hbounds⟩ := h.minted
    obtain ⟨new', hnew', hnodup', hbounds'⟩ := h'.minted
    refine ⟨new ++ new', ?_, ?_, ?_⟩
    · rw [hnew', hnew, append_assoc]
    · refine nodup_append.mpr ⟨hnodup, hnodup', ?_⟩
      intro a ha b hb heq
      have hlt := (hbounds a ha).2
      have hle := (hbounds' b hb).1
      omega
    · intro id hid
      have hnext := h.next
      have hnext' := h'.next
      rcases mem_append.mp hid with hid | hid
      · have hbound := hbounds id hid
        omega
      · have hbound := hbounds' id hid
        omega

instance : Std.Refl (Handing C) where
  refl _ hs := .of_same (.of_eq hs rfl rfl rfl) rfl

instance : IsTrans Session (Handing C) where
  trans _ _ _ h h' hs := (h hs).trans (h' (h hs).reached)

lemma Quiet.handing {ε α : Type} {m : Act Session ε α} (h : Moves (Quiet C) m) :
    Moves (Handing C) m := fun s hs => .of_same (h s hs).steady (h s hs).dispatches

lemma handing_follows : Follows C host (Handing C) :=
  quiet_follows.mono fun h hs => .of_same (h hs).steady (h hs).dispatches

lemma installSelection_handing (proposal : SelectionProposal) :
    Moves (Handing C) (installSelection proposal) := by
  unfold installSelection
  refine Moves.bind Moves.get fun s => ?_
  split_ifs
  · intro u hu
    exact .of_same (.of_eq hu rfl rfl rfl) rfl
  · exact Moves.throw _

/-! ## Beginning -/

/-- A dispatch, answered or refused, adds its call and nothing else. -/
structure Dispatched (id : Nat) (s t : Session) : Prop where
  instance_ : t.instance_ = s.instance_
  durable : t.durable = s.durable
  reconciled : t.reconciled = s.reconciled
  dispatches : t.dispatches = s.dispatches ++ [id]

lemma dispatchOccurrence_dispatched (o : FiringOccurrence)
    (invocation : ActivityInvocation Json) :
    Dispatched o.id s (dispatchOccurrence host o invocation s).2 := by
  unfold dispatchOccurrence
  rw [modify_bind_apply]
  cases host.dispatch o.id invocation <;>
    exact ⟨rfl, rfl, rfl,
      by simp [Session.dispatches, Call.dispatched?, pure_apply, throw_apply]⟩

lemma runBegun_session (hs : Reached C.definition s.instance_) (o : FiringOccurrence)
    (earned : Option SelectionProposal) :
    Hands C s (runBegun C host o earned s).2 ∨
      Dispatched o.id s (runBegun C host o earned s).2 := by
  unfold runBegun
  cases o.invocation with
  | none =>
    left
    have hmoves : Moves (Handing C) (completePure C host o >>= fun firing =>
        (pure { proposal := earned, firings := [firing] } : Driver Applied)) :=
      Moves.bind (handing_follows.completePure o) fun _ => Moves.pure _
    exact hmoves s hs
  | some invocation =>
    right
    have hdispatched : Dispatched o.id s (dispatchOccurrence host o invocation s).2 :=
      dispatchOccurrence_dispatched o invocation
    dsimp only
    rw [bind_apply]
    generalize dispatchOccurrence host o invocation s = r at hdispatched
    obtain ⟨x, v⟩ := r
    cases x <;> exact hdispatched

/-- A session right after a begin. -/
structure AfterBegin (C : Composition κ) (s : Session) (k : Begun C.definition s.instance_)
    (t : Session) : Prop where
  reached : Reached C.definition k.after
  instance_ : t.instance_ = k.after
  durable : t.durable = s.durable ∨ t.durable = k.after.history
  reconciled : t.reconciled = s.reconciled
  dispatches : t.dispatches = s.dispatches

lemma AfterBegin.steady {k : Begun C.definition s.instance_} (h : AfterBegin C s k t) :
    Steady C s t where
  reached := by rw [h.instance_]; exact h.reached
  grown := by
    rw [Session.history, Session.history, h.instance_,
      show k.after.history = (Commit.begun k).after.history from rfl, Commit.after_history]
    exact prefix_append _ _
  durable hle := by
    have hgrown : s.history <+: k.after.history := by
      rw [show k.after.history = (Commit.begun k).after.history from rfl, Commit.after_history]
      exact prefix_append _ _
    rw [Session.history, h.instance_]
    rcases h.durable with hsame | hsame
    · rw [hsame]
      exact hle.trans hgrown
    · rw [hsame]
  next := by
    rw [h.instance_]
    exact Nat.le_succ _
  retired id hid := by
    rw [h.instance_]
    exact hid.commit (.begun k)
  reconciled hs := by rw [h.reconciled]; exact hs

lemma AfterBegin.hands {k : Begun C.definition s.instance_} (h : AfterBegin C s k t)
    (earned : Option SelectionProposal) :
    Hands C s (runBegun C host k.occurrence earned t).2 := by
  have hnext : k.after.nextOccurrence = s.instance_.nextOccurrence + 1 := rfl
  have hrun : Hands C t (runBegun C host k.occurrence earned t).2 ∨
      Dispatched k.occurrence.id t (runBegun C host k.occurrence earned t).2 :=
    runBegun_session h.steady.reached k.occurrence earned
  rcases hrun with hhands | hdispatched
  · exact (Hands.of_same h.steady h.dispatches).trans hhands
  · refine ⟨h.steady.trans (.of_eq h.steady.reached hdispatched.instance_ hdispatched.durable
      hdispatched.reconciled), [s.instance_.nextOccurrence], ?_, nodup_singleton _, ?_⟩
    · rw [hdispatched.dispatches, h.dispatches]
      rfl
    · intro id hid
      obtain rfl := mem_singleton.mp hid
      rw [hdispatched.instance_, h.instance_, hnext]
      omega

lemma beginCandidate_handing (binding : Binding) (proposal : SelectionProposal) :
    Moves (Handing C) (beginCandidate C host binding proposal) := by
  intro s hs
  unfold beginCandidate
  rw [get_bind_apply]
  cases hbegin : begin_ C.definition host.store binding (now host s) s.instance_ with
  | mk x i =>
    let u : Session := { s with
      instance_ := i
      durable := if C.joined then s.durable else i.history }
    have hon : onInstance C (begin_ C.definition host.store binding (now host s)) s = (x, u) := by
      unfold onInstance
      rw [hbegin]
    have hdurable : u.durable = s.durable ∨ u.durable = i.history := by
      dsimp only [u]
      split_ifs
      · exact .inl rfl
      · exact .inr rfl
    cases x with
    | error e =>
      rw [bind_error_apply hon]
      have hstill := begin_atMostOne hs.live host.store binding (now host s)
      rw [hbegin] at hstill
      obtain rfl := hstill.raised
      refine .of_same ⟨hs, prefix_rfl, fun hle => ?_, le_rfl, fun _ hid => hid, id⟩ rfl
      rcases hdurable with hsame | hsame
      · rw [hsame]
        exact hle
      · rw [hsame]
        exact prefix_rfl
    | ok o =>
      obtain ⟨k, rfl, -, rfl, rfl, hchecked⟩ := begin_returned hs.live hbegin
      have hreached : Reached C.definition k.after := hs.commit (.begun k) hchecked
      have hafter : AfterBegin C s k u := ⟨hreached, rfl, hdurable, rfl, rfl⟩
      rw [bind_ok_apply hon]
      split_ifs
      · exact hafter.hands _
      · by_cases hprior : u.selectionState = proposal.priorState
        · rw [bind_ok_apply (installSelection_ok hprior.symm)]
          have hinstalled : AfterBegin C s k { u with selectionState := proposal.nextState } :=
            ⟨hreached, rfl, hdurable, rfl, rfl⟩
          exact hinstalled.hands _
        · have hraised : ∃ e, installSelection proposal u = (.error e, u) := by
            unfold installSelection
            rw [get_bind_apply, if_neg hprior]
            exact ⟨_, rfl⟩
          obtain ⟨e, hraised⟩ := hraised
          rw [bind_error_apply hraised]
          exact .of_same hafter.steady rfl

/-! ## Turns and drives -/

lemma apply_handing (action : Action) : Moves (Handing C) (apply C host action) := by
  cases action with
  | acceptResult occurrence outcome =>
    exact (handing_follows.acceptResult occurrence outcome).map _
  | acceptDelivery delivery => exact (Quiet.handing (acceptDelivery_quietMove delivery)).map _
  | beginCandidate binding proposal => exact (beginCandidate_handing binding proposal).map _
  | advanceTime instant => exact handing_follows.advanceTime instant
  | wait => exact Moves.throw _
  | stop => exact Moves.throw _

section Drive

variable [LinearOrder κ]

lemma afterOutbox_handing (i : Instance) : Moves (Handing C) (afterOutbox C host i) := by
  unfold afterOutbox settleHeld
  refine Moves.bind ?_ fun firings => ?_
  · refine Moves.bind (Moves.collect fun o _ => handing_follows.settleFrozen o)
      fun _ => ?_
    refine Moves.bind (Moves.collect fun o _ => handing_follows.completePure o)
      fun _ => ?_
    exact Moves.pure _
  · refine Moves.bind (handing_follows.committed) fun _ => ?_
    refine Moves.bind (Quiet.handing observe_quiet) fun snapshot => ?_
    refine Moves.bind (choose_moves _) fun action => ?_
    exact handing_follows.turn installSelection_handing _ _ (fun a _ => apply_handing a)
      (apply_handing _)

lemma drive_handing (h : s.reconciled = true) (hs : Reached C.definition s.instance_) :
    Hands C s (drive C host s).2 := by
  have hskip : reconcileOnce C host s = (.ok [], s) := by
    unfold reconcileOnce
    rw [get_bind_apply, if_pos h]
    rfl
  unfold drive
  rw [bind_ok_apply hskip]
  have hmoves : Moves (Handing C) (do
      let snapshot ← observe C host
      let action ← choose C snapshot
      turn C host snapshot.actions.length snapshot action []) := by
    refine Moves.bind (Quiet.handing observe_quiet) fun snapshot => ?_
    refine Moves.bind (choose_moves _) fun action => ?_
    exact handing_follows.turn installSelection_handing _ _ (fun a _ => apply_handing a)
      (apply_handing _)
  exact hmoves s hs

end Drive

/-! ## A coordinator's life -/

/-- What has been dispatched is spent, once each, and nothing before the first drive. -/
structure Ledger (s : Session) : Prop where
  nodup : s.dispatches.Nodup
  spent : ∀ id ∈ s.dispatches, id < s.instance_.nextOccurrence
  opened : s.reconciled = false → s.dispatches = []

lemma Ledger.hands (h : Ledger s) (hmove : Hands C s t) (hreconciled : t.reconciled = true) :
    Ledger t := by
  obtain ⟨new, hnew, hnodup, hbounds⟩ := hmove.minted
  have hnext := hmove.next
  refine ⟨?_, ?_, ?_⟩
  · rw [hnew]
    refine nodup_append.mpr ⟨h.nodup, hnodup, ?_⟩
    intro a ha b hb heq
    have hlt := h.spent a ha
    have hle := (hbounds b hb).1
    omega
  · intro id hid
    rw [hnew] at hid
    rcases mem_append.mp hid with hid | hid
    · have hlt := h.spent id hid
      omega
    · exact (hbounds id hid).2
  · intro hfalse
    rw [hreconciled] at hfalse
    cases hfalse

lemma Ledger.quiet (h : Ledger s) (hmove : QuietMove C s t) : Ledger t := by
  refine ⟨?_, ?_, ?_⟩
  · rw [hmove.dispatches]
    exact h.nodup
  · rw [hmove.dispatches]
    intro id hid
    exact Nat.lt_of_lt_of_le (h.spent id hid) hmove.next
  · intro hfalse
    rw [hmove.dispatches]
    apply h.opened
    cases hopen : s.reconciled with
    | false => rfl
    | true =>
      rw [hmove.reconciled hopen] at hfalse
      cases hfalse

lemma Hands.keeps_out (h : Hands C s t) {id : Nat} (hid : s.instance_.Retired id)
    (hout : id ∉ s.dispatches) : id ∉ t.dispatches := by
  obtain ⟨new, hnew, -, hbounds⟩ := h.minted
  rw [hnew, mem_append]
  rintro (hold | hnew)
  · exact hout hold
  · have hspent := hid.spent
    have hle := (hbounds id hnew).1
    omega

lemma mem_requestCalls {i : Instance} (hl : FlightLive i) {id : Nat}
    (h : id ∈ (requestCalls i).filterMap Call.dispatched?) :
    id < i.nextOccurrence ∧ ¬i.Retired id := by
  rw [requestCalls_dispatched] at h
  obtain ⟨o, ho, rfl⟩ := mem_map.mp h
  obtain ⟨hmem, hkept⟩ := mem_filter.mp ho
  obtain ⟨id, hget⟩ := Dict.mem_values.mp hmem
  obtain ⟨rfl, -, hlt⟩ := hl.flying id o hget
  refine ⟨hlt, ?_⟩
  intro hretired
  obtain ⟨outcome, hfrozen⟩ := hretired.settled o hget
  have hpending : o.id ∈ i.projectionPending.map FiringOccurrence.id :=
    mem_map_of_mem (mem_filter.mpr ⟨hmem,
      Dict.contains_iff_get?.mpr ⟨outcome, hfrozen⟩⟩)
  simp only [decide_eq_true_eq] at hkept
  exact hkept.2 hpending

lemma requestCalls_nodup {i : Instance} (hl : FlightLive i) :
    ((requestCalls i).filterMap Call.dispatched?).Nodup := by
  have hkeys : i.inFlight.values.map FiringOccurrence.id = i.inFlight.keys := by
    rw [Dict.values, map_map]
    apply map_congr_left
    intro e he
    exact (hl.flying e.1 e.2 (Dict.get?_eq_some.mpr he)).1
  rw [requestCalls_dispatched]
  have hnodup : (i.inFlight.values.map FiringOccurrence.id).Nodup := by
    rw [hkeys]
    exact i.inFlight.nodup
  exact hnodup.sublist (filter_sublist.map _)

lemma publish_calm : Moves (Calm C) (publish C host) := by
  unfold publish
  refine Moves.bind (calm_follows.reconcileCancellations) fun _ => ?_
  refine Moves.bind Moves.get fun u => ?_
  exact Moves.bind (Moves.forEach fun o _ => Follows.republish dispatchOccurrence_calm _ o) fun _ =>
    Moves.pure _

lemma publish_dispatches (hs : Reached C.definition s.instance_) : ∃ u made,
    QuietMove C s u ∧ (publish C host s).2.instance_ = u.instance_ ∧
      (publish C host s).2.dispatches = s.dispatches ++ made ∧
      made <+: (requestCalls u.instance_).filterMap Call.dispatched? := by
  have hquiet : QuietMove C s (reconcileCancellations C host s).2 :=
    quiet_follows.reconcileCancellations s hs
  unfold publish
  rw [bind_apply]
  generalize reconcileCancellations C host s = r at hquiet
  obtain ⟨x, u⟩ := r
  cases x with
  | error e => exact ⟨u, [], hquiet, rfl, by simp [hquiet.dispatches], nil_prefix⟩
  | ok _ =>
    let pending := u.instance_.projectionPending.map FiringOccurrence.id
    have hasks : Asks host (requestCalls u.instance_) u
        (Act.forEach (republish host pending) u.instance_.inFlight.values u) :=
      Asks.forEach _ fun o _ v => republish_asks pending o
    obtain ⟨made, hmade, hleads⟩ := hasks.made
    have hstate : ((Act.get >>= fun s : Session => do
        Act.forEach (republish host (s.instance_.projectionPending.map FiringOccurrence.id))
          s.instance_.inFlight.values
        return s.instance_) u).2 =
          (Act.forEach (republish host pending) u.instance_.inFlight.values u).2 := by
      rw [get_bind_apply, bind_apply]
      cases Act.forEach (republish host pending) u.instance_.inFlight.values u with
      | mk x v => cases x <;> rfl
    dsimp only
    rw [hstate]
    refine ⟨u, made.filterMap Call.dispatched?, hquiet, hasks.instance_, ?_, hleads.filterMap _⟩
    rw [Session.dispatches, hmade, filterMap_append, ← hquiet.dispatches]
    rfl

lemma publish_ledger (hs : Reached C.definition s.instance_) (hnone : s.dispatches = [])
    (hreconciled : s.reconciled = true) :
    Ledger (publish C host s).2 ∧
      ∀ id, s.instance_.Retired id → id ∉ (publish C host s).2.dispatches := by
  have hcalm : CalmMove C s (publish C host s).2 := publish_calm s hs
  obtain ⟨u, made, hquiet, hinstance, hdispatches, hleads⟩ : ∃ u made, QuietMove C s u ∧
      (publish C host s).2.instance_ = u.instance_ ∧ _ ∧ _ := publish_dispatches hs
  rw [hnone, nil_append] at hdispatches
  have hlive := hquiet.reached.live.flight
  refine ⟨⟨?_, ?_, ?_⟩, ?_⟩
  · rw [hdispatches]
    exact (requestCalls_nodup hlive).sublist hleads.sublist
  · intro id hid
    rw [hdispatches] at hid
    rw [hinstance]
    exact (mem_requestCalls hlive (hleads.subset hid)).1
  · intro hfalse
    rw [hcalm.reconciled hreconciled] at hfalse
    cases hfalse
  · intro id hretired hid
    rw [hdispatches] at hid
    exact (mem_requestCalls hlive (hleads.subset hid)).2 (hquiet.retired id hretired)

/-- What holds of a session in the life of a coordinator that was loaded as `s`. -/
structure Aged (C : Composition κ) (s t : Session) : Prop where
  reached : Reached C.definition t.instance_
  ledger : Ledger t
  retired : ∀ id, s.instance_.Retired id → t.instance_.Retired id
  kept_out : ∀ id, s.instance_.Retired id → id ∉ t.dispatches

lemma Aged.hands (h : Aged C s t) (hmove : Hands C t u) (hreconciled : u.reconciled = true) :
    Aged C s u where
  reached := hmove.reached
  ledger := h.ledger.hands hmove hreconciled
  retired id hid := hmove.retired id (h.retired id hid)
  kept_out id hid := hmove.keeps_out (h.retired id hid) (h.kept_out id hid)

lemma Aged.quiet (h : Aged C s t) (hmove : QuietMove C t u) : Aged C s u where
  reached := hmove.reached
  ledger := h.ledger.quiet hmove
  retired id hid := hmove.retired id (h.retired id hid)
  kept_out id hid := by
    rw [hmove.dispatches]
    exact h.kept_out id hid

lemma Aged.publish (h : Aged C s t) (hopen : t.reconciled = false) :
    Aged C s (publish C host { t with reconciled := true }).2 ∧
      (publish C host { t with reconciled := true }).2.reconciled = true := by
  have hcalm : CalmMove C { t with reconciled := true }
      (Engine.publish C host { t with reconciled := true }).2 := publish_calm _ h.reached
  obtain ⟨hledger, hout⟩ : Ledger (Engine.publish C host { t with reconciled := true }).2 ∧ _ :=
    publish_ledger h.reached (h.ledger.opened hopen) rfl
  exact ⟨⟨hcalm.reached, hledger, fun id hid => hcalm.retired id (h.retired id hid),
    fun id hid => hout id (h.retired id hid)⟩, hcalm.reconciled rfl⟩

lemma Fresh.aged (h : Fresh C s) : Aged C s s := by
  have hnone : s.dispatches = [] := by
    rw [Session.dispatches, h.calls]
    rfl
  refine ⟨h.reached, ⟨?_, ?_, fun _ => hnone⟩, fun _ hid => hid, ?_⟩
  · rw [hnone]
    exact nodup_nil
  · rw [hnone]
    intro id hid
    cases hid
  · rw [hnone]
    intro id _ hid
    cases hid

section Lifetime

variable [LinearOrder κ]

/-- The sessions of one coordinator: its doors called in any order, returning or raising. -/
inductive Lifetime (C : Composition κ) (s : Session) : Session → Prop
  | refl : Lifetime C s s
  | door {t : Session} (h : Lifetime C s t) (host : Host) (op : Op) :
      Lifetime C s (op.run C host t).2

lemma Aged.drive (h : Aged C s t) : Aged C s (drive C host t).2 := by
  cases hopen : t.reconciled with
  | true =>
    have hmove : Hands C t (Engine.drive C host t).2 := drive_handing hopen h.reached
    exact h.hands hmove (hmove.reconciled hopen)
  | false =>
    rw [drive_first hopen, bind_apply]
    obtain ⟨haged, hreconciled⟩ : Aged C s (Engine.publish C host _).2 ∧ _ := h.publish hopen
    generalize Engine.publish C host { t with reconciled := true } = r at haged hreconciled
    obtain ⟨x, u⟩ := r
    cases x with
    | error e => exact haged
    | ok i =>
      have hmove : Hands C u (afterOutbox C host i u).2 := afterOutbox_handing i u haged.reached
      exact haged.hands hmove (hmove.reconciled hreconciled)

lemma drive_steady (hs : Reached C.definition s.instance_) :
    Steady C s (Engine.drive C host s).2 := by
  cases hopen : s.reconciled with
  | true => exact (drive_handing hopen hs).toSteady
  | false =>
    have hcalm : CalmMove C { s with reconciled := true }
        (Engine.publish C host { s with reconciled := true }).2 := publish_calm _ hs
    have hstart : Steady C s { s with reconciled := true } :=
      ⟨hs, prefix_rfl, id, le_rfl, fun _ hid => hid, fun _ => rfl⟩
    rw [drive_first hopen, bind_apply]
    generalize Engine.publish C host { s with reconciled := true } = r at hcalm
    obtain ⟨x, u⟩ := r
    have hpublished : Steady C s u := hstart.trans hcalm.steady
    cases x with
    | error e => exact hpublished
    | ok i =>
      have hmove : Hands C u (afterOutbox C host i u).2 := afterOutbox_handing i u hcalm.reached
      exact hpublished.trans hmove.toSteady

lemma Op.run_advance : (Op.run C host .advance s).2 = (Engine.drive C host s).2 := by
  change ((Engine.drive C host >>= fun _ => (pure () : Driver Unit)) s).2 = _
  rw [bind_apply]
  cases Engine.drive C host s with
  | mk x u => cases x <;> rfl

lemma Op.run_steady (hs : Reached C.definition s.instance_) (op : Op) :
    Steady C s (op.run C host s).2 := by
  by_cases hadvance : op = .advance
  · subst hadvance
    rw [Op.run_advance]
    exact drive_steady hs
  · have hquiet : QuietMove C s (op.run C host s).2 := Op.run_quiet hadvance s hs
    exact hquiet.steady

lemma Aged.run (h : Aged C s t) (op : Op) : Aged C s (op.run C host t).2 := by
  by_cases hadvance : op = .advance
  · subst hadvance
    rw [Op.run_advance]
    exact h.drive
  · exact h.quiet (Op.run_quiet hadvance t h.reached)

lemma Lifetime.aged (h : Lifetime C s t) (hs : Fresh C s) : Aged C s t := by
  induction h with
  | refl => exact hs.aged
  | door _ host op ih => exact ih.run op

lemma Hosts.sound {allowed : Host → Session → Op → Prop} {w : Hosted}
    (h : Hosts (C := C) allowed w) :
    Reached C.definition w.session.instance_ ∧ w.session.durable <+: w.session.history := by
  have hfresh : ∀ {s : Session}, Fresh C s →
      Reached C.definition s.instance_ ∧ s.durable <+: s.history := by
    intro s hs
    refine ⟨hs.reached, ?_⟩
    rw [hs.durable]
  induction h with
  | created hcreated hopened =>
    obtain ⟨rfl, hopen⟩ := Session.open_returned hopened
    exact hfresh (hopen hcreated.reached)
  | @door w _ host op _ ih =>
    have hsteady : Steady C w.session (op.run C host w.session).2 := Op.run_steady ih.1 op
    unfold Hosted.guarded
    split_ifs
    · exact ih
    · generalize op.run C host w.session = r at hsteady
      obtain ⟨x, t⟩ := r
      cases x <;> exact ⟨hsteady.reached, hsteady.durable ih.2⟩
  | load _ batches torn hloaded ih => exact hfresh (load_fresh ih.1 ih.2 hloaded).1

end Lifetime

end Petrus.Engine
