import Petrus.Engine.Quiet
import Petrus.Impetus.Replay.Fidelity

/-!
# The selection state along a drive

A session is settled when its selection state is the fold of the durable history and
the durable history has chosen all the instance has. A drive keeps a session settled
when it returns. When it raises the state still folds the durable history, unless a
joined transaction made a begin durable and raised before its selection was installed.
-/

namespace Petrus.Engine

open Lib Motus Impetus List Act

variable {κ : Type} {C : Composition κ} {host : Host} {s t : Session}
variable {α : Type} {binding : Binding} {atInstant : Option Instant} {o : FiringOccurrence}
  {i : Instance} {e : Exc} {proposal : SelectionProposal} {action : Action}

lemma prefix_flatten {a b : History} (h : a <+: b) : a.flatten <+: b.flatten := by
  obtain ⟨rest, rfl⟩ := h
  rw [flatten_append]
  exact prefix_append _ _

lemma foldHistory_chosen {policy : SelectionPolicy κ} {state : SelectionState}
    {records others : List Record} (h : Paired records) (h' : Paired others)
    (heq : chosen records = chosen others) :
    foldHistory policy state records = foldHistory policy state others := by
  rw [foldHistory_eq policy state h, foldHistory_eq policy state h', heq]

/-- The selection state is the fold of the durable history. -/
structure Faithful (C : Composition κ) (s : Session) : Prop where
  reached : Reached C.definition s.instance_
  durable_le : s.durable <+: s.history
  state : foldHistory C.selection none s.durable.flatten = .ok s.selectionState

structure Settled (C : Composition κ) (s : Session) : Prop extends Faithful C s where
  owned : C.joined = false → s.durable = s.history
  live : chosen s.durable.flatten = chosen s.instance_.records

/-- What holds of every session: its instance is reached, and its records fold. -/
structure Grounded (C : Composition κ) (s : Session) : Prop where
  reached : Reached C.definition s.instance_
  durable_le : s.durable <+: s.history
  folds : ∃ state, foldHistory C.selection none s.instance_.records = .ok state

lemma Faithful.paired (h : Faithful C s) : Paired s.durable.flatten :=
  h.reached.paired.sublist (prefix_flatten h.durable_le).sublist

lemma Settled.fold_records (h : Settled C s) :
    foldHistory C.selection none s.instance_.records = .ok s.selectionState := by
  rw [← h.state, foldHistory_chosen h.reached.paired h.paired h.live.symm]

lemma Settled.grounded (h : Settled C s) : Grounded C s :=
  ⟨h.reached, h.durable_le, _, h.fold_records⟩

lemma Settled.calm (h : Settled C s) (hmove : CalmMove C s t) : Settled C t := by
  have hle : t.durable <+: t.history := by
    rcases hmove.durable with hsame | ⟨-, hle, -⟩
    · rw [hsame]
      exact h.durable_le.trans hmove.grown
    · exact hle
  have hchosen : chosen t.durable.flatten = chosen s.durable.flatten := by
    rcases hmove.durable with hsame | ⟨-, -, hchosen⟩
    · rw [hsame]
    · rw [hchosen, h.live]
  have hpaired : Paired t.durable.flatten :=
    hmove.reached.paired.sublist (prefix_flatten hle).sublist
  exact {
    reached := hmove.reached
    durable_le := hle
    state := by rw [hmove.state, ← h.state, foldHistory_chosen hpaired h.paired hchosen]
    owned := fun hjoined => hmove.owned hjoined (h.owned hjoined)
    live := by rw [hchosen, h.live, hmove.chosen] }

/-- The binding of a proposal, made in a state, and the state its commit folds to. -/
structure Proposed (C : Composition κ) (state : SelectionState) (binding : Binding)
    (proposal : SelectionProposal) : Prop where
  prior : proposal.priorState = state
  next : C.selection.foldCommitted state binding.transition = .ok proposal.nextState

/-- What keeps a joined transaction from making a begin durable before its selection is installed:
no acknowledgement of a commit is lost and, from here on, the handler of a pure occurrence returns
and the instance takes its result. -/
structure Safe (C : Composition κ) (host : Host) (s : Session) : Prop where
  heard : ∀ history e, host.commit history ≠ .acknowledgementLost e
  ends : ∀ i o, Reached C.definition i → s.history <+: i.history →
    i.inFlight.get? o.id = some o → o.binding.transition ∈ C.definition.net.transitionPaths →
    o.invocation = none → ∃ run result plan,
      C.definition.boundHandler o.binding.transition = .plain run ∧
        run o.binding (C.definition.net.outputs o.binding.transition) = .ok result ∧
        completionPlan C.definition o result (some (host.now i.history)) i = .ok plan

/-- Where a drive that found `s` may end. -/
structure Ends {α : Type} (C : Composition κ) (host : Host) (s : Session)
    (r : Except Exc α × Session) : Prop where
  grounded : Grounded C r.2
  settled : ∀ a, r.1 = .ok a → Settled C r.2
  still : chosen r.2.instance_.records = chosen s.instance_.records →
    r.2.selectionState = s.selectionState
  faithful : (C.joined = true → Safe C host s) → Faithful C r.2

lemma Safe.calm (h : Safe C host s) (hmove : CalmMove C s t) : Safe C host t :=
  ⟨h.heard, fun i o hi hle => h.ends i o hi (hmove.grown.trans hle)⟩

lemma Ends.of_settled {r : Except Exc α × Session} (h : Settled C r.2)
    (hstill : chosen r.2.instance_.records = chosen s.instance_.records →
      r.2.selectionState = s.selectionState) : Ends C host s r :=
  ⟨h.grounded, fun _ _ => h, hstill, fun _ => h.toFaithful⟩

lemma Ends.of_calm {r : Except Exc α × Session} (h : Settled C s) (hmove : CalmMove C s r.2) :
    Ends C host s r :=
  .of_settled (h.calm hmove) fun _ => hmove.state

lemma Ends.bind_calm {β : Type} {m : Driver α} {f : α → Driver β} (h : Settled C s)
    (hm : Moves (Calm C) m)
    (hf : ∀ a t, m s = (.ok a, t) → CalmMove C s t → Settled C t → Ends C host t (f a t)) :
    Ends C host s ((m >>= f) s) := by
  have hmove := hm s h.reached
  rw [bind_apply]
  generalize hr : m s = r at hmove
  obtain ⟨x, t⟩ := r
  cases x with
  | error e => exact Ends.of_calm h hmove
  | ok a =>
    have ht := h.calm hmove
    have hends := hf a t hr hmove ht
    refine ⟨hends.grounded, hends.settled, ?_, ?_⟩
    · intro hchosen
      rw [hends.still (hchosen.trans hmove.chosen.symm), hmove.state]
    · exact fun hsafe => hends.faithful fun hjoined => (hsafe hjoined).calm hmove

/-! ## The offer -/

section Offer

variable [LinearOrder κ]

lemma offerCandidate_offers {candidate : List Action}
    (h : offerCandidate C s = (.ok candidate, t)) : t = s ∧ ∀ binding proposal,
      .beginCandidate binding proposal ∈ candidate →
        Proposed C s.selectionState binding proposal := by
  unfold offerCandidate at h
  rw [get_bind_apply] at h
  obtain ⟨enabled, u, henabled, h⟩ := bind_returned.mp h
  obtain ⟨-, rfl⟩ := Prod.mk.inj henabled
  split_ifs at h
  · cases h
    exact ⟨rfl, fun _ _ hmem => by cases hmem⟩
  · obtain ⟨proposed, u, hproposed, h⟩ := bind_returned.mp h
    obtain ⟨hpropose, rfl⟩ := Prod.mk.inj hproposed
    cases proposed with
    | none =>
      cases h
      exact ⟨rfl, fun _ _ hmem => by cases hmem⟩
    | some proposal =>
      obtain ⟨_, u, hfirst, h⟩ := bind_returned.mp h
      obtain ⟨-, rfl⟩ := Prod.mk.inj hfirst
      obtain ⟨_, u, hsecond, h⟩ := bind_returned.mp h
      obtain ⟨-, rfl⟩ := Prod.mk.inj hsecond
      cases h
      refine ⟨rfl, ?_⟩
      intro binding offered hmem
      cases mem_singleton.mp hmem
      obtain ⟨-, hprior, hnext⟩ := SelectionPolicy.propose_some hpropose
      exact ⟨hprior, hnext⟩

lemma observe_offers {snapshot : Snapshot} (hs : Reached C.definition s.instance_)
    (h : observe C host s = (.ok snapshot, t)) : ∀ binding proposal,
      .beginCandidate binding proposal ∈ snapshot.actions →
        Proposed C t.selectionState binding proposal := by
  unfold observe at h
  rw [get_bind_apply] at h
  obtain ⟨_, s₁, hcollect, h⟩ := bind_returned.mp h
  obtain ⟨candidate, s₂, hoffer, h⟩ := bind_returned.mp h
  rw [get_bind_apply] at h
  obtain ⟨maturation, s₃, hmaturation, h⟩ := bind_returned.mp h
  obtain ⟨-, rfl⟩ := Prod.mk.inj hmaturation
  obtain ⟨_, s₄, hsense, h⟩ := bind_returned.mp h
  rw [get_bind_apply] at h
  cases h
  obtain ⟨rfl, hoffers⟩ := offerCandidate_offers hoffer
  have hcollected : QuietMove C s (collectArrivals C host
      (s.instance_.inFlight.values.map FiringOccurrence.id) s).2 :=
    quiet_follows.collectArrivals _ s hs
  rw [hcollect] at hcollected
  have hsensed : QuietMove C s₂ (sense host s₂).2 := sense_quiet s₂ hcollected.reached
  rw [hsense] at hsensed
  intro binding proposal hmem
  rw [hsensed.state]
  apply hoffers
  simpa using hmem

end Offer

/-! ## Beginning a candidate -/

/-- In a joined transaction, after a begin whose selection is not installed yet. -/
structure Pending (C : Composition κ) (s : Session) (proposal : SelectionProposal) (t : Session) :
    Prop where
  joined : C.joined = true
  reached : Reached C.definition t.instance_
  durable_le : t.durable <+: t.history
  same : t.selectionState = s.selectionState
  next : foldHistory C.selection none t.instance_.records = .ok proposal.nextState
  grown : chosen t.instance_.records ≠ chosen s.durable.flatten

lemma Pending.calm {u : Session} (h : Pending C s proposal t) (hmove : CalmMove C t u) :
    Pending C s proposal u where
  joined := h.joined
  reached := hmove.reached
  durable_le := by
    rcases hmove.durable with hsame | ⟨-, hle, -⟩
    · rw [hsame]
      exact h.durable_le.trans hmove.grown
    · exact hle
  same := hmove.state.trans h.same
  next := by rw [foldHistory_chosen hmove.reached.paired h.reached.paired hmove.chosen, h.next]
  grown := by
    rw [hmove.chosen]
    exact h.grown

lemma Pending.raised (h : Pending C s proposal t) (hs : Settled C s)
    (hdurable : Safe C host s → t.durable = s.durable) (e : Exc) :
    Ends C host s ((.error e, t) : Except Exc α × Session) where
  grounded := ⟨h.reached, h.durable_le, _, h.next⟩
  settled := nofun
  still hchosen := absurd (hchosen.trans hs.live.symm) h.grown
  faithful hsafe := ⟨h.reached, h.durable_le, by rw [hdurable (hsafe h.joined), h.same, hs.state]⟩

lemma begin_chosen {j : Instance} {store : Store} {D : Definition} (hi : Reached D i)
    (h : begin_ D store binding atInstant i = (.ok o, j)) :
    Reached D j ∧ i.history <+: j.history ∧ o.binding.transition ∈ D.net.transitionPaths ∧
      j.inFlight.get? o.id = some o ∧
      chosen j.records = chosen i.records ++ [binding.transition] := by
  obtain ⟨k, rfl, hidentity, rfl, rfl, hchecked⟩ := begin_returned hi.live h
  have hreached := hi.commit (.begun k) hchecked
  refine ⟨hreached, ?_, k.transition_mem, ?_, ?_⟩
  · rw [show k.after.history = (Commit.begun k).after.history from rfl, Commit.after_history]
    exact prefix_append _ _
  · exact Dict.get?_set_self _ _ _
  · rw [show k.after.records = (Commit.begun k).after.records from rfl,
      (Commit.begun k).chosen_after hi]
    simp only [Commit.chooses, if_pos hidentity]

lemma foldHistory_begun {policy : SelectionPolicy κ} {records others : List Record}
    {state next : SelectionState} {t : NetPath} (h : Paired records) (h' : Paired others)
    (hstate : foldHistory policy none records = .ok state)
    (hnext : policy.foldCommitted state t = .ok next)
    (hchosen : chosen others = chosen records ++ [t]) :
    foldHistory policy none others = .ok next := by
  rw [foldHistory_eq policy none h] at hstate
  rw [foldHistory_eq policy none h', hchosen, foldlM_append_ok hstate, foldlM_cons_ok hnext]
  rfl

lemma begin_raised_session (h : Settled C s)
    (hraised : begin_ C.definition host.store binding atInstant s.instance_ = (.error e, i)) :
    onInstance C (begin_ C.definition host.store binding atInstant) s = (.error e, s) := by
  have hstill := begin_atMostOne h.reached.live host.store binding atInstant
  rw [hraised] at hstill
  have hsame := hstill.raised
  unfold onInstance
  rw [hraised]
  subst hsame
  cases hjoined : C.joined with
  | true => rfl
  | false =>
    have howned := h.owned hjoined
    simp only [Bool.false_eq_true, if_false]
    rw [show s.instance_.history = s.durable from howned.symm]

lemma runBegun_proposal {earned : Option SelectionProposal} {applied : Applied}
    (h : runBegun C host o earned s = (.ok applied, t)) :
    applied.proposal = earned := by
  unfold runBegun at h
  cases ho : o.invocation with
  | none | some =>
    simp only [ho] at h
    obtain ⟨_, _, -, h⟩ := bind_returned.mp h
    cases h
    rfl

lemma commitCompletion_raises {D : Definition} {store : Store} {result : Option HandlerResult}
    {plan : Plan CompletionPlan FiringOutcome} (hi : Reached D i)
    (hplan : completionPlan D o result atInstant i = .ok plan) :
    (commitCompletion D store o result atInstant i).1 ≠ .error (.raised e) := by
  intro hraised
  unfold commitCompletion at hraised
  cases plan with
  | answer b =>
    rw [commit_answer hplan] at hraised
    cases hraised
  | batch records a =>
    cases hstore : store i.history records with
    | some e =>
      rw [commit_refused hplan hstore] at hraised
      cases hraised
    | none =>
      obtain ⟨c, b, -, -, -, hsettle⟩ :=
        completion_settles hi.live o result atInstant records a hplan
      rw [commit_settled hplan hstore hsettle] at hraised
      cases hraised

lemma runBegun_durable {earned : Option SelectionProposal} {u : Session} (hjoined : C.joined = true)
    (h : Safe C host s) (hu : Reached C.definition u.instance_) (hle : s.history <+: u.history)
    (hflight : u.instance_.inFlight.get? o.id = some o)
    (hmem : o.binding.transition ∈ C.definition.net.transitionPaths) :
    (runBegun C host o earned u).2.durable = u.durable := by
  unfold runBegun
  cases ho : o.invocation with
  | some invocation =>
    dsimp only
    unfold dispatchOccurrence
    cases host.dispatch o.id invocation <;> rfl
  | none =>
    obtain ⟨run, result, plan, hbound, hrun, hplan⟩ := h.ends _ o hu hle hflight hmem ho
    have hraises : ∀ e, (onInstance C (commitCompletion C.definition host.store o result
        (now host u)) u).1 ≠ .error (.raised e) := fun e => commitCompletion_raises hu hplan
    have hdurable : (onInstance C (commitCompletion C.definition host.store o result
        (now host u)) u).2.durable = u.durable := if_pos hjoined
    have hlift : Act.mapError Failure.raised (Act.lift (.ok result) :
        Act Session Exc (Option HandlerResult)) u = (.ok result, u) := rfl
    dsimp only
    unfold completePure
    dsimp only
    simp only [hbound, hrun]
    rw [bind_apply]
    unfold Act.catching
    rw [bind_ok_apply hlift, get_bind_apply]
    generalize onInstance C (commitCompletion C.definition host.store o result (now host u)) u = r
      at hraises hdurable
    obtain ⟨x, t⟩ := r
    cases x with
    | ok firing => exact hdurable
    | error e =>
      cases e with
      | refused e => exact hdurable
      | raised e => exact absurd rfl (hraises e)

lemma installSelection_ok (h : proposal.priorState = s.selectionState) :
    installSelection proposal s = (.ok (), { s with selectionState := proposal.nextState }) := by
  unfold installSelection
  rw [get_bind_apply, if_pos h.symm]
  rfl

lemma beginCandidate_raised (h : Settled C s)
    (hraised : begin_ C.definition host.store binding (now host s) s.instance_ = (.error e, i)) :
    beginCandidate C host binding proposal s = (.error e, s) := by
  unfold beginCandidate
  rw [get_bind_apply, bind_error_apply (begin_raised_session h hraised)]

lemma beginCandidate_owned (hjoined : C.joined = false) (h : Settled C s)
    (hp : Proposed C s.selectionState binding proposal) :
    Ends C host s (beginCandidate C host binding proposal s) ∧ ∀ applied t,
      beginCandidate C host binding proposal s = (.ok applied, t) → applied.proposal = none := by
  cases hbegin : begin_ C.definition host.store binding (now host s) s.instance_ with
  | mk x i =>
    cases x with
    | error e =>
      rw [beginCandidate_raised h hbegin]
      exact ⟨Ends.of_calm h (refl_of (Calm C) s h.reached), fun _ _ heq => by cases heq⟩
    | ok o =>
      obtain ⟨hreached, -, -, -, hchosen⟩ := begin_chosen h.reached hbegin
      -- The begin and the selection it earned become durable together.
      let u : Session := { s with
        instance_ := i
        durable := i.history
        selectionState := proposal.nextState }
      have hstate : foldHistory C.selection none i.history.flatten = .ok proposal.nextState :=
        foldHistory_begun h.paired hreached.paired h.state hp.next (by
          rw [h.live]
          exact hchosen)
      have hu : Settled C u := {
        reached := hreached
        durable_le := prefix_rfl
        state := hstate
        owned := fun _ => rfl
        live := rfl }
      have hon : onInstance C (begin_ C.definition host.store binding (now host s)) s =
          (.ok o, { s with instance_ := i, durable := i.history }) := by
        unfold onInstance
        rw [hbegin]
        simp [hjoined]
      have hinstall : installSelection proposal { s with instance_ := i, durable := i.history } =
          (.ok (), u) := installSelection_ok hp.prior
      have hrun : beginCandidate C host binding proposal s = runBegun C host o none u := by
        unfold beginCandidate
        rw [get_bind_apply, bind_ok_apply hon, if_neg (by simp [hjoined]), bind_ok_apply hinstall]
      have hmove : CalmMove C u (runBegun C host o none u).2 :=
        Follows.runBegun dispatchOccurrence_calm calm_follows o none u hreached
      rw [hrun]
      refine ⟨.of_settled (hu.calm hmove) ?_, fun _ _ heq => runBegun_proposal heq⟩
      intro hsame
      rw [hmove.chosen] at hsame
      have hlength := congrArg List.length (hchosen.symm.trans hsame)
      simp at hlength

lemma beginCandidate_joined (host : Host) (hjoined : C.joined = true) (h : Settled C s)
    (hp : Proposed C s.selectionState binding proposal) :
    (∃ e, beginCandidate C host binding proposal s = (.error e, s)) ∨
      Pending C s proposal (beginCandidate C host binding proposal s).2 ∧
        (Safe C host s → (beginCandidate C host binding proposal s).2.durable = s.durable) ∧
        ∀ applied t, beginCandidate C host binding proposal s = (.ok applied, t) →
          applied.proposal = some proposal := by
  cases hbegin : begin_ C.definition host.store binding (now host s) s.instance_ with
  | mk x i =>
    cases x with
    | error e => exact .inl ⟨e, beginCandidate_raised h hbegin⟩
    | ok o =>
      right
      obtain ⟨hreached, hgrown, hmem, hflight, hchosen⟩ := begin_chosen h.reached hbegin
      rw [← h.live] at hchosen
      let u : Session := { s with instance_ := i }
      have hu : Pending C s proposal u := {
        joined := hjoined
        reached := hreached
        durable_le := h.durable_le.trans hgrown
        same := rfl
        next := foldHistory_begun h.paired hreached.paired h.state hp.next hchosen
        grown := fun hsame => by
          have hlength := congrArg List.length (hchosen.symm.trans hsame)
          simp at hlength }
      have hon : onInstance C (begin_ C.definition host.store binding (now host s)) s =
          (.ok o, u) := by
        unfold onInstance
        rw [hbegin]
        simp [hjoined, u]
      have hrun : beginCandidate C host binding proposal s =
          runBegun C host o (some proposal) u := by
        unfold beginCandidate
        rw [get_bind_apply, bind_ok_apply hon, if_pos hjoined]
      rw [hrun]
      exact ⟨hu.calm (Follows.runBegun dispatchOccurrence_calm calm_follows o (some proposal) u
        hreached), fun hsafe => runBegun_durable hjoined hsafe hreached hgrown hflight hmem,
        fun _ _ heq => runBegun_proposal heq⟩

lemma settle_pending {u : Session} {before : Nat} {applied : Applied} (hs : Settled C s)
    (h : Pending C s proposal u) (hdurable : Safe C host s → u.durable = s.durable)
    (hp : proposal.priorState = s.selectionState)
    (haction : action.isDelivery = false) (happlied : applied.proposal = some proposal) :
    Ends C host s (settle C host action before applied u) := by
  unfold settle
  rw [get_bind_apply, if_pos (.inl haction)]
  have hcommit : QuietMove C u (committed C host u).2 := committed_quiet u h.reached
  cases hr : committed C host u with
  | mk x v =>
    rw [hr] at hcommit
    have hv := h.calm hcommit.toCalmMove
    cases x with
    | error e =>
      rw [bind_error_apply hr]
      refine hv.raised hs (fun hsafe => ?_) e
      unfold committed at hr
      rw [if_pos h.joined] at hr
      cases hfate : host.commit u.instance_.history with
      | acknowledgementLost e => exact absurd hfate (hsafe.heard _ e)
      | acknowledged =>
        rw [hfate] at hr
        cases hr
      | refused e =>
        rw [hfate] at hr
        cases hr
        exact hdurable hsafe
    | ok _ =>
      -- Only an acknowledged commit returns.
      have hall : v.durable = v.history := by
        unfold committed at hr
        rw [if_pos h.joined] at hr
        cases hfate : host.commit u.instance_.history <;> rw [hfate] at hr <;> cases hr
        rfl
      have hinstall : installSelection proposal v =
          (.ok (), { v with selectionState := proposal.nextState }) :=
        installSelection_ok (hp.trans hv.same.symm)
      rw [bind_ok_apply hr]
      simp only [happlied]
      rw [bind_ok_apply hinstall]
      have hsettled : Settled C { v with
          selectionState := proposal.nextState
          previous := some action } := {
        reached := hv.reached
        durable_le := hv.durable_le
        state := by
          rw [hall]
          exact hv.next
        owned := fun _ => hall
        live := by
          rw [hall]
          rfl }
      exact .of_settled hsettled fun hchosen => absurd (hchosen.trans hs.live.symm) hv.grown

/-! ## Turns and drives -/

lemma acceptResult_proposal (occurrence : Nat) (outcome : Arrival) :
    Returns (fun a : Applied => a.proposal = none)
      (acceptResult C host occurrence outcome) := by
  unfold acceptResult
  refine Returns.bind fun s => ?_
  cases s.instance_.inFlight.values.find? fun o => o.id = occurrence with
  | none => exact Returns.throw _
  | some o =>
    refine Returns.bind fun _ => Returns.bind fun _ => Returns.bind fun _ =>
      Returns.bind fun t => ?_
    cases outcome with
    | returned result => exact Returns.bind fun _ => Returns.pure rfl
    | failed failure =>
      dsimp only
      split_ifs
      · exact Returns.bind fun _ => Returns.bind fun _ => Returns.pure rfl
      · exact Returns.bind fun _ => Returns.bind fun _ => Returns.throw _

lemma acceptDelivery_proposal (delivery : Delivery) :
    Returns (fun a : Applied => a.proposal = none) (acceptDelivery C host delivery) := by
  unfold acceptDelivery
  refine Returns.bind fun _ => Returns.bind fun s => Returns.bind fun answer => ?_
  cases answer with
  | accepted a =>
    refine Returns.bind fun t => ?_
    split_ifs
    · exact Returns.bind fun _ => Returns.bind fun _ => Returns.pure rfl
    · exact Returns.bind fun _ => Returns.pure rfl
  | _ => exact Returns.pure rfl

lemma advanceTime_proposal (instant : Instant) :
    Returns (fun a : Option Applied => ∀ applied ∈ a, applied.proposal = none)
      (advanceTime C host instant) := by
  unfold advanceTime
  cases host.observe instant with
  | none => exact Returns.pure (by simp)
  | some observed =>
    dsimp only
    split_ifs
    · exact Returns.throw _
    · exact Returns.bind fun _ => Returns.pure (by simp)

lemma map_returned {m : Driver α} {a : Option α} (h : (some <$> m) s = (.ok a, t)) :
    ∃ x, a = some x ∧ m s = (.ok x, t) := by
  rw [map_apply] at h
  obtain ⟨hx, ht⟩ := Prod.mk.inj h
  cases hm : m s with
  | mk y u =>
    rw [hm] at hx ht
    cases y with
    | error e => cases hx
    | ok x =>
      cases hx
      cases ht
      exact ⟨x, rfl, rfl⟩

lemma apply_calm (h : ∀ binding proposal, action ≠ .beginCandidate binding proposal) :
    Moves (Calm C) (apply C host action) ∧
      Returns (fun a : Option Applied => ∀ applied ∈ a, applied.proposal = none)
        (apply C host action) := by
  cases action with
  | acceptResult occurrence outcome =>
    refine ⟨(calm_follows.acceptResult occurrence outcome).map _, ?_⟩
    intro s a t heq
    obtain ⟨x, rfl, hx⟩ := map_returned heq
    simpa using acceptResult_proposal occurrence outcome s x t hx
  | acceptDelivery delivery =>
    refine ⟨(Quiet.calm (acceptDelivery_quietMove delivery)).map _, ?_⟩
    intro s a t heq
    obtain ⟨x, rfl, hx⟩ := map_returned heq
    simpa using acceptDelivery_proposal delivery s x t hx
  | beginCandidate binding proposal => exact absurd rfl (h binding proposal)
  | advanceTime instant =>
    exact ⟨calm_follows.advanceTime instant, advanceTime_proposal instant⟩
  | wait | stop => exact ⟨Moves.throw _, Returns.throw _⟩

lemma Ends.then_calm {β : Type} {m : Driver α} {f : α → Driver β} (h : Ends C host s (m t))
    (hf : ∀ a u, m t = (.ok a, u) → CalmMove C u (f a u).2) : Ends C host s ((m >>= f) t) := by
  rw [bind_apply]
  generalize hr : m t = r at h hf
  obtain ⟨x, u⟩ := r
  cases x with
  | error e =>
    exact ⟨h.grounded, nofun, h.still, h.faithful⟩
  | ok a =>
    have hmove := hf a u rfl
    refine .of_settled ((h.settled a rfl).calm hmove) ?_
    intro hchosen
    rw [hmove.state]
    exact h.still (hmove.chosen.symm.trans hchosen)

lemma beginCandidate_settle {before : Nat} {next : Applied → Driver α} (h : Settled C s)
    (hp : Proposed C s.selectionState binding proposal)
    (hnext : ∀ applied, Moves (Calm C) (next applied)) :
    Ends C host s ((beginCandidate C host binding proposal >>= fun applied => do
      settle C host (.beginCandidate binding proposal) before applied
      next applied) s) := by
  cases hjoined : C.joined with
  | false =>
    obtain ⟨hends, hnone⟩ : Ends C host s (beginCandidate C host binding proposal s) ∧ _ :=
      beginCandidate_owned hjoined h hp
    refine hends.then_calm fun applied t hr => ?_
    have hsettled := hends.settled applied (by rw [hr])
    rw [hr] at hsettled
    have hsettle : Moves (Calm C)
        (settle C host (.beginCandidate binding proposal) before applied) :=
      calm_follows.settle _ _ (by rw [hnone applied t hr]; exact nofun)
    exact Moves.bind hsettle (fun _ => hnext applied) t hsettled.reached
  | true =>
    rw [bind_apply]
    rcases beginCandidate_joined host hjoined h hp with
      ⟨e, hraised⟩ | ⟨hpending, hdurable, hearned⟩
    · rw [hraised]
      exact Ends.of_calm h (refl_of (Calm C) s h.reached)
    · generalize hr : beginCandidate C host binding proposal s = r at hpending hdurable hearned
      obtain ⟨x, t⟩ := r
      cases x with
      | error e => exact hpending.raised h hdurable e
      | ok applied =>
        have hends : Ends C host s
            (settle C host (.beginCandidate binding proposal) before applied t) :=
          settle_pending h hpending hdurable hp.prior rfl (hearned applied t rfl)
        refine hends.then_calm fun _ u hu => ?_
        have hsettled := hends.settled _ (by rw [hu])
        rw [hu] at hsettled
        exact hnext applied u hsettled.reached

def turnStep (C : Composition κ) (host : Host) (snapshot : Snapshot) (action : Action)
    (firings : List FiringOutcome) (fuel before : Nat) : Option Applied → Driver DriveOutcome
  | some applied => do
    settle C host action before applied
    posture C (firings ++ applied.firings) false true
  | none => do
    let snapshot := { snapshot with actions := snapshot.actions.filter (· ≠ action) }
    let action ← choose C snapshot
    turn C host fuel snapshot action firings

lemma turn_applies (h : ¬(action = .wait ∨ action = .stop)) (fuel : Nat) (snapshot : Snapshot)
    (firings : List FiringOutcome) (s : Session) :
    turn C host (fuel + 1) snapshot action firings s =
      (apply C host action >>= turnStep C host snapshot action firings fuel
        s.instance_.records.length) s := by
  rw [turn, if_neg h, get_bind_apply]
  congr 2

lemma turn_ends (fuel : Nat) (snapshot : Snapshot) (action : Action)
    (firings : List FiringOutcome) (h : Settled C s)
    (hoffers : ∀ binding proposal, .beginCandidate binding proposal ∈ snapshot.actions →
      Proposed C s.selectionState binding proposal)
    (hmem : action ∈ snapshot.actions) :
    Ends C host s (turn C host fuel snapshot action firings s) := by
  induction fuel generalizing snapshot action s with
  | zero => exact Ends.of_calm h (Moves.throw (R := Calm C) _ s h.reached)
  | succ fuel ih =>
    by_cases hhalt : action = .wait ∨ action = .stop
    · exact Ends.of_calm h (calm_follows.halted hhalt fuel snapshot firings s h.reached)
    · by_cases hbegin : ∃ binding proposal, action = .beginCandidate binding proposal
      · obtain ⟨binding, proposal, rfl⟩ := hbegin
        rw [turn_applies hhalt, apply, map_bind]
        exact beginCandidate_settle h (hoffers binding proposal hmem) fun _ => posture_moves _ _ _
      · -- Any other action leaves the offers as they were proposed.
        obtain ⟨hcalm, hnone⟩ : Moves (Calm C) (apply C host action) ∧ _ :=
          apply_calm fun binding proposal heq => hbegin ⟨binding, proposal, heq⟩
        rw [turn_applies hhalt]
        refine Ends.bind_calm h hcalm fun a t hr hmove ht => ?_
        cases a with
        | some applied =>
          have hsettle : Moves (Calm C) (settle C host action s.instance_.records.length applied) :=
            calm_follows.settle _ _ (by rw [hnone s _ t hr applied rfl]; exact nofun)
          exact Ends.of_calm ht (Moves.bind hsettle
            (fun _ => posture_moves _ _ _) t ht.reached)
        | none =>
          refine Ends.bind_calm ht (choose_moves _) fun next u hnext hmove' hu => ?_
          obtain ⟨rfl, hoffered⟩ := choose_returned hnext
          refine ih _ _ hu ?_ hoffered
          intro binding proposal hkept
          rw [hmove.state]
          exact hoffers binding proposal (mem_of_mem_filter hkept)

section Drive

variable [LinearOrder κ]

lemma drive_ends (h : Settled C s) : Ends C host s (drive C host s) := by
  refine Ends.bind_calm h (Follows.reconcileOnce dispatchOccurrence_calm calm_follows)
    fun firings t hr _ ht => ?_
  refine Ends.bind_calm ht (Quiet.calm observe_quiet) fun snapshot u hu _ hsettled => ?_
  refine Ends.bind_calm hsettled (choose_moves _) fun action v hv _ hsettled' => ?_
  obtain ⟨rfl, hmem⟩ := choose_returned hv
  exact turn_ends _ _ _ firings hsettled' (observe_offers ht.reached hu) hmem

end Drive

end Petrus.Engine
