import Petrus.Engine.Hosting
import Petrus.Engine.Parts
import Petrus.Impetus.Replay.Requests
import Petrus.Impetus.Replay.Fidelity

/-!
# What a coordinator leaves alone

All a session does beside beginning a scheduled firing, installing its selection and
dispatching is quiet: no transition is chosen, the selection state stays, nothing is
dispatched, and what becomes durable is what the instance has appended.
-/

namespace Petrus.Engine

open Lib Motus Impetus List
open Act (Moves)

variable {D : Definition} {i j : Instance} {P : ∀ u, Commit D u → Prop}

/-! ## Doors that choose no transition -/

abbrev QuietChain (D : Definition) := Chain D fun _ c => c.chooses = []

lemma Op.quiet (hi : Reached D i) (store : Store) (op : Impetus.Op) (hop : op.chooses = false) :
    QuietChain D i (op.perform D store i) := by
  have hresume : op ≠ .resume := by
    rintro rfl
    cases hop
  exact op.perform_chain hi store hresume (fun _ _ _ _ hquiet => hquiet hop) fun _ _ _ _ _ _ => rfl

lemma commitCompletion_quiet (h : Reached D i) (store : Store) (o : FiringOccurrence)
    (result : Option HandlerResult) (atInstant : Option Instant) :
    QuietChain D i (commitCompletion D store o result atInstant i).2 := by
  refine (commit_atMostOne store (completion_settles h.live o result atInstant)).chain ?_
  rintro c _ ⟨k, rfl, -⟩
  rfl

lemma Chain.prefix_history (h : Chain D P i j) :
    i.history <+: j.history := by
  induction h with
  | refl => exact prefix_rfl
  | commit _ c _ _ ih =>
    rw [c.after_history]
    exact ih.trans (prefix_append _ _)

lemma Chain.nextOccurrence_le (h : Chain D P i j) :
    i.nextOccurrence ≤ j.nextOccurrence := by
  induction h with
  | refl => exact le_rfl
  | commit _ c _ _ ih => exact ih.trans c.nextOccurrence_le

lemma Chain.retired (h : Chain D P i j) {id : Nat} (hid : i.Retired id) : j.Retired id := by
  induction h with
  | refl => exact hid
  | commit _ c _ _ ih => exact ih.commit c

lemma QuietChain.chosen (h : QuietChain D i j) (hi : Reached D i) :
    chosen j.records = chosen i.records := by
  induction h with
  | refl => rfl
  | @commit t h c hquiet checked ih =>
    rw [c.chosen_after (Chain.reached h hi), hquiet, append_nil, ih]

/-! ## Quiet moves -/

variable {κ : Type} {C : Composition κ} {host : Host} {s t : Session}

def Session.history (s : Session) : History := s.instance_.history

/-- A move that chooses no transition and installs no selection. -/
structure CalmMove (C : Composition κ) (s t : Session) : Prop where
  reached : Reached C.definition t.instance_
  grown : s.history <+: t.history
  next : s.instance_.nextOccurrence ≤ t.instance_.nextOccurrence
  chosen : chosen t.instance_.records = chosen s.instance_.records
  durable : t.durable = s.durable ∨ s.history <+: t.durable ∧ t.durable <+: t.history ∧
    Impetus.chosen t.durable.flatten = Impetus.chosen s.instance_.records
  owned : C.joined = false → s.durable = s.history → t.durable = t.history
  state : t.selectionState = s.selectionState
  retired : ∀ id, s.instance_.Retired id → t.instance_.Retired id
  reconciled : s.reconciled = true → t.reconciled = true

/-- A calm move that dispatches nothing. -/
structure QuietMove (C : Composition κ) (s t : Session) : Prop extends CalmMove C s t where
  dispatches : t.dispatches = s.dispatches

def Calm (C : Composition κ) (s t : Session) : Prop :=
  Reached C.definition s.instance_ → CalmMove C s t

def Quiet (C : Composition κ) (s t : Session) : Prop :=
  Reached C.definition s.instance_ → QuietMove C s t

lemma CalmMove.trans {u : Session} (h : CalmMove C s t) (h' : CalmMove C t u) :
    CalmMove C s u where
  reached := h'.reached
  grown := h.grown.trans h'.grown
  next := h.next.trans h'.next
  chosen := h'.chosen.trans h.chosen
  durable := by
    rcases h'.durable with hsame | ⟨hle, hpre, hchosen⟩
    · rw [hsame]
      rcases h.durable with hsame | ⟨hle, hpre, hchosen⟩
      · exact .inl hsame
      · exact .inr ⟨hle, hpre.trans h'.grown, hchosen⟩
    · exact .inr ⟨h.grown.trans hle, hpre, hchosen.trans h.chosen⟩
  owned hjoined hdurable := h'.owned hjoined (h.owned hjoined hdurable)
  state := h'.state.trans h.state
  retired id hid := h'.retired id (h.retired id hid)
  reconciled hs := h'.reconciled (h.reconciled hs)

lemma CalmMove.of_eq (hs : Reached C.definition s.instance_) (hinstance : t.instance_ = s.instance_)
    (hdurable : t.durable = s.durable) (hstate : t.selectionState = s.selectionState)
    (hreconciled : s.reconciled = true → t.reconciled = true) : CalmMove C s t where
  reached := by rw [hinstance]; exact hs
  grown := by rw [Session.history, Session.history, hinstance]
  next := by rw [hinstance]
  chosen := by rw [hinstance]
  durable := .inl hdurable
  owned _ h := by
    rw [Session.history, hinstance, hdurable]
    exact h
  state := hstate
  retired := by rw [hinstance]; exact fun _ hid => hid
  reconciled := hreconciled

lemma Rests.quiet (h : Rests s t) (hs : Reached C.definition s.instance_) : QuietMove C s t where
  toCalmMove := .of_eq hs h.instance_ h.durable h.state h.reconciled
  dispatches := h.dispatches

instance : Std.Refl (Calm C) where
  refl _ hs := .of_eq hs rfl rfl rfl id

instance : IsTrans Session (Calm C) where
  trans _ _ _ h h' hs := (h hs).trans (h' (h hs).reached)

instance : Std.Refl (Quiet C) where
  refl s hs := { toCalmMove := refl_of (Calm C) s hs, dispatches := rfl }

instance : IsTrans Session (Quiet C) where
  trans _ _ _ h h' hs := {
    toCalmMove := (h hs).toCalmMove.trans (h' (h hs).reached).toCalmMove
    dispatches := (h' (h hs).reached).dispatches.trans (h hs).dispatches }

lemma Quiet.calm {ε α : Type} {m : Act Session ε α} (h : Moves (Quiet C) m) :
    Moves (Calm C) m := fun s hs => (h s hs).toCalmMove

section Instance

lemma onInstance_quiet {ε α : Type} {m : Act Instance ε α}
    (h : ∀ i, Reached C.definition i → QuietChain C.definition i (m i).2) :
    Moves (Quiet C) (onInstance C m) := by
  intro s hs
  have hchain := h s.instance_ hs
  have hchosen := QuietChain.chosen hchain hs
  refine {
    reached := hchain.reached hs
    grown := Chain.prefix_history hchain
    next := Chain.nextOccurrence_le hchain
    chosen := hchosen
    durable := ?_
    owned := ?_
    state := rfl
    retired := fun _ hid => Chain.retired hchain hid
    reconciled := id
    dispatches := rfl }
  · cases hjoined : C.joined with
    | true =>
      left
      simp [onInstance, hjoined]
    | false =>
      have hdurable : (onInstance C m s).2.durable = (m s.instance_).2.history := by
        simp [onInstance, hjoined]
      right
      rw [hdurable]
      exact ⟨Chain.prefix_history hchain, prefix_rfl, hchosen⟩
  · intro hjoined _
    simp [onInstance, hjoined, Session.history]

lemma committed_quiet : Moves (Quiet C) (committed C host) := by
  intro s hs
  have hdurable : QuietMove C s { s with durable := s.instance_.history } := {
    reached := hs
    grown := prefix_rfl
    next := le_rfl
    chosen := rfl
    durable := .inr ⟨prefix_rfl, prefix_rfl, rfl⟩
    owned := fun _ _ => rfl
    state := rfl
    retired := fun _ h => h
    reconciled := id
    dispatches := rfl }
  unfold committed
  split_ifs
  · cases host.commit s.instance_.history with
    | acknowledged => exact hdurable
    | refused e => exact refl_of (Quiet C) s hs
    | acknowledgementLost e => exact hdurable
  · exact refl_of (Quiet C) s hs

lemma modify_quiet {f : Session → Session} (h : ∀ s, Rests s (f s)) :
    Moves (Quiet C) (Act.modify f : Driver Unit) := fun s hs => (h s).quiet hs

end Instance

/-! ## The coordinator's quiet parts -/

lemma quiet_follows : Follows C host (Quiet C) where
  books hrests _ hs := hrests.quiet hs
  committed := committed_quiet
  recorded _ _ _ := onInstance_quiet fun _ hi => Op.quiet hi _ (.recordActivityCompletion ..) rfl
  refused _ _ _ := onInstance_quiet fun _ hi => Op.quiet hi _ (.recordActivityFailure ..) rfl
  complete _ _ := onInstance_quiet fun _ hi => Op.quiet hi _ (.complete ..) rfl
  commit _ _ _ := onInstance_quiet fun _ hi => commitCompletion_quiet hi ..
  fail _ _ _ := onInstance_quiet fun _ hi => Op.quiet hi _ (.fail ..) rfl
  wake _ := onInstance_quiet fun _ hi => Op.quiet hi _ (.wake _) rfl

lemma calm_follows : Follows C host (Calm C) :=
  quiet_follows.mono fun h hs => (h hs).toCalmMove

lemma sense_quiet : Moves (Quiet C) (sense host) := by
  unfold sense
  refine Moves.bind Moves.get fun s => ?_
  split_ifs
  · cases host.sensor with
    | none => exact Moves.pure ()
    | some answer =>
      refine Moves.bind (Moves.lift answer) fun parcels => ?_
      cases parcels with
      | none => exact Moves.throw _
      | some parcels =>
        exact modify_quiet fun _ => ⟨rfl, rfl, rfl, rfl, id⟩
  · exact Moves.pure ()

lemma completeAccepted_quiet (a : AcceptedDelivery) :
    Moves (Quiet C) (completeAccepted C host a) := by
  unfold completeAccepted
  refine Moves.bind Moves.get fun s => ?_
  refine Moves.catching (onInstance_quiet fun i hi =>
    Op.quiet hi _ (.completeDelivery ..) rfl) fun e => ?_
  refine Moves.bind Moves.get fun t => ?_
  split_ifs
  · exact Moves.bind committed_quiet fun _ => Moves.throw e
  · exact Moves.throw e

lemma acceptDelivery_quietMove (delivery : Delivery) :
    Moves (Quiet C) (acceptDelivery C host delivery) := by
  unfold acceptDelivery
  refine Moves.bind (modify_quiet fun _ => ⟨rfl, rfl, rfl, rfl, id⟩) fun _ => ?_
  refine Moves.bind Moves.get fun s => ?_
  refine Moves.bind (onInstance_quiet fun i hi =>
    Op.quiet hi _ (.acceptDelivery _) rfl) fun answer => ?_
  cases answer with
  | accepted a =>
    refine Moves.bind Moves.get fun t => ?_
    have hrest : Moves (Quiet C) (completeAccepted C host a >>= fun firing =>
        (pure { firings := [firing] } : Driver Applied)) :=
      Moves.bind (completeAccepted_quiet a) fun _ => Moves.pure _
    split_ifs
    · exact Moves.bind committed_quiet fun _ => hrest
    · exact hrest
  | _ => exact Moves.pure _

section Candidate

variable [LinearOrder κ]

lemma observe_quiet : Moves (Quiet C) (observe C host) := by
  unfold observe
  refine Moves.bind Moves.get fun s => ?_
  refine Moves.bind (quiet_follows.collectArrivals _) fun _ => ?_
  refine Moves.bind offerCandidate_moves fun candidate => ?_
  refine Moves.bind Moves.get fun t => ?_
  refine Moves.bind (Moves.lift _) fun maturation => ?_
  refine Moves.bind sense_quiet fun _ => ?_
  exact Moves.bind Moves.get fun u => Moves.pure _

end Candidate

/-! ## Reconciling dispatches, and is calm -/

lemma dispatchOccurrence_calm (o : FiringOccurrence) (invocation : ActivityInvocation Json) :
    Moves (Calm C) (dispatchOccurrence host o invocation) := by
  unfold dispatchOccurrence
  refine Moves.bind (fun s hs => .of_eq hs rfl rfl rfl id) fun _ => ?_
  cases host.dispatch o.id invocation with
  | none => exact Moves.pure ()
  | some e => exact Moves.throw e

/-! ## The engine's quiet doors -/

lemma cancelClosure_quiet (cancelled : List Nat) (historyPosition : Nat) :
    Moves (Quiet C) (cancelClosure C host cancelled historyPosition) := by
  unfold cancelClosure
  refine Moves.bind Moves.get fun s => ?_
  refine Moves.forEach fun id _ => ?_
  cases s.instance_.cancelled.get? id with
  | none => exact Moves.throw _
  | some o =>
    dsimp only
    cases o.invocation with
    | none => exact Moves.pure ()
    | some invocation => exact quiet_follows.cancelOccurrence o invocation historyPosition

lemma acceptIdentified_quiet (source : Destination) (tokens : List SuppliedToken)
    (identity : String) (scope : Option ScopeTarget) :
    Moves (Quiet C) (acceptIdentified C host source tokens identity scope) := by
  unfold acceptIdentified
  refine Moves.bind Moves.get fun s => ?_
  refine Moves.bind (onInstance_quiet fun i hi =>
    Op.quiet hi _ (.acceptDelivery _) rfl) fun answer => ?_
  refine Moves.bind Moves.get fun t => ?_
  split_ifs
  · exact Moves.bind committed_quiet fun _ => Moves.pure answer
  · exact Moves.pure answer

lemma requireScopeCancellation_quiet (scope : LifecycleScope) :
    Moves (Quiet C) (requireScopeCancellation C scope) := by
  unfold requireScopeCancellation
  exact Moves.bind Moves.get fun s => Moves.lift _

lemma closeScope_quietMove (scope : LifecycleScope) :
    Moves (Quiet C) (closeScope C host scope) := by
  unfold closeScope
  refine Moves.bind (requireScopeCancellation_quiet scope) fun _ => ?_
  refine Moves.bind Moves.get fun s => ?_
  refine Moves.bind (onInstance_quiet fun i hi =>
    Op.quiet hi _ (.closeScope ..) rfl) fun closure => ?_
  refine Moves.bind Moves.get fun t => ?_
  refine Moves.bind committed_quiet fun _ => ?_
  exact Moves.bind (cancelClosure_quiet _ _) fun _ => committed_quiet

lemma resetScope_quietMove (scope : LifecycleScope) :
    Moves (Quiet C) (resetScope C host scope) := by
  unfold resetScope
  refine Moves.bind (requireScopeCancellation_quiet scope) fun _ => ?_
  refine Moves.bind Moves.get fun s => ?_
  refine Moves.bind (onInstance_quiet fun i hi => Op.quiet hi _ (.resetScope ..) rfl) fun _ => ?_
  refine Moves.bind Moves.get fun t => ?_
  refine Moves.bind committed_quiet fun _ => ?_
  exact Moves.bind (cancelClosure_quiet _ _) fun _ => committed_quiet

lemma Op.run_quiet [LinearOrder κ] {op : Op} (h : op ≠ .advance) :
    Moves (Quiet C) (op.run C host) := by
  cases op with
  | advance => exact absurd rfl h
  | deliver source tokens identity scope =>
    refine Moves.bind (acceptIdentified_quiet source tokens identity scope) fun answer => ?_
    cases answer with
    | accepted a => exact Moves.bind (completeAccepted_quiet a) fun _ => committed_quiet
    | _ => exact Moves.pure ()
  | acceptDelivery source tokens identity scope =>
    exact Moves.bind (acceptIdentified_quiet source tokens identity scope) fun _ => Moves.pure ()
  | completeDelivery a => exact Moves.bind (completeAccepted_quiet a) fun _ => committed_quiet
  | openScope name =>
    refine Moves.bind Moves.get fun s => ?_
    exact Moves.bind (onInstance_quiet fun i hi => Op.quiet hi _ (.openScope ..) rfl) fun _ =>
      committed_quiet
  | closeScope scope => exact closeScope_quietMove scope
  | resetScope scope => exact resetScope_quietMove scope
  | sealSource source =>
    refine Moves.bind Moves.get fun s => ?_
    exact Moves.bind (onInstance_quiet fun i hi => Op.quiet hi _ (.sealSource ..) rfl) fun _ =>
      committed_quiet

/-! ## Loading a cut history -/

section

lemma Reached.first_batch (h : Reached D i) {r : CandidateSelected} {batch : List Record}
    {rest : History} : i.history ≠ (.candidateSelected r :: batch) :: rest := by
  intro hhistory
  obtain ⟨created, others, hconstructed⟩ := h.constructed
  have hrecords := hconstructed.records
  rw [Instance.records, hhistory] at hrecords
  cases hrecords

lemma Reached.of_cut (h : Reached D i) {history : History} (hleads : history <+: i.history)
    {batches : Nat} {torn : Bool} (hne : cut history batches torn ≠ []) :
    ∃ j, Reached D j ∧ j.history = cut history batches torn := by
  have hfirst : ∀ n, history.take n <+: i.history := fun n => by
    have htaken := take_prefix n history
    exact htaken.trans hleads
  have htake := hfirst batches
  unfold cut at hne ⊢
  split at hne
  · rename_i r batch hbatch
    obtain ⟨hlt, hget⟩ := List.getElem?_eq_some_iff.mp hbatch
    have hnext : history.take batches ++ [.candidateSelected r :: batch] <+: i.history := by
      rw [← hget, take_append_getElem]
      exact hfirst _
    by_cases hempty : history.take batches = []
    · rw [hempty] at hnext
      obtain ⟨rest, hrest⟩ := hnext
      exact absurd hrest.symm (Reached.first_batch h)
    · exact h.orphan hnext hempty
  · rw [append_nil] at hne ⊢
    exact h.of_leading htake hne

/-- A session as its coordinator was created: over an instance whose whole history is durable. -/
structure Fresh (C : Composition κ) (s : Session) : Prop where
  reached : Reached C.definition s.instance_
  durable : s.durable = s.history
  state : foldHistory C.selection none s.instance_.records = .ok s.selectionState
  dispatched : s.dispatched = s.instance_.activityOccurrences
  reconciled : s.reconciled = false
  cancellable : C.cancellable = true ∨ ∀ o ∈ s.instance_.cancelled.values, o.invocation = none
  arrived : s.arrived = []
  deliveries : s.deliveries = []
  calls : s.calls = []
  collected : s.collected = []
  answered : s.answered = []

lemma Session.open_returned (h : Session.open C i = .ok s) :
    s.instance_ = i ∧ (Reached C.definition i → Fresh C s) := by
  obtain ⟨coordinator, hcreate, h⟩ := bind_eq_ok.mp h
  obtain ⟨state, hstate, hcreate⟩ := bind_eq_ok.mp hcreate
  obtain ⟨_, hcancellable, hcreate⟩ := bind_eq_ok.mp hcreate
  cases hcreate
  cases h
  exact ⟨rfl, fun hreached =>
    ⟨hreached, rfl, hstate, rfl, rfl, require_eq_ok.mp hcancellable, rfl, rfl, rfl, rfl, rfl⟩⟩

lemma load_fresh {history : History} (hi : Reached C.definition i)
    (hleads : history <+: i.history) {batches : Nat} {torn : Bool}
    (h : load C (cut history batches torn) = .ok s) :
    Fresh C s ∧ s.history = cut history batches torn := by
  obtain ⟨resumed, hresume, hopen⟩ := bind_eq_ok.mp h
  have hhistory := resume_history hresume
  have hne : cut history batches torn ≠ [] := by
    intro hempty
    rw [hempty] at hresume
    cases hresume
  obtain ⟨j, hj, hcut⟩ := Reached.of_cut hi hleads hne
  rw [← hcut] at hresume
  obtain ⟨hinstance, hfresh⟩ := Session.open_returned hopen
  refine ⟨hfresh (hj.of_resume hresume).1, ?_⟩
  rw [Session.history, hinstance, hhistory]

end

end Petrus.Engine
