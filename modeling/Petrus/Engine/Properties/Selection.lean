import Petrus.Engine.Selecting
import Petrus.Engine.Quiet
import Petrus.Impetus.Properties.Fidelity

/-!
# The selection state is a function of the history

Along every run of doors, crashes and loads the selection state of a session no door of
which raised is the fold of its durable history, and a session loaded from that history
proposes what it would. After a raise the same holds, unless a joined transaction can make
a begin durable before its selection is installed.
-/

namespace Petrus.Engine

open Lib Motus Impetus List Act

variable {κ : Type} {C : Composition κ} {host : Host} {s t : Session}

lemma Fresh.settled (h : Fresh C s) : Settled C s where
  reached := h.reached
  durable_le := by
    rw [h.durable]
  state := by
    rw [h.durable]
    exact h.state
  owned _ := h.durable
  live := by
    rw [h.durable]
    rfl

/-! ## Runs -/

section Runs

variable [LinearOrder κ]

lemma Op.run_ends (op : Op) (h : Settled C s) : Ends C host s (op.run C host s) := by
  by_cases hadvance : op = .advance
  · subst hadvance
    refine (drive_ends h).then_calm fun outcome t ht => ?_
    have hends : Ends C host s (drive C host s) := drive_ends h
    have hsettled := hends.settled outcome (by rw [ht])
    rw [ht] at hsettled
    exact Moves.pure (R := Calm C) () t hsettled.reached
  · exact Ends.of_calm h (Quiet.calm (Op.run_quiet hadvance) s h.reached)

structure Hosted.Folds (C : Composition κ) (w : Hosted) : Prop where
  grounded : Grounded C w.session
  settled : w.broken = false → Settled C w.session

omit [LinearOrder κ] in
lemma Hosted.Folds.of_fresh (h : Fresh C s) : Hosted.Folds C { session := s } :=
  ⟨h.settled.grounded, fun _ => h.settled⟩

lemma Hosted.Folds.guarded {w : Hosted} (h : w.Folds C) (op : Op) :
    (w.guarded C host op).Folds C := by
  unfold Hosted.guarded
  by_cases hbroken : w.broken = true
  · rw [if_pos hbroken]
    exact h
  · rw [if_neg hbroken]
    have hends : Ends C host w.session (op.run C host w.session) :=
      op.run_ends (h.settled (by simpa using hbroken))
    generalize op.run C host w.session = r at hends
    obtain ⟨x, t⟩ := r
    cases x with
    | ok _ => exact ⟨hends.grounded, fun _ => hends.settled _ rfl⟩
    | error e => exact ⟨hends.grounded, nofun⟩

lemma Hosts.folds {w : Hosted} (h : Hosts (C := C) (fun _ _ _ => True) w) : w.Folds C := by
  induction h with
  | created hcreated hopened =>
    obtain ⟨rfl, hfresh⟩ := Session.open_returned hopened
    exact .of_fresh (hfresh hcreated.reached)
  | door _ host op _ ih => exact ih.guarded op
  | load _ batches torn hloaded ih =>
    exact .of_fresh (load_fresh ih.grounded.reached ih.grounded.durable_le hloaded).1

end Runs

/-! ## Prefixes and restarts -/

lemma foldCommitted_defined {policy : SelectionPolicy κ} {t : NetPath}
    {state next : SelectionState} (h : policy.foldCommitted state t = .ok next)
    (other : SelectionState) : ∃ after, policy.foldCommitted other t = .ok after := by
  induction policy with
  | first | priority => exact ⟨other, rfl⟩
  | roundRobin ring => exact ⟨next, h⟩
  | pipeline filters rankers strategy ih => exact ih h

lemma foldlM_foldCommitted {policy : SelectionPolicy κ} {transitions : List NetPath} :
    (∃ next, transitions.foldlM policy.foldCommitted state = .ok next) ↔
      ∀ t ∈ transitions, ∃ next, policy.foldCommitted none t = .ok next := by
  induction transitions generalizing state with
  | nil => simp [pure, Except.pure]
  | cons t transitions ih =>
    rw [forall_mem_cons]
    constructor
    · intro h
      obtain ⟨next, h⟩ := h
      rw [foldlM_cons] at h
      obtain ⟨first, hfirst, hrest⟩ := bind_eq_ok.mp h
      exact ⟨foldCommitted_defined hfirst none, ih.mp ⟨next, hrest⟩⟩
    · intro h
      obtain ⟨⟨_, ht⟩, hrest⟩ := h
      obtain ⟨first, hfirst⟩ := foldCommitted_defined ht state
      rw [foldlM_cons_ok hfirst]
      exact ih.mpr hrest

lemma chosen_subset {records others : List Record} (h : others <+: records) :
    chosen others ⊆ chosen records := by
  intro t ht
  obtain ⟨r, hr, rfl⟩ := mem_map.mp ht
  obtain ⟨hmem, hbegun⟩ := mem_filter.mp hr
  refine mem_map.mpr ⟨r, mem_filter.mpr ⟨(h.filterMap _).subset hmem, ?_⟩, rfl⟩
  simp only [ne_eq, decide_not, Bool.not_eq_true', decide_eq_false_iff_not] at hbegun ⊢
  intro hnone
  apply hbegun
  have hsub : beginsOf others r.occurrence <+: beginsOf records r.occurrence :=
    (h.filterMap _).filter _
  rw [hnone] at hsub
  exact prefix_nil.mp hsub

lemma Grounded.fold_leading (h : Grounded C s) {records : List Record}
    (hleads : records <+: s.durable.flatten) :
    ∃ state, foldHistory C.selection none records = .ok state := by
  obtain ⟨state, hstate⟩ := h.folds
  have hall : records <+: s.instance_.records := hleads.trans (prefix_flatten h.durable_le)
  rw [foldHistory_eq _ _ h.reached.paired] at hstate
  rw [foldHistory_eq _ _ (h.reached.paired.sublist hall.sublist)]
  have hfold := foldlM_foldCommitted.mp ⟨_, hstate⟩
  exact foldlM_foldCommitted.mpr fun t ht => hfold t (chosen_subset hall ht)

lemma load_state {history : History} (h : load C history = .ok t) :
    foldHistory C.selection none history.flatten = .ok t.selectionState := by
  obtain ⟨i, hresume, hopen⟩ := bind_eq_ok.mp h
  obtain ⟨coordinator, hcreate, hopen⟩ := bind_eq_ok.mp hopen
  obtain ⟨state, hstate, hcreate⟩ := bind_eq_ok.mp hcreate
  obtain ⟨_, -, hcreate⟩ := bind_eq_ok.mp hcreate
  cases hcreate
  cases hopen
  rw [← resume_history hresume]
  exact hstate

section Restart

variable [LinearOrder κ]

lemma offerCandidate_congr
    (henabled : t.instance_.candidates C.definition = s.instance_.candidates C.definition)
    (hstate : t.selectionState = s.selectionState) :
    (offerCandidate C t).1 = (offerCandidate C s).1 := by
  unfold offerCandidate
  rw [get_bind_apply, get_bind_apply, henabled, hstate]
  cases s.instance_.candidates C.definition with
  | error e => rfl
  | ok enabled =>
    have hlift : ∀ u : Session, Act.lift (.ok enabled : Except Exc _) u = (.ok enabled, u) :=
      fun _ => rfl
    rw [bind_ok_apply (hlift t), bind_ok_apply (hlift s)]
    split_ifs
    · rfl
    · cases C.selection.propose enabled s.selectionState with
      | error e => rfl
      | ok proposed =>
        cases proposed with
        | none => rfl
        | some proposal =>
          change ((Act.lift (require _ _) >>= fun _ => Act.lift (require _ _) >>= fun _ =>
              (pure _ : Driver (List Action))) t).1 =
            ((Act.lift (require _ _) >>= fun _ => Act.lift (require _ _) >>= fun _ =>
              (pure _ : Driver (List Action))) s).1
          generalize require (enabled.any _ = true) _ = offered
          generalize require (proposal.priorState = s.selectionState) _ = carried
          cases offered <;> cases carried <;> rfl

lemma Settled.restart (h : Settled C s) (hload : load C s.history = .ok t) :
    (offerCandidate C t).1 = (offerCandidate C s).1 := by
  have hstate : t.selectionState = s.selectionState := by
    have hloaded := load_state hload
    rw [show s.history.flatten = s.instance_.records from rfl, h.fold_records] at hloaded
    exact (Except.ok.inj hloaded).symm
  obtain ⟨i, hresume, hopen⟩ := bind_eq_ok.mp hload
  obtain ⟨rfl, -⟩ := Session.open_returned hopen
  obtain ⟨-, active, terminal, -, -, hreorder⟩ := h.reached.of_resume hresume
  have henabled : t.instance_.candidates C.definition = s.instance_.candidates C.definition := by
    rw [hreorder]
    rfl
  exact offerCandidate_congr henabled hstate

/-- Along every run every record prefix of the durable history folds to what a session loaded from
it holds. While no door has raised the live state is the fold of the durable history, a session
loaded from it offers the same candidate, and a door that begins no scheduled firing, a begin that
raises among them, leaves the state. Nor does the state of a door that raised differ from the fold
where joined transactions are safe. -/
theorem selection_state_folds_history {w : Hosted} (h : Hosts (C := C) (fun _ _ _ => True) w) :
    (∀ history : History, history.flatten <+: w.session.durable.flatten →
      ∃ state, foldHistory C.selection none history.flatten = .ok state ∧
        ∀ t, load C history = .ok t → t.selectionState = state) ∧
    (w.broken = false →
      foldHistory C.selection none w.session.durable.flatten = .ok w.session.selectionState ∧
      (∀ t, load C w.session.history = .ok t →
        (offerCandidate C t).1 = (offerCandidate C w.session).1) ∧
      ∀ (host : Host) (op : Op),
        (chosen (op.run C host w.session).2.instance_.records =
            chosen w.session.instance_.records →
          (op.run C host w.session).2.selectionState = w.session.selectionState) ∧
        ((C.joined = true → Safe C host w.session) →
          foldHistory C.selection none (op.run C host w.session).2.durable.flatten =
            .ok (op.run C host w.session).2.selectionState)) := by
  have hfolds := h.folds
  refine ⟨?_, ?_⟩
  · intro history hleads
    obtain ⟨state, hstate⟩ := hfolds.grounded.fold_leading hleads
    refine ⟨state, hstate, ?_⟩
    intro t hload
    have hloaded := load_state hload
    rw [hstate] at hloaded
    cases hloaded
    rfl
  · intro hwhole
    have hsettled := hfolds.settled hwhole
    refine ⟨hsettled.state, fun t hload => hsettled.restart hload, ?_⟩
    intro host op
    have hends : Ends C host w.session (op.run C host w.session) := op.run_ends hsettled
    exact ⟨hends.still, fun hsafe => (hends.faithful hsafe).state⟩

end Restart

/-! ## A valve -/

def valveNet : Net where
  places := [{ path := nodeP }]
  transitions := [{ path := nodeS, handler := some .anonymous },
    { path := nodeT, handler := some .anonymous }]
  arcs := [
    ⟨nodeP, nodeS, .consume, 1, none, none, Arc.weight_one⟩,
    ⟨nodeP, nodeT, .consume, 1, none, none, Arc.weight_one⟩]
  valid := by decide

/-- The valve, its handlers answering `answer`, in a joined transaction. -/
def valve (answer : Projected) : Composition Nat where
  definition := {
    net := valveNet
    handlers := fun _ => .plain fun _ _ => answer
    guards := fun _ _ _ => .ok true
    filters := fun _ _ => .ok true
    scheduler := selectConservative
    sourcePlain := fun _ _ _ _ => rfl }
  policy := fun snapshot => .ok (snapshot.actions.headD .stop)
  selection := .roundRobin ⟨[nodeS, nodeT], by decide, by decide⟩
  joined := true
  cancellable := false

def valveMarking : Marking :=
  Marking.ofDict (Dict.ofList [(nodeP, [⟨none, .str "x"⟩, ⟨none, .str "y"⟩])])

def valveStart (answer : Projected) : Instance :=
  Instance.initial (valve answer).definition valveMarking "i" 0

/-- The first batch is acknowledged, what follows meets `fate`. -/
def valveHost (fate : CommitFate) : Host where
  store := storesAll
  now := fun _ => 0
  observe := fun _ => none
  collect := .ok []
  dispatch := fun _ _ => none
  cancel := fun _ => .error (valueError "unreachable")
  sensor := none
  commit := fun history => if history.length = 1 then .acknowledged else fate

def valveSession (answer : Projected) : Session where
  instance_ := valveStart answer
  selectionState := none
  dispatched := Dict.empty
  durable := (valveStart answer).history

lemma valve_created (answer : Projected) : Created (valve answer).definition (valveStart answer) :=
  ⟨valveMarking, "i", 0, storesAll,
    create_eq_ok.mpr ⟨⟨by decide, show ∀ e ∈ valveMarking.queues.entries,
      validateInitialTokens valveNet e.1 e.2 = .ok () from by decide⟩, rfl, rfl⟩⟩

lemma valve_opened (answer : Projected) :
    Session.open (valve answer) (valveStart answer) = .ok (valveSession answer) := rfl

def valveDriven (fate : CommitFate) (answer : Projected) : Hosted :=
  Hosted.guarded (valve answer) (valveHost fate) { session := valveSession answer } .advance

lemma valve_hosts (fate : CommitFate) (answer : Projected) :
    Hosts (C := valve answer) (fun _ _ _ => True) (valveDriven fate answer) :=
  .door (.created (valve_created answer) (valve_opened answer)) (valveHost fate) .advance
    fun _ => trivial

/-- The begin is durable, the live state is that before the begin, and the fold of the durable
history is the one after it. -/
def Forgotten (fate : CommitFate) (answer : Projected) : Prop :=
  Hosts (C := valve answer) (fun _ _ _ => True) (valveDriven fate answer) ∧
    foldHistory (valve answer).selection none (valveDriven fate answer).session.durable.flatten =
      .ok (some 1) ∧
    (valveDriven fate answer).session.selectionState = none

/-- The handler raises, or the acknowledgement of the commit is lost. -/
theorem joined_failure_forgets_selection :
    Forgotten .acknowledged (.error (valueError "stuck")) ∧
      Forgotten (.acknowledgementLost (runtimeError "acknowledgement lost")) (.ok (some {})) :=
  ⟨⟨valve_hosts _ _, by decide +kernel, by decide +kernel⟩,
    ⟨valve_hosts _ _, by decide +kernel, by decide +kernel⟩⟩

/-- A second drive of the valve, whose commit is refused. -/
def valveRefused : Except Exc Unit × Session :=
  Op.run (valve (.ok (some {}))) (valveHost (.refused (runtimeError "down"))) .advance
    (valveDriven .acknowledged (.ok (some {}))).session

/-- The empty result of a handler is always taken. -/
lemma valve_safe (e : Exc) (s : Session) :
    Safe (valve (.ok (some {}))) (valveHost (.refused e)) s where
  heard history e' h := by
    simp only [valveHost] at h
    split_ifs at h
  ends i o hi _ hflight hmem hpure := by
    have hid : 1 ≤ o.id := (hi.live.flight.flying _ _ hflight).2.1
    have hwritten (instant : Instant) :=
      writerRecords_eq_ok.mpr ⟨rfl, fun r (hr : r ∈ [Record.firingCompleted
        ⟨o.binding.transition, o.id, instant⟩]) => by
          rw [mem_singleton.mp hr]
          exact require_true hid⟩
    have hbound : (valve (.ok (some {}))).definition.boundHandler o.binding.transition =
        .plain fun _ _ => .ok (some {}) := by
      rcases mem_pair.mp hmem with heq | heq
      · rw [heq]
        rfl
      · rw [heq]
        rfl
    obtain ⟨plan, hplan⟩ : ∃ plan, completionPlan (valve (.ok (some {}))).definition o (some {})
        (some 0) i = .ok plan := by
      have hprojection : projection (valve (.ok (some {}))).definition i o (some {}) = .ok {} := by
        unfold projection
        rw [hpure]
        rfl
      unfold completionPlan
      rw [ensureInFlight_eq_ok.mpr ⟨o, hflight, o.equals_self⟩, ok_bind, hprojection, ok_bind]
      exact ⟨_, bind_eq_ok.mpr ⟨⟨i.armed, [], []⟩, rfl, bind_eq_ok.mpr ⟨[], rfl,
        bind_eq_ok.mpr ⟨_, hwritten _, rfl⟩⟩⟩⟩
    exact ⟨_, some {}, plan, hbound, rfl, hplan⟩

/-- A handler that returns: the begin, its completion and the selection become durable together, and
the next begin, whose commit is refused, leaves the state the fold of the durable history. -/
theorem selection_state_folds_history_valve :
    (valveDriven .acknowledged (.ok (some {}))).broken = false ∧
      chosen valveRefused.2.instance_.records = [nodeS, nodeT] ∧
      valveRefused.2.selectionState = some 1 ∧
      foldHistory (valve (.ok (some {}))).selection none valveRefused.2.durable.flatten =
        .ok valveRefused.2.selectionState := by
  have hwhole : (valveDriven .acknowledged (.ok (some {}))).broken = false := by decide +kernel
  obtain ⟨-, -, hdoors⟩ := (selection_state_folds_history (valve_hosts _ _)).2 hwhole
  exact ⟨hwhole, by decide +kernel, by decide +kernel,
    (hdoors _ .advance).2 fun _ => valve_safe _ _⟩

end Petrus.Engine
