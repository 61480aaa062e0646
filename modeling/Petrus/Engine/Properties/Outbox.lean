import Petrus.Engine.Dispatching
import Petrus.Engine.Properties.Selection

/-!
# Reconciling a loaded history is a faithful outbox

However the history of a hosted session was cut, a coordinator loaded from it pays
what it owes the dispatch before anything else moves: a fence for each cancelled
request, and each request still open, once, as recorded. In its whole life it
dispatches no occurrence twice, and none that was cancelled or frozen.
-/

namespace Petrus.Engine

open Lib Motus Impetus List Dict

variable {κ : Type} {C : Composition κ} {s t : Session}
variable {positions : Dict Nat Nat} {o : FiringOccurrence} {i : Instance} {id : Nat}

lemma mem_fenceCall {call : Call} (h : call ∈ fenceCall positions o) : call.dispatched? = none := by
  unfold fenceCall at h
  split at h
  · obtain rfl := mem_singleton.mp h
    rfl
  · cases h

lemma outbox_dispatched (positions : Dict Nat Nat) (i : Instance) :
    (outbox positions i).filterMap Call.dispatched? =
      (requestCalls i).filterMap Call.dispatched? := by
  have hfences : (i.cancelled.values.flatMap (fenceCall positions)).filterMap
      Call.dispatched? = [] := by
    rw [filterMap_eq_nil_iff]
    intro call hcall
    obtain ⟨o, -, ho⟩ := mem_flatMap.mp hcall
    exact mem_fenceCall ho
  rw [outbox, filterMap_append, hfences, nil_append]

lemma mem_projectionPending (hl : FlightLive i) (ho : i.inFlight.get? id = some o) :
    id ∈ i.projectionPending.map FiringOccurrence.id ↔ i.frozenResults.get? id ≠ none := by
  have hid := (hl.flying id o ho).1
  constructor
  · intro hmem
    obtain ⟨o', ho', heq⟩ := mem_map.mp hmem
    obtain ⟨outcome, houtcome⟩ := contains_iff_get?.mp (mem_filter.mp ho').2
    rw [← heq, houtcome]
    simp
  · intro hne
    obtain ⟨outcome, houtcome⟩ := Option.ne_none_iff_exists'.mp hne
    rw [← hid]
    refine mem_map_of_mem (mem_filter.mpr ⟨mem_values.mpr ⟨id, ho⟩, ?_⟩)
    rw [hid]
    exact contains_iff_get?.mpr ⟨outcome, houtcome⟩

lemma mem_outbox_dispatch (hl : FlightLive i) {invocation : ActivityInvocation Json} :
    .dispatch id invocation ∈ outbox positions i ↔
      ∃ o, i.inFlight.get? id = some o ∧ o.invocation = some invocation ∧
        i.frozenResults.get? id = none := by
  rw [outbox, mem_append]
  constructor
  · intro h
    rcases h with h | h
    · obtain ⟨o, -, ho⟩ := mem_flatMap.mp h
      cases mem_fenceCall ho
    · obtain ⟨o, hmem, ho⟩ := mem_flatMap.mp h
      unfold requestCall at ho
      cases hinvocation : o.invocation with
      | none =>
        rw [hinvocation] at ho
        cases ho
      | some i' =>
        rw [hinvocation] at ho
        dsimp only at ho
        split_ifs at ho with hpending
        · cases ho
        · cases mem_singleton.mp ho
          obtain ⟨id, hget⟩ := mem_values.mp hmem
          obtain ⟨rfl, -⟩ := hl.flying id o hget
          refine ⟨o, hget, hinvocation, ?_⟩
          rw [mem_projectionPending hl hget, not_not] at hpending
          exact hpending
  · intro h
    obtain ⟨o, hget, hinvocation, hopen⟩ := h
    right
    have hid := (hl.flying id o hget).1
    refine mem_flatMap.mpr ⟨o, mem_values.mpr ⟨id, hget⟩, ?_⟩
    have hpending : o.id ∉ i.projectionPending.map FiringOccurrence.id := by
      rw [hid, mem_projectionPending hl hget, not_not]
      exact hopen
    unfold requestCall
    rw [hinvocation]
    dsimp only
    rw [if_neg hpending, hid]
    exact mem_singleton_self _

lemma mem_outbox_cancel (hl : FlightLive i) {p : Nat} {invocation : ActivityInvocation Json}
    (hget : i.cancelled.get? id = some o) (hinvocation : o.invocation = some invocation)
    (hp : positions.get? id = some p) : .cancel id invocation p ∈ outbox positions i := by
  have hid := (hl.cancelled id o hget).1
  rw [outbox, mem_append]
  left
  refine mem_flatMap.mpr ⟨o, mem_values.mpr ⟨id, hget⟩, ?_⟩
  unfold fenceCall
  rw [hinvocation, hid, hp]
  exact mem_singleton_self _

section Property

variable [LinearOrder κ]

/-- What a loaded session owes its dispatch, and that its first drive pays it first. -/
structure Reconciles (C : Composition κ) (s : Session) (positions : Dict Nat Nat) : Prop where
  first : ∀ host, drive C host s =
    (publish C host >>= afterOutbox C host) { s with reconciled := true }
  asks : ∀ host, Asks host (outbox positions s.instance_) { s with reconciled := true }
    (publish C host { s with reconciled := true })
  dispatched : ∀ id invocation, .dispatch id invocation ∈ outbox positions s.instance_ ↔
    ∃ o, s.instance_.inFlight.get? id = some o ∧ o.invocation = some invocation ∧
      s.instance_.frozenResults.get? id = none
  once : ((outbox positions s.instance_).filterMap Call.dispatched?).Nodup
  requested : ∀ id invocation, .dispatch id invocation ∈ outbox positions s.instance_ →
    ∃ r, .activityRequested r ∈ s.instance_.records ∧ r.occurrence = id ∧
      r.invocation = .ok invocation ∧
      ∀ r', .activityRequested r' ∈ s.instance_.records → r'.occurrence = id → r' = r
  fenced : ∀ id o invocation, s.instance_.cancelled.get? id = some o →
    o.invocation = some invocation → ∃ n r scope ids,
      .cancel id invocation (n + 1) ∈ outbox positions s.instance_ ∧
        s.instance_.records[n]? = some r ∧ r.closure? = some (scope, ids) ∧ id ∈ ids

lemma Fresh.reconciles (h : Fresh C s)
    (hfences : Fences s.instance_ positions)
    (hasks : ∀ host, Asks host (outbox positions s.instance_) { s with reconciled := true }
      (publish C host { s with reconciled := true })) : Reconciles C s positions where
  first _ := drive_first h.reconciled
  asks := hasks
  dispatched _ _ := mem_outbox_dispatch h.reached.live.flight
  once := by
    rw [outbox_dispatched]
    exact requestCalls_nodup h.reached.live.flight
  requested := by
    intro id invocation hmem
    obtain ⟨o, hget, hinvocation, -⟩ := (mem_outbox_dispatch h.reached.live.flight).mp hmem
    have hactivity := h.reached.activity (.inl hget) (by rw [hinvocation]; simp)
    obtain ⟨r, i, hr, hoccurrence, hi, hsome, hunique⟩ := h.reached.request hactivity
    rw [hinvocation] at hsome
    cases hsome
    exact ⟨r, hr, hoccurrence, hi, hunique⟩
  fenced := by
    intro id o invocation hget hinvocation
    obtain ⟨p, hp⟩ := (hfences.keys id).mpr ⟨o, hget⟩
    obtain ⟨n, r, scope, ids, rfl, hr, hclosure, hmem⟩ := hfences.closed id p hp
    exact ⟨n, r, scope, ids, mem_outbox_cancel h.reached.live.flight hget hinvocation hp, hr,
      hclosure, hmem⟩

/-- A history the doors of an instance have appended, or an engine has made durable. -/
def Recorded (C : Composition κ) (history : History) : Prop :=
  (∃ i, Reachable C.definition i ∧ i.history = history) ∨
    ∃ (allowed : Host → Session → Op → Prop) (w : Hosted),
      Hosts (C := C) allowed w ∧ w.session.durable = history

lemma Recorded.reached {history : History} (h : Recorded C history) :
    ∃ i, Reached C.definition i ∧ history <+: i.history := by
  rcases h with ⟨i, hi, rfl⟩ | ⟨allowed, w, hw, rfl⟩
  · exact ⟨i, hi.reached, prefix_rfl⟩
  · exact ⟨w.session.instance_, hw.sound⟩

/-- Loaded from any cut of any recorded history, a coordinator reconciles as a faithful outbox, and
over its whole life dispatches no occurrence twice and none cancelled or frozen at the load. -/
theorem reconciliation_is_outbox {history : History} (h : Recorded C history) {batches : Nat}
    {torn : Bool} (hload : load C (cut history batches torn) = .ok s) :
    (∃ positions, cancellationPositions s.instance_.records = .ok positions ∧
      Reconciles C s positions) ∧
    ∀ t, Lifetime C s t → t.dispatches.Nodup ∧ ∀ id ∈ t.dispatches,
      s.instance_.cancelled.get? id = none ∧ s.instance_.frozenResults.get? id = none := by
  obtain ⟨i, hreached, hle⟩ := h.reached
  obtain ⟨hfresh, -⟩ := load_fresh hreached hle hload
  refine ⟨?_, ?_⟩
  · obtain ⟨positions, hpositions, hfences⟩ := Reached.cancellationPositions hfresh.reached
    refine ⟨positions, hpositions, hfresh.reconciles hfences ?_⟩
    intro host
    obtain ⟨positions', hpositions', -, hasks⟩ :=
      @publish_asks κ C host { s with reconciled := true } hfresh.reached hfresh.cancellable
    rw [hpositions] at hpositions'
    cases hpositions'
    exact hasks
  · intro t hlife
    have haged := hlife.aged hfresh
    refine ⟨haged.ledger.nodup, ?_⟩
    intro id hid
    have hlive := hfresh.reached.live.flight
    have hnot : ¬s.instance_.Retired id := fun hretired => haged.kept_out id hretired hid
    constructor
    · cases hget : s.instance_.cancelled.get? id with
      | none => rfl
      | some o =>
        obtain ⟨-, hlt, habsent⟩ := hlive.cancelled id o hget
        refine absurd ⟨hlt, ?_⟩ hnot
        intro o' ho'
        rw [habsent] at ho'
        cases ho'
    · cases hget : s.instance_.frozenResults.get? id with
      | none => rfl
      | some outcome =>
        obtain ⟨o, ho, -⟩ := hlive.frozen id outcome hget
        exact absurd ⟨(hlive.flying id o ho).2.2, fun _ _ => ⟨outcome, hget⟩⟩ hnot

end Property

/-! ## A pump -/

lemma pump_activity_ne : "pump" ≠ "" := by decide

def pumpInvocation {ι : Type} (input : ι) : ActivityInvocation ι where
  activity := "pump"
  input := input
  policy := ExecutionPolicy.standard
  activity_ne := pump_activity_ne
  correlation_ne := none_ne_empty
  idempotency_ne := none_ne_empty

def pump : Composition Nat where
  definition := {
    net := valveNet
    handlers := fun _ => .activity {
      prepare := fun _ => .ok (some (pumpInvocation (.faithful (.str "x"))))
      project := fun _ _ => .ok none }
    guards := fun _ _ _ => .ok true
    filters := fun _ _ => .ok true
    scheduler := selectConservative
    sourcePlain := by decide }
  policy := fun snapshot => .ok (snapshot.actions.headD .stop)
  selection := .first
  joined := false
  cancellable := false

def pumpStart : Instance := Instance.initial pump.definition valveMarking "i" 0

def pumpSession : Session where
  instance_ := pumpStart
  selectionState := none
  dispatched := Dict.empty
  durable := pumpStart.history

def pumpDriven : Hosted :=
  Hosted.guarded pump (valveHost .acknowledged) { session := pumpSession } .advance

lemma pump_recorded : Recorded pump pumpDriven.session.durable := by
  refine .inr ⟨fun _ _ _ => True, pumpDriven, ?_, rfl⟩
  refine .door (.created (i := pumpStart) (s := pumpSession) ?_ rfl)
    (valveHost .acknowledged) .advance
    fun _ => trivial
  exact ⟨valveMarking, "i", 0, storesAll,
    create_eq_ok.mpr ⟨⟨by decide, show ∀ e ∈ valveMarking.queues.entries,
      validateInitialTokens valveNet e.1 e.2 = .ok () from by decide⟩, rfl, rfl⟩⟩

/-- Loaded after its begin, the pump owes the dispatch the recorded request. -/
theorem reconciliation_is_outbox_pump : ∃ s, load pump (cut pumpDriven.session.durable 2 false) =
      .ok s ∧ s.instance_.inFlight.keys = [1] ∧
    ∃ positions, cancellationPositions s.instance_.records = .ok positions ∧
      Reconciles pump s positions := by
  cases hload : load pump (cut pumpDriven.session.durable 2 false) with
  | error e =>
    have hloads : (load pump (cut pumpDriven.session.durable 2 false)).toOption.isSome = true := by
      decide +kernel
    rw [hload] at hloads
    cases hloads
  | ok s =>
    have hkeys : ((load pump (cut pumpDriven.session.durable 2 false)).toOption.map
        fun s => s.instance_.inFlight.keys) = some [1] := by decide +kernel
    rw [hload] at hkeys
    exact ⟨s, rfl, Option.some.inj hkeys, (reconciliation_is_outbox pump_recorded hload).1⟩

end Petrus.Engine
