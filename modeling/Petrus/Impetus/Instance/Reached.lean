import Petrus.Impetus.Instance.Live

/-!
# Reached states

The state the constructor leaves, and the states commits reach from it. A resumed
instance keeps its active scopes and its ended outcomes in another order, so
reordering those two tables is a step of its own.
-/

namespace Petrus.Impetus

open Lib List Dict

/-! ## Construction -/

def Instance.initial (D : Definition) (m : Marking) (instanceId : String) (instant : Instant) :
    Instance where
  instanceId := instanceId
  history := [initialRecords D.net m instanceId instant]
  watermark := instant
  armed := Dict.ofList (D.net.sourceTransitions.map fun source => (source, ["default"]))
  queues := depositAll none instant Dict.empty 1 m.queues.entries
  nextOccurrence := 1
  nextEntry := 1 + tokenCount m
  inFlight := Dict.empty
  activityOccurrences := Dict.empty
  cancelled := Dict.empty
  frozenResults := Dict.empty
  terminalActivity := Dict.empty
  quarantinedActivity := Dict.empty
  acceptedIdentities := Dict.empty
  activeScopes := Dict.empty
  scopeGenerations := Dict.empty

lemma foldl_max_range' (n k : Nat) : (List.range' 1 k).foldl max n = max n k := by
  induction k with
  | zero => simp
  | succ k ih =>
    rw [range'_1_concat, foldl_append, ih]
    simp only [foldl_cons, foldl_nil]
    omega

lemma nextQueueIdentity_range {queues : Queues} {k : Nat}
    (h : (queues.all.map Entry.identity).Perm (List.range' 1 k)) :
    nextQueueIdentity queues = k + 1 := by
  unfold nextQueueIdentity
  rw [h.foldl_eq, foldl_max_range']
  simp

lemma foldlM_initialized (queues : Queues) {k : Nat} (effects : List Selection)
    (h : (queues.all.map Entry.identity).Perm (List.range' 1 k)) (instant : Instant) :
    (effects.map fun e => Record.tokensInitialized
      { place := e.1, tokens := e.2, instant }).foldlM
        (fun queues record => applyMovement queues record) queues =
      .ok (depositAll none instant queues (1 + k) effects) := by
  induction effects generalizing queues k with
  | nil => rfl
  | cons effect effects ih =>
    have hb : queues.Below (1 + k) := by
      intro e he
      have hid := h.mem_iff.mp (mem_map_of_mem (f := Entry.identity) he)
      rw [mem_range'_1] at hid
      exact hid.2
    have hchosen : orElse [] (orElse [] (List.range' (nextQueueIdentity queues) effect.2.length)) =
        List.range' (1 + k) effect.2.length := by
      rw [nextQueueIdentity_range h, Nat.add_comm]
      rfl
    have hstep := deposit_fresh hb hchosen effect.1 none instant
    have hnext : (Queues.all (queues.set effect.1 (queues.at_ effect.1 ++
        minted effect.2 instant (List.range' (1 + k) effect.2.length) none))).map
          Entry.identity |>.Perm (List.range' 1 (k + effect.2.length)) := by
      refine ((Queues.all_deposit queues effect.1 _).map Entry.identity).trans ?_
      rw [map_append, map_identity_minted (length_range' ..), ← range'_append_1 (m := k)]
      exact h.append_right _
    rw [map_cons, foldlM_cons_ok hstep, depositAll, Nat.add_assoc]
    exact ih _ hnext

lemma foldlM_initialRecords (net : Net) (m : Marking) (instanceId : String) (instant : Instant) :
    (initialRecords net m instanceId instant).foldlM
      (fun queues record => applyMovement queues record) Dict.empty =
        .ok (depositAll none instant Dict.empty 1 m.queues.entries) := by
  have htokens := foldlM_initialized Dict.empty (k := 0) m.queues.entries
    (List.Perm.refl _) instant
  unfold initialRecords
  rw [cons_append, foldlM_cons_ok (t := Dict.empty) rfl, foldlM_append_ok htokens]
  apply foldlM_inert
  intro record hrecord
  obtain ⟨source, -, rfl⟩ := mem_map.mp hrecord
  rfl

lemma initialRecords_checked {net : Net} {m : Marking} {instanceId : String} {instant : Instant}
    (hid : instanceId ≠ "") :
    ∀ r ∈ initialRecords net m instanceId instant, r.check = .ok () := by
  intro r hr
  simp only [initialRecords, cons_append, mem_cons, mem_append, mem_map] at hr
  rcases hr with rfl | ⟨e, -, rfl⟩ | ⟨source, -, rfl⟩
  · exact require_true hid
  · simp [Record.check, validateEntries]
  · simp [Record.check, RegistrationFact.check]

/-- What the constructor requires of its arguments. -/
structure Constructible (D : Definition) (m : Marking) (instanceId : String) : Prop where
  identity : instanceId ≠ ""
  colored : ∀ e ∈ m.queues.entries, validateInitialTokens D.net e.1 e.2 = .ok ()

lemma create_eq_ok {D : Definition} {m : Marking} {instanceId : String} {instant : Instant}
    {store : Store} {s : Instance} : Instance.create D m instanceId instant store = .ok s ↔
      Constructible D m instanceId ∧
        store [] (initialRecords D.net m instanceId instant) = none ∧
        s = Instance.initial D m instanceId instant := by
  have hfold := foldlM_initialRecords D.net m instanceId instant
  unfold Instance.create
  rw [require_bind_eq_ok]
  simp only [bind_eq_ok, writerRecords_eq_ok]
  constructor
  · rintro ⟨hid, _, hcolor, initial, ⟨rfl, -⟩, hstore⟩
    split at hstore
    · cases hstore
    · rename_i haccepted
      rw [hfold] at hstore
      cases hstore
      exact ⟨⟨hid, forM_eq_ok.mp hcolor⟩, haccepted, rfl⟩
  · rintro ⟨⟨hid, hcolor⟩, haccepted, rfl⟩
    refine ⟨hid, (), forM_eq_ok.mpr hcolor, _, ⟨rfl, initialRecords_checked hid⟩, ?_⟩
    rw [haccepted, hfold]
    rfl

/-! ## The constructed state is live -/

section Initial

variable {D : Definition} {m : Marking} {instanceId : String} {instant : Instant}

lemma get?_initial_armed (source : NetPath) (keys : List String)
    (h : (Instance.initial D m instanceId instant).armed.get? source = some keys) :
    keys = ["default"] := by
  have hn : ((D.net.sourceTransitions.map fun source => (source, ["default"])).map
      Prod.fst).Nodup := by
    rw [map_map]
    simpa [Function.comp_def] using Net.nodup_sourceTransitions
  change (Dict.ofList _).get? source = some keys at h
  rw [get?_ofList hn] at h
  obtain ⟨_, -, heq⟩ := mem_map.mp (mem_of_lookup h)
  cases heq
  rfl

lemma entries_initial_armed : (Instance.initial D m instanceId instant).armed.entries =
    D.net.sourceTransitions.map fun source => (source, ["default"]) := by
  apply entries_ofList
  rw [map_map]
  simpa [Function.comp_def] using Net.nodup_sourceTransitions

lemma queueLive_initial : QueueLive (Instance.initial D m instanceId instant) := by
  have hmem : ∀ e ∈ (Instance.initial D m instanceId instant).queues.all,
      e ∈ mintedAll none instant 1 m.queues.entries :=
    fun e he => by simpa [Queues.all, Dict.values, Dict.empty] using all_depositAll.mem_iff.mp he
  constructor
  · exact Queues.Distinct.depositAll
      (by simp [Queues.Distinct, Queues.all, Dict.values, Dict.empty])
      (by simp [Queues.Below, Queues.all, Dict.values, Dict.empty])
  · exact Queues.Below.depositAll (by simp [Queues.Below, Queues.all, Dict.values, Dict.empty])
  · intro e he
    have hid := mem_map_of_mem (f := Entry.identity) (hmem e he)
    rw [map_identity_mintedAll, mem_range'_1] at hid
    exact hid.1
  · exact Nat.le_add_right _ _
  · intro e he
    exact (mem_mintedAll (hmem e he)).1.le
  · intro p
    apply pairwise_of_forall_mem_list
    intro a ha b hb
    rw [(mem_mintedAll (hmem a (Queues.mem_all.mpr ⟨p, ha⟩))).1,
      (mem_mintedAll (hmem b (Queues.mem_all.mpr ⟨p, hb⟩))).1]

lemma live_initial : Live D (Instance.initial D m instanceId instant) where
  queue := queueLive_initial
  scope := by
    refine ⟨by simp [Instance.initial], ?_, by simp [Instance.initial]⟩
    intro e he scope hscope
    have hnew : e ∈ mintedAll none instant 1 m.queues.entries := by
      simpa [Queues.all, Dict.values, Dict.empty] using all_depositAll.mem_iff.mp he
    rw [(mem_mintedAll hnew).2] at hscope
    cases hscope
  flight := by constructor <;> simp [Instance.initial]
  armed := by
    constructor
    · rw [Dict.keys, entries_initial_armed, map_map]
      simp [Function.comp_def]
    · intro p
      cases h : (Instance.initial D m instanceId instant).armed.get? p with
      | none => exact nodup_nil
      | some keys =>
        rw [get?_initial_armed p keys h]
        exact nodup_singleton _
  accepted := by constructor <;> simp [Instance.initial]

end Initial

/-! ## Reached states -/

/-- The same state with its active scopes and ended outcomes in another order. -/
def Instance.reorder (s : Instance) (active : Dict String LifecycleScope)
    (terminal : Dict Nat Motus.Outcome) : Instance :=
  { s with activeScopes := active, terminalActivity := terminal }

inductive Reached (D : Definition) : Instance → Prop
  | created {m : Marking} {instanceId : String} {instant : Instant}
      (constructible : Constructible D m instanceId) :
      Reached D (Instance.initial D m instanceId instant)
  | commit {s : Instance} (h : Reached D s) (c : Commit D s)
      (checked : ∀ r ∈ c.batch, r.check = .ok ()) : Reached D c.after
  | reordered {s : Instance} (h : Reached D s) {active : Dict String LifecycleScope}
      {terminal : Dict Nat Motus.Outcome} (hactive : active.Same s.activeScopes)
      (hterminal : terminal.Same s.terminalActivity) : Reached D (s.reorder active terminal)

lemma Live.reorder {D : Definition} {s : Instance} (h : Live D s)
    {active : Dict String LifecycleScope} {terminal : Dict Nat Motus.Outcome}
    (hactive : active.Same s.activeScopes) (hterminal : terminal.Same s.terminalActivity) :
    Live D (s.reorder active terminal) where
  queue := ⟨h.queue.distinct, h.queue.below, h.queue.positive, h.queue.next_pos, h.queue.timed,
    h.queue.sorted⟩
  scope := by
    refine ⟨?_, ?_, ?_⟩
    · intro name scope hname
      exact h.scope.active name scope (by rw [← hactive name]; exact hname)
    · intro e he scope hscope
      exact (hactive scope.name).trans (h.scope.entries e he scope hscope)
    · intro id o ho scope hscope
      exact (hactive scope.name).trans (h.scope.flights id o ho scope hscope)
  flight := by
    refine ⟨h.flight.next_pos, h.flight.flying, h.flight.frozen, h.flight.cancelled, ?_,
      h.flight.quarantined⟩
    intro id outcome hout
    exact h.flight.terminal id outcome (by rw [← hterminal id]; exact hout)
  armed := h.armed
  accepted := ⟨h.accepted.identity, h.accepted.source, h.accepted.occurrence⟩

lemma Reached.live {D : Definition} {s : Instance} (h : Reached D s) : Live D s := by
  induction h with
  | created _ => exact live_initial
  | commit _ c _ ih => exact ih.commit c
  | reordered _ hactive hterminal ih => exact ih.reorder hactive hterminal

lemma Reached.bound {D : Definition} {s : Instance} (h : Reached D s) (id : Nat)
    (o : FiringOccurrence) (ho : s.inFlight.get? id = some o) :
    o.invocation.isSome = D.activityBound o.binding.transition := by
  induction h with
  | created _ => simp [Instance.initial] at ho
  | reordered _ _ _ ih => exact ih ho
  | @commit s _ c _ ih =>
    have herase : ∀ k, (s.inFlight.erase k).get? id = some o → s.inFlight.get? id = some o := by
      intro k hk
      rw [get?_erase] at hk
      split_ifs at hk
      exact hk
    cases c with
    | begun c =>
      change (s.inFlight.set s.nextOccurrence c.occurrence).get? id = some o at ho
      rw [get?_set] at ho
      split_ifs at ho
      · cases ho
        exact Option.isSome_map.trans c.impure
      · exact ih ho
    | completed | failed => exact ih (herase _ ho)
    | closed c => exact ih (get?_filter.mp ho).1
    | _ => exact ih ho

end Petrus.Impetus
