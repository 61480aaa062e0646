import Petrus.Impetus.Deposits.Movement

/-!
# The observed net document

The marking after every history record, as an observer publishes it, and the check
a portable document makes of it. A lineage of observed markings passes the check
exactly when every deposit of its records is portable.
-/

namespace Petrus.Impetus

open Lib List

variable {net : Net} {P : NetPath → Token → Prop}

/-- The nonempty token queue of one place in a portable sparse marking. -/
structure PlaceMarking where
  place : String
  tokens : List Token
  deriving DecidableEq

def observedMarking (m : Marking) : List PlaceMarking :=
  (m.queues.entries.insertionSort fun a b => a.1.str ≤ b.1.str).map fun e => ⟨e.1.str, e.2⟩

def queueStates : QueueFold → List Record → Except Exc (List QueueFold)
  | _, [] => .ok []
  | s, record :: records => do
    let t ← s.step record
    let rest ← queueStates t records
    return t :: rest

def replayMarkings (records : List Record) : Except Exc (List Marking) := do
  let states ← queueStates {} records
  return states.map fun s => s.queues.marking

def netDocumentError (text : String) : Exc := ⟨"NetDocumentError", true, text, [quoted text]⟩

def colorRepr : Option Color → String
  | none => "None"
  | some color => quoted color

def checkMarkingToken (place : Place) (itemPath : String) (token : Token × Nat) :
    Except Exc Unit := do
  let tokenPath := s!"{itemPath}.tokens[{token.2}]"
  require (token.1.color ≠ some "")
    (netDocumentError s!"{tokenPath}.color must be a nonempty string or null")
  require (place.color = none ∨ token.1.color = place.color) (netDocumentError
    s!"{tokenPath}.color {colorRepr token.1.color} does not match place {quoted place.path.str} color {colorRepr place.color}")

def checkMarkingEntry (net : Net) (path : String) (entry : PlaceMarking × Nat) :
    Except Exc Unit :=
  let itemPath := s!"{path}[{entry.2}]"
  match net.places.find? fun place => place.path.str = entry.1.place with
  | none => .error
      (netDocumentError s!"{itemPath}.place names foreign place {quoted entry.1.place}")
  | some place => do
    require (entry.1.tokens ≠ [])
      (netDocumentError s!"{itemPath}.tokens must be nonempty in sparse marking form")
    entry.1.tokens.zipIdx.forM (checkMarkingToken place itemPath)

/-- The document's check of one marking; code points order names as characters do. -/
def checkMarking (net : Net) (path : String) (value : List PlaceMarking) : Except Exc Unit := do
  let names := value.map PlaceMarking.place
  require (names = names.insertionSort (· ≤ ·))
    (netDocumentError s!"{path} places must be sorted by Unicode scalar value")
  require names.Nodup (netDocumentError s!"{path} places must be unique")
  value.zipIdx.forM (checkMarkingEntry net path)

def checkLineage (net : Net) (markings : List Marking) : Except Exc Unit :=
  markings.zipIdx.forM fun m =>
    checkMarking net s!"lineage.entries[{m.2}].marking" (observedMarking m.1)

/-! ## What the check accepts -/

def Token.Colored (net : Net) (p : NetPath) (token : Token) : Prop :=
  ∀ place ∈ net.places, place.path = p → place.color = none ∨ token.color = place.color

def Token.Portable (net : Net) (p : NetPath) (token : Token) : Prop :=
  p ∈ net.placePaths ∧ token.color ≠ some ""

lemma forall_mem_zipIdx {α : Type} {as : List α} {Q : α × Nat → Prop} {R : α → Prop}
    (h : ∀ a ∈ as, ∀ i, Q (a, i) ↔ R a) : (∀ p ∈ as.zipIdx, Q p) ↔ ∀ a ∈ as, R a := by
  constructor
  · intro hq a ha
    obtain ⟨i, hi, heq⟩ := mem_iff_getElem.mp ha
    refine (h a ha i).mp (hq _ (mem_zipIdx_iff_getElem?.mpr ?_))
    rw [getElem?_eq_getElem hi, heq]
  · intro hr p hp
    obtain ⟨a, i⟩ := p
    have ha := fst_mem_of_mem_zipIdx hp
    exact (h a ha i).mpr (hr a ha)

lemma observedMarking_names (m : Marking) :
    (observedMarking m).map PlaceMarking.place =
      (m.queues.entries.insertionSort fun a b => a.1.str ≤ b.1.str).map fun e => e.1.str := by
  rw [observedMarking, map_map]
  rfl

lemma observedMarking_sorted (m : Marking) : (observedMarking m).map PlaceMarking.place =
    ((observedMarking m).map PlaceMarking.place).insertionSort (· ≤ ·) := by
  symm
  apply List.Pairwise.insertionSort_eq
  rw [observedMarking_names, pairwise_map]
  exact pairwise_insertionSort _ _

lemma observedMarking_nodup (m : Marking) :
    ((observedMarking m).map PlaceMarking.place).Nodup := by
  have hstr : (m.queues.entries.map fun e => e.1.str).Nodup := by
    have hkeys := m.queues.nodup.map (f := NetPath.str) fun p q => NetPath.ext_str
    rwa [map_map] at hkeys
  rw [observedMarking_names]
  exact ((perm_insertionSort _ _).map _).nodup_iff.mpr hstr

lemma checkMarkingToken_eq_ok {place : Place} {itemPath : String} {token : Token} {i : Nat} :
    checkMarkingToken place itemPath (token, i) = .ok () ↔
      token.color ≠ some "" ∧ (place.color = none ∨ token.color = place.color) := by
  simp [checkMarkingToken, require_bind_eq_ok]

lemma checkMarkingEntry_eq_ok {path : String} {e : Selection} {i : Nat} (hne : e.2 ≠ [])
    (hcolored : ∀ token ∈ e.2, token.Colored net e.1) :
    checkMarkingEntry net path (⟨e.1.str, e.2⟩, i) = .ok () ↔
      ∀ token ∈ e.2, token.Portable net e.1 := by
  unfold checkMarkingEntry
  dsimp only
  split
  · rename_i hforeign
    constructor
    · intro h
      cases h
    · intro h
      obtain ⟨token, htoken⟩ := exists_mem_of_ne_nil _ hne
      obtain ⟨place, hplace, heq⟩ := mem_map.mp (h token htoken).1
      have := find?_eq_none.mp hforeign place hplace
      rw [heq] at this
      exact absurd (decide_eq_true rfl) this
  · rename_i place hfind
    have hplace := mem_of_find?_eq_some hfind
    have hpath : place.path = e.1 := by
      have := find?_some hfind
      exact NetPath.ext_str (of_decide_eq_true this)
    rw [require_bind_eq_ok, forM_eq_ok]
    rw [forall_mem_zipIdx (R := fun token => token.color ≠ some "" ∧
      (place.color = none ∨ token.color = place.color)) fun _ _ _ => checkMarkingToken_eq_ok]
    constructor
    · intro h token htoken
      exact ⟨hpath ▸ mem_map_of_mem hplace, (h.2 token htoken).1⟩
    · intro h
      exact ⟨hne, fun token htoken =>
        ⟨(h token htoken).2, hcolored token htoken place hplace hpath⟩⟩

lemma checkMarking_observed {path : String} {m : Marking}
    (hcolored : ∀ e ∈ m.queues.entries, ∀ token ∈ e.2, token.Colored net e.1) :
    checkMarking net path (observedMarking m) = .ok () ↔
      ∀ e ∈ m.queues.entries, ∀ token ∈ e.2, token.Portable net e.1 := by
  unfold checkMarking
  dsimp only
  rw [require_bind_eq_ok, require_bind_eq_ok, forM_eq_ok]
  simp only [← observedMarking_sorted m, observedMarking_nodup m, true_and]
  rw [observedMarking, zipIdx_map, forall_mem_map,
    forall_mem_zipIdx (R := fun e => ∀ token ∈ e.2, token.Portable net e.1)]
  · constructor
    · intro h e he
      exact h e ((mem_insertionSort _).mpr he)
    · intro h e he
      exact h e ((mem_insertionSort _).mp he)
  · intro e he i
    rw [mem_insertionSort] at he
    exact checkMarkingEntry_eq_ok (m.sparse e he) (hcolored e he)

/-! ## Observed lineages -/

lemma Queues.hold_marking {queues : Queues} : queues.Hold P ↔
    ∀ e ∈ queues.marking.queues.entries, ∀ token ∈ e.2, P e.1 token := by
  have hplace : ∀ p, queues.marking.place p = TokenQueue.tokens (queues.at_ p) := by
    intro p
    rw [Queues.marking, Marking.get?_ofDict, Dict.get?_mapValues, Queues.at_]
    cases queues.get? p <;> rfl
  constructor
  · intro h e he token htoken
    have hq : queues.marking.place e.1 = e.2 := by
      rw [Marking.place, Dict.get?_eq_some.mpr he]
      rfl
    rw [← hq, hplace] at htoken
    obtain ⟨entry, hentry, rfl⟩ := mem_map.mp htoken
    exact h e.1 entry hentry
  · intro h p entry hentry
    have htoken : entry.token ∈ queues.marking.place p := by
      rw [hplace]
      exact mem_map_of_mem hentry
    unfold Marking.place at htoken
    cases hget : queues.marking.queues.get? p with
    | none =>
      rw [hget] at htoken
      cases htoken
    | some q =>
      rw [hget] at htoken
      exact h (p, q) (Dict.get?_eq_some.mp hget) entry.token htoken

lemma deposit_holds {queues after : Queues} {place : NetPath} {tokens : List Token}
    {entries inferred : List Nat} {scope : Option LifecycleScope} {instant : Instant}
    (hok : deposit queues place tokens entries scope instant inferred = .ok after)
    (h : after.Hold P) : ∀ token ∈ tokens, P place token := by
  obtain ⟨_, hlength, hrest⟩ := bind_eq_ok.mp hok
  obtain ⟨_, -, heq⟩ := bind_eq_ok.mp hrest
  cases heq
  rw [require_eq_ok] at hlength
  intro token htoken
  rw [← map_token_minted hlength instant scope] at htoken
  obtain ⟨e, he, rfl⟩ := mem_map.mp htoken
  refine h place e ?_
  rw [Queues.at_set, if_pos rfl]
  exact mem_append_right _ he

lemma QueueFold.step_holds {fold after : QueueFold} {record : Record}
    (hok : fold.step record = .ok after) (h : after.queues.Hold P) : record.Deposits P := by
  cases record with
  | tokensInitialized | tokensProduced =>
    obtain ⟨_, -, hrest⟩ := bind_eq_ok.mp hok
    obtain ⟨queues, hqueues, heq⟩ := bind_eq_ok.mp hrest
    cases heq
    exact deposit_holds hqueues h
  | _ => trivial

lemma queueStates_hold {fold : QueueFold} {records : List Record} {states : List QueueFold}
    (hfold : fold.queues.Hold P) (hok : queueStates fold records = .ok states) :
    (∀ s ∈ states, s.queues.Hold P) ↔ ∀ r ∈ records, r.Deposits P := by
  induction records generalizing fold states with
  | nil =>
    cases hok
    simp
  | cons record records ih =>
    obtain ⟨next, hnext, hrest⟩ := bind_eq_ok.mp hok
    obtain ⟨rest, hstates, heq⟩ := bind_eq_ok.mp hrest
    cases heq
    rw [forall_mem_cons, forall_mem_cons]
    constructor
    · intro h
      exact ⟨QueueFold.step_holds hnext h.1, (ih h.1 hstates).mp h.2⟩
    · intro h
      have hheld := hfold.step h.1 hnext
      exact ⟨hheld, (ih hheld hstates).mpr h.2⟩

lemma checkLineage_observed {records : List Record} {markings : List Marking}
    (hcolored : ∀ r ∈ records, r.Deposits (Token.Colored net))
    (hok : replayMarkings records = .ok markings) :
    checkLineage net markings = .ok () ↔ ∀ r ∈ records, r.Deposits (Token.Portable net) := by
  obtain ⟨states, hstates, heq⟩ := bind_eq_ok.mp hok
  cases heq
  have hcolors := (queueStates_hold Queues.Hold.empty hstates).mpr hcolored
  rw [← queueStates_hold Queues.Hold.empty hstates, checkLineage, forM_eq_ok,
    forall_mem_zipIdx (R := fun m : Marking => ∀ e ∈ m.queues.entries, ∀ token ∈ e.2,
      token.Portable net e.1), forall_mem_map]
  · simp only [Queues.hold_marking]
  · intro m hm i
    obtain ⟨s, hs, rfl⟩ := mem_map.mp hm
    exact checkMarking_observed (Queues.hold_marking.mp (hcolors s hs))

end Petrus.Impetus
