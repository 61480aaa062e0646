import Petrus.Impetus.Instance.Occurrence

/-!
# Selecting one enabled binding

A policy proposes one of the enabled bindings together with the state its commit
earns; it also folds one committed transition into its state. Replay folds the
selections whose firing began, in the order they were recorded.
-/

namespace Petrus.Impetus

open Lib Motus List Dict

variable {candidates : List Binding} {records : List Record}

/-- `none` until a round-robin policy has chosen, then its cursor. -/
abbrev SelectionState := Option Nat

structure SelectionProposal where
  binding : Binding
  priorState : SelectionState
  nextState : SelectionState
  deriving DecidableEq

abbrev AdmissionFilter := Binding → Except Exc Bool

/-- The key a ranker sorts by; the keys of one ranker are mutually orderable. -/
abbrev StableRanker (κ : Type) := Binding → Except Exc κ

structure RoundRobin where
  transitions : List NetPath
  nonempty : transitions ≠ []
  nodup : transitions.Nodup

inductive SelectionPolicy (κ : Type) where
  | first
  | priority (priorities : Dict NetPath Int)
  | roundRobin (ring : RoundRobin)
  | pipeline (filters : List AdmissionFilter) (rankers : List (StableRanker κ))
      (strategy : SelectionPolicy κ)

variable {κ : Type}

/-! ## Proposals -/

def highest (priority : Binding → Int) : Binding → List Binding → Binding
  | best, [] => best
  | best, candidate :: rest =>
    highest priority (if priority best < priority candidate then candidate else best) rest

lemma highest_mem (priority : Binding → Int) (best : Binding) (rest : List Binding) :
    highest priority best rest ∈ best :: rest := by
  induction rest generalizing best with
  | nil => exact mem_singleton_self best
  | cons candidate rest ih =>
    unfold highest
    by_cases hlt : priority best < priority candidate
    · rw [if_pos hlt]
      exact mem_cons_of_mem best (ih candidate)
    · rw [if_neg hlt]
      rcases mem_cons.mp (ih best) with heq | hmem
      · rw [heq]
        exact mem_cons_self
      · exact mem_cons_of_mem best (mem_cons_of_mem candidate hmem)

namespace RoundRobin

variable (ring : RoundRobin)

def cursor (state : SelectionState) : Except Exc Nat :=
  match state with
  | none => .ok 0
  | some n => do
    require (n < ring.transitions.length) (valueError s!"invalid round-robin state: {n}")
    return n

def turn (cursor : Nat) : List NetPath :=
  (List.range ring.transitions.length).filterMap fun offset =>
    ring.transitions[(cursor + offset) % ring.transitions.length]?

def next (t : NetPath) : SelectionState :=
  some ((ring.transitions.idxOf t + 1) % ring.transitions.length)

def firstByTransition (candidates : List Binding) : Dict NetPath Binding :=
  candidates.foldl (fun first candidate =>
    if first.contains candidate.transition then first
    else first.set candidate.transition candidate) Dict.empty

def propose (candidates : List Binding) (state : SelectionState) :
    Except Exc (Option SelectionProposal) := do
  let cursor ← ring.cursor state
  let first := firstByTransition candidates
  match (ring.turn cursor).findSome? first.get? with
  | some binding => return some ⟨binding, state, ring.next binding.transition⟩
  | none => .error (valueError "offered candidates are outside the round-robin transition ring")

end RoundRobin

/-- Whether every filter admits the binding; the first that refuses ends the questioning. -/
def admitsCandidate : List AdmissionFilter → Binding → Except Exc Bool
  | [], _ => .ok true
  | rule :: rules, binding => do
    if ← rule binding then admitsCandidate rules binding else return false

def admittedCandidates (filters : List AdmissionFilter) : List Binding → Except Exc (List Binding)
  | [] => .ok []
  | candidate :: rest => do
    let ok ← admitsCandidate filters candidate
    let others ← admittedCandidates filters rest
    return if ok then candidate :: others else others

def SelectionPolicy.foldCommitted : SelectionPolicy κ → SelectionState → NetPath →
    Except Exc SelectionState
  | first, state, _ => .ok state
  | priority _, state, _ => .ok state
  | roundRobin ring, _, t => do
    require (t ∈ ring.transitions)
      (valueError s!"committed transition {t.str} is outside the round-robin transition ring")
    return ring.next t
  | pipeline _ _ strategy, state, t => strategy.foldCommitted state t

section Proposal

variable [LinearOrder κ]

def ranked (candidates : List Binding) (ranker : StableRanker κ) : Except Exc (List Binding) := do
  let keyed ← candidates.mapM fun candidate => do return (← ranker candidate, candidate)
  return (keyed.mergeSort fun a b => a.1 ≤ b.1).map Prod.snd

def SelectionPolicy.propose : SelectionPolicy κ → List Binding → SelectionState →
    Except Exc (Option SelectionProposal)
  | _, [], _ => .ok none
  | first, candidate :: _, state => .ok (some ⟨candidate, state, state⟩)
  | priority priorities, candidate :: rest, state =>
    .ok (some ⟨highest (fun b => (priorities.get? b.transition).getD 0) candidate rest,
      state, state⟩)
  | roundRobin ring, candidate :: rest, state => ring.propose (candidate :: rest) state
  | pipeline filters rankers strategy, candidate :: rest, state => do
    let admitted ← admittedCandidates filters (candidate :: rest)
    if admitted = [] then return none
    else
      let ranked ← rankers.reverse.foldlM ranked admitted
      match ← strategy.propose ranked state with
      | none => return none
      | some proposal =>
        require (ranked.any (·.equals proposal.binding))
          (valueError "selection strategy proposed a binding outside the admitted candidates")
        require (proposal.priorState = state) (valueError
          "selection strategy proposal does not carry the pipeline's prior state")
        return some proposal

/-! ## A proposal states what its commit folds to -/

lemma RoundRobin.mem_firstByTransition {t : NetPath} {b : Binding}
    (h : (firstByTransition candidates).get? t = some b) : b ∈ candidates ∧ b.transition = t := by
  have hgeneral : ∀ (cs : List Binding) (first : Dict NetPath Binding),
      (∀ t b, first.get? t = some b → b ∈ candidates ∧ b.transition = t) → cs ⊆ candidates →
        ∀ t b, (cs.foldl (fun first candidate =>
          if first.contains candidate.transition then first
          else first.set candidate.transition candidate) first).get? t = some b →
            b ∈ candidates ∧ b.transition = t := by
    intro cs
    induction cs with
    | nil =>
      intro first hfirst _
      exact hfirst
    | cons candidate cs ih =>
      intro first hfirst hsub
      rw [foldl_cons]
      apply ih
      · intro t b hb
        split_ifs at hb with hcontains
        · exact hfirst t b hb
        · rw [get?_set] at hb
          split_ifs at hb with heq
          · cases hb
            exact ⟨hsub mem_cons_self, heq⟩
          · exact hfirst t b hb
      · exact fun x hx => hsub (mem_cons_of_mem candidate hx)
  exact hgeneral candidates Dict.empty (by simp) (List.Subset.refl candidates) t b h

lemma RoundRobin.mem_turn {ring : RoundRobin} {cursor : Nat} {t : NetPath}
    (h : t ∈ ring.turn cursor) : t ∈ ring.transitions := by
  obtain ⟨offset, -, hget⟩ := mem_filterMap.mp h
  exact mem_of_getElem? hget

lemma admittedCandidates_subset {filters : List AdmissionFilter} {out : List Binding}
    (h : admittedCandidates filters candidates = .ok out) : out ⊆ candidates := by
  induction candidates generalizing out with
  | nil =>
    cases h
    exact List.Subset.refl _
  | cons candidate rest ih =>
    simp only [admittedCandidates, bind_eq_ok, except_pure, Except.ok.injEq] at h
    obtain ⟨ok, -, others, hothers, rfl⟩ := h
    have hrest := subset_cons_of_subset candidate (ih hothers)
    cases ok with
    | false => exact hrest
    | true => exact cons_subset.mpr ⟨mem_cons_self, hrest⟩

lemma ranked_subset {out : List Binding} {ranker : StableRanker κ}
    (h : ranked candidates ranker = .ok out) : out ⊆ candidates := by
  simp only [ranked, bind_eq_ok, except_pure, Except.ok.injEq] at h
  obtain ⟨keyed, hkeyed, rfl⟩ := h
  intro b hb
  obtain ⟨entry, hentry, rfl⟩ := mem_map.mp hb
  have hmem := (mergeSort_perm keyed _).mem_iff.mp hentry
  obtain ⟨candidate, hcandidate, heq⟩ := mem_of_mapM hkeyed hmem
  obtain ⟨key, -, heq⟩ := bind_eq_ok.mp heq
  cases heq
  exact hcandidate

lemma SelectionPolicy.propose_some {policy : SelectionPolicy κ} {state : SelectionState}
    {p : SelectionProposal} (h : policy.propose candidates state = .ok (some p)) :
    p.binding ∈ candidates ∧ p.priorState = state ∧
      policy.foldCommitted state p.binding.transition = .ok p.nextState := by
  induction policy generalizing candidates p with
  | first =>
    cases candidates with
    | nil => cases h
    | cons candidate rest =>
      cases h
      exact ⟨mem_cons_self, rfl, rfl⟩
  | priority priorities =>
    cases candidates with
    | nil => cases h
    | cons candidate rest =>
      cases h
      exact ⟨highest_mem _ candidate rest, rfl, rfl⟩
  | roundRobin ring =>
    cases candidates with
    | nil => cases h
    | cons candidate rest =>
      simp only [propose, RoundRobin.propose, bind_eq_ok] at h
      obtain ⟨cursor, -, h⟩ := h
      cases hfound : (ring.turn cursor).findSome?
        (RoundRobin.firstByTransition (candidate :: rest)).get? with
      | none =>
        rw [hfound] at h
        cases h
      | some b =>
        rw [hfound] at h
        cases h
        obtain ⟨t, ht, hfirst⟩ := exists_of_findSome?_eq_some hfound
        obtain ⟨hmem, rfl⟩ := RoundRobin.mem_firstByTransition hfirst
        refine ⟨hmem, rfl, ?_⟩
        rw [foldCommitted, require_true (RoundRobin.mem_turn ht)]
        rfl
  | pipeline filters rankers strategy ih =>
    cases candidates with
    | nil => cases h
    | cons candidate rest =>
      unfold propose at h
      obtain ⟨admitted, hadmitted, h⟩ := bind_eq_ok.mp h
      by_cases hempty : admitted = []
      · rw [if_pos hempty] at h
        cases h
      · rw [if_neg hempty] at h
        obtain ⟨sorted, hsorted, h⟩ := bind_eq_ok.mp h
        obtain ⟨proposed, hproposed, h⟩ := bind_eq_ok.mp h
        cases proposed with
        | none => cases h
        | some q =>
          rw [require_bind_eq_ok, require_bind_eq_ok] at h
          obtain ⟨-, -, h⟩ := h
          cases h
          obtain ⟨hmem, hprior, hnext⟩ := ih hproposed
          -- Filtering and ranking only leave out and reorder what was offered.
          have hsub : sorted ⊆ candidate :: rest := by
            refine foldlM_invariant (P := fun bs => bs ⊆ candidate :: rest) ?_
              (admittedCandidates_subset hadmitted) hsorted
            intro bs ranker out _ hbs hout
            exact fun b hb => hbs (ranked_subset hout hb)
          exact ⟨hsub hmem, hprior, hnext⟩

end Proposal

/-! ## Replaying the selections -/

structure SelectionFold where
  selected : Dict Nat CandidateSelected := Dict.empty
  begun : Dict Nat (List FiringBegun) := Dict.empty

def SelectionFold.step (s : SelectionFold) : Record → Except Exc SelectionFold
  | .candidateSelected r => do
    require (s.selected.contains r.occurrence = false) (valueError
      s!"selection replay divergence: duplicate CandidateSelected for occurrence {r.occurrence}")
    return { s with selected := s.selected.set r.occurrence r }
  | .firingBegun r =>
    return { s with begun := s.begun.set r.occurrence ((s.begun.get? r.occurrence).getD [] ++ [r]) }
  | _ => return s

def SelectionPolicy.foldSelected (policy : SelectionPolicy κ) (begun : Dict Nat (List FiringBegun))
    (state : SelectionState) (selection : CandidateSelected) : Except Exc SelectionState :=
  match (begun.get? selection.occurrence).getD [] with
  | [] => .ok state
  | [boundary] => do
    require (boundary.transition = selection.transition) (valueError
      s!"selection replay divergence: occurrence {selection.occurrence} selected {selection.transition.str} but began {boundary.transition.str}")
    policy.foldCommitted state selection.transition
  | _ => .error (valueError
      s!"selection replay divergence: duplicate FiringBegun for occurrence {selection.occurrence}")

def foldHistory (policy : SelectionPolicy κ) (state : SelectionState) (history : List Record) :
    Except Exc SelectionState := do
  let s ← history.foldlM SelectionFold.step {}
  s.selected.values.foldlM (policy.foldSelected s.begun) state

def Record.selection? : Record → Option CandidateSelected
  | .candidateSelected r => some r
  | _ => none

def Record.begin? : Record → Option FiringBegun
  | .firingBegun r => some r
  | _ => none

/-- Each occurrence is selected once and begun once, by one transition. -/
structure Paired (records : List Record) : Prop where
  selected : ((records.filterMap Record.selection?).map CandidateSelected.occurrence).Nodup
  begun : ((records.filterMap Record.begin?).map FiringBegun.occurrence).Nodup
  agree : ∀ r ∈ records.filterMap Record.selection?, ∀ b ∈ records.filterMap Record.begin?,
    b.occurrence = r.occurrence → b.transition = r.transition

lemma Paired.sublist {others : List Record} (h : Paired records) (hsub : others.Sublist records) :
    Paired others where
  selected := h.selected.sublist ((hsub.filterMap _).map _)
  begun := h.begun.sublist ((hsub.filterMap _).map _)
  agree r hr b hb := h.agree r ((hsub.filterMap _).subset hr) b ((hsub.filterMap _).subset hb)

def beginsOf (records : List Record) (occurrence : Nat) : List FiringBegun :=
  (records.filterMap Record.begin?).filter fun b => b.occurrence = occurrence

/-- The transitions whose selection was followed by a begin, in the order selected. -/
def chosen (records : List Record) : List NetPath :=
  ((records.filterMap Record.selection?).filter fun r => beginsOf records r.occurrence ≠ []).map
    CandidateSelected.transition

lemma foldlM_selectionFold
    (h : ((records.filterMap Record.selection?).map CandidateSelected.occurrence).Nodup) :
    ∃ s : SelectionFold, records.foldlM SelectionFold.step {} = .ok s ∧
      s.selected.entries = (records.filterMap Record.selection?).map (fun r => (r.occurrence, r)) ∧
        ∀ n, (s.begun.get? n).getD [] = beginsOf records n := by
  induction records using List.reverseRecOn with
  | nil => exact ⟨{}, rfl, rfl, fun n => rfl⟩
  | append_singleton records record ih =>
    rw [filterMap_append, map_append] at h
    obtain ⟨s, hs, hselected, hbegun⟩ := ih (nodup_append.mp h).1
    rw [foldlM_append_ok hs, foldlM_cons]
    have hskip : record.selection? = none → record.begin? = none →
        SelectionFold.step s record = .ok s := by
      intro hselection hbegin
      cases record with
      | candidateSelected r => cases hselection
      | firingBegun b => cases hbegin
      | _ => rfl
    cases hselection : record.selection? with
    | some r =>
      obtain rfl : record = .candidateSelected r := by
        cases record <;> cases hselection
        rfl
      have hfresh : s.selected.get? r.occurrence = none := by
        rw [get?_eq_none, Dict.keys, hselected]
        intro hmem
        refine (nodup_append.mp h).2.2 r.occurrence ?_ r.occurrence ?_ rfl
        · simpa using hmem
        · simp [Record.selection?]
      refine ⟨{ s with selected := s.selected.set r.occurrence r }, ?_, ?_, ?_⟩
      · rw [SelectionFold.step, require_true (contains_eq_false.mpr hfresh)]
        rfl
      · rw [entries_set_of_absent hfresh, hselected]
        simp [Record.selection?]
      · intro n
        rw [hbegun n]
        simp [beginsOf, Record.begin?]
    | none =>
      cases hbegin : record.begin? with
      | some b =>
        obtain rfl : record = .firingBegun b := by
          cases record <;> cases hbegin
          rfl
        let boundaries := (s.begun.get? b.occurrence).getD [] ++ [b]
        refine ⟨{ s with begun := s.begun.set b.occurrence boundaries }, rfl, ?_, ?_⟩
        · rw [hselected]
          simp [Record.selection?]
        · intro n
          rw [get?_set]
          by_cases hn : b.occurrence = n
          · subst hn
            simp [boundaries, hbegun, beginsOf, Record.begin?]
          · rw [if_neg hn, hbegun n]
            simp [beginsOf, Record.begin?, hn]
      | none =>
        refine ⟨s, ?_, ?_, ?_⟩
        · rw [hskip hselection hbegin]
          rfl
        · rw [hselected]
          simp [hselection]
        · intro n
          rw [hbegun n]
          simp [beginsOf, hbegin]

lemma SelectionPolicy.foldSelected_chosen {policy : SelectionPolicy κ} (h : Paired records)
    {begun : Dict Nat (List FiringBegun)}
    (hbegun : ∀ n, (begun.get? n).getD [] = beginsOf records n) {r : CandidateSelected}
    (hr : r ∈ records.filterMap Record.selection?) (state : SelectionState) :
    policy.foldSelected begun state r =
      if beginsOf records r.occurrence ≠ [] then policy.foldCommitted state r.transition
      else .ok state := by
  unfold foldSelected
  rw [hbegun]
  -- The begins of one occurrence are at most one.
  have hone : (beginsOf records r.occurrence).length ≤ 1 := by
    have hcount := nodup_iff_count_le_one.mp h.begun r.occurrence
    rw [count_eq_countP, countP_map, countP_eq_length_filter] at hcount
    exact hcount
  match hlist : beginsOf records r.occurrence, hone with
  | [], _ => rfl
  | [b], _ =>
    have hb := mem_filter.mp (hlist ▸ mem_singleton_self b :
      b ∈ beginsOf records r.occurrence)
    have hagree := h.agree r hr b hb.1 (of_decide_eq_true hb.2)
    simp [hagree]

lemma foldHistory_eq (policy : SelectionPolicy κ) (state : SelectionState) (h : Paired records) :
    foldHistory policy state records = (chosen records).foldlM policy.foldCommitted state := by
  obtain ⟨s, hs, hselected, hbegun⟩ := foldlM_selectionFold h.selected
  have hvalues : s.selected.values = records.filterMap Record.selection? := by
    rw [Dict.values, hselected, map_map]
    exact map_id _
  unfold foldHistory
  rw [hs, ok_bind, hvalues]
  unfold chosen
  have hfold : ∀ rs ⊆ records.filterMap Record.selection?, ∀ state,
      rs.foldlM (policy.foldSelected s.begun) state =
        ((rs.filter fun r => beginsOf records r.occurrence ≠ []).map
          CandidateSelected.transition).foldlM policy.foldCommitted state := by
    intro rs
    induction rs with
    | nil => exact fun _ _ => rfl
    | cons r rs ih =>
      intro hsub state
      obtain ⟨hr, hrs⟩ := cons_subset.mp hsub
      rw [foldlM_cons, policy.foldSelected_chosen h hbegun hr]
      by_cases hbegan : beginsOf records r.occurrence ≠ []
      · rw [if_pos hbegan, filter_cons, if_pos (decide_eq_true hbegan), map_cons, foldlM_cons]
        exact bind_congr (ih hrs)
      · rw [if_neg hbegan, filter_cons, if_neg (by simpa using hbegan), ok_bind]
        exact ih hrs state
  exact hfold _ (List.Subset.refl _) state

end Petrus.Impetus
