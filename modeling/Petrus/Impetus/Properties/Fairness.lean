import Petrus.Impetus.Selection

/-!
# Fairness of the round robin

Between its cursor and a transition that always has a candidate lie ever fewer places of
the ring: a selection takes the first offered transition from the cursor on, and the
cursor moves behind it. The cursor is carried from one selection to the next or rebuilt
from the history that records them; both are the place behind the last selection.
-/

namespace Petrus.Impetus

open Lib List Dict

variable {κ : Type} [LinearOrder κ] {b : Binding} {cursor : Nat}

namespace RoundRobin

variable {ring : RoundRobin} {candidates : List Binding} {state : SelectionState} {t : NetPath}

/-! ## Where a selection falls -/

lemma length_pos (ring : RoundRobin) : 0 < ring.transitions.length :=
  length_pos_of_ne_nil ring.nonempty

lemma firstByTransition_get? (hb : b ∈ candidates) :
    ∃ c, (firstByTransition candidates).get? b.transition = some c := by
  -- Once a transition has an entry it keeps one, and every candidate makes one.
  have hgeneral : ∀ (cs : List Binding) (first : Dict NetPath Binding),
      first.contains b.transition = true ∨ b ∈ cs →
        (cs.foldl (fun first candidate =>
          if first.contains candidate.transition then first
          else first.set candidate.transition candidate) first).contains b.transition = true := by
    intro cs
    induction cs with
    | nil =>
      intro first h
      exact h.resolve_right not_mem_nil
    | cons candidate cs ih =>
      intro first h
      rw [foldl_cons]
      refine ih _ ?_
      rcases h with hfirst | hmem
      · refine .inl ?_
        split_ifs with hcontains
        · exact hfirst
        · rw [Dict.contains_iff, mem_keys_set]
          exact .inr (Dict.contains_iff.mp hfirst)
      · rcases mem_cons.mp hmem with rfl | hrest
        · refine .inl ?_
          split_ifs with hcontains
          · exact hcontains
          · rw [contains_iff_get?]
            exact ⟨b, get?_set_self _ _ _⟩
        · exact .inr hrest
  exact contains_iff_get?.mp (hgeneral candidates Dict.empty (.inr hb))

/-- How many places of the ring lie before `t`, from the cursor on. -/
def distance (ring : RoundRobin) (cursor : Nat) (t : NetPath) : Nat :=
  (ring.transitions.idxOf t + (ring.transitions.length - cursor % ring.transitions.length)) %
    ring.transitions.length

lemma distance_lt (ring : RoundRobin) (cursor : Nat) (t : NetPath) :
    ring.distance cursor t < ring.transitions.length :=
  Nat.mod_lt _ ring.length_pos

lemma add_distance (ht : t ∈ ring.transitions) :
    (cursor + ring.distance cursor t) % ring.transitions.length = ring.transitions.idxOf t := by
  have hindex := idxOf_lt_length_of_mem ht
  have hcursor := Nat.mod_lt cursor ring.length_pos
  have hsplit : cursor % ring.transitions.length +
      (ring.transitions.idxOf t + (ring.transitions.length - cursor % ring.transitions.length)) =
        ring.transitions.idxOf t + ring.transitions.length := by
    omega
  rw [distance, Nat.add_mod_mod, ← Nat.mod_add_mod, hsplit, Nat.add_mod_right,
    Nat.mod_eq_of_lt hindex]

lemma eq_distance {x : Nat} (ht : t ∈ ring.transitions) (hx : x < ring.transitions.length)
    (h : (cursor + x) % ring.transitions.length = ring.transitions.idxOf t) :
    x = ring.distance cursor t := by
  have hsame : cursor + x ≡ cursor + ring.distance cursor t [MOD ring.transitions.length] :=
    h.trans (add_distance ht).symm
  exact (Nat.ModEq.add_left_cancel' cursor hsame).eq_of_lt_of_lt hx (ring.distance_lt cursor t)

lemma getElem?_distance (ht : t ∈ ring.transitions) :
    ring.transitions[(cursor + ring.distance cursor t) % ring.transitions.length]? = some t := by
  rw [add_distance ht, getElem?_eq_getElem (idxOf_lt_length_of_mem ht)]
  exact congrArg some (getElem_idxOf _)

lemma findSome?_turn {f : NetPath → Option Binding}
    (h : (ring.turn cursor).findSome? f = some b) :
    ∃ offset s, offset < ring.transitions.length ∧
      ring.transitions[(cursor + offset) % ring.transitions.length]? = some s ∧ f s = some b ∧
        ∀ earlier < offset, ∀ s',
          ring.transitions[(cursor + earlier) % ring.transitions.length]? = some s' →
            f s' = none := by
  rw [turn, ← head?_filterMap, filterMap_filterMap, head?_filterMap, findSome?_eq_some_iff] at h
  obtain ⟨before, offset, after, hrange, hfound, hbefore⟩ := h
  obtain ⟨s, hs, hb⟩ := Option.bind_eq_some_iff.mp hfound
  have hoffset : offset ∈ List.range ring.transitions.length := by
    rw [hrange]
    exact mem_append_right _ mem_cons_self
  refine ⟨offset, s, mem_range.mp hoffset, hs, hb, ?_⟩
  intro earlier hearlier s' hs'
  have hmem : earlier ∈ before := by
    have hin : earlier ∈ List.range ring.transitions.length :=
      mem_range.mpr (hearlier.trans (mem_range.mp hoffset))
    have hsorted := pairwise_lt_range (n := ring.transitions.length)
    rw [hrange] at hin hsorted
    rcases mem_append.mp hin with hleft | hright
    · exact hleft
    · have htail := (pairwise_cons.mp (pairwise_append.mp hsorted).2.1).1
      rcases mem_cons.mp hright with rfl | hlater
      · exact absurd hearlier (Nat.lt_irrefl _)
      · exact absurd (htail earlier hlater) (Nat.lt_asymm hearlier)
  have hnone := hbefore earlier hmem
  rw [hs'] at hnone
  exact hnone

lemma distance_next (ht : t ∈ ring.transitions) (hoffered : ∃ c ∈ candidates, c.transition = t)
    (h : (ring.turn cursor).findSome? (firstByTransition candidates).get? = some b) :
    b.transition = t ∨
      ring.distance ((ring.transitions.idxOf b.transition + 1) % ring.transitions.length) t <
        ring.distance cursor t := by
  obtain ⟨offset, s, hoffset, hs, hb, hearlier⟩ := findSome?_turn h
  obtain ⟨-, rfl⟩ := mem_firstByTransition hb
  obtain ⟨c, hc, rfl⟩ := hoffered
  obtain ⟨first, hfirst⟩ := firstByTransition_get? hc
  have hle : offset ≤ ring.distance cursor c.transition := by
    by_contra hlater
    have hnone := hearlier _ (Nat.lt_of_not_le hlater) _ (getElem?_distance ht)
    rw [hfirst] at hnone
    cases hnone
  rcases Nat.eq_or_lt_of_le hle with heq | hlt
  · left
    rw [heq, getElem?_distance ht] at hs
    exact (Option.some.inj hs).symm
  · right
    obtain ⟨hbound, hget⟩ := List.getElem?_eq_some_iff.mp hs
    have hindex : ring.transitions.idxOf b.transition =
        (cursor + offset) % ring.transitions.length := by
      rw [← hget]
      exact ring.nodup.idxOf_getElem _ hbound
    have hstep : (ring.distance cursor c.transition - (offset + 1)) =
        ring.distance ((ring.transitions.idxOf b.transition + 1) % ring.transitions.length)
          c.transition := by
      have hdistance := ring.distance_lt cursor c.transition
      refine eq_distance ht (by omega) ?_
      rw [hindex, Nat.mod_add_mod, Nat.add_assoc, Nat.mod_add_mod,
        show cursor + offset + (1 + (ring.distance cursor c.transition - (offset + 1))) =
          cursor + ring.distance cursor c.transition by omega]
      exact add_distance ht
    omega

end RoundRobin

/-! ## Selections in a row -/

/-- What a selection was offered and what it chose. -/
structure Selecting where
  candidates : List Binding
  chosen : Binding

/-- Committed selections in a row. In between the cursor may be rebuilt, from a history whose last
committed selections are these. -/
inductive Rotation (κ : Type) [LinearOrder κ] (ring : RoundRobin) (start : SelectionState) :
    List Selecting → SelectionState → Prop
  | refl : Rotation κ ring start [] start
  | select {turns : List Selecting} {state : SelectionState} {candidates : List Binding}
      {p : SelectionProposal} (h : Rotation κ ring start turns state)
      (proposed : (SelectionPolicy.roundRobin ring : SelectionPolicy κ).propose candidates state =
        .ok (some p)) :
      Rotation κ ring start (turns ++ [⟨candidates, p.binding⟩]) p.nextState
  | resume {turns : List Selecting} {state rebuilt : SelectionState} {records : List Record}
      (h : Rotation κ ring start turns state) (paired : Paired records)
      (recorded : turns.map (fun turn => turn.chosen.transition) <:+ chosen records)
      (folded : foldHistory (SelectionPolicy.roundRobin ring : SelectionPolicy κ) none records =
        .ok rebuilt) :
      Rotation κ ring start turns rebuilt

section Rotations

variable {ring : RoundRobin} {start state : SelectionState} {turns : List Selecting} {t : NetPath}

def SelectionState.place (state : SelectionState) : Nat := state.getD 0

lemma RoundRobin.propose_place {candidates : List Binding} {p : SelectionProposal}
    (h : (SelectionPolicy.roundRobin ring : SelectionPolicy κ).propose candidates state =
      .ok (some p)) :
    (ring.turn state.place).findSome? (RoundRobin.firstByTransition candidates).get? =
        some p.binding ∧ p.nextState = ring.next p.binding.transition := by
  cases candidates with
  | nil => cases h
  | cons candidate rest =>
    obtain ⟨cursor, hcursor, h⟩ := bind_eq_ok.mp h
    have hplace : cursor = state.place := by
      cases state with
      | none =>
        cases hcursor
        rfl
      | some n =>
        obtain ⟨-, hcursor⟩ := require_bind_eq_ok.mp hcursor
        cases hcursor
        rfl
    subst hplace
    dsimp only at h
    split at h
    · rename_i b hfound
      cases h
      exact ⟨hfound, rfl⟩
    · cases h

omit [LinearOrder κ] in
lemma foldHistory_last {records : List Record} {rebuilt : SelectionState} (hpaired : Paired records)
    (hlast : [t] <:+ chosen records)
    (hfold : foldHistory (SelectionPolicy.roundRobin ring : SelectionPolicy κ) none records =
      .ok rebuilt) : rebuilt = ring.next t := by
  obtain ⟨prior, hprior⟩ := hlast
  rw [foldHistory_eq _ _ hpaired, ← hprior, foldlM_append] at hfold
  obtain ⟨before, -, hfold⟩ := bind_eq_ok.mp hfold
  rw [foldlM_cons] at hfold
  obtain ⟨after, hafter, hfold⟩ := bind_eq_ok.mp hfold
  obtain ⟨-, hafter⟩ := require_bind_eq_ok.mp hafter
  cases hafter
  cases hfold
  rfl

lemma Rotation.place_last {turn : Selecting} (h : Rotation κ ring start (turns ++ [turn]) state) :
    state = ring.next turn.chosen.transition := by
  generalize hall : turns ++ [turn] = all at h
  induction h with
  | refl => simp at hall
  | select _ proposed _ =>
    obtain ⟨-, hturn⟩ := append_inj' hall rfl
    cases hturn
    exact (RoundRobin.propose_place proposed).2
  | resume _ paired recorded folded _ =>
    subst hall
    refine foldHistory_last paired ?_ folded
    rw [map_append] at recorded
    exact (suffix_append _ _).trans recorded

lemma Rotation.distance_lt (h : Rotation κ ring start turns state) (ht : t ∈ ring.transitions)
    (hoffered : ∀ turn ∈ turns, ∃ b ∈ turn.candidates, b.transition = t)
    (hpassed : ∀ turn ∈ turns, turn.chosen.transition ≠ t) :
    ring.distance state.place t + turns.length < ring.transitions.length := by
  induction h with
  | refl => exact ring.distance_lt _ _
  | @select turns state candidates p h proposed ih =>
    rw [forall_mem_append] at hoffered hpassed
    have hbefore := ih hoffered.1 hpassed.1
    obtain ⟨hfound, hnext⟩ := RoundRobin.propose_place proposed
    rcases RoundRobin.distance_next ht (hoffered.2 _ (mem_singleton_self _)) hfound with
      hchosen | hnearer
    · exact absurd hchosen (hpassed.2 _ (mem_singleton_self _))
    · rw [hnext, length_append, length_singleton]
      change ring.distance ((ring.transitions.idxOf p.binding.transition + 1) %
        ring.transitions.length) t + _ < _
      omega
  | @resume turns state rebuilt records h paired recorded folded ih =>
    rcases eq_nil_or_concat' turns with rfl | ⟨prior, turn, rfl⟩
    · exact ring.distance_lt _ _
    · have hplace := (h.resume paired recorded folded).place_last
      rw [hplace, ← h.place_last]
      exact ih hoffered hpassed

/-- As many committed selections as the ring has transitions reach every transition that is
offered at each of them. -/
theorem round_robin_reaches (h : Rotation κ ring start turns state)
    (hlength : turns.length = ring.transitions.length) (ht : t ∈ ring.transitions)
    (hoffered : ∀ turn ∈ turns, ∃ b ∈ turn.candidates, b.transition = t) :
    ∃ turn ∈ turns, turn.chosen.transition = t := by
  by_contra hnever
  push Not at hnever
  have hnear := h.distance_lt ht hoffered hnever
  omega

end Rotations

abbrev leftNode : NetPath := ⟨"left", by decide⟩

abbrev rightNode : NetPath := ⟨"right", by decide⟩

def pairRing : RoundRobin := ⟨[leftNode, rightNode], by decide, by decide⟩

lemma selects_nothing : ([] : List Token) = [] ∨
    ([] : List Selection) = [] ∧ ([] : List Selection) = [] := .inl rfl

def leftBinding : Binding := ⟨leftNode, [], [], [], selects_nothing⟩

def rightBinding : Binding := ⟨rightNode, [], [], [], selects_nothing⟩

lemma pair_rotation :
    Rotation Nat pairRing none
      [⟨[leftBinding, rightBinding], leftBinding⟩, ⟨[rightBinding], rightBinding⟩] (some 0) := by
  have hleft : (SelectionPolicy.roundRobin pairRing : SelectionPolicy Nat).propose
      [leftBinding, rightBinding] none = .ok (some ⟨leftBinding, none, some 1⟩) := rfl
  have hright : (SelectionPolicy.roundRobin pairRing : SelectionPolicy Nat).propose
      [rightBinding] (some 1) = .ok (some ⟨rightBinding, some 1, some 0⟩) := rfl
  exact (Rotation.refl.select hleft).select hright

/-- Two selections reach the transition that is offered at both. -/
theorem round_robin_reaches_right :
    ∃ turn ∈ [(⟨[leftBinding, rightBinding], leftBinding⟩ : Selecting),
      ⟨[rightBinding], rightBinding⟩], turn.chosen.transition = rightNode :=
  round_robin_reaches pair_rotation rfl (by decide) (by decide)

end Petrus.Impetus
