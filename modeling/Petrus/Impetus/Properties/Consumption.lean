import Petrus.Impetus.Doors.Ready
import Petrus.Impetus.Properties.Fidelity

/-!
# What a firing takes

A binding names tokens by value, and a begin takes the front-most tokens of these values.
Python's equality takes no notice of the types of numbers and booleans, so what is taken
need not be spelled as what was selected.
-/

namespace Petrus.Impetus

open Lib Motus List

variable {D : Definition} {s t : Instance} {queues rest : Queues} {selections : List Selection}
  {takens : List (List Entry)} {p : NetPath}

/-- Among equal tokens the bound ones are spelled, in some order, as the front-most queued
ones. -/
def SpelledInFront (queues : Queues) (selections : List Selection) : Prop :=
  ∀ p v, (((boundAt selections p).filter fun token => token.value = v).map Token.spelling).Perm
    ((((queues.at_ p).filter fun e => e.key = v).take
      ((boundAt selections p).filter fun token => token.value = v).length).map
        fun e => e.token.spelling)

def removedAt (s t : Instance) (p : NetPath) : List Entry :=
  (s.queues.at_ p).filter fun e => e ∉ t.queues.at_ p

lemma Token.value_spelling (token : Token) : token.spelling.value = token.value :=
  congrArg (Token.mk token.color) (Json.normal_spelling _ token.data)

lemma removedAt_perm {taken : List Entry} {tokens : List Token} (hd : s.queues.Distinct)
    (h : TokenQueue.take (s.queues.at_ p) tokens = some (taken, t.queues.at_ p)) :
    (removedAt s t p).Perm taken := by
  have hperm : (s.queues.at_ p).Perm (taken ++ t.queues.at_ p) := takeEach_perm h
  have hnodup : (taken ++ t.queues.at_ p).Nodup :=
    hperm.nodup_iff.mp (List.Nodup.of_map _ (hd.at_ p))
  obtain ⟨-, -, hdisjoint⟩ := nodup_append.mp hnodup
  have hfilter := hperm.filter fun e => decide (e ∉ t.queues.at_ p)
  rw [filter_append] at hfilter
  have htaken : taken.filter (fun e => decide (e ∉ t.queues.at_ p)) = taken := by
    rw [filter_eq_self]
    intro e he
    simpa using fun hrest => hdisjoint e he e hrest rfl
  have hrest : (t.queues.at_ p).filter (fun e => decide (e ∉ t.queues.at_ p)) = [] := by
    rw [filter_eq_nil_iff]
    intro e he
    simpa using he
  rwa [htaken, hrest, append_nil] at hfilter

lemma removedAt_spelled_iff (hd : s.queues.Distinct)
    (h : ∀ p, ∃ taken, TokenQueue.take (s.queues.at_ p) (boundAt selections p) =
      some (taken, t.queues.at_ p)) :
    (∀ p, ((removedAt s t p).map fun e => e.token.spelling).Perm
        ((boundAt selections p).map Token.spelling)) ↔ SpelledInFront s.queues selections := by
  refine forall_congr' fun p => ?_
  obtain ⟨taken, htake⟩ := h p
  have hspelled : ((removedAt s t p).map fun e => e.token.spelling).Perm
      (taken.map fun e => e.token.spelling) := (removedAt_perm hd htake).map _
  have hclasses : (taken.map fun e => e.token.spelling).Perm
      ((boundAt selections p).map Token.spelling) ↔ ∀ v,
      ((taken.filter fun e => e.key = v).map fun e => e.token.spelling).Perm
        (((boundAt selections p).filter fun token => token.value = v).map Token.spelling) :=
    map_perm_iff_filter Token.value (fun e => e.token.value_spelling) Token.value_spelling
  have hfront (v : Token) : taken.filter (fun e => e.key = v) =
      ((s.queues.at_ p).filter fun e => e.key = v).take
        ((boundAt selections p).filter fun token => token.value = v).length := by
    rw [(takeEach_filter htake v).1, count_map_key]
  have hsame : ((removedAt s t p).map fun e => e.token.spelling).Perm
        ((boundAt selections p).map Token.spelling) ↔
      (taken.map fun e => e.token.spelling).Perm ((boundAt selections p).map Token.spelling) :=
    ⟨hspelled.symm.trans, hspelled.trans⟩
  rw [hsame, hclasses]
  refine forall_congr' fun v => ?_
  rw [hfront v]
  exact perm_comm

theorem consumption_faithful_iff (hs : Reachable D s) {store : Store} {binding : Binding}
    {atInstant : Option Instant} {o : FiringOccurrence}
    (h : begin_ D store binding atInstant s = (.ok o, t)) :
    o.binding = binding ∧
    ((∀ p, ((removedAt s t p).map fun e => e.token.spelling).Perm
        ((boundAt binding.consumed p).map Token.spelling)) ↔
      SpelledInFront s.queues binding.consumed) := by
  have hd := hs.reached.live.queue.distinct
  obtain ⟨k, rfl, -, rfl, rfl, -⟩ := begin_returned hs.reached.live h
  exact ⟨rfl, removedAt_spelled_iff hd (consumedEntries_at hd k.consumed_ok)⟩

lemma initial_reachable {m : Marking}
    (h : ∀ e ∈ m.queues.entries, validateInitialTokens D.net e.1 e.2 = .ok ()) :
    Reachable D (Instance.initial D m "i" 0) :=
  ⟨_, ⟨m, "i", 0, storesAll, create_eq_ok.mpr ⟨⟨by decide, h⟩, rfl, rfl⟩⟩, .refl⟩

/-! ## A gate for booleans -/

def gatePlace : NetPath := nodeP

/-- One transition whose arc admits nothing but `True`. -/
def gateNet : Net where
  places := [{ path := gatePlace }]
  transitions := [{ path := nodeT }]
  arcs := [⟨gatePlace, nodeT, .consume, 1, none, some (.symbol "flag"),
    Arc.weight_one⟩]
  valid := by decide

def gate : Definition where
  net := gateNet
  handlers := fun _ => passthroughHandler
  guards := fun _ _ _ => .ok true
  filters := fun _ token => .ok (decide (token.data = .bool true))
  scheduler := selectConservative
  sourcePlain := fun _ _ _ _ => rfl

def flag : Token := ⟨none, .bool true⟩

def numberOne : Token := ⟨none, .num (.int 1)⟩

def gateStart (tokens : List Token) : Instance :=
  Instance.initial gate (Marking.ofDict (Dict.ofList [(gatePlace, tokens)])) "i" 0

def gateBinding : Binding := Binding.selection nodeT [(gatePlace, [flag])] []

lemma gate_begins (tokens : List Token)
    (h : (begin_ gate storesAll gateBinding none (gateStart tokens)).1.toOption.isSome = true) :
    ∃ o, begin_ gate storesAll gateBinding none (gateStart tokens) =
      (.ok o, (begin_ gate storesAll gateBinding none (gateStart tokens)).2) := by
  cases hresult : (begin_ gate storesAll gateBinding none (gateStart tokens)).1 with
  | ok o => exact ⟨o, Prod.ext hresult rfl⟩
  | error e =>
    rw [hresult] at h
    cases h

lemma gate_decided : (Reachable gate (gateStart [flag]) ∧
      (begin_ gate storesAll gateBinding none (gateStart [flag])).1.toOption.isSome = true) ∧
    Reachable gate (gateStart [numberOne, flag]) ∧
      (candidates gate (gateStart [numberOne, flag]).marking 0
        (gateStart [numberOne, flag]).queues.entryInstants).toOption = some [gateBinding] ∧
      (begin_ gate storesAll gateBinding none
        (gateStart [numberOne, flag])).1.toOption.isSome = true :=
  ⟨⟨initial_reachable (by decide +kernel), by decide +kernel⟩,
    initial_reachable (by decide +kernel), by decide +kernel, by decide +kernel⟩

lemma gate_spelledInFront :
    SpelledInFront (gateStart [flag]).queues gateBinding.consumed := by
  intro p v
  by_cases hp : gatePlace = p
  · subst hp
    by_cases hv : flag.value = v
    · subst hv
      decide +kernel
    · have hnone : (boundAt gateBinding.consumed gatePlace).filter (fun t => t.value = v) = [] := by
        change [flag].filter (fun t => decide (t.value = v)) = []
        rw [filter_cons_of_neg (by simpa using hv), filter_nil]
      rw [hnone]
      exact List.Perm.refl _
  · have hnone : boundAt gateBinding.consumed p = [] := by
      change boundAt [(gatePlace, [flag])] p = []
      rw [boundAt_cons, if_neg hp]
      rfl
    rw [hnone]
    exact List.Perm.refl _

/-- Alone on its place, `True` is taken as it was selected. -/
theorem consumption_faithful_gate :
    ∃ o t, begin_ gate storesAll gateBinding none (gateStart [flag]) = (.ok o, t) ∧
      ∀ p, ((removedAt (gateStart [flag]) t p).map fun e => e.token.spelling).Perm
        ((boundAt gateBinding.consumed p).map Token.spelling) := by
  obtain ⟨⟨hreachable, hbegins⟩, -⟩ := gate_decided
  obtain ⟨o, hbegin⟩ := gate_begins [flag] hbegins
  exact ⟨o, _, hbegin, (consumption_faithful_iff hreachable hbegin).2.mpr gate_spelledInFront⟩

/-- The gate selects `True` and lets the `1` before it through. -/
theorem gate_takes_one : Reachable gate (gateStart [numberOne, flag]) ∧
    (candidates gate (gateStart [numberOne, flag]).marking 0
      (gateStart [numberOne, flag]).queues.entryInstants).toOption = some [gateBinding] ∧
    ∃ o t, begin_ gate storesAll gateBinding none (gateStart [numberOne, flag]) = (.ok o, t) ∧
      o.binding = gateBinding ∧ gateBinding.consumed = [(gatePlace, [flag])] ∧
      (removedAt (gateStart [numberOne, flag]) t gatePlace).map Entry.token = [numberOne] ∧
      (t.queues.at_ gatePlace).tokens = [flag] := by
  obtain ⟨-, hreachable, hcandidates, hbegins⟩ := gate_decided
  obtain ⟨o, hbegin⟩ := gate_begins [numberOne, flag] hbegins
  obtain ⟨k, hbinding, -, hk, -, -⟩ := begin_returned hreachable.reached.live hbegin
  have hsame : o.binding = gateBinding := by rw [hk, ← hbinding]; rfl
  exact ⟨hreachable, hcandidates, o, _, hbegin, hsame, rfl, by decide +kernel,
    by decide +kernel⟩

end Petrus.Impetus
