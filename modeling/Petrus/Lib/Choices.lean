import Mathlib

/-!
# Combinations and products in enumeration order

`combinations n xs` lists the choices of `n` elements of `xs` lexicographically,
`product` lists the choices of one element per list with the last list varying
fastest. Both orders are those of the standard iteration tools, and both keep the order
of what they choose from.
-/

namespace Petrus.Lib

open List

variable {α : Type}

def combinations : Nat → List α → List (List α)
  | 0, _ => [[]]
  | _ + 1, [] => []
  | n + 1, a :: as => (combinations n as).map (a :: ·) ++ combinations (n + 1) as

def product : List (List α) → List (List α)
  | [] => [[]]
  | xs :: rest => xs.flatMap fun x => (product rest).map (x :: ·)

lemma mem_combinations {n : Nat} {xs c : List α} :
    c ∈ combinations n xs ↔ c.Sublist xs ∧ c.length = n := by
  induction xs generalizing n c with
  | nil =>
    cases n with
    | zero => simp [combinations]
    | succ n =>
      simp only [combinations, not_mem_nil, sublist_nil, false_iff, not_and]
      intro h
      simp [h]
  | cons a xs ih =>
    cases n with
    | zero =>
      simp only [combinations, mem_singleton, length_eq_zero_iff]
      constructor
      · intro h
        exact ⟨h ▸ nil_sublist _, h⟩
      · exact And.right
    | succ n =>
      simp only [combinations, mem_append, mem_map, ih]
      constructor
      · intro h
        rcases h with ⟨d, ⟨hd, hlen⟩, rfl⟩ | ⟨hc, hlen⟩
        · exact ⟨hd.cons_cons a, by simp [hlen]⟩
        · exact ⟨hc.cons a, hlen⟩
      · intro ⟨hc, hlen⟩
        cases hc with
        | cons _ h => exact .inr ⟨h, hlen⟩
        | cons_cons _ h => exact .inl ⟨_, ⟨h, by simpa using hlen⟩, rfl⟩

lemma mem_product {xss : List (List α)} {c : List α} :
    c ∈ product xss ↔ List.Forall₂ (· ∈ ·) c xss := by
  induction xss generalizing c with
  | nil => simp [product]
  | cons xs xss ih =>
    simp only [product, mem_flatMap, mem_map, ih]
    constructor
    · intro ⟨x, hx, d, hd, h⟩
      subst h
      exact List.Forall₂.cons hx hd
    · intro h
      cases h with
      | cons hx hd => exact ⟨_, hx, _, hd, rfl⟩

lemma combinations_sorted [LT α] {n : Nat} {xs : List α} (h : xs.Pairwise (· < ·)) :
    (combinations n xs).Pairwise (· < ·) := by
  induction xs generalizing n with
  | nil => cases n <;> simp [combinations]
  | cons a xs ih =>
    cases n with
    | zero => simp [combinations]
    | succ n =>
      obtain ⟨hfirst, hrest⟩ := pairwise_cons.mp h
      refine pairwise_append.mpr ⟨?_, ih hrest, ?_⟩
      · exact pairwise_map.mpr ((ih hrest).imp fun hlt => List.Lex.cons hlt)
      · intro c hc d hd
        obtain ⟨c, -, rfl⟩ := mem_map.mp hc
        obtain ⟨hsub, hlen⟩ := mem_combinations.mp hd
        cases d with
        | nil => cases hlen
        | cons b d => exact List.Lex.rel (hfirst b (hsub.subset (by simp)))

lemma product_sorted [LT α] {xss : List (List α)} (h : ∀ xs ∈ xss, xs.Pairwise (· < ·)) :
    (product xss).Pairwise (· < ·) := by
  induction xss with
  | nil => simp [product]
  | cons xs xss ih =>
    obtain ⟨hxs, hrest⟩ := forall_mem_cons.mp h
    rw [product, pairwise_flatMap]
    refine ⟨fun x _ => ?_, hxs.imp fun hlt c hc d hd => ?_⟩
    · exact pairwise_map.mpr ((ih hrest).imp fun hlt => List.Lex.cons hlt)
    · obtain ⟨c, -, rfl⟩ := mem_map.mp hc
      obtain ⟨d, -, rfl⟩ := mem_map.mp hd
      exact List.Lex.rel hlt

lemma product_map {β γ : Type} (l : List γ) (g : γ → List α) (f : γ → α → β) :
    product (l.map fun c => (g c).map (f c)) =
      (product (l.map g)).map fun choice => List.zipWith f l choice := by
  induction l with
  | nil => rfl
  | cons c l ih =>
    simp only [map_cons, product, ih, flatMap_map, map_flatMap, map_map]
    rfl

lemma filter_flatMap_key {α β κ : Type} [DecidableEq κ] {key : α → κ} {tag : β → κ}
    {f : α → List β} {as : List α} (htag : ∀ a ∈ as, ∀ b ∈ f a, tag b = key a)
    (hnodup : (as.map key).Nodup) {a : α} (ha : a ∈ as) :
    (as.flatMap f).filter (fun b => tag b = key a) = f a := by
  induction as with
  | nil => cases ha
  | cons c as ih =>
    obtain ⟨hc, hrest⟩ := forall_mem_cons.mp htag
    rw [map_cons, nodup_cons] at hnodup
    rw [flatMap_cons, filter_append]
    rcases mem_cons.mp ha with rfl | hmem
    · have hhere : (f a).filter (fun b => tag b = key a) = f a :=
        filter_eq_self.mpr fun b hb => by simp [hc b hb]
      have hlater : (as.flatMap f).filter (fun b => tag b = key a) = [] := by
        rw [filter_eq_nil_iff]
        intro b hb
        obtain ⟨c, hcmem, hbc⟩ := mem_flatMap.mp hb
        rw [hrest c hcmem b hbc, decide_eq_true_eq]
        intro heq
        exact hnodup.1 (heq ▸ mem_map_of_mem hcmem)
      rw [hhere, hlater, append_nil]
    · have hhere : (f c).filter (fun b => tag b = key a) = [] := by
        rw [filter_eq_nil_iff]
        intro b hb
        rw [hc b hb, decide_eq_true_eq]
        intro heq
        exact hnodup.1 (heq ▸ mem_map_of_mem hmem)
      rw [hhere, nil_append]
      exact ih hrest hnodup.2 hmem

end Petrus.Lib
