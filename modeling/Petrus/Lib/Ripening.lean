import Mathlib

/-!
# Items that ripen

A list of items, each ripe from its own instant on or, where it has none, all the
time. What is ripe only grows. It stays as it is until the earliest instant still
awaited and is longer from there on, and what is awaited then is less.
-/

namespace Petrus.Lib

open List

variable {α τ : Type} [LinearOrder τ]

def ripened (w : τ) (item : α × Option τ) : Option α :=
  match item.2 with
  | none => some item.1
  | some i => if i ≤ w then some item.1 else none

def awaited (w : τ) (item : α × Option τ) : Option τ :=
  match item.2 with
  | none => none
  | some i => if i ≤ w then none else some i

/-- Items ripe at `w`, in order. -/
def ripe (w : τ) (items : List (α × Option τ)) : List α := items.filterMap (ripened w)

/-- Instants after `w` at which an item ripens, in the order of the items. -/
def awaiting (w : τ) (items : List (α × Option τ)) : List τ := items.filterMap (awaited w)

variable {w w' i : τ} {items : List (α × Option τ)}

lemma lt_of_mem_awaiting (h : i ∈ awaiting w items) : w < i := by
  obtain ⟨⟨a, due⟩, -, hdue⟩ := mem_filterMap.mp h
  cases due with
  | none => cases hdue
  | some j =>
    change (if j ≤ w then none else some j) = some i at hdue
    split_ifs at hdue with hle
    cases hdue
    exact not_le.mp hle

lemma ripe_sublist (h : w ≤ w') (items : List (α × Option τ)) :
    (ripe w items).Sublist (ripe w' items) := by
  induction items with
  | nil => exact .slnil
  | cons item items ih =>
    obtain ⟨a, due⟩ := item
    unfold ripe at ih ⊢
    simp only [filterMap_cons, ripened]
    cases due with
    | none => exact ih.cons_cons a
    | some i =>
      by_cases hnow : i ≤ w
      · simp only [if_pos hnow, if_pos (hnow.trans h)]
        exact ih.cons_cons a
      · simp only [if_neg hnow]
        by_cases hlater : i ≤ w'
        · simp only [if_pos hlater]
          exact ih.cons a
        · simp only [if_neg hlater]
          exact ih

lemma awaiting_later (h : w ≤ w') (items : List (α × Option τ)) :
    awaiting w' items = (awaiting w items).filter fun i => w' < i := by
  unfold awaiting
  rw [filter_filterMap]
  refine filterMap_congr fun item _ => ?_
  obtain ⟨a, due⟩ := item
  cases due with
  | none => rfl
  | some i =>
    by_cases hlater : i ≤ w'
    · by_cases hnow : i ≤ w <;> simp [awaited, Option.filter, hlater, hnow]
    · have hnow : ¬ i ≤ w := fun hle => hlater (hle.trans h)
      simp [awaited, Option.filter, hnow, not_le.mp hlater]

lemma length_ripe_add_awaiting (w : τ) (items : List (α × Option τ)) :
    (ripe w items).length + (awaiting w items).length = items.length := by
  induction items with
  | nil => rfl
  | cons item items ih =>
    obtain ⟨a, due⟩ := item
    unfold ripe awaiting at ih ⊢
    simp only [filterMap_cons, ripened, awaited]
    cases due with
    | none => simp only [length_cons]; omega
    | some i => by_cases hnow : i ≤ w <;> simp only [hnow, ↓reduceIte, length_cons] <;> omega

lemma length_awaiting_lt (h : w ≤ w') (hi : i ∈ awaiting w items) (hcome : i ≤ w') :
    (awaiting w' items).length < (awaiting w items).length := by
  rw [awaiting_later h, length_filter_lt_length_iff_exists]
  exact ⟨i, hi, by simpa using hcome⟩

lemma length_ripe_lt (h : w ≤ w') (hi : i ∈ awaiting w items) (hcome : i ≤ w') :
    (ripe w items).length < (ripe w' items).length := by
  have hnow := length_ripe_add_awaiting w items
  have hlater := length_ripe_add_awaiting w' items
  have hless := length_awaiting_lt h hi hcome
  omega

lemma ripe_unchanged (h : w ≤ w') (hnone : ∀ i ∈ awaiting w items, w' < i) :
    ripe w' items = ripe w items := by
  have hsame : awaiting w' items = awaiting w items := by
    rw [awaiting_later h, filter_eq_self]
    intro i hi
    exact decide_eq_true (hnone i hi)
  have hnow := length_ripe_add_awaiting w items
  have hlater := length_ripe_add_awaiting w' items
  rw [hsame] at hlater
  exact ((ripe_sublist h items).eq_of_length (by omega)).symm

end Petrus.Lib
