import Mathlib

/-!
# Prefixes up to a relation

`as` is a prefix of `bs` up to `R` when `bs` starts with a list related to `as` item
by item. With equality for `R` this is the usual prefix order. Appending to `bs`
keeps such a prefix; the item of `bs` that follows it extends it by one.
-/

namespace Petrus.Lib

open List

variable {α β : Type} {R : α → β → Prop} {as : List α} {bs : List β}

def PrefixBy (R : α → β → Prop) (as : List α) (bs : List β) : Prop :=
  List.Forall₂ R as (bs.take as.length)

namespace PrefixBy

lemma nil : PrefixBy R [] bs := by simp [PrefixBy]

lemma length_le (h : PrefixBy R as bs) : as.length ≤ bs.length := by
  have hlength := h.length_eq
  rw [length_take] at hlength
  omega

lemma append (h : PrefixBy R as bs) (cs : List β) : PrefixBy R as (bs ++ cs) := by
  unfold PrefixBy
  rwa [take_append_of_le_length h.length_le]

lemma of_forall₂ (h : List.Forall₂ R as bs) : PrefixBy R as bs := by
  unfold PrefixBy
  rwa [h.length_eq, take_length]

lemma snoc (h : PrefixBy R as bs) {a : α} {b : β} (hb : bs[as.length]? = some b) (hab : R a b) :
    PrefixBy R (as ++ [a]) bs := by
  unfold PrefixBy
  rw [length_append, length_singleton, take_add_one, hb]
  exact rel_append h (List.Forall₂.cons hab .nil)

end PrefixBy

end Petrus.Lib
