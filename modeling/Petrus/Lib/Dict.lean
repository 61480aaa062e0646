import Mathlib

/-!
# Insertion-ordered dictionaries

A dictionary is a list of entries with distinct keys. Writing a present key
replaces its value where it stands; writing an absent key appends the entry;
erasing keeps the order of the rest. Two dictionaries with the same lookups are
`Same`, whatever the order of their entries.
-/

namespace Petrus.Lib

open List

variable {K V W : Type} [DecidableEq K]

structure Dict (K V : Type) where
  entries : List (K × V)
  nodup : (entries.map Prod.fst).Nodup

namespace Dict

variable {k : K} {es : List (K × V)} {v : V} {d : Dict K V}

omit [DecidableEq K] in
@[ext] lemma ext_entries {a b : Dict K V} (h : a.entries = b.entries) : a = b := by
  cases a
  cases b
  simp_all

instance [DecidableEq V] : DecidableEq (Dict K V) := fun a b =>
  decidable_of_iff (a.entries = b.entries) ⟨ext_entries, fun h => h ▸ rfl⟩

def empty : Dict K V := ⟨[], nodup_nil⟩

def keys (d : Dict K V) : List K := d.entries.map Prod.fst

def values (d : Dict K V) : List V := d.entries.map Prod.snd

def lookup (k : K) : List (K × V) → Option V
  | [] => none
  | (j, v) :: es => if j = k then some v else lookup k es

def get? (d : Dict K V) (k : K) : Option V := lookup k d.entries

def contains (d : Dict K V) (k : K) : Bool := (d.get? k).isSome

def put (k : K) (v : V) : List (K × V) → List (K × V)
  | [] => [(k, v)]
  | (j, w) :: es => if j = k then (j, v) :: es else (j, w) :: put k v es

lemma put_keys (k : K) (v : V) (es : List (K × V)) :
    (put k v es).map Prod.fst =
      if k ∈ es.map Prod.fst then es.map Prod.fst else es.map Prod.fst ++ [k] := by
  induction es with
  | nil => rfl
  | cons e es ih =>
    obtain ⟨j, w⟩ := e
    by_cases hj : j = k
    · simp [put, hj]
    · simp only [put, hj, ↓reduceIte, map_cons, ih, mem_cons, Ne.symm hj, false_or]
      split_ifs <;> rfl

def set (d : Dict K V) (k : K) (v : V) : Dict K V where
  entries := put k v d.entries
  nodup := by
    rw [put_keys]
    split_ifs with h
    · exact d.nodup
    · exact nodup_append.mpr ⟨d.nodup, nodup_singleton k, by
        intro a ha b hb hab
        rw [mem_singleton.mp hb] at hab
        exact h (hab ▸ ha)⟩

def filter (d : Dict K V) (p : K → V → Bool) : Dict K V where
  entries := d.entries.filter fun e => p e.1 e.2
  nodup := d.nodup.sublist (List.Sublist.map Prod.fst filter_sublist)

def mapValues (f : K → V → W) (d : Dict K V) : Dict K W where
  entries := d.entries.map fun e => (e.1, f e.1 e.2)
  nodup := by simpa [Function.comp_def] using d.nodup

def erase (d : Dict K V) (k : K) : Dict K V := d.filter fun j _ => decide (j ≠ k)

def ofList (es : List (K × V)) : Dict K V := es.foldl (fun d e => d.set e.1 e.2) empty

def Same (a b : Dict K V) : Prop := ∀ k, a.get? k = b.get? k

lemma Same.refl (d : Dict K V) : Same d d := fun _ => rfl

@[simp] lemma get?_empty (k : K) : (empty : Dict K V).get? k = none := rfl

lemma lookup_eq_none :
    lookup k es = none ↔ k ∉ es.map Prod.fst := by
  induction es with
  | nil => simp [lookup]
  | cons e es ih =>
    obtain ⟨j, w⟩ := e
    by_cases hj : j = k
    · simp [lookup, hj]
    · simp [lookup, hj, ih, Ne.symm hj]

lemma mem_of_lookup (h : lookup k es = some v) :
    (k, v) ∈ es := by
  induction es with
  | nil => simp [lookup] at h
  | cons e es ih =>
    obtain ⟨j, w⟩ := e
    by_cases hj : j = k
    · simp only [lookup, hj, ↓reduceIte, Option.some.injEq] at h
      simp [hj, h]
    · simp only [lookup, hj, ↓reduceIte] at h
      exact mem_cons_of_mem _ (ih h)

lemma lookup_of_mem (hn : (es.map Prod.fst).Nodup) (h : (k, v) ∈ es) : lookup k es = some v := by
  induction es with
  | nil => simp at h
  | cons e es ih =>
    obtain ⟨j, w⟩ := e
    simp only [map_cons, nodup_cons] at hn
    rcases mem_cons.mp h with he | he
    · cases he
      simp [lookup]
    · have hj : j ≠ k := by
        rintro rfl
        exact hn.1 (mem_map_of_mem (f := Prod.fst) he)
      simp only [lookup, hj, ↓reduceIte]
      exact ih hn.2 he

lemma get?_eq_some : d.get? k = some v ↔ (k, v) ∈ d.entries :=
  ⟨mem_of_lookup, lookup_of_mem d.nodup⟩

lemma get?_eq_none : d.get? k = none ↔ k ∉ d.keys := lookup_eq_none

lemma contains_iff : d.contains k = true ↔ k ∈ d.keys := by
  unfold contains
  rw [← not_iff_not, ← get?_eq_none]
  cases d.get? k <;> simp

lemma contains_iff_get? :
    d.contains k = true ↔ ∃ v, d.get? k = some v := by
  unfold contains
  cases d.get? k <;> simp

lemma mem_keys_iff : k ∈ d.keys ↔ ∃ v, d.get? k = some v := by
  rw [← contains_iff, contains_iff_get?]

lemma mem_keys_of_get? (h : d.get? k = some v) : k ∈ d.keys :=
  mem_keys_iff.mpr ⟨v, h⟩

lemma contains_eq_false : d.contains k = false ↔ d.get? k = none := by
  unfold contains
  cases d.get? k <;> simp

lemma lookup_put (k j : K) (v : V) (es : List (K × V)) :
    lookup j (put k v es) = if k = j then some v else lookup j es := by
  induction es with
  | nil => rfl
  | cons e es ih =>
    obtain ⟨i, w⟩ := e
    by_cases hi : i = k
    · subst hi
      by_cases hij : i = j <;> simp [put, lookup, hij]
    · by_cases hij : i = j
      · subst hij
        simp [put, lookup, hi, Ne.symm hi]
      · simp [put, lookup, hi, hij, ih]

lemma get?_set (d : Dict K V) (k j : K) (v : V) :
    (d.set k v).get? j = if k = j then some v else d.get? j := lookup_put k j v d.entries

@[simp] lemma get?_set_self (d : Dict K V) (k : K) (v : V) : (d.set k v).get? k = some v := by
  simp [get?_set]

lemma get?_set_ne (d : Dict K V) {k j : K} (v : V) (h : k ≠ j) :
    (d.set k v).get? j = d.get? j := by
  simp [get?_set, h]

lemma put_put (k : K) (v w : V) (es : List (K × V)) : put k w (put k v es) = put k w es := by
  induction es with
  | nil => simp [put]
  | cons e es ih =>
    obtain ⟨j, u⟩ := e
    by_cases h : j = k
    · simp [put, h]
    · simp [put, h, ih]

@[simp] lemma set_set (d : Dict K V) (k : K) (v w : V) : (d.set k v).set k w = d.set k w :=
  ext_entries (put_put k v w d.entries)

lemma put_of_lookup (h : lookup k es = some v) :
    put k v es = es := by
  induction es with
  | nil => cases h
  | cons e es ih =>
    obtain ⟨j, w⟩ := e
    by_cases hj : j = k
    · simp only [lookup, hj, ↓reduceIte, Option.some.injEq] at h
      simp [put, hj, h]
    · simp only [lookup, hj, ↓reduceIte] at h
      simp [put, hj, ih h]

lemma set_of_get? (h : d.get? k = some v) : d.set k v = d :=
  ext_entries (put_of_lookup h)

lemma lookup_filter_key (p : K → Bool) (j : K) (es : List (K × V)) :
    lookup j (es.filter fun e => p e.1) = if p j then lookup j es else none := by
  induction es with
  | nil => simp [lookup]
  | cons e es ih =>
    obtain ⟨i, w⟩ := e
    by_cases hi : i = j
    · subst hi
      by_cases hp : p i = true
      · simp [hp, lookup]
      · simp only [Bool.not_eq_true] at hp
        simpa [hp] using ih
    · by_cases hp : p i = true
      · simp [hp, lookup, hi, ih]
      · simp [hp, lookup, hi, ih]

lemma get?_filter_key (d : Dict K V) (p : K → Bool) (j : K) :
    (d.filter fun k _ => p k).get? j = if p j then d.get? j else none :=
  lookup_filter_key p j d.entries

lemma get?_erase (d : Dict K V) (k j : K) :
    (d.erase k).get? j = if k = j then none else d.get? j := by
  rw [erase, get?_filter_key]
  by_cases h : k = j
  · simp [h]
  · simp [h, Ne.symm h]

@[simp] lemma get?_erase_self (d : Dict K V) (k : K) : (d.erase k).get? k = none := by
  simp [get?_erase]

lemma get?_erase_ne (d : Dict K V) {k j : K} (h : k ≠ j) : (d.erase k).get? j = d.get? j := by
  simp [get?_erase, h]

lemma put_of_not_mem (h : k ∉ es.map Prod.fst) :
    put k v es = es ++ [(k, v)] := by
  induction es with
  | nil => rfl
  | cons e es ih =>
    obtain ⟨j, w⟩ := e
    simp only [map_cons, mem_cons, not_or] at h
    simp [put, Ne.symm h.1, ih h.2]

lemma entries_set_of_absent (h : d.get? k = none) (v : V) :
    (d.set k v).entries = d.entries ++ [(k, v)] :=
  put_of_not_mem (get?_eq_none.mp h)

lemma values_set_of_absent (h : d.get? k = none) (v : V) :
    (d.set k v).values = d.values ++ [v] := by
  simp [values, entries_set_of_absent h]

lemma keys_set (d : Dict K V) (k : K) (v : V) :
    (d.set k v).keys = if k ∈ d.keys then d.keys else d.keys ++ [k] := put_keys k v d.entries

lemma mem_keys_set {k j : K} :
    j ∈ (d.set k v).keys ↔ j = k ∨ j ∈ d.keys := by
  rw [keys_set]
  split_ifs with h
  · constructor
    · exact .inr
    · rintro (rfl | hj)
      exacts [h, hj]
  · simp [or_comm]

lemma entries_erase (d : Dict K V) (k : K) :
    (d.erase k).entries = d.entries.filter fun e => decide (e.1 ≠ k) := rfl

lemma mem_entries_erase {e : K × V} :
    e ∈ (d.erase k).entries ↔ e ∈ d.entries ∧ e.1 ≠ k := by
  simp [entries_erase]

lemma erase_absent (h : d.get? k = none) : d.erase k = d := by
  apply ext_entries
  rw [entries_erase, filter_eq_self]
  intro e he
  rw [decide_eq_true_eq]
  rintro rfl
  exact get?_eq_none.mp h (mem_map_of_mem he)

lemma filter_erase (d : Dict K V) (k : K) (p : K → V → Bool) :
    (d.erase k).filter p = d.filter fun j v => decide (j ≠ k) && p j v := by
  apply ext_entries
  change (d.entries.filter _).filter _ = d.entries.filter _
  rw [filter_filter]
  exact filter_congr fun e _ => Bool.and_comm _ _

lemma mem_values : v ∈ d.values ↔ ∃ k, d.get? k = some v := by
  simp only [values, mem_map, Prod.exists, exists_eq_right, get?_eq_some]

lemma get?_filter {p : K → V → Bool} :
    (d.filter p).get? k = some v ↔ d.get? k = some v ∧ p k v = true := by
  rw [get?_eq_some, get?_eq_some]
  exact mem_filter

lemma get?_filter_none {p : K → V → Bool} (h : d.get? k = none) :
    (d.filter p).get? k = none := by
  cases hk : (d.filter p).get? k with
  | none => rfl
  | some v =>
    rw [get?_filter, h] at hk
    cases hk.1

lemma get?_addAll (hn : (es.map Prod.fst).Nodup) (d : Dict K V) (k : K) :
    (es.foldl (fun d e => d.set e.1 e.2) d).get? k = (lookup k es).or (d.get? k) := by
  induction es generalizing d with
  | nil => simp [lookup]
  | cons e es ih =>
    obtain ⟨j, v⟩ := e
    simp only [map_cons, nodup_cons] at hn
    rw [foldl_cons, ih hn.2]
    by_cases hj : j = k
    · subst hj
      have hl : lookup j es = none := lookup_eq_none.mpr hn.1
      simp [lookup, hl]
    · simp [lookup, hj, get?_set]

lemma entries_addAll (hn : ((d.entries ++ es).map Prod.fst).Nodup) :
    (es.foldl (fun d e => d.set e.1 e.2) d).entries = d.entries ++ es := by
  induction es generalizing d with
  | nil => simp
  | cons e es ih =>
    obtain ⟨j, v⟩ := e
    have hj : d.get? j = none := by
      rw [get?_eq_none]
      intro hk
      simp only [map_append, map_cons, nodup_append] at hn
      exact hn.2.2 j hk j (by simp) rfl
    rw [foldl_cons, ih]
    · simp [entries_set_of_absent hj]
    · simpa [entries_set_of_absent hj] using hn

lemma get?_ofList (hn : (es.map Prod.fst).Nodup) (k : K) :
    (ofList es).get? k = lookup k es := by
  rw [ofList, get?_addAll hn, get?_empty, Option.or_none]

lemma entries_ofList (hn : (es.map Prod.fst).Nodup) :
    (ofList es).entries = es :=
  entries_addAll (d := empty) (by simpa [empty] using hn)

lemma ofList_entries (d : Dict K V) : ofList d.entries = d :=
  ext_entries (entries_ofList d.nodup)

lemma ofList_keys (d : Dict K V) (v : V) :
    ofList (d.keys.map fun k => (k, (d.get? k).getD v)) = d := by
  have hentries : (d.keys.map fun k => (k, (d.get? k).getD v)) = d.entries := by
    rw [keys, map_map]
    conv_rhs => rw [← map_id d.entries]
    apply map_congr_left
    intro e he
    have hget : d.get? e.1 = some e.2 := get?_eq_some.mpr he
    simp [hget]
  rw [hentries, ofList_entries]

lemma flatten_put {α : Type} (k : K) (v : List α) (es : List (K × List α)) :
    (((put k v es).map Prod.snd).flatten ++ (lookup k es).getD []).Perm
      ((es.map Prod.snd).flatten ++ v) := by
  induction es with
  | nil => simp [put, lookup]
  | cons e es ih =>
    obtain ⟨j, w⟩ := e
    by_cases h : j = k
    · simp only [put, lookup, h, if_true, map_cons, flatten_cons, Option.getD_some]
      have hswap : (v ++ (es.map Prod.snd).flatten).Perm ((es.map Prod.snd).flatten ++ v) :=
        perm_append_comm
      refine (hswap.append_right w).trans ?_
      rw [append_assoc]
      refine (perm_append_comm.append_left _).trans ?_
      rw [← append_assoc]
      exact perm_append_comm.append_right v
    · simp only [put, lookup, h, if_false, map_cons, flatten_cons, append_assoc]
      exact ih.append_left w

lemma values_flatten_set {α : Type} (d : Dict K (List α)) (k : K) (v : List α) :
    ((d.set k v).values.flatten ++ (d.get? k).getD []).Perm (d.values.flatten ++ v) :=
  flatten_put k v d.entries

lemma lookup_mapValues (f : K → V → W) (k : K) (es : List (K × V)) :
    lookup k (es.map fun e => (e.1, f e.1 e.2)) = (lookup k es).map (f k) := by
  induction es with
  | nil => rfl
  | cons e es ih =>
    obtain ⟨j, w⟩ := e
    by_cases h : j = k
    · subst h
      simp [lookup]
    · simpa [lookup, h] using ih

lemma get?_mapValues (f : K → V → W) (d : Dict K V) (k : K) :
    (d.mapValues f).get? k = (d.get? k).map (f k) := lookup_mapValues f k d.entries

lemma put_mid (v w : V) {done todo : List (K × V)} (h : k ∉ done.map Prod.fst) :
    put k v (done ++ (k, w) :: todo) = done ++ (k, v) :: todo := by
  induction done with
  | nil => simp [put]
  | cons e done ih =>
    simp only [map_cons, mem_cons, not_or] at h
    simp [put, Ne.symm h.1, ih h.2]

lemma sum_values_erase (h : d.get? k = some v) (f : V → Nat) :
    (d.values.map f).sum = f v + ((d.erase k).values.map f).sum := by
  have hsum : ∀ es : List (K × V), (es.map Prod.fst).Nodup → lookup k es = some v →
      (es.map fun e => f e.2).sum =
        f v + ((es.filter fun e => decide (e.1 ≠ k)).map fun e => f e.2).sum := by
    intro es
    induction es with
    | nil => exact fun _ hnone => nomatch hnone
    | cons e es ih =>
      intro hnodup hlookup
      rw [map_cons, nodup_cons] at hnodup
      unfold lookup at hlookup
      by_cases hkey : e.1 = k
      · rw [if_pos hkey] at hlookup
        have hrest : es.filter (fun e => decide (e.1 ≠ k)) = es := by
          refine filter_eq_self.mpr fun a ha => decide_eq_true ?_
          intro heq
          exact hnodup.1 (hkey.trans heq.symm ▸ mem_map_of_mem ha)
        rw [filter_cons_of_neg (by simp [hkey]), hrest, map_cons, sum_cons, Option.some.inj hlookup]
      · rw [if_neg hkey] at hlookup
        rw [filter_cons_of_pos (by simp [hkey]), map_cons, map_cons, sum_cons,
          sum_cons, ih hnodup.2 hlookup]
        omega
  have hall := hsum d.entries d.nodup h
  rw [values, values, map_map, map_map, entries_erase]
  exact hall

lemma sum_entries_key (d : Dict K V) (k : K) (f : V → Nat) :
    (d.entries.map fun e => if k = e.1 then f e.2 else 0).sum = ((d.get? k).map f).getD 0 := by
  have hsum : ∀ es : List (K × V), (es.map Prod.fst).Nodup →
      (es.map fun e => if k = e.1 then f e.2 else 0).sum = ((lookup k es).map f).getD 0 := by
    intro es
    induction es with
    | nil => exact fun _ => rfl
    | cons e es ih =>
      intro hnodup
      rw [map_cons, nodup_cons] at hnodup
      have hcons : lookup k (e :: es) = if e.1 = k then some e.2 else lookup k es := rfl
      rw [map_cons, sum_cons, ih hnodup.2, hcons]
      by_cases hkey : e.1 = k
      · have hrest : lookup k es = none := lookup_eq_none.mpr (hkey ▸ hnodup.1)
        rw [if_pos hkey.symm, if_pos hkey, hrest]
        rfl
      · rw [if_neg (Ne.symm hkey), if_neg hkey, Nat.zero_add]
  exact hsum d.entries d.nodup

lemma sum_lookups {α : Type} (d : Dict K V) (key : α → K) (f : V → Nat) (as : List α) :
    (as.map fun a => ((d.get? (key a)).map f).getD 0).sum =
      (d.entries.map fun e => f e.2 * as.countP fun a => decide (key a = e.1)).sum := by
  induction as with
  | nil => simp
  | cons a as ih =>
    have hsplit (e : K × V) : (f e.2 * (a :: as).countP fun a => decide (key a = e.1)) =
        (if key a = e.1 then f e.2 else 0) + f e.2 * as.countP fun a => decide (key a = e.1) := by
      rw [countP_cons, Nat.mul_add]
      split_ifs with hkey <;> simp_all [Nat.add_comm]
    rw [map_cons, sum_cons, ih, map_congr_left fun e _ => hsplit e,
      sum_map_add, sum_entries_key]

end Dict

end Petrus.Lib
