import Mathlib

/-!
# Front-most removal by key

A queue answers a list of requested keys by giving up, request by request, the
front-most element that has the key. The queue left over keeps its order, what
was taken and what is left make up the queue, and per key the taken elements are
the first ones of the queue with that key.
-/

namespace Petrus.Lib

open List

variable {α β κ ι : Type} [DecidableEq κ] [DecidableEq ι]

def takeFirst (key : α → κ) (k : κ) : List α → Option (α × List α)
  | [] => none
  | a :: as =>
    if key a = k then some (a, as)
    else (takeFirst key k as).map fun p => (p.1, a :: p.2)

def takeEach (key : α → κ) : List κ → List α → Option (List α × List α)
  | [], q => some ([], q)
  | k :: ks, q => do
    let (a, rest) ← takeFirst key k q
    let (as, rest) ← takeEach key ks rest
    return (a :: as, rest)

section

variable {key : α → κ} {k : κ} {ks : List κ} {q rest taken : List α} {a : α}

lemma takeFirst_eq_none : takeFirst key k q = none ↔ ∀ a ∈ q, key a ≠ k := by
  induction q with
  | nil => simp [takeFirst]
  | cons b q ih =>
    by_cases h : key b = k
    · simp [takeFirst, h]
    · simp [takeFirst, h, ih]

lemma takeFirst_eq_some : takeFirst key k q = some (a, rest) ↔
    ∃ before after, q = before ++ a :: after ∧ rest = before ++ after ∧ key a = k ∧
      ∀ b ∈ before, key b ≠ k := by
  induction q generalizing rest with
  | nil => simp [takeFirst]
  | cons b q ih =>
    by_cases h : key b = k
    · simp only [takeFirst, h, if_true, Option.some.injEq, Prod.mk.injEq]
      constructor
      · rintro ⟨rfl, rfl⟩
        exact ⟨[], q, by simp, by simp, h, by simp⟩
      · rintro ⟨before, after, hq, hrest, -, hbefore⟩
        cases before with
        | nil => simp_all
        | cons c before =>
          simp only [cons_append, List.cons.injEq] at hq
          exact absurd (hq.1 ▸ h) (hbefore c (by simp))
    · simp only [takeFirst, h, if_false, Option.map_eq_some_iff, Prod.mk.injEq]
      constructor
      · rintro ⟨⟨c, r⟩, hc, rfl, rfl⟩
        obtain ⟨before, after, rfl, rfl, hk, hb⟩ := ih.mp hc
        exact ⟨b :: before, after, by simp, by simp, hk, by simpa [h] using hb⟩
      · rintro ⟨before, after, hq, hrest, hk, hb⟩
        cases before with
        | nil =>
          simp only [nil_append, List.cons.injEq] at hq
          exact absurd (hq.1 ▸ hk) h
        | cons c before =>
          simp only [cons_append, List.cons.injEq] at hq
          refine ⟨(a, before ++ after), ih.mpr ⟨before, after, hq.2, rfl, hk, ?_⟩, rfl, ?_⟩
          · exact fun d hd => hb d (by simp [hd])
          · rw [hrest, hq.1, cons_append]

lemma takeEach_cons : takeEach key (k :: ks) q = some (taken, rest) ↔
    ∃ a mid as, takeFirst key k q = some (a, mid) ∧ takeEach key ks mid = some (as, rest) ∧
      taken = a :: as := by
  simp only [takeEach, Option.bind_eq_bind, Option.bind_eq_some_iff, Option.pure_def,
    Option.some.injEq, Prod.mk.injEq, Prod.exists]
  constructor
  · rintro ⟨a, mid, h₁, as, r, h₂, rfl, rfl⟩
    exact ⟨a, mid, as, h₁, h₂, rfl⟩
  · rintro ⟨a, mid, as, h₁, h₂, rfl⟩
    exact ⟨a, mid, h₁, as, rest, h₂, rfl, rfl⟩

lemma takeEach_keys (h : takeEach key ks q = some (taken, rest)) : taken.map key = ks := by
  induction ks generalizing q taken with
  | nil =>
    cases h
    rfl
  | cons k ks ih =>
    obtain ⟨a, mid, as, h₁, h₂, rfl⟩ := takeEach_cons.mp h
    obtain ⟨-, -, -, -, hk, -⟩ := takeFirst_eq_some.mp h₁
    rw [map_cons, ih h₂, hk]

lemma takeEach_length (h : takeEach key ks q = some (taken, rest)) :
    taken.length = ks.length := by
  rw [← takeEach_keys h, length_map]

lemma takeEach_perm (h : takeEach key ks q = some (taken, rest)) :
    q.Perm (taken ++ rest) := by
  induction ks generalizing q taken with
  | nil =>
    cases h
    exact List.Perm.refl _
  | cons k ks ih =>
    obtain ⟨a, mid, as, h₁, h₂, rfl⟩ := takeEach_cons.mp h
    obtain ⟨before, after, rfl, rfl, -, -⟩ := takeFirst_eq_some.mp h₁
    exact perm_middle.trans (List.Perm.cons a (ih h₂))

lemma takeEach_sublist (h : takeEach key ks q = some (taken, rest)) : rest.Sublist q := by
  induction ks generalizing q taken with
  | nil =>
    cases h
    exact List.Sublist.refl _
  | cons k ks ih =>
    obtain ⟨a, mid, as, h₁, h₂, rfl⟩ := takeEach_cons.mp h
    obtain ⟨before, after, rfl, rfl, -, -⟩ := takeFirst_eq_some.mp h₁
    exact (ih h₂).trans ((sublist_cons_self a after).append_left before)

lemma mem_of_mem_taken (h : takeEach key ks q = some (taken, rest)) (ha : a ∈ taken) :
    a ∈ q :=
  (takeEach_perm h).mem_iff.mpr (mem_append_left _ ha)

lemma takeFirst_filter (h : takeFirst key k q = some (a, rest)) (k' : κ) :
    q.filter (fun b => key b = k') =
      if k = k' then a :: rest.filter (fun b => key b = k')
      else rest.filter (fun b => key b = k') := by
  obtain ⟨before, after, rfl, rfl, hk, hb⟩ := takeFirst_eq_some.mp h
  split_ifs with hkk
  · subst hkk
    have hnone : before.filter (fun b => key b = k) = [] := by
      simpa [filter_eq_nil_iff] using hb
    simp [filter_append, hnone, hk]
  · simp [filter_append, hk, hkk]

lemma takeEach_filter (h : takeEach key ks q = some (taken, rest)) (k : κ) :
    taken.filter (fun b => key b = k) = (q.filter fun b => key b = k).take (ks.count k) ∧
      rest.filter (fun b => key b = k) = (q.filter fun b => key b = k).drop (ks.count k) := by
  induction ks generalizing q taken with
  | nil =>
    cases h
    simp
  | cons k₀ ks ih =>
    obtain ⟨a, mid, as, h₁, h₂, rfl⟩ := takeEach_cons.mp h
    obtain ⟨-, -, -, -, hk, -⟩ := takeFirst_eq_some.mp h₁
    obtain ⟨ht, hr⟩ := ih h₂
    rw [takeFirst_filter h₁ k]
    by_cases hkk : k₀ = k
    · subst hkk
      simp [hk, ht, hr]
    · simp [hk, hkk, ht, hr]

lemma takeEach_append {ls : List κ} {mid other : List α}
    (h : takeEach key ks q = some (taken, mid)) (h' : takeEach key ls mid = some (other, rest)) :
    takeEach key (ks ++ ls) q = some (taken ++ other, rest) := by
  induction ks generalizing q taken with
  | nil =>
    cases h
    exact h'
  | cons k ks ih =>
    obtain ⟨a, next, as, hfirst, hrest, rfl⟩ := takeEach_cons.mp h
    exact takeEach_cons.mpr ⟨a, next, as ++ other, hfirst, ih hrest, rfl⟩

lemma takeEach_split {ls : List κ} (h : (takeEach key (ks ++ ls) q).isSome = true) :
    ∃ taken other mid rest, takeEach key ks q = some (taken, mid) ∧
      takeEach key ls mid = some (other, rest) := by
  induction ks generalizing q with
  | nil =>
    obtain ⟨⟨other, rest⟩, hother⟩ := Option.isSome_iff_exists.mp h
    exact ⟨[], other, q, rest, rfl, hother⟩
  | cons k ks ih =>
    obtain ⟨⟨taken, rest⟩, htaken⟩ := Option.isSome_iff_exists.mp h
    obtain ⟨a, next, as, hfirst, hnext, -⟩ := takeEach_cons.mp htaken
    obtain ⟨bs, other, mid, rest, hbs, hother⟩ := ih (Option.isSome_iff_exists.mpr ⟨_, hnext⟩)
    exact ⟨a :: bs, other, mid, rest, takeEach_cons.mpr ⟨a, next, bs, hfirst, hbs, rfl⟩, hother⟩

lemma map_perm_iff_filter {γ : Type} [DecidableEq γ] {key' : β → κ} {f : α → γ} {g : β → γ}
    (class_ : γ → κ) (hf : ∀ a, class_ (f a) = key a) (hg : ∀ b, class_ (g b) = key' b)
    {as : List α} {bs : List β} : (as.map f).Perm (bs.map g) ↔
      ∀ k, ((as.filter fun a => key a = k).map f).Perm ((bs.filter fun b => key' b = k).map g) := by
  have hfilter (k : κ) : ((as.filter fun a => key a = k).map f) =
      (as.map f).filter fun c => class_ c = k := by
    simp only [filter_map, Function.comp_def, hf]
  have hfilter' (k : κ) : ((bs.filter fun b => key' b = k).map g) =
      (bs.map g).filter fun c => class_ c = k := by
    simp only [filter_map, Function.comp_def, hg]
  constructor
  · intro h k
    rw [hfilter, hfilter']
    exact h.filter _
  · intro h
    rw [perm_iff_count]
    intro c
    have hcount := (h (class_ c)).count_eq c
    rwa [hfilter, hfilter', count_filter (by simp), count_filter (by simp)] at hcount

lemma count_map_key (q : List α) (k : κ) :
    (q.map key).count k = (q.filter fun b => key b = k).length := by
  rw [count_eq_countP, countP_map, countP_eq_length_filter]
  rfl

lemma takeEach_isSome_iff :
    (takeEach key ks q).isSome ↔ ∀ k, ks.count k ≤ (q.map key).count k := by
  constructor
  · intro h k
    obtain ⟨⟨taken, rest⟩, h⟩ := Option.isSome_iff_exists.mp h
    rw [((takeEach_perm h).map key).count_eq, map_append, takeEach_keys h, count_append]
    exact Nat.le_add_right _ _
  · intro h
    induction ks generalizing q with
    | nil => rfl
    | cons k₀ ks ih =>
      have hmem : k₀ ∈ q.map key := by
        have hpos := h k₀
        rw [count_cons_self] at hpos
        exact count_pos_iff.mp (by omega)
      cases hfirst : takeFirst key k₀ q with
      | none =>
        obtain ⟨a, ha, hk⟩ := mem_map.mp hmem
        exact absurd hk (takeFirst_eq_none.mp hfirst a ha)
      | some p =>
        obtain ⟨a, mid⟩ := p
        have hsome : (takeEach key ks mid).isSome := by
          refine ih fun k => ?_
          have hk := h k
          rw [count_map_key, takeFirst_filter hfirst k] at hk
          rw [count_map_key]
          by_cases hkk : k₀ = k
          · subst hkk
            simp at hk
            omega
          · simpa [hkk] using hk
        obtain ⟨⟨as, rest⟩, hrest⟩ := Option.isSome_iff_exists.mp hsome
        rw [takeEach_cons.mpr ⟨a, mid, as, hfirst, hrest, rfl⟩]
        rfl

lemma takeEach_exact {ident : α → ι} (hq : (q.map ident).Nodup)
    (h : takeEach key ks q = some (taken, rest)) :
    takeEach (fun a => (key a, ident a)) (taken.map fun a => (key a, ident a)) q =
      some (taken, rest) := by
  induction ks generalizing q taken with
  | nil =>
    cases h
    rfl
  | cons k ks ih =>
    obtain ⟨a, mid, as, h₁, h₂, rfl⟩ := takeEach_cons.mp h
    obtain ⟨before, after, rfl, rfl, -, -⟩ := takeFirst_eq_some.mp h₁
    rw [map_cons]
    refine takeEach_cons.mpr ⟨a, before ++ after, as, takeFirst_eq_some.mpr
      ⟨before, after, rfl, rfl, rfl, ?_⟩, ih ?_ h₂, rfl⟩
    · intro b hb heq
      rw [map_append, map_cons, nodup_append] at hq
      exact hq.2.2 (ident b) (mem_map_of_mem hb) (ident a) (by simp) (congrArg Prod.snd heq)
    · exact hq.sublist (((sublist_cons_self a after).append_left before).map ident)

lemma takeFirst_map {key : β → κ} (g : α → β) :
    takeFirst key k (q.map g) = (takeFirst (key ∘ g) k q).map fun p => (g p.1, p.2.map g) := by
  induction q with
  | nil => rfl
  | cons a q ih =>
    by_cases h : key (g a) = k
    · simp [takeFirst, h]
    · simp only [map_cons, takeFirst, h, if_false, Function.comp_apply, ih, Option.map_map]
      rfl

lemma takeEach_map {key : β → κ} (g : α → β) :
    takeEach key ks (q.map g) =
      (takeEach (key ∘ g) ks q).map fun p => (p.1.map g, p.2.map g) := by
  induction ks generalizing q with
  | nil => rfl
  | cons k ks ih =>
    simp only [takeEach, takeFirst_map]
    cases takeFirst (key ∘ g) k q with
    | none => rfl
    | some p =>
      obtain ⟨a, mid⟩ := p
      simp only [Option.map_some, Option.bind_eq_bind, Option.bind_some, ih]
      cases takeEach (key ∘ g) ks mid <;> rfl

lemma takeEach_skip (ha : ∀ k ∈ ks, k ≠ key a) (h : takeEach key ks q = some (taken, rest)) :
    takeEach key ks (a :: q) = some (taken, a :: rest) := by
  induction ks generalizing q taken with
  | nil =>
    cases h
    rfl
  | cons k ks ih =>
    obtain ⟨b, mid, bs, hfirst, hrest, rfl⟩ := takeEach_cons.mp h
    rw [forall_mem_cons] at ha
    refine takeEach_cons.mpr ⟨b, a :: mid, bs, ?_, ih ha.2 hrest, rfl⟩
    simp [takeFirst, Ne.symm ha.1, hfirst]

lemma takeEach_selected (hq : (q.map key).Nodup) (p : α → Bool) :
    takeEach key ((q.filter p).map key) q = some (q.filter p, q.filter fun a => !p a) := by
  induction q with
  | nil => rfl
  | cons a q ih =>
    rw [map_cons, nodup_cons] at hq
    cases hp : p a with
    | true =>
      rw [filter_cons_of_pos hp, filter_cons_of_neg (by simp [hp]), map_cons, takeEach_cons]
      exact ⟨a, q, q.filter p, by simp [takeFirst], ih hq.2, rfl⟩
    | false =>
      rw [filter_cons_of_neg (by simp [hp]), filter_cons_of_pos (by simp [hp])]
      apply takeEach_skip _ (ih hq.2)
      intro k hk hka
      obtain ⟨b, hb, rfl⟩ := mem_map.mp hk
      exact hq.1 (hka ▸ mem_map_of_mem (mem_filter.mp hb).1)

end

end Petrus.Lib
