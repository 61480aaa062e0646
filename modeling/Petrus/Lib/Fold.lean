import Mathlib

/-!
# Folds that may refuse

A raised exception is a value. Facts about `Except` computations used by replay
folds: inversion of a bind, checks that raise, folding over an appended batch,
items a fold ignores, and two folds whose steps agree.
-/

namespace Petrus.Lib

open List

/-- An exception: its class name, whether that class derives from `ValueError`, its text and
its arguments as they are spelled. -/
structure Exc where
  name : String
  isValueError : Bool
  text : String
  args : List String
  deriving DecidableEq

def quoted (s : String) : String := "'" ++ s ++ "'"

def valueError (text : String) : Exc := ⟨"ValueError", true, text, [quoted text]⟩

def typeError (text : String) : Exc := ⟨"TypeError", false, text, [quoted text]⟩

def assertionError (text : String) : Exc := ⟨"AssertionError", false, text, [quoted text]⟩

variable {ε α β σ : Type}
variable {f : α → Except ε β} {b : β} {as : List α} {bs : List β} {a : α} {P : σ → Prop}

/-- Raise `e` unless `c` holds. -/
def require (c : Prop) [Decidable c] (e : ε) : Except ε Unit := if c then .ok () else .error e

@[simp] lemma require_true {c : Prop} [Decidable c] {e : ε} (h : c) : require c e = .ok () :=
  if_pos h

@[simp] lemma require_false {c : Prop} [Decidable c] {e : ε} (h : ¬c) :
    require c e = .error e :=
  if_neg h

@[simp] lemma require_eq_ok {c : Prop} [Decidable c] {e : ε} {u : Unit} :
    require c e = .ok u ↔ c := by
  unfold require
  split_ifs with h <;> simp [h]

/-- Raise `e` unless `c` holds, and hand the proof on. -/
def ensure (c : Prop) [Decidable c] (e : ε) : Except ε (PLift c) :=
  if h : c then .ok ⟨h⟩ else .error e

lemma ensure_true {c : Prop} [Decidable c] {e : ε} (h : c) : ensure c e = .ok ⟨h⟩ := dif_pos h

@[simp] lemma ok_bind (a : α) (f : α → Except ε β) : (Except.ok a >>= f) = f a := rfl

@[simp] lemma error_bind (e : ε) (f : α → Except ε β) :
    ((Except.error e : Except ε α) >>= f) = .error e := rfl

@[simp] lemma except_pure (a : α) : (pure a : Except ε α) = .ok a := rfl

lemma bind_eq_ok {x : Except ε α} :
    (x >>= f) = .ok b ↔ ∃ a, x = .ok a ∧ f a = .ok b := by
  cases x <;> simp

lemma require_bind {c : Prop} [Decidable c] {e : ε} {f : Unit → Except ε β} (h : c) :
    (require c e >>= f) = f () := by
  rw [require_true h, ok_bind]

lemma require_bind_eq_ok {c : Prop} [Decidable c] {e : ε} {f : Unit → Except ε β} :
    (require c e >>= f) = .ok b ↔ c ∧ f () = .ok b := by
  by_cases h : c <;> simp [h]

lemma then_eq_ok {x : Except ε Unit} {y : Except ε β} :
    (x >>= fun _ => y) = .ok b ↔ x = .ok () ∧ y = .ok b := by
  rw [bind_eq_ok]
  constructor
  · intro h
    obtain ⟨_, hx, hy⟩ := h
    exact ⟨hx, hy⟩
  · intro h
    exact ⟨(), h⟩

lemma map_eq_ok {x : Except ε α} {f : α → β} :
    (f <$> x) = .ok b ↔ ∃ a, x = .ok a ∧ f a = b := by
  cases x <;> simp

lemma forM_eq_ok {f : α → Except ε Unit} :
    as.forM f = .ok () ↔ ∀ a ∈ as, f a = .ok () := by
  induction as with
  | nil => simp [List.forM]
  | cons a as ih =>
    change (f a >>= fun _ => as.forM f) = .ok () ↔ _
    rw [bind_eq_ok, forall_mem_cons, ← ih]
    constructor
    · intro ⟨_, h, h'⟩
      exact ⟨h, h'⟩
    · intro ⟨h, h'⟩
      exact ⟨(), h, h'⟩

lemma mapM_eq_ok :
    as.mapM f = .ok bs ↔ List.Forall₂ (fun a b => f a = .ok b) as bs := by
  induction as generalizing bs with
  | nil => simp [eq_comm]
  | cons a as ih =>
    rw [mapM_cons, forall₂_cons_left_iff]
    simp only [bind_eq_ok]
    constructor
    · rintro ⟨b, hb, rest, hrest, heq⟩
      cases heq
      exact ⟨b, rest, hb, ih.mp hrest, rfl⟩
    · rintro ⟨b, rest, hb, hrest, rfl⟩
      exact ⟨b, hb, rest, ih.mpr hrest, rfl⟩

lemma mem_of_mapM (h : as.mapM f = .ok bs) (hb : b ∈ bs) : ∃ a ∈ as, f a = .ok b := by
  obtain ⟨i, hi, rfl⟩ := getElem_of_mem hb
  have hall := forall₂_iff_get.mp (mapM_eq_ok.mp h)
  have hi' : i < as.length := hall.1 ▸ hi
  exact ⟨as[i], getElem_mem hi', hall.2 i hi' hi⟩

lemma mapM_map_ok {γ : Type} {m : γ → α} {g : γ → β} {l : List γ}
    (h : ∀ c ∈ l, f (m c) = .ok (g c)) : (l.map m).mapM f = .ok (l.map g) := by
  induction l with
  | nil => rfl
  | cons c l ih =>
    rw [forall_mem_cons] at h
    rw [map_cons, mapM_cons, h.1, ok_bind, ih h.2]
    rfl

lemma mapM_map_result {γ : Type} (f : α → Except ε β) (g : β → γ) (as : List α) :
    as.mapM (fun a => g <$> f a) = List.map g <$> as.mapM f := by
  induction as with
  | nil => rfl
  | cons a as ih =>
    rw [mapM_cons, mapM_cons, ih]
    cases f a with
    | error e => rfl
    | ok b => cases as.mapM f <;> rfl

lemma mapM_exists {P : α → β → Prop} (h : ∀ a ∈ as, ∃ b, f a = .ok b ∧ P a b) :
    ∃ bs, as.mapM f = .ok bs ∧ List.Forall₂ P as bs := by
  induction as with
  | nil => exact ⟨[], rfl, .nil⟩
  | cons a as ih =>
    obtain ⟨⟨b, hb, hp⟩, hrest⟩ := forall_mem_cons.mp h
    obtain ⟨bs, hbs, hps⟩ := ih hrest
    refine ⟨b :: bs, ?_, .cons hp hps⟩
    rw [mapM_cons, hb, ok_bind, hbs]
    rfl

lemma forall₂_exists {R : α → β → Prop}
    (h : List.Forall₂ R as bs) (ha : a ∈ as) : ∃ b ∈ bs, R a b := by
  induction h with
  | nil => cases ha
  | @cons c d _ _ hfirst _ ih =>
    rcases mem_cons.mp ha with rfl | hmem
    · exact ⟨d, by simp, hfirst⟩
    · obtain ⟨b, hb, hr⟩ := ih hmem
      exact ⟨b, by simp [hb], hr⟩

section FoldlM

variable {f g : σ → α → Except ε σ} {s s' t : σ} {bs : List α}

lemma foldlM_append_ok (h : as.foldlM f s = .ok t) :
    (as ++ bs).foldlM f s = bs.foldlM f t := by
  rw [foldlM_append, h]
  rfl

lemma foldlM_append_eq_ok :
    (as ++ bs).foldlM f s = .ok s' ↔ ∃ t, as.foldlM f s = .ok t ∧ bs.foldlM f t = .ok s' := by
  rw [foldlM_append, bind_eq_ok]

lemma foldlM_cons_ok (h : f s a = .ok t) : (a :: as).foldlM f s = as.foldlM f t := by
  rw [foldlM_cons, h]
  rfl

lemma foldlM_cons_eq_ok :
    (a :: as).foldlM f s = .ok s' ↔ ∃ t, f s a = .ok t ∧ as.foldlM f t = .ok s' := by
  rw [foldlM_cons, bind_eq_ok]

lemma foldlM_inert (h : ∀ a ∈ as, f s a = .ok s) : as.foldlM f s = .ok s := by
  induction as with
  | nil => rfl
  | cons a as ih =>
    rw [foldlM_cons_ok (h a (by simp))]
    exact ih fun b hb => h b (by simp [hb])

lemma foldlM_mono (h : ∀ s a t, f s a = .ok t → g s a = .ok t) (hf : as.foldlM f s = .ok t) :
    as.foldlM g s = .ok t := by
  induction as generalizing s with
  | nil => exact hf
  | cons a as ih =>
    obtain ⟨mid, hmid, hrest⟩ := foldlM_cons_eq_ok.mp hf
    exact foldlM_cons_eq_ok.mpr ⟨mid, h s a mid hmid, ih hrest⟩

lemma foldlM_invariant (hstep : ∀ s a t, a ∈ as → P s → f s a = .ok t → P t)
    (hs : P s) (h : as.foldlM f s = .ok s') : P s' := by
  induction as generalizing s with
  | nil =>
    cases h
    exact hs
  | cons a as ih =>
    obtain ⟨t, ht, h⟩ := foldlM_cons_eq_ok.mp h
    exact ih (fun s b u hb => hstep s b u (by simp [hb])) (hstep s a t (by simp) hs ht) h

lemma foldlM_step (h : as.foldlM f s = .ok s') (ha : a ∈ as) :
    ∃ t t', f t a = .ok t' := by
  induction as generalizing s with
  | nil => cases ha
  | cons b as ih =>
    obtain ⟨t, ht, hrest⟩ := foldlM_cons_eq_ok.mp h
    rcases mem_cons.mp ha with rfl | hmem
    · exact ⟨s, t, ht⟩
    · exact ih hrest hmem

lemma foldlM_exists {l : List α}
    (hstep : ∀ s a, a ∈ l → P s → ∃ t, f s a = .ok t ∧ P t) (hs : P s) :
    ∃ t, l.foldlM f s = .ok t ∧ P t := by
  induction l generalizing s with
  | nil => exact ⟨s, rfl, hs⟩
  | cons a l ih =>
    obtain ⟨t, ht, hPt⟩ := hstep s a (by simp) hs
    rw [foldlM_cons_ok ht]
    exact ih (fun s b hb => hstep s b (by simp [hb])) hPt

lemma foldlM_map_sim {τ β : Type} {R : τ → σ → Prop} {g : τ → β → Except ε τ} {m : β → α}
    {bs : List β} {x y : τ}
    (hstep : ∀ b ∈ bs, ∀ x y s, R x s → g x b = .ok y → ∃ t, f s (m b) = .ok t ∧ R y t)
    (hR : R x s) (h : bs.foldlM g x = .ok y) : ∃ t, (bs.map m).foldlM f s = .ok t ∧ R y t := by
  induction bs generalizing x s with
  | nil =>
    cases h
    exact ⟨s, rfl, hR⟩
  | cons b bs ih =>
    obtain ⟨mid, hmid, h⟩ := foldlM_cons_eq_ok.mp h
    obtain ⟨t, ht, hRt⟩ := hstep b (by simp) x mid s hR hmid
    rw [map_cons, foldlM_cons_ok ht]
    exact ih (fun c hc => hstep c (by simp [hc])) hRt h

lemma foldlM_eq_foldl {v : σ → α → σ}
    (hstep : ∀ s a, a ∈ as → P s → f s a = .ok (v s a) ∧ P (v s a)) (hs : P s) :
    as.foldlM f s = .ok (as.foldl v s) := by
  induction as generalizing s with
  | nil => rfl
  | cons a as ih =>
    obtain ⟨ha, hP⟩ := hstep s a (by simp) hs
    rw [foldlM_cons_ok ha, foldl_cons]
    exact ih (fun s b hb => hstep s b (by simp [hb])) hP

end FoldlM

/-- A fold whose step also sees the item that follows; `last` follows the whole list. -/
def foldlNext (f : σ → α → Option α → Except ε σ) : σ → List α → Option α → Except ε σ
  | s, [], _ => .ok s
  | s, a :: as, last => do
    let s ← f s a (as.head?.or last)
    foldlNext f s as last

lemma foldlNext_append_ok {f : σ → α → Option α → Except ε σ} {s t : σ} {as bs : List α}
    {last : Option α} (h : foldlNext f s as (bs.head?.or last) = .ok t) :
    foldlNext f s (as ++ bs) last = foldlNext f t bs last := by
  induction as generalizing s with
  | nil =>
    cases h
    rfl
  | cons a as ih =>
    rw [foldlNext, bind_eq_ok] at h
    obtain ⟨mid, hmid, h⟩ := h
    have hhead : (as ++ bs).head?.or last = as.head?.or (bs.head?.or last) := by
      cases as <;> simp
    rw [cons_append, foldlNext, hhead, hmid, ok_bind]
    exact ih h

end Petrus.Lib
