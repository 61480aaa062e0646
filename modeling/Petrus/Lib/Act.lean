import Mathlib

/-!
# Imperative actions whose state survives an exception

An action reads and writes a state and either returns or raises; what it wrote
before raising stays written. `Except` steps are lifted, handlers are run on the
state the raising action left behind.
-/

namespace Petrus.Lib

def Act (σ ε α : Type) := σ → Except ε α × σ

namespace Act

variable {σ ε ε' α β : Type} {m : Act σ ε α} {f : α → Act σ ε β} {s s' : σ} {as : List α}

instance : Monad (Act σ ε) where
  pure a := fun s => (.ok a, s)
  bind m f := fun s =>
    match m s with
    | (.ok a, s') => f a s'
    | (.error e, s') => (.error e, s')

def get : Act σ ε σ := fun s => (.ok s, s)

def modify (f : σ → σ) : Act σ ε Unit := fun s => (.ok (), f s)

def throw (e : ε) : Act σ ε α := fun s => (.error e, s)

def lift (x : Except ε α) : Act σ ε α := fun s => (x, s)

/-- Run `h` on the state left by a raising `m`. -/
def catching (m : Act σ ε α) (h : ε → Act σ ε' α) : Act σ ε' α := fun s =>
  match m s with
  | (.ok a, s') => (.ok a, s')
  | (.error e, s') => h e s'

def mapError (f : ε → ε') (m : Act σ ε α) : Act σ ε' α := fun s =>
  match m s with
  | (.ok a, s') => (.ok a, s')
  | (.error e, s') => (.error (f e), s')

/-- Fold a fallible state change over a list, writing the state after each item. -/
def each (f : σ → α → Except ε σ) : List α → Act σ ε Unit
  | [] => fun s => (.ok (), s)
  | a :: as => fun s =>
    match f s a with
    | .ok s' => each f as s'
    | .error e => (.error e, s)

@[simp] lemma pure_apply (a : α) (s : σ) : (pure a : Act σ ε α) s = (.ok a, s) := rfl

@[simp] lemma get_bind_apply (f : σ → Act σ ε β) (s : σ) : ((get : Act σ ε σ) >>= f) s = f s s :=
  rfl

@[simp] lemma modify_bind_apply (g : σ → σ) (f : Unit → Act σ ε β) (s : σ) :
    ((modify g : Act σ ε Unit) >>= f) s = f () (g s) := rfl

@[simp] lemma modify_apply (g : σ → σ) (s : σ) :
    (modify g : Act σ ε Unit) s = (.ok (), g s) := rfl

@[simp] lemma throw_apply (e : ε) (s : σ) : (throw e : Act σ ε α) s = (.error e, s) := rfl

@[simp] lemma lift_ok_bind_apply (a : α) (f : α → Act σ ε β) (s : σ) :
    ((lift (.ok a) : Act σ ε α) >>= f) s = f a s := rfl

@[simp] lemma lift_apply (x : Except ε α) (s : σ) : (lift x : Act σ ε α) s = (x, s) := rfl

lemma bind_apply (m : Act σ ε α) (f : α → Act σ ε β) (s : σ) :
    (m >>= f) s = match m s with
      | (.ok a, s') => f a s'
      | (.error e, s') => (.error e, s') := rfl

lemma bind_ok_apply {a : α} (h : m s = (.ok a, s')) : (m >>= f) s = f a s' := by
  rw [bind_apply, h]

lemma bind_error_apply {e : ε} (h : m s = (.error e, s')) : (m >>= f) s = (.error e, s') := by
  rw [bind_apply, h]

lemma mapError_eq_ok {f : ε → ε'} {a : α} :
    mapError f m s = (.ok a, s') ↔ m s = (.ok a, s') := by
  unfold mapError
  split <;> simp_all

lemma mapError_eq_error {f : ε → ε'} {e : ε}
    (h : m s = (.error e, s')) : mapError f m s = (.error (f e), s') := by
  unfold mapError
  rw [h]

lemma each_ok {f : σ → α → Except ε σ}
    (h : as.foldlM f s = .ok s') : each f as s = (.ok (), s') := by
  induction as generalizing s with
  | nil =>
    cases h
    rfl
  | cons a as ih =>
    rw [List.foldlM_cons] at h
    cases ha : f s a with
    | error e => rw [ha] at h; cases h
    | ok t =>
      rw [ha] at h
      simp only [each, ha]
      exact ih h

/-- `m` keeps the invariant, also when it raises, and what it returns satisfies `Q`. -/
def Keeps (I : σ → Prop) (m : Act σ ε α) (Q : α → Prop) : Prop :=
  ∀ s, I s → I (m s).2 ∧ ∀ a, (m s).1 = .ok a → Q a

lemma Keeps.bind {I : σ → Prop} {Q : α → Prop}
    {R : β → Prop} (hm : Keeps I m Q) (hf : ∀ a, Q a → Keeps I (f a) R) : Keeps I (m >>= f) R := by
  intro s hs
  obtain ⟨hI, hQ⟩ := hm s hs
  rw [bind_apply]
  cases h : m s with
  | mk r s' =>
    rw [h] at hI hQ
    cases r with
    | error e =>
      refine ⟨hI, ?_⟩
      intro a ha
      cases ha
    | ok a => exact hf a (hQ a rfl) s' hI

namespace Keeps

variable {I : σ → Prop} {Q R : α → Prop}

lemma throw (e : ε) : Keeps I (throw e) Q := by
  intro s hs
  refine ⟨hs, ?_⟩
  intro a ha
  cases ha

lemma pure {a : α} (h : Q a) : Keeps I (pure a : Act σ ε α) Q := by
  intro s hs
  refine ⟨hs, ?_⟩
  rintro b ⟨⟩
  exact h

lemma get : Keeps I (get : Act σ ε σ) I := by
  intro s hs
  refine ⟨hs, ?_⟩
  rintro t ⟨⟩
  exact hs

lemma lift (x : Except ε α) : Keeps I (lift x : Act σ ε α) fun a => x = .ok a := fun _ hs =>
  ⟨hs, fun _ ha => ha⟩

end Keeps

/-! ## How an action moves its state -/

def forEach (f : α → Act σ ε Unit) : List α → Act σ ε Unit
  | [] => pure ()
  | a :: as => do
    f a
    forEach f as

def collect (f : α → Act σ ε β) : List α → Act σ ε (List β)
  | [] => pure []
  | a :: as => do
    let b ← f a
    let bs ← collect f as
    return b :: bs

lemma bind_returned {s u : σ} {b : β} :
    (m >>= f) s = (.ok b, u) ↔ ∃ a t, m s = (.ok a, t) ∧ f a t = (.ok b, u) := by
  rw [bind_apply]
  cases hm : m s with
  | mk x t =>
    cases x with
    | error e => simp
    | ok a => simp

lemma bind_raised {s u : σ} {e : ε} :
    (m >>= f) s = (.error e, u) ↔
      m s = (.error e, u) ∨ ∃ a t, m s = (.ok a, t) ∧ f a t = (.error e, u) := by
  rw [bind_apply]
  cases hm : m s with
  | mk x t =>
    cases x with
    | error e => simp
    | ok a => simp

lemma map_apply (g : α → β) (m : Act σ ε α) (s : σ) :
    (g <$> m) s = ((m s).1.map g, (m s).2) := by
  change (m >>= fun a => pure (g a)) s = _
  rw [bind_apply]
  cases hm : m s with
  | mk x t => cases x <;> rfl

lemma bind_assoc (m : Act σ ε α) (f : α → Act σ ε β) (g : β → Act σ ε γ) :
    m >>= f >>= g = m >>= fun a => f a >>= g := by
  funext s
  rw [bind_apply, bind_apply, bind_apply]
  cases hm : m s with
  | mk x t =>
    cases x with
    | error e => rfl
    | ok a =>
      dsimp only
      rw [bind_apply]

lemma map_bind (g : α → β) (m : Act σ ε α) (f : β → Act σ ε γ) :
    g <$> m >>= f = m >>= fun a => f (g a) := by
  funext s
  rw [bind_apply, bind_apply, map_apply]
  cases hm : m s with
  | mk x t => cases x <;> rfl

def Returns (P : α → Prop) (m : Act σ ε α) : Prop := ∀ s a t, m s = (.ok a, t) → P a

namespace Returns

variable {P : β → Prop}

lemma pure {b : β} (h : P b) : Returns P (pure b : Act σ ε β) := by
  intro s a t heq
  cases heq
  exact h

lemma throw (e : ε) : Returns P (Act.throw e : Act σ ε β) := by
  intro s a t heq
  cases heq

lemma bind (h : ∀ a, Returns P (f a)) :
    Returns P (m >>= f) := by
  intro s b u heq
  obtain ⟨a, t, -, hf⟩ := bind_returned.mp heq
  exact h a t b u hf

end Returns

/-- The state left behind stands in `R` to the state found. -/
def Moves (R : σ → σ → Prop) (m : Act σ ε α) : Prop := ∀ s, R s (m s).2

namespace Moves

variable {R : σ → σ → Prop}

lemma pure [Std.Refl R] (a : α) : Moves R (pure a : Act σ ε α) := fun s => refl_of R s

lemma get [Std.Refl R] : Moves R (Act.get : Act σ ε σ) := fun s => refl_of R s

lemma throw [Std.Refl R] (e : ε) : Moves R (Act.throw e : Act σ ε α) := fun s => refl_of R s

lemma lift [Std.Refl R] (x : Except ε α) : Moves R (Act.lift x : Act σ ε α) :=
  fun s => refl_of R s

lemma bind_of [IsTrans σ R] (hm : Moves R m)
    (hf : ∀ s a t, m s = (.ok a, t) → Moves R (f a)) : Moves R (m >>= f) := by
  intro s
  have hfirst := hm s
  rw [Act.bind_apply]
  generalize hr : m s = r at hfirst
  obtain ⟨x, t⟩ := r
  cases x with
  | error e => exact hfirst
  | ok a => exact trans_of R hfirst (hf s a t hr t)

lemma bind [IsTrans σ R] (hm : Moves R m) (hf : ∀ a, Moves R (f a)) :
    Moves R (m >>= f) := hm.bind_of fun _ a _ _ => hf a

lemma catching [IsTrans σ R] {h : ε → Act σ ε' α} (hm : Moves R m) (hh : ∀ e, Moves R (h e)) :
    Moves R (Act.catching m h) := by
  intro s
  have hfirst := hm s
  unfold Act.catching
  generalize m s = r at hfirst
  obtain ⟨x, t⟩ := r
  cases x with
  | error e => exact trans_of R hfirst (hh e t)
  | ok a => exact hfirst

lemma mapError (hm : Moves R m) (f : ε → ε') : Moves R (Act.mapError f m) := by
  intro s
  have hfirst := hm s
  unfold Act.mapError
  generalize m s = r at hfirst
  obtain ⟨x, t⟩ := r
  cases x with
  | error e => exact hfirst
  | ok a => exact hfirst

lemma map (hm : Moves R m) (g : α → β) : Moves R (g <$> m) := by
  intro s
  rw [map_apply]
  exact hm s

lemma forEach [Std.Refl R] [IsTrans σ R] {f : α → Act σ ε Unit}
    (hf : ∀ a ∈ as, Moves R (f a)) : Moves R (Act.forEach f as) := by
  induction as with
  | nil => exact Moves.pure ()
  | cons a as ih =>
    rw [List.forall_mem_cons] at hf
    exact bind hf.1 fun _ => ih hf.2

lemma collect [Std.Refl R] [IsTrans σ R]
    (hf : ∀ a ∈ as, Moves R (f a)) : Moves R (Act.collect f as) := by
  induction as with
  | nil => exact Moves.pure []
  | cons a as ih =>
    rw [List.forall_mem_cons] at hf
    exact bind hf.1 fun b => bind (ih hf.2) fun bs => Moves.pure (b :: bs)

end Moves

namespace Keeps

variable {I : σ → Prop}

lemma returns {P Q : α → Prop} (hm : Keeps I m P) (hQ : Returns Q m) :
    Keeps I m Q := fun s hs => ⟨(hm s hs).1, fun a ha => hQ s a (m s).2 (Prod.ext ha rfl)⟩

end Keeps

/-! ## Parts of the state an action does not notice -/

variable {g : σ → σ} {P : ε → Prop}

/-- Run from `g s` it does as from `s`, up to `g`, or raises what `P` holds of. -/
def Commutes (g : σ → σ) (P : ε → Prop) (m : Act σ ε α) : Prop :=
  ∀ s, (∃ e, (m (g s)).1 = .error e ∧ P e) ∨ m (g s) = ((m s).1, g (m s).2)

namespace Commutes

lemma pure (a : α) : Commutes g P (Pure.pure a : Act σ ε α) := fun _ => .inr rfl

lemma throw (e : ε) : Commutes g P (Act.throw e : Act σ ε α) := fun _ => .inr rfl

lemma modify {f : σ → σ} (h : ∀ s, f (g s) = g (f s)) :
    Commutes g P (Act.modify f : Act σ ε Unit) := fun s => .inr <| by
  rw [modify_apply, modify_apply, h]

lemma bind (hm : Commutes g P m) (hf : ∀ a, Commutes g P (f a)) : Commutes g P (m >>= f) := by
  intro s
  rw [bind_apply, bind_apply]
  rcases hm s with ⟨e, he, hP⟩ | heq
  · rcases hr : m (g s) with ⟨_ | _, _⟩ <;> rw [hr] at he <;> cases he
    exact .inl ⟨e, rfl, hP⟩
  · rw [heq]
    rcases m s with ⟨_ | a, t⟩
    · exact .inr rfl
    · exact hf a t

lemma get {f : σ → Act σ ε β} (hread : ∀ s, f (g s) = f s) (hf : ∀ s, Commutes g P (f s)) :
    Commutes g P (Act.get >>= f) := by
  intro s
  rw [get_bind_apply, get_bind_apply, hread]
  exact hf s s

lemma ite {c : Prop} [Decidable c] {m m' : Act σ ε α} (h : Commutes g P m)
    (h' : Commutes g P m') : Commutes g P (if c then m else m') := by
  split_ifs
  · exact h
  · exact h'

end Commutes

end Act

end Petrus.Lib
