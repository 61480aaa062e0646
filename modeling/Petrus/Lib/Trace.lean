import Mathlib

/-!
# Interaction programs

A program asks requests of a world outside it and goes on with the answers; it ends
by returning or raising.
-/

namespace Petrus.Lib

/-- A program that asks requests `q : Q`, each answered in `A q`, and returns or raises. -/
inductive Proc (Q : Type) (A : Q → Type) (ε α : Type) where
  | done (result : Except ε α)
  | ask (q : Q) (next : A q → Proc Q A ε α)

namespace Proc

variable {Q : Type} {A : Q → Type} {ε ε' α β : Type}

def handle (m : Proc Q A ε α) (h : Except ε α → Proc Q A ε' β) : Proc Q A ε' β :=
  match m with
  | .done r => h r
  | .ask q next => .ask q fun a => (next a).handle h

def andThen (f : α → Proc Q A ε β) : Except ε α → Proc Q A ε β
  | .ok a => f a
  | .error e => .done (.error e)

instance : Monad (Proc Q A ε) where
  pure a := .done (.ok a)
  bind m f := m.handle (andThen f)

def request (q : Q) : Proc Q A ε (A q) := .ask q fun a => .done (.ok a)

def lift (x : Except ε α) : Proc Q A ε α := .done x

end Proc

end Petrus.Lib

/-! ## Traces of interaction programs -/

namespace Petrus.Lib.Proc

open List

variable {Q : Type} {A : Q → Type} {ε α β : Type}

/-- The program, told these answers to these requests, ends with the result. -/
inductive Ends : Proc Q A ε α → List (Σ q, A q) → Except ε α → Prop
  | done (r : Except ε α) : Ends (.done r) [] r
  | ask {q : Q} {next : A q → Proc Q A ε α} {a : A q} {trace : List (Σ q, A q)} {r : Except ε α}
      (h : Ends (next a) trace r) : Ends (.ask q next) (⟨q, a⟩ :: trace) r

variable {trace : List (Σ q, A q)}

lemma ends_done {r r' : Except ε α} :
    (Proc.done r : Proc Q A ε α).Ends trace r' ↔ trace = [] ∧ r' = r := by
  constructor
  · intro h
    cases h
    exact ⟨rfl, rfl⟩
  · rintro ⟨rfl, rfl⟩
    exact .done _

lemma ends_ask {q : Q} {next : A q → Proc Q A ε α} {r : Except ε α} :
    (Proc.ask q next).Ends trace r ↔ ∃ a rest, trace = ⟨q, a⟩ :: rest ∧ (next a).Ends rest r := by
  constructor
  · intro h
    cases h with
    | ask h => exact ⟨_, _, rfl, h⟩
  · rintro ⟨a, rest, rfl, h⟩
    exact .ask h

lemma ends_request_bind {q : Q} {f : A q → Proc Q A ε β} {r : Except ε β} :
    (Proc.request q >>= f : Proc Q A ε β).Ends trace r ↔
      ∃ a rest, trace = ⟨q, a⟩ :: rest ∧ (f a).Ends rest r := ends_ask

lemma ends_lift_bind {x : Except ε α} {f : α → Proc Q A ε β} {r : Except ε β} :
    (Proc.lift x >>= f : Proc Q A ε β).Ends trace r ↔
      (∃ a, x = .ok a ∧ (f a).Ends trace r) ∨ ∃ e, x = .error e ∧ trace = [] ∧ r = .error e := by
  cases x with
  | ok a =>
    change (f a).Ends trace r ↔ _
    simp
  | error e =>
    change (Proc.done (.error e) : Proc Q A ε β).Ends trace r ↔ _
    rw [ends_done]
    simp

/-- The answers of the trace are those given after what was asked and answered before. -/
def Follows (answer : List (Σ q, A q) → (q : Q) → A q) (past trace : List (Σ q, A q)) : Prop :=
  ∀ before q a after, trace = before ++ ⟨q, a⟩ :: after → a = answer (past ++ before) q

lemma exists_ends (answer : List (Σ q, A q) → (q : Q) → A q) (m : Proc Q A ε α)
    (past : List (Σ q, A q)) : ∃ trace r, m.Ends trace r ∧ Follows answer past trace := by
  induction m generalizing past with
  | done r => exact ⟨[], r, .done r, by simp [Follows]⟩
  | ask q next ih =>
    obtain ⟨trace, r, hends, hfollows⟩ := ih (answer past q) (past ++ [⟨q, answer past q⟩])
    refine ⟨_, r, .ask hends, ?_⟩
    intro before q' a after htrace
    cases before with
    | nil =>
      obtain ⟨hevent, -⟩ := cons_eq_cons.mp htrace
      cases hevent
      rw [append_nil]
    | cons e before =>
      obtain ⟨rfl, hrest⟩ := cons_eq_cons.mp htrace
      rw [hfollows before q' a after hrest, append_assoc]
      rfl

end Petrus.Lib.Proc
