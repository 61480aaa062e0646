import Petrus.Testing.Dst.Erasure
import Petrus.Testing.Dst.Properties.Final

/-!
# The course of a run

A run of a world whose profile answers, with its refused calls left out: accepted calls
one after the other, up to the finish or the failure that ends the world.
-/

namespace Petrus.Testing.Dst

open Lib List Act

variable {V σ G α β : Type} {C : Config V σ G} {w w' : World V σ G} {attempt : Attempt V}
  {o : Observer V} {raised : Raise} {op : Operation V}

/-! ## One call of a world and of its observer -/

def World.failed (attempt : Attempt V) (before : Nat) (detail : FailureDetail) (w : World V σ G) :
    World V σ G :=
  let op := Operation.failure w.operations.length w.instant w.generationId
    (w.operations.length - before) attempt detail
  { w with
    operations := w.operations ++ [op]
    journal := w.journal ++ [{
      position := w.journal.length, instant := w.instant, generation := w.generationId
      kind := .failure, name := detail.kind.value, value := .operation op }] }

lemma recordFailure_none {before : Nat} (h : raised.failure? w = none) :
    recordFailure C attempt before raised w = (.ok (), w) := by
  rw [recordFailure, get_bind_apply, h]
  rfl

lemma recordFailure_some {before : Nat} {detail : FailureDetail}
    (h : raised.failure? w = some detail) (hone : w.operations.length - before ≤ 1) :
    recordFailure C attempt before raised w =
      notifyBoundary C (w.failed attempt before detail) := by
  rw [recordFailure, get_bind_apply, h]
  dsimp only
  rw [if_neg hone.not_gt]
  rfl

/-- The call would spend an action or a poll that the budget no longer has. -/
def Attempt.spends (C : Config V σ G) (w : World V σ G) (attempt : Attempt V) : Bool :=
  attempt.check.isOk && match (attempt.body C w).1 with
    | .error raised => raised.spends
    | .ok _ => false

/-- An open world that has recorded no failure. -/
structure Ready (C : Config V σ G) (w : World V σ G) : Prop where
  open_ : w.disposition = none
  tidy : Tidy C w
  queue : ∀ q ∈ w.queue, q.Proposed C
  plain : ∀ op ∈ w.operations, op.failure? = none ∧ op.Fits C.profile.identity

lemma Took.map {m : Step V σ G α} {f : α → β} (h : Took C attempt w (m w)) :
    Took C attempt w ((m >>= fun a => pure (f a)) w) := by
  rcases h with ⟨e, actions, polls, hle, he⟩ | ⟨hfits, htaken⟩
  · exact .inl ⟨e, actions, polls, hle, bind_error_apply he⟩
  · exact .inr ⟨hfits, htaken.map⟩

lemma Took.body (hopen : w.disposition = none) (hbounded : w.instant ≤ C.budget.logicalInstant)
    (hqueue : ∀ q ∈ w.queue, q.Proposed C) (attempt : Attempt V) :
    Took C attempt w (attempt.body C w) := by
  cases attempt with
  | submit generation command => exact map (submit hopen hbounded command generation)
  | step => exact map (map (step hopen hqueue))
  | activateFault generation armed => exact activateFault hopen armed generation
  | observe generation request poll => exact map (observe hopen request generation poll)
  | crash generation cut => exact crash hopen cut generation
  | restart => exact map (restart hopen)
  | beginFair generation => exact beginFair hopen generation
  | finish generation disposition => exact finish hopen disposition generation

/-- The call is accepted as the operation. -/
structure Accepted (C : Config V σ G) (attempt : Attempt V) (w w' : World V σ G)
    (op : Operation V) : Prop where
  made : attempt.perform C w = (.ok (), w')
  grown : Grown C w w'
  appended : w'.operations = w.operations ++ [op]
  records : op.Records C.profile.identity attempt

/-- The call ends the world with a failure, after the operations it had accepted. -/
structure Failed (C : Config V σ G) (attempt : Attempt V) (w w' : World V σ G)
    (ops : List (Operation V)) : Prop where
  made : ∃ raised, attempt.perform C w = (.error raised, w') ∧ ∀ e, raised ≠ .other e
  grown : Grown C w w'
  records : ops = [] ∨ ∃ op, ops = [op] ∧ op.Records C.profile.identity attempt
  fits : attempt.Fits C.profile.identity
  appended : ∃ position instant generation detail, w'.disposition = some detail.kind ∧
    w'.operations = w.operations ++ ops ++
      [.failure position instant generation ops.length attempt detail]

lemma Grown.failed (attempt : Attempt V) (before : Nat) (detail : FailureDetail)
    (w : World V σ G) : Grown C w (w.failed attempt before detail) :=
  (Grown.appended _ rfl).trans (Keeps.recorded rfl).toGrown

lemma Grown.bare (h : Grown C w.bare w') : w'.bare = w' := by
  have hp : w'.progress = none := h.progress
  have hc : w'.choices = none := h.choices
  cases w'
  simp_all [World.bare]

/-- Accepted calls, up to the one that ended the world. -/
inductive Course (C : Config V σ G) : World V σ G → World V σ G → Prop
  | failed {attempt : Attempt V} {w w' : World V σ G} {ops : List (Operation V)}
      (call : Failed C attempt w w' ops) : Course C w w'
  | finished {attempt : Attempt V} {w w' : World V σ G} {op : Operation V} {d : Disposition}
      (call : Accepted C attempt w w' op) (ended : w'.disposition = some d)
      (authored : d.isAuthored) : Course C w w'
  | onward {attempt : Attempt V} {w w' w'' : World V σ G} {op : Operation V}
      (call : Accepted C attempt w w' op) (rest : Course C w' w'') : Course C w w''

/-- The call is refused, and yet has reserved an action. -/
def Attempt.Declined (C : Config V σ G) (w : World V σ G) (attempt : Attempt V) : Prop :=
  (attempt.perform C w).2.operations.length = w.operations.length ∧
    (attempt.perform C w).2.actions ≠ w.actions

/-- A run in which nothing enters an ended world or closes an open one, a command that is accepted
and then fails is as the profile validates it, and, once a call was `declined`, none spends what
the budget no longer has. -/
def Orderly (C : Config V σ G) : Prop → World V σ G → List (Method V) → Prop
  | _, _, [] => True
  | declined, w, .close :: rest => w.disposition.isSome ∧ Orderly C declined (Dst.close C w).2 rest
  | declined, w, .call attempt :: rest =>
    (w.disposition.isSome → ¬ attempt.Enters C w) ∧
      ((attempt.perform C w).2.operations.length = w.operations.length + 2 →
        attempt.normal C = attempt) ∧
      (declined → ¬ attempt.spends C w) ∧
      Orderly C (declined ∨ attempt.Declined C w) (attempt.perform C w).2 rest

lemma Ready.accepted (h : Ready C w) (call : Accepted C attempt w w' op)
    (hopen : w'.disposition = none) : Ready C w' where
  open_ := hopen
  tidy := call.grown.tidy h.tidy
  queue := fun q hq => (call.grown.queue hopen q hq).elim (h.queue q) id
  plain := by
    rw [call.appended]
    intro o ho
    rcases mem_append.mp ho with hold | hnew
    · exact h.plain o hold
    · rw [mem_singleton.mp hnew]
      exact ⟨call.records.plain, call.records.fits⟩

lemma Orderly.settled {methods : List (Method V)} {declined : Prop} {d : Disposition}
    (h : Orderly C declined w methods) (hended : w.disposition = some d) :
    Settled w (w.after C methods) := by
  induction methods generalizing w declined with
  | nil => exact ⟨rfl, rfl, rfl, rfl⟩
  | cons method rest ih =>
    have hfirst : Settled w (method.perform C w).2 := by
      refine (method_settled method hended fun attempt hcall => ?_).1
      rw [hcall] at h
      exact h.1 (Option.isSome_of_eq_some hended)
    refine hfirst.trans ?_
    cases method with
    | close => exact ih h.2 (hfirst.disposition.trans hended)
    | call attempt => exact ih h.2.2.2 (hfirst.disposition.trans hended)

lemma Course.grown (h : Course C w w') : Grown C w w' := by
  induction h with
  | failed call => exact call.grown
  | finished call _ _ => exact call.grown
  | onward call _ ih => exact call.grown.trans ih

lemma isPaired_of_plain (h : op.failure? = none) : op.isPaired = false := by
  cases op with
  | failure position instant generation accepted attempt detail => cases h
  | _ => rfl

lemma Course.next (h : Course C w w') :
    ∃ op later, w'.operations = w.operations ++ op :: later ∧ op.isPaired = false := by
  cases h with
  | failed call =>
    obtain ⟨_, _, _, _, -, happended⟩ := call.appended
    rcases call.records with rfl | ⟨op, rfl, hrecords⟩
    · exact ⟨_, [], by simpa using happended, rfl⟩
    · exact ⟨op, _, by simpa using happended, isPaired_of_plain hrecords.plain⟩
  | finished call _ _ => exact ⟨_, [], call.appended, isPaired_of_plain call.records.plain⟩
  | onward call rest =>
    obtain ⟨later, hlater⟩ := rest.grown.operations
    refine ⟨_, later, ?_, isPaired_of_plain call.records.plain⟩
    rw [← hlater, call.appended, append_assoc, singleton_append]

lemma Accepted.failing (h : Accepted C attempt w w' op) :
    failing (op.call.perform C) w = (.ok false, w') := by
  rw [h.records.call, Dst.failing, h.made]

lemma Failed.failing {ops : List (Operation V)} (h : Failed C attempt w w' ops) :
    failing (attempt.perform C) w = (.ok true, w') := by
  obtain ⟨raised, hmade, hreal⟩ := h.made
  rw [Dst.failing, hmade]
  cases raised with
  | other e => exact absurd rfl (hreal e)
  | budget bound limit => rfl
  | invariant failed => rfl

section Replaying

variable [BEq V] [ReflBEq V] {a : Artifact V} {rounds : Nat} {expected : Operation V}
  {new later : List (Operation V)}

end Replaying

end Petrus.Testing.Dst
