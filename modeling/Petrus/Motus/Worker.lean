import Petrus.Motus.Dispatch.Fencing

/-!
# One execution by a worker

A worker runs the implementation of a claimed attempt and reports what came of it. A
report the provider refuses is only mentioned on standard output: the lease then runs
until it expires.
-/

namespace Petrus.Motus.LocalDispatch

open Lib

variable {F : FloatArithmetic} {attempt : ActivityAttempt} {now : Nat} {db : Database}
  {key : Key} {t : Task} {l : Lease}

/-! ## What an execution raises -/

/-- A text by its code points, lone surrogates among them. -/
abbrev PyText := List Nat

namespace PyText

/-- Only a text without surrogates has an encoding to be bound to a statement. -/
def encodable (s : PyText) : Bool := s.all fun c => decide c.isValidChar

/-- The text with the null character for every surrogate. -/
def str (s : PyText) : String := String.ofList (s.map Char.ofNat)

lemma length_str (s : PyText) : s.str.length = s.length := by
  rw [str, String.length_ofList, List.length_map]

lemma bounded_str {s : PyText} {limit : Nat} :
    s.str ≠ "" ∧ s.str.length ≤ limit ↔ s ≠ [] ∧ s.length ≤ limit := by
  rw [ne_eq, ← String.length_eq_zero_iff, length_str, List.length_eq_zero_iff]

end PyText

/-- What an `ActivityError` has checked of its failure; the details it has also encoded. -/
structure Classified where
  error : PyText
  kind : PyText
  details : Json := .null
  retryable : Bool := false
  retryAfter : Option PyNumber := none
  error_bound : error ≠ [] ∧ error.length ≤ 4096
  kind_bound : kind ≠ [] ∧ kind.length ≤ 128
  retryAfter_bound : ∀ d ∈ retryAfter, 0 ≤ d.toDyadic ∧ d.toDyadic ≤ maxDurationSeconds

/-- A classified failure, or an exception of which the class name and the `repr`, which may raise
itself, are reported. -/
inductive Raised where
  | activityError (failure : Classified)
  | exception (name : PyText) (repr : Except Exc PyText)

namespace Raised

def encodable : Raised → Bool
  | activityError c => c.error.encodable && c.kind.encodable
  | exception name repr => repr.toOption.all fun text => name.encodable && text.encodable

def Fits : Raised → Prop
  | activityError _ => True
  | exception name repr => ∃ text, repr = .ok text ∧
    (text ≠ [] ∧ text.length ≤ 4096) ∧ name ≠ [] ∧ name.length ≤ 128

/-- The failure `fail` makes of it. -/
def failed : Raised → Except Exc ActivityFailure
  | activityError ⟨error, kind, details, retryable, retryAfter, herror, hkind, hafter⟩ =>
    .ok ⟨error.str, kind.str, details, retryable, retryAfter, PyText.bounded_str.mpr herror,
      PyText.bounded_str.mpr hkind, hafter⟩
  | exception name repr => do
    let text ← repr
    ActivityFailure.classified text.str name.str true

end Raised

/-! ## Executing -/

def unicodeEncodeError : Exc :=
  let text := "'utf-8' codec can't encode character: surrogates not allowed"
  ⟨"UnicodeEncodeError", true, text, [quoted text]⟩

/-- The report of what was raised. A terminal row whose texts have no encoding is refused and
rolled back; a retry writes no text. -/
def failRaised (F : FloatArithmetic) (attempt : ActivityAttempt) (raised : Raised) (now : Nat)
    (db : Database) : Except Exc (Disposition × Database) := do
  let failure ← raised.failed
  let (disposition, db) ← fail F attempt (.classified failure) now db
  require (raised.encodable = true ∨ disposition = .retryable) unicodeEncodeError
  return (disposition, db)

inductive Said where
  | refused (error : String)
  | completed
  | failed
  deriving DecidableEq

/-- `Worker._execute`, with what the implementation returned as JSON or raised. -/
def execute (F : FloatArithmetic) (run : Except Raised Json) (attempt : ActivityAttempt)
    (now : Nat) (db : Database) : Said × Database :=
  match run with
  | .ok result =>
    match complete attempt (.faithful result) now db with
    | .ok (_, db) => (.completed, db)
    | .error e => (.refused e.text, db)
  | .error raised =>
    match failRaised F attempt raised now db with
    | .ok (_, db) => (.failed, db)
    | .error e => (.refused e.text, db)

def Recorded (key : Key) (now : Nat) (db : Database) : Prop :=
  (∃ row failure, db.terminals.get? key = some row ∧ row.outcome = .failed failure) ∨
    ∃ t l, db.tasks.get? key = some t ∧ t.lease = some l ∧ l.deadline ≤ now

end Petrus.Motus.LocalDispatch
