import Petrus.Impetus.History.Codec

/-!
# History stores on a shared table

Several stores of one instance share a durable table; each mirrors it in memory. An
append inserts its records at the positions its memory asks for, and judges a
conflict by reading the stored row back. The SQLite and the PostgreSQL store differ in
the column that holds a payload and in their texts.
-/

namespace Petrus.Impetus.HistoryStore

open Lib

/-- The two kinds of terminal fact, each at most once per occurrence. -/
inductive Family where
  | firing
  | activity
  deriving DecidableEq

def family : RecordType → Option Family
  | .firingCompleted | .firingFailed => some .firing
  | .activityCompleted | .activityFailed => some .activity
  | _ => none

/-- One event of the instance; its identity is the instance's name and the position. -/
structure Row where
  position : Nat
  recordType : RecordType
  occurrence : Option Nat
  payload : Json
  deriving DecidableEq

/-- What sets one store apart: what its payload column reads back as, and its texts. -/
structure Backend where
  column : Json → Json
  different (event stored appending : String) : String
  unexplained (event appending : String) : String
  terminal (occurrence owner storedEvent stored appending event : String) : String

def sqlite : Backend where
  column := id
  different event stored appending :=
    s!"event {event} is already recorded as a different fact (stored {stored}, appending {appending})"
  unexplained event _ := s!"insert of event {event} conflicted but no stored row explains it"
  terminal occurrence owner storedEvent stored appending event :=
    s!"occurrence {occurrence} of {owner} already holds its terminal fact ({stored}, event {storedEvent}); refusing different {appending} (event {event})"

/-- A `jsonb` column keeps every number as a decimal: a float reads back as `decimal` has it, the
negative zero as zero. The order of members is not kept. -/
def jsonb (decimal : Dyadic → PyNumber) : Json → Json :=
  Json.normal fun
    | .num (.float d) => .num (decimal d)
    | .num .negZero => .num (.float 0)
    | scalar => scalar

def postgres (decimal : Dyadic → PyNumber) : Backend where
  column := jsonb decimal
  different event stored appending :=
    s!"event {event} is already recorded as a different fact: refusing to overwrite an appended fact (stored {stored}, appending {appending})"
  unexplained event appending :=
    s!"insert of event {event} ({appending}) conflicted, but no stored row explains it: cannot verify the conflict, refusing to acknowledge"
  terminal occurrence owner storedEvent stored appending event :=
    s!"occurrence {occurrence} of {owner} already holds its terminal fact ({stored}, event {storedEvent}): refusing a different {appending} (event {event}) — an operational conflict, not a redelivery"

def eventId (owner : String) (position : Nat) : String := s!"{owner}:{position}"

def Row.of (B : Backend) (position : Nat) (r : Record) : Row :=
  ⟨position, r.object.type, r.occurrence?, B.column (encodeRecord r.object)⟩

def Row.sameSlot (a b : Row) : Bool :=
  (family a.recordType).isSome && family a.recordType = family b.recordType &&
    a.occurrence.isSome && a.occurrence = b.occurrence

def conflicts (rows : List Row) (row : Row) : Bool :=
  rows.any fun stored => stored.position = row.position || stored.sameSlot row

def runtimeError (text : String) : Exc := ⟨"RuntimeError", false, text, [quoted text]⟩

/-- The terminal fact of the occurrence, if the record is one of its family. -/
def storedTerminal (rows : List Row) (row : Row) : Option Row :=
  match family row.recordType with
  | none => none
  | some f => rows.find? fun stored =>
      row.occurrence.isSome && stored.occurrence = row.occurrence &&
        family stored.recordType = some f

/-- Judge a refused insert. `true`: the value-equal row stands where the store was about to write;
`false`: the value-equal terminal fact stands elsewhere. `appending` is what is being written, as
it reads back from its text. -/
def verifyConflict (B : Backend) (owner : String) (rows : List Row) (row : Row) (appending : Json) :
    Except Exc Bool :=
  match rows.find? fun stored => stored.position = row.position with
  | some stored =>
    if stored.payload.value = appending.value then .ok true
    else .error (valueError
      (B.different (eventId owner row.position) stored.recordType.name row.recordType.name))
  | none =>
    match storedTerminal rows row with
    | none => .error (runtimeError (B.unexplained (eventId owner row.position) row.recordType.name))
    | some stored =>
      if stored.payload.value = appending.value then .ok false
      else .error (valueError
        (B.terminal (toString (row.occurrence.getD 0)) owner (eventId owner stored.position)
          stored.recordType.name row.recordType.name (eventId owner row.position)))

/-- A batch under way: the rows so far, the next position and the records that filled one. -/
structure Commit where
  rows : List Row
  position : Nat
  entered : List RecordObject := []

def Commit.fill (c : Commit) (rows : List Row) (r : Record) : Commit :=
  ⟨rows, c.position + 1, c.entered ++ [r.object]⟩

def Commit.append (B : Backend) (owner : String) (c : Commit) (r : Record) : Except Exc Commit :=
  let row := Row.of B c.position r
  if conflicts c.rows row then do
    let fills ← verifyConflict B owner c.rows row (encodeRecord r.object)
    return if fills then c.fill c.rows r else c
  else .ok (c.fill (c.rows ++ [row]) r)

def commitBatch (B : Backend) (owner : String) (rows : List Row) (memory : List RecordObject)
    (batch : List Record) : Except Exc (List Row × List RecordObject) := do
  let c ← batch.foldlM (Commit.append B owner) ⟨rows, memory.length, []⟩
  return (c.rows, memory ++ c.entered)

/-- `encoded.get("occurrence")`. -/
def occurrenceMember : Json → Json
  | .obj members => (Dict.lookup "occurrence" members).getD .null
  | _ => .null

def occurrenceColumn : Option Nat → Json
  | none => .null
  | some n => .num (.int n)

def loadRow (owner : String) (entry : Row × Nat) : Except Exc RecordObject := do
  let (row, expected) := entry
  require (row.position = expected) (valueError
    s!"history for {quoted owner} is non-dense or has corrupt event identity at position {expected}")
  let record ← decodeRecord row.payload
  require (record.type = row.recordType ∧
      (occurrenceMember row.payload).value = (occurrenceColumn row.occurrence).value)
    (valueError s!"event {eventId owner expected} has corrupt indexing metadata")
  return record

def load (owner : String) (rows : List Row) : Except Exc (List RecordObject) :=
  ((rows.insertionSort fun a b => a.position ≤ b.position).zipIdx).mapM (loadRow owner)

/-! ## Stores at work -/

/-- The durable rows and the memory of every open store, by a handle. -/
structure World where
  rows : List Row := []
  stores : Dict Nat (List RecordObject) := Dict.empty

inductive Op where
  | openStore (handle : Nat)
  | commit (handle : Nat) (batch : List Record)

inductive Reply where
  | done
  | raised (e : Exc)
  | unopened
  deriving DecidableEq

/-- One call; a commit is one immediate transaction, rolled back when it raises. -/
def Op.perform (owner : String) (op : Op) (w : World) : Reply × World :=
  match op with
  | openStore handle =>
    match load owner w.rows with
    | .ok memory => (.done, { w with stores := w.stores.set handle memory })
    | .error e => (.raised e, w)
  | commit handle batch =>
    match w.stores.get? handle with
    | none => (.unopened, w)
    | some memory =>
      match commitBatch sqlite owner w.rows memory batch with
      | .ok (rows, memory) => (.done, ⟨rows, w.stores.set handle memory⟩)
      | .error e => (.raised e, w)

section Perform

variable {owner : String} {w : World} {handle : Nat} {batch : List Record}
  {memory memory' : List RecordObject}

lemma Op.perform_commit_ok {rows : List Row} (hstore : w.stores.get? handle = some memory)
    (h : commitBatch sqlite owner w.rows memory batch = .ok (rows, memory')) :
    (commit handle batch).perform owner w = (.done, ⟨rows, w.stores.set handle memory'⟩) := by
  simp only [Op.perform, hstore, h]

lemma Op.perform_commit_error {e : Exc} (hstore : w.stores.get? handle = some memory)
    (h : commitBatch sqlite owner w.rows memory batch = .error e) :
    (commit handle batch).perform owner w = (.raised e, w) := by
  simp only [Op.perform, hstore, h]

lemma Op.perform_commit_unopened (hstore : w.stores.get? handle = none) :
    (commit handle batch).perform owner w = (.unopened, w) := by
  simp only [Op.perform, hstore]

end Perform

/-- Worlds any interleaving of calls leads to from an empty table. -/
inductive Reachable (owner : String) : World → Prop
  | empty : Reachable owner {}
  | step {w : World} (h : Reachable owner w) (op : Op) : Reachable owner (op.perform owner w).2

def World.play (owner : String) (w : World) (ops : List Op) : World :=
  ops.foldl (fun w op => (op.perform owner w).2) w

lemma Reachable.play {owner : String} {w : World} (h : Reachable owner w) (ops : List Op) :
    Reachable owner (w.play owner ops) := by
  induction ops generalizing w with
  | nil => exact h
  | cons op ops ih => exact ih (h.step op)

end Petrus.Impetus.HistoryStore
