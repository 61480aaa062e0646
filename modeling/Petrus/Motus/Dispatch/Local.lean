import Petrus.Motus.Activity
import Petrus.Lib.Dict
import Petrus.Lib.JsonText

/-!
# Local dispatch

SQLite-backed, single-host activity custody. Every operation is one serialized
transaction over three tables: the published tasks with their current lease, the
terminal outcomes and the cancellation fences. An operation that raises is rolled
back, so it is a function from the tables to an exception or to the new tables.
-/

namespace Petrus.Motus.LocalDispatch

open Lib

variable (F : FloatArithmetic)

abbrev Key := String × Nat

/-- An epoch text as `str` and `int` see it: the spelling of a number, or another text with the
number `int` reads from it, if any. -/
inductive EpochText where
  | str (n : Nat)
  | other (int : Option Int)
  deriving DecidableEq

def EpochText.int : EpochText → Except Exc Int
  | .str n => .ok n
  | .other (some n) => .ok n
  | .other none => .error (valueError "invalid literal for int() with base 10")

/-- A detached, fenced claim on one invocation. The identity is what `json.loads` reads from its
text, if it reads anything. -/
structure ActivityAttempt where
  attemptId : Option Json
  epoch : EpochText
  claimant : String
  queue : String
  invocation : ActivityInvocation Json
  latestDetails : Json := .null
  instanceId : Option String
  deriving DecidableEq

structure CancellationInstruction where
  occurrence : Nat
  invocation : ActivityInvocation Json
  historyPosition : Nat
  occurrence_pos : 1 ≤ occurrence
  position_pos : 1 ≤ historyPosition

inductive CancellationDisposition where
  | tombstoned
  | retired
  | fenced
  | terminal
  | acknowledged
  deriving DecidableEq

/-! ## The tables -/

/-- The columns a claim writes; a row without a lease has epoch 0. -/
structure Lease where
  epoch : Nat
  epoch_pos : 0 < epoch
  claimant : String
  deadline : Nat
  attemptStart : Nat
  attemptDeadline : Option Nat
  deriving DecidableEq

structure Task where
  queue : String
  invocation : ActivityInvocation Json
  lease : Option Lease := none
  scheduleStart : Nat
  availableAt : Nat
  details : Option Json := none
  deriving DecidableEq

structure Terminal where
  epoch : Int
  claimant : Option String
  outcome : Outcome
  deriving DecidableEq

structure Cancellation where
  historyPosition : Nat
  invocation : ActivityInvocation Json
  deriving DecidableEq

/-- Rows in the order of their sequence numbers, unique per instance and occurrence. -/
structure Database where
  tasks : Dict Key Task := .empty
  terminals : Dict Key Terminal := .empty
  cancellations : Dict Key Cancellation := .empty
  deriving DecidableEq

namespace Task

def epoch (t : Task) : Nat := (t.lease.map Lease.epoch).getD 0

def attempts (t : Task) : Nat := t.invocation.policy.attempts

/-- `epoch=0 OR deadline<=now`. -/
def idle (t : Task) (now : Nat) : Bool := t.lease.all fun l => decide (l.deadline ≤ now)

/-- `epoch>0 AND deadline<=now`. -/
def expired (t : Task) (now : Nat) : Bool := t.lease.any fun l => decide (l.deadline ≤ now)

def scheduleDeadline (t : Task) : Option Nat :=
  t.invocation.policy.scheduleToClose.map fun d => t.scheduleStart + milliseconds F d

end Task

def Database.open_ (db : Database) (key : Key) : Bool :=
  !db.terminals.contains key && !db.cancellations.contains key

/-! ## Wire forms -/

def policyWire (p : ExecutionPolicy) : Json :=
  .obj [("attempts", .num (.int p.attempts)), ("heartbeat_timeout", .num (.int p.heartbeatTimeout)),
    ("initial_interval", .num p.initialInterval), ("coefficient", .num p.coefficient),
    ("max_interval", .num p.maxInterval), ("jitter", .num p.jitter),
    ("start_to_close", ActivityFailure.number p.startToClose),
    ("schedule_to_close", ActivityFailure.number p.scheduleToClose)]

def text : Option String → Json
  | none => .null
  | some s => .str s

def encodeInvocation (i : ActivityInvocation Json) : Json :=
  (Json.obj [("activity", .str i.activity), ("input", i.input), ("policy", policyWire i.policy),
    ("correlation", text i.correlation), ("idempotency", text i.idempotency)]).spelling

def encodeOutcome (o : Outcome) : Json := o.terminal.spelling

def occurrenceError : Exc := valueError "Local Dispatch occurrence must be a positive integer"

def publicationConflict (occurrence : Nat) : Exc :=
  valueError s!"Local Dispatch publication conflict for occurrence {occurrence}"

def cancellationConflict (occurrence : Nat) : Exc :=
  valueError s!"Local Dispatch cancellation conflict for occurrence {occurrence}"

def staleAttempt : Exc := valueError "stale Activity attempt"

def integrityError (text : String) : Exc := ⟨"IntegrityError", false, text, [quoted text]⟩

/-! ## The engine-facing session -/

def validName (s : String) : Bool := s ≠ "" && !s.toList.contains '\x00'

def name (s noun : String) : Except Exc Unit :=
  require (validName s) (valueError
    s!"Local Dispatch {noun} must be a non-empty string without NUL")

structure Session where
  instanceId : String
  defaultQueue : String := "default"
  activityQueues : Dict String String := .empty
  published : List Nat := []
  collected : List Nat := []
  deriving DecidableEq

def Session.open_ (instanceId defaultQueue : String) (activityQueues : Dict String String) :
    Except Exc Session := do
  name instanceId "instance"
  name defaultQueue "queue"
  activityQueues.entries.forM fun route => do
    name route.1 "activity"
    name route.2 "queue"
  return { instanceId, defaultQueue, activityQueues }

def Session.publish (session : Session) (occurrence : Nat) : Session :=
  { session with published := occurrence :: session.published }

def Session.route (session : Session) (activity : String) : String :=
  (session.activityQueues.get? activity).getD session.defaultQueue

def dispatch (session : Session) (occurrence : Nat) (invocation : ActivityInvocation Json)
    (now : Nat) (db : Database) : Except Exc (Session × Database) := do
  require (0 < occurrence) occurrenceError
  let queue := session.route invocation.activity
  let key : Key := (session.instanceId, occurrence)
  match db.cancellations.get? key with
  | some cancelled =>
    require (encodeInvocation cancelled.invocation = encodeInvocation invocation)
      (publicationConflict occurrence)
    return (session.publish occurrence, db)
  | none =>
    -- INSERT .. ON CONFLICT DO NOTHING, then the row is read back
    let row := (db.tasks.get? key).getD
      { queue, invocation, scheduleStart := now, availableAt := now }
    require (encodeInvocation row.invocation = encodeInvocation invocation)
      (publicationConflict occurrence)
    -- Pending or expired work moves; a live claim and a terminal keep their route.
    let queue :=
      if db.terminals.contains key = false ∧ row.idle now = true then queue else row.queue
    return (session.publish occurrence,
      { db with tasks := db.tasks.set key { row with queue } })

def cancel (session : Session) (instruction : CancellationInstruction) (db : Database) :
    Except Exc (CancellationDisposition × Session × Database) := do
  let key : Key := (session.instanceId, instruction.occurrence)
  let inserted := !db.cancellations.contains key
  let cancellation := (db.cancellations.get? key).getD
    ⟨instruction.historyPosition, instruction.invocation⟩
  require (cancellation.historyPosition = instruction.historyPosition ∧
      encodeInvocation cancellation.invocation = encodeInvocation instruction.invocation)
    (cancellationConflict instruction.occurrence)
  require (∀ task ∈ db.tasks.get? key,
      encodeInvocation task.invocation = encodeInvocation instruction.invocation)
    (cancellationConflict instruction.occurrence)
  let disposition : CancellationDisposition :=
    if !inserted then .acknowledged
    else if db.terminals.contains key then .terminal
    else match db.tasks.get? key with
      | none => .tombstoned
      | some task => if task.epoch = 0 then .retired else .fenced
  return (disposition, session.publish instruction.occurrence,
    { db with cancellations := db.cancellations.set key cancellation })

/-- The terminal rows of what this session published and has not collected, in sequence order. -/
def collect (session : Session) (db : Database) : List (Nat × Outcome) × Session :=
  let rows := db.terminals.entries.filter fun row =>
    row.1.1 = session.instanceId && session.published.contains row.1.2 &&
      !session.collected.contains row.1.2
  (rows.map fun row => (row.1.2, row.2.outcome),
    { session with collected := session.collected ++ rows.map fun row => row.1.2 })

/-! ## The worker side -/

structure Worker where
  queues : List String
  claimant : String
  deriving DecidableEq

def attemptId (key : Key) : Json := .arr [.str key.1, .num (.int key.2)]

def attemptKey (attempt : ActivityAttempt) : Except Exc Key :=
  match attempt.attemptId with
  | some (.arr [.str instanceId, .num (.int occurrence)]) => do
    require (validName instanceId ∧ 1 ≤ occurrence ∧ attempt.instanceId = some instanceId)
      (valueError "invalid Local Activity attempt identity")
    return (instanceId, occurrence.toNat)
  | _ => .error (valueError "invalid Local Activity attempt identity")

/-- An expired retryable lease becomes delayed work; its backoff is anchored at the expiry. -/
def Database.delayed (db : Database) (now : Nat) (queues : List String) (key : Key) (t : Task) :
    Task :=
  match t.lease with
  | none => t
  | some l =>
    if db.open_ key = true ∧ t.queue ∈ queues ∧ l.deadline ≤ now ∧ l.epoch < t.attempts then
      { t with availableAt := l.deadline + milliseconds F (t.invocation.policy.delay F l.epoch) }
    else t

/-- The rows the sweep ends: the last lease expired, or the schedule deadline passed. -/
def Database.exhausted (db : Database) (now : Nat) (queues : List String) (key : Key) (t : Task) :
    Bool :=
  db.open_ key && queues.contains t.queue &&
    ((t.expired now && decide (t.attempts ≤ t.epoch)) ||
      t.invocation.policy.scheduleToClose.any fun d =>
        decide (t.scheduleStart + sqlMilliseconds F d ≤ now))

def ActivityFailure.classified (error kind : String) (retryable : Bool) :
    Except Exc ActivityFailure :=
  if herror : error ≠ "" ∧ error.length ≤ 4096 then
    if hkind : kind ≠ "" ∧ kind.length ≤ 128 then
      .ok { error, kind, retryable, error_bound := herror, kind_bound := hkind,
            retryAfter_bound := ActivityFailure.no_retryAfter }
    else .error (valueError
      "ActivityFailure kind must be a non-empty string of at most 128 characters")
  else .error (valueError
    "ActivityFailure error must be a non-empty string of at most 4096 characters")

def exhaustion (epoch : Nat) : Except Exc ActivityFailure :=
  let noun := if epoch = 1 then "attempt" else "attempts"
  ActivityFailure.classified s!"Local Dispatch deadline exhausted after {epoch} {noun}"
    "DeadlineExceeded" false

/-- `INSERT OR IGNORE` of one exhausted row. -/
def exhaust (terminals : Dict Key Terminal) (row : Key × Task) :
    Except Exc (Dict Key Terminal) := do
  let failure ← exhaustion row.2.epoch
  return if terminals.contains row.1 then terminals
    else terminals.set row.1 ⟨row.2.epoch, row.2.lease.map Lease.claimant, .failed failure⟩

def terminalizeExhausted (now : Nat) (queues : List String) (db : Database) :
    Except Exc Database := do
  let tasks := db.tasks.mapValues (db.delayed F now queues)
  let rows := tasks.entries.filter fun row => db.exhausted F now queues row.1 row.2
  let terminals ← rows.foldlM exhaust db.terminals
  return { db with tasks, terminals }

def Database.claimable (db : Database) (now : Nat) (queues : List String) (row : Key × Task) :
    Bool :=
  db.open_ row.1 && queues.contains row.2.queue && decide (row.2.epoch < row.2.attempts) &&
    decide (row.2.availableAt ≤ now) && row.2.idle now

def hardLimits (t : Task) (now : Nat) : List Nat :=
  (t.invocation.policy.startToClose.map fun d => now + milliseconds F d).toList ++
    (t.scheduleDeadline F).toList

def minimum (first : Nat) (rest : List Nat) : Nat := rest.foldl min first

def Task.claimed (t : Task) (claimant : String) (now : Nat) : Lease where
  epoch := t.epoch + 1
  epoch_pos := Nat.succ_pos _
  claimant
  deadline := minimum (now + t.invocation.policy.heartbeatTimeout * 1000) (hardLimits F t now)
  attemptStart := now
  attemptDeadline := match hardLimits F t now with
    | [] => none
    | first :: rest => some (minimum first rest)

def Task.leased (t : Task) (l : Lease) : Task := { t with lease := some l }

def claim (worker : Worker) (now : Nat) (db : Database) :
    Except Exc (Option ActivityAttempt × Database) := do
  let db ← terminalizeExhausted F now worker.queues db
  match db.tasks.entries.find? (db.claimable now worker.queues) with
  | none => return (none, db)
  | some (key, t) =>
    let lease := t.claimed F worker.claimant now
    let attempt : ActivityAttempt :=
      { attemptId := some (attemptId key), epoch := .str lease.epoch, claimant := worker.claimant
        queue := t.queue, invocation := t.invocation, latestDetails := t.details.getD .null
        instanceId := some key.1 }
    return (some attempt, { db with tasks := db.tasks.set key (t.leased lease) })

def active (attempt : ActivityAttempt) (now : Nat) (db : Database) :
    Except Exc (Key × Task × Lease) := do
  let key ← attemptKey attempt
  match db.tasks.get? key with
  | none => .error staleAttempt
  | some task =>
    match task.lease with
    | none => .error staleAttempt
    | some lease =>
      require (db.open_ key = true ∧ task.queue = attempt.queue ∧
          encodeInvocation task.invocation = encodeInvocation attempt.invocation ∧
          EpochText.str lease.epoch = attempt.epoch ∧ lease.claimant = attempt.claimant ∧
          now < lease.deadline) staleAttempt
      return (key, task, lease)

/-- The deadline a heartbeat renews the lease to, within the hard limits of the attempt. -/
def Task.renewedDeadline (t : Task) (l : Lease) (now : Nat) : Nat :=
  minimum (now + t.invocation.policy.heartbeatTimeout * 1000) l.attemptDeadline.toList

def Task.renewed (t : Task) (l : Lease) (now : Nat) (details : Option Json) : Task :=
  { t with lease := some { l with deadline := t.renewedDeadline l now }, details }

/-- The row after a retryable failure. The epoch stays as the fence; the lease ends now. -/
def Task.released (t : Task) (l : Lease) (now available : Nat) : Task :=
  { t with lease := some { l with deadline := now }, availableAt := available }

def heartbeatDetailsLimit : Nat := 65536

def snapshotHeartbeatDetails : Payload → Except Exc Json
  | .faithful value => do
    require (value.size F.repr ≤ heartbeatDetailsLimit) (valueError
      s!"heartbeat details encode to {value.size F.repr} UTF-8 bytes; limit is {heartbeatDetailsLimit}")
    return value
  | .foreign => .error (valueError "heartbeat details are not JSON-faithful")

def snapshotDetails : Option Payload → Except Exc (Option Json)
  | none => .ok none
  | some details => some <$> snapshotHeartbeatDetails F details

def heartbeat (attempt : ActivityAttempt) (details : Option Payload) (now : Nat) (db : Database) :
    Except Exc (Json × Database) := do
  let snapshot ← snapshotDetails F details
  let (key, task, lease) ← active attempt now db
  let details := snapshot.or task.details
  return (details.getD .null,
    { db with tasks := db.tasks.set key (task.renewed lease now details) })

/-- True when the fence matches the exact attempt that held the cancelled task. -/
def cancelledAttempt (attempt : ActivityAttempt) (db : Database) : Except Exc Bool := do
  let key ← attemptKey attempt
  if db.cancellations.contains key = false then return false
  let epoch ← attempt.epoch.int
  let row := (db.tasks.get? key).map fun t =>
    (t.queue, encodeInvocation t.invocation, (t.epoch : Int), t.lease.map Lease.claimant)
  require (row = some (attempt.queue, encodeInvocation attempt.invocation, epoch,
    some attempt.claimant)) staleAttempt
  return true

def acknowledgeTerminalRetry (attempt : ActivityAttempt) (outcome : Outcome) (db : Database) :
    Except Exc Bool := do
  let key ← attemptKey attempt
  match db.terminals.get? key with
  | none => return false
  | some row => do
    let epoch ← attempt.epoch.int
    require (row.epoch = epoch ∧ row.claimant = some attempt.claimant ∧
        encodeOutcome row.outcome = encodeOutcome outcome)
      (valueError "conflicting terminal report for Activity attempt")
    return true

def insertTerminal (attempt : ActivityAttempt) (outcome : Outcome) (db : Database) :
    Except Exc Database := do
  let key ← attemptKey attempt
  let epoch ← attempt.epoch.int
  require (db.terminals.contains key = false) (integrityError "UNIQUE constraint failed")
  require (db.tasks.contains key = true) (integrityError "FOREIGN KEY constraint failed")
  require (0 < epoch) (integrityError "CHECK constraint failed")
  return { db with terminals := db.terminals.set key ⟨epoch, some attempt.claimant, outcome⟩ }

/-- What a report did. -/
inductive Disposition where
  | terminalRetry
  | cancelledReport
  | terminal
  | retryable
  deriving DecidableEq

def faithful (value : Payload) (noun : String) : Except Exc Json :=
  match value with
  | .faithful value => .ok value
  | .foreign => .error (valueError s!"{noun} must be JSON-faithful")

def complete (attempt : ActivityAttempt) (result : Payload) (now : Nat) (db : Database) :
    Except Exc (Disposition × Database) := do
  let value ← faithful result "Activity result"
  let outcome := Outcome.completed value
  if ← acknowledgeTerminalRetry attempt outcome db then return (.terminalRetry, db)
  if ← cancelledAttempt attempt db then
    let db ← insertTerminal attempt outcome db
    return (.cancelledReport, db)
  let _ ← active attempt now db
  let db ← insertTerminal attempt outcome db
  return (.terminal, db)

/-- What a worker reports of a failed execution. -/
inductive Report where
  | message (error : String)
  | exception (name repr : String)
  | classified (failure : ActivityFailure)

def Report.failed : Report → Except Exc ActivityFailure
  | .message error => ActivityFailure.classified error "ActivityError" false
  | .exception name repr => ActivityFailure.classified repr name true
  | .classified failure => .ok failure

def Report.legacyRetryable : Report → Bool
  | .message _ => true
  | _ => false

/-- The delay in seconds a failed attempt asks for: the backoff, or a greater `retry_after`. -/
def retryDelay (policy : ExecutionPolicy) (epoch : Nat) (failure : ActivityFailure) : PyNumber :=
  pyMax (policy.delay F epoch) (failure.retryAfter.getD (.int 0))

def fail (attempt : ActivityAttempt) (report : Report) (now : Nat) (db : Database) :
    Except Exc (Disposition × Database) := do
  let failure ← report.failed
  let outcome := Outcome.failed failure
  if ← acknowledgeTerminalRetry attempt outcome db then return (.terminalRetry, db)
  if ← cancelledAttempt attempt db then
    let db ← insertTerminal attempt outcome db
    return (.cancelledReport, db)
  let (key, task, lease) ← active attempt now db
  let scheduleDeadline := attempt.invocation.policy.scheduleToClose.map fun d =>
    task.scheduleStart + milliseconds F d
  let available := now + milliseconds F (retryDelay F attempt.invocation.policy lease.epoch failure)
  if (failure.retryable = true ∨ report.legacyRetryable = true) ∧ lease.epoch < task.attempts ∧
      ∀ d ∈ scheduleDeadline, available < d then
    return (.retryable, { db with tasks := db.tasks.set key (task.released lease now available) })
  else
    let db ← insertTerminal attempt outcome db
    return (.terminal, db)

/-- One poll of `wait`: the sweep, then whether something may be claimed. -/
def poll (worker : Worker) (now : Nat) (db : Database) : Except Exc (Bool × Database) := do
  let db ← terminalizeExhausted F now worker.queues db
  return (db.tasks.entries.any (db.claimable now worker.queues), db)

end Petrus.Motus.LocalDispatch
