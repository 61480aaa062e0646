import Petrus.Lib.Fold
import Petrus.Lib.Json

/-!
# Activity values

The execution policy, the invocation a handler prepares and the classified failure
an execution adapter reports. Each value carries the checks of its constructor.
-/

namespace Petrus.Motus

open Lib

def maxDurationSeconds : Dyadic := 1000000000

/-- Resolved retry, heartbeat and deadline settings; durations are seconds. -/
structure ExecutionPolicy where
  attempts : Nat := 1
  heartbeatTimeout : Nat := 30
  initialInterval : PyNumber := .int 0
  coefficient : PyNumber := .int 2
  maxInterval : PyNumber := .int 60
  jitter : PyNumber := .int 0
  startToClose : Option PyNumber := none
  scheduleToClose : Option PyNumber := none
  attempts_pos : 1 ≤ attempts := by decide
  heartbeat_bound : 1 ≤ heartbeatTimeout ∧ heartbeatTimeout ≤ 1000000000 := by decide
  initial_bound : 0 ≤ initialInterval.toDyadic ∧ initialInterval.toDyadic ≤ maxDurationSeconds := by
    decide
  coefficient_bound : 1 ≤ coefficient.toDyadic := by decide
  max_bound : 0 ≤ maxInterval.toDyadic ∧ maxInterval.toDyadic ≤ maxDurationSeconds := by decide
  jitter_zero : jitter.toDyadic = 0 := by decide
  start_bound : ∀ d ∈ startToClose, 0 < d.toDyadic ∧ d.toDyadic ≤ maxDurationSeconds := by decide
  schedule_bound : ∀ d ∈ scheduleToClose, 0 < d.toDyadic ∧ d.toDyadic ≤ maxDurationSeconds := by
    decide

namespace ExecutionPolicy

/-- `ExecutionPolicy()`. -/
def standard : ExecutionPolicy := {}

lemma eq_iff (a b : ExecutionPolicy) :
    (a.attempts = b.attempts ∧ a.heartbeatTimeout = b.heartbeatTimeout ∧
      a.initialInterval = b.initialInterval ∧ a.coefficient = b.coefficient ∧
      a.maxInterval = b.maxInterval ∧ a.jitter = b.jitter ∧ a.startToClose = b.startToClose ∧
      a.scheduleToClose = b.scheduleToClose) ↔ a = b := by
  obtain ⟨_, _, _, _, _, _, _, _, _, _, _, _, _, _, _, _⟩ := a
  obtain ⟨_, _, _, _, _, _, _, _, _, _, _, _, _, _, _, _⟩ := b
  simp

instance : DecidableEq ExecutionPolicy := fun a b => decidable_of_iff _ (eq_iff a b)

lemma positive_succ (n : Nat) : 1 ≤ n + 1 := Nat.le_add_left 1 n

def positive (value : Json) (e : Exc) : Except Exc {n : Nat // 1 ≤ n} :=
  match value with
  | .num (.int (.ofNat (n + 1))) => .ok ⟨n + 1, positive_succ n⟩
  | _ => .error e

def nonNegative (value : Json) (name : String) : Except Exc {n : PyNumber // 0 ≤ n.toDyadic} :=
  match value with
  | .num n =>
    if h : 0 ≤ n.toDyadic then .ok ⟨n, h⟩
    else .error (valueError s!"RetryPolicy {name} must be a non-negative number")
  | _ => .error (valueError s!"RetryPolicy {name} must be a non-negative number")

def deadline (value : Json) (name : String) :
    Except Exc {d : Option PyNumber // ∀ n ∈ d, 0 < n.toDyadic ∧ n.toDyadic ≤ maxDurationSeconds} :=
  match value with
  | .null => .ok ⟨none, by simp⟩
  | .num n =>
    if h : 0 < n.toDyadic then
      if hmax : n.toDyadic ≤ maxDurationSeconds then .ok ⟨some n, by simp [h, hmax]⟩
      else .error (valueError
        s!"ExecutionPolicy {name} must be at most 1000000000 seconds for provider-neutral duration safety")
    else .error (valueError s!"ExecutionPolicy {name} must be a positive number or None")
  | _ => .error (valueError s!"ExecutionPolicy {name} must be a positive number or None")

def ofFields (attempts heartbeatTimeout initialInterval coefficient maxInterval jitter startToClose
    scheduleToClose : Json) : Except Exc ExecutionPolicy := do
  let ⟨attempts, attempts_pos⟩ ← positive attempts (valueError
    "ExecutionPolicy requires attempts >= 1: an invocation that may never execute is a wedge, not a policy")
  let ⟨heartbeat, heartbeat_pos⟩ ← positive heartbeatTimeout (valueError
    "ExecutionPolicy heartbeat_timeout must be a positive integer")
  let ⟨heartbeat_max⟩ ← ensure (heartbeat ≤ 1000000000) (valueError
    "ExecutionPolicy heartbeat_timeout must be at most 1000000000 seconds for provider-neutral duration safety")
  let ⟨initial, initial_pos⟩ ← nonNegative initialInterval "initial_interval"
  let ⟨coefficient, _⟩ ← nonNegative coefficient "coefficient"
  let ⟨most, most_pos⟩ ← nonNegative maxInterval "max_interval"
  let ⟨jitter, _⟩ ← nonNegative jitter "jitter"
  let ⟨initial_max⟩ ← ensure (initial.toDyadic ≤ maxDurationSeconds) (valueError
    "RetryPolicy initial_interval must be at most 1000000000 seconds for provider-neutral duration safety")
  let ⟨most_max⟩ ← ensure (most.toDyadic ≤ maxDurationSeconds) (valueError
    "RetryPolicy max_interval must be at most 1000000000 seconds for provider-neutral duration safety")
  let ⟨coefficient_bound⟩ ← ensure (1 ≤ coefficient.toDyadic) (valueError
    "RetryPolicy coefficient must be >= 1")
  let ⟨jitter_zero⟩ ← ensure (jitter.toDyadic = 0) (valueError
    "RetryPolicy jitter is unsupported; only deterministic jitter=0 is accepted")
  let ⟨start, start_bound⟩ ← deadline startToClose "start_to_close"
  let ⟨schedule, schedule_bound⟩ ← deadline scheduleToClose "schedule_to_close"
  return ⟨attempts, heartbeat, initial, coefficient, most, jitter, start, schedule, attempts_pos,
    ⟨heartbeat_pos, heartbeat_max⟩, ⟨initial_pos, initial_max⟩, coefficient_bound,
    ⟨most_pos, most_max⟩, jitter_zero, start_bound, schedule_bound⟩

def optional : Option PyNumber → Json
  | none => .null
  | some n => .num n

def members (p : ExecutionPolicy) : List (String × Json) :=
  [("attempts", .num (.int p.attempts)), ("heartbeat_timeout", .num (.int p.heartbeatTimeout)),
    ("initial_interval", .num p.initialInterval), ("coefficient", .num p.coefficient),
    ("max_interval", .num p.maxInterval), ("jitter", .num p.jitter),
    ("start_to_close", optional p.startToClose), ("schedule_to_close", optional p.scheduleToClose)]

lemma positive_eq_ok {value : Json} {e : Exc} {n : {n : Nat // 1 ≤ n}} :
    positive value e = .ok n ↔ value = .num (.int n) := by
  obtain ⟨n, hn⟩ := n
  obtain ⟨m, rfl⟩ : ∃ m, n = m + 1 := ⟨n - 1, by omega⟩
  unfold positive
  split
  · simp [Subtype.ext_iff]
  · rename_i h
    simpa using fun hvalue => h m hvalue

lemma nonNegative_eq_ok {value : Json} {name : String} {n : {n : PyNumber // 0 ≤ n.toDyadic}} :
    nonNegative value name = .ok n ↔ value = .num n := by
  unfold nonNegative
  split
  · rename_i m
    by_cases h : 0 ≤ m.toDyadic
    · simp [h, Subtype.ext_iff]
    · simp only [h, dite_false, reduceCtorEq, Json.num.injEq, false_iff]
      intro heq
      exact h (heq ▸ n.2)
  · rename_i h
    simpa using fun hvalue => h n hvalue

lemma deadline_eq_ok {value : Json} {name : String}
    {d : {d : Option PyNumber // ∀ n ∈ d, 0 < n.toDyadic ∧ n.toDyadic ≤ maxDurationSeconds}} :
    deadline value name = .ok d ↔ value = optional d := by
  obtain ⟨d, hd⟩ := d
  cases value with
  | null | bool | str | arr | obj => cases d <;> simp [deadline, optional]
  | num n =>
    cases d with
    | none => simp only [deadline, optional]; split_ifs <;> simp
    | some m =>
      simp only [deadline, optional, Json.num.injEq]
      split_ifs with hpos hmax
      · simp
      · simp only [false_iff]
        exact fun heq => hmax (heq ▸ (hd m rfl).2)
      · simp only [false_iff]
        exact fun heq => hpos (heq ▸ (hd m rfl).1)

lemma ofFields_eq_ok {attempts heartbeat initial coefficient most jitter start schedule : Json}
    {p : ExecutionPolicy} :
    ofFields attempts heartbeat initial coefficient most jitter start schedule = .ok p ↔
      p.members = [("attempts", attempts), ("heartbeat_timeout", heartbeat),
        ("initial_interval", initial), ("coefficient", coefficient), ("max_interval", most),
        ("jitter", jitter), ("start_to_close", start), ("schedule_to_close", schedule)] := by
  constructor
  · intro h
    unfold ofFields at h
    simp only [bind_eq_ok, positive_eq_ok, nonNegative_eq_ok, deadline_eq_ok] at h
    obtain ⟨_, rfl, _, rfl, _, _, _, rfl, _, rfl, _, rfl, _, rfl, _, _, _, _, _, _, _, _, _, rfl, _,
      rfl, h⟩ := h
    cases h
    rfl
  · intro h
    simp only [members, List.cons.injEq, Prod.mk.injEq, true_and, and_true] at h
    obtain ⟨rfl, rfl, rfl, rfl, rfl, rfl, rfl, rfl⟩ := h
    have hcoefficient : 0 ≤ p.coefficient.toDyadic :=
      Dyadic.le_trans (by decide : (0 : Dyadic) ≤ 1) p.coefficient_bound
    have hjitter : 0 ≤ p.jitter.toDyadic := by
      rw [p.jitter_zero]
      decide
    have hpositive (n : Nat) (hn : 1 ≤ n) (e : Exc) :
        positive (.num (.int n)) e = .ok ⟨n, hn⟩ := positive_eq_ok.mpr rfl
    have hnumber (n : PyNumber) (hn : 0 ≤ n.toDyadic) (name : String) :
        nonNegative (.num n) name = .ok ⟨n, hn⟩ := nonNegative_eq_ok.mpr rfl
    have hstart : deadline (optional p.startToClose) "start_to_close" =
        .ok ⟨p.startToClose, p.start_bound⟩ := deadline_eq_ok.mpr rfl
    have hschedule : deadline (optional p.scheduleToClose) "schedule_to_close" =
        .ok ⟨p.scheduleToClose, p.schedule_bound⟩ := deadline_eq_ok.mpr rfl
    simp only [ofFields, hpositive _ p.attempts_pos, hpositive _ p.heartbeat_bound.1,
      ensure_true p.heartbeat_bound.2, hnumber _ p.initial_bound.1, hnumber _ hcoefficient,
      hnumber _ p.max_bound.1, hnumber _ hjitter, ensure_true p.initial_bound.2,
      ensure_true p.max_bound.2, ensure_true p.coefficient_bound, ensure_true p.jitter_zero, hstart,
      hschedule, ok_bind, except_pure]

end ExecutionPolicy

/-- The instruction offered to Dispatch. `ι` is the type of its input: what a handler prepared, or
the durable spelling the writer froze. -/
structure ActivityInvocation (ι : Type) where
  activity : String
  input : ι
  policy : ExecutionPolicy := {}
  correlation : Option String := none
  idempotency : Option String := none
  activity_ne : activity ≠ ""
  correlation_ne : correlation ≠ some "" := by decide
  idempotency_ne : idempotency ≠ some "" := by decide
  deriving DecidableEq

lemma none_ne_empty : (none : Option String) ≠ some "" := by decide

/-- A classified terminal failure. -/
structure ActivityFailure where
  error : String
  kind : String := "ActivityError"
  details : Json := .null
  retryable : Bool := false
  retryAfter : Option PyNumber := none
  error_bound : error ≠ "" ∧ error.length ≤ 4096
  kind_bound : kind ≠ "" ∧ kind.length ≤ 128 := by decide
  retryAfter_bound : ∀ d ∈ retryAfter, 0 ≤ d.toDyadic ∧ d.toDyadic ≤ maxDurationSeconds := by decide
  deriving DecidableEq

namespace ActivityFailure

lemma kind_default : "ActivityError" ≠ "" ∧ "ActivityError".length ≤ 128 := by decide

lemma no_retryAfter :
    ∀ d ∈ (none : Option PyNumber), 0 ≤ d.toDyadic ∧ d.toDyadic ≤ maxDurationSeconds := by decide

/-- `ActivityFailure(error)`. -/
def ofError (error : String) : Except Exc ActivityFailure :=
  if h : error ≠ "" ∧ error.length ≤ 4096 then
    .ok { error, error_bound := h, kind_bound := kind_default, retryAfter_bound := no_retryAfter }
  else .error (valueError
    "ActivityFailure error must be a non-empty string of at most 4096 characters")

def number : Option PyNumber → Json
  | none => .null
  | some n => .num n

def wire (failure : ActivityFailure) : Json :=
  .obj [("error", .str failure.error), ("kind", .str failure.kind), ("details", failure.details),
    ("retryable", .bool failure.retryable), ("retry_after", number failure.retryAfter)]

end ActivityFailure

/-- A terminal activity fact: the frozen result or the classified failure. -/
inductive Outcome where
  | completed (value : Json)
  | failed (failure : ActivityFailure)
  deriving DecidableEq

namespace Outcome

def terminal : Outcome → Json
  | completed value => .obj [("kind", .str "completed"), ("value", value)]
  | failed failure => .obj [("kind", .str "failed"), ("failure", failure.wire)]

/-- Equality of the type-sensitive spelling; a result never equals a failure. -/
def sameSpelling : Outcome → Outcome → Bool
  | completed a, completed b => a.spelling = b.spelling
  | failed a, failed b => a.wire.spelling = b.wire.spelling
  | _, _ => false

end Outcome

/-! ## Retry schedules -/

section

/-- The floating-point operations the schedule rests on: `seconds * 1000`,
`ceil((log(max) - log(initial)) / log(coefficient))` and
`exp(log(initial) + exponent * log(coefficient))`; and the text of a float. -/
structure FloatArithmetic where
  scale : Dyadic → Dyadic
  saturation : PyNumber → PyNumber → PyNumber → Int
  growth : PyNumber → PyNumber → Nat → PyNumber
  repr : Dyadic → String

/-- `max(a, b)`: the first unless the second is greater. -/
def pyMax (a b : PyNumber) : PyNumber := if a.toDyadic < b.toDyadic then b else a

/-- `min(a, b)`: the first unless the second is smaller. -/
def pyMin (a b : PyNumber) : PyNumber := if b.toDyadic < a.toDyadic then b else a

variable (F : FloatArithmetic)

def ExecutionPolicy.delay (p : ExecutionPolicy) (failedAttempt : Nat) : PyNumber :=
  if p.initialInterval.toDyadic = 0 ∨ p.maxInterval.toDyadic = 0 then .int 0
  else if p.maxInterval.toDyadic ≤ p.initialInterval.toDyadic then p.maxInterval
  else if p.coefficient.toDyadic = 1 then p.initialInterval
  else if F.saturation p.initialInterval p.maxInterval p.coefficient ≤
      (failedAttempt - 1 : Nat) then
    p.maxInterval
  else pyMin p.maxInterval (F.growth p.initialInterval p.coefficient (failedAttempt - 1))

/-- `ceil(seconds * 1000)` for a positive duration. -/
def milliseconds : PyNumber → Nat
  | .int n => if 0 < n then (n * 1000).toNat else 0
  | .float d => if 0 < d then ⌈(F.scale d).toRat⌉.toNat else 0
  | .negZero => 0

/-- The provider's SQL expression for a positive duration: the truncated product, plus one when
the truncation lost something. -/
def sqlMilliseconds : PyNumber → Nat
  | .int n => (n * 1000).toNat
  | .float d =>
    (⌊(F.scale d).toRat⌋ + if (⌊(F.scale d).toRat⌋ : ℚ) < (F.scale d).toRat then 1 else 0).toNat
  | .negZero => 0

lemma ceil_eq_floor_add (x : ℚ) : ⌈x⌉ = ⌊x⌋ + if (⌊x⌋ : ℚ) < x then 1 else 0 := by
  rw [Int.ceil_eq_iff]
  have hfloor := Int.floor_le x
  have hlt := Int.lt_floor_add_one x
  split_ifs with h
  · push_cast
    constructor <;> linarith
  · push_cast
    constructor <;> linarith

lemma sqlMilliseconds_eq {d : PyNumber} (hd : 0 < d.toDyadic) :
    sqlMilliseconds F d = milliseconds F d := by
  cases d with
  | int n =>
    simp only [sqlMilliseconds, milliseconds]
    split_ifs with hn
    · rfl
    · omega
  | float d =>
    have hpos : 0 < d := hd
    simp only [sqlMilliseconds, milliseconds, if_pos hpos, ceil_eq_floor_add]
  | negZero => rfl

end

end Petrus.Motus
