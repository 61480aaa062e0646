import Petrus.Impetus.Instance.Begin

/-!
# The end of a firing

Terminal activity reports, completion, terminal failure, and the inline driver that
runs a pure handler between begin and end.
-/

namespace Petrus.Impetus

open Lib Motus

inductive TerminalDisposition where
  | accepted
  | acknowledged
  | quarantined
  deriving DecidableEq

/-- A terminal commit takes exactly the occurrence this instance has in flight. -/
def ensureInFlight (s : Instance) (occurrence : FiringOccurrence) (verb : String) :
    Except Exc Unit :=
  if (s.inFlight.get? occurrence.id).any (·.equals occurrence) then .ok ()
  else if occurrence.id < s.nextOccurrence ∧ s.inFlight.contains occurrence.id = false then
    .error (valueError
      s!"cannot {verb} firing occurrence {occurrence.id} ({occurrence.binding.transition.str}): not in flight — this instance's occurrence {occurrence.id} already ended")
  else .error (valueError
      s!"cannot {verb} firing occurrence {occurrence.id} ({occurrence.binding.transition.str}): this instance never began it")

/-! ## Terminal activity reports -/

/-- What an accepted report writes: a frozen outcome, or a quarantined one. -/
inductive TerminalEffect where
  | frozen (id : Nat) (outcome : Outcome) (instant : Instant)
  | quarantined (id : Nat) (outcome : Json) (instant : Instant)

def terminalSettle : TerminalEffect → Door TerminalDisposition
  | .frozen id outcome instant => do
    advance instant
    Act.modify fun s => { s with frozenResults := s.frozenResults.set id outcome }
    return .accepted
  | .quarantined id outcome instant => do
    advance instant
    Act.modify fun s => { s with quarantinedActivity := s.quarantinedActivity.set id outcome }
    return .quarantined

def conflictingReport : Exc := valueError "conflicting terminal activity report"

def quarantineTerminal (s : Instance) (occurrence : FiringOccurrence) (outcome : Json)
    (atInstant : Option Instant) : Except Exc (Plan TerminalEffect TerminalDisposition) := do
  require ((s.cancelled.get? occurrence.id).any (·.equals occurrence) ∧
    occurrence.invocation ≠ none) conflictingReport
  match occurrence.scope with
  | none => .error conflictingReport
  | some scope =>
    match s.quarantinedActivity.get? occurrence.id with
    | some prior =>
      require (prior.spelling = outcome.spelling) conflictingReport
      return .answer .acknowledged
    | none =>
      let instant := s.effective atInstant
      let batch ← writerRecords [.activityTerminalQuarantined
        ⟨occurrence.binding.transition, outcome, scope, occurrence.id, instant⟩]
      return .batch batch (.quarantined occurrence.id outcome instant)

def resultConflict (rejection : String) (ended : Bool) : Outcome → Exc
  | .failed failure =>
    if ended then valueError
      s!"{rejection}: the occurrence ended in terminal activity failure ({quoted failure.error}) — a failed occurrence cannot retroactively succeed, and a different late result is an operational conflict [DR 2026-07-14 source-delivery-projection-and-identity]"
    else valueError
      s!"{rejection}: a terminal activity fact already exists with a failure — a failed occurrence cannot retroactively succeed"
  | .completed _ =>
    if ended then valueError
      s!"{rejection}: the occurrence ended with a different result — an operational conflict, not a redelivery"
    else valueError
      s!"{rejection}: a terminal activity fact already exists with a different result — an operational conflict, not a redelivery"

def freezePlan (s : Instance) (occurrence : FiringOccurrence) (outcome : Outcome)
    (atInstant : Option Instant) : Except Exc (Plan TerminalEffect TerminalDisposition) := do
  let instant := s.effective atInstant
  let t := occurrence.binding.transition
  let record : Record :=
    match outcome with
    | .completed result => .activityCompleted ⟨t, result, occurrence.id, instant⟩
    | .failed failure => .activityFailed ⟨t, failure, occurrence.id, instant⟩
  let batch ← writerRecords [record]
  return .batch batch (.frozen occurrence.id outcome instant)

def recordActivityCompletionPlan (occurrence : FiringOccurrence) (result : Payload)
    (atInstant : Option Instant) (s : Instance) :
    Except Exc (Plan TerminalEffect TerminalDisposition) := do
  let rejection :=
    s!"cannot record an activity completion for firing occurrence {occurrence.id} ({occurrence.binding.transition.str})"
  if s.cancelled.contains occurrence.id then
    let result ← canonicalPayload result s!"{rejection}: invalid activity result"
    quarantineTerminal s occurrence (Outcome.completed result).terminal atInstant
  else
    match s.terminalActivity.get? occurrence.id with
    | some terminal =>
      let result ← canonicalPayload result s!"{rejection}: invalid activity result"
      require (terminal.sameSpelling (.completed result)) (resultConflict rejection true terminal)
      return .answer .acknowledged
    | none =>
      ensureInFlight s occurrence "record an activity completion for"
      require (occurrence.invocation ≠ none) (valueError
        s!"{rejection}: a pure firing runs no activity — complete() takes its handler's result directly")
      let result ← canonicalPayload result s!"{rejection}: invalid activity result"
      match s.frozenResults.get? occurrence.id with
      | some frozen =>
        require (frozen.sameSpelling (.completed result)) (resultConflict rejection false frozen)
        return .answer .acknowledged
      | none => freezePlan s occurrence (.completed result) atInstant

def recordActivityCompletion (store : Store) (occurrence : FiringOccurrence) (result : Payload)
    (atInstant : Option Instant) : Door TerminalDisposition :=
  door (commit store (recordActivityCompletionPlan occurrence result atInstant) terminalSettle)

def recordActivityFailurePlan (occurrence : FiringOccurrence) (failure : ActivityFailure)
    (atInstant : Option Instant) (s : Instance) :
    Except Exc (Plan TerminalEffect TerminalDisposition) := do
  if s.cancelled.contains occurrence.id then
    quarantineTerminal s occurrence (Outcome.failed failure).terminal atInstant
  else
    match s.terminalActivity.get? occurrence.id with
    | some terminal =>
      require (terminal.sameSpelling (.failed failure)) conflictingReport
      return .answer .acknowledged
    | none =>
      ensureInFlight s occurrence "record an activity failure for"
      require (occurrence.invocation ≠ none) (valueError
        "cannot record an activity failure for a pure firing — it runs no activity")
      match s.frozenResults.get? occurrence.id with
      | some frozen =>
        require (frozen.sameSpelling (.failed failure)) conflictingReport
        return .answer .acknowledged
      | none => freezePlan s occurrence (.failed failure) atInstant

def recordActivityFailure (store : Store) (occurrence : FiringOccurrence)
    (failure : ActivityFailure) (atInstant : Option Instant) : Door TerminalDisposition :=
  door (commit store (recordActivityFailurePlan occurrence failure atInstant) terminalSettle)

/-! ## Completion -/

structure FiringOutcome where
  transition : NetPath
  occurrence : Nat
  consumed : List Token
  produced : List (NetPath × Token)
  records : List Record

def emitted (tokens : List (Destination × List Token)) : Except Exc (Dict NetPath (List Token)) :=
  tokens.foldlM (fun emitted e => do
    let place ← e.1.resolve
    return emitted.set place ((emitted.get? place).getD [] ++ e.2)) Dict.empty

def deposited (outputs : List Arc) (place : NetPath) (tokens : List Token) : List Token :=
  tokens.filter fun token => outputs.any fun arc => arc.target = place && arc.admits token.color

/-- Route projected tokens through the output arcs; what no arc admits is dropped. -/
def completeFiring (net : Net) (t : NetPath) (tokens : List (Destination × List Token)) :
    Except Exc (List Selection) := do
  let emitted ← emitted tokens
  return (emitted.entries.map fun e => (e.1, deposited (net.outputs t) e.1 e.2)).filter
    fun e => e.2 ≠ []

def numbered : Nat → List Selection → List (Selection × List Nat)
  | _, [] => []
  | next, effect :: effects =>
    (effect, List.range' next effect.2.length) :: numbered (next + effect.2.length) effects

def producedCount (effects : List Selection) : Nat := (effects.map fun e => e.2.length).sum

def requireEffect (D : Definition) (rejection : String) :
    Option DeliveryRegistration → Except Exc DeliveryRegistration
  | none => .error (valueError
      s!"{rejection}: every delivery-registration effect must be an exact DeliveryRegistration")
  | some effect => do
    require (effect.source ∈ D.net.transitionPaths) (valueError
      s!"{rejection}: delivery-registration effect on {effect.source.str}: not a transition of this net")
    require (D.net.isSource effect.source) (valueError
      s!"{rejection}: delivery-registration effect on transition {effect.source.str}: it has input arcs — only a source transition has delivery registrations")
    return effect

def closeEffect (rejection : String) (armed : Armed) (effect : DeliveryRegistration) :
    Except Exc Armed := do
  let keys := (armed.get? effect.source).getD []
  require (effect.key ∈ keys) (valueError
    s!"{rejection}: close of delivery registration {quoted effect.key} on {effect.source.str}: not armed")
  return armed.set effect.source (keys.filter (· ≠ effect.key))

def openEffect (rejection : String) (armed : Armed) (effect : DeliveryRegistration) :
    Except Exc Armed := do
  let keys := (armed.get? effect.source).getD []
  require (effect.key ∉ keys) (valueError
    s!"{rejection}: open of delivery registration {quoted effect.key} on {effect.source.str}: already armed")
  return armed.set effect.source (keys ++ [effect.key])

structure ArmedAfter where
  armed : Armed
  closes : List DeliveryRegistration
  opens : List DeliveryRegistration

/-- The armed keys with an envelope's effects applied, closes before opens. -/
def armedAfter (D : Definition) (s : Instance) (occurrence : FiringOccurrence)
    (envelope : HandlerResult) : Except Exc ArmedAfter := do
  let rejection :=
    s!"cannot complete firing occurrence {occurrence.id} ({occurrence.binding.transition.str})"
  let closes ← envelope.closes.mapM (requireEffect D rejection)
  let opens ← envelope.opens.mapM (requireEffect D rejection)
  let armed ← closes.foldlM (closeEffect rejection) s.armed
  let armed ← opens.foldlM (openEffect rejection) armed
  return ⟨armed, closes, opens⟩

/-- The result a completion commits: the caller's for a pure occurrence, the projection of the
frozen outcome for an impure one. -/
def projection (D : Definition) (s : Instance) (occurrence : FiringOccurrence)
    (result : Option HandlerResult) : Except Exc HandlerResult := do
  let t := occurrence.binding.transition
  let rejection := s!"cannot complete firing occurrence {occurrence.id} ({t.str})"
  let projected ← (match occurrence.invocation with
    | none => do
      require (result ≠ none)
        (valueError s!"{rejection}: a pure firing completes with its handler's result")
      return result
    | some _ => do
      require (result = none) (valueError
        s!"{rejection}: an impure firing projects its frozen activity result — complete() takes no result; record_activity_completion supplies it")
      match s.frozenResults.get? occurrence.id with
      | none => .error (valueError
          s!"{rejection}: no terminal activity fact is recorded — record_activity_completion first")
      | some frozen =>
        match D.boundHandler t with
        | .plain _ => .error (typeError
            s!"{rejection}: its impure occurrence is not bound to an ActivityHandler — recorded and live state disagree")
        | .activity handler =>
          match frozen with
          | .completed value => handler.project occurrence.binding value
          | .failed failure =>
            match handler.projectFailure with
            | none => .error (valueError
                s!"{rejection}: frozen failure has no opt-in failure projection")
            | some project => project occurrence.binding failure : Projected)
  match projected with
  | some envelope => return envelope
  | none => .error ⟨"AttributeError", false, "'NoneType' object has no attribute 'items'",
      [quoted "'NoneType' object has no attribute 'items'"]⟩

def completionRecords (occurrence : FiringOccurrence) (effects : List (Selection × List Nat))
    (closes opens : List DeliveryRegistration) (instant : Instant) : List Record :=
  (effects.map fun e => .tokensProduced {
      place := e.1.1, tokens := e.1.2, occurrence := occurrence.id
      entries := if occurrence.scope = none then [] else e.2
      scope := occurrence.scope, instant }) ++
    (closes.map fun r =>
      .deliveryRegistrationClosed ⟨r.source, r.key, some occurrence.id, instant⟩) ++
    (opens.map fun r =>
      .deliveryRegistrationOpened ⟨r.source, r.key, some occurrence.id, instant⟩) ++
    [.firingCompleted ⟨occurrence.binding.transition, occurrence.id, instant⟩]

structure CompletionPlan where
  occurrence : FiringOccurrence
  effects : List (Selection × List Nat)
  appended : List Record
  armed : Armed
  nextEntry : Nat
  instant : Instant

def completionPlan (D : Definition) (occurrence : FiringOccurrence)
    (result : Option HandlerResult) (atInstant : Option Instant) (s : Instance) :
    Except Exc (Plan CompletionPlan FiringOutcome) := do
  ensureInFlight s occurrence "complete"
  let envelope ← projection D s occurrence result
  let after ← armedAfter D s occurrence envelope
  let instant := s.effective atInstant
  let effects ← completeFiring D.net occurrence.binding.transition envelope.tokens
  let numbered := numbered s.nextEntry effects
  let appended ← writerRecords
    (completionRecords occurrence numbered after.closes after.opens instant)
  return .batch appended {
    occurrence, effects := numbered, appended, armed := after.armed
    nextEntry := s.nextEntry + producedCount effects, instant }

def Record.isTokensProduced : Record → Bool
  | .tokensProduced _ => true
  | _ => false

/-- The production records of a completion batch, each with the identities it mints. -/
def productions (p : CompletionPlan) : List (Record × List Nat) :=
  (p.appended.filter Record.isTokensProduced).zip (p.effects.map Prod.snd)

def completionOutcome (p : CompletionPlan) : FiringOutcome where
  transition := p.occurrence.binding.transition
  occurrence := p.occurrence.id
  consumed := p.occurrence.binding.consumed.flatMap Prod.snd
  produced := p.effects.flatMap fun e => e.1.2.map fun token => (e.1.1, token)
  records := p.occurrence.records ++ p.appended

def completionSettle (p : CompletionPlan) : Door FiringOutcome := do
  advance p.instant
  Act.modify fun s => { s with nextEntry := p.nextEntry }
  applyMovements (productions p)
  Act.modify fun s => { s with armed := p.armed }
  if p.occurrence.invocation ≠ none then settleOutcome p.occurrence.id
  let _ ← popInFlight p.occurrence.id
  return completionOutcome p

def commitCompletion (D : Definition) (store : Store) (occurrence : FiringOccurrence)
    (result : Option HandlerResult) (atInstant : Option Instant) :
    Act Instance Failure FiringOutcome :=
  commit store (completionPlan D occurrence result atInstant) completionSettle

def complete (D : Definition) (store : Store) (occurrence : FiringOccurrence)
    (result : Option HandlerResult) (atInstant : Option Instant) : Door FiringOutcome :=
  door (commitCompletion D store occurrence result atInstant)

/-! ## Terminal failure and the inline driver -/

inductive FailureReport where
  | text (error : String)
  | classified (failure : ActivityFailure)

def FailureReport.value : FailureReport → Except Exc ActivityFailure
  | text error => ActivityFailure.ofError error
  | classified failure => .ok failure

structure FailPlan where
  occurrence : FiringOccurrence
  instant : Instant

def failPlan (occurrence : FiringOccurrence) (failure : ActivityFailure)
    (atInstant : Option Instant) (s : Instance) : Except Exc (Plan FailPlan Unit) := do
  let instant := s.effective atInstant
  let batch ← writerRecords
    [.firingFailed ⟨occurrence.binding.transition, failure.error, occurrence.id, instant⟩]
  return .batch batch ⟨occurrence, instant⟩

def failSettle (p : FailPlan) : Door Unit := do
  advance p.instant
  if p.occurrence.invocation ≠ none then settleOutcome p.occurrence.id
  let _ ← popInFlight p.occurrence.id
  return ()

def projectsFailure (D : Definition) (t : NetPath) : Bool :=
  match D.boundHandler t with
  | .plain _ => false
  | .activity handler => handler.projectFailure.isSome

/-- What `fail` refuses before it appends anything. -/
def validateFailure (s : Instance) (occurrence : FiringOccurrence) (report : FailureReport) :
    Except Exc ActivityFailure := do
  ensureInFlight s occurrence "fail"
  let failure ← report.value
  match s.frozenResults.get? occurrence.id with
  | none => pure ()
  | some frozen => require (frozen.sameSpelling (.failed failure)) (valueError
      s!"cannot fail firing occurrence {occurrence.id} ({occurrence.binding.transition.str}): its activity already completed — the frozen result stands; fix the projection and retry complete() [DR 2026-07-14 activity-invocation-runtime-seam, Deferred]")
  return failure

def fail (D : Definition) (store : Store) (occurrence : FiringOccurrence) (report : FailureReport)
    (atInstant : Option Instant) : Door Unit := do
  let s ← Act.get
  let failure ← Act.lift (validateFailure s occurrence report)
  if occurrence.invocation ≠ none ∧ s.frozenResults.contains occurrence.id = false then
    let _ ← recordActivityFailure store occurrence failure atInstant
  if occurrence.invocation ≠ none ∧ projectsFailure D occurrence.binding.transition then
    let _ ← complete D store occurrence none atInstant
  else
    door (commit store (failPlan occurrence failure atInstant) failSettle)

def firingFailureText (e : Exc) : String :=
  if e.name = "" then "Exception"
  else String.ofList ((e.name ++ "(" ++ ", ".intercalate e.args ++ ")").toList.take 4096)

/-- Run the bound pure handler and commit its outcome; a raising handler or a rejected result
records the failure and propagates. -/
def execute (D : Definition) (store : Store) (occurrence : FiringOccurrence)
    (atInstant : Option Instant) : Door FiringOutcome :=
  let t := occurrence.binding.transition
  match D.boundHandler t with
  | .activity _ => Act.throw (typeError s!"pure firing {t.str} is bound to an ActivityHandler")
  | .plain run =>
    Act.catching (do
      let result ← Act.mapError Failure.raised
        (Act.lift (run occurrence.binding (D.net.outputs t)))
      commitCompletion D store occurrence result atInstant) fun
    | .refused e => Act.throw e
    | .raised e => do
      let s ← Act.get
      if s.inFlight.contains occurrence.id then
        fail D store occurrence (.text (firingFailureText e)) atInstant
      Act.throw e

def step (D : Definition) (store : Store) (atInstant : Option Instant) :
    Door (Option FiringOutcome) := do
  let s ← Act.get
  let enabled ← Act.lift
    (Impetus.candidates D s.marking (s.effective atInstant) s.queues.entryInstants)
  match ← Act.lift (D.scheduler enabled) with
  | none => return none
  | some binding =>
    if D.activityBound binding.transition then
      Act.throw (valueError
        s!"cannot step firing {binding.transition.str}: it binds an ActivityHandler, and this inline driver holds no Dispatch — drive it through Engine")
    else do
      let occurrence ← begin_ D store binding atInstant
      let outcome ← execute D store occurrence none
      return some outcome

end Petrus.Impetus
