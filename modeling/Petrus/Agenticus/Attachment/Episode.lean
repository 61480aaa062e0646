import Petrus.Lib.Act
import Petrus.Lib.Fold
import Petrus.Lib.Quote
import Petrus.Motus.Execution

/-!
# The Episode attachment

An attachment is open until a settlement or a release closes it. Settlement drains the
gateways, discards their stages, exports the workspace and destroys the territory; evidence
that is not verified leaves custody uncertain. What the gateways, the binding and the host's
custody answer comes from outside.
-/

namespace Petrus.Agenticus.Attachment

open Lib Motus

def episodeAttachmentError (text : String) : Exc :=
  ⟨"EpisodeAttachmentError", false, text, [quoted text]⟩

def uncertainCustodyError (text : String) : Exc :=
  ⟨"UncertainCustodyError", false, text, [quoted text]⟩

/-- A bounded lowercase token, `[a-z][a-z0-9-]{0,63}`. -/
def isKind (s : String) : Bool :=
  match s.toList with
  | [] => false
  | c :: cs => c.isLower && cs.length ≤ 63 && cs.all fun d => d.isLower || d.isDigit || d = '-'

structure BindingSettlement where
  bindingKind : String
  disposition : String
  verified : Bool
  detail : String
  kinds : isKind bindingKind = true ∧ isKind disposition = true
  bounded : detail.utf8ByteSize ≤ 256 ∧ printable detail = true

structure AttachmentSettlement where
  attachmentId : String
  epoch : Nat
  stagesDiscarded : Nat
  archive : Bytes
  archiveDigest : String
  settlement : BindingSettlement

structure AttachmentRelease where
  attachmentId : String
  epoch : Nat
  stagesDiscarded : Nat
  archive : Bytes
  archiveDigest : String
  territory : LeaseIdentity

structure EpisodeAttachment where
  attachmentId : String
  epoch : Nat
  bindingKind : String
  /-- The lease of a Motus binding; another binding has none. -/
  territory : Option LeaseIdentity
  gateways : Nat
  isOpen : Bool
  aborted : Bool
  cancelled : Bool
  settlement : Option AttachmentSettlement
  release : Option AttachmentRelease
  uncertain : Bool
  settling : Bool
  identified : boundedText 256 attachmentId = true ∧ 0 < epoch
  kind : isKind bindingKind = true

namespace EpisodeAttachment

def settled (a : EpisodeAttachment) : Bool :=
  a.settlement.any fun record => record.settlement.verified

end EpisodeAttachment

abbrev Attaching := Act EpisodeAttachment Exc

/-- What the gateways and the binding answer during one settlement. A returned `none` is a
value of another type. -/
structure Answers where
  drain : Nat → Except Exc Bool
  cleanupStages : Nat → Except Exc Nat
  exportArchive : Except Exc (Option Bytes)
  settle : Except Exc (Option BindingSettlement)

/-- What the gateways, the binding and the host's custody answer during one release. -/
structure ReleaseAnswers where
  quiesce : Except Exc Bool
  drain : Nat → Except Exc Bool
  cleanupStages : Nat → Except Exc Nat
  exportArchive : Except Exc (Option Bytes)
  accept : Except Exc LeaseIdentity

variable (sha256 : Bytes → String)

def drained (drain : Nat → Except Exc Bool) (undrained : Exc) (gateways : Nat) :
    Except Exc Unit :=
  (List.range gateways).forM fun gateway => do
    let done ← drain gateway
    require (done = true) undrained

def stages (cleanupStages : Nat → Except Exc Nat) (gateways : Nat) : Except Exc Nat :=
  (List.range gateways).foldlM (fun total gateway => do
    return total + (← cleanupStages gateway)) 0

def exported (answer : Except Exc (Option Bytes)) : Except Exc Bytes := do
  match ← answer with
  | none => .error (typeError "attachment binding archive must be bytes")
  | some archive =>
    require (archive.length ≤ maxWorkspaceArchiveBytes) (episodeAttachmentError
      "attachment archive exceeds the public Motus workspace archive bound")
    return archive

lemma noDetail_bounded : ("" : String).utf8ByteSize ≤ 256 ∧ printable "" = true := by decide

lemma settlementFailed_bounded :
    ("binding settlement failed" : String).utf8ByteSize ≤ 256 ∧
      printable "binding settlement failed" = true := by decide

lemma isKind_unverified : isKind "unverified" = true := by decide

/-- The settlement evidence without its detail, unless the binding raised or answered something
else. -/
def consumed : Except Exc (Option BindingSettlement) → Option BindingSettlement
  | .ok (some settlement) => some { settlement with detail := "", bounded := noDetail_bounded }
  | _ => none

def unverified (a : EpisodeAttachment) : BindingSettlement where
  bindingKind := a.bindingKind
  disposition := "unverified"
  verified := false
  detail := "binding settlement failed"
  kinds := ⟨a.kind, isKind_unverified⟩
  bounded := settlementFailed_bounded

def recordSettlement (a : EpisodeAttachment) (stagesDiscarded : Nat) (archive : Bytes)
    (settlement : BindingSettlement) : AttachmentSettlement :=
  ⟨a.attachmentId, a.epoch, stagesDiscarded, archive, sha256 archive, settlement⟩

def cancel (answer : Except Exc Unit) : Attaching Unit := do
  let a ← Act.get
  if a.settling = true then
    Act.throw (episodeAttachmentError "attachment settlement is already in progress")
  else if a.settlement.isSome = true ∨ a.isOpen = false then
    Act.throw (episodeAttachmentError "attachment is already settled")
  else if a.cancelled = true then
    return ()
  else
    Act.modify fun a => { a with aborted := true }
    match answer with
    | .error _ => Act.throw (episodeAttachmentError "attachment cancellation failed")
    | .ok _ => Act.modify fun a => { a with cancelled := true }

def consumeSettlement (answer : Except Exc (Option BindingSettlement)) (stagesDiscarded : Nat)
    (archive : Bytes) : Attaching AttachmentSettlement := do
  let a ← Act.get
  match consumed answer with
  | none =>
    Act.modify fun b => { b with
      settlement := some (recordSettlement sha256 a stagesDiscarded archive (unverified a))
      uncertain := true }
    Act.throw (episodeAttachmentError "attachment binding settlement failed")
  | some settlement =>
    let record := recordSettlement sha256 a stagesDiscarded archive settlement
    Act.modify fun b => { b with settlement := some record, uncertain := !settlement.verified }
    return record

/-- The `finally` clause of a settlement. -/
def ending {α : Type} (m : Attaching α) : Attaching α := fun a =>
  ((m a).1, { (m a).2 with settling := false })

def settle (answers : Answers) : Attaching AttachmentSettlement := do
  let a ← Act.get
  if a.uncertain = true then
    Act.throw (uncertainCustodyError "retry settlement instead of settling again")
  else if a.settlement.isSome = true ∨ a.release.isSome = true then
    Act.throw (episodeAttachmentError "attachment epoch is already settled")
  else if a.settling = true then
    Act.throw (episodeAttachmentError "attachment settlement is already in progress")
  else
    Act.modify fun a => { a with settling := true, isOpen := false }
    ending do
      Act.lift (drained answers.drain
        (episodeAttachmentError "current calls did not drain before settlement") a.gateways)
      let stagesDiscarded ← Act.lift (stages answers.cleanupStages a.gateways)
      let archive ← Act.lift (exported answers.exportArchive)
      consumeSettlement sha256 answers.settle stagesDiscarded archive

/-- What `releaseTo` does once it has closed the attachment. -/
def releaseRecord (a : EpisodeAttachment) (lease : LeaseIdentity) (answers : ReleaseAnswers) :
    Except Exc AttachmentRelease := do
  let quiesced ← answers.quiesce
  require (quiesced = true)
    (episodeAttachmentError "runtime operations did not drain before release")
  drained answers.drain (episodeAttachmentError "current calls did not drain before release")
    a.gateways
  let stagesDiscarded ← stages answers.cleanupStages a.gateways
  let archive ← exported answers.exportArchive
  let territory ← answers.accept
  require (territory = lease)
    (episodeAttachmentError "host custody accepted a different territory identity")
  return ⟨a.attachmentId, a.epoch, stagesDiscarded, archive, sha256 archive, territory⟩

def releaseTo (answers : ReleaseAnswers) : Attaching AttachmentRelease := do
  let a ← Act.get
  if a.uncertain = true then
    Act.throw (uncertainCustodyError "uncertain custody blocks attachment release")
  else if a.settlement.isSome = true ∨ a.release.isSome = true ∨ a.isOpen = false then
    Act.throw (episodeAttachmentError "attachment is already settled or released")
  else if a.settling = true then
    Act.throw (episodeAttachmentError "attachment settlement is already in progress")
  else
    match a.territory with
    | none =>
      Act.throw
        (episodeAttachmentError "retained custody currently requires an exact Motus binding")
    | some lease =>
      Act.modify fun a => { a with settling := true, isOpen := false }
      ending do
        match releaseRecord sha256 a lease answers with
        | .ok record =>
          Act.modify fun a => { a with release := some record }
          return record
        | .error _ =>
          -- no settlement is recorded here, so `retrySettlement` will have nothing to retry
          Act.modify fun a => { a with uncertain := true }
          Act.throw (episodeAttachmentError "attachment release to host custody failed")

def retrySettlement (answer : Except Exc (Option BindingSettlement)) :
    Attaching AttachmentSettlement := do
  let a ← Act.get
  match a.settlement with
  | none => Act.throw (episodeAttachmentError "retry requires a prior unverified settlement")
  | some record =>
    if a.uncertain = false then
      Act.throw (episodeAttachmentError "retry requires a prior unverified settlement")
    else if a.settling = true then
      Act.throw (episodeAttachmentError "attachment settlement is already in progress")
    else
      Act.modify fun a => { a with settling := true }
      ending (consumeSettlement sha256 answer record.stagesDiscarded record.archive)

def agentNetRunnerError (text : String) : Exc :=
  ⟨"AgentNetRunnerError", false, text, [quoted text]⟩

/-- How the runner settles its attachment; `cancelling` is what the binding answers to the
cancellation it may ask for first. -/
def settleAttachment (cancelling : Option (Except Exc Unit)) (answers : Answers) :
    Attaching Unit := do
  let a ← Act.get
  if a.settled = true then
    return ()
  else if a.uncertain = true then
    Act.throw (agentNetRunnerError "Episode Attachment cleanup custody is uncertain")
  else
    match cancelling with
    | none => pure ()
    | some answer => cancel answer
    let record ← settle sha256 answers
    Act.lift (require (record.settlement.verified = true) (agentNetRunnerError
      "Episode Attachment settlement was not independently verified"))

/-! ## Sequences of calls -/

/-- The host's calls that close an attachment, with what they are answered. -/
inductive Call where
  | cancel (answer : Except Exc Unit)
  | settle (answers : Answers)
  | releaseTo (answers : ReleaseAnswers)
  | retrySettlement (answer : Except Exc (Option BindingSettlement))
  | settleAttachment (cancelling : Option (Except Exc Unit)) (answers : Answers)

def Call.after (a : EpisodeAttachment) : Call → EpisodeAttachment
  | cancel answer => (Attachment.cancel answer a).2
  | settle answers => (Attachment.settle sha256 answers a).2
  | releaseTo answers => (Attachment.releaseTo sha256 answers a).2
  | retrySettlement answer => (Attachment.retrySettlement sha256 answer a).2
  | settleAttachment cancelling answers =>
    (Attachment.settleAttachment sha256 cancelling answers a).2

def afterAll (a : EpisodeAttachment) (calls : List Call) : EpisodeAttachment :=
  calls.foldl (Call.after sha256) a

/-- The territory is still the attachment's: it is neither destroyed nor handed over. -/
def EpisodeAttachment.Unsettled (a : EpisodeAttachment) : Prop :=
  a.settled = false ∧ a.release = none

def Failing (a : EpisodeAttachment) : List Call → Prop
  | [] => True
  | call :: calls => (call.after sha256 a).Unsettled ∧ Failing (call.after sha256 a) calls

/-- The checks at the entry of `releaseTo`. -/
def EpisodeAttachment.admitsRelease (a : EpisodeAttachment) : Bool :=
  !a.uncertain && a.settlement.isNone && a.release.isNone && a.isOpen && !a.settling &&
    a.territory.isSome

def Call.isRelease : Call → Bool
  | releaseTo _ => true
  | _ => false

def StartsRelease (a : EpisodeAttachment) : List Call → Prop
  | [] => False
  | call :: calls =>
    (call.isRelease = true ∧ a.admitsRelease = true) ∨ StartsRelease (call.after sha256 a) calls

end Petrus.Agenticus.Attachment
