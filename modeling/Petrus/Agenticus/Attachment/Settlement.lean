import Petrus.Agenticus.Attachment.Episode

/-!
# Retrying a settlement

Between two calls an attachment that is neither settled nor released is uncertain exactly
when it holds an unverified settlement, so either `settle` or `retrySettlement` is open to the
host. A release that fails after its entry checks breaks this: it leaves custody uncertain with
no settlement, and every entry point refuses from then on.
-/

namespace Petrus.Agenticus.Attachment

open Lib Motus Act

variable {sha256 : Bytes → String} {a b : EpisodeAttachment} {answers : Answers}

/-- Custody is uncertain exactly when there is a settlement to retry. -/
structure EpisodeAttachment.Retriable (a : EpisodeAttachment) : Prop where
  settling : a.settling = false
  release : a.release = none
  uncertain : a.uncertain = a.settlement.isSome

/-- Custody is uncertain and there is nothing to retry. -/
structure EpisodeAttachment.Stuck (a : EpisodeAttachment) : Prop where
  settling : a.settling = false
  closed : a.isOpen = false
  uncertain : a.uncertain = true
  settlement : a.settlement = none

/-- A new attachment, cancelled or not, with any gateways. -/
structure EpisodeAttachment.Fresh (a : EpisodeAttachment) : Prop where
  isOpen : a.isOpen = true
  settlement : a.settlement = none
  release : a.release = none
  uncertain : a.uncertain = false
  settling : a.settling = false

lemma EpisodeAttachment.Fresh.retriable (h : a.Fresh) : a.Retriable where
  settling := h.settling
  release := h.release
  uncertain := by rw [h.uncertain, h.settlement]; rfl

/-! ## What one call leaves behind -/

lemma consumeSettlement_after (sha256 : Bytes → String) (a : EpisodeAttachment)
    (answer : Except Exc (Option BindingSettlement)) (n : Nat) (archive : Bytes) :
    ∃ record, (consumeSettlement sha256 answer n archive a).2 =
      { a with settlement := some record, uncertain := !record.settlement.verified } := by
  unfold consumeSettlement
  rw [get_bind_apply]
  cases consumed answer with
  | none => exact ⟨recordSettlement sha256 a n archive (unverified a), rfl⟩
  | some settlement => exact ⟨recordSettlement sha256 a n archive settlement, rfl⟩

lemma retriable_of_record (hsettling : b.settling = false) (hrelease : b.release = none)
    {record : AttachmentSettlement} (hsettlement : b.settlement = some record)
    (huncertain : b.uncertain = !record.settlement.verified) (hb : b.settled = false) :
    b.Retriable := by
  unfold EpisodeAttachment.settled at hb
  rw [hsettlement, Option.any_some] at hb
  refine ⟨hsettling, hrelease, ?_⟩
  rw [huncertain, hsettlement, hb]
  rfl

lemma settle_after (answers : Answers) (huncertain : a.uncertain = false)
    (hsettlement : a.settlement = none)
    (hrelease : a.release = none) (hsettling : a.settling = false) :
    (settle sha256 answers a).2 = { a with isOpen := false, settling := false } ∨
      ∃ record, (settle sha256 answers a).2 = { a with
        isOpen := false
        settling := false
        settlement := some record
        uncertain := !record.settlement.verified } := by
  unfold settle
  rw [get_bind_apply, if_neg (by simp [huncertain]),
    if_neg (by simp [hsettlement, hrelease]), if_neg (by simp [hsettling]), modify_bind_apply]
  unfold ending
  cases drained answers.drain _ a.gateways with
  | error e => exact .inl rfl
  | ok u =>
    rw [lift_ok_bind_apply]
    cases stages answers.cleanupStages a.gateways with
    | error e => exact .inl rfl
    | ok n =>
      rw [lift_ok_bind_apply]
      cases exported answers.exportArchive with
      | error e => exact .inl rfl
      | ok archive =>
        rw [lift_ok_bind_apply]
        obtain ⟨record, hrecord⟩ := consumeSettlement_after sha256
          { a with settling := true, isOpen := false } answers.settle n archive
        exact .inr ⟨record, by rw [hrecord]⟩

lemma settle_retriable (h : a.Retriable) (hb : (settle sha256 answers a).2.settled = false) :
    (settle sha256 answers a).2.Retriable := by
  by_cases huncertain : a.uncertain = true
  · have hrefused : (settle sha256 answers a).2 = a := by
      unfold settle
      rw [get_bind_apply, if_pos huncertain, throw_apply]
    rw [hrefused]
    exact h
  · have hfalse : a.uncertain = false := Bool.eq_false_iff.mpr huncertain
    have hsettlement : a.settlement = none :=
      Option.isNone_iff_eq_none.mp (by rw [← Option.not_isSome, ← h.uncertain, hfalse]; rfl)
    rcases settle_after answers hfalse hsettlement h.release h.settling with
      hafter | ⟨record, hafter⟩
    · rw [hafter]
      exact ⟨rfl, h.release, h.uncertain⟩
    · rw [hafter] at hb ⊢
      exact retriable_of_record rfl h.release rfl rfl hb

lemma retrySettlement_retriable {answer : Except Exc (Option BindingSettlement)}
    (h : a.Retriable) (hb : (retrySettlement sha256 answer a).2.settled = false) :
    (retrySettlement sha256 answer a).2.Retriable := by
  unfold retrySettlement at hb ⊢
  rw [get_bind_apply] at hb ⊢
  cases hsettlement : a.settlement with
  | none => exact h
  | some record =>
    rw [hsettlement] at hb
    have huncertain : a.uncertain = true := by rw [h.uncertain, hsettlement]; rfl
    dsimp only at hb ⊢
    rw [if_neg (by simp [huncertain]), if_neg (by simp [h.settling]), modify_bind_apply] at hb ⊢
    unfold ending at hb ⊢
    obtain ⟨updated, hupdated⟩ := consumeSettlement_after sha256 { a with settling := true }
      answer record.stagesDiscarded record.archive
    rw [hupdated] at hb ⊢
    exact retriable_of_record rfl h.release rfl rfl hb

lemma cancel_after (answer : Except Exc Unit) (a : EpisodeAttachment) :
    ∃ aborted cancelled, (cancel answer a).2 =
      { a with aborted := aborted, cancelled := cancelled } := by
  unfold cancel
  rw [get_bind_apply]
  by_cases hsettling : a.settling = true
  · rw [if_pos hsettling]
    exact ⟨a.aborted, a.cancelled, rfl⟩
  rw [if_neg hsettling]
  by_cases hclosed : a.settlement.isSome = true ∨ a.isOpen = false
  · rw [if_pos hclosed]
    exact ⟨a.aborted, a.cancelled, rfl⟩
  rw [if_neg hclosed]
  by_cases hcancelled : a.cancelled = true
  · rw [if_pos hcancelled]
    exact ⟨a.aborted, a.cancelled, rfl⟩
  rw [if_neg hcancelled, modify_bind_apply]
  cases answer with
  | error e => exact ⟨true, a.cancelled, rfl⟩
  | ok u => exact ⟨true, true, rfl⟩

lemma cancel_retriable (answer : Except Exc Unit) (h : a.Retriable) :
    (cancel answer a).2.Retriable := by
  obtain ⟨aborted, cancelled, hafter⟩ := cancel_after answer a
  rw [hafter]
  exact ⟨h.settling, h.release, h.uncertain⟩

lemma settle_lift_after {α : Type} (f : AttachmentSettlement → Except Exc α) :
    ((settle sha256 answers >>= fun record => Act.lift (f record)) a).2 =
      (settle sha256 answers a).2 := by
  rw [bind_apply]
  rcases settle sha256 answers a with ⟨r, b⟩
  cases r <;> rfl

lemma settleAttachment_retriable {cancelling : Option (Except Exc Unit)} (h : a.Retriable)
    (hb : (settleAttachment sha256 cancelling answers a).2.settled = false) :
    (settleAttachment sha256 cancelling answers a).2.Retriable := by
  unfold settleAttachment at hb ⊢
  rw [get_bind_apply] at hb ⊢
  by_cases hsettled : a.settled = true
  · rw [if_pos hsettled]
    exact h
  rw [if_neg hsettled] at hb ⊢
  by_cases huncertain : a.uncertain = true
  · rw [if_pos huncertain]
    exact h
  rw [if_neg huncertain] at hb ⊢
  cases cancelling with
  | none =>
    change ((settle sha256 answers >>= _) a).2.settled = false at hb
    change ((settle sha256 answers >>= _) a).2.Retriable
    rw [settle_lift_after] at hb ⊢
    exact settle_retriable h hb
  | some answer =>
    have hcancel := cancel_retriable answer h
    dsimp only at hb ⊢
    rw [bind_apply] at hb ⊢
    generalize cancel answer a = cancelled at hb hcancel ⊢
    rcases cancelled with ⟨r, b⟩
    cases r with
    | error e => exact hcancel
    | ok u =>
      dsimp only at hb ⊢
      rw [settle_lift_after] at hb ⊢
      exact settle_retriable hcancel hb

/-! ## A release that fails -/

variable {release : ReleaseAnswers}

lemma EpisodeAttachment.admitsRelease_iff : a.admitsRelease = true ↔
    a.uncertain = false ∧ a.settlement = none ∧ a.release = none ∧ a.isOpen = true ∧
      a.settling = false ∧ ∃ lease, a.territory = some lease := by
  simp [EpisodeAttachment.admitsRelease, Option.isSome_iff_exists, and_assoc]

lemma releaseTo_refused (h : a.admitsRelease = false) : (releaseTo sha256 release a).2 = a := by
  unfold releaseTo
  rw [get_bind_apply]
  by_cases huncertain : a.uncertain = true
  · rw [if_pos huncertain, throw_apply]
  rw [if_neg huncertain]
  by_cases hclosed : a.settlement.isSome = true ∨ a.release.isSome = true ∨ a.isOpen = false
  · rw [if_pos hclosed, throw_apply]
  rw [if_neg hclosed]
  by_cases hsettling : a.settling = true
  · rw [if_pos hsettling, throw_apply]
  rw [if_neg hsettling]
  cases hterritory : a.territory with
  | none => rfl
  | some lease =>
    have hadmits : a.admitsRelease = true := by
      simp only [not_or, Bool.not_eq_true, Option.isSome_eq_false_iff, Option.isNone_iff_eq_none,
        Bool.not_eq_false] at huncertain hclosed hsettling
      exact EpisodeAttachment.admitsRelease_iff.mpr
        ⟨huncertain, hclosed.1, hclosed.2.1, hclosed.2.2, hsettling, lease, hterritory⟩
    rw [hadmits] at h
    cases h

lemma releaseTo_stuck (h : a.admitsRelease = true)
    (hb : (releaseTo sha256 release a).2.release = none) :
    (releaseTo sha256 release a).2.Stuck := by
  obtain ⟨huncertain, hsettlement, hrelease, hopen, hsettling, lease, hterritory⟩ :=
    EpisodeAttachment.admitsRelease_iff.mp h
  unfold releaseTo at hb ⊢
  rw [get_bind_apply, if_neg (by simp [huncertain]),
    if_neg (by simp [hsettlement, hrelease, hopen]), if_neg (by simp [hsettling]),
    hterritory] at hb ⊢
  dsimp only at hb ⊢
  rw [modify_bind_apply] at hb ⊢
  unfold ending at hb ⊢
  cases hrecord : releaseRecord sha256 a lease release with
  | ok record =>
    rw [hrecord] at hb
    cases hb
  | error e => exact ⟨rfl, rfl, rfl, hsettlement⟩

lemma EpisodeAttachment.Stuck.after (h : a.Stuck) (call : Call) : call.after sha256 a = a := by
  have hsettled : a.settled = false := by
    unfold EpisodeAttachment.settled
    rw [h.settlement]
    rfl
  have huncertain := h.uncertain
  have hopen := h.closed
  have hsettlement := h.settlement
  cases call with
  | cancel answer =>
    change (Attachment.cancel answer a).2 = a
    unfold Attachment.cancel
    rw [get_bind_apply, if_neg (by simp [h.settling]), if_pos (.inr hopen), throw_apply]
  | settle answers =>
    change (Attachment.settle sha256 answers a).2 = a
    unfold Attachment.settle
    rw [get_bind_apply, if_pos huncertain, throw_apply]
  | releaseTo release =>
    refine releaseTo_refused (Bool.eq_false_iff.mpr fun hadmits => ?_)
    rw [(EpisodeAttachment.admitsRelease_iff.mp hadmits).1] at huncertain
    cases huncertain
  | retrySettlement answer =>
    change (Attachment.retrySettlement sha256 answer a).2 = a
    unfold Attachment.retrySettlement
    rw [get_bind_apply, hsettlement]
    rfl
  | settleAttachment cancelling answers =>
    change (Attachment.settleAttachment sha256 cancelling answers a).2 = a
    unfold Attachment.settleAttachment
    rw [get_bind_apply, if_neg (by simp [hsettled]), if_pos huncertain, throw_apply]

lemma EpisodeAttachment.Stuck.afterAll (h : a.Stuck) (calls : List Call) :
    afterAll sha256 a calls = a := by
  induction calls with
  | nil => rfl
  | cons call calls ih =>
    change Attachment.afterAll sha256 (call.after sha256 a) calls = a
    rw [h.after]
    exact ih

/-! ## Sequences of failed attempts -/

lemma EpisodeAttachment.Retriable.after (h : a.Retriable) {call : Call}
    (hrelease : ¬(call.isRelease = true ∧ a.admitsRelease = true))
    (hb : (call.after sha256 a).Unsettled) : (call.after sha256 a).Retriable := by
  cases call with
  | cancel answer => exact cancel_retriable answer h
  | settle answers => exact settle_retriable h hb.1
  | retrySettlement answer => exact retrySettlement_retriable h hb.1
  | settleAttachment cancelling answers => exact settleAttachment_retriable h hb.1
  | releaseTo release =>
    have hadmits : a.admitsRelease = false :=
      Bool.eq_false_iff.mpr fun hadmits => hrelease ⟨rfl, hadmits⟩
    change (Attachment.releaseTo sha256 release a).2.Retriable
    rw [releaseTo_refused hadmits]
    exact h

lemma stuck_of_startsRelease {calls : List Call} (hfailing : Failing sha256 a calls)
    (hstarts : StartsRelease sha256 a calls) : (afterAll sha256 a calls).Stuck := by
  induction calls generalizing a with
  | nil => cases hstarts
  | cons call calls ih =>
    rcases hstarts with ⟨hcall, hadmits⟩ | hrest
    · cases call with
      | releaseTo release =>
        have hstuck := releaseTo_stuck hadmits hfailing.1.2
        change (afterAll sha256 (Attachment.releaseTo sha256 release a).2 calls).Stuck
        rw [hstuck.afterAll]
        exact hstuck
      | cancel | settle | retrySettlement | settleAttachment => cases hcall
    · exact ih hfailing.2 hrest

lemma retriable_of_noRelease {calls : List Call} (h : a.Retriable)
    (hfailing : Failing sha256 a calls) (hstarts : ¬StartsRelease sha256 a calls) :
    (afterAll sha256 a calls).Retriable := by
  induction calls generalizing a with
  | nil => exact h
  | cons call calls ih =>
    obtain ⟨hcall, hrest⟩ := not_or.mp hstarts
    exact ih (h.after hcall hfailing.1) hfailing.2 hrest

/-! ## Once the binding answers normally -/

/-- What the gateways and the binding answer once they work again. -/
structure Normal where
  stages : Nat → Nat
  archive : Bytes
  settlement : BindingSettlement
  bounded : archive.length ≤ maxWorkspaceArchiveBytes
  verified : settlement.verified = true

def Normal.replies (normal : Normal) : Answers where
  drain := fun _ => .ok true
  cleanupStages := fun gateway => .ok (normal.stages gateway)
  exportArchive := .ok (some normal.archive)
  settle := .ok (some normal.settlement)

/-- The host's own settlement calls. -/
inductive Entry where
  | cancel
  | settle
  | retrySettlement
  | settleAttachment (cancelling : Bool)

def Entry.call (normal : Normal) : Entry → Call
  | cancel => .cancel (.ok ())
  | settle => .settle normal.replies
  | retrySettlement => .retrySettlement normal.replies.settle
  | settleAttachment cancelling =>
    .settleAttachment (if cancelling then some (.ok ()) else none) normal.replies

lemma Normal.drained (normal : Normal) (undrained : Exc) (gateways : Nat) :
    drained normal.replies.drain undrained gateways = .ok () := by
  unfold Attachment.drained
  induction List.range gateways with
  | nil => rfl
  | cons gateway rest ih => exact ih

lemma Normal.stages_exists (normal : Normal) (gateways : Nat) :
    ∃ n, Attachment.stages normal.replies.cleanupStages gateways = .ok n := by
  unfold Attachment.stages
  generalize 0 = total
  induction List.range gateways generalizing total with
  | nil => exact ⟨total, rfl⟩
  | cons gateway rest ih => exact ih (total + normal.stages gateway)

lemma Normal.exported (normal : Normal) :
    exported normal.replies.exportArchive = .ok normal.archive :=
  require_bind_eq_ok.mpr ⟨normal.bounded, rfl⟩

lemma Normal.consumeSettlement_settled (normal : Normal) (n : Nat) (archive : Bytes) :
    (consumeSettlement sha256 normal.replies.settle n archive a).2.settled = true := normal.verified

lemma Normal.settle_settled (normal : Normal) (h : a.Retriable) (huncertain : a.uncertain = false)
    (hsettlement : a.settlement = none) : (settle sha256 normal.replies a).2.settled = true := by
  unfold settle
  obtain ⟨n, hstages⟩ := normal.stages_exists a.gateways
  rw [get_bind_apply, if_neg (by simp [huncertain]), if_neg (by simp [hsettlement, h.release]),
    if_neg (by simp [h.settling]), modify_bind_apply, normal.drained, hstages, normal.exported]
  exact normal.consumeSettlement_settled n normal.archive

lemma Normal.retrySettlement_settled (normal : Normal) (h : a.Retriable)
    {record : AttachmentSettlement} (hsettlement : a.settlement = some record) :
    (retrySettlement sha256 normal.replies.settle a).2.settled = true := by
  have huncertain : a.uncertain = true := by rw [h.uncertain, hsettlement]; rfl
  unfold retrySettlement
  rw [get_bind_apply, hsettlement]
  dsimp only
  rw [if_neg (by simp [huncertain]), if_neg (by simp [h.settling]), modify_bind_apply]
  exact normal.consumeSettlement_settled record.stagesDiscarded record.archive

lemma EpisodeAttachment.Retriable.settles (h : a.Retriable) (normal : Normal) :
    ∃ entry : Entry, ((entry.call normal).after sha256 a).settled = true := by
  cases hsettlement : a.settlement with
  | none =>
    have huncertain : a.uncertain = false := by rw [h.uncertain, hsettlement]; rfl
    exact ⟨.settle, normal.settle_settled h huncertain hsettlement⟩
  | some record => exact ⟨.retrySettlement, normal.retrySettlement_settled h hsettlement⟩

/-- After any failed attempts the host can still settle a new attachment by its own calls, exactly
when none of the attempts started a release. -/
theorem settlement_remains_iff (ha : a.Fresh) {calls : List Call}
    (hfailing : Failing sha256 a calls) (normal : Normal) :
    (∃ entries : List Entry, (afterAll sha256 (afterAll sha256 a calls)
      (entries.map (Entry.call normal))).settled = true) ↔ ¬StartsRelease sha256 a calls := by
  constructor
  · rintro ⟨entries, hsettled⟩ hstarts
    have hstuck := stuck_of_startsRelease hfailing hstarts
    rw [hstuck.afterAll] at hsettled
    unfold EpisodeAttachment.settled at hsettled
    rw [hstuck.settlement] at hsettled
    cases hsettled
  · intro hstarts
    have hretriable := retriable_of_noRelease ha.retriable hfailing hstarts
    obtain ⟨entry, hentry⟩ := hretriable.settles normal
    exact ⟨[entry], hentry⟩

/-! ## One attachment -/

def blankDigest : Bytes → String := fun _ => ""

lemma desk_identified : boundedText 256 "desk" = true ∧ 0 < 1 := by decide

lemma motus_kind : isKind "motus-territory" = true := by decide

def desk : EpisodeAttachment where
  attachmentId := "desk"
  epoch := 1
  bindingKind := "motus-territory"
  territory := some ⟨"operation", "provider", "lease"⟩
  gateways := 1
  isOpen := true
  aborted := false
  cancelled := false
  settlement := none
  release := none
  uncertain := false
  settling := false
  identified := desk_identified
  kind := motus_kind

lemma desk_fresh : desk.Fresh := ⟨rfl, rfl, rfl, rfl, rfl⟩

lemma clean_kinds : isKind "motus-territory" = true ∧ isKind "clean" = true := by decide

def cleaned : BindingSettlement :=
  ⟨"motus-territory", "clean", true, "", clean_kinds, noDetail_bounded⟩

lemma emptyArchive_bounded : ([] : Bytes).length ≤ maxWorkspaceArchiveBytes := by decide

def deskNormal : Normal := ⟨fun _ => 0, [], cleaned, emptyArchive_bounded, rfl⟩

def undrained : Answers := { deskNormal.replies with drain := fun _ => .ok false }

def unsettling : Answers :=
  { deskNormal.replies with settle := .error (episodeAttachmentError "destroy failed") }

/-- A drain that times out, then a destroy that raises, then another one: the desk still settles. -/
theorem settlement_remains_desk :
    ∃ entries : List Entry, (afterAll blankDigest
      (afterAll blankDigest desk
        [.settle undrained, .settle unsettling, .retrySettlement unsettling.settle])
      (entries.map (Entry.call deskNormal))).settled = true := by
  have hfailing : Failing blankDigest desk
      [.settle undrained, .settle unsettling, .retrySettlement unsettling.settle] :=
    ⟨⟨rfl, rfl⟩, ⟨rfl, rfl⟩, ⟨rfl, rfl⟩, trivial⟩
  refine (settlement_remains_iff desk_fresh hfailing deskNormal).mpr ?_
  rintro (⟨h, -⟩ | ⟨h, -⟩ | ⟨h, -⟩ | h)
  · cases h
  · cases h
  · cases h
  · exact h

def running : ReleaseAnswers where
  quiesce := .ok false
  drain := fun _ => .ok true
  cleanupStages := fun _ => .ok 0
  exportArchive := .ok (some [])
  accept := .ok ⟨"operation", "provider", "lease"⟩

/-- One release that times out strands the desk: whatever the host calls from then on, answered
normally, the desk is not settled, and each entry point refuses and points at another one. -/
theorem release_strands_desk : desk.Fresh ∧
    Failing blankDigest desk [.releaseTo running] ∧
    (∀ entries : List Entry, (afterAll blankDigest (afterAll blankDigest desk [.releaseTo running])
      (entries.map (Entry.call deskNormal))).settled = false) ∧
    (cancel (.ok ()) (afterAll blankDigest desk [.releaseTo running])).1 =
      .error (episodeAttachmentError "attachment is already settled") ∧
    (settle blankDigest deskNormal.replies
      (afterAll blankDigest desk [.releaseTo running])).1 =
      .error (uncertainCustodyError "retry settlement instead of settling again") ∧
    (retrySettlement blankDigest deskNormal.replies.settle
      (afterAll blankDigest desk [.releaseTo running])).1 =
      .error (episodeAttachmentError "retry requires a prior unverified settlement") := by
  have hfailing : Failing blankDigest desk [.releaseTo running] := ⟨⟨rfl, rfl⟩, trivial⟩
  have hstuck := stuck_of_startsRelease hfailing (.inl ⟨rfl, rfl⟩)
  refine ⟨desk_fresh, hfailing, fun entries => ?_, rfl, rfl, rfl⟩
  rw [hstuck.afterAll]
  rfl

end Petrus.Agenticus.Attachment
