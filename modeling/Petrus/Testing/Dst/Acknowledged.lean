import Petrus.Testing.Dst.Creation
import Petrus.Testing.Dst.Runner

/-!
# What a child has acknowledged

The log of a child whose announced calls all reach their boundary: how the parent folds
every part of it, and what the folding says about the world.
-/

namespace Petrus.Testing.Dst

open Lib List Act

variable {V σ G α : Type} {C : Config V σ G} {w w' : World V σ G} {spec : ProcessRunSpec}
variable {n : Nat} {choices : Option ChoiceProvenance}
variable {attempt : Attempt V} {s s' : Folding V} {frame : Frame V} {codec : Codec V}
variable {p p' : FileProgress V} {m : Act (FileProgress V) Exc Unit} {raised : Raise}

/-! ## Every call only adds to the record -/

/-- The records are dense and, while the world is open, its queue is the profile's. -/
structure Sane (C : Config V σ G) (w : World V σ G) : Prop where
  tidy : Tidy C w
  queue : w.disposition = none → ∀ q ∈ w.queue, q.Proposed C

lemma Grown.sane (h : Grown C w w') (hsane : Sane C w) : Sane C w' where
  tidy := h.tidy hsane.tidy
  queue := fun hopen q hq =>
    (h.queue hopen q hq).elim (hsane.queue (h.open_ hopen) q) id

lemma Took.grown {r : Except Raise α × World V σ G} (h : Took C attempt w r) : Grown C w r.2 := by
  rcases h with ⟨e, actions, polls, -, rfl⟩ | ⟨-, htaken⟩
  · exact (Keeps.reserved actions polls).toGrown
  · cases htaken with
    | accepted grown | failed grown | strayed grown => exact grown

lemma submit_entered {d : Disposition} {generation : Nat} {command : Command V}
    (hended : w.disposition = some d) (hbounded : w.instant ≤ C.budget.logicalInstant)
    (h : (Attempt.submit generation command).Enters C w) :
    Grown C w (submit_ C command generation w).2 := by
  obtain ⟨hlive, hfair, heligible, hvalid⟩ := h
  obtain ⟨live, hsome, -⟩ := Option.map_eq_some_iff.mp hlive
  rw [submit_, bind_ok_apply (requireGeneration_apply hlive), get_bind_apply,
    if_neg (by simp [hfair]), if_neg (by simp [heligible])]
  obtain ⟨validated, hvalidated⟩ : ∃ validated, validateCommand C command = .ok validated := by
    rcases hvalid with hlate | hisOk
    · omega
    · cases hcommand : validateCommand C command with
      | ok validated => exact ⟨validated, rfl⟩
      | error e =>
        rw [hcommand] at hisOk
        cases hisOk
  by_cases hroom : w.queue.length < C.budget.queuedCommands
  · rw [bind_ok_apply (Took.enqueue_authored hsome hbounded hvalidated hroom)]
    have hrefuses : Refuses (step_ C) { w with
        queueOrder := w.queueOrder + 1
        queue := push ⟨w.instant, w.queueOrder, live.1, .authored, validated⟩ w.queue } :=
      .bind (.requireUnfinished hended)
    obtain ⟨e, he⟩ := hrefuses
    rw [bind_error_apply he]
    refine ⟨prefix_rfl, prefix_rfl, rfl, rfl,
      fun ht => ⟨ht.operations, ht.journal, ht.bounded⟩, id, fun hopen => ?_⟩
    rw [hended] at hopen
    cases hopen
  · simp only [bind_apply, enqueue_apply hsome hbounded, hvalidated, if_pos (not_lt.mp hroom)]
    exact ((Keeps.refl w).ended.trans (.recorded rfl)).toGrown

lemma body_grown (hsane : Sane C w) (attempt : Attempt V) :
    Grown C w (attempt.body C w).2 := by
  cases hd : w.disposition with
  | none => exact (Took.body hd hsane.tidy.bounded (hsane.queue hd) attempt).grown
  | some d =>
    by_cases henters : attempt.Enters C w
    · cases attempt with
      | submit generation command =>
        have hgrown := submit_entered hd hsane.tidy.bounded henters
        rw [Attempt.body, discard_apply, bind_apply]
        generalize submit_ C command generation w = ran at hgrown ⊢
        rcases ran with ⟨_ | _, w₁⟩ <;> exact hgrown
      | _ => exact absurd henters id
    · obtain ⟨e, he⟩ := body_refuses hd henters
      rw [he]
      exact .refl w

/-! ## Logs -/

def acknowledged (log : List (Written V)) : Snapshot V :=
  (log.filterMap Written.seen).getLast?.getD {}

def Written.pending (open_ : Option (ProcessAttempt V)) (entry : Written V) :
    Option (ProcessAttempt V) :=
  match entry.frame with
  | .attempt _ attempt => some attempt
  | .boundary _ _ => none
  | _ => open_

def unfinished (log : List (Written V)) : Option (ProcessAttempt V) :=
  log.foldl Written.pending none

lemma acknowledged_snoc (log : List (Written V)) (entry : Written V) :
    acknowledged (log ++ [entry]) = entry.seen.getD (acknowledged log) := by
  rw [acknowledged, filterMap_append]
  cases hseen : entry.seen with
  | none => simp [hseen, acknowledged]
  | some now => simp [hseen]

lemma unfinished_snoc (log : List (Written V)) (entry : Written V) :
    unfinished (log ++ [entry]) = entry.pending (unfinished log) := by
  simp [unfinished]

/-- The parent folds the log without complaint, to what it acknowledges. -/
structure Folds (spec : ProcessRunSpec) (log : List (Written V)) (s : Folding V) : Prop where
  folded : foldFrom spec 0 {} (log.map Written.frame) = (s, none)
  snapshot : s.acknowledged.toSnapshot = acknowledged log
  attempt : s.attempt = unfinished log

lemma foldFrom_append {frames : List (Frame V)}
    (h : foldFrom spec n s frames = (s', none)) (more : List (Frame V)) :
    foldFrom spec n s (frames ++ more) = foldFrom spec (n + frames.length) s' more := by
  induction frames generalizing n s with
  | nil =>
    cases h
    rfl
  | cons frame rest ih =>
    rw [cons_append, foldFrom]
    rw [foldFrom] at h
    cases hstep : s.step spec n frame with
    | error code =>
      rw [hstep] at h
      cases h
    | ok s₁ =>
      rw [hstep] at h
      dsimp only at h ⊢
      rw [ih h, length_cons]
      congr 1
      omega

lemma Folds.snoc {log : List (Written V)} {entry : Written V}
    (h : Folds spec log s) (hstep : s.step spec log.length entry.frame = .ok s')
    (hseen : s'.acknowledged.toSnapshot = entry.seen.getD s.acknowledged.toSnapshot)
    (hattempt : s'.attempt = entry.pending s.attempt) : Folds spec (log ++ [entry]) s' where
  folded := by
    rw [map_append, foldFrom_append h.folded, length_map, Nat.zero_add, map_singleton,
      foldFrom, hstep]
    rfl
  snapshot := by rw [hseen, acknowledged_snoc, h.snapshot]
  attempt := by rw [hattempt, unfinished_snoc, h.attempt]

def Followed (spec : ProcessRunSpec) (log : List (Written V)) : Prop :=
  ∀ part, part <+: log → ∃ s, Folds spec part s

lemma Followed.snoc {log : List (Written V)} {entry : Written V} {s : Folding V}
    (h : Followed spec log) (hentry : Folds spec (log ++ [entry]) s) :
    Followed spec (log ++ [entry]) := by
  intro part hpart
  rcases prefix_concat_iff.mp hpart with rfl | hinside
  · exact ⟨s, hentry⟩
  · exact h part hinside

/-! ## Coherent foldings -/

lemma coherent_iff {a : AcknowledgedPrefix V} : a.coherent = .ok () ↔
    a.operations.map Operation.position = List.range a.operations.length ∧
      a.journal.map JournalEntry.position = List.range a.journal.length ∧
      (a.world.isSome ∨ a.operations.isEmpty ∧ a.journal.isEmpty ∧ a.generation = none) := by
  rw [AcknowledgedPrefix.coherent, require_bind_eq_ok, require_bind_eq_ok, require_eq_ok]

/-- A coherent folding has a world when it has an attempt. -/
structure Folding.Coherent (s : Folding V) : Prop where
  acknowledged : s.acknowledged.coherent = .ok ()
  world : s.attempt.isSome → s.acknowledged.world.isSome

lemma dense_append {β : Type} {position : β → Nat} {old new : List β}
    (hold : old.map position = List.range old.length)
    (hnew : new.map position = (List.range new.length).map (old.length + ·)) :
    (old ++ new).map position = List.range (old ++ new).length := by
  rw [map_append, hold, hnew, length_append, range_add]

lemma Folding.Coherent.step (h : s.Coherent)
    (hstep : s.step spec n frame = .ok s') : s'.Coherent := by
  obtain ⟨hoperations, hjournal, hworld⟩ := coherent_iff.mp h.acknowledged
  unfold Folding.step at hstep
  by_cases horder : frame.sequence ≠ n ∨ s.terminal = true
  · rw [if_pos horder] at hstep
    cases hstep
  rw [if_neg horder] at hstep
  cases frame with
  | started | complete =>
    dsimp only at hstep
    split_ifs at hstep
    cases hstep
    exact ⟨h.acknowledged, h.world⟩
  | world sequence metadata =>
    dsimp only at hstep
    split_ifs at hstep
    cases hstep
    exact ⟨coherent_iff.mpr ⟨hoperations, hjournal, .inl rfl⟩, fun _ => rfl⟩
  | attempt sequence attempt =>
    dsimp only at hstep
    split_ifs at hstep with hrefused
    cases hstep
    have hsome : s.acknowledged.world.isSome := by
      rw [not_or, not_or] at hrefused
      exact Option.isSome_iff_ne_none.mpr fun hnone => hrefused.2.1 (by rw [hnone]; rfl)
    exact ⟨h.acknowledged, fun _ => hsome⟩
  | boundary sequence delta =>
    dsimp only at hstep
    split_ifs at hstep with hnone hcontinues
    cases hstep
    have hsome : s.acknowledged.world.isSome :=
      h.world (Option.isSome_iff_ne_none.mpr (by simpa using hnone))
    exact ⟨coherent_iff.mpr ⟨dense_append hoperations hcontinues.1,
      dense_append hjournal hcontinues.2, .inl hsome⟩, fun hattempt => by cases hattempt⟩
  | failed sequence code =>
    cases hstep
    exact ⟨h.acknowledged, h.world⟩

lemma Folding.Coherent.foldFrom {frames : List (Frame V)}
    {code : Option String} (h : s.Coherent) (hfold : foldFrom spec n s frames = (s', code)) :
    s'.Coherent := by
  induction frames generalizing n s with
  | nil =>
    cases hfold
    exact h
  | cons frame rest ih =>
    rw [Dst.foldFrom] at hfold
    cases hstep : s.step spec n frame with
    | error code =>
      rw [hstep] at hfold
      cases hfold
      exact ⟨h.acknowledged, h.world⟩
    | ok s₁ =>
      rw [hstep] at hfold
      exact ih (h.step hstep) hfold

lemma Folding.Coherent.initial : ({} : Folding V).Coherent :=
  ⟨coherent_iff.mpr ⟨rfl, rfl, .inr ⟨rfl, rfl, rfl⟩⟩, fun hattempt => by cases hattempt⟩

/-! ## Writing frames -/

/-- The counters of the writer are those of its file. -/
structure FileProgress.Sized (codec : Codec V) (p : FileProgress V) : Prop where
  sequence : p.sequence = p.log.length
  written : p.written = (p.file codec).length
  fits : p.written ≤ p.limit

lemma write_returned {seen : Option (Snapshot V)}
    {p p' : FileProgress V} (h : FileProgress.write codec frame seen p = (.ok (), p'))
    (hsized : p.Sized codec) :
    p'.Sized codec ∧ p'.log = p.log ++ [⟨frame, seen⟩] ∧ p'.limit = p.limit ∧
      p'.operationPosition = p.operationPosition ∧ p'.journalPosition = p.journalPosition ∧
      p'.terminal = p.terminal := by
  rw [FileProgress.write] at h
  by_cases hover : p.limit < p.written + (FileProgress.line codec frame).length
  · rw [if_pos hover] at h
    cases h
  rw [if_neg hover] at h
  cases h
  refine ⟨⟨?_, ?_, not_lt.mp hover⟩, rfl, rfl, rfl, rfl, rfl⟩
  · rw [length_append, hsized.sequence]
    rfl
  · rw [FileProgress.file, flatMap_append, length_append, hsized.written]
    simp [FileProgress.file]

/-- The writer of a child: the parent folds what it has written, to `s`. -/
structure Writes (codec : Codec V) (spec : ProcessRunSpec) (p : FileProgress V) (s : Folding V) :
    Prop where
  sized : p.Sized codec
  limit : p.limit = spec.progressBytes
  followed : Followed spec p.log
  folds : Folds spec p.log s

lemma Writes.write {seen : Option (Snapshot V)} {p p' : FileProgress V} (h : Writes codec spec p s)
    (hwrite : FileProgress.write codec frame seen p = (.ok (), p'))
    (hstep : s.step spec p.log.length frame = .ok s')
    (hseen : s'.acknowledged.toSnapshot = seen.getD s.acknowledged.toSnapshot)
    (hattempt : s'.attempt = Written.pending s.attempt ⟨frame, seen⟩) :
    Writes codec spec p' s' ∧ p'.operationPosition = p.operationPosition ∧
      p'.journalPosition = p.journalPosition ∧ p'.terminal = p.terminal := by
  obtain ⟨hsized, hlog, hlimit, hsame⟩ := write_returned hwrite h.sized
  have hfolds : Folds spec (p.log ++ [⟨frame, seen⟩]) s' := h.folds.snoc hstep hseen hattempt
  refine ⟨⟨hsized, hlimit.trans h.limit, ?_, ?_⟩, hsame⟩
  · rw [hlog]
    exact h.followed.snoc hfolds
  · rw [hlog]
    exact hfolds

lemma Writes.counted {s : Folding V}
    (h : Writes codec spec p s) (operationPosition journalPosition : Nat) (terminal : Bool) :
    Writes codec spec { p with operationPosition, journalPosition, terminal } s :=
  ⟨⟨h.sized.sequence, h.sized.written, h.sized.fits⟩, h.limit, h.followed, h.folds⟩

/-! ## A child between two calls -/

/-- What the child has written folds to the world at its last boundary, and to the attempt left
open. -/
structure Kept (codec : Codec V) (spec : ProcessRunSpec) (p : FileProgress V) (now : Snapshot V)
    (open_ : Option (ProcessAttempt V)) : Prop where
  operations : p.operationPosition = now.operations.length
  journal : p.journalPosition = now.journal.length
  terminal : p.terminal = false
  folded : ∃ s, Writes codec spec p s ∧ s.started = true ∧ s.terminal = false ∧ s.attempt = open_ ∧
    s.acknowledged.world.isSome ∧ s.acknowledged.toSnapshot = now ∧ s.childCode = none

lemma dense_drop {β : Type} {position : β → Nat} {old all : List β} (hold : old <+: all)
    (h : all.map position = List.range all.length) :
    (all.drop old.length).map position =
      (List.range (all.drop old.length).length).map (old.length + ·) := by
  obtain ⟨new, rfl⟩ := hold
  rw [drop_left]
  rw [length_append, range_add, map_append] at h
  exact (append_inj h (by simp)).2

namespace Kept

variable {now now' : Snapshot V} {attempt : ProcessAttempt V}

lemma announce (h : Kept codec spec p now none)
    (hwrite : FileProgress.attempt codec attempt p = (.ok (), p')) :
    Kept codec spec p' now (some attempt) := by
  obtain ⟨s, hwrites, hstarted, hterminal, hnone, hworld, hnow, hcode⟩ := h.folded
  rw [FileProgress.attempt, get_bind_apply] at hwrite
  have hstep : s.step spec p.log.length (.attempt p.sequence attempt) =
      .ok { s with attempt := some attempt } := by
    rw [Folding.step.eq_def, if_neg (by simp [Frame.sequence, hwrites.sized.sequence, hterminal])]
    dsimp only
    rw [if_neg (by simp [hstarted, hnone, Option.isSome_iff_ne_none.mp hworld])]
  obtain ⟨hwrites', hoperations, hjournal, hopen⟩ := hwrites.write hwrite hstep rfl rfl
  exact ⟨hoperations.trans h.operations, hjournal.trans h.journal, hopen.trans h.terminal, _,
    hwrites', hstarted, hterminal, rfl, hworld, hnow, hcode⟩

lemma conclude (h : Kept codec spec p now (some attempt))
    (hwrite : FileProgress.boundary codec now' p = (.ok (), p'))
    (hoperations : now.operations <+: now'.operations) (hjournal : now.journal <+: now'.journal)
    (hdense : now'.operations.map Operation.position = List.range now'.operations.length)
    (hdense' : now'.journal.map JournalEntry.position = List.range now'.journal.length) :
    Kept codec spec p' now' none := by
  obtain ⟨s, hwrites, hstarted, hterminal, hsome, hworld, hnow, hcode⟩ := h.folded
  rw [FileProgress.boundary, get_bind_apply, modify_bind_apply, h.operations, h.journal] at hwrite
  have hseen : s.acknowledged.operations = now.operations ∧
      s.acknowledged.journal = now.journal := by
    rw [← hnow]
    exact ⟨rfl, rfl⟩
  let s' : Folding V := { s with
    acknowledged := { now' with world := s.acknowledged.world }, attempt := none }
  have hcontinues : s.Continues { now' with
      operations := now'.operations.drop now.operations.length
      journal := now'.journal.drop now.journal.length } := by
    rw [Folding.Continues, hseen.1, hseen.2]
    exact ⟨dense_drop hoperations hdense, dense_drop hjournal hdense'⟩
  have hstep : s.step spec p.log.length (.boundary p.sequence { now' with
      operations := now'.operations.drop now.operations.length
      journal := now'.journal.drop now.journal.length }) = .ok s' := by
    rw [Folding.step.eq_def, if_neg (by simp [Frame.sequence, hwrites.sized.sequence, hterminal])]
    dsimp only
    rw [if_neg (by simp [hsome]), if_pos hcontinues, hseen.1, hseen.2,
      prefix_iff_eq_append.mp hoperations, prefix_iff_eq_append.mp hjournal]
  obtain ⟨hwrites', hposition, hposition', hopen⟩ :=
    (hwrites.counted _ _ _).write hwrite hstep rfl rfl
  refine ⟨?_, ?_, hopen.trans h.terminal, s', hwrites', hstarted, hterminal, rfl, hworld, rfl,
    hcode⟩
  · rw [hposition]
    have := hoperations.length_le
    simp
    omega
  · rw [hposition']
    have := hjournal.length_le
    simp
    omega

end Kept

/-! ## Worlds under a parent -/

/-- The world of a child between two calls. -/
structure Synced (C : Config V σ G) (spec : ProcessRunSpec) (w : World V σ G)
    (p : FileProgress V) : Prop where
  progress : w.progress = some p
  kept : Kept C.codec spec p w.snapshot none
  sane : Sane C w

lemma notify_ok (hp : w.progress = some p) (h : notify m w = (.ok (), w')) :
    ∃ p', m p = (.ok (), p') ∧ w' = { w with progress := some p' } := by
  rw [notify, hp] at h
  rcases hrun : m p with ⟨_ | _, p'⟩
  · simp only [hrun] at h
    cases h
  · simp only [hrun] at h
    cases h
    exact ⟨p', rfl, rfl⟩

lemma notify_raised (h : notify m w = (.error raised, w')) : ∃ e, raised = .other e := by
  obtain ⟨progress, hok | ⟨e, he⟩⟩ := notify_cases m w
  · rw [hok] at h
    cases h
  · rw [he] at h
    cases h
    exact ⟨e, rfl⟩

lemma invoke_raised {program : ProfileProgram V σ α}
    (h : (invoke program : Step V σ G α) w = (.error raised, w')) : ∃ e, raised = .other e := by
  rw [invoke] at h
  rcases hrun : Scene.run w.instant program w.scene with ⟨e | _, scene⟩ <;> rw [hrun] at h <;>
    cases h
  exact ⟨e, rfl⟩

lemma Synced.bracket {attempt : ProcessAttempt V} {w₁ w₂ w₃ : World V σ G}
    (hprogress : w.progress = some p) (hkept : Kept C.codec spec p w.snapshot none)
    (hsane : Sane C w) (hannounced : notifyAttempt C attempt w = (.ok (), w₁))
    (hgrown : Grown C w₁ w₂) (hnoted : notifyBoundary C w₂ = (.ok (), w₃)) :
    ∃ p', Synced C spec w₃ p' := by
  obtain ⟨p₁, hwrite, rfl⟩ := notify_ok hprogress hannounced
  obtain ⟨p₃, hwrite', rfl⟩ := notify_ok hgrown.progress hnoted
  have htidy : Tidy C { w with progress := some p₁ } :=
    ⟨hsane.tidy.operations, hsane.tidy.journal, hsane.tidy.bounded⟩
  have hsane₂ : Sane C w₂ := hgrown.sane ⟨htidy, hsane.queue⟩
  have hkept₃ := (hkept.announce hwrite).conclude hwrite' hgrown.operations hgrown.journal
    hsane₂.tidy.operations hsane₂.tidy.journal
  exact ⟨p₃, rfl, hkept₃, ⟨hsane₂.tidy.operations, hsane₂.tidy.journal, hsane₂.tidy.bounded⟩,
    hsane₂.queue⟩

/-! ### Calls that reach their boundary -/

/-- The call is not announced, or it returns, or it raises the failure that ended the world. -/
def Method.Concludes (C : Config V σ G) (w : World V σ G) (method : Method V) : Prop :=
  (∃ attempt e, method = .call attempt ∧ attempt.check = .error e) ∨
    (method.perform C w).1 = .ok () ∨
    ∃ raised, (method.perform C w).1 = .error raised ∧
      (raised.failure? (method.perform C w).2).isSome

lemma attempting_returned {body : Step V σ G α} {a : α}
    (h : attempting C attempt body w = (.ok a, w')) : ∃ w₁ w₂,
    notifyAttempt C (.call attempt) w = (.ok (), w₁) ∧ body w₁ = (.ok a, w₂) ∧
      notifyBoundary C w₂ = (.ok (), w') := by
  obtain ⟨_, w₁, hannounced, h⟩ := bind_returned.mp h
  obtain ⟨_, _, hread, h⟩ := bind_returned.mp h
  cases hread
  obtain ⟨b, w₂, hcaught, h⟩ := bind_returned.mp h
  obtain ⟨_, _, hnoted, h⟩ := bind_returned.mp h
  cases h
  refine ⟨w₁, w₂, hannounced, ?_, hnoted⟩
  rw [Act.catching] at hcaught
  rcases hbody : body w₁ with ⟨raised | b, w₃⟩
  · rw [hbody] at hcaught
    obtain ⟨_, _, -, hthrown⟩ := bind_returned.mp hcaught
    cases hthrown
  · rw [hbody] at hcaught
    exact hcaught

lemma attempting_recorded {body : Step V σ G α}
    (h : attempting C attempt body w = (.error raised, w'))
    (hfailure : (raised.failure? w').isSome) : ∃ w₁ w₂ detail,
    notifyAttempt C (.call attempt) w = (.ok (), w₁) ∧ body w₁ = (.error raised, w₂) ∧
      notifyBoundary C (w₂.failed attempt w₁.operations.length detail) = (.ok (), w') := by
  have hreal : ∀ e, raised ≠ .other e := by
    rintro e rfl
    cases hfailure
  rcases bind_raised.mp h with hannounced | ⟨_, w₁, hannounced, h⟩
  · obtain ⟨e, rfl⟩ := notify_raised hannounced
    exact absurd rfl (hreal e)
  rw [get_bind_apply] at h
  rcases bind_raised.mp h with hcaught | ⟨_, w₂, -, h⟩
  swap
  · rcases bind_raised.mp h with hnoted | ⟨_, _, -, h⟩
    · obtain ⟨e, rfl⟩ := notify_raised hnoted
      exact absurd rfl (hreal e)
    · cases h
  rw [Act.catching] at hcaught
  rcases hbody : body w₁ with ⟨r | a, w₂⟩ <;> rw [hbody] at hcaught
  swap
  · cases hcaught
  cases hdetail : r.failure? w₂ with
  | none =>
    dsimp only at hcaught
    rw [bind_ok_apply (recordFailure_none hdetail)] at hcaught
    cases hcaught
    rw [hdetail] at hfailure
    cases hfailure
  | some detail =>
    by_cases hone : w₂.operations.length - w₁.operations.length ≤ 1
    · rcases bind_raised.mp hcaught with hrecorded | ⟨_, _, hrecorded, hthrown⟩ <;>
        rw [recordFailure_some hdetail hone] at hrecorded
      · obtain ⟨e, rfl⟩ := notify_raised hrecorded
        exact absurd rfl (hreal e)
      · cases hthrown
        exact ⟨w₁, w₂, detail, hannounced, hbody, hrecorded⟩
    · have hrefused : Refuses (recordFailure C attempt w₁.operations.length r) w₂ := by
        rw [Refuses, recordFailure, get_bind_apply, hdetail]
        dsimp only
        rw [if_pos (not_le.mp hone)]
        exact ⟨_, rfl⟩
      obtain ⟨e, he⟩ := hrefused
      dsimp only at hcaught
      rw [bind_error_apply he] at hcaught
      cases hcaught
      exact absurd rfl (hreal e)

lemma close_raised (h : Dst.close C w = (.error raised, w')) :
    ∃ e, raised = .other e := by
  unfold Dst.close at h
  rw [get_bind_apply] at h
  cases hlive : w.generation with
  | none =>
    rw [hlive] at h
    cases h
  | some live =>
    rw [hlive] at h
    rcases bind_raised.mp h with hannounced | ⟨_, w₁, -, h⟩
    · exact notify_raised hannounced
    rw [modify_bind_apply] at h
    rcases bind_raised.mp h with hinvoked | ⟨_, w₂, -, hnoted⟩
    · exact invoke_raised hinvoked
    · exact notify_raised hnoted

lemma Synced.closed (hsynced : Synced C spec w p)
    (h : Dst.close C w = (.ok (), w')) : ∃ p', Synced C spec w' p' := by
  obtain ⟨_, _, hread, h⟩ := bind_returned.mp h
  cases hread
  cases hlive : w.generation with
  | none =>
    rw [hlive] at h
    cases h
    exact ⟨p, hsynced⟩
  | some live =>
    rw [hlive] at h
    obtain ⟨_, w₁, hannounced, h⟩ := bind_returned.mp h
    obtain ⟨_, w₂, hdropped, h⟩ := bind_returned.mp h
    cases hdropped
    obtain ⟨_, w₃, hinvoked, hnoted⟩ := bind_returned.mp h
    have hgrown : Grown C w₁ w₃ := by
      obtain ⟨scene, rfl⟩ := invoke_returned hinvoked
      exact (Took.dropped w₁).trans (Tail.scene scene).toGrown
    exact Synced.bracket hsynced.progress hsynced.kept hsynced.sane hannounced hgrown hnoted

lemma Synced.perform {method : Method V} (hsynced : Synced C spec w p)
    (h : method.Concludes C w) : ∃ p', Synced C spec (method.perform C w).2 p' := by
  cases method with
  | close =>
    rcases h with ⟨_, _, hcall, -⟩ | hok | ⟨raised, hraised, hfailure⟩
    · cases hcall
    · exact hsynced.closed (Prod.ext hok rfl)
    · obtain ⟨e, rfl⟩ := close_raised (C := C) (w := w) (Prod.ext hraised rfl)
      cases hfailure
  | call attempt =>
    rw [Method.perform]
    cases hcheck : attempt.check with
    | error e =>
      rw [perform_unchecked hcheck]
      exact ⟨p, hsynced⟩
    | ok _ =>
      have hsane : ∀ {w₁ : World V σ G}, notifyAttempt C (.call attempt) w = (.ok (), w₁) →
          Sane C w₁ := by
        intro w₁ hannounced
        obtain ⟨p₁, -, rfl⟩ := notify_ok hsynced.progress hannounced
        exact ⟨⟨hsynced.sane.tidy.operations, hsynced.sane.tidy.journal,
          hsynced.sane.tidy.bounded⟩, hsynced.sane.queue⟩
      rcases h with ⟨attempt', e, hcall, hrefused⟩ | hok | ⟨raised, hraised, hfailure⟩
      · cases hcall
        rw [hcheck] at hrefused
        cases hrefused
      · rw [Method.perform, perform_apply hcheck] at hok
        rw [perform_apply hcheck]
        obtain ⟨w₁, w₂, hannounced, hbody, hnoted⟩ := attempting_returned (Prod.ext hok rfl)
        have hgrown := body_grown (hsane hannounced) attempt
        rw [hbody] at hgrown
        exact Synced.bracket hsynced.progress hsynced.kept hsynced.sane hannounced hgrown hnoted
      · rw [Method.perform, perform_apply hcheck] at hraised hfailure
        rw [perform_apply hcheck]
        obtain ⟨w₁, w₂, detail, hannounced, hbody, hnoted⟩ :=
          attempting_recorded (Prod.ext hraised rfl) hfailure
        have hgrown := body_grown (hsane hannounced) attempt
        rw [hbody] at hgrown
        exact Synced.bracket hsynced.progress hsynced.kept hsynced.sane hannounced
          (hgrown.trans (Grown.failed _ _ _ _)) hnoted

/-! ### Sessions -/

/-- The worlds of a child whose announced calls all reach their boundary. -/
inductive Session (C : Config V σ G) (spec : ProcessRunSpec) (choices : Option ChoiceProvenance) :
    World V σ G → Prop
  | opened {p p₁ : FileProgress V} {w : World V σ G}
      (start : FileProgress.start C.codec spec.progressBytes spec.scenarioId = (.ok (), p))
      (world : FileProgress.world C.codec (processMetadata C choices) p = (.ok (), p₁))
      (create : World.create C choices (some p₁) = (.ok (), w)) : Session C spec choices w
  | called {w : World V σ G} {method : Method V} (session : Session C spec choices w)
      (concludes : method.Concludes C w) : Session C spec choices (method.perform C w).2

/-- A log that may be stopped here: as long as no terminal frame is written, the parent expects
more. -/
def Trailing (codec : Codec V) (spec : ProcessRunSpec) (p : FileProgress V) : Prop :=
  ∃ s, Writes codec spec p s ∧ s.terminal = p.terminal

lemma start_returned
    (h : FileProgress.start codec spec.progressBytes spec.scenarioId = (.ok (), p)) :
    Writes codec spec p { started := true } ∧ p.operationPosition = 0 ∧ p.journalPosition = 0 ∧
      p.terminal = false := by
  have hnil : Folds spec ([] : List (Written V)) {} := ⟨rfl, rfl, rfl⟩
  have hempty : Writes codec spec { limit := spec.progressBytes } {} := by
    refine ⟨⟨rfl, rfl, Nat.zero_le _⟩, rfl, fun part hpart => ?_, hnil⟩
    rw [prefix_nil.mp hpart]
    exact ⟨_, hnil⟩
  refine hempty.write h ?_ rfl rfl
  rw [Folding.step.eq_def, if_neg (by simp [Frame.sequence])]
  dsimp only
  rw [if_neg (by simp)]

lemma world_returned {metadata : ProcessWorldMetadata} {p₁ : FileProgress V}
    (hstart : FileProgress.start codec spec.progressBytes spec.scenarioId = (.ok (), p))
    (h : FileProgress.world codec metadata p = (.ok (), p₁)) :
    Kept codec spec p₁ {} none := by
  obtain ⟨hwrites, hoperations, hjournal, hterminal⟩ := start_returned hstart
  have hstep : ({ started := true } : Folding V).step spec p.log.length
      (.world p.sequence metadata) =
        .ok { started := true, acknowledged := { world := some metadata } } := by
    rw [Folding.step.eq_def, if_neg (by simp [Frame.sequence, hwrites.sized.sequence])]
    dsimp only
    rw [if_neg (by simp)]
  obtain ⟨hwrites₁, hoperations₁, hjournal₁, hterminal₁⟩ := hwrites.write h hstep rfl rfl
  exact ⟨hoperations₁.trans hoperations, hjournal₁.trans hjournal, hterminal₁.trans hterminal, _,
    hwrites₁, rfl, rfl, rfl, rfl, rfl, rfl⟩

lemma Session.synced (h : Session C spec choices w) :
    ∃ p, Synced C spec w p := by
  induction h with
  | @opened p p₁ w start world create =>
    obtain ⟨-, hconstruct⟩ := create_eq_construct create
    obtain ⟨w₁, w₂, w₃, w₄, started, hannounced, hsampled, hcreated, hinstalled, hnoted⟩ :=
      construct_returned hconstruct
    obtain ⟨hgrown, -, -⟩ := construct_grown hsampled hcreated hinstalled
    refine Synced.bracket rfl (world_returned start world) ⟨⟨rfl, rfl, Nat.zero_le _⟩, ?_⟩
      hannounced hgrown hnoted
    exact fun _ _ hq => by cases hq
  | called _ concludes ih =>
    obtain ⟨p, hsynced⟩ := ih
    exact hsynced.perform concludes

/-! ### Stopped children -/

/-- The writers a stopped child can leave: between two calls, in the midst of the next one, or
past its terminal frame. -/
inductive Stopped (C : Config V σ G) (spec : ProcessRunSpec) (choices : Option ChoiceProvenance) :
    FileProgress V → Prop
  | started {p : FileProgress V}
      (start : FileProgress.start C.codec spec.progressBytes spec.scenarioId = (.ok (), p)) :
      Stopped C spec choices p
  | opening {p p₁ : FileProgress V}
      (start : FileProgress.start C.codec spec.progressBytes spec.scenarioId = (.ok (), p))
      (world : FileProgress.world C.codec (processMetadata C choices) p = (.ok (), p₁)) :
      Stopped C spec choices p₁
  | constructing {p p₁ p₂ : FileProgress V}
      (start : FileProgress.start C.codec spec.progressBytes spec.scenarioId = (.ok (), p))
      (world : FileProgress.world C.codec (processMetadata C choices) p = (.ok (), p₁))
      (announce : FileProgress.attempt C.codec .construct p₁ = (.ok (), p₂)) :
      Stopped C spec choices p₂
  | between {w : World V σ G} {p : FileProgress V} (session : Session C spec choices w)
      (progress : w.progress = some p) : Stopped C spec choices p
  | calling {w : World V σ G} {p p₁ : FileProgress V} {attempt : ProcessAttempt V}
      (session : Session C spec choices w) (progress : w.progress = some p)
      (announce : FileProgress.attempt C.codec attempt p = (.ok (), p₁)) : Stopped C spec choices p₁
  | completed {w : World V σ G} {p p₁ : FileProgress V} {artifact : Artifact V}
      (session : Session C spec choices w) (progress : w.progress = some p)
      (own : artifact.scenarioId = spec.scenarioId)
      (complete : FileProgress.complete C.codec artifact p = (.ok (), p₁)) :
      Stopped C spec choices p₁
  | failed {p p₁ : FileProgress V} {code : String} (stopped : Stopped C spec choices p)
      (failed : FileProgress.failed C.codec code p = (.ok (), p₁)) : Stopped C spec choices p₁

lemma Kept.trailing {now : Snapshot V} {open_ : Option (ProcessAttempt V)}
    (h : Kept codec spec p now open_) : Trailing codec spec p := by
  obtain ⟨s, hwrites, -, hterminal, -⟩ := h.folded
  exact ⟨s, hwrites, hterminal.trans h.terminal.symm⟩

lemma Kept.complete {now : Snapshot V} {artifact : Artifact V} (h : Kept codec spec p now none)
    (hown : artifact.scenarioId = spec.scenarioId)
    (hwrite : FileProgress.complete codec artifact p = (.ok (), p')) :
    ∃ s, Writes codec spec p' s ∧ s.terminal = p'.terminal ∧ s.started = true ∧
      s.attempt = none ∧ s.acknowledged.toSnapshot = now ∧ s.artifact = some artifact ∧
      s.childCode = none := by
  obtain ⟨s, hwrites, hstarted, hterminal, hnone, hworld, hnow, hcode⟩ := h.folded
  rw [FileProgress.complete, get_bind_apply] at hwrite
  obtain ⟨_, p₁, hwritten, hclosed⟩ := bind_returned.mp hwrite
  cases hclosed
  have hstep : s.step spec p.log.length (.complete p.sequence artifact) =
      .ok { s with artifact := some artifact, terminal := true } := by
    rw [Folding.step.eq_def, if_neg (by simp [Frame.sequence, hwrites.sized.sequence, hterminal])]
    dsimp only
    rw [if_neg (by simp [hnone, hown, Option.isSome_iff_ne_none.mp hworld])]
  exact ⟨_, (hwrites.write hwritten hstep rfl rfl).1.counted _ _ _, rfl, hstarted, hnone, hnow,
    rfl, hcode⟩

lemma Trailing.failed {code : String} (h : Trailing codec spec p)
    (hwrite : FileProgress.failed codec code p = (.ok (), p')) : Trailing codec spec p' := by
  rw [FileProgress.failed, get_bind_apply] at hwrite
  cases hterminal : p.terminal with
  | true =>
    rw [if_pos hterminal] at hwrite
    cases hwrite
    exact h
  | false =>
    rw [if_neg (by simp [hterminal])] at hwrite
    obtain ⟨_, p₁, hwritten, hclosed⟩ := bind_returned.mp hwrite
    cases hclosed
    obtain ⟨s, hwrites, hopen⟩ := h
    have hstep : s.step spec p.log.length (.failed p.sequence code) =
        .ok { s with childCode := some code, terminal := true } := by
      rw [Folding.step.eq_def,
        if_neg (by simp [Frame.sequence, hwrites.sized.sequence, hopen, hterminal])]
    exact ⟨_, (hwrites.write hwritten hstep rfl rfl).1.counted _ _ _, rfl⟩

lemma Session.kept (h : Session C spec choices w) (hprogress : w.progress = some p) :
    Kept C.codec spec p w.snapshot none := by
  obtain ⟨p', hsynced⟩ := h.synced
  have hsame := hsynced.progress
  rw [hprogress] at hsame
  cases hsame
  exact hsynced.kept

lemma Stopped.trailing (h : Stopped C spec choices p) :
    Trailing C.codec spec p := by
  induction h with
  | started start =>
    obtain ⟨hwrites, -, -, hterminal⟩ := start_returned start
    exact ⟨_, hwrites, hterminal.symm⟩
  | opening start world => exact (world_returned start world).trailing
  | constructing start world announce =>
    exact ((world_returned start world).announce announce).trailing
  | between session progress => exact (session.kept progress).trailing
  | calling session progress announce => exact ((session.kept progress).announce announce).trailing
  | completed session progress own complete =>
    obtain ⟨s, hwrites, hterminal, -⟩ := (session.kept progress).complete own complete
    exact ⟨s, hwrites, hterminal⟩
  | failed _ failed ih => exact ih.failed failed

end Petrus.Testing.Dst
