import Petrus.Testing.Dst.Replay

/-!
# What a call can do

A call is refused, or is accepted and appends one operation, or ends the world with a
recorded failure. A refused call changes nothing, but an observation that the profile
refuses has reserved its action and its poll. A profile that raises where it should
answer can make a call stray: it raises after it has changed the world.
-/

namespace Petrus.Testing.Dst

open Lib List Act

variable {V σ G α β : Type} {C : Config V σ G} {w w' : World V σ G}
variable {command validated : Command V} {live : Nat × G} {m : Step V σ G α}
variable {f : α → Step V σ G β} {w₁ w₂ w₃ : World V σ G} {t : World V σ G}
variable {program : ProfileProgram V σ α} {P : Nat → α → Prop} {work : List (Nat × Command V)}
variable {scheduled : List (ScheduledCommand V)} {queued : Queued V} {rest : List (Queued V)}

/-! ## Profiles that answer -/

/-- Work proposed at an instant: not in the past, and valid to the profile itself. -/
def Config.Proposes (C : Config V σ G) (instant : Nat) (scheduled : List (ScheduledCommand V)) :
    Prop :=
  ∀ s ∈ scheduled, instant ≤ s.instant ∧ ∃ command, validateCommand C s.command = .ok command

def Config.Valid (C : Config V σ G) (command : Command V) : Prop :=
  ∃ given, validateCommand C given = .ok command

/-- The program returns, wherever it runs, a value that meets `P` at the instant. -/
def Returns (program : ProfileProgram V σ α) (P : Nat → α → Prop) : Prop :=
  ∀ instant scene, ∃ a scene', Scene.run instant program scene = (.ok a, scene') ∧ P instant a

/-- Past its validation, which changes nothing more when repeated, the profile answers commands
and checkers, and proposes only work it validates; an observation it refuses leaves it as it was;
the checkers answer. -/
structure Config.Sound (C : Config V σ G) : Prop where
  validate : ∀ command validated, C.profile.validate command = .ok validated →
    C.profile.validate validated = .ok validated
  validateFault : ∀ fault validated, C.profile.validateFault fault = .ok validated →
    C.profile.validateFault validated = .ok validated
  refuses : ∀ generation request instant scene scene' e,
    Scene.run instant (C.profile.observe generation request) scene = (.error e, scene') →
      scene' = scene
  load : Returns C.profile.load fun instant started => C.Proposes instant started.scheduled
  apply : ∀ generation command, C.Valid command → Returns (C.profile.apply generation command)
    fun instant result => C.Proposes instant result.scheduled
  observe : ∀ checker ∈ C.checkers, ∀ generation,
    Returns (C.profile.observe generation checker.request) fun _ _ => True
  drop : ∀ generation, Returns (C.profile.drop generation) fun _ _ => True
  close : ∀ generation, Returns (C.profile.close generation) fun _ _ => True
  usage : ∀ limits, C.budget.profileResources = some limits →
    ∃ sample, C.profile.resourceUsage = some sample ∧ ∀ live, Returns (sample live) fun _ usage =>
      unmatched (limits.map Prod.fst) (usage.map Prod.fst) = ([], [])
  check : ∀ checker ∈ C.checkers, ∀ observation, ∃ result, checker.check observation = .ok result

lemma validateCommand_eq_ok (h : validateCommand C command = .ok validated) :
    command.profile = C.profile.identity ∧ validated.profile = C.profile.identity := by
  obtain ⟨_, hgiven, h⟩ := bind_eq_ok.mp h
  obtain ⟨answer, -, h⟩ := bind_eq_ok.mp h
  obtain ⟨_, hanswer, h⟩ := bind_eq_ok.mp h
  cases h
  exact ⟨require_eq_ok.mp hgiven, require_eq_ok.mp hanswer⟩

lemma Config.Valid.profile {command : Command V} (h : C.Valid command) :
    command.profile = C.profile.identity := by
  obtain ⟨given, hvalid⟩ := h
  exact (validateCommand_eq_ok hvalid).2

/-! ## Guards -/

lemma requireGeneration_apply {generation : Nat} (h : w.generationId = some generation) :
    requireGeneration generation w = (.ok (), w) := by
  simp only [requireGeneration, get_bind_apply, if_pos h]
  rfl

lemma liveGeneration_apply (h : w.generation = some live) :
    liveGeneration w = (.ok live, w) := by
  simp only [liveGeneration, get_bind_apply, h]
  rfl

lemma requireUnfinished_apply (h : w.disposition = none) : requireUnfinished w = (.ok (), w) := by
  simp only [requireUnfinished, get_bind_apply, h]
  rfl

/-- What an authored command meets in the queue. -/
lemma enqueue_apply (hlive : w.generation = some live)
    (hbounded : w.instant ≤ C.budget.logicalInstant) (command : Command V) :
    enqueue C { instant := w.instant, command } .authored w =
      match validateCommand C command with
      | .error e => (.error (.other e), w)
      | .ok validated => (if C.budget.queuedCommands ≤ w.queue.length then
          exhaust "queued_commands" C.budget.queuedCommands
        else enqueueValidated w.instant validated .authored : Step V σ G Nat) w := by
  simp only [enqueue, get_bind_apply, hlive, Option.isNone_some, Bool.false_eq_true, if_false,
    lt_irrefl, if_neg hbounded.not_gt]
  cases validateCommand C command <;> rfl

def Refuses (m : Step V σ G α) (w : World V σ G) : Prop := ∃ e, m w = (.error (.other e), w)

namespace Refuses

lemma bind (h : Refuses m w) : Refuses (m >>= f) w := by
  obtain ⟨e, he⟩ := h
  exact ⟨e, bind_error_apply he⟩

lemma refuse (e : Exc) : Refuses (Dst.refuse e : Step V σ G α) w := ⟨e, rfl⟩

lemma stale {generation : Nat} (h : w.generationId ≠ some generation) :
    Refuses (Dst.requireGeneration generation) w := by
  unfold Refuses
  simp only [Dst.requireGeneration, get_bind_apply, if_neg h]
  exact ⟨_, rfl⟩

end Refuses

/-! ## What stays true of a world -/

def Queued.Proposed (C : Config V σ G) (q : Queued V) : Prop :=
  q.source = .profile ∧ C.Valid q.command

structure Tidy (C : Config V σ G) (w : World V σ G) : Prop where
  operations : w.operations.map Operation.position = List.range w.operations.length
  journal : w.journal.map JournalEntry.position = List.range w.journal.length
  bounded : w.instant ≤ C.budget.logicalInstant

/-- Records only grow and the world stays tidy; an open world was open, and what it has queued
since is the profile's. -/
structure Grown (C : Config V σ G) (w w' : World V σ G) : Prop where
  operations : w.operations <+: w'.operations
  journal : w.journal <+: w'.journal
  progress : w'.progress = w.progress
  choices : w'.choices = w.choices
  tidy : Tidy C w → Tidy C w'
  open_ : w'.disposition = none → w.disposition = none
  queue : w'.disposition = none → ∀ q ∈ w'.queue, q ∈ w.queue ∨ q.Proposed C

lemma Grown.refl (w : World V σ G) : Grown C w w :=
  ⟨prefix_rfl, prefix_rfl, rfl, rfl, id, id, fun _ _ hq => .inl hq⟩

lemma Grown.trans (h : Grown C w₁ w₂) (h' : Grown C w₂ w₃) :
    Grown C w₁ w₃ where
  operations := h.operations.trans h'.operations
  journal := h.journal.trans h'.journal
  progress := h'.progress.trans h.progress
  choices := h'.choices.trans h.choices
  tidy := fun ht => h'.tidy (h.tidy ht)
  open_ := fun hnone => h.open_ (h'.open_ hnone)
  queue := fun hnone q hq =>
    (h'.queue hnone q hq).elim (fun hmid => h.queue (h'.open_ hnone) q hmid) .inr

/-- Nothing but the journal, the queue, the counters and the scene moved. -/
structure Keeps (C : Config V σ G) (w w' : World V σ G) : Prop extends Grown C w w' where
  same : w'.operations = w.operations
  generation : w'.generation = w.generation
  instant : w'.instant = w.instant

lemma Keeps.refl (w : World V σ G) : Keeps C w w := ⟨.refl w, rfl, rfl, rfl⟩

lemma Keeps.trans (h : Keeps C w₁ w₂) (h' : Keeps C w₂ w₃) :
    Keeps C w₁ w₃ :=
  ⟨h.toGrown.trans h'.toGrown, h'.same.trans h.same, h'.generation.trans h.generation,
    h'.instant.trans h.instant⟩

lemma Keeps.recorded {entry : JournalEntry V} (h : entry.position = w.journal.length) :
    Keeps C w { w with journal := w.journal ++ [entry] } := by
  refine ⟨⟨prefix_rfl, prefix_append _ _, rfl, rfl, fun ht => ?_, id,
    fun _ _ hq => .inl hq⟩, rfl, rfl, rfl⟩
  refine ⟨ht.operations, ?_, ht.bounded⟩
  rw [map_append, ht.journal, length_append, length_singleton, range_succ]
  simp [h]

lemma Keeps.ended {d : Disposition} (h : Keeps C w w') :
    Keeps C w { w' with disposition := some d } := by
  refine ⟨⟨h.operations, h.journal, h.progress, h.choices, fun ht => ?_, fun hnone => ?_,
    fun hnone => ?_⟩, h.same, h.generation, h.instant⟩
  · exact ⟨(h.tidy ht).operations, (h.tidy ht).journal, (h.tidy ht).bounded⟩
  · cases hnone
  · cases hnone

lemma counted (ho : w'.operations = w.operations) (hj : w'.journal = w.journal)
    (hp : w'.progress = w.progress) (hc : w'.choices = w.choices)
    (hd : w'.disposition = w.disposition) (hq : w'.queue = w.queue)
    (hg : w'.generation = w.generation) (hi : w'.instant = w.instant) : Keeps C w w' := by
  refine ⟨⟨?_, ?_, hp, hc, fun ht => ⟨?_, ?_, ?_⟩, fun hnone => hd ▸ hnone, fun _ q h => ?_⟩,
    ho, hg, hi⟩
  · rw [ho]
  · rw [hj]
  · rw [ho]
    exact ht.operations
  · rw [hj]
    exact ht.journal
  · rw [hi]
    exact ht.bounded
  · exact .inl (hq ▸ h)

/-! ## Steps that accept nothing -/

/-- A step that keeps the operations: it returns with the world open as before, or ends it; it
raises anything else only for a profile that does not answer. -/
inductive Tail (C : Config V σ G) (w : World V σ G) : Except Raise α × World V σ G → Prop
  | returned {a : α} {w' : World V σ G} (keeps : Keeps C w w')
      (open_ : w'.disposition = w.disposition) : Tail C w (.ok a, w')
  | exhausted {bound : String} {limit : Nat} {w' : World V σ G} (keeps : Keeps C w w')
      (ended : w'.disposition = some .budgetExhausted) : Tail C w (.error (.budget bound limit), w')
  | violated {failed : List String} {w' : World V σ G} (keeps : Keeps C w w')
      (ended : w'.disposition = some .invariantFailure) : Tail C w (.error (.invariant failed), w')
  | strayed {e : Exc} {w' : World V σ G} (keeps : Keeps C w w')
      (open_ : w'.disposition = w.disposition) (unsound : ¬ C.Sound) :
      Tail C w (.error (.other e), w')

namespace Tail

lemma shift {r : Except Raise α × World V σ G} (hkeeps : Keeps C w t)
    (hopen : t.disposition = w.disposition) (h : Tail C t r) : Tail C w r := by
  cases h with
  | returned keeps open_ => exact .returned (hkeeps.trans keeps) (open_.trans hopen)
  | exhausted keeps ended => exact .exhausted (hkeeps.trans keeps) ended
  | violated keeps ended => exact .violated (hkeeps.trans keeps) ended
  | strayed keeps open_ unsound => exact .strayed (hkeeps.trans keeps) (open_.trans hopen) unsound

lemma bind_eq (h : Tail C w (m w))
    (hf : ∀ a w', m w = (.ok a, w') → Keeps C w w' → w'.disposition = w.disposition →
      Tail C w' (f a w')) : Tail C w ((m >>= f) w) := by
  rw [bind_apply]
  generalize m w = r at h hf
  cases h with
  | exhausted keeps ended => exact .exhausted keeps ended
  | violated keeps ended => exact .violated keeps ended
  | strayed keeps open_ unsound => exact .strayed keeps open_ unsound
  | @returned a w' keeps open_ => exact shift keeps open_ (hf a w' rfl keeps open_)

lemma bind (h : Tail C w (m w))
    (hf : ∀ a w', Keeps C w w' → w'.disposition = w.disposition → Tail C w' (f a w')) :
    Tail C w ((m >>= f) w) := bind_eq h fun a w' _ => hf a w'

lemma pure (a : α) : Tail C w ((Pure.pure a : Step V σ G α) w) := .returned (.refl w) rfl

lemma get {f : World V σ G → Step V σ G β} (h : Tail C w (f w w)) :
    Tail C w ((Act.get >>= f) w) := h

lemma recordFor (generation : Option Nat) (kind : JournalKind) (name : String)
    (value : JournalValue V) : Tail C w (Dst.recordFor generation kind name value w) :=
  .returned (.recorded rfl) rfl

lemma record (kind : JournalKind) (name : String) (value : JournalValue V) :
    Tail C w (Dst.record kind name value w) := recordFor _ kind name value

lemma exhaust (bound : String) (limit : Nat) :
    Tail C w ((Dst.exhaust bound limit : Step V σ G α) w) :=
  .exhausted (Keeps.refl w |>.ended.trans (.recorded rfl)) rfl

lemma reserveAction : Tail C w (Dst.reserveAction C w) := by
  unfold Dst.reserveAction
  refine get ?_
  split_ifs
  · exact exhaust _ _
  · exact .returned (counted rfl rfl rfl rfl rfl rfl rfl rfl) rfl

lemma reservePoll (poll : Bool) : Tail C w (Dst.reservePoll C poll w) := by
  unfold Dst.reservePoll
  refine get ?_
  split_ifs
  · exact exhaust _ _
  · exact .returned (counted rfl rfl rfl rfl rfl rfl rfl rfl) rfl
  · exact pure _

lemma scene (scene : Scene V σ) : Keeps C w { w with scene } :=
  counted rfl rfl rfl rfl rfl rfl rfl rfl

/-- A program that raises shows that a profile which returns is not this one. -/
lemma invoked {S : Prop} (h : S → Returns program P) :
    (∃ e scene, Dst.invoke program w = (.error (.other e), { w with scene }) ∧ ¬S) ∨
      ∃ a scene, Dst.invoke program w = (.ok a, { w with scene }) ∧ (S → P w.instant a) := by
  unfold Dst.invoke
  rcases hrun : Scene.run w.instant program w.scene with ⟨result, scene'⟩
  cases result with
  | error e =>
    refine .inl ⟨e, scene', rfl, fun hsound => ?_⟩
    obtain ⟨a, s, hok, -⟩ := h hsound w.instant w.scene
    rw [hok] at hrun
    cases hrun
  | ok a =>
    refine .inr ⟨a, scene', rfl, fun hsound => ?_⟩
    obtain ⟨b, s, hok, hp⟩ := h hsound w.instant w.scene
    rw [hok] at hrun
    cases hrun
    exact hp

lemma invoke (h : C.Sound → Returns program P)
    (hf : ∀ a w', Keeps C w w' → w'.disposition = w.disposition → (C.Sound → P w.instant a) →
      Tail C w' (f a w')) : Tail C w ((Dst.invoke program >>= f) w) := by
  rcases invoked h with ⟨e, scene', herror, hunsound⟩ | ⟨a, scene', hok, hp⟩
  · rw [bind_error_apply herror]
    exact .strayed (scene scene') rfl hunsound
  · rw [bind_ok_apply hok]
    exact shift (scene scene') rfl (hf a _ (scene scene') rfl hp)

lemma lift {x : Except Exc α} (h : C.Sound → ∃ a, x = .ok a) :
    Tail C w ((Act.mapError Raise.other (Act.lift x) : Step V σ G α) w) := by
  cases x with
  | ok a => exact .returned (.refl w) rfl
  | error e =>
    refine .strayed (.refl w) rfl fun hsound => ?_
    obtain ⟨a, ha⟩ := h hsound
    cases ha

/-! ### Scheduling -/

lemma mem_push {q work : Queued V} {queue : List (Queued V)} :
    q ∈ push work queue ↔ q = work ∨ q ∈ queue := by
  induction queue with
  | nil => simp [push]
  | cons head rest ih =>
    rw [push]
    split_ifs
    · simp
    · rw [mem_cons, ih, mem_cons, or_left_comm]

lemma enqueueValidated (instant : Nat) {command : Command V} (hlive : w.generation.isSome)
    (hvalid : C.Valid command) :
    Tail C w (Dst.enqueueValidated instant command .profile w) := by
  obtain ⟨live, hlive⟩ := Option.isSome_iff_exists.mp hlive
  rw [Dst.enqueueValidated, bind_ok_apply (liveGeneration_apply hlive)]
  refine .returned ⟨⟨prefix_rfl, prefix_rfl, rfl, rfl, fun ht => ?_, id,
    fun _ q hq => ?_⟩, rfl, rfl, rfl⟩ rfl
  · exact ⟨ht.operations, ht.journal, ht.bounded⟩
  · rcases mem_push.mp hq with rfl | hold
    · exact .inr ⟨rfl, hvalid⟩
    · exact .inl hold

lemma enqueueEach (hlive : w.generation.isSome) (hvalid : ∀ item ∈ work, C.Valid item.2) :
    Tail C w (Dst.enqueueEach .profile work w) := by
  induction work generalizing w with
  | nil => exact pure _
  | cons item rest ih =>
    refine bind (enqueueValidated item.1 hlive (hvalid item (by simp))) fun _ w' hkeeps _ => ?_
    exact ih (by rw [hkeeps.generation]; exact hlive) fun other h => hvalid other (by simp [h])

lemma validateScheduled (h : C.Sound → C.Proposes w.instant scheduled) :
    Tail C w (Dst.validateScheduled C scheduled w) := by
  induction scheduled generalizing w with
  | nil => exact pure _
  | cons first rest ih =>
    rw [Dst.validateScheduled]
    refine get ?_
    split_ifs with hpast
    · refine .strayed (.refl w) rfl fun hsound => ?_
      have hnow := (h hsound first (by simp)).1
      omega
    · exact exhaust _ _
    · refine bind (lift fun hsound => (h hsound first (by simp)).2) fun _ w' hkeeps _ => ?_
      refine bind (ih fun hsound s hs => ?_) fun _ _ _ _ => pure _
      rw [hkeeps.instant]
      exact h hsound s (by simp [hs])

lemma validateScheduled_returned (h : Dst.validateScheduled C scheduled w = (.ok work, w')) :
    C.Proposes w.instant scheduled ∧ ∀ item ∈ work, C.Valid item.2 := by
  induction scheduled generalizing w w' work with
  | nil =>
    cases h
    exact ⟨by simp [Config.Proposes], by simp⟩
  | cons first rest ih =>
    rw [Dst.validateScheduled, get_bind_apply] at h
    split_ifs at h with hpast hlate
    · cases h
    · cases h
    · cases hvalid : validateCommand C first.command with
      | error e =>
        rw [hvalid] at h
        cases h
      | ok command =>
        rw [hvalid, bind_ok_apply (rfl : Act.mapError Raise.other (Act.lift (.ok command)) w = _),
          bind_apply] at h
        rcases hrest : Dst.validateScheduled C rest w with ⟨_ | others, w₁⟩
        · rw [hrest] at h
          cases h
        · rw [hrest] at h
          cases h
          obtain ⟨hproposes, hothers⟩ := ih hrest
          refine ⟨fun s hs => ?_, fun item hitem => ?_⟩
          · rcases mem_cons.mp hs with rfl | hmem
            · exact ⟨not_lt.mp hpast, command, hvalid⟩
            · exact hproposes s hmem
          · rcases mem_cons.mp hitem with rfl | hmem
            · exact ⟨first.command, hvalid⟩
            · exact hothers item hmem

lemma enqueueAll (hlive : w.generation.isSome) (h : C.Sound → C.Proposes w.instant scheduled) :
    Tail C w (Dst.enqueueAll C scheduled .profile w) := by
  unfold Dst.enqueueAll
  refine get ?_
  split_ifs
  · exact exhaust _ _
  · refine bind_eq (validateScheduled h) fun work w' hwork hkeeps _ => ?_
    exact enqueueEach (by rw [hkeeps.generation]; exact hlive) (validateScheduled_returned hwork).2

/-! ### Checkers and resources -/

lemma captureChecks (trigger : String) (sequence : Nat) (live : Nat × G)
    {checkers : List (Checker V)} (h : ∀ checker ∈ checkers, checker ∈ C.checkers) :
    Tail C w (Dst.captureChecks C trigger sequence live checkers w) := by
  induction checkers generalizing w with
  | nil => exact pure _
  | cons checker rest ih =>
    rw [Dst.captureChecks]
    refine invoke (fun hsound => hsound.observe checker (h checker (by simp)) _)
      fun value w' _ _ _ => ?_
    refine get ?_
    refine bind (lift fun hsound => hsound.check checker (h checker (by simp)) _) fun _ _ _ _ => ?_
    exact bind (ih fun c hc => h c (by simp [hc])) fun _ _ _ _ => pure _

lemma recordEach (captured : List (Captured V)) : Tail C w (Dst.recordEach captured w) := by
  induction captured generalizing w with
  | nil => exact pure _
  | cons first rest ih => exact bind (recordFor _ _ _ _) fun _ _ _ _ => ih

lemma recordChecks (captured : List (Captured V)) : Tail C w (Dst.recordChecks captured w) := by
  unfold Dst.recordChecks
  refine bind (recordEach captured) fun _ w' _ _ => ?_
  split_ifs
  · exact pure _
  · exact .violated (Keeps.refl w').ended rfl

lemma evaluateCheckers (trigger : String) (sequence : Nat) (live : Nat × G) :
    Tail C w (Dst.evaluateCheckers C trigger sequence live w) :=
  bind (captureChecks trigger sequence live fun _ h => h) fun captured _ _ _ =>
    recordChecks captured

lemma recordUsage (limits usage : List (String × Nat)) (live : Option (Nat × G))
    (trigger : String) : Tail C w (Dst.recordUsage limits usage live trigger w) := by
  unfold Dst.recordUsage
  refine get ?_
  refine bind (recordFor _ _ _ _) fun _ w₁ _ _ => ?_
  cases exceeded? limits usage with
  | none => exact pure _
  | some first => exact exhaust _ _

lemma sampleResources (live : Option (Nat × G)) (trigger : String) :
    Tail C w (Dst.sampleResources C live trigger w) := by
  unfold Dst.sampleResources
  cases hlimits : C.budget.profileResources with
  | none => exact pure _
  | some limits =>
    cases hsample : C.profile.resourceUsage with
    | none =>
      refine .strayed (.refl w) rfl fun hsound => ?_
      obtain ⟨sample, hgiven, -⟩ := hsound.usage limits hlimits
      rw [hsample] at hgiven
      cases hgiven
    | some sample =>
      have hreturns : C.Sound → Returns (sample (live.map Prod.snd)) fun _ usage =>
          unmatched (limits.map Prod.fst) (usage.map Prod.fst) = ([], []) := by
        intro hsound
        obtain ⟨given, hgiven, hreturns⟩ := hsound.usage limits hlimits
        rw [hsample] at hgiven
        cases hgiven
        exact hreturns _
      refine invoke hreturns fun usage w' _ _ hmatched => ?_
      by_cases hnames : unmatched (limits.map Prod.fst) (usage.map Prod.fst) = ([], [])
      · rw [if_pos hnames]
        exact recordUsage limits usage live trigger
      · rw [if_neg hnames]
        exact .strayed (.refl w') rfl fun hsound => hnames (hmatched hsound)

lemma keeps {a : α} (h : Tail C w (.ok a, w')) :
    Keeps C w w' ∧ w'.disposition = w.disposition := by
  cases h with
  | returned keeps open_ => exact ⟨keeps, open_⟩

end Tail

/-! ## Accepting one operation -/

def Attempt.normal (C : Config V σ G) : Attempt V → Attempt V
  | .submit generation command =>
    match validateCommand C command with
    | .ok validated => .submit generation validated
    | .error _ => .submit generation command
  | .activateFault generation fault =>
    match C.profile.validateFault fault with
    | .ok validated => .activateFault generation validated
    | .error _ => .activateFault generation fault
  | attempt => attempt

def Attempt.Fits (identity : ComponentIdentity) : Attempt V → Prop
  | .submit _ command => command.profile = identity
  | .activateFault _ fault => fault.profile = identity
  | _ => True

def Operation.Fits (identity : ComponentIdentity) : Operation V → Prop
  | .execute _ _ _ _ _ command _ => command.profile = identity
  | .fault _ _ _ armed => armed.profile = identity
  | .failure _ _ _ _ attempt _ => attempt.Fits identity
  | _ => True

/-- The operation is what the attempt does when it is accepted. -/
structure Operation.Records (identity : ComponentIdentity) (op : Operation V)
    (attempt : Attempt V) : Prop where
  call : op.call = attempt
  plain : op.failure? = none
  fits : op.Fits identity

/-- The attempt, past its checks: accepted, or ended by a failure of the interpreter, or strayed. -/
inductive Taken (C : Config V σ G) (attempt : Attempt V) (w : World V σ G) :
    Except Raise α × World V σ G → Prop
  | accepted {a : α} {w' : World V σ G} {op : Operation V} (grown : Grown C w w')
      (appended : w'.operations = w.operations ++ [op])
      (records : op.Records C.profile.identity attempt)
      (open_ : w'.disposition = w.disposition ∨
        ∃ generation d, attempt = .finish generation d ∧ w'.disposition = some d) :
      Taken C attempt w (.ok a, w')
  | failed {raised : Raise} {w' : World V σ G} {ops : List (Operation V)} (grown : Grown C w w')
      (appended : w'.operations = w.operations ++ ops)
      (records : ops = [] ∨ ∃ op, ops = [op] ∧ op.Records C.profile.identity attempt)
      (ended : (raised.failure? w').isSome) : Taken C attempt w (.error raised, w')
  | strayed {e : Exc} {w' : World V σ G} (grown : Grown C w w')
      (unsound : ¬ C.Sound) : Taken C attempt w (.error (.other e), w')

lemma Grown.appended (op : Operation V) (h : op.position = w.operations.length) :
    Grown C w { w with operations := w.operations ++ [op] } := by
  refine ⟨prefix_append _ _, prefix_rfl, rfl, rfl, fun ht => ?_, id,
    fun _ _ hq => .inl hq⟩
  refine ⟨?_, ht.journal, ht.bounded⟩
  rw [map_append, ht.operations, length_append, length_singleton, range_succ]
  simp [h]

namespace Taken

variable {attempt : Attempt V} {op : Operation V} {r : Except Raise α × World V σ G}

lemma shift (hgrown : Grown C w t) (hsame : t.operations = w.operations)
    (hopen : t.disposition = w.disposition) (h : Taken C attempt t r) : Taken C attempt w r := by
  cases h with
  | accepted grown appended records open_ =>
    exact .accepted (hgrown.trans grown) (hsame ▸ appended) records (hopen ▸ open_)
  | failed grown appended records ended =>
    exact .failed (hgrown.trans grown) (hsame ▸ appended) records ended
  | strayed grown unsound => exact .strayed (hgrown.trans grown) unsound

lemma failure?_budget {bound : String} {limit : Nat}
    (h : w.disposition = some .budgetExhausted) :
    ((Raise.budget bound limit).failure? w).isSome := by
  simp [Raise.failure?, h]

lemma failure?_invariant {failed : List String} (h : w.disposition = some .invariantFailure) :
    ((Raise.invariant failed).failure? w).isSome := by
  simp [Raise.failure?, h]

lemma raised {raised : Raise} (h : Tail C w ((.error raised : Except Raise α), w')) :
    Taken C attempt w ((.error raised : Except Raise β), w') := by
  cases h with
  | exhausted keeps ended =>
    exact .failed keeps.toGrown (by rw [keeps.same, append_nil]) (.inl rfl)
      (failure?_budget ended)
  | violated keeps ended =>
    exact .failed keeps.toGrown (by rw [keeps.same, append_nil]) (.inl rfl)
      (failure?_invariant ended)
  | strayed keeps open_ unsound => exact .strayed keeps.toGrown unsound

lemma before (h : Tail C w (m w))
    (hf : ∀ a w', Keeps C w w' → w'.disposition = w.disposition → Taken C attempt w' (f a w')) :
    Taken C attempt w ((m >>= f) w) := by
  rw [bind_apply]
  rcases hr : m w with ⟨_ | a, w'⟩ <;> rw [hr] at h
  · exact raised h
  · obtain ⟨hkeeps, hopen⟩ := h.keeps
    exact shift hkeeps.toGrown hkeeps.same hopen (hf a w' hkeeps hopen)

lemma exhaust (bound : String) (limit : Nat) :
    Taken C attempt w ((Dst.exhaust bound limit : Step V σ G α) w) :=
  .failed ((Keeps.refl w).ended.trans (.recorded rfl)).toGrown (append_nil _).symm
    (.inl rfl) (failure?_budget rfl)

lemma invoke (h : C.Sound → Returns program P)
    (hf : ∀ a w', Keeps C w w' → w'.disposition = w.disposition → (C.Sound → P w.instant a) →
      Taken C attempt w' (f a w')) : Taken C attempt w ((Dst.invoke program >>= f) w) := by
  rcases Tail.invoked h with ⟨e, scene', herror, hunsound⟩ | ⟨a, scene', hok, hp⟩
  · rw [bind_error_apply herror]
    exact .strayed (Tail.scene scene').toGrown hunsound
  · rw [bind_ok_apply hok]
    exact shift (Tail.scene scene').toGrown rfl rfl (hf a _ (Tail.scene scene') rfl hp)

lemma after (hgrown : Grown C w t) (happended : t.operations = w.operations ++ [op])
    (hrecords : op.Records C.profile.identity attempt) (hopen : t.disposition = w.disposition ∨
      ∃ generation d, attempt = .finish generation d ∧ t.disposition = some d)
    (h : Tail C t r) : Taken C attempt w r := by
  cases h with
  | returned keeps open_ =>
    exact .accepted (hgrown.trans keeps.toGrown) (keeps.same.trans happended) hrecords
      (by rw [open_]; exact hopen)
  | exhausted keeps ended =>
    exact .failed (hgrown.trans keeps.toGrown) (keeps.same.trans happended)
      (.inr ⟨op, rfl, hrecords⟩) (failure?_budget ended)
  | violated keeps ended =>
    exact .failed (hgrown.trans keeps.toGrown) (keeps.same.trans happended)
      (.inr ⟨op, rfl, hrecords⟩) (failure?_invariant ended)
  | strayed keeps open_ unsound =>
    exact .strayed (hgrown.trans keeps.toGrown) unsound

lemma append {op : Nat → Operation V} {f : Operation V → Step V σ G α}
    (hposition : ∀ n, (op n).position = n)
    (hrecords : ∀ n, (op n).Records C.profile.identity attempt)
    (hf : ∀ o w', w'.generation = w.generation → w'.instant = w.instant → Tail C w' (f o w')) :
    Taken C attempt w ((Dst.append op >>= f) w) :=
  after (Grown.appended _ (hposition _)) rfl (hrecords _) (.inl rfl) (hf _ _ rfl rfl)

lemma map {g : α → β} (h : Taken C attempt w (m w)) :
    Taken C attempt w ((m >>= fun a => pure (g a)) w) := by
  rw [bind_apply]
  generalize m w = r at h
  cases h with
  | accepted grown appended records open_ => exact .accepted grown appended records open_
  | failed grown appended records ended => exact .failed grown appended records ended
  | strayed grown unsound => exact .strayed grown unsound

end Taken

/-! ## The calls one by one -/

def World.reserved (actions polls : Nat) (w : World V σ G) : World V σ G := { w with
  actions := w.actions + actions
  predicatePolls := w.predicatePolls + polls }

lemma Keeps.reserved (actions polls : Nat) : Keeps C w (w.reserved actions polls) :=
  counted rfl rfl rfl rfl rfl rfl rfl rfl

def Took (C : Config V σ G) (attempt : Attempt V) (w : World V σ G)
    (r : Except Raise α × World V σ G) : Prop :=
  (∃ e actions polls, polls ≤ actions ∧ r = (.error (.other e), w.reserved actions polls)) ∨
    (attempt.Fits C.profile.identity ∧ (attempt.normal C).Fits C.profile.identity) ∧
      Taken C (attempt.normal C) w r

namespace Took

variable {attempt : Attempt V} {generation : Nat}

lemma refuses (h : Refuses m w) : Took C attempt w (m w) := by
  obtain ⟨e, he⟩ := h
  exact .inl ⟨e, 0, 0, le_rfl, he⟩

lemma refused (e : Exc) : Took C attempt w ((refuse e : Step V σ G α) w) := refuses (.refuse e)

lemma guarded {p : Prop} [Decidable p] {e : Exc}
    (h : ¬p → Took C attempt w (m w)) : Took C attempt w ((if p then refuse e else m) w) := by
  split_ifs with hp
  · exact refused e
  · exact h hp

lemma requireGeneration {f : Unit → Step V σ G α}
    (hf : ∀ handle, w.generation = some (generation, handle) → Took C attempt w (f () w)) :
    Took C attempt w ((Dst.requireGeneration generation >>= f) w) := by
  by_cases hlive : w.generationId = some generation
  · rw [bind_ok_apply (requireGeneration_apply hlive)]
    obtain ⟨live, hsome, rfl⟩ := Option.map_eq_some_iff.mp hlive
    exact hf live.2 hsome
  · exact refuses (.bind (.stale hlive))

lemma requireUnfinished (hopen : w.disposition = none) {f : Unit → Step V σ G α}
    (hf : Took C attempt w (f () w)) :
    Took C attempt w ((Dst.requireUnfinished >>= f) w) := by
  rw [bind_ok_apply (requireUnfinished_apply hopen)]
  exact hf

lemma runQueued {order : Nat}
    {attempt : Attempt V} (hlive : w.generation = some live) (hrest : ∀ q ∈ rest, q ∈ w.queue)
    (hbounded : w.instant ≤ C.budget.logicalInstant →
      max w.instant queued.instant ≤ C.budget.logicalInstant)
    (hvalid : C.Valid queued.command)
    (hcall : ∀ position instant result, (Operation.execute position queued.source queued.order
      instant live.1 queued.command result).call = attempt) :
    Taken C attempt w (Dst.runQueued C live queued rest
      { w with queue := queued :: rest, queueOrder := order }) := by
  unfold Dst.runQueued
  rw [bind_apply]
  by_cases hspent : C.budget.actions ≤ w.actions
  · simp only [Dst.reserveAction, get_bind_apply, if_pos hspent]
    refine .failed ⟨prefix_rfl, prefix_append _ _, rfl, rfl, fun ht => ?_,
      fun hnone => (by cases hnone), fun hnone => (by cases hnone)⟩ (append_nil _).symm
      (.inl rfl) (Taken.failure?_budget rfl)
    exact ⟨ht.operations, ((Keeps.recorded rfl).tidy ht).journal, ht.bounded⟩
  · simp only [Dst.reserveAction, get_bind_apply, if_neg hspent, modify_apply, modify_bind_apply]
    refine Taken.shift (t := { w with
      queue := rest, queueOrder := order, actions := w.actions + 1
      timerAdvances := if w.instant < queued.instant then w.timerAdvances + 1 else w.timerAdvances
      instant := max w.instant queued.instant }) ⟨prefix_rfl, prefix_rfl, rfl, rfl,
        fun ht => ⟨ht.operations, ht.journal, hbounded ht.bounded⟩, id,
        fun _ q hq => .inl (hrest q hq)⟩ rfl rfl ?_
    refine Taken.invoke (fun hsound => hsound.apply _ _ hvalid) fun result w₁ hk₁ _ hproposes => ?_
    rw [get_bind_apply]
    refine Taken.append (fun _ => rfl)
      (fun _ => ⟨hcall _ _ _, rfl, hvalid.profile⟩) fun o w₂ hg₂ hi₂ => ?_
    refine Tail.bind (Tail.record _ _ _) fun _ w₃ hk₃ _ => ?_
    refine Tail.bind (Tail.enqueueAll ?_ ?_) fun _ w₄ hk₄ _ => ?_
    · rw [hk₃.generation, hg₂, hk₁.generation]
      exact Option.isSome_iff_exists.mpr ⟨live, hlive⟩
    · rw [hk₃.instant, hi₂, hk₁.instant]
      exact hproposes
    refine Tail.bind (Tail.sampleResources _ _) fun _ w₅ _ _ => ?_
    exact Tail.bind (Tail.evaluateCheckers _ _ _) fun _ _ _ _ => Tail.pure _

lemma step (hopen : w.disposition = none)
    (hproposed : ∀ q ∈ w.queue, q.Proposed C) : Took C .step w (Dst.step_ C w) := by
  unfold Dst.step_
  refine requireUnfinished hopen ?_
  rw [get_bind_apply]
  cases hlive : w.generation with
  | none => exact refused _
  | some live =>
    cases hqueue : w.queue with
    | nil => exact refused _
    | cons queued rest =>
      dsimp only
      refine guarded fun _ => .inr ⟨⟨trivial, trivial⟩, ?_⟩
      have hhead : queued.Proposed C := hproposed queued (by rw [hqueue]; simp)
      split_ifs with htimer hinstant
      · exact Taken.exhaust _ _
      · exact Taken.exhaust _ _
      · refine Taken.map ?_
        have hw : { w with queue := queued :: rest, queueOrder := w.queueOrder } = w := by
          rw [← hqueue]
        have hbounded : w.instant ≤ C.budget.logicalInstant →
            max w.instant queued.instant ≤ C.budget.logicalInstant := by
          intro hle
          omega
        rw [← hw]
        refine runQueued hlive (fun q hq => by simp [hq]) hbounded hhead.2
          fun position instant result => ?_
        rw [hhead.1]
        rfl

lemma push_front {work : Queued V} (h : w.eligible = false) (hnow : work.instant = w.instant) :
    push work w.queue = work :: w.queue := by
  cases hqueue : w.queue with
  | nil => rfl
  | cons head rest =>
    simp only [World.eligible, hqueue, decide_eq_false_iff_not] at h
    rw [push, if_pos (.inl (by omega))]

lemma enqueue_authored (hlive : w.generation = some live)
    (hbounded : w.instant ≤ C.budget.logicalInstant)
    (hvalid : validateCommand C command = .ok validated)
    (hroom : w.queue.length < C.budget.queuedCommands) :
    enqueue C { instant := w.instant, command } .authored w = (.ok w.queueOrder, { w with
      queueOrder := w.queueOrder + 1
      queue := push ⟨w.instant, w.queueOrder, live.1, .authored, validated⟩ w.queue }) := by
  simp only [enqueue_apply hlive hbounded, hvalid]
  rw [if_neg hroom.not_ge, enqueueValidated, bind_ok_apply (liveGeneration_apply hlive)]
  rfl

lemma step_apply (hopen : w.disposition = none) (hlive : w.generation = some live)
    (hqueue : w.queue = queued :: rest) (hgeneration : queued.generation = live.1)
    (hdue : queued.instant ≤ w.instant) : step_ C w =
      (Dst.runQueued C live queued rest >>= fun ran => pure (ran.1, queued.order, ran.2)) w := by
  rw [step_, bind_ok_apply (requireUnfinished_apply hopen), get_bind_apply]
  simp only [hlive, hqueue, hgeneration, ne_eq, not_true_eq_false, if_false, hdue.not_gt, false_and]

lemma chosen {e : Exc} (hopen : w'.disposition = none) (hlive : w'.generation = some live)
    (hqueue : w'.queue = queued :: rest) (hgeneration : queued.generation = live.1)
    (hdue : queued.instant ≤ w'.instant)
    (hrun : Taken C attempt w (Dst.runQueued C live queued rest w')) :
    Taken C attempt w ((step_ C >>= fun executed =>
      if executed.2.1 ≠ queued.order then refuse e else pure executed.2.2) w') := by
  rw [bind_apply, step_apply hopen hlive hqueue hgeneration hdue, bind_apply]
  generalize Dst.runQueued C live queued rest w' = r at hrun
  cases hrun with
  | accepted grown appended records open_ =>
    simp only [pure_apply, ne_eq, not_true_eq_false, if_false]
    exact .accepted grown appended records open_
  | failed grown appended records ended => exact .failed grown appended records ended
  | strayed grown unsound => exact .strayed grown unsound

lemma submit (hopen : w.disposition = none) (hbounded : w.instant ≤ C.budget.logicalInstant)
    (command : Command V) (generation : Nat) :
    Took C (.submit generation command) w (Dst.submit_ C command generation w) := by
  unfold Dst.submit_
  refine requireGeneration fun handle hlive => ?_
  rw [get_bind_apply]
  refine guarded fun hfair => ?_
  refine guarded fun heligible => ?_
  cases hvalid : validateCommand C command with
  | error e =>
    have hrefuses : Refuses (enqueue C { instant := w.instant, command } .authored) w :=
      ⟨e, by rw [enqueue_apply hlive hbounded, hvalid]⟩
    exact refuses (.bind hrefuses)
  | ok validated =>
    rw [Took, show (Attempt.submit generation command).normal C = .submit generation validated by
      simp only [Attempt.normal, hvalid]]
    refine .inr ⟨validateCommand_eq_ok hvalid, ?_⟩
    by_cases hfull : C.budget.queuedCommands ≤ w.queue.length
    · simp only [bind_apply, enqueue_apply hlive hbounded, hvalid, if_pos hfull]
      exact Taken.exhaust _ _
    · rw [bind_ok_apply (enqueue_authored hlive hbounded hvalid (not_le.mp hfull)),
        push_front (by simpa using heligible) rfl]
      refine chosen ?_ ?_ rfl rfl le_rfl
        (runQueued hlive (fun _ hq => hq) (fun hle => max_le hle hle)
          ⟨command, hvalid⟩ fun _ _ _ => rfl)
      · exact hopen
      · exact hlive

lemma dropped (w : World V σ G) : Grown C w { w with generation := none, queue := [] } :=
  ⟨prefix_rfl, prefix_rfl, rfl, rfl, fun ht => ⟨ht.operations, ht.journal, ht.bounded⟩,
    id, fun _ _ hq => by cases hq⟩

lemma entered (w : World V σ G) (generation : Nat × G) (last : Nat) :
    Grown C w { w with lastGenerationId := last, generation := some generation } :=
  ⟨prefix_rfl, prefix_rfl, rfl, rfl, fun ht => ⟨ht.operations, ht.journal, ht.bounded⟩,
    id, fun _ _ hq => .inl hq⟩

lemma installed {started : GenerationStart V G} {f : Unit → Step V σ G α}
    (hproposes : C.Sound → C.Proposes w.instant started.scheduled)
    (hf : ∀ w' live, w'.generation = some live → Taken C attempt w' (f () w')) :
    Taken C attempt w ((installGeneration C started true >>= f) w) := by
  rw [bind_apply, installGeneration, modify_bind_apply, ← bind_apply]
  refine Taken.shift (entered w (w.lastGenerationId + 1, started.generation)
    (w.lastGenerationId + 1)) rfl rfl ?_
  exact Taken.before (Tail.bind (Tail.enqueueAll rfl hproposes) fun _ _ _ _ => Tail.pure _)
    fun _ w' hk _ => hf w' _ hk.generation

lemma activateFault (hopen : w.disposition = none) (fault : Fault V) (generation : Nat) :
    Took C (.activateFault generation fault) w (Dst.activateFault_ C fault generation w) := by
  unfold Dst.activateFault_
  refine requireGeneration fun handle hlive => ?_
  refine requireUnfinished hopen ?_
  rw [get_bind_apply]
  refine guarded fun hfair => ?_
  refine guarded fun hprofile => ?_
  refine guarded fun heligible => ?_
  cases hvalid : C.profile.validateFault fault with
  | error e => exact refused e
  | ok validated =>
    rw [bind_ok_apply (rfl : Act.mapError Raise.other (Act.lift (.ok validated)) w = _)]
    refine guarded fun hidentity => ?_
    rw [Took, show (Attempt.activateFault generation fault).normal C =
      .activateFault generation validated by simp only [Attempt.normal, hvalid]]
    refine .inr ⟨⟨not_not.mp hprofile, not_not.mp hidentity⟩, ?_⟩
    refine Taken.before Tail.reserveAction fun _ w₁ hk₁ _ => ?_
    refine Taken.append (fun _ => rfl) (fun _ => ⟨rfl, rfl, not_not.mp hidentity⟩)
      fun o w₂ hg₂ _ => ?_
    refine Tail.bind (.returned (Tail.scene _) rfl) fun _ w₃ hk₃ _ => ?_
    refine Tail.bind (Tail.record _ _ _) fun _ w₄ hk₄ _ => ?_
    rw [bind_ok_apply (liveGeneration_apply
      (hk₄.generation.trans (hk₃.generation.trans (hg₂.trans (hk₁.generation.trans hlive)))))]
    exact Tail.bind (Tail.sampleResources _ _) fun _ _ _ _ => Tail.evaluateCheckers _ _ _

lemma before (hfits : attempt.Fits C.profile.identity ∧ (attempt.normal C).Fits C.profile.identity)
    (h : Tail C w (m t)) (hf : ∀ a w', m t = (.ok a, w') → Took C attempt w (f a w')) :
    Took C attempt w ((m >>= f) t) := by
  rw [bind_apply]
  rcases hr : m t with ⟨_ | a, w'⟩
  · exact .inr ⟨hfits, Taken.raised (hr ▸ h)⟩
  · exact hf a w' hr

lemma reserveAction_returned (h : reserveAction C w = (.ok (), w')) :
    w' = w.reserved 1 0 := by
  rw [reserveAction, get_bind_apply] at h
  split_ifs at h <;> cases h
  rfl

lemma reservePoll_returned {poll : Bool} (h : reservePoll C poll w = (.ok (), w')) :
    ∃ polls ≤ 1, w' = w.reserved 0 polls := by
  rw [reservePoll, get_bind_apply] at h
  split_ifs at h <;> cases h
  · exact ⟨1, le_rfl, rfl⟩
  · exact ⟨0, Nat.zero_le _, rfl⟩

lemma observe (hopen : w.disposition = none) (request : ObservationRequest V) (generation : Nat)
    (poll : Bool) :
    Took C (.observe generation request poll) w (Dst.observe_ C request generation poll w) := by
  unfold Dst.observe_
  refine requireGeneration fun handle hlive => ?_
  refine requireUnfinished hopen ?_
  refine before ⟨trivial, trivial⟩ Tail.reserveAction fun _ w₁ h₁ => ?_
  obtain rfl := reserveAction_returned h₁
  refine before ⟨trivial, trivial⟩ (Tail.shift (.reserved 1 0) rfl (Tail.reservePoll poll))
    fun _ w₂ h₂ => ?_
  obtain ⟨polls, hpolls, rfl⟩ := reservePoll_returned h₂
  let t := w.reserved 1 polls
  have hlive' : liveGeneration t = (.ok (generation, handle), t) := liveGeneration_apply hlive
  change Took C _ w ((liveGeneration >>= _) t)
  rcases hrun : Scene.run t.instant (C.profile.observe handle request) t.scene with ⟨result, scene⟩
  have hgrown : Grown C w { t with scene } :=
    ((Keeps.reserved 1 polls).trans (Tail.scene scene)).toGrown
  rw [bind_ok_apply hlive', bind_apply, invoke, hrun]
  cases result with
  | error e =>
    by_cases hsound : C.Sound
    · obtain rfl := hsound.refuses _ _ _ _ _ _ hrun
      exact .inl ⟨e, 1, polls, hpolls, rfl⟩
    · exact .inr ⟨⟨trivial, trivial⟩, .strayed hgrown hsound⟩
  | ok value =>
    refine .inr ⟨⟨trivial, trivial⟩, Taken.shift hgrown rfl rfl ?_⟩
    refine Taken.append (fun _ => rfl) (fun _ => ⟨rfl, rfl, trivial⟩) fun o w₄ _ _ => ?_
    refine Tail.bind (Tail.record _ _ _) fun _ _ _ _ => ?_
    exact Tail.bind (Tail.sampleResources _ _) fun _ _ _ _ => Tail.pure _

lemma crash (hopen : w.disposition = none) (cut : String) (generation : Nat) :
    Took C (.crash generation cut) w (Dst.crash_ C cut generation w) := by
  unfold Dst.crash_
  refine requireGeneration fun handle hlive => ?_
  refine requireUnfinished hopen ?_
  rw [get_bind_apply]
  refine guarded fun hfair => ?_
  refine .inr ⟨⟨trivial, trivial⟩, ?_⟩
  refine Taken.before Tail.reserveAction fun _ w₁ hk₁ _ => ?_
  rw [bind_ok_apply (liveGeneration_apply (hk₁.generation.trans hlive))]
  refine Taken.before (Tail.captureChecks _ _ _ fun _ h => h) fun captured w₂ _ _ => ?_
  rw [get_bind_apply, modify_bind_apply]
  refine Taken.shift (dropped w₂) rfl rfl ?_
  refine Taken.invoke (fun hsound => hsound.drop _) fun _ w₃ _ _ _ => ?_
  refine Taken.append (fun _ => rfl) (fun _ => ⟨rfl, rfl, trivial⟩) fun o w₄ _ _ => ?_
  refine Tail.bind (Tail.recordFor _ _ _ _) fun _ _ _ _ => ?_
  exact Tail.bind (Tail.sampleResources _ _) fun _ _ _ _ => Tail.recordChecks captured

lemma restart (hopen : w.disposition = none) : Took C .restart w (Dst.restart_ C w) := by
  unfold Dst.restart_
  refine requireUnfinished hopen ?_
  rw [get_bind_apply]
  refine guarded fun hlive => ?_
  refine .inr ⟨⟨trivial, trivial⟩, ?_⟩
  by_cases hreloads : C.budget.reloads ≤ w.reloads
  · rw [if_pos hreloads]
    exact Taken.exhaust _ _
  rw [if_neg hreloads]
  refine Taken.before Tail.reserveAction fun _ w₁ _ _ => ?_
  refine Taken.before (.returned (counted rfl rfl rfl rfl rfl rfl rfl rfl) rfl) fun _ w₂ _ _ => ?_
  refine Taken.invoke (fun hsound => hsound.load) fun started w₃ hk₃ _ hproposes => ?_
  refine installed ?_ fun w₄ live hlive => ?_
  · rw [hk₃.instant]
    exact hproposes
  rw [bind_ok_apply (liveGeneration_apply hlive)]
  refine Taken.append (fun _ => rfl) (fun _ => ⟨rfl, rfl, trivial⟩) fun o w₅ _ _ => ?_
  refine Tail.bind (Tail.record _ _ _) fun _ _ _ _ => ?_
  refine Tail.bind (Tail.sampleResources _ _) fun _ _ _ _ => ?_
  exact Tail.bind (Tail.evaluateCheckers _ _ _) fun _ _ _ _ => Tail.pure _

lemma beginFair (hopen : w.disposition = none) (generation : Nat) :
    Took C (.beginFair generation) w (Dst.beginFair_ C generation w) := by
  unfold Dst.beginFair_
  refine requireGeneration fun handle hlive => ?_
  refine requireUnfinished hopen ?_
  rw [get_bind_apply]
  refine guarded fun hfair => ?_
  refine guarded fun hfaults => ?_
  refine .inr ⟨⟨trivial, trivial⟩, ?_⟩
  refine Taken.before Tail.reserveAction fun _ w₁ hk₁ _ => ?_
  refine Taken.before (.returned (counted rfl rfl rfl rfl rfl rfl rfl rfl) rfl)
    fun _ w₂ hk₂ _ => ?_
  refine Taken.append (fun _ => rfl) (fun _ => ⟨rfl, rfl, trivial⟩) fun o w₃ hg₃ _ => ?_
  refine Tail.bind (Tail.record _ _ _) fun _ w₄ hk₄ _ => ?_
  rw [bind_ok_apply (liveGeneration_apply
    (hk₄.generation.trans (hg₃.trans (hk₂.generation.trans (hk₁.generation.trans hlive)))))]
  exact Tail.bind (Tail.sampleResources _ _) fun _ _ _ _ => Tail.evaluateCheckers _ _ _

lemma finish (hopen : w.disposition = none) (disposition : Disposition) (generation : Nat) :
    Took C (.finish generation disposition) w (Dst.finish_ C disposition generation w) := by
  unfold Dst.finish_
  refine requireGeneration fun handle hlive => ?_
  refine requireUnfinished hopen ?_
  rw [get_bind_apply]
  refine guarded fun hwait => ?_
  refine guarded fun hpending => ?_
  refine .inr ⟨⟨trivial, trivial⟩, ?_⟩
  refine Taken.before Tail.reserveAction fun _ w₁ hk₁ _ => ?_
  have happend : Dst.append (fun position => .finish position w.instant generation disposition) w₁ =
      (.ok (.finish w₁.operations.length w.instant generation disposition), { w₁ with
        operations := w₁.operations ++
          [.finish w₁.operations.length w.instant generation disposition] }) := rfl
  rw [bind_ok_apply happend, modify_bind_apply]
  refine Taken.after (t := { w₁ with
      operations := w₁.operations ++ [.finish w₁.operations.length w.instant generation disposition]
      disposition := some disposition }) ?_ rfl ⟨rfl, rfl, trivial⟩
    (.inr ⟨generation, disposition, rfl, rfl⟩) ?_
  · refine ⟨prefix_append _ _, prefix_rfl, rfl, rfl, fun ht => ?_, fun hnone => ?_,
      fun hnone => ?_⟩
    · have := (Grown.appended (C := C) (w := w₁)
        (.finish w₁.operations.length w.instant generation disposition) rfl).tidy ht
      exact ⟨this.operations, this.journal, this.bounded⟩
    · cases hnone
    · cases hnone
  refine Tail.bind (Tail.record _ _ _) fun _ w₃ hk₃ _ => ?_
  rw [bind_ok_apply (liveGeneration_apply (hk₃.generation.trans (hk₁.generation.trans hlive)))]
  exact Tail.sampleResources _ _

end Took

end Petrus.Testing.Dst
