import Petrus.Testing.Dst.Acknowledged
import Petrus.Testing.Dst.Properties.Replay

/-!
# What the parent reports

The parent reads any cut of a child's progress file back to the frames it holds whole,
and reports a child whose announced calls all reach their boundary faithfully.
-/

namespace Petrus.Testing.Dst

open Lib List

variable {V σ G : Type} {C : Config V σ G} {w w' : World V σ G} {spec : ProcessRunSpec}
  {codec : Codec V} {p : FileProgress V}
variable {choices : Option ChoiceProvenance} {artifact : Artifact V}

/-! ## Reading a cut of the file -/

def Codec.Reads (codec : Codec V) (log : List (Written V)) : Prop :=
  ∀ entry ∈ log, codec.loadFrame (codec.dumpFrame entry.frame) = some entry.frame ∧
    ∀ b ∈ codec.dumpFrame entry.frame, b ≠ 10 ∧ b ≠ 13

lemma splitLines_line {line rest : List UInt8} (h : ∀ b ∈ line, b ≠ 10 ∧ b ≠ 13)
    (acc : List UInt8) :
    splitLines acc (line ++ 10 :: rest) = (acc.reverse ++ line) :: splitLines [] rest := by
  induction line generalizing acc with
  | nil => simp [splitLines]
  | cons b line ih =>
    obtain ⟨hfeed, hreturn⟩ := h b (by simp)
    have hplain : splitLines acc (b :: (line ++ 10 :: rest)) =
        splitLines (b :: acc) (line ++ 10 :: rest) := by
      rw [splitLines]
      · rw [if_neg (by simp [hfeed, hreturn])]
      · intro _ hb
        exact absurd hb hreturn
    rw [cons_append, hplain, ih fun c hc => h c (by simp [hc])]
    simp

lemma splitLines_terminated {lines : List (List UInt8)}
    (h : ∀ line ∈ lines, ∀ b ∈ line, b ≠ 10 ∧ b ≠ 13) :
    splitLines [] (terminated 10 lines) = lines := by
  induction lines with
  | nil => simp [terminated, splitLines]
  | cons line lines ih =>
    rw [terminated_cons, splitLines_line (h line (by simp)), ih fun l hl => h l (by simp [hl])]
    rfl

lemma parseFrames_dumped {log : List (Written V)} (h : codec.Reads log) :
    parseFrames codec (log.map fun entry => codec.dumpFrame entry.frame) =
      (log.map Written.frame, none) := by
  induction log with
  | nil => rfl
  | cons entry log ih =>
    rw [map_cons, parseFrames, (h entry (by simp)).1]
    dsimp only
    rw [ih fun e he => h e (by simp [he])]
    rfl

lemma file_eq_terminated (p : FileProgress V) :
    p.file codec = terminated 10 (p.log.map fun entry => codec.dumpFrame entry.frame) := by
  rw [FileProgress.file, terminated, flatMap_map]
  rfl

lemma read_cut (hsized : p.Sized codec) (hlimit : p.limit = spec.progressBytes)
    (hreads : codec.Reads p.log) {bytes : List UInt8} (hcut : bytes <+: p.file codec) :
    readProcessFrames codec (some bytes) spec.progressBytes true =
      ((p.log.take (bytes.count 10)).map Written.frame, none) := by
  have hbytes : ¬ spec.progressBytes < bytes.length := by
    have := hcut.length_le
    have := hsized.written
    have := hsized.fits
    omega
  have hlines : ∀ line ∈ p.log.map fun entry => codec.dumpFrame entry.frame,
      ∀ b ∈ line, b ≠ 10 ∧ b ≠ 13 := by
    intro line hline
    obtain ⟨entry, hentry, rfl⟩ := mem_map.mp hline
    exact (hreads entry hentry).2
  have hcompleted : completed 10 bytes = terminated 10
      ((p.log.take (bytes.count 10)).map fun entry => codec.dumpFrame entry.frame) := by
    rw [file_eq_terminated] at hcut
    rw [completed_of_cut (fun line hline hfeed => (hlines line hline 10 hfeed).1 rfl) hcut,
      map_take]
  have hparsed : parseFrames codec (splitLines [] (completed 10 bytes)) =
      ((p.log.take (bytes.count 10)).map Written.frame, none) := by
    rw [hcompleted, splitLines_terminated, parseFrames_dumped]
    · exact fun entry hentry => hreads entry (mem_of_mem_take hentry)
    · exact fun line hline => hlines line (by
        rw [map_take] at hline
        exact mem_of_mem_take hline)
  rw [readProcessFrames, if_neg hbytes]
  by_cases hpartial : bytes ≠ [] ∧ bytes.getLast? ≠ some 10
  · rw [if_pos hpartial, if_pos rfl, hparsed]
  · have hwhole : completed 10 bytes = bytes := by
      rcases bytes.eq_nil_or_concat with rfl | ⟨line, last, rfl⟩
      · rfl
      · refine completed_of_getLast? ?_
        by_contra hne
        exact hpartial ⟨by simp, hne⟩
    rw [if_neg hpartial, ← hwhole, hparsed]
    rw [hwhole]

lemma read_file (hsized : p.Sized codec) (hlimit : p.limit = spec.progressBytes)
    (hreads : codec.Reads p.log) :
    readProcessFrames codec (some (p.file codec)) spec.progressBytes false =
      (p.log.map Written.frame, none) := by
  have hbytes : ¬ spec.progressBytes < (p.file codec).length := by
    have := hsized.written
    have := hsized.fits
    omega
  have hend : ¬ (p.file codec ≠ [] ∧ (p.file codec).getLast? ≠ some 10) := by
    rintro ⟨hne, hlast⟩
    rw [file_eq_terminated] at hne hlast
    refine hlast (getLast?_terminated ?_)
    rintro hnil
    rw [hnil] at hne
    exact hne rfl
  rw [readProcessFrames, if_neg hbytes, if_neg hend, file_eq_terminated, splitLines_terminated,
    parseFrames_dumped hreads]
  intro line hline
  obtain ⟨entry, hentry, rfl⟩ := mem_map.mp hline
  exact (hreads entry hentry).2

/-! ## Reporting -/

variable [BEq V]

lemma stopped_reported (h : Stopped C spec choices p) (hreads : C.codec.Reads p.log)
    (returncode : Int) (termination : Termination) {bytes : List UInt8}
    (hcut : bytes <+: p.file C.codec) : ∃ r,
    processResult C.codec spec returncode termination true (some bytes) = .ok r ∧
      r.outcome = .harnessFailure ∧ r.failure = some (.wallClock spec.wallClockMs) ∧
      r.acknowledged.toSnapshot = acknowledged (p.log.take (bytes.count 10)) ∧
      r.unfinishedAttempt = unfinished (p.log.take (bytes.count 10)) := by
  obtain ⟨_, hwrites, -⟩ := h.trailing
  have hwhole := take_prefix (bytes.count 10) p.log
  obtain ⟨s, hfolds⟩ := hwrites.followed _ hwhole
  have hcoherent := Folding.Coherent.initial.foldFrom hfolds.folded
  obtain ⟨s', code, hfolded, hacknowledged, hattempt⟩ : ∃ s' code,
      foldProcessFrames spec ((p.log.take (bytes.count 10)).map Written.frame) = (s', code) ∧
        s'.acknowledged = s.acknowledged ∧ s'.attempt = s.attempt := by
    rw [foldProcessFrames, hfolds.folded]
    dsimp only
    split_ifs
    · exact ⟨_, _, rfl, rfl, rfl⟩
    · exact ⟨_, _, rfl, rfl, rfl⟩
  have hread := read_cut hwrites.sized hwrites.limit hreads hcut
  refine ⟨⟨spec.scenarioId, .harnessFailure, termination, returncode, s'.acknowledged, s'.attempt,
    none, some (.wallClock spec.wallClockMs)⟩, ?_, rfl, rfl, ?_, ?_⟩
  · rw [processResult, hread]
    dsimp only
    rw [hfolded]
    dsimp only
    rw [hacknowledged, hcoherent.acknowledged, ok_bind]
    rfl
  · rw [hacknowledged]
    exact hfolds.snapshot
  · rw [hattempt]
    exact hfolds.attempt

omit [BEq V] in
lemma session_of_run {methods : List (Method V)}
    (hsession : Session C spec choices w)
    (hconcludes : ∀ earlier method later, methods = earlier ++ method :: later →
      method.Concludes C (w.after C earlier)) : Session C spec choices (w.after C methods) := by
  induction methods generalizing w with
  | nil => exact hsession
  | cons method rest ih =>
    exact ih (hsession.called (hconcludes [] method rest rfl)) fun earlier method' later hsplit =>
      hconcludes (method :: earlier) method' later (by rw [hsplit, cons_append])

lemma artifact_returned {scenarioId : String}
    (h : w.artifact C scenarioId = .ok artifact) : artifact.scenarioId = scenarioId ∧
      artifact.operations = w.operations ∧
      artifact.expected.journalDigest = C.codec.digest w.journal := by
  unfold World.artifact at h
  cases hd : w.disposition with
  | none =>
    rw [hd] at h
    cases h
  | some d =>
    rw [hd] at h
    obtain ⟨_, -, h⟩ := bind_eq_ok.mp h
    obtain ⟨_, -, h⟩ := bind_eq_ok.mp h
    obtain ⟨_, -, h⟩ := bind_eq_ok.mp h
    cases h
    exact ⟨rfl, rfl, rfl⟩

omit [BEq V] in
lemma childFailed_ne_zero (p : FileProgress V) : (childFailed C p).1 ≠ 0 := by
  change (70 : Int) ≠ 0
  decide

omit [BEq V] in
lemma childReturned_zero {p₁ : FileProgress V} (h : childReturned C spec artifact p₁ w = (0, p)) :
    artifact.scenarioId = spec.scenarioId ∧ ∃ w', Dst.close C w = (.ok (), w') ∧
      FileProgress.complete C.codec artifact (w'.progress.getD p₁) = (.ok (), p) := by
  have hzero : ∀ q : FileProgress V, childFailed C q ≠ (0, p) := fun q heq =>
    childFailed_ne_zero (C := C) q (congrArg Prod.fst heq)
  unfold childReturned at h
  by_cases hown : artifact.scenarioId ≠ spec.scenarioId
  · rw [if_pos hown] at h
    exact absurd h (hzero p₁)
  rw [if_neg hown] at h
  refine ⟨not_not.mp hown, ?_⟩
  cases hencode : encodeArtifact C.codec artifact with
  | error e =>
    rw [hencode] at h
    exact absurd h (hzero p₁)
  | ok payload =>
    rw [hencode] at h
    dsimp only at h
    rcases hclose : Dst.close C w with ⟨_ | _, w'⟩
    · rw [hclose] at h
      exact absurd h (hzero _)
    · rw [hclose] at h
      dsimp only at h
      rcases hcomplete : FileProgress.complete C.codec artifact (w'.progress.getD p₁) with
        ⟨_ | _, p₂⟩
      · rw [hcomplete] at h
        exact absurd h (hzero _)
      · rw [hcomplete] at h
        cases h
        exact ⟨w', rfl, hcomplete⟩

variable [ReflBEq V]

lemma completed_reported {p₁ : FileProgress V} (hsession : Session C spec choices w)
    (hartifact : w.artifact C spec.scenarioId = .ok artifact)
    (hchild : childReturned C spec artifact p₁ w = (0, p)) (hreads : C.codec.Reads p.log) : ∃ r,
    processResult C.codec spec 0 .exited false (some (p.file C.codec)) = .ok r ∧
      r.outcome = .completed ∧ r.artifact = some artifact := by
  obtain ⟨hown, w', hclose, hcomplete⟩ := childReturned_zero hchild
  obtain ⟨-, hoperations, hjournal⟩ := artifact_returned hartifact
  obtain ⟨p₀, hsynced₀⟩ := hsession.synced
  obtain ⟨p', hsynced⟩ := hsynced₀.closed hclose
  rw [hsynced.progress] at hcomplete
  obtain ⟨s, hwrites, -, hstarted, hnone, hnow, hdisclosed, hcode⟩ :=
    hsynced.kept.complete hown hcomplete
  have hsettled : Settled w w' := by
    have := (close_settled (C := C) (w := w)).1
    rw [hclose] at this
    exact this
  have hcoherent := Folding.Coherent.initial.foldFrom hwrites.folds.folded
  have hsame : s.acknowledged.operations = artifact.operations ∧
      C.codec.digest s.acknowledged.journal = artifact.expected.journalDigest := by
    have hrecorded : s.acknowledged.operations = w'.operations ∧
        s.acknowledged.journal = w'.journal := by
      rw [hnow]
      exact ⟨rfl, rfl⟩
    rw [hrecorded.1, hrecorded.2, hsettled.operations, hsettled.journal]
    exact ⟨hoperations.symm, hjournal.symm⟩
  have hfolded : foldProcessFrames spec (p.log.map Written.frame) = (s, none) := by
    rw [foldProcessFrames, hwrites.folds.folded]
    dsimp only
    rw [if_pos hstarted]
  have hagrees : s.acknowledged.agrees C.codec artifact = true := by
    rw [AcknowledgedPrefix.agrees, hsame.1, hsame.2]
    simp
  let r : ProcessRunResult V := ⟨spec.scenarioId, .completed, .exited, 0, s.acknowledged, s.attempt,
    some artifact, none⟩
  have hresult : r.coherent C.codec = .ok () := by
    have hclean : r.termination = .exited ∧ r.returncode = 0 ∧ r.unfinishedAttempt.isNone ∧
        r.failure = none := ⟨rfl, rfl, by rw [show r.unfinishedAttempt = none from hnone]; rfl, rfl⟩
    have hrecorded : (r.acknowledged.operations == artifact.operations) = true := by
      rw [show r.acknowledged.operations = artifact.operations from hsame.1]
      exact BEq.rfl
    have hdigest : C.codec.digest r.acknowledged.journal =
        artifact.expected.journalDigest := hsame.2
    change (do
      require (r.termination = .exited ∧ r.returncode = 0 ∧ r.unfinishedAttempt.isNone ∧
        r.failure = none) _
      require (artifact.scenarioId = r.scenarioId) _
      require (r.acknowledged.operations == artifact.operations) _
      require (C.codec.digest r.acknowledged.journal = artifact.expected.journalDigest) _ :
        Except Exc Unit) = _
    rw [require_bind hclean, require_bind (show artifact.scenarioId = r.scenarioId from hown),
      require_bind hrecorded, require_true hdigest]
  have hfound : disclosed C.codec s none = (none, some artifact) := by
    rw [disclosed, hdisclosed]
    exact if_pos hagrees
  have hverdict : verdict spec 0 false s.childCode none (some artifact) =
      (some artifact, none) := by
    rw [verdict, if_neg Bool.false_ne_true, hcode]
    rfl
  refine ⟨r, ?_, rfl, rfl⟩
  rw [processResult, read_file hwrites.sized hwrites.limit hreads]
  dsimp only
  rw [hfolded]
  dsimp only
  rw [hcoherent.acknowledged, ok_bind,
    show ((none : Option String) <|> none) = none from rfl, hfound]
  dsimp only
  rw [hverdict]
  change (do r.coherent C.codec; return r : Except Exc (ProcessRunResult V)) = _
  rw [hresult]
  rfl

/-- The parent reports faithfully when every announced call of the child reaches its boundary: a
child that returned the artifact of its world is completed with it, and of any cut of a stopped
child's file the last whole boundary is reported, with the attempt announced after it. -/
theorem process_runs_reported (C : Config V σ G) (spec : ProcessRunSpec)
    (choices : Option ChoiceProvenance) :
    (∀ p₀ p₁ w methods artifact p,
      FileProgress.start C.codec spec.progressBytes spec.scenarioId = (.ok (), p₀) →
      FileProgress.world C.codec (processMetadata C choices) p₀ = (.ok (), p₁) →
      World.create C choices (some p₁) = (.ok (), w) →
      (∀ earlier method later, methods = earlier ++ method :: later →
        method.Concludes C (w.after C earlier)) →
      (w.after C methods).artifact C spec.scenarioId = .ok artifact →
      processChildMain C spec choices methods artifact = (0, p) → C.codec.Reads p.log →
      ∃ r, processResult C.codec spec 0 .exited false (some (p.file C.codec)) = .ok r ∧
        r.outcome = .completed ∧ r.artifact = some artifact) ∧
    ∀ p, Stopped C spec choices p → C.codec.Reads p.log →
      ∀ returncode termination bytes, bytes <+: p.file C.codec →
        ∃ r, processResult C.codec spec returncode termination true (some bytes) = .ok r ∧
          r.outcome = .harnessFailure ∧ r.failure = some (.wallClock spec.wallClockMs) ∧
          r.acknowledged.toSnapshot = acknowledged (p.log.take (bytes.count 10)) ∧
          r.unfinishedAttempt = unfinished (p.log.take (bytes.count 10)) := by
  refine ⟨?_, fun p hstopped hreads returncode termination bytes hcut =>
    stopped_reported hstopped hreads returncode termination hcut⟩
  intro p₀ p₁ w methods artifact p hstart hworld hcreate hconcludes hartifact hchild hreads
  rw [processChildMain, hstart] at hchild
  dsimp only at hchild
  rw [hworld] at hchild
  dsimp only at hchild
  rw [hcreate] at hchild
  exact completed_reported (session_of_run (.opened hstart hworld hcreate) hconcludes) hartifact
    hchild hreads

/-! ## A child that catches a refused call -/

def numberedCodec (frames : List (Frame Nat)) : Codec Nat where
  dumpArtifact := fun _ => []
  loadArtifact := fun _ => none
  dumpFrame := fun frame => List.replicate frame.sequence 0
  loadFrame := fun raw => frames[raw.length]?
  digest := fun _ => ""

/-- The ticking world, with nothing scheduled. -/
def numbered (frames : List (Frame Nat)) : Config Nat Unit Unit :=
  { ticking with
    profile := { tickProfile with create := .done (.ok ⟨(), []⟩) }
    codec := numberedCodec frames }

def quietSpec : ProcessRunSpec := ⟨"quiet", 1000, 4096⟩

def finishing : Method Nat := .call (.finish 1 .converged)

/-- The artifact of the finished world, which is the same after a refused call. -/
def numberedArtifact : Artifact Nat :=
  ((World.create (numbered []) none none).2.after (numbered []) [finishing]).outcome (numbered [])
    "quiet" .converged

def childFrames (methods : List (Method Nat)) : List (Frame Nat) :=
  (processChildMain (numbered []) quietSpec none methods numberedArtifact).2.log.map Written.frame

/-- A configuration whose codec reads the frames of a child that makes these calls. -/
def childConfig (methods : List (Method Nat)) : Config Nat Unit Unit :=
  numbered (childFrames methods)

def childFile (methods : List (Method Nat)) : List UInt8 :=
  (processChildMain (childConfig methods) quietSpec none methods numberedArtifact).2.file
    (childConfig methods).codec

def reported (methods : List (Method Nat)) : Option (ProcessRunResult Nat) :=
  (processResult (childConfig methods).codec quietSpec
    (processChildMain (childConfig methods) quietSpec none methods numberedArtifact).1 .exited false
    (some (childFile methods))).toOption

lemma numberedCodec_reads {log : List (Written Nat)} {frames : List (Frame Nat)}
    (h : log.map (fun entry => frames[entry.frame.sequence]?) =
      log.map fun entry => some entry.frame) : (numberedCodec frames).Reads log := by
  intro entry hentry
  have hsame := map_inj_left.mp h entry hentry
  refine ⟨?_, fun b hb => ?_⟩
  · simpa [numberedCodec] using hsame
  · rw [eq_of_mem_replicate hb]
    decide

/-- A child that finishes its world, and one stopped in that call: announced, with only two bytes
of its boundary written. -/
theorem process_runs_reported_quiet :
    (∃ r, processResult (childConfig [finishing]).codec quietSpec 0 .exited false
      (some (childFile [finishing])) = .ok r ∧ r.outcome = .completed) ∧
    ∃ r, processResult (childConfig [finishing]).codec quietSpec 0 .killed true
      (some ((childFile [finishing]).take 17)) = .ok r ∧ r.outcome = .harnessFailure ∧
      r.acknowledged.toSnapshot.generation = some 1 ∧
      (r.unfinishedAttempt == some (.call (.finish 1 .converged))) = true := by
  obtain ⟨hcompleted, hstopped⟩ :=
    process_runs_reported (childConfig [finishing]) quietSpec none
  constructor
  · obtain ⟨r, hr, houtcome, -⟩ := hcompleted _ _ _ [finishing] numberedArtifact _ rfl rfl rfl
      (by
        intro earlier method later hsplit
        rcases earlier with _ | ⟨first, earlier⟩
        · cases hsplit
          exact .inr (.inl rfl)
        · simp at hsplit)
      rfl rfl (numberedCodec_reads rfl)
    exact ⟨r, hr, houtcome⟩
  · obtain ⟨r, hr, houtcome, -, hacknowledged, hunfinished⟩ :=
      hstopped _ (.between (.called (.opened rfl rfl rfl)
        (show finishing.Concludes _ _ from .inr (.inl rfl))) rfl)
        (numberedCodec_reads rfl) 0 .killed ((childFile [finishing]).take 17) (by decide +kernel)
    refine ⟨r, hr, houtcome, ?_, ?_⟩
    · rw [hacknowledged]
      decide +kernel
    · rw [hunfinished]
      decide +kernel

/-- A step with nothing scheduled is refused and caught, the artifact is returned all the same, and
the parent reports a failure of the protocol. -/
theorem refused_call_breaks_report :
    (processChildMain (numbered []) quietSpec none
      [.call .step, finishing] numberedArtifact).1 = 0 ∧
      (reported [.call .step, finishing]).map ProcessRunResult.outcome = some .harnessFailure ∧
      (reported [.call .step, finishing]).map ProcessRunResult.failure =
        some (some (.protocol "frame-order")) ∧
      (reported [finishing]).map ProcessRunResult.outcome = some .completed := by
  decide +kernel

end Petrus.Testing.Dst
