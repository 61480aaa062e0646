import Petrus.Lib.Ripening
import Petrus.Impetus.Properties.Enumeration
import Petrus.Impetus.Properties.Fidelity

/-!
# Maturation

The watermark enters the candidate computation only when the timers are judged. So
the bindings that pass arcs and guards are found once and for all watermarks, each
with the instant its timers mature, and candidates and wakeups are what has ripened
and what is awaited of them.
-/

namespace Petrus.Impetus

open Lib List

variable {D : Definition} {m : Marking} {instants : NetPath → List Instant} {w w' : Instant}

/-! ## Judging without a clock -/

/-- The binding of a choice the guards hold on, with the instant its timers mature. -/
def assess (D : Definition) (t : Transition) (choice : List (Arc × Alternative)) :
    Except Exc (Option (Binding × Option Instant)) :=
  let (binding, anchors) := assemble t.path choice
  if guardsHold D t binding = false then .ok none
  else (fun mature => some (binding, mature)) <$> maturation t.timers (latest anchors)

def assessTransition (D : Definition) (m : Marking) (instants : NetPath → List Instant)
    (t : Transition) : Except Exc (List (Option (Binding × Option Instant))) := do
  match ← offers D m (anchorsOf instants t) (D.net.inputPositions t.path) with
  | none => return []
  | some offered => (choices offered).mapM (assess D t)

def assessments (D : Definition) (m : Marking) (instants : NetPath → List Instant) :
    Except Exc (List (Option (Binding × Option Instant))) :=
  List.flatten <$> (scheduled D).mapM (assessTransition D m instants)

def verdictAt (w : Instant) : Option (Binding × Option Instant) → Verdict
  | none => .skipped
  | some (binding, none) => .enabled binding
  | some (binding, some mature) => if mature ≤ w then .enabled binding else .pending mature

lemma judge_eq (t : Transition) (w : Instant) (choice : List (Arc × Alternative)) :
    judge D t w choice = verdictAt w <$> assess D t choice := by
  unfold judge assess
  dsimp only
  split_ifs
  · rfl
  · cases maturation t.timers (latest (assemble t.path choice).2) with
    | error e => rfl
    | ok mature => cases mature <;> rfl

lemma surveyTransition_assess (t : Transition) : surveyTransition D m w instants t =
    List.map (verdictAt w) <$> assessTransition D m instants t := by
  unfold surveyTransition assessTransition
  rw [funext (judge_eq t w)]
  change (offers D m (anchorsOf instants t) _ >>= _) = _
  cases offers D m (anchorsOf instants t) (D.net.inputPositions t.path) with
  | error e => rfl
  | ok offered =>
    cases offered with
    | none => rfl
    | some offered => exact mapM_map_result _ _ _

lemma survey_assess (w : Instant) : survey D m w instants =
    List.map (verdictAt w) <$> assessments D m instants := by
  unfold survey assessments
  rw [funext (surveyTransition_assess (D := D) (m := m) (w := w)), mapM_map_result]
  cases (scheduled D).mapM (assessTransition D m instants) with
  | error e => rfl
  | ok found => exact congrArg Except.ok map_flatten.symm

/-! ## Candidates and wakeups ripen -/

lemma binding?_verdictAt (w : Instant) (found : Option (Binding × Option Instant)) :
    (verdictAt w found).binding? = found.bind (ripened w) := by
  rcases found with _ | ⟨binding, _ | mature⟩
  · rfl
  · rfl
  · simp only [verdictAt, Option.bind_some, ripened]
    split_ifs <;> rfl

lemma maturation?_verdictAt (w : Instant) (found : Option (Binding × Option Instant)) :
    (verdictAt w found).maturation? = found.bind (awaited w) := by
  rcases found with _ | ⟨binding, _ | mature⟩
  · rfl
  · rfl
  · simp only [verdictAt, Option.bind_some, awaited]
    split_ifs <;> rfl

lemma exists_items (haligned : Aligned m instants) :
    ∃ items : List (Binding × Option Instant), ∀ w,
      candidates D m w instants = .ok (ripe w items) ∧
      nextMaturation D m w instants = .ok (earliest (awaiting w items)) := by
  have hok : ∃ found, assessments D m instants = .ok found := by
    have hcandidates := candidates_eq (D := D) 0 haligned
    rw [candidates, survey_assess] at hcandidates
    obtain ⟨verdicts, hverdicts, -⟩ := map_eq_ok.mp hcandidates
    obtain ⟨found, hfound, -⟩ := map_eq_ok.mp hverdicts
    exact ⟨found, hfound⟩
  obtain ⟨found, hfound⟩ := hok
  refine ⟨found.filterMap id, fun w => ?_⟩
  have hripe : (found.map (verdictAt w)).filterMap Verdict.binding? =
      ripe w (found.filterMap id) := by
    rw [ripe, filterMap_map, filterMap_filterMap]
    exact filterMap_congr fun o _ => binding?_verdictAt w o
  have hawaiting : (found.map (verdictAt w)).filterMap Verdict.maturation? =
      awaiting w (found.filterMap id) := by
    rw [awaiting, filterMap_map, filterMap_filterMap]
    exact filterMap_congr fun o _ => maturation?_verdictAt w o
  rw [candidates, nextMaturation, survey_assess, hfound, ← hripe, ← hawaiting]
  exact ⟨rfl, rfl⟩

lemma earliest_eq_none {is : List Instant} : earliest is = none ↔ is = [] := by
  cases is <;> simp [earliest]

lemma earliest_eq_some {is : List Instant} {i : Instant} (h : earliest is = some i) :
    i ∈ is ∧ ∀ j ∈ is, i ≤ j := by
  cases is with
  | nil => cases h
  | cons j is => exact min?_eq_some_iff.mp h

/-- How the candidates go on from a watermark. -/
structure TimeLaw (D : Definition) (m : Marking) (instants : NetPath → List Instant) (w : Instant)
    (now : List Binding) (next : Option Instant) : Prop where
  now_eq : candidates D m w instants = .ok now
  next_eq : nextMaturation D m w instants = .ok next
  grows : ∀ w', w ≤ w' → ∃ later, candidates D m w' instants = .ok later ∧ now.Sublist later
  settled : next = none → ∀ w', w ≤ w' → candidates D m w' instants = .ok now
  ahead : ∀ mature ∈ next, w < mature
  unchanged : ∀ mature ∈ next, ∀ w', w ≤ w' → w' < mature → candidates D m w' instants = .ok now
  longer : ∀ mature ∈ next, ∀ w', mature ≤ w' →
    ∃ later, candidates D m w' instants = .ok later ∧ now.length < later.length

lemma timeLaw (haligned : Aligned m instants) (w : Instant) :
    ∃ now next, TimeLaw D m instants w now next := by
  obtain ⟨items, hitems⟩ := exists_items (D := D) haligned
  refine ⟨ripe w items, earliest (awaiting w items), (hitems w).1, (hitems w).2, ?_, ?_, ?_, ?_, ?_⟩
  · intro w' hw
    exact ⟨ripe w' items, (hitems w').1, ripe_sublist hw items⟩
  · intro hnone w' hw
    rw [(hitems w').1, ripe_unchanged hw]
    rw [earliest_eq_none.mp hnone]
    exact fun i hi => absurd hi not_mem_nil
  · intro mature hmature
    exact lt_of_mem_awaiting (earliest_eq_some hmature).1
  · intro mature hmature w' hw hbefore
    rw [(hitems w').1, ripe_unchanged hw]
    exact fun i hi => hbefore.trans_le ((earliest_eq_some hmature).2 i hi)
  · intro mature hmature w' hw
    have hmem := (earliest_eq_some hmature).1
    exact ⟨ripe w' items, (hitems w').1,
      length_ripe_lt ((lt_of_mem_awaiting hmem).le.trans hw) hmem hw⟩

/-! ## Waking -/

variable {s : Instance}

/-- What a wakeup at an instant does. -/
structure WakeLaw (D : Definition) (store : Store) (atInstant : Instant) (s : Instance)
    (next : Option Instant) : Prop where
  next_eq : s.nextMaturation D = .ok next
  early : (∀ mature ∈ next, atInstant < mature) → wake D store atInstant s = (.ok none, s)
  refused : ∀ mature ∈ next, mature ≤ atInstant → ∀ e,
    store s.history [.timerMatured ⟨mature, atInstant⟩] = some e →
      wake D store atInstant s = (.error e, s)
  matured : ∀ mature ∈ next, mature ≤ atInstant →
    store s.history [.timerMatured ⟨mature, atInstant⟩] = none →
      ∃ t, wake D store atInstant s = (.ok (some ⟨mature, atInstant⟩), t) ∧
        t.history = s.history ++ [[.timerMatured ⟨mature, atInstant⟩]] ∧
        t.watermark = atInstant ∧
        ∃ before after, s.candidates D = .ok before ∧ t.candidates D = .ok after ∧
          before.Sublist after ∧ before.length < after.length

def Instance.woken (s : Instance) (mature atInstant : Instant) : Instance :=
  { s with history := s.history ++ [[.timerMatured ⟨mature, atInstant⟩]], watermark := atInstant }

lemma wakePlan_eq {mature atInstant : Instant} (hnext : s.nextMaturation D = .ok (some mature))
    (hahead : s.watermark < mature) (hreached : mature ≤ atInstant) :
    wakePlan D atInstant s =
      .ok (.batch [.timerMatured ⟨mature, atInstant⟩] ⟨mature, atInstant⟩) := by
  have heffective : s.effective (some atInstant) = atInstant :=
    max_eq_left (hahead.le.trans hreached)
  have hwritten : writerRecords [.timerMatured ⟨mature, atInstant⟩] =
      .ok [.timerMatured ⟨mature, atInstant⟩] := by
    rw [writerRecords_eq_ok]
    refine ⟨rfl, fun r hr => ?_⟩
    rw [mem_singleton.mp hr]
    exact require_true hreached
  unfold wakePlan
  rw [hnext, ok_bind]
  dsimp only
  rw [heffective, if_neg (Int.not_lt.mpr hreached), hwritten]
  rfl

lemma wake_early {store : Store} {next : Option Instant} {atInstant : Instant}
    (hnext : s.nextMaturation D = .ok next) (hahead : ∀ mature ∈ next, s.watermark < mature)
    (hearly : ∀ mature ∈ next, atInstant < mature) :
    wake D store atInstant s = (.ok none, s) := by
  refine Act.mapError_eq_ok.mpr (commit_answer ?_)
  unfold wakePlan
  rw [hnext, ok_bind]
  cases next with
  | none => rfl
  | some mature =>
    have hbefore : s.effective (some atInstant) < mature :=
      max_lt (hearly mature rfl) (hahead mature rfl)
    dsimp only
    rw [if_pos hbefore]
    rfl

lemma wake_matured {store : Store} {mature atInstant : Instant}
    (hnext : s.nextMaturation D = .ok (some mature)) (hahead : s.watermark < mature)
    (hreached : mature ≤ atInstant)
    (hstore : store s.history [.timerMatured ⟨mature, atInstant⟩] = none) :
    wake D store atInstant s =
      (.ok (some ⟨mature, atInstant⟩), s.woken mature atInstant) :=
  door_settled (wakePlan_eq hnext hahead hreached) hstore rfl

lemma wakeLaw (store : Store) (atInstant : Instant) (s : Instance) :
    ∃ next, WakeLaw D store atInstant s next := by
  obtain ⟨now, next, law⟩ := timeLaw (D := D) s.queues.aligned s.watermark
  refine ⟨next, law.next_eq, wake_early law.next_eq law.ahead, ?_, ?_⟩
  · intro mature hmature hreached e hstore
    cases hmature
    exact door_refused (wakePlan_eq law.next_eq (law.ahead mature rfl) hreached) hstore
  · intro mature hmature hreached hstore
    cases hmature
    obtain ⟨later, hlater, hlonger⟩ := law.longer mature rfl atInstant hreached
    obtain ⟨after, hafter, hsublist⟩ :=
      law.grows atInstant ((law.ahead mature rfl).le.trans hreached)
    cases hlater.symm.trans hafter
    exact ⟨s.woken mature atInstant,
      wake_matured law.next_eq (law.ahead mature rfl) hreached hstore,
      rfl, rfl, now, later, law.now_eq, hlater, hsublist, hlonger⟩

def wakeNext (D : Definition) (store : Store) (s : Instance) : Instance :=
  match s.nextMaturation D with
  | .ok (some mature) => (wake D store mature s).2
  | _ => s

/-- The instance after `n` such wakeups. -/
def wakings (D : Definition) (stores : Nat → Store) (s : Instance) : Nat → Instance
  | 0 => s
  | n + 1 => wakeNext D (stores n) (wakings D stores s n)

lemma wakings_rest (stores : Nat → Store)
    (hstores : ∀ n history batch, stores n history batch = none) (s : Instance) :
    ∃ n, (wakings D stores s n).nextMaturation D = .ok none := by
  obtain ⟨items, hitems⟩ := exists_items (D := D) s.queues.aligned
  have hwait : ∀ n, (wakings D stores s n).queues = s.queues →
      (wakings D stores s n).nextMaturation D =
        .ok (earliest (awaiting (wakings D stores s n).watermark items)) := by
    intro n hqueues
    unfold Instance.nextMaturation Instance.marking
    rw [hqueues]
    exact (hitems _).2
  by_contra hnever
  rw [not_exists] at hnever
  -- while something is awaited, each wakeup leaves less of it
  have hless : ∀ n, (wakings D stores s n).queues = s.queues ∧
      (awaiting (wakings D stores s n).watermark items).length + n ≤
        (awaiting s.watermark items).length := by
    intro n
    induction n with
    | zero => exact ⟨rfl, le_rfl⟩
    | succ n ih =>
      obtain ⟨hqueues, hlength⟩ := ih
      have hnext := hwait n hqueues
      cases hearliest : earliest (awaiting (wakings D stores s n).watermark items) with
      | none => exact absurd (hearliest ▸ hnext) (hnever n)
      | some mature =>
        rw [hearliest] at hnext
        have hmem := (earliest_eq_some hearliest).1
        have hahead := lt_of_mem_awaiting hmem
        have hwoken : wakings D stores s (n + 1) = (wakings D stores s n).woken mature mature := by
          rw [wakings, wakeNext, hnext]
          exact congrArg Prod.snd (wake_matured hnext hahead le_rfl (hstores _ _ _))
        rw [hwoken]
        have hshorter := length_awaiting_lt hahead.le hmem le_rfl
        exact ⟨hqueues, by change (awaiting mature items).length + _ ≤ _; omega⟩
  have hlast := (hless ((awaiting s.watermark items).length + 1)).2
  omega

/-- Candidates only grow with the watermark, and do so exactly at the next maturation; a wakeup is
recorded exactly when it reaches that instant, and wakeups at successive maturations come to an
end. -/
theorem candidates_grow_at_maturation (D : Definition) :
    (∀ (m : Marking) (instants : NetPath → List Instant), Aligned m instants →
      ∀ w, ∃ now next, TimeLaw D m instants w now next) ∧
    (∀ (store : Store) (atInstant : Instant) (s : Instance),
      ∃ next, WakeLaw D store atInstant s next) ∧
    (∀ stores : Nat → Store, (∀ n history batch, stores n history batch = none) →
      ∀ s, ∃ n, (wakings D stores s n).nextMaturation D = .ok none) :=
  ⟨fun _ _ haligned w => timeLaw haligned w, wakeLaw, wakings_rest⟩

/-! ## A kettle -/

/-- One transition takes a token ten units after its entry and not before seven. -/
def kettleNet : Net where
  places := [{ path := nodeP }]
  transitions := [{ path := nodeT, timers := [.delay 10, .untilAt 7] }]
  arcs := [⟨nodeP, nodeT, .consume, 1, none, none,
    Arc.weight_one⟩]
  valid := by decide

def kettle : Definition where
  net := kettleNet
  handlers := fun _ => passthroughHandler
  guards := fun _ _ _ => .ok true
  filters := fun _ _ => .ok true
  scheduler := selectConservative
  sourcePlain := fun _ _ _ _ => rfl

def kettleQueues : Queues :=
  Dict.ofList [(nodeP, [⟨⟨none, .str "water"⟩, 0, 1, none⟩])]

theorem candidates_grow_kettle :
    Aligned kettleQueues.marking kettleQueues.entryInstants ∧
    (nextMaturation kettle kettleQueues.marking 0 kettleQueues.entryInstants).toOption =
      some (some 10) ∧
    ∃ now later, candidates kettle kettleQueues.marking 9 kettleQueues.entryInstants = .ok now ∧
      candidates kettle kettleQueues.marking 10 kettleQueues.entryInstants = .ok later ∧
      now.length < later.length := by
  have hnext : (nextMaturation kettle kettleQueues.marking 0 kettleQueues.entryInstants).toOption =
      some (some 10) := by decide +kernel
  refine ⟨kettleQueues.aligned, hnext, ?_⟩
  obtain ⟨now, next, law⟩ := (candidates_grow_at_maturation kettle).1 _ _ kettleQueues.aligned 0
  rw [law.next_eq] at hnext
  cases hnext
  obtain ⟨later, hlater, hlonger⟩ := law.longer 10 rfl 10 le_rfl
  exact ⟨now, later, law.unchanged 10 rfl 9 (by decide) (by decide), hlater, hlonger⟩

end Petrus.Impetus
