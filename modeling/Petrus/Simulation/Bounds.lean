import Petrus.Engine.Sparing
import Petrus.Simulation.Profile

/-!
# The admission bound suffices

An admitted net has no handler and at most one output arc per transition, so no advance
multiplies tokens, and what the input arcs scan is bounded by the initial tokens and the
largest incidence of a place.
-/

namespace Petrus.Simulation

open Lib Motus Impetus Engine List

variable {repr : Dyadic → String} {cel : Cel} {built : BuiltNet} {bound : Bound} {m : Marking}
  {net : Net} {D : Definition} {actions : Int}
variable {session : Session}

/-! ## What admission establishes -/

/-- What of an admission the run depends on. -/
structure Admitted (net : Net) (m : Marking) : Prop where
  plain : ∀ t ∈ net.transitions, t.handler = none
  single : ∀ t ∈ net.transitionPaths, (net.outputs t).length ≤ 1
  tokens : tokenCount m ≤ maxInitialTokens
  scans : tokenCount m * maximumIncidence net ≤ maxCandidateOffers

lemma admitted_of_ok (h : admit_ repr built m actions = .ok ()) :
    Admitted built.net m := by
  simp only [admit_, checkBuild, checkMarking, then_eq_ok, forM_eq_ok, require_eq_ok] at h
  obtain ⟨-, ⟨-, -, -, -, -, htransitions, -, hpaths, -⟩, htokens, -, -, hscans⟩ := h
  refine ⟨?_, ?_, htokens, hscans⟩
  · intro t ht
    have hcheck := htransitions t ht
    unfold checkTransition at hcheck
    exact (require_bind_eq_ok.mp hcheck).1
  · intro t ht
    have hcheck := hpaths t ht
    unfold checkIncidence at hcheck
    simp only [require_bind_eq_ok, require_eq_ok] at hcheck
    exact hcheck.2.2

lemma bindSymbols_net (h : bindSymbols cel built = .ok bound) :
    bound.definition.net = built.net := by
  unfold bindSymbols at h
  simp only [bind_eq_ok] at h
  obtain ⟨-, -, guards, -, -, -, filters, -, -, -, completion, -, hbound⟩ := h
  cases hbound
  rfl

lemma Admitted.slender (h : Admitted D.net m) : Slender D where
  plain t := by
    unfold Definition.declaresHandler
    rw [any_eq_false]
    intro transition ht
    simp [h.plain transition ht]
  single t := by
    by_cases ht : t ∈ D.net.transitionPaths
    · exact h.single t ht
    · -- an arc into a place leaves a transition
      have hnone : D.net.outputs t = [] := by
        refine filter_eq_nil_iff.mpr ?_
        intro arc harc hout
        obtain ⟨rfl, htarget⟩ := of_decide_eq_true hout
        rcases D.net.valid.2.1 arc harc with ⟨-, hplace⟩ | ⟨hsource, -⟩
        · exact D.net.valid.1.2.2 _ htarget hplace
        · exact ht hsource
      rw [hnone]
      exact Nat.zero_le 1

/-! ## Counting tokens -/

lemma tokenCount_marking (queues : Queues) : tokenCount queues.marking = queues.all.length := by
  have hfilter : ∀ es : List (NetPath × List Token),
      ((es.filter fun e => decide (e.2 ≠ [])).map fun e => e.2.length).sum =
        (es.map fun e => e.2.length).sum := by
    intro es
    induction es with
    | nil => rfl
    | cons e es ih =>
      rw [filter_cons]
      split_ifs with hne
      · rw [map_cons, map_cons, sum_cons, sum_cons, ih]
      · have hnil : e.2 = [] := by simpa using hne
        rw [map_cons, sum_cons, ih, hnil, length_nil, Nat.zero_add]
  unfold tokenCount Queues.marking Marking.ofDict Dict.filter Dict.mapValues Queues.all Dict.values
  rw [hfilter, length_flatten, map_map, map_map]
  congr 1
  refine map_congr_left fun e _ => ?_
  exact length_map _

lemma weight_initial (D : Definition) (m : Marking) (instanceId : String) (instant : Instant) :
    (Instance.initial D m instanceId instant).weight = tokenCount m := by
  have hall : (Instance.initial D m instanceId instant).queues.all.Perm
      (Queues.all Dict.empty ++ mintedAll none instant 1 m.queues.entries) := all_depositAll
  have hminted : (mintedAll none instant 1 m.queues.entries).length = tokenCount m := by
    rw [← length_map Entry.identity, map_identity_mintedAll, length_range']
    rfl
  have hflight : ((Instance.initial D m instanceId instant).inFlight.values.map
      fun o => o.binding.tokens.length).sum = 0 := rfl
  unfold Instance.weight
  rw [hflight, hall.length_eq, length_append, hminted]
  exact Nat.zero_add _

lemma le_maximumIncidence {p : NetPath} (h : p ∈ net.placePaths) :
    incidence net p ≤ maximumIncidence net := by
  have hmax : ∀ (ns : List Nat) (start : Nat), start ≤ ns.foldl max start ∧
      ∀ n ∈ ns, n ≤ ns.foldl max start := by
    intro ns
    induction ns with
    | nil => exact fun start => ⟨le_rfl, nofun⟩
    | cons n ns ih =>
      intro start
      obtain ⟨hstart, hall⟩ := ih (max start n)
      rw [foldl_cons, forall_mem_cons]
      exact ⟨(le_max_left start n).trans hstart, (le_max_right start n).trans hstart, hall⟩
  exact (hmax _ 0).2 _ (mem_map_of_mem h)

lemma inputScanBound_le (net : Net) (m : Marking) :
    inputScanBound net m ≤ tokenCount m * maximumIncidence net := by
  have hplace (p : NetPath) :
      (m.place p).length = ((m.queues.get? p).map List.length).getD 0 := by
    unfold Marking.place
    cases m.queues.get? p <;> rfl
  unfold inputScanBound tokenCount
  rw [map_congr_left fun arc _ => hplace arc.source, Dict.sum_lookups, ← sum_map_mul_right]
  refine sum_le_sum fun e _ => Nat.mul_le_mul_left _ ?_
  rw [countP_filter]
  by_cases hp : e.1 ∈ net.placePaths
  · refine le_trans (countP_mono_left fun arc _ harc => ?_) (le_maximumIncidence hp)
    simp only [Bool.and_eq_true, decide_eq_true_eq] at harc ⊢
    exact ⟨harc.1, harc.2.2⟩
  · rw [countP_eq_zero.mpr ?_]
    · exact Nat.zero_le _
    · intro arc _ harc
      simp only [Bool.and_eq_true, decide_eq_true_eq] at harc
      exact hp (harc.1 ▸ harc.2.1)

/-! ## The run -/

lemma open_instance {C : Composition Nat} {i : Instance} (h : Session.open C i = .ok session) :
    session.instance_ = i ∧ session.deliveries = [] := by
  unfold Session.open Coordinator.create at h
  simp only [bind_eq_ok] at h
  obtain ⟨coordinator, ⟨state, -, -, -, hcoordinator⟩, hsession⟩ := h
  cases hcoordinator
  cases hsession
  exact ⟨rfl, rfl⟩

lemma opened_idle {i : Instance}
    (hcreate : Instance.create D m "simulation" 0 (fun _ _ => none) = .ok i)
    (hopen : Session.open (composition D) i = .ok session) :
    Idle (composition D) (tokenCount m) session := by
  obtain ⟨hconstructible, -, rfl⟩ := create_eq_ok.mp hcreate
  obtain ⟨hinstance, hdeliveries⟩ := open_instance hopen
  refine ⟨?_, hdeliveries, ?_⟩
  · rw [hinstance]
    exact .created hconstructible
  · rw [hinstance, weight_initial]

lemma Admitted.visited (h : Admitted D.net m) (hv : Visits D m session) :
    Idle (composition D) (tokenCount m) session := by
  induction hv with
  | opened hcreate hopen => exact opened_idle hcreate hopen
  | advanced _ clock ih => exact (drive_idle h.slender rfl _ ih).1

lemma idle_bounded (hidle : Idle (composition D) (tokenCount m) session) :
    tokenCount session.instance_.marking ≤ tokenCount m ∧
      inputScanBound D.net session.instance_.marking ≤ tokenCount m * maximumIncidence D.net := by
  have hcount : tokenCount session.instance_.marking ≤ tokenCount m := by
    rw [Instance.marking, tokenCount_marking]
    exact (Nat.le_add_right _ _).trans hidle.weight
  exact ⟨hcount, (inputScanBound_le _ _).trans (Nat.mul_le_mul_right _ hcount)⟩

lemma Admitted.checked (h : Admitted D.net m)
    (hidle : Idle (composition D) (tokenCount m) session) :
    checkInputScans D.net session.instance_.marking = .ok () ∧
      checkRetained session.instance_.marking = .ok () := by
  obtain ⟨hcount, hscans⟩ := idle_bounded hidle
  have htokens := h.tokens
  refine ⟨require_true (hscans.trans h.scans), require_true ?_⟩
  unfold maxInitialTokens at htokens
  unfold maxRetainedTokens
  omega

def unchecked : TokenChecks := ⟨fun _ => .ok (), fun _ => .ok ()⟩

lemma Admitted.checkResources_eq (h : Admitted D.net m)
    (hidle : Idle (composition D) (tokenCount m) session) :
    checkResources repr (tokenChecks D.net) session.instance_ =
      checkResources repr unchecked session.instance_ := by
  have hretained : (tokenChecks D.net).retained session.instance_.marking = .ok () :=
    (h.checked hidle).2
  unfold checkResources
  rw [hretained]
  rfl

lemma Admitted.advances_eq (h : Admitted D.net m) (limit : Nat) {run : Run}
    (hidle : Idle (composition D) (tokenCount m) run.session) :
    advances repr D (tokenChecks D.net) limit run = advances repr D unchecked limit run := by
  induction limit generalizing run with
  | zero => rfl
  | succ limit ih =>
    have hscans : (tokenChecks D.net).scans run.session.instance_.marking = .ok () :=
      (h.checked hidle).1
    have hnext := (drive_idle h.slender rfl run.session hidle : Idle (composition D) (tokenCount m)
      (drive (composition D) (host run.clock) run.session).2 ∧ _).1
    have hnone : unchecked.scans run.session.instance_.marking = .ok () := rfl
    unfold advances
    rw [hscans, hnone, ok_bind, ok_bind]
    generalize drive (composition D) (host run.clock) run.session = driven at hnext
    obtain ⟨outcome, session⟩ := driven
    cases outcome with
    | error e => rfl
    | ok outcome =>
      dsimp only at hnext ⊢
      rw [h.checkResources_eq hnext]
      split_ifs
      · rfl
      · refine congrArg _ (funext fun _ => congrArg _ (funext fun _ => ?_))
        exact ih hnext

/-- Admission suffices: along every simulated run the tokens never outnumber the initial ones,
the scans of a step stay within the bound admission computed, and the checks of the loop on the
number of tokens refuse nothing. -/
theorem admission_suffices (hok : admit_ repr built m actions = .ok ())
    (hbound : bindSymbols cel built = .ok bound) :
    (∀ session, Visits bound.definition m session →
      tokenCount session.instance_.marking ≤ tokenCount m ∧
      inputScanBound built.net session.instance_.marking ≤
        tokenCount m * maximumIncidence built.net ∧
      checkInputScans built.net session.instance_.marking = .ok () ∧
      checkRetained session.instance_.marking = .ok ()) ∧
    ∀ limit, execute repr bound.definition (tokenChecks built.net) m limit =
      execute repr bound.definition unchecked m limit := by
  have hadmitted := admitted_of_ok hok
  rw [← bindSymbols_net hbound] at hadmitted ⊢
  refine ⟨?_, ?_⟩
  · intro session hvisits
    have hidle := hadmitted.visited hvisits
    obtain ⟨hcount, hscans⟩ := idle_bounded hidle
    exact ⟨hcount, hscans, hadmitted.checked hidle⟩
  · intro limit
    unfold execute
    cases hcreate : Instance.create bound.definition m "simulation" 0 (fun _ _ => none) with
    | error e => rfl
    | ok i =>
      rw [ok_bind, ok_bind]
      cases hopen : Session.open (composition bound.definition) i with
      | error e => rfl
      | ok session =>
        have hidle := opened_idle hcreate hopen
        have hresources : checkResources repr _ session.instance_ = _ :=
          hadmitted.checkResources_eq hidle
        rw [(open_instance hopen).1] at hresources
        rw [ok_bind, ok_bind, hresources]
        refine congrArg _ (funext fun _ => ?_)
        exact hadmitted.advances_eq limit hidle

/-! ## A sink -/

def tray : NetPath := ⟨"tray", by decide⟩

def drain : NetPath := ⟨"drain", by decide⟩

def sinkNet : Net where
  places := [{ path := tray }]
  transitions := [{ path := drain }]
  arcs := [⟨tray, drain, .consume, 1, none, none, Arc.weight_one⟩]
  valid := by decide

lemma eq_ok_get {ε α : Type} {x : Except ε α} (h : x.toOption.isSome = true) :
    x = .ok (x.toOption.get h) := by
  cases x with
  | error e => cases h
  | ok a => rfl

lemma sinkNet_declares : sinkNet.declarations.toOption.isSome = true := by decide +kernel

def sink : BuiltNet where
  net := sinkNet
  declarations := sinkNet.declarations.toOption.get sinkNet_declares
  completion := none
  handlers := []
  guards := []
  constructed := eq_ok_get sinkNet_declares

def noCel : Cel where
  compileGuard _ _ _ := .ok fun _ => .ok true
  compileFilter _ := .ok fun _ => .ok true
  compileCompletion _ _ := .ok fun _ => .ok true

def sinkMarking : Marking := Marking.ofDict (Dict.ofList [(tray, [Token.black, Token.black])])

/-- Two tokens in front of a transition that takes them one by one. -/
theorem admission_suffices_sink : ∃ bound, bindSymbols noCel sink = .ok bound ∧
    ∀ session, Visits bound.definition sinkMarking session →
      tokenCount session.instance_.marking ≤ 2 := by
  have hok : admit_ (fun _ => "") sink sinkMarking 3 = .ok () := by decide +kernel
  have hcount : tokenCount sinkMarking = 2 := by decide
  obtain ⟨bound, hbound⟩ : ∃ bound, bindSymbols noCel sink = .ok bound := ⟨_, rfl⟩
  refine ⟨bound, hbound, ?_⟩
  intro session hvisits
  have hbounds := (admission_suffices hok hbound).1 session hvisits
  rw [hcount] at hbounds
  exact hbounds.1

end Petrus.Simulation
