import Petrus.Impetus.Deposits.Movement

/-!
# The doors deposit what output arcs admit

Every door keeps a property of the deposited tokens that each output arc asks of
the tokens it admits; so does every run of an instance and every restart.
-/

namespace Petrus.Impetus

open Lib Motus List
open Act (Moves)

variable {P : NetPath → Token → Prop} {D : Definition} {s : Instance}
variable {occurrence : FiringOccurrence}

/-- Every token an output arc admits has `P` at the arc's place. -/
def Net.Routes (net : Net) (P : NetPath → Token → Prop) : Prop :=
  ∀ t, ∀ arc ∈ net.outputs t, ∀ token : Token, arc.admits token.color = true → P arc.target token

/-! ## Scopes -/

lemma openScope_admitting (store : Store) (name : String) (atInstant : Option Instant) :
    Moves (Admitting P) (openScope store name atInstant) := by
  refine door_admitting (commit_admitting store ?_)
  intro s records a hplan
  refine ⟨?_, Moves.bind (modify_admitting fun _ => ⟨rfl, rfl⟩) fun _ =>
    Moves.bind (modify_admitting fun _ => ⟨rfl, rfl⟩) fun _ => Moves.pure _⟩
  unfold openScopePlan at hplan
  split_ifs at hplan
  obtain ⟨_, -, hplan⟩ := bind_eq_ok.mp hplan
  obtain ⟨batch, hbatch, heq⟩ := bind_eq_ok.mp hplan
  cases heq
  exact writerRecords_deposits hbatch (forall_mem_singleton.mpr trivial)

lemma cancelOccurrences_admitting (ids : List Nat) :
    Moves (Admitting P) (cancelOccurrences ids) := by
  induction ids with
  | nil => exact Moves.pure ()
  | cons id ids ih =>
    refine Moves.bind ?_ fun _ => ih
    exact Moves.bind (popInFlight_admitting id) fun _ => modify_admitting fun _ => ⟨rfl, rfl⟩

lemma closeSettle_admitting {p : ClosePlan} (h : p.record.Deposits P) :
    Moves (Admitting P) (closeSettle p) := by
  refine Moves.bind ?_ fun _ => modify_admitting fun _ => ⟨rfl, rfl⟩
  refine Moves.bind (applyMovements_admitting (forall_mem_singleton.mpr h)) fun _ => ?_
  refine Moves.bind (modify_admitting fun _ => ⟨rfl, rfl⟩) fun _ => ?_
  split
  · exact cancelOccurrences_admitting _
  · exact Moves.bind (modify_admitting fun _ => ⟨rfl, rfl⟩) fun _ =>
      cancelOccurrences_admitting _

lemma closeScope_admitting (store : Store) (scope : LifecycleScope)
    (atInstant : Option Instant) :
    Moves (Admitting P) (closeScope store scope atInstant) := by
  refine door_admitting (commit_admitting store ?_)
  intro s records a hplan
  obtain ⟨closure, -, hplan⟩ := bind_eq_ok.mp hplan
  obtain ⟨batch, hbatch, heq⟩ := bind_eq_ok.mp hplan
  cases heq
  exact ⟨writerRecords_deposits hbatch (forall_mem_singleton.mpr trivial),
    Moves.bind (closeSettle_admitting trivial) fun _ => Moves.pure _⟩

lemma resetScope_admitting (store : Store) (scope : LifecycleScope)
    (atInstant : Option Instant) :
    Moves (Admitting P) (resetScope store scope atInstant) := by
  refine door_admitting (commit_admitting store ?_)
  intro s records a hplan
  obtain ⟨closure, -, hplan⟩ := bind_eq_ok.mp hplan
  obtain ⟨batch, hbatch, heq⟩ := bind_eq_ok.mp hplan
  cases heq
  exact ⟨writerRecords_deposits hbatch (forall_mem_singleton.mpr trivial),
    Moves.bind (closeSettle_admitting trivial) fun _ => Moves.pure _⟩

/-! ## Begin -/

lemma beginRecords_deposits {binding : Binding} {entries : BindingEntries}
    {invocation : Option (ActivityInvocation Json)} {occurrence : Nat}
    {scope : Option LifecycleScope} {instant : Instant} :
    ∀ r ∈ beginRecords binding entries invocation occurrence scope instant, r.Deposits P := by
  intro r hr
  simp only [beginRecords, cons_append, mem_cons, mem_append, mem_map] at hr
  rcases hr with rfl | (hconsumed | hread) | ⟨i, -, rfl⟩
  · trivial
  · rw [mem_iff_getElem] at hconsumed
    obtain ⟨i, hi, rfl⟩ := hconsumed
    rw [getElem_zipWith]
    trivial
  · rw [mem_iff_getElem] at hread
    obtain ⟨i, hi, rfl⟩ := hread
    rw [getElem_zipWith]
    trivial
  · trivial

lemma beginOccurrence_admitting (store : Store) (binding : Binding)
    (atInstant : Option Instant) {initiation : Nat → Instant → Record}
    (invocation : Option (ActivityInvocation Json)) (scope : Option LifecycleScope)
    (hinitiation : ∀ n i, (initiation n i).Deposits P) :
    Moves (Admitting P)
      (beginOccurrence store binding atInstant initiation invocation scope) := by
  refine door_admitting (commit_admitting store ?_)
  intro s records a hplan
  obtain ⟨_, -, hplan⟩ := bind_eq_ok.mp hplan
  obtain ⟨entries, -, hplan⟩ := bind_eq_ok.mp hplan
  obtain ⟨provenance, -, hplan⟩ := bind_eq_ok.mp hplan
  obtain ⟨batch, hbatch, heq⟩ := bind_eq_ok.mp hplan
  cases heq
  refine ⟨writerRecords_deposits hbatch
    (forall_mem_cons.mpr ⟨hinitiation _ _, beginRecords_deposits⟩), ?_⟩
  refine Moves.bind (advance_admitting _) fun _ => ?_
  refine Moves.bind (modify_admitting fun _ => ⟨rfl, rfl⟩) fun _ => ?_
  refine Moves.bind (applyMovements_admitting ?_) fun _ =>
    Moves.bind (modify_admitting fun _ => ⟨rfl, rfl⟩) fun _ => Moves.pure _
  intro m hm
  obtain ⟨r, hr, rfl⟩ := mem_map.mp hm
  exact beginRecords_deposits r hr

lemma begin_admitting (store : Store) (binding : Binding) (atInstant : Option Instant) :
    Moves (Admitting P) (begin_ D store binding atInstant) := by
  refine Moves.bind (Moves.lift _) fun _ => Moves.bind (Moves.lift _) fun _ => ?_
  refine Moves.mapError ?_ _
  exact beginOccurrence_admitting store binding atInstant _ none fun _ _ => trivial

/-! ## Reports -/

lemma freezePlan_deposits {outcome : Outcome}
    {atInstant : Option Instant} {records : List Record} {a : TerminalEffect}
    (h : freezePlan s occurrence outcome atInstant = .ok (.batch records a)) :
    ∀ r ∈ records, r.Deposits P := by
  obtain ⟨batch, hbatch, heq⟩ := bind_eq_ok.mp h
  cases heq
  refine writerRecords_deposits hbatch (forall_mem_singleton.mpr ?_)
  cases outcome with
  | completed result => trivial
  | failed failure => trivial

lemma quarantineTerminal_deposits {outcome : Json}
    {atInstant : Option Instant} {records : List Record} {a : TerminalEffect}
    (h : quarantineTerminal s occurrence outcome atInstant = .ok (.batch records a)) :
    ∀ r ∈ records, r.Deposits P := by
  obtain ⟨_, -, h⟩ := bind_eq_ok.mp h
  split at h
  · cases h
  · split at h
    · obtain ⟨_, -, heq⟩ := bind_eq_ok.mp h
      cases heq
    · obtain ⟨batch, hbatch, heq⟩ := bind_eq_ok.mp h
      cases heq
      exact writerRecords_deposits hbatch (forall_mem_singleton.mpr trivial)

lemma terminalSettle_admitting (a : TerminalEffect) :
    Moves (Admitting P) (terminalSettle a) := by
  cases a with
  | frozen | quarantined =>
    exact Moves.bind (advance_admitting _) fun _ =>
      Moves.bind (modify_admitting fun _ => ⟨rfl, rfl⟩) fun _ => Moves.pure _

lemma recordActivityCompletion_admitting (store : Store) (occurrence : FiringOccurrence)
    (result : Payload) (atInstant : Option Instant) :
    Moves (Admitting P) (recordActivityCompletion store occurrence result atInstant) := by
  refine door_admitting (commit_admitting store ?_)
  intro s records a h
  refine ⟨?_, terminalSettle_admitting a⟩
  unfold recordActivityCompletionPlan at h
  dsimp only at h
  split at h
  · obtain ⟨_, -, h⟩ := bind_eq_ok.mp h
    exact quarantineTerminal_deposits h
  · split at h
    · obtain ⟨_, -, h⟩ := bind_eq_ok.mp h
      obtain ⟨_, -, heq⟩ := bind_eq_ok.mp h
      cases heq
    · obtain ⟨_, -, h⟩ := bind_eq_ok.mp h
      obtain ⟨_, -, h⟩ := bind_eq_ok.mp h
      obtain ⟨_, -, h⟩ := bind_eq_ok.mp h
      split at h
      · obtain ⟨_, -, heq⟩ := bind_eq_ok.mp h
        cases heq
      · exact freezePlan_deposits h

lemma recordActivityFailure_admitting (store : Store) (occurrence : FiringOccurrence)
    (failure : ActivityFailure) (atInstant : Option Instant) :
    Moves (Admitting P) (recordActivityFailure store occurrence failure atInstant) := by
  refine door_admitting (commit_admitting store ?_)
  intro s records a h
  refine ⟨?_, terminalSettle_admitting a⟩
  unfold recordActivityFailurePlan at h
  split at h
  · exact quarantineTerminal_deposits h
  · split at h
    · obtain ⟨_, -, heq⟩ := bind_eq_ok.mp h
      cases heq
    · obtain ⟨_, -, h⟩ := bind_eq_ok.mp h
      obtain ⟨_, -, h⟩ := bind_eq_ok.mp h
      split at h
      · obtain ⟨_, -, heq⟩ := bind_eq_ok.mp h
        cases heq
      · exact freezePlan_deposits h

/-! ## Ends -/

lemma completeFiring_routed (hnet : D.net.Routes P) {t : NetPath}
    {tokens : List (Destination × List Token)} {effects : List Selection}
    (h : completeFiring D.net t tokens = .ok effects) :
    ∀ e ∈ effects, ∀ token ∈ e.2, P e.1 token := by
  intro e he token htoken
  obtain ⟨-, -, hrouted⟩ := mem_completeFiring h
  obtain ⟨arc, harc, hadmits⟩ := any_eq_true.mp (hrouted e he token htoken)
  rw [Bool.and_eq_true, decide_eq_true_eq] at hadmits
  rw [← hadmits.1]
  exact hnet t arc harc token hadmits.2

lemma mem_numbered {next : Nat} {effects : List Selection} {e : Selection × List Nat}
    (h : e ∈ numbered next effects) : e.1 ∈ effects := by
  induction effects generalizing next with
  | nil => cases h
  | cons effect effects ih =>
    rw [numbered, mem_cons] at h
    rcases h with rfl | h
    · exact mem_cons_self
    · exact mem_cons_of_mem _ (ih h)

lemma completionRecords_deposits
    {effects : List (Selection × List Nat)} {closes opens : List DeliveryRegistration}
    {instant : Instant} (h : ∀ e ∈ effects, ∀ token ∈ e.1.2, P e.1.1 token) :
    ∀ r ∈ completionRecords occurrence effects closes opens instant, r.Deposits P := by
  intro r hr
  simp only [completionRecords, mem_append, mem_map, mem_singleton] at hr
  rcases hr with ((⟨e, he, rfl⟩ | ⟨c, -, rfl⟩) | ⟨o, -, rfl⟩) | rfl
  · exact h e he
  · trivial
  · trivial
  · trivial

lemma commitCompletion_admitting (hnet : D.net.Routes P) (store : Store)
    (occurrence : FiringOccurrence) (result : Option HandlerResult)
    (atInstant : Option Instant) :
    Moves (Admitting P) (commitCompletion D store occurrence result atInstant) := by
  refine commit_admitting store ?_
  intro s records a h
  obtain ⟨_, -, h⟩ := bind_eq_ok.mp h
  obtain ⟨envelope, -, h⟩ := bind_eq_ok.mp h
  obtain ⟨after, -, h⟩ := bind_eq_ok.mp h
  obtain ⟨effects, heffects, h⟩ := bind_eq_ok.mp h
  obtain ⟨appended, happended, heq⟩ := bind_eq_ok.mp h
  cases heq
  have hrecords : ∀ r ∈ records, r.Deposits P :=
    writerRecords_deposits happended (completionRecords_deposits fun e he =>
      completeFiring_routed hnet heffects e.1 (mem_numbered he))
  refine ⟨hrecords, ?_⟩
  refine Moves.bind (advance_admitting _) fun _ => ?_
  refine Moves.bind (modify_admitting fun _ => ⟨rfl, rfl⟩) fun _ => ?_
  refine Moves.bind (applyMovements_admitting fun m hm => ?_) fun _ => ?_
  · exact hrecords m.1 (mem_filter.mp (of_mem_zip hm).1).1
  refine Moves.bind (modify_admitting fun _ => ⟨rfl, rfl⟩) fun _ => ?_
  split_ifs
  · exact Moves.bind (settleOutcome_admitting _) fun _ =>
      Moves.bind (popInFlight_admitting _) fun _ => Moves.pure _
  · exact Moves.bind (popInFlight_admitting _) fun _ => Moves.pure _

lemma complete_admitting (hnet : D.net.Routes P) (store : Store)
    (occurrence : FiringOccurrence) (result : Option HandlerResult)
    (atInstant : Option Instant) :
    Moves (Admitting P) (complete D store occurrence result atInstant) :=
  door_admitting (commitCompletion_admitting hnet store occurrence result atInstant)

lemma failPlan_admitting (store : Store) (occurrence : FiringOccurrence)
    (failure : ActivityFailure) (atInstant : Option Instant) :
    Moves (Admitting P) (door (commit store (failPlan occurrence failure atInstant)
      failSettle)) := by
  refine door_admitting (commit_admitting store ?_)
  intro s records a h
  obtain ⟨batch, hbatch, heq⟩ := bind_eq_ok.mp h
  cases heq
  refine ⟨writerRecords_deposits hbatch (forall_mem_singleton.mpr trivial), ?_⟩
  refine Moves.bind (modify_admitting fun _ => ⟨rfl, rfl⟩) fun _ => ?_
  split_ifs
  · exact Moves.bind (settleOutcome_admitting _) fun _ =>
      Moves.bind (popInFlight_admitting _) fun _ => Moves.pure _
  · exact Moves.bind (popInFlight_admitting _) fun _ => Moves.pure _

lemma fail_admitting (hnet : D.net.Routes P) (store : Store) (occurrence : FiringOccurrence)
    (report : FailureReport) (atInstant : Option Instant) :
    Moves (Admitting P) (fail D store occurrence report atInstant) := by
  refine Moves.bind Moves.get fun s => Moves.bind (Moves.lift _) fun failure => ?_
  have hend : Moves (Admitting P)
      (if occurrence.invocation ≠ none ∧ projectsFailure D occurrence.binding.transition = true then
        (do let _ ← complete D store occurrence none atInstant; pure ())
      else door (commit store (failPlan occurrence failure atInstant) failSettle)) := by
    split_ifs
    · exact Moves.bind (complete_admitting hnet store occurrence none atInstant) fun _ =>
        Moves.pure ()
    · exact failPlan_admitting store occurrence failure atInstant
  split_ifs at hend ⊢ with hfrozen hprojects
  all_goals first
    | exact hend
    | exact Moves.bind (recordActivityFailure_admitting store occurrence failure atInstant)
        fun _ => hend

lemma execute_admitting (hnet : D.net.Routes P) (store : Store) (occurrence : FiringOccurrence)
    (atInstant : Option Instant) :
    Moves (Admitting P) (execute D store occurrence atInstant) := by
  unfold execute
  dsimp only
  split
  · exact Moves.throw _
  · refine Moves.catching (Moves.bind ((Moves.lift _).mapError _) fun result =>
      commitCompletion_admitting hnet store occurrence result atInstant) fun e => ?_
    cases e with
    | refused e => exact Moves.throw _
    | raised e =>
      refine Moves.bind Moves.get fun s => ?_
      split_ifs
      · exact Moves.bind (fail_admitting hnet store occurrence _ atInstant) fun _ =>
          Moves.throw _
      · exact Moves.throw _

lemma step_admitting (hnet : D.net.Routes P) (store : Store) (atInstant : Option Instant) :
    Moves (Admitting P) (step D store atInstant) := by
  refine Moves.bind Moves.get fun s => Moves.bind (Moves.lift _) fun enabled => ?_
  refine Moves.bind (Moves.lift _) fun binding? => ?_
  cases binding? with
  | none => exact Moves.pure _
  | some binding =>
    dsimp only
    split_ifs
    · exact Moves.throw _
    · exact Moves.bind (begin_admitting store binding atInstant) fun occurrence =>
        Moves.bind (execute_admitting hnet store occurrence none) fun _ => Moves.pure _

/-! ## Deliveries, seals and wakeups -/

lemma disposition_admitting (store : Store) (fact : AcceptedDeliveryFact)
    (answer : DeliveryAnswer) (instant : Instant) :
    Moves (Admitting P) (door (commit store (fun _ => dispositionPlan fact answer instant)
      dispositionSettle)) := by
  refine door_admitting (commit_admitting store ?_)
  intro s records a h
  obtain ⟨batch, hbatch, heq⟩ := bind_eq_ok.mp h
  cases heq
  refine ⟨writerRecords_deposits hbatch (forall_mem_singleton.mpr ?_), ?_⟩
  · cases fact <;> trivial
  · exact Moves.bind (advance_admitting _) fun _ =>
      Moves.bind (modify_admitting fun _ => ⟨rfl, rfl⟩) fun _ => Moves.pure _

lemma acceptDelivery_admitting (store : Store) (r : DeliveryRequest) :
    Moves (Admitting P) (acceptDelivery D store r) := by
  refine Moves.bind (Moves.lift _) fun d => Moves.bind Moves.get fun s => ?_
  split
  · exact Moves.bind (Moves.lift _) fun _ => Moves.pure _
  · refine Moves.bind Moves.get fun s => Moves.bind (Moves.lift _) fun _ => ?_
    dsimp only
    split
    · exact disposition_admitting store _ _ _
    · exact disposition_admitting store _ _ _
    · refine Moves.bind (Moves.lift _) fun _ => ?_
      refine Moves.bind (beginOccurrence_admitting store _ _ none _ fun _ _ => trivial)
        fun _ => Moves.bind (modify_admitting fun _ => ⟨rfl, rfl⟩) fun _ => ?_
      exact Moves.bind Moves.get fun _ => Moves.pure _

lemma completeDelivery_admitting (hnet : D.net.Routes P) (store : Store) (a : AcceptedDelivery)
    (atInstant : Option Instant) :
    Moves (Admitting P) (completeDelivery D store a atInstant) :=
  Moves.bind Moves.get fun _ => Moves.bind (Moves.lift _) fun occurrence =>
    execute_admitting hnet store occurrence atInstant

lemma sealSource_admitting (store : Store) (source : Destination) (atInstant : Option Instant) :
    Moves (Admitting P) (sealSource D store source atInstant) := by
  refine door_admitting (commit_admitting store ?_)
  intro s records a h
  obtain ⟨path, -, h⟩ := bind_eq_ok.mp h
  obtain ⟨_, -, h⟩ := bind_eq_ok.mp h
  obtain ⟨_, -, h⟩ := bind_eq_ok.mp h
  obtain ⟨_, -, h⟩ := bind_eq_ok.mp h
  obtain ⟨batch, hbatch, heq⟩ := bind_eq_ok.mp h
  cases heq
  refine ⟨writerRecords_deposits hbatch ?_,
    Moves.bind (advance_admitting _) fun _ => modify_admitting fun _ => ⟨rfl, rfl⟩⟩
  intro r hr
  obtain ⟨key, -, rfl⟩ := mem_map.mp hr
  trivial

lemma wake_admitting (store : Store) (atInstant : Instant) :
    Moves (Admitting P) (wake D store atInstant) := by
  refine door_admitting (commit_admitting store ?_)
  intro s records a h
  refine ⟨?_, Moves.bind (advance_admitting _) fun _ => Moves.pure _⟩
  obtain ⟨pending, -, h⟩ := bind_eq_ok.mp h
  split at h
  · cases h
  · dsimp only at h
    split_ifs at h
    · cases h
    · obtain ⟨batch, hbatch, heq⟩ := bind_eq_ok.mp h
      cases heq
      exact writerRecords_deposits hbatch (forall_mem_singleton.mpr trivial)

/-! ## Runs -/

lemma resume_queues {history : History} (hok : resume D history = .ok s) :
    s.history = history ∧ replayQueues history.flatten = .ok s.queues := by
  obtain ⟨_, -, hok⟩ := bind_eq_ok.mp hok
  obtain ⟨_, -, hok⟩ := bind_eq_ok.mp hok
  obtain ⟨_, -, hok⟩ := bind_eq_ok.mp hok
  obtain ⟨_, -, hok⟩ := bind_eq_ok.mp hok
  obtain ⟨_, -, hok⟩ := bind_eq_ok.mp hok
  obtain ⟨_, -, hok⟩ := bind_eq_ok.mp hok
  obtain ⟨queues, hqueues, hok⟩ := bind_eq_ok.mp hok
  repeat obtain ⟨_, -, hok⟩ := bind_eq_ok.mp hok
  cases hok
  exact ⟨rfl, hqueues⟩

lemma resume_admitted {history : History} (h : ∀ r ∈ history.flatten, r.Deposits P)
    (hok : resume D history = .ok s) : s.Admitted P := by
  obtain ⟨rfl, hqueues⟩ := resume_queues hok
  exact ⟨Queues.Hold.replayed h hqueues, h⟩

lemma Op.perform_admitted (hnet : D.net.Routes P) (store : Store) (op : Op)
    (hs : s.Admitted P) : (op.perform D store s).Admitted P := by
  cases op with
  | begin_ binding atInstant => exact begin_admitting store binding atInstant s hs
  | recordActivityCompletion occurrence result atInstant =>
    exact recordActivityCompletion_admitting store occurrence result atInstant s hs
  | recordActivityFailure occurrence failure atInstant =>
    exact recordActivityFailure_admitting store occurrence failure atInstant s hs
  | complete occurrence result atInstant =>
    exact complete_admitting hnet store occurrence result atInstant s hs
  | fail occurrence report atInstant =>
    exact fail_admitting hnet store occurrence report atInstant s hs
  | step atInstant => exact step_admitting hnet store atInstant s hs
  | acceptDelivery r => exact acceptDelivery_admitting store r s hs
  | completeDelivery a atInstant => exact completeDelivery_admitting hnet store a atInstant s hs
  | sealSource source atInstant => exact sealSource_admitting store source atInstant s hs
  | wake atInstant => exact wake_admitting store atInstant s hs
  | openScope name atInstant => exact openScope_admitting store name atInstant s hs
  | closeScope scope atInstant => exact closeScope_admitting store scope atInstant s hs
  | resetScope scope atInstant => exact resetScope_admitting store scope atInstant s hs
  | resume =>
    unfold Op.perform
    dsimp only
    split
    · rename_i t hok
      exact resume_admitted hs.recorded hok
    · exact hs

lemma Runs.admitted {allowed : Instance → Op → Prop} {t : Instance} (hnet : D.net.Routes P)
    (h : Runs D allowed s t) (hs : s.Admitted P) : t.Admitted P := by
  induction h with
  | refl => exact hs
  | perform _ store op _ ih => exact op.perform_admitted hnet store ih

end Petrus.Impetus
