import Petrus.Impetus.Instance.Reached

/-!
# Doors refine commits

A door either leaves the instance as it was or performs one commit, and it raises
only in the first case. The rule below derives this for every door from one fact:
whatever batch its plan proposes is the batch of a commit, and settling that batch
returns normally in the state the commit leaves.
-/

namespace Petrus.Impetus

open Lib Motus Act

variable {D : Definition} {s : Instance} {t : Instance} {Q : ∀ s, Commit D s → Prop}

/-! ## The rule -/

/-- The outcome of a door that commits at most once; `P` relates the commit to what it returns. -/
inductive AtMostOne {ε α : Type} (P : Commit D s → α → Prop) : Except ε α × Instance → Prop
  | still (r : Except ε α) : AtMostOne P (r, s)
  | moved (a : α) (c : Commit D s) (holds : P c a) (checked : ∀ r ∈ c.batch, r.check = .ok ()) :
      AtMostOne P (.ok a, c.after)

namespace AtMostOne

variable {ε ε' α β : Type} {P Q : Commit D s → α → Prop} {r : Except ε α × Instance}

lemma mono (h : AtMostOne P r) (hpq : ∀ c a, P c a → Q c a) : AtMostOne Q r := by
  cases h with
  | still r => exact .still r
  | moved a c holds checked => exact .moved a c (hpq c a holds) checked

lemma raised {e : ε} (h : AtMostOne P ((.error e : Except ε α), t)) : t = s := by
  cases h
  rfl

lemma mapError {m : Act Instance ε α} (h : AtMostOne P (m s)) (f : ε → ε') :
    AtMostOne P (Act.mapError f m s) := by
  unfold Act.mapError
  generalize m s = r at h
  cases h with
  | still r => cases r <;> exact .still _
  | moved a c holds checked => exact .moved a c holds checked

lemma lift_bind {x : Except ε β} {m : β → Act Instance ε α}
    (h : ∀ b, x = .ok b → AtMostOne P (m b s)) : AtMostOne P ((Act.lift x >>= m) s) := by
  cases x with
  | error e => exact .still _
  | ok b => exact h b rfl

end AtMostOne

def Instance.appended (s : Instance) (batch : List Record) : Instance :=
  { s with history := s.history ++ [batch] }

/-- The planned batch is that of a commit meeting `P`, and settling it leads to its state. -/
def Settles {α β : Type} (P : Commit D s → β → Prop) (plan : Except Exc (Plan α β))
    (settle : α → Door β) : Prop :=
  ∀ records a, plan = .ok (.batch records a) → ∃ (c : Commit D s) (b : β), P c b ∧
    c.batch = records ∧ (∀ r ∈ records, r.check = .ok ()) ∧
      settle a (s.appended records) = (.ok b, c.after)

lemma Settles.mono {α β : Type} {P Q : Commit D s → β → Prop} {plan : Except Exc (Plan α β)}
    {settle : α → Door β} (h : Settles P plan settle) (hpq : ∀ c b, P c b → Q c b) :
    Settles Q plan settle := by
  intro records a hplan
  obtain ⟨c, b, hp, hrest⟩ := h records a hplan
  exact ⟨c, b, hpq c b hp, hrest⟩

lemma Settles.answer {α β : Type} {P : Commit D s → β → Prop} {settle : α → Door β}
    {x : Except Exc Unit} {b : β} :
    Settles P (x >>= fun _ => (pure (.answer b) : Except Exc (Plan α β))) settle := by
  intro records a hplan
  obtain ⟨_, -, heq⟩ := bind_eq_ok.mp hplan
  cases heq

lemma Settles.bind {α β γ : Type} {P : Commit D s → β → Prop} {x : Except Exc γ}
    {plan : γ → Except Exc (Plan α β)} {settle : α → Door β}
    (h : ∀ c, x = .ok c → Settles P (plan c) settle) : Settles P (x >>= plan) settle := by
  intro records a hplan
  obtain ⟨c, hc, hplan⟩ := bind_eq_ok.mp hplan
  exact h c hc records a hplan

section Commit

variable {α β : Type} {P : Commit D s → β → Prop} {plan : Instance → Except Exc (Plan α β)}
  {settle : α → Door β} {store : Store} {records : List Record} {a : α} {b : β}

lemma commit_raised {e : Exc} (h : plan s = .error e) :
    commit store plan settle s = (.error (.raised e), s) := by
  unfold commit
  rw [get_bind_apply, h]
  rfl

lemma commit_answer (h : plan s = .ok (.answer b)) :
    commit store plan settle s = (.ok b, s) := by
  unfold commit
  rw [get_bind_apply, h]
  rfl

lemma commit_refused {e : Exc} (h : plan s = .ok (.batch records a))
    (hstore : store s.history records = some e) :
    commit store plan settle s = (.error (.refused e), s) := by
  unfold commit
  rw [get_bind_apply, h]
  change (append store records >>= fun _ => Act.mapError Failure.raised (settle a)) s = _
  apply bind_error_apply
  unfold append
  rw [hstore]

lemma commit_settled (h : plan s = .ok (.batch records a))
    (hstore : store s.history records = none)
    (hsettle : settle a (s.appended records) = (.ok b, t)) :
    commit store plan settle s = (.ok b, t) := by
  have happend : append store records s = (.ok (), s.appended records) := by
    unfold append
    rw [hstore]
    rfl
  unfold commit
  rw [get_bind_apply, h]
  change (append store records >>= fun _ => Act.mapError Failure.raised (settle a)) s = _
  rw [bind_ok_apply happend, Act.mapError, hsettle]

lemma door_raised {e : Exc} (h : plan s = .error e) :
    door (commit store plan settle) s = (.error e, s) :=
  mapError_eq_error (commit_raised h)

lemma door_refused {e : Exc} (h : plan s = .ok (.batch records a))
    (hstore : store s.history records = some e) :
    door (commit store plan settle) s = (.error e, s) :=
  mapError_eq_error (commit_refused h hstore)

lemma door_settled (h : plan s = .ok (.batch records a))
    (hstore : store s.history records = none)
    (hsettle : settle a (s.appended records) = (.ok b, t)) :
    door (commit store plan settle) s = (.ok b, t) :=
  mapError_eq_ok.mpr (commit_settled h hstore hsettle)

lemma commit_atMostOne (store : Store) (h : Settles P (plan s) settle) :
    AtMostOne P (commit store plan settle s) := by
  cases hplan : plan s with
  | error e =>
    rw [commit_raised hplan]
    exact .still _
  | ok p =>
    cases p with
    | answer b =>
      rw [commit_answer hplan]
      exact .still _
    | batch records a =>
      cases hstore : store s.history records with
      | some e =>
        rw [commit_refused hplan hstore]
        exact .still _
      | none =>
        obtain ⟨c, b, hp, rfl, hchecked, hsettle⟩ := h records a hplan
        rw [commit_settled hplan hstore hsettle]
        exact .moved b c hp hchecked

lemma door_atMostOne (store : Store) (h : Settles P (plan s) settle) :
    AtMostOne P (door (commit store plan settle) s) :=
  (commit_atMostOne store h).mapError Failure.exc

lemma door_returned (h : Settles P (plan s) settle) (hbatch : ∀ b, plan s ≠ .ok (.answer b))
    (hok : door (commit store plan settle) s = (.ok b, t)) :
    ∃ c : Commit D s, P c b ∧ (∀ r ∈ c.batch, r.check = .ok ()) ∧ t = c.after := by
  have hok := mapError_eq_ok.mp hok
  cases hplan : plan s with
  | error e =>
    rw [commit_raised hplan] at hok
    cases hok
  | ok p =>
    cases p with
    | answer b => exact absurd hplan (hbatch b)
    | batch records a =>
      cases hstore : store s.history records with
      | some e =>
        rw [commit_refused hplan hstore] at hok
        cases hok
      | none =>
        obtain ⟨c, b, hp, rfl, hchecked, hsettle⟩ := h records a hplan
        rw [commit_settled hplan hstore hsettle] at hok
        cases hok
        exact ⟨c, hp, hchecked, rfl⟩

end Commit

/-! ## Several commits -/

/-- `t` is reached from `s` by commits meeting `P`. -/
inductive Chain (D : Definition) (P : ∀ s, Commit D s → Prop) (s : Instance) : Instance → Prop
  | refl : Chain D P s s
  | commit {t : Instance} (h : Chain D P s t) (c : Commit D t) (holds : P t c)
      (checked : ∀ r ∈ c.batch, r.check = .ok ()) : Chain D P s c.after

namespace Chain

variable {P : ∀ s, Commit D s → Prop} {u : Instance}

lemma trans (h : Chain D P s t) (h' : Chain D P t u) : Chain D P s u := by
  induction h' with
  | refl => exact h
  | commit _ c holds checked ih => exact ih.commit c holds checked

lemma weaken (h : Chain D P s t) (hpq : ∀ u c, P u c → Q u c) :
    Chain D Q s t := by
  induction h with
  | refl => exact .refl
  | commit _ c holds checked ih => exact ih.commit c (hpq _ c holds) checked

lemma mono (h : Chain D P s t) (hs : Reached D s)
    (hpq : ∀ u c, Reached D u → P u c → Q u c) : Chain D Q s t ∧ Reached D t := by
  induction h with
  | refl => exact ⟨.refl, hs⟩
  | commit _ c holds checked ih =>
    exact ⟨ih.1.commit c (hpq _ c ih.2 holds) checked, ih.2.commit c checked⟩

lemma reached (h : Chain D P s t) (hs : Reached D s) : Reached D t := by
  induction h with
  | refl => exact hs
  | commit _ c _ checked ih => exact ih.commit c checked

end Chain

lemma AtMostOne.chain {ε α : Type} {P : Commit D s → α → Prop}
    {r : Except ε α × Instance} (h : AtMostOne P r) (hpq : ∀ c a, P c a → Q s c) :
    Chain D Q s r.2 := by
  cases h with
  | still r => exact .refl
  | moved a c holds checked => exact Chain.refl.commit c (hpq c a holds) checked

lemma Chain.bind {ε α β : Type} {P : ∀ s, Commit D s → Prop} {m : Act Instance ε α}
    {f : α → Act Instance ε β} (hm : Chain D P s (m s).2)
    (hf : ∀ a t, m s = (.ok a, t) → Chain D P t (f a t).2) : Chain D P s ((m >>= f) s).2 := by
  rw [bind_apply]
  generalize m s = r at hm hf
  obtain ⟨x, t⟩ := r
  cases x with
  | error e => exact hm
  | ok a => exact hm.trans (hf a t rfl)

lemma Chain.catching {ε ε' α : Type} {P : ∀ s, Commit D s → Prop} {m : Act Instance ε α}
    {f : ε → Act Instance ε' α} (hm : Chain D P s (m s).2)
    (hf : ∀ e t, m s = (.error e, t) → Chain D P t (f e t).2) :
    Chain D P s (Act.catching m f s).2 := by
  unfold Act.catching
  generalize m s = r at hm hf
  obtain ⟨x, t⟩ := r
  cases x with
  | error e => exact hm.trans (hf e t rfl)
  | ok a => exact hm

/-! ## Settling -/

lemma applyMovements_ok {movements : List (Record × List Nat)} {queues : Queues}
    (h : movements.foldlM (fun queues m => applyMovement queues m.1 m.2) t.queues = .ok queues) :
    applyMovements movements t = (.ok (), { t with queues }) := by
  apply each_ok
  induction movements generalizing t with
  | nil =>
    cases h
    rfl
  | cons movement movements ih =>
    obtain ⟨mid, hmid, hrest⟩ := foldlM_cons_eq_ok.mp h
    rw [foldlM_cons_eq_ok]
    exact ⟨{ t with queues := mid }, by rw [hmid]; rfl, ih (t := { t with queues := mid }) hrest⟩

lemma popInFlight_ok {id : Nat} {occurrence : FiringOccurrence}
    (h : t.inFlight.get? id = some occurrence) :
    popInFlight id t = (.ok occurrence, { t with inFlight := t.inFlight.erase id }) := by
  unfold popInFlight
  rw [get_bind_apply]
  simp only [h]
  rfl

lemma settleOutcome_ok {id : Nat} {outcome : Outcome} (h : t.frozenResults.get? id = some outcome) :
    settleOutcome id t = (.ok (), { t with
      frozenResults := t.frozenResults.erase id
      terminalActivity := t.terminalActivity.set id outcome }) := by
  unfold settleOutcome
  rw [get_bind_apply]
  simp only [h]
  rfl

lemma Instance.watermark_le_effective (s : Instance) (atInstant : Option Instant) :
    s.watermark ≤ s.effective atInstant := by
  cases atInstant with
  | none => exact le_rfl
  | some i => exact le_max_right _ _

end Petrus.Impetus
