import Petrus.Impetus.Doors.Delivery
import Petrus.Impetus.Replay.Sources

/-!
# The built-in passthrough is an exact completion

What the built-in passthrough routes is what a completion then deposits: every
destination is new, and every token is admitted by an arc to its place. The inline
drivers therefore only make exact completions.
-/

namespace Petrus.Impetus

open Lib Motus List Dict

variable {D : Definition} {s : Instance}

/-! ## Routing -/

/-- Every routed place has tokens, and every token an admitting arc to its place. -/
def Routed (outputs : List Arc) (d : Dict NetPath (List Token)) : Prop :=
  ∀ e ∈ d.entries, e.2 ≠ [] ∧ ∀ token ∈ e.2,
    outputs.any (fun arc => arc.target = e.1 && arc.admits token.color) = true

lemma Routed.set {outputs : List Arc} {d : Dict NetPath (List Token)} (h : Routed outputs d)
    {arc : Arc} (harc : arc ∈ outputs) {tokens : List Token} (hne : tokens ≠ [])
    (hadmits : ∀ token ∈ tokens, arc.admits token.color = true) :
    Routed outputs (d.set arc.target ((d.get? arc.target).getD [] ++ tokens)) := by
  intro e he
  have hget := get?_eq_some.mpr he
  rw [get?_set] at hget
  split_ifs at hget with hkey
  · have hvalue := Option.some.inj hget
    rw [← hkey, ← hvalue]
    refine ⟨append_ne_nil_of_right_ne_nil _ hne, ?_⟩
    intro token htoken
    rcases mem_append.mp htoken with hold | hnew
    · cases hprior : d.get? arc.target with
      | none => simp [hprior] at hold
      | some prior =>
        rw [hprior] at hold
        exact (h (arc.target, prior) (get?_eq_some.mp hprior)).2 token hold
    · rw [any_eq_true]
      exact ⟨arc, harc, by simp [hadmits token hnew]⟩
  · exact h e (get?_eq_some.mp hget)

lemma routed_route (tokens : List Token) (outputs : List Arc) :
    Routed outputs (route tokens outputs) := by
  -- The arcs still to come are arcs of the transition, whatever was routed before.
  have hfold : ∀ (arcs : List Arc) (d : Dict NetPath (List Token)), (∀ arc ∈ arcs, arc ∈ outputs) →
      Routed outputs d → Routed outputs (arcs.foldl (fun routed arc =>
        let admitted := tokens.filter fun token => arc.admits token.color
        if admitted = [] then routed
        else routed.set arc.target ((routed.get? arc.target).getD [] ++ admitted)) d) := by
    intro arcs
    induction arcs with
    | nil => exact fun d _ hd => hd
    | cons arc arcs ih =>
      intro d hmem hd
      rw [forall_mem_cons] at hmem
      apply ih _ hmem.2
      dsimp only
      split_ifs with hadmitted
      · exact hd
      · exact hd.set hmem.1 hadmitted fun token htoken => (mem_filter.mp htoken).2
  apply hfold outputs Dict.empty fun arc harc => harc
  intro e he
  cases he

/-! ## Depositing what was routed -/

lemma emitted_entries (d : Dict NetPath (List Token)) :
    emitted (d.entries.map fun e => (.path e.1, e.2)) = .ok d := by
  -- Destinations of one mapping are distinct, so each is emitted after the ones before it.
  have hfold : ∀ (todo : List (NetPath × List Token)) (acc : Dict NetPath (List Token)),
      ((acc.entries ++ todo).map Prod.fst).Nodup →
      (todo.map fun e => (Destination.path e.1, e.2)).foldlM (fun emitted e => do
        let place ← e.1.resolve
        return emitted.set place ((emitted.get? place).getD [] ++ e.2)) acc =
          (.ok (todo.foldl (fun d e => d.set e.1 e.2) acc) : Except Exc _) := by
    intro todo
    induction todo with
    | nil => exact fun acc _ => rfl
    | cons e todo ih =>
      intro acc hn
      have habsent : acc.get? e.1 = none := by
        rw [get?_eq_none]
        intro hmem
        rw [map_append, nodup_append] at hn
        exact hn.2.2 e.1 hmem e.1 mem_cons_self rfl
      have hstep : (do
          let place ← (Destination.path e.1).resolve
          return acc.set place ((acc.get? place).getD [] ++ e.2) : Except Exc _) =
            .ok (acc.set e.1 e.2) := by
        simp [Destination.resolve, habsent]
      rw [map_cons, foldlM_cons_ok hstep, foldl_cons]
      apply ih
      rw [entries_set_of_absent habsent, append_assoc]
      exact hn
  have hn : (((Dict.empty : Dict NetPath (List Token)).entries ++ d.entries).map Prod.fst).Nodup :=
    d.nodup
  have hall := hfold d.entries Dict.empty hn
  rw [show d.entries.foldl (fun d e => d.set e.1 e.2) Dict.empty = d from ofList_entries d]
    at hall
  exact hall

lemma deposited_admitted {outputs : List Arc} {e : Selection}
    (h : ∀ token ∈ e.2,
      outputs.any (fun arc => arc.target = e.1 && arc.admits token.color) = true) :
    deposited outputs e.1 e.2 = e.2 := filter_eq_self.mpr h

lemma completeFiring_passthrough (net : Net) (t : NetPath) (binding : Binding) :
    completeFiring net t ((passthrough binding (net.outputs t)).entries.map
      fun e => (.path e.1, e.2)) = .ok (passthrough binding (net.outputs t)).entries := by
  have hrouted := routed_route binding.tokens (net.outputs t)
  unfold completeFiring
  rw [emitted_entries, ok_bind]
  have hmap : (passthrough binding (net.outputs t)).entries.map
      (fun e => (e.1, deposited (net.outputs t) e.1 e.2)) =
        (passthrough binding (net.outputs t)).entries := by
    rw [map_congr_left (g := id), map_id]
    intro e he
    rw [deposited_admitted (hrouted e he).2]
    rfl
  rw [hmap]
  exact congrArg Except.ok (filter_eq_self.mpr fun e he => decide_eq_true (hrouted e he).1)

/-! ## Exact completions -/

lemma Reached.source_pure (hs : Reached D s) {id : Nat} {o : FiringOccurrence}
    (ho : s.inFlight.get? id = some o) (hsource : D.net.isSource o.binding.transition = true) :
    o.invocation = none := by
  have hbound := hs.bound id o ho
  rw [Definition.activityBound_source hsource] at hbound
  exact Option.isNone_iff_eq_none.mp (by simpa using hbound)

lemma Completed.exact_of_impure (hs : Reached D s) (c : Completed D s)
    (himpure : c.occurrence.invocation ≠ none) : c.Exact := by
  intro hsource
  exact absurd (hs.source_pure c.inFlight hsource) himpure

lemma CompletesWith.exact (hs : Reached D s) {occurrence : FiringOccurrence}
    {result : Option HandlerResult} {c : Completed D s} (h : CompletesWith occurrence result c)
    (hresult : D.net.isSource c.occurrence.binding.transition = true →
      D.declaresHandler c.occurrence.binding.transition = false → ∀ envelope,
      result = some envelope → envelope.closes = [] ∧ envelope.opens = [] ∧ ∀ effects,
        completeFiring D.net c.occurrence.binding.transition envelope.tokens = .ok effects →
          productionSpelling effects = productionSpelling (passthrough c.occurrence.binding
            (D.net.outputs c.occurrence.binding.transition)).entries) : c.Exact := by
  intro hsource hdeclares
  have hsame := sameFiring h.equals
  have hpure : occurrence.invocation = none := by
    by_contra himpure
    exact hsame.impure.mpr himpure (hs.source_pure c.inFlight hsource)
  obtain ⟨envelope, hprojected, heffects, hcloses, hopens⟩ := h.projected
  obtain ⟨hnoCloses, hnoOpens, hspelling⟩ :=
    hresult hsource hdeclares envelope (projection_pure hprojected hpure)
  rw [hnoCloses] at hcloses
  rw [hnoOpens] at hopens
  rw [← hsame.transition] at heffects
  exact ⟨map_eq_nil_iff.mp hcloses.symm, map_eq_nil_iff.mp hopens.symm,
    hspelling _ heffects⟩

lemma FailsWith.exact {id : Nat} {c : Commit D s} (hs : Reached D s) (h : FailsWith id s c) :
    c.Exact := by
  cases c with
  | completed k => exact k.exact_of_impure hs h.2
  | _ => trivial

lemma Executes.exact {occurrence : FiringOccurrence} {c : Commit D s} (hs : Reached D s)
    (h : Executes occurrence s c) : c.Exact := by
  rcases h with hfails | ⟨k, run, result, rfl, rfl, hbound, hrun, hcompletes⟩
  · exact hfails.exact hs
  · apply hcompletes.exact hs
    intro _ hdeclares envelope henvelope
    rw [Definition.boundHandler, hdeclares] at hbound
    cases hbound
    cases hrun
    cases henvelope
    refine ⟨rfl, rfl, ?_⟩
    intro effects heffects
    rw [completeFiring_passthrough] at heffects
    cases heffects
    rfl

end Petrus.Impetus
