import Petrus.Impetus.Observation
import Petrus.Impetus.Deposits.Doors
import Petrus.Impetus.Properties.Fidelity

/-!
# Place colors

The constructor checks the colors of the initial tokens and every completion routes
through output arcs that carry the colors of their places, so a typed place only
ever holds its color. Two checks are missing on the way in: a restart takes the
productions of scheduled firings as they are recorded, and nothing refuses an
initial token on an undeclared place or a token whose color is the empty name,
which the observed net document does not take.
-/

namespace Petrus.Impetus

open Lib Motus List

variable {D : Definition} {s t : Instance}

/-- Every token the record produces has `P` at its place. -/
def Record.Produces (P : NetPath → Token → Prop) : Record → Prop
  | .tokensProduced r => ∀ token ∈ r.tokens, P r.place token
  | _ => True

/-- Constructed, or resumed from a history whose productions carry the colors of their places. -/
def Started (D : Definition) (s : Instance) : Prop :=
  (∃ m instanceId instant store, Instance.create D m instanceId instant store = .ok s) ∨
    ∃ history : History, (∀ r ∈ history.flatten, r.Produces (Token.Colored D.net)) ∧
      resume D history = .ok s

lemma Net.routes_colored (net : Net) : net.Routes (Token.Colored net) := by
  intro t arc harc token hadmits place hplace hpath
  have hmem : arc ∈ net.arcs := (mem_filter.mp harc).1
  rcases net.valid.2.2.1 arc hmem place hplace (.inr hpath) with hnone | hcolor
  · exact .inl hnone
  · rw [Arc.admits, decide_eq_true_eq, hcolor] at hadmits
    rcases hadmits with hnone | hsame
    · exact .inl hnone
    · exact .inr hsame.symm

lemma validateInitialTokens_colored {net : Net} {p : NetPath} {tokens : List Token}
    (h : validateInitialTokens net p tokens = .ok ()) :
    ∀ token ∈ tokens, token.Colored net p := by
  intro token htoken place hplace hpath
  have hfind : net.place? p = some place := by
    unfold Net.place?
    cases hfound : net.places.find? fun place => place.path = p with
    | none => exact absurd (decide_eq_true hpath) (find?_eq_none.mp hfound place hplace)
    | some other =>
      have hother := find?_some hfound
      rw [decide_eq_true_eq] at hother
      have hsame := inj_on_of_nodup_map net.valid.1.1 (mem_of_find?_eq_some hfound)
        hplace (hother.trans hpath.symm)
      rw [hsame]
  unfold validateInitialTokens at h
  rw [hfind] at h
  cases hcolor : place.color with
  | none => exact .inl rfl
  | some color =>
    simp only [Option.bind_some, hcolor, require_eq_ok] at h
    exact .inr (h token htoken)

/-! ## Starts -/

lemma create_colored {m : Marking} {instanceId : String} {instant : Instant} {store : Store}
    (h : Instance.create D m instanceId instant store = .ok s) :
    s.Admitted (Token.Colored D.net) := by
  obtain ⟨⟨-, hcolors⟩, -, rfl⟩ := create_eq_ok.mp h
  have hrecords : ∀ r ∈ initialRecords D.net m instanceId instant,
      r.Deposits (Token.Colored D.net) := by
    intro r hr
    simp only [initialRecords, cons_append, mem_cons, mem_append, mem_map] at hr
    rcases hr with rfl | ⟨e, he, rfl⟩ | ⟨source, -, rfl⟩
    · trivial
    · exact validateInitialTokens_colored (hcolors e he)
    · trivial
  refine ⟨?_, ?_⟩
  · exact foldlM_invariant (P := Queues.Hold (Token.Colored D.net))
      (fun _ r _ hr hheld hok => hheld.applyMovement (hrecords r hr) hok)
      Queues.Hold.empty (foldlM_initialRecords D.net m instanceId instant)
  · simpa [Instance.records, Instance.initial] using hrecords

lemma resume_initialized {history : History} (h : resume D history = .ok s)
    {r : TokensInitialized} (hr : Record.tokensInitialized r ∈ history.flatten) :
    ∀ token ∈ r.tokens, token.Colored D.net r.place := by
  obtain ⟨_, -, h⟩ := bind_eq_ok.mp h
  obtain ⟨_, -, h⟩ := bind_eq_ok.mp h
  obtain ⟨identity, hidentity, h⟩ := bind_eq_ok.mp h
  obtain ⟨_, hbatch, -⟩ := bind_eq_ok.mp h
  obtain ⟨fold, hfold, -⟩ := bind_eq_ok.mp hbatch
  have htail : Record.tokensInitialized r ∈ history.flatten.tail := by
    cases hrecords : history.flatten with
    | nil =>
      rw [hrecords] at hr
      cases hr
    | cons first rest =>
      rw [hrecords] at hr hidentity
      rcases mem_cons.mp hr with rfl | hrest
      · cases hidentity
      · exact hrest
  obtain ⟨before, after, hstep⟩ := foldlM_step hfold htail
  unfold ConstructionFold.step at hstep
  dsimp only at hstep
  split_ifs at hstep
  unfold ConstructionFold.initialization at hstep
  simp only [require_bind_eq_ok] at hstep
  obtain ⟨-, -, -, -, -, hchecked⟩ := hstep
  obtain ⟨_, hchecked, -⟩ := bind_eq_ok.mp hchecked
  exact validateInitialTokens_colored hchecked

lemma Started.colored (h : Started D s) : s.Admitted (Token.Colored D.net) := by
  rcases h with ⟨m, instanceId, instant, store, hcreate⟩ | ⟨history, hproduced, hresume⟩
  · exact create_colored hcreate
  · refine resume_admitted ?_ hresume
    intro r hr
    cases r with
    | tokensInitialized r => exact resume_initialized hresume hr
    | tokensProduced r => exact hproduced _ hr
    | _ => trivial

/-- In every state an instance reaches, a queued token carries the color of its typed place, and
the observed document of a prefix of its history passes the marking check exactly when every
deposit of the prefix names a declared place and no empty color. -/
theorem place_colors_hold (hs : Started D s) (hrun : Runs D (fun _ _ => True) s t) :
    (∀ p, ∀ e ∈ t.queues.at_ p, e.token.Colored D.net p) ∧
      ∀ records markings, records <+: t.records → replayMarkings records = .ok markings →
        (checkLineage D.net markings = .ok () ↔
          ∀ r ∈ records, r.Deposits (Token.Portable D.net)) := by
  have hcolored := hrun.admitted D.net.routes_colored hs.colored
  refine ⟨hcolored.queued, fun records markings hleads hok => ?_⟩
  exact checkLineage_observed (fun r hr => hcolored.recorded r (hleads.subset hr)) hok

/-! ## A dye bath -/

def dyeNet : Net where
  places := [{ path := nodeP },
    { path := nodeQ, color := some "red" }]
  transitions := [{ path := nodeS }]
  arcs := [
    ⟨nodeP, nodeS, .consume, 1, none, none, Arc.weight_one⟩,
    ⟨nodeS, nodeQ, .consume, 1, some "red", none,
      Arc.weight_one⟩]
  valid := by decide

def dye : Definition where
  net := dyeNet
  handlers := fun _ => passthroughHandler
  guards := fun _ _ _ => .ok true
  filters := fun _ _ => .ok true
  scheduler := selectConservative
  sourcePlain := fun _ _ _ _ => rfl

def dyeMarking (place : NetPath) (token : Token) : Marking :=
  Marking.ofDict (Dict.ofList [(place, [token])])

def dyeStart (place : NetPath) (token : Token) : Instance :=
  Instance.initial dye (dyeMarking place token) "i" 0

/-- A stored history of one firing that put `token` on the red place. -/
def dyeHistory (token : Token) : History :=
  [[.instanceCreated { instanceId := "i", name := none, instant := 0 },
    .tokensInitialized { place := nodeP, tokens := [⟨some "red", .str "x"⟩] }],
   [.candidateSelected ⟨nodeS, 1, 0⟩,
    .firingBegun ⟨nodeS, 1, none, 0⟩,
    .tokensConsumed {
      place := nodeP, tokens := [⟨some "red", .str "x"⟩], occurrence := 1 }],
   [.tokensProduced { place := nodeQ, tokens := [token], occurrence := 1 },
    .firingCompleted ⟨nodeS, 1, 0⟩]]

lemma dye_created {place : NetPath} {token : Token}
    (h : ∀ e ∈ (dyeMarking place token).queues.entries,
      validateInitialTokens dyeNet e.1 e.2 = .ok ()) :
    Instance.create dye (dyeMarking place token) "i" 0 storesAll = .ok (dyeStart place token) :=
  create_eq_ok.mpr ⟨⟨by decide, h⟩, rfl, rfl⟩

def undocumented (net : Net) (records : List Record) : Bool :=
  match replayMarkings records with
  | .ok markings => (checkLineage net markings).toOption.isNone
  | .error _ => false

lemma undocumented_refused {net : Net} {records : List Record}
    (h : undocumented net records = true) :
    ∃ markings, replayMarkings records = .ok markings ∧ checkLineage net markings ≠ .ok () := by
  unfold undocumented at h
  split at h
  · rename_i markings hmarkings
    refine ⟨markings, hmarkings, fun hok => ?_⟩
    rw [hok] at h
    cases h
  · cases h

/-- A red place holds a blue token after a restart from a stored history that says so, and new
instances with a token of the empty color, or on an undeclared place, have no document. -/
theorem dye_restarts_blue :
    (∃ s, resume dye (dyeHistory ⟨some "blue", .str "x"⟩) = .ok s ∧
      ∃ e ∈ s.queues.at_ nodeQ,
        ¬e.token.Colored dyeNet nodeQ) ∧
    (∀ place token, (place, token) = (nodeP, ⟨some "", .str "x"⟩) ∨
        (place, token) = (nodeZ, ⟨none, .str "x"⟩) →
      Instance.create dye (dyeMarking place token) "i" 0 storesAll = .ok (dyeStart place token) ∧
      ∃ markings, replayMarkings (dyeStart place token).records = .ok markings ∧
        checkLineage dyeNet markings ≠ .ok ()) := by
  have hrestarted : (resume dye (dyeHistory ⟨some "blue", .str "x"⟩)).toOption.map (fun s =>
      (s.queues.at_ nodeQ).map Entry.token) =
        some [⟨some "blue", .str "x"⟩] := by decide +kernel
  refine ⟨?_, ?_⟩
  · cases hs : resume dye (dyeHistory ⟨some "blue", .str "x"⟩) with
    | error e =>
      rw [hs] at hrestarted
      cases hrestarted
    | ok s =>
      rw [hs] at hrestarted
      have hqueue : (s.queues.at_ nodeQ).map Entry.token =
          [⟨some "blue", .str "x"⟩] := Option.some.inj hrestarted
      have hmem : (⟨some "blue", .str "x"⟩ : Token) ∈
          (s.queues.at_ nodeQ).map Entry.token := by
        rw [hqueue]
        exact mem_singleton_self _
      obtain ⟨e, he, htoken⟩ := mem_map.mp hmem
      refine ⟨s, rfl, e, he, ?_⟩
      intro hcolored
      have hred := hcolored { path := nodeQ, color := some "red" } (by decide) rfl
      rw [htoken] at hred
      exact absurd hred (by decide)
  · rintro place token (h | h)
    · cases h
      exact ⟨dye_created (by decide), undocumented_refused (by decide +kernel)⟩
    · cases h
      exact ⟨dye_created (by decide), undocumented_refused (by decide +kernel)⟩

/-- The dye bath after one firing, observed at its end. -/
theorem place_colors_hold_dye :
    (∀ p, ∀ e ∈ ((Op.step none).perform dye storesAll
        (dyeStart nodeP ⟨some "red", .str "x"⟩)).queues.at_ p,
      e.token.Colored dyeNet p) ∧
    ((Op.step none).perform dye storesAll
      (dyeStart nodeP ⟨some "red", .str "x"⟩)).queues.at_
        nodeQ = [⟨⟨some "red", .str "x"⟩, 0, 2, none⟩] := by
  have hstarted : Started dye (dyeStart nodeP ⟨some "red", .str "x"⟩) :=
    .inl ⟨_, _, _, _, dye_created (by decide)⟩
  exact ⟨(place_colors_hold hstarted (Runs.refl.perform storesAll (.step none) trivial)).1,
    by decide +kernel⟩

end Petrus.Impetus
