import Petrus.Impetus.History.Codec

/-!
# Laws of the record codec

Field by field: decoding what a field encodes to gives the field back, and a member
that decodes to a field of equal Python value is spelled as the field is. The second
law is what the final comparison of the decoder rests on, since that comparison does
not tell the integer 1 from the boolean true.
-/

namespace Petrus.Impetus

open Lib Motus List

variable {value : Json} {fv : FieldValue}

section Constructors

variable {owner : String} {params : List (Parameter Json)} {ms bound : List (String × Json)}

lemma bound_spelling (h : bindArguments owner params ms = .ok bound)
    (hn : (params.map Parameter.name).Nodup)
    (hvalue : (Json.obj bound).value = (Json.obj ms).value) :
    (Json.obj bound).spelling = (Json.obj ms).spelling := by
  have hbound : (bound.map Prod.fst).Nodup := by
    rw [bindArguments_names h]
    exact hn
  have hms : (ms.map Prod.fst).Nodup := (Json.keys_perm hvalue).nodup hbound
  refine Json.normal_obj_of_members hvalue hbound ?_
  intro k a b ha hb _
  rw [bindArguments_given h hms ha hb]

lemma bound_eq (h : bindArguments owner params ms = .ok bound)
    (hn : (params.map Parameter.name).Nodup) :
    bound = (params.map Parameter.name).map fun k => (k, argument bound k) := by
  have hnames := bindArguments_names h
  have hbound := eq_map_argument (hnames ▸ hn : (bound.map Prod.fst).Nodup)
  rwa [hnames] at hbound

end Constructors

lemma decodedToken_eq_ok {item : Json} {t : TokenObject} (h : decodedToken item = .ok t) :
    ∃ ms, item = .obj ms ∧ bindArguments "Token" tokenFields ms = .ok t.members := by
  cases item with
  | obj ms =>
    simp only [decodedToken, bind_eq_ok] at h
    obtain ⟨bound, hbound, h⟩ := h
    cases h
    refine ⟨ms, rfl, ?_⟩
    rw [hbound]
    exact congrArg Except.ok (bound_eq hbound (by decide))
  | _ => cases h

lemma LifecycleScope.ofFields_eq_ok {name generation : Json} {s : LifecycleScope} :
    LifecycleScope.ofFields name generation = .ok s ↔
      name = .str s.name ∧ generation = .num (.int s.generation) := by
  obtain ⟨text, n, hname, hn⟩ := s
  obtain ⟨m, rfl⟩ : ∃ m, n = m + 1 := ⟨n - 1, by omega⟩
  constructor
  · intro h
    unfold LifecycleScope.ofFields at h
    split at h
    · split_ifs at h
      split at h
      · cases h
        exact ⟨rfl, rfl⟩
      · cases h
    · cases h
  · rintro ⟨rfl, rfl⟩
    simp only [LifecycleScope.ofFields]
    rw [dif_pos hname]

lemma decodedScope_eq_ok {s : LifecycleScope} (h : decodedScope value = .ok s) :
    ∃ ms, value = .obj ms ∧ bindArguments "LifecycleScope" scopeFields ms = .ok s.members := by
  cases value with
  | obj ms =>
    simp only [decodedScope, bind_eq_ok] at h
    obtain ⟨bound, hbound, h⟩ := h
    obtain ⟨hname, hgeneration⟩ := LifecycleScope.ofFields_eq_ok.mp h
    refine ⟨ms, rfl, ?_⟩
    rw [hbound, LifecycleScope.members, ← hname, ← hgeneration]
    exact congrArg Except.ok (bound_eq hbound (by decide))
  | _ => cases h

lemma decodedPolicy_eq_ok {p : ExecutionPolicy} (h : decodedPolicy value = .ok p) :
    ∃ ms, value = .obj ms ∧ bindArguments "ExecutionPolicy" policyFields ms = .ok p.members := by
  cases value with
  | obj ms =>
    simp only [decodedPolicy] at h
    rw [require_bind_eq_ok, bind_eq_ok] at h
    obtain ⟨-, bound, hbound, h⟩ := h
    refine ⟨ms, rfl, ?_⟩
    rw [hbound, ExecutionPolicy.ofFields_eq_ok.mp h]
    exact congrArg Except.ok (bound_eq hbound (by decide))
  | _ => cases h

namespace FieldValue

lemma spelling_of_bound {owner : String} {params : List (Parameter Json)}
    {members : List (String × Json)}
    (h : ∃ ms, value = .obj ms ∧ bindArguments owner params ms = .ok members)
    (hn : (params.map Parameter.name).Nodup) (hvalue : (Json.obj members).value = value.value) :
    (Json.obj members).spelling = value.spelling := by
  obtain ⟨ms, rfl, hbound⟩ := h
  exact bound_spelling hbound hn hvalue

lemma decodedNode_eq_ok {p : NetPath} (h : decodedNode value = .ok p) :
    value = .str p.str := by
  cases value with
  | str s =>
    simp only [decodedNode, NetPath.parse] at h
    split_ifs at h
    cases h
    rfl
  | _ => cases h

lemma iterate_eq_ok {items ys : List Json} (h : iterate value = .ok items)
    (hvalue : (Json.arr ys).value = value.value) : value = .arr items := by
  cases value with
  | arr xs =>
    cases h
    rfl
  | str | obj => simp [Json.value, Json.normal] at hvalue
  | _ => cases h

lemma tokens_spelling {items : List Json} {ts : List TokenObject}
    (h : items.mapM decodedToken = .ok ts)
    (hvalue : (Json.arr (ts.map fun t => .obj t.members)).value = (Json.arr items).value) :
    (Json.arr (ts.map fun t => .obj t.members)).spelling = (Json.arr items).spelling := by
  refine Json.normal_arr_of_items hvalue ?_
  intro p hp hvalue
  rw [zip_map_left, mem_map] at hp
  obtain ⟨⟨t, item⟩, hmem, rfl⟩ := hp
  have ht : decodedToken item = .ok t := forall₂_zip (mapM_eq_ok.mp h).flip hmem
  exact spelling_of_bound (decodedToken_eq_ok ht) (by decide) hvalue

lemma scopeSpelling_eq_ok (h : scopeSpelling value = .ok fv) :
    fv = .plain value ∨ ∃ s, fv = .scope s ∧ decodedScope value = .ok s := by
  cases value with
  | null | str =>
    cases h
    exact .inl rfl
  | _ =>
    simp only [scopeSpelling, map_eq_ok] at h
    obtain ⟨s, hs, rfl⟩ := h
    exact .inr ⟨s, rfl, hs⟩

lemma decoded_spelling {field : String} (h : decoded field value = .ok fv)
    (hvalue : fv.encoded.value = value.value) :
    fv.encoded.spelling = value.spelling := by
  unfold decoded at h
  split_ifs at h
  · obtain ⟨p, hp, rfl⟩ := map_eq_ok.mp h
    rw [decodedNode_eq_ok hp, encoded]
  · obtain ⟨ts, hts, rfl⟩ := map_eq_ok.mp h
    obtain ⟨items, hitems, hts⟩ := bind_eq_ok.mp hts
    obtain rfl := iterate_eq_ok hitems hvalue
    exact tokens_spelling hts hvalue
  · obtain ⟨items, hitems, rfl⟩ := map_eq_ok.mp h
    rw [iterate_eq_ok hitems hvalue, encoded]
  · rcases scopeSpelling_eq_ok h with rfl | ⟨s, rfl, hs⟩
    · rfl
    · exact spelling_of_bound (decodedScope_eq_ok hs) (by decide) hvalue
  · obtain ⟨s, hs, rfl⟩ := map_eq_ok.mp h
    exact spelling_of_bound (decodedScope_eq_ok hs) (by decide) hvalue
  · obtain ⟨p, hp, rfl⟩ := map_eq_ok.mp h
    exact spelling_of_bound (decodedPolicy_eq_ok hp) (by decide) hvalue
  · cases h
    rfl

def Fits (field : String) : FieldValue → Prop
  | node _ => field ∈ nodeFields
  | tokens _ => field = "tokens"
  | ids _ => field ∈ idFields
  | scope _ => field ∈ ["scope", "closed", "opened"]
  | policy _ => field = "policy"
  | plain value => field = "scope" ∧ (value = .null ∨ ∃ s, value = .str s) ∨
      field ∉ nodeFields ++ idFields ++ ["tokens", "scope", "closed", "opened", "policy"]

lemma decodedToken_members (t : TokenObject) : decodedToken (.obj t.members) = .ok t := by
  have hbound : bindArguments "Token" tokenFields t.members = .ok t.members :=
    bindArguments_declared rfl (by simp [TokenObject.members])
  simp only [decodedToken, hbound, ok_bind]
  rfl

lemma decodedScope_members (s : LifecycleScope) : decodedScope (.obj s.members) = .ok s := by
  have hbound : bindArguments "LifecycleScope" scopeFields s.members = .ok s.members :=
    bindArguments_declared rfl (by simp [LifecycleScope.members])
  simp only [decodedScope, hbound, ok_bind]
  exact LifecycleScope.ofFields_eq_ok.mpr ⟨rfl, rfl⟩

lemma decodedPolicy_members (p : ExecutionPolicy) : decodedPolicy (.obj p.members) = .ok p := by
  have hbound : bindArguments "ExecutionPolicy" policyFields p.members = .ok p.members :=
    bindArguments_declared rfl (by simp [ExecutionPolicy.members])
  have hcurrent : currentPolicy p.members = true := by
    simp [currentPolicy, policyFields, ExecutionPolicy.members, argument, Dict.lookup, isInteger]
  simp only [decodedPolicy, require_true hcurrent, hbound, ok_bind]
  exact ExecutionPolicy.ofFields_eq_ok.mpr rfl

lemma decoded_encoded {field : String} (h : fv.Fits field) :
    decoded field fv.encoded = .ok fv := by
  unfold decoded
  cases fv with
  | node p =>
    simp only [Fits] at h
    simp [h, encoded, decodedNode, NetPath.parse_str]
  | tokens ts =>
    simp only [Fits] at h
    have hts : decodedTokens (.arr (ts.map fun t => .obj t.members)) = .ok ts := by
      have hmap : (ts.map fun t => Json.obj t.members).mapM decodedToken = .ok (ts.map id) :=
        mapM_map_ok fun t _ => decodedToken_members t
      simpa [decodedTokens, iterate] using hmap
    simp [h, encoded, hts, nodeFields]
  | ids values =>
    simp only [Fits, idFields, mem_cons, not_mem_nil, or_false] at h
    rcases h with rfl | rfl | rfl <;> simp [encoded, iterate, nodeFields, idFields]
  | scope s =>
    simp only [Fits, mem_cons, not_mem_nil, or_false] at h
    rcases h with rfl | rfl | rfl <;>
      simp [encoded, nodeFields, idFields, scopeSpelling, decodedScope_members]
  | policy p =>
    simp only [Fits] at h
    simp [h, encoded, nodeFields, idFields, decodedPolicy_members]
  | plain value =>
    simp only [Fits] at h
    rcases h with ⟨rfl, rfl | ⟨s, rfl⟩⟩ | h
    · rfl
    · rfl
    · simp only [mem_append, mem_cons, not_mem_nil, or_false, not_or] at h
      simp [h, encoded]

end FieldValue

end Petrus.Impetus
