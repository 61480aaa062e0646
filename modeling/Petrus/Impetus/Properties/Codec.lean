import Petrus.Impetus.History.CodecLaws

/-!
# Codec faithfulness

Every record the writer accepts decodes from its encoding to itself, and a payload
the decoder accepts is spelled as the record it decodes to exactly when it is an
object. The decoder builds a dictionary from whatever it is given, so an array of
name and value pairs passes for the object it lists.
-/

namespace Petrus.Impetus

open Lib Motus List Dict

variable {o : RecordObject} {ns : List Nat} {noun noun' record : String} {r : Record}

namespace RecordType

lemma fields_nodup (type : RecordType) : (type.fields.map Parameter.name).Nodup := by
  cases type <;> decide

lemma envelope_not_mem (type : RecordType) :
    "record" ∉ "schema" :: type.fields.map Parameter.name ∧
      "schema" ∉ type.fields.map Parameter.name := by
  cases type <;> decide

lemma find_name (type : RecordType) :
    all.find? (fun t => t.name = type.name) = some type := by
  cases type <;> decide

lemma name_injective {t t' : RecordType} (h : t.name = t'.name) : t = t' := by
  have hfind := t.find_name
  rw [h, t'.find_name] at hfind
  exact (Option.some.inj hfind).symm

end RecordType

lemma recordType_eq_ok {name : Json} {type : RecordType} :
    recordType name = .ok type ↔ name = .str type.name := by
  constructor
  · intro h
    unfold recordType at h
    split at h
    · split at h
      · rename_i hfind
        cases h
        have hname := find?_some hfind
        rw [of_decide_eq_true hname]
      · split at h <;> cases h
    · split_ifs at h
  · intro h
    rw [h, recordType, type.find_name]

def RecordObject.members (o : RecordObject) : List (String × Json) :=
  ("record", .str o.type.name) :: ("schema", .num (.int schemaVersion)) ::
    o.fields.map fun f => (f.1, f.2.encoded)

lemma RecordObject.members_nodup (h : o.fields.map Prod.fst = o.type.fields.map Parameter.name) :
    (o.members.map Prod.fst).Nodup := by
  have hfields : (o.fields.map fun f => (f.1, f.2.encoded)).map Prod.fst =
      o.type.fields.map Parameter.name := by
    rw [← h, map_map]
    rfl
  rw [members, map_cons, map_cons, hfields, nodup_cons, nodup_cons]
  exact ⟨o.type.envelope_not_mem.1, o.type.envelope_not_mem.2, o.type.fields_nodup⟩

section Dictionary

variable {ms : List (String × Json)}

lemma toDict_obj (hn : (ms.map Prod.fst).Nodup) :
    ∃ data, toDict (.obj ms) = .ok data ∧
      data.entries = ms.map (fun m => (Json.str m.1, m.2)) ∧ dictObject data = .obj ms := by
  have hkeys : ((ms.map fun m => (Json.str m.1, m.2)).map Prod.fst).Nodup := by
    rw [map_map]
    have hstr : (ms.map Prod.fst).map Json.str =
        ms.map (Prod.fst ∘ fun m => (Json.str m.1, m.2)) := by
      rw [map_map]
      rfl
    rw [← hstr]
    exact hn.map fun a b hab => Json.str.inj hab
  refine ⟨_, rfl, entries_ofList hkeys, ?_⟩
  rw [dictObject, entries_ofList hkeys, filterMap_map]
  exact congrArg Json.obj (filterMap_some ..)

end Dictionary

lemma decodedMembers_eq_ok {entries : List (Json × Json)} {values : List (Json × FieldValue)}
    {args : List (String × FieldValue)} (hvalues : entries.mapM decodedMember = .ok values)
    (hargs : values.mapM keyword = .ok args) :
    List.Forall₂ (fun e a => e.1 = .str a.1 ∧ decoded a.1 e.2 = .ok a.2) entries args := by
  have hfirst := mapM_eq_ok.mp hvalues
  have hsecond := mapM_eq_ok.mp hargs
  clear hvalues hargs
  induction hfirst generalizing args with
  | nil =>
    cases hsecond
    exact .nil
  | cons hv _ ih =>
    cases hsecond with
    | cons ha htail =>
      refine .cons ?_ (ih htail)
      rename_i e v _ _ a _ _
      obtain ⟨key, value⟩ := e
      cases key with
      | str field =>
        obtain ⟨fv, hfv, rfl⟩ := map_eq_ok.mp hv
        cases ha
        exact ⟨rfl, hfv⟩
      | _ =>
        cases hv
        cases ha

lemma decodeRecord_eq_ok {payload : Json} (h : decodeRecord payload = .ok o) :
    ∃ data args, toDict payload = .ok data ∧
      data.get? (.str "record") = some (.str o.type.name) ∧
      data.get? (.str "schema") = some (.num (.int schemaVersion)) ∧
      List.Forall₂ (fun e a => e.1 = .str a.1 ∧ decoded a.1 e.2 = .ok a.2)
        ((data.erase (.str "record")).erase (.str "schema")).entries args ∧
      bindArguments o.type.name o.type.fields args = .ok o.fields ∧
      (encodeRecord o).value = (dictObject data).value := by
  unfold decodeRecord at h
  obtain ⟨data, hdata, h⟩ := bind_eq_ok.mp h
  obtain ⟨name, hname, h⟩ := bind_eq_ok.mp h
  obtain ⟨schema, hschema, h⟩ := bind_eq_ok.mp h
  obtain ⟨hcurrent, h⟩ := require_bind_eq_ok.mp h
  obtain ⟨type, htype, h⟩ := bind_eq_ok.mp h
  obtain ⟨values, hvalues, h⟩ := bind_eq_ok.mp h
  obtain ⟨args, hargs, h⟩ := bind_eq_ok.mp h
  obtain ⟨object, hobject, h⟩ := bind_eq_ok.mp h
  obtain ⟨hvalue, h⟩ := require_bind_eq_ok.mp h
  cases h
  obtain ⟨fields, hfields, hobject⟩ := bind_eq_ok.mp hobject
  obtain ⟨-, -, hobject⟩ := bind_eq_ok.mp hobject
  cases hobject
  have hmember {k : String} {e : Exc} {v : Json} (hv : member data k e = .ok v) :
      data.get? (.str k) = some v := by
    unfold member at hv
    split at hv
    · rename_i hget
      cases hv
      exact hget
    · cases hv
  refine ⟨data, args, hdata, ?_, ?_, decodedMembers_eq_ok hvalues hargs, hfields, hvalue⟩
  · rw [hmember hname, recordType_eq_ok.mp htype]
  · rw [hmember hschema, hcurrent]

lemma decoded_of_member {data : Dict Json Json} {args fields : List (String × FieldValue)}
    {type : RecordType}
    (hargs : List.Forall₂ (fun e a => e.1 = .str a.1 ∧ decoded a.1 e.2 = .ok a.2)
      ((data.erase (.str "record")).erase (.str "schema")).entries args)
    (hbind : bindArguments type.name type.fields args = .ok fields)
    {k : String} {value : Json} {fv : FieldValue} (hfield : (k, fv) ∈ fields)
    (hvalue : (Json.str k, value) ∈ data.entries) : decoded k value = .ok fv := by
  have hk : k ∈ type.fields.map Parameter.name := by
    rw [← bindArguments_names hbind]
    exact mem_map_of_mem hfield
  have hrecord : k ≠ "record" := fun h => type.envelope_not_mem.1 (h ▸ mem_cons_of_mem _ hk)
  have hschema : k ≠ "schema" := fun h => type.envelope_not_mem.2 (h ▸ hk)
  have hrest : (Json.str k, value) ∈
      ((data.erase (.str "record")).erase (.str "schema")).entries := by
    simp [mem_entries_erase, hvalue, hrecord, hschema]
  have hn : (args.map Prod.fst).Nodup := by
    have hnames : ((data.erase (.str "record")).erase (.str "schema")).entries.map Prod.fst =
        args.map fun a => Json.str a.1 := by
      have heq := hargs.imp fun _ _ h => h.1
      rw [← forall₂_eq_eq_eq, forall₂_map_left_iff, forall₂_map_right_iff]
      exact heq
    refine List.Nodup.of_map Json.str ?_
    rw [map_map]
    exact hnames ▸ Dict.nodup _
  obtain ⟨i, hi, hget⟩ := getElem_of_mem hrest
  have hall := forall₂_iff_get.mp hargs
  have hi' : i < args.length := hall.1 ▸ hi
  obtain ⟨hname, hdecoded⟩ := hall.2 i hi hi'
  simp only [get_eq_getElem, hget] at hname hdecoded
  have harg : (k, args[i].2) ∈ args := by
    rw [Json.str.inj hname]
    exact getElem_mem hi'
  rw [← bindArguments_given hbind hn hfield harg, Json.str.inj hname]
  exact hdecoded

lemma decodeRecord_spelling {ms : List (String × Json)} (hn : (ms.map Prod.fst).Nodup)
    (h : decodeRecord (.obj ms) = .ok o) :
    (encodeRecord o).spelling = (Json.obj ms).spelling := by
  obtain ⟨data, args, hdata, hname, hschema, hargs, hbind, hvalue⟩ := decodeRecord_eq_ok h
  obtain ⟨data', hdata', hentries, hobject⟩ := toDict_obj hn
  obtain rfl : data' = data := Except.ok.inj (hdata'.symm.trans hdata)
  have hsame : (Json.obj o.members).value = (Json.obj ms).value := hobject ▸ hvalue
  have hmembers : ∀ k b, (k, b) ∈ ms → (Json.str k, b) ∈ data'.entries := by
    intro k b hb
    rw [hentries]
    exact mem_map.mpr ⟨(k, b), hb, rfl⟩
  refine Json.normal_obj_of_members hsame
    (RecordObject.members_nodup (bindArguments_names hbind)) ?_
  intro k a b ha hb hab
  have hget : data'.get? (.str k) = some b := get?_eq_some.mpr (hmembers k b hb)
  simp only [mem_cons, mem_map, Prod.mk.injEq] at ha
  rcases ha with ⟨rfl, rfl⟩ | ⟨rfl, rfl⟩ | ⟨⟨_, fv⟩, hfield, rfl, rfl⟩
  · rw [Option.some.inj (hname.symm.trans hget)]
  · rw [Option.some.inj (hschema.symm.trans hget)]
  · exact FieldValue.decoded_spelling (decoded_of_member hargs hbind hfield (hmembers _ b hb)) hab

/-- A constructed record whose fields are of the kinds their names ask for. -/
structure RecordObject.WellFormed (o : RecordObject) : Prop where
  names : o.fields.map Prod.fst = o.type.fields.map Parameter.name
  fits : ∀ f ∈ o.fields, f.2.Fits f.1
  checked : RecordObject.postInit o.type (argument o.fields) = .ok ()

lemma RecordObject.entries_erase_envelope {data : Dict Json Json}
    (h : o.fields.map Prod.fst = o.type.fields.map Parameter.name)
    (hentries : data.entries = o.members.map fun m => (Json.str m.1, m.2)) :
    ((data.erase (.str "record")).erase (.str "schema")).entries =
      o.fields.map fun f => (Json.str f.1, f.2.encoded) := by
  have hkept : ∀ f ∈ o.fields, f.1 ≠ "record" ∧ f.1 ≠ "schema" := by
    intro f hf
    have hname : f.1 ∈ o.type.fields.map Parameter.name := h ▸ mem_map_of_mem hf
    refine ⟨?_, ?_⟩
    · intro heq
      exact o.type.envelope_not_mem.1 (heq ▸ mem_cons_of_mem _ hname)
    · intro heq
      exact o.type.envelope_not_mem.2 (heq ▸ hname)
  rw [entries_erase, entries_erase, hentries, RecordObject.members]
  simp only [map_cons, map_map, filter_cons, ne_eq, not_true_eq_false, decide_false,
    Bool.false_eq_true, if_false, Json.str.injEq, String.reduceEq, not_false_eq_true, decide_true,
    if_true, filter_filter]
  rw [filter_eq_self.mpr]
  · rfl
  · intro e he
    obtain ⟨f, hf, rfl⟩ := mem_map.mp he
    simp [hkept f hf]

lemma decodeRecord_encodeRecord (h : o.WellFormed) :
    decodeRecord (encodeRecord o) = .ok o := by
  have hnames : (o.fields.map Prod.fst).Nodup := h.names ▸ o.type.fields_nodup
  obtain ⟨data, hdata, hentries, hobject⟩ := toDict_obj (RecordObject.members_nodup h.names)
  have hrecord : data.get? (.str "record") = some (.str o.type.name) := by
    simp [get?_eq_some, hentries, RecordObject.members]
  have hschema : data.get? (.str "schema") = some (.num (.int schemaVersion)) := by
    simp [get?_eq_some, hentries, RecordObject.members]
  have hsame : (encodeRecord o).value = (dictObject data).value := by
    rw [hobject]
    rfl
  have hvalues : (o.fields.map fun f => (Json.str f.1, f.2.encoded)).mapM decodedMember =
      .ok (o.fields.map fun f => (Json.str f.1, f.2)) :=
    mapM_map_ok fun f hf => by simp [decodedMember, FieldValue.decoded_encoded (h.fits f hf)]
  have hargs : (o.fields.map fun f => (Json.str f.1, f.2)).mapM keyword = .ok (o.fields.map id) :=
    mapM_map_ok fun f _ => rfl
  have hconstruct : RecordObject.construct o.type o.fields = .ok o := by
    rw [RecordObject.construct, bindArguments_declared h.names hnames, ok_bind, h.checked]
    rfl
  change decodeRecord (.obj o.members) = .ok o
  simp only [decodeRecord, hdata, ok_bind, member, hrecord, hschema, require_true trivial,
    recordType_eq_ok.mpr rfl, RecordObject.entries_erase_envelope h.names hentries, hvalues, hargs,
    map_id, hconstruct, require_true hsame, except_pure]

section Typed

open FieldValue RecordObject

lemma naturals_positive (h : ∀ n ∈ ns, 1 ≤ n) :
    ∀ i ∈ (naturals ns).idList, positiveId i = true := by
  intro i hi
  obtain ⟨n, hn, rfl⟩ := mem_map.mp hi
  simpa [positiveId] using h n hn

lemma naturals_nodup (h : ns.Nodup) : (naturals ns).idList.Nodup :=
  h.map fun a b hab => by simpa using hab

lemma naturals_length (ns : List Nat) : (naturals ns).idList.length = ns.length :=
  length_map _

lemma naturals_eq_nil : (naturals ns).idList = [] ↔ ns = [] := map_eq_nil_iff

lemma positiveIds_naturals {ids : List Nat} (h : validatePositiveIds ids noun' = .ok ()) :
    positiveIds (naturals ids) noun = .ok () := by
  simp only [validatePositiveIds, require_bind_eq_ok, require_eq_ok] at h
  simp only [positiveIds, require_bind_eq_ok, require_eq_ok]
  exact ⟨naturals_positive h.1, naturals_nodup h.2⟩

lemma entriesCheck_naturals {tokens : List Token} {entries : List Nat}
    {scope : Option LifecycleScope} (h : validateEntries tokens entries scope noun' = .ok ()) :
    entriesCheck (tokenObjects tokens) (naturals entries) (FieldValue.optionalScope scope) noun =
      .ok () := by
  have hlength : (tokenObjects tokens).tokenList.length = tokens.length := length_map _
  have hscope : (FieldValue.optionalScope scope).isNone = true ↔ scope = none := by
    cases scope <;> simp [FieldValue.optionalScope, isNone]
  simp only [validateEntries, require_bind_eq_ok, require_eq_ok] at h
  simp only [entriesCheck, require_bind_eq_ok, require_eq_ok, naturals_length, naturals_eq_nil,
    hlength, hscope, ← Bool.not_eq_true]
  exact ⟨h.1, naturals_positive h.2.1, naturals_nodup h.2.2.1, h.2.2.2⟩

lemma optionalScope_typed (scope : Option LifecycleScope) (noun : String) :
    RecordObject.optionalScope (FieldValue.optionalScope scope) noun = .ok () := by
  cases scope <;> simp [RecordObject.optionalScope, FieldValue.optionalScope, isNone, isScope]

lemma occurrenceId_natural {n : Nat} (h : validateOccurrenceId n noun' = .ok ()) :
    occurrenceId (natural n) noun = .ok () := by
  simp only [validateOccurrenceId, require_eq_ok] at h
  simp [occurrenceId, natural, positive, h]

lemma deliveryTokens_typed {tokens : List Token} {record' : String}
    (h : validateDeliveryTokens tokens record' = .ok ()) :
    deliveryTokens (tokenObjects tokens) record = .ok () := by
  simp only [validateDeliveryTokens, require_eq_ok] at h
  have hcolor : ∀ t : Token, colorName t.object.color = true := by
    intro t
    obtain ⟨color, data⟩ := t
    cases color <;> rfl
  simp [deliveryTokens, tokenObjects, tokenList, h, hcolor]

lemma deliveryIdentity_text {identity record' : String}
    (h : validateDeliveryIdentity identity record' = .ok ()) :
    deliveryIdentity (text identity) record = .ok () := by
  simp only [validateDeliveryIdentity, require_eq_ok] at h
  simp [deliveryIdentity, text, nonEmptyString, h]

lemma observedInTime_instants {m i : Instant} (h : m ≤ i) :
    observedInTime (atInstant m) (atInstant i) = .ok () := by
  have hless : ¬ (Dyadic.ofInt i < Dyadic.ofInt m) := by
    rw [← Dyadic.toRat_lt_toRat_iff]
    change ¬ ((i : Dyadic).toRat < (m : Dyadic).toRat)
    rw [Dyadic.toRat_intCast, Dyadic.toRat_intCast]
    exact_mod_cast not_lt.mpr h
  simp [observedInTime, atInstant, plainValue, less, ordinal, PyNumber.toDyadic, hless]

lemma registration_typed {r : RegistrationFact} (h : r.check noun' = .ok ()) :
    registration (text r.key) (optionalNatural r.occurrence) noun = .ok () := by
  obtain ⟨source, key, occurrence, instant⟩ := r
  simp only [RegistrationFact.check, require_bind_eq_ok] at h
  simp only [registration, require_bind_eq_ok, require_eq_ok]
  refine ⟨by simpa [text, nonEmptyString] using h.1, ?_⟩
  cases occurrence with
  | none => exact .inl rfl
  | some n =>
    have hn : 1 ≤ n := require_eq_ok.mp h.2
    exact .inr (by simp [optionalNatural, natural, positive, hn])

lemma movement_entries {r : Movement} (h : r.check noun' = .ok ()) :
    entriesCheck (tokenObjects r.tokens) (naturals r.entries) (FieldValue.optionalScope r.scope)
      noun = .ok () := by
  obtain ⟨_, -, hentries⟩ := bind_eq_ok.mp h
  exact entriesCheck_naturals hentries

lemma nonEmptyString_text {s field : String} (h : validateText s record field = .ok ()) :
    (text s).nonEmptyString = true := by
  simpa [validateText, text, nonEmptyString] using h

lemma Record.object_checked (h : r.check = .ok ()) :
    postInit r.object.type (argument r.object.fields) = .ok () := by
  cases r with
  | instanceCreated r => rfl
  | activityCompleted r => rfl
  | activityFailed r => rfl
  | scopeOpened r => rfl
  | activityTerminalQuarantined r => rfl
  | tokensInitialized r =>
    exact bind_eq_ok.mpr ⟨(), entriesCheck_naturals h, optionalScope_typed r.scope _⟩
  | scopeClosed r =>
    obtain ⟨_, hdiscarded, hcancelled⟩ := bind_eq_ok.mp h
    exact bind_eq_ok.mpr ⟨(), rfl, bind_eq_ok.mpr
      ⟨(), positiveIds_naturals hdiscarded, positiveIds_naturals hcancelled⟩⟩
  | scopeReset r =>
    obtain ⟨hnext, h⟩ := require_bind_eq_ok.mp h
    obtain ⟨_, hdiscarded, hcancelled⟩ := bind_eq_ok.mp h
    have hgeneration : nextGeneration (scope r.closed) (scope r.opened) = true := by
      simp [nextGeneration, hnext]
    exact bind_eq_ok.mpr ⟨(), rfl, bind_eq_ok.mpr ⟨(), rfl, require_bind_eq_ok.mpr
      ⟨hgeneration, bind_eq_ok.mpr
        ⟨(), positiveIds_naturals hdiscarded, positiveIds_naturals hcancelled⟩⟩⟩⟩
  | candidateSelected | firingCompleted => exact occurrenceId_natural h
  | externalEventDelivered r =>
    obtain ⟨_, hoccurrence, h⟩ := bind_eq_ok.mp h
    obtain ⟨_, hidentity, htokens⟩ := bind_eq_ok.mp h
    exact bind_eq_ok.mpr ⟨(), occurrenceId_natural hoccurrence, bind_eq_ok.mpr
      ⟨(), deliveryIdentity_text hidentity, bind_eq_ok.mpr
        ⟨(), deliveryTokens_typed htokens, optionalScope_typed r.scope _⟩⟩⟩
  | scopedDeliveryDropped r =>
    obtain ⟨_, hidentity, htokens⟩ := bind_eq_ok.mp h
    exact bind_eq_ok.mpr ⟨(), deliveryIdentity_text hidentity, bind_eq_ok.mpr
      ⟨(), deliveryTokens_typed htokens, rfl⟩⟩
  | scopedDeliveryQuarantined r =>
    obtain ⟨_, hidentity, h⟩ := bind_eq_ok.mp h
    obtain ⟨_, htokens, hscope⟩ := bind_eq_ok.mp h
    have hname : (scopeTarget r.scope).isScope = true ∨ scopeName (scopeTarget r.scope) = true := by
      obtain ⟨_, _, _, target, _⟩ := r
      cases target with
      | exact s => exact .inl rfl
      | named name =>
        have hvalid := require_eq_ok.mp hscope
        exact .inr (by simpa [scopeTarget, text, scopeName] using hvalid)
    exact bind_eq_ok.mpr ⟨(), deliveryIdentity_text hidentity, bind_eq_ok.mpr
      ⟨(), deliveryTokens_typed htokens, require_eq_ok.mpr hname⟩⟩
  | deliveryRegistrationOpened | deliveryRegistrationClosed => exact registration_typed h
  | timerMatured r => exact observedInTime_instants (require_eq_ok.mp h)
  | firingBegun r =>
    exact bind_eq_ok.mpr ⟨(), occurrenceId_natural h, optionalScope_typed r.scope _⟩
  | tokensConsumed r | tokensRead r =>
    exact bind_eq_ok.mpr ⟨(), movement_entries h, optionalScope_typed r.scope _⟩
  | tokensProduced r =>
    obtain ⟨_, hoccurrence, -⟩ := bind_eq_ok.mp h
    exact bind_eq_ok.mpr ⟨(), occurrenceId_natural hoccurrence, bind_eq_ok.mpr
      ⟨(), movement_entries h, optionalScope_typed r.scope _⟩⟩
  | activityRequested r =>
    obtain ⟨_, hactivity, h⟩ := bind_eq_ok.mp h
    obtain ⟨_, hcorrelation, h⟩ := bind_eq_ok.mp h
    obtain ⟨_, hidempotency, _⟩ := bind_eq_ok.mp h
    exact require_bind_eq_ok.mpr ⟨nonEmptyString_text hactivity, require_bind_eq_ok.mpr
      ⟨nonEmptyString_text hcorrelation, require_bind_eq_ok.mpr
        ⟨nonEmptyString_text hidempotency, optionalScope_typed r.scope _⟩⟩⟩
  | firingFailed r =>
    obtain ⟨_, hoccurrence, herror⟩ := bind_eq_ok.mp h
    have hbounded : RecordObject.boundedText (text r.error) = true := by
      simpa [RecordObject.boundedText, text] using require_eq_ok.mp herror
    exact bind_eq_ok.mpr ⟨(), occurrenceId_natural hoccurrence, require_eq_ok.mpr hbounded⟩

lemma optionalScope_fits (s : Option LifecycleScope) :
    (FieldValue.optionalScope s).Fits "scope" := by
  cases s
  · exact .inl ⟨rfl, .inl rfl⟩
  · exact mem_cons_self

lemma scopeTarget_fits (target : ScopeTarget) : (scopeTarget target).Fits "scope" := by
  cases target
  · exact mem_cons_self
  · exact .inl ⟨rfl, .inr ⟨_, rfl⟩⟩

lemma optionalText_fits (s : Option String) : (optionalText s).Fits "name" := by
  cases s <;> exact .inr (by decide)

lemma optionalNatural_fits (n : Option Nat) : (optionalNatural n).Fits "occurrence" := by
  cases n <;> exact .inr (by decide)

lemma Record.object_fits (r : Record) : ∀ f ∈ r.object.fields, f.2.Fits f.1 := by
  cases r <;>
    simp only [Record.object, Movement.values, RegistrationFact.values, forall_mem_cons,
      not_mem_nil, IsEmpty.forall_iff, implies_true, optionalScope_fits, scopeTarget_fits,
      optionalText_fits, optionalNatural_fits, true_and, and_true] <;>
    simp [Fits, tokenObjects, naturals, natural, text, atInstant, nodeFields, idFields]

lemma Record.object_names (r : Record) :
    r.object.fields.map Prod.fst = r.object.type.fields.map Parameter.name := by
  cases r <;> rfl

lemma Record.object_wellFormed (h : r.check = .ok ()) : r.object.WellFormed where
  names := r.object_names
  fits := r.object_fits
  checked := object_checked h

lemma tokenObjects_inj {a b : List Token} : tokenObjects a = tokenObjects b ↔ a = b := by
  have hobject : Function.Injective Token.object := by
    intro t u h
    obtain ⟨color, data⟩ := t
    obtain ⟨color', data'⟩ := u
    cases color <;> cases color' <;> simp_all [Token.object]
  simp [tokenObjects, hobject.list_map.eq_iff]

lemma naturals_inj {a b : List Nat} : naturals a = naturals b ↔ a = b := by
  have hnumber : Function.Injective fun n : Nat => Json.num (.int n) := by
    intro m n h
    simpa using h
  simp [naturals, hnumber.list_map.eq_iff]

lemma optionalScope_inj {a b : Option LifecycleScope} :
    FieldValue.optionalScope a = FieldValue.optionalScope b ↔ a = b := by
  cases a <;> cases b <;> simp [FieldValue.optionalScope]

lemma optionalNatural_inj {a b : Option Nat} : optionalNatural a = optionalNatural b ↔ a = b := by
  cases a <;> cases b <;> simp [optionalNatural, natural]

lemma optionalText_inj {a b : Option String} : optionalText a = optionalText b ↔ a = b := by
  cases a <;> cases b <;> simp [optionalText, text]

lemma scopeTarget_inj {a b : ScopeTarget} : scopeTarget a = scopeTarget b ↔ a = b := by
  cases a <;> cases b <;> simp [scopeTarget, text]

lemma Movement.values_inj {a b : Movement} : a.values = b.values ↔ a = b := by
  obtain ⟨_, _, _, _, _, _⟩ := a
  obtain ⟨_, _, _, _, _, _⟩ := b
  simp [Movement.values, tokenObjects_inj, naturals_inj, optionalScope_inj, natural, atInstant]

lemma RegistrationFact.values_inj {a b : RegistrationFact} : a.values = b.values ↔ a = b := by
  obtain ⟨_, _, _, _⟩ := a
  obtain ⟨_, _, _, _⟩ := b
  simp [RegistrationFact.values, optionalNatural_inj, text, atInstant]

lemma number_inj {a b : Option PyNumber} :
    ActivityFailure.number a = ActivityFailure.number b ↔ a = b := by
  cases a <;> cases b <;> simp [ActivityFailure.number]

lemma failure_eq_iff {a b : ActivityFailure} :
    a = b ↔ a.error = b.error ∧ a.kind = b.kind ∧ a.details = b.details ∧
      a.retryable = b.retryable ∧ a.retryAfter = b.retryAfter := by
  obtain ⟨_, _, _, _, _, _, _, _⟩ := a
  obtain ⟨_, _, _, _, _, _, _, _⟩ := b
  simp

lemma Record.object_injective {r' : Record} (h : r.object = r'.object) : r = r' := by
  have htype := congrArg RecordObject.type h
  have hfields := congrArg RecordObject.fields h
  clear h
  cases r <;> cases r' <;> first
    | (simp only [Record.object, reduceCtorEq] at htype; done)
    | (clear htype
       rename_i r r'
       cases r
       cases r'
       simp only [Record.object, List.cons.injEq, Prod.mk.injEq, true_and, and_true] at hfields
       simp_all [tokenObjects_inj, naturals_inj, optionalScope_inj, optionalText_inj,
         scopeTarget_inj, Movement.values_inj, RegistrationFact.values_inj, number_inj,
         failure_eq_iff, text, natural, atInstant])

end Typed

def DistinctNames : Json → Prop
  | .obj ms => (ms.map Prod.fst).Nodup
  | _ => True

def isObject : Json → Bool
  | .obj _ => true
  | _ => false

/-- Writer-valid records survive the codec and share no encoding; an accepted payload is spelled as
its record is exactly when it is an object. -/
theorem codec_faithful (r r' : Record) (payload : Json) (o : RecordObject) :
    (r.check = .ok () → decodeRecord (encodeRecord r.object) = .ok r.object) ∧
      (r.check = .ok () → r'.check = .ok () →
        encodeRecord r.object = encodeRecord r'.object → r = r') ∧
      (DistinctNames payload → decodeRecord payload = .ok o →
        ((encodeRecord o).spelling = payload.spelling ↔ isObject payload = true)) := by
  refine ⟨fun h => decodeRecord_encodeRecord (Record.object_wellFormed h), ?_, ?_⟩
  · intro h h' hencoded
    have hdecoded := decodeRecord_encodeRecord (Record.object_wellFormed h)
    rw [hencoded, decodeRecord_encodeRecord (Record.object_wellFormed h')] at hdecoded
    exact (Record.object_injective (Except.ok.inj hdecoded)).symm
  · intro hdistinct h
    cases payload with
    | obj ms => exact ⟨fun _ => rfl, fun _ => decodeRecord_spelling hdistinct h⟩
    | _ => simp [isObject, encodeRecord, Json.spelling, Json.normal]

def completion (transition : NetPath) : Record :=
  .firingCompleted { transition, occurrence := 1 }

theorem codec_faithful_completion :
    (completion nodeT).check = .ok () ∧
      decodeRecord (encodeRecord (completion nodeT).object) = .ok (completion nodeT).object ∧
      DistinctNames (encodeRecord (completion nodeT).object) ∧
      isObject (encodeRecord (completion nodeT).object) = true := by
  have hcheck : (completion nodeT).check = .ok () := by decide
  have hdistinct : DistinctNames (encodeRecord (completion nodeT).object) := by
    simp [DistinctNames, encodeRecord, completion, Record.object]
  have hfaithful := codec_faithful (completion nodeT) (completion nodeT)
    (encodeRecord (completion nodeT).object) (completion nodeT).object
  have hdecoded := hfaithful.1 hcheck
  exact ⟨hcheck, hdecoded, hdistinct, (hfaithful.2.2 hdistinct hdecoded).mp rfl⟩

def pairedCompletion : Json :=
  .arr [.arr [.str "record", .str "FiringCompleted"], .arr [.str "schema", .num (.int 5)],
    .arr [.str "transition", .str "t"], .arr [.str "occurrence", .num (.int 1)],
    .arr [.str "instant", .num (.int 0)]]

/-- The array decodes to the record, which is spelled as an object. -/
theorem codec_accepts_pairs :
    decodeRecord pairedCompletion = .ok (completion nodeT).object ∧
      (encodeRecord (completion nodeT).object).spelling ≠ pairedCompletion.spelling := by
  constructor
  · decide +kernel
  · decide +kernel

end Petrus.Impetus
