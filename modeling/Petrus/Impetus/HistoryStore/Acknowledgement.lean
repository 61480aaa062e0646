import Petrus.Impetus.HistoryStore.Forks

/-!
# Acknowledged conflicts

A store takes the losing one of two terminal facts for stored when Python's `==` finds
the stored payload equal to it. The writer tells the integer 1, the float 1.0 and the
boolean true apart, so the two agree only where equal payloads carry scalars of one
type at every position.
-/

namespace Petrus.Impetus.HistoryStore

open Lib Motus List

variable {B : Backend} {owner : String} {rows : List Row} {position p : Nat} {a b r : Record}
  {stored : Row}

/-- What the unique indices and the stores guarantee of a table. -/
structure Table (B : Backend) (rows : List Row) : Prop where
  written : ∀ row ∈ rows, ∃ r : Record, row = Row.of B row.position r
  positions : (rows.map Row.position).Nodup
  oneTerminal : OneTerminal rows

def Acknowledged (B : Backend) (owner : String) (rows : List Row) (position : Nat) (b : Record) :
    Prop :=
  ∃ fills, verifyConflict B owner rows (Row.of B position b) (encodeRecord b.object) = .ok fills

lemma sameSlot_iff {x y : Row} : x.sameSlot y = true ↔
    ∃ f n, family x.recordType = some f ∧ x.occurrence = some n ∧ family y.recordType = some f ∧
      y.occurrence = some n := by
  simp only [Row.sameSlot, Bool.and_eq_true, decide_eq_true_eq, Option.isSome_iff_exists]
  constructor
  · rintro ⟨⟨⟨⟨f, hf⟩, hfamily⟩, n, hn⟩, hoccurrence⟩
    exact ⟨f, n, hf, hn, hfamily ▸ hf, hoccurrence ▸ hn⟩
  · rintro ⟨f, n, hf, hn, hf', hn'⟩
    exact ⟨⟨⟨⟨f, hf⟩, hf.trans hf'.symm⟩, n, hn⟩, hn.trans hn'.symm⟩

lemma OneTerminal.unique (h : OneTerminal rows) {x y : Row} (hx : x ∈ rows) (hy : y ∈ rows)
    (hslot : x.sameSlot y = true) : x = y := by
  obtain ⟨f, n, hfx, hnx, hfy, hny⟩ := sameSlot_iff.mp hslot
  have hone := h f n
  have hmem : ∀ z ∈ rows, family z.recordType = some f → z.occurrence = some n →
      z ∈ rows.filter fun row => family row.recordType = some f ∧ row.occurrence = some n := by
    intro z hz hf hn
    exact mem_filter.mpr ⟨hz, decide_eq_true ⟨hf, hn⟩⟩
  obtain ⟨i, hi, hx⟩ := getElem_of_mem (hmem x hx hfx hnx)
  obtain ⟨j, hj, hy⟩ := getElem_of_mem (hmem y hy hfy hny)
  obtain rfl : i = j := by omega
  rw [← hx, ← hy]

/-- The columns of the two stores. -/
def Backend.Provided (B : Backend) : Prop := B = sqlite ∨ ∃ decimal, B = postgres decimal

/-- A column keeps the names of a record's members, its texts and its integers. -/
lemma Backend.Provided.column (h : B.Provided) (ms : List (String × Json)) :
    ∃ ns, B.column (.obj ms) = .obj ns ∧ (ms.map Prod.fst).Perm (ns.map Prod.fst) ∧
      (∀ k s, (k, .str s) ∈ ms → (k, .str s) ∈ ns) ∧
      ∀ k i, (k, .num (.int i)) ∈ ms → (k, .num (.int i)) ∈ ns := by
  rcases h with rfl | ⟨decimal, rfl⟩
  · exact ⟨ms, rfl, .rfl, fun _ _ => id, fun _ _ => id⟩
  · refine ⟨_, rfl, ?_, fun k s hmem => ?_, fun k i hmem => ?_⟩
    · rw [← Json.keys_normalMembers _ ms]
      exact (Json.sortMembers_perm _).symm.map _
    · exact (Json.sortMembers_perm _).mem_iff.mpr (Json.mem_normalMembers.mpr ⟨_, hmem, rfl⟩)
    · exact (Json.sortMembers_perm _).mem_iff.mpr (Json.mem_normalMembers.mpr ⟨_, hmem, rfl⟩)

lemma member_value {ms : List (String × Json)} {o : RecordObject}
    (h : (Json.obj ms).value = (encodeRecord o).value)
    (hnames : o.fields.map Prod.fst = o.type.fields.map Parameter.name) {k : String} {v v' : Json}
    (hv : (k, v) ∈ ms) (hv' : (k, v') ∈ o.members) : v.value = v'.value := by
  obtain ⟨found, hfound, hvalue⟩ := Json.normal_counterpart h hv
  have hsame : (k, found) = (k, v') :=
    inj_on_of_nodup_map (RecordObject.members_nodup hnames) hfound hv' rfl
  rw [Prod.mk.injEq] at hsame
  rw [← hsame.2]
  exact hvalue.symm

lemma terminal_occurrence {f : Family} (h : family r.object.type = some f) :
    ∃ n, r.occurrence? = some n ∧ ("occurrence", Json.num (.int n)) ∈ r.object.members := by
  cases r <;> first
    | (simp [Record.object, family] at h; done)
    | exact ⟨_, rfl, by simp [RecordObject.members, Record.object, FieldValue.natural,
        FieldValue.encoded]⟩

lemma columns_of_value (hB : B.Provided) {f : Family}
    (h : (B.column (encodeRecord a.object)).value = (encodeRecord b.object).value)
    (hb : family b.object.type = some f) :
    a.object.type = b.object.type ∧ a.occurrence? = b.occurrence? := by
  obtain ⟨ns, hns, -, htexts, hintegers⟩ := hB.column a.object.members
  rw [show B.column (encodeRecord a.object) = .obj ns from hns] at h
  have htype : a.object.type = b.object.type := by
    have hname := member_value h b.object_names (htexts "record" _ mem_cons_self) mem_cons_self
    exact RecordType.name_injective (by simpa [Json.value, Json.normal] using hname)
  obtain ⟨n, hn, hmem⟩ := terminal_occurrence (htype ▸ hb)
  obtain ⟨m, hm, hmem'⟩ := terminal_occurrence hb
  have hvalue := member_value h b.object_names (hintegers _ _ hmem) hmem'
  have heq : n = m := by simpa [Json.value, Json.normal, PyNumber.value] using hvalue
  exact ⟨htype, by rw [hn, hm, heq]⟩

lemma storedTerminal_eq_some (htable : Table B rows) {row : Row} (hstored : stored ∈ rows)
    (hslot : stored.sameSlot row = true) : storedTerminal rows row = some stored := by
  obtain ⟨f, n, hf, hn, hfr, hnr⟩ := sameSlot_iff.mp hslot
  simp only [storedTerminal, hfr, hnr, Option.isSome_some, Bool.true_and]
  cases hfind : rows.find? fun found =>
      decide (found.occurrence = some n) && decide (family found.recordType = some f) with
  | none =>
    have hnone := find?_eq_none.mp hfind stored hstored
    simp [hf, hn] at hnone
  | some found =>
    have hfound := find?_some hfind
    simp only [Bool.and_eq_true, decide_eq_true_eq] at hfound
    rw [htable.oneTerminal.unique (mem_of_find?_eq_some hfind) hstored
      (sameSlot_iff.mpr ⟨f, n, hfound.2, hfound.1, hf, hn⟩)]

lemma Table.find_position (htable : Table B rows) {row : Row} :
    rows.find? (fun found => found.position = position) = some row ↔
      row ∈ rows ∧ row.position = position := by
  constructor
  · intro h
    exact ⟨mem_of_find?_eq_some h, by simpa using find?_some h⟩
  · rintro ⟨hmem, rfl⟩
    cases hfind : rows.find? fun found => decide (found.position = row.position) with
    | none => exact absurd (decide_eq_true rfl) (find?_eq_none.mp hfind row hmem)
    | some found =>
      have hposition : found.position = row.position := by simpa using find?_some hfind
      rw [inj_on_of_nodup_map htable.positions (mem_of_find?_eq_some hfind) hmem hposition]

lemma acknowledged_iff (hB : B.Provided) (htable : Table B rows) (hstored : Row.of B p a ∈ rows)
    (hslot : (Row.of B p a).sameSlot (Row.of B position b) = true) :
    Acknowledged B owner rows position b ↔
      (∀ row ∈ rows, row.position = position → row = Row.of B p a) ∧
        (Row.of B p a).payload.value = (encodeRecord b.object).value := by
  have hterminal := storedTerminal_eq_some htable hstored hslot
  unfold Acknowledged verifyConflict
  cases hfind : rows.find? fun found =>
    decide (found.position = (Row.of B position b).position) with
  | none =>
    have hfree : ∀ row ∈ rows, row.position ≠ position := by
      intro row hrow hposition
      exact find?_eq_none.mp hfind row hrow (decide_eq_true hposition)
    simp only [hterminal]
    constructor
    · rintro ⟨fills, h⟩
      split_ifs at h with hvalue
      exact ⟨fun row hrow hposition => absurd hposition (hfree row hrow), hvalue⟩
    · rintro ⟨-, hvalue⟩
      exact ⟨false, by rw [if_pos hvalue]⟩
  | some found =>
    obtain ⟨hmem, hposition⟩ := htable.find_position.mp hfind
    simp only
    constructor
    · rintro ⟨fills, h⟩
      split_ifs at h with hvalue
      -- A row of the value of `b` is a terminal fact of the same occurrence: the stored one.
      obtain ⟨r, hr⟩ := htable.written found hmem
      rw [hr] at hvalue
      obtain ⟨f, n, hf, hn, hfb, hnb⟩ := sameSlot_iff.mp hslot
      obtain ⟨htype, hoccurrence⟩ := columns_of_value hB hvalue hfb
      have hfound : found = Row.of B p a := by
        refine htable.oneTerminal.unique hmem hstored (sameSlot_iff.mpr ⟨f, n, ?_, ?_, hf, hn⟩)
        · rw [hr]
          exact (congrArg family htype).trans hfb
        · rw [hr]
          exact hoccurrence.trans hnb
      refine ⟨?_, by rw [← hfound, hr, hvalue]⟩
      intro row hrow hat
      rw [← hfound]
      exact inj_on_of_nodup_map htable.positions hrow hmem (hat.trans hposition.symm)
    · rintro ⟨honly, hvalue⟩
      exact ⟨true, by rw [honly found hmem hposition, if_pos hvalue]⟩

/-- A store acknowledges only what is spelled as the stored payload exactly when equal payloads
carry scalars of one type everywhere; a fact read back is spelled as its row, so that a report the
store acknowledges is to a writer loaded from it the report it holds. -/
theorem acknowledges_only_identical (B : Backend) (hB : B.Provided) (owner : String)
    (rows : List Row) (htable : Table B rows) (p position : Nat) (a b : Record)
    (hstored : Row.of B p a ∈ rows)
    (hslot : (Row.of B p a).sameSlot (Row.of B position b) = true) :
    ((Acknowledged B owner rows position b →
        (Row.of B p a).payload.spelling = (encodeRecord b.object).spelling) ↔
      ((∀ row ∈ rows, row.position = position → row = Row.of B p a) →
        (Row.of B p a).payload.value = (encodeRecord b.object).value →
          (Row.of B p a).payload.kinds = (encodeRecord b.object).kinds)) ∧
      (∀ o, decodeRecord (Row.of B p a).payload = .ok o →
        (encodeRecord o).spelling = (Row.of B p a).payload.spelling) ∧
      ∀ x y, decodeRecord (Row.of B p a).payload = .ok (Record.activityCompleted x).object →
        b = .activityCompleted y →
          (Row.of B p a).payload.spelling = (encodeRecord b.object).spelling →
            Outcome.sameSpelling (.completed x.result) (.completed y.result) = true := by
  have hdecoded : ∀ o, decodeRecord (Row.of B p a).payload = .ok o →
      (encodeRecord o).spelling = (Row.of B p a).payload.spelling := by
    obtain ⟨ns, hns, hnames, -⟩ := hB.column a.object.members
    intro o h
    rw [show (Row.of B p a).payload = .obj ns from hns] at h ⊢
    exact decodeRecord_spelling (hnames.nodup (encodeRecord_distinct a)) h
  refine ⟨?_, hdecoded, ?_⟩
  · rw [acknowledged_iff hB htable hstored hslot, and_imp]
    exact forall_congr' fun _ => forall_congr' Json.spelling_iff_kinds
  · rintro x y hread rfl hspelling
    have hresult : x.result.spelling = y.result.spelling := by
      refine Json.spelling_member ((hdecoded _ hread).trans hspelling) (k := "result")
        (a := x.result) ?_ ?_
      · simp [Record.object, FieldValue.encoded]
      · intro c hc
        simpa [Record.object, FieldValue.encoded] using hc
    simpa [Outcome.sameSpelling] using hresult

def reported (result : Json) : Record :=
  .activityCompleted { transition := nodeT, result, occurrence := 1 }

def reportedOne (B : Backend) : List Row :=
  [Row.of B 0 created, Row.of B 1 (reported (.num (.int 1)))]

lemma reportedOne_table (B : Backend) : Table B (reportedOne B) where
  written := by
    intro row hrow
    rcases mem_pair.mp hrow with rfl | rfl
    · exact ⟨created, rfl⟩
    · exact ⟨reported (.num (.int 1)), rfl⟩
  positions := by simp [reportedOne, Row.of]
  oneTerminal := by
    intro f n
    have hcreated : family created.object.type = none := rfl
    simp only [reportedOne, Row.of, hcreated, filter_cons, reduceCtorEq, false_and,
      decide_false, Bool.false_eq_true, if_false]
    split_ifs <;> simp

/-- The float `1e23` is written `1e+23` and reads back as an integer. -/
def numeric (d : Dyadic) : PyNumber :=
  if d = .ofInt 99999999999999991611392 then .int (10 ^ 23) else .float d

/-- The store, told the same integer again, acknowledges the same text. -/
def ToldAgain (B : Backend) : Prop :=
  Acknowledged B "i" (reportedOne B) 2 (reported (.num (.int 1))) ∧
    (Row.of B 1 (reported (.num (.int 1)))).payload.spelling =
      (encodeRecord (reported (.num (.int 1))).object).spelling

theorem acknowledges_only_identical_one : ToldAgain sqlite ∧ ToldAgain (postgres numeric) := by
  have htold : ∀ B : Backend, B.Provided →
      Acknowledged B "i" (reportedOne B) 2 (reported (.num (.int 1))) →
      (Row.of B 1 (reported (.num (.int 1)))).payload.kinds =
        (encodeRecord (reported (.num (.int 1))).object).kinds → ToldAgain B := by
    intro B hprovided hacknowledged hkinds
    have hiff := (acknowledges_only_identical B hprovided "i" (reportedOne B) (reportedOne_table B)
      1 2 (reported (.num (.int 1))) (reported (.num (.int 1))) (by simp [reportedOne])
      (show Row.sameSlot _ _ = true from rfl)).1
    exact ⟨hacknowledged, hiff.mpr (fun _ _ => hkinds) hacknowledged⟩
  exact ⟨htold _ (.inl rfl) ⟨false, by decide +kernel⟩ rfl,
    htold _ (.inr ⟨numeric, rfl⟩) ⟨false, by decide +kernel⟩ (by decide +kernel)⟩

/-- The stored result is the integer 1, the late one the boolean true: both stores acknowledge it,
at the position of the first and past the end, and the writer would refuse it. -/
theorem store_acknowledges_other_type :
    (∀ B ∈ [sqlite, postgres numeric], Table B (reportedOne B)) ∧
      Acknowledged sqlite "i" (reportedOne sqlite) 1 (reported (.bool true)) ∧
      Acknowledged sqlite "i" (reportedOne sqlite) 2 (reported (.bool true)) ∧
      Acknowledged (postgres numeric) "i" (reportedOne (postgres numeric)) 2
        (reported (.bool true)) ∧
      (encodeRecord (reported (.num (.int 1))).object).spelling ≠
        (encodeRecord (reported (.bool true)).object).spelling ∧
      Outcome.sameSpelling (.completed (.num (.int 1))) (.completed (.bool true)) = false := by
  refine ⟨fun B _ => reportedOne_table B, ⟨true, ?_⟩, ⟨false, ?_⟩, ⟨false, ?_⟩, ?_, ?_⟩
  · decide +kernel
  · decide +kernel
  · decide +kernel
  · decide +kernel
  · decide

end Petrus.Impetus.HistoryStore
