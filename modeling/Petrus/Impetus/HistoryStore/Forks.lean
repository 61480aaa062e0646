import Petrus.Impetus.HistoryStore.Sqlite
import Petrus.Impetus.Properties.Codec
import Petrus.Lib.PrefixBy

/-!
# Twin writers

Whatever the interleaving of stores on one table, its rows stay dense and are never
rewritten, each memory is a prefix of them up to Python equality, and no occurrence
has two terminal facts of one family. A store that lags behind stores nothing at the
positions already taken: its batch starts with what stands there, or it raises.
-/

namespace Petrus.Impetus.HistoryStore

open Lib List

variable {owner : String} {rows : List Row} {row : Row} {memory : List RecordObject}
  {batch : List Record} {c c' : Commit} {r : Record} {w : World}

def Dense (rows : List Row) : Prop := rows.map Row.position = List.range rows.length

def OneTerminal (rows : List Row) : Prop :=
  ∀ f n,
    (rows.filter fun row => family row.recordType = some f ∧ row.occurrence = some n).length ≤ 1

def Mirrors (o : RecordObject) (row : Row) : Prop := (encodeRecord o).value = row.payload.value

/-- What every table the stores wrote satisfies. -/
structure Written (rows : List Row) : Prop where
  dense : Dense rows
  encoded : ∀ row ∈ rows, ∃ r : Record, row.payload = encodeRecord r.object
  oneTerminal : OneTerminal rows

lemma Written.nil : Written [] := ⟨rfl, by simp, by simp [OneTerminal]⟩

lemma Dense.getElem_position (h : Dense rows) {i : Nat} (hi : i < rows.length) :
    rows[i].position = i := by
  have hget := congrArg (fun l => l[i]?) h
  simpa [hi] using hget

lemma Dense.find (h : Dense rows) (position : Nat) :
    rows.find? (fun stored => stored.position = position) = rows[position]? := by
  by_cases hi : position < rows.length
  · rw [getElem?_eq_getElem hi, find?_eq_some_iff_getElem]
    refine ⟨by simpa using h.getElem_position hi, position, hi, rfl, ?_⟩
    intro j hj
    have hposition := h.getElem_position (hj.trans hi)
    simp only [hposition, Bool.not_eq_eq_eq_not, Bool.not_true, decide_eq_false_iff_not]
    omega
  · rw [getElem?_eq_none (by omega), find?_eq_none]
    intro stored hstored
    obtain ⟨j, hj, rfl⟩ := getElem_of_mem hstored
    simp only [h.getElem_position hj, decide_eq_true_eq]
    omega

lemma conflicts_eq_false : conflicts rows row = false ↔
    ∀ stored ∈ rows, stored.position ≠ row.position ∧ stored.sameSlot row = false := by
  simp [conflicts, any_eq_false]

lemma Dense.length_le (h : Dense rows) (hfree : conflicts rows row = false) :
    rows.length ≤ row.position := by
  by_contra hlt
  have hi : row.position < rows.length := by omega
  exact (conflicts_eq_false.mp hfree _ (getElem_mem hi)).1 (h.getElem_position hi)

lemma Written.append (h : Written rows) (hposition : row.position = rows.length)
    (hfree : conflicts rows row = false)
    (hrow : ∃ r : Record, row.payload = encodeRecord r.object) : Written (rows ++ [row]) where
  dense := by
    have hdense : rows.map Row.position = List.range rows.length := h.dense
    simp [Dense, hdense, hposition, range_succ]
  encoded := by
    intro stored hstored
    rcases mem_append.mp hstored with hmem | hmem
    · exact h.encoded stored hmem
    · rwa [mem_singleton.mp hmem]
  oneTerminal := by
    intro f n
    rw [filter_append]
    by_cases hslot : family row.recordType = some f ∧ row.occurrence = some n
    · -- The index admitted the row, so the slot was empty.
      have hempty : rows.filter
          (fun row => family row.recordType = some f ∧ row.occurrence = some n) = [] := by
        rw [filter_eq_nil_iff]
        intro stored hmem hstored
        have hstored := of_decide_eq_true hstored
        have hnot := (conflicts_eq_false.mp hfree stored hmem).2
        simp [Row.sameSlot, hstored, hslot] at hnot
      rw [hempty]
      simp [hslot]
    · simpa [hslot] using h.oneTerminal f n

lemma storedTerminal_mem {stored : Row} (h : storedTerminal rows row = some stored) :
    stored ∈ rows := by
  unfold storedTerminal at h
  split at h
  · cases h
  · exact mem_of_find?_eq_some h

lemma verifyConflict_eq_ok {B : Backend} {appending : Json} {fills : Bool} (hdense : Dense rows)
    (h : verifyConflict B owner rows row appending = .ok fills) :
    ∃ stored, stored.payload.value = appending.value ∧
      (fills = true ∧ rows[row.position]? = some stored ∨
        fills = false ∧ rows[row.position]? = none ∧ stored ∈ rows) := by
  unfold verifyConflict at h
  rw [hdense.find row.position] at h
  cases hstored : rows[row.position]? with
  | some stored =>
    simp only [hstored] at h
    split_ifs at h with hvalue
    cases h
    exact ⟨stored, hvalue, .inl ⟨rfl, rfl⟩⟩
  | none =>
    simp only [hstored] at h
    split at h
    · cases h
    · rename_i terminal hterminal
      split_ifs at h with hvalue
      cases h
      exact ⟨terminal, hvalue, .inr ⟨rfl, rfl, storedTerminal_mem hterminal⟩⟩

lemma Commit.append_eq_ok (hdense : Dense c.rows) (hposition : c.position ≤ c.rows.length)
    (h : c.append sqlite owner r = .ok c') :
    (c.position = c.rows.length ∧ conflicts c.rows (Row.of sqlite c.position r) = false ∧
        c' = c.fill (c.rows ++ [Row.of sqlite c.position r]) r) ∨
      (∃ stored, c.rows[c.position]? = some stored ∧ Mirrors r.object stored ∧
        c' = c.fill c.rows r) ∨
      (c.position = c.rows.length ∧ (∃ stored ∈ c.rows, Mirrors r.object stored) ∧ c' = c) := by
  simp only [Commit.append] at h
  split_ifs at h with hconflict
  · obtain ⟨fills, hverify, h⟩ := bind_eq_ok.mp h
    cases h
    obtain ⟨stored, hvalue, ⟨rfl, hstored⟩ | ⟨rfl, hfree, hmem⟩⟩ :=
      verifyConflict_eq_ok hdense hverify
    · exact .inr (.inl ⟨stored, hstored, hvalue.symm, rfl⟩)
    · have hlength : c.rows.length ≤ c.position := List.getElem?_eq_none_iff.mp hfree
      exact .inr (.inr ⟨le_antisymm hposition hlength, ⟨stored, hmem, hvalue.symm⟩, rfl⟩)
  · cases h
    rw [Bool.not_eq_true] at hconflict
    exact .inl ⟨le_antisymm hposition (hdense.length_le hconflict), hconflict, rfl⟩

/-- A batch under way: the memory it grows is a prefix of the table it grows. -/
structure Commit.Sound (memory : List RecordObject) (c : Commit) : Prop where
  written : Written c.rows
  position : c.position = (memory ++ c.entered).length
  mirrored : PrefixBy Mirrors (memory ++ c.entered) c.rows

lemma Commit.Sound.position_le (h : c.Sound memory) : c.position ≤ c.rows.length :=
  h.position ▸ h.mirrored.length_le

lemma Commit.Sound.fill (h : c.Sound memory) {rows : List Row} (hwritten : Written rows)
    (hrows : c.rows <+: rows) {stored : Row} (hstored : rows[c.position]? = some stored)
    (hmirrors : Mirrors r.object stored) : (c.fill rows r).Sound memory where
  written := hwritten
  position := by
    simp only [Commit.fill, h.position, length_append, length_singleton]
    omega
  mirrored := by
    obtain ⟨new, rfl⟩ := hrows
    change PrefixBy Mirrors (memory ++ (c.entered ++ [r.object])) _
    rw [← append_assoc]
    exact (h.mirrored.append new).snoc (h.position ▸ hstored) hmirrors

lemma Commit.Sound.step (h : c.Sound memory) (hstep : c.append sqlite owner r = .ok c') :
    c'.Sound memory := by
  rcases Commit.append_eq_ok h.written.dense h.position_le hstep with
    ⟨hend, hfree, rfl⟩ | ⟨stored, hstored, hmirrors, rfl⟩ | ⟨-, -, rfl⟩
  · have hlast : (c.rows ++ [Row.of sqlite c.position r])[c.position]? =
        some (Row.of sqlite c.position r) := by
      rw [hend, getElem?_concat_length]
    have hmirrors : Mirrors r.object (Row.of sqlite c.position r) := rfl
    exact h.fill (h.written.append hend hfree ⟨r, rfl⟩) (prefix_append _ _) hlast hmirrors
  · exact h.fill h.written (prefix_refl _) hstored hmirrors
  · exact h

/-- The table was extended by rows for the records of a batch that it did not hold yet. The batch
first meets the rows from `position` on, and reaches past the end only if it agrees with them
all. -/
def Overlap (rows : List Row) (position : Nat) (batch : List Record) (rows' : List Row) : Prop :=
  ∃ same rest new, batch = same ++ rest ∧
    PrefixBy (fun r row => Mirrors (Record.object r) row) same (rows.drop position) ∧
    (rest = [] ∨ position + same.length = rows.length) ∧ rows' = rows ++ new ∧
    (new.map Row.payload).Sublist (rest.map fun r => encodeRecord r.object) ∧
    ∀ r ∈ batch, ∃ row ∈ rows', Mirrors r.object row

lemma Commit.Sound.atEnd (h : c.Sound memory) (hend : c.position = c.rows.length)
    (hfold : batch.foldlM (Commit.append sqlite owner) c = .ok c') :
    ∃ new, c'.rows = c.rows ++ new ∧
      (new.map Row.payload).Sublist (batch.map fun r => encodeRecord r.object) ∧
      ∀ r ∈ batch, ∃ row ∈ c'.rows, Mirrors r.object row := by
  induction batch generalizing c with
  | nil =>
    cases hfold
    exact ⟨[], by simp, List.Sublist.slnil, by simp⟩
  | cons r batch ih =>
    obtain ⟨mid, hstep, hrest⟩ := foldlM_cons_eq_ok.mp hfold
    have hmid := h.step hstep
    rcases Commit.append_eq_ok h.written.dense h.position_le hstep with
      ⟨-, -, rfl⟩ | ⟨stored, hstored, -⟩ | ⟨-, ⟨stored, hmem, hmirrors⟩, rfl⟩
    · obtain ⟨new, hrows, hnew, hdurable⟩ := ih hmid (by simp [Commit.fill, hend]) hrest
      refine ⟨Row.of sqlite c.position r :: new, ?_, ?_, ?_⟩
      · rw [hrows, Commit.fill, append_assoc]
        rfl
      · exact hnew.cons_cons _
      · rw [forall_mem_cons]
        refine ⟨⟨Row.of sqlite c.position r, ?_, rfl⟩, hdurable⟩
        rw [hrows, Commit.fill]
        simp
    · rw [hend, getElem?_eq_none le_rfl] at hstored
      cases hstored
    · obtain ⟨new, hrows, hnew, hdurable⟩ := ih hmid hend hrest
      refine ⟨new, hrows, hnew.cons _, ?_⟩
      rw [forall_mem_cons]
      exact ⟨⟨stored, hrows ▸ mem_append_left new hmem, hmirrors⟩, hdurable⟩

lemma Commit.Sound.overlap (h : c.Sound memory)
    (hfold : batch.foldlM (Commit.append sqlite owner) c = .ok c') :
    Overlap c.rows c.position batch c'.rows := by
  induction batch generalizing c with
  | nil =>
    cases hfold
    exact ⟨[], [], [], rfl, .nil, .inl rfl, by simp, List.Sublist.slnil, by simp⟩
  | cons r batch ih =>
    by_cases hend : c.position = c.rows.length
    · obtain ⟨new, hrows, hnew, hdurable⟩ := h.atEnd hend hfold
      exact ⟨[], r :: batch, new, rfl, .nil, .inr hend, hrows, hnew, hdurable⟩
    · obtain ⟨mid, hstep, hfold⟩ := foldlM_cons_eq_ok.mp hfold
      rcases Commit.append_eq_ok h.written.dense h.position_le hstep with
        ⟨hat, -⟩ | ⟨stored, hstored, hmirrors, rfl⟩ | ⟨hat, -⟩
      · exact absurd hat hend
      · obtain ⟨same, rest, new, rfl, hsame, hreach, hrows, hnew, hdurable⟩ :=
          ih (h.step hstep) hfold
        simp only [Commit.fill] at hsame hreach hrows
        have hdrop : c.rows.drop c.position = stored :: c.rows.drop (c.position + 1) := by
          obtain ⟨hlt, rfl⟩ := List.getElem?_eq_some_iff.mp hstored
          exact drop_eq_getElem_cons hlt
        refine ⟨r :: same, rest, new, rfl, ?_, ?_, hrows, hnew, ?_⟩
        · rw [hdrop]
          exact List.Forall₂.cons hmirrors hsame
        · refine hreach.imp_right ?_
          intro hlength
          rw [length_cons]
          omega
        · rw [forall_mem_cons]
          refine ⟨⟨stored, ?_, hmirrors⟩, hdurable⟩
          rw [hrows]
          exact mem_append_left new (mem_of_getElem? hstored)
      · exact absurd hat hend

lemma commitBatch_eq_ok {rows' : List Row} {memory' : List RecordObject} (h : Written rows)
    (hmemory : PrefixBy Mirrors memory rows)
    (hcommit : commitBatch sqlite owner rows memory batch = .ok (rows', memory')) :
    Written rows' ∧ PrefixBy Mirrors memory' rows' ∧ memory <+: memory' ∧
      Overlap rows memory.length batch rows' := by
  obtain ⟨c, hfold, hcommit⟩ := bind_eq_ok.mp hcommit
  cases hcommit
  have hstart : Commit.Sound memory ⟨rows, memory.length, []⟩ :=
    ⟨h, by simp, by simpa using hmemory⟩
  have hend : c.Sound memory :=
    foldlM_invariant (fun _ _ _ _ hc hstep => hc.step hstep) hstart hfold
  exact ⟨hend.written, hend.mirrored, prefix_append _ _, hstart.overlap hfold⟩

/-! ## Loading -/

lemma encodeRecord_distinct (r : Record) : DistinctNames (encodeRecord r.object) :=
  RecordObject.members_nodup r.object_names

lemma mirrors_of_decode {o : RecordObject}
    (hrow : ∃ r : Record, row.payload = encodeRecord r.object)
    (h : decodeRecord row.payload = .ok o) : Mirrors o row := by
  obtain ⟨r, hr⟩ := hrow
  rw [hr] at h
  obtain ⟨data, -, hdata, -, -, -, -, hvalue⟩ := decodeRecord_eq_ok h
  obtain ⟨data', hdata', -, hobject⟩ := toDict_obj (encodeRecord_distinct r)
  obtain rfl : data' = data := Except.ok.inj (hdata'.symm.trans hdata)
  rw [Mirrors, hvalue, hobject, hr]
  rfl

lemma Dense.sorted (h : Dense rows) :
    rows.insertionSort (fun a b => a.position ≤ b.position) = rows := by
  apply List.Pairwise.insertionSort_eq
  have hrange : (rows.map Row.position).Pairwise (· ≤ ·) := by
    rw [h]
    exact pairwise_lt_range.imp le_of_lt
  exact pairwise_map.mp hrange

lemma load_eq_ok (h : Written rows) (hload : load owner rows = .ok memory) :
    PrefixBy Mirrors memory rows := by
  unfold load at hload
  rw [h.dense.sorted] at hload
  have hall := mapM_eq_ok.mp hload
  apply PrefixBy.of_forall₂
  have hrows : List.Forall₂ (fun entry o => Mirrors o (Prod.fst entry)) rows.zipIdx memory := by
    refine forall₂_iff_zip.mpr ⟨hall.length_eq, ?_⟩
    intro entry o hmem
    have hentry : loadRow owner entry = .ok o := forall₂_zip hall hmem
    have hrow : entry.1 ∈ rows := fst_mem_of_mem_zipIdx (of_mem_zip hmem).1
    obtain ⟨-, hentry⟩ := require_bind_eq_ok.mp hentry
    obtain ⟨record, hdecode, hentry⟩ := bind_eq_ok.mp hentry
    obtain ⟨-, hentry⟩ := require_bind_eq_ok.mp hentry
    cases hentry
    exact mirrors_of_decode (h.encoded _ hrow) hdecode
  have hmap : List.Forall₂ Mirrors memory (rows.zipIdx.map Prod.fst) :=
    forall₂_map_right_iff.mpr hrows.flip
  rwa [zipIdx_map_fst] at hmap

/-! ## Every interleaving -/

/-- The table is well written and every memory mirrors a prefix of it. -/
structure World.Sound (w : World) : Prop where
  written : Written w.rows
  mirrored : ∀ handle memory, w.stores.get? handle = some memory → PrefixBy Mirrors memory w.rows

lemma World.Sound.set (h : w.Sound) {rows : List Row} {handle : Nat} (hwritten : Written rows)
    (hrows : w.rows <+: rows) (hmemory : PrefixBy Mirrors memory rows) :
    World.Sound ⟨rows, w.stores.set handle memory⟩ where
  written := hwritten
  mirrored := by
    obtain ⟨new, rfl⟩ := hrows
    intro other found hfound
    rw [Dict.get?_set] at hfound
    split_ifs at hfound
    · cases hfound
      exact hmemory
    · exact (h.mirrored other found hfound).append new

lemma World.Sound.perform (h : w.Sound) (op : Op) :
    (op.perform owner w).2.Sound ∧ w.rows <+: (op.perform owner w).2.rows := by
  cases op with
  | openStore handle =>
    simp only [Op.perform]
    cases hload : load owner w.rows with
    | ok memory =>
      exact ⟨h.set h.written (prefix_refl _) (load_eq_ok h.written hload), prefix_refl _⟩
    | error e => exact ⟨h, prefix_refl _⟩
  | commit handle batch =>
    cases hstore : w.stores.get? handle with
    | none =>
      rw [Op.perform_commit_unopened hstore]
      exact ⟨h, prefix_refl _⟩
    | some memory =>
      cases hcommit : commitBatch sqlite owner w.rows memory batch with
      | ok result =>
        obtain ⟨rows, memory'⟩ := result
        obtain ⟨hwritten, hmemory, -, _, _, new, -, -, -, rfl, -⟩ :=
          commitBatch_eq_ok h.written (h.mirrored handle memory hstore) hcommit
        rw [Op.perform_commit_ok hstore hcommit]
        exact ⟨h.set hwritten (prefix_append _ _) hmemory, prefix_append _ _⟩
      | error e =>
        rw [Op.perform_commit_error hstore hcommit]
        exact ⟨h, prefix_refl _⟩

lemma Reachable.sound (h : Reachable owner w) : w.Sound := by
  induction h with
  | empty => exact ⟨Written.nil, by simp⟩
  | step _ op ih => exact (ih.perform op).1

lemma World.Sound.play_rows (h : w.Sound) (ops : List Op) : w.rows <+: (w.play owner ops).rows := by
  induction ops generalizing w with
  | nil => exact prefix_refl _
  | cons op ops ih => exact (h.perform op).2.trans (ih (h.perform op).1)

/-- In every interleaving the table stays dense and append-only, every memory mirrors a prefix of
it and every terminal slot holds one fact. A commit raises and stores nothing, or the rows at its
positions are its own records and only what reaches past them is stored. -/
theorem twin_writers_agree (owner : String) (w : World) (h : Reachable owner w) :
    Dense w.rows ∧ OneTerminal w.rows ∧
      (∀ ops, w.rows <+: (w.play owner ops).rows) ∧
      ∀ handle memory, w.stores.get? handle = some memory →
        PrefixBy Mirrors memory w.rows ∧
          ∀ batch, (∃ e, (Op.commit handle batch).perform owner w = (.raised e, w)) ∨
            ∃ rows memory', (Op.commit handle batch).perform owner w =
                (.done, ⟨rows, w.stores.set handle memory'⟩) ∧
              memory <+: memory' ∧ Overlap w.rows memory.length batch rows := by
  have hsound := h.sound
  refine ⟨hsound.written.dense, hsound.written.oneTerminal, hsound.play_rows, ?_⟩
  intro handle memory hstore
  have hmirrored := hsound.mirrored handle memory hstore
  refine ⟨hmirrored, ?_⟩
  intro batch
  cases hcommit : commitBatch sqlite owner w.rows memory batch with
  | error e => exact .inl ⟨e, Op.perform_commit_error hstore hcommit⟩
  | ok result =>
    obtain ⟨rows, memory'⟩ := result
    obtain ⟨-, -, hgrows, hoverlap⟩ := commitBatch_eq_ok hsound.written hmirrored hcommit
    exact .inr ⟨rows, memory', Op.perform_commit_ok hstore hcommit, hgrows, hoverlap⟩

def created : Record := .instanceCreated { instanceId := "i" }

def twins : World := World.play "i" {} [.openStore 1, .openStore 2, .commit 1 [created]]

theorem twin_writers_agree_twins :
    Reachable "i" twins ∧ Dense twins.rows ∧ twins.stores.get? 2 = some [] ∧
      twins.rows.length = 1 := by
  have hreachable : Reachable "i" twins := Reachable.empty.play _
  exact ⟨hreachable, (twin_writers_agree "i" twins hreachable).1, by decide +kernel,
    by decide +kernel⟩

/-- The second store, still empty, repeats the first record and stores another one after it. -/
theorem late_writer_stores_more :
    Reachable "i" twins ∧ twins.stores.get? 2 = some [] ∧ twins.rows.length = 1 ∧
      (Op.perform "i" (.commit 2 [created, completion nodeT]) twins).1 = .done ∧
      (Op.perform "i" (.commit 2 [created, completion nodeT]) twins).2.rows.length = 2 := by
  have hreachable : Reachable "i" twins := Reachable.empty.play _
  exact ⟨hreachable, by decide +kernel, by decide +kernel, by decide +kernel, by decide +kernel⟩

end Petrus.Impetus.HistoryStore
