import Mathlib

/-!
# Texts made of lines

A text of lines that are each closed by a separator, and what is left of a cut of such
a text when its last, unfinished line is thrown away.
-/

namespace Petrus.Lib

open List

variable {α : Type} [DecidableEq α] (sep : α)

def terminated (lines : List (List α)) : List α := lines.flatMap fun line => line ++ [sep]

def completed (text : List α) : List α := (text.reverse.dropWhile fun a => a ≠ sep).reverse

variable {sep}

omit [DecidableEq α] in
@[simp] lemma terminated_cons (line : List α) (lines : List (List α)) :
    terminated sep (line :: lines) = line ++ sep :: terminated sep lines := by
  simp [terminated]

lemma completed_of_not_mem {text : List α} (h : sep ∉ text) : completed sep text = [] := by
  rw [completed, reverse_eq_nil_iff, dropWhile_eq_nil_iff]
  intro a ha
  rw [decide_eq_true_eq]
  rintro rfl
  exact h (mem_reverse.mp ha)

lemma completed_append (line text : List α) :
    completed sep (line ++ sep :: text) = line ++ sep :: completed sep text := by
  rw [completed, completed, reverse_append, reverse_cons, append_assoc, dropWhile_append]
  split_ifs with hempty
  · rw [List.isEmpty_iff.mp hempty]
    simp
  · simp

lemma completed_of_cut {lines : List (List α)} {text : List α} (h : ∀ line ∈ lines, sep ∉ line)
    (hcut : text <+: terminated sep lines) :
    completed sep text = terminated sep (lines.take (text.count sep)) := by
  induction lines generalizing text with
  | nil =>
    rw [prefix_nil.mp hcut]
    rfl
  | cons line lines ih =>
    rw [terminated_cons] at hcut
    by_cases hmem : sep ∈ text
    · -- The first line is whole.
      have hline : line ++ [sep] <+: text := by
        have hwhole : line ++ [sep] <+: line ++ sep :: terminated sep lines :=
          ⟨terminated sep lines, by simp⟩
        rcases prefix_or_prefix_of_prefix hcut hwhole with hshort | hlong
        · rcases prefix_concat_iff.mp hshort with rfl | hinside
          · exact prefix_rfl
          · exact absurd (hinside.mem hmem) (h line (by simp))
        · exact hlong
      obtain ⟨rest, rfl⟩ := hline
      have hrest : rest <+: terminated sep lines := by
        rw [append_assoc, prefix_append_right_inj, singleton_append, cons_prefix_cons] at hcut
        exact hcut.2
      have hcount : (line ++ [sep] ++ rest).count sep = rest.count sep + 1 := by
        rw [append_assoc, count_append, count_eq_zero.mpr (h line (by simp))]
        simp
      rw [hcount, take_succ_cons, terminated_cons, append_assoc, singleton_append,
        completed_append, ih (fun l hl => h l (by simp [hl])) hrest]
    · rw [completed_of_not_mem hmem, count_eq_zero.mpr hmem]
      rfl

lemma completed_of_getLast? {text : List α} (h : text.getLast? = some sep) :
    completed sep text = text := by
  obtain ⟨line, rfl⟩ := getLast?_eq_some_iff.mp h
  rw [completed_append, completed_of_not_mem not_mem_nil]

omit [DecidableEq α] in
lemma getLast?_terminated {lines : List (List α)} (h : lines ≠ []) :
    (terminated sep lines).getLast? = some sep := by
  obtain ⟨init, last, rfl⟩ := eq_nil_or_concat lines |>.resolve_left h
  simp [terminated]

end Petrus.Lib
