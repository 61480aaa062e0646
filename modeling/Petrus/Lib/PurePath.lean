import Mathlib

/-!
# Slash-separated paths

A path text is its components: empty ones and `.` are dropped, `..` is kept as it is. In its
normal form it has none of them but leading `..`.
-/

namespace Petrus.Lib

open List

structure PurePath where
  absolute : Bool
  parts : List String
  deriving DecidableEq

def IsName (c : String) : Prop := c ≠ "" ∧ c ≠ "." ∧ c ≠ ".." ∧ '/' ∉ c.toList

instance (c : String) : Decidable (IsName c) :=
  inferInstanceAs (Decidable (c ≠ "" ∧ c ≠ "." ∧ c ≠ ".." ∧ '/' ∉ c.toList))

namespace PurePath

def parse (s : String) : PurePath where
  absolute := decide (s.toList.head? = some '/')
  parts := ((s.toList.splitOn '/').filter fun c => decide (c ≠ [] ∧ c ≠ ['.'])).map String.ofList

/-- The components as they are written, empty ones and `.` among them. -/
def names (s : String) : List String := (s.toList.splitOn '/').map String.ofList

def joined (parts : List String) : List Char := ['/'].intercalate (parts.map String.toList)

def posix (p : PurePath) : String :=
  if p.absolute then String.ofList ('/' :: joined p.parts)
  else if p.parts = [] then "." else String.ofList (joined p.parts)

def parent (p : PurePath) : PurePath := { p with parts := p.parts.dropLast }

/-- `q` seen from `p`. -/
def join (p q : PurePath) : PurePath :=
  if q.absolute then q else { p with parts := p.parts ++ q.parts }

def relative (parts : List String) : PurePath := ⟨false, parts⟩

def collapse (parts : List String) (c : String) : List String :=
  if c = ".." ∧ parts ≠ [] ∧ parts.getLast? ≠ some ".." then parts.dropLast else parts ++ [c]

/-- The normal form of a relative path. -/
def normpath (s : String) : String := (relative ((parse s).parts.foldl collapse [])).posix

variable {p q : List String}

lemma posix_relative (hne : p ≠ []) : (relative p).posix = String.ofList (joined p) := by
  unfold posix relative
  rw [if_neg Bool.false_ne_true, if_neg hne]

lemma joined_cons_cons (c d : String) (p : List String) :
    joined (c :: d :: p) = c.toList ++ '/' :: joined (d :: p) := by
  simp [joined, List.intercalate]

lemma joined_cons (c : String) (p : List String) :
    ∃ t, joined (c :: p) = c.toList ++ t := by
  cases p with
  | nil => exact ⟨[], by simp [joined]⟩
  | cons d p => exact ⟨'/' :: joined (d :: p), joined_cons_cons c d p⟩

lemma head?_joined_ne (hp : ∀ c ∈ p, IsName c) : (joined p).head? ≠ some '/' := by
  cases p with
  | nil => simp [joined]
  | cons c p =>
    obtain ⟨t, ht⟩ := joined_cons c p
    obtain ⟨hc, -, -, hslash⟩ := hp c mem_cons_self
    have hchars : c.toList ≠ [] := fun h => hc (String.toList_inj.mp h)
    rw [ht, head?_append_of_ne_nil _ hchars]
    intro h
    exact hslash (mem_of_head? h)

lemma splitOn_posix (hne : p ≠ []) (hp : ∀ c ∈ p, IsName c) :
    (relative p).posix.toList.splitOn '/' = p.map String.toList := by
  rw [posix_relative hne, String.toList_ofList]
  refine splitOn_intercalate '/' ?_ (by simpa using hne)
  intro l hl
  obtain ⟨c, hc, rfl⟩ := mem_map.mp hl
  exact (hp c hc).2.2.2

lemma map_ofList_toList (p : List String) : (p.map String.toList).map String.ofList = p := by
  rw [map_map]
  exact (map_congr_left fun c _ => String.ofList_toList).trans (map_id p)

lemma names_posix (hne : p ≠ []) (hp : ∀ c ∈ p, IsName c) : names (relative p).posix = p := by
  rw [names, splitOn_posix hne hp, map_ofList_toList]

lemma parse_posix (hne : p ≠ []) (hp : ∀ c ∈ p, IsName c) :
    parse (relative p).posix = relative p := by
  have hkeep : ∀ l ∈ p.map String.toList, decide (l ≠ [] ∧ l ≠ ['.']) = true := by
    intro l hl
    obtain ⟨c, hc, rfl⟩ := mem_map.mp hl
    obtain ⟨hempty, hdot, -, -⟩ := hp c hc
    refine decide_eq_true ⟨fun h => hempty (String.toList_inj.mp h), fun h => hdot ?_⟩
    exact String.toList_inj.mp h
  have habsolute : decide ((relative p).posix.toList.head? = some '/') = false := by
    rw [posix_relative hne, String.toList_ofList]
    exact decide_eq_false (head?_joined_ne hp)
  unfold parse
  rw [splitOn_posix hne hp, filter_eq_self.mpr hkeep, map_ofList_toList, habsolute]
  rfl

lemma posix_inj (hp : ∀ c ∈ p, IsName c) (hq : ∀ c ∈ q, IsName c) (hpne : p ≠ [])
    (hqne : q ≠ []) (h : (relative p).posix = (relative q).posix) : p = q := by
  have hparsed := congrArg parse h
  rw [parse_posix hpne hp, parse_posix hqne hq] at hparsed
  exact congrArg parts hparsed

lemma joined_append (hne : p ≠ []) (c : String) :
    joined (p ++ [c]) = joined p ++ '/' :: c.toList := by
  induction p with
  | nil => exact absurd rfl hne
  | cons d p ih =>
    cases p with
    | nil => simp [joined, List.intercalate]
    | cons e p =>
      have htail := ih (cons_ne_nil _ _)
      rw [cons_append, cons_append, joined_cons_cons, ← cons_append, htail,
        joined_cons_cons, append_assoc, cons_append]

lemma joined_mono (h : p <+: q) : joined p <+: joined q := by
  obtain ⟨t, rfl⟩ := h
  induction t using List.reverseRecOn with
  | nil => simp
  | append_singleton t c ih =>
    rw [← append_assoc]
    by_cases hne : p ++ t = []
    · obtain ⟨rfl, rfl⟩ := append_eq_nil_iff.mp hne
      simp [joined]
    · rw [joined_append hne]
      exact ih.trans (prefix_append _ _)

lemma not_lt_of_prefix {a b : List Char} (h : a <+: b) : ¬b < a := by
  obtain ⟨t, rfl⟩ := h
  induction a with
  | nil => simp
  | cons x a ih =>
    rw [cons_append, cons_lt_cons_iff]
    rintro (hlt | ⟨-, hlt⟩)
    · exact lt_irrefl _ hlt
    · exact ih hlt

lemma posix_le (hne : p ≠ []) (h : p <+: q) : (relative p).posix ≤ (relative q).posix := by
  have hqne : q ≠ [] := by
    rintro rfl
    exact hne (prefix_nil.mp h)
  rw [posix_relative hne, posix_relative hqne, ← not_lt, String.lt_iff_toList_lt,
    String.toList_ofList, String.toList_ofList]
  exact not_lt_of_prefix (joined_mono h)

/-! ## Normal forms -/

lemma not_mem_of_mem_splitOn {x : Char} {l word : List Char} (h : word ∈ l.splitOn x) :
    x ∉ word := by
  by_cases hx : x ∈ l
  · obtain ⟨first, rest, hl, hfirst⟩ := eq_append_cons_of_mem hx
    rw [hl, splitOn_append_cons_self_of_not_mem hfirst] at h
    rcases mem_cons.mp h with rfl | h
    · exact hfirst
    · exact not_mem_of_mem_splitOn h
  · have hsplit : ([x].intercalate [l]).splitOn x = [l] :=
      splitOn_intercalate x (by simpa using hx) (by simp)
    rw [intercalate_singleton] at hsplit
    rw [hsplit, mem_singleton] at h
    exact h ▸ hx
termination_by l.length
decreasing_by
  rw [hl, length_append, length_cons]
  omega

lemma isName_of_mem_parse {s c : String} (h : c ∈ (parse s).parts) (hup : c ≠ "..") : IsName c := by
  obtain ⟨word, hword, rfl⟩ := mem_map.mp h
  obtain ⟨hmem, hkept⟩ := mem_filter.mp hword
  obtain ⟨hempty, hdot⟩ := of_decide_eq_true hkept
  refine ⟨fun heq => hempty ?_, fun heq => hdot ?_, hup, ?_⟩
  · exact String.ofList_inj.mp heq
  · exact String.ofList_inj.mp heq
  · rw [String.toList_ofList]
    exact not_mem_of_mem_splitOn hmem

lemma up_mem_names {s : String} : ".." ∈ names s ↔ ".." ∈ (parse s).parts := by
  unfold names parse
  constructor
  · intro h
    obtain ⟨word, hword, heq⟩ := mem_map.mp h
    obtain rfl : word = ['.', '.'] := String.ofList_inj.mp heq
    exact mem_map.mpr ⟨_, mem_filter.mpr ⟨hword, by decide⟩, rfl⟩
  · intro h
    obtain ⟨word, hword, heq⟩ := mem_map.mp h
    exact mem_map.mpr ⟨word, (mem_filter.mp hword).1, heq⟩

lemma foldl_collapse (hq : ".." ∉ q) : q.foldl collapse p = p ++ q := by
  induction q generalizing p with
  | nil => simp
  | cons c q ih =>
    rw [mem_cons, not_or] at hq
    rw [foldl_cons, collapse, if_neg fun h => hq.1 h.1.symm, ih hq.2, append_assoc]
    rfl

lemma parse_normpath {s : String} (h : ".." ∉ (parse s).parts) :
    parse (normpath s) = relative (parse s).parts := by
  rw [normpath, foldl_collapse h, nil_append]
  by_cases hne : (parse s).parts = []
  · rw [hne]
    decide
  · exact parse_posix hne fun c hc => isName_of_mem_parse hc fun heq => h (heq ▸ hc)

lemma normpath_posix (hne : p ≠ []) (hp : ∀ c ∈ p, IsName c) :
    normpath (relative p).posix = (relative p).posix := by
  have hup : ".." ∉ p := fun h => (hp _ h).2.2.1 rfl
  rw [normpath, parse_posix hne hp]
  exact congrArg (fun q => (relative q).posix) (foldl_collapse hup)

end PurePath

end Petrus.Lib
