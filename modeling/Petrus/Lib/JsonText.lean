import Petrus.Lib.Json

/-!
# JSON texts

The compact text of a JSON value, as a writer that keeps the order of the members and
leaves everything but quotes, backslashes and control characters unescaped spells it. What
a float is spelled as is a parameter. The length of a text does not depend on the order
of members.
-/

namespace Petrus.Lib.Json

open List

def escape (c : Char) : String :=
  match c.toNat with
  | 34 => "\\\""
  | 92 => "\\\\"
  | 10 => "\\n"
  | 13 => "\\r"
  | 9 => "\\t"
  | 8 => "\\b"
  | 12 => "\\f"
  | n => if n < 32 then "\\u00" ++ String.ofList [(n / 16).digitChar, (n % 16).digitChar]
    else String.singleton c

def escaped : List Char → String
  | [] => ""
  | c :: cs => escape c ++ escaped cs

def quote (s : String) : String := "\"" ++ escaped s.toList ++ "\""

variable (repr : Dyadic → String)

mutual

def text : Json → String
  | null => "null"
  | bool true => "true"
  | bool false => "false"
  | num (.int n) => toString n
  | num (.float d) => repr d
  | num .negZero => "-0.0"
  | str s => quote s
  | arr items => "[" ++ ",".intercalate (textItems items) ++ "]"
  | obj members => "\x7b" ++ ",".intercalate (textMembers members) ++ "\x7d"

def textItems : List Json → List String
  | [] => []
  | a :: as => text a :: textItems as

def textMembers : List (String × Json) → List String
  | [] => []
  | (k, a) :: ms => (quote k ++ ":" ++ text a) :: textMembers ms

end

def size (a : Json) : Nat := (text repr a).utf8ByteSize

def memberSize (m : String × Json) : Nat := (quote m.1).utf8ByteSize + 1 + size repr m.2

/-! ## The length of a quoted text -/

lemma control_size : ∀ n < 32,
    ("\\u00" ++ String.ofList [(n / 16).digitChar, (n % 16).digitChar]).utf8ByteSize = 6 := by
  decide

lemma utf8Size_ascii {c : Char} (h : c.toNat < 128) : c.utf8Size = 1 := by
  have hval : c.val ≤ 127 := UInt32.le_iff_toNat_le.mpr (Nat.le_of_lt_succ h)
  simp [Char.utf8Size, hval]

lemma escape_size (c : Char) :
    c.utf8Size ≤ (escape c).utf8ByteSize ∧ (escape c).utf8ByteSize ≤ 6 * c.utf8Size := by
  have hshort {s : String} (hs : s.utf8ByteSize = 2) {n : Nat} (hc : c.toNat = n) (hn : n < 128) :
      c.utf8Size ≤ s.utf8ByteSize ∧ s.utf8ByteSize ≤ 6 * c.utf8Size := by
    rw [utf8Size_ascii (hc ▸ hn), hs]
    decide
  unfold escape
  split
  case h_1 hc => exact hshort (by decide) hc (by decide)
  case h_2 hc => exact hshort (by decide) hc (by decide)
  case h_3 hc => exact hshort (by decide) hc (by decide)
  case h_4 hc => exact hshort (by decide) hc (by decide)
  case h_5 hc => exact hshort (by decide) hc (by decide)
  case h_6 hc => exact hshort (by decide) hc (by decide)
  case h_7 hc => exact hshort (by decide) hc (by decide)
  case h_8 =>
    split_ifs with hcontrol
    · rw [control_size _ hcontrol, utf8Size_ascii (by omega)]
      decide
    · rw [String.utf8ByteSize_singleton]
      omega

lemma escaped_size (cs : List Char) :
    String.utf8Len cs ≤ (escaped cs).utf8ByteSize ∧
      (escaped cs).utf8ByteSize ≤ 6 * String.utf8Len cs := by
  induction cs with
  | nil => decide
  | cons c cs ih =>
    have hc := escape_size c
    rw [escaped, String.utf8ByteSize_append, String.utf8Len_cons]
    omega

lemma utf8Len_toList (s : String) : String.utf8Len s.toList = s.utf8ByteSize := by
  rw [← String.utf8ByteSize_ofList, String.ofList_toList]

lemma quote_size (s : String) :
    s.utf8ByteSize ≤ (quote s).utf8ByteSize ∧ (quote s).utf8ByteSize ≤ 6 * s.utf8ByteSize + 2 := by
  have hs := escaped_size s.toList
  have hquote : ("\"" : String).utf8ByteSize = 1 := by decide
  rw [utf8Len_toList] at hs
  rw [quote, String.utf8ByteSize_append, String.utf8ByteSize_append, hquote]
  omega

/-! ## A text has no NUL of its own -/

lemma control_nul : ∀ n < 32,
    Char.ofNat 0 ∉
      ("\\u00" ++ String.ofList [(n / 16).digitChar, (n % 16).digitChar]).toList := by
  decide

lemma escape_nul (c : Char) : Char.ofNat 0 ∉ (escape c).toList := by
  unfold escape
  split
  case h_8 =>
    split_ifs with hcontrol
    · exact control_nul _ hcontrol
    · rw [String.toList_singleton, mem_singleton]
      rintro rfl
      exact hcontrol (by decide)
  all_goals decide

lemma escaped_nul (cs : List Char) : Char.ofNat 0 ∉ (escaped cs).toList := by
  induction cs with
  | nil => decide
  | cons c cs ih =>
    rw [escaped, String.toList_append, mem_append, not_or]
    exact ⟨escape_nul c, ih⟩

lemma quote_nul (s : String) : Char.ofNat 0 ∉ (quote s).toList := by
  rw [quote, String.toList_append, String.toList_append, mem_append, mem_append, not_or, not_or]
  exact ⟨⟨by decide, escaped_nul _⟩, by decide⟩

/-! ## The length of arrays and objects -/

lemma intercalate_size (texts : List String) :
    (",".intercalate texts).utf8ByteSize =
      (texts.map String.utf8ByteSize).sum + (texts.length - 1) := by
  induction texts with
  | nil => decide
  | cons t texts ih =>
    cases texts with
    | nil => simp
    | cons u texts =>
      have hcomma : ("," : String).utf8ByteSize = 1 := by decide
      rw [String.intercalate_cons_cons, String.utf8ByteSize_append, String.utf8ByteSize_append,
        hcomma, ih]
      simp only [map_cons, sum_cons, length_cons]
      omega

lemma textItems_eq (items : List Json) : textItems repr items = items.map (text repr) := by
  induction items with
  | nil => rfl
  | cons a as ih => rw [textItems, ih, map_cons]

lemma textMembers_eq (ms : List (String × Json)) :
    textMembers repr ms = ms.map fun m => quote m.1 ++ ":" ++ text repr m.2 := by
  induction ms with
  | nil => rfl
  | cons m ms ih => rw [textMembers, ih, map_cons]

lemma size_arr (items : List Json) :
    size repr (arr items) = (items.map (size repr)).sum + (items.length - 1) + 2 := by
  have hopen : ("[" : String).utf8ByteSize = 1 := by decide
  have hclose : ("]" : String).utf8ByteSize = 1 := by decide
  rw [size, text, String.utf8ByteSize_append, String.utf8ByteSize_append, intercalate_size,
    textItems_eq, map_map, length_map, hopen, hclose]
  change 1 + ((items.map (size repr)).sum + _) + 1 = _
  omega

lemma size_obj (ms : List (String × Json)) :
    size repr (obj ms) = (ms.map (memberSize repr)).sum + (ms.length - 1) + 2 := by
  have hopen : ("\x7b" : String).utf8ByteSize = 1 := by decide
  have hclose : ("\x7d" : String).utf8ByteSize = 1 := by decide
  have hcolon : (":" : String).utf8ByteSize = 1 := by decide
  have hmember :
      (String.utf8ByteSize ∘ fun m : String × Json => quote m.1 ++ ":" ++ text repr m.2) =
      memberSize repr := by
    funext m
    simp only [Function.comp_apply, String.utf8ByteSize_append, hcolon, memberSize, size]
  rw [size, text, String.utf8ByteSize_append, String.utf8ByteSize_append, intercalate_size,
    textMembers_eq, map_map, length_map, hopen, hclose, hmember]
  omega

lemma size_member_le {ms : List (String × Json)} {k : String} {a : Json} (h : (k, a) ∈ ms) :
    size repr a ≤ size repr (obj ms) := by
  have hmember : memberSize repr (k, a) ≤ (ms.map (memberSize repr)).sum :=
    single_le_sum (fun _ _ => Nat.zero_le _) _ (mem_map_of_mem h)
  rw [size_obj]
  simp only [memberSize] at hmember
  omega

lemma size_spelling (a : Json) : size repr a.spelling = size repr a := by
  induction a using members_induction with
  | scalar a h => rw [spelling, normal_scalar h, id]
  | array items ih =>
    have hitems : (items.map (normal id)).map (size repr) = items.map (size repr) := by
      rw [map_map]
      exact map_congr_left ih
    rw [spelling, normal, normalItems_eq, size_arr, size_arr, hitems, length_map]
  | object ms ih =>
    have hsorted := (sortMembers_perm (normalMembers id ms)).map (memberSize repr)
    have hmembers : (normalMembers id ms).map (memberSize repr) = ms.map (memberSize repr) := by
      rw [normalMembers_eq, map_map]
      refine map_congr_left fun m hm => ?_
      simp only [Function.comp_apply, memberSize]
      rw [show normal id m.2 = m.2.spelling from rfl, ih m hm]
    have hlength : (sortMembers (normalMembers id ms)).length = ms.length := by
      rw [(sortMembers_perm _).length_eq, normalMembers_eq, length_map]
    rw [spelling, normal, size_obj, size_obj, hsorted.sum_eq, hmembers, hlength]

end Petrus.Lib.Json
