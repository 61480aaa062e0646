import Mathlib

/-!
# Percent-encoding and delimited texts

A text is percent-encoded byte by byte: an unreserved byte stands for itself, every other
one is written `%XX`. An identity is a bounded text without white space at its ends.
-/

namespace Petrus.Lib

open List

/-! ## Delimiters -/

def joinWith {α : Type} (sep : α) : List (List α) → List α
  | [] => []
  | [part] => part
  | part :: next :: rest => part ++ sep :: joinWith sep (next :: rest)

/-! ## Percent-encoding -/

def hexDigit (n : Nat) : Char := Char.ofNat (if n < 10 then 48 + n else 55 + n)

def isUpperHex (c : Char) : Bool := ('0' ≤ c && c ≤ '9') || ('A' ≤ c && c ≤ 'F')

/-- Letters, digits and `_.-~` are never encoded. -/
def isUnreserved (c : Char) : Bool :=
  c.isAlphanum || c = '_' || c = '.' || c = '-' || c = '~'

def quoteByte (safe : Char → Bool) (b : UInt8) : List Char :=
  let c := Char.ofNat b.toNat
  if b.toNat < 128 ∧ safe c = true then [c]
  else ['%', hexDigit (b.toNat / 16), hexDigit (b.toNat % 16)]

def quoteBytes (safe : Char → Bool) (bytes : List UInt8) : List Char :=
  bytes.flatMap (quoteByte safe)

/-- The percent-encoded UTF-8 bytes of a text, the `safe` characters left as they are. -/
def quote (safe : Char → Bool) (s : String) : List Char :=
  quoteBytes safe s.toUTF8.data.toList

def hexPair : List Char → Bool
  | high :: low :: _ => isUpperHex high && isUpperHex low
  | _ => false

/-- Every `%` is followed by two upper-case hexadecimal digits. -/
def escapesComplete : List Char → Bool
  | [] => true
  | c :: cs => (c ≠ '%' || hexPair cs) && escapesComplete cs

/-! ## Bounded identity text -/

section

/-- The characters `str.strip` removes. -/
def isSpace (c : Char) : Bool :=
  let n := c.toNat
  (9 ≤ n && n ≤ 13) || (28 ≤ n && n ≤ 32) || n = 0x85 || n = 0xA0 || n = 0x1680 ||
    (0x2000 ≤ n && n ≤ 0x200A) || n = 0x2028 || n = 0x2029 || n = 0x202F || n = 0x205F ||
    n = 0x3000

def stripped (s : String) : Bool :=
  s.toList.head?.all (fun c => !isSpace c) && s.toList.getLast?.all (fun c => !isSpace c)

def printable (s : String) : Bool := s.toList.all fun c => 32 ≤ c.toNat

/-- A non-empty text of at most `limit` bytes. -/
def boundedText (limit : Nat) (s : String) : Bool :=
  s ≠ "" && stripped s && s.utf8ByteSize ≤ limit && printable s

end

end Petrus.Lib
