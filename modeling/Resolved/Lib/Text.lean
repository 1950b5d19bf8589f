import Mathlib

namespace Resolved.Lib

abbrev Str := List Char

instance instLawfulBEqStr : LawfulBEq Str := inferInstance

def isWhitespace (c : Char) : Bool :=
  (9 ≤ c.toNat && c.toNat ≤ 13) || c.toNat == 0x20 || c.toNat == 0x85 || c.toNat == 0xa0 ||
    c.toNat == 0x1680 || (0x2000 ≤ c.toNat && c.toNat ≤ 0x200a) || c.toNat == 0x2028 ||
    c.toNat == 0x2029 || c.toNat == 0x202f || c.toNat == 0x205f || c.toNat == 0x3000

def trimEndWith (p : Char → Bool) (s : Str) : Str := s.rdropWhile p

def trim (s : Str) : Str := trimEndWith isWhitespace (s.dropWhile isWhitespace)

def isAscii (s : Str) : Bool := s.all fun c => c.toNat < 128

def lowerChar (c : Char) : Char :=
  if 65 ≤ c.toNat ∧ c.toNat ≤ 90 then Char.ofNat (c.toNat + 32) else c

def toAsciiLowercase (s : Str) : Str := s.map lowerChar

def eqIgnoreAsciiCase (s t : Str) : Bool := toAsciiLowercase s == toAsciiLowercase t

def stripSuffix (s tail : Str) : Option Str :=
  if tail.isSuffixOf s then some (s.take (s.length - tail.length)) else none

def splitAtChar (c : Char) (s : Str) : List Str := s.splitOn c

def lines (text : Str) : List Str :=
  let parts := text.splitOn '\n'
  let ended := parts.dropLast.map fun line => (stripSuffix line ['\r']).getD line
  let last := parts.getLastD []
  if last = [] then ended else ended ++ [last]

def splitWhitespace (text : Str) : List Str := (text.splitOnP isWhitespace).filter (· ≠ [])

theorem stripSuffix_eq_some {s tail front : Str} : stripSuffix s tail = some front ↔ s = front ++ tail := by
  unfold stripSuffix
  split
  · rename_i ends
    obtain ⟨rest, rfl⟩ := List.isSuffixOf_iff_suffix.mp ends
    simp [eq_comm]
  · rename_i ends
    simp only [reduceCtorEq, false_iff]
    rintro rfl
    exact ends (List.isSuffixOf_iff_suffix.mpr (List.suffix_append _ _))

theorem toNat_ofNat {n : Nat} (small : n < 256) : (Char.ofNat n).toNat = n := by
  have valid : n.isValidChar := .inl (by omega)
  simp [Char.ofNat, valid, Char.toNat, Char.ofNatAux]

theorem lowerChar_eq_dot (c : Char) : lowerChar c = '.' ↔ c = '.' := by
  unfold lowerChar
  split
  · rename_i upper
    constructor
    · intro same
      have value : (Char.ofNat (c.toNat + 32)).toNat = 46 := by rw [same]; rfl
      rw [Char.toNat_ofNat] at value
      split at value <;> omega
    · rintro rfl
      have : ('.' : Char).toNat = 46 := rfl
      omega
  · rfl

theorem lowerChar_lowerChar (c : Char) : lowerChar (lowerChar c) = lowerChar c := by
  unfold lowerChar
  split
  · rename_i upper
    have value : (Char.ofNat (c.toNat + 32)).toNat = c.toNat + 32 := by
      rw [Char.toNat_ofNat, if_pos]
      simp [Nat.isValidChar]
      omega
    rw [if_neg (by omega)]
  · rfl

theorem toAsciiLowercase_idem (s : Str) : toAsciiLowercase (toAsciiLowercase s) = toAsciiLowercase s := by
  simp [toAsciiLowercase, lowerChar_lowerChar]

end Resolved.Lib
