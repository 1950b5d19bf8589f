import Resolved.Lib.Bytes
import Resolved.Lib.Text

/-!
# Octets of a text

An ASCII character is one octet, and no octet of another character is ASCII. So what is done at
ASCII characters can be done on the octets.
-/

namespace Resolved.Lib

def utf8 (text : Str) : Bytes := text.flatMap String.utf8EncodeChar

def octet (c : Char) : UInt8 := UInt8.ofNat c.toNat

@[simp] theorem utf8_nil : utf8 [] = [] := rfl

@[simp] theorem utf8_cons (c : Char) (rest : Str) :
    utf8 (c :: rest) = String.utf8EncodeChar c ++ utf8 rest := List.flatMap_cons

@[simp] theorem utf8_append (front rear : Str) : utf8 (front ++ rear) = utf8 front ++ utf8 rear :=
  List.flatMap_append

theorem utf8EncodeChar_ascii (ascii : c.toNat < 128) : String.utf8EncodeChar c = [octet c] := by
  have small : c.val.toNat ≤ 127 := Nat.le_of_lt_succ ascii
  simp only [String.utf8EncodeChar, small, if_true]
  rfl

theorem utf8EncodeChar_wide (wide : 128 ≤ c.toNat) : ∀ byte ∈ String.utf8EncodeChar c, 128 ≤ byte.toNat := by
  have large : ¬ c.val.toNat ≤ 127 := Nat.not_le_of_lt wide
  simp only [String.utf8EncodeChar, large, if_false]
  split_ifs
  all_goals
    simp only [List.mem_cons, List.not_mem_nil, or_false]
    intro byte member
    rcases member with rfl | rfl | rfl | rfl <;> simp <;> omega

theorem utf8_eq_nil : utf8 text = [] ↔ text = [] := by
  cases text with
  | nil => simp
  | cons c rest => simp

theorem octet_mem_utf8EncodeChar (ascii : separator.toNat < 128) :
    octet separator ∈ String.utf8EncodeChar c ↔ c = separator := by
  constructor
  · intro member
    have value : (octet separator).toNat = separator.toNat := by
      simp [octet]
      omega
    by_cases small : c.toNat < 128
    · rw [utf8EncodeChar_ascii small, List.mem_singleton] at member
      have same := congrArg UInt8.toNat member
      rw [value, octet] at same
      simp at same
      apply Char.ext
      apply UInt32.toNat.inj
      change c.toNat = separator.toNat
      omega
    · have := utf8EncodeChar_wide (not_lt.1 small) _ member
      omega
  · rintro rfl
    rw [utf8EncodeChar_ascii ascii]
    exact List.mem_singleton_self _

theorem splitOn_append_free {α : Type} [BEq α] [LawfulBEq α] {separator : α} {front : List α}
    (free : separator ∉ front) (rear : List α) :
    (front ++ rear).splitOn separator = (rear.splitOn separator).modifyHead (front ++ ·) := by
  induction front with
  | nil =>
    rw [List.nil_append]
    cases rear.splitOn separator <;> rfl
  | cons a front ih =>
    rw [List.mem_cons, not_or] at free
    have later := ih free.2
    unfold List.splitOn at later ⊢
    rw [List.cons_append, List.splitOnP_cons_eq_if_modifyHead, later, if_neg (by simpa using Ne.symm free.1)]
    cases List.splitOnP (· == separator) rear <;> rfl

theorem splitOn_utf8 (ascii : separator.toNat < 128) (text : Str) :
    (utf8 text).splitOn (octet separator) = (text.splitOn separator).map utf8 := by
  induction text with
  | nil => rfl
  | cons c rest ih =>
    by_cases here : c = separator
    · subst here
      have bytes := List.splitOnP_cons_eq_if_modifyHead (p := (· == octet c)) (octet c) (utf8 rest)
      have chars := List.splitOnP_cons_eq_if_modifyHead (p := (· == c)) c rest
      rw [if_pos (beq_self_eq_true _)] at bytes chars
      rw [utf8_cons, utf8EncodeChar_ascii ascii, List.singleton_append]
      unfold List.splitOn at ih ⊢
      rw [bytes, chars, List.map_cons, ih]
      rfl
    · have free : octet separator ∉ String.utf8EncodeChar c := fun member =>
        here ((octet_mem_utf8EncodeChar ascii).1 member)
      have chars := List.splitOnP_cons_eq_if_modifyHead (p := (· == separator)) c rest
      rw [if_neg (by simpa using here)] at chars
      rw [utf8_cons, splitOn_append_free free, ih]
      unfold List.splitOn
      rw [chars]
      cases List.splitOnP (· == separator) rest with
      | nil => rfl
      | cons first others => simp

/-! ## Slices of a text -/

/-- `&text[offset..]`, or `none` where that panics: off a character boundary or behind the end. -/
def sliceFrom : Str → Nat → Option Str
  | [], offset => if offset = 0 then some [] else none
  | c :: rest, offset =>
    if offset = 0 then some (c :: rest)
    else if c.utf8Size ≤ offset then sliceFrom rest (offset - c.utf8Size)
    else none

def sliceTo : Str → Nat → Option Str
  | [], offset => if offset = 0 then some [] else none
  | c :: rest, offset =>
    if offset = 0 then some []
    else if c.utf8Size ≤ offset then (sliceTo rest (offset - c.utf8Size)).map (c :: ·)
    else none

theorem utf8_length_cons (c : Char) (rest : Str) : (utf8 (c :: rest)).length = c.utf8Size + (utf8 rest).length := by
  rw [utf8_cons, List.length_append, String.length_utf8EncodeChar]

theorem sliceFrom_append (front rear : Str) : sliceFrom (front ++ rear) (utf8 front).length = some rear := by
  induction front with
  | nil => cases rear <;> rfl
  | cons c front ih =>
    have positive := c.utf8Size_pos
    rw [List.cons_append, utf8_length_cons, sliceFrom, if_neg (by omega), if_pos (by omega),
      Nat.add_sub_cancel_left, ih]

theorem sliceTo_append (front rear : Str) : sliceTo (front ++ rear) (utf8 front).length = some front := by
  induction front with
  | nil => cases rear <;> rfl
  | cons c front ih =>
    have positive := c.utf8Size_pos
    rw [List.cons_append, utf8_length_cons, sliceTo, if_neg (by omega), if_pos (by omega),
      Nat.add_sub_cancel_left, ih]
    rfl

end Resolved.Lib
