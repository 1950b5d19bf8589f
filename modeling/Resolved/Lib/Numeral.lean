import Resolved.Lib.Text

/-!
# Numerals

The numerals that `from_str_radix` reads for an unsigned type, and the one of them that is printed.
-/

namespace Resolved.Lib

def toDigit (radix : Nat) (c : Char) : Option Nat :=
  let value :=
    if 48 ≤ c.toNat ∧ c.toNat ≤ 57 then c.toNat - 48
    else if 97 ≤ c.toNat ∧ c.toNat ≤ 122 then c.toNat - 87
    else if 65 ≤ c.toNat ∧ c.toNat ≤ 90 then c.toNat - 55
    else radix
  if value < radix then some value else none

def readDigits (radix : Nat) (digits : Str) : Option Nat :=
  digits.foldlM (fun total c => (toDigit radix c).map (total * radix + ·)) 0

def fromStrRadix (radix bound : Nat) (text : Str) : Option Nat :=
  let digits := if text.head? = some '+' then text.tail else text
  if digits = [] then none else (readDigits radix digits).filter (· < bound)

/-- The numeral has a sign, or a zero that changes nothing, in front. -/
def Superfluous (numeral : Str) : Prop :=
  numeral.head? = some '+' ∨ numeral.head? = some '0' ∧ 1 < numeral.length

variable {radix bound n : Nat} {text : Str}

theorem toDigit_digitChar {digit : Nat} (radix_le : radix ≤ 16) (lt : digit < radix) :
    toDigit radix digit.digitChar = some digit := by
  have all : ∀ radix < 17, ∀ digit < radix, toDigit radix digit.digitChar = some digit := by decide
  exact all radix (by omega) digit lt

theorem digitChar_of_toDigit {c : Char} {digit : Nat} (radix_le : radix ≤ 16)
    (found : toDigit radix c = some digit) (lower : lowerChar c = c) : digit < radix ∧ digit.digitChar = c := by
  have small : c.toNat < 128 := by
    by_contra large
    have decimal : ¬ (48 ≤ c.toNat ∧ c.toNat ≤ 57) := by omega
    have small : ¬ (97 ≤ c.toNat ∧ c.toNat ≤ 122) := by omega
    have capital : ¬ (65 ≤ c.toNat ∧ c.toNat ≤ 90) := by omega
    simp [toDigit, decimal, small, capital] at found
  have all : ∀ n < 128, lowerChar (Char.ofNat n) = Char.ofNat n → ∀ radix < 17,
      ∀ digit ∈ toDigit radix (Char.ofNat n), digit < radix ∧ digit.digitChar = Char.ofNat n := by
    decide +kernel
  have here := all c.toNat small
  rw [Char.ofNat_toNat] at here
  exact here lower radix (by omega) digit found

theorem readDigits_concat (front : Str) (c : Char) :
    readDigits radix (front ++ [c]) =
      (readDigits radix front).bind fun total => (toDigit radix c).map (total * radix + ·) := by
  rw [readDigits, List.foldlM_append]
  simp only [List.foldlM_cons, List.foldlM_nil, bind_pure]
  rfl

theorem mem_of_readDigits (read : readDigits radix text = some n) {c : Char} (member : c ∈ text) :
    (toDigit radix c).isSome := by
  induction text using List.reverseRecOn generalizing n with
  | nil => cases member
  | append_singleton front last ih =>
    rw [readDigits_concat, Option.bind_eq_some_iff] at read
    obtain ⟨total, read_front, found⟩ := read
    obtain ⟨digit, found, -⟩ := Option.map_eq_some_iff.mp found
    rcases List.mem_append.mp member with earlier | here
    · exact ih read_front earlier
    · rw [List.mem_singleton.mp here, found]
      rfl

theorem readDigits_toDigits (radix_gt : 1 < radix) (radix_le : radix ≤ 16) (n : Nat) :
    readDigits radix (Nat.toDigits radix n) = some n := by
  induction n using Nat.strongRecOn with
  | ind n ih =>
    rw [Nat.toDigits_eq_if radix_gt]
    split
    · rename_i small
      simp [readDigits, toDigit_digitChar radix_le small]
    · rename_i large
      rw [readDigits_concat, ih (n / radix) (Nat.div_lt_self (by omega) radix_gt),
        toDigit_digitChar radix_le (Nat.mod_lt n (by omega))]
      simp [Nat.div_add_mod']

theorem eq_toDigits (radix_gt : 1 < radix) (radix_le : radix ≤ 16) (lower : toAsciiLowercase text = text)
    (nonempty : text ≠ []) (leading : text.head? = some '0' → text.length = 1)
    (read : readDigits radix text = some n) : text = Nat.toDigits radix n := by
  induction text using List.reverseRecOn generalizing n with
  | nil => exact absurd rfl nonempty
  | append_singleton front c ih =>
    simp only [toAsciiLowercase, List.map_append, List.map_cons, List.map_nil] at lower
    obtain ⟨lower_front, lower_c⟩ := List.append_inj' lower rfl
    rw [readDigits_concat, Option.bind_eq_some_iff] at read
    obtain ⟨total, read_front, last⟩ := read
    obtain ⟨digit, found, rfl⟩ := Option.map_eq_some_iff.mp last
    obtain ⟨lt, rfl⟩ := digitChar_of_toDigit radix_le found (by simpa using lower_c)
    by_cases empty : front = []
    · subst empty
      cases read_front
      simp [Nat.toDigits_of_lt_base lt]
    · -- a front that is worth nothing would be a zero that changes nothing
      have unpadded : front.head? ≠ some '0' := by
        intro zero
        have length := leading (by rw [List.head?_append_of_ne_nil _ empty, zero])
        rw [List.length_append, List.length_singleton] at length
        exact empty (List.length_eq_zero_iff.mp (by omega))
      have printed := ih lower_front empty (fun zero => absurd zero unpadded) read_front
      have positive : 0 < total := by
        rcases Nat.eq_zero_or_pos total with rfl | positive
        · rw [Nat.toDigits_zero] at printed
          rw [printed] at unpadded
          exact absurd rfl unpadded
        · exact positive
      rw [Nat.mul_comm total, ← Nat.toDigits_append_toDigits radix_gt positive lt, ← printed,
        Nat.toDigits_of_lt_base lt]

theorem digitChar_eq_zero {digit : Nat} (lt : digit < 16) (zero : digit.digitChar = '0') : digit = 0 := by
  revert digit
  decide

theorem mem_toDigits {c : Char} (radix_gt : 1 < radix) (member : c ∈ Nat.toDigits radix n) :
    ∃ digit < radix, c = digit.digitChar := by
  induction n using Nat.strongRecOn with
  | ind n ih =>
    rw [Nat.toDigits_eq_if radix_gt] at member
    split at member
    · rename_i small
      exact ⟨n, small, List.mem_singleton.mp member⟩
    · rename_i large
      rcases List.mem_append.mp member with earlier | last
      · exact ih (n / radix) (Nat.div_lt_self (by omega) radix_gt) earlier
      · exact ⟨n % radix, Nat.mod_lt n (by omega), List.mem_singleton.mp last⟩

theorem toDigits_zero_head (radix_gt : 1 < radix) (radix_le : radix ≤ 16)
    (zero : (Nat.toDigits radix n).head? = some '0') : n = 0 := by
  induction n using Nat.strongRecOn with
  | ind n ih =>
    rw [Nat.toDigits_eq_if radix_gt] at zero
    split at zero
    · exact digitChar_eq_zero (by omega) (Option.some.inj zero)
    · rename_i large
      rw [List.head?_append_of_ne_nil _ Nat.toDigits_ne_nil] at zero
      have none := ih (n / radix) (Nat.div_lt_self (by omega) radix_gt) zero
      have := Nat.div_pos (Nat.le_of_not_lt large) (by omega : 0 < radix)
      omega

theorem not_superfluous_toDigits (radix_gt : 1 < radix) (radix_le : radix ≤ 16) (n : Nat) :
    ¬ Superfluous (Nat.toDigits radix n) := by
  rintro (plus | ⟨zero, long⟩)
  · obtain ⟨digit, lt, eq⟩ := mem_toDigits radix_gt (List.mem_of_mem_head? plus)
    have all : ∀ digit < 16, ('+' : Char) ≠ digit.digitChar := by decide
    exact all digit (by omega) eq
  · rw [toDigits_zero_head radix_gt radix_le zero, Nat.toDigits_zero] at long
    exact absurd long (by decide)

theorem fromStrRadix_toDigits (radix_gt : 1 < radix) (radix_le : radix ≤ 16) (lt : n < bound) :
    fromStrRadix radix bound (Nat.toDigits radix n) = some n := by
  have unsigned : (Nat.toDigits radix n).head? ≠ some '+' := fun plus =>
    not_superfluous_toDigits radix_gt radix_le n (.inl plus)
  simp [fromStrRadix, unsigned, Nat.toDigits_ne_nil, readDigits_toDigits radix_gt radix_le, lt]

theorem eq_toDigits_of_fromStrRadix (radix_gt : 1 < radix) (radix_le : radix ≤ 16)
    (lower : toAsciiLowercase text = text) (plain : ¬ Superfluous text)
    (read : fromStrRadix radix bound text = some n) : text = Nat.toDigits radix n := by
  have unsigned : text.head? ≠ some '+' := fun plus => plain (.inl plus)
  rw [fromStrRadix, if_neg unsigned] at read
  by_cases empty : text = []
  · simp [empty] at read
  · rw [if_neg empty, Option.filter_eq_some_iff] at read
    apply eq_toDigits radix_gt radix_le lower empty _ read.1
    intro zero
    have long : ¬ 1 < text.length := fun long => plain (.inr ⟨zero, long⟩)
    have := List.length_pos_of_ne_nil empty
    omega

theorem mem_of_fromStrRadix (read : fromStrRadix radix bound text = some n) {c : Char} (member : c ∈ text) :
    c = '+' ∨ (toDigit radix c).isSome := by
  have digits : ∀ digits, (if digits = [] then none else
      (readDigits radix digits).filter (· < bound)) = some n →
      ∀ c ∈ digits, (toDigit radix c).isSome := by
    intro digits read c member
    rw [if_neg (List.ne_nil_of_mem member)] at read
    exact mem_of_readDigits (Option.filter_eq_some_iff.mp read).1 member
  rw [fromStrRadix] at read
  by_cases plus : text.head? = some '+'
  · rw [if_pos plus] at read
    obtain ⟨rest, rfl⟩ := List.head?_eq_some_iff.mp plus
    rcases List.mem_cons.mp member with sign | later
    · exact .inl sign
    · exact .inr (digits rest read c later)
  · rw [if_neg plus] at read
    exact .inr (digits text read c member)

theorem fromStrRadix_lt (read : fromStrRadix radix bound text = some n) : n < bound := by
  simp only [fromStrRadix] at read
  generalize (if text.head? = some '+' then text.tail else text) = digits at read
  split at read
  · cases read
  · exact of_decide_eq_true (Option.filter_eq_some_iff.mp read).2

theorem fromStrRadix_of_lt {bound' : Nat} (read : fromStrRadix radix bound text = some n) (lt : n < bound') :
    fromStrRadix radix bound' text = some n := by
  simp only [fromStrRadix] at read ⊢
  generalize (if text.head? = some '+' then text.tail else text) = digits at read ⊢
  split at read
  · cases read
  · rename_i nonempty
    rw [if_neg nonempty, Option.filter_eq_some_iff]
    exact ⟨(Option.filter_eq_some_iff.mp read).1, decide_eq_true lt⟩

end Resolved.Lib
