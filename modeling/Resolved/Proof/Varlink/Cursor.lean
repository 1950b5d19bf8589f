import Resolved.Spec.Varlink

/-!
# Where the parser stands
-/

namespace Resolved.Proof.Varlink
open Lib Resolved.Varlink Resolved.Varlink.Parser Spec

theorem octet_toNat (ascii : c.toNat < 128) : (octet c).toNat = c.toNat := by
  rw [octet, UInt8.toNat_ofNat', Nat.mod_eq_of_lt (by omega)]

theorem utf8EncodeChar_first (c : Char) : ∃ byte more, String.utf8EncodeChar c = byte :: more := by
  cases encoded : String.utf8EncodeChar c with
  | nil => simp at encoded
  | cons byte more => exact ⟨byte, more, rfl⟩

theorem utf8_ascii (ascii : ∀ c ∈ text, c.toNat < 128) : utf8 text = text.map octet := by
  induction text with
  | nil => rfl
  | cons c rest ih =>
    rw [List.forall_mem_cons] at ascii
    rw [utf8_cons, utf8EncodeChar_ascii ascii.1, ih ascii.2]
    rfl

theorem takeWhile_utf8 (ascii : ∀ byte, holds byte = true → byte.toNat < 128) (text : Str) :
    (utf8 text).takeWhile holds = (text.takeWhile fun c => c.toNat < 128 && holds (octet c)).map octet := by
  induction text with
  | nil => rfl
  | cons c rest ih =>
    by_cases small : c.toNat < 128
    · rw [utf8_cons, utf8EncodeChar_ascii small, List.singleton_append]
      cases here : holds (octet c) with
      | true => simp [small, here, ih]
      | false => simp [here]
    · obtain ⟨byte, more, encoded⟩ := utf8EncodeChar_first c
      have wide := utf8EncodeChar_wide (not_lt.1 small) byte (by simp [encoded])
      have other : ¬holds byte = true := by
        intro here
        have below := ascii byte here
        omega
      rw [utf8_cons, encoded, List.cons_append, List.takeWhile_cons_of_neg other]
      simp [small]

def At (input : Str) (p : Parser) (text : Str) : Prop :=
  p.input = input ∧ ∃ front, input = front ++ text ∧ p.offset = (utf8 front).length

section
variable {input : Str} {p : Parser} {text rest : Str} {c : Char}

theorem At.start (input : Str) : At input ⟨input, 0⟩ input := ⟨rfl, [], rfl, rfl⟩

theorem At.remaining (here : At input p text) : p.remaining = .ok text := by
  obtain ⟨same, front, whole, offset⟩ := here
  rw [Parser.remaining, same, whole, offset, sliceFrom_append]
  rfl

theorem At.octets (here : At input p text) : (utf8 p.input).drop p.offset = utf8 text := by
  obtain ⟨same, front, whole, offset⟩ := here
  rw [same, whole, offset, utf8_append, List.drop_left]

theorem At.byte (here : At input p text) : p.byte = (utf8 text).head? := by
  rw [Parser.byte, ← here.octets, List.head?_drop]

theorem At.skip {front : Str} (here : At input p (front ++ rest)) : At input (p.skip (utf8 front).length) rest := by
  obtain ⟨same, before, whole, offset⟩ := here
  refine ⟨same, before ++ front, ?_, ?_⟩
  · rw [List.append_assoc]
    exact whole
  · rw [utf8_append, List.length_append, ← offset]
    rfl

theorem At.skipChar (here : At input p (c :: rest)) : At input (p.skip c.utf8Size) rest := by
  have skipped := @At.skip input p rest [c] here
  rwa [utf8_length_cons] at skipped

theorem At.skipAscii {front : Str} (ascii : ∀ c ∈ front, c.toNat < 128) (here : At input p (front ++ rest)) :
    At input (p.skip front.length) rest := by
  have skipped := here.skip
  rwa [utf8_ascii ascii, List.length_map] at skipped

theorem At.skipOne (ascii : c.toNat < 128) (here : At input p (c :: rest)) : At input (p.skip 1) rest :=
  @At.skipAscii input p rest [c] (by simpa using ascii) here

theorem At.byte_ascii (ascii : c.toNat < 128) (here : At input p (c :: rest)) : p.byte = some (octet c) := by
  rw [here.byte, utf8_cons, utf8EncodeChar_ascii ascii]
  rfl

theorem At.byte_eq_some (ascii : c.toNat < 128) (here : At input p text) :
    p.byte = some (octet c) ↔ ∃ rest, text = c :: rest := by
  constructor
  · intro first
    rw [here.byte] at first
    cases text with
    | nil => cases first
    | cons d rest =>
      obtain ⟨byte, more, encoded⟩ := utf8EncodeChar_first d
      rw [utf8_cons, encoded, List.cons_append, List.head?_cons, Option.some.injEq] at first
      have same : d = c := (octet_mem_utf8EncodeChar ascii).1 (by simp [encoded, first])
      exact ⟨rest, by rw [same]⟩
  · rintro ⟨rest, rfl⟩
    exact here.byte_ascii ascii

theorem At.byte_eq_none (here : At input p text) : p.byte = none ↔ text = [] := by
  rw [here.byte, List.head?_eq_none_iff, utf8_eq_nil]

theorem At.offset_eq (here : At input p text) : p.offset = (utf8 input).length ↔ text = [] := by
  obtain ⟨-, front, rfl, offset⟩ := here
  rw [offset, utf8_append, List.length_append, Nat.left_eq_add, List.length_eq_zero_iff, utf8_eq_nil]

theorem At.skipWhile (ascii : ∀ byte, holds byte = true → byte.toNat < 128) (here : At input p text) :
    At input (p.skipWhile holds) (text.dropWhile fun c => c.toNat < 128 && holds (octet c)) := by
  rw [Parser.skipWhile, here.octets, takeWhile_utf8 ascii, List.length_map]
  apply At.skipAscii
  · intro c member
    have held := List.mem_takeWhile_imp member
    simp only [Bool.and_eq_true, decide_eq_true_eq] at held
    exact held.1
  · rwa [List.takeWhile_append_dropWhile]

end

def afterBlanks (text : Str) : Str := text.dropWhile fun c => c ∈ [' ', '\n', '\r', '\t']

theorem isBlank_ascii (byte : UInt8) (blank : isBlank byte = true) : byte.toNat < 128 := by
  revert byte
  decide +kernel

theorem isBlank_octet (c : Char) : (c.toNat < 128 && isBlank (octet c)) = (c ∈ [' ', '\n', '\r', '\t'] : Bool) := by
  have blank : ∀ d ∈ [' ', '\n', '\r', '\t'], isBlank (octet d) = true ∧ d.toNat < 128 := by
    intro d member
    simp only [List.mem_cons, List.not_mem_nil, or_false] at member
    rcases member with rfl | rfl | rfl | rfl <;> exact ⟨by simp [isBlank], by decide⟩
  rw [Bool.eq_iff_iff, Bool.and_eq_true, decide_eq_true_eq, decide_eq_true_eq]
  constructor
  · rintro ⟨ascii, here⟩
    have same : ∀ d : Char, d.toNat < 128 → octet c = octet d → c = d := by
      intro d small equal
      exact (octet_mem_utf8EncodeChar small).1 (by rw [utf8EncodeChar_ascii ascii, equal]; simp)
    simp only [isBlank, decide_eq_true_eq] at here
    rcases here with equal | equal | equal | equal
    · simp [same ' ' (by decide) equal]
    · simp [same '\n' (by decide) equal]
    · simp [same '\r' (by decide) equal]
    · simp [same '\t' (by decide) equal]
  · intro member
    exact (blank c member).symm

theorem At.skipWhitespace {input text : Str} {p : Parser} (here : At input p text) :
    At input p.skipWhitespace (afterBlanks text) := by
  have skipped := At.skipWhile isBlank_ascii here
  simp only [isBlank_octet] at skipped
  exact skipped

theorem afterBlanks_split (text : Str) : ∃ blanks, Blank blanks ∧ text = blanks ++ afterBlanks text := by
  refine ⟨text.takeWhile fun c => c ∈ [' ', '\n', '\r', '\t'], ?_, ?_⟩
  · intro c member
    have held := List.mem_takeWhile_imp member
    exact of_decide_eq_true held
  · exact List.takeWhile_append_dropWhile.symm

theorem afterBlanks_append (blank : Blank blanks) : afterBlanks (blanks ++ text) = afterBlanks text := by
  apply List.dropWhile_append_of_pos
  intro c member
  exact decide_eq_true (blank c member)

theorem afterBlanks_cons (solid : c ∉ [' ', '\n', '\r', '\t']) : afterBlanks (c :: rest) = c :: rest :=
  List.dropWhile_cons_of_neg (by simpa using solid)

theorem afterBlanks_length (text : Str) : (afterBlanks text).length ≤ text.length :=
  (List.dropWhile_sublist _).length_le

theorem afterBlanks_eq_nil : afterBlanks text = [] ↔ Blank text := by
  rw [afterBlanks, List.dropWhile_eq_nil_iff]
  simp [Blank]

theorem afterBlanks_eq_cons (here : afterBlanks text = c :: rest) :
    ∃ blanks, Blank blanks ∧ text = blanks ++ c :: rest := by
  obtain ⟨blanks, blank, whole⟩ := afterBlanks_split text
  rw [here] at whole
  exact ⟨blanks, blank, whole⟩

end Resolved.Proof.Varlink
