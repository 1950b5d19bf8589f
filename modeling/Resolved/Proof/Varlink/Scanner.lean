import Resolved.Proof.Varlink.Cursor

/-!
# Strings and numbers
-/

namespace Resolved.Proof.Varlink
open Lib Resolved.Varlink Resolved.Varlink.Parser Spec

variable {byte : UInt8} {digits text rest letters : Str} {p : Parser} {c : Char} {negative : Bool}

variable {input : Str}

theorem exists_turn {least turns : Nat} (enough : least < turns) : ∃ later, turns = later + 1 :=
  ⟨turns - 1, by omega⟩

def Settles {α : Type} (input : Str) (result : Except Fault (α × Parser)) (Good : α → Str → Prop) : Prop :=
  (∃ error, result = .error (.refused error)) ∨
    ∃ found q rest, result = .ok (found, q) ∧ At input q rest ∧ Good found rest

section
variable {α β : Type} {Good : α → Str → Prop} {p q : Parser} {rest : Str}

theorem Settles.refused (message : String) : Settles input (p.error message) Good := .inl ⟨_, rfl⟩

theorem Settles.done {found : α} (here : At input q rest) (good : Good found rest) :
    Settles input (.ok (found, q)) Good := .inr ⟨found, q, rest, rfl, here, good⟩

theorem Settles.bind {Good' : β → Str → Prop} (first : Settles input result Good)
    (later : ∀ found q rest, At input q rest → Good found rest → Settles input (next (found, q)) Good') :
    Settles input (result >>= next) Good' := by
  rcases first with ⟨error, rfl⟩ | ⟨found, q, rest, rfl, here, good⟩
  · exact .inl ⟨error, rfl⟩
  · exact later found q rest here good

theorem Settles.mono {Good' : α → Str → Prop} (settles : Settles input result Good)
    (weaker : ∀ found rest, Good found rest → Good' found rest) : Settles input result Good' := by
  rcases settles with refused | ⟨found, q, rest, done, here, good⟩
  · exact .inl refused
  · exact .inr ⟨found, q, rest, done, here, weaker found rest good⟩

end

theorem ofNat_toNat (c : Char) : Char.ofNat c.toNat = c := Char.ofNat_toNat c

theorem hexDigit_octet (ascii : c.toNat < 128) : hexDigit (octet c) = hexValue c := by
  have all : ∀ n < 128, hexDigit (UInt8.ofNat n) = hexValue (Char.ofNat n) := by decide
  have here := all c.toNat ascii
  rwa [ofNat_toNat] at here

theorem hexDigit_ascii {digit : Nat} (hex : hexDigit byte = some digit) : byte.toNat < 128 := by
  have all : ∀ byte : UInt8, (hexDigit byte).isSome = true → byte.toNat < 128 := by decide +kernel
  exact all byte (by rw [hex]; rfl)

theorem hexValue_ascii (hex : hexValue c = some digit) : c.toNat < 128 := by
  unfold hexValue at hex
  have bound : ∀ limit : Char, c ≤ limit → limit.toNat < 128 → c.toNat < 128 :=
    fun limit below small => lt_of_le_of_lt below small
  split at hex
  · rename_i within
    exact bound '9' within.2 (by decide)
  split at hex
  · rename_i within
    exact bound 'f' within.2 (by decide)
  split at hex
  · rename_i within
    exact bound 'F' within.2 (by decide)
  · cases hex

theorem mapM_hexDigit (ascii : ∀ c ∈ digits, c.toNat < 128) :
    (digits.map octet).mapM hexDigit = digits.mapM hexValue := by
  rw [List.mapM_map]
  induction digits with
  | nil => rfl
  | cons c rest ih =>
    rw [List.forall_mem_cons] at ascii
    rw [List.mapM_cons, List.mapM_cons, ih ascii.2, Function.comp_apply, hexDigit_octet ascii.1]

theorem take_utf8_ascii (long : count ≤ (utf8 text).length)
    (ascii : ∀ byte ∈ (utf8 text).take count, byte.toNat < 128) :
    ∃ digits, digits.length = count ∧ text = digits ++ text.drop count ∧ ∀ c ∈ digits, c.toNat < 128 := by
  induction count generalizing text with
  | zero => exact ⟨[], rfl, rfl, by simp⟩
  | succ count ih =>
    cases text with
    | nil => simp at long
    | cons c rest =>
      have small : c.toNat < 128 := by
        by_contra wide
        have first := utf8EncodeChar_wide (not_lt.1 wide)
        obtain ⟨byte, more, encoded⟩ := utf8EncodeChar_first c
        rw [utf8_cons, encoded, List.cons_append, List.take_succ_cons] at ascii
        have below := ascii byte (by simp)
        have above := first byte (by simp [encoded])
        omega
      rw [utf8_cons, utf8EncodeChar_ascii small, List.singleton_append] at long ascii
      rw [List.take_succ_cons, List.forall_mem_cons] at ascii
      rw [List.length_cons] at long
      obtain ⟨digits, length, whole, all⟩ := ih (by omega) ascii.2
      refine ⟨c :: digits, by simp [length], ?_, List.forall_mem_cons.2 ⟨small, all⟩⟩
      rw [List.drop_succ_cons, List.cons_append, ← whole]

theorem At.slice (here : At input p text) (count : Nat) :
    slice (utf8 p.input) p.offset (p.offset + count) =
      if count ≤ (utf8 text).length then some ((utf8 text).take count) else none := by
  obtain ⟨same, front, whole, offset⟩ := here
  rw [Lib.slice, same, whole, offset, utf8_append]
  by_cases long : count ≤ (utf8 text).length
  · rw [if_pos long, if_pos (by simp [long]), List.drop_left, Nat.add_sub_cancel_left]
  · rw [if_neg long, if_neg (by simp; omega)]

theorem parseHexQuad_settles (here : At input p text) :
    Settles input p.parseHexQuad fun value rest => ∃ digits, HexQuad digits value ∧ text = digits ++ rest := by
  rw [parseHexQuad, here.slice]
  by_cases long : 4 ≤ (utf8 text).length
  · rw [if_pos long]
    simp only
    split
    · exact .refused _
    rename_i values hex
    obtain ⟨digits, four, whole, ascii⟩ := take_utf8_ascii long fun byte member =>
      (mapM_some_forall hex byte member).elim fun _ found => hexDigit_ascii found.2
    have bytes : (utf8 text).take 4 = digits.map octet := by
      rw [whole, utf8_append, utf8_ascii ascii, ← four, List.take_left' (by simp)]
    rw [bytes, mapM_hexDigit ascii] at hex
    rw [whole] at here
    have behind := here.skipAscii ascii
    rw [four] at behind
    exact .done behind ⟨digits, ⟨values, four, hex, rfl⟩, whole⟩
  · rw [if_neg long]
    exact .refused _

theorem hexQuad_ascii (quad : HexQuad digits value) : ∀ c ∈ digits, c.toNat < 128 := by
  obtain ⟨values, -, hex, -⟩ := quad
  intro c member
  obtain ⟨digit, -, found⟩ := mapM_some_forall hex c member
  exact hexValue_ascii found

theorem parseHexQuad_of {value : Nat} (quad : HexQuad digits value) (here : At input p (digits ++ rest)) :
    p.parseHexQuad = .ok (value, p.skip 4) ∧ At input (p.skip 4) rest := by
  have ascii := hexQuad_ascii quad
  obtain ⟨values, four, hex, rfl⟩ := quad
  have behind := here.skipAscii ascii
  rw [four] at behind
  refine ⟨?_, behind⟩
  have octets : (utf8 digits).length = 4 := by rw [utf8_ascii ascii, List.length_map, four]
  have bytes : (utf8 (digits ++ rest)).take 4 = digits.map octet := by
    rw [utf8_append, List.take_left' octets, utf8_ascii ascii]
  rw [parseHexQuad, here.slice, if_pos (by rw [utf8_append, List.length_append]; omega), bytes]
  simp only [mapM_hexDigit ascii, hex]

theorem hexValue_lt (hex : hexValue c = some digit) : digit < 16 := by
  have small := hexValue_ascii hex
  have all : ∀ n < 128, ∀ digit ∈ hexValue (Char.ofNat n), digit < 16 := by decide
  apply all c.toNat small digit
  rw [ofNat_toNat]
  exact hex

theorem hexQuad_lt (quad : HexQuad digits value) : value < 65536 := by
  obtain ⟨values, four, hex, rfl⟩ := quad
  obtain ⟨a, b, c, d, rfl⟩ : ∃ a b c d, digits = [a, b, c, d] := by
    match digits, four with
    | [a, b, c, d], _ => exact ⟨a, b, c, d, rfl⟩
  simp only [List.mapM_cons, List.mapM_nil, Option.bind_eq_bind, Option.bind_eq_some_iff, Option.pure_def,
    Option.some.injEq] at hex
  obtain ⟨i, first, _, ⟨j, second, _, ⟨k, third, _, ⟨l, fourth, _, rfl, rfl⟩, rfl⟩, rfl⟩, rfl⟩ := hex
  have := hexValue_lt first
  have := hexValue_lt second
  have := hexValue_lt third
  have := hexValue_lt fourth
  simp only [List.foldl_cons, List.foldl_nil]
  omega

theorem scalar_unit {p : Parser} {value : Nat} (small : value < 65536) (high : ¬isHigh value) (low : ¬isLow value) :
    p.scalar value = .ok (Char.ofNat value, p) := by
  apply if_pos
  unfold isHigh at high
  unfold isLow at low
  unfold Nat.isValidChar
  omega

theorem scalar_pair {p : Parser} {first second : Nat} (high : isHigh first) (low : isLow second) :
    p.scalar (0x10000 + (first - 0xd800) * 1024 + (second - 0xdc00)) =
      .ok (Char.ofNat (0x10000 + (first - 0xd800) * 1024 + (second - 0xdc00)), p) := by
  apply if_pos
  unfold isHigh at high
  unfold isLow at low
  unfold Nat.isValidChar
  omega

theorem parseUnicodeEscape_settles (here : At input p text) :
    Settles input p.parseUnicodeEscape fun c rest =>
      ∃ letters, Escape ('u' :: letters) c ∧ text = letters ++ rest := by
  apply (parseHexQuad_settles here).bind
  rintro first p₁ rest₁ here₁ ⟨digits, quad, rfl⟩
  simp only
  split
  · rename_i high
    rw [here₁.remaining, ok_bind]
    split
    · exact .refused _
    rename_i follows
    obtain ⟨rest₂, rfl⟩ := not_not.1 follows
    have here₂ : At input (p₁.skip 2) rest₂ := here₁.skipAscii (by simp)
    apply (parseHexQuad_settles here₂).bind
    rintro second p₂ rest₃ here₃ ⟨digits', quad', rfl⟩
    simp only
    split
    · exact .refused _
    rename_i low
    rw [scalar_pair high (not_not.1 low)]
    refine .done here₃ ⟨digits ++ '\\' :: 'u' :: digits', .pair quad high quad' (not_not.1 low), ?_⟩
    simp
  · rename_i high
    split
    · exact .refused _
    rename_i low
    rw [scalar_unit (hexQuad_lt quad) high low]
    exact .done here₁ ⟨digits, .unit quad high low, rfl⟩

theorem parseUnicodeEscape_of (escape : Escape ('u' :: letters) c) (here : At input p (letters ++ rest)) :
    ∃ q, p.parseUnicodeEscape = .ok (c, q) ∧ At input q rest := by
  unfold parseUnicodeEscape
  generalize whole : 'u' :: letters = all at escape
  cases escape with
  | @short letter _ known =>
    cases whole
    have none : ∀ c, ('u', c) ∉ simpleEscapes := by
      intro c member
      simp [simpleEscapes] at member
    exact absurd known (none c)
  | unit quad high low =>
    cases whole
    obtain ⟨done, behind⟩ := parseHexQuad_of quad here
    refine ⟨p.skip 4, ?_, behind⟩
    rw [done, ok_bind]
    have scalar := @scalar_unit (p.skip 4) _ (hexQuad_lt quad) high low
    unfold isHigh at high
    unfold isLow at low
    simp only
    rw [if_neg high, if_neg low, scalar]
  | @pair digits digits' first second quad high quad' low =>
    rw [List.cons_append, List.cons.injEq] at whole
    rw [whole.2, List.append_assoc] at here
    obtain ⟨done, behind⟩ := parseHexQuad_of quad here
    have between : At input ((p.skip 4).skip 2) (digits' ++ rest) :=
      At.skipAscii (show ∀ c ∈ ['\\', 'u'], c.toNat < 128 by simp) behind
    obtain ⟨done', behind'⟩ := parseHexQuad_of quad' between
    refine ⟨((p.skip 4).skip 2).skip 4, ?_, behind'⟩
    have scalar := @scalar_pair (((p.skip 4).skip 2).skip 4) _ _ high low
    unfold isHigh at high
    unfold isLow at low
    rw [done, ok_bind]
    simp only
    rw [if_pos high, behind.remaining, ok_bind, if_neg (by simp), done', ok_bind]
    simp only
    rw [if_neg (not_not.2 low), scalar]

theorem simpleEscape_eq_some :
    simpleEscape byte = some c ↔ ∃ letter, (letter, c) ∈ simpleEscapes ∧ octet letter = byte := by
  constructor
  · intro found
    obtain ⟨⟨letter, c'⟩, first, rfl⟩ := Option.map_eq_some_iff.1 found
    exact ⟨letter, List.mem_of_find?_eq_some first, by simpa using List.find?_some first⟩
  · rintro ⟨letter, known, rfl⟩
    have all : ∀ pair ∈ simpleEscapes, simpleEscape (octet pair.1) = some pair.2 := by decide
    exact all (letter, c) known

theorem simpleEscapes_ascii : ∀ pair ∈ simpleEscapes, pair.1.toNat < 128 := by decide

theorem parseEscape_settles (here : At input p text) :
    Settles input p.parseEscape fun c rest => ∃ letters, Escape letters c ∧ text = letters ++ rest := by
  unfold parseEscape
  split
  · exact .refused _
  rename_i byte first
  simp only
  split
  · rename_i c known
    obtain ⟨letter, listed, rfl⟩ := simpleEscape_eq_some.1 known
    have ascii : letter.toNat < 128 := simpleEscapes_ascii _ listed
    obtain ⟨rest, rfl⟩ := (here.byte_eq_some ascii).1 first
    exact .done (here.skipOne ascii) ⟨[letter], .short listed, rfl⟩
  split
  · rename_i unicode
    subst unicode
    obtain ⟨rest, rfl⟩ := (here.byte_eq_some (by decide)).1 first
    apply (parseUnicodeEscape_settles (here.skipOne (by decide))).mono
    rintro c rest' ⟨letters, escape, rfl⟩
    exact ⟨'u' :: letters, escape, rfl⟩
  · exact .refused _

theorem parseEscape_of (escape : Escape letters c) (here : At input p (letters ++ rest)) : ∃ q, p.parseEscape = .ok (c, q) ∧ At input q rest := by
  have unicode : ∀ tail, letters = 'u' :: tail → ∃ q, p.parseEscape = .ok (c, q) ∧ At input q rest := by
    rintro tail rfl
    have first := here.byte_ascii (by decide)
    have plain : simpleEscape (octet 'u') = none := by decide
    obtain ⟨q, done, left⟩ := parseUnicodeEscape_of escape (here.skipOne (by decide))
    refine ⟨q, ?_, left⟩
    unfold parseEscape
    simp only [first, plain, if_true, done]
  cases escape with
  | @short letter _ known =>
    have ascii : letter.toNat < 128 := simpleEscapes_ascii _ known
    refine ⟨p.skip 1, ?_, here.skipOne ascii⟩
    unfold parseEscape
    simp only [here.byte_ascii ascii, simpleEscape_eq_some.2 ⟨letter, known, rfl⟩]
  | unit => exact unicode _ rfl
  | pair => exact unicode _ rfl

theorem At.byte_small (here : At input p text) (first : p.byte = some byte) (small : byte.toNat < 128) :
    ∃ c rest, text = c :: rest ∧ c.toNat < 128 ∧ octet c = byte ∧ Char.ofNat byte.toNat = c := by
  have valid : (Char.ofNat byte.toNat).toNat = byte.toNat := toNat_ofNat (by omega)
  have same : octet (Char.ofNat byte.toNat) = byte := by
    apply UInt8.toNat_inj.1
    rw [octet_toNat (by rw [valid]; exact small), valid]
  obtain ⟨rest, rfl⟩ := (here.byte_eq_some (show (Char.ofNat byte.toNat).toNat < 128 by rw [valid]; exact small)).1
    (by rw [same]; exact first)
  exact ⟨_, rest, rfl, by rw [valid]; exact small, same, rfl⟩

theorem stringLoop_settles {turns : Nat} {output : Str} (here : At input p text)
    (enough : text.length < turns) :
    Settles input (stringLoop turns output p) fun found rest =>
      ∃ body content, found = output ++ content ∧ Quoted body content ∧ text = body ++ '"' :: rest := by
  induction turns generalizing output text p with
  | zero => omega
  | succ turns ih =>
    unfold stringLoop
    split
    · exact .refused _
    rename_i byte first
    split
    · rename_i quote
      subst quote
      obtain ⟨rest, rfl⟩ := (here.byte_eq_some (by decide)).1 first
      exact .done (here.skipOne (by decide)) ⟨[], [], by simp, .nil, rfl⟩
    rename_i quote
    split
    · rename_i backslash
      subst backslash
      obtain ⟨rest, rfl⟩ := (here.byte_eq_some (by decide)).1 first
      apply (parseEscape_settles (here.skipOne (by decide))).bind
      rintro c q rest' here' ⟨letters, escape, rfl⟩
      simp only [List.length_cons, List.length_append] at enough
      apply (ih here' (by omega)).mono
      rintro found rest ⟨body, content, rfl, quoted, rfl⟩
      exact ⟨'\\' :: letters ++ body, c :: content, by simp, .escape escape quoted, by simp⟩
    rename_i backslash
    -- another character: one octet, or more of them
    have plain : ∀ c rest, text = c :: rest → c ≠ '"' → c ≠ '\\' → 32 ≤ c.toNat →
        Settles input (stringLoop turns (output ++ [c]) (p.skip c.utf8Size)) fun found rest =>
          ∃ body content, found = output ++ content ∧ Quoted body content ∧ text = body ++ '"' :: rest := by
      rintro c rest rfl notQuote notBackslash printable
      rw [List.length_cons] at enough
      apply (ih here.skipChar (by omega)).mono
      rintro found rest' ⟨body, content, rfl, quoted, rfl⟩
      exact ⟨c :: body, c :: content, by simp, .plain notQuote notBackslash printable quoted, rfl⟩
    split
    · exact .refused _
    rename_i printable
    have above : 31 < byte.toNat := by
      rw [UInt8.le_iff_toNat_le] at printable
      simpa using printable
    split
    · rename_i small
      rw [UInt8.le_iff_toNat_le] at small
      obtain ⟨c, rest, whole, ascii, rfl, same⟩ := here.byte_small first (Nat.lt_succ_of_le small)
      rw [octet_toNat ascii] at above
      have next := plain c rest whole (by rintro rfl; exact quote rfl) (by rintro rfl; exact backslash rfl) above
      rw [Char.utf8Size_eq_one_iff.2 (by rw [UInt32.le_iff_toNat_le]; exact Nat.le_of_lt_succ ascii)] at next
      rwa [same]
    · rename_i large
      rw [here.remaining, ok_bind]
      rw [UInt8.le_iff_toNat_le, not_le] at large
      have wide : 128 ≤ byte.toNat := large
      cases text with
      | nil => exact .refused _
      | cons c rest =>
        have high : 128 ≤ c.toNat := by
          by_contra small
          rw [here.byte_ascii (not_le.1 small), Option.some.injEq] at first
          rw [← first, octet_toNat (not_le.1 small)] at wide
          exact small wide
        exact plain c rest rfl (by rintro rfl; exact absurd high (by decide))
          (by rintro rfl; exact absurd high (by decide)) (by omega)

theorem stringLoop_of {body content : Str} (quoted : Quoted body content) {turns : Nat} {output rest : Str}
    {p : Parser} (here : At input p (body ++ '"' :: rest)) (enough : body.length < turns) :
    ∃ q, stringLoop turns output p = .ok (output ++ content, q) ∧ At input q rest := by
  induction quoted generalizing turns output p with obtain ⟨turns, rfl⟩ := exists_turn enough
  | nil =>
    refine ⟨p.skip 1, ?_, here.skipOne (by decide)⟩
    simp [stringLoop, here.byte_ascii (show '"'.toNat < 128 by decide)]
  | @plain c body text quote backslash printable tail ih =>
    rw [List.length_cons] at enough
    obtain ⟨q, done, left⟩ := @ih turns (output ++ [c]) _ (here.skipChar) (by omega)
    refine ⟨q, ?_, left⟩
    rw [stringLoop]
    by_cases ascii : c.toNat < 128
    · have other : ∀ d : Char, d.toNat < 128 → c ≠ d → octet c ≠ octet d := by
        intro d small differ same
        apply differ
        exact (octet_mem_utf8EncodeChar small).1 (by rw [utf8EncodeChar_ascii ascii, same]; simp)
      have one : c.utf8Size = 1 :=
        Char.utf8Size_eq_one_iff.2 (by rw [UInt32.le_iff_toNat_le]; exact Nat.le_of_lt_succ ascii)
      have same : Char.ofNat (octet c).toNat = c := by rw [octet_toNat ascii, ofNat_toNat]
      rw [one] at done
      simp only [here.byte_ascii ascii]
      rw [if_neg (other '"' (by decide) quote), if_neg (other '\\' (by decide) backslash), if_neg, if_pos, same,
        done]
      · simp
      · rw [UInt8.le_iff_toNat_le, octet_toNat ascii]
        exact Nat.le_of_lt_succ ascii
      · rw [UInt8.le_iff_toNat_le, octet_toNat ascii]
        exact not_le.2 printable
    · obtain ⟨byte, more, encoded⟩ := utf8EncodeChar_first c
      have wide := utf8EncodeChar_wide (not_lt.1 ascii) byte (by simp [encoded])
      have first : p.byte = some byte := by
        rw [here.byte, List.cons_append, utf8_cons, encoded]
        rfl
      have other : ∀ d : UInt8, d.toNat < 128 → byte ≠ d := by
        rintro d small rfl
        omega
      have above : ∀ d : UInt8, d.toNat < 128 → ¬byte ≤ d := by
        intro d small below
        rw [UInt8.le_iff_toNat_le] at below
        omega
      simp only [first]
      rw [if_neg (other _ (by decide)), if_neg (other _ (by decide)), if_neg (above _ (by decide)),
        if_neg (above _ (by decide)), here.remaining, ok_bind]
      simp only [List.cons_append, done]
      simp
  | @escape letters body text c valid tail ih =>
    rw [List.cons_append, List.length_cons, List.length_append] at enough
    rw [List.append_assoc, List.cons_append] at here
    obtain ⟨p', escaped, left'⟩ := parseEscape_of valid (here.skipOne (by decide))
    obtain ⟨q, done, left⟩ := @ih turns (output ++ [c]) p' left' (by omega)
    refine ⟨q, ?_, left⟩
    have notQuote : octet '\\' ≠ octet '"' := by decide
    rw [stringLoop]
    simp only [here.byte_ascii (show '\\'.toNat < 128 by decide)]
    rw [if_neg notQuote, if_pos trivial, escaped, ok_bind]
    simp only
    rw [done]
    simp

theorem At.length_le (here : At input p text) : text.length ≤ p.input.length := by
  obtain ⟨same, front, whole, -⟩ := here
  rw [same, whole, List.length_append]
  omega

theorem parseString_settles (here : At input p text) :
    Settles input p.parseString fun content rest =>
      ∃ body, Quoted body content ∧ text = '"' :: body ++ '"' :: rest := by
  unfold parseString
  split
  · exact .refused _
  rename_i first
  obtain ⟨rest, rfl⟩ := (here.byte_eq_some (by decide)).1 (not_not.1 first)
  have inside := here.length_le
  rw [List.length_cons] at inside
  apply (stringLoop_settles (here.skipOne (by decide)) (by omega)).mono
  rintro found rest' ⟨body, content, rfl, quoted, rfl⟩
  exact ⟨body, quoted, rfl⟩

theorem parseString_of {body content : Str} (quoted : Quoted body content)
    (here : At input p ('"' :: body ++ '"' :: rest)) : ∃ q, p.parseString = .ok (content, q) ∧ At input q rest := by
  have inside := here.length_le
  rw [List.cons_append, List.length_cons, List.length_append] at inside
  obtain ⟨q, done, left⟩ := @stringLoop_of input body content quoted (p.input.length + 1) [] rest (p.skip 1)
    (here.skipOne (by decide)) (by omega)
  refine ⟨q, ?_, left⟩
  rw [parseString, if_neg (not_not.2 (here.byte_ascii (by decide))), done]
  rfl

theorem isDigit_ascii (byte : UInt8) (digit : isDigit byte = true) : byte.toNat < 128 := by
  revert byte
  decide +kernel

theorem isDigit_char (digit : c.isDigit = true) : c.toNat < 128 := by
  simp only [Char.isDigit, Bool.and_eq_true, decide_eq_true_eq] at digit
  have below := UInt32.le_iff_toNat_le.1 digit.2
  exact lt_of_le_of_lt below (by decide)

theorem isDigit_octet (c : Char) : (c.toNat < 128 && isDigit (octet c)) = c.isDigit := by
  by_cases ascii : c.toNat < 128
  · have all : ∀ n < 128, isDigit (UInt8.ofNat n) = (Char.ofNat n).isDigit := by decide
    have here := all c.toNat ascii
    rw [ofNat_toNat] at here
    simp [ascii, ← here, octet]
  · have other : ¬c.isDigit = true := fun digit => ascii (isDigit_char digit)
    simp [ascii, other]

theorem At.skipDigits (here : At input p text) :
    p.skipWhile isDigit = p.skip (text.takeWhile Char.isDigit).length ∧
      At input (p.skipWhile isDigit) (text.dropWhile Char.isDigit) := by
  have skipped := At.skipWhile isDigit_ascii here
  simp only [isDigit_octet] at skipped
  refine ⟨?_, skipped⟩
  rw [Parser.skipWhile, here.octets, takeWhile_utf8 isDigit_ascii, List.length_map]
  simp only [isDigit_octet]

theorem parseI128_numeral {negative : Bool} {digits : Str} (given : digits ≠ [])
    (decimal : ∀ c ∈ digits, c.isDigit = true) :
    parseI128 (numeral negative digits) =
      if InI128 (numeralValue negative digits) then some (numeralValue negative digits) else none := by
  have checked : ¬(digits = [] ∨ ¬digits.all Char.isDigit) := by
    rw [not_or, not_not, List.all_eq_true]
    exact ⟨given, decimal⟩
  cases negative with
  | true =>
    simp only [numeral, parseI128, if_true, List.singleton_append]
    rw [if_neg checked]
    rfl
  | false =>
    obtain ⟨d, more, rfl⟩ := List.exists_cons_of_ne_nil given
    have digit := decimal d (by simp)
    have signs : d ≠ '-' ∧ d ≠ '+' := by
      constructor <;> (rintro rfl; exact absurd digit (by decide))
    simp only [numeral, parseI128, Bool.false_eq_true, if_false, List.nil_append]
    split
    · rename_i minus
      cases minus
      exact absurd rfl signs.1
    · rename_i plus
      cases plus
      exact absurd rfl signs.2
    · rw [if_neg checked]
      rfl

def Unnumbered (rest : Str) : Prop := ∀ c ∈ rest.head?, c ≠ '.' ∧ c ≠ 'e' ∧ c ≠ 'E'

theorem finishNumber_cases {front : Str} (ascii : ∀ c ∈ front, c.toNat < 128)
    (here : At input p (front ++ rest)) :
    (∃ error, (¬Unnumbered rest ∨ parseI128 front = none) ∧
      (p.skip front.length).finishNumber p.offset = .error (.refused error)) ∨
    ∃ value, parseI128 front = some value ∧
      (p.skip front.length).finishNumber p.offset = .ok (value, p.skip front.length) := by
  have behind := here.skipAscii ascii
  have dot := behind.byte_eq_some (show '.'.toNat < 128 by decide)
  have small := behind.byte_eq_some (show 'e'.toNat < 128 by decide)
  have large := behind.byte_eq_some (show 'E'.toNat < 128 by decide)
  unfold finishNumber
  split
  · rename_i continues
    refine .inl ⟨_, .inl ?_, rfl⟩
    intro free
    rw [dot, small, large] at continues
    rcases continues with ⟨more, rfl⟩ | ⟨more, rfl⟩ | ⟨more, rfl⟩
    · exact (free '.' rfl).1 rfl
    · exact (free 'e' rfl).2.1 rfl
    · exact (free 'E' rfl).2.2 rfl
  · obtain ⟨same, before, whole, offset⟩ := here
    have width : (p.skip front.length).offset - p.offset = (utf8 front).length := by
      rw [utf8_ascii ascii, List.length_map]
      exact Nat.add_sub_cancel_left p.offset _
    have slice : sliceFrom (p.skip front.length).input p.offset = some (front ++ rest) := by
      rw [offset]
      change sliceFrom p.input _ = _
      rw [same, whole, sliceFrom_append]
    rw [slice, width, okOr_some, ok_bind, sliceTo_append, okOr_some, ok_bind]
    cases parsed : parseI128 front with
    | none => exact .inl ⟨_, .inr rfl, rfl⟩
    | some value => exact .inr ⟨value, rfl, rfl⟩

theorem numeral_ascii {negative : Bool} {digits : Str} (decimal : ∀ c ∈ digits, c.isDigit = true) :
    ∀ c ∈ numeral negative digits, c.toNat < 128 := by
  intro c member
  rcases List.mem_append.1 member with sign | digit
  · cases negative with
    | true =>
      rw [List.mem_singleton.1 sign]
      decide
    | false => cases sign
  · exact isDigit_char (decimal c digit)

theorem finishNumber_settles {q : Parser} (here : At input p text) (given : digits ≠ [])
    (decimal : ∀ c ∈ digits, c.isDigit = true) (leading : digits.head? = some '0' → digits = ['0'])
    (whole : text = numeral negative digits ++ rest) (stands : q = p.skip (numeral negative digits).length) :
    Settles input (q.finishNumber p.offset) fun value rest => ∃ negative digits, IsNumeral negative digits ∧
      value = numeralValue negative digits ∧ text = numeral negative digits ++ rest := by
  subst whole stands
  have ascii := @numeral_ascii negative digits decimal
  rcases finishNumber_cases ascii here with ⟨error, -, run⟩ | ⟨value, parsed, run⟩
  · exact .inl ⟨error, run⟩
  · rw [parseI128_numeral given decimal] at parsed
    split at parsed
    · rename_i range
      cases parsed
      rw [run]
      exact .done (here.skipAscii ascii) ⟨negative, digits, ⟨given, decimal, leading, range⟩, rfl, rfl⟩
    · cases parsed

theorem parseNumber_settles (here : At input p text) :
    Settles input p.parseNumber fun value rest => ∃ negative digits, IsNumeral negative digits ∧
      value = numeralValue negative digits ∧ text = numeral negative digits ++ rest := by
  -- the sign
  obtain ⟨negative, body, q, whole, behind, same, stands⟩ : ∃ (negative : Bool) (body : Str) (q : Parser),
      text = numeral negative body ∧ At input q body ∧ (if p.byte = some (octet '-') then p.skip 1 else p) = q ∧
      q = p.skip (numeral negative []).length := by
    by_cases minus : p.byte = some (octet '-')
    · obtain ⟨rest, rfl⟩ := (here.byte_eq_some (by decide)).1 minus
      exact ⟨true, rest, p.skip 1, rfl, here.skipOne (by decide), if_pos minus, rfl⟩
    · exact ⟨false, text, p, rfl, here, if_neg minus, rfl⟩
  have split : ∀ digits rest, body = digits ++ rest → text = numeral negative digits ++ rest := by
    rintro digits rest rfl
    rw [whole, numeral, numeral, List.append_assoc]
  have moved : ∀ digits, q.skip digits.length = p.skip (numeral negative digits).length := by
    intro digits
    rw [stands]
    simp only [numeral, Parser.skip, List.length_append, List.length_nil, Nat.add_assoc, Nat.zero_add]
  rw [parseNumber]
  simp only [same]
  split
  · exact .refused _
  rename_i byte first
  split
  · rename_i zero
    subst zero
    obtain ⟨rest, rfl⟩ := (behind.byte_eq_some (by decide)).1 first
    split
    · exact .refused _
    · exact finishNumber_settles here (by simp) (by simp) (by simp) (split ['0'] rest rfl) (moved ['0'])
  rename_i nonzero
  split
  · rename_i digit
    obtain ⟨skips, -⟩ := behind.skipDigits
    obtain ⟨c, rest, rfl, ascii, rfl, -⟩ := behind.byte_small first (isDigit_ascii byte digit)
    have numeric : c.isDigit = true := by
      rw [← isDigit_octet, digit]
      simpa using ascii
    rw [skips]
    refine finishNumber_settles here ?_ ?_ ?_ (split _ _ List.takeWhile_append_dropWhile.symm) (moved _)
    · simp [numeric]
    · intro d member
      exact List.mem_takeWhile_imp member
    · intro leading
      rw [List.takeWhile_cons_of_pos numeric, List.head?_cons, Option.some.injEq] at leading
      exact absurd (by rw [leading]) nonzero
  · exact .refused _

theorem parseNumber_of (valid : IsNumeral negative digits) (here : At input p (numeral negative digits ++ rest))
    (ended : ∀ c ∈ rest.head?, c.isDigit = false) (free : Unnumbered rest) :
    ∃ q, p.parseNumber = .ok (numeralValue negative digits, q) ∧ At input q rest := by
  obtain ⟨given, decimal, leading, range⟩ := valid
  obtain ⟨d, more, rfl⟩ := List.exists_cons_of_ne_nil given
  have digit := decimal d (by simp)
  have ascii := @numeral_ascii negative (d :: more) decimal
  have done : (p.skip (numeral negative (d :: more)).length).finishNumber p.offset =
      .ok (numeralValue negative (d :: more), p.skip (numeral negative (d :: more)).length) := by
    have parsed := @parseI128_numeral negative (d :: more) given decimal
    rw [if_pos range] at parsed
    rcases finishNumber_cases ascii here with ⟨error, continues | none, -⟩ | ⟨value, parsed', run⟩
    · exact absurd free continues
    · cases parsed.symm.trans none
    · cases parsed.symm.trans parsed'
      exact run
  refine ⟨_, ?_, here.skipAscii ascii⟩
  obtain ⟨q, behind, same, moved⟩ : ∃ q : Parser, At input q (d :: more ++ rest) ∧
      (if p.byte = some (octet '-') then p.skip 1 else p) = q ∧
      q.skip (d :: more).length = p.skip (numeral negative (d :: more)).length := by
    cases negative with
    | true =>
      refine ⟨p.skip 1, here.skipOne (by decide), if_pos (here.byte_ascii (by decide)), ?_⟩
      simp only [numeral, Parser.skip, if_true, List.length_append, List.length_singleton, Nat.add_assoc]
    | false =>
      refine ⟨p, here, if_neg ?_, rfl⟩
      intro minus
      obtain ⟨tail, whole⟩ := (here.byte_eq_some (by decide)).1 minus
      cases whole
      exact absurd digit (by decide)
  have small := isDigit_char digit
  rw [parseNumber]
  simp only [same, behind.byte_ascii small]
  by_cases zero : d = '0'
  · subst zero
    cases leading rfl
    have next : At input (q.skip 1) rest := behind.skipOne (by decide)
    rw [if_pos rfl, if_neg]
    · rw [← done, ← moved]
      rfl
    · intro more
      rw [Option.any_eq_true] at more
      obtain ⟨byte, first, numeric⟩ := more
      obtain ⟨c, tail, rfl, asciiC, rfl, -⟩ := next.byte_small first (isDigit_ascii byte numeric)
      have other := ended c rfl
      rw [← isDigit_octet, numeric] at other
      simp [asciiC] at other
  · have nonzero : octet d ≠ octet '0' := by
      intro equal
      apply zero
      exact (octet_mem_utf8EncodeChar (by decide)).1 (by rw [utf8EncodeChar_ascii small, equal]; simp)
    have numeric : isDigit (octet d) = true := by
      have both := isDigit_octet d
      rw [digit, Bool.and_eq_true] at both
      exact both.2
    have stops : (d :: more ++ rest).takeWhile Char.isDigit = d :: more := by
      rw [List.takeWhile_append_of_pos decimal]
      cases rest with
      | nil => simp
      | cons c tail => simp [ended c rfl]
    rw [if_neg nonzero, if_pos numeric, behind.skipDigits.1, stops, moved, done]

end Resolved.Proof.Varlink
