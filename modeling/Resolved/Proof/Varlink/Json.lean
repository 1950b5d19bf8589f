import Resolved.Proof.Varlink.Values

/-!
# What is written is parsed
-/

namespace Resolved.Proof.Varlink
open Lib Resolved.Varlink Spec

theorem digitsValue_append (digits : Str) (c : Char) :
    digitsValue (digits ++ [c]) = digitsValue digits * 10 + (c.toNat - 48) := by
  rw [digitsValue, List.foldl_append]
  rfl

theorem digitChar_value (small : n < 10) : n.digitChar.toNat - 48 = n := by
  revert n
  decide

theorem digitsValue_toDigits (n : Nat) : digitsValue (Nat.toDigits 10 n) = n := by
  induction n using Nat.strongRecOn with
  | ind n ih =>
    rw [Nat.toDigits_eq_if (by decide)]
    split
    · rename_i small
      exact (Nat.zero_add _).trans (digitChar_value small)
    · rename_i large
      rw [digitsValue_append, ih (n / 10) (by omega), digitChar_value (Nat.mod_lt _ (by decide))]
      omega

theorem digitChar_zero (small : n < 10) (zero : n.digitChar = '0') : n = 0 := by
  revert n
  decide

theorem toDigits_leading (zero : (Nat.toDigits 10 n).head? = some '0') : n = 0 := by
  induction n using Nat.strongRecOn with
  | ind n ih =>
    rw [Nat.toDigits_eq_if (by decide)] at zero
    split at zero
    · rename_i small
      exact digitChar_zero small (Option.some.inj zero)
    · rename_i large
      rw [List.head?_append_of_ne_nil _ Nat.toDigits_ne_nil] at zero
      have none := ih (n / 10) (by omega) zero
      omega

theorem isNumeral_toDigits (range : InI128 value) :
    IsNumeral (decide (value < 0)) (Nat.toDigits 10 value.natAbs) ∧
      numeralValue (decide (value < 0)) (Nat.toDigits 10 value.natAbs) = value := by
  have same : numeralValue (decide (value < 0)) (Nat.toDigits 10 value.natAbs) = value := by
    rw [numeralValue, digitsValue_toDigits]
    by_cases negative : value < 0
    · rw [if_pos (decide_eq_true negative)]
      omega
    · rw [if_neg (by simpa using negative)]
      omega
  refine ⟨⟨Nat.toDigits_ne_nil, ?_, ?_, by rwa [same]⟩, same⟩
  · intro c member
    exact Nat.isDigit_of_mem_toDigits (by decide) (by decide) member
  · intro zero
    rw [toDigits_leading zero]
    rfl

theorem hexQuad_hexQuad (small : value < 65536) : HexQuad (hexQuad value) value := by
  have digit : ∀ n < 16, hexValue n.digitChar = some n := by decide
  refine ⟨[value / 4096 % 16, value / 256 % 16, value / 16 % 16, value % 16], rfl, ?_, ?_⟩
  · simp only [hexQuad, List.map_cons, List.map_nil, List.mapM_cons, List.mapM_nil,
      digit _ (Nat.mod_lt _ (show 0 < 16 by decide))]
    rfl
  · simp only [List.foldl_cons, List.foldl_nil]
    omega

theorem writeCharacter_cases (c : Char) :
    (∃ letters, writeCharacter c = '\\' :: letters ∧ Escape letters c) ∨
      (writeCharacter c = [c] ∧ c ≠ '"' ∧ c ≠ '\\' ∧ 32 ≤ c.toNat) := by
  have short : ∀ letter d, (letter, d) ∈ simpleEscapes → c = d → writeCharacter c = ['\\', letter] →
      ∃ letters, writeCharacter c = '\\' :: letters ∧ Escape letters c := by
    rintro letter d known rfl written
    exact ⟨[letter], written, .short known⟩
  by_cases quote : c = '"'
  · exact .inl (short '"' '"' (by simp [simpleEscapes]) quote (by rw [quote]; rfl))
  by_cases backslash : c = '\\'
  · exact .inl (short '\\' '\\' (by simp [simpleEscapes]) backslash (by rw [backslash]; rfl))
  by_cases back : c = Char.ofNat 0x08
  · exact .inl (short 'b' _ (by simp [simpleEscapes]) back (by rw [back]; rfl))
  by_cases form : c = Char.ofNat 0x0c
  · exact .inl (short 'f' _ (by simp [simpleEscapes]) form (by rw [form]; rfl))
  by_cases line : c = '\n'
  · exact .inl (short 'n' _ (by simp [simpleEscapes]) line (by rw [line]; rfl))
  by_cases carriage : c = '\r'
  · exact .inl (short 'r' _ (by simp [simpleEscapes]) carriage (by rw [carriage]; rfl))
  by_cases tab : c = '\t'
  · exact .inl (short 't' _ (by simp [simpleEscapes]) tab (by rw [tab]; rfl))
  rw [writeCharacter, if_neg quote, if_neg backslash, if_neg back, if_neg form, if_neg line, if_neg carriage,
    if_neg tab]
  by_cases control : c.toNat < 0x20
  · refine .inl ⟨'u' :: hexQuad c.toNat, ?_, ?_⟩
    · rw [if_pos control]
      rfl
    · have escape := Escape.unit (hexQuad_hexQuad (show c.toNat < 65536 by omega))
        (by unfold isHigh; omega) (by unfold isLow; omega)
      rwa [ofNat_toNat] at escape
  · rw [if_neg control]
    exact .inr ⟨rfl, quote, backslash, not_lt.1 control⟩

theorem quoted_written (value : Str) : Quoted (value.flatMap writeCharacter) value := by
  induction value with
  | nil => exact .nil
  | cons c rest ih =>
    rw [List.flatMap_cons]
    rcases writeCharacter_cases c with ⟨letters, written, escape⟩ | ⟨written, quote, backslash, printable⟩
    · rw [written]
      exact .escape escape ih
    · rw [written]
      exact .plain quote backslash printable ih

theorem padded_self (text : Str) : Padded text text :=
  ⟨[], [], by simp [Blank], by simp [Blank], by simp⟩

theorem spells_items (index : Nat) (all : ∀ item ∈ value :: values, Spells (.value item) item.toJson) :
    Spells (.items (value :: values)) (value.toJson ++ writeItems (index + 1) values) := by
  induction values generalizing value index with
  | nil =>
    rw [writeItems, List.append_nil]
    exact .lastItem (padded_self _) (all value (by simp))
  | cons next values ih =>
    rw [List.forall_mem_cons] at all
    rw [writeItems, if_pos (Nat.succ_ne_zero index), List.append_assoc]
    exact .item (padded_self _) all.1 (ih (index + 1) all.2)

theorem spells_members (index : Nat) (all : ∀ held ∈ entry :: entries, Spells (.value held.2) held.2.toJson) :
    Spells (.members (entry :: entries))
      (writeString entry.1 ++ ':' :: (entry.2.toJson ++ writeMembers (index + 1) entries)) := by
  induction entries generalizing entry index with
  | nil =>
    rw [writeMembers, List.append_nil]
    exact .lastMember (padded_self _) (quoted_written entry.1) (padded_self _) (all entry (by simp))
  | cons next entries ih =>
    rw [List.forall_mem_cons] at all
    have named : Padded (writeString entry.1) ('"' :: entry.1.flatMap writeCharacter ++ ['"']) := padded_self _
    have member := Spells.member named (quoted_written entry.1) (padded_self _) all.1 (ih (index + 1) all.2)
    rw [writeMembers, if_pos (Nat.succ_ne_zero index)]
    simpa using member

theorem spells_toJson (proper : Proper value) : Spells (.value value) value.toJson := by
  induction proper with
  | null => exact .null
  | @bool value =>
    cases value with
    | true => exact .yes
    | false => exact .no
  | @number value range =>
    obtain ⟨valid, same⟩ := isNumeral_toDigits range
    have spells := Spells.number valid
    rw [same] at spells
    rw [Value.toJson, writeNumber]
    simpa [numeral] using spells
  | @string value => exact .string (quoted_written value)
  | @array values all ih =>
    cases values with
    | nil => exact .emptyArray (by simp [Blank, writeItems])
    | cons value values =>
      have items := spells_items 0 ih
      rw [Value.toJson, writeItems, if_neg (by simp), List.nil_append]
      exact .array items
  | @object entries sorted all ih =>
    cases entries with
    | nil => exact .emptyObject (by simp [Blank, writeMembers])
    | cons entry entries =>
      have members := spells_members 0 ih
      have distinct : ((entry :: entries).map (·.1)).Nodup := by
        rw [List.Nodup, List.pairwise_map]
        exact sorted.imp fun less => ne_of_lt less
      have object := Spells.object members distinct (.refl _) sorted
      rw [Value.toJson, writeMembers, if_neg (by simp), List.nil_append]
      simpa using object

/-- A value that is written is parsed again, the texts that are parsed are those of the grammar, and the
parser always comes to an end between two characters. -/
theorem json_parse (value : Value) (proper : Proper value) (input : Str) :
    parse value.toJson = .ok value ∧ (∀ found, parse input = .ok found ↔ IsJson input found) ∧
      ∀ fault, parse input = .error fault → ∃ error, fault = .refused error := by
  refine ⟨parse_of ⟨_, padded_self _, spells_toJson proper⟩, fun found => ⟨fun done => ?_, parse_of⟩, ?_⟩
  · rcases parse_settled input with ⟨error, refused⟩ | ⟨value, parsed, json⟩
    · cases refused.symm.trans done
    · cases parsed.symm.trans done
      exact json
  · intro fault failed
    rcases parse_settled input with ⟨error, refused⟩ | ⟨value, parsed, -⟩
    · cases refused.symm.trans failed
      exact ⟨error, rfl⟩
    · cases parsed.symm.trans failed

theorem json_parse_array :
    parse ['[', '"', '€', '"', ',', '-', '1', ']'] = .ok (.array [.string ['€'], .number (-1)]) ∧
      (∀ found, parse ['['] = .ok found ↔ IsJson ['['] found) ∧
      ∀ fault, parse ['['] = .error fault → ∃ error, fault = .refused error := by
  have written : (Value.array [.string ['€'], .number (-1)]).toJson =
      ['[', '"', '€', '"', ',', '-', '1', ']'] := by decide
  rw [← written]
  refine json_parse (.array [.string ['€'], .number (-1)]) (.array ?_) ['[']
  intro item member
  simp only [List.mem_cons, List.not_mem_nil, or_false] at member
  rcases member with rfl | rfl
  · exact .string
  · exact .number (by decide)

end Resolved.Proof.Varlink
