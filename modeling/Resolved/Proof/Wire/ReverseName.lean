import Resolved.Lib.Separated
import Resolved.Spec.Hosts

/-!
# Owners of reverse records
-/

namespace Resolved.Proof.Wire
open Lib Resolved.Wire Spec

def printed (radix : Nat) (values : List UInt8) : List Str :=
  values.map fun value => Nat.toDigits radix value.toNat

theorem octets_length (address : Ipv6Addr) : address.octets.length = 16 := rfl

theorem valuesOf_ne_nil (address : IpAddr) : valuesOf address ≠ [] := by
  cases address with
  | v4 address => simp [valuesOf]
  | v6 address => simp [valuesOf, nibblesOf, Ipv6Addr.octets, Ipv6Addr.segments, toBe16]

theorem flatMap_terminated {α : Type} (separator : α) {parts : List (List α)} (nonempty : parts ≠ []) :
    parts.flatMap (· ++ [separator]) = [separator].intercalate parts ++ [separator] := by
  induction parts with
  | nil => exact absurd rfl nonempty
  | cons part rest ih =>
    cases rest with
    | nil => simp [List.intercalate]
    | cons next more =>
      rw [List.flatMap_cons, ih (by simp)]
      simp [List.intercalate]

theorem reverseName_eq (address : IpAddr) :
    reverseName address = ['.'].intercalate (printed (radixOf address) (valuesOf address)) ++ domainOf address := by
  cases address with
  | v4 address => simp [reverseName, printed, valuesOf, radixOf, domainOf, List.intercalate]
  | v6 address =>
    have parts : printed 16 (valuesOf (.v6 address)) ≠ [] := by
      simpa [printed] using valuesOf_ne_nil (.v6 address)
    have joined := flatMap_terminated '.' parts
    simp only [printed, valuesOf, nibblesOf, List.map_flatMap, List.flatMap_assoc,
      List.map_cons, List.map_nil, List.flatMap_cons, List.flatMap_nil, List.append_nil] at joined
    simp only [reverseName, radixOf, valuesOf, domainOf, printed, nibblesOf, List.map_flatMap,
      List.map_cons, List.map_nil]
    rw [List.append_cons, ← joined]
    simp

theorem ipv6FromOctets_octets (address : Ipv6Addr) : ipv6FromOctets address.octets = address := by
  have whole (segment : UInt16) :
      UInt16.ofNat (be16 (UInt8.ofNat (segment.toNat / 256)) (UInt8.ofNat segment.toNat)) =
        segment := by
    rw [be16_toBe16 _ segment.toNat_lt, UInt16.ofNat_toNat]
  simp only [ipv6FromOctets, Ipv6Addr.octets, Ipv6Addr.segments, toBe16, List.flatMap_cons,
    List.flatMap_nil, List.cons_append, List.nil_append, List.getD_cons_zero, List.getD_cons_succ, whole]

theorem octets_ipv6FromOctets {bytes : Bytes} (length : bytes.length = 16) :
    (ipv6FromOctets bytes).octets = bytes := by
  match bytes, length with
  | [b0, b1, b2, b3, b4, b5, b6, b7, b8, b9, b10, b11, b12, b13, b14, b15], _ =>
    simp [ipv6FromOctets, Ipv6Addr.octets, Ipv6Addr.segments, toBe16_mod, toBe16_be16]

theorem pairNibbles_flatMap (bytes : Bytes) : pairNibbles (bytes.flatMap nibblesOf) = bytes.reverse := by
  induction bytes with
  | nil => rfl
  | cons byte rest ih =>
    have joined : ∀ byte : UInt8,
        (byte &&& (0x0f : UInt8)) ||| ((byte >>> (4 : UInt8)) <<< (4 : UInt8)) = byte := by
      decide +kernel
    rw [List.flatMap_cons, nibblesOf, List.cons_append, List.singleton_append, pairNibbles, ih,
      joined, List.reverse_cons]

theorem flatMap_pairNibbles (even : nibbles.length % 2 = 0) (small : ∀ nibble ∈ nibbles, nibble ≤ 0x0f) :
    (pairNibbles nibbles).reverse.flatMap nibblesOf = nibbles := by
  fun_induction pairNibbles nibbles with
  | case1 low high rest ih =>
    have all : ∀ low < 16, ∀ high < 16, nibblesOf (UInt8.ofNat low ||| UInt8.ofNat high <<< 4) =
        [UInt8.ofNat low, UInt8.ofNat high] := by
      decide
    have split := all low.toNat (Nat.lt_succ_of_le (UInt8.le_iff_toNat_le.1 (small low (by simp))))
      high.toNat (Nat.lt_succ_of_le (UInt8.le_iff_toNat_le.1 (small high (by simp))))
    rw [UInt8.ofNat_toNat, UInt8.ofNat_toNat] at split
    rw [List.reverse_append, List.reverse_singleton, List.singleton_append, List.flatMap_cons, split,
      ih (by simp only [List.length_cons] at even; omega) fun nibble member => small nibble (by simp [member])]
    rfl
  | case2 nibbles short =>
    cases nibbles with
    | nil => rfl
    | cons low rest =>
      cases rest with
      | nil => simp at even
      | cons high rest => exact absurd rfl (short low high rest)

variable {radix : Nat} {name : Str}

theorem u8FromStrRadix_eq_some :
    u8FromStrRadix radix text = some value ↔ fromStrRadix radix 256 text = some value.toNat := by
  rw [u8FromStrRadix, Option.map_eq_some_iff]
  constructor
  · rintro ⟨n, read, rfl⟩
    rw [read, UInt8.toNat_ofNat_of_lt' (fromStrRadix_lt read)]
  · intro read
    exact ⟨_, read, UInt8.ofNat_toNat⟩

theorem mapM_printed (radix_gt : 1 < radix) (radix_le : radix ≤ 16) (values : List UInt8) :
    (printed radix values).mapM (u8FromStrRadix radix) = some values := by
  induction values with
  | nil => rfl
  | cons value rest ih =>
    have here := u8FromStrRadix_eq_some.mpr
      (fromStrRadix_toDigits radix_gt radix_le value.toNat_lt)
    rw [printed, List.map_cons, List.mapM_cons, here, ← printed, ih]
    rfl

theorem eq_printed (radix_gt : 1 < radix) (radix_le : radix ≤ 16)
    (lower : ∀ numeral ∈ numerals, toAsciiLowercase numeral = numeral)
    (plain : ∀ numeral ∈ numerals, ¬ Superfluous numeral)
    (read : numerals.mapM (u8FromStrRadix radix) = some values) : numerals = printed radix values := by
  induction numerals generalizing values with
  | nil =>
    cases read
    rfl
  | cons numeral rest ih =>
    rw [List.mapM_cons] at read
    simp only [Option.bind_eq_bind, Option.bind_eq_some_iff, Option.pure_def, Option.some.injEq] at read
    obtain ⟨value, first, values, others, rfl⟩ := read
    rw [printed, List.map_cons, ← printed, ← ih (fun other member => lower other (by simp [member]))
        (fun other member => plain other (by simp [member])) others,
      ← eq_toDigits_of_fromStrRadix radix_gt radix_le (lower numeral (by simp))
        (plain numeral (by simp)) (u8FromStrRadix_eq_some.mp first)]

theorem undotted_of_mapM {numerals : List Str} {values : List UInt8}
    (read : numerals.mapM (u8FromStrRadix radix) = some values) : ∀ numeral ∈ numerals, '.' ∉ numeral := by
  intro numeral member dot
  obtain ⟨value, -, here⟩ := mapM_some_forall read numeral member
  rcases mem_of_fromStrRadix (u8FromStrRadix_eq_some.mp here) dot with sign | digit
  · exact absurd sign (by decide)
  · simp [toDigit] at digit

theorem splitOn_numerals {numerals : List Str} {values : List UInt8} (nonempty : values ≠ [])
    (read : numerals.mapM (u8FromStrRadix radix) = some values) :
    (['.'].intercalate numerals).splitOn '.' = numerals := by
  apply List.splitOn_intercalate
  · exact undotted_of_mapM read
  · rintro rfl
    cases read
    exact nonempty rfl

theorem domainOf_v6_ne (front front' : Str) : front ++ inAddrArpa ≠ front' ++ '.' :: ip6Arpa := by
  intro same
  have shorter : '.' :: ip6Arpa <:+ inAddrArpa :=
    List.suffix_of_suffix_length_le ⟨front', same.symm⟩ ⟨front, rfl⟩ (by decide)
  exact absurd shorter (by decide)

theorem valuesOf_v6_valid (address : Ipv6Addr) :
    (valuesOf (.v6 address)).length = 32 ∧ ∀ nibble ∈ valuesOf (.v6 address), nibble ≤ 0x0f := by
  have small : ∀ byte : UInt8, byte &&& 0x0f ≤ (0x0f : UInt8) ∧ byte >>> 4 ≤ (0x0f : UInt8) := by
    decide +kernel
  constructor
  · simp [valuesOf, nibblesOf, List.length_flatMap, octets_length]
  · intro nibble member
    obtain ⟨byte, -, here⟩ := List.mem_flatMap.mp member
    rw [nibblesOf, List.mem_pair] at here
    rcases here with rfl | rfl
    · exact (small byte).1
    · exact (small byte).2

theorem pairNibbles_length : (pairNibbles nibbles).length = nibbles.length / 2 := by
  fun_induction pairNibbles nibbles with
  | case1 low high rest ih =>
    rw [List.length_append, ih, List.length_singleton, List.length_cons, List.length_cons]
    omega
  | case2 nibbles short =>
    cases nibbles with
    | nil => rfl
    | cons low rest =>
      cases rest with
      | nil => simp
      | cons high rest => exact absurd rfl (short low high rest)

theorem ipv6_of_nibbles (length : nibbles.length = 32) (small : ∀ nibble ∈ nibbles, nibble ≤ 0x0f) :
    ipv6FromOctets (pairNibbles nibbles) = address ↔ nibbles = valuesOf (.v6 address) := by
  constructor
  · rintro rfl
    rw [valuesOf, octets_ipv6FromOctets (by rw [pairNibbles_length, length]),
      flatMap_pairNibbles (by rw [length]) small]
  · rintro rfl
    rw [valuesOf, pairNibbles_flatMap, List.reverse_reverse, ipv6FromOctets_octets]

theorem parseReverseName_eq_some :
    parseReverseName name = some address ↔ ∃ numerals,
      ownerText name = ['.'].intercalate numerals ++ domainOf address ∧
        numerals.mapM (u8FromStrRadix (radixOf address)) = some (valuesOf address) := by
  rw [parseReverseName, ← ownerText]
  cases inAddr : stripSuffix (ownerText name) inAddrArpa with
  | some front =>
    have text := stripSuffix_eq_some.mp inAddr
    simp only [splitAtChar]
    constructor
    · intro parsed
      split at parsed
      · rename_i d c b a read
        cases parsed
        exact ⟨front.splitOn '.', by rw [List.intercalate_splitOn, text, domainOf], read⟩
      · cases parsed
    · rintro ⟨numerals, text', read⟩
      cases address with
      | v4 address =>
        have same : front = ['.'].intercalate numerals :=
          List.append_cancel_right (text.symm.trans text')
        rw [same, splitOn_numerals (valuesOf_ne_nil _) read]
        simp only [radixOf] at read
        rw [read]
        rfl
      | v6 address => exact absurd (text.symm.trans text') (domainOf_v6_ne _ _)
  | none =>
    have other : ∀ front, ownerText name ≠ front ++ inAddrArpa := fun front text => by
      rw [stripSuffix_eq_some.mpr text] at inAddr
      cases inAddr
    cases ip6 : stripSuffix (ownerText name) ('.' :: ip6Arpa) with
    | none =>
      simp only [reduceCtorEq, false_iff]
      rintro ⟨numerals, text, -⟩
      cases address with
      | v4 address => exact other _ text
      | v6 address =>
        rw [domainOf] at text
        rw [stripSuffix_eq_some.mpr text] at ip6
        cases ip6
    | some front =>
      have text := stripSuffix_eq_some.mp ip6
      simp only [splitAtChar]
      constructor
      · intro parsed
        split at parsed
        · rename_i nibbles read
          split at parsed
          · cases parsed
          · rename_i valid
            simp only [not_or, ne_eq, not_not, List.any_eq_true, decide_eq_true_eq, not_exists,
              not_and, UInt8.not_lt] at valid
            obtain ⟨length, small⟩ := valid
            cases parsed
            refine ⟨front.splitOn '.', by rw [List.intercalate_splitOn, text, domainOf], ?_⟩
            rw [← (ipv6_of_nibbles length small).mp rfl]
            exact read
        · cases parsed
      · rintro ⟨numerals, text', read⟩
        cases address with
        | v4 address => exact absurd text' (other _)
        | v6 address =>
          have same : front = ['.'].intercalate numerals :=
            List.append_cancel_right (text.symm.trans text')
          rw [same, splitOn_numerals (valuesOf_ne_nil _) read]
          simp only [radixOf] at read
          obtain ⟨length, small⟩ := valuesOf_v6_valid address
          simp only [read]
          rw [if_neg, (ipv6_of_nibbles length small).mpr rfl]
          simpa [length] using small

theorem ownerText_lower (name : Str) : ∀ c ∈ ownerText name, lowerChar c = c := by
  intro c member
  obtain ⟨d, -, rfl⟩ := List.mem_map.mp member
  exact lowerChar_lowerChar d

theorem numerals_lower (text : ownerText name = ['.'].intercalate numerals ++ domain) :
    ∀ numeral ∈ numerals, toAsciiLowercase numeral = numeral := by
  intro numeral listed
  rw [toAsciiLowercase, List.map_congr_left fun c member => ownerText_lower name c ?_, List.map_id']
  rw [text]
  exact List.mem_append_left _ (mem_intercalate_of_mem '.' listed member)

theorem numeralOwner_of_read (text : ownerText name = ['.'].intercalate numerals ++ domainOf address)
    (read : numerals.mapM (u8FromStrRadix (radixOf address)) = some (valuesOf address)) :
    NumeralOwner name numerals := by
  have count := (mapM_eq_some_iff.mp read).length_eq
  cases address with
  | v4 address =>
    refine .inAddr text count fun numeral member => ?_
    obtain ⟨value, -, here⟩ := mapM_some_forall read numeral member
    rw [radixOf, u8FromStrRadix_eq_some] at here
    rw [here]
    rfl
  | v6 address =>
    obtain ⟨length, small⟩ := valuesOf_v6_valid address
    refine .ip6 text (count.trans length) fun numeral member => ?_
    obtain ⟨value, listed, here⟩ := mapM_some_forall read numeral member
    rw [radixOf, u8FromStrRadix_eq_some] at here
    have lt : value.toNat < 16 := Nat.lt_succ_of_le (UInt8.le_iff_toNat_le.mp (small value listed))
    rw [fromStrRadix_of_lt here lt]
    rfl

theorem read_of_numeralOwner (owner : NumeralOwner name numerals) :
    ∃ address, ownerText name = ['.'].intercalate numerals ++ domainOf address ∧
      numerals.mapM (u8FromStrRadix (radixOf address)) = some (valuesOf address) := by
  cases owner with
  | inAddr text count octets =>
    obtain ⟨values, read, -⟩ := @exists_mapM_eq_some _ _ (u8FromStrRadix 10) (fun _ => True)
      numerals fun numeral member => by
        obtain ⟨n, here⟩ := Option.isSome_iff_exists.mp (octets numeral member)
        exact ⟨UInt8.ofNat n, by rw [u8FromStrRadix, here]; rfl, trivial⟩
    have length := (mapM_eq_some_iff.mp read).length_eq.symm.trans count
    match values, length with
    | [d, c, b, a], _ => exact ⟨.v4 ⟨a, b, c, d⟩, text, read⟩
  | ip6 text count nibbles =>
    obtain ⟨values, read, small⟩ := @exists_mapM_eq_some _ _ (u8FromStrRadix 16)
      (fun value => value ≤ 0x0f) numerals fun numeral member => by
        obtain ⟨n, here⟩ := Option.isSome_iff_exists.mp (nibbles numeral member)
        have lt := fromStrRadix_lt here
        refine ⟨UInt8.ofNat n, by rw [u8FromStrRadix, fromStrRadix_of_lt here (by omega)]; rfl, ?_⟩
        rw [UInt8.le_iff_toNat_le, UInt8.toNat_ofNat_of_lt' (lt.trans (by decide))]
        exact Nat.le_of_lt_succ lt
    have length := (mapM_eq_some_iff.mp read).length_eq.symm.trans count
    refine ⟨.v6 (ipv6FromOctets (pairNibbles values)), text, ?_⟩
    rw [← (ipv6_of_nibbles length small).mp rfl]
    exact read

theorem radixOf_bounds (address : IpAddr) : 1 < radixOf address ∧ radixOf address ≤ 16 := by
  cases address <;> simp [radixOf]

theorem parseReverseName_reverseName (text : ownerText name = reverseName address) :
    parseReverseName name = some address := by
  obtain ⟨gt, le⟩ := radixOf_bounds address
  rw [reverseName_eq] at text
  exact parseReverseName_eq_some.mpr ⟨_, text, mapM_printed gt le _⟩

/-- Only the printed owner of an address is read as the address when the name has no numeral with a
sign or a zero too many. -/
theorem parseReverseName_iff (name : Str) :
    (∀ address, parseReverseName name = some address ↔ ownerText name = reverseName address) ↔
      ¬ LooseOwner name := by
  constructor
  · rintro canonical ⟨numerals, owner, numeral, member, loose⟩
    obtain ⟨address, text, read⟩ := read_of_numeralOwner owner
    obtain ⟨gt, le⟩ := radixOf_bounds address
    have printed_text := (canonical address).mp (parseReverseName_eq_some.mpr ⟨numerals, text, read⟩)
    rw [reverseName_eq, text] at printed_text
    have same := congrArg (List.splitOn '.') (List.append_cancel_right printed_text)
    rw [splitOn_numerals (valuesOf_ne_nil _) read,
      splitOn_numerals (valuesOf_ne_nil _) (mapM_printed gt le _)] at same
    rw [same] at member
    obtain ⟨value, -, rfl⟩ := List.mem_map.mp member
    exact not_superfluous_toDigits gt le _ loose
  · intro tight address
    constructor
    · intro parsed
      obtain ⟨numerals, text, read⟩ := parseReverseName_eq_some.mp parsed
      obtain ⟨gt, le⟩ := radixOf_bounds address
      have plain : ∀ numeral ∈ numerals, ¬ Superfluous numeral := fun numeral member loose =>
        tight ⟨numerals, numeralOwner_of_read text read, numeral, member, loose⟩
      rw [reverseName_eq, text, ← eq_printed gt le (numerals_lower text) plain read]
    · exact parseReverseName_reverseName

theorem parseReverseName_iff_loopback :
    ¬ LooseOwner ['1', '.', '0', '.', '0', '.', '1', '2', '7', '.', 'I', 'N', '-', 'A', 'D', 'D',
      'R', '.', 'a', 'r', 'p', 'a', '.'] := by
  apply (parseReverseName_iff _).mp
  intro address
  constructor
  · intro parsed
    have loopback : parseReverseName ['1', '.', '0', '.', '0', '.', '1', '2', '7', '.', 'I', 'N',
        '-', 'A', 'D', 'D', 'R', '.', 'a', 'r', 'p', 'a', '.'] = some (.v4 ⟨127, 0, 0, 1⟩) := by
      decide
    cases loopback.symm.trans parsed
    decide
  · exact parseReverseName_reverseName

theorem parseReverseName_loose :
    ∃ address, parseReverseName ['+', '1', '.', '0', '.', '0', '.', '1', '2', '7', '.', 'i', 'n', '-',
        'a', 'd', 'd', 'r', '.', 'a', 'r', 'p', 'a'] = some address ∧
      ownerText ['+', '1', '.', '0', '.', '0', '.', '1', '2', '7', '.', 'i', 'n', '-',
        'a', 'd', 'd', 'r', '.', 'a', 'r', 'p', 'a'] ≠ reverseName address :=
  ⟨.v4 ⟨127, 0, 0, 1⟩, by decide, by decide⟩

end Resolved.Proof.Wire
