import Resolved.Proof.Shm.Nss
import Resolved.Proof.Wire.NameIn

/-!
# What the NSS module takes for a reply
-/

namespace Resolved.Proof.Shm
open Lib Resolved.Wire Resolved.Shm Spec Resolved.Proof.Wire

variable {labels labels' : Labels} {packet out text name response : Bytes}
  {position pointers turns jumps after offset : Nat} {next : Option Nat} {qtype : UInt16}

def joinOnto (out : Bytes) (labels : Labels) : Bytes :=
  labels.foldl appendLabel out

theorem joinOnto_of_ne_nil (started : out ≠ []) (labels : Labels) :
    joinOnto out labels = [octet '.'].intercalate (out :: labels) := by
  induction labels generalizing out with
  | nil => simp [joinOnto]
  | cons label rest ih =>
    have step : joinOnto out (label :: rest) = joinOnto (out ++ octet '.' :: label) rest := by
      rw [joinOnto, List.foldl_cons, appendLabel, if_neg started, joinOnto]
    rw [step, ih (by simp), List.intercalate_cons_cons]
    cases rest with
    | nil => simp
    | cons next others => simp [List.intercalate_cons_cons]

theorem joinOnto_nil (named : ∀ label ∈ labels, label ≠ []) : closeText (joinOnto [] labels) = spelled labels := by
  cases labels with
  | nil => rfl
  | cons label rest =>
    have first := named label (by simp)
    have step : joinOnto [] (label :: rest) = joinOnto label rest := rfl
    have written : [octet '.'].intercalate (label :: rest) ≠ [] := by
      cases rest with
      | nil => simpa using first
      | cons next others => simp [List.intercalate_cons_cons]
    rw [step, joinOnto_of_ne_nil first, closeText, if_neg written, spelled, if_neg (by simp)]

theorem joinOnto_length (out : Bytes) (named : ∀ label ∈ labels, label ≠ []) :
    out.length + labels.length ≤ (joinOnto out labels).length := by
  induction labels generalizing out with
  | nil => simp [joinOnto]
  | cons label rest ih =>
    have first := List.length_pos_iff.2 (named label (by simp))
    refine le_trans ?_ (ih _ fun other member => named other (by simp [member]))
    rw [appendLabel]
    split
    · rename_i empty
      simp only [empty, List.length_nil, List.length_cons]
      omega
    · simp only [List.length_append, List.length_cons]
      omega

theorem spelled_length (named : ∀ label ∈ labels, label ≠ []) :
    (spelled labels).length ≤ 255 ↔ (joinOnto [] labels).length ≤ 255 := by
  rw [← joinOnto_nil named, closeText]
  split
  · rename_i empty
    simp [empty]
  · rfl

theorem expandLoop_of_nameIn {stop : Nat} (name : NameIn packet position labels pointers stop)
    (few : jumps + pointers ≤ 128) (room : (joinOnto out labels).length ≤ 255)
    (enough : pointers + labels.length < turns) :
    expandLoop packet turns position out jumps next = .ok (closeText (joinOnto out labels), next.getD stop) := by
  induction name generalizing turns jumps out next with
  | root zero =>
    obtain ⟨turns, rfl⟩ : ∃ n, turns = n + 1 := ⟨turns - 1, by omega⟩
    simp [expandLoop, zero, joinOnto]
  | @pointer offset pointers stop first second labels byte tag byte' back rest ih =>
    obtain ⟨turns, rfl⟩ : ∃ n, turns = n + 1 := ⟨turns - 1, by omega⟩
    have inside := nameIn_inside rest
    rw [expandLoop]
    simp only [byte, tag, if_true, byte']
    rw [if_neg (by omega), ih (by omega) room (by omega), Option.getD_some]
  | @label offset pointers stop length label labels byte nonzero plain part rest ih =>
    rw [List.length_cons] at enough
    obtain ⟨turns, rfl⟩ : ∃ n, turns = n + 1 := ⟨turns - 1, by omega⟩
    have small := label_small plain
    have grown := joinOnto_length (appendLabel out label) (nameIn_sizes rest)
    have later : (joinOnto (appendLabel out label) labels).length ≤ 255 := room
    have untagged : ¬length &&& 0xc0 = 0xc0 := by
      rw [plain]
      decide
    have label_size : ¬(length &&& 0xc0 ≠ 0 ∨ length > 63) := by simp [plain, small]
    rw [expandLoop]
    simp only [byte, part]
    rw [if_neg untagged, if_neg label_size, if_neg nonzero, if_neg (by omega), ih few later (by omega)]
    rfl

theorem expandLoop_eq_ok (few : jumps ≤ 128) (short : out.length ≤ 255)
    (done : expandLoop packet turns position out jumps next = .ok (text, after)) :
    ∃ labels pointers stop, NameIn packet position labels pointers stop ∧ jumps + pointers ≤ 128 ∧
      (joinOnto out labels).length ≤ 255 ∧ text = closeText (joinOnto out labels) ∧ after = next.getD stop := by
  induction turns generalizing position jumps out next with
  | zero => cases done
  | succ turns ih =>
    rw [expandLoop] at done
    split at done
    · cases done
    rename_i length byte
    split at done
    · rename_i tag
      split at done
      · cases done
      rename_i second byte'
      simp only at done
      split at done
      · cases done
      rename_i back
      rw [not_or, not_or] at back
      obtain ⟨labels, pointers, stop, name, few', room, rfl, rfl⟩ := ih (by omega) short done
      exact ⟨labels, pointers + 1, position + 2, .pointer byte tag byte' (by omega) name, by omega,
        room, rfl, rfl⟩
    split at done
    · cases done
    rename_i plain
    rw [not_or, not_not] at plain
    split at done
    · rename_i zero
      cases done
      exact ⟨[], 0, position + 1, .root (by rw [byte, zero]), few, short, rfl, rfl⟩
    rename_i nonzero
    split at done
    · cases done
    rename_i label part
    simp only at done
    split at done
    · cases done
    rename_i room
    obtain ⟨labels, pointers, stop, name, few', room', rfl, rfl⟩ := ih few (by omega) done
    exact ⟨label :: labels, pointers, stop, .label byte nonzero plain.1 part name, few', room', rfl, rfl⟩

theorem dnsExpandName_eq_ok :
    dnsExpandName packet offset = .ok (text, after) ↔
      ∃ labels pointers, NameIn packet offset labels pointers after ∧ pointers ≤ 128 ∧
        (spelled labels).length ≤ 255 ∧ text = spelled labels := by
  rw [dnsExpandName]
  constructor
  · intro done
    split at done
    · cases done
    obtain ⟨labels, pointers, stop, name, few, room, rfl, rfl⟩ :=
      expandLoop_eq_ok (Nat.zero_le _) (Nat.zero_le _) done
    have named := nameIn_sizes name
    exact ⟨labels, pointers, name, by omega, (spelled_length named).2 room, joinOnto_nil named⟩
  · rintro ⟨labels, pointers, name, few, short, rfl⟩
    have named := nameIn_sizes name
    have room := (spelled_length named).1 short
    have count := joinOnto_length [] named
    rw [if_neg (not_le.2 (nameIn_inside name)),
      expandLoop_of_nameIn name (by omega) room (by simp only [List.length_nil] at count; omega),
      joinOnto_nil named, Option.getD_none]

theorem asciiLower_eq_dot (byte : UInt8) : asciiLower byte = octet '.' ↔ byte = octet '.' := by
  revert byte
  decide +kernel

theorem asciiLower_eq_zero (byte : UInt8) : asciiLower byte = 0 ↔ byte = 0 := by
  revert byte
  decide +kernel

def PlainLabel (label : Bytes) : Prop := octet '.' ∉ label ∧ 0 ∉ label

theorem plainLabel_lower : PlainLabel (label.map asciiLower) ↔ PlainLabel label := by
  simp [PlainLabel, asciiLower_eq_dot, asciiLower_eq_zero]

theorem spelled_lowered (labels : Labels) : spelled (lowered labels) = (spelled labels).map asciiLower := by
  have joined : ∀ first rest, [octet '.'].intercalate (lowered (first :: rest)) =
      ([octet '.'].intercalate (first :: rest)).map asciiLower := by
    intro first rest
    induction rest generalizing first with
    | nil => simp [lowered]
    | cons next others ih =>
      have later := ih next
      rw [lowered_cons] at later ⊢
      rw [lowered_cons, List.intercalate_cons_cons, later, List.intercalate_cons_cons]
      simp [(asciiLower_eq_dot _).2]
  cases labels with
  | nil => rfl
  | cons first rest =>
    rw [spelled, spelled, if_neg (by simp), if_neg (by simp)]
    exact joined first rest

theorem splitOn_spelled (plain : ∀ label ∈ labels, octet '.' ∉ label) (some : labels ≠ []) : (spelled labels).splitOn (octet '.') = labels := by
  rw [spelled, if_neg some, List.splitOn_intercalate _ plain some]

theorem splitOn_root : (spelled []).splitOn (octet '.') = [[], []] := by decide

theorem spelled_inj (plain : ∀ label ∈ labels, label ≠ [] ∧ octet '.' ∉ label)
    (plain' : ∀ label ∈ labels', label ≠ [] ∧ octet '.' ∉ label) (same : spelled labels = spelled labels') :
    labels = labels' := by
  have parts := congrArg (List.splitOn (octet '.')) same
  by_cases empty : labels = [] <;> by_cases empty' : labels' = []
  · rw [empty, empty']
  · rw [empty, splitOn_root, splitOn_spelled (fun label member => (plain' label member).2) empty'] at parts
    exact absurd rfl (plain' [] (by simp [← parts])).1
  · rw [empty', splitOn_root, splitOn_spelled (fun label member => (plain label member).2) empty] at parts
    exact absurd rfl (plain [] (by simp [parts])).1
  · rwa [splitOn_spelled (fun label member => (plain label member).2) empty,
      splitOn_spelled (fun label member => (plain' label member).2) empty'] at parts

theorem spelled_ne_concat (plain : ∀ label ∈ labels, label ≠ [] ∧ octet '.' ∉ label)
    (plain' : ∀ label ∈ labels', label ≠ [] ∧ octet '.' ∉ label) (some : labels' ≠ []) :
    spelled labels ≠ spelled labels' ++ [octet '.'] := by
  intro same
  have parts := congrArg (List.splitOn (octet '.')) same
  rw [splitOn_concat, splitOn_spelled (fun label member => (plain' label member).2) some] at parts
  by_cases empty : labels = []
  · rw [empty, splitOn_root] at parts
    cases labels' with
    | nil => exact some rfl
    | cons first rest =>
      rw [List.cons_append, List.cons.injEq] at parts
      exact (plain' first (by simp)).1 parts.1.symm
  · rw [splitOn_spelled (fun label member => (plain label member).2) empty] at parts
    exact absurd rfl (plain [] (by simp [parts])).1

theorem spelled_ends (plain : ∀ part ∈ parts, part ≠ [] ∧ octet '.' ∉ part) : ¬EndsWithDot (spelled parts) := by
  rintro ⟨notRoot, last⟩
  obtain ⟨front, whole⟩ := List.getLast?_eq_some_iff.1 last
  have some : parts ≠ [] := by
    rintro rfl
    exact notRoot rfl
  have split := splitOn_spelled (fun part member => (plain part member).2) some
  rw [whole, splitOn_concat] at split
  exact absurd rfl (plain [] (by simp [← split])).1

theorem concat_ends (some : text ≠ []) : EndsWithDot (text ++ [octet '.']) :=
  ⟨fun root => some (by simpa using root), by simp⟩

theorem zero_not_mem_spelled (plain : ∀ label ∈ labels, 0 ∉ label) : 0 ∉ spelled labels := by
  rw [spelled]
  split
  · decide
  · intro member
    rcases mem_intercalate member with dot | ⟨label, listed, here⟩
    · exact absurd dot (by decide)
    · exact plain label listed here

theorem srEncodeName_shape {wire : Bytes} {capacity : Nat} (terminated : 0 ∉ name)
    (accepted : srEncodeName name capacity = some wire) :
    ∃ parts, NameOf wire (lowered parts) ∧ (∀ part ∈ parts, part ≠ [] ∧ PlainLabel part) ∧
      (spelled parts).length ≤ 255 ∧ (name = spelled parts ∨ parts ≠ [] ∧ name = spelled parts ++ [octet '.']) := by
  rw [srEncodeName] at accepted
  split at accepted
  · cases accepted
  split at accepted
  · rename_i root
    cases accepted
    exact ⟨[], ⟨rfl, by simp [lowered]⟩, by simp, by decide, .inl (beq_iff_eq.1 root)⟩
  · obtain ⟨out, encoded, rest⟩ := Option.bind_eq_some_iff.1 accepted
    split at rest
    · cases rest
    rename_i fits
    cases rest
    obtain ⟨parts, some, shape, sizes, rfl⟩ := srEncodeLabels_some (List.splitOn_ne_nil _ _) encoded
    have wired : parts.flatMap wireLabel ++ [0] = wireOf (lowered parts) := by
      unfold wireLabel
      simp [wireOf, lowered, List.flatMap_map]
    have text : [octet '.'].intercalate (name.splitOn (octet '.')) = name := List.intercalate_splitOn _
    have spelling : spelled parts = [octet '.'].intercalate parts := by rw [spelled, if_neg some]
    have inName : ∀ part ∈ parts, part ∈ name.splitOn (octet '.') := by
      intro part member
      rcases shape with shape | shape <;> simp [shape, member]
    have plain : ∀ part ∈ parts, octet '.' ∉ part := fun part member =>
      not_mem_of_mem_splitOn (inName part member)
    refine ⟨parts, ⟨by simpa using wired, ?_⟩, ?_, ?_, ?_⟩
    · intro label member
      obtain ⟨part, here, rfl⟩ := List.mem_map.1 member
      rw [List.length_map]
      exact ⟨List.length_pos_iff.2 (sizes part here).1, (sizes part here).2⟩
    · intro part member
      refine ⟨(sizes part member).1, plain part member, ?_⟩
      intro zero
      rw [← text] at terminated
      exact terminated (mem_intercalate_of_mem _ (inName part member) zero)
    · have total := sum_length_splitOn (octet '.') (spelled parts)
      rw [splitOn_spelled plain some, ← wireLabels_length] at total
      rw [List.nil_append] at fits
      omega
    · rcases shape with shape | shape
      · left
        rw [spelling, ← shape, text]
      · right
        rw [shape, intercalate_concat_nil _ some] at text
        exact ⟨some, by rw [spelling, text]⟩

theorem stubReadU16_eq {value : UInt16} (inside : offset + 2 ≤ packet.length) :
    stubReadU16 packet offset = value.toNat ↔ slice packet offset (offset + 2) = some (toBe16 value.toNat) := by
  obtain ⟨a, first⟩ : ∃ a, packet[offset]? = some a := ⟨_, List.getElem?_eq_getElem (by omega)⟩
  obtain ⟨b, second⟩ : ∃ b, packet[offset + 1]? = some b := ⟨_, List.getElem?_eq_getElem (by omega)⟩
  have read : stubReadU16 packet offset = be16 a b := by
    simp [stubReadU16, List.getD_eq_getElem?_getD, first, second]
  have cut : slice packet offset (offset + 2) = some [a, b] := by
    refine slice_eq_some.2 ⟨by omega, inside, ?_⟩
    rw [Nat.add_sub_cancel_left, List.drop_eq_getElem_cons (by omega), List.drop_eq_getElem_cons (by omega)]
    rw [List.getElem?_eq_getElem (by omega), Option.some.injEq] at first second
    simp [first, second]
  rw [read, cut, Option.some.injEq]
  constructor
  · intro same
    have small := a.toNat_lt
    have small' := b.toNat_lt
    rw [← same, toBe16, be16]
    simp only [List.cons.injEq, and_true]
    constructor <;> apply UInt8.toNat_inj.1
    · simp
      omega
    · simp
  · intro same
    rw [toBe16, List.cons.injEq, List.cons.injEq] at same
    rw [same.1, same.2.1, be16_toBe16 _ value.toNat_lt]

theorem asksFor_iff :
    AsksFor response labels pointers qtype ↔
      ∃ stop, NameIn response 12 labels pointers stop ∧ stop + 4 ≤ response.length ∧
        stubReadU16 response stop = qtype.toNat ∧ stubReadU16 response (stop + 2) = 1 := by
  apply exists_congr
  intro stop
  apply and_congr_right'
  have one : (1 : Nat) = (1 : UInt16).toNat := rfl
  rw [slice_append, toBe16_length]
  constructor
  · rintro ⟨front, rear⟩
    have inside := (slice_eq_some.1 rear).2.1
    refine ⟨inside, (stubReadU16_eq (by omega)).2 front, ?_⟩
    rw [one, stubReadU16_eq (by omega)]
    exact rear
  · rintro ⟨inside, type, cls⟩
    refine ⟨(stubReadU16_eq (by omega)).1 type, ?_⟩
    rw [one, stubReadU16_eq (by omega)] at cls
    exact cls

theorem repliesTo_iff {id : UInt16} :
    RepliesTo response id ↔
      ¬(response.length < 12 ∨ stubReadU16 response 0 ≠ id.toNat ∨ response.getD 2 0 &&& 0x80 = 0 ∨
        stubReadU16 response 4 ≠ 1) := by
  have one : (1 : Nat) = (1 : UInt16).toNat := rfl
  rw [not_or, not_or, not_or, not_lt, not_not, not_not]
  constructor
  · rintro ⟨long, same, ⟨flags, byte, reply⟩, single⟩
    refine ⟨long, (stubReadU16_eq (by omega)).2 same, ?_, ?_⟩
    · rwa [List.getD_eq_getElem?_getD, byte, Option.getD_some]
    · rw [one, stubReadU16_eq (by omega)]
      exact single
  · rintro ⟨long, same, reply, single⟩
    have byte := List.getElem?_eq_getElem (by omega : 2 < response.length)
    refine ⟨long, (stubReadU16_eq (by omega)).1 same, ⟨_, byte, ?_⟩, ?_⟩
    · rwa [List.getD_eq_getElem?_getD, byte, Option.getD_some] at reply
    · rw [one, stubReadU16_eq (by omega)] at single
      exact single

theorem validateResponse_eq_ok {response name : Bytes} {id qtype : UInt16} :
    validateResponse response id name qtype = .ok () ↔
      RepliesTo response id ∧ ∃ labels pointers, AsksFor response labels pointers qtype ∧
        pointers ≤ 128 ∧ (spelled labels).length ≤ 255 ∧ sameString (spelled labels) name = true := by
  rw [validateResponse, repliesTo_iff]
  split
  · rename_i bad
    exact ⟨fun failed => (nomatch failed), fun valid => absurd bad valid.1⟩
  rename_i header
  rw [and_iff_right header, bind_eq_ok]
  constructor
  · rintro ⟨⟨text, after⟩, expanded, rest⟩
    simp only at rest
    split at rest
    · cases rest
    rename_i good
    rw [not_or, not_or, not_or, not_lt, not_not, not_not, Bool.not_eq_false] at good
    obtain ⟨labels, pointers, name, few, short, rfl⟩ := dnsExpandName_eq_ok.1 expanded
    exact ⟨labels, pointers, asksFor_iff.2 ⟨after, name, good.1, good.2.2⟩, few, short, good.2.1⟩
  · rintro ⟨labels, pointers, asks, few, short, same⟩
    obtain ⟨after, name, inside, type, cls⟩ := asksFor_iff.1 asks
    refine ⟨_, dnsExpandName_eq_ok.2 ⟨labels, pointers, name, few, short, rfl⟩, ?_⟩
    simp only
    rw [if_neg]
    simp [inside, same, type, cls]

theorem sameString_iff (terminated : 0 ∉ name) :
    sameString text name = true ↔ (text.takeWhile (· ≠ 0)).map asciiLower = name.map asciiLower := by
  have whole : cString name = name := by
    rw [cString, List.takeWhile_eq_self_iff]
    intro byte member
    simpa using ne_of_mem_of_not_mem member terminated
  rw [sameString, decide_eq_true_iff, whole, cString]

theorem sameString_labels (terminated : 0 ∉ name) (plain : ∀ label ∈ labels, 0 ∉ label) :
    sameString (spelled labels) name = true ↔ spelled (lowered labels) = name.map asciiLower := by
  have whole : (spelled labels).takeWhile (· ≠ 0) = spelled labels := by
    rw [List.takeWhile_eq_self_iff]
    intro byte member
    simpa using ne_of_mem_of_not_mem member (zero_not_mem_spelled plain)
  rw [sameString_iff terminated, whole, spelled_lowered]

theorem asksFor_unique {pointers' : Nat} (asks : AsksFor response labels pointers qtype)
    (asks' : AsksFor response labels' pointers' qtype) : labels = labels' ∧ pointers = pointers' := by
  obtain ⟨_, name, _⟩ := asks
  obtain ⟨_, name', _⟩ := asks'
  obtain ⟨same, same', _⟩ := nameIn_unique name name'
  exact ⟨same, same'⟩

theorem asksFor_named (asks : AsksFor response labels pointers qtype) : ∀ label ∈ labels, label ≠ [] := by
  obtain ⟨_, name, _⟩ := asks
  exact nameIn_sizes name

section
variable {name wire : Bytes} {parts : Labels}

theorem echo_labels (named : NameOf wire (lowered parts)) (same : NameOf wire (lowered labels))
    (plain : ∀ part ∈ parts, part ≠ [] ∧ PlainLabel part) :
    lowered labels = lowered parts ∧ ∀ label ∈ labels, PlainLabel label := by
  have equal := nameOf_unique same named
  refine ⟨equal, ?_⟩
  intro label member
  have lower : label.map asciiLower ∈ lowered parts := by
    rw [← equal]
    exact List.mem_map_of_mem member
  obtain ⟨part, listed, shown⟩ := List.mem_map.1 lower
  rw [← plainLabel_lower, ← shown, plainLabel_lower]
  exact (plain part listed).2

theorem lowered_plain (plain : ∀ label ∈ labels, label ≠ [] ∧ PlainLabel label) :
    ∀ label ∈ lowered labels, label ≠ [] ∧ octet '.' ∉ label := by
  intro label member
  obtain ⟨part, listed, rfl⟩ := List.mem_map.1 member
  exact ⟨by simpa using (plain part listed).1, (plainLabel_lower.2 (plain part listed).2).1⟩

theorem echo_text (terminated : 0 ∉ name) (named : NameOf wire (lowered parts))
    (plain : ∀ part ∈ parts, part ≠ [] ∧ PlainLabel part) (short : (spelled parts).length ≤ 255)
    (shape : name = spelled parts ∨ parts ≠ [] ∧ name = spelled parts ++ [octet '.']) {labels : Labels}
    (same : NameOf wire (lowered labels)) :
    (sameString (spelled labels) name = true ↔ ¬EndsWithDot name) ∧ (spelled labels).length ≤ 255 := by
  have partsPlain : ∀ part ∈ parts, part ≠ [] ∧ octet '.' ∉ part := fun part member =>
    ⟨(plain part member).1, (plain part member).2.1⟩
  obtain ⟨equal, labelsPlain⟩ := echo_labels named same plain
  constructor
  · rw [sameString_labels terminated fun label member => (labelsPlain label member).2, equal]
    rcases shape with rfl | ⟨some, rfl⟩
    · rw [spelled_lowered]
      exact ⟨fun _ => spelled_ends partsPlain, fun _ => rfl⟩
    · have written : spelled parts ≠ [] := by
        intro empty
        have split := splitOn_spelled (fun part member => (partsPlain part member).2) some
        rw [empty] at split
        exact absurd rfl (partsPlain [] (by rw [← split]; simp)).1
      refine ⟨fun text => ?_, fun noDot => absurd (concat_ends written) noDot⟩
      rw [List.map_append, ← spelled_lowered] at text
      simp at text
  · have lengths := congrArg (fun labels => (spelled labels).length) equal
    simp only [spelled_lowered, List.length_map] at lengths
    omega

end

theorem validateResponse_echo_iff {name wire : Bytes} {capacity : Nat} (response : Bytes) (id qtype : UInt16)
    (terminated : 0 ∉ name) (accepted : srEncodeName name capacity = some wire) :
    (validateResponse response id name qtype = .ok () ↔ IsEcho response id wire qtype) ↔
      (∀ pointers, EchoIn response id wire qtype pointers → ¬EndsWithDot name ∧ pointers ≤ 128) ∧
        ¬Disguised response id name qtype := by
  obtain ⟨parts, named, plain, short, shape⟩ := srEncodeName_shape terminated accepted
  have plain' := lowered_plain plain
  have echoed := @echo_text name wire parts terminated named plain short shape
  have accepts := @validateResponse_eq_ok response name id qtype
  constructor
  · intro decides
    constructor
    · rintro pointers ⟨replies, labels, asks, same⟩
      obtain ⟨-, labels', pointers', asks', few, -, text⟩ :=
        accepts.1 (decides.2 ⟨pointers, replies, labels, asks, same⟩)
      obtain ⟨rfl, rfl⟩ := asksFor_unique asks asks'
      exact ⟨(echoed same).1.1 text, few⟩
    · rintro ⟨replies, labels, pointers, asks, few, short', ⟨label, listed, odd⟩, text⟩
      obtain ⟨pointers', -, labels', asks', same⟩ := decides.1 (accepts.2
        ⟨replies, labels, pointers, asks, few, short', (sameString_iff terminated).2 text⟩)
      obtain ⟨rfl, rfl⟩ := asksFor_unique asks asks'
      have free := (echo_labels named same plain).2 label listed
      exact odd.elim free.1 free.2
  · rintro ⟨echoes, undisguised⟩
    constructor
    · intro ok
      obtain ⟨replies, labels, pointers, asks, few, short', text⟩ := accepts.1 ok
      have labelsPlain : ∀ label ∈ labels, PlainLabel label := by
        intro label member
        by_contra odd
        apply undisguised
        refine ⟨replies, labels, pointers, asks, few, short', ⟨label, member, ?_⟩,
          (sameString_iff terminated).1 text⟩
        rw [PlainLabel] at odd
        tauto
      have labelsPlain' := lowered_plain fun label member =>
        ⟨asksFor_named asks label member, labelsPlain label member⟩
      rw [sameString_labels terminated fun label member => (labelsPlain label member).2] at text
      rcases shape with rfl | ⟨some, rfl⟩
      · rw [← spelled_lowered] at text
        have equal := spelled_inj labelsPlain' plain' text
        exact ⟨pointers, replies, labels, asks, equal ▸ named⟩
      · rw [List.map_append, ← spelled_lowered] at text
        exact absurd text (spelled_ne_concat labelsPlain' plain' (by simpa [lowered] using some))
    · rintro ⟨pointers, replies, labels, asks, same⟩
      obtain ⟨noDot, few⟩ := echoes pointers ⟨replies, labels, asks, same⟩
      exact accepts.2 ⟨replies, labels, pointers, asks, few, (echoed same).2, (echoed same).1.2 noDot⟩

def replyFor (labels : Labels) : Bytes :=
  [0, 7, 0x81, 0x80, 0, 1, 0, 0, 0, 0, 0, 0] ++ wireOf labels ++ [0, 1, 0, 1]

theorem repliesTo_replyFor (labels : Labels) : RepliesTo (replyFor labels) 7 :=
  ⟨by simp [replyFor], by simp [replyFor, slice, toBe16], ⟨0x81, by simp [replyFor], by decide⟩,
    by simp [replyFor, slice]⟩

theorem asksFor_replyFor (sizes : ∀ label ∈ labels, 0 < label.length ∧ label.length ≤ 63) :
    AsksFor (replyFor labels) labels 0 1 := by
  have written := slice_middle [0, 7, 0x81, 0x80, 0, 1, 0, 0, 0, 0, 0, 0] (wireOf labels) [0, 1, 0, 1]
  have behind := slice_middle ([0, 7, 0x81, 0x80, 0, 1, 0, 0, 0, 0, 0, 0] ++ wireOf labels) [0, 1, 0, 1] []
  rw [List.append_nil, List.length_append] at behind
  exact ⟨_, nameIn_of_wire sizes written, behind⟩

theorem validateResponse_echo_plain :
    srEncodeName [97, 46, 98] 255 = some [1, 97, 1, 98, 0] ∧
      (validateResponse (replyFor [[65], [98]]) 7 [97, 46, 98] 1 = .ok () ↔
        IsEcho (replyFor [[65], [98]]) 7 [1, 97, 1, 98, 0] 1) := by
  have asks : AsksFor (replyFor [[65], [98]]) [[65], [98]] 0 1 := asksFor_replyFor (by decide)
  refine ⟨by decide, (@validateResponse_echo_iff [97, 46, 98] [1, 97, 1, 98, 0] 255 _ 7 1
    (by decide) (by decide)).2 ⟨?_, ?_⟩⟩
  · rintro pointers ⟨-, labels, asks', -⟩
    obtain ⟨-, rfl⟩ := asksFor_unique asks asks'
    exact ⟨fun ends => absurd ends.2 (by decide), by decide⟩
  · rintro ⟨-, labels, pointers, asks', -, -, odd, -⟩
    obtain ⟨rfl, -⟩ := asksFor_unique asks asks'
    revert odd
    decide

theorem validateResponse_dotted :
    (buildQuery [97, 46, 98, 46] 1 7 512 =
        .ok ([0, 7, 1, 0, 0, 1, 0, 0, 0, 0, 0, 0] ++ wireOf [[97], [98]] ++ [0, 1, 0, 1]) ∧
      IsEcho (replyFor [[97], [98]]) 7 (wireOf [[97], [98]]) 1 ∧
      validateResponse (replyFor [[97], [98]]) 7 [97, 46, 98, 46] 1 = .error .eproto) ∧
    srEncodeName [97, 46, 98] 255 = some (wireOf [[97], [98]]) ∧
      (validateResponse (replyFor [[97, 46, 98]]) 7 [97, 46, 98] 1 = .ok () ∧
        ¬IsEcho (replyFor [[97, 46, 98]]) 7 (wireOf [[97], [98]]) 1) ∧
      (validateResponse (replyFor [[97], [98, 0, 99]]) 7 [97, 46, 98] 1 = .ok () ∧
        ¬IsEcho (replyFor [[97], [98, 0, 99]]) 7 (wireOf [[97], [98]]) 1) := by
  have other : ∀ labels : Labels, (∀ label ∈ labels, 0 < label.length ∧ label.length ≤ 63) →
      wireOf [[97], [98]] ≠ wireOf (lowered labels) →
      ¬IsEcho (replyFor labels) 7 (wireOf [[97], [98]]) 1 := by
    rintro labels sizes differ ⟨pointers, -, labels', asks, same⟩
    obtain ⟨rfl, -⟩ := asksFor_unique (asksFor_replyFor sizes) asks
    exact differ same.wire
  refine ⟨⟨by decide, ⟨0, repliesTo_replyFor _, _, asksFor_replyFor (by decide), rfl, by decide⟩,
    by decide⟩, by decide, ⟨by decide, other _ (by decide) (by decide)⟩,
    by decide, other _ (by decide) (by decide)⟩

end Resolved.Proof.Shm
