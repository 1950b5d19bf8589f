import Resolved.Proof.Wire.Frame
import Resolved.Proof.Wire.NameIn
import Resolved.Proof.Wire.Text

/-!
# What is written is what is parsed
-/

namespace Resolved.Proof.Wire
open Lib Resolved.Wire Spec

section
variable {packet : Packet}

theorem header_written {id flags questions answers authorities additionals : Nat} {rest : Bytes}
    (ids : id < 65536) (flagged : flags < 65536) (asks : questions < 65536) (gives : answers < 65536)
    (points : authorities < 65536) (adds : additionals < 65536) :
    Header.parse (toBe16 id ++ toBe16 flags ++ toBe16 questions ++ toBe16 answers ++
        toBe16 authorities ++ toBe16 additionals ++ rest) =
      .ok ⟨id, flags, questions, answers, authorities, additionals⟩ := by
  have read : ∀ (front rear : Bytes) (value : Nat), value < 65536 →
      readU16 (front ++ toBe16 value ++ rear) front.length = .ok value := by
    intro front rear value small
    exact readU16_of_slice small (slice_middle front (toBe16 value) rear)
  have id' := read [] (toBe16 flags ++ toBe16 questions ++ toBe16 answers ++
    toBe16 authorities ++ toBe16 additionals ++ rest) id ids
  have flags' := read (toBe16 id) (toBe16 questions ++ toBe16 answers ++ toBe16 authorities ++
    toBe16 additionals ++ rest) flags flagged
  have questions' := read (toBe16 id ++ toBe16 flags) (toBe16 answers ++ toBe16 authorities ++
    toBe16 additionals ++ rest) questions asks
  have answers' := read (toBe16 id ++ toBe16 flags ++ toBe16 questions) (toBe16 authorities ++
    toBe16 additionals ++ rest) answers gives
  have authorities' := read (toBe16 id ++ toBe16 flags ++ toBe16 questions ++ toBe16 answers)
    (toBe16 additionals ++ rest) authorities points
  have additionals' := read (toBe16 id ++ toBe16 flags ++ toBe16 questions ++ toBe16 answers ++
    toBe16 authorities) rest additionals adds
  simp only [List.append_assoc, List.nil_append, List.length_append, List.length_nil, toBe16_length]
    at id' flags' questions' answers' authorities' additionals'
  have long : ¬(toBe16 id ++ (toBe16 flags ++ (toBe16 questions ++ (toBe16 answers ++
      (toBe16 authorities ++ (toBe16 additionals ++ rest)))))).length < dnsHeaderLen := by
    simp only [List.length_append, toBe16_length, dnsHeaderLen]
    omega
  simp only [List.append_assoc, Header.parse, if_neg long, id', flags', questions', answers',
    authorities', additionals', ok_bind]
  rfl

theorem validate_eq_ok :
    validate packet expectResponse = .ok () ↔ ∃ sections, parseSections packet = .ok sections ∧
      sections.header.isResponse = expectResponse ∧ sections.header.opcode = 0 ∧
      sections.questions ≠ [] ∧ (expectResponse = false → sections.header.questionCount = 1) ∧
      sections.stop = packet.length := by
  rw [validate, bind_eq_ok]
  constructor
  · rintro ⟨sections, parsed, checked⟩
    refine ⟨sections, parsed, ?_⟩
    split at checked
    · cases checked
    rename_i direction
    split at checked
    · cases checked
    rename_i opcode
    split at checked
    · cases checked
    rename_i asked
    split at checked
    · cases checked
    rename_i one
    split at checked
    · cases checked
    rename_i whole
    refine ⟨by simpa using direction, not_not.mp opcode, by simpa using asked, ?_, not_not.mp whole⟩
    rintro rfl
    simpa using one
  · rintro ⟨sections, parsed, rfl, opcode, asked, one, whole⟩
    refine ⟨sections, parsed, ?_⟩
    rw [if_neg (by simp), if_neg (by simp [opcode]), if_neg (by simpa using asked), if_neg,
      if_neg (by simp [whole])]
    · rfl
    · cases direction : sections.header.isResponse with
      | true => simp
      | false => simp [one direction]

theorem parseQuestion_written {start fixed pointers rrType cls : Nat} {labels : Labels}
    (name : NameIn packet start labels pointers fixed) (few : pointers ≤ 128) (legal : LegalName labels)
    (written : slice packet fixed (fixed + 4) = some (toBe16 rrType ++ toBe16 cls)) (type : rrType < 65536)
    (class' : cls < 65536) : parseQuestion packet start = .ok ⟨nameWith labels, rrType, cls, fixed + 4⟩ := by
  obtain ⟨first, second⟩ := slice_append.mp written
  rw [toBe16_length] at first second
  exact parseQuestion_eq_ok.mpr ⟨fixed, readName_of_nameIn name few legal, readU16_of_slice type first,
    readU16_of_slice class' second, rfl⟩

theorem parseRecord_written {start fixed pointers rrType cls ttl : Nat} {labels : Labels} {rdata : Bytes}
    (name : NameIn packet start labels pointers fixed) (few : pointers ≤ 128) (legal : LegalName labels)
    (written : slice packet fixed (fixed + 10 + rdata.length) =
      some (toBe16 rrType ++ toBe16 cls ++ toBe32 ttl ++ toBe16 rdata.length ++ rdata))
    (type : rrType < 65536) (class' : cls < 65536) (lifetime : ttl < 2 ^ 32)
    (short : rdata.length < 65536) :
    ParsedRecord packet start ⟨nameWith labels, rrType, cls, ttl, fixed + 4, fixed + 10, rdata,
      fixed + 10 + rdata.length⟩ := by
  simp only [slice_append, List.length_append, toBe16_length, toBe32_length] at written
  obtain ⟨⟨⟨⟨first, second⟩, third⟩, fourth⟩, data⟩ := written
  rw [← parseRecord_eq_ok]
  simp only [parseRecord, readName_of_nameIn name few legal, ok_bind, readU16_of_slice type first,
    readU16_of_slice class' second, readU32_of_slice lifetime third, readU16_of_slice short fourth]
  rw [show fixed + (2 + 2 + 4 + 2) = fixed + 10 by omega] at data
  rw [data]
  rfl

end

theorem encodeName_eq_ok {name : Str} {wire : Bytes} (encoded : encodeName name = .ok wire) :
    ∃ labels, LegalName labels ∧ wire = wireOf labels := by
  simp only [encodeName] at encoded
  split at encoded
  · cases encoded
    exact ⟨[], ⟨by simp, by decide⟩, rfl⟩
  split at encoded
  · cases encoded
  split at encoded
  · cases encoded
  rename_i sizes
  split at encoded
  · cases encoded
  rename_i total
  cases encoded
  generalize splitAtChar '.' _ = texts at sizes total
  have wire : (texts.flatMap fun label => UInt8.ofNat label.length :: label.map fun c =>
      UInt8.ofNat c.toNat) ++ [0] =
        wireOf (texts.map fun label => label.map fun c => UInt8.ofNat c.toNat) := by
    simp [wireOf, List.flatMap_map]
  refine ⟨_, ⟨fun label member => ?_, ?_⟩, wire⟩
  · obtain ⟨text, inside, rfl⟩ := List.mem_map.mp member
    have fits : ¬(text.isEmpty || text.length > 63) = true :=
      fun bad => sizes (List.any_eq_true.mpr ⟨text, inside, bad⟩)
    simp only [Bool.or_eq_true, List.isEmpty_iff, decide_eq_true_eq, not_or] at fits
    rw [List.length_map]
    exact ⟨List.length_pos_iff.mpr fits.1, Nat.le_of_not_lt fits.2⟩
  · rw [← wire]
    exact Nat.le_of_not_lt total

section
variable {name : Str} {rrType cls id : Nat} {query : Packet}

theorem makeQueryWithClass_question (made : makeQueryWithClass name rrType cls id = .ok query)
    (type : rrType < 65536) (class' : cls < 65536) :
    ∃ labels stop, LegalName labels ∧ encodeName name = .ok (wireOf labels) ∧
      firstQuestion query = .ok ⟨nameWith labels, rrType, cls, stop⟩ := by
  obtain ⟨wire, encoded, returned⟩ := bind_eq_ok.mp made
  obtain ⟨labels, legal, rfl⟩ := encodeName_eq_ok encoded
  cases pure_eq_ok.mp returned
  have header := @header_written (id % 65536) flagRd 1 0 0 0
    (wireOf labels ++ (toBe16 rrType ++ toBe16 cls)) (Nat.mod_lt _ (by decide)) (by decide) (by decide)
    (by decide) (by decide) (by decide)
  rw [toBe16_mod] at header
  have start := slice_middle (toBe16 id ++ toBe16 flagRd ++ toBe16 1 ++ [0, 0, 0, 0, 0, 0])
    (wireOf labels) (toBe16 rrType ++ toBe16 cls)
  have fields := slice_middle (toBe16 id ++ toBe16 flagRd ++ toBe16 1 ++ [0, 0, 0, 0, 0, 0] ++
    wireOf labels) (toBe16 rrType ++ toBe16 cls) []
  rw [List.append_nil] at fields
  -- the six octets of the other counts are three zeros
  have front : toBe16 id ++ toBe16 flagRd ++ toBe16 1 ++ [0, 0, 0, 0, 0, 0] =
    toBe16 id ++ toBe16 flagRd ++ toBe16 1 ++ toBe16 0 ++ toBe16 0 ++ toBe16 0 := by
      simp [toBe16]
  have size : (toBe16 id ++ toBe16 flagRd ++ toBe16 1 ++ [0, 0, 0, 0, 0, 0]).length = dnsHeaderLen := rfl
  rw [← front] at header
  generalize toBe16 id ++ toBe16 flagRd ++ toBe16 1 ++ [0, 0, 0, 0, 0, 0] = front at *
  simp only [List.length_append, toBe16_length, size, List.append_assoc] at start fields header ⊢
  refine ⟨labels, dnsHeaderLen + (wireOf labels).length + 4, legal, encoded, ?_⟩
  rw [firstQuestion, header, ok_bind, if_neg (by simp)]
  exact parseQuestion_written (nameIn_of_wire legal.sizes start) (Nat.zero_le _) legal fields type class'

end

end Resolved.Proof.Wire
