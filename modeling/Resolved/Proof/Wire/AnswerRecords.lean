import Resolved.Proof.Wire.NameIn
import Resolved.Proof.Wire.Records

/-!
# Records on their own
-/

namespace Resolved.Proof.Wire
open Lib Resolved.Wire Spec

section
variable {packet : Packet} {start offset stop : Nat} {rdata : Bytes} {labels : Labels}
  (placed : slice packet start (start + rdata.length) = some rdata)
include placed

theorem placed_octet (inside : i < rdata.length) : rdata[i]? = packet[start + i]? :=
  slice_getElem? placed i (by omega)

theorem placed_slice (inside : j ≤ rdata.length) : slice rdata i j = slice packet (start + i) (start + j) := by
  obtain ⟨-, bound, whole⟩ := slice_eq_some.1 placed
  unfold slice
  by_cases ordered : i ≤ j
  · rw [if_pos ⟨ordered, inside⟩, if_pos ⟨by omega, by omega⟩]
    rw [Nat.add_sub_cancel_left] at whole
    conv_lhs => rw [whole]
    rw [List.drop_take, List.take_take, List.drop_drop, Nat.min_eq_left (by omega)]
    congr 2
    omega
  · rw [if_neg (fun both => ordered both.1), if_neg (fun both => ordered (by omega))]

theorem nameIn_plain {position pointers : Nat} (plain : ¬Compressed rdata offset)
    (name : NameIn packet position labels pointers stop) (inside : stop ≤ start + rdata.length)
    (here : position = start + offset) :
    pointers = 0 ∧ ∃ stop', stop = start + stop' ∧ NameIn rdata offset labels 0 stop' := by
  induction name generalizing offset with
  | root zero =>
    subst here
    rw [← placed_octet placed (by omega)] at zero
    exact ⟨rfl, offset + 1, by omega, .root zero⟩
  | pointer byte tag =>
    subst here
    rw [← placed_octet placed (by omega)] at byte
    exact absurd (.pointer byte tag) plain
  | @label position pointers stop length label labels byte nonzero small part rest ih =>
    subst here
    have behind := nameIn_lt rest
    rw [← placed_octet placed (by omega)] at byte
    obtain ⟨none, stop', ends, name⟩ := ih (fun rest => plain (.label byte nonzero small rest)) inside
      (show _ = start + (offset + 1 + length.toNat) by omega)
    refine ⟨none, stop', ends, .label byte nonzero small ?_ name⟩
    rw [placed_slice placed (by omega)]
    simp only [← Nat.add_assoc]
    exact part

theorem nameIn_placed {pointers : Nat} (name : NameIn rdata offset labels pointers stop) (none : pointers = 0) :
    NameIn packet (start + offset) labels 0 (start + stop) ∧ stop ≤ rdata.length := by
  induction name with
  | root zero =>
    have inside := getElem?_lt zero
    rw [placed_octet placed inside] at zero
    exact ⟨.root zero, inside⟩
  | pointer => cases none
  | label byte nonzero small part rest ih =>
    obtain ⟨name, inside⟩ := ih none
    rw [placed_octet placed (getElem?_lt byte)] at byte
    rw [placed_slice placed (slice_eq_some.1 part).2.1] at part
    simp only [← Nat.add_assoc] at part name
    exact ⟨.label byte nonzero small part name, inside⟩

theorem namesRead_cons (name : NameIn rdata offset labels 0 stop) (legal : LegalName labels) (count : Nat) :
    namesRead packet (start + rdata.length) (count + 1) (start + offset) =
      nameWith labels :: namesRead packet (start + rdata.length) count (start + stop) := by
  obtain ⟨here, inside⟩ := nameIn_placed placed name rfl
  rw [namesRead, readName_of_nameIn here (Nat.zero_le _) legal]
  simp only
  rw [if_pos (Nat.add_le_add_left inside _)]

theorem namesRead_nil (plain : ¬Compressed rdata offset)
    (none : ∀ labels stop, NameIn rdata offset labels 0 stop → ¬LegalName labels) (count : Nat) :
    namesRead packet (start + rdata.length) (count + 1) (start + offset) = [] := by
  rw [namesRead]
  split
  · rfl
  · rename_i name stop read
    split
    · rename_i inside
      obtain ⟨labels, pointers, here, few, legal, -⟩ := readName_iff_nameIn.1 read
      obtain ⟨-, stop', -, name⟩ := nameIn_plain placed plain here inside rfl
      exact absurd legal (none labels stop' name)
    · rfl

theorem namesRead_plain {packet' : Packet} {start' : Nat}
    (placed' : slice packet' start' (start' + rdata.length) = some rdata) (count offset : Nat)
    (plain : PlainNames rdata count offset) :
    namesRead packet' (start' + rdata.length) count (start' + offset) =
      namesRead packet (start + rdata.length) count (start + offset) := by
  induction count generalizing offset with
  | zero => rfl
  | succ count ih =>
    obtain ⟨first, rest⟩ := plain
    by_cases read : ∃ labels stop, NameIn rdata offset labels 0 stop ∧ LegalName labels
    · obtain ⟨labels, stop, name, legal⟩ := read
      rw [namesRead_cons placed name legal, namesRead_cons placed' name legal, ih stop (rest labels stop name)]
    · have none : ∀ labels stop, NameIn rdata offset labels 0 stop → ¬LegalName labels :=
        fun labels stop name legal => read ⟨labels, stop, name, legal⟩
      rw [namesRead_nil placed first none, namesRead_nil placed' first none]

end

section
variable {packet : Packet} {start : Nat} {record : ResourceRecord}

theorem rawOf_length (record : ResourceRecord) : (rawOf record).length = rawStart record + record.rdata.length := by
  simp [rawOf, rawStart]
  omega

theorem rawOf_rdata (record : ResourceRecord) :
    slice (rawOf record) (rawStart record) (rawStart record + record.rdata.length) = some record.rdata := by
  have here := slice_middle (record.name.canonicalWire ++ toBe16 record.rrType ++
    toBe16 record.cls ++ toBe32 record.ttl ++ toBe16 record.rdata.length) record.rdata []
  simpa [rawOf, rawStart] using here

theorem ParsedRecord.rdata_length (parsed : ParsedRecord packet start record) :
    record.nextOffset = record.rdataOffset + record.rdata.length ∧ record.rdata.length < 65536 := by
  obtain ⟨fixed, -, -, -, -, -, -, width, ordered, part⟩ := parsed
  have length := slice_length part
  have small := readU16_lt width
  omega

theorem ParsedRecord.raw (parsed : ParsedRecord packet start record) :
    ∃ again, parseRecord (rawOf record) 0 = .ok again ∧
      again.nextOffset = (rawOf record).length ∧ again.rdataOffset = rawStart record ∧
      again.name.canonicalWire = record.name.canonicalWire ∧ again.rrType = record.rrType ∧
      again.cls = record.cls ∧ again.ttl = record.ttl := by
  obtain ⟨long, small⟩ := parsed.rdata_length
  obtain ⟨fixed, named, typed, classed, lives, -, -, -, -, -⟩ := parsed
  obtain ⟨labels, here, legal, name⟩ := readName_labels named
  have wire : record.name.canonicalWire = wireOf (lowered labels) := by rw [name, nameWith]
  have whole : rawOf record = wireOf (lowered labels) ++ toBe16 record.rrType ++ toBe16 record.cls ++
      toBe32 record.ttl ++ toBe16 record.rdata.length ++ record.rdata := by rw [rawOf, wire]
  -- the octets of each field, behind those of the fields before it
  have owner : slice (rawOf record) 0 (wireOf (lowered labels)).length =
      some (wireOf (lowered labels)) := by
    have field := slice_middle [] (wireOf (lowered labels)) (toBe16 record.rrType ++
      toBe16 record.cls ++ toBe32 record.ttl ++ toBe16 record.rdata.length ++ record.rdata)
    simpa [whole] using field
  have rrType := slice_middle (wireOf (lowered labels)) (toBe16 record.rrType) (toBe16 record.cls ++
    toBe32 record.ttl ++ toBe16 record.rdata.length ++ record.rdata)
  have cls := slice_middle (wireOf (lowered labels) ++ toBe16 record.rrType) (toBe16 record.cls)
    (toBe32 record.ttl ++ toBe16 record.rdata.length ++ record.rdata)
  have ttl := slice_middle (wireOf (lowered labels) ++ toBe16 record.rrType ++ toBe16 record.cls)
    (toBe32 record.ttl) (toBe16 record.rdata.length ++ record.rdata)
  have length := slice_middle (wireOf (lowered labels) ++ toBe16 record.rrType ++ toBe16 record.cls ++
    toBe32 record.ttl) (toBe16 record.rdata.length) record.rdata
  simp only [List.length_append, toBe16_length, toBe32_length, ← List.append_assoc, ← whole]
    at rrType cls ttl length
  have sizes := (legalName_lowered legal).sizes
  have read := readName_of_nameIn (nameIn_of_wire sizes owner) (Nat.zero_le _) (legalName_lowered legal)
  have rdata := rawOf_rdata record
  have total := rawOf_length record
  rw [rawStart, wire] at rdata total
  refine ⟨⟨_, record.rrType, record.cls, record.ttl, (wireOf (lowered labels)).length + 4,
    (wireOf (lowered labels)).length + 10, record.rdata, (rawOf record).length⟩,
    parseRecord_eq_ok.2 ⟨(wireOf (lowered labels)).length, read,
      readU16_of_slice (readU16_lt typed) rrType, readU16_of_slice (readU16_lt classed) cls,
      readU32_of_slice (readU32_lt lives) ttl, rfl, rfl, ?_, ?_, ?_⟩, rfl, ?_, ?_, rfl, rfl, rfl⟩
  · rw [total, Nat.add_sub_cancel_left]
    exact readU16_of_slice small length
  · rw [total]
    exact Nat.le_add_right _ _
  · rw [total]
    exact rdata
  · rw [rawStart, wire]
  · rw [wire]
    simp only [lowered_idem]

theorem ParsedRecord.rawDetermines (parsed : ParsedRecord packet start record) (plain : PlainRdata record) :
    RawDetermines packet record (rawOf record) := by
  obtain ⟨long, -⟩ := parsed.rdata_length
  have again := parsed.raw
  obtain ⟨fixed, -, -, -, -, -, -, -, -, placed⟩ := parsed
  rw [long] at placed
  have names := namesRead_plain placed (rawOf_rdata record)
  rw [← long, ← rawOf_length] at names
  exact ⟨again, fun lead count form => names count lead (plain lead count form)⟩

end

theorem determine_each {packet : Packet} {records : List ResourceRecord} {answers : List AnswerRecord}
    (each : List.Forall₂ (fun record answer => answerRecord record = .ok answer) records answers)
    (parsed : ∀ record ∈ records, ∃ start, ParsedRecord packet start record) :
    List.Forall₂ (fun record answer => answerRecord record = .ok answer ∧
      (PlainRdata record → RawDetermines packet record answer.raw)) records answers := by
  induction each with
  | nil => exact .nil
  | @cons record answer rest answers here each ih =>
    obtain ⟨start, first⟩ := parsed record (by simp)
    refine .cons ⟨here, ?_⟩ (ih fun other member => parsed other (by simp [member]))
    unfold answerRecord at here
    split at here
    · cases here
    · cases here
      exact first.rawDetermines

/-- The raw form of a record determines it if no name in its RDATA is compressed. -/
theorem extractAnswerRecords_determine (packet : Packet) (answers : List AnswerRecord)
    (extracted : extractAnswerRecords packet = .ok answers) :
    ∃ records, answerSection packet = .ok records ∧
      List.Forall₂ (fun record answer => answerRecord record = .ok answer ∧
        (PlainRdata record → RawDetermines packet record answer.raw)) records answers := by
  obtain ⟨records, known, folded⟩ := walkAnswers_section.1 extracted
  obtain ⟨made, each, rfl⟩ := foldlM_collect.1 folded
  exact ⟨records, known, determine_each each (answerSection_parsed known)⟩

theorem nameIn_not_compressed {bytes : Bytes} {offset pointers stop : Nat} {labels : Labels}
    (name : NameIn bytes offset labels pointers stop) (none : pointers = 0) : ¬Compressed bytes offset := by
  induction name with
  | root zero =>
    rintro (⟨byte, tag⟩ | ⟨byte, nonzero, _⟩)
    · cases zero.symm.trans byte
      cases tag
    · exact nonzero (Option.some.inj (byte.symm.trans zero))
  | pointer => cases none
  | label byte nonzero plain part rest ih =>
    rintro (⟨byte', tag⟩ | ⟨byte', _, _, rest'⟩)
    · cases byte.symm.trans byte'
      rw [plain] at tag
      cases tag
    · cases byte.symm.trans byte'
      exact ih none rest'

def plainAuthority : Packet :=
  [0, 0, 0x81, 0x80, 0, 1, 0, 1, 0, 0, 0, 0, 1, 97, 0, 0, 6, 0, 1,
    0xc0, 12, 0, 6, 0, 1, 0, 0, 0, 60, 0, 26] ++ [1, 98, 0, 1, 99, 0] ++ List.replicate 20 7

def authorityRecord : ResourceRecord where
  name := ⟨"a".toList, [1, 97, 0]⟩
  rrType := 6
  cls := 1
  ttl := 60
  ttlOffset := 25
  rdataOffset := 31
  rdata := [1, 98, 0, 1, 99, 0] ++ List.replicate 20 7
  nextOffset := 57

theorem extractAnswerRecords_determine_authority :
    RawDetermines plainAuthority authorityRecord (rawOf authorityRecord) := by
  obtain ⟨records, known, each⟩ := extractAnswerRecords_determine plainAuthority
    [⟨authorityRecord.name, 6, 1, 60, rawOf authorityRecord⟩] (by decide)
  have only : answerSection plainAuthority = .ok [authorityRecord] := by decide
  cases known.symm.trans only
  cases each with
  | cons here _ =>
    refine here.2 fun lead count form => ?_
    cases form
    have first : NameIn authorityRecord.rdata 0 [[98]] 0 3 :=
      .label rfl (by decide) (by decide) rfl (.root rfl)
    have second : NameIn authorityRecord.rdata 3 [[99]] 0 6 :=
      .label rfl (by decide) (by decide) rfl (.root rfl)
    refine ⟨nameIn_not_compressed first rfl, fun labels stop name => ?_⟩
    obtain ⟨-, -, rfl⟩ := nameIn_unique name first
    exact ⟨nameIn_not_compressed second rfl, fun _ _ _ => trivial⟩

def compressedAlias : Packet :=
  [0, 0, 0x81, 0x80, 0, 1, 0, 1, 0, 0, 0, 0, 1, 97, 1, 98, 0, 0, 1, 0, 1,
    0xc0, 12, 0, 5, 0, 1, 0, 0, 0, 60, 0, 4, 1, 99, 0xc0, 14]

def aliasRecord : ResourceRecord where
  name := ⟨"a.b".toList, [1, 97, 1, 98, 0]⟩
  rrType := 5
  cls := 1
  ttl := 60
  ttlOffset := 27
  rdataOffset := 33
  rdata := [1, 99, 0xc0, 14]
  nextOffset := 37

theorem extractAnswerRecords_loses_name :
    extractAnswerRecords compressedAlias = .ok [⟨aliasRecord.name, 5, 1, 60, rawOf aliasRecord⟩] ∧
    answerSection compressedAlias = .ok [aliasRecord] ∧
    ¬ RawDetermines compressedAlias aliasRecord (rawOf aliasRecord) := by
  refine ⟨by decide, by decide, fun determines => ?_⟩
  have names := determines.names 0 1 (by decide)
  revert names
  decide

end Resolved.Proof.Wire
