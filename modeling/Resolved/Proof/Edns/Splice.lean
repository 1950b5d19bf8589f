import Resolved.Spec.PacketEdits
import Resolved.Proof.Wire.Relocate

/-!
# Cutting a span out of a message
-/

namespace Resolved.Proof.Edns
open Lib Resolved.Wire Resolved.Dnssec Spec Proof.Wire

structure Spliced (packet other : Packet) (start stop width : Nat) (Kept : Nat → Prop) : Prop where
  head : dnsHeaderLen ≤ start
  ordered : start < stop
  inside : stop ≤ packet.length
  length : other.length = packet.length - (stop - start) + width
  front : ∀ i, dnsHeaderLen ≤ i → i < start → other[i]? = packet[i]?
  rear : ∀ i, stop ≤ i → other[i - stop + (start + width)]? = packet[i]?
  kept : ∀ i, Kept i → i < start ∧ other[i]? = packet[i]?

def place (start stop width offset : Nat) : Nat :=
  if offset < stop then offset else offset - stop + (start + width)

structure Beside (start stop low high : Nat) : Prop where
  head : dnsHeaderLen ≤ low
  apart : high ≤ start ∨ stop ≤ low

theorem Beside.mono {start stop low high low' high' : Nat} (beside : Beside start stop low high)
    (below : low ≤ low') (above : high' ≤ high) : Beside start stop low' high' :=
  ⟨beside.head.trans below, beside.apart.imp (above.trans ·) (·.trans below)⟩

section
variable {packet other : Packet} {start stop width : Nat} {Kept : Nat → Prop}
  (spliced : Spliced packet other start stop width Kept)
include spliced

theorem place_add (beside : Beside start stop low high) (below : low ≤ i) (above : i ≤ high) :
    place start stop width i = place start stop width low + (i - low) := by
  have := spliced.ordered
  unfold place
  rcases beside.apart with front | rear
  · rw [if_pos (by omega), if_pos (by omega)]
    omega
  · rw [if_neg (by omega), if_neg (by omega)]
    omega

theorem splice_octet (beside : Beside start stop low high) (below : low ≤ i) (above : i < high) :
    other[place start stop width i]? = packet[i]? := by
  have := spliced.ordered
  have := beside.head
  unfold place
  rcases beside.apart with front | rear
  · rw [if_pos (by omega)]
    exact spliced.front i (by omega) (by omega)
  · rw [if_neg (by omega)]
    exact spliced.rear i (by omega)

theorem place_le (beside : Beside start stop low high) (ordered : low ≤ high) (inside : high ≤ packet.length) :
    place start stop width high ≤ other.length := by
  have := spliced.ordered
  have := spliced.inside
  rw [spliced.length]
  unfold place
  rcases beside.apart with front | rear
  · rw [if_pos (by omega)]
    omega
  · rw [if_neg (by omega)]
    omega

theorem octet_behind {k : Nat} (beside : Beside start stop low high) (below : low ≤ i)
    (above : i + k < high) : other[place start stop width i + k]? = packet[i + k]? := by
  have moved := splice_octet spliced beside (i := i + k) (by omega) above
  have shift := place_add spliced (beside.mono below le_rfl) (i := i + k) (by omega) above.le
  rwa [shift, Nat.add_sub_cancel_left] at moved

theorem readU16_splice (beside : Beside start stop low high) (below : low ≤ i) (above : i + 2 ≤ high) :
    readU16 other (place start stop width i) = readU16 packet i := by
  exact readU16_congr fun k hk => octet_behind spliced beside below (by omega)

theorem readU32_splice (beside : Beside start stop low high) (below : low ≤ i) (above : i + 4 ≤ high) :
    readU32 other (place start stop width i) = readU32 packet i := by
  exact readU32_congr fun k hk => octet_behind spliced beside below (by omega)

theorem slice_splice (beside : Beside start stop low high) (h : slice packet low high = some part) :
    slice other (place start stop width low) (place start stop width high) = some part := by
  obtain ⟨ordered, inside, -⟩ := slice_eq_some.1 h
  have shift := place_add spliced beside (i := high) ordered le_rfl
  have room := place_le spliced beside ordered inside
  rw [shift] at room ⊢
  have whole : high = low + (high - low) := by omega
  rw [whole] at h
  refine slice_congr (by omega) (fun k hk => ?_) h
  have moved := splice_octet spliced beside (i := low + k) (by omega) (by omega)
  rwa [place_add spliced beside (i := low + k) (by omega) (by omega), Nat.add_sub_cancel_left]
    at moved

theorem readName_splice (h : readName packet low = .ok (name, high)) (beside : Beside start stop low high)
    (kept : ∀ i ∈ nameReads packet low, Kept i) :
    readName other (place start stop width low) = .ok (name, place start stop width high) := by
  have ordered := (readName_span h).lt.le
  rw [place_add spliced beside (i := high) ordered le_rfl]
  refine readName_move h ⟨?_, fun i hi => (spliced.kept i (kept i hi)).2, ?_⟩
  · intro i below above
    have moved := splice_octet spliced beside below above
    rwa [place_add spliced beside (i := i) below above.le, Nat.add_comm] at moved
  · -- the place of the name is its own or lies behind the front part
    have := spliced.ordered
    unfold place
    rcases beside.apart with front | rear
    · exact .inl (by rw [if_pos (by omega)])
    · right
      intro i hi
      have := (spliced.kept i (kept i hi)).1
      rw [if_neg (by omega)]
      omega

end

def moveRecord (f : Nat → Nat) (record : ResourceRecord) : ResourceRecord :=
  { record with
    ttlOffset := f record.ttlOffset
    rdataOffset := f record.rdataOffset
    nextOffset := f record.nextOffset }

theorem skipStrings_bounds (h : skipStrings packet limit count offset = .ok next) (positive : 0 < count) :
    offset ≤ next ∧ next ≤ limit := by
  induction count generalizing offset with
  | zero => omega
  | succ count ih =>
    simp only [skipStrings, bind_eq_ok, okOr_eq_ok] at h
    obtain ⟨length, -, h⟩ := h
    split at h
    · simp at h
    · cases count with
      | zero =>
        simp only [skipStrings, Except.ok.injEq] at h
        omega
      | succ count =>
        have := ih h (by omega)
        omega

section
variable {packet other : Packet} {start stop width : Nat} {Kept : Nat → Prop}
  (spliced : Spliced packet other start stop width Kept)
include spliced

theorem skipStrings_splice (beside : Beside start stop low limit) (below : low ≤ offset)
    (h : skipStrings packet limit count offset = .ok next) :
    skipStrings other (place start stop width limit) count (place start stop width offset) =
      .ok (place start stop width next) := by
  induction count generalizing offset with
  | zero =>
    simp only [skipStrings, Except.ok.injEq] at h ⊢
    rw [h]
  | succ count ih =>
    simp only [skipStrings, bind_eq_ok, okOr_eq_ok] at h ⊢
    obtain ⟨length, byte, h⟩ := h
    split at h
    · simp at h
    · rename_i room
      have shift := place_add spliced (beside.mono below le_rfl)
        (i := offset + (1 + length.toNat)) (by omega) (by omega)
      have limit_shift := place_add spliced (beside.mono below le_rfl) (i := limit) (by omega) le_rfl
      refine ⟨length, (splice_octet spliced beside below (by omega)).trans byte, ?_⟩
      rw [if_neg (by omega)]
      have rest := ih (by omega) h
      rwa [shift, Nat.add_sub_cancel_left] at rest

variable {record : ResourceRecord}
  (beside : Beside start stop record.rdataOffset record.nextOffset)
  (ordered : record.rdataOffset + record.rdata.length = record.nextOffset)
include beside ordered

theorem canonicalSingleName_splice (h : canonicalSingleName packet record lead = .ok data)
    (kept : ∀ i ∈ nameReads packet (record.rdataOffset + lead), Kept i) :
    canonicalSingleName other (moveRecord (place start stop width) record) lead = .ok data := by
  simp only [canonicalSingleName] at h ⊢
  split at h
  · simp at h
  · rename_i room
    simp only [bind_eq_ok, Prod.exists] at h
    obtain ⟨name, next, hname, h⟩ := h
    split at h
    · simp at h
    · rename_i inside
      simp only [bind_eq_ok, okOr_eq_ok, pure_eq_ok] at h
      obtain ⟨tail, htail, rfl⟩ := h
      have past := (readName_span hname).lt
      have shift := place_add spliced beside (i := record.rdataOffset + lead) (by omega) (by omega)
      have moved := readName_splice spliced hname (beside.mono (by omega) (by omega)) kept
      have next_shift := place_add spliced beside (i := next) (by omega) (by omega)
      have end_shift := place_add spliced beside (i := record.nextOffset) (by omega) le_rfl
      have part := slice_splice spliced (beside.mono (by omega) le_rfl) htail
      rw [shift, Nat.add_sub_cancel_left] at moved
      simp only [moveRecord, room, if_false, moved, ok_bind, part, okOr_some]
      rw [if_neg (by omega)]
      rfl

theorem readNames_splice {first second stop' : Nat} {name name' : DnsName} (below : record.rdataOffset ≤ first)
    (hname : readName packet first = .ok (name, second)) (hname' : readName packet second = .ok (name', stop'))
    (inside : stop' ≤ record.nextOffset)
    (kept : ∀ offset ∈ rdataNames.twoFrom packet first, ∀ i ∈ nameReads packet offset, Kept i) :
    readName other (place start stop width first) = .ok (name, place start stop width second) ∧
    readName other (place start stop width second) = .ok (name', place start stop width stop') := by
  have past := (readName_span hname).lt
  have past' := (readName_span hname').lt
  simp only [rdataNames.twoFrom, hname, List.forall_mem_cons] at kept
  exact ⟨readName_splice spliced hname (beside.mono below (by omega)) kept.1,
    readName_splice spliced hname' (beside.mono (by omega) inside) kept.2.1⟩

theorem canonicalTwoNames_splice (h : canonicalTwoNames packet record lead = .ok data)
    (kept : ∀ offset ∈ rdataNames.twoFrom packet (record.rdataOffset + lead), ∀ i ∈ nameReads packet offset, Kept i) :
    canonicalTwoNames other (moveRecord (place start stop width) record) lead = .ok data := by
  simp only [canonicalTwoNames] at h ⊢
  split at h
  · simp at h
  · rename_i room
    simp only [bind_eq_ok, Prod.exists] at h
    obtain ⟨name, second, hname, name', stop', hname', h⟩ := h
    split at h
    · simp at h
    · rename_i whole
      rw [pure_eq_ok] at h
      subst h
      have whole : stop' = record.nextOffset := by simpa using whole
      subst whole
      have shift := place_add spliced beside (i := record.rdataOffset + lead) (by omega) (by omega)
      obtain ⟨moved, moved'⟩ := readNames_splice spliced beside ordered (by omega) hname hname'
        le_rfl kept
      rw [shift, Nat.add_sub_cancel_left] at moved
      simp only [moveRecord, room, if_false, moved, moved', ok_bind, ne_eq, not_true_eq_false]
      rfl

theorem canonicalSoa_splice (h : canonicalSoa packet record = .ok data)
    (kept : ∀ offset ∈ rdataNames.twoFrom packet record.rdataOffset, ∀ i ∈ nameReads packet offset, Kept i) :
    canonicalSoa other (moveRecord (place start stop width) record) = .ok data := by
  simp only [canonicalSoa, bind_eq_ok, okOr_eq_ok, Prod.exists] at h ⊢
  obtain ⟨name, second, hname, name', integers, hname', part, hpart, h⟩ := h
  obtain ⟨inside, -, -⟩ := slice_eq_some.1 hpart
  have past := (readName_span hname).lt
  have past' := (readName_span hname').lt
  obtain ⟨moved, moved'⟩ := readNames_splice spliced beside ordered le_rfl hname hname' inside kept
  exact ⟨name, _, moved, name', _, moved', part, slice_splice spliced (beside.mono (by omega) le_rfl) hpart, h⟩

theorem canonicalNaptr_splice (h : canonicalNaptr packet record = .ok data)
    (kept : ∀ offset, skipStrings packet record.nextOffset 3 (record.rdataOffset + 4) = .ok offset → ∀ i ∈ nameReads packet offset, Kept i) :
    canonicalNaptr other (moveRecord (place start stop width) record) = .ok data := by
  simp only [canonicalNaptr] at h ⊢
  split at h
  · simp at h
  · rename_i room
    simp only [bind_eq_ok, Prod.exists] at h
    obtain ⟨offset, hskip, name, stop', hname, h⟩ := h
    split at h
    · simp at h
    · rename_i whole
      simp only [bind_eq_ok, okOr_eq_ok, pure_eq_ok] at h
      obtain ⟨lead, hlead, rfl⟩ := h
      have whole : stop' = record.nextOffset := by simpa using whole
      subst whole
      obtain ⟨below, above⟩ := skipStrings_bounds hskip (by omega)
      have shift := place_add spliced beside (i := record.rdataOffset + 4) (by omega) (by omega)
      have skipped := skipStrings_splice spliced beside (by omega) hskip
      have moved := readName_splice spliced hname (beside.mono (by omega) le_rfl)
        (kept offset hskip)
      have part := slice_splice spliced (beside.mono le_rfl above) hlead
      rw [shift, Nat.add_sub_cancel_left] at skipped
      simp only [moveRecord, room, if_false, skipped, moved, part, ok_bind, okOr_some, ne_eq, not_true_eq_false]
      rfl

theorem canonicalRdata_splice (h : canonicalRdata packet record = .ok data)
    (kept : ∀ offset ∈ rdataNames packet record, ∀ i ∈ nameReads packet offset, Kept i) :
    canonicalRdata other (moveRecord (place start stop width) record) = .ok data := by
  unfold canonicalRdata at h ⊢
  unfold rdataNames at kept
  simp only [moveRecord]
  cases form : rdataForm record.rrType with
  | singleName lead =>
    simp only [form, List.mem_singleton, forall_eq] at h kept ⊢
    exact canonicalSingleName_splice spliced beside ordered h kept
  | twoNames lead =>
    simp only [form] at h kept ⊢
    exact canonicalTwoNames_splice spliced beside ordered h kept
  | soa =>
    simp only [form] at h kept ⊢
    exact canonicalSoa_splice spliced beside ordered h kept
  | naptr =>
    simp only [form] at h kept ⊢
    refine canonicalNaptr_splice spliced beside ordered h fun offset hskip => ?_
    simp only [hskip, List.mem_singleton, forall_eq] at kept
    exact kept
  | plain =>
    simp only [form] at h ⊢
    exact h

end

section
variable {packet other : Packet} {start stop width : Nat} {Kept : Nat → Prop}
  (spliced : Spliced packet other start stop width Kept)
include spliced

theorem parseRecord_splice (parsed : ParsedRecord packet low record)
    (beside : Beside start stop low record.nextOffset) (kept : ∀ i ∈ nameReads packet low, Kept i) :
    ParsedRecord other (place start stop width low) (moveRecord (place start stop width) record) := by
  obtain ⟨fixed, hname, htype, hclass, httl, hto, hro, hwidth, ordered, part⟩ := parsed
  have past := (readName_span hname).lt
  -- every field stands at a distance from the end of the owner name that does not change
  have shift : ∀ k, fixed + k ≤ record.nextOffset →
      place start stop width (fixed + k) = place start stop width fixed + k := by
    intro k hk
    rw [place_add spliced (beside.mono past.le le_rfl) (by omega) hk, Nat.add_sub_cancel_left]
  have end_shift := place_add spliced (beside.mono (by omega : low ≤ record.rdataOffset) le_rfl)
    (i := record.nextOffset) ordered le_rfl
  refine ⟨place start stop width fixed,
    readName_splice spliced hname (beside.mono le_rfl (by omega)) kept, ?_, ?_, ?_, ?_, ?_, ?_, ?_, ?_⟩
  · exact (readU16_splice spliced beside past.le (by omega)).trans htype
  · rw [← shift 2 (by omega)]
    exact (readU16_splice spliced beside (by omega) (by omega)).trans hclass
  · rw [← shift 4 (by omega)]
    exact (readU32_splice spliced beside (by omega) (by omega)).trans httl
  · simp only [moveRecord, hto, shift 4 (by omega)]
  · simp only [moveRecord, hro, shift 10 (by omega)]
  · simp only [moveRecord]
    rw [end_shift, Nat.add_sub_cancel_left, ← shift 8 (by omega)]
    exact (readU16_splice spliced beside (by omega) (by omega)).trans hwidth
  · simp only [moveRecord]
    omega
  · exact slice_splice spliced (beside.mono (by omega) le_rfl) part

theorem sameRecord_splice (parsed : ParsedRecord packet low record)
    (beside : Beside start stop low record.nextOffset)
    (kept : ∀ offset ∈ rdataNames packet record, ∀ i ∈ nameReads packet offset, Kept i) :
    SameRecord packet other record (moveRecord (place start stop width) record) := by
  obtain ⟨fixed, hname, -, -, -, -, hro, -, ordered, part⟩ := parsed
  have past := (readName_span hname).lt
  have length := slice_length part
  exact ⟨rfl, rfl, rfl, rfl, fun data h => canonicalRdata_splice spliced
    (beside.mono (by omega) le_rfl) (by omega) h kept, fun _ _ => rfl⟩

theorem parseRecords_splice (h : parseRecords packet count low = .ok (records, high))
    (beside : Beside start stop low high) (others : ∀ record ∈ records, record.rrType ≠ typeOpt)
    (kept : ∀ offset ∈ nameOffsets.recordOffsets packet low records, ∀ i ∈ nameReads packet offset, Kept i) :
    parseRecords other count (place start stop width low) =
      .ok (records.map (moveRecord (place start stop width)), place start stop width high) ∧
    List.Forall₂ (SameRecord packet other) records (records.map (moveRecord (place start stop width))) := by
  induction count generalizing low records with
  | zero =>
    simp only [parseRecords, Except.ok.injEq, Prod.mk.injEq] at h
    obtain ⟨rfl, rfl⟩ := h
    exact ⟨rfl, .nil⟩
  | succ count ih =>
    obtain ⟨record, rest, rfl, parsed, hrest⟩ := parseRecords_succ_eq_ok.1 h
    have first_lt := parsed.span.start_lt
    have rest_le := (parseRecords_spans hrest).le
    have here := beside.mono le_rfl rest_le
    have later := beside.mono (by omega : low ≤ record.nextOffset) le_rfl
    simp only [nameOffsets.recordOffsets, others record (by simp), if_false, List.mem_append,
      List.mem_cons] at kept
    obtain ⟨moved, same⟩ := ih hrest later (fun r hr => others r (by simp [hr]))
      (fun o ho => kept o (.inr ho))
    have parsed' := parseRecord_splice spliced parsed here (kept low (by simp))
    refine ⟨parseRecords_succ_eq_ok.2 ⟨_, _, List.map_cons, parsed', moved⟩, .cons ?_ same⟩
    exact sameRecord_splice spliced parsed here fun o ho => kept o (.inl (.inr ho))

def moveQuestion (f : Nat → Nat) (question : Question) : Question :=
  { question with nextOffset := f question.nextOffset }

theorem parseQuestions_splice (h : parseQuestions packet count low = .ok (questions, high))
    (beside : Beside start stop low high)
    (kept : ∀ offset ∈ nameOffsets.questionOffsets low questions, ∀ i ∈ nameReads packet offset, Kept i) :
    parseQuestions other count (place start stop width low) =
      .ok (questions.map (moveQuestion (place start stop width)), place start stop width high) ∧
    List.Forall₂ SameQuestion questions (questions.map (moveQuestion (place start stop width))) := by
  induction count generalizing low questions with
  | zero =>
    simp only [parseQuestions, Except.ok.injEq, Prod.mk.injEq] at h
    obtain ⟨rfl, rfl⟩ := h
    exact ⟨rfl, .nil⟩
  | succ count ih =>
    obtain ⟨question, rest, rfl, parsed, hrest⟩ := parseQuestions_succ_eq_ok.1 h
    obtain ⟨fixed, hname, htype, hclass, hnext⟩ := parseQuestion_eq_ok.1 parsed
    have past := (readName_span hname).lt
    have rest_le := (parseQuestions_spans hrest).le
    simp only [nameOffsets.questionOffsets, List.mem_cons] at kept
    obtain ⟨moved, same⟩ := ih hrest (beside.mono (by omega) le_rfl)
      (fun o ho => kept o (.inr ho))
    have shift : ∀ k, fixed + k ≤ question.nextOffset →
        place start stop width (fixed + k) = place start stop width fixed + k := by
      intro k hk
      rw [place_add spliced (beside.mono past.le le_rfl) (by omega) (by omega), Nat.add_sub_cancel_left]
    have parsed' : parseQuestion other (place start stop width low) =
        .ok (moveQuestion (place start stop width) question) := by
      refine parseQuestion_eq_ok.2 ⟨place start stop width fixed,
        readName_splice spliced hname (beside.mono le_rfl (by omega)) (kept low (by simp)), ?_, ?_, ?_⟩
      · exact (readU16_splice spliced beside past.le (by omega)).trans htype
      · rw [← shift 2 (by omega)]
        exact (readU16_splice spliced beside (by omega) (by omega)).trans hclass
      · simp only [moveQuestion, hnext, shift 4 (by omega)]
    refine ⟨parseQuestions_succ_eq_ok.2 ⟨_, _, List.map_cons, parsed', moved⟩, .cons ?_ same⟩
    exact ⟨rfl, rfl, rfl⟩

end

end Resolved.Proof.Edns
