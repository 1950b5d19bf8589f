import Resolved.Spec.PacketEdits
import Resolved.Proof.Wire.Relocate

/-!
# Ageing keeps a message
-/

namespace Resolved.Proof.Wire
open Lib Resolved.Wire Spec

variable {packet : Packet} {count start stop : Nat} {records : List ResourceRecord}

theorem readU32_octets (h : readU32 packet offset = .ok value) (k : Nat) (hk : k < 4) :
    packet[offset + k]? = (toBe32 value)[k]? := by
  obtain ⟨a, b, c, d, first, second, third, fourth, rfl⟩ := readU32_eq_ok.1 h
  rw [toBe32_be32]
  interval_cases k <;> simpa

theorem readU32_of_octets (small : value < 2 ^ 32)
    (octets : ∀ k, k < 4 → packet[offset + k]? = (toBe32 value)[k]?) : readU32 packet offset = .ok value := by
  refine readU32_eq_ok.2 ⟨_, _, _, _, octets 0 (by omega), octets 1 (by omega),
    octets 2 (by omega), octets 3 (by omega), ?_⟩
  simp [be32]
  omega

def outsideTtl (i : Nat) (record : ResourceRecord) : Prop :=
  i < record.ttlOffset ∨ record.ttlOffset + 4 ≤ i

structure TtlsApart (packet : Packet) (start : Nat) (records : List ResourceRecord) : Prop where
  behind : ∀ record ∈ records, start ≤ record.ttlOffset
  inside : ∀ record ∈ records, record.ttlOffset + 4 ≤ packet.length
  read : ∀ record ∈ records, readU32 packet record.ttlOffset = .ok record.ttl
  apart : records.Pairwise fun earlier later => earlier.ttlOffset + 4 ≤ later.ttlOffset

theorem parseRecords_ttls (h : parseRecords packet count start = .ok (records, stop)) :
    TtlsApart packet start records := by
  induction count generalizing start records with
  | zero =>
    simp only [parseRecords, Except.ok.injEq, Prod.mk.injEq] at h
    obtain ⟨rfl, rfl⟩ := h
    exact ⟨by simp, by simp, by simp, .nil⟩
  | succ count ih =>
    obtain ⟨record, rest, rfl, parsed, hrest⟩ := parseRecords_succ_eq_ok.1 h
    have later := ih hrest
    obtain ⟨fixed, hname, -, -, httl, hto, hro, -, ordered, part⟩ := parsed
    have named := (readName_span hname).lt
    have bound := (slice_eq_some.1 part).2.1
    refine ⟨?_, ?_, ?_, .cons (fun r hr => ?_) later.apart⟩
    · rintro r (_ | ⟨_, hr⟩)
      · omega
      · have := later.behind r hr
        omega
    · rintro r (_ | ⟨_, hr⟩)
      · omega
      · exact later.inside r hr
    · rintro r (_ | ⟨_, hr⟩)
      · rw [hto]
        exact httl
      · exact later.read r hr
    · have := later.behind r hr
      omega

theorem TtlsApart.beside (apart : TtlsApart packet start records) {one other : ResourceRecord}
    (mem : one ∈ records) (mem' : other ∈ records) (differ : one ≠ other) :
    one.ttlOffset + 4 ≤ other.ttlOffset ∨ other.ttlOffset + 4 ≤ one.ttlOffset := by
  obtain ⟨i, hi, rfl⟩ := List.getElem_of_mem mem
  obtain ⟨j, hj, rfl⟩ := List.getElem_of_mem mem'
  have ordered := List.pairwise_iff_getElem.1 apart.apart
  rcases lt_trichotomy i j with before | rfl | behind
  · exact .inl (ordered i j hi hj before)
  · exact absurd rfl differ
  · exact .inr (ordered j i hj hi behind)

structure Aged (elapsedSeconds : Nat) (stale : Bool) (records : List ResourceRecord)
    (packet aged : Packet) : Prop where
  length : aged.length = packet.length
  ttl : ∀ record ∈ records, record.rrType ≠ typeOpt → ∀ k, k < 4 →
    aged[record.ttlOffset + k]? = (toBe32 (agedTtl elapsedSeconds stale record))[k]?
  rest : ∀ i, (∀ record ∈ records, record.rrType ≠ typeOpt → outsideTtl i record) → aged[i]? = packet[i]?

section
variable (elapsedSeconds : Nat) (stale : Bool)

theorem ageRecord_writes (inside : record.ttlOffset + 4 ≤ packet.length) :
    ∃ aged, ageRecord elapsedSeconds stale packet record = .ok aged ∧
      Aged elapsedSeconds stale [record] packet aged := by
  unfold ageRecord
  by_cases opt : record.rrType = typeOpt
  · rw [if_pos opt]
    exact ⟨packet, rfl, rfl, by simp [opt], fun _ _ => rfl⟩
  · rw [if_neg opt, writeU32, if_pos inside]
    have bound : record.ttlOffset + (toBe32 (agedTtl elapsedSeconds stale record)).length ≤
        packet.length := inside
    refine ⟨_, rfl, ?_⟩
    have written : (if stale then 0 else record.ttl - elapsedSeconds) =
        agedTtl elapsedSeconds stale record := by
      rw [agedTtl, if_neg opt]
    rw [written]
    refine ⟨overwrite_length bound, ?_, ?_⟩
    · rintro r (_ | ⟨_, ⟨⟩⟩) _ k hk
      rw [overwrite_getElem? bound, if_pos (by rw [toBe32_length]; omega), Nat.add_sub_cancel_left]
    · intro i outside
      exact overwrite_getElem?_of_lt bound (outside record (by simp) opt)

theorem ageRecords_writes
    (apart : records.Pairwise fun earlier later => earlier.ttlOffset + 4 ≤ later.ttlOffset)
    (inside : ∀ record ∈ records, record.ttlOffset + 4 ≤ packet.length) :
    ∃ aged, records.foldlM (ageRecord elapsedSeconds stale) packet = .ok aged ∧
      Aged elapsedSeconds stale records packet aged := by
  induction records generalizing packet with
  | nil => exact ⟨packet, rfl, rfl, by simp, fun _ _ => rfl⟩
  | cons record rest ih =>
    obtain ⟨behind, apart⟩ := List.pairwise_cons.1 apart
    obtain ⟨once, first, one⟩ := ageRecord_writes elapsedSeconds stale (inside record (by simp))
    have inside' : ∀ r ∈ rest, r.ttlOffset + 4 ≤ once.length := by
      intro r hr
      rw [one.length]
      exact inside r (by simp [hr])
    obtain ⟨aged, later, all⟩ := ih apart inside'
    refine ⟨aged, by rw [List.foldlM_cons, first]; exact later, all.length.trans one.length, ?_, ?_⟩
    · rintro r (_ | ⟨_, hr⟩) plain k hk
      · rw [all.rest _ fun later hl _ => .inl (by have := behind later hl; omega)]
        exact one.ttl record (by simp) plain k hk
      · exact all.ttl r hr plain k hk
    · intro i outside
      rw [all.rest i fun r hr => outside r (by simp [hr])]
      exact one.rest i fun r hr => outside r (by simp_all)

end

section
variable {elapsedSeconds : Nat} {stale : Bool} {packet aged : Packet}

theorem readName_aged {fixed : Nat} {name : DnsName} (h : readName packet start = .ok (name, fixed))
    (direct : ∀ i, start ≤ i → i < fixed → aged[i]? = packet[i]?)
    (kept : ∀ i ∈ nameReads packet start, aged[i]? = packet[i]?) : readName aged start = .ok (name, fixed) := by
  have past := (readName_span h).lt
  have again := @readName_move packet aged start start fixed name h
    ⟨fun i low high => by rw [Nat.sub_add_cancel low]; exact direct i low high, kept, .inl le_rfl⟩
  rwa [Nat.add_sub_cancel' past.le] at again

theorem parseRecord_aged {record : ResourceRecord} (parsed : ParsedRecord packet start record)
    (ttl : readU32 aged record.ttlOffset = .ok (agedTtl elapsedSeconds stale record))
    (own : ∀ i, start ≤ i → i < record.nextOffset → outsideTtl i record → aged[i]? = packet[i]?)
    (room : record.nextOffset ≤ aged.length) (kept : ∀ i ∈ nameReads packet start, aged[i]? = packet[i]?) :
    ParsedRecord aged start (agedRecord elapsedSeconds stale record) := by
  obtain ⟨fixed, hname, htype, hclass, httl, hto, hro, hwidth, ordered, part⟩ := parsed
  have past := (readName_span hname).lt
  unfold outsideTtl at own
  have half : ∀ offset, fixed ≤ offset → offset + 2 ≤ fixed + 4 ∨ fixed + 8 ≤ offset →
      offset + 2 ≤ record.nextOffset → readU16 aged offset = readU16 packet offset := by
    intro offset low beside high
    apply readU16_congr
    intro k hk
    exact own _ (by omega) (by omega) (by omega)
  refine ⟨fixed, ?_, ?_, ?_, ?_, hto, hro, ?_, ordered, ?_⟩
  · exact readName_aged hname (fun i low high => own i low (by omega) (by omega)) kept
  · exact (half fixed le_rfl (by omega) (by omega)).trans htype
  · exact (half (fixed + 2) (by omega) (by omega) (by omega)).trans hclass
  · rwa [← hto]
  · exact (half (fixed + 8) (by omega) (by omega) (by omega)).trans hwidth
  · have whole : record.rdataOffset + (record.nextOffset - record.rdataOffset) = record.nextOffset := by omega
    simp only [agedRecord]
    rw [← whole] at part ⊢
    refine slice_congr (by omega) (fun k hk => ?_) part
    exact own _ (by omega) (by omega) (by omega)

theorem parseRecords_aged (h : parseRecords packet count start = .ok (records, stop))
    (ttl : ∀ record ∈ records, readU32 aged record.ttlOffset = .ok (agedTtl elapsedSeconds stale record))
    (own : ∀ i, start ≤ i → (∀ record ∈ records, outsideTtl i record) → aged[i]? = packet[i]?)
    (length : aged.length = packet.length)
    (kept : ∀ offset ∈ ownerOffsets start records, ∀ i ∈ nameReads packet offset, aged[i]? = packet[i]?) :
    parseRecords aged count start = .ok (records.map (agedRecord elapsedSeconds stale), stop) := by
  induction count generalizing start records with
  | zero =>
    simp only [parseRecords, Except.ok.injEq, Prod.mk.injEq] at h
    obtain ⟨rfl, rfl⟩ := h
    rfl
  | succ count ih =>
    obtain ⟨record, rest, rfl, parsed, hrest⟩ := parseRecords_succ_eq_ok.1 h
    have bounds := parsed.span.start_lt
    have inside := parsed.span.inside
    have later := (parseRecords_ttls hrest).behind
    have here : record.ttlOffset + 6 ≤ record.nextOffset := by
      obtain ⟨fixed, -, -, -, -, hto, hro, -, ordered, -⟩ := parsed
      omega
    simp only [ownerOffsets, List.mem_cons, forall_eq_or_imp] at kept
    refine parseRecords_succ_eq_ok.2 ⟨_, _, List.map_cons,
      parseRecord_aged parsed (ttl record (by simp)) ?_ (by omega) kept.1,
      ih hrest (fun r hr => ttl r (by simp [hr])) ?_ kept.2⟩
    · intro i low high outside
      refine own i low fun r hr => ?_
      rcases List.mem_cons.1 hr with rfl | hr
      · exact outside
      · exact .inl (by have := later r hr; omega)
    · intro i low outside
      simp only [agedRecord] at low
      refine own i (by omega) fun r hr => ?_
      rcases List.mem_cons.1 hr with rfl | hr
      · exact .inr (by omega)
      · exact outside r hr

theorem parseQuestions_aged {questions : List Question}
    (h : parseQuestions packet count start = .ok (questions, stop))
    (own : ∀ i, start ≤ i → i < stop → aged[i]? = packet[i]?)
    (kept : ∀ offset ∈ nameOffsets.questionOffsets start questions,
      ∀ i ∈ nameReads packet offset, aged[i]? = packet[i]?) :
    parseQuestions aged count start = .ok (questions, stop) := by
  induction count generalizing start questions with
  | zero => exact h
  | succ count ih =>
    obtain ⟨question, rest, rfl, parsed, hrest⟩ := parseQuestions_succ_eq_ok.1 h
    obtain ⟨fixed, hname, htype, hclass, hnext⟩ := parseQuestion_eq_ok.1 parsed
    have past := (readName_span hname).lt
    have rest_le := (parseQuestions_spans hrest).le
    simp only [nameOffsets.questionOffsets, List.mem_cons, forall_eq_or_imp] at kept
    have half : ∀ offset, fixed ≤ offset → offset + 2 ≤ stop →
        readU16 aged offset = readU16 packet offset := by
      intro offset low high
      apply readU16_congr
      intro k hk
      exact own _ (by omega) (by omega)
    refine parseQuestions_succ_eq_ok.2 ⟨question, rest, rfl, parseQuestion_eq_ok.2 ⟨fixed, ?_, ?_,
      ?_, hnext⟩, ih hrest (fun i low high => own i (by omega) high) kept.2⟩
    · exact readName_aged hname (fun i low high => own i low (by omega)) kept.1
    · exact (half fixed le_rfl (by omega)).trans htype
    · exact (half (fixed + 2) (by omega) (by omega)).trans hclass

theorem headerParse_aged (h : Header.parse packet = .ok header) (length : aged.length = packet.length)
    (own : ∀ i, i < dnsHeaderLen → aged[i]? = packet[i]?) : Header.parse aged = .ok header := by
  obtain ⟨long, rest⟩ := headerParse_eq_ok.1 h
  have half : ∀ offset, offset + 2 ≤ dnsHeaderLen → readU16 aged offset = readU16 packet offset := by
    intro offset low
    apply readU16_congr
    intro k hk
    exact own _ (by omega)
  rw [headerParse_eq_ok, half 0 (by decide), half 2 (by decide), half 4 (by decide),
    half 6 (by decide), half 8 (by decide), half 10 (by decide)]
  exact ⟨by omega, rest⟩

end

section
variable {elapsedSeconds : Nat} {stale : Bool} {packet aged : Packet} {start : Nat}
  {records : List ResourceRecord} (apart : TtlsApart packet start records)
  (done : Aged elapsedSeconds stale records packet aged)
include apart done

theorem Aged.readU32 (mem : record ∈ records) :
    readU32 aged record.ttlOffset = .ok (agedTtl elapsedSeconds stale record) := by
  have before := apart.read record mem
  by_cases opt : record.rrType = typeOpt
  · rw [agedTtl, if_pos opt, ← before]
    apply readU32_congr
    intro k hk
    -- no other TTL field overlaps that of the OPT record
    apply done.rest
    intro r hr plain
    have beside := apart.beside hr mem (by rintro rfl; exact plain opt)
    unfold outsideTtl
    omega
  · refine readU32_of_octets ?_ (done.ttl record mem opt)
    have := readU32_lt before
    unfold agedTtl
    split
    · exact this
    · split <;> omega

theorem Aged.octet (clear : i ∉ agedOctets elapsedSeconds stale records) : aged[i]? = packet[i]? := by
  by_cases outside : ∀ record ∈ records, record.rrType ≠ typeOpt → outsideTtl i record
  · exact done.rest i outside
  · push Not at outside
    obtain ⟨record, mem, plain, inside⟩ := outside
    unfold outsideTtl at inside
    have place : record.ttlOffset + (i - record.ttlOffset) = i := by omega
    have new := done.ttl record mem plain (i - record.ttlOffset) (by omega)
    have old := readU32_octets (apart.read record mem) (i - record.ttlOffset) (by omega)
    rw [place] at new old
    rw [new, old]
    by_contra differs
    apply clear
    refine List.mem_flatMap.2 ⟨record, mem, List.mem_map.2 ⟨i - record.ttlOffset, ?_, place⟩⟩
    simp only [List.mem_filter, List.mem_range]
    exact ⟨by omega, by simpa using differs⟩

end

theorem parseSections_aged (parsed : parseSections packet = .ok sections)
    (done : Aged elapsedSeconds stale sections.records packet aged)
    (clear : ∀ offset ∈ framedNames sections, ∀ i ∈ nameReads packet offset, i ∉ agedOctets elapsedSeconds stale sections.records) :
    parseSections aged = .ok (agedSections elapsedSeconds stale sections) := by
  obtain ⟨header, middle, questions, records⟩ := parseSections_eq_ok.1 parsed
  have apart := parseRecords_ttls records
  have past := (parseQuestions_spans questions).le
  have kept : ∀ offset ∈ framedNames sections, ∀ i ∈ nameReads packet offset,
      aged[i]? = packet[i]? := fun offset mem i read => done.octet apart (clear offset mem i read)
  simp only [framedNames, parseQuestions_middle questions, List.mem_append] at kept
  have front : ∀ i, i < middle → aged[i]? = packet[i]? := by
    intro i low
    refine done.rest i fun record mem _ => .inl ?_
    have := apart.behind record mem
    omega
  refine parseSections_eq_ok.2 ⟨headerParse_aged header done.length ?_, middle,
    parseQuestions_aged questions (fun i _ => front i) fun offset mem => kept offset (.inl mem),
    parseRecords_aged records (fun record mem => done.readU32 apart mem) ?_ done.length
      fun offset mem => kept offset (.inr mem)⟩
  · exact fun i low => front i (by omega)
  · exact fun i _ outside => done.rest i fun record mem _ => outside record mem

theorem ageTtls_writes (elapsedSeconds : Nat) (stale : Bool) (parsed : parseSections packet = .ok sections) :
    ∃ aged, ageTtls packet elapsedSeconds stale = .ok aged ∧
      Aged elapsedSeconds stale sections.records packet aged := by
  obtain ⟨-, middle, -, records⟩ := parseSections_eq_ok.1 parsed
  have apart := parseRecords_ttls records
  obtain ⟨aged, run, done⟩ := ageRecords_writes elapsedSeconds stale apart.apart apart.inside
  exact ⟨aged, by rw [ageTtls, parsed]; exact run, done⟩

theorem Aged.unique (done : Aged elapsedSeconds stale records packet aged)
    (done' : Aged elapsedSeconds stale records packet aged') : aged = aged' := by
  apply List.ext_getElem?
  intro i
  by_cases outside : ∀ record ∈ records, record.rrType ≠ typeOpt → outsideTtl i record
  · rw [done.rest i outside, done'.rest i outside]
  · push Not at outside
    obtain ⟨record, mem, plain, inside⟩ := outside
    unfold outsideTtl at inside
    have place : record.ttlOffset + (i - record.ttlOffset) = i := by omega
    rw [← place, done.ttl record mem plain _ (by omega), done'.ttl record mem plain _ (by omega)]

theorem agedTtl_agedRecord (small : record.ttl < 2 ^ 32) :
    agedTtl later false (agedRecord earlier false record) =
      agedTtl (min (earlier + later) (2 ^ 32 - 1)) false record := by
  simp only [agedTtl, agedRecord, Bool.false_eq_true, if_false]
  split <;> omega

theorem Aged.trans (small : ∀ record ∈ records, record.ttl < 2 ^ 32)
    (first : Aged earlier false records packet once)
    (second : Aged later false (records.map (agedRecord earlier false)) once twice) :
    Aged (min (earlier + later) (2 ^ 32 - 1)) false records packet twice := by
  refine ⟨second.length.trans first.length, ?_, ?_⟩
  · intro record mem plain k hk
    rw [← agedTtl_agedRecord (small record mem)]
    exact second.ttl _ (List.mem_map_of_mem mem) plain k hk
  · intro i outside
    rw [second.rest i ?_, first.rest i outside]
    intro record mem plain
    obtain ⟨origin, here, rfl⟩ := List.mem_map.1 mem
    exact outside origin here plain

theorem ageTtls_agedSections (packet : Packet) (sections : Sections) (elapsedSeconds : Nat)
    (stale : Bool) (parsed : parseSections packet = .ok sections)
    (clear : ∀ offset ∈ framedNames sections, ∀ i ∈ nameReads packet offset,
      i ∉ agedOctets elapsedSeconds stale sections.records) :
    ∃ aged, ageTtls packet elapsedSeconds stale = .ok aged ∧
      parseSections aged = .ok (agedSections elapsedSeconds stale sections) ∧
      (stale = false → ∀ later, ageTtls aged later false =
        ageTtls packet (min (elapsedSeconds + later) (2 ^ 32 - 1)) false) := by
  obtain ⟨aged, run, done⟩ := ageTtls_writes elapsedSeconds stale parsed
  have again := parseSections_aged parsed done clear
  refine ⟨aged, run, again, ?_⟩
  rintro rfl later
  obtain ⟨twice, run', done'⟩ := ageTtls_writes later false again
  obtain ⟨once, run'', done''⟩ :=
    ageTtls_writes (min (elapsedSeconds + later) (2 ^ 32 - 1)) false parsed
  obtain ⟨-, middle, -, records⟩ := parseSections_eq_ok.1 parsed
  have small : ∀ record ∈ sections.records, record.ttl < 2 ^ 32 :=
    fun record mem => readU32_lt ((parseRecords_ttls records).read record mem)
  rw [run', run'', (done.trans small done').unique done'']

def addressOfA : Packet :=
  [0, 7, 0x80, 0, 0, 1, 0, 1, 0, 0, 0, 0, 1, 97, 0, 0, 1, 0, 1,
    0xc0, 12, 0, 1, 0, 1, 0, 0, 1, 44, 0, 4, 192, 0, 2, 1]

def addressOfASections : Sections :=
  let name : DnsName := ⟨['a'], [1, 97, 0]⟩
  ⟨⟨7, 0x8000, 1, 1, 0, 0⟩, [⟨name, 1, 1, 19⟩], [⟨name, 1, 1, 300, 25, 31, [192, 0, 2, 1], 35⟩], 35⟩

theorem ageTtls_agedSections_addressOfA :
    ∃ aged, ageTtls addressOfA 10 false = .ok aged ∧
      parseSections aged = .ok (agedSections 10 false addressOfASections) ∧
      (false = false → ∀ later, ageTtls aged later false =
        ageTtls addressOfA (min (10 + later) (2 ^ 32 - 1)) false) :=
  ageTtls_agedSections addressOfA addressOfASections 10 false (by decide)
    (by decide)

def namedByTtl : Packet :=
  [0, 7, 0x80, 0, 0, 1, 0, 2, 0, 0, 0, 0, 0, 0, 1, 0, 1,
    0, 0, 1, 0, 1, 1, 97, 0, 0, 0, 4, 192, 0, 2, 1,
    0xc0, 22, 0, 1, 0, 1, 1, 97, 0, 0, 0, 4, 192, 0, 2, 1]

theorem ageTtls_breaks_names :
    validate namedByTtl true = .ok () ∧
    (parseSections namedByTtl).map (fun sections => sections.records.map (·.name.text)) = .ok [['.'], ['a']] ∧
    (ageTtls namedByTtl 1 false >>= parseSections).map (·.stop) = .error .compressionLoop ∧
    (ageTtls namedByTtl 0 true >>= parseSections).map
      (fun sections => sections.records.map (·.name.text)) = .ok [['.'], ['.']] := by
  decide

end Resolved.Proof.Wire
