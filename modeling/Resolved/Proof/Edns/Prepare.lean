import Resolved.Proof.Edns.OptEdit
import Resolved.Proof.Wire.Ageing
import Resolved.Proof.Wire.Written

/-!
# Preparing a query
-/

namespace Resolved.Proof.Edns
open Lib Resolved.Wire Resolved.Edns Spec Proof.Wire

variable {start count udpPayloadSize : Nat} {level : FeatureLevel}

section
variable {packet other : Packet}

theorem parsedRecord_kept {record : ResourceRecord} (parsed : ParsedRecord packet start record)
    (own : ∀ i, start ≤ i → i < record.nextOffset → other[i]? = packet[i]?)
    (room : record.nextOffset ≤ other.length) (kept : ∀ i ∈ nameReads packet start, other[i]? = packet[i]?) :
    ParsedRecord other start record := by
  obtain ⟨fixed, hname, htype, hclass, httl, hto, hro, hwidth, ordered, part⟩ := parsed
  have past := (readName_span hname).lt
  have half : ∀ offset, fixed ≤ offset → offset + 2 ≤ record.nextOffset →
      readU16 other offset = readU16 packet offset := by
    intro offset low high
    apply readU16_congr
    intro k hk
    exact own _ (by omega) (by omega)
  refine ⟨fixed, readName_aged hname (fun i low high => own i low (by omega)) kept, ?_, ?_, ?_, hto, hro,
    ?_, ordered, ?_⟩
  · exact (half fixed le_rfl (by omega)).trans htype
  · exact (half (fixed + 2) (by omega) (by omega)).trans hclass
  · rw [← httl]
    apply readU32_congr
    intro k hk
    exact own _ (by omega) (by omega)
  · exact (half (fixed + 8) (by omega) (by omega)).trans hwidth
  · have whole : record.nextOffset = record.rdataOffset + (record.nextOffset - record.rdataOffset) := by
      omega
    rw [whole] at part ⊢
    exact slice_congr (by omega) (fun k hk => own _ (by omega) (by omega)) part

theorem parseRecords_kept {stop : Nat} {records : List ResourceRecord}
    (parsed : parseRecords packet count start = .ok (records, stop))
    (own : ∀ i, start ≤ i → i < stop → other[i]? = packet[i]?) (room : stop ≤ other.length)
    (kept : ∀ offset ∈ ownerOffsets start records, ∀ i ∈ nameReads packet offset, other[i]? = packet[i]?) :
    parseRecords other count start = .ok (records, stop) := by
  induction count generalizing start records with
  | zero => exact parsed
  | succ count ih =>
    obtain ⟨record, rest, rfl, here, later⟩ := parseRecords_succ_eq_ok.mp parsed
    have first := here.span.start_lt
    have behind := (parseRecords_spans later).le
    simp only [ownerOffsets, List.mem_cons, forall_eq_or_imp] at kept
    refine parseRecords_succ_eq_ok.mpr ⟨record, rest, rfl, parsedRecord_kept here ?_ (by omega) kept.1,
      ih later (fun i low high => own i (by omega) high) kept.2⟩
    intro i low high
    exact own i low (by omega)

theorem scanRecords_plain {count more ahead start stop : Nat} {records : List ResourceRecord}
    {layout : PacketLayout} (parsed : parseRecords packet count start = .ok (records, stop))
    (plain : ∀ record ∈ records, record.rrType ≠ typeOpt ∧ record.rrType ≠ typeTsig) :
    scanRecords packet (count + more) ahead start layout = scanRecords packet more (ahead - count) stop layout := by
  induction count generalizing ahead start records with
  | zero =>
    cases parsed
    rw [Nat.zero_add, Nat.sub_zero]
  | succ count ih =>
    obtain ⟨record, rest, rfl, here, later⟩ := parseRecords_succ_eq_ok.mp parsed
    rw [List.forall_mem_cons] at plain
    rw [Nat.succ_add, scanRecords, parseRecord_eq_ok.mpr here, ok_bind, scanRecord, if_neg plain.1.1,
      if_neg plain.1.2, ok_bind, ih later plain.2, Nat.sub_sub, Nat.add_comm 1 count]

end

def optFlags (level : FeatureLevel) : Nat := if level.isDnssecOk then dnssecOkFlag else 0

def optOptions (level : FeatureLevel) : List EdnsOption := if level.isDnssecOk then rfc6975Options else []

theorem queryOpt_written {encoded : Bytes} (sent : queryOpt level udpPayloadSize = .ok encoded) :
    ∃ rdata, encoded = wireOf [] ++ (toBe16 typeOpt ++ toBe16 (max udpPayloadSize 512) ++
        toBe32 (optFlags level) ++ toBe16 rdata.length ++ rdata) ∧ rdata.length < 65536 ∧
      parseOptions rdata = .ok (optOptions level) := by
  cases level with
  | udp | edns0 =>
    cases sent
    exact ⟨[], by simp [wireOf, optFlags, FeatureLevel.isDnssecOk, toBe32, toBe16], by decide, by decide⟩
  | dnssecOk =>
    cases sent
    refine ⟨[0, 5, 0, 6, 5, 7, 8, 10, 13, 14, 0, 6, 0, 3, 1, 2, 4, 0, 7, 0, 1, 1], ?_, by decide, by decide⟩
    simp [wireOf, optFlags, FeatureLevel.isDnssecOk, toBe32, toBe16, dnssecOkFlag,
      optionDau, optionDhu, optionN3u, dnssecAlgorithms, dnssecDigests, nsec3Algorithms]

theorem optFlags_lt (level : FeatureLevel) : optFlags level < 65536 := by
  cases level <;> decide

theorem parsedRecord_opt (front : Packet) {level : FeatureLevel} {udpPayloadSize : Nat} {rdata : Bytes}
    (size : udpPayloadSize < 65536) (short : rdata.length < 65536) :
    ParsedRecord (front ++ (wireOf [] ++ (toBe16 typeOpt ++ toBe16 (max udpPayloadSize 512) ++
        toBe32 (optFlags level) ++ toBe16 rdata.length ++ rdata))) front.length
      ⟨nameWith [], typeOpt, max udpPayloadSize 512, optFlags level, front.length + 5, front.length + 11,
        rdata, front.length + 11 + rdata.length⟩ := by
  have name := slice_middle front (wireOf []) (toBe16 typeOpt ++ toBe16 (max udpPayloadSize 512) ++
    toBe32 (optFlags level) ++ toBe16 rdata.length ++ rdata)
  have data := slice_middle (front ++ wireOf []) (toBe16 typeOpt ++ toBe16 (max udpPayloadSize 512) ++
    toBe32 (optFlags level) ++ toBe16 rdata.length ++ rdata) []
  have one : (wireOf []).length = 1 := rfl
  have flags := optFlags_lt level
  simp only [List.append_nil, List.length_append, toBe16_length, toBe32_length, one] at name data
  rw [List.append_assoc] at name data
  rw [show front.length + 1 + (2 + 2 + 4 + 2 + rdata.length) = front.length + 1 + 10 + rdata.length by
    omega] at data
  exact parseRecord_written (nameIn_of_wire (by simp) name) (by decide) ⟨by simp, by decide⟩ data
    (by decide) (by omega) (by omega) short

structure Fronted (packet : Packet) (header : Header) (questions : List Question) (middle : Nat)
    (others : List ResourceRecord) (start : Nat) : Prop where
  head : Header.parse packet = .ok header
  questions : parseQuestions packet header.questionCount dnsHeaderLen = .ok (questions, middle)
  records : parseRecords packet others.length middle = .ok (others, start)
  plain : ∀ record ∈ others, record.rrType ≠ typeOpt ∧ record.rrType ≠ typeTsig

section
variable {packet other : Packet} {header : Header} {questions : List Question} {middle start : Nat}
variable {others : List ResourceRecord}

theorem questionReads_lt (parsed : parseQuestions packet count low = .ok (questions, high)) :
    ∀ offset ∈ nameOffsets.questionOffsets low questions, ∀ i ∈ nameReads packet offset, i < packet.length := by
  induction count generalizing low questions with
  | zero =>
    cases parsed
    simp [nameOffsets.questionOffsets]
  | succ count ih =>
    obtain ⟨question, rest, rfl, here, later⟩ := parseQuestions_succ_eq_ok.mp parsed
    obtain ⟨fixed, read, -⟩ := parseQuestion_eq_ok.mp here
    rw [nameOffsets.questionOffsets, List.forall_mem_cons]
    exact ⟨nameReads_lt read, ih later⟩

theorem ownerReads_lt (parsed : parseRecords packet count low = .ok (others, high)) :
    ∀ offset ∈ ownerOffsets low others, ∀ i ∈ nameReads packet offset, i < packet.length := by
  induction count generalizing low others with
  | zero =>
    cases parsed
    simp [ownerOffsets]
  | succ count ih =>
    obtain ⟨record, rest, rfl, here, later⟩ := parseRecords_succ_eq_ok.mp parsed
    obtain ⟨fixed, read, -⟩ := here.fixed
    rw [ownerOffsets, List.forall_mem_cons]
    exact ⟨nameReads_lt read, ih later⟩

theorem Fronted.bounds (fronted : Fronted packet header questions middle others start) :
    dnsHeaderLen ≤ middle ∧ middle ≤ start ∧ start ≤ packet.length := by
  obtain ⟨long, -⟩ := headerParse_eq_ok.mp fronted.head
  have questions := parseQuestions_spans fronted.questions
  have records := parseRecords_spans fronted.records
  exact ⟨questions.le, records.le, records.inside (questions.inside long)⟩

theorem Fronted.transfer (fronted : Fronted packet header questions middle others start) {count : Nat}
    (head : Header.parse other = .ok { header with additionalCount := count })
    (room : start ≤ other.length) (own : ∀ i, dnsHeaderLen ≤ i → i < start → other[i]? = packet[i]?)
    (kept : ∀ offset ∈ nameOffsets.questionOffsets dnsHeaderLen questions ++ ownerOffsets middle others,
      ∀ i ∈ nameReads packet offset, i < packet.length → other[i]? = packet[i]?) :
    Fronted other { header with additionalCount := count } questions middle others start := by
  obtain ⟨low, ordered, -⟩ := fronted.bounds
  refine ⟨head, parseQuestions_aged fronted.questions (fun i above below => own i above (by omega)) ?_,
    parseRecords_kept fronted.records (fun i above below => own i (by omega) below) room ?_, fronted.plain⟩
  · intro offset member i read
    exact kept offset (List.mem_append_left _ member) i read
      (questionReads_lt fronted.questions offset member i read)
  · intro offset member i read
    exact kept offset (List.mem_append_right _ member) i read
      (ownerReads_lt fronted.records offset member i read)

theorem Fronted.bare (fronted : Fronted packet header questions middle others start)
    (whole : start = packet.length) (count : header.totalRecords = others.length) :
    parseSections packet = .ok ⟨header, questions, others, packet.length⟩ ∧
      scanPacket packet = .ok ⟨none, false⟩ := by
  subst whole
  constructor
  · exact parseSections_eq_ok.mpr ⟨fronted.head, middle, fronted.questions, by
      rw [count]
      exact fronted.records⟩
  · have scanned := @scanRecords_plain packet others.length 0
      (header.answerCount + header.authorityCount) middle packet.length others ⟨none, false⟩
      fronted.records fronted.plain
    rw [Nat.add_zero, scanRecords] at scanned
    rw [scanPacket, fronted.head, ok_bind]
    simp only [fronted.questions, ok_bind, count, scanned]
    rw [if_neg (by simp)]
    rfl

theorem Fronted.withOpt {front encoded : Packet}
    (fronted : Fronted (front ++ encoded) header questions middle others front.length)
    (count : header.totalRecords = others.length + 1)
    (additional : header.answerCount + header.authorityCount ≤ others.length) (size : udpPayloadSize < 65536)
    (sent : queryOpt level udpPayloadSize = .ok encoded) :
    ∃ opt span, opt.rrType = typeOpt ∧ span.start = front.length ∧ span.stop = (front ++ encoded).length ∧
      parseSections (front ++ encoded) = .ok ⟨header, questions, others ++ [opt], (front ++ encoded).length⟩ ∧
      scanPacket (front ++ encoded) = .ok ⟨some span, false⟩ ∧
      inspectOpt (front ++ encoded) = .ok (some ⟨max udpPayloadSize 512, 0, 0, optFlags level,
        optOptions level⟩) := by
  obtain ⟨rdata, rfl, short, options⟩ := queryOpt_written sent
  have here := @parsedRecord_opt front level udpPayloadSize rdata size short
  have total : (front ++ (wireOf [] ++ (toBe16 typeOpt ++ toBe16 (max udpPayloadSize 512) ++
      toBe32 (optFlags level) ++ toBe16 rdata.length ++ rdata))).length =
      front.length + 11 + rdata.length := by
    simp only [List.length_append, toBe16_length, toBe32_length, show (wireOf []).length = 1 from rfl]
    omega
  have flags := optFlags_lt level
  generalize front ++ (wireOf [] ++ (toBe16 typeOpt ++ toBe16 (max udpPayloadSize 512) ++
    toBe32 (optFlags level) ++ toBe16 rdata.length ++ rdata)) = packet at *
  have last : parseRecords packet 1 front.length = .ok ([⟨nameWith [], typeOpt, max udpPayloadSize 512,
      optFlags level, front.length + 5, front.length + 11, rdata, front.length + 11 + rdata.length⟩],
      packet.length) := by
    rw [total]
    exact parseRecords_succ_eq_ok.mpr ⟨_, [], rfl, here, rfl⟩
  have scanned : scanPacket packet = .ok ⟨some ⟨front.length, front.length + 11 + rdata.length,
      max udpPayloadSize 512, optFlags level, optOptions level⟩, false⟩ := by
    have passed := @scanRecords_plain packet others.length 1
      (header.answerCount + header.authorityCount) middle front.length others ⟨none, false⟩
      fronted.records fronted.plain
    rw [Nat.sub_eq_zero_of_le additional] at passed
    have found : scanRecords packet 1 0 front.length ⟨none, false⟩ = .ok (⟨some ⟨front.length,
        front.length + 11 + rdata.length, max udpPayloadSize 512, optFlags level, optOptions level⟩,
        false⟩, front.length + 11 + rdata.length) := by
      rw [scanRecords, parseRecord_eq_ok.mpr here, ok_bind, scanRecord, if_pos rfl, if_neg]
      · simp only [options, ok_bind, Nat.mod_eq_of_lt flags]
        rfl
      · simp [nameWith, lowered, wireOf]
    rw [scanPacket, fronted.head, ok_bind]
    simp only [fronted.questions, ok_bind, count, passed, found]
    rw [if_neg (by simp [total])]
    rfl
  have whole := parseRecords_append fronted.records last
  rw [← count] at whole
  refine ⟨_, _, ?_, ?_, total.symm,
    parseSections_eq_ok.mpr ⟨fronted.head, middle, fronted.questions, whole⟩, scanned, ?_⟩
  · rfl
  · rfl
  · simp only [inspectOpt, scanned, ok_bind, parseRecord_eq_ok.mpr here]
    rw [Nat.div_eq_of_lt (show optFlags level < 16777216 by omega), Nat.div_eq_of_lt flags]
    rfl

end

section
variable {query packet : Packet} {layout : PacketLayout} {sections : Sections} {middle : Nat}
variable {level : FeatureLevel} {udpPayloadSize : Nat}

def optStart (query : Packet) (layout : PacketLayout) : Nat := (layout.opt.map (·.start)).getD query.length

theorem otherRecords_plain {others : List ResourceRecord}
    (plain : ∀ record ∈ others, record.rrType ≠ typeOpt ∧ record.rrType ≠ typeTsig) :
    others.filter (fun record => record.rrType ≠ typeOpt) = others := by
  apply List.filter_eq_self.mpr
  intro record member
  exact decide_eq_true (plain record member).1

theorem scanned_untagged (scanned : Scanned query layout sections middle) (bare : layout.hasTsig = false) :
    ∀ record ∈ sections.records, record.rrType ≠ typeTsig := by
  intro record member tagged
  have none := scanned.tsig.symm.trans bare
  rw [List.any_eq_false] at none
  exact none record member (by simp [tagged])

theorem scanned_front (scanned : Scanned query layout sections middle) (last : OptLast sections)
    (bare : layout.hasTsig = false) :
    Fronted query sections.header sections.questions middle (otherRecords sections) (optStart query layout) ∧
      (∀ span, layout.opt = some span → span.stop = query.length) ∧ sections.header.totalRecords =
        (otherRecords sections).length + (if layout.opt.isSome then 1 else 0) ∧
      (layout.opt.isSome → sections.header.answerCount + sections.header.authorityCount ≤
        (otherRecords sections).length) := by
  have untagged := scanned_untagged scanned bare
  have head := (parseSections_eq_ok.mp scanned.parsed).1
  have counted := parseRecords_length scanned.records
  cases found : layout.opt with
  | none =>
    have plain := scanned.plain found
    have all : otherRecords sections = sections.records :=
      otherRecords_plain fun record member => ⟨plain record member, untagged record member⟩
    have records := scanned.records
    rw [← counted, scanned.stop] at records
    rw [all, optStart, found]
    refine ⟨⟨head, scanned.questions, records, fun record member =>
      ⟨plain record member, untagged record member⟩⟩, nofun, counted.symm, nofun⟩
  | some span =>
    obtain ⟨front, opt, rear, split⟩ := scanned.split span found
    have none := last front opt rear split.whole split.optType
    subst none
    have plain : ∀ record ∈ front, record.rrType ≠ typeOpt ∧ record.rrType ≠ typeTsig := by
      intro record member
      refine ⟨split.frontOther record member, untagged record ?_⟩
      rw [split.whole]
      exact List.mem_append_left _ member
    have all : otherRecords sections = front := by
      rw [otherRecords, split.whole, List.filter_append, otherRecords_plain plain]
      simp [split.optType]
    have stop : span.stop = query.length :=
      (Prod.mk.inj (Except.ok.inj split.rearParsed)).2.trans scanned.stop
    rw [all, optStart, found]
    refine ⟨⟨head, scanned.questions, split.frontParsed, plain⟩, ?_, ?_, fun _ => split.additional⟩
    · rintro _ ⟨⟩
      exact stop
    · rw [← counted, split.whole]
      simp

theorem recount_octet (counted : readU16 packet 10 = .ok count) (clear : ¬CountOctet count count' i)
    (inside : 12 ≤ packet.length) : (overwrite packet 10 (toBe16 count'))[i]? = packet[i]? := by
  have same : overwrite packet 10 (toBe16 count) = packet := overwrite_self (slice_of_readU16 counted)
  conv_rhs => rw [← same]
  rw [overwrite_getElem? (by simpa using inside), overwrite_getElem? (by simpa using inside)]
  simp only [CountOctet, not_or, not_and, not_not] at clear
  rw [toBe16_length, toBe16_length]
  by_cases within : 10 ≤ i ∧ i < 10 + 2
  · rw [if_pos within, if_pos within]
    obtain rfl | rfl : i = 10 ∨ i = 11 := by omega
    · rw [toBe16, toBe16, clear.1 rfl]
      rfl
    · have low : UInt8.ofNat count' = UInt8.ofNat count := by
        apply UInt8.toNat_inj.1
        simpa using (clear.2 rfl).symm
      rw [toBe16, toBe16, low]
      rfl
  · rw [if_neg within, if_neg within]

theorem overwrite_counted (counted : readU16 query 10 = .ok count) (behind : 12 ≤ start) :
    overwrite (query.take start) 10 (toBe16 count) = query.take start := by
  apply overwrite_self
  apply slice_of_readU16
  rw [← counted]
  apply readU16_congr
  intro k below
  exact List.getElem?_take_of_lt (by omega)

structure Shaped (query packet : Packet) (sections : Sections) (layout : PacketLayout)
    (level : FeatureLevel) (udpPayloadSize : Nat) (opt : Bytes) : Prop where
  small : countAfter layout level sections.header.additionalCount < 65536
  whole : packet = overwrite (query.take (optStart query layout)) 10
    (toBe16 (countAfter layout level sections.header.additionalCount)) ++ opt
  sent : level.usesEdns = true → queryOpt level udpPayloadSize = .ok opt ∧ packet.length ≤ 65535
  unsent : level.usesEdns = false → opt = []

theorem prepareQuery_shaped (valid : validate query false = .ok ()) (scan : scanPacket query = .ok layout)
    (scanned : Scanned query layout sections middle) (last : OptLast sections) (bare : layout.hasTsig = false)
    (prepares : prepareQuery query level udpPayloadSize = .ok prepared) :
    ∃ opt, Shaped query prepared.packet sections layout level udpPayloadSize opt := by
  obtain ⟨fronted, stop, -, -⟩ := scanned_front scanned last bare
  obtain ⟨low, ordered, -⟩ := fronted.bounds
  have behind : 12 ≤ optStart query layout := low.trans ordered
  obtain ⟨long, -, -, -, -, -, counted⟩ := headerParse_eq_ok.mp fronted.head
  have small := readU16_lt counted
  have kept := overwrite_counted counted behind
  simp only [prepareQuery, valid, scan, ok_bind, bare, Bool.false_eq_true, if_false] at prepares
  cases edns : level.usesEdns with
  | false =>
    rw [edns] at prepares
    cases found : layout.opt with
    | none =>
      rw [found] at prepares
      cases prepares
      have same : countAfter layout level sections.header.additionalCount =
          sections.header.additionalCount := by simp [countAfter, found, edns]
      refine ⟨[], by rwa [same], ?_, by simp [edns], fun _ => rfl⟩
      rw [same, kept, optStart, found, List.append_nil]
      exact (List.take_length (l := query)).symm
    | some span =>
      rw [found] at prepares
      obtain ⟨output, removed, returned⟩ := bind_eq_ok.mp prepares
      cases pure_eq_ok.mp returned
      obtain ⟨header, cut, head, positive, replaced, rfl⟩ := removeOpt_eq_ok removed
      cases head.symm.trans fronted.head
      obtain ⟨-, -, rfl⟩ := replaceSpan_eq_ok replaced
      have less : countAfter layout level sections.header.additionalCount =
          sections.header.additionalCount - 1 := by simp [countAfter, found, edns]
      refine ⟨[], by omega, ?_, by simp [edns], fun _ => rfl⟩
      rw [less, optStart, found, stop span found, List.drop_length]
      simp
  | true =>
    rw [edns] at prepares
    obtain ⟨opt, sent, replaces⟩ := bind_eq_ok.mp prepares
    refine ⟨opt, ?_⟩
    cases found : layout.opt with
    | none =>
      rw [found] at replaces
      obtain ⟨output, appended, returned⟩ := bind_eq_ok.mp replaces
      cases pure_eq_ok.mp returned
      obtain ⟨header, head, checked⟩ := bind_eq_ok.mp appended
      cases head.symm.trans fronted.head
      have more : countAfter layout level sections.header.additionalCount =
          sections.header.additionalCount + 1 := by simp [countAfter, found, edns]
      split at checked
      · cases checked
      split at checked
      · cases checked
      cases pure_eq_ok.mp checked
      have inside : 10 + (toBe16 (sections.header.additionalCount + 1)).length ≤ query.length := long
      refine ⟨by omega, ?_, fun _ => ⟨sent, ?_⟩, by simp [edns]⟩
      · rw [more, optStart, found, overwrite_append opt inside]
        simp
      · rw [overwrite_append opt inside, List.length_append, overwrite_length inside]
        omega
    | some span =>
      rw [found] at replaces
      obtain ⟨output, replaced, returned⟩ := bind_eq_ok.mp replaces
      cases pure_eq_ok.mp returned
      have same : countAfter layout level sections.header.additionalCount =
          sections.header.additionalCount := by simp [countAfter, found, edns]
      obtain ⟨ordered', inside', rfl⟩ := replaceSpan_eq_ok replaced
      have fits : (query.take span.start ++ opt).length ≤ 65535 := by
        unfold replaceSpan at replaced
        split at replaced
        · cases replaced
        split at replaced
        · cases replaced
        simp only [List.length_append, List.length_take]
        have := stop span found
        omega
      have ends : query.drop span.stop = [] := by rw [stop span found, List.drop_length]
      refine ⟨by omega, ?_, fun _ => ⟨sent, ?_⟩, by simp [edns]⟩
      · rw [same, kept, optStart, found, ends, List.append_nil]
        rfl
      · rwa [ends, List.append_nil]

theorem Shaped.fronted {opt : Bytes} (scanned : Scanned query layout sections middle) (last : OptLast sections)
    (bare : layout.hasTsig = false) (clear : NamesClear query sections layout level)
    (shaped : Shaped query packet sections layout level udpPayloadSize opt) :
    ∃ front, packet = front ++ opt ∧ front.length = optStart query layout ∧
      Fronted (front ++ opt) { sections.header with
          additionalCount := countAfter layout level sections.header.additionalCount }
        sections.questions middle (otherRecords sections) front.length ∧
      front = overwrite (query.take (optStart query layout)) 10
        (toBe16 (countAfter layout level sections.header.additionalCount)) := by
  obtain ⟨fronted, -, -, -⟩ := scanned_front scanned last bare
  obtain ⟨low, ordered, inside⟩ := fronted.bounds
  have behind : 12 ≤ optStart query layout := low.trans ordered
  obtain ⟨-, -, -, -, -, -, counted⟩ := headerParse_eq_ok.mp fronted.head
  obtain ⟨small, whole, -, -⟩ := shaped
  generalize after : countAfter layout level sections.header.additionalCount = count at *
  have taken : (query.take (optStart query layout)).length = optStart query layout :=
    List.length_take_of_le inside
  have room : 10 + (toBe16 count).length ≤ (query.take (optStart query layout)).length := by
    rw [taken]
    exact behind
  have long := overwrite_length room
  rw [taken] at long
  refine ⟨_, whole, long, ?_, rfl⟩
  rw [long]
  have octets : ∀ i, i < optStart query layout → ¬CountOctet sections.header.additionalCount count i →
      (overwrite (query.take (optStart query layout)) 10 (toBe16 count) ++ opt)[i]? = query[i]? := by
    intro i below same
    have unchanged := List.getElem?_take_of_lt (l := query) below
    rw [List.getElem?_append_left (by omega), ← unchanged]
    refine recount_octet ?_ same (by rwa [taken])
    rw [← counted]
    apply readU16_congr
    intro k near
    exact List.getElem?_take_of_lt (by omega)
  apply fronted.transfer
  · rw [← overwrite_append opt room]
    refine header_recounted fronted.head ?_ small ?_
    · rw [List.length_append]
      omega
    · intro i below
      rw [List.getElem?_append_left (by omega), List.getElem?_take_of_lt (by omega)]
  · rw [List.length_append]
    omega
  · intro i above below
    refine octets i below ?_
    simp only [CountOctet, dnsHeaderLen] at above ⊢
    omega
  · intro offset member i read within
    have framed : offset ∈ framedNames { sections with records := otherRecords sections } := by
      rw [framedNames, parseQuestions_middle scanned.questions]
      exact member
    obtain ⟨before, same⟩ := clear offset framed i read
    rw [after] at same
    refine octets i ?_ same
    cases found : layout.opt with
    | none => rwa [optStart, found]
    | some span =>
      rw [optStart, found]
      exact before span found

theorem countAfter_total {others : Nat} {header : Header}
    (total : header.totalRecords = others + (if layout.opt.isSome then 1 else 0))
    (additional : layout.opt.isSome → header.answerCount + header.authorityCount ≤ others) :
    { header with additionalCount := countAfter layout level header.additionalCount }.totalRecords =
      others + (if level.usesEdns then 1 else 0) ∧
    (level.usesEdns = true → header.answerCount + header.authorityCount ≤ others) := by
  simp only [Header.totalRecords, countAfter] at total ⊢
  generalize layout.opt.isSome = carried, level.usesEdns = edns at *
  cases carried <;> cases edns <;> simp at total additional ⊢ <;> omega

theorem validate_recounted (valid : validate query false = .ok ())
    (parsed : parseSections query = .ok sections) (parsed' : parseSections packet = .ok sections')
    (head : sections'.header = { sections.header with additionalCount := count })
    (asked : sections'.questions = sections.questions) (whole : sections'.stop = packet.length) :
    validate packet false = .ok () := by
  obtain ⟨_, again, direction, opcode, some, one, -⟩ := validate_eq_ok.mp valid
  cases parsed.symm.trans again
  refine validate_eq_ok.mpr ⟨sections', parsed', ?_, ?_, by rwa [asked], ?_, whole⟩
  · rw [head]
    exact direction
  · rw [head]
    exact opcode
  · rw [head]
    exact one

theorem prepared_well (valid : validate query false = .ok ()) (scanned : Scanned query layout sections middle)
    (last : OptLast sections) (bare : layout.hasTsig = false) (size : udpPayloadSize < 65536)
    (clear : NamesClear query sections layout level)
    (shaped : Shaped query packet sections layout level udpPayloadSize opt) :
    PreparedWell query packet sections layout level udpPayloadSize := by
  obtain ⟨front, rfl, long, fronted, written⟩ := shaped.fronted scanned last bare clear
  obtain ⟨before, -, total, additional⟩ := scanned_front scanned last bare
  obtain ⟨total', additional'⟩ := @countAfter_total layout level _ _ total additional
  cases edns : level.usesEdns with
  | false =>
    cases shaped.unsent edns
    rw [List.append_nil] at fronted ⊢
    rw [edns] at total'
    obtain ⟨parsed, scan⟩ := fronted.bare rfl total'
    have valid' := validate_recounted valid scanned.parsed parsed rfl rfl rfl
    refine ⟨?_, ⟨_, parsed, rfl, rfl, otherRecords_plain fronted.plain⟩, ⟨⟨front, false, true⟩, ?_, rfl⟩, ?_⟩
    · rw [inspectOpt, scan, expectedOpt, edns]
      rfl
    · simp [prepareQuery, valid', scan, edns]
    · intro _ impossible
      rw [edns] at impossible
      cases impossible
  | true =>
    obtain ⟨sent, fits⟩ := shaped.sent edns
    rw [edns] at total'
    obtain ⟨record, span, type, start, stop, parsed, scan, seen⟩ :=
      fronted.withOpt total' (additional' edns) size sent
    have valid' := validate_recounted valid scanned.parsed parsed rfl rfl rfl
    refine ⟨?_, ⟨_, parsed, rfl, rfl, ?_⟩, ⟨⟨front ++ opt, true, true⟩, ?_, rfl⟩, ?_⟩
    · rw [seen, expectedOpt, edns]
      rfl
    · rw [otherRecords, List.filter_append, otherRecords_plain fronted.plain]
      simp [type]
    · have replaced : replaceSpan (front ++ opt) span.start span.stop opt = .ok (front ++ opt) := by
        rw [replaceSpan, start, stop, if_neg (by simp), if_neg, List.take_left' rfl, List.drop_length,
          List.append_nil]
        rw [List.length_append] at fits ⊢
        omega
      rw [prepareQuery_replaces udpPayloadSize valid' scan rfl rfl edns, sent, ok_bind, replaced]
      rfl
    · -- the count goes back to what it was
      intro absent _ udpPayloadSize'
      have more : countAfter layout level sections.header.additionalCount =
          sections.header.additionalCount + 1 := by simp [countAfter, absent, edns]
      obtain ⟨long', -, -, -, -, -, counted⟩ := headerParse_eq_ok.mp before.head
      have whole : query.take (optStart query layout) = query := by
        rw [optStart, absent]
        exact List.take_length
      rw [whole, more] at written
      have back : overwrite front 10 (toBe16 sections.header.additionalCount) = query := by
        rw [written, overwrite_overwrite (by rw [toBe16_length, toBe16_length]) long']
        exact overwrite_self (slice_of_readU16 counted)
      have cut : replaceSpan (front ++ opt) span.start span.stop [] = .ok front := by
        rw [replaceSpan, start, stop, if_neg (by simp), if_neg, List.take_left' rfl, List.drop_length,
          List.append_nil, List.append_nil]
        rw [List.length_append] at fits ⊢
        simp only [List.length_nil]
        omega
      have removed : removeOpt (front ++ opt) span = .ok query := by
        rw [removeOpt, fronted.head, ok_bind]
        simp only [more, cut, ok_bind, Nat.add_sub_cancel, back]
        rfl
      refine ⟨⟨query, false, true⟩, ?_, rfl⟩
      simp [prepareQuery, valid', scan, removed, FeatureLevel.usesEdns]

end

/-- What the resolver sends for a query with its OPT record last: the OPT record of the level, and all
else as it was, when no name leans on octets that change. A signed query is sent as it is. -/
theorem prepareQuery_well (query : Packet) (layout : PacketLayout) (sections : Sections) (level : FeatureLevel)
    (udpPayloadSize : Nat) (prepared : PreparedQuery) (valid : validate query false = .ok ())
    (scan : scanPacket query = .ok layout) (parsed : parseSections query = .ok sections)
    (size : udpPayloadSize < 65536) (prepares : prepareQuery query level udpPayloadSize = .ok prepared) :
    (layout.hasTsig = true → prepared.packet = query) ∧
    (layout.hasTsig = false → OptLast sections → NamesClear query sections layout level →
      PreparedWell query prepared.packet sections layout level udpPayloadSize) := by
  constructor
  · intro signed
    simp only [prepareQuery, valid, scan, ok_bind, signed, if_true] at prepares
    cases pure_eq_ok.mp prepares
    rfl
  · intro bare last clear
    obtain ⟨sections', middle, scanned⟩ := scanPacket_scanned scan
    cases parsed.symm.trans scanned.parsed
    obtain ⟨opt, shaped⟩ := prepareQuery_shaped valid scan scanned last bare prepares
    exact prepared_well valid scanned last bare size clear shaped

def queryFor (name : Bytes) : Packet := [0, 0, 0, 0, 0, 1, 0, 0, 0, 0, 0, 0] ++ name ++ [0, 1, 0, 1]

def ednsFor (name : Bytes) : Packet :=
  [0, 0, 0, 0, 0, 1, 0, 0, 0, 0, 0, 1] ++ name ++ [0, 1, 0, 1] ++ [0, 0, 41, 2, 0, 0, 0, 0, 0, 0, 0]

def sectionsFor (labels : Labels) (stop : Nat) : Sections :=
  ⟨⟨0, 0, 1, 0, 0, 0⟩, [⟨nameWith labels, 1, 1, stop⟩], [], stop⟩

theorem prepareQuery_well_pointer :
    PreparedWell (queryFor [1, 97, 192, 4]) (ednsFor [1, 97, 192, 4]) (sectionsFor [[97]] 20) ⟨none, false⟩
      .edns0 512 := by
  refine (prepareQuery_well (queryFor [1, 97, 192, 4]) ⟨none, false⟩ (sectionsFor [[97]] 20) .edns0 512
    ⟨ednsFor [1, 97, 192, 4], true, true⟩ (by decide) (by decide) (by decide)
    (by decide) (by decide)).2 rfl ?_ ?_
  · intro front opt rear whole
    simp [sectionsFor] at whole
  · intro offset member i read
    have clear : ∀ offset ∈ framedNames { sectionsFor [[97]] 20 with
        records := otherRecords (sectionsFor [[97]] 20) },
        ∀ i ∈ nameReads (queryFor [1, 97, 192, 4]) offset, i ≠ 10 ∧ i ≠ 11 := by decide
    obtain ⟨ten, eleven⟩ := clear offset member i read
    exact ⟨nofun, by simp [CountOctet, ten, eleven]⟩

theorem prepareQuery_changes_question :
    ∃ sections prepared, validate (queryFor [192, 11]) false = .ok () ∧
      scanPacket (queryFor [192, 11]) = .ok ⟨none, false⟩ ∧
      parseSections (queryFor [192, 11]) = .ok sections ∧ OptLast sections ∧
      prepareQuery (queryFor [192, 11]) .edns0 512 = .ok prepared ∧
      ¬PreparedWell (queryFor [192, 11]) prepared.packet sections ⟨none, false⟩ .edns0 512 := by
  refine ⟨sectionsFor [] 18, ⟨ednsFor [192, 11], true, true⟩, by decide, by decide, by decide, ?_, by decide, ?_⟩
  · intro front opt rear whole
    simp [sectionsFor] at whole
  · rintro ⟨-, ⟨sections', parsed, -, same, -⟩, -, -⟩
    have other : (parseSections (ednsFor [192, 11])).toOption.map (·.questions) ≠
        some (sectionsFor [] 18).questions := by decide
    rw [parsed] at other
    exact other (congrArg some same)

end Resolved.Proof.Edns
