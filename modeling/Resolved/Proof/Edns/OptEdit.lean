import Resolved.Proof.Edns.Scan
import Resolved.Proof.Edns.Splice

namespace Resolved.Proof.Edns
open Lib Resolved.Wire Resolved.Edns Resolved.Dnssec Spec Proof.Wire

variable {packet output : Packet}
  {start middle stop i udpPayloadSize extendedRcode version flags : Nat}
  {front rear : List ResourceRecord} {layout : PacketLayout} {span : OptSpan}
  {replacement encoded : Bytes} {options : List EdnsOption}

theorem recordOffsets_append (h : parseRecords packet front.length start = .ok (front, middle)) :
    nameOffsets.recordOffsets packet start (front ++ rear) = nameOffsets.recordOffsets packet start front ++
        nameOffsets.recordOffsets packet middle rear := by
  induction front generalizing start with
  | nil =>
    simp only [List.length_nil, parseRecords, Except.ok.injEq, Prod.mk.injEq] at h
    obtain ⟨-, rfl⟩ := h
    simp [nameOffsets.recordOffsets]
  | cons record rest ih =>
    obtain ⟨record', rest', same, -, hrest⟩ := parseRecords_succ_eq_ok.1 h
    obtain ⟨rfl, rfl⟩ := List.cons.inj same
    simp [nameOffsets.recordOffsets, ih hrest]

structure KeptAround (packet : Packet) (middle : Nat) (sections : Sections) (span : OptSpan)
    (front rear : List ResourceRecord) (Kept : Nat → Prop) : Prop where
  questions : ∀ offset ∈ nameOffsets.questionOffsets dnsHeaderLen sections.questions,
    ∀ i ∈ nameReads packet offset, Kept i
  front : ∀ offset ∈ nameOffsets.recordOffsets packet middle front, ∀ i ∈ nameReads packet offset, Kept i
  rear : ∀ offset ∈ nameOffsets.recordOffsets packet span.stop rear, ∀ i ∈ nameReads packet offset, Kept i

theorem keptAround_of_clear {sections : Sections} {changed : List Nat}
    {opt : ResourceRecord} (clear : PointersClear packet start changed)
    (scanned : Scanned packet layout sections middle)
    (split : OptSplit packet (sections.header.answerCount + sections.header.authorityCount) middle
      sections.stop sections.records span front opt rear) :
    KeptAround packet middle sections span front rear (fun i => i < start ∧ i ∉ changed) := by
  have offsets : nameOffsets packet = nameOffsets.questionOffsets dnsHeaderLen sections.questions ++
        (nameOffsets.recordOffsets packet middle front ++
          nameOffsets.recordOffsets packet span.stop rear) := by
    simp only [nameOffsets, scanned.parsed]
    rw [parseQuestions_middle scanned.questions, split.whole, recordOffsets_append split.frontParsed]
    simp [nameOffsets.recordOffsets, split.optType, split.optStop]
  unfold PointersClear at clear
  rw [offsets] at clear
  exact ⟨fun o ho => clear o (by simp [ho]), fun o ho => clear o (by simp [ho]),
    fun o ho => clear o (by simp [ho])⟩

theorem replaceSpan_eq_ok (h : replaceSpan packet start stop replacement = .ok output) :
    start ≤ stop ∧ stop ≤ packet.length ∧ output = packet.take start ++ replacement ++ packet.drop stop := by
  unfold replaceSpan at h
  split at h
  · simp at h
  · split at h
    · simp at h
    · simp only [Except.ok.injEq] at h
      exact ⟨by omega, by omega, h.symm⟩

theorem cut_getElem?_front (inside : start ≤ packet.length) (front : i < start) :
    (packet.take start ++ replacement ++ packet.drop stop)[i]? = packet[i]? := by
  rw [List.append_assoc, List.getElem?_append_left (by simp; omega), List.getElem?_take_of_lt front]

theorem cut_getElem?_rear (inside : start ≤ packet.length) (rear : stop ≤ i) :
    (packet.take start ++ replacement ++ packet.drop stop)[i - stop + (start + replacement.length)]? =
      packet[i]? := by
  have width : (packet.take start ++ replacement).length = start + replacement.length := by
    simp
    omega
  rw [List.getElem?_append_right (by omega), width, List.getElem?_drop]
  congr 1
  omega

theorem replaceSpan_spliced (h : replaceSpan packet start stop replacement = .ok output)
    (head : dnsHeaderLen ≤ start) (ordered : start < stop) :
    Spliced packet output start stop replacement.length (fun i => i < start ∧ i ∉ ([] : List Nat)) := by
  obtain ⟨-, inside, rfl⟩ := replaceSpan_eq_ok h
  exact {
    head := head
    ordered := ordered
    inside := inside
    length := by
      simp
      omega
    front := fun i _ hi => cut_getElem?_front (by omega) hi
    rear := fun i hi => cut_getElem?_rear (by omega) hi
    kept := fun i hi => ⟨hi.1, cut_getElem?_front (by omega) hi.1⟩ }

theorem toBe16_pred_kept (kept : i ∉ changedCountOctets (be16 a b)) (low : 10 ≤ i) (high : i < 12) :
    (toBe16 (be16 a b - 1))[i - 10]? = some a ∧ i = 10 := by
  have ha := a.toNat_lt
  have hb := b.toNat_lt
  unfold changedCountOctets at kept
  unfold be16 at *
  split at kept
  · simp at kept
    omega
  · simp at kept
    obtain rfl : i = 10 := by omega
    have same : (a.toNat * 256 + b.toNat - 1) / 256 = a.toNat := by omega
    simp [toBe16, same]

theorem removeOpt_eq_ok (h : removeOpt packet span = .ok output) :
    ∃ header cut, Header.parse packet = .ok header ∧ header.additionalCount ≠ 0 ∧
      replaceSpan packet span.start span.stop [] = .ok cut ∧
      output = overwrite cut 10 (toBe16 (header.additionalCount - 1)) := by
  simp only [removeOpt, bind_eq_ok] at h
  obtain ⟨header, hheader, h⟩ := h
  split at h
  · simp at h
  · rename_i positive
    simp only [bind_eq_ok, pure_eq_ok] at h
    obtain ⟨cut, hcut, rfl⟩ := h
    exact ⟨header, cut, hheader, positive, hcut, rfl⟩

theorem removeOpt_spliced (h : removeOpt packet span = .ok output) (hheader : Header.parse packet = .ok header)
    (head : dnsHeaderLen ≤ span.start) (ordered : span.start < span.stop) :
    Spliced packet output span.start span.stop 0
      (fun i => i < span.start ∧ i ∉ changedCountOctets header.additionalCount) := by
  obtain ⟨header', cut, hheader', positive, hcut, rfl⟩ := removeOpt_eq_ok h
  cases hheader.symm.trans hheader'
  have spliced := replaceSpan_spliced hcut head ordered
  have long : 10 + (toBe16 (header.additionalCount - 1)).length ≤ cut.length := by
    have := spliced.length
    have := spliced.inside
    have : dnsHeaderLen = 12 := rfl
    simp only [toBe16_length]
    omega
  have untouched : ∀ i, ¬ (10 ≤ i ∧ i < 12) →
      (overwrite cut 10 (toBe16 (header.additionalCount - 1)))[i]? = cut[i]? := by
    intro i hi
    rw [overwrite_getElem? long, if_neg (by simpa using hi)]
  have : dnsHeaderLen = 12 := rfl
  exact {
    head := head
    ordered := ordered
    inside := spliced.inside
    length := (overwrite_length long).trans spliced.length
    front := fun i hi hi' => (untouched i (by omega)).trans (spliced.front i hi hi')
    rear := fun i hi => (untouched _ (by omega)).trans (spliced.rear i hi)
    kept := by
      rintro i ⟨front, kept⟩
      refine ⟨front, ?_⟩
      by_cases count : 10 ≤ i ∧ i < 12
      · obtain ⟨-, -, -, -, -, -, har⟩ := headerParse_eq_ok.1 hheader
        obtain ⟨a, b, first, -, value⟩ := readU16_eq_ok.1 har
        rw [← value] at kept positive ⊢
        obtain ⟨octet, rfl⟩ := toBe16_pred_kept kept count.1 count.2
        rw [overwrite_getElem? (by simpa using long), if_pos (by simp), octet, first]
      · exact (untouched i count).trans (spliced.kept i ⟨front, by simp⟩).2 }

theorem header_recounted (hheader : Header.parse packet = .ok header) (long : 12 ≤ cut.length)
    (small : count < 65536) (below : ∀ i, i < 10 → cut[i]? = packet[i]?) :
    Header.parse (overwrite cut 10 (toBe16 count)) = .ok { header with additionalCount := count } := by
  have bound : 10 + (toBe16 count).length ≤ cut.length := by simpa using long
  obtain ⟨-, hid, hflags, hqd, han, hns, -⟩ := headerParse_eq_ok.1 hheader
  have low : ∀ i, i + 2 ≤ 10 →
      readU16 (overwrite cut 10 (toBe16 count)) i = readU16 packet i := fun i hi =>
    readU16_congr fun k hk => by rw [overwrite_getElem?_of_lt bound (by omega), below _ (by omega)]
  refine headerParse_eq_ok.2 ⟨by rw [overwrite_length bound]; exact long, ?_, ?_, ?_, ?_, ?_, ?_⟩
  · exact (low 0 (by omega)).trans hid
  · exact (low 2 (by omega)).trans hflags
  · exact (low 4 (by omega)).trans hqd
  · exact (low 6 (by omega)).trans han
  · exact (low 8 (by omega)).trans hns
  · refine readU16_eq_ok.2 ⟨_, _, ?_, ?_, be16_toBe16 _ small⟩
    · rw [overwrite_getElem? bound]
      rfl
    · rw [overwrite_getElem? bound]
      rfl

theorem removeOpt_header (h : removeOpt packet span = .ok output) (hheader : Header.parse packet = .ok header)
    (head : dnsHeaderLen ≤ span.start) (ordered : span.start < span.stop) :
    header.additionalCount ≠ 0 ∧ Header.parse output =
      .ok { header with additionalCount := header.additionalCount - 1 } := by
  obtain ⟨header', cut, hheader', positive, hcut, rfl⟩ := removeOpt_eq_ok h
  cases hheader.symm.trans hheader'
  have spliced := replaceSpan_spliced hcut head ordered
  have head : 12 ≤ span.start := head
  have long : 12 ≤ cut.length := by
    have := spliced.length
    have := spliced.inside
    omega
  obtain ⟨-, -, -, -, -, -, har⟩ := headerParse_eq_ok.1 hheader
  obtain ⟨a, b, -, -, value⟩ := readU16_eq_ok.1 har
  have small : header.additionalCount - 1 < 65536 := by
    have := be16_lt a b
    omega
  exact ⟨positive, header_recounted hheader long small fun i hi =>
    (spliced.kept i ⟨by omega, by simp⟩).2⟩

theorem encodeOpt_eq_ok (h : encodeOpt udpPayloadSize extendedRcode version flags options = .ok encoded) :
    ∃ rdata : Bytes, rdata.length ≤ 65535 ∧ encoded = [0] ++ toBe16 typeOpt ++
      toBe16 udpPayloadSize ++ [UInt8.ofNat extendedRcode, UInt8.ofNat version] ++ toBe16 flags ++
      toBe16 rdata.length ++ rdata := by
  simp only [encodeOpt, bind_eq_ok] at h
  obtain ⟨parts, -, h⟩ := h
  split at h
  · simp at h
  · rw [pure_eq_ok] at h
    exact ⟨parts.flatten, by omega, h.symm⟩

theorem encodeOpt_parsed (h : encodeOpt udpPayloadSize extendedRcode version flags options = .ok encoded)
    (written : ∀ k, k < encoded.length → packet[start + k]? = encoded[k]?) :
    ∃ record, ParsedRecord packet start record ∧ record.rrType = typeOpt ∧
      record.nextOffset = start + encoded.length ∧
      record.ttl = be32 (UInt8.ofNat extendedRcode) (UInt8.ofNat version)
        (UInt8.ofNat (flags / 256)) (UInt8.ofNat flags) := by
  obtain ⟨rdata, small, rfl⟩ := encodeOpt_eq_ok h
  have length : ([0] ++ toBe16 typeOpt ++ toBe16 udpPayloadSize ++
      [UInt8.ofNat extendedRcode, UInt8.ofNat version] ++ toBe16 flags ++ toBe16 rdata.length ++
      rdata).length = 11 + rdata.length := by
    simp
    omega
  rw [length] at written ⊢
  have octet : ∀ k, k < 11 → packet[start + k]? = ([0] ++ toBe16 typeOpt ++
      toBe16 udpPayloadSize ++ [UInt8.ofNat extendedRcode, UInt8.ofNat version] ++ toBe16 flags ++
      toBe16 rdata.length)[k]? := by
    intro k hk
    rw [written k (by omega), List.getElem?_append_left (by simpa using hk)]
  have data : slice packet (start + 11) (start + 11 + rdata.length) = some rdata := by
    have bound : ∀ k, k < rdata.length → packet[start + 11 + k]? = rdata[0 + k]? := by
      intro k hk
      rw [Nat.add_assoc, written (11 + k) (by omega), List.getElem?_append_right (by simp)]
      simp
    have whole : slice rdata 0 (0 + rdata.length) = some rdata := by simp [slice]
    refine slice_congr ?_ bound whole
    have last := octet 10 (by omega)
    exact getElem?_lt last
  refine ⟨⟨⟨['.'], [0]⟩, typeOpt, be16 (UInt8.ofNat (udpPayloadSize / 256))
    (UInt8.ofNat udpPayloadSize), _, start + 5, start + 11, rdata, start + 11 + rdata.length⟩,
    ⟨start + 1, readName_root (octet 0 (by omega)), ?_, ?_, ?_, rfl, rfl, ?_, by simp, data⟩, rfl,
    by simp only; omega, rfl⟩
  · exact readU16_eq_ok.2 ⟨_, _, octet 1 (by omega), octet 2 (by omega), rfl⟩
  · exact readU16_eq_ok.2 ⟨_, _, octet 3 (by omega), octet 4 (by omega), rfl⟩
  · exact readU32_eq_ok.2 ⟨_, _, _, _, octet 5 (by omega), octet 6 (by omega), octet 7 (by omega),
      octet 8 (by omega), rfl⟩
  · refine readU16_eq_ok.2 ⟨_, _, octet 9 (by omega), octet 10 (by omega), ?_⟩
    simp only [Nat.add_sub_cancel_left]
    exact be16_toBe16 _ (by omega)

section
variable {packet : Packet} {layout : PacketLayout} {sections : Sections} {middle : Nat}
  {span : OptSpan} {front rear : List ResourceRecord} {opt : ResourceRecord}
  (scanned : Scanned packet layout sections middle)
  (split : OptSplit packet (sections.header.answerCount + sections.header.authorityCount) middle
    sections.stop sections.records span front opt rear)
include scanned split

theorem OptSplit.bounds : dnsHeaderLen ≤ middle ∧ middle ≤ span.start ∧ span.start < span.stop ∧
    span.stop ≤ sections.stop := by
  have questions := (parseQuestions_spans scanned.questions).le
  have before := (parseRecords_spans split.frontParsed).le
  have here := split.optParsed.span.start_lt
  have behind := (parseRecords_spans split.rearParsed).le
  rw [split.optStop] at here
  exact ⟨questions, before, by omega, behind⟩

variable {output : Packet} {width : Nat} {Kept : Nat → Prop}
  (spliced : Spliced packet output span.start span.stop width Kept)
  (kept : KeptAround packet middle sections span front rear Kept)
include spliced kept

theorem around_splice :
    (∃ questions', parseQuestions output sections.header.questionCount dnsHeaderLen =
        .ok (questions', middle) ∧ List.Forall₂ SameQuestion sections.questions questions') ∧
    (∃ front', parseRecords output front.length middle = .ok (front', span.start) ∧
      List.Forall₂ (SameRecord packet output) front front') ∧
    ∃ rear', parseRecords output rear.length (span.start + width) = .ok (rear', output.length) ∧
      List.Forall₂ (SameRecord packet output) rear rear' := by
  obtain ⟨head, before, here, behind⟩ := split.bounds scanned
  have stays : ∀ i, i ≤ span.start → place span.start span.stop width i = i := by
    intro i hi
    exact if_pos (by omega)
  have moves : place span.start span.stop width span.stop = span.start + width := by
    rw [place, if_neg (by omega), Nat.sub_self, Nat.zero_add]
  have ends : place span.start span.stop width sections.stop = output.length := by
    have := spliced.length
    have := scanned.stop
    rw [place, if_neg (by omega)]
    omega
  obtain ⟨questions, sameQuestions⟩ := parseQuestions_splice spliced scanned.questions
    ⟨le_rfl, .inl before⟩ kept.questions
  obtain ⟨fronts, sameFront⟩ := parseRecords_splice spliced split.frontParsed
    ⟨head, .inl le_rfl⟩ split.frontOther kept.front
  obtain ⟨rears, sameRear⟩ := parseRecords_splice spliced split.rearParsed
    ⟨by omega, .inr le_rfl⟩ split.rearOther kept.rear
  rw [stays _ (by omega), stays _ before] at questions
  rw [stays _ before, stays _ le_rfl] at fronts
  rw [moves, ends] at rears
  exact ⟨⟨_, questions, sameQuestions⟩, ⟨_, fronts, sameFront⟩, _, rears, sameRear⟩

end

theorem removeOpt_optRemoved (hscan : scanPacket packet = .ok layout) (hopt : layout.opt = some span)
    (hheader : Header.parse packet = .ok header)
    (clear : PointersClear packet span.start (changedCountOctets header.additionalCount))
    (h : removeOpt packet span = .ok output) : OptRemoved packet output := by
  obtain ⟨sections, middle, scanned⟩ := scanPacket_scanned hscan
  obtain ⟨front, opt, rear, split⟩ := scanned.split span hopt
  obtain ⟨head, before, here, behind⟩ := split.bounds scanned
  obtain ⟨hsections, -⟩ := parseSections_eq_ok.1 scanned.parsed
  obtain rfl : sections.header = header := by
    rw [hheader] at hsections
    exact (Except.ok.inj hsections).symm
  have spliced := removeOpt_spliced h hheader (head.trans before) here
  obtain ⟨positive, hheader'⟩ := removeOpt_header h hheader (head.trans before) here
  obtain ⟨⟨questions', hquestions, sameQuestions⟩, ⟨front', hfront, sameFront⟩, rear', hrear,
    sameRear⟩ := around_splice scanned split spliced (keptAround_of_clear clear scanned split)
  have total := parseRecords_length scanned.records
  rw [split.whole, List.length_append, List.length_cons] at total
  have hrecords := parseRecords_append hfront (by simpa using hrear)
  have count : front.length + rear.length = sections.header.answerCount +
      sections.header.authorityCount + (sections.header.additionalCount - 1) := by
    unfold Header.totalRecords at total
    omega
  rw [count] at hrecords
  refine ⟨sections, ⟨{ sections.header with
    additionalCount := sections.header.additionalCount - 1 }, questions', front' ++ rear',
    output.length⟩, front, opt, rear, scanned.parsed,
    parseSections_eq_ok.2 ⟨hheader', middle, hquestions, hrecords⟩, rfl, split.whole,
    split.optType, ?_, sameQuestions, List.rel_append sameFront sameRear⟩
  simp only [Nat.sub_add_cancel (Nat.pos_of_ne_zero positive)]

theorem header_of_cut {header : Header} (stop : Nat) (replacement : Bytes) (head : dnsHeaderLen ≤ start)
    (inside : start ≤ packet.length) (hheader : Header.parse packet = .ok header) :
    Header.parse (packet.take start ++ replacement ++ packet.drop stop) = .ok header := by
  obtain ⟨long, fields⟩ := headerParse_eq_ok.1 hheader
  have width : dnsHeaderLen = 12 := rfl
  have low : ∀ i, i + 2 ≤ 12 →
      readU16 (packet.take start ++ replacement ++ packet.drop stop) i = readU16 packet i := fun i hi =>
    readU16_congr fun k hk => cut_getElem?_front inside (by omega)
  refine headerParse_eq_ok.2 ⟨?_, ?_⟩
  · simp
    omega
  · rw [low 0 (by omega), low 2 (by omega), low 4 (by omega), low 6 (by omega), low 8 (by omega),
      low 10 (by omega)]
    exact fields

theorem replaceSpan_optReplaced (hscan : scanPacket packet = .ok layout) (hopt : layout.opt = some span)
    (clear : PointersClear packet span.start []) (hnew : queryOpt level udpPayloadSize = .ok replacement)
    (h : replaceSpan packet span.start span.stop replacement = .ok output) : OptReplaced packet output := by
  obtain ⟨sections, middle, scanned⟩ := scanPacket_scanned hscan
  obtain ⟨front, opt, rear, split⟩ := scanned.split span hopt
  obtain ⟨head, before, here, behind⟩ := split.bounds scanned
  have spliced := replaceSpan_spliced h (head.trans before) here
  obtain ⟨⟨questions', hquestions, sameQuestions⟩, ⟨front', hfront, sameFront⟩, rear', hrear,
    sameRear⟩ := around_splice scanned split spliced (keptAround_of_clear clear scanned split)
  obtain ⟨-, inside, rfl⟩ := replaceSpan_eq_ok h
  have written : ∀ k, k < replacement.length → (packet.take span.start ++ replacement ++
      packet.drop span.stop)[span.start + k]? = replacement[k]? := by
    intro k hk
    have width : (packet.take span.start).length = span.start := by
      simp
      omega
    rw [List.append_assoc, List.getElem?_append_right (by omega), width,
      Nat.add_sub_cancel_left, List.getElem?_append_left hk]
  obtain ⟨opt', parsed, type, next, -⟩ := encodeOpt_parsed hnew written
  obtain ⟨hheader, -⟩ := parseSections_eq_ok.1 scanned.parsed
  have header' := header_of_cut span.stop replacement (head.trans before) (by omega) hheader
  have total := parseRecords_length scanned.records
  rw [split.whole, List.length_append, List.length_cons] at total
  have hrecords := parseRecords_append hfront
    (parseRecords_succ_eq_ok.2 ⟨opt', rear', rfl, parsed, by rw [next]; exact hrear⟩)
  rw [total] at hrecords
  exact ⟨sections, ⟨sections.header, questions', front' ++ opt' :: rear', _⟩, front, opt, rear,
    front', opt', rear', scanned.parsed,
    parseSections_eq_ok.2 ⟨header', middle, hquestions, hrecords⟩, rfl, split.whole,
    split.optType, rfl, type, rfl, sameQuestions, sameFront, sameRear⟩

theorem removeOpt_total (hscan : scanPacket packet = .ok layout) (hopt : layout.opt = some span)
    (small : packet.length ≤ 65535) : ∃ output, removeOpt packet span = .ok output := by
  obtain ⟨sections, middle, scanned⟩ := scanPacket_scanned hscan
  obtain ⟨front, opt, rear, split⟩ := scanned.split span hopt
  obtain ⟨-, -, here, behind⟩ := split.bounds scanned
  obtain ⟨hheader, -⟩ := parseSections_eq_ok.1 scanned.parsed
  have total := parseRecords_length scanned.records
  rw [split.whole, List.length_append, List.length_cons] at total
  have positive : sections.header.additionalCount ≠ 0 := by
    have := split.additional
    unfold Header.totalRecords at total
    omega
  have whole := scanned.stop
  simp only [removeOpt, hheader, ok_bind, positive, if_false, replaceSpan]
  rw [if_neg (by omega), if_neg (by simp; omega)]
  exact ⟨_, rfl⟩

theorem queryOpt_total (level : FeatureLevel) (udpPayloadSize : Nat) :
    ∃ encoded, queryOpt level udpPayloadSize = .ok encoded ∧ encoded.length ≤ 33 := by
  cases level with
  | udp | edns0 | dnssecOk => exact ⟨_, rfl, Nat.le_of_ble_eq_true rfl⟩

theorem prepareQuery_replaces {query : Packet}
    {level : FeatureLevel} (udpPayloadSize : Nat) (valid : validate query false = .ok ())
    (hscan : scanPacket query = .ok layout) (hopt : layout.opt = some span)
    (untagged : layout.hasTsig = false) (edns : level.usesEdns = true) :
    prepareQuery query level udpPayloadSize = (do
      let replacement ← queryOpt level udpPayloadSize
      let packet ← replaceSpan query span.start span.stop replacement
      return ⟨packet, true, true⟩) := by
  simp [prepareQuery, valid, hscan, hopt, untagged, edns]

/-- Cutting out and replacing the OPT record keeps what the message says when no name is
compressed against what stands at or behind the OPT record, nor against the octets of the header
that change. -/
theorem optEdit_keeps_message (packet : Packet) (layout : PacketLayout) (span : OptSpan)
    (hscan : scanPacket packet = .ok layout) (hopt : layout.opt = some span) :
    (∀ header, validate packet true = .ok () → Header.parse packet = .ok header →
      (packet.length ≤ 65535 → ∃ output, removeOpt packet span = .ok output) ∧
      (PointersClear packet span.start (changedCountOctets header.additionalCount) →
        ∀ output, removeOpt packet span = .ok output → OptRemoved packet output)) ∧
    (∀ level udpPayloadSize, validate packet false = .ok () → layout.hasTsig = false → level.usesEdns = true →
      (packet.length + 33 ≤ 65535 → ∃ prepared, prepareQuery packet level udpPayloadSize = .ok prepared) ∧
      (PointersClear packet span.start [] → ∀ prepared, prepareQuery packet level udpPayloadSize = .ok prepared →
          OptReplaced packet prepared.packet)) := by
  constructor
  · intro header _ hheader
    exact ⟨removeOpt_total hscan hopt, fun clear output h => removeOpt_optRemoved hscan hopt hheader clear h⟩
  · intro level udpPayloadSize valid untagged edns
    rw [prepareQuery_replaces udpPayloadSize valid hscan hopt untagged edns]
    obtain ⟨replacement, hnew, short⟩ := queryOpt_total level udpPayloadSize
    simp only [hnew, ok_bind, bind_eq_ok, pure_eq_ok]
    constructor
    · intro small
      obtain ⟨sections, middle, scanned⟩ := scanPacket_scanned hscan
      obtain ⟨front, opt, rear, split⟩ := scanned.split span hopt
      obtain ⟨-, -, here, behind⟩ := split.bounds scanned
      have whole := scanned.stop
      have fits : replaceSpan packet span.start span.stop replacement =
          .ok (packet.take span.start ++ replacement ++ packet.drop span.stop) := by
        rw [replaceSpan, if_neg (by omega), if_neg (by omega)]
      exact ⟨_, _, fits, rfl⟩
    · rintro clear prepared ⟨output, hpacket, rfl⟩
      exact replaceSpan_optReplaced hscan hopt clear hnew hpacket

def threeAdditional (flags count : UInt8) (opt owner : Bytes) : Packet :=
  [0, 7, flags, 0, 0, 1, 0, 0, 0, 0, 0, count] ++ [1, 97, 0, 0, 1, 0, 1] ++ opt ++
    [1, 98, 0, 0, 1, 0, 1, 0, 0, 0, 9, 0, 4, 1, 2, 3, 4] ++
    owner ++ [0, 1, 0, 1, 0, 0, 0, 9, 0, 4, 1, 2, 3, 5]

def bareOpt : Bytes := [0, 0, 41, 4, 208, 0, 0, 0, 0, 0, 0]

def bareOptSpan : OptSpan := ⟨19, 30, 1232, 0, []⟩

theorem optEdit_keeps_message_threeAdditional :
    (∃ output, removeOpt (threeAdditional 0x80 3 bareOpt [0xc0, 12]) bareOptSpan = .ok output ∧
      OptRemoved (threeAdditional 0x80 3 bareOpt [0xc0, 12]) output) ∧
    ∃ prepared, prepareQuery (threeAdditional 0 3 bareOpt [0xc0, 12]) .dnssecOk 1232 = .ok prepared ∧
      OptReplaced (threeAdditional 0 3 bareOpt [0xc0, 12]) prepared.packet := by
  obtain ⟨removes, -⟩ := optEdit_keeps_message (threeAdditional 0x80 3 bareOpt [0xc0, 12])
    ⟨some bareOptSpan, false⟩ bareOptSpan (by decide) rfl
  obtain ⟨-, replaces⟩ := optEdit_keeps_message (threeAdditional 0 3 bareOpt [0xc0, 12])
    ⟨some bareOptSpan, false⟩ bareOptSpan (by decide) rfl
  obtain ⟨total, kept⟩ := removes ⟨7, 0x8000, 1, 0, 0, 3⟩ (by decide) (by decide)
  obtain ⟨total', kept'⟩ := replaces .dnssecOk 1232 (by decide) rfl rfl
  obtain ⟨output, h⟩ := total (by decide)
  obtain ⟨prepared, h'⟩ := total' (by decide)
  exact ⟨⟨output, h, kept (by decide) output h⟩, prepared, h', kept' (by decide) prepared h'⟩

def parsedRecords (packet : Packet) : List ResourceRecord :=
  match parseSections packet with
  | .ok sections => sections.records
  | .error _ => []

theorem OptRemoved.owners (removed : OptRemoved packet output) :
    ((parsedRecords output).map (·.name)).Sublist ((parsedRecords packet).map (·.name)) := by
  obtain ⟨s, s', front, opt, rear, hs, hs', -, whole, -, -, -, same⟩ := removed
  have names : List.Forall₂ (· = ·) ((front ++ rear).map (·.name)) (s'.records.map (·.name)) :=
    List.forall₂_map_left_iff.2 (List.forall₂_map_right_iff.2 (same.imp fun _ _ r => r.name.symm))
  rw [List.forall₂_eq_eq_eq] at names
  simp only [parsedRecords, hs, hs', whole]
  rw [← names]
  exact (List.Sublist.append_left (List.sublist_cons_self opt rear) front).map _

theorem OptReplaced.owners (replaced : OptReplaced packet output) :
    List.Forall₂ (fun record record' => record.rrType = typeOpt ∨ record'.name = record.name)
      (parsedRecords packet) (parsedRecords output) := by
  obtain ⟨s, s', front, opt, rear, front', opt', rear', hs, hs', -, whole, type, whole', -, -, -,
    sameFront, sameRear⟩ := replaced
  simp only [parsedRecords, hs, hs', whole, whole']
  exact List.rel_append (sameFront.imp fun _ _ r => .inr r.name)
    (.cons (.inl type) (sameRear.imp fun _ _ r => .inr r.name))

theorem optEdit_changes_owner :
    (validate (threeAdditional 0x80 3 bareOpt [0xc0, 30]) true = .ok () ∧
      scanPacket (threeAdditional 0x80 3 bareOpt [0xc0, 30]) = .ok ⟨some bareOptSpan, false⟩ ∧
      ∃ output, removeOpt (threeAdditional 0x80 3 bareOpt [0xc0, 30]) bareOptSpan = .ok output ∧
        ¬ OptRemoved (threeAdditional 0x80 3 bareOpt [0xc0, 30]) output) ∧
    ∃ prepared, prepareQuery (threeAdditional 0 3 bareOpt [0xc0, 30]) .dnssecOk 1232 = .ok prepared ∧
      ¬ OptReplaced (threeAdditional 0 3 bareOpt [0xc0, 30]) prepared.packet := by
  have removal : removeOpt (threeAdditional 0x80 3 bareOpt [0xc0, 30]) bareOptSpan =
      .ok (threeAdditional 0x80 2 [] [0xc0, 30]) := by decide
  have replacement : prepareQuery (threeAdditional 0 3 bareOpt [0xc0, 30]) .dnssecOk 1232 =
      .ok ⟨threeAdditional 0 3 ([0, 0, 41, 4, 208, 0, 0, 128, 0, 0, 22] ++
        [0, 5, 0, 6, 5, 7, 8, 10, 13, 14] ++ [0, 6, 0, 3, 1, 2, 4] ++ [0, 7, 0, 1, 1])
        [0xc0, 30], true, true⟩ := by decide
  refine ⟨⟨by decide, by decide, _, removal, fun removed => ?_⟩, _, replacement, fun replaced => ?_⟩
  · exact absurd (OptRemoved.owners removed) (by decide)
  · exact absurd (OptReplaced.owners replaced) (by decide)

end Resolved.Proof.Edns
