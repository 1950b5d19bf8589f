import Resolved.Edns.Message
import Resolved.Proof.Wire.Frame

namespace Resolved.Proof.Edns
open Lib Resolved.Wire Resolved.Edns Proof.Wire

variable {start count ahead stop : Nat} {layout layout' : PacketLayout} {packet : Packet}

structure OptSplit (packet : Packet) (ahead start stop : Nat) (records : List ResourceRecord)
    (span : OptSpan) (front : List ResourceRecord) (opt : ResourceRecord)
    (rear : List ResourceRecord) : Prop where
  whole : records = front ++ opt :: rear
  frontParsed : parseRecords packet front.length start = .ok (front, span.start)
  optParsed : ParsedRecord packet span.start opt
  rearParsed : parseRecords packet rear.length span.stop = .ok (rear, stop)
  optStop : opt.nextOffset = span.stop
  optType : opt.rrType = typeOpt
  optOwner : opt.name.canonicalWire = [0]
  additional : ahead ≤ front.length
  flags : span.flags = opt.ttl % 65536
  frontOther : ∀ record ∈ front, record.rrType ≠ typeOpt
  rearOther : ∀ record ∈ rear, record.rrType ≠ typeOpt

theorem scanRecord_eq_ok {additional : Bool} {record : ResourceRecord}
    (h : scanRecord additional start record layout = .ok layout') :
    (record.rrType = typeOpt ∧ additional = true ∧ record.name.canonicalWire = [0] ∧
      layout.opt = none ∧ layout'.hasTsig = layout.hasTsig ∧ ∃ options, parseOptions record.rdata = .ok options ∧
        layout'.opt = some ⟨start, record.nextOffset, record.cls, record.ttl % 65536, options⟩) ∨
    (record.rrType ≠ typeOpt ∧ layout'.opt = layout.opt ∧
      layout'.hasTsig = (layout.hasTsig || record.rrType == typeTsig)) := by
  unfold scanRecord at h
  split at h
  · rename_i type
    split at h
    · cases h
    · rename_i checks
      simp only [bind_eq_ok, pure_eq_ok] at h
      obtain ⟨options, parsed, rfl⟩ := h
      push Not at checks
      obtain ⟨additional, owner, fresh⟩ := checks
      exact .inl ⟨type, by simpa using additional, owner, by simpa using fresh, rfl, options, parsed, rfl⟩
  · rename_i other
    split at h
    all_goals
      rename_i tsig
      simp only [Except.ok.injEq] at h
      subst h
      exact .inr ⟨other, rfl, by simp [tsig]⟩

theorem scanRecords_succ_eq_ok (h : scanRecords packet (count + 1) ahead start layout = .ok (layout', stop)) :
    ∃ record middle, ParsedRecord packet start record ∧ scanRecord (ahead = 0) start record layout = .ok middle ∧
      scanRecords packet count (ahead - 1) record.nextOffset middle = .ok (layout', stop) := by
  simp only [scanRecords, bind_eq_ok, parseRecord_eq_ok] at h
  obtain ⟨record, parsed, middle, scanned, rest⟩ := h
  exact ⟨record, middle, parsed, scanned, rest⟩

theorem scanRecords_found {span : OptSpan}
    (h : scanRecords packet count ahead start layout = .ok (layout', stop)) (found : layout.opt = some span) :
    layout'.opt = some span ∧ ∃ records, parseRecords packet count start = .ok (records, stop) ∧
      (∀ record ∈ records, record.rrType ≠ typeOpt) ∧
      layout'.hasTsig = (layout.hasTsig || records.any fun record => record.rrType == typeTsig) := by
  induction count generalizing ahead start layout with
  | zero =>
    simp only [scanRecords, Except.ok.injEq, Prod.mk.injEq] at h
    obtain ⟨rfl, rfl⟩ := h
    exact ⟨found, [], rfl, by simp, by simp⟩
  | succ count ih =>
    obtain ⟨record, middle, parsed, scanned, rest⟩ := scanRecords_succ_eq_ok h
    rcases scanRecord_eq_ok scanned with ⟨-, -, -, none, -⟩ | ⟨other, same, tsig⟩
    · rw [found] at none
      cases none
    · obtain ⟨kept, records, hrecords, others, tsigs⟩ := ih rest (same.trans found)
      refine ⟨kept, record :: records, parseRecords_succ_eq_ok.2 ⟨record, records, rfl, parsed, hrecords⟩, ?_, ?_⟩
      · intro r hr
        rcases List.mem_cons.1 hr with rfl | later
        · exact other
        · exact others r later
      · rw [tsigs, tsig, List.any_cons, Bool.or_assoc]

theorem scanRecords_fresh (h : scanRecords packet count ahead start layout = .ok (layout', stop))
    (fresh : layout.opt = none) :
    ∃ records, parseRecords packet count start = .ok (records, stop) ∧ layout'.hasTsig =
        (layout.hasTsig || records.any fun record => record.rrType == typeTsig) ∧
      (layout'.opt = none → ∀ record ∈ records, record.rrType ≠ typeOpt) ∧ ∀ span, layout'.opt = some span →
        ∃ front opt rear, OptSplit packet ahead start stop records span front opt rear := by
  induction count generalizing ahead start layout with
  | zero =>
    simp only [scanRecords, Except.ok.injEq, Prod.mk.injEq] at h
    obtain ⟨rfl, rfl⟩ := h
    exact ⟨[], rfl, by simp, by simp, by simp [fresh]⟩
  | succ count ih =>
    obtain ⟨record, middle, parsed, scanned, rest⟩ := scanRecords_succ_eq_ok h
    rcases scanRecord_eq_ok scanned with
      ⟨type, additional, owner, -, tsig, options, -, here⟩ | ⟨other, same, tsig⟩
    · -- the OPT record is this one: nothing stands in front of it
      obtain ⟨kept, records, hrecords, others, tsigs⟩ := scanRecords_found rest here
      have count_eq := parseRecords_length hrecords
      refine ⟨record :: records, parseRecords_succ_eq_ok.2 ⟨record, records, rfl, parsed, hrecords⟩, ?_, ?_, ?_⟩
      · have notTsig : (record.rrType == typeTsig) = false := by rw [type]; rfl
        rw [tsigs, tsig, List.any_cons, notTsig, Bool.false_or]
      · intro none
        rw [kept] at none
        cases none
      · intro span found
        rw [kept, Option.some.injEq] at found
        subst found
        exact ⟨[], record, records, {
          whole := rfl
          frontParsed := rfl
          optParsed := parsed
          rearParsed := by rw [count_eq]; exact hrecords
          optStop := rfl
          optType := type
          optOwner := owner
          additional := by simpa using additional
          flags := rfl
          frontOther := by simp
          rearOther := others }⟩
    · obtain ⟨records, hrecords, tsigs, none, some⟩ := ih rest (same.trans fresh)
      refine ⟨record :: records, parseRecords_succ_eq_ok.2 ⟨record, records, rfl, parsed, hrecords⟩, ?_, ?_, ?_⟩
      · rw [tsigs, tsig, List.any_cons, Bool.or_assoc]
      · intro absent r hr
        rcases List.mem_cons.1 hr with rfl | later
        · exact other
        · exact none absent r later
      · intro span found
        obtain ⟨front, opt, rear, split⟩ := some span found
        exact ⟨record :: front, opt, rear, {
          whole := by rw [split.whole, List.cons_append]
          frontParsed := parseRecords_succ_eq_ok.2 ⟨record, front, rfl, parsed, split.frontParsed⟩
          optParsed := split.optParsed
          rearParsed := split.rearParsed
          optStop := split.optStop
          optType := split.optType
          optOwner := split.optOwner
          additional := by
            have := split.additional
            simp only [List.length_cons]
            omega
          flags := split.flags
          frontOther := by
            intro r hr
            rcases List.mem_cons.1 hr with rfl | later
            · exact other
            · exact split.frontOther r later
          rearOther := split.rearOther }⟩

structure Scanned (packet : Packet) (layout : PacketLayout) (sections : Sections) (middle : Nat) :
    Prop where
  parsed : parseSections packet = .ok sections
  questions : parseQuestions packet sections.header.questionCount dnsHeaderLen = .ok (sections.questions, middle)
  records : parseRecords packet sections.header.totalRecords middle = .ok (sections.records, sections.stop)
  stop : sections.stop = packet.length
  tsig : layout.hasTsig = sections.records.any fun record => record.rrType == typeTsig
  plain : layout.opt = none → ∀ record ∈ sections.records, record.rrType ≠ typeOpt
  split : ∀ span, layout.opt = some span → ∃ front opt rear,
    OptSplit packet (sections.header.answerCount + sections.header.authorityCount) middle
      sections.stop sections.records span front opt rear

theorem scanPacket_scanned (h : scanPacket packet = .ok layout) :
    ∃ sections middle, Scanned packet layout sections middle := by
  simp only [scanPacket, bind_eq_ok, Prod.exists] at h
  obtain ⟨header, hheader, questions, middle, hquestions, layout', stop, hscan, h⟩ := h
  split at h
  · simp at h
  · rename_i whole
    rw [pure_eq_ok] at h
    subst h
    obtain ⟨records, hrecords, tsig, plain, split⟩ := scanRecords_fresh hscan rfl
    refine ⟨⟨header, questions, records, stop⟩, middle, ?_, hquestions, hrecords, by simpa using whole,
      by simpa using tsig, plain, split⟩
    exact parseSections_eq_ok.2 ⟨hheader, middle, hquestions, hrecords⟩

end Resolved.Proof.Edns
