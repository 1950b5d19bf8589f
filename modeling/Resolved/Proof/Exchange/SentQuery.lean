import Resolved.Proof.Edns.OptEdit
import Resolved.Spec.Exchange

/-!
# The query that is sent
-/

namespace Resolved.Proof.Exchange
open Lib Resolved.Wire Resolved.Edns Resolved.Exchange Spec Proof.Wire Proof.Edns

variable {query output : Packet} {layout : PacketLayout} {size : Nat} {opt : Bytes}
  {sections' : Sections}

theorem queryOpt_flags : be32 (UInt8.ofNat 0) (UInt8.ofNat 0) (UInt8.ofNat (dnssecOkFlag / 256))
    (UInt8.ofNat dnssecOkFlag) % 65536 &&& dnssecOkFlag ≠ 0 := by decide

theorem carriesDo_behind (parsed : parseSections packet = .ok sections)
    (questions : QuestionSpans packet sections.header.questionCount dnsHeaderLen middle)
    (spans : RecordSpans packet middle frames stop)
    (ahead : sections.header.answerCount + sections.header.authorityCount ≤ frames.length)
    (more : frames.length < sections.header.totalRecords) (encoded : queryOpt .dnssecOk size = .ok opt)
    (written : ∀ k, k < opt.length → packet[stop + k]? = opt[k]?) : CarriesDo packet := by
  obtain ⟨-, middle', hquestions, hrecords⟩ := parseSections_eq_ok.1 parsed
  obtain rfl := (parseQuestions_spans hquestions).unique questions
  obtain ⟨record, found, here⟩ := parseRecords_behind hrecords spans more
  obtain ⟨record', here', type, -, flags⟩ := encodeOpt_parsed encoded written
  have same : record = record' :=
    Except.ok.inj ((parseRecord_eq_ok.2 here).symm.trans (parseRecord_eq_ok.2 here'))
  refine ⟨sections, record, parsed, ?_, by rw [same, type], ?_⟩
  · have dropped : (sections.records.drop (sections.header.answerCount +
        sections.header.authorityCount))[frames.length - (sections.header.answerCount +
          sections.header.authorityCount)]? = some record := by
      rw [List.getElem?_drop, Nat.add_sub_cancel' ahead]
      exact found
    exact List.mem_of_getElem? dropped
  · rw [same, flags]
    exact queryOpt_flags

theorem replaced_carriesDo {span : OptSpan} (hscan : scanPacket query = .ok layout)
    (hopt : layout.opt = some span) (encoded : queryOpt .dnssecOk size = .ok opt)
    (h : replaceSpan query span.start span.stop opt = .ok output)
    (parsed : parseSections output = .ok sections') : CarriesDo output := by
  obtain ⟨sections, middle, scanned⟩ := scanPacket_scanned hscan
  obtain ⟨front, record, rear, split⟩ := scanned.split span hopt
  obtain ⟨head, before, here, behind⟩ := split.bounds scanned
  obtain ⟨-, inside, rfl⟩ := replaceSpan_eq_ok h
  obtain ⟨hheader, -⟩ := parseSections_eq_ok.1 scanned.parsed
  have header' := header_of_cut span.stop opt (head.trans before) (by omega) hheader
  have same : sections'.header = sections.header :=
    Except.ok.inj ((parseSections_eq_ok.1 parsed).1.symm.trans header')
  have low : ∀ i, i < span.start →
      (query.take span.start ++ opt ++ query.drop span.stop)[i]? = query[i]? :=
    fun i hi => cut_getElem?_front (by omega) hi
  have width : (query.take span.start).length = span.start := by
    simp
    omega
  have room : span.start ≤ (query.take span.start ++ opt ++ query.drop span.stop).length := by
    rw [List.length_append, List.length_append, width]
    omega
  have questions := (parseQuestions_spans scanned.questions).transfer (by omega)
    fun i _ hi => low i (by omega)
  have spans := (parseRecords_spans split.frontParsed).transfer room
    fun i _ hi _ => low i hi
  have total := parseRecords_length scanned.records
  rw [split.whole, List.length_append, List.length_cons] at total
  refine carriesDo_behind parsed (by rw [same]; exact questions) spans ?_ ?_ encoded ?_
  · rw [same, framesOf_length]
    exact split.additional
  · rw [same, framesOf_length]
    omega
  · intro k hk
    rw [List.append_assoc, List.getElem?_append_right (by omega), width, Nat.add_sub_cancel_left,
      List.getElem?_append_left hk]

theorem appended_carriesDo (hscan : scanPacket query = .ok layout) (encoded : queryOpt .dnssecOk size = .ok opt)
    (h : appendOpt query opt = .ok output) (parsed : parseSections output = .ok sections') : CarriesDo output := by
  obtain ⟨sections, middle, scanned⟩ := scanPacket_scanned hscan
  obtain ⟨hheader, -⟩ := parseSections_eq_ok.1 scanned.parsed
  simp only [appendOpt, hheader, ok_bind] at h
  split at h
  · simp at h
  · rename_i count
    split at h
    · simp at h
    · rw [pure_eq_ok] at h
      subst h
      obtain ⟨long, -⟩ := headerParse_eq_ok.1 hheader
      have head : dnsHeaderLen = 12 := rfl
      have joined : 12 ≤ (query ++ opt).length := by
        rw [List.length_append]
        omega
      have bound : 10 + (toBe16 (sections.header.additionalCount + 1)).length ≤ (query ++ opt).length := joined
      have small : sections.header.additionalCount + 1 < 65536 := by omega
      have header' := header_recounted hheader joined small fun i hi =>
        List.getElem?_append_left (by omega)
      have same := Except.ok.inj ((parseSections_eq_ok.1 parsed).1.symm.trans header')
      have kept : ∀ i, 12 ≤ i → i < query.length →
          (overwrite (query ++ opt) 10 (toBe16 (sections.header.additionalCount + 1)))[i]? =
            query[i]? := by
        intro i outside hi
        rw [overwrite_getElem?_of_lt bound (.inr outside), List.getElem?_append_left hi]
      have room : query.length ≤ (overwrite (query ++ opt) 10
          (toBe16 (sections.header.additionalCount + 1))).length := by
        rw [overwrite_length bound, List.length_append]
        omega
      have middle_le := (parseRecords_spans scanned.records).le
      have head_le := (parseQuestions_spans scanned.questions).le
      rw [scanned.stop] at middle_le
      have questions := (parseQuestions_spans scanned.questions).transfer (middle_le.trans room)
        fun i low hi => kept i (by omega) (by omega)
      have spans := (parseRecords_spans scanned.records).transfer
        (by rw [scanned.stop]; exact room)
        fun i low hi _ => kept i (by omega) (by rw [← scanned.stop]; exact hi)
      have total := parseRecords_length scanned.records
      have count : sections.header.totalRecords = sections.header.answerCount +
        sections.header.authorityCount + sections.header.additionalCount := rfl
      rw [scanned.stop] at spans
      refine carriesDo_behind parsed (by rw [same]; exact questions) spans ?_ ?_ encoded ?_
      · rw [same, framesOf_length, total, count]
        exact Nat.le_add_right _ _
      · rw [same, framesOf_length, total, count]
        change _ < sections.header.answerCount + sections.header.authorityCount +
          (sections.header.additionalCount + 1)
        omega
      · intro k hk
        rw [overwrite_getElem?_of_lt bound (.inr (by rw [toBe16_length]; omega)),
          List.getElem?_append_right (by omega), Nat.add_sub_cancel_left]

theorem prepareQuery_dnssecOk {outbound : PreparedQuery} (h : prepareQuery query .dnssecOk size = .ok outbound)
    (untagged : Untagged query) :
    outbound.managedOpt = true ∧ outbound.sentEdns = true ∧
      ∀ sections, parseSections outbound.packet = .ok sections → CarriesDo outbound.packet := by
  simp only [prepareQuery, bind_eq_ok] at h
  obtain ⟨-, -, layout, hscan, h⟩ := h
  simp only [untagged layout hscan, Bool.false_eq_true, if_false, FeatureLevel.usesEdns,
    Bool.not_true, bind_eq_ok] at h
  obtain ⟨opt, encoded, h⟩ := h
  split at h
  · rename_i span hopt
    simp only [bind_eq_ok, pure_eq_ok] at h
    obtain ⟨output, replaced, rfl⟩ := h
    exact ⟨rfl, rfl, fun sections parsed => replaced_carriesDo hscan hopt encoded replaced parsed⟩
  · simp only [bind_eq_ok, pure_eq_ok] at h
    obtain ⟨output, appended, rfl⟩ := h
    exact ⟨rfl, rfl, fun sections parsed => appended_carriesDo hscan encoded appended parsed⟩

end Resolved.Proof.Exchange
