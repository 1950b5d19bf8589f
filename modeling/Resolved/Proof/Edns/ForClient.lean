import Resolved.Proof.Edns.OptEdit
import Resolved.Proof.Wire.RecordTypes

/-!
# Responses made ready for a client
-/

namespace Resolved.Proof.Edns
open Lib Resolved.Wire Resolved.Edns Spec Proof.Wire

theorem removeOpt_lacks (scans : scanPacket packet = .ok layout) (found : layout.opt = some span)
    (removes : removeOpt packet span = .ok output) : Lacks output typeOpt := by
  obtain ⟨sections, middle, scanned⟩ := scanPacket_scanned scans
  obtain ⟨front, opt, rear, split⟩ := scanned.split span found
  obtain ⟨head, before, here, behind⟩ := split.bounds scanned
  obtain ⟨header, -⟩ := parseSections_eq_ok.1 scanned.parsed
  have spliced := removeOpt_spliced removes header (head.trans before) here
  obtain ⟨positive, header'⟩ := removeOpt_header removes header (head.trans before) here
  have length := spliced.length
  have whole := scanned.stop
  have questions := (parseQuestions_spans scanned.questions).transfer (by omega)
    fun i low high => spliced.front i low (by omega)
  have fronts := (parseRecords_spans split.frontParsed).transfer (by omega)
    fun i low high _ => spliced.front i (by omega) high
  obtain ⟨frames, rears, types⟩ := @RecordSpans.move packet output _ _ _ span.start
    (parseRecords_spans split.rearParsed) (by omega) fun k within => by
      have moved := spliced.rear (span.stop + k) (by omega)
      rw [← moved]
      congr 1
      omega
  have count : front.length + rear.length = sections.header.answerCount +
      sections.header.authorityCount + (sections.header.additionalCount - 1) := by
    have total := parseRecords_length scanned.records
    rw [split.whole, List.length_append, List.length_cons] at total
    unfold Header.totalRecords at total
    omega
  have sizes : frames.length = rear.length := by
    have := congrArg List.length types
    simpa [framesOf_length] using this
  refine lacks_of_frames ⟨header', questions, RecordSpans.append fronts rears, ?_⟩ ?_
  · rw [List.length_append, framesOf_length, sizes, count]
    rfl
  · intro frame mem same
    have typed : typeOpt ∈ (front ++ rear).map (·.rrType) := by
      rw [List.map_append, ← framesOf_types middle front, ← framesOf_types span.stop rear, ← types,
        ← List.map_append, ← same]
      exact List.mem_map_of_mem mem
    obtain ⟨record, member, isOpt⟩ := List.mem_map.1 typed
    rcases List.mem_append.1 member with ahead | after
    · exact split.frontOther record ahead isOpt
    · exact split.rearOther record after isOpt

theorem plain_layout {query : Packet} {layout : PacketLayout} (scans : scanPacket query = .ok layout)
    (plain : Plain query) : layout.hasTsig = false ∧ layout.opt = none := by
  obtain ⟨sections, middle, scanned⟩ := scanPacket_scanned scans
  constructor
  · rw [scanned.tsig, List.any_eq_false]
    intro record member tagged
    exact hasType_eq_false.1 plain.2 sections scanned.parsed record member (by simpa using tagged)
  · cases found : layout.opt with
    | none => rfl
    | some span =>
      obtain ⟨front, opt, rear, split⟩ := scanned.split span found
      refine absurd split.optType (hasType_eq_false.1 plain.1 sections scanned.parsed opt ?_)
      rw [split.whole]
      simp

theorem responseForClient_lacks {query response output : Packet} (plain : Plain query)
    (ready : responseForClient query response = .ok output) : Lacks output typeOpt := by
  simp only [responseForClient, bind_eq_ok] at ready
  obtain ⟨-, -, -, -, layout, scans, ready⟩ := ready
  obtain ⟨untagged, absent⟩ := plain_layout scans plain
  simp only [untagged, absent, Option.isSome_none, Bool.false_eq_true, or_self, if_false, bind_eq_ok] at ready
  obtain ⟨layout', scans', ready⟩ := ready
  cases found : layout'.opt with
  | none =>
    simp only [found, pure_eq_ok] at ready
    subst ready
    obtain ⟨sections, middle, scanned⟩ := scanPacket_scanned scans'
    exact (lacks_iff scanned.parsed typeOpt).2 (scanned.plain found)
  | some span =>
    simp only [found, bind_eq_ok] at ready
    obtain ⟨_, -, _, -, rcode, -, cut, removes, ready⟩ := ready
    have lacks := removeOpt_lacks scans' found removes
    split at ready
    · simp only [bind_eq_ok, pure_eq_ok] at ready
      obtain ⟨flags, reads, rfl⟩ := ready
      obtain ⟨_, _, -, high, -⟩ := readU16_eq_ok.1 reads
      exact overwrite_lacks (getElem?_lt high) le_rfl lacks
    · cases ready
      exact lacks

end Resolved.Proof.Edns
