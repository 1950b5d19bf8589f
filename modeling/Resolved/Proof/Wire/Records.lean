import Resolved.Proof.Wire.Frame
import Resolved.Spec.AnswerRecords

/-!
# Walks over the answer section
-/

namespace Resolved.Proof.Wire
open Lib Resolved.Wire Spec

section
variable {σ : Type} {packet : Packet} {visit : σ → ResourceRecord → Except WireError σ}

theorem walkRecords_eq_ok {count offset : Nat} {state final : σ} :
    walkRecords packet visit count offset state = .ok final ↔
      ∃ records stop, parseRecords packet count offset = .ok (records, stop) ∧
        records.foldlM visit state = .ok final := by
  induction count generalizing offset state with
  | zero =>
    constructor
    · intro walked
      exact ⟨[], offset, rfl, walked⟩
    · rintro ⟨records, stop, parsed, folded⟩
      simp only [parseRecords, Except.ok.injEq, Prod.mk.injEq] at parsed
      obtain ⟨rfl, -⟩ := parsed
      exact folded
  | succ count ih =>
    simp only [walkRecords, bind_eq_ok, ih, parseRecord_eq_ok]
    constructor
    · rintro ⟨record, parsed, next, visited, rest, stop, later, folded⟩
      refine ⟨record :: rest, stop, parseRecords_succ_eq_ok.2 ⟨record, rest, rfl, parsed, later⟩, ?_⟩
      rw [List.foldlM_cons, visited]
      exact folded
    · rintro ⟨records, stop, parsed, folded⟩
      obtain ⟨record, rest, rfl, first, later⟩ := parseRecords_succ_eq_ok.1 parsed
      rw [List.foldlM_cons, bind_eq_ok] at folded
      obtain ⟨next, visited, folded⟩ := folded
      exact ⟨record, first, next, visited, rest, stop, later, folded⟩

theorem walkAnswers_eq_ok {start final : σ} :
    walkAnswers packet visit start = .ok final ↔
      ∃ header questions offset records stop, Header.parse packet = .ok header ∧ header.isResponse = true ∧
        parseQuestions packet header.questionCount dnsHeaderLen = .ok (questions, offset) ∧
        parseRecords packet header.answerCount offset = .ok (records, stop) ∧
        records.foldlM visit start = .ok final := by
  simp only [walkAnswers, bind_eq_ok]
  constructor
  · rintro ⟨header, parsed, walked⟩
    cases response : header.isResponse with
    | false => simp [response] at walked
    | true =>
      simp only [response, Bool.not_true, Bool.false_eq_true, if_false, bind_eq_ok, Prod.exists,
        walkRecords_eq_ok] at walked
      obtain ⟨questions, offset, asked, records, stop, answered, folded⟩ := walked
      exact ⟨header, questions, offset, records, stop, parsed, response, asked, answered, folded⟩
  · rintro ⟨header, questions, offset, records, stop, parsed, response, asked, answered, folded⟩
    refine ⟨header, parsed, ?_⟩
    simp only [response, Bool.not_true, Bool.false_eq_true, if_false, bind_eq_ok, Prod.exists, walkRecords_eq_ok]
    exact ⟨questions, offset, asked, records, stop, answered, folded⟩

end

theorem parseRecords_parsed {packet : Packet} {count start stop : Nat} {records : List ResourceRecord}
    (h : parseRecords packet count start = .ok (records, stop)) :
    ∀ record ∈ records, ∃ start, ParsedRecord packet start record := by
  induction count generalizing start records with
  | zero =>
    simp only [parseRecords, Except.ok.injEq, Prod.mk.injEq] at h
    simp [← h.1]
  | succ count ih =>
    obtain ⟨record, rest, rfl, parsed, later⟩ := parseRecords_succ_eq_ok.1 h
    intro other member
    rcases List.mem_cons.1 member with rfl | member
    · exact ⟨start, parsed⟩
    · exact ih later other member

theorem foldlM_collect {α β ε : Type} {make : α → Except ε β} {values : List α} {start final : List β} :
    values.foldlM (fun output value => do return output ++ [← make value]) start = .ok final ↔
      ∃ made, List.Forall₂ (fun value result => make value = .ok result) values made ∧ final = start ++ made := by
  induction values generalizing start with
  | nil =>
    constructor
    · intro folded
      cases folded
      exact ⟨[], .nil, by simp⟩
    · rintro ⟨made, each, rfl⟩
      cases each
      simp [pure, Except.pure]
  | cons value rest ih =>
    rw [List.foldlM_cons, bind_eq_ok]
    constructor
    · rintro ⟨next, first, folded⟩
      rw [bind_eq_ok] at first
      obtain ⟨result, here, same⟩ := first
      cases pure_eq_ok.1 same
      obtain ⟨made, each, rfl⟩ := ih.1 folded
      exact ⟨result :: made, .cons here each, by simp⟩
    · rintro ⟨made, each, rfl⟩
      cases each with
      | @cons _ result _ made here each =>
        refine ⟨start ++ [result], ?_, ih.2 ⟨made, each, by simp⟩⟩
        rw [here]
        rfl

theorem answerSection_eq_ok :
    answerSection packet = .ok records ↔ ∃ header questions offset stop, Header.parse packet = .ok header ∧
        header.isResponse = true ∧
        parseQuestions packet header.questionCount dnsHeaderLen = .ok (questions, offset) ∧
        parseRecords packet header.answerCount offset = .ok (records, stop) := by
  have collect : ∀ (values start : List ResourceRecord),
      values.foldlM (fun records record => (.ok (records ++ [record]) :
        Except WireError (List ResourceRecord))) start = .ok (start ++ values) := by
    intro values
    induction values with
    | nil => simp [pure, Except.pure]
    | cons value rest ih =>
      intro start
      rw [List.foldlM_cons, ok_bind, ih]
      simp
  rw [answerSection, walkAnswers_eq_ok]
  constructor
  · rintro ⟨header, questions, offset, parsed, stop, head, response, asked, answered, folded⟩
    rw [collect] at folded
    cases folded
    exact ⟨header, questions, offset, stop, head, response, asked, answered⟩
  · rintro ⟨header, questions, offset, stop, head, response, asked, answered⟩
    exact ⟨header, questions, offset, records, stop, head, response, asked, answered, by rw [collect]; rfl⟩

theorem walkAnswers_section {σ : Type} {packet : Packet} {visit : σ → ResourceRecord → Except WireError σ}
    {start final : σ} :
    walkAnswers packet visit start = .ok final ↔
      ∃ records, answerSection packet = .ok records ∧ records.foldlM visit start = .ok final := by
  simp only [walkAnswers_eq_ok, answerSection_eq_ok]
  constructor
  · rintro ⟨header, questions, offset, records, stop, head, response, asked, answered, folded⟩
    exact ⟨records, ⟨header, questions, offset, stop, head, response, asked, answered⟩, folded⟩
  · rintro ⟨records, ⟨header, questions, offset, stop, head, response, asked, answered⟩, folded⟩
    exact ⟨header, questions, offset, records, stop, head, response, asked, answered, folded⟩

theorem answerSection_parsed (known : answerSection packet = .ok records) :
    ∀ record ∈ records, ∃ start, ParsedRecord packet start record := by
  obtain ⟨header, questions, offset, stop, -, -, -, answered⟩ := answerSection_eq_ok.1 known
  exact parseRecords_parsed answered

end Resolved.Proof.Wire
