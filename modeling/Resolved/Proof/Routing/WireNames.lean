import Resolved.Proof.Wire.Text
import Resolved.Proof.Wire.Frame
import Resolved.Proof.Routing.Select

/-!
# Routing the names of queries
-/

namespace Resolved.Proof.Routing
open Lib Resolved.Wire Resolved.Routing Spec
open Resolved.Proof.Wire

def shownSize (byte : UInt8) : Nat := if ShowsItself byte then 1 else 4

def shownLength (label : Bytes) : Nat := (label.map shownSize).sum

structure Routable (labels : Labels) : Prop where
  sizes : ∀ label ∈ labels, shownLength label ≤ 63
  total : (labels.map fun label => shownLength label + 1).sum ≤ 254

theorem displayLabel_shownLength (label : Bytes) : (displayLabel label).length = shownLength label := by
  induction label with
  | nil => rfl
  | cons byte rest ih =>
    have first : (displayByte byte).length = shownSize byte := by
      unfold shownSize
      split
      · rename_i shown
        rw [displayByte_shown shown]
        rfl
      · rename_i hidden
        exact displayByte_hidden hidden
    simp only [displayLabel, shownLength, List.flatMap_cons, List.length_append, List.map_cons,
      List.sum_cons] at ih ⊢
    rw [first, ih]

def Tame (c : Char) : Prop := isWhitespace c = false ∧ c ≠ '~' ∧ c ≠ '.'

theorem displayByte_tame (byte : UInt8) : ∀ c ∈ displayByte byte, Tame c := by
  have table : ∀ byte, (displayByte byte).all
      (fun c => !isWhitespace c && c != '~' && c != '.') = true := by decide +kernel
  intro c member
  simpa [Tame, and_assoc] using List.all_eq_true.1 (table byte) c member

theorem displayLabel_tame {label : Bytes} : ∀ c ∈ displayLabel label, Tame c := by
  intro c member
  obtain ⟨byte, -, here⟩ := List.mem_flatMap.1 member
  exact displayByte_tame byte c here

theorem nameText_length {labels : Labels} (named : labels ≠ []) :
    (nameText (labels.map displayLabel)).length + 1 = (labels.map fun label => shownLength label + 1).sum := by
  induction labels with
  | nil => exact absurd rfl named
  | cons label labels ih =>
    by_cases more : labels = []
    · subst more
      simp [nameText, List.intercalate, displayLabel_shownLength]
    · rw [nameText_cons label more, List.map_cons, List.sum_cons, ← ih more]
      simp only [List.length_append, List.length_cons, displayLabel_shownLength]
      omega

theorem nameText_ends {labels : Labels} (sizes : ∀ label ∈ labels, 0 < label.length) (named : labels ≠ []) :
    (∃ c, (nameText (labels.map displayLabel)).head? = some c ∧ Tame c) ∧
      ∃ c, (nameText (labels.map displayLabel)).getLast? = some c ∧ Tame c := by
  induction labels with
  | nil => exact absurd rfl named
  | cons label labels ih =>
    have filled : displayLabel label ≠ [] := by
      have size := sizes label (by simp)
      have shown := displayLabel_length label
      exact List.ne_nil_of_length_pos (by omega)
    have first := displayLabel_tame _ (List.head_mem filled)
    have last := displayLabel_tame _ (List.getLast_mem filled)
    by_cases more : labels = []
    · subst more
      have whole : nameText ([label].map displayLabel) = displayLabel label := by
        simp [nameText, List.intercalate]
      rw [whole, List.head?_eq_some_head filled, List.getLast?_eq_some_getLast filled]
      exact ⟨⟨_, rfl, first⟩, _, rfl, last⟩
    · obtain ⟨-, c, ends, tame⟩ := ih (fun other member => sizes other (by simp [member])) more
      rw [nameText_cons label more]
      refine ⟨⟨(displayLabel label).head filled, ?_, first⟩, c, ?_, tame⟩
      · rw [List.head?_append_of_ne_nil _ filled, List.head?_eq_some_head filled]
      · rw [List.getLast?_append_of_ne_nil _ (by simp), List.getLast?_cons, ends]
        rfl

theorem nameText_ascii (labels : Labels) : isAscii (nameText (labels.map displayLabel)) = true := by
  unfold nameText
  split
  · rfl
  · exact intercalate_ascii labels

theorem nameText_untrimmed {labels : Labels} (legal : LegalName labels) (named : labels ≠ []) :
    trimEndWith (· == '.') (trim (nameText (labels.map displayLabel))) = nameText (labels.map displayLabel) := by
  obtain ⟨⟨first, starts, firstTame⟩, last, ends, lastTame⟩ := nameText_ends (fun label member => (legal.sizes label member).1) named
  generalize nameText (labels.map displayLabel) = text at starts ends
  have kept : text.dropWhile isWhitespace = text := by
    cases text with
    | nil => rfl
    | cons c rest =>
      cases starts
      rw [List.dropWhile_cons_of_neg (by simp [firstTame.1])]
  have stays : ∀ p : Char → Bool, p last = false → trimEndWith p text = text := by
    intro p away
    refine List.rdropWhile_eq_self_iff.2 fun filled => ?_
    rw [List.getLast?_eq_some_getLast filled, Option.some.injEq] at ends
    simp [ends, away]
  rw [trim, kept, stays isWhitespace lastTame.1, stays _ (by simpa using lastTame.2.2)]

theorem normalizeName_text {labels : Labels} (legal : LegalName labels) :
    (∃ name, normalizeName (nameText (labels.map displayLabel)) = .ok name) ↔ Routable labels := by
  by_cases named : labels = []
  · subst named
    exact iff_of_true ⟨['.'], by decide⟩ ⟨by simp, by simp⟩
  · have untrimmed := nameText_untrimmed legal named
    obtain ⟨⟨first, starts, tame⟩, -⟩ := nameText_ends (fun label member => (legal.sizes label member).1) named
    have ascii := nameText_ascii labels
    have length := nameText_length named
    have parts : splitAtChar '.' (nameText (labels.map displayLabel)) = labels.map displayLabel := by
      rw [nameText, if_neg (by simpa using named)]
      exact displayLabels_split named
    have filled : nameText (labels.map displayLabel) ≠ [] := by
      intro empty
      rw [empty] at starts
      cases starts
    have plain : nameText (labels.map displayLabel) ≠ ['~'] := by
      intro tilde
      rw [tilde] at starts
      cases starts
      exact tame.2.1 rfl
    have bare : (nameText (labels.map displayLabel)).head? ≠ some '~' := by
      rw [starts]
      exact fun same => tame.2.1 (Option.some.inj same)
    simp only [normalizeName, untrimmed]
    rw [if_neg (by simp [filled, plain]), if_neg bare, parts]
    have sizes : (labels.map displayLabel).any (fun label => label.isEmpty || 63 < label.length) = true ↔
        ∃ label ∈ labels, 63 < shownLength label := by
      simp only [List.any_map, List.any_eq_true, Function.comp_apply, Bool.or_eq_true, List.isEmpty_iff,
        decide_eq_true_eq, displayLabel_shownLength]
      apply exists_congr
      intro label
      apply and_congr_right
      intro member
      have size := (legal.sizes label member).1
      have shown := displayLabel_length label
      have nonempty : displayLabel label ≠ [] := List.ne_nil_of_length_pos (by omega)
      simp [nonempty]
    constructor
    · rintro ⟨name, normal⟩
      split at normal
      · cases normal
      · rename_i accepted
        push Not at accepted
        obtain ⟨-, -, short, small⟩ := accepted
        refine ⟨fun label member => ?_, by omega⟩
        by_contra long
        exact small (sizes.2 ⟨label, member, not_le.1 long⟩)
    · intro routable
      have short := routable.total
      refine ⟨_, if_neg ?_⟩
      rintro (empty | wide | long | big)
      · exact filled empty
      · simp [ascii] at wide
      · omega
      · obtain ⟨label, member, long⟩ := sizes.1 big
        exact absurd (routable.sizes label member) (not_le.2 long)

theorem select_ok_iff (table : RoutingTable) (name : Str) (globalServers fallbackServers : List SocketAddr)
    (globalDomains : List Domain) :
    (∃ scopes, table.select name none globalServers fallbackServers globalDomains = .ok scopes) ↔
      ∃ normal, normalizeName name = .ok normal := by
  simp only [RoutingTable.select, Option.filter_none, bind_eq_ok]
  constructor
  · rintro ⟨scopes, normal, accepted, -⟩
    exact ⟨normal, accepted⟩
  · rintro ⟨normal, accepted⟩
    rw [exists_comm]
    refine ⟨normal, ?_⟩
    simp only [accepted, true_and]
    split
    · exact ⟨_, rfl⟩
    · split
      · exact ⟨_, rfl⟩
      · exact ⟨_, rfl⟩

theorem validate_query {packet : Packet} (valid : validate packet false = .ok ()) :
    ∃ question, firstQuestion packet = .ok question ∧ parseQuestion packet dnsHeaderLen = .ok question := by
  obtain ⟨sections, parsed, checked⟩ := bind_eq_ok.1 valid
  obtain ⟨head, middle, asked, -⟩ := parseSections_eq_ok.1 parsed
  have one : sections.header.questionCount = 1 := by
    by_contra other
    simp only [Bool.not_false, Bool.true_and, bne_iff_ne, ne_eq, other, not_false_eq_true, if_true]
      at checked
    split at checked
    · cases checked
    · split at checked
      · cases checked
      · split at checked <;> cases checked
  rw [one] at asked
  obtain ⟨question, rest, -, here, -⟩ := parseQuestions_succ_eq_ok.1 asked
  refine ⟨question, ?_, here⟩
  rw [firstQuestion, head, ok_bind, if_neg (by simp [one])]
  exact here

/-- The question name of a valid query is routed, whatever the table and the servers, exactly when its
labels and the name are within the limits as they are written out. -/
theorem select_question_iff (packet : Packet) (valid : validate packet false = .ok ()) :
    ∃ question labels, firstQuestion packet = .ok question ∧ NameAt packet dnsHeaderLen labels ∧
      ∀ (table : RoutingTable) (globalServers fallbackServers : List SocketAddr) (globalDomains : List Domain),
        (∃ scopes, table.select question.name.text none globalServers fallbackServers globalDomains =
          .ok scopes) ↔ Routable labels := by
  obtain ⟨question, first, asked⟩ := validate_query valid
  obtain ⟨fixed, read, -⟩ := parseQuestion_eq_ok.1 asked
  obtain ⟨labels, here, legal, named⟩ := readName_labels read
  refine ⟨question, labels, first, here, fun table globalServers fallbackServers globalDomains => ?_⟩
  rw [select_ok_iff, named]
  exact normalizeName_text legal

def queryFor (label : Bytes) : Packet :=
  [0, 1, 1, 0, 0, 1, 0, 0, 0, 0, 0, 0] ++ UInt8.ofNat label.length :: label ++ [0, 0, 1, 0, 1]

theorem select_question_iff_host :
    ∃ question labels, firstQuestion (queryFor [110, 115]) = .ok question ∧
      NameAt (queryFor [110, 115]) dnsHeaderLen labels ∧
      ∀ (table : RoutingTable) (globalServers fallbackServers : List SocketAddr) (globalDomains : List Domain),
        (∃ scopes, table.select question.name.text none globalServers fallbackServers globalDomains =
          .ok scopes) ↔ Routable labels :=
  select_question_iff (queryFor [110, 115]) (by decide)

theorem select_refuses_spaces :
    validate (queryFor (List.replicate 16 32)) false = .ok () ∧
    ∃ question error, firstQuestion (queryFor (List.replicate 16 32)) = .ok question ∧
      RoutingTable.empty.select question.name.text none [.v4 ⟨192, 0, 2, 1⟩ 53] [] [] = .error error := by
  refine ⟨by decide, ⟨⟨(List.replicate 16 "\\032".toList).flatten, 16 :: List.replicate 16 32 ++ [0]⟩, 1, 1, 34⟩,
    .invalidDomain (List.replicate 16 "\\032".toList).flatten, ?_, ?_⟩
  · decide
  · decide

end Resolved.Proof.Routing
