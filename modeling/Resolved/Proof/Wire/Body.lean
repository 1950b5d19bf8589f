import Resolved.Proof.Wire.Relocate

/-!
# Names and the header
-/

namespace Resolved.Proof.Wire
open Lib Resolved.Wire Spec

theorem SameBody.length (same : SameBody packet other) (long : dnsHeaderLen < packet.length) :
    other.length = packet.length := by
  have last := same (packet.length - 1) (by omega)
  rw [List.getElem?_eq_getElem (by omega : packet.length - 1 < packet.length)] at last
  have above := getElem?_lt last
  have behind := same packet.length (by omega)
  rw [List.getElem?_eq_none (le_refl _), List.getElem?_eq_none_iff] at behind
  omega

theorem slice_sameBody {packet other : Packet} (same : SameBody packet other)
    (long : dnsHeaderLen < packet.length) {start stop : Nat} (body : dnsHeaderLen ≤ start) :
    slice other start stop = slice packet start stop := by
  have drops : other.drop start = packet.drop start := by
    apply List.ext_getElem?
    intro i
    rw [List.getElem?_drop, List.getElem?_drop]
    exact same (start + i) (by omega)
  simp only [slice, drops, SameBody.length same long]

theorem nameStep_sameBody (same : SameBody packet other) (long : dnsHeaderLen < packet.length)
    (body : dnsHeaderLen ≤ s.cursor) : nameStep other s = nameStep packet s := by
  simp only [nameStep, byteAt, same s.cursor body, same (s.cursor + 1) (by omega),
    slice_sameBody same long (by omega : dnsHeaderLen ≤ s.cursor + 1), SameBody.length same long]

theorem nameTurn_cursor (turn : NameTurn packet s (.more next)) : next.jumped = true ∨ s.cursor < next.cursor := by
  cases turn with
  | pointer first second byte tag byte' back inside steps => exact .inl rfl
  | label length label byte nonzero plain small part room =>
    right
    simp only [atLabel]
    omega

theorem mem_turnReads_ge (read : i ∈ turnReads packet s) : s.cursor ≤ i := by
  unfold turnReads at read
  split at read
  · simp at read
    omega
  · split at read
    · simp at read
      omega
    · rw [List.mem_range'] at read
      omega

section
variable {packet : Packet} (long : dnsHeaderLen < packet.length)
include long

theorem nameLoop_sameBody (same : SameBody packet other) (direct : s.jumped = false → dnsHeaderLen ≤ s.cursor)
    (clear : ∀ i ∈ jumpedReads packet fuel s, dnsHeaderLen ≤ i) :
    nameLoop other fuel s = nameLoop packet fuel s := by
  induction fuel generalizing s with
  | zero => rfl
  | succ fuel ih =>
    have body : dnsHeaderLen ≤ s.cursor := by
      cases jumped : s.jumped with
      | false => exact direct jumped
      | true =>
        apply clear
        apply mem_jumpedReads_here jumped
        unfold turnReads
        split
        · simp
        · split <;> simp [List.mem_range']
    simp only [nameLoop, nameStep_sameBody same long body]
    cases step : nameStep packet s with
    | error error => rfl
    | ok progress =>
      cases progress with
      | done final => rfl
      | more next =>
        have turn := nameStep_turn step
        apply ih
        · intro away
          rcases nameTurn_cursor turn with jumped | forward
          · rw [away] at jumped
            cases jumped
          · omega
        · exact fun i read => clear i (mem_jumpedReads_later turn read)

theorem nameLoop_enters_header (direct : s.jumped = false → dnsHeaderLen ≤ s.cursor)
    (enters : ∃ i ∈ jumpedReads packet fuel s, i < dnsHeaderLen) :
    ∃ fuel' entered, entered.cursor < dnsHeaderLen ∧ ∀ other, SameBody packet other →
      nameLoop other fuel s = nameLoop other (fuel' + 1) entered := by
  induction fuel generalizing s with
  | zero =>
    obtain ⟨i, read, -⟩ := enters
    cases read
  | succ fuel ih =>
    by_cases body : dnsHeaderLen ≤ s.cursor
    · obtain ⟨i, read, low⟩ := enters
      have outside : i ∉ if s.jumped then turnReads packet s else [] := by
        intro here
        split at here
        · have := mem_turnReads_ge here
          omega
        · cases here
      rw [jumpedReads, List.mem_append] at read
      have later := read.resolve_left outside
      cases step : nameStep packet s with
      | error error => simp [step] at later
      | ok progress =>
        cases progress with
        | done final => simp [step] at later
        | more next =>
          rw [step] at later
          have away : next.jumped = false → dnsHeaderLen ≤ next.cursor := by
            intro direct'
            rcases nameTurn_cursor (nameStep_turn step) with jumped | forward
            · rw [direct'] at jumped
              cases jumped
            · omega
          obtain ⟨fuel', entered, inside, alike⟩ := ih away ⟨i, later, low⟩
          refine ⟨fuel', entered, inside, fun other same => ?_⟩
          rw [← alike other same, nameLoop, nameStep_sameBody same long body, step]
          rfl
    · exact ⟨fuel, s, by omega, fun _ _ => rfl⟩

theorem header_decides (inside : s.cursor < dnsHeaderLen) (fuel : Nat) :
    ∃ ends refuses, SameBody packet ends ∧ SameBody packet refuses ∧
      (∃ final, nameLoop ends (fuel + 1) s = .ok final) ∧
      ∃ error, nameLoop refuses (fuel + 1) s = .error error := by
  have room : s.cursor < packet.length := by omega
  have kept : ∀ byte, SameBody packet (packet.set s.cursor byte) := by
    intro byte i body
    rw [List.getElem?_set_ne (by omega)]
  refine ⟨packet.set s.cursor 0, packet.set s.cursor 64, kept 0, kept 64, ?_, ?_⟩
  · exact ⟨atRoot s, nameLoop_succ_eq_ok.2 (.inl (.root (by simp [room])))⟩
  · refine ⟨.invalidLabel, ?_⟩
    have byte : (packet.set s.cursor 64)[s.cursor]? = some 64 := by simp [room]
    have refused : nameStep (packet.set s.cursor 64) s = .error .invalidLabel := by
      simp only [nameStep, byteAt, byte, okOr_some, ok_bind]
      rfl
    simp only [nameLoop, refused]
    rfl

end

/-- A name in the body reads the same under every header exactly when none of its compression
pointers leads into the header. -/
theorem readName_sameBody_iff (packet : Packet) (offset : Nat) (body : dnsHeaderLen ≤ offset) :
    (∀ other, SameBody packet other → readName other offset = readName packet offset) ↔
      ∀ i ∈ nameReads packet offset, dnsHeaderLen ≤ i := by
  by_cases inside : offset < packet.length
  · have long : dnsHeaderLen < packet.length := by omega
    have unfolded : ∀ other, SameBody packet other → readName other offset =
        (nameLoop other nameFuel (nameStart offset)).map fun s =>
          (⟨nameText s.labels, s.canonicalWire⟩, s.nextOffset) := by
      intro other same
      rw [readName, if_neg (by rw [SameBody.length same long]; omega)]
      cases nameLoop other nameFuel (nameStart offset) <;> rfl
    constructor
    · intro alike
      by_contra enters
      push Not at enters
      obtain ⟨fuel, entered, low, reaches⟩ :=
        nameLoop_enters_header long (s := nameStart offset) (fun _ => body) enters
      obtain ⟨ends, refuses, same, same', ⟨final, ended⟩, error, refused⟩ :=
        header_decides long low fuel
      have one := (alike ends same).trans (alike refuses same').symm
      rw [unfolded ends same, unfolded refuses same', reaches ends same, reaches refuses same', ended,
        refused] at one
      cases one
    · intro clear other same
      rw [unfolded other same, unfolded packet fun _ _ => rfl, nameLoop_sameBody long same (fun _ => body) clear]
  · constructor
    · intro _ i read
      have short : nameStep packet (nameStart offset) = .error .shortPacket := by
        simp [nameStep, nameStart, byteAt, List.getElem?_eq_none (not_lt.1 inside)]
      rw [nameReads, nameFuel, jumpedReads, short] at read
      simp [nameStart] at read
    · intro _ other same
      have outside : other.length ≤ offset := by
        rw [← List.getElem?_eq_none_iff, same offset body, List.getElem?_eq_none_iff]
        omega
      rw [readName, if_pos outside, readName, if_pos (by omega)]

def queryInClear : Packet :=
  [0, 7, 1, 0, 0, 1, 0, 0, 0, 0, 0, 0, 1, 97, 0, 0, 1, 0, 1]

theorem readName_sameBody_iff_queryInClear :
    (∀ i ∈ nameReads queryInClear dnsHeaderLen, dnsHeaderLen ≤ i) ∧ ∀ other, SameBody queryInClear other →
        readName other dnsHeaderLen = readName queryInClear dnsHeaderLen := by
  have clear : ∀ i ∈ nameReads queryInClear dnsHeaderLen, dnsHeaderLen ≤ i := by decide
  exact ⟨clear, (readName_sameBody_iff queryInClear dnsHeaderLen (le_refl _)).2 clear⟩

def queryNamedById : Packet :=
  [1, 97, 0, 0, 0, 1, 0, 0, 0, 0, 0, 0, 0xc0, 0, 0, 1, 0, 1]

theorem rewriteId_renames_question :
    validate queryNamedById false = .ok () ∧ (firstQuestion queryNamedById).map (·.name.text) = .ok ['a'] ∧
    (rewriteId queryNamedById 0 >>= firstQuestion).map (·.name.text) = .ok ['.'] ∧
    ∃ other, SameBody queryNamedById other ∧
      readName other dnsHeaderLen ≠ readName queryNamedById dnsHeaderLen := by
  refine ⟨by decide, by decide, by decide, overwrite queryNamedById 0 [0, 0], ?_, by decide⟩
  intro i body
  rw [overwrite_getElem?_of_lt (by decide) (.inr (by simp; unfold dnsHeaderLen at body; omega))]

end Resolved.Proof.Wire
