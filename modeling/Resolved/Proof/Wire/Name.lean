import Resolved.Wire.Codec

namespace Resolved.Proof.Wire
open Lib Resolved.Wire

variable {packet : Packet} {offset start stop : Nat} {byte : UInt8}

@[simp] theorem byteAt_eq_ok : byteAt packet offset = .ok byte ↔ packet[offset]? = some byte := by
  simp [byteAt]

theorem readU16_eq_ok :
    readU16 packet offset = .ok value ↔
      ∃ a b, packet[offset]? = some a ∧ packet[offset + 1]? = some b ∧ be16 a b = value := by
  simp only [readU16, bind_eq_ok, byteAt_eq_ok, pure_eq_ok, exists_and_left]

theorem readU32_eq_ok :
    readU32 packet offset = .ok value ↔ ∃ a b c d, packet[offset]? = some a ∧ packet[offset + 1]? = some b ∧
        packet[offset + 2]? = some c ∧ packet[offset + 3]? = some d ∧ be32 a b c d = value := by
  simp only [readU32, bind_eq_ok, byteAt_eq_ok, pure_eq_ok, exists_and_left]

theorem readU16_congr (same : ∀ k, k < 2 → other[offset' + k]? = packet[offset + k]?) :
    readU16 other offset' = readU16 packet offset := by
  have first := same 0 (by omega)
  have second := same 1 (by omega)
  simp only [Nat.add_zero] at first
  simp only [readU16, byteAt, first, second]

theorem readU32_congr (same : ∀ k, k < 4 → other[offset' + k]? = packet[offset + k]?) :
    readU32 other offset' = readU32 packet offset := by
  have first := same 0 (by omega)
  simp only [Nat.add_zero] at first
  simp only [readU32, byteAt, first, same 1 (by omega), same 2 (by omega), same 3 (by omega)]

theorem readU16_of_slice (small : value < 65536)
    (written : slice packet offset (offset + 2) = some (toBe16 value)) : readU16 packet offset = .ok value := by
  have first := slice_getElem? written 0 (by omega)
  have second := slice_getElem? written 1 (by omega)
  exact readU16_eq_ok.2 ⟨_, _, first.symm, second.symm, be16_toBe16 value small⟩

theorem slice_of_readU16 (read : readU16 packet offset = .ok value) :
    slice packet offset (offset + 2) = some (toBe16 value) := by
  obtain ⟨a, b, first, second, rfl⟩ := readU16_eq_ok.1 read
  have inside := (List.getElem?_eq_some_iff.1 second).1
  refine slice_eq_some.2 ⟨by omega, by omega, ?_⟩
  rw [toBe16_be16, Nat.add_sub_cancel_left]
  apply List.ext_getElem?
  intro i
  match i with
  | 0 => simpa using first.symm
  | 1 => simpa [List.getElem?_take] using second.symm
  | i + 2 => simp

theorem readU32_of_slice (small : value < 2 ^ 32)
    (written : slice packet offset (offset + 4) = some (toBe32 value)) : readU32 packet offset = .ok value := by
  obtain ⟨-, -, whole⟩ := slice_eq_some.1 written
  refine readU32_eq_ok.2 ⟨_, _, _, _, (slice_getElem? written 0 (by omega)).symm,
    (slice_getElem? written 1 (by omega)).symm, (slice_getElem? written 2 (by omega)).symm,
    (slice_getElem? written 3 (by omega)).symm, ?_⟩
  simp [be32]
  omega

theorem readU16_lt (h : readU16 packet offset = .ok value) : value < 65536 := by
  obtain ⟨a, b, -, -, rfl⟩ := readU16_eq_ok.1 h
  exact be16_lt a b

theorem readU32_lt (h : readU32 packet offset = .ok value) : value < 2 ^ 32 := by
  obtain ⟨a, b, c, d, -, -, -, -, rfl⟩ := readU32_eq_ok.1 h
  exact be32_lt a b c d

theorem getElem?_lt (h : packet[offset]? = some byte) : offset < packet.length :=
  (List.getElem?_eq_some_iff.1 h).1

def atRoot (s : NameCursor) : NameCursor :=
  { s with
    nextOffset := if s.jumped then s.nextOffset else s.cursor + 1
    canonicalWire := s.canonicalWire ++ [0] }

def atPointer (s : NameCursor) (pointer : Nat) : NameCursor :=
  { s with
    nextOffset := if s.jumped then s.nextOffset else s.cursor + 2
    jumped := true
    cursor := pointer
    pointerSteps := s.pointerSteps + 1 }

def atLabel (s : NameCursor) (length : UInt8) (label : Bytes) : NameCursor :=
  { s with
    cursor := s.cursor + 1 + length.toNat
    nextOffset := if s.jumped then s.nextOffset else s.cursor + 1 + length.toNat
    expandedLength := s.expandedLength + (length.toNat + 1)
    labels := s.labels ++ [displayLabel label]
    canonicalWire := s.canonicalWire ++ length :: label.map asciiLower }

inductive NameTurn (packet : Packet) (s : NameCursor) : NameProgress → Prop
  | root (zero : packet[s.cursor]? = some 0) : NameTurn packet s (.done (atRoot s))
  | pointer (first second : UInt8) (byte : packet[s.cursor]? = some first)
      (tag : first &&& 0xc0 = 0xc0) (byte' : packet[s.cursor + 1]? = some second)
      (back : pointerTarget first second < s.cursor)
      (inside : pointerTarget first second < packet.length) (steps : s.pointerSteps < 128) :
      NameTurn packet s (.more (atPointer s (pointerTarget first second)))
  | label (length : UInt8) (label : Bytes) (byte : packet[s.cursor]? = some length)
      (nonzero : length ≠ 0) (plain : length &&& 0xc0 = 0) (small : length ≤ 63)
      (part : slice packet (s.cursor + 1) (s.cursor + 1 + length.toNat) = some label)
      (room : s.expandedLength + (length.toNat + 1) ≤ 255) :
      NameTurn packet s (.more (atLabel s length label))

theorem nameStep_turn (h : nameStep packet s = .ok progress) : NameTurn packet s progress := by
  unfold nameStep at h
  simp only [bind_eq_ok, byteAt_eq_ok] at h
  obtain ⟨length, byte, h⟩ := h
  split at h
  · rename_i zero
    rw [pure_eq_ok] at h
    subst h zero
    exact .root byte
  · rename_i nonzero
    split at h
    · rename_i tag
      simp only [bind_eq_ok, byteAt_eq_ok] at h
      obtain ⟨second, byte', h⟩ := h
      split at h
      · simp at h
      · rename_i bounds
        split at h
        · simp at h
        · rename_i steps
          rw [pure_eq_ok] at h
          subst h
          exact .pointer length second byte tag byte' (by omega) (by omega) (by omega)
    · split at h
      · simp at h
      · rename_i masked
        simp only [bind_eq_ok, okOr_eq_ok] at h
        obtain ⟨label, part, h⟩ := h
        split at h
        · simp at h
        · rename_i room
          rw [pure_eq_ok] at h
          subst h
          push Not at masked
          exact .label length label byte nonzero masked.1 (by simpa using masked.2) part (by omega)

theorem nameStep_of_turn (turn : NameTurn packet s progress) : nameStep packet s = .ok progress := by
  cases turn with
  | root zero => simp [nameStep, byteAt, zero, atRoot, pure, Except.pure]
  | pointer first second byte tag byte' back inside steps =>
    have nonzero : first ≠ 0 := by
      rintro rfl
      simp at tag
    simp only [nameStep, byteAt, byte, byte', okOr_some, ok_bind, if_neg nonzero, if_pos tag]
    rw [if_neg (by omega), if_neg (by omega)]
    rfl
  | label length label byte nonzero plain small part room =>
    have untagged : length &&& 0xc0 ≠ 0xc0 := by
      rw [plain]
      decide
    simp only [nameStep, byteAt, byte, okOr_some, ok_bind, if_neg nonzero, if_neg untagged]
    rw [if_neg (by simpa [plain] using small)]
    simp only [part, okOr_some, ok_bind]
    rw [if_neg (by omega)]
    rfl

theorem nameLoop_succ_eq_ok :
    nameLoop packet (fuel + 1) s = .ok final ↔ NameTurn packet s (.done final) ∨
        ∃ next, NameTurn packet s (.more next) ∧ nameLoop packet fuel next = .ok final := by
  simp only [nameLoop, bind_eq_ok]
  constructor
  · rintro ⟨progress, step, rest⟩
    cases progress with
    | done s' =>
      rw [pure_eq_ok] at rest
      subst rest
      exact .inl (nameStep_turn step)
    | more s' => exact .inr ⟨s', nameStep_turn step, rest⟩
  · rintro (turn | ⟨next, turn, rest⟩)
    · exact ⟨_, nameStep_of_turn turn, rfl⟩
    · exact ⟨_, nameStep_of_turn turn, rest⟩

inductive NameSpan (packet : Packet) : Nat → Nat → Prop
  | root {start : Nat} (zero : packet[start]? = some 0) : NameSpan packet start (start + 1)
  | pointer {start : Nat} {first second : UInt8} (byte : packet[start]? = some first)
      (tag : first &&& 0xc0 = 0xc0) (byte' : packet[start + 1]? = some second) :
      NameSpan packet start (start + 2)
  | label {start stop : Nat} {length : UInt8} (byte : packet[start]? = some length)
      (nonzero : length ≠ 0) (plain : length &&& 0xc0 = 0)
      (rest : NameSpan packet (start + 1 + length.toNat) stop) : NameSpan packet start stop

theorem nameLoop_jumped (jumped : s.jumped = true) (h : nameLoop packet fuel s = .ok final) :
    final.nextOffset = s.nextOffset := by
  induction fuel generalizing s with
  | zero => simp [nameLoop] at h
  | succ fuel ih =>
    rcases nameLoop_succ_eq_ok.1 h with turn | ⟨next, turn, rest⟩
    · cases turn with
      | root zero => simp [atRoot, jumped]
    · cases turn with
      | pointer first second byte tag byte' back inside steps =>
        rw [ih rfl rest]
        simp [atPointer, jumped]
      | label length label byte nonzero plain small part room =>
        rw [ih (s := atLabel s length label) jumped rest]
        simp [atLabel, jumped]

theorem nameLoop_span (direct : s.jumped = false) (h : nameLoop packet fuel s = .ok final) :
    NameSpan packet s.cursor final.nextOffset := by
  induction fuel generalizing s with
  | zero => simp [nameLoop] at h
  | succ fuel ih =>
    rcases nameLoop_succ_eq_ok.1 h with turn | ⟨next, turn, rest⟩
    · cases turn with
      | root zero => simpa [atRoot, direct] using NameSpan.root zero
    · cases turn with
      | pointer first second byte tag byte' back inside steps =>
        rw [nameLoop_jumped rfl rest]
        simpa [atPointer, direct] using NameSpan.pointer byte tag byte'
      | label length label byte nonzero plain small part room =>
        exact .label byte nonzero plain (ih (s := atLabel s length label) direct rest)

theorem readName_eq_ok {next : Nat} {name : DnsName} :
    readName packet offset = .ok (name, next) ↔ ∃ s, nameLoop packet nameFuel (nameStart offset) = .ok s ∧
        name = ⟨nameText s.labels, s.canonicalWire⟩ ∧ next = s.nextOffset := by
  unfold readName
  split
  · rename_i outside
    constructor
    · intro h
      cases h
    · rintro ⟨s, loop, -, -⟩
      -- the first turn reads the byte at `offset`
      rcases nameLoop_succ_eq_ok.1 loop with turn | ⟨_, turn, -⟩ <;> cases turn
      all_goals
        have := getElem?_lt ‹packet[(nameStart offset).cursor]? = some _›
        simp only [nameStart] at this
        omega
  · simp only [bind_eq_ok, pure_eq_ok, Prod.mk.injEq]
    simp only [eq_comm]

theorem readName_root (zero : packet[offset]? = some 0) :
    readName packet offset = .ok (⟨['.'], [0]⟩, offset + 1) := by
  refine readName_eq_ok.2 ⟨atRoot (nameStart offset), ?_, rfl, rfl⟩
  exact nameLoop_succ_eq_ok.2 (.inl (.root zero))

theorem readName_span (h : readName packet offset = .ok (name, next)) : NameSpan packet offset next := by
  obtain ⟨s, loop, -, rfl⟩ := readName_eq_ok.1 h
  exact nameLoop_span (s := nameStart offset) rfl loop

namespace NameSpan

theorem lt (span : NameSpan packet start stop) : start < stop := by
  induction span with
  | root zero => omega
  | pointer byte tag byte' => omega
  | label byte nonzero plain rest ih => omega

theorem unique {stop' : Nat} (span : NameSpan packet start stop) (span' : NameSpan packet start stop') :
    stop = stop' := by
  induction span with
  | root zero =>
    cases span' with
    | root zero' => rfl
    | pointer byte tag byte' =>
      rw [zero, Option.some.injEq] at byte
      subst byte
      simp at tag
    | label byte nonzero plain rest =>
      rw [zero, Option.some.injEq] at byte
      exact absurd byte.symm nonzero
  | pointer byte tag byte' =>
    cases span' with
    | root zero' =>
      rw [byte, Option.some.injEq] at zero'
      subst zero'
      simp at tag
    | pointer _ _ _ => rfl
    | label byte' nonzero plain rest =>
      rw [byte, Option.some.injEq] at byte'
      subst byte'
      rw [tag] at plain
      simp at plain
  | label byte nonzero plain rest ih =>
    cases span' with
    | root zero' =>
      rw [byte, Option.some.injEq] at zero'
      exact absurd zero' nonzero
    | pointer byte' tag _ =>
      rw [byte, Option.some.injEq] at byte'
      subst byte'
      rw [tag] at plain
      simp at plain
    | label byte' _ _ rest' =>
      rw [byte, Option.some.injEq] at byte'
      subst byte'
      exact ih rest'

theorem transfer {packet other : Packet} {start stop start' : Nat} (span : NameSpan packet start stop)
    (same : ∀ k, start + k < stop → other[start' + k]? = packet[start + k]?) :
    NameSpan other start' (start' + (stop - start)) := by
  induction span generalizing start' with
  | @root start zero =>
    have here := same 0 (by omega)
    rw [Nat.add_sub_cancel_left]
    exact .root (here.trans zero)
  | @pointer start first second byte tag byte' =>
    have here := same 0 (by omega)
    have after := same 1 (by omega)
    rw [Nat.add_sub_cancel_left]
    exact .pointer (here.trans byte) tag (after.trans byte')
  | @label start stop length byte nonzero plain rest ih =>
    have here := same 0 (by have := rest.lt; omega)
    have behind := @ih (start' + 1 + length.toNat) fun k hk => by
      have := same (1 + length.toNat + k) (by omega)
      simpa only [Nat.add_assoc] using this
    have past := rest.lt
    have width : start' + 1 + length.toNat + (stop - (start + 1 + length.toNat)) =
        start' + (stop - start) := by omega
    rw [width] at behind
    exact .label (here.trans byte) nonzero plain behind

end NameSpan

end Resolved.Proof.Wire
