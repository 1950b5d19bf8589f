import Resolved.Spec.Names
import Resolved.Proof.Wire.Frame

/-!
# Moving a name
-/

namespace Resolved.Proof.Wire
open Lib Resolved.Wire Spec

def moveCursor (origin target : Nat) (s : NameCursor) : NameCursor :=
  { s with
    cursor := if s.jumped then s.cursor else s.cursor - origin + target
    nextOffset := s.nextOffset - origin + target }

structure Movable (packet other : Packet) (origin target stop : Nat) (reads : List Nat) : Prop where
  direct : ∀ i, origin ≤ i → i < stop → other[i - origin + target]? = packet[i]?
  kept : ∀ i ∈ reads, other[i]? = packet[i]?
  back : origin ≤ target ∨ ∀ i ∈ reads, i < target

theorem turnReads_pointer {packet : Packet} {s : NameCursor} {first : UInt8}
    (byte : packet[s.cursor]? = some first) (tag : first &&& 0xc0 = 0xc0) :
    turnReads packet s = [s.cursor, s.cursor + 1] := by
  simp [turnReads, byte, tag]

theorem turnReads_plain {packet : Packet} {s : NameCursor} {length : UInt8}
    (byte : packet[s.cursor]? = some length) (plain : length &&& 0xc0 = 0) :
    turnReads packet s = List.range' s.cursor (length.toNat + 1) := by
  have untagged : length &&& 0xc0 ≠ 0xc0 := by
    rw [plain]
    decide
  simp [turnReads, byte, untagged]

theorem mem_jumpedReads_here (jumped : s.jumped = true) (h : i ∈ turnReads packet s) :
    i ∈ jumpedReads packet (fuel + 1) s := by
  simp [jumpedReads, jumped, h]

theorem mem_jumpedReads_later (turn : NameTurn packet s (.more next)) (h : i ∈ jumpedReads packet fuel next) :
    i ∈ jumpedReads packet (fuel + 1) s := by
  simp [jumpedReads, nameStep_of_turn turn, h]

theorem turn_octet (movable : Movable packet other origin target stop (jumpedReads packet (fuel + 1) s))
    (above : s.jumped = false → origin ≤ s.cursor) (k : Nat) (direct : s.jumped = false → s.cursor + k < stop)
    (read : s.cursor + k ∈ turnReads packet s) :
    other[(moveCursor origin target s).cursor + k]? = packet[s.cursor + k]? := by
  cases jumped : s.jumped with
  | true =>
    simp only [moveCursor, jumped, if_true]
    exact movable.kept _ (mem_jumpedReads_here jumped read)
  | false =>
    have low := above jumped
    have found := movable.direct (s.cursor + k) (by omega) (direct jumped)
    have place : s.cursor + k - origin + target = s.cursor - origin + target + k := by omega
    simp only [moveCursor, jumped, Bool.false_eq_true, if_false]
    rwa [place] at found

theorem moveCursor_atRoot (above : s.jumped = false → origin ≤ s.cursor) :
    moveCursor origin target (atRoot s) = atRoot (moveCursor origin target s) := by
  cases jumped : s.jumped with
  | true => simp [moveCursor, atRoot, jumped]
  | false =>
    have := above jumped
    simp only [moveCursor, atRoot, jumped, NameCursor.mk.injEq]
    simp
    omega

theorem moveCursor_atPointer (above : s.jumped = false → origin ≤ s.cursor) :
    moveCursor origin target (atPointer s pointer) = atPointer (moveCursor origin target s) pointer := by
  cases jumped : s.jumped with
  | true => simp [moveCursor, atPointer, jumped]
  | false =>
    have := above jumped
    simp only [moveCursor, atPointer, jumped, NameCursor.mk.injEq]
    simp
    omega

theorem moveCursor_atLabel {origin target : Nat} {s : NameCursor} {length : UInt8} {label : Bytes}
    (above : s.jumped = false → origin ≤ s.cursor) :
    moveCursor origin target (atLabel s length label) = atLabel (moveCursor origin target s) length label := by
  cases jumped : s.jumped with
  | true => simp [moveCursor, atLabel, jumped]
  | false =>
    have := above jumped
    simp only [moveCursor, atLabel, jumped, NameCursor.mk.injEq]
    simp
    omega

theorem nameLoop_move (loop : nameLoop packet fuel s = .ok final) (above : s.jumped = false → origin ≤ s.cursor)
    (started : origin ≤ s.nextOffset)
    (movable : Movable packet other origin target final.nextOffset (jumpedReads packet fuel s)) :
    nameLoop other fuel (moveCursor origin target s) = .ok (moveCursor origin target final) := by
  induction fuel generalizing s with
  | zero => simp [nameLoop] at loop
  | succ fuel ih =>
    have octet := turn_octet movable above
    apply nameLoop_succ_eq_ok.2
    rcases nameLoop_succ_eq_ok.1 loop with turn | ⟨next, turn, rest⟩
    · left
      cases turn with
      | root zero =>
        have here := octet 0 (by
          intro direct
          simp [atRoot, direct]) (by simp [turnReads_plain zero (by decide)])
        rw [moveCursor_atRoot above]
        exact .root (here.trans zero)
    · right
      -- the octets read later are among those read now
      have later : Movable packet other origin target final.nextOffset
          (jumpedReads packet fuel next) :=
        ⟨movable.direct, fun i hi => movable.kept i (mem_jumpedReads_later turn hi),
          movable.back.imp_right fun low i hi => low i (mem_jumpedReads_later turn hi)⟩
      cases turn with
      | pointer first second byte tag byte' back inside steps =>
        have ends : s.jumped = false → final.nextOffset = s.cursor + 2 := by
          intro direct
          rw [nameLoop_jumped rfl rest]
          simp [atPointer, direct]
        have reads := turnReads_pointer byte tag
        have here := octet 0 (fun direct => by rw [ends direct]; omega) (by simp [reads])
        have after := octet 1 (fun direct => by rw [ends direct]; omega) (by simp [reads])
        have target_read : pointerTarget first second ∈
            jumpedReads packet fuel (atPointer s (pointerTarget first second)) := by
          cases fuel with
          | zero => simp [nameLoop] at rest
          | succ fuel =>
            apply mem_jumpedReads_here rfl
            unfold turnReads
            split
            · simp [atPointer]
            · split <;> simp [atPointer, List.mem_range']
        have inside' : pointerTarget first second < other.length := by
          have found := later.kept _ target_read
          rw [List.getElem?_eq_getElem inside] at found
          exact getElem?_lt found
        have back' : pointerTarget first second < (moveCursor origin target s).cursor := by
          simp only [moveCursor]
          split
          · exact back
          · rename_i direct
            have low := above (by simpa using direct)
            rcases later.back with grows | near
            · omega
            · have := near _ target_read
              omega
        refine ⟨_, .pointer first second (here.trans byte) tag (after.trans byte') back'
          inside' steps, ?_⟩
        have step := ih rest (by simp [atPointer]) (by
          simp only [atPointer]
          split
          · exact started
          · rename_i direct
            have low := above (by simpa using direct)
            omega) later
        rwa [moveCursor_atPointer above] at step
      | label length label byte nonzero plain small part room =>
        have past : s.jumped = false → s.cursor + 1 + length.toNat < final.nextOffset := by
          intro direct
          exact (nameLoop_span (s := atLabel s length label) direct rest).lt
        have reads := turnReads_plain byte plain
        have here := octet 0 (fun direct => by have := past direct; omega)
          (by simp [reads, List.mem_range'])
        have part' : slice other ((moveCursor origin target s).cursor + 1)
            ((moveCursor origin target s).cursor + 1 + length.toNat) = some label := by
          refine slice_congr (getElem?_lt (here.trans byte)) (fun k hk => ?_) part
          have found := octet (1 + k) (fun direct => by have := past direct; omega)
            (by
              rw [reads, List.mem_range']
              exact ⟨1 + k, by omega, by omega⟩)
          rwa [← Nat.add_assoc, ← Nat.add_assoc] at found
        refine ⟨_, .label length label (here.trans byte) nonzero plain small part' room, ?_⟩
        have step := ih (s := atLabel s length label) rest
          (fun direct => by have := above direct; simp only [atLabel]; omega) (by
            simp only [atLabel]
            split
            · exact started
            · rename_i direct
              have low := above (by simpa using direct)
              omega) later
        rwa [moveCursor_atLabel above] at step

theorem readName_move {packet other : Packet} {origin target stop : Nat} {name : DnsName}
    (h : readName packet origin = .ok (name, stop))
    (movable : Movable packet other origin target stop (nameReads packet origin)) :
    readName other target = .ok (name, target + (stop - origin)) := by
  obtain ⟨final, loop, rfl, rfl⟩ := readName_eq_ok.1 h
  have start : moveCursor origin target (nameStart origin) = nameStart target := by
    simp [moveCursor, nameStart]
  have low : origin ≤ (nameStart origin).cursor := le_rfl
  have moved := nameLoop_move loop (fun _ => low) low movable
  rw [start] at moved
  refine readName_eq_ok.2 ⟨_, moved, rfl, ?_⟩
  simp only [moveCursor]
  omega

theorem turnReads_lt (turn : NameTurn packet s progress) : ∀ i ∈ turnReads packet s, i < packet.length := by
  cases turn with
  | root zero =>
    intro i member
    rw [turnReads_plain zero (by decide)] at member
    simp only [UInt8.toNat_zero, Nat.zero_add, List.range'_one, List.mem_singleton] at member
    rw [member]
    exact getElem?_lt zero
  | pointer first second byte tag byte' back inside steps =>
    intro i member
    rw [turnReads_pointer byte tag, List.mem_cons, List.mem_singleton] at member
    have := getElem?_lt byte'
    omega
  | label length label byte nonzero plain small part room =>
    intro i member
    rw [turnReads_plain byte plain, List.mem_range'_1] at member
    have := (slice_eq_some.1 part).2.1
    omega

theorem jumpedReads_lt (loop : nameLoop packet fuel s = .ok final) :
    ∀ i ∈ jumpedReads packet fuel s, i < packet.length := by
  induction fuel generalizing s with
  | zero => simp [jumpedReads]
  | succ fuel ih =>
    intro i member
    rw [jumpedReads, List.mem_append] at member
    rcases nameLoop_succ_eq_ok.1 loop with turn | ⟨next, turn, rest⟩
    · rcases member with here | later
      · split at here
        · exact turnReads_lt turn i here
        · cases here
      · rw [nameStep_of_turn turn] at later
        cases later
    · rcases member with here | later
      · split at here
        · exact turnReads_lt turn i here
        · cases here
      · rw [nameStep_of_turn turn] at later
        exact ih rest i later

theorem nameReads_lt (read : readName packet offset = .ok (name, stop)) :
    ∀ i ∈ nameReads packet offset, i < packet.length := by
  obtain ⟨final, loop, -, -⟩ := readName_eq_ok.1 read
  exact jumpedReads_lt loop

end Resolved.Proof.Wire
