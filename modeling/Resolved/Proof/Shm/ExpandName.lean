import Resolved.Shm.ExpandName

/-!
# The accesses of `dns_expand_name`

The loop keeps within the packet and within the output, whatever the pointers lead to, and writes the
text that the function on lists of octets returns.
-/

namespace Resolved.Proof.Shm
open Lib Resolved.Wire Resolved.Shm Resolved.Shm.Memory

def Inside (packetLength capacity : Nat) : CellAccess → Prop
  | .read start count => start + count ≤ packetLength
  | .write start count => start + count ≤ capacity

instance : Decidable (Inside packetLength capacity access) := by
  cases access <;> exact inferInstanceAs (Decidable (_ ≤ _))

structure Expanding (packetLength offset capacity : Nat) (out : Cells) (s : ExpandState) : Prop where
  room : 2 ≤ capacity
  fits : s.outputLength < capacity ∧ s.outputLength ≤ dnsMaxName
  direct : s.jumped = false → offset ≤ s.position
  behind : s.jumped = true → offset < s.next ∧ s.next ≤ packetLength
  kept : ∀ i, capacity ≤ i → s.out i = out i

structure ExpandsWell (packetLength offset capacity : Nat) (out : Cells) (expanded : Expanded) :
    Prop where
  terminated : ∃ n ≤ dnsMaxName, n < capacity ∧ expanded.out n = 0
  forward : offset < expanded.offset
  inside : expanded.offset ≤ packetLength
  kept : ∀ i, capacity ≤ i → expanded.out i = out i

structure SafeRun (packetLength offset capacity : Nat) (out : Cells) (accesses : List CellAccess)
    (result : Except StubErrno Expanded) : Prop where
  inside : ∀ access ∈ accesses, Inside packetLength capacity access
  well : ∀ expanded, result = .ok expanded → ExpandsWell packetLength offset capacity out expanded

section
variable {packet out : Cells} {packetLength offset capacity : Nat} {s : ExpandState}

theorem followPointer_expanding (inv : Expanding packetLength offset capacity out s)
    (inside : s.position + 1 < packetLength) :
    Expanding packetLength offset capacity out (followPointer s pointer) := by
  refine ⟨inv.room, inv.fits, (fun direct => by cases direct), fun _ => ?_, inv.kept⟩
  cases jumped : s.jumped with
  | false =>
    have := inv.direct jumped
    simp only [followPointer, jumped, Bool.false_eq_true, if_false]
    omega
  | true => simpa [followPointer, jumped] using inv.behind jumped

theorem copyLabel_expanding (inv : Expanding packetLength offset capacity out s)
    (room : s.labelStart + length < capacity) (small : s.labelStart + length ≤ dnsMaxName) :
    Expanding packetLength offset capacity out (copyLabel packet s length) := by
  refine ⟨inv.room, ⟨room, small⟩, fun direct => ?_, fun jumped => ?_, fun i outside => ?_⟩
  · have := inv.direct direct
    simp only [copyLabel]
    omega
  · have jumped : s.jumped = true := jumped
    simpa [copyLabel, jumped] using inv.behind jumped
  · have beyond : ¬(s.labelStart ≤ i ∧ i < s.labelStart + length) := by omega
    simp only [copyLabel, memcpy, if_neg beyond]
    split
    · rw [Function.update_of_ne (by have := inv.fits; omega)]
      exact inv.kept i outside
    · exact inv.kept i outside

theorem finish_well (inv : Expanding packetLength offset capacity out s) (inside : s.position < packetLength) :
    (∀ access ∈ (finish s).1, Inside packetLength capacity access) ∧
      ExpandsWell packetLength offset capacity out (finish s).2 := by
  have room := inv.room
  obtain ⟨fits, small⟩ := inv.fits
  have progress : offset < (if s.jumped then s.next else s.position + 1) ∧
      (if s.jumped then s.next else s.position + 1) ≤ packetLength := by
    cases jumped : s.jumped with
    | false =>
      have := inv.direct jumped
      simp only [Bool.false_eq_true, if_false]
      omega
    | true => simpa using inv.behind jumped
  by_cases empty : s.outputLength = 0
  · simp only [finish, if_pos empty]
    refine ⟨?_, ⟨1, by decide, by omega, by simp⟩, progress.1, progress.2, fun i outside => ?_⟩
    · simp only [List.forall_mem_cons, Inside, List.not_mem_nil, false_implies, implies_true, and_true]
      omega
    · have first : i ≠ 0 := by omega
      have second : i ≠ 1 := by omega
      simpa only [Function.update_of_ne first, Function.update_of_ne second] using inv.kept i outside
  · simp only [finish, if_neg empty]
    refine ⟨?_, ⟨s.outputLength, small, fits, by simp⟩, progress.1, progress.2, fun i outside => ?_⟩
    · simp only [List.forall_mem_cons, Inside, List.not_mem_nil, false_implies, implies_true, and_true]
      omega
    · have other : i ≠ s.outputLength := by omega
      simpa only [Function.update_of_ne other] using inv.kept i outside

/-- What one turn can do: it ends with an error, ends well, follows a pointer or copies a label. -/
inductive Turn (packet : Cells) (packetLength capacity : Nat) (s : ExpandState) :
    List CellAccess → Verdict ExpandState (Except StubErrno Expanded) → Prop
  | outside : Turn packet packetLength capacity s [] (.done (.error .eproto))
  | failed {count : Nat} {errno : StubErrno} (inside : s.position + count ≤ packetLength) :
      Turn packet packetLength capacity s [.read s.position count] (.done (.error errno))
  | root (inside : s.position < packetLength) :
      Turn packet packetLength capacity s (.read s.position 1 :: (finish s).1)
        (.done (.ok (finish s).2))
  | pointer (pointer : Nat) (inside : s.position + 1 < packetLength) (few : s.jumps < 128) :
      Turn packet packetLength capacity s [.read s.position 2] (.again (followPointer s pointer))
  | label (length : Nat) (positive : 0 < length) (inside : s.position + 1 + length ≤ packetLength)
      (room : s.labelStart + length < capacity) (small : s.labelStart + length ≤ dnsMaxName) :
      Turn packet packetLength capacity s
        (.read s.position 1 :: (if 0 < s.outputLength then [.write s.outputLength 1] else []) ++
          [.read (s.position + 1) length, .write s.labelStart length])
        (.again (copyLabel packet s length))

theorem expandTurn_turn (taken : expandTurn packet packetLength capacity s = (accesses, verdict)) :
    Turn packet packetLength capacity s accesses verdict := by
  unfold expandTurn at taken
  by_cases outside : packetLength ≤ s.position
  · rw [if_pos outside] at taken
    cases taken
    exact .outside
  rw [if_neg outside] at taken
  simp only at taken
  split at taken
  · split at taken
    · cases taken
      exact .failed (by omega)
    split at taken <;> cases taken
    · exact .failed (by omega)
    · exact .pointer _ (by omega) (by omega)
  split at taken
  · cases taken
    exact .failed (by omega)
  split at taken
  · cases taken
    exact .root (by omega)
  rename_i nonzero
  split at taken
  · cases taken
    exact .failed (by omega)
  split at taken
  · cases taken
    exact .failed (by omega)
  cases taken
  have positive : (packet s.position).toNat ≠ 0 := fun zero => nonzero (UInt8.toNat_inj.1 zero)
  exact .label _ (by omega) (by omega) (by omega) (by omega)

theorem labelStart_ge (s : ExpandState) : s.outputLength ≤ s.labelStart := by
  unfold ExpandState.labelStart
  split <;> omega

theorem label_inside (inv : Expanding packetLength offset capacity out s)
    (inside : s.position + 1 + length ≤ packetLength) (room : s.labelStart + length < capacity) :
    ∀ access ∈ .read s.position 1 :: (if 0 < s.outputLength then [.write s.outputLength 1] else []) ++
      [.read (s.position + 1) length, .write s.labelStart length], Inside packetLength capacity access := by
  intro access member
  have fits := inv.fits.1
  simp only [List.cons_append, List.mem_cons, List.mem_append, List.not_mem_nil, or_false] at member
  rcases member with rfl | dot | rfl | rfl
  · simp only [Inside]
    omega
  · split at dot
    · rw [List.mem_singleton] at dot
      subst dot
      exact fits
    · cases dot
  · exact inside
  · exact room.le

theorem expandTurn_last (inv : Expanding packetLength offset capacity out s)
    (taken : expandTurn packet packetLength capacity s = (accesses, .done result)) :
    SafeRun packetLength offset capacity out accesses result := by
  cases expandTurn_turn taken with
  | outside => exact ⟨by simp, fun _ failed => by cases failed⟩
  | failed inside => exact ⟨by simpa [Inside] using inside, fun _ failed => by cases failed⟩
  | root inside =>
    obtain ⟨writes, well⟩ := finish_well inv inside
    refine ⟨List.forall_mem_cons.2 ⟨inside, writes⟩, fun expanded same => ?_⟩
    cases same
    exact well

theorem expandTurn_next {next : ExpandState} (inv : Expanding packetLength offset capacity out s)
    (taken : expandTurn packet packetLength capacity s = (accesses, .again next)) :
    Expanding packetLength offset capacity out next ∧ ∀ access ∈ accesses, Inside packetLength capacity access := by
  cases expandTurn_turn taken with
  | pointer pointer inside few =>
    refine ⟨followPointer_expanding inv inside, ?_⟩
    simp only [List.forall_mem_singleton, Inside]
    omega
  | label length positive inside room small =>
    exact ⟨copyLabel_expanding inv room small, label_inside inv inside room⟩

def turnsLeft (s : ExpandState) : Nat := 128 - s.jumps + (dnsMaxName - s.outputLength)

theorem expandTurn_uses {next : ExpandState}
    (taken : expandTurn packet packetLength capacity s = (accesses, .again next)) :
    turnsLeft next < turnsLeft s := by
  cases expandTurn_turn taken with
  | pointer pointer inside few =>
    simp only [turnsLeft, followPointer]
    omega
  | label length positive inside room small =>
    have := labelStart_ge s
    simp only [turnsLeft, copyLabel]
    omega

end

theorem dnsExpandName_safe (packet : Cells) (packetLength offset : Nat) (out : Cells) (capacity : Nat) :
    (∀ more stuck, expandWithin (384 + more) stuck packet packetLength offset out capacity =
        Memory.dnsExpandName packet packetLength offset out capacity) ∧ SafeRun packetLength offset capacity out
        (Memory.dnsExpandName packet packetLength offset out capacity).1
        (Memory.dnsExpandName packet packetLength offset out capacity).2 := by
  unfold Memory.dnsExpandName expandWithin
  split
  · exact ⟨fun _ _ => rfl, by simp, fun _ failed => by cases failed⟩
  rename_i enters
  have room : 2 ≤ capacity := by omega
  have start : Expanding packetLength offset capacity out ⟨offset, offset, 0, 0, false, out⟩ :=
    ⟨room, ⟨Nat.zero_lt_of_lt room, Nat.zero_le _⟩, fun _ => le_rfl,
      (fun jumped => by cases jumped), fun _ _ => rfl⟩
  refine ⟨fun more stuck => ?_, ?_⟩
  · exact runTurns_ends turnsLeft (fun _ _ _ _ taken => expandTurn_uses taken) more 0
      (by simp [turnsLeft, dnsMaxName]) _
  · refine runTurns_holds _ (SafeRun packetLength offset capacity out)
      (fun _ _ => ⟨by simp, fun _ failed => by cases failed⟩)
      (fun _ _ _ _ inv taken => expandTurn_last inv taken) ?_ 384 0 _ start
    intro _ s accesses next inv taken
    obtain ⟨inv', first⟩ := expandTurn_next inv taken
    exact ⟨inv', fun later result safe => ⟨List.forall_mem_append.2 ⟨first, safe.inside⟩, safe.well⟩⟩

def pointerPacket : Cells := fun i => [1, 97, 0, 1, 98, 192, 0].getD i 7

theorem dnsExpandName_safe_pointer :
    ∃ expanded, (Memory.dnsExpandName pointerPacket 7 3 (fun _ => 9) 4).2 = .ok expanded ∧
      ExpandsWell 7 3 4 (fun _ => 9) expanded := by
  have done : (Memory.dnsExpandName pointerPacket 7 3 (fun _ => 9) 4).2.isOk = true := by decide
  cases result : (Memory.dnsExpandName pointerPacket 7 3 (fun _ => 9) 4).2 with
  | error errno =>
    rw [result] at done
    cases done
  | ok expanded =>
    exact ⟨expanded, rfl, (dnsExpandName_safe pointerPacket 7 3 (fun _ => 9) 4).2.well _ result⟩

section
variable {packet packet' out : Cells} {packetLength offset capacity : Nat} {s : ExpandState}

theorem memcpy_local {target origin origin' : Cells} {start source count : Nat}
    (agree : ∀ i < source + count, origin i = origin' i) :
    memcpy target start origin source count = memcpy target start origin' source count := by
  funext i
  unfold memcpy
  split
  · exact agree _ (by omega)
  · rfl

theorem expandTurn_local (agree : ∀ i < packetLength, packet i = packet' i) :
    expandTurn packet packetLength capacity s = expandTurn packet' packetLength capacity s := by
  unfold expandTurn
  by_cases outside : packetLength ≤ s.position
  · rw [if_pos outside, if_pos outside]
  rw [if_neg outside, if_neg outside, agree s.position (by omega)]
  simp only
  split
  · split
    · rfl
    · rw [agree (s.position + 1) (by omega)]
  split
  · rfl
  split
  · rfl
  split
  · rfl
  · rename_i inside
    have copied : copyLabel packet s (packet' s.position).toNat =
        copyLabel packet' s (packet' s.position).toNat := by
      simp only [copyLabel]
      rw [memcpy_local]
      exact fun i below => agree i (by omega)
    rw [copied]

/-- Nothing outside of the packet has an influence on the run. -/
theorem dnsExpandName_local (agree : ∀ i < packetLength, packet i = packet' i) :
    Memory.dnsExpandName packet packetLength offset out capacity =
      Memory.dnsExpandName packet' packetLength offset out capacity := by
  have turns : expandTurn packet packetLength capacity = expandTurn packet' packetLength capacity :=
    funext fun s => expandTurn_local agree
  unfold Memory.dnsExpandName expandWithin
  rw [turns]

end

/-! ## The text that is written -/

def cellsOf (packet : Bytes) : Cells := fun i => packet.getD i 0

def textOf (out : Cells) (length : Nat) : Bytes := (List.range length).map out

/-- The two results are the same error, or the text with a NUL and the same offset. -/
def SameResult : Except StubErrno Expanded → Except StubErrno (Bytes × Nat) → Prop
  | .error cause, .error cause' => cause = cause'
  | .ok expanded, .ok (text, next) =>
    textOf expanded.out (text.length + 1) = text ++ [0] ∧ expanded.offset = next
  | _, _ => False

structure InStep (s : ExpandState) (position : Nat) (text : Bytes) (jumps : Nat) (next : Option Nat) :
    Prop where
  position : s.position = position
  jumps : s.jumps = jumps
  next : next = if s.jumped then some s.next else none
  text : textOf s.out s.outputLength = text

theorem inStep_length (inStep : InStep s position text jumps next) : s.outputLength = text.length := by
  simp [← inStep.text, textOf]

theorem textOf_add (out : Cells) (first second : Nat) :
    textOf out (first + second) = textOf out first ++ textOf (fun i => out (first + i)) second := by
  simp [textOf, List.range_add]

theorem textOf_congr {out out' : Cells} (same : ∀ i < length, out i = out' i) :
    textOf out length = textOf out' length :=
  List.map_congr_left fun i member => same i (List.mem_range.1 member)

theorem cellsOf_eq {packet : Bytes} (byte : packet[i]? = some value) : cellsOf packet i = value := by
  simp [cellsOf, byte]

theorem textOf_slice {packet label : Bytes} (part : slice packet start (start + length) = some label) :
    textOf (fun i => cellsOf packet (start + i)) length = label := by
  have size : label.length = length := by simpa using slice_length part
  refine List.ext_getElem (by simp [textOf, size]) fun i below below' => ?_
  have octet := slice_getElem? part i (by omega)
  rw [List.getElem?_eq_getElem below'] at octet
  simp [textOf, cellsOf_eq octet.symm]

theorem finish_inStep (inStep : InStep s position text jumps next) :
    SameResult (.ok (finish s).2) (.ok (closeText text, next.getD (position + 1))) := by
  have offset : (if s.jumped then s.next else s.position + 1) = next.getD (position + 1) := by
    rw [inStep.next, inStep.position]
    split <;> rfl
  have length := inStep_length inStep
  by_cases empty : text = []
  · rw [empty, List.length_nil] at length
    simp only [finish, if_pos length, closeText, if_pos empty]
    exact ⟨rfl, offset⟩
  · have some : s.outputLength ≠ 0 := by simpa [length] using empty
    simp only [finish, if_neg some, closeText, if_neg empty]
    refine ⟨?_, offset⟩
    rw [← length, textOf_add, textOf_congr fun i below => Function.update_of_ne below.ne _ _, inStep.text]
    simp [textOf]

theorem copyLabel_inStep {packet label : Bytes} (inStep : InStep s position text jumps next)
    (part : slice packet (position + 1) (position + 1 + length) = some label) :
    InStep (copyLabel (cellsOf packet) s length) (position + 1 + length) (appendLabel text label) jumps next := by
  have copied : ∀ out, textOf (fun i => memcpy out s.labelStart (cellsOf packet) (s.position + 1) length
      (s.labelStart + i)) length = label := by
    intro out
    rw [← textOf_slice part, inStep.position]
    refine textOf_congr fun i below => ?_
    simp only [memcpy]
    rw [if_pos (by omega), Nat.add_sub_cancel_left]
  have kept : ∀ out, textOf (memcpy out s.labelStart (cellsOf packet) (s.position + 1) length)
      s.labelStart = textOf out s.labelStart := fun out =>
    textOf_congr fun i below => if_neg (by omega)
  refine ⟨by simp [copyLabel, inStep.position], inStep.jumps, ?_, ?_⟩
  · rw [inStep.next]
    simp only [copyLabel]
    split <;> simp [*]
  · simp only [copyLabel, textOf_add, copied, kept, appendLabel]
    have length := inStep_length inStep
    by_cases empty : text = []
    · rw [empty, List.length_nil] at length
      simp [ExpandState.labelStart, length, empty, textOf]
    · have filled : 0 < s.outputLength := length ▸ List.length_pos_iff.2 empty
      rw [ExpandState.labelStart, if_pos filled, if_pos filled, if_neg empty, textOf_add,
        textOf_congr fun i below => Function.update_of_ne below.ne _ _, inStep.text]
      simp [textOf]

section
variable {packet : Bytes} {turns index : Nat} {accesses : List CellAccess}

def expandRun (packet : Bytes) (turns index : Nat) (s : ExpandState) : Except StubErrno Expanded :=
  (runTurns (fun _ => expandTurn (cellsOf packet) packet.length 256) (fun _ => .error .eproto) turns
    index s).2

theorem expandRun_done {result : Except StubErrno Expanded}
    (taken : expandTurn (cellsOf packet) packet.length 256 s = (accesses, .done result)) :
    expandRun packet (turns + 1) index s = result := by
  rw [expandRun, runTurns, taken]

theorem expandRun_failed {cause : StubErrno}
    (taken : expandTurn (cellsOf packet) packet.length 256 s = (accesses, .done (.error cause))) :
    SameResult (expandRun packet (turns + 1) index s) (.error cause) := by
  rw [expandRun_done taken]
  rfl

theorem expandRun_again {later : ExpandState}
    (taken : expandTurn (cellsOf packet) packet.length 256 s = (accesses, .again later)) :
    expandRun packet (turns + 1) index s = expandRun packet turns (index + 1) later := by
  rw [expandRun, runTurns, taken]
  rfl

theorem expandLoop_inStep (inStep : InStep s position text jumps next) (turns index : Nat) :
    SameResult (expandRun packet turns index s) (expandLoop packet turns position text jumps next) := by
  induction turns generalizing s position text jumps next index with
  | zero => rfl
  | succ turns ih =>
    obtain ⟨rfl, rfl, known, -⟩ := id inStep
    rw [expandLoop]
    cases byte : packet[s.position]? with
    | none => exact expandRun_failed (if_pos (List.getElem?_eq_none_iff.1 byte))
    | some first =>
      have taken : expandTurn (cellsOf packet) packet.length 256 s = _ :=
        if_neg (not_le.2 (List.getElem?_eq_some_iff.1 byte).1)
      simp only [cellsOf_eq byte] at taken ⊢
      split
      · rename_i tag
        rw [if_pos tag] at taken
        cases byte' : packet[s.position + 1]? with
        | none => exact expandRun_failed (taken.trans (if_pos (List.getElem?_eq_none_iff.1 byte')))
        | some second =>
          rw [if_neg (not_le.2 (List.getElem?_eq_some_iff.1 byte').1), cellsOf_eq byte'] at taken
          simp only
          split
          · rename_i refused
            exact expandRun_failed (taken.trans (if_pos refused))
          · rename_i accepted
            rw [expandRun_again (taken.trans (if_neg accepted))]
            apply ih
            refine ⟨rfl, rfl, ?_, inStep.text⟩
            rw [known]
            simp only [followPointer]
            split <;> rfl
      rename_i untagged
      rw [if_neg untagged] at taken
      split
      · rename_i refused
        exact expandRun_failed (taken.trans (if_pos refused))
      rename_i small
      rw [if_neg small] at taken
      split
      · rename_i zero
        rw [expandRun_done (taken.trans (if_pos zero))]
        exact finish_inStep inStep
      rename_i filled
      rw [if_neg filled] at taken
      cases part : slice packet (s.position + 1) (s.position + 1 + first.toNat) with
      | none =>
        have beyond : packet.length < s.position + 1 + first.toNat := by
          by_contra within
          simp [slice, not_lt.1 within] at part
        exact expandRun_failed (taken.trans (if_pos beyond))
      | some label =>
        have copied := copyLabel_inStep inStep part
        have joined : (appendLabel text label).length = s.labelStart + first.toNat :=
          (inStep_length copied).symm
        rw [if_neg (not_lt.2 (slice_eq_some.1 part).2.1), dnsMaxName] at taken
        simp only [joined]
        split
        · rename_i long
          exact expandRun_failed (taken.trans (if_pos long))
        · rename_i short
          rw [expandRun_again (taken.trans (if_neg short))]
          exact ih copied _

end

/-- The two models of `dns_expand_name` agree for a packet that ends where its octets end. -/
theorem dnsExpandName_agrees (packet : Bytes) (offset : Nat) (out : Cells) :
    SameResult (Memory.dnsExpandName (cellsOf packet) packet.length offset out 256).2
      (Shm.dnsExpandName packet offset) := by
  unfold Memory.dnsExpandName expandWithin Shm.dnsExpandName
  by_cases outside : packet.length ≤ offset
  · rw [if_pos (.inr outside), if_pos outside]
    rfl
  · rw [if_neg (by omega), if_neg outside]
    exact expandLoop_inStep ⟨rfl, rfl, rfl, rfl⟩ 384 0

end Resolved.Proof.Shm
