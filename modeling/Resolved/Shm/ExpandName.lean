import Resolved.Lib.TurnLoop
import Resolved.Shm.Stub

/-!
# Expanding a name in memory

`dns_expand_name` with the accesses it makes. The pointers are not null; behind them lies memory
without end, of which `packet_length` and `out_capacity` octets belong to the call. No object takes
more than half of the address space, so that no `size_t` wraps around.
-/

namespace Resolved.Shm.Memory
open Lib Wire

abbrev Cells := Nat → UInt8

def dnsMaxName : Nat := 255

inductive CellAccess where
  | read (start count : Nat)
  | write (start count : Nat)
deriving DecidableEq, Repr

structure ExpandState where
  position : Nat
  next : Nat
  outputLength : Nat
  jumps : Nat
  jumped : Bool
  out : Cells

structure Expanded where
  offset : Nat
  out : Cells

def memcpy (target : Cells) (start : Nat) (origin : Cells) (source count : Nat) : Cells :=
  fun i => if start ≤ i ∧ i < start + count then origin (source + (i - start)) else target i

def followPointer (s : ExpandState) (pointer : Nat) : ExpandState :=
  { s with
    next := if s.jumped then s.next else s.position + 2
    position := pointer
    jumped := true
    jumps := s.jumps + 1 }

def ExpandState.labelStart (s : ExpandState) : Nat :=
  if 0 < s.outputLength then s.outputLength + 1 else s.outputLength

def copyLabel (packet : Cells) (s : ExpandState) (length : Nat) : ExpandState :=
  let dotted := if 0 < s.outputLength then Function.update s.out s.outputLength (octet '.') else s.out
  { s with
    next := if s.jumped then s.next else s.position + 1 + length
    position := s.position + 1 + length
    outputLength := s.labelStart + length
    out := memcpy dotted s.labelStart packet (s.position + 1) length }

def finish (s : ExpandState) : List CellAccess × Expanded :=
  let next := if s.jumped then s.next else s.position + 1
  if s.outputLength = 0 then
    ([.write 0 1, .write 1 1], ⟨next, Function.update (Function.update s.out 0 (octet '.')) 1 0⟩)
  else ([.write s.outputLength 1], ⟨next, Function.update s.out s.outputLength 0⟩)

def expandTurn (packet : Cells) (packetLength capacity : Nat) (s : ExpandState) :
    List CellAccess × Verdict ExpandState (Except StubErrno Expanded) :=
  if packetLength ≤ s.position then ([], .done (.error .eproto))
  else
    let length := packet s.position
    if length &&& 0xc0 = 0xc0 then
      if packetLength ≤ s.position + 1 then ([.read s.position 1], .done (.error .eproto))
      else
        let pointer := pointerTarget length (packet (s.position + 1))
        if s.position ≤ pointer ∨ packetLength ≤ pointer ∨ 128 < s.jumps + 1 then
          ([.read s.position 2], .done (.error .eproto))
        else ([.read s.position 2], .again (followPointer s pointer))
    else if length &&& 0xc0 ≠ 0 ∨ 63 < length then ([.read s.position 1], .done (.error .eproto))
    else if length = 0 then (.read s.position 1 :: (finish s).1, .done (.ok (finish s).2))
    else if packetLength < s.position + 1 + length.toNat then
      ([.read s.position 1], .done (.error .eproto))
    else if capacity ≤ s.labelStart + length.toNat ∨ dnsMaxName < s.labelStart + length.toNat then
      ([.read s.position 1], .done (.error .emsgsize))
    else
      let dot := if 0 < s.outputLength then [.write s.outputLength 1] else []
      (.read s.position 1 :: dot ++ [.read (s.position + 1) length.toNat, .write s.labelStart length.toNat],
        .again (copyLabel packet s length.toNat))

def expandWithin (turns : Nat) (stuck : Except StubErrno Expanded) (packet : Cells)
    (packetLength offset : Nat) (out : Cells) (capacity : Nat) :
    List CellAccess × Except StubErrno Expanded :=
  if capacity < 2 ∨ packetLength ≤ offset then ([], .error .eproto)
  else runTurns (fun _ => expandTurn packet packetLength capacity) (fun _ => stuck) turns 0
    ⟨offset, offset, 0, 0, false, out⟩

/-- Each turn takes one of 128 jumps or writes one of 255 octets at least. -/
def dnsExpandName : Cells → Nat → Nat → Cells → Nat → List CellAccess × Except StubErrno Expanded :=
  expandWithin 384 (.error .eproto)

end Resolved.Shm.Memory
