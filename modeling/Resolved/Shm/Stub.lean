import Resolved.Shm.Nss
import Resolved.Wire.Codec

/-!
# The DNS client of the NSS module

The packet that `build_query` sends and the check of what comes back. A C string ends before its
first NUL, and `strcasecmp` reads no further.
-/

namespace Resolved.Shm
open Lib Wire

inductive StubErrno where
  | einval
  | emsgsize
  | eproto
deriving DecidableEq, Repr

def stubReadU16 (packet : Bytes) (offset : Nat) : Nat :=
  be16 (packet.getD offset 0) (packet.getD (offset + 1) 0)

def buildQuery (name : Bytes) (qtype id : UInt16) (capacity : Nat) : Except StubErrno Bytes :=
  if capacity < 12 then .error .einval
  else
    match srEncodeName name (capacity - 12) with
    | none => .error .einval
    | some wire =>
      if capacity < 12 + wire.length + 4 then .error .emsgsize
      else .ok (toBe16 id.toNat ++ [1, 0, 0, 1, 0, 0, 0, 0, 0, 0] ++ wire ++ toBe16 qtype.toNat ++ [0, 1])

def appendLabel (out label : Bytes) : Bytes := if out = [] then label else out ++ octet '.' :: label

def closeText (out : Bytes) : Bytes := if out = [] then [octet '.'] else out

/-- The turns of the loop of `dns_expand_name`. Each takes a pointer, of which there are at most 128,
or writes an octet, of which there are at most 255. -/
def expandLoop (packet : Bytes) :
    Nat → Nat → Bytes → Nat → Option Nat → Except StubErrno (Bytes × Nat)
  | 0, _, _, _, _ => .error .eproto
  | turns + 1, position, out, jumps, next =>
    match packet[position]? with
    | none => .error .eproto
    | some length =>
      if length &&& 0xc0 = 0xc0 then
        match packet[position + 1]? with
        | none => .error .eproto
        | some second =>
          let pointer := pointerTarget length second
          if position ≤ pointer ∨ packet.length ≤ pointer ∨ 128 < jumps + 1 then .error .eproto
          else expandLoop packet turns pointer out (jumps + 1) (some (next.getD (position + 2)))
      else if length &&& 0xc0 ≠ 0 ∨ length > 63 then .error .eproto
      else if length = 0 then
        .ok (closeText out, next.getD (position + 1))
      else
        match slice packet (position + 1) (position + 1 + length.toNat) with
        | none => .error .eproto
        | some label =>
          let joined := appendLabel out label
          if 256 ≤ joined.length ∨ 255 < joined.length then .error .emsgsize
          else expandLoop packet turns (position + 1 + length.toNat) joined jumps next

def dnsExpandName (packet : Bytes) (offset : Nat) : Except StubErrno (Bytes × Nat) :=
  if packet.length ≤ offset then .error .eproto else expandLoop packet 384 offset [] 0 none

def cString (buffer : Bytes) : Bytes := buffer.takeWhile (· ≠ 0)

def sameString (a b : Bytes) : Bool :=
  decide ((cString a).map asciiLower = (cString b).map asciiLower)

def validateResponse (response : Bytes) (id : UInt16) (name : Bytes) (qtype : UInt16) :
    Except StubErrno Unit :=
  if response.length < 12 ∨ stubReadU16 response 0 ≠ id.toNat ∨ response.getD 2 0 &&& 0x80 = 0 ∨
      stubReadU16 response 4 ≠ 1 then .error .eproto
  else do
    let (responseName, offset) ← dnsExpandName response 12
    if response.length < offset + 4 ∨ sameString responseName name = false ∨
        stubReadU16 response offset ≠ qtype.toNat ∨ stubReadU16 response (offset + 2) ≠ 1 then
      .error .eproto
    else .ok ()

end Resolved.Shm
