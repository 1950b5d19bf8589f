import Resolved.Net
import Resolved.Wire.Codec

/-!
# mDNS packets at the door

A packet is taken when it came from the link, with a header that mDNS allows and sections that end
where the packet ends.
-/

namespace Resolved.Mdns
open Lib Wire

def mdnsPort : UInt16 := 5353
def mdnsIpv4Multicast : Ipv4Addr := ⟨224, 0, 0, 251⟩
def mdnsIpv6Multicast : Ipv6Addr := ⟨0xff02, 0, 0, 0, 0, 0, 0, 0x00fb⟩
def mdnsRequiredHopLimit : Nat := 255
def dnsClassMask : Nat := 0x7fff
def dnsClassCacheFlush : Nat := 0x8000

inductive MdnsAddressFamily where
  | ipv4
  | ipv6
deriving DecidableEq, Repr

structure MdnsInterface where
  ifindex : UInt32
  family : MdnsAddressFamily
deriving DecidableEq, Repr

inductive MessageKind where
  | query
  | response
deriving DecidableEq, Repr

structure IngressMeta where
  source : SocketAddr
  destination : SocketAddr
  ifindex : Option UInt32
  hopLimit : Option Nat
  receivedMulticast : Bool
deriving DecidableEq, Repr

structure ValidatedPacket where
  id : Nat
  kind : MessageKind
  interface : MdnsInterface
  legacyUnicast : Bool
  authoritative : Bool
  questions : Nat
  answers : Nat
  authorities : Nat
  additionals : Nat
deriving DecidableEq, Repr

inductive IngressError where
  | shortPacket
  | missingInterface
  | missingHopLimit
  | invalidHopLimit
  | familyMismatch
  | invalidMulticastDestination
  | invalidSource
  | invalidSourcePort
  | invalidIdentifier
  | unsupportedOpcode
  | nonAuthoritativeResponse
  | emptyMessage
  | truncatedName
  | invalidLabel
  | invalidCompressionPointer
  | compressionLoop
  | truncatedQuestion
  | truncatedRecord
deriving DecidableEq, Repr

def u16? (packet : Bytes) (offset : Nat) : Option Nat :=
  match packet[offset]?, packet[offset + 1]? with
  | some a, some b => some (be16 a b)
  | _, _ => none

/-- The loop of `skip_name`. The first number is how many turns are left. -/
def skipNameLoop (packet : Bytes) :
    Nat → Nat → Option Nat → Nat → List Nat → Except IngressError Nat
  | 0, _, _, _, _ => .error .compressionLoop
  | turns + 1, cursor, next, expanded, visited =>
    match packet[cursor]? with
    | none => .error .truncatedName
    | some length =>
      if length &&& 0xc0 = 0xc0 then
        match packet[cursor + 1]? with
        | none => .error .truncatedName
        | some second =>
          let target := pointerTarget length second
          if target ≥ packet.length ∨ target ≥ cursor then .error .invalidCompressionPointer
          else if target ∈ visited then .error .compressionLoop
          else skipNameLoop packet turns target (some (next.getD (cursor + 2))) expanded
            (target :: visited)
      else if length &&& 0xc0 ≠ 0 then .error .invalidLabel
      else if length = 0 then .ok (next.getD (cursor + 1))
      else if length > 63 then .error .invalidLabel
      else if cursor + 1 + length.toNat > packet.length then .error .truncatedName
      else if expanded + (length.toNat + 1) > 255 then .error .invalidLabel
      else skipNameLoop packet turns (cursor + 1 + length.toNat) next
        (expanded + (length.toNat + 1)) visited

def skipName (packet : Bytes) (start : Nat) : Except IngressError Nat :=
  skipNameLoop packet 128 start none 1 []

def validateQuestions (packet : Bytes) : Nat → Nat → Except IngressError Nat
  | 0, offset => .ok offset
  | count + 1, offset => do
    let offset ← skipName packet offset
    if offset + 4 ≤ packet.length then validateQuestions packet count (offset + 4)
    else .error .truncatedQuestion

def validateRecords (packet : Bytes) : Nat → Nat → Except IngressError Nat
  | 0, offset => .ok offset
  | count + 1, offset => do
    let offset ← skipName packet offset
    if offset + 10 ≤ packet.length then do
      let length ← okOr .truncatedRecord (u16? packet (offset + 8))
      if offset + 10 + length ≤ packet.length then
        validateRecords packet count (offset + 10 + length)
      else .error .truncatedRecord
    else .error .truncatedRecord

def validateSections (packet : Bytes) (questions answers authorities additionals : Nat) :
    Except IngressError Unit := do
  let offset ← validateQuestions packet questions dnsHeaderLen
  let offset ← validateRecords packet (answers + authorities + additionals) offset
  if offset ≠ packet.length then .error .truncatedRecord else .ok ()

def familyOf (metadata : IngressMeta) : Except IngressError MdnsAddressFamily :=
  match metadata.source.ip, metadata.destination.ip with
  | .v4 source, .v4 destination =>
    if source = ⟨0, 0, 0, 0⟩ ∨ source.a &&& 0xf0 = 0xe0 then .error .invalidSource
    else if metadata.receivedMulticast ∧ destination ≠ mdnsIpv4Multicast then
      .error .invalidMulticastDestination
    else .ok .ipv4
  | .v6 source, .v6 destination =>
    if source = ⟨0, 0, 0, 0, 0, 0, 0, 0⟩ ∨ source.s0 >>> 8 = 0xff then .error .invalidSource
    else if metadata.receivedMulticast ∧ destination ≠ mdnsIpv6Multicast then
      .error .invalidMulticastDestination
    else .ok .ipv6
  | _, _ => .error .familyMismatch

def interfaceOf (metadata : IngressMeta) : Except IngressError MdnsInterface := do
  let ifindex ← okOr .missingInterface (metadata.ifindex.filter (· ≠ 0))
  let hopLimit ← okOr .missingHopLimit metadata.hopLimit
  if hopLimit ≠ mdnsRequiredHopLimit then .error .invalidHopLimit
  else do
    let family ← familyOf metadata
    if metadata.receivedMulticast ∧ metadata.destination.port ≠ mdnsPort then
      .error .invalidMulticastDestination
    else return ⟨ifindex, family⟩

def kindOf (metadata : IngressMeta) (id flags : Nat) : Except IngressError (MessageKind × Bool) :=
  if flags &&& flagOpcode ≠ 0 then .error .unsupportedOpcode
  else
    let kind := if flags &&& flagQr = 0 then MessageKind.query else .response
    let legacyUnicast := kind = .query ∧ (¬metadata.receivedMulticast ∨ metadata.source.port ≠ mdnsPort)
    if id ≠ 0 ∧ ¬legacyUnicast then .error .invalidIdentifier
    else if kind = .response ∧ metadata.source.port ≠ mdnsPort then .error .invalidSourcePort
    else if kind = .response ∧ flags &&& flagAa = 0 then .error .nonAuthoritativeResponse
    else .ok (kind, legacyUnicast)

def validateIngress (packet : Bytes) (metadata : IngressMeta) :
    Except IngressError ValidatedPacket :=
  if packet.length < dnsHeaderLen then .error .shortPacket
  else do
    let interface ← interfaceOf metadata
    let id ← okOr .shortPacket (u16? packet 0)
    let flags ← okOr .shortPacket (u16? packet 2)
    let (kind, legacyUnicast) ← kindOf metadata id flags
    let questions ← okOr .shortPacket (u16? packet 4)
    let answers ← okOr .shortPacket (u16? packet 6)
    let authorities ← okOr .shortPacket (u16? packet 8)
    let additionals ← okOr .shortPacket (u16? packet 10)
    if questions = 0 ∧ answers = 0 ∧ authorities = 0 ∧ additionals = 0 then .error .emptyMessage
    else do
      validateSections packet questions answers authorities additionals
      return {
        id := id
        kind := kind
        interface := interface
        legacyUnicast := legacyUnicast
        authoritative := flags &&& flagAa ≠ 0
        questions := questions
        answers := answers
        authorities := authorities
        additionals := additionals }

end Resolved.Mdns
