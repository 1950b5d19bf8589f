import Resolved.Wire.Codec

namespace Resolved.Dnssec
open Lib Wire

def canonicalSingleName (packet : Packet) (record : ResourceRecord) (lead : Nat) :
    Except WireError Bytes :=
  if record.rdata.length < lead + 1 then .error .invalidRecord
  else do
    let (name, next) ← readName packet (record.rdataOffset + lead)
    if next > record.nextOffset then throw .invalidRecord
    else
      let tail ← okOr .invalidRecord (slice packet next record.nextOffset)
      return record.rdata.take lead ++ name.canonicalWire ++ tail

def canonicalTwoNames (packet : Packet) (record : ResourceRecord) (lead : Nat) :
    Except WireError Bytes :=
  if record.rdata.length < lead + 2 then .error .invalidRecord
  else do
    let (first, secondOffset) ← readName packet (record.rdataOffset + lead)
    let (second, stop) ← readName packet secondOffset
    if stop ≠ record.nextOffset then throw .invalidRecord
    else return record.rdata.take lead ++ first.canonicalWire ++ second.canonicalWire

def canonicalSoa (packet : Packet) (record : ResourceRecord) : Except WireError Bytes := do
  let (primaryName, mailboxOffset) ← readName packet record.rdataOffset
  let (mailboxName, integersOffset) ← readName packet mailboxOffset
  let integers ← okOr .invalidRecord (slice packet integersOffset record.nextOffset)
  if integers.length ≠ 20 then throw .invalidRecord
  else return primaryName.canonicalWire ++ mailboxName.canonicalWire ++ integers

def skipStrings (packet : Packet) (limit : Nat) : Nat → Nat → Except WireError Nat
  | 0, offset => .ok offset
  | count + 1, offset => do
    let length ← okOr .invalidRecord packet[offset]?
    if offset + (1 + length.toNat) > limit then throw .invalidRecord
    else skipStrings packet limit count (offset + (1 + length.toNat))

def canonicalNaptr (packet : Packet) (record : ResourceRecord) : Except WireError Bytes :=
  if record.rdata.length < 8 then .error .invalidRecord
  else do
    let offset ← skipStrings packet record.nextOffset 3 (record.rdataOffset + 4)
    let (replacement, stop) ← readName packet offset
    if stop ≠ record.nextOffset then throw .invalidRecord
    else
      let lead ← okOr .invalidRecord (slice packet record.rdataOffset offset)
      return lead ++ replacement.canonicalWire

inductive RdataForm where
  | singleName (lead : Nat)
  | twoNames (lead : Nat)
  | soa
  | naptr
  | plain
deriving DecidableEq, Repr

def rdataForm (rrType : Nat) : RdataForm :=
  if rrType ∈ [2, 3, 4, 5, 7, 8, 9, 12, 23, 30, 39, 47] then .singleName 0
  else if rrType = 6 then .soa
  else if rrType ∈ [14, 17] then .twoNames 0
  else if rrType ∈ [15, 18, 21, 36, 64, 65, 107] then .singleName 2
  else if rrType ∈ [24, 46] then .singleName 18
  else if rrType = 26 then .twoNames 2
  else if rrType = 33 then .singleName 6
  else if rrType = 35 then .naptr
  else .plain

def canonicalRdata (packet : Packet) (record : ResourceRecord) : Except WireError Bytes :=
  match rdataForm record.rrType with
  | .singleName lead => canonicalSingleName packet record lead
  | .twoNames lead => canonicalTwoNames packet record lead
  | .soa => canonicalSoa packet record
  | .naptr => canonicalNaptr packet record
  | .plain => .ok record.rdata

def rdataNames (packet : Packet) (record : ResourceRecord) : List Nat :=
  match rdataForm record.rrType with
  | .singleName lead => [record.rdataOffset + lead]
  | .twoNames lead => twoFrom (record.rdataOffset + lead)
  | .soa => twoFrom record.rdataOffset
  | .naptr =>
    match skipStrings packet record.nextOffset 3 (record.rdataOffset + 4) with
    | .ok offset => [offset]
    | .error _ => []
  | .plain => []
where
  twoFrom (first : Nat) : List Nat :=
    match readName packet first with
    | .ok (_, second) => [first, second]
    | .error _ => [first]

end Resolved.Dnssec
