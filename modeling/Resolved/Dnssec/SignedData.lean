import Resolved.Lib.Ordered
import Resolved.Wire.Message
import Resolved.Dnssec.CanonicalRdata

namespace Resolved.Dnssec
open Lib Wire

inductive DnssecError where
  | wire (error : WireError)
  | os (code : Int)
  | invalidData (message : Str)
  | unsupportedDigest (digestType : UInt8)
  | unsupportedAlgorithm (algorithm : UInt8)
deriving DecidableEq, Repr

def fromWire {α : Type} (result : Except WireError α) : Except DnssecError α :=
  result.mapError .wire

structure RrsigRecord where
  typeCovered : Nat
  algorithm : UInt8
  labels : UInt8
  originalTtl : Nat
  expiration : Nat
  inception : Nat
  keyTag : Nat
  signer : DnsName
  signature : Bytes
deriving DecidableEq, Repr

def parseRrsig (packet : Packet) (record : ResourceRecord) : Except WireError RrsigRecord :=
  if record.rrType ≠ typeRrsig ∨ record.rdata.length < rrsigMinimumRdataLen then
    .error .invalidRecord
  else do
    let (signer, signatureOffset) ← readName packet (record.rdataOffset + rrsigFixedFieldsLen)
    if signatureOffset ≥ record.nextOffset then throw .invalidRecord
    else
      let signature ← okOr .invalidRecord (slice packet signatureOffset record.nextOffset)
      if signature.isEmpty then throw .invalidRecord
      else return {
        typeCovered := ← readU16 record.rdata 0
        algorithm := ← byteAt record.rdata 2
        labels := ← byteAt record.rdata 3
        originalTtl := ← readU32 record.rdata 4
        expiration := ← readU32 record.rdata 8
        inception := ← readU32 record.rdata 12
        keyTag := ← readU16 record.rdata 16
        signer
        signature }

def truncatedName : WireError := .invalidName "truncated canonical DNS name".toList
def nameHasTrailingData : WireError := .invalidName "canonical DNS name has trailing data".toList
def invalidCanonicalLabel : WireError := .invalidName "invalid canonical DNS label".toList

/-- The loop of `label_offsets`. Every turn moves on by two octets at least, so a loop that has used
up one turn for each octet of the name stands behind its end. -/
def labelOffsetsFrom (name : Bytes) : Nat → Nat → Except WireError (List Nat)
  | 0, _ => .error truncatedName
  | fuel + 1, offset => do
    let length ← okOr truncatedName name[offset]?
    if length = 0 then
      if offset + 1 ≠ name.length then throw nameHasTrailingData else return []
    else if length > 63 ∨ offset + 1 + length.toNat ≥ name.length then
      throw invalidCanonicalLabel
    else
      let later ← labelOffsetsFrom name fuel (offset + (1 + length.toNat))
      return offset :: later

def labelOffsets (name : Bytes) : Except WireError (List Nat) :=
  labelOffsetsFrom name name.length 0

def canonicalOwner (owner : Bytes) (labels : UInt8) : Except WireError Bytes := do
  let offsets ← labelOffsets owner
  let labelCount := offsets.length
  let labels := labels.toNat
  let canonical := owner.map asciiLower
  if labels > labelCount then throw .invalidRecord
  else if labels = labelCount then return canonical
  else if labels = 0 then return [1, 42, 0]
  else
    let offset ← okOr .invalidRecord offsets[labelCount - labels]?
    let closest ← okOr .invalidRecord (slice canonical offset canonical.length)
    return [1, 42] ++ closest

def rrsigPrefix (signature : RrsigRecord) : Bytes :=
  toBe16 signature.typeCovered ++ [signature.algorithm, signature.labels] ++
    toBe32 signature.originalTtl ++ toBe32 signature.expiration ++ toBe32 signature.inception ++
    toBe16 signature.keyTag ++ signature.signer.canonicalWire

def signedRecord (owner : Bytes) (rrType cls originalTtl : Nat) (rdata : Bytes) : Bytes :=
  owner ++ toBe16 rrType ++ toBe16 cls ++ toBe32 originalTtl ++ toBe16 rdata.length ++ rdata

def canonicalRecord (packet : Packet) (signature : RrsigRecord) (owner : Bytes)
    (first record : ResourceRecord) : Except DnssecError Bytes :=
  if record.rrType ≠ signature.typeCovered ∨ record.cls ≠ first.cls ∨
      record.name.canonicalWire ≠ first.name.canonicalWire then
    .error (.wire .invalidRecord)
  else do
    let rdata ← fromWire (canonicalRdata packet record)
    if rdata.length ≥ 65536 then throw (.wire .invalidRecord)
    else return signedRecord owner record.rrType record.cls signature.originalTtl rdata

def canonicalSignedData (packet : Packet) (rrsigRecord : ResourceRecord)
    (rrset : List ResourceRecord) : Except DnssecError Bytes := do
  let signature ← fromWire (parseRrsig packet rrsigRecord)
  match rrset with
  | [] => throw (.wire .invalidRecord)
  | first :: _ =>
    let owner ← fromWire (canonicalOwner first.name.canonicalWire signature.labels)
    let canonicalRecords ← rrset.mapM (canonicalRecord packet signature owner first)
    return rrsigPrefix signature ++ (sortDedup canonicalRecords).flatten

def signatureTimeSkew : Nat := 60 * 60

def rrsigTimeValid (signature : RrsigRecord) (now : Int) : Bool :=
  if now < 0 then false
  else
    let now := min now.toNat (2 ^ 32 - 1)
    decide (signature.inception ≤ now + signatureTimeSkew) &&
      decide (signature.expiration + signatureTimeSkew ≥ now)

end Resolved.Dnssec
