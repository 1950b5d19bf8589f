import Resolved.Dnssec.SignedData

namespace Resolved.Dnssec
open Lib Wire

def typeDnskey : Nat := 48

structure DnskeyRecord where
  flags : Nat
  protocol : UInt8
  algorithm : UInt8
  publicKey : Bytes
deriving DecidableEq, Repr

def parseDnskey (record : ResourceRecord) : Except WireError DnskeyRecord :=
  if record.rrType ≠ typeDnskey ∨ record.rdata.length < 4 then .error .invalidRecord
  else do
    let protocol ← byteAt record.rdata 2
    let publicKey := record.rdata.drop 4
    if protocol ≠ 3 ∨ publicKey.isEmpty then throw .invalidRecord
    else return {
      flags := ← readU16 record.rdata 0
      protocol
      algorithm := ← byteAt record.rdata 3
      publicKey }

def keyTagSum (rdata : Bytes) : Nat :=
  rdata.zipIdx.foldl (fun accumulator (byte, index) =>
    (accumulator + if index &&& 1 = 0 then byte.toNat <<< 8 else byte.toNat) % 2 ^ 32) 0

def dnskeyKeyTag (record : ResourceRecord) : Except WireError Nat :=
  if record.rrType ≠ typeDnskey ∨ record.rdata.length < 4 then .error .invalidRecord
  else do
    if (← byteAt record.rdata 3) = 1 then readU16 record.rdata (record.rdata.length - 3)
    else
      let accumulator := keyTagSum record.rdata
      return (accumulator + ((accumulator >>> 16) &&& 0xffff)) % 2 ^ 32 &&& 0xffff

def dnskeyFlagRevoke : Nat := 1 <<< 7
def dnskeyFlagZoneKey : Nat := 1 <<< 8

abbrev NativeVerify := UInt8 → Bytes → Bytes → Bytes → Int

def verifySignature (resolvedDnssecVerify : NativeVerify) (algorithm : UInt8)
    (key data signature : Bytes) : Except DnssecError Bool :=
  if algorithm ∉ [5, 7, 8, 10, 13, 14, 15] then .error (.unsupportedAlgorithm algorithm)
  else
    let result := resolvedDnssecVerify algorithm key data signature
    if result = 1 then .ok true
    else if result = 0 then .ok false
    else if result < 0 then .error (.os (-result))
    else .error (.invalidData "invalid DNSSEC signature verification result".toList)

def verifyRrsig (resolvedDnssecVerify : NativeVerify) (packet : Packet)
    (rrsigRecord : ResourceRecord) (rrset : List ResourceRecord) (dnskeyRecord : ResourceRecord)
    (now : Int) : Except DnssecError Bool :=
  match rrset with
  | [] => .error (.wire .invalidRecord)
  | first :: _ => do
    let signature ← fromWire (parseRrsig packet rrsigRecord)
    let dnskey ← fromWire (parseDnskey dnskeyRecord)
    if rrsigRecord.cls ≠ first.cls ∨ rrsigRecord.name.canonicalWire ≠ first.name.canonicalWire ∨
        dnskeyRecord.cls ≠ first.cls ∨ dnskeyRecord.name.canonicalWire ≠ signature.signer.canonicalWire ∨
        dnskey.algorithm ≠ signature.algorithm then
      return false
    else
      let keyTag ← fromWire (dnskeyKeyTag dnskeyRecord)
      if keyTag ≠ signature.keyTag ∨ dnskey.flags &&& dnskeyFlagZoneKey = 0 ∨
          dnskey.flags &&& dnskeyFlagRevoke ≠ 0 ∨ (rrset.any fun record => record.ttl > signature.originalTtl) ∨
          !rrsigTimeValid signature now then
        return false
      else
        let signedData ← canonicalSignedData packet rrsigRecord rrset
        verifySignature resolvedDnssecVerify signature.algorithm dnskey.publicKey signedData
          signature.signature

end Resolved.Dnssec
