import Resolved.Dnssec.Verify
import Resolved.Spec.Names

/-!
# What signatures cover

The order in which the records of an RRset are signed, and what a verified signature vouches for.
-/

/-! ## Signed data -/

namespace Resolved.Spec
open Lib Wire Dnssec

def RdataOf (packet : Packet) (rrset : List ResourceRecord) (data : Bytes) : Prop :=
  ∃ record ∈ rrset, canonicalRdata packet record = .ok data

def InRdataOrder (packet : Packet) (signature : RrsigRecord) (rrset : List ResourceRecord)
    (output : Bytes) : Prop :=
  ∃ first owner, ∃ datas : List Bytes, rrset.head? = some first ∧
    canonicalOwner first.name.canonicalWire signature.labels = .ok owner ∧
    datas.Pairwise (· < ·) ∧ (∀ data, data ∈ datas ↔ RdataOf packet rrset data) ∧
    output = rrsigPrefix signature ++
      datas.flatMap (signedRecord owner first.rrType first.cls signature.originalTtl)

/-!
## What a verified RRSIG vouches for

The signer is the zone that holds the records, so its name is the owner's or an ancestor of it, and
the labels counted by the RRSIG lie between the two.
-/

def Covered (signature : RrsigRecord) (rrsigRecord : ResourceRecord)
    (rrset : List ResourceRecord) : Prop :=
  ∀ record ∈ rrset, record.rrType = signature.typeCovered ∧ record.cls = rrsigRecord.cls ∧
    record.name.canonicalWire = rrsigRecord.name.canonicalWire

structure SignedByZone (signature : RrsigRecord) (owner signer : Labels) : Prop where
  ancestor : signer <:+ owner
  labels : signer.length ≤ signature.labels.toNat
  period : signature.inception ≤ signature.expiration

def Authentic (signature : RrsigRecord) (rrsigRecord : ResourceRecord)
    (rrset : List ResourceRecord) : Prop :=
  Covered signature rrsigRecord rrset ∧ ∃ owner signer,
    NameOf rrsigRecord.name.canonicalWire owner ∧ NameOf signature.signer.canonicalWire signer ∧
    signature.labels.toNat ≤ owner.length ∧ SignedByZone signature owner signer

end Resolved.Spec
