import Resolved.Dnssec.SignedData
import Resolved.Spec.Names

/-!
# What the RDATA of a record says

RDATA with domain names in it is a run of octets, the names, and a run of octets behind them. Two
records say the same when these agree, however their names are compressed and written.
-/

namespace Resolved.Spec
open Lib Wire Dnssec

inductive NameIn (packet : Packet) : Nat → Labels → Nat → Nat → Prop
  | root {offset : Nat} (zero : packet[offset]? = some 0) : NameIn packet offset [] 0 (offset + 1)
  | pointer {offset pointers stop : Nat} {first second : UInt8} {labels : Labels}
      (byte : packet[offset]? = some first) (tag : first &&& 0xc0 = 0xc0)
      (byte' : packet[offset + 1]? = some second) (back : pointerTarget first second < offset)
      (rest : NameIn packet (pointerTarget first second) labels pointers stop) :
      NameIn packet offset labels (pointers + 1) (offset + 2)
  | label {offset pointers stop : Nat} {length : UInt8} {label : Bytes} {labels : Labels}
      (byte : packet[offset]? = some length) (nonzero : length ≠ 0) (plain : length &&& 0xc0 = 0)
      (part : slice packet (offset + 1) (offset + 1 + length.toNat) = some label)
      (rest : NameIn packet (offset + 1 + length.toNat) labels pointers stop) :
      NameIn packet offset (label :: labels) pointers stop

inductive NamesIn (packet : Packet) (limit : Nat) : Nat → List Labels → Nat → Prop
  | nil {offset : Nat} : NamesIn packet limit offset [] offset
  | cons {offset pointers middle stop : Nat} {labels : Labels} {names : List Labels}
      (here : NameIn packet offset labels pointers middle) (few : pointers ≤ limit)
      (legal : LegalName labels) (rest : NamesIn packet limit middle names stop) :
      NamesIn packet limit offset (labels :: names) stop

structure RdataContent where
  lead : Bytes
  names : List Labels
  tail : Bytes

namespace RdataContent

def lowered (content : RdataContent) : RdataContent :=
  { content with names := content.names.map Spec.lowered }

def wire (content : RdataContent) : Bytes :=
  content.lead ++ content.names.flatMap wireOf ++ content.tail

end RdataContent

def characterString (octets : Bytes) : Bytes := UInt8.ofNat octets.length :: octets

def Fits : RdataForm → RdataContent → Prop
  | .singleName lead, content => content.lead.length = lead ∧ content.names.length = 1
  | .twoNames lead, content =>
    content.lead.length = lead ∧ content.names.length = 2 ∧ content.tail = []
  | .soa, content => content.lead = [] ∧ content.names.length = 2 ∧ content.tail.length = 20
  | .naptr, content =>
    (∃ (fixed : Bytes) (strings : List Bytes), fixed.length = 4 ∧ strings.length = 3 ∧
      (∀ octets ∈ strings, octets.length < 256) ∧ content.lead = fixed ++ strings.flatMap characterString) ∧
    content.names.length = 1 ∧ content.tail = []
  | .plain, content => content.names = [] ∧ content.tail = []

structure RdataAt (packet : Packet) (limit : Nat) (record : ResourceRecord)
    (content : RdataContent) : Prop where
  places : ∃ start stop, slice packet record.rdataOffset start = some content.lead ∧
    NamesIn packet limit start content.names stop ∧ slice packet stop record.nextOffset = some content.tail
  fits : Fits (rdataForm record.rrType) content

/-- Two records, each in a packet of its own, that differ at most in their TTLs, in the case of
their owners and of the names in their RDATA, and in the compression of these names, which takes no
more than `limit` pointers for each. -/
structure SameSigned (limit : Nat) (packet packet' : Packet) (record record' : ResourceRecord) :
    Prop where
  parsed : ∃ start, parseRecord packet start = .ok record
  parsed' : ∃ start, parseRecord packet' start = .ok record'
  owner : record'.name.canonicalWire = record.name.canonicalWire
  rrType : record'.rrType = record.rrType
  cls : record'.cls = record.cls
  rdata : ∃ content content', RdataAt packet limit record content ∧
    RdataAt packet' limit record' content' ∧ content'.lowered = content.lowered

structure SameRrset (limit : Nat) (packet packet' : Packet) (rrset rrset' : List ResourceRecord) :
    Prop where
  left : ∀ record ∈ rrset, ∃ record' ∈ rrset', SameSigned limit packet packet' record record'
  right : ∀ record' ∈ rrset', ∃ record ∈ rrset, SameSigned limit packet packet' record record'

end Resolved.Spec
