import Resolved.Spec.Rdata
import Resolved.Wire.Redirects
import Resolved.Wire.LocalAnswer

/-!
# What the records of an answer say

The names in a record, the redirections in a response and the records that answer a question.
-/

/-! ## What a record says on its own -/

namespace Resolved.Spec
open Lib Wire

def rdataNames (rrType : Nat) : Option (Nat × Nat) :=
  if rrType = 2 ∨ rrType = typeCname ∨ rrType = typePtr ∨ rrType = typeDname then some (0, 1)
  else if rrType = 15 then some (2, 1)
  else if rrType = typeSrv then some (6, 1)
  else if rrType = typeSoa then some (0, 2)
  else none

def namesRead (packet : Packet) (limit : Nat) : Nat → Nat → List DnsName
  | 0, _ => []
  | count + 1, offset =>
    match readName packet offset with
    | .error _ => []
    | .ok (name, stop) =>
      if stop ≤ limit then name :: namesRead packet limit count stop else []

def rawStart (record : ResourceRecord) : Nat := record.name.canonicalWire.length + 10

structure RawDetermines (packet : Packet) (record : ResourceRecord) (raw : Bytes) : Prop where
  parsed : ∃ again, parseRecord raw 0 = .ok again ∧ again.nextOffset = raw.length ∧
    again.rdataOffset = rawStart record ∧ again.name.canonicalWire = record.name.canonicalWire ∧
    again.rrType = record.rrType ∧ again.cls = record.cls ∧ again.ttl = record.ttl
  names : ∀ lead count, rdataNames record.rrType = some (lead, count) →
    namesRead raw raw.length count (rawStart record + lead) =
      namesRead packet record.nextOffset count (record.rdataOffset + lead)

def answerSection (packet : Packet) : Except WireError (List ResourceRecord) :=
  walkAnswers packet (fun records record => .ok (records ++ [record])) []

inductive Compressed (bytes : Bytes) : Nat → Prop
  | pointer {offset : Nat} {first : UInt8} (byte : bytes[offset]? = some first)
      (tag : first &&& 0xc0 = 0xc0) : Compressed bytes offset
  | label {offset : Nat} {length : UInt8} (byte : bytes[offset]? = some length) (nonzero : length ≠ 0)
      (plain : length &&& 0xc0 = 0) (rest : Compressed bytes (offset + 1 + length.toNat)) :
      Compressed bytes offset

def PlainNames (rdata : Bytes) : Nat → Nat → Prop
  | 0, _ => True
  | count + 1, offset => ¬Compressed rdata offset ∧
    ∀ labels stop, NameIn rdata offset labels 0 stop → PlainNames rdata count stop

def PlainRdata (record : ResourceRecord) : Prop :=
  ∀ lead count, rdataNames record.rrType = some (lead, count) → PlainNames record.rdata count lead

/-! ## Where the items of a lookup come from -/

inductive Reached (packet : Packet) (records : List ResourceRecord) (question : Bytes) : Bytes → Prop
  | question : Reached packet records question question
  | cname {record : ResourceRecord} {target : DnsName} {stop : Nat} (member : record ∈ records)
      (cls : record.cls = classIn) (rrType : record.rrType = typeCname)
      (owner : Reached packet records question record.name.canonicalWire)
      (read : readName packet record.rdataOffset = .ok (target, stop)) :
      Reached packet records question target.canonicalWire
  | dname {record : ResourceRecord} {target : DnsName} {stop : Nat} {front rear rest : Labels}
      (member : record ∈ records) (cls : record.cls = classIn) (rrType : record.rrType = typeDname)
      (owner : record.name.canonicalWire = wireOf rear)
      (below : Reached packet records question (wireOf (front ++ rear)))
      (read : readName packet record.rdataOffset = .ok (target, stop))
      (leads : target.canonicalWire = wireOf rest) :
      Reached packet records question (wireOf (front ++ rest))

section
variable (packet : Packet)

def ptrSaid (record : ResourceRecord) : List Str :=
  if record.cls = classIn ∧ record.rrType = typePtr then
    (readName packet record.rdataOffset).toOption.toList.map (·.1.text)
  else []

def srvSaid (record : ResourceRecord) : List SrvRecord :=
  if record.cls = classIn ∧ record.rrType = typeSrv then (srvRecord packet record).toOption.toList
  else []

def txtSaid (record : ResourceRecord) : List Bytes :=
  if record.cls = classIn ∧ record.rrType = typeTxt then
    (txtItems packet record.nextOffset (record.nextOffset - record.rdataOffset)
      record.rdataOffset).toOption.getD []
  else []

variable (records : List ResourceRecord) (question : Bytes)

open Classical in
noncomputable def saidByRelated {α : Type} (said : ResourceRecord → List α) : List α :=
  (records.filter fun record => Reached packet records question record.name.canonicalWire).flatMap said

def OnlyRelated {α : Type} (said : ResourceRecord → List α) : Prop :=
  ∀ record ∈ records, said record ≠ [] → Reached packet records question record.name.canonicalWire

end

def AsksOne (packet : Packet) (question : Question) : Prop :=
  ∃ header, Header.parse packet = .ok header ∧ header.questionCount = 1 ∧
    parseQuestion packet dnsHeaderLen = .ok question

/-!
## Where the redirections of a response lead

CNAME and DNAME records of a response redirect names. A DNAME record redirects the names below its
owner, and a lookup of addresses takes it to redirect the owner, too.
-/

section
variable (packet : Packet) (records : List ResourceRecord)

def firstTarget (rrType : Nat) (owner : Bytes) : Option DnsName :=
  (records.find? fun record => record.cls = classIn ∧ record.rrType = rrType ∧
    record.name.canonicalWire = owner).bind fun record =>
      (readName packet record.rdataOffset).toOption.map Prod.fst

def redirectAt (rrType : Nat) (owner : Labels) : Option DnsName :=
  firstTarget packet records rrType (wireOf (lowered owner))

inductive Redirected (own : Bool) : Labels → Labels → Prop
  | cname {name target : Labels} (legal : LegalName target)
      (here : redirectAt packet records typeCname name = some (nameWith target)) :
      Redirected own name target
  | dname {front rear target : Labels} (legal : LegalName target)
      (noAlias : redirectAt packet records typeCname (front ++ rear) = none)
      (covers : own = true ∨ front ≠ [])
      (here : redirectAt packet records typeDname rear = some (nameWith target))
      (closest : ∀ before after, front = before ++ after → own = true ∨ before ≠ [] → after ≠ [] →
        redirectAt packet records typeDname (after ++ rear) = none)
      (fits : LegalName (front ++ target)) : Redirected own (front ++ rear) (front ++ target)

def Unredirected (name : Labels) : Prop :=
  redirectAt packet records typeCname name = none ∧
    ∀ front rear, name = front ++ rear → redirectAt packet records typeDname rear = none

inductive RedirectChain : Nat → Labels → Labels → Prop
  | stop {name : Labels} (unredirected : Unredirected packet records name) :
      RedirectChain 0 name name
  | step {steps : Nat} {name next last : Labels}
      (redirected : Redirected packet records true name next)
      (rest : RedirectChain steps next last) : RedirectChain (steps + 1) name last

def HasRecord (rrType : Nat) (name : Labels) : Prop :=
  ∃ record ∈ records, record.cls = classIn ∧ record.rrType = rrType ∧
    record.name.canonicalWire = wireOf (lowered name)

inductive AnsweredAt (rrType : Nat) : Labels → Labels → Prop
  | here {name : Labels} (owned : HasRecord records rrType name) : AnsweredAt rrType name name
  | step {name next last : Labels} (empty : ¬ HasRecord records rrType name)
      (redirected : Redirected packet records false name next)
      (rest : AnsweredAt rrType next last) : AnsweredAt rrType name last

def LedAlike (question : Question) : Prop :=
  ∃ asked last steps, LegalName asked ∧ question.name = nameWith asked ∧ steps < maxRedirectChain ∧
    RedirectChain packet records steps asked last ∧ AnsweredAt packet records question.rrType asked last

end

section
variable (records : List ResourceRecord)

def IsAddressRecord (record : ResourceRecord) : Prop :=
  record.cls = classIn ∧ (record.rrType = typeA ∨ record.rrType = typeAaaa)

def addressOf (record : ResourceRecord) : Option IpAddr :=
  if record.cls ≠ classIn then none
  else if record.rrType = typeA then ipv4Of record.rdata
  else if record.rrType = typeAaaa then ipv6Of record.rdata
  else none

def WellFormedAddresses : Prop :=
  ∀ record ∈ records, IsAddressRecord record → (addressOf record).isSome

def AliasesApart : Prop :=
  ∀ record ∈ records, ∀ other ∈ records, record.cls = classIn → record.rrType = typeCname →
    IsAddressRecord other → other.name.canonicalWire ≠ record.name.canonicalWire

def HasAddress (name : Str) (family : Option Int) (address : IpAddr) : Prop :=
  ∃ record ∈ records, eqIgnoreAsciiCase record.name.text name = true ∧
    addressOf record = some address ∧ familyMatches family address = true

end

structure TakesDirect (packet : Packet) (records : List ResourceRecord) (family : Option Int)
    (name : Str) : Prop where
  exact : ∀ found, extractAddressRecords packet family = .ok found → found.canonicalName = name ∧
    ∀ address, address ∈ found.addresses ↔ HasAddress records name family address
  succeeds : WellFormedAddresses records → ∃ found, extractAddressRecords packet family = .ok found

/-! ## What a local answer says -/

def PlainQuestion (query : Packet) : Prop :=
  ∃ labels stop, NameIn query dnsHeaderLen labels 0 stop

def typeMatches (question : Question) (rrType : Nat) : Bool :=
  question.rrType == typeAny || rrType == question.rrType

def classMatches (question : Question) (cls : Nat) : Bool :=
  question.cls == classAny || cls == question.cls

structure LocallyAnswered {α : Type} (query response : Packet) (question : Question) (given : List α)
    (carries : α → ResourceRecord → Prop) : Prop where
  valid : validate response true = .ok ()
  sections : ∃ asked header records, Header.parse query = .ok asked ∧
    parseSections response = .ok ⟨header, [question], records, response.length⟩ ∧
    header.id = asked.id ∧ header.answerCount = records.length ∧ header.authorityCount = 0 ∧
    header.additionalCount = 0 ∧ List.Forall₂ carries given records

structure CarriesLocal (response : Packet) (question : Question) (ttl : Nat) (given : LocalRecord)
    (record : ResourceRecord) : Prop where
  owner : record.name = question.name
  rrType : record.rrType = given.rrType
  cls : record.cls = classIn
  ttl : record.ttl = ttl
  data : given.rdata = .ok record.rdata
  target : ∀ name, given = .ptr name → ∃ labels, encodeName name = .ok (wireOf labels) ∧
    readName response record.rdataOffset = .ok (nameWith labels, record.nextOffset)

structure CarriesStatic (question : Question) (given : StaticRecord) (record : ResourceRecord) :
    Prop where
  owner : record.name = question.name
  rrType : record.rrType = given.rrType
  cls : record.cls = given.cls
  ttl : record.ttl = 0
  data : record.rdata = given.rdata

end Resolved.Spec
