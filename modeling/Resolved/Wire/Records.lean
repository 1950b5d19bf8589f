import Resolved.Net
import Resolved.Wire.Codec

/-!
# Records of the answer section

What lookups take out of a response. A hash map is the list of its entries, of which the first for a
key counts.
-/

namespace Resolved.Wire
open Lib

def typeTxt : Nat := 16
def typeSrv : Nat := 33
def typeDname : Nat := 39
def maxRedirectChain : Nat := 64

def walkRecords {σ : Type} (packet : Packet) (visit : σ → ResourceRecord → Except WireError σ) :
    Nat → Nat → σ → Except WireError σ
  | 0, _, state => .ok state
  | count + 1, offset, state => do
    let record ← parseRecord packet offset
    let state ← visit state record
    walkRecords packet visit count record.nextOffset state

def walkAnswers {σ : Type} (packet : Packet) (visit : σ → ResourceRecord → Except WireError σ)
    (start : σ) : Except WireError σ := do
  let header ← Header.parse packet
  if !header.isResponse then throw .wrongDirection
  else
    let (_, offset) ← parseQuestions packet header.questionCount dnsHeaderLen
    walkRecords packet visit header.answerCount offset start

/-! ## Whole records -/

structure AnswerRecord where
  name : DnsName
  rrType : Nat
  cls : Nat
  ttl : Nat
  raw : Bytes
deriving DecidableEq, Repr

def rawOf (record : ResourceRecord) : Bytes :=
  record.name.canonicalWire ++ toBe16 record.rrType ++ toBe16 record.cls ++ toBe32 record.ttl ++
    toBe16 record.rdata.length ++ record.rdata

def answerRecord (record : ResourceRecord) : Except WireError AnswerRecord :=
  if 65535 < record.rdata.length then .error .invalidRecord
  else .ok ⟨record.name, record.rrType, record.cls, record.ttl, rawOf record⟩

def extractAnswerRecords (packet : Packet) : Except WireError (List AnswerRecord) :=
  walkAnswers packet (fun output record => do return output ++ [← answerRecord record]) []

/-! ## Services -/

structure SrvRecord where
  priority : Nat
  weight : Nat
  port : Nat
  target : DnsName
deriving DecidableEq, Repr

structure ServiceRecords where
  srv : List SrvRecord
  txt : List Bytes
deriving DecidableEq, Repr

def srvRecord (packet : Packet) (record : ResourceRecord) : Except WireError SrvRecord :=
  if record.rdata.length < 7 then .error .invalidRecord
  else do
    let (target, targetEnd) ← readName packet (record.rdataOffset + 6)
    if targetEnd ≠ record.nextOffset then throw .invalidRecord
    else
      return {
        priority := ← readU16 packet record.rdataOffset
        weight := ← readU16 packet (record.rdataOffset + 2)
        port := ← readU16 packet (record.rdataOffset + 4)
        target := target }

def txtItems (packet : Packet) (stop : Nat) : Nat → Nat → Except WireError (List Bytes)
  | 0, _ => .ok []
  | fuel + 1, cursor =>
    if cursor < stop then do
      let length ← byteAt packet cursor
      let itemEnd := cursor + 1 + length.toNat
      let item ← okOr .invalidRecord ((slice packet (cursor + 1) itemEnd).filter fun _ =>
        itemEnd ≤ stop)
      let rest ← txtItems packet stop fuel itemEnd
      return if item.isEmpty then rest else item :: rest
    else .ok []

def visitService (packet : Packet) (output : ServiceRecords) (record : ResourceRecord) :
    Except WireError ServiceRecords :=
  if record.cls ≠ classIn then .ok output
  else if record.rrType = typeSrv then do
    return { output with srv := output.srv ++ [← srvRecord packet record] }
  else if record.rrType = typeTxt then do
    let items ← txtItems packet record.nextOffset (record.nextOffset - record.rdataOffset)
      record.rdataOffset
    return { output with txt := output.txt ++ items }
  else .ok output

def extractServiceRecords (packet : Packet) : Except WireError ServiceRecords :=
  walkAnswers packet (visitService packet) ⟨[], []⟩

/-! ## Names of an address -/

def visitPtr (packet : Packet) (output : List Str) (record : ResourceRecord) :
    Except WireError (List Str) :=
  if record.cls = classIn ∧ record.rrType = typePtr then do
    let (target, _) ← readName packet record.rdataOffset
    return output ++ [target.text]
  else .ok output

def extractPtrNames (packet : Packet) : Except WireError (List Str) :=
  walkAnswers packet (visitPtr packet) []

/-! ## Addresses -/

structure AddressRecords where
  addresses : List IpAddr
  canonicalName : Str
deriving DecidableEq, Repr

abbrev Redirects := List (Bytes × DnsName)

structure AddressAnswerSet where
  aliases : Redirects
  dnames : Redirects
  addresses : List (Bytes × List IpAddr)
deriving DecidableEq, Repr

def insertRedirect (packet : Packet) (record : ResourceRecord) (redirects : Redirects) :
    Except WireError Redirects := do
  let (target, stop) ← readName packet record.rdataOffset
  if stop ≠ record.nextOffset then throw .invalidRecord
  else
    match redirects.lookup record.name.canonicalWire with
    | some existing =>
      if existing.canonicalWire ≠ target.canonicalWire then throw .invalidRecord
      else return redirects
    | none => return redirects ++ [(record.name.canonicalWire, target)]

def insertAddress (addresses : List (Bytes × List IpAddr)) (owner : Bytes) (address : IpAddr) :
    List (Bytes × List IpAddr) :=
  match addresses.lookup owner with
  | none => addresses ++ [(owner, [address])]
  | some values =>
    if address ∈ values then addresses
    else addresses.map fun entry =>
      if entry.1 = owner then (owner, values ++ [address]) else entry

def ipv4Of : Bytes → Option IpAddr
  | [a, b, c, d] => some (.v4 ⟨a, b, c, d⟩)
  | _ => none

def ipv6Of : Bytes → Option IpAddr
  | [a, b, c, d, e, f, g, h, i, j, k, l, m, n, o, p] =>
    let segment (high low : UInt8) : UInt16 := UInt16.ofNat (be16 high low)
    some (.v6 ⟨segment a b, segment c d, segment e f, segment g h, segment i j, segment k l,
      segment m n, segment o p⟩)
  | _ => none

def visitAddress (packet : Packet) (output : AddressAnswerSet) (record : ResourceRecord) :
    Except WireError AddressAnswerSet :=
  if record.cls ≠ classIn then .ok output
  else if record.rrType = typeCname then do
    return { output with aliases := ← insertRedirect packet record output.aliases }
  else if record.rrType = typeDname then do
    return { output with dnames := ← insertRedirect packet record output.dnames }
  else if record.rrType = typeA then do
    let address ← okOr .invalidRecord (ipv4Of record.rdata)
    return { output with
      addresses := insertAddress output.addresses record.name.canonicalWire address }
  else if record.rrType = typeAaaa then do
    let address ← okOr .invalidRecord (ipv6Of record.rdata)
    return { output with
      addresses := insertAddress output.addresses record.name.canonicalWire address }
  else .ok output

def parseAddressAnswers (packet : Packet) (answerCount offset : Nat) :
    Except WireError AddressAnswerSet := do
  let output ← walkRecords packet (visitAddress packet) answerCount offset ⟨[], [], []⟩
  if output.aliases.any fun entry =>
      (output.addresses.lookup entry.1).isSome || (output.dnames.lookup entry.1).isSome then
    throw .invalidRecord
  else return output

def rewriteDnameText (current : Str) (prefixLabels : Nat) (target : Str) : Except WireError Str :=
  let labels := if current = ['.'] then [] else splitAtChar '.' current
  if labels.length < prefixLabels then .error .invalidRecord
  else
    let front := ['.'].intercalate (labels.take prefixLabels)
    if front.isEmpty then .ok target
    else if target = ['.'] then .ok front
    else .ok (front ++ '.' :: target)

def rewrittenName (current : DnsName) (suffixOffset prefixLabels : Nat) (target : DnsName) :
    Except WireError DnsName :=
  let front := current.canonicalWire.take suffixOffset
  if 255 < front.length + target.canonicalWire.length then .error .nameTooLong
  else do
    let text ← rewriteDnameText current.text prefixLabels target.text
    return ⟨text, front ++ target.canonicalWire⟩

def rewriteDnameFrom (current : DnsName) (dnames : Redirects) :
    Nat → Nat → Nat → Except WireError (Option DnsName)
  | 0, _, _ => .error .invalidRecord
  | fuel + 1, suffixOffset, prefixLabels =>
    match dnames.lookup (current.canonicalWire.drop suffixOffset) with
    | some target => do return some (← rewrittenName current suffixOffset prefixLabels target)
    | none =>
      match current.canonicalWire[suffixOffset]? with
      | none => .error .invalidRecord
      | some length =>
        if length = 0 then .ok none
        else if 63 < length then .error .invalidRecord
        else if current.canonicalWire.length ≤ suffixOffset + (length.toNat + 1) then
          .error .invalidRecord
        else
          rewriteDnameFrom current dnames fuel (suffixOffset + (length.toNat + 1))
            (prefixLabels + 1)

def rewriteDname (current : DnsName) (dnames : Redirects) : Except WireError (Option DnsName) :=
  rewriteDnameFrom current dnames (current.canonicalWire.length + 1) 0 0

def familyMatches (family : Option Int) (address : IpAddr) : Bool :=
  match family, address with
  | none, _ => true
  | some family, .v4 _ => family == 2
  | some family, .v6 _ => family == 10

def followChain (answers : AddressAnswerSet) (family : Option Int) :
    Nat → List Bytes → DnsName → Except WireError AddressRecords
  | 0, _, _ => .error .invalidRecord
  | fuel + 1, visited, current =>
    if current.canonicalWire ∈ visited then .error .invalidRecord
    else
      let visited := current.canonicalWire :: visited
      match answers.aliases.lookup current.canonicalWire with
      | some target => followChain answers family fuel visited target
      | none => do
        match ← rewriteDname current answers.dnames with
        | some target => followChain answers family fuel visited target
        | none =>
          let values := (answers.addresses.lookup current.canonicalWire).getD []
          return ⟨values.filter (familyMatches family), current.text⟩

def resolveAddressChain (question : DnsName) (answers : AddressAnswerSet) (family : Option Int) :
    Except WireError AddressRecords :=
  followChain answers family maxRedirectChain [] question

def extractAddressRecords (packet : Packet) (family : Option Int) :
    Except WireError AddressRecords := do
  let header ← Header.parse packet
  if !header.isResponse then throw .wrongDirection
  else if header.questionCount ≠ 1 then throw (.wrongQuestionCount header.questionCount)
  else
    let question ← parseQuestion packet dnsHeaderLen
    let answers ← parseAddressAnswers packet header.answerCount question.nextOffset
    resolveAddressChain question.name answers family

end Resolved.Wire
