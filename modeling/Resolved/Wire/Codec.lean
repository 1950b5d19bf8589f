import Resolved.Lib.Bytes
import Resolved.Lib.Result
import Resolved.Lib.Text

namespace Resolved.Wire
open Lib

abbrev Packet := Bytes

def dnsHeaderLen : Nat := 12
def classIn : Nat := 1
def classAny : Nat := 255
def typeA : Nat := 1
def typeCname : Nat := 5
def typeSoa : Nat := 6
def typePtr : Nat := 12
def typeAaaa : Nat := 28
def typeOpt : Nat := 41
def typeRrsig : Nat := 46
def typeTsig : Nat := 250
def typeAny : Nat := 255

def flagQr : Nat := 0x8000
def flagOpcode : Nat := 0x7800
def flagAa : Nat := 0x0400
def flagTc : Nat := 0x0200
def flagRd : Nat := 0x0100
def flagRa : Nat := 0x0080
def flagAd : Nat := 0x0020
def flagCd : Nat := 0x0010
def rcodeMask : Nat := 0x000f

inductive WireError where
  | shortPacket
  | invalidLabel
  | compressionLoop
  | nameTooLong
  | trailingData
  | wrongDirection
  | unsupportedOpcode (opcode : Nat)
  | wrongQuestionCount (count : Nat)
  | noQuestion
  | questionMismatch
  | invalidName (name : Str)
  | invalidRecord
  | cnameLoop
  | responseTooLarge
deriving DecidableEq, Repr

def byteAt (packet : Packet) (offset : Nat) : Except WireError UInt8 :=
  okOr .shortPacket packet[offset]?

def readU16 (packet : Packet) (offset : Nat) : Except WireError Nat := do
  let a ← byteAt packet offset
  let b ← byteAt packet (offset + 1)
  return be16 a b

def readU32 (packet : Packet) (offset : Nat) : Except WireError Nat := do
  let a ← byteAt packet offset
  let b ← byteAt packet (offset + 1)
  let c ← byteAt packet (offset + 2)
  let d ← byteAt packet (offset + 3)
  return be32 a b c d

def writeU16 (packet : Packet) (offset value : Nat) : Except WireError Packet :=
  if offset + 2 ≤ packet.length then .ok (overwrite packet offset (toBe16 value))
  else .error .shortPacket

def writeU32 (packet : Packet) (offset value : Nat) : Except WireError Packet :=
  if offset + 4 ≤ packet.length then .ok (overwrite packet offset (toBe32 value))
  else .error .shortPacket

structure Header where
  id : Nat
  flags : Nat
  questionCount : Nat
  answerCount : Nat
  authorityCount : Nat
  additionalCount : Nat
deriving DecidableEq, Repr

namespace Header

def parse (packet : Packet) : Except WireError Header :=
  if packet.length < dnsHeaderLen then .error .shortPacket
  else do
    return {
      id := ← readU16 packet 0
      flags := ← readU16 packet 2
      questionCount := ← readU16 packet 4
      answerCount := ← readU16 packet 6
      authorityCount := ← readU16 packet 8
      additionalCount := ← readU16 packet 10 }

def isResponse (header : Header) : Bool := header.flags &&& flagQr != 0
def truncated (header : Header) : Bool := header.flags &&& flagTc != 0
def responseCode (header : Header) : Nat := header.flags &&& rcodeMask
def checkingDisabled (header : Header) : Bool := header.flags &&& flagCd != 0
def opcode (header : Header) : Nat := (header.flags &&& flagOpcode) >>> 11

def totalRecords (header : Header) : Nat :=
  header.answerCount + header.authorityCount + header.additionalCount

end Header

structure DnsName where
  text : Str
  canonicalWire : Bytes
deriving DecidableEq, Repr

def displayByte (byte : UInt8) : Str :=
  let n := byte.toNat
  if (65 ≤ n ∧ n ≤ 90) ∨ (97 ≤ n ∧ n ≤ 122) ∨ (48 ≤ n ∧ n ≤ 57) ∨ n = 45 ∨ n = 95 then
    [Char.ofNat n]
  else
    ['\\', Char.ofNat (48 + n / 100), Char.ofNat (48 + n / 10 % 10), Char.ofNat (48 + n % 10)]

def displayLabel (label : Bytes) : Str := label.flatMap displayByte

structure NameCursor where
  cursor : Nat
  nextOffset : Nat
  jumped : Bool
  pointerSteps : Nat
  expandedLength : Nat
  labels : List Str
  canonicalWire : Bytes
deriving DecidableEq, Repr

inductive NameProgress where
  | done (state : NameCursor)
  | more (state : NameCursor)
deriving DecidableEq, Repr

def pointerTarget (first second : UInt8) : Nat := (first &&& 0x3f).toNat * 256 + second.toNat

def nameStep (packet : Packet) (s : NameCursor) : Except WireError NameProgress := do
  let length ← byteAt packet s.cursor
  if length = 0 then
    return .done { s with
      nextOffset := if s.jumped then s.nextOffset else s.cursor + 1
      canonicalWire := s.canonicalWire ++ [0] }
  else if length &&& 0xc0 = 0xc0 then
    let second ← byteAt packet (s.cursor + 1)
    let pointer := pointerTarget length second
    if pointer ≥ s.cursor ∨ pointer ≥ packet.length then throw .compressionLoop
    else if s.pointerSteps + 1 > 128 then throw .compressionLoop
    else return .more { s with
      nextOffset := if s.jumped then s.nextOffset else s.cursor + 2
      jumped := true
      cursor := pointer
      pointerSteps := s.pointerSteps + 1 }
  else if length &&& 0xc0 ≠ 0 ∨ length > 63 then throw .invalidLabel
  else
    let start := s.cursor + 1
    let stop := start + length.toNat
    let label ← okOr .shortPacket (slice packet start stop)
    if s.expandedLength + (length.toNat + 1) > 255 then throw .nameTooLong
    else return .more { s with
      cursor := stop
      nextOffset := if s.jumped then s.nextOffset else stop
      expandedLength := s.expandedLength + (length.toNat + 1)
      labels := s.labels ++ [displayLabel label]
      canonicalWire := s.canonicalWire ++ length :: label.map asciiLower }

/-- The loop of `read_name`. Every turn that goes on uses up one of the 128 pointer steps or two of
the 255 octets of the expanded name, so `nameFuel` turns are more than the loop can take. -/
def nameLoop (packet : Packet) : Nat → NameCursor → Except WireError NameCursor
  | 0, _ => .error .compressionLoop
  | fuel + 1, s => do
    match ← nameStep packet s with
    | .done s => return s
    | .more s => nameLoop packet fuel s

def nameFuel : Nat := 400

def nameStart (offset : Nat) : NameCursor :=
  ⟨offset, offset, false, 0, 1, [], []⟩

def nameText (labels : List Str) : Str :=
  if labels.isEmpty then ['.'] else ['.'].intercalate labels

def readName (packet : Packet) (offset : Nat) : Except WireError (DnsName × Nat) :=
  if offset ≥ packet.length then .error .shortPacket
  else do
    let s ← nameLoop packet nameFuel (nameStart offset)
    return (⟨nameText s.labels, s.canonicalWire⟩, s.nextOffset)

def encodeName (name : Str) : Except WireError Bytes :=
  let stripped := (stripSuffix name ['.']).getD name
  if stripped.isEmpty then .ok [0]
  else if !isAscii stripped then .error (.invalidName name)
  else
    let labels := splitAtChar '.' stripped
    if labels.any fun label => label.isEmpty || label.length > 63 then .error (.invalidName name)
    else
      let output : Bytes := (labels.flatMap fun label =>
        UInt8.ofNat label.length :: label.map fun c => UInt8.ofNat c.toNat) ++ [0]
      if output.length > 255 then .error .nameTooLong else .ok output

structure Question where
  name : DnsName
  rrType : Nat
  cls : Nat
  nextOffset : Nat
deriving DecidableEq, Repr

structure ResourceRecord where
  name : DnsName
  rrType : Nat
  cls : Nat
  ttl : Nat
  ttlOffset : Nat
  rdataOffset : Nat
  rdata : Bytes
  nextOffset : Nat
deriving DecidableEq, Repr

def parseQuestion (packet : Packet) (offset : Nat) : Except WireError Question := do
  let (name, offset) ← readName packet offset
  let rrType ← readU16 packet offset
  let cls ← readU16 packet (offset + 2)
  return ⟨name, rrType, cls, offset + 4⟩

def parseRecord (packet : Packet) (offset : Nat) : Except WireError ResourceRecord := do
  let (name, offset) ← readName packet offset
  let rrType ← readU16 packet offset
  let cls ← readU16 packet (offset + 2)
  let ttl ← readU32 packet (offset + 4)
  let rdataLength ← readU16 packet (offset + 8)
  let nextOffset := offset + 10 + rdataLength
  let rdata ← okOr .shortPacket (slice packet (offset + 10) nextOffset)
  return ⟨name, rrType, cls, ttl, offset + 4, offset + 10, rdata, nextOffset⟩

def parseQuestions (packet : Packet) : Nat → Nat → Except WireError (List Question × Nat)
  | 0, offset => .ok ([], offset)
  | count + 1, offset => do
    let question ← parseQuestion packet offset
    let (rest, stop) ← parseQuestions packet count question.nextOffset
    return (question :: rest, stop)

def parseRecords (packet : Packet) : Nat → Nat → Except WireError (List ResourceRecord × Nat)
  | 0, offset => .ok ([], offset)
  | count + 1, offset => do
    let record ← parseRecord packet offset
    let (rest, stop) ← parseRecords packet count record.nextOffset
    return (record :: rest, stop)

structure Sections where
  header : Header
  questions : List Question
  records : List ResourceRecord
  stop : Nat
deriving DecidableEq, Repr

def parseSections (packet : Packet) : Except WireError Sections := do
  let header ← Header.parse packet
  let (questions, offset) ← parseQuestions packet header.questionCount dnsHeaderLen
  let (records, stop) ← parseRecords packet header.totalRecords offset
  return ⟨header, questions, records, stop⟩

end Resolved.Wire
