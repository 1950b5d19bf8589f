import Resolved.Net
import Resolved.Wire.Message

namespace Resolved.Wire
open Lib

inductive LocalRecord where
  | a (address : Ipv4Addr)
  | aaaa (address : Ipv6Addr)
  | ptr (name : Str)
deriving DecidableEq, Repr

def LocalRecord.rrType : LocalRecord → Nat
  | .a _ => typeA
  | .aaaa _ => typeAaaa
  | .ptr _ => typePtr

def LocalRecord.rdata : LocalRecord → Except WireError Bytes
  | .a address => .ok address.octets
  | .aaaa address => .ok address.octets
  | .ptr name => encodeName name

def answerHead (query : Packet) (set clear rcode : Nat) : Except WireError Packet := do
  validate query false
  let stop ← questionEnd query
  let response := query.take stop
  let flags ← readU16 response 2
  let flags := ((flags ||| set) &&& (0xffff ^^^ clear)) ||| rcode
  let response ← writeU16 response 2 flags
  return overwrite response 6 [0, 0, 0, 0, 0, 0]

def refusedFor (query : Packet) : Except WireError Packet :=
  answerHead query (flagQr ||| flagRa) (flagAa ||| flagTc ||| rcodeMask) 5

def pushRecord (response : Packet) (rrType cls ttl : Nat) (rdata : Bytes) :
    Except WireError Packet :=
  if rdata.length > 65535 then .error .responseTooLarge
  else
    let response := response ++ [0xc0, 0x0c] ++ toBe16 rrType ++ toBe16 cls ++ toBe32 ttl ++
      toBe16 rdata.length ++ rdata
    if response.length > 65535 then .error .responseTooLarge else .ok response

def pushLocalRecord (questionType ttl : Nat) (response : Packet) (record : LocalRecord) :
    Except WireError Packet :=
  if record.rrType ≠ questionType ∧ questionType ≠ 255 then .ok response
  else do
    let rdata ← record.rdata
    pushRecord response record.rrType classIn ttl rdata

/-- The loop of `count_records_after_question`: every record takes more than ten bytes, so the
length of the packet bounds its turns. -/
def countRecords (packet : Packet) : Nat → Nat → Nat → Except WireError Nat
  | 0, _, count => .ok count
  | fuel + 1, offset, count =>
    if offset < packet.length then do
      let record ← parseRecord packet offset
      if count + 1 > 65535 then throw .responseTooLarge
      else countRecords packet fuel record.nextOffset (count + 1)
    else .ok count

def countRecordsAfterQuestion (packet : Packet) (offset : Nat) : Except WireError Nat :=
  countRecords packet packet.length offset 0

def localResponse (query : Packet) (records : List LocalRecord) (ttl : Nat) :
    Except WireError Packet := do
  let head ← answerHead query (flagQr ||| flagRa) (flagAa ||| flagTc ||| rcodeMask) 0
  let question ← firstQuestion query
  if records.length > 65535 then throw .responseTooLarge
  else
    -- the unfiltered count stands in the header while the records are counted
    let head := overwrite head 6 (toBe16 records.length)
    let response ← records.foldlM (pushLocalRecord question.rrType ttl) head
    let actualAnswers ← countRecordsAfterQuestion response head.length
    writeU16 response 6 actualAnswers

structure StaticRecord where
  cls : Nat
  rrType : Nat
  rdata : Bytes
  admitted : rrType ∈ [1, 28, 12, 2, 5, 39]
deriving DecidableEq

def pushStaticRecord (question : Question) (state : Packet × Nat) (resource : StaticRecord) :
    Except WireError (Packet × Nat) :=
  if question.cls ≠ classAny ∧ resource.cls ≠ question.cls then .ok state
  else if question.rrType ≠ typeAny ∧ resource.rrType ≠ question.rrType ∧
      resource.rrType ≠ typeCname then .ok state
  else do
    let response ← pushRecord state.1 resource.rrType resource.cls 0 resource.rdata
    if state.2 + 1 > 65535 then throw .responseTooLarge else return (response, state.2 + 1)

def staticResponse (query : Packet) (question : Question) (rrset : List StaticRecord) :
    Except WireError Packet := do
  let head ← answerHead query (flagQr ||| flagRa ||| flagAd) (flagAa ||| flagTc ||| rcodeMask) 0
  let (response, answerCount) ← rrset.foldlM (pushStaticRecord question) (head, 0)
  return overwrite response 6 (toBe16 answerCount)

end Resolved.Wire
