import Resolved.Wire.Message
import Resolved.Edns.Features

namespace Resolved.Edns
open Lib Wire

def optionDau : Nat := 5
def optionDhu : Nat := 6
def optionN3u : Nat := 7
def dnssecOkFlag : Nat := 0x8000
def dnssecAlgorithms : Bytes := [5, 7, 8, 10, 13, 14]
def dnssecDigests : Bytes := [1, 2, 4]
def nsec3Algorithms : Bytes := [1]

structure PreparedQuery where
  packet : Packet
  sentEdns : Bool
  managedOpt : Bool
deriving DecidableEq, Repr

structure EdnsOption where
  code : Nat
  data : Bytes
deriving DecidableEq, Repr

structure OptRecord where
  udpPayloadSize : Nat
  extendedRcode : Nat
  version : Nat
  flags : Nat
  options : List EdnsOption
deriving DecidableEq, Repr

def OptRecord.dnssecOk (opt : OptRecord) : Bool := opt.flags &&& dnssecOkFlag != 0

structure OptSpan where
  start : Nat
  stop : Nat
  udpPayloadSize : Nat
  flags : Nat
  options : List EdnsOption
deriving DecidableEq, Repr

structure PacketLayout where
  opt : Option OptSpan
  hasTsig : Bool
deriving DecidableEq, Repr

/-- The loop of `parse_options`; an option takes four bytes or more, so the length of the RDATA
bounds its turns. -/
def optionsFrom (rdata : Bytes) : Nat → Nat → Except WireError (List EdnsOption)
  | 0, _ => .ok []
  | fuel + 1, offset =>
    if offset < rdata.length then do
      let code ← (readU16 rdata offset).mapError fun _ => .invalidRecord
      let length ← (readU16 rdata (offset + 2)).mapError fun _ => .invalidRecord
      let stop := offset + 4 + length
      let data ← okOr .invalidRecord (slice rdata (offset + 4) stop)
      let rest ← optionsFrom rdata fuel stop
      return ⟨code, data⟩ :: rest
    else .ok []

def parseOptions (rdata : Bytes) : Except WireError (List EdnsOption) :=
  optionsFrom rdata rdata.length 0

def scanRecord (additional : Bool) (start : Nat) (record : ResourceRecord)
    (layout : PacketLayout) : Except WireError PacketLayout :=
  if record.rrType = typeOpt then
    if !additional ∨ record.name.canonicalWire ≠ [0] ∨ layout.opt.isSome then
      .error .invalidRecord
    else do
      let options ← parseOptions record.rdata
      return { layout with opt := some {
        start := start
        stop := record.nextOffset
        udpPayloadSize := record.cls
        flags := record.ttl % 65536
        options := options } }
  else if record.rrType = typeTsig then .ok { layout with hasTsig := true }
  else .ok layout

def scanRecords (packet : Packet) : Nat → Nat → Nat → PacketLayout → Except WireError (PacketLayout × Nat)
  | 0, _, offset, layout => .ok (layout, offset)
  | count + 1, ahead, offset, layout => do
    let record ← parseRecord packet offset
    let layout ← scanRecord (ahead = 0) offset record layout
    scanRecords packet count (ahead - 1) record.nextOffset layout

def scanPacket (packet : Packet) : Except WireError PacketLayout := do
  let header ← Header.parse packet
  let (_, offset) ← parseQuestions packet header.questionCount dnsHeaderLen
  let (layout, stop) ← scanRecords packet header.totalRecords
    (header.answerCount + header.authorityCount) offset ⟨none, false⟩
  if stop ≠ packet.length then throw .trailingData else return layout

def encodeOption (option : EdnsOption) : Except WireError Bytes :=
  if option.data.length > 65535 then .error .responseTooLarge
  else .ok (toBe16 option.code ++ toBe16 option.data.length ++ option.data)

def encodeOpt (udpPayloadSize extendedRcode version flags : Nat) (options : List EdnsOption) :
    Except WireError Bytes := do
  let encoded ← options.mapM encodeOption
  let rdata := encoded.flatten
  if rdata.length > 65535 then throw .responseTooLarge
  else return [0] ++ toBe16 typeOpt ++ toBe16 udpPayloadSize ++
    [UInt8.ofNat extendedRcode, UInt8.ofNat version] ++ toBe16 flags ++ toBe16 rdata.length ++ rdata

def replaceSpan (packet : Packet) (start stop : Nat) (replacement : Bytes) :
    Except WireError Packet :=
  if start > stop ∨ stop > packet.length then .error .invalidRecord
  else if packet.length - (stop - start) + replacement.length > 65535 then .error .responseTooLarge
  else .ok (packet.take start ++ replacement ++ packet.drop stop)

def appendOpt (packet : Packet) (opt : Bytes) : Except WireError Packet := do
  let header ← Header.parse packet
  if header.additionalCount + 1 > 65535 then throw .responseTooLarge
  else if packet.length + opt.length > 65535 then throw .responseTooLarge
  else return overwrite (packet ++ opt) 10 (toBe16 (header.additionalCount + 1))

def removeOpt (packet : Packet) (opt : OptSpan) : Except WireError Packet := do
  let header ← Header.parse packet
  if header.additionalCount = 0 then throw .invalidRecord
  else
    let output ← replaceSpan packet opt.start opt.stop []
    return overwrite output 10 (toBe16 (header.additionalCount - 1))

def rfc6975Options : List EdnsOption :=
  [⟨optionDau, dnssecAlgorithms⟩, ⟨optionDhu, dnssecDigests⟩, ⟨optionN3u, nsec3Algorithms⟩]

def queryOpt (level : FeatureLevel) (udpPayloadSize : Nat) : Except WireError Bytes :=
  encodeOpt (max udpPayloadSize 512) 0 0 (if level.isDnssecOk then dnssecOkFlag else 0)
    (if level.isDnssecOk then rfc6975Options else [])

def prepareQuery (query : Packet) (level : FeatureLevel) (udpPayloadSize : Nat) :
    Except WireError PreparedQuery := do
  validate query false
  let layout ← scanPacket query
  if layout.hasTsig then
    return ⟨query, layout.opt.isSome, false⟩
  else if !level.usesEdns then
    match layout.opt with
    | some opt => return ⟨← removeOpt query opt, false, true⟩
    | none => return ⟨query, false, true⟩
  else
    let replacement ← queryOpt level udpPayloadSize
    match layout.opt with
    | some opt => return ⟨← replaceSpan query opt.start opt.stop replacement, true, true⟩
    | none => return ⟨← appendOpt query replacement, true, true⟩

def inspectOpt (packet : Packet) : Except WireError (Option OptRecord) := do
  let layout ← scanPacket packet
  match layout.opt with
  | none => return none
  | some opt =>
    let record ← parseRecord packet opt.start
    return some {
      udpPayloadSize := opt.udpPayloadSize
      extendedRcode := record.ttl / 16777216
      version := record.ttl / 65536 % 256
      flags := opt.flags
      options := opt.options }

def fullRcode (packet : Packet) (opt : Option OptRecord) : Except WireError Nat := do
  let header ← Header.parse packet
  match opt with
  | none => return header.responseCode
  | some opt => return (opt.extendedRcode * 16) ||| header.responseCode

def responseForClient (query response : Packet) : Except WireError Packet := do
  validate query false
  validate response true
  let queryLayout ← scanPacket query
  if queryLayout.hasTsig ∨ queryLayout.opt.isSome then return response
  else
    let responseLayout ← scanPacket response
    match responseLayout.opt with
    | none => return response
    | some optSpan =>
      let opt ← okOr .invalidRecord (← inspectOpt response)
      let extendedRcode ← fullRcode response (some opt)
      let output ← removeOpt response optSpan
      if extendedRcode > 15 then
        let flags ← readU16 output 2
        return overwrite output 2 (toBe16 ((flags &&& (0xffff ^^^ 0x000f)) ||| 2))
      else return output

end Resolved.Edns
