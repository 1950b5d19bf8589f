import Resolved.Wire.Codec

namespace Resolved.Wire
open Lib

def validate (packet : Packet) (expectResponse : Bool) : Except WireError Unit := do
  let sections ← parseSections packet
  if sections.header.isResponse != expectResponse then throw .wrongDirection
  else if sections.header.opcode ≠ 0 then throw (.unsupportedOpcode sections.header.opcode)
  else if sections.questions.isEmpty then throw .noQuestion
  else if !expectResponse && sections.header.questionCount != 1 then
    throw (.wrongQuestionCount sections.header.questionCount)
  else if sections.stop ≠ packet.length then throw .trailingData
  else return ()

def firstQuestion (packet : Packet) : Except WireError Question := do
  let header ← Header.parse packet
  if header.questionCount = 0 then throw .noQuestion else parseQuestion packet dnsHeaderLen

def questionEnd (packet : Packet) : Except WireError Nat := do
  let header ← Header.parse packet
  if header.questionCount = 0 then throw .noQuestion
  else
    let (_, offset) ← parseQuestions packet header.questionCount dnsHeaderLen
    return offset

def responseMatches (query response : Packet) : Except WireError Unit := do
  validate query false
  validate response true
  let queryHeader ← Header.parse query
  let responseHeader ← Header.parse response
  if queryHeader.id ≠ responseHeader.id then throw .questionMismatch
  else
    let asked ← firstQuestion query
    let answered ← firstQuestion response
    if asked.name.canonicalWire ≠ answered.name.canonicalWire ∨ asked.rrType ≠ answered.rrType ∨
        asked.cls ≠ answered.cls then
      throw .questionMismatch
    else return ()

def makeQueryWithClass (name : Str) (rrType cls id : Nat) : Except WireError Packet := do
  let encodedName ← encodeName name
  return toBe16 id ++ toBe16 flagRd ++ toBe16 1 ++ [0, 0, 0, 0, 0, 0] ++ encodedName ++
    toBe16 rrType ++ toBe16 cls

def rewriteId (packet : Packet) (id : Nat) : Except WireError Packet := writeU16 packet 0 id

def soaMinimum (packet : Packet) (record : ResourceRecord) : Except WireError Nat := do
  let (_, firstEnd) ← readName packet record.rdataOffset
  let (_, secondEnd) ← readName packet firstEnd
  if secondEnd + 20 ≠ record.nextOffset then throw .invalidRecord
  else readU32 packet (secondEnd + 16)

def negativeTtl (packet : Packet) (authority : List ResourceRecord) : Option Nat :=
  ((authority.filter fun record => record.rrType = typeSoa).filterMap fun record =>
    match soaMinimum packet record with
    | .ok minimum => some (min record.ttl minimum)
    | .error _ => none).min?

def cacheLifetime (packet : Packet) : Except WireError (Option Nat) := do
  let sections ← parseSections packet
  let header := sections.header
  let records := sections.records
  if !header.isResponse then throw .wrongDirection
  else if records.any fun record => record.rrType = typeTsig then return none
  else if header.responseCode = 3 ∨ header.answerCount = 0 then
    return negativeTtl packet ((records.drop header.answerCount).take header.authorityCount)
  else
    return (((records.take header.answerCount).filter fun record =>
      record.rrType ≠ typeOpt ∧ record.rrType ≠ typeTsig).map (·.ttl)).min?

def ageRecord (elapsedSeconds : Nat) (stale : Bool) (packet : Packet) (record : ResourceRecord) :
    Except WireError Packet :=
  if record.rrType = typeOpt then .ok packet
  else writeU32 packet record.ttlOffset (if stale then 0 else record.ttl - elapsedSeconds)

def ageTtls (packet : Packet) (elapsedSeconds : Nat) (stale : Bool) : Except WireError Packet := do
  let sections ← parseSections packet
  sections.records.foldlM (ageRecord elapsedSeconds stale) packet

def rrsigFixedFieldsLen : Nat := 18
def rrsigMinimumRdataLen : Nat := rrsigFixedFieldsLen + 2

structure RootCoverage where
  required : List Nat
  covered : List Nat
deriving DecidableEq, Repr

def rootCoverageStep (packet : Packet) (signed : Bool) (record : ResourceRecord)
    (coverage : RootCoverage) : Except WireError RootCoverage :=
  if record.cls ≠ classIn ∨ record.name.canonicalWire ≠ [0] then .ok coverage
  else if record.rrType = typeRrsig then
    if record.rdata.length < rrsigMinimumRdataLen then .error .invalidRecord
    else do
      let typeCovered ← readU16 record.rdata 0
      let (signer, signatureOffset) ← readName packet (record.rdataOffset + rrsigFixedFieldsLen)
      if signer.canonicalWire ≠ [0] ∨ signatureOffset ≥ record.nextOffset then throw .invalidRecord
      else return { coverage with covered := typeCovered :: coverage.covered }
  else if signed ∧ record.rrType ≠ typeOpt ∧ record.rrType ≠ typeTsig then
    .ok { coverage with required := record.rrType :: coverage.required }
  else .ok coverage

def rootCoverage (packet : Packet) : Nat → Nat → Nat → RootCoverage → Except WireError (RootCoverage × Nat)
  | 0, _, offset, coverage => .ok (coverage, offset)
  | count + 1, signed, offset, coverage => do
    let record ← parseRecord packet offset
    let coverage ← rootCoverageStep packet (0 < signed) record coverage
    rootCoverage packet count (signed - 1) record.nextOffset coverage

def rootRrsigMissing (packet : Packet) : Except WireError Bool := do
  let header ← Header.parse packet
  if !header.isResponse then throw .wrongDirection
  else
    let (_, offset) ← parseQuestions packet header.questionCount dnsHeaderLen
    let (coverage, stop) ← rootCoverage packet header.totalRecords
      (header.answerCount + header.authorityCount) offset ⟨[], []⟩
    if stop ≠ packet.length then throw .trailingData
    else return coverage.required.any fun rrType => !coverage.covered.contains rrType

end Resolved.Wire
