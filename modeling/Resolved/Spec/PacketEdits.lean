import Resolved.Dnssec.CanonicalRdata
import Resolved.Edns.Message
import Resolved.Spec.Names

/-!
# Edited packets

What the edits of a packet have to keep: the removal of its OPT record, the ageing of its records,
the preparation of a query.
-/

/-!
## Editing the OPT record of a message

What it means that a message still says what it said after its OPT record has been cut out or
replaced, and the condition under which cutting octets out of the middle of it does no harm.
-/

namespace Resolved.Spec
open Lib Wire Edns Dnssec

structure SameQuestion (question question' : Question) : Prop where
  name : question'.name = question.name
  rrType : question'.rrType = question.rrType
  cls : question'.cls = question.cls

/-- Two records say the same: RDATA with names in it is compared with the names expanded against
the packet each record stands in, RDATA that cannot be expanded as it stands. -/
structure SameRecord (packet packet' : Packet) (record record' : ResourceRecord) : Prop where
  name : record'.name = record.name
  rrType : record'.rrType = record.rrType
  cls : record'.cls = record.cls
  ttl : record'.ttl = record.ttl
  expanded : ∀ data, canonicalRdata packet record = .ok data → canonicalRdata packet' record' = .ok data
  raw : ∀ error, canonicalRdata packet record = .error error → record'.rdata = record.rdata

def OptRemoved (packet output : Packet) : Prop :=
  ∃ sections sections' front opt rear,
    parseSections packet = .ok sections ∧ parseSections output = .ok sections' ∧
    sections'.stop = output.length ∧ sections.records = front ++ opt :: rear ∧ opt.rrType = typeOpt ∧
    sections.header = { sections'.header with
      additionalCount := sections'.header.additionalCount + 1 } ∧
    List.Forall₂ SameQuestion sections.questions sections'.questions ∧
    List.Forall₂ (SameRecord packet output) (front ++ rear) sections'.records

def OptReplaced (packet output : Packet) : Prop :=
  ∃ sections sections' front opt rear front' opt' rear',
    parseSections packet = .ok sections ∧ parseSections output = .ok sections' ∧
    sections'.stop = output.length ∧ sections.records = front ++ opt :: rear ∧ opt.rrType = typeOpt ∧
    sections'.records = front' ++ opt' :: rear' ∧ opt'.rrType = typeOpt ∧ sections'.header = sections.header ∧
    List.Forall₂ SameQuestion sections.questions sections'.questions ∧
    List.Forall₂ (SameRecord packet output) front front' ∧ List.Forall₂ (SameRecord packet output) rear rear'

def nameOffsets (packet : Packet) : List Nat :=
  match parseSections packet with
  | .error _ => []
  | .ok sections =>
    questionOffsets dnsHeaderLen sections.questions ++
      recordOffsets ((sections.questions.getLast?.map (·.nextOffset)).getD dnsHeaderLen)
        sections.records
where
  questionOffsets : Nat → List Question → List Nat
    | _, [] => []
    | start, question :: rest => start :: questionOffsets question.nextOffset rest
  recordOffsets : Nat → List ResourceRecord → List Nat
    | _, [] => []
    | start, record :: rest =>
      (if record.rrType = typeOpt then [] else start :: rdataNames packet record) ++
        recordOffsets record.nextOffset rest

def PointersClear (packet : Packet) (start : Nat) (changed : List Nat) : Prop :=
  ∀ offset ∈ nameOffsets packet, ∀ i ∈ nameReads packet offset, i < start ∧ i ∉ changed

instance (packet : Packet) (start : Nat) (changed : List Nat) :
    Decidable (PointersClear packet start changed) :=
  inferInstanceAs (Decidable (∀ offset ∈ nameOffsets packet, ∀ i ∈ nameReads packet offset,
    i < start ∧ i ∉ changed))

def changedCountOctets (additionalCount : Nat) : List Nat :=
  if additionalCount % 256 = 0 then [10, 11] else [11]

/-! ## Ageing a message -/

def agedTtl (elapsedSeconds : Nat) (stale : Bool) (record : ResourceRecord) : Nat :=
  if record.rrType = typeOpt then record.ttl
  else if stale then 0 else record.ttl - elapsedSeconds

def agedRecord (elapsedSeconds : Nat) (stale : Bool) (record : ResourceRecord) : ResourceRecord :=
  { record with ttl := agedTtl elapsedSeconds stale record }

def agedSections (elapsedSeconds : Nat) (stale : Bool) (sections : Sections) : Sections :=
  { sections with records := sections.records.map (agedRecord elapsedSeconds stale) }

def agedOctets (elapsedSeconds : Nat) (stale : Bool) (records : List ResourceRecord) : List Nat :=
  records.flatMap fun record =>
    ((List.range 4).filter fun k =>
      (toBe32 (agedTtl elapsedSeconds stale record))[k]? ≠ (toBe32 record.ttl)[k]?).map
        (record.ttlOffset + ·)

def ownerOffsets : Nat → List ResourceRecord → List Nat
  | _, [] => []
  | start, record :: rest => start :: ownerOffsets record.nextOffset rest

def framedNames (sections : Sections) : List Nat :=
  nameOffsets.questionOffsets dnsHeaderLen sections.questions ++
    ownerOffsets ((sections.questions.getLast?.map (·.nextOffset)).getD dnsHeaderLen)
      sections.records

/-! ## A query as it is sent to a server -/

def otherRecords (sections : Sections) : List ResourceRecord :=
  sections.records.filter fun record => record.rrType ≠ typeOpt

def OptLast (sections : Sections) : Prop :=
  ∀ front opt rear, sections.records = front ++ opt :: rear → opt.rrType = typeOpt → rear = []

def expectedOpt (level : FeatureLevel) (udpPayloadSize : Nat) : Option OptRecord :=
  if level.usesEdns then
    some ⟨max udpPayloadSize 512, 0, 0, if level.isDnssecOk then dnssecOkFlag else 0,
      if level.isDnssecOk then rfc6975Options else []⟩
  else none

def countAfter (layout : PacketLayout) (level : FeatureLevel) (count : Nat) : Nat :=
  if layout.opt.isSome = level.usesEdns then count
  else if level.usesEdns then count + 1
  else count - 1

def CountOctet (count count' i : Nat) : Prop :=
  (i = 10 ∧ count / 256 ≠ count' / 256) ∨ (i = 11 ∧ count % 256 ≠ count' % 256)

def NamesClear (query : Packet) (sections : Sections) (layout : PacketLayout) (level : FeatureLevel) :
    Prop :=
  ∀ offset ∈ framedNames { sections with records := otherRecords sections },
    ∀ i ∈ nameReads query offset, (∀ span, layout.opt = some span → i < span.start) ∧
      ¬CountOctet sections.header.additionalCount
        (countAfter layout level sections.header.additionalCount) i

structure PreparedWell (query packet : Packet) (sections : Sections) (layout : PacketLayout)
    (level : FeatureLevel) (udpPayloadSize : Nat) : Prop where
  opt : inspectOpt packet = .ok (expectedOpt level udpPayloadSize)
  kept : ∃ sections', parseSections packet = .ok sections' ∧
    sections'.header = { sections.header with additionalCount := sections'.header.additionalCount } ∧
    sections'.questions = sections.questions ∧ otherRecords sections' = otherRecords sections
  again : ∃ prepared, prepareQuery packet level udpPayloadSize = .ok prepared ∧ prepared.packet = packet
  back : layout.opt = none → level.usesEdns = true → ∀ udpPayloadSize', ∃ prepared,
    prepareQuery packet .udp udpPayloadSize' = .ok prepared ∧ prepared.packet = query

end Resolved.Spec
