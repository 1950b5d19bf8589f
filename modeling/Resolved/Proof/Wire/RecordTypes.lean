import Resolved.Proof.Wire.Ageing
import Resolved.Spec.Queries

/-!
# Types of records
-/

namespace Resolved.Proof.Wire
open Lib Resolved.Wire Spec

structure MessageFrames (packet : Packet) (frames : List (Nat × Nat × Nat)) (header : Header)
    (middle stop : Nat) : Prop where
  parsed : Header.parse packet = .ok header
  questions : QuestionSpans packet header.questionCount dnsHeaderLen middle
  records : RecordSpans packet middle frames stop
  count : frames.length = header.totalRecords

def Lacks (packet : Packet) (rrType : Nat) : Prop :=
  ∀ frames header middle stop, MessageFrames packet frames header middle stop →
    ∀ frame ∈ frames, frame.2.2 ≠ rrType

theorem MessageFrames.unique (here : MessageFrames packet frames header middle stop)
    (here' : MessageFrames packet frames' header' middle' stop') : frames = frames' := by
  obtain rfl := Except.ok.inj (here.parsed.symm.trans here'.parsed)
  obtain rfl := here.questions.unique here'.questions
  exact (here.records.unique here'.records (here.count.trans here'.count.symm)).1

theorem lacks_of_frames (here : MessageFrames packet frames header middle stop)
    (others : ∀ frame ∈ frames, frame.2.2 ≠ rrType) : Lacks packet rrType := by
  intro frames' header' middle' stop' here'
  rw [← here.unique here']
  exact others

theorem messageFrames_of_parse (parsed : parseSections packet = .ok sections) :
    ∃ middle, MessageFrames packet (framesOf middle sections.records) sections.header middle sections.stop := by
  obtain ⟨header, middle, questions, records⟩ := parseSections_eq_ok.1 parsed
  refine ⟨middle, header, parseQuestions_spans questions, parseRecords_spans records, ?_⟩
  rw [framesOf_length, parseRecords_length records]

theorem lacks_iff (parsed : parseSections packet = .ok sections) (rrType : Nat) :
    Lacks packet rrType ↔ ∀ record ∈ sections.records, record.rrType ≠ rrType := by
  obtain ⟨middle, here⟩ := messageFrames_of_parse parsed
  have types := framesOf_types middle sections.records
  constructor
  · intro lacks record member same
    have typed : rrType ∈ (framesOf middle sections.records).map (·.2.2) := by
      rw [types, ← same]
      exact List.mem_map_of_mem member
    obtain ⟨frame, mem, rfl⟩ := List.mem_map.1 typed
    exact lacks _ _ _ _ here frame mem rfl
  · intro others
    refine lacks_of_frames here fun frame mem same => ?_
    have typed : rrType ∈ sections.records.map (·.rrType) := by
      rw [← types, ← same]
      exact List.mem_map_of_mem mem
    obtain ⟨record, member, rfl⟩ := List.mem_map.1 typed
    exact others record member rfl

theorem hasType_eq_false :
    hasType packet rrType = false ↔ ∀ sections, parseSections packet = .ok sections →
      ∀ record ∈ sections.records, record.rrType ≠ rrType := by
  unfold hasType
  cases parseSections packet with
  | error error => simp
  | ok sections => simp

theorem Lacks.hasType (lacks : Lacks packet rrType) : hasType packet rrType = false :=
  hasType_eq_false.2 fun _ parsed => (lacks_iff parsed rrType).1 lacks

structure SameCounts (header header' : Header) : Prop where
  question : header'.questionCount = header.questionCount
  total : header'.totalRecords = header.totalRecords

theorem headerParse_counts (parsed : Header.parse packet = .ok header) (length : dnsHeaderLen ≤ other.length)
    (same : ∀ i, 4 ≤ i → i < dnsHeaderLen → other[i]? = packet[i]?) :
    ∃ header', Header.parse other = .ok header' ∧ SameCounts header header' := by
  obtain ⟨-, -, -, question, answer, authority, additional⟩ := headerParse_eq_ok.1 parsed
  have at_ : ∀ offset, 4 ≤ offset → offset + 2 ≤ dnsHeaderLen →
      readU16 other offset = readU16 packet offset := by
    intro offset low high
    apply readU16_congr
    intro k hk
    exact same (offset + k) (by omega) (by omega)
  have first : ∀ offset, offset + 2 ≤ dnsHeaderLen → ∃ value, readU16 other offset = .ok value := by
    intro offset high
    exact ⟨_, readU16_eq_ok.2 ⟨_, _, List.getElem?_eq_getElem (by omega),
      List.getElem?_eq_getElem (by omega), rfl⟩⟩
  obtain ⟨id, hid⟩ := first 0 (by decide)
  obtain ⟨flags, hflags⟩ := first 2 (by decide)
  refine ⟨{ header with id := id, flags := flags }, headerParse_eq_ok.2 ⟨length, hid, hflags, ?_, ?_, ?_, ?_⟩,
    rfl, rfl⟩
  · rw [at_ 4 (by decide) (by decide), question]
  · rw [at_ 6 (by decide) (by decide), answer]
  · rw [at_ 8 (by decide) (by decide), authority]
  · rw [at_ 10 (by decide) (by decide), additional]

theorem MessageFrames.start_le (here : MessageFrames packet frames header middle stop) :
    dnsHeaderLen ≤ middle ∧ middle ≤ stop ∧ ∀ frame ∈ frames, middle ≤ frame.2.1 :=
  ⟨here.questions.le, here.records.le, here.records.fixed_ge⟩

theorem MessageFrames.transfer {packet other : Packet} {frames : List (Nat × Nat × Nat)} {header : Header}
    {middle stop : Nat} (here : MessageFrames packet frames header middle stop)
    (length : other.length = packet.length)
    (same : ∀ i, 4 ≤ i → (∀ frame ∈ frames, i < frame.2.1 + 4 ∨ frame.2.1 + 8 ≤ i) → other[i]? = packet[i]?) :
    ∃ header', MessageFrames other frames header' middle stop := by
  obtain ⟨head, ordered, fixed⟩ := here.start_le
  have long := (headerParse_eq_ok.1 here.parsed).1
  have front : ∀ i, 4 ≤ i → i < middle → other[i]? = packet[i]? := by
    intro i low high
    exact same i low fun frame mem => .inl (by have := fixed frame mem; omega)
  obtain ⟨header', parsed, counts⟩ := headerParse_counts here.parsed (by omega)
    fun i low high => front i low (by omega)
  have room := here.questions.inside long
  refine ⟨header', parsed, ?_, ?_, here.count.trans counts.total.symm⟩
  · rw [counts.question]
    exact here.questions.transfer (by omega) fun i low high =>
      front i (le_trans (by decide) low) high
  · refine here.records.transfer ?_ fun i low _ outside =>
      same i (le_trans (by decide) (head.trans low)) outside
    rw [length]
    exact here.records.inside room

theorem lacks_of_header (lacks : Lacks packet rrType) (length : other.length = packet.length)
    (same : ∀ i, 4 ≤ i → other[i]? = packet[i]?) : Lacks other rrType := by
  intro frames header middle stop here
  obtain ⟨header', here'⟩ := here.transfer length.symm fun i low _ => (same i low).symm
  exact lacks _ _ _ _ here'

theorem overwrite_lacks {packet octets : Packet} {offset rrType : Nat}
    (room : offset + octets.length ≤ packet.length) (head : offset + octets.length ≤ 4)
    (lacks : Lacks packet rrType) : Lacks (overwrite packet offset octets) rrType :=
  lacks_of_header lacks (overwrite_length room) fun i low => by
    rw [overwrite_getElem? room, if_neg (by omega)]

theorem lacks_rewriteId_iff {packet renamed : Packet} {id rrType : Nat}
    (renames : rewriteId packet id = .ok renamed) : Lacks renamed rrType ↔ Lacks packet rrType := by
  obtain ⟨long, rfl⟩ := rewriteId_eq_ok.1 renames
  have room : 0 + (toBe16 id).length ≤ packet.length := by simpa using long
  constructor
  · intro lacks
    refine lacks_of_header lacks (overwrite_length room).symm fun i low => ?_
    rw [overwrite_getElem? room, if_neg]
    simp
    omega
  · exact overwrite_lacks room (by simp)

theorem ageTtls_lacks (ages : ageTtls packet elapsedSeconds stale = .ok aged) (lacks : Lacks packet rrType) :
    Lacks aged rrType := by
  obtain ⟨sections, parsed, -⟩ := bind_eq_ok.1 ages
  obtain ⟨middle, here⟩ := messageFrames_of_parse parsed
  obtain ⟨_, written, done⟩ := ageTtls_writes elapsedSeconds stale parsed
  obtain rfl := Except.ok.inj (ages.symm.trans written)
  obtain ⟨header', here'⟩ := here.transfer done.length fun i _ outside => done.rest i
    fun record mem _ => by
      have fixed : record.ttlOffset - 4 ∈ (framesOf middle sections.records).map (·.2.1) := by
        rw [framesOf_fixed]
        exact List.mem_map_of_mem mem
      obtain ⟨frame, member, place⟩ := List.mem_map.1 fixed
      have beside := outside frame member
      unfold outsideTtl
      omega
  exact lacks_of_frames here' (lacks _ _ _ _ here)

end Resolved.Proof.Wire
