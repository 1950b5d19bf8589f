import Resolved.Proof.Wire.Name
import Resolved.Wire.Message

/-!
# Record framing
-/

namespace Resolved.Proof.Wire
open Lib Resolved.Wire

variable {packet renamed : Packet} {start count stop middle fixed rrType stop' id : Nat}
  {record : ResourceRecord} {records : List ResourceRecord}
  {frames frames' : List (Nat × Nat × Nat)} {questions : List Question}

structure RecordSpan (packet : Packet) (start fixed rrType stop : Nat) : Prop where
  name : NameSpan packet start fixed
  type : readU16 packet fixed = .ok rrType
  length : ∃ width, readU16 packet (fixed + 8) = .ok width ∧ stop = fixed + 10 + width
  inside : stop ≤ packet.length

def RecordSpans (packet : Packet) : Nat → List (Nat × Nat × Nat) → Nat → Prop
  | start, [], stop => start = stop
  | start, (first, fixed, rrType) :: rest, stop =>
    first = start ∧ ∃ next, RecordSpan packet start fixed rrType next ∧ RecordSpans packet next rest stop

def frameOf (start : Nat) (record : ResourceRecord) : Nat × Nat × Nat :=
  (start, record.ttlOffset - 4, record.rrType)

def framesOf : Nat → List ResourceRecord → List (Nat × Nat × Nat)
  | _, [] => []
  | start, record :: rest => frameOf start record :: framesOf record.nextOffset rest

theorem framesOf_types (start : Nat) (records : List ResourceRecord) :
    (framesOf start records).map (·.2.2) = records.map (·.rrType) := by
  induction records generalizing start with
  | nil => rfl
  | cons record rest ih => simp [framesOf, frameOf, ih]

theorem framesOf_fixed (start : Nat) (records : List ResourceRecord) :
    (framesOf start records).map (·.2.1) = records.map (·.ttlOffset - 4) := by
  induction records generalizing start with
  | nil => rfl
  | cons record rest ih => simp [framesOf, frameOf, ih]

theorem framesOf_length (start : Nat) (records : List ResourceRecord) :
    (framesOf start records).length = records.length := by
  rw [← List.length_map (fun frame : Nat × Nat × Nat => frame.2.2), framesOf_types, List.length_map]

structure ParsedRecord (packet : Packet) (start : Nat) (record : ResourceRecord) : Prop where
  fixed : ∃ fixed, readName packet start = .ok (record.name, fixed) ∧
    readU16 packet fixed = .ok record.rrType ∧ readU16 packet (fixed + 2) = .ok record.cls ∧
    readU32 packet (fixed + 4) = .ok record.ttl ∧ record.ttlOffset = fixed + 4 ∧ record.rdataOffset = fixed + 10 ∧
    readU16 packet (fixed + 8) = .ok (record.nextOffset - record.rdataOffset) ∧
    record.rdataOffset ≤ record.nextOffset ∧ slice packet record.rdataOffset record.nextOffset = some record.rdata

theorem parseRecord_eq_ok : parseRecord packet start = .ok record ↔ ParsedRecord packet start record := by
  simp only [parseRecord, bind_eq_ok, okOr_eq_ok, pure_eq_ok, Prod.exists]
  constructor
  · rintro ⟨name, fixed, hname, rrType, htype, cls, hclass, ttl, httl, width, hwidth, rdata, part, rfl⟩
    exact ⟨fixed, hname, htype, hclass, httl, rfl, rfl, by simpa using hwidth, by simp, part⟩
  · rintro ⟨fixed, hname, htype, hclass, httl, hto, hro, hwidth, ordered, part⟩
    obtain ⟨name, rrType, cls, ttl, ttlOffset, rdataOffset, rdata, nextOffset⟩ := record
    simp only at hto hro hwidth ordered part
    subst hto hro
    have stop : fixed + 10 + (nextOffset - (fixed + 10)) = nextOffset := by omega
    exact ⟨name, fixed, hname, rrType, htype, cls, hclass, ttl, httl, _, hwidth, rdata,
      by rw [stop]; exact part, by rw [stop]⟩

theorem ParsedRecord.span (parsed : ParsedRecord packet start record) :
    RecordSpan packet start (record.ttlOffset - 4) record.rrType record.nextOffset := by
  obtain ⟨fixed, hname, htype, hclass, httl, hto, hro, hwidth, ordered, part⟩ := parsed
  have here : record.ttlOffset - 4 = fixed := by omega
  rw [here]
  exact ⟨readName_span hname, htype, ⟨_, hwidth, by omega⟩, (slice_eq_some.1 part).2.1⟩

theorem parseRecords_succ_eq_ok :
    parseRecords packet (count + 1) start = .ok (records, stop) ↔
      ∃ record rest, records = record :: rest ∧ ParsedRecord packet start record ∧
        parseRecords packet count record.nextOffset = .ok (rest, stop) := by
  simp only [parseRecords, bind_eq_ok, parseRecord_eq_ok, pure_eq_ok, Prod.exists, Prod.mk.injEq]
  constructor
  · rintro ⟨record, parsed, rest, stop', hrest, rfl, rfl⟩
    exact ⟨record, rest, rfl, parsed, hrest⟩
  · rintro ⟨record, rest, rfl, parsed, hrest⟩
    exact ⟨record, parsed, rest, stop, hrest, rfl, rfl⟩

theorem parseRecords_length (h : parseRecords packet count start = .ok (records, stop)) :
    records.length = count := by
  induction count generalizing start records with
  | zero =>
    simp only [parseRecords, Except.ok.injEq, Prod.mk.injEq] at h
    simp [← h.1]
  | succ count ih =>
    obtain ⟨record, rest, rfl, -, hrest⟩ := parseRecords_succ_eq_ok.1 h
    simp [ih hrest]

theorem parseRecords_append {count' : Nat} {records' : List ResourceRecord}
    (h : parseRecords packet count start = .ok (records, middle))
    (h' : parseRecords packet count' middle = .ok (records', stop)) :
    parseRecords packet (count + count') start = .ok (records ++ records', stop) := by
  induction count generalizing start records with
  | zero =>
    simp only [parseRecords, Except.ok.injEq, Prod.mk.injEq] at h
    obtain ⟨rfl, rfl⟩ := h
    simpa using h'
  | succ count ih =>
    obtain ⟨record, rest, rfl, parsed, hrest⟩ := parseRecords_succ_eq_ok.1 h
    rw [Nat.add_right_comm]
    exact parseRecords_succ_eq_ok.2 ⟨record, rest ++ records', rfl, parsed, ih hrest⟩

theorem parseRecords_spans (h : parseRecords packet count start = .ok (records, stop)) :
    RecordSpans packet start (framesOf start records) stop := by
  induction count generalizing start records with
  | zero =>
    simp only [parseRecords, Except.ok.injEq, Prod.mk.injEq] at h
    obtain ⟨rfl, rfl⟩ := h
    rfl
  | succ count ih =>
    obtain ⟨record, rest, rfl, parsed, hrest⟩ := parseRecords_succ_eq_ok.1 h
    exact ⟨rfl, _, parsed.span, ih hrest⟩

namespace RecordSpan

theorem start_lt (span : RecordSpan packet start fixed rrType stop) : start < fixed ∧ fixed + 10 ≤ stop := by
  obtain ⟨width, -, rfl⟩ := span.length
  exact ⟨span.name.lt, by omega⟩

theorem unique {fixed' rrType' : Nat} (span : RecordSpan packet start fixed rrType stop)
    (span' : RecordSpan packet start fixed' rrType' stop') : fixed = fixed' ∧ rrType = rrType' ∧ stop = stop' := by
  obtain rfl := span.name.unique span'.name
  obtain ⟨width, hwidth, rfl⟩ := span.length
  obtain ⟨width', hwidth', rfl⟩ := span'.length
  have sameType := span.type.symm.trans span'.type
  have sameWidth := hwidth.symm.trans hwidth'
  simp only [Except.ok.injEq] at sameType sameWidth
  exact ⟨rfl, sameType, by rw [sameWidth]⟩

theorem transfer {packet other : Packet} {start fixed rrType stop start' : Nat}
    (span : RecordSpan packet start fixed rrType stop)
    (room : start' + (stop - start) ≤ other.length)
    (same : ∀ k, start + k < stop → start + k < fixed + 4 ∨ fixed + 8 ≤ start + k →
      other[start' + k]? = packet[start + k]?) :
    RecordSpan other start' (start' + (fixed - start)) rrType (start' + (stop - start)) := by
  obtain ⟨before, after⟩ := span.start_lt
  obtain ⟨width, hwidth, rfl⟩ := span.length
  refine ⟨span.name.transfer fun k hk => same k (by omega) (by omega), ?_, ⟨width, ?_, by omega⟩, room⟩
  · rw [← span.type]
    apply readU16_congr
    intro k hk
    have := same (fixed - start + k) (by omega) (by omega)
    rwa [← Nat.add_assoc, ← Nat.add_assoc, Nat.add_sub_cancel' before.le] at this
  · rw [← hwidth]
    apply readU16_congr
    intro k hk
    have := same (fixed - start + 8 + k) (by omega) (by omega)
    have left : start' + (fixed - start + 8 + k) = start' + (fixed - start) + 8 + k := by omega
    have right : start + (fixed - start + 8 + k) = fixed + 8 + k := by omega
    rwa [left, right] at this

end RecordSpan

namespace RecordSpans

theorem le (spans : RecordSpans packet start frames stop) : start ≤ stop := by
  induction frames generalizing start with
  | nil => exact Nat.le_of_eq spans
  | cons frame rest ih =>
    obtain ⟨-, next, span, spans⟩ := spans
    have := span.start_lt
    have := ih spans
    omega

theorem unique (spans : RecordSpans packet start frames stop) (spans' : RecordSpans packet start frames' stop')
    (length : frames.length = frames'.length) : frames = frames' ∧ stop = stop' := by
  induction frames generalizing start frames' with
  | nil =>
    obtain rfl := List.length_eq_zero_iff.1 length.symm
    exact ⟨rfl, spans.symm.trans spans'⟩
  | cons frame rest ih =>
    cases frames' with
    | nil => simp at length
    | cons frame' rest' =>
      obtain ⟨first, next, span, spans⟩ := spans
      obtain ⟨first', next', span', spans'⟩ := spans'
      obtain ⟨fixed, type, rfl⟩ := span.unique span'
      obtain ⟨tail, stops⟩ := ih spans spans' (by simpa using length)
      refine ⟨?_, stops⟩
      rw [tail, Prod.ext (first.trans first'.symm) (Prod.ext fixed type)]

theorem fixed_ge (spans : RecordSpans packet start frames stop) : ∀ f ∈ frames, start ≤ f.2.1 := by
  induction frames generalizing start with
  | nil => simp
  | cons frame rest ih =>
    obtain ⟨rfl, next, span, spans⟩ := spans
    have bounds := span.start_lt
    intro f hf
    rcases List.mem_cons.1 hf with rfl | later
    · exact bounds.1.le
    · have := ih spans f later
      omega

theorem inside (spans : RecordSpans packet start frames stop) (begins : start ≤ packet.length) :
    stop ≤ packet.length := by
  induction frames generalizing start with
  | nil => exact spans ▸ begins
  | cons frame rest ih =>
    obtain ⟨-, next, span, spans⟩ := spans
    exact ih spans span.inside

theorem transfer {packet other : Packet} {frames : List (Nat × Nat × Nat)} {start stop : Nat}
    (spans : RecordSpans packet start frames stop) (room : stop ≤ other.length)
    (same : ∀ i, start ≤ i → i < stop →
      (∀ frame ∈ frames, i < frame.2.1 + 4 ∨ frame.2.1 + 8 ≤ i) → other[i]? = packet[i]?) :
    RecordSpans other start frames stop := by
  induction frames generalizing start with
  | nil => exact spans
  | cons frame rest ih =>
    obtain ⟨first, fixed, rrType⟩ := frame
    obtain ⟨rfl, next, span, spans⟩ := spans
    have bounds := span.start_lt
    have stop_le := RecordSpans.le spans
    -- the TTLs of the later records stand behind this one
    have behind : ∀ i, i < next → ∀ f ∈ rest, i < f.2.1 + 4 := by
      intro i hi f hf
      have := fixed_ge spans f hf
      omega
    have moved := @RecordSpan.transfer packet other _ _ _ _ first span
      (by omega) fun k hk outside => same (first + k) (by omega)
        (by omega) (by
          intro f hf
          rcases List.mem_cons.1 hf with rfl | later
          · exact outside
          · exact .inl (behind _ hk f later))
    rw [Nat.add_sub_cancel' bounds.1.le, Nat.add_sub_cancel' (by omega)] at moved
    refine ⟨rfl, next, moved, ih spans fun i low high outside => same i (by omega) high ?_⟩
    intro f hf
    rcases List.mem_cons.1 hf with rfl | later
    · exact .inr (by simp only; omega)
    · exact outside f later

theorem append (spans : RecordSpans packet start frames middle)
    (spans' : RecordSpans packet middle frames' stop) : RecordSpans packet start (frames ++ frames') stop := by
  induction frames generalizing start with
  | nil =>
    obtain rfl : start = middle := spans
    exact spans'
  | cons frame rest ih =>
    obtain ⟨first, next, span, spans⟩ := spans
    exact ⟨first, next, span, ih spans⟩

theorem move {packet other : Packet} {frames : List (Nat × Nat × Nat)} {start stop start' : Nat}
    (spans : RecordSpans packet start frames stop) (room : start' + (stop - start) ≤ other.length)
    (same : ∀ k, start + k < stop → other[start' + k]? = packet[start + k]?) :
    ∃ frames', RecordSpans other start' frames' (start' + (stop - start)) ∧
      frames'.map (·.2.2) = frames.map (·.2.2) := by
  induction frames generalizing start start' with
  | nil =>
    obtain rfl : start = stop := spans
    exact ⟨[], by simp [RecordSpans], rfl⟩
  | cons frame rest ih =>
    obtain ⟨first, fixed, rrType⟩ := frame
    obtain ⟨rfl, next, span, spans⟩ := spans
    have bounds := span.start_lt
    have ordered := RecordSpans.le spans
    have here := @RecordSpan.transfer packet other _ _ _ _ start' span (by omega)
      fun k within _ => same k (by omega)
    have width : start' + (next - first) + (stop - next) = start' + (stop - first) := by omega
    have later : ∀ k, next + k < stop → other[start' + (next - first) + k]? = packet[next + k]? := by
      intro k within
      have := same (next - first + k) (by omega)
      rw [← Nat.add_assoc, ← Nat.add_assoc, Nat.add_sub_cancel' (by omega)] at this
      exact this
    obtain ⟨frames', moved, types⟩ := ih spans (by omega) later
    rw [width] at moved
    refine ⟨(start', start' + (fixed - first), rrType) :: frames', ⟨rfl, _, here, moved⟩, ?_⟩
    simp [types]

theorem mem_of_full (spans : RecordSpans packet start frames packet.length)
    (spans' : RecordSpans packet start frames' stop) : ∀ frame ∈ frames', frame ∈ frames := by
  induction frames' generalizing start frames with
  | nil => simp
  | cons frame' rest' ih =>
    obtain ⟨first', next', span', spans'⟩ := spans'
    cases frames with
    | nil =>
      obtain rfl : start = packet.length := spans
      have := span'.start_lt
      have := span'.inside
      omega
    | cons frame rest =>
      obtain ⟨first, next, span, spans⟩ := spans
      obtain ⟨fixed, type, rfl⟩ := span.unique span'
      obtain rfl : frame = frame' := Prod.ext (first.trans first'.symm) (Prod.ext fixed type)
      intro other member
      rcases List.mem_cons.1 member with rfl | later
      · simp
      · exact List.mem_cons_of_mem _ (ih spans spans' other later)

end RecordSpans

theorem parseRecords_behind (h : parseRecords packet count start = .ok (records, stop))
    (spans : RecordSpans packet start frames middle) (more : frames.length < count) :
    ∃ record, records[frames.length]? = some record ∧ ParsedRecord packet middle record := by
  induction frames generalizing start count records with
  | nil =>
    obtain ⟨count, rfl⟩ : ∃ n, count = n + 1 := ⟨count - 1, by simp at more; omega⟩
    obtain ⟨record, rest, rfl, parsed, -⟩ := parseRecords_succ_eq_ok.1 h
    obtain rfl : start = middle := spans
    exact ⟨record, rfl, parsed⟩
  | cons frame frames ih =>
    obtain ⟨count, rfl⟩ : ∃ n, count = n + 1 := ⟨count - 1, by simp at more; omega⟩
    obtain ⟨record, rest, rfl, parsed, hrest⟩ := parseRecords_succ_eq_ok.1 h
    obtain ⟨-, next, span, spans⟩ := spans
    obtain ⟨-, -, rfl⟩ := parsed.span.unique span
    simpa using ih hrest spans (by simpa using more)

def QuestionSpans (packet : Packet) : Nat → Nat → Nat → Prop
  | 0, start, stop => start = stop
  | count + 1, start, stop => ∃ fixed, NameSpan packet start fixed ∧ fixed + 4 ≤ packet.length ∧
    QuestionSpans packet count (fixed + 4) stop

theorem parseQuestion_eq_ok {question : Question} :
    parseQuestion packet start = .ok question ↔ ∃ fixed, readName packet start = .ok (question.name, fixed) ∧
        readU16 packet fixed = .ok question.rrType ∧
        readU16 packet (fixed + 2) = .ok question.cls ∧ question.nextOffset = fixed + 4 := by
  simp only [parseQuestion, bind_eq_ok, pure_eq_ok, Prod.exists]
  constructor
  · rintro ⟨name, fixed, hname, rrType, htype, cls, hclass, rfl⟩
    exact ⟨fixed, hname, htype, hclass, rfl⟩
  · rintro ⟨fixed, hname, htype, hclass, hnext⟩
    refine ⟨question.name, fixed, hname, question.rrType, htype, question.cls, hclass, ?_⟩
    rw [← hnext]

theorem parseQuestions_succ_eq_ok :
    parseQuestions packet (count + 1) start = .ok (questions, stop) ↔
      ∃ question rest, questions = question :: rest ∧ parseQuestion packet start = .ok question ∧
        parseQuestions packet count question.nextOffset = .ok (rest, stop) := by
  simp only [parseQuestions, bind_eq_ok, pure_eq_ok, Prod.exists, Prod.mk.injEq]
  constructor
  · rintro ⟨question, parsed, rest, stop', hrest, rfl, rfl⟩
    exact ⟨question, rest, rfl, parsed, hrest⟩
  · rintro ⟨question, rest, rfl, parsed, hrest⟩
    exact ⟨question, parsed, rest, stop, hrest, rfl, rfl⟩

theorem parseQuestions_spans (h : parseQuestions packet count start = .ok (questions, stop)) :
    QuestionSpans packet count start stop := by
  induction count generalizing start questions with
  | zero =>
    simp only [parseQuestions, Except.ok.injEq, Prod.mk.injEq] at h
    exact h.2
  | succ count ih =>
    obtain ⟨question, rest, rfl, parsed, hrest⟩ := parseQuestions_succ_eq_ok.1 h
    obtain ⟨fixed, hname, htype, hclass, hnext⟩ := parseQuestion_eq_ok.1 parsed
    rw [hnext] at hrest
    obtain ⟨a, b, -, high, -⟩ := readU16_eq_ok.1 hclass
    exact ⟨fixed, readName_span hname, getElem?_lt high, ih hrest⟩

theorem parseQuestions_middle (h : parseQuestions packet count start = .ok (questions, middle)) :
    (questions.getLast?.map (·.nextOffset)).getD start = middle := by
  induction count generalizing start questions with
  | zero =>
    simp only [parseQuestions, Except.ok.injEq, Prod.mk.injEq] at h
    obtain ⟨rfl, rfl⟩ := h
    rfl
  | succ count ih =>
    obtain ⟨question, rest, rfl, -, hrest⟩ := parseQuestions_succ_eq_ok.1 h
    have tail := ih hrest
    cases rest with
    | nil => simpa using tail
    | cons next rest =>
      rw [List.getLast?_eq_some_getLast (by simp)] at tail
      rw [List.getLast?_cons_cons, List.getLast?_eq_some_getLast (by simp)]
      exact tail

namespace QuestionSpans

theorem le (spans : QuestionSpans packet count start stop) : start ≤ stop := by
  induction count generalizing start with
  | zero => exact Nat.le_of_eq spans
  | succ count ih =>
    obtain ⟨fixed, span, -, spans⟩ := spans
    have := span.lt
    have := ih spans
    omega

theorem inside (spans : QuestionSpans packet count start stop) (begins : start ≤ packet.length) :
    stop ≤ packet.length := by
  induction count generalizing start with
  | zero => exact spans ▸ begins
  | succ count ih =>
    obtain ⟨fixed, -, inside, spans⟩ := spans
    exact ih spans inside

theorem unique (spans : QuestionSpans packet count start stop) (spans' : QuestionSpans packet count start stop') :
    stop = stop' := by
  induction count generalizing start with
  | zero => exact spans.symm.trans spans'
  | succ count ih =>
    obtain ⟨fixed, span, -, spans⟩ := spans
    obtain ⟨fixed', span', -, spans'⟩ := spans'
    obtain rfl := span.unique span'
    exact ih spans spans'

theorem transfer {packet other : Packet} {count start stop : Nat}
    (spans : QuestionSpans packet count start stop) (room : stop ≤ other.length)
    (same : ∀ i, start ≤ i → i < stop → other[i]? = packet[i]?) : QuestionSpans other count start stop := by
  induction count generalizing start with
  | zero => exact spans
  | succ count ih =>
    obtain ⟨fixed, span, inside, spans⟩ := spans
    have past := QuestionSpans.le spans
    have width := span.lt
    have moved := @NameSpan.transfer packet other _ _ start span
      fun k hk => same (start + k) (by omega) (by omega)
    rw [Nat.add_sub_cancel' width.le] at moved
    exact ⟨fixed, moved, by omega, ih spans fun i low high => same i (by omega) high⟩

end QuestionSpans

theorem headerParse_eq_ok :
    Header.parse packet = .ok header ↔ dnsHeaderLen ≤ packet.length ∧
      readU16 packet 0 = .ok header.id ∧ readU16 packet 2 = .ok header.flags ∧
      readU16 packet 4 = .ok header.questionCount ∧ readU16 packet 6 = .ok header.answerCount ∧
      readU16 packet 8 = .ok header.authorityCount ∧ readU16 packet 10 = .ok header.additionalCount := by
  unfold Header.parse
  split
  · simp
    omega
  · rename_i long
    simp only [bind_eq_ok, pure_eq_ok]
    constructor
    · rintro ⟨id, hid, flags, hflags, qd, hqd, an, han, ns, hns, ar, har, rfl⟩
      exact ⟨by omega, hid, hflags, hqd, han, hns, har⟩
    · rintro ⟨-, hid, hflags, hqd, han, hns, har⟩
      exact ⟨_, hid, _, hflags, _, hqd, _, han, _, hns, _, har, rfl⟩

theorem parseSections_eq_ok :
    parseSections packet = .ok sections ↔ Header.parse packet = .ok sections.header ∧ ∃ middle,
      parseQuestions packet sections.header.questionCount dnsHeaderLen = .ok (sections.questions, middle) ∧
      parseRecords packet sections.header.totalRecords middle = .ok (sections.records, sections.stop) := by
  simp only [parseSections, bind_eq_ok, pure_eq_ok, Prod.exists]
  constructor
  · rintro ⟨header, hheader, questions, middle, hquestions, records, stop, hrecords, rfl⟩
    exact ⟨hheader, middle, hquestions, hrecords⟩
  · rintro ⟨hheader, middle, hquestions, hrecords⟩
    exact ⟨_, hheader, _, middle, hquestions, _, _, hrecords, rfl⟩

theorem rewriteId_eq_ok :
    rewriteId packet id = .ok renamed ↔ 2 ≤ packet.length ∧ renamed = overwrite packet 0 (toBe16 id) := by
  simp only [rewriteId, writeU16]
  split <;> simp_all [eq_comm]

theorem rewriteId_rewriteId (id' : Nat) (h : rewriteId packet id = .ok renamed) : rewriteId renamed id' = rewriteId packet id' := by
  obtain ⟨long, rfl⟩ := rewriteId_eq_ok.1 h
  have same : overwrite (overwrite packet 0 (toBe16 id)) 0 (toBe16 id') =
      overwrite packet 0 (toBe16 id') := by
    simp [overwrite, toBe16]
  rw [rewriteId_eq_ok.2 ⟨long, rfl⟩]
  refine rewriteId_eq_ok.2 ⟨?_, same.symm⟩
  rw [overwrite_length (by simpa using long)]
  exact long

end Resolved.Proof.Wire
