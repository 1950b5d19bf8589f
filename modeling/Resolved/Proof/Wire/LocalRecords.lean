import Resolved.Proof.Wire.LocalAnswer
import Resolved.Proof.Wire.Records
import Resolved.Proof.Wire.Written

/-!
# The records of a local answer
-/

namespace Resolved.Proof.Wire
open Lib Resolved.Wire Spec

variable {question : Question} {ttl count start actual stop set clear : Nat}
  {records : List LocalRecord} {rrset : List StaticRecord} {packet head response : Packet}
  {labels : Labels} {all : List Fields}

structure Fields where
  rrType : Nat
  cls : Nat
  ttl : Nat
  rdata : Bytes

def Fields.octets (fields : Fields) : Bytes :=
  pushedOctets fields.rrType fields.cls fields.ttl fields.rdata

structure Fields.Fit (fields : Fields) : Prop where
  rrType : fields.rrType < 65536
  cls : fields.cls < 65536
  ttl : fields.ttl < 2 ^ 32
  rdata : fields.rdata.length < 65536

theorem Fields.octets_length (fields : Fields) : fields.octets.length = 12 + fields.rdata.length := by
  simp only [octets, pushedOctets, List.length_append, toBe16_length, toBe32_length, List.length_cons,
    List.length_nil]

def Fields.recordAt (name : DnsName) (start : Nat) (fields : Fields) : ResourceRecord :=
  ⟨name, fields.rrType, fields.cls, fields.ttl, start + 6, start + 12, fields.rdata,
    start + 12 + fields.rdata.length⟩

def recordsAt (name : DnsName) : Nat → List Fields → List ResourceRecord
  | _, [] => []
  | start, fields :: rest =>
    fields.recordAt name start :: recordsAt name (start + 12 + fields.rdata.length) rest

section
variable {front : Packet} {labels : Labels} {stop : Nat}

theorem parseRecord_pushed (named : slice front dnsHeaderLen stop = some (wireOf labels))
    (legal : LegalName labels) {fields : Fields} (fit : fields.Fit) (rear : Bytes) :
    ParsedRecord (front ++ fields.octets ++ rear) front.length
      (fields.recordAt (nameWith labels) front.length) := by
  have question : NameIn (front ++ fields.octets ++ rear) dnsHeaderLen labels 0 stop := by
    rw [List.append_assoc]
    exact nameIn_of_wire legal.sizes (slice_append_left _ named)
  have inside : dnsHeaderLen < front.length := by
    have size := slice_length named
    have filled := wireOf_length_ge labels fun label member => (legal.sizes label member).1
    have bound := (slice_eq_some.mp named).2.1
    omega
  have octet : ∀ k, k < 12 → (front ++ fields.octets ++ rear)[front.length + k]? = fields.octets[k]? := by
    intro k low
    rw [List.append_assoc, List.getElem?_append_right (by omega), Nat.add_sub_cancel_left,
      List.getElem?_append_left (by rw [fields.octets_length]; omega)]
  have owner : NameIn (front ++ fields.octets ++ rear) front.length labels 1 (front.length + 2) :=
    .pointer (octet 0 (by omega)) (by decide) (octet 1 (by omega)) inside question
  have written := slice_middle (front ++ [0xc0, 0x0c]) (toBe16 fields.rrType ++ toBe16 fields.cls ++
    toBe32 fields.ttl ++ toBe16 fields.rdata.length ++ fields.rdata) rear
  simp only [List.length_append, toBe16_length, toBe32_length, List.length_cons, List.length_nil] at written
  have same : front ++ [0xc0, 0x0c] ++ (toBe16 fields.rrType ++ toBe16 fields.cls ++ toBe32 fields.ttl ++
      toBe16 fields.rdata.length ++ fields.rdata) ++ rear = front ++ fields.octets ++ rear := by
    simp [Fields.octets, pushedOctets]
  rw [same, show front.length + (0 + 1 + 1) + (2 + 2 + 4 + 2 + fields.rdata.length) =
    front.length + 2 + 10 + fields.rdata.length by omega] at written
  exact parseRecord_written owner (by decide) legal written fit.rrType fit.cls fit.ttl fit.rdata

theorem parseRecords_pushed (named : slice front dnsHeaderLen stop = some (wireOf labels))
    (legal : LegalName labels) (fit : ∀ fields ∈ all, fields.Fit) :
    parseRecords (front ++ all.flatMap Fields.octets) all.length front.length =
      .ok (recordsAt (nameWith labels) front.length all, (front ++ all.flatMap Fields.octets).length) := by
  induction all generalizing front with
  | nil => simp [parseRecords, recordsAt]
  | cons fields rest ih =>
    have later := ih (slice_append_left fields.octets named)
      fun other member => fit other (List.mem_cons_of_mem _ member)
    rw [List.length_append, fields.octets_length, ← Nat.add_assoc] at later
    rw [List.flatMap_cons, ← List.append_assoc, List.length_cons, parseRecords_succ_eq_ok]
    exact ⟨_, _, rfl, parseRecord_pushed named legal (fit fields List.mem_cons_self) _, later⟩

end

section
variable {response final : Packet}

structure LocalFields (ttl : Nat) (given : LocalRecord) (fields : Fields) : Prop where
  rrType : fields.rrType = given.rrType
  cls : fields.cls = classIn
  ttl : fields.ttl = ttl
  data : given.rdata = .ok fields.rdata
  short : fields.rdata.length < 65536

theorem foldlM_pushLocalRecord
    (pushed : records.foldlM (pushLocalRecord question.rrType ttl) response = .ok final) :
    ∃ all, final = response ++ all.flatMap Fields.octets ∧
      List.Forall₂ (LocalFields ttl) (records.filter fun record => typeMatches question record.rrType) all := by
  induction records generalizing response with
  | nil =>
    cases pure_eq_ok.mp pushed
    exact ⟨[], by simp, .nil⟩
  | cons record records ih =>
    obtain ⟨next, here, later⟩ := bind_eq_ok.mp pushed
    obtain ⟨all, rfl, made⟩ := ih later
    unfold pushLocalRecord at here
    split at here
    · rename_i skipped
      cases here
      refine ⟨all, rfl, ?_⟩
      rw [List.filter_cons_of_neg]
      · exact made
      · simpa [typeMatches, typeAny] using ⟨skipped.2, skipped.1⟩
    · rename_i kept
      obtain ⟨rdata, data, here⟩ := bind_eq_ok.mp here
      obtain ⟨short, rfl⟩ := pushRecord_eq_ok here
      refine ⟨⟨record.rrType, classIn, ttl, rdata⟩ :: all, ?_, ?_⟩
      · rw [List.flatMap_cons, ← List.append_assoc]
        rfl
      · rw [List.filter_cons_of_pos]
        · exact .cons ⟨rfl, rfl, rfl, data, short⟩ made
        · simp only [typeMatches, typeAny, Bool.or_eq_true, beq_iff_eq]
          tauto

structure StaticFields (given : StaticRecord) (fields : Fields) : Prop where
  rrType : fields.rrType = given.rrType
  cls : fields.cls = given.cls
  ttl : fields.ttl = 0
  data : fields.rdata = given.rdata
  short : fields.rdata.length < 65536

theorem foldlM_pushStaticRecord {total : Nat}
    (pushed : rrset.foldlM (pushStaticRecord question) (response, count) = .ok (final, total)) :
    ∃ all, final = response ++ all.flatMap Fields.octets ∧ total = count + all.length ∧ (all = [] ∨ total ≤ 65535) ∧
      List.Forall₂ StaticFields (rrset.filter fun resource => classMatches question resource.cls &&
        (typeMatches question resource.rrType || resource.rrType == typeCname)) all := by
  induction rrset generalizing response count with
  | nil =>
    cases pure_eq_ok.mp pushed
    exact ⟨[], by simp, rfl, .inl rfl, .nil⟩
  | cons resource rrset ih =>
    obtain ⟨⟨next, count'⟩, here, later⟩ := bind_eq_ok.mp pushed
    obtain ⟨all, rfl, rfl, few, made⟩ := ih later
    unfold pushStaticRecord at here
    split at here
    · rename_i skipped
      cases here
      refine ⟨all, rfl, rfl, few, ?_⟩
      rw [List.filter_cons_of_neg]
      · exact made
      · simp [classMatches, skipped.1, skipped.2]
    rename_i sameClass
    split at here
    · rename_i skipped
      cases here
      refine ⟨all, rfl, rfl, few, ?_⟩
      rw [List.filter_cons_of_neg]
      · exact made
      · simp [typeMatches, skipped.1, skipped.2.1, skipped.2.2]
    rename_i sameType
    obtain ⟨pushed', appended, counted⟩ := bind_eq_ok.mp here
    split at counted
    · cases counted
    rename_i room
    cases counted
    obtain ⟨short, rfl⟩ := pushRecord_eq_ok appended
    refine ⟨⟨resource.rrType, resource.cls, 0, resource.rdata⟩ :: all, ?_, ?_, ?_, ?_⟩
    · rw [List.flatMap_cons, ← List.append_assoc]
      rfl
    · rw [List.length_cons]
      omega
    · rcases few with rfl | few
      · exact .inr (Nat.le_of_not_lt room)
      · exact .inr few
    · rw [List.filter_cons_of_pos]
      · exact .cons ⟨rfl, rfl, rfl, rfl, short⟩ made
      · simp only [classMatches, typeMatches, Bool.and_eq_true, Bool.or_eq_true, beq_iff_eq]
        tauto

end

theorem countRecords_eq {turns : Nat} {records : List ResourceRecord}
    (parsed : parseRecords packet records.length start = .ok (records, packet.length))
    (enough : records.length ≤ turns) (counted : countRecords packet turns start count = .ok actual) :
    actual = count + records.length ∧ (records = [] ∨ actual ≤ 65535) := by
  induction records generalizing turns start count with
  | nil =>
    cases parsed
    cases turns with
    | zero =>
      cases counted
      exact ⟨rfl, .inl rfl⟩
    | succ turns =>
      rw [countRecords, if_neg (Nat.lt_irrefl _)] at counted
      cases counted
      exact ⟨rfl, .inl rfl⟩
  | cons record records ih =>
    obtain ⟨turns, rfl⟩ := Nat.exists_eq_succ_of_ne_zero
      (Nat.ne_of_gt (Nat.lt_of_lt_of_le (Nat.succ_pos _) enough))
    obtain ⟨record', rest, same, here, later⟩ := parseRecords_succ_eq_ok.mp parsed
    cases same
    have inside : start < packet.length := by
      obtain ⟨fixed, read, -⟩ := here.fixed
      obtain ⟨labels, pointers, name, -⟩ := readName_iff_nameIn.mp read
      exact nameIn_inside name
    rw [countRecords, if_pos inside, parseRecord_eq_ok.mpr here, ok_bind] at counted
    split at counted
    · cases counted
    · rename_i room
      obtain ⟨rfl, few⟩ := ih later (Nat.le_of_succ_le_succ enough) counted
      rw [List.length_cons]
      refine ⟨by omega, .inr ?_⟩
      rcases few with rfl | few
      · exact Nat.le_of_not_lt room
      · exact few

theorem nameIn_wire {offset pointers : Nat} (name : NameIn packet offset labels pointers stop)
    (plain : pointers = 0) : slice packet offset stop = some (wireOf labels) := by
  induction name with
  | root zero =>
    have inside := (List.getElem?_eq_some_iff.mp zero).1
    refine slice_eq_some.mpr ⟨by omega, by omega, ?_⟩
    rw [Nat.add_sub_cancel_left, List.drop_eq_getElem_cons inside, List.take_succ_cons, List.take_zero,
      (List.getElem?_eq_some_iff.mp zero).2]
    rfl
  | pointer => cases plain
  | @label offset pointers stop length label labels byte nonzero plain' part rest ih =>
    have size := slice_length part
    rw [Nat.add_sub_cancel_left] at size
    have inside := (List.getElem?_eq_some_iff.mp byte).1
    have first : slice packet offset (offset + 1) = some [length] := by
      refine slice_eq_some.mpr ⟨by omega, by omega, ?_⟩
      rw [Nat.add_sub_cancel_left, List.drop_eq_getElem_cons inside, List.take_succ_cons, List.take_zero,
        (List.getElem?_eq_some_iff.mp byte).2]
    have octet : UInt8.ofNat label.length = length := by
      rw [size, UInt8.ofNat_toNat]
    have whole : slice packet offset stop = some ([length] ++ label ++ wireOf labels) := by
      rw [slice_append, slice_append, List.length_append, List.length_singleton, size]
      rw [← Nat.add_assoc]
      exact ⟨⟨first, part⟩, ih plain⟩
    rw [whole, wireOf_cons, octet]
    rfl

structure PlainQuery (query : Packet) (question : Question) (header : Header) (labels : Labels)
    (counts rest : Bytes) : Prop where
  whole : query = toBe16 header.id ++ toBe16 header.flags ++ toBe16 1 ++ counts ++
    (wireOf labels ++ (toBe16 question.rrType ++ toBe16 question.cls)) ++ rest
  counts : counts.length = 6
  legal : LegalName labels
  asked : question = ⟨nameWith labels, question.rrType, question.cls, dnsHeaderLen + (wireOf labels).length + 4⟩
  rrType : question.rrType < 65536
  cls : question.cls < 65536
  opcode : header.opcode = 0
  parsed : Header.parse query = .ok header
  one : header.questionCount = 1
  first : parseQuestion query dnsHeaderLen = .ok question

theorem validate_plain {query : Packet} (valid : validate query false = .ok ())
    (asked : firstQuestion query = .ok question) (plain : PlainQuestion query) :
    ∃ header labels counts rest, PlainQuery query question header labels counts rest := by
  obtain ⟨sections, parsed, -, opcode, -, one, -⟩ := validate_eq_ok.mp valid
  obtain ⟨head, -, -, -⟩ := parseSections_eq_ok.mp parsed
  obtain ⟨long, id, flags, count, -⟩ := headerParse_eq_ok.mp head
  rw [one rfl] at count
  rw [firstQuestion, head, ok_bind, if_neg (by simp [one rfl])] at asked
  obtain ⟨fixed, read, type, class', stop⟩ := parseQuestion_eq_ok.mp asked
  obtain ⟨labels, pointers, name, -, legal, named⟩ := readName_iff_nameIn.mp read
  obtain ⟨labels', fixed', name'⟩ := plain
  obtain ⟨rfl, rfl, rfl⟩ := nameIn_unique name name'
  have wire := nameIn_wire name rfl
  have size := slice_length wire
  have ordered := nameIn_lt name
  have counts : slice query 6 dnsHeaderLen = some ((query.drop 6).take 6) :=
    slice_eq_some.mpr ⟨by decide, long, rfl⟩
  have width : ((query.drop 6).take 6).length = 6 := slice_length counts
  have fields : slice query fixed (fixed + 4) = some (toBe16 question.rrType ++ toBe16 question.cls) := by
    rw [slice_append]
    exact ⟨slice_of_readU16 type, slice_of_readU16 class'⟩
  have front : slice query 0 dnsHeaderLen = some (toBe16 sections.header.id ++
      toBe16 sections.header.flags ++ toBe16 1 ++ (query.drop 6).take 6) := by
    simp only [slice_append, List.length_append, toBe16_length]
    exact ⟨⟨⟨slice_of_readU16 id, slice_of_readU16 flags⟩, slice_of_readU16 count⟩, counts⟩
  have total : slice query 0 (fixed + 4) = some (toBe16 sections.header.id ++
      toBe16 sections.header.flags ++ toBe16 1 ++ (query.drop 6).take 6 ++
      (wireOf labels ++ (toBe16 question.rrType ++ toBe16 question.cls))) := by
    have width' := slice_length front
    rw [Nat.sub_zero] at width'
    have body : slice query dnsHeaderLen (fixed + 4) =
        some (wireOf labels ++ (toBe16 question.rrType ++ toBe16 question.cls)) := by
      rw [slice_append, size, show dnsHeaderLen + (fixed - dnsHeaderLen) = fixed by omega]
      exact ⟨wire, fields⟩
    refine slice_append.mpr ⟨?_, ?_⟩
    · rw [width']
      exact front
    · rw [width']
      exact body
  refine ⟨sections.header, labels, (query.drop 6).take 6, query.drop (fixed + 4), eq_append_of_slice total,
    width, legal, ?_, readU16_lt type, readU16_lt class', opcode, head, one rfl, asked⟩
  obtain ⟨name, rrType, cls, nextOffset⟩ := question
  simp only at named stop ⊢
  rw [named, stop, size, show dnsHeaderLen + (fixed - dnsHeaderLen) = fixed by omega]

section
variable {query : Packet} {question : Question} {header : Header} {labels : Labels} {counts rest : Bytes}

theorem PlainQuery.flags_lt (plain : PlainQuery query question header labels counts rest) :
    header.id < 65536 ∧ header.flags < 65536 := by
  obtain ⟨-, id, flags, -⟩ := headerParse_eq_ok.mp plain.parsed
  exact ⟨readU16_lt id, readU16_lt flags⟩

theorem answerHead_plain (plain : PlainQuery query question header labels counts rest)
    (made : answerHead query set clear 0 = .ok head) :
    head = toBe16 header.id ++ toBe16 ((header.flags ||| set) &&& (0xffff ^^^ clear)) ++ toBe16 1 ++
      [0, 0, 0, 0, 0, 0] ++ (wireOf labels ++ (toBe16 question.rrType ++ toBe16 question.cls)) := by
  simp only [answerHead, bind_eq_ok, pure_eq_ok, Nat.or_zero] at made
  obtain ⟨-, -, stop, ended, flags, read, marked, writes, rfl⟩ := made
  have stops : stop = dnsHeaderLen + (wireOf labels).length + 4 := by
    rw [questionEnd, plain.parsed, ok_bind, plain.one, if_neg (by simp)] at ended
    simp only [parseQuestions, plain.first, ok_bind] at ended
    cases pure_eq_ok.mp ended
    rw [plain.asked]
  have front : query.take stop = toBe16 header.id ++ toBe16 header.flags ++ (toBe16 1 ++ counts ++
      (wireOf labels ++ (toBe16 question.rrType ++ toBe16 question.cls))) := by
    rw [plain.whole, List.take_left']
    · simp only [List.append_assoc]
    · simp only [List.length_append, toBe16_length, plain.counts, stops, dnsHeaderLen]
      omega
  rw [front] at read writes
  have same : flags = header.flags := by
    have here := readU16_of_slice plain.flags_lt.2 (slice_middle (toBe16 header.id) (toBe16 header.flags)
      (toBe16 1 ++ counts ++ (wireOf labels ++ (toBe16 question.rrType ++ toBe16 question.cls))))
    cases here.symm.trans read
    rfl
  subst same
  unfold writeU16 at writes
  split at writes
  · cases writes
    have first := @overwrite_middle (toBe16 header.id) (toBe16 1 ++ counts ++
      (wireOf labels ++ (toBe16 question.rrType ++ toBe16 question.cls))) (toBe16 header.flags)
      (toBe16 ((header.flags ||| set) &&& (0xffff ^^^ clear))) rfl
    have second := @overwrite_middle (toBe16 header.id ++
      toBe16 ((header.flags ||| set) &&& (0xffff ^^^ clear)) ++ toBe16 1)
      (wireOf labels ++ (toBe16 question.rrType ++ toBe16 question.cls)) counts [0, 0, 0, 0, 0, 0]
      plain.counts.symm
    simp only [List.append_assoc, toBe16_length, List.length_append] at first second ⊢
    rw [first, second]
  · cases writes

theorem parseSections_pushed (plain : PlainQuery query question header labels counts rest)
    {flags : Nat} (small : flags < 65536) (fit : ∀ fields ∈ all, fields.Fit)
    (few : all.length < 65536)
    (written : response = toBe16 header.id ++ toBe16 flags ++ toBe16 1 ++ toBe16 all.length ++
      toBe16 0 ++ toBe16 0 ++ (wireOf labels ++ (toBe16 question.rrType ++ toBe16 question.cls) ++
        all.flatMap Fields.octets)) :
    parseSections response = .ok ⟨⟨header.id, flags, 1, all.length, 0, 0⟩, [question],
      recordsAt question.name question.nextOffset all, response.length⟩ := by
  have head := @header_written header.id flags 1 all.length 0 0 (wireOf labels ++
    (toBe16 question.rrType ++ toBe16 question.cls) ++ all.flatMap Fields.octets) plain.flags_lt.1 small
    (by decide) few (by decide) (by decide)
  rw [← written] at head
  have size : (toBe16 header.id ++ toBe16 flags ++ toBe16 1 ++ toBe16 all.length ++ toBe16 0 ++
    toBe16 0).length = dnsHeaderLen := rfl
  generalize toBe16 header.id ++ toBe16 flags ++ toBe16 1 ++ toBe16 all.length ++ toBe16 0 ++
    toBe16 0 = front at written size
  subst written
  have named : slice (front ++ (wireOf labels ++ (toBe16 question.rrType ++ toBe16 question.cls)))
      dnsHeaderLen (dnsHeaderLen + (wireOf labels).length) = some (wireOf labels) := by
    have here := slice_middle front (wireOf labels) (toBe16 question.rrType ++ toBe16 question.cls)
    rwa [size, List.append_assoc] at here
  have fields := slice_middle (front ++ wireOf labels) (toBe16 question.rrType ++ toBe16 question.cls)
    (all.flatMap Fields.octets)
  have records := parseRecords_pushed named plain.legal fit
  have named' := slice_append_left (all.flatMap Fields.octets) named
  simp only [List.append_assoc, List.length_append, toBe16_length, size] at named' fields records head
  have asked := parseQuestion_written (nameIn_of_wire plain.legal.sizes named') (Nat.zero_le _) plain.legal
    fields plain.rrType plain.cls
  rw [← plain.asked] at asked
  have name : question.name = nameWith labels := congrArg Question.name plain.asked
  have next : question.nextOffset = dnsHeaderLen + ((wireOf labels).length + (2 + 2)) := by
    rw [congrArg Question.nextOffset plain.asked, Nat.add_assoc]
  simp only [List.append_assoc, parseSections, head, ok_bind, parseQuestions, asked]
  simp only [Header.totalRecords, Nat.add_zero, pure, Except.pure, ok_bind, name, next, records,
    List.length_append, toBe16_length, size]

theorem answer_flags {flags set clear mask : Nat} (kept : (0xffff ^^^ clear) &&& mask = mask) :
    ((flags ||| set) &&& (0xffff ^^^ clear)) &&& mask = (flags &&& mask) ||| (set &&& mask) := by
  rw [Nat.and_assoc, kept, Nat.and_or_distrib_right]

theorem recordsAt_length (name : DnsName) (start : Nat) (all : List Fields) :
    (recordsAt name start all).length = all.length := by
  induction all generalizing start with
  | nil => rfl
  | cons fields all ih => rw [recordsAt, List.length_cons, List.length_cons, ih]

theorem forall₂_recordsAt {α : Type} {name : DnsName} {made : α → Fields → Prop}
    {carries : α → ResourceRecord → Prop} {records : List ResourceRecord}
    (step : ∀ given fields start, made given fields → fields.recordAt name start ∈ records →
      carries given (fields.recordAt name start)) {given : List α}
    (pushed : List.Forall₂ made given all)
    (inside : ∀ record ∈ recordsAt name start all, record ∈ records) :
    List.Forall₂ carries given (recordsAt name start all) := by
  induction pushed generalizing start with
  | nil => exact .nil
  | cons here later ih =>
    rw [recordsAt, List.forall_mem_cons] at inside
    exact .cons (step _ _ _ here inside.1) (ih inside.2)

theorem locallyAnswered_pushed {α : Type} (plain : PlainQuery query question header labels counts rest)
    (answers : set &&& flagQr = flagQr) (standard : set &&& flagOpcode = 0)
    (fit : ∀ fields ∈ all, fields.Fit) (few : all.length < 65536)
    (written : response = toBe16 header.id ++
      toBe16 ((header.flags ||| set) &&& (0xffff ^^^ (flagAa ||| flagTc ||| rcodeMask))) ++ toBe16 1 ++
      toBe16 all.length ++ toBe16 0 ++ toBe16 0 ++ (wireOf labels ++
        (toBe16 question.rrType ++ toBe16 question.cls) ++ all.flatMap Fields.octets))
    {given : List α} {made : α → Fields → Prop} {carries : α → ResourceRecord → Prop}
    (pushed : List.Forall₂ made given all)
    (step : ∀ given fields start, made given fields →
      slice response (start + 12) (start + 12 + fields.rdata.length) = some fields.rdata →
      carries given (fields.recordAt question.name start)) :
    LocallyAnswered query response question given carries := by
  have small : (header.flags ||| set) &&& (0xffff ^^^ (flagAa ||| flagTc ||| rcodeMask)) < 65536 :=
    Nat.lt_of_le_of_lt Nat.and_le_right (by decide)
  have parsed := parseSections_pushed plain small fit few written
  refine ⟨validate_eq_ok.mpr ⟨_, parsed, ?_, ?_, by simp, by simp, rfl⟩, header, _, _, plain.parsed, parsed,
    rfl, (recordsAt_length _ _ _).symm, rfl, rfl, ?_⟩
  · have kept := @answer_flags header.flags set (flagAa ||| flagTc ||| rcodeMask) flagQr (by decide)
    have positive : 0 < (header.flags &&& flagQr) ||| flagQr :=
      Nat.lt_of_lt_of_le (by decide) Nat.right_le_or
    rw [answers] at kept
    simp only [Header.isResponse, kept, bne_iff_ne]
    exact Nat.ne_of_gt positive
  · have kept := @answer_flags header.flags set (flagAa ||| flagTc ||| rcodeMask) flagOpcode (by decide)
    rw [standard, Nat.or_zero] at kept
    simp only [Header.opcode, kept]
    exact plain.opcode
  · obtain ⟨-, middle, -, records⟩ := parseSections_eq_ok.mp parsed
    have each := parseRecords_parsed records
    refine forall₂_recordsAt (fun one fields start here member => step one fields start here ?_) pushed
      fun record member => member
    obtain ⟨begin', fixed, -, -, -, -, -, -, -, -, part⟩ := each _ member
    exact part

end

theorem localFields_fit (lifetime : ttl < 2 ^ 32) (made : LocalFields ttl given fields) : fields.Fit := by
  obtain ⟨type, cls, lives, -, short⟩ := made
  refine ⟨?_, by rw [cls]; decide, by rwa [lives], short⟩
  rw [type]
  cases given <;> simp [LocalRecord.rrType, typeA, typeAaaa, typePtr]

theorem staticFields_fit (narrow : given.cls < 65536) (made : StaticFields given fields) : fields.Fit := by
  obtain ⟨type, cls, lives, -, short⟩ := made
  refine ⟨?_, by rwa [cls], by rw [lives]; decide, short⟩
  have admitted := given.admitted
  simp only [List.mem_cons, List.not_mem_nil, or_false] at admitted
  rw [type]
  omega

theorem forall₂_right {α β : Type} {related : α → β → Prop} {left : List α} {right : List β}
    (all : List.Forall₂ related left right) {value : β} (member : value ∈ right) :
    ∃ other ∈ left, related other value := by
  induction all with
  | nil => cases member
  | cons here later ih =>
    rcases List.mem_cons.mp member with rfl | member
    · exact ⟨_, List.mem_cons_self, here⟩
    · obtain ⟨other, inside, related⟩ := ih member
      exact ⟨other, List.mem_cons_of_mem _ inside, related⟩

theorem length_le_octets (all : List Fields) : all.length ≤ (all.flatMap Fields.octets).length := by
  induction all with
  | nil => exact Nat.zero_le _
  | cons fields all ih =>
    rw [List.flatMap_cons, List.length_append, List.length_cons, fields.octets_length]
    omega

theorem countRecordsAfterQuestion_pushed {front : Packet}
    (named : slice front dnsHeaderLen stop = some (wireOf labels)) (legal : LegalName labels)
    (fit : ∀ fields ∈ all, fields.Fit)
    (counted : countRecordsAfterQuestion (front ++ all.flatMap Fields.octets) front.length = .ok actual) :
    actual = all.length ∧ all.length < 65536 := by
  have parsed := parseRecords_pushed named legal fit
  rw [← recordsAt_length (nameWith labels) front.length all] at parsed
  have enough : (recordsAt (nameWith labels) front.length all).length ≤
      (front ++ all.flatMap Fields.octets).length := by
    rw [recordsAt_length, List.length_append]
    exact (length_le_octets all).trans (Nat.le_add_left _ _)
  obtain ⟨number, few⟩ := countRecords_eq parsed enough counted
  rw [recordsAt_length, Nat.zero_add] at number
  refine ⟨number, ?_⟩
  rcases few with none | few
  · have empty := congrArg List.length none
    rw [recordsAt_length, List.length_nil] at empty
    omega
  · omega

theorem overwrite_count {lead old : Bytes} (tail : Bytes) (six : lead.length = 6) (two : old.length = 2)
    (number : Nat) : overwrite (lead ++ old ++ tail) 6 (toBe16 number) = lead ++ toBe16 number ++ tail := by
  rw [← six]
  exact overwrite_middle lead tail two.symm

section
variable {query : Packet} {question : Question} {header : Header} {labels : Labels} {counts rest : Bytes}

theorem answerHead_recounted (plain : PlainQuery query question header labels counts rest)
    (made : answerHead query set clear 0 = .ok head) (number : Nat) :
    ∃ lead, lead = toBe16 header.id ++ toBe16 ((header.flags ||| set) &&& (0xffff ^^^ clear)) ++
      toBe16 1 ∧ lead.length = 6 ∧ overwrite head 6 (toBe16 number) = lead ++ toBe16 number ++ [0, 0, 0, 0] ++
        (wireOf labels ++ (toBe16 question.rrType ++ toBe16 question.cls)) ∧
      slice (overwrite head 6 (toBe16 number)) dnsHeaderLen (dnsHeaderLen + (wireOf labels).length) =
        some (wireOf labels) := by
  have front := answerHead_plain plain made
  obtain ⟨lead, leads, six⟩ : ∃ lead, lead = toBe16 header.id ++ toBe16 ((header.flags ||| set) &&&
      (0xffff ^^^ clear)) ++ toBe16 1 ∧ lead.length = 6 := ⟨_, rfl, rfl⟩
  have first : overwrite head 6 (toBe16 number) = lead ++ toBe16 number ++
      [0, 0, 0, 0] ++ (wireOf labels ++ (toBe16 question.rrType ++ toBe16 question.cls)) := by
    have written := @overwrite_count lead [0, 0] ([0, 0, 0, 0] ++ (wireOf labels ++
      (toBe16 question.rrType ++ toBe16 question.cls))) six rfl number
    rw [front, ← leads]
    simpa using written
  refine ⟨lead, leads, six, first, ?_⟩
  have here := slice_middle (lead ++ toBe16 number ++ [0, 0, 0, 0]) (wireOf labels)
    (toBe16 question.rrType ++ toBe16 question.cls)
  have length : (lead ++ toBe16 number ++ [0, 0, 0, 0]).length = dnsHeaderLen := by
    rw [List.length_append, List.length_append, six]
    rfl
  rwa [length, List.append_assoc, ← first] at here

theorem localResponse_locallyAnswered (plain : PlainQuery query question header labels counts rest)
    (asked : firstQuestion query = .ok question) (lifetime : ttl < 2 ^ 32)
    (made : localResponse query records ttl = .ok response) :
    LocallyAnswered query response question (records.filter fun record => typeMatches question record.rrType)
      (CarriesLocal response question ttl) := by
  simp only [localResponse, bind_eq_ok] at made
  obtain ⟨head, heads, question', asked', made⟩ := made
  cases asked.symm.trans asked'
  split at made
  · cases made
  simp only [bind_eq_ok] at made
  obtain ⟨filled, pushed, actual, counted, writes⟩ := made
  obtain ⟨all, rfl, fields⟩ := foldlM_pushLocalRecord pushed
  have fit : ∀ fields ∈ all, fields.Fit := by
    intro other member
    obtain ⟨given, -, here⟩ := forall₂_right fields member
    exact localFields_fit lifetime here
  obtain ⟨lead, leads, six, first, named⟩ := answerHead_recounted plain heads records.length
  obtain ⟨rfl, few⟩ := countRecordsAfterQuestion_pushed named plain.legal fit counted
  unfold writeU16 at writes
  split at writes
  · have second : response = lead ++ toBe16 all.length ++ [0, 0, 0, 0] ++ (wireOf labels ++
        (toBe16 question.rrType ++ toBe16 question.cls) ++ all.flatMap Fields.octets) := by
      have written := @overwrite_count lead (toBe16 records.length) ([0, 0, 0, 0] ++ (wireOf labels ++
        (toBe16 question.rrType ++ toBe16 question.cls)) ++ all.flatMap Fields.octets) six rfl all.length
      rw [← Except.ok.inj writes, first]
      simpa using written
    refine locallyAnswered_pushed plain (show (flagQr ||| flagRa) &&& flagQr = flagQr by decide) (by decide) fit
      few ?_ fields ?_
    · rw [second, leads]
      simp [toBe16]
    · intro given fields start here data
      refine ⟨rfl, here.rrType, here.cls, here.ttl, here.data, ?_⟩
      rintro name rfl
      obtain ⟨target, legal, wire⟩ := encodeName_eq_ok here.data
      have data' : slice response (start + 12) (start + 12 + fields.rdata.length) =
          some (wireOf target) := by
        rw [data, wire]
      exact ⟨target, wire ▸ here.data,
        readName_of_nameIn (nameIn_of_wire legal.sizes data') (Nat.zero_le _) legal⟩
  · cases writes

theorem staticResponse_locallyAnswered (plain : PlainQuery query question header labels counts rest)
    (narrow : ∀ resource ∈ rrset, resource.cls < 65536)
    (made : staticResponse query question rrset = .ok response) :
    LocallyAnswered query response question (rrset.filter fun resource => classMatches question resource.cls &&
        (typeMatches question resource.rrType || resource.rrType == typeCname)) (CarriesStatic question) := by
  simp only [staticResponse, bind_eq_ok, pure_eq_ok, Prod.exists] at made
  obtain ⟨head, heads, filled, count, pushed, rfl⟩ := made
  obtain ⟨all, rfl, number, few, fields⟩ := foldlM_pushStaticRecord pushed
  rw [Nat.zero_add] at number
  subst number
  have fit : ∀ fields ∈ all, fields.Fit := by
    intro other member
    obtain ⟨given, inside, here⟩ := forall₂_right fields member
    exact staticFields_fit (narrow given (List.mem_of_mem_filter inside)) here
  have short : all.length < 65536 := by
    rcases few with rfl | few
    · decide
    · omega
  have written := @overwrite_count (toBe16 header.id ++ toBe16 ((header.flags |||
    (flagQr ||| flagRa ||| flagAd)) &&& (0xffff ^^^ (flagAa ||| flagTc ||| rcodeMask))) ++ toBe16 1) [0, 0]
    ([0, 0, 0, 0] ++ (wireOf labels ++ (toBe16 question.rrType ++ toBe16 question.cls)) ++
      all.flatMap Fields.octets) rfl rfl all.length
  refine locallyAnswered_pushed plain (show (flagQr ||| flagRa ||| flagAd) &&& flagQr = flagQr by decide)
    (by decide) fit short ?_ fields ?_
  · rw [answerHead_plain plain heads]
    simpa [toBe16] using written
  · intro given fields start here _
    exact ⟨rfl, here.rrType, here.cls, here.ttl, here.data⟩

end

/-- A local answer is a valid response with the records that match the question, in the order in which they
are given. -/
theorem localResponse_staticResponse_answers (query : Packet) (question : Question)
    (valid : validate query false = .ok ()) (asked : firstQuestion query = .ok question)
    (plain : PlainQuestion query) :
    (∀ records ttl response, ttl < 2 ^ 32 → localResponse query records ttl = .ok response →
      LocallyAnswered query response question (records.filter fun record => typeMatches question record.rrType)
        (CarriesLocal response question ttl)) ∧ ∀ rrset response, (∀ resource ∈ rrset, resource.cls < 65536) →
        staticResponse query question rrset = .ok response → LocallyAnswered query response question
          (rrset.filter fun resource => classMatches question resource.cls &&
            (typeMatches question resource.rrType || resource.rrType == typeCname)) (CarriesStatic question) := by
  obtain ⟨header, labels, counts, rest, fields⟩ := validate_plain valid asked plain
  constructor
  · intro records ttl response lifetime made
    exact localResponse_locallyAnswered fields asked lifetime made
  · intro rrset response narrow made
    exact staticResponse_locallyAnswered fields narrow made

def queryA : Packet := [0, 7, 1, 0, 0, 1, 0, 0, 0, 0, 0, 0, 1, 97, 0, 0, 1, 0, 1]

theorem localResponse_staticResponse_answers_queryA :
    LocallyAnswered queryA ([0, 7, 129, 128, 0, 1, 0, 1, 0, 0, 0, 0, 1, 97, 0, 0, 1, 0, 1,
        192, 12, 0, 1, 0, 1, 0, 0, 0, 60, 0, 4, 192, 0, 2, 1]) ⟨nameWith [[97]], typeA, classIn, 19⟩
        [.a ⟨192, 0, 2, 1⟩] (CarriesLocal ([0, 7, 129, 128, 0, 1, 0, 1, 0, 0, 0, 0, 1, 97, 0, 0, 1, 0, 1,
          192, 12, 0, 1, 0, 1, 0, 0, 0, 60, 0, 4, 192, 0, 2, 1]) ⟨nameWith [[97]], typeA, classIn, 19⟩ 60) ∧
      LocallyAnswered queryA ([0, 7, 129, 160, 0, 1, 0, 1, 0, 0, 0, 0, 1, 97, 0, 0, 1, 0, 1,
        192, 12, 0, 5, 0, 1, 0, 0, 0, 0, 0, 3, 1, 98, 0]) ⟨nameWith [[97]], typeA, classIn, 19⟩
        [⟨classIn, typeCname, [1, 98, 0], by decide⟩] (CarriesStatic ⟨nameWith [[97]], typeA, classIn, 19⟩) := by
  have answers := localResponse_staticResponse_answers queryA ⟨nameWith [[97]], typeA, classIn, 19⟩
    (by decide) (by decide)
    ⟨[[97]], 15, .label rfl (by decide) (by decide) rfl (.root rfl)⟩
  exact ⟨answers.1 [.ptr ['b'], .a ⟨192, 0, 2, 1⟩] 60 _ (by decide) (by decide),
    answers.2 [⟨classIn, typeCname, [1, 98, 0], by decide⟩, ⟨classIn, typePtr, [1, 98, 0], by decide⟩] _
      (by decide) (by decide)⟩

end Resolved.Proof.Wire
