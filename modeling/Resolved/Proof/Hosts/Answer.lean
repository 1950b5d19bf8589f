import Resolved.Proof.Hosts.Lookup
import Resolved.Proof.Wire.LocalRecords

/-!
# Answers from the hosts file
-/

namespace Resolved.Proof.HostsFile
open Lib Resolved.Wire Resolved.HostsFile Spec
open Resolved.Wire.Hosts (canonicalName)

theorem encodeName_ok_iff (nonempty : name ≠ []) (undotted : name.getLast? ≠ some '.') :
    (∃ wire, encodeName name = .ok wire) ↔ Encodable name := by
  have stripped : stripSuffix name ['.'] = none := by
    rw [Option.eq_none_iff_forall_ne_some]
    intro front found
    rw [stripSuffix_eq_some] at found
    exact undotted (by rw [found, List.getLast?_concat])
  rw [encodeName, stripped, Option.getD_none]
  simp only [splitAtChar]
  have size : ((name.splitOn '.').flatMap fun label =>
      UInt8.ofNat label.length :: label.map fun c => UInt8.ofNat c.toNat).length + 1 =
        name.length + 2 := by
    have total := sum_length_splitOn '.' name
    simp only [List.length_flatMap, List.length_cons, List.length_map]
    omega
  have filled : name.isEmpty = false := by simpa using nonempty
  simp only [filled, Bool.false_eq_true, if_false, List.length_append, List.length_singleton, size]
  constructor
  · rintro ⟨wire, encoded⟩
    split at encoded
    · cases encoded
    rename_i ascii
    split at encoded
    · cases encoded
    rename_i named
    split at encoded
    · cases encoded
    rename_i short
    refine ⟨by simpa using ascii, fun label member => ?_, by omega⟩
    simpa using List.any_eq_false.mp (Bool.eq_false_iff.mpr named) label member
  · intro encodable
    rw [if_neg (by simp [encodable.ascii]), if_neg, if_neg (by have := encodable.short; omega)]
    · exact ⟨_, rfl⟩
    · rw [Bool.not_eq_true, List.any_eq_false]
      intro label member
      simpa using encodable.labels label member

theorem recordSize_of_ok (data : record.rdata = .ok rdata) : recordSize record = 12 + rdata.length := by
  rw [recordSize, data]
  rfl

section
variable {query : Packet} {question : Question} {header : Header} {labels : Labels}
  {counts rest : Bytes}

theorem answerHead_ok (plain : Wire.PlainQuery query question header labels counts rest)
    (valid : validate query false = .ok ()) (set clear : Nat) :
    ∃ head, answerHead query set clear 0 = .ok head := by
  have ended : questionEnd query = .ok (dnsHeaderLen + (wireOf labels).length + 4) := by
    rw [questionEnd, plain.parsed, ok_bind, plain.one, if_neg (by simp)]
    simp only [parseQuestions, plain.first, ok_bind]
    rw [plain.asked]
    rfl
  have front : query.take (dnsHeaderLen + (wireOf labels).length + 4) =
      toBe16 header.id ++ toBe16 header.flags ++ (toBe16 1 ++ counts ++
        (wireOf labels ++ (toBe16 question.rrType ++ toBe16 question.cls))) := by
    rw [plain.whole, List.take_left']
    · simp only [List.append_assoc]
    · simp only [List.length_append, toBe16_length, plain.counts, dnsHeaderLen]
      omega
  have flags := Wire.readU16_of_slice plain.flags_lt.2 (slice_middle (toBe16 header.id)
    (toBe16 header.flags) (toBe16 1 ++ counts ++
      (wireOf labels ++ (toBe16 question.rrType ++ toBe16 question.cls))))
  rw [toBe16_length] at flags
  rw [answerHead, valid, ok_bind, ended, ok_bind, front]
  simp only
  rw [flags, ok_bind, writeU16, if_pos, ok_bind]
  · exact ⟨_, rfl⟩
  · simp only [List.length_append, toBe16_length]
    omega

theorem pushedOctets_length (rrType cls ttl : Nat) (rdata : Bytes) :
    (Wire.pushedOctets rrType cls ttl rdata).length = 12 + rdata.length :=
  Wire.Fields.octets_length ⟨rrType, cls, ttl, rdata⟩

theorem pushRecord_ok {response rdata : Packet} (rrType cls ttl : Nat)
    (fits : response.length + (12 + rdata.length) ≤ 65535) :
    pushRecord response rrType cls ttl rdata = .ok (response ++ Wire.pushedOctets rrType cls ttl rdata) := by
  have size := pushedOctets_length rrType cls ttl rdata
  have same : response ++ [0xc0, 0x0c] ++ toBe16 rrType ++ toBe16 cls ++ toBe32 ttl ++
      toBe16 rdata.length ++ rdata = response ++ Wire.pushedOctets rrType cls ttl rdata := by
    simp [Wire.pushedOctets]
  rw [pushRecord, if_neg (by omega)]
  simp only [same]
  rw [if_neg (by rw [List.length_append, size]; omega)]

theorem foldlM_pushLocalRecord_ok {questionType ttl : Nat} {records : List LocalRecord} {response : Packet}
    (encodable : ∀ record ∈ records, ∃ rdata, record.rdata = .ok rdata)
    (fits : response.length + (records.map recordSize).sum ≤ 65535) :
    ∃ final, records.foldlM (pushLocalRecord questionType ttl) response = .ok final := by
  induction records generalizing response with
  | nil => exact ⟨response, rfl⟩
  | cons record records ih =>
    obtain ⟨rdata, data⟩ := encodable record (by simp)
    have later := fun {next : Packet} => @ih next fun other member =>
      encodable other (List.mem_cons_of_mem _ member)
    rw [List.map_cons, List.sum_cons, recordSize_of_ok data] at fits
    rw [List.foldlM_cons, pushLocalRecord]
    split
    · exact later (by omega)
    · rw [data, ok_bind, pushRecord_ok _ _ _ (by omega), ok_bind]
      apply later
      rw [List.length_append, pushedOctets_length]
      omega

theorem countRecords_ok {packet : Packet} {turns start count : Nat} {records : List ResourceRecord}
    (parsed : parseRecords packet records.length start = .ok (records, packet.length))
    (enough : records.length ≤ turns) (few : count + records.length ≤ 65535) :
    ∃ actual, countRecords packet turns start count = .ok actual := by
  induction records generalizing turns start count with
  | nil =>
    cases parsed
    cases turns with
    | zero => exact ⟨count, rfl⟩
    | succ turns => exact ⟨count, by rw [countRecords, if_neg (Nat.lt_irrefl _)]⟩
  | cons record records ih =>
    rw [List.length_cons] at enough few
    obtain ⟨turns, rfl⟩ := Nat.exists_eq_succ_of_ne_zero (show turns ≠ 0 by omega)
    obtain ⟨record', rest, same, here, later⟩ := Wire.parseRecords_succ_eq_ok.mp parsed
    cases same
    rw [countRecords]
    split
    · rw [Wire.parseRecord_eq_ok.mpr here, ok_bind, if_neg (by omega)]
      exact ih later (by omega) (by omega)
    · exact ⟨count, rfl⟩

theorem length_le_sizes (records : List LocalRecord) : records.length ≤ (records.map recordSize).sum := by
  induction records with
  | nil => exact Nat.zero_le _
  | cons record records ih =>
    rw [List.map_cons, List.sum_cons, List.length_cons, recordSize]
    omega

theorem localResponse_ok (plain : Wire.PlainQuery query question header labels counts rest)
    (valid : validate query false = .ok ()) (asked : firstQuestion query = .ok question)
    {records : List LocalRecord} (encodable : ∀ record ∈ records, ∃ rdata, record.rdata = .ok rdata)
    (fits : answerSize question records ≤ 65535) : ∃ response, localResponse query records 0 = .ok response := by
  obtain ⟨head, made⟩ := answerHead_ok plain valid (flagQr ||| flagRa)
    (flagAa ||| flagTc ||| rcodeMask)
  obtain ⟨lead, -, six, first, named⟩ := Wire.answerHead_recounted plain made records.length
  have few := length_le_sizes records
  have offset : question.nextOffset = dnsHeaderLen + (wireOf labels).length + 4 := by
    rw [plain.asked]
  have size : (overwrite head 6 (toBe16 records.length)).length = question.nextOffset := by
    rw [first, offset]
    simp only [List.length_append, six, toBe16_length, List.length_cons, List.length_nil, dnsHeaderLen]
    omega
  rw [answerSize, ← size] at fits
  obtain ⟨final, pushed⟩ := @foldlM_pushLocalRecord_ok question.rrType 0 _ _ encodable fits
  obtain ⟨all, rfl, fields⟩ := Wire.foldlM_pushLocalRecord pushed
  have fit : ∀ fields ∈ all, fields.Fit := by
    intro other member
    obtain ⟨given, -, here⟩ := Wire.forall₂_right fields member
    exact Wire.localFields_fit (by decide) here
  have number : all.length ≤ records.length := by
    rw [← fields.length_eq]
    exact List.length_filter_le _ _
  have parsed := Wire.parseRecords_pushed named plain.legal fit
  rw [← Wire.recordsAt_length (nameWith labels) (overwrite head 6 (toBe16 records.length)).length
    all] at parsed
  have enough : (Wire.recordsAt (nameWith labels)
      (overwrite head 6 (toBe16 records.length)).length all).length ≤
        (overwrite head 6 (toBe16 records.length) ++ all.flatMap Wire.Fields.octets).length := by
    rw [Wire.recordsAt_length, List.length_append]
    exact (Wire.length_le_octets all).trans (Nat.le_add_left _ _)
  obtain ⟨actual, counted⟩ := @countRecords_ok _ _ _ 0 _ parsed enough (by
    rw [Wire.recordsAt_length]
    omega)
  rw [localResponse, made, ok_bind, asked, ok_bind, if_neg (by omega)]
  simp only
  rw [pushed, ok_bind, countRecordsAfterQuestion, counted, ok_bind, writeU16, if_pos]
  · exact ⟨_, rfl⟩
  · rw [List.length_append, size, offset, dnsHeaderLen]
    omega

end

section
variable {text name : Str} {address : IpAddr} {question : Question}

theorem canonicalName_undotted (name : Str) : (canonicalName name).getLast? ≠ some '.' := by
  rw [canonicalName, toAsciiLowercase, List.getLast?_map]
  intro dotted
  obtain ⟨c, last, lowered⟩ := Option.map_eq_some_iff.mp dotted
  rw [lowerChar_eq_dot] at lowered
  subst lowered
  have nonempty : (trimEndWith (· == '.') name) ≠ [] := by
    intro empty
    rw [empty] at last
    cases last
  have kept := List.rdropWhile_last_not (· == '.') name nonempty
  rw [List.getLast?_eq_some_getLast nonempty, Option.some_inj] at last
  exact kept (beq_iff_eq.mpr last)

theorem listed_canonical (listed : name ∈ namesListed text address) : name ≠ [] ∧ name.getLast? ≠ some '.' := by
  have entry := mem_namesListed.mp listed
  obtain ⟨line, -, here⟩ := List.mem_flatMap.mp entry
  rw [lineEntries] at here
  split at here
  · cases here
  · rename_i field names _
    cases parsed : IpAddr.parse field with
    | none =>
      rw [parsed] at here
      cases here
    | some found =>
      rw [parsed, Option.elim_some] at here
      obtain ⟨kept, member, same⟩ := List.mem_map.mp here
      cases same
      obtain ⟨mapped, nonempty⟩ := List.mem_filter.mp member
      obtain ⟨raw, -, rfl⟩ := List.mem_map.mp mapped
      exact ⟨of_decide_eq_true nonempty, canonicalName_undotted raw⟩

theorem syntheticNames_encoded (member : name ∈ syntheticNames address) : ∃ wire, encodeName name = .ok wire := by
  have known : name ∈ ["localhost".toList, "_localdnsstub".toList, "_localdnsproxy".toList] := by
    unfold syntheticNames at member
    split_ifs at member <;> simp_all
  have all : ∀ name ∈ ["localhost".toList, "_localdnsstub".toList, "_localdnsproxy".toList],
      (encodeName name).toOption.isSome := by decide
  cases encoded : encodeName name with
  | ok wire => exact ⟨wire, rfl⟩
  | error error =>
    have some := all name known
    rw [encoded] at some
    cases some

theorem forall₂_left {α β : Type} {related : α → β → Prop} {left : List α} {right : List β}
    (paired : List.Forall₂ related left right) {a : α} (member : a ∈ left) : ∃ b ∈ right, related a b := by
  induction paired with
  | nil => cases member
  | cons here later ih =>
    rcases List.mem_cons.mp member with rfl | member
    · exact ⟨_, by simp, here⟩
    · obtain ⟨b, listed, holds⟩ := ih member
      exact ⟨b, by simp [listed], holds⟩

theorem lookup_encodable (asked : question.rrType ≠ typePtr)
    (found : (Hosts.parse text).lookup question = some records) :
    ∀ record ∈ records, ∃ rdata, record.rdata = .ok rdata := by
  rw [Hosts.lookup] at found
  split at found
  · cases found
  split at found
  · rw [Hosts.lookupForward] at found
    split at found
    · cases found
    · cases found
      intro record member
      obtain ⟨ip, -, made⟩ := List.mem_filterMap.mp member
      cases ip with
      | v4 ip | v6 ip =>
        rw [addressRecord, Option.ite_none_right_eq_some] at made
        cases made.2
        exact ⟨_, rfl⟩
  · split at found
    · cases found
      simp
    · cases found

theorem lookup_reverseRecords (asksIn : question.cls = classIn ∨ question.cls = classAny)
    (asked : question.rrType = typePtr) (owned : OwnedBy address question.name.text)
    (named : ¬ (syntheticNames address = [] ∧ namesListed text address = [])) :
    (Hosts.parse text).lookup question = some (reverseRecords text address) := by
  rw [reverse_answers text asksIn asked owned, if_neg named, reverseRecords]

theorem lookup_pointer (asked : question.rrType = typePtr)
    (found : (Hosts.parse text).lookup question = some records) :
    (question.cls = classIn ∨ question.cls = classAny) ∧
      ∃ address, OwnedBy address question.name.text ∧ records = reverseRecords text address := by
  have asksIn : question.cls = classIn ∨ question.cls = classAny := by
    by_contra other
    rw [Hosts.lookup, if_pos (not_or.mp other)] at found
    cases found
  refine ⟨asksIn, ?_⟩
  cases parsed : parseReverseName question.name.text with
  | none =>
    rw [lookup_reverse asksIn asked, Hosts.lookupReverse, parsed] at found
    cases found
  | some address =>
    have owned := parseReverseName_iff_ownedBy.mp parsed
    refine ⟨address, owned, ?_⟩
    rw [reverse_answers text asksIn asked owned, Option.ite_none_left_eq_some] at found
    exact (Option.some_inj.mp found.2).symm

theorem localResponse_encoded {query response : Packet} {records : List LocalRecord} {host : Str}
    (asked : firstQuestion query = .ok question) (made : localResponse query records 0 = .ok response)
    (pointer : question.rrType = typeAny ∨ question.rrType = typePtr) (member : .ptr host ∈ records) :
    ∃ wire, encodeName host = .ok wire := by
  simp only [localResponse, bind_eq_ok] at made
  obtain ⟨head, -, question', asked', made⟩ := made
  cases asked.symm.trans asked'
  split at made
  · cases made
  simp only [bind_eq_ok] at made
  obtain ⟨filled, pushed, -⟩ := made
  obtain ⟨all, -, fields⟩ := Wire.foldlM_pushLocalRecord pushed
  have kept : .ptr host ∈ records.filter fun record => typeMatches question record.rrType := by
    refine List.mem_filter.mpr ⟨member, ?_⟩
    rcases pointer with any | same
    · simp [typeMatches, any]
    · simp [typeMatches, same, LocalRecord.rrType]
  obtain ⟨made, -, here⟩ := forall₂_left fields kept
  exact ⟨_, here.data⟩

end

/-- What the file says is put into an answer unless it gives the address asked for a name that cannot
be encoded. -/
theorem answerable_iff (text : Str) (query : Packet) (question : Question)
    (valid : validate query false = .ok ()) (asked : firstQuestion query = .ok question)
    (plain : PlainQuestion query) :
    Answerable text query question ↔ (question.rrType = typePtr → question.cls = classIn ∨ question.cls = classAny →
        ∀ address, OwnedBy address question.name.text → answerSize question (reverseRecords text address) ≤ 65535 →
            ∀ host ∈ namesListed text address, Encodable host) := by
  obtain ⟨header, labels, counts, rest, fields⟩ := Wire.validate_plain valid asked plain
  constructor
  · intro answerable pointer asksIn address owned fits host listed
    have named : ¬ (syntheticNames address = [] ∧ namesListed text address = []) := by
      rintro ⟨-, none⟩
      rw [none] at listed
      cases listed
    obtain ⟨response, made⟩ := answerable _ (lookup_reverseRecords asksIn pointer owned named) fits
    apply (encodeName_ok_iff (listed_canonical listed).1 (listed_canonical listed).2).mp
    have member : LocalRecord.ptr host ∈ reverseRecords text address := by
      apply List.mem_map_of_mem
      by_cases synthetic : host ∈ syntheticNames address
      · exact List.mem_append_left _ synthetic
      · exact List.mem_append_right _ (List.mem_filter.mpr ⟨listed, by simpa using synthetic⟩)
    exact localResponse_encoded asked made (.inr pointer) member
  · intro encodable records found fits
    apply localResponse_ok fields valid asked _ fits
    by_cases pointer : question.rrType = typePtr
    · obtain ⟨asksIn, address, owned, rfl⟩ := lookup_pointer pointer found
      intro record member
      obtain ⟨host, named, rfl⟩ := List.mem_map.mp member
      rcases List.mem_append.mp named with synthetic | listed
      · exact syntheticNames_encoded synthetic
      · have listed := List.mem_of_mem_filter listed
        exact (encodeName_ok_iff (listed_canonical listed).1 (listed_canonical listed).2).mpr
          (encodable pointer asksIn address owned fits host listed)
    · exact lookup_encodable pointer found

def nasPointerQuery : Packet :=
  [0, 7, 1, 0, 0, 1, 0, 0, 0, 0, 0, 0, 1, 57, 1, 48, 1, 48, 2, 49, 48, 7, 105, 110, 45, 97, 100, 100,
    114, 4, 97, 114, 112, 97, 0, 0, 12, 0, 1]

def nasPointerQuestion : Question :=
  ⟨⟨"9.0.0.10.in-addr.arpa".toList, [1, 57, 1, 48, 1, 48, 2, 49, 48, 7, 105, 110, 45, 97, 100, 100,
    114, 4, 97, 114, 112, 97, 0]⟩, typePtr, classIn, 39⟩

theorem nasPointerQuery_valid : validate nasPointerQuery false = .ok () ∧
    firstQuestion nasPointerQuery = .ok nasPointerQuestion := by
  constructor <;> decide

theorem nasPointerQuery_plain : PlainQuestion nasPointerQuery :=
  ⟨[[57], [48], [48], [49, 48], [105, 110, 45, 97, 100, 100, 114], [97, 114, 112, 97]], 35,
    Wire.nameIn_of_wire (by decide) (by decide)⟩

theorem answerable_iff_nas : Answerable nasFile nasPointerQuery nasPointerQuestion := by
  apply (answerable_iff nasFile nasPointerQuery nasPointerQuestion nasPointerQuery_valid.1
    nasPointerQuery_valid.2 nasPointerQuery_plain).mpr
  intro _ _ address _ _ host listed
  have entries : hostEntries nasFile = [(.v4 ⟨10, 0, 0, 9⟩, ['n', 'a', 's'])] := by decide
  have entry := mem_namesListed.mp listed
  rw [entries, List.mem_singleton, Prod.mk.injEq] at entry
  rw [entry.2]
  exact ⟨by decide, by decide, by decide⟩

theorem answerable_fails : ¬ Answerable "10.0.0.9 nas a..b".toList nasPointerQuery nasPointerQuestion := by
  intro answerable
  have found : (Hosts.parse "10.0.0.9 nas a..b".toList).lookup nasPointerQuestion =
      some [.ptr ['n', 'a', 's'], .ptr ['a', '.', '.', 'b']] := by decide
  obtain ⟨response, made⟩ := answerable _ found (by decide)
  have failed : (localResponse nasPointerQuery [.ptr ['n', 'a', 's'], .ptr ['a', '.', '.', 'b']]
      0).toOption = none := by decide
  rw [made] at failed
  cases failed

end Resolved.Proof.HostsFile
