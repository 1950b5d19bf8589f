import Resolved.Lib.PushAll
import Resolved.Proof.Shm.Stub
import Resolved.Proof.Wire.Written
import Resolved.Shm.Hostname
import Resolved.Spec.Caching

/-!
# The NSS module and the daemon read the same responses

A name the daemon reads is read by the NSS module, and so is a record and an answer section.
-/

namespace Resolved.Spec
open Lib Wire Shm

def ntopText (ntop : InetNtop) (record : ResourceRecord) : Option Bytes :=
  if record.cls = classIn ∧ (record.rrType = typeA ∧ record.rdata.length = 4 ∨
      record.rrType = typeAaaa ∧ record.rdata.length = 16) then some (ntop.text record.rdata)
  else none

def Readable (answer : Except ReplyErrno Packet) : Prop :=
  ∀ response, answer = .ok response → ∃ sections, parseSections response = .ok sections

/-- The addresses in the answer section, as the daemon parses it. -/
def offered (ntop : InetNtop) : Except ReplyErrno Packet → List Bytes
  | .error _ => []
  | .ok response =>
    match parseSections response with
    | .error _ => []
    | .ok sections =>
      if sections.header.responseCode = 0 then (answers sections).filterMap (ntopText ntop) else []

end Resolved.Spec

namespace Resolved.Proof.Shm
open Lib Resolved.Wire Resolved.Shm Spec Resolved.Proof.Wire

variable {ntop : InetNtop} {max count offset start stop : Nat} {response packet : Packet}
  {out : List Bytes} {labels : Labels} {answer : Except ReplyErrno Packet}

theorem spelled_wire (some : labels ≠ []) : (spelled labels).length + 2 = (wireOf labels).length := by
  obtain ⟨first, rest, rfl⟩ := List.exists_cons_of_ne_nil some
  rw [spelled, if_neg some]
  clear some
  induction rest generalizing first with
  | nil => simp [wireOf]
  | cons next others ih =>
    rw [List.intercalate_cons_cons, wireOf_length_cons, ← ih next]
    simp only [List.length_append, List.length_singleton]
    omega

theorem nameIn_bounded {pointers : Nat} (name : NameIn packet offset labels pointers stop) :
    ∀ label ∈ labels, label.length ≤ 63 := by
  induction name with
  | root => simp
  | pointer _ _ _ _ _ ih => exact ih
  | @label offset pointers stop length label labels byte nonzero plain part rest ih =>
    intro other member
    rcases List.mem_cons.1 member with rfl | later
    · rw [slice_length part, Nat.add_sub_cancel_left]
      exact UInt8.le_iff_toNat_le.1 (label_small plain)
    · exact ih other later

theorem expandName_of_readName {name : DnsName} {next : Nat} (read : readName packet offset = .ok (name, next)) :
    ∃ labels, name = nameWith labels ∧ dnsExpandName packet offset = .ok (spelled labels, next) := by
  obtain ⟨labels, pointers, here, few, legal, rfl⟩ := readName_iff_nameIn.1 read
  have short : (spelled labels).length ≤ 255 := by
    by_cases root : labels = []
    · subst root
      decide
    · have same := spelled_wire root
      have total := legal.total
      omega
  exact ⟨labels, rfl, dnsExpandName_eq_ok.2 ⟨labels, pointers, here, few, short, rfl⟩⟩

theorem expandName_readName (packet : Packet) (offset : Nat) :
    (∀ name next, readName packet offset = .ok (name, next) →
      ∃ labels, name = nameWith labels ∧ dnsExpandName packet offset = .ok (spelled labels, next)) ∧
    ∀ text next, dnsExpandName packet offset = .ok (text, next) → ∃ labels, text = spelled labels ∧
        ((wireOf labels).length ≤ 255 ∧ readName packet offset = .ok (nameWith labels, next) ∨
          (wireOf labels).length ∈ [256, 257] ∧ ∀ read, readName packet offset ≠ .ok read) := by
  refine ⟨fun name next => expandName_of_readName, ?_⟩
  intro text next expanded
  obtain ⟨labels, pointers, here, few, short, rfl⟩ := dnsExpandName_eq_ok.1 expanded
  refine ⟨labels, rfl, ?_⟩
  by_cases total : (wireOf labels).length ≤ 255
  · have sizes : ∀ label ∈ labels, 0 < label.length ∧ label.length ≤ 63 := fun label member =>
      ⟨List.length_pos_iff.2 (nameIn_sizes here label member), nameIn_bounded here label member⟩
    exact .inl ⟨total, readName_of_nameIn here few ⟨sizes, total⟩⟩
  · -- The text leaves out the first length and the root, two octets of the name.
    have some : labels ≠ [] := by
      rintro rfl
      exact total (by decide)
    have same := spelled_wire some
    refine .inr ⟨by simp only [List.mem_cons, List.not_mem_nil]; omega, ?_⟩
    rintro ⟨name, next'⟩ read
    obtain ⟨labels', pointers', here', -, legal, -⟩ := readName_iff_nameIn.1 read
    obtain ⟨rfl, -, -⟩ := nameIn_unique here here'
    exact total legal.total

theorem srEncodeName_length {name wire : Bytes} {capacity : Nat}
    (encoded : srEncodeName name capacity = some wire) : wire.length ≤ 255 := by
  rw [srEncodeName] at encoded
  split at encoded
  · cases encoded
  split at encoded
  · cases encoded
    decide
  · obtain ⟨out, -, rest⟩ := Option.bind_eq_some_iff.1 encoded
    split at rest
    · cases rest
    · cases rest
      rw [List.length_append, List.length_singleton]
      omega

theorem buildQuery_valid {name query : Bytes} {capacity : Nat} (qtype id : UInt16) (terminated : 0 ∉ name)
    (built : buildQuery name qtype id capacity = .ok query) :
    ∃ labels, name.map asciiLower ∈ [spelled labels, spelled labels ++ [octet '.']] ∧
      validate query false = .ok () ∧
      firstQuestion query = .ok ⟨nameWith labels, qtype.toNat, classIn, query.length⟩ := by
  rw [buildQuery] at built
  split at built
  · cases built
  split at built
  · cases built
  rename_i wire encoded
  split at built
  · cases built
  cases built
  obtain ⟨parts, ⟨rfl, sizes⟩, -, -, shape⟩ := srEncodeName_shape terminated encoded
  have legal : LegalName (lowered parts) := ⟨sizes, srEncodeName_length encoded⟩
  have header := @header_written id.toNat flagRd 1 0 0 0
    (wireOf (lowered parts) ++ (toBe16 qtype.toNat ++ toBe16 classIn)) id.toNat_lt (by decide)
    (by decide) (by decide) (by decide) (by decide)
  have front : toBe16 id.toNat ++ toBe16 flagRd ++ toBe16 1 ++ toBe16 0 ++ toBe16 0 ++ toBe16 0 =
    toBe16 id.toNat ++ [1, 0, 0, 1, 0, 0, 0, 0, 0, 0] := rfl
  have size : (toBe16 id.toNat ++ [1, 0, 0, 1, 0, 0, 0, 0, 0, 0]).length = dnsHeaderLen := rfl
  have one : toBe16 classIn = [0, 1] := rfl
  rw [front, one] at header
  clear front
  generalize toBe16 id.toNat ++ [1, 0, 0, 1, 0, 0, 0, 0, 0, 0] = front at *
  have start := slice_middle front (wireOf (lowered parts)) (toBe16 qtype.toNat ++ [0, 1])
  have fields := slice_middle (front ++ wireOf (lowered parts)) (toBe16 qtype.toNat ++ [0, 1]) []
  rw [List.append_nil] at fields
  simp only [List.length_append, toBe16_length, List.length_cons, List.length_nil, size,
    List.append_assoc] at start fields header ⊢
  have question := parseQuestion_written (nameIn_of_wire sizes start) (Nat.zero_le _) legal
    (one ▸ fields) qtype.toNat_lt (by decide)
  refine ⟨lowered parts, ?_, validate_eq_ok.2 ⟨⟨_, [_], [], _⟩, parseSections_eq_ok.2 ⟨header, _,
    parseQuestions_succ_eq_ok.2 ⟨_, [], rfl, question, rfl⟩, rfl⟩,
    show (flagRd &&& flagQr != 0) = false by decide,
    show (flagRd &&& flagOpcode) >>> 11 = 0 by decide, by simp, fun _ => rfl, ?_⟩, ?_⟩
  · rw [spelled_lowered]
    rcases shape with rfl | ⟨-, rfl⟩
    · simp
    · simp [(asciiLower_eq_dot _).2]
  · simp only [List.length_append, toBe16_length, List.length_cons, List.length_nil, size]
    omega
  · rw [firstQuestion, header, ok_bind, if_neg (by simp), question, Nat.add_assoc]

theorem buildQuery_valid_upper :
    validate [0, 7, 1, 0, 0, 1, 0, 0, 0, 0, 0, 0, 1, 97, 0, 0, 1, 0, 1] false = .ok () := by
  obtain ⟨labels, -, valid, -⟩ := @buildQuery_valid [65] _ 512 1 7 (by decide) rfl
  exact valid

theorem stubReadU16_of_read {value : Nat} (read : readU16 packet offset = .ok value) :
    stubReadU16 packet offset = value ∧ offset + 2 ≤ packet.length := by
  obtain ⟨a, b, first, second, rfl⟩ := readU16_eq_ok.1 read
  have inside := getElem?_lt second
  simp [stubReadU16, List.getD_eq_getElem?_getD, first, second]
  omega

theorem skipQuestions_of_parse {questions : List Question}
    (parsed : parseQuestions response count start = .ok (questions, stop)) :
    skipQuestions response count start = .ok stop := by
  induction count generalizing start questions with
  | zero =>
    simp only [parseQuestions, Except.ok.injEq, Prod.mk.injEq] at parsed
    rw [skipQuestions, parsed.2]
  | succ count ih =>
    obtain ⟨question, rest, rfl, first, later⟩ := parseQuestions_succ_eq_ok.1 parsed
    obtain ⟨fixed, read, -, cls, next⟩ := parseQuestion_eq_ok.1 first
    obtain ⟨labels, -, expanded⟩ := expandName_of_readName read
    have inside := (stubReadU16_of_read cls).2
    rw [next] at later
    simp only [skipQuestions, expanded, ok_bind]
    rw [if_neg (by omega), ih later]

theorem readAnswer_of_parse {record : ResourceRecord} (parsed : ParsedRecord response start record) :
    ∃ answer, readAnswer response start = .ok answer ∧ answer.dataOffset + answer.dataLength = record.nextOffset ∧
      addressText ntop response answer = ntopText ntop record := by
  obtain ⟨fixed, read, type, cls, ttl, -, data, width, ordered, part⟩ := parsed
  obtain ⟨labels, -, expanded⟩ := expandName_of_readName read
  obtain ⟨type, -⟩ := stubReadU16_of_read type
  obtain ⟨cls, -⟩ := stubReadU16_of_read cls
  obtain ⟨width, inside⟩ := stubReadU16_of_read width
  obtain ⟨-, long, cut⟩ := slice_eq_some.1 part
  have length := slice_length part
  refine ⟨⟨record.rrType, record.cls, record.rdataOffset, record.nextOffset - record.rdataOffset⟩, ?_, ?_, ?_⟩
  · simp only [readAnswer, expanded, ok_bind, type, cls, width]
    rw [if_neg (by omega), if_neg (by omega), data]
  · simp only
    omega
  · rw [addressText, ntopText, length, cut]

theorem appendUnique_text (address : Bytes) :
    appendUnique out max (ntop.text address) = .ok (pushUpTo max out [ntop.text address]) := by
  have short := ntop.short address
  simp only [appendUnique, pushUpTo, List.foldl_cons, List.foldl_nil]
  split
  · rename_i present
    rw [if_pos (.inl present)]
  split
  · rename_i full
    rw [if_pos (.inr full)]
  · rename_i absent room
    rw [if_neg (by omega), if_neg (by simp [absent]; omega)]

theorem addressText_appended (answer : StubRecord) :
    (addressText ntop response answer).elim (.ok out) (appendUnique out max) =
      .ok (pushUpTo max out (addressText ntop response answer).toList) := by
  rw [addressText]
  split
  · exact appendUnique_text _
  · rfl

theorem answerLoop_of_parse {total : Nat} {records : List ResourceRecord}
    (parsed : parseRecords response total start = .ok (records, stop)) (counted : count ≤ total) :
    answerLoop ntop max response count start out =
      (pushUpTo max out ((records.take count).filterMap (ntopText ntop)), .ok ()) := by
  induction count generalizing total start records out with
  | zero => rfl
  | succ count ih =>
    obtain ⟨total, rfl⟩ : ∃ n, total = n + 1 := ⟨total - 1, by omega⟩
    obtain ⟨record, rest, rfl, first, later⟩ := parseRecords_succ_eq_ok.1 parsed
    obtain ⟨answer, read, next, text⟩ := @readAnswer_of_parse ntop start response record first
    rw [answerLoop, read]
    simp only [addressText_appended]
    rw [next, text, ih later (by omega), List.take_succ_cons, ← List.singleton_append,
      List.filterMap_append, pushUpTo, pushUpTo, pushUpTo, List.foldl_append]
    cases found : ntopText ntop record <;> simp [found]

theorem responseRcode_of_parse {header : Header} (parsed : Header.parse response = .ok header) :
    responseRcode response = .ok () ↔ header.responseCode = 0 := by
  obtain ⟨long, -, flags, -⟩ := headerParse_eq_ok.1 parsed
  obtain ⟨a, b, -, low, whole⟩ := readU16_eq_ok.1 flags
  have code : header.responseCode = (b &&& 0x0f).toNat := by
    have least : (b &&& 0x0f).toNat = b.toNat % 16 := Nat.and_two_pow_sub_one_eq_mod b.toNat 4
    rw [Header.responseCode, ← whole, be16, rcodeMask, Nat.and_two_pow_sub_one_eq_mod _ 4, least]
    omega
  have zero : b &&& 0x0f = 0 ↔ header.responseCode = 0 := by
    rw [code]
    exact UInt8.toNat_inj.symm
  rw [← zero, responseRcode, if_neg (not_lt.2 long), List.getD_eq_getElem?_getD, low]
  simp only [Option.getD_some]
  split
  · simp [*]
  · rename_i set
    simp only [set, iff_false]
    split
    · simp
    · split <;> simp

theorem resolveType_gathers (readable : Readable answer) :
    (resolveType ntop max answer out).1 = pushUpTo max out (offered ntop answer) := by
  cases answer with
  | error cause => rfl
  | ok response =>
    obtain ⟨sections, parsed⟩ := readable response rfl
    obtain ⟨header, middle, questions, records⟩ := parseSections_eq_ok.1 parsed
    obtain ⟨-, -, -, counted, answered, -⟩ := headerParse_eq_ok.1 header
    have decided := responseRcode_of_parse header
    simp only [resolveType, parseAddresses, offered, parsed]
    cases code : responseRcode response with
    | error cause =>
      rw [code] at decided
      rw [if_neg (mt decided.2 (by simp))]
      rfl
    | ok =>
      rw [if_pos (decided.1 code)]
      simp only
      rw [(stubReadU16_of_read counted).1, (stubReadU16_of_read answered).1, skipQuestions_of_parse questions]
      simp only
      rw [answerLoop_of_parse records (by unfold Header.totalRecords; omega)]
      rfl

theorem resolveSecond_gathers (readable : Readable answer) :
    (resolveSecond ntop max answer out).1 = pushUpTo max out (offered ntop answer) := by
  rw [resolveSecond]
  split
  · exact resolveType_gathers readable
  · rename_i full
    exact (pushUpTo_full (not_lt.1 full)).symm

theorem srStubResolveHostname_offered (ntop : InetNtop) (name : Bytes) (max : Nat)
    (query : Nat → Except ReplyErrno Packet) (readable : ∀ qtype, Readable (query qtype)) (found : List Bytes) :
    srStubResolveHostname ntop name max query = .ok found ↔ name ≠ [] ∧ found ≠ [] ∧ found =
        (pushAll [] (offered ntop (query typeA) ++ offered ntop (query typeAaaa))).take max := by
  have both : (resolveSecond ntop max (query typeAaaa)
      (resolveType ntop max (query typeA) []).1).1 =
        (pushAll [] (offered ntop (query typeA) ++ offered ntop (query typeAaaa))).take max := by
    rw [resolveSecond_gathers (readable _), resolveType_gathers (readable _),
      ← pushUpTo_eq_take (Nat.zero_le _), pushUpTo, pushUpTo, pushUpTo, List.foldl_append]
  rw [srStubResolveHostname]
  split
  · rename_i refused
    simp only [reduceCtorEq, false_iff]
    rintro ⟨named, some, rfl⟩
    rcases refused with rfl | rfl
    · exact named rfl
    · exact some (List.take_zero ..)
  · rename_i usable
    rw [not_or] at usable
    simp only [both]
    split
    · rename_i none
      rw [none]
      constructor
      · intro impossible
        cases impossible
      · rintro ⟨-, some, rfl⟩
        exact absurd rfl some
    · rename_i some
      rw [Except.ok.injEq]
      constructor
      · rintro rfl
        exact ⟨usable.1, some, rfl⟩
      · rintro ⟨-, -, rfl⟩
        rfl

def repeatedReply : Packet :=
  [0, 0, 0x81, 0x80, 0, 1, 0, 2, 0, 0, 0, 0, 1, 97, 0, 0, 1, 0, 1] ++
    [0xc0, 12, 0, 1, 0, 1, 0, 0, 0, 0, 0, 4, 10, 0, 0, 1] ++
    [0xc0, 12, 0, 1, 0, 1, 0, 0, 0, 0, 0, 4, 10, 0, 0, 1]

def repeatedQuery (qtype : Nat) : Except ReplyErrno Packet :=
  if qtype = typeA then .ok repeatedReply else .error .eagain

/-- The octets in decimal with dots between them, as `inet_ntop` writes an IPv4 address. -/
def dotted : InetNtop where
  text address := ([octet '.'].intercalate
    (address.map fun part => (Nat.toDigits 10 part.toNat).map octet)).take 45
  short address := by simp

theorem srStubResolveHostname_offered_once :
    srStubResolveHostname dotted [97] 4 repeatedQuery = .ok ["10.0.0.1".toList.map octet] := by
  refine (srStubResolveHostname_offered dotted [97] 4 repeatedQuery ?_ _).2 (by decide +kernel)
  intro qtype response answered
  rw [repeatedQuery] at answered
  split at answered
  · cases answered
    have parses : (parseSections repeatedReply).isOk = true := by decide +kernel
    cases parsed : parseSections repeatedReply with
    | error cause =>
      rw [parsed] at parses
      cases parses
    | ok sections => exact ⟨sections, rfl⟩
  · cases answered

theorem answerLoop_keeps (some : out ≠ []) (answers offset : Nat) :
    (answerLoop ntop max response answers offset out).1 ≠ [] := by
  induction answers generalizing offset out with
  | zero => exact some
  | succ answers ih =>
    rw [answerLoop]
    split
    · exact some
    · rw [addressText_appended]
      exact ih (pushUpTo_ne_nil some) _

theorem resolveType_ne_nil (some : out ≠ [] ∨ (resolveType ntop max answer out).2 = .ok ()) :
    (resolveType ntop max answer out).1 ≠ [] := by
  cases answer with
  | error cause => exact some.resolve_right (by simp [resolveType])
  | ok response =>
    simp only [resolveType, parseAddresses] at some ⊢
    split at some
    · exact some.resolve_right (by simp)
    split at some
    · exact some.resolve_right (by simp)
    rename_i offset skipped
    have kept := fun started => @answerLoop_keeps ntop max response out started
      (stubReadU16 response 6) offset
    generalize answerLoop ntop max response (stubReadU16 response 6) offset out = run at kept some ⊢
    obtain ⟨gathered, ended⟩ := run
    cases ended with
    | error cause => exact kept (some.resolve_right (by simp))
    | ok =>
      rcases some with started | done
      · exact kept started
      · rintro rfl
        cases done

theorem resolveSecond_ne_nil (some : out ≠ []) : (resolveSecond ntop max answer out).1 ≠ [] := by
  rw [resolveSecond]
  split
  · exact resolveType_ne_nil (.inl some)
  · exact some

theorem srStubResolveHostname_error (ntop : InetNtop) (name : Bytes) (max : Nat)
    (query : Nat → Except ReplyErrno Packet) (cause : ReplyErrno) (usable : name ≠ [] ∧ max ≠ 0)
    (failed : srStubResolveHostname ntop name max query = .error cause) :
    ∃ first second, (resolveType ntop max (query typeA) []).2 = .error first ∧
      (resolveType ntop max (query typeAaaa) []).2 = .error second ∧
      cause = if first ≠ .io 0 then first else if second ≠ .io 0 then second else .enodata := by
  rw [srStubResolveHostname, if_neg (by simpa using usable)] at failed
  simp only at failed
  split at failed
  · rename_i none
    -- With an address from either call there would be one in the end.
    have empty : (resolveType ntop max (query typeA) []).1 = [] := by
      by_contra some
      exact resolveSecond_ne_nil some none
    have asked : resolveSecond ntop max (query typeAaaa) [] =
        resolveType ntop max (query typeAaaa) [] := if_pos (Nat.pos_of_ne_zero usable.2)
    rw [empty, asked] at failed none
    cases first : (resolveType ntop max (query typeA) []).2 with
    | ok => exact absurd empty (resolveType_ne_nil (.inr first))
    | error cause₁ =>
      cases second : (resolveType ntop max (query typeAaaa) []).2 with
      | ok => exact absurd none (resolveType_ne_nil (.inr second))
      | error cause₂ =>
        rw [first, second] at failed
        refine ⟨cause₁, cause₂, rfl, rfl, (Except.error.inj failed).symm.trans ?_⟩
        unfold errnoAfter
        by_cases unset : cause₁ = .io 0
        · by_cases unset' : cause₂ = .io 0 <;> simp [unset, unset']
        · simp [unset]
  · cases failed

theorem srStubResolveHostname_error_unset :
    ∃ first second, (resolveType dotted 4 (.error (.io 0)) []).2 = .error first ∧
      (resolveType dotted 4 (.error .eagain) []).2 = .error second ∧
      .eagain = if first ≠ .io 0 then first else if second ≠ .io 0 then second else .enodata :=
  srStubResolveHostname_error dotted [97] 4
    (fun qtype => .error (if qtype = typeA then .io 0 else .eagain)) .eagain (by decide) rfl

end Resolved.Proof.Shm
