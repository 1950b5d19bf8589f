import Resolved.Proof.Wire.RecordTypes

/-!
# Local answers
-/

namespace Resolved.Proof.Wire
open Lib Resolved.Wire Spec

structure Built (query : Packet) (stop : Nat) (response : Packet) (frames : List (Nat × Nat × Nat)) :
    Prop where
  head : dnsHeaderLen ≤ stop
  inside : stop ≤ response.length
  count : ∀ k, k < 2 → response[4 + k]? = query[4 + k]?
  question : ∀ i, dnsHeaderLen ≤ i → i < stop → response[i]? = query[i]?
  records : RecordSpans response stop frames response.length

section
variable {query response : Packet} {stop : Nat} {frames : List (Nat × Nat × Nat)}

theorem Built.lacks (built : Built query stop response frames) (asked : questionEnd query = .ok stop)
    (others : ∀ frame ∈ frames, frame.2.2 ≠ rrType) : Lacks response rrType := by
  intro frames' header middle stop' here frame member
  simp only [questionEnd, bind_eq_ok] at asked
  obtain ⟨header', parsed, asked⟩ := asked
  split at asked
  · simp at asked
  · simp only [bind_eq_ok, pure_eq_ok, Prod.exists] at asked
    obtain ⟨questions, _, reads, rfl⟩ := asked
    have counts : header.questionCount = header'.questionCount := by
      obtain ⟨-, -, -, count, -⟩ := headerParse_eq_ok.1 here.parsed
      obtain ⟨-, -, -, count', -⟩ := headerParse_eq_ok.1 parsed
      rw [readU16_congr built.count, count'] at count
      exact (Except.ok.inj count).symm
    have spans := (parseQuestions_spans reads).transfer built.inside built.question
    have same := here.questions
    rw [counts] at same
    obtain rfl := spans.unique same
    exact others frame (RecordSpans.mem_of_full built.records here.records frame member)

theorem Built.recounted (built : Built query stop response frames) {octets : Bytes}
    (short : 6 + octets.length ≤ dnsHeaderLen) : Built query stop (overwrite response 6 octets) frames := by
  have := built.head
  have := built.inside
  have room : 6 + octets.length ≤ response.length := by omega
  have behind : ∀ i, dnsHeaderLen ≤ i → (overwrite response 6 octets)[i]? = response[i]? :=
    fun i low => overwrite_getElem?_of_lt room (by omega)
  refine ⟨built.head, ?_, fun k hk => ?_, fun i low high => ?_, ?_⟩
  · rw [overwrite_length room]
    exact built.inside
  · rw [overwrite_getElem?_of_lt room (by omega)]
    exact built.count k hk
  · rw [behind i low]
    exact built.question i low high
  · rw [overwrite_length room]
    refine built.records.transfer ?_ fun i low _ _ => behind i (by omega)
    rw [overwrite_length room]

theorem answerHead_built {set clear rcode : Nat} {head : Packet}
    (made : answerHead query set clear rcode = .ok head) :
    ∃ stop, questionEnd query = .ok stop ∧ Built query stop head [] := by
  simp only [answerHead, bind_eq_ok, pure_eq_ok] at made
  obtain ⟨-, -, stop, asked, flags, -, marked, writes, rfl⟩ := made
  refine ⟨stop, asked, ?_⟩
  obtain ⟨low, inside⟩ : dnsHeaderLen ≤ stop ∧ stop ≤ query.length := by
    simp only [questionEnd, bind_eq_ok] at asked
    obtain ⟨header, parsed, asked⟩ := asked
    split at asked
    · simp at asked
    · simp only [bind_eq_ok, pure_eq_ok, Prod.exists] at asked
      obtain ⟨questions, _, reads, rfl⟩ := asked
      have spans := parseQuestions_spans reads
      exact ⟨spans.le, spans.inside (headerParse_eq_ok.1 parsed).1⟩
  have long : 4 ≤ dnsHeaderLen := by decide
  have width : (query.take stop).length = stop := by
    rw [List.length_take]
    omega
  simp only [writeU16] at writes
  split at writes
  · rename_i bound
    cases writes
    have room : 2 + (toBe16 (((flags ||| set) &&& (0xffff ^^^ clear)) ||| rcode)).length ≤
        (query.take stop).length := bound
    refine Built.recounted ⟨low, ?_, fun k hk => ?_, fun i hi high => ?_, ?_⟩ (by decide)
    · rw [overwrite_length room, width]
    · rw [overwrite_getElem?_of_lt room (by simp),
        List.getElem?_take_of_lt (lt_of_lt_of_le (by omega) ((by decide : 6 ≤ dnsHeaderLen).trans low))]
    · rw [overwrite_getElem?_of_lt room (by simp; omega), List.getElem?_take_of_lt high]
    · rw [overwrite_length room, width]
      rfl
  · cases writes

def pushedOctets (rrType cls ttl : Nat) (rdata : Bytes) : Bytes :=
  [0xc0, 0x0c] ++ toBe16 rrType ++ toBe16 cls ++ toBe32 ttl ++ toBe16 rdata.length ++ rdata

theorem pushRecord_eq_ok (pushed : pushRecord response rrType cls ttl rdata = .ok response') :
    rdata.length < 65536 ∧ response' = response ++ pushedOctets rrType cls ttl rdata := by
  unfold pushRecord at pushed
  split at pushed
  · cases pushed
  · rename_i short
    simp only at pushed
    split at pushed
    · cases pushed
    · cases pushed
      exact ⟨by omega, by simp [pushedOctets]⟩

theorem recordSpan_pushed (response : Packet) (cls ttl : Nat) (small : rrType < 65536)
    (short : rdata.length < 65536) :
    RecordSpan (response ++ pushedOctets rrType cls ttl rdata) response.length (response.length + 2)
      rrType (response ++ pushedOctets rrType cls ttl rdata).length := by
  have late : ∀ k, (response ++ pushedOctets rrType cls ttl rdata)[response.length + k]? =
      (pushedOctets rrType cls ttl rdata)[k]? := by
    intro k
    rw [List.getElem?_append_right (by omega), Nat.add_sub_cancel_left]
  refine ⟨.pointer (late 0) (by decide) (late 1), ?_, ⟨rdata.length, ?_, ?_⟩, le_rfl⟩
  · exact readU16_eq_ok.2 ⟨_, _, late 2, late 3, be16_toBe16 rrType small⟩
  · exact readU16_eq_ok.2 ⟨_, _, late 10, late 11, be16_toBe16 rdata.length short⟩
  · simp [pushedOctets]
    omega

theorem pushRecord_built (small : rrType < 65536) (built : Built query stop response frames)
    (pushed : pushRecord response rrType cls ttl rdata = .ok response') :
    Built query stop response' (frames ++ [(response.length, response.length + 2, rrType)]) := by
  obtain ⟨short, rfl⟩ := pushRecord_eq_ok pushed
  have := built.inside
  have := built.head
  have := (by decide : 4 + 2 ≤ dnsHeaderLen)
  have early : ∀ i, i < response.length →
      (response ++ pushedOctets rrType cls ttl rdata)[i]? = response[i]? :=
    fun i low => List.getElem?_append_left low
  have room : response.length ≤ (response ++ pushedOctets rrType cls ttl rdata).length := by simp
  refine ⟨built.head, built.inside.trans room, fun k hk => ?_, fun i low high => ?_, ?_⟩
  · rw [early _ (by omega)]
    exact built.count k hk
  · rw [early i (by omega)]
    exact built.question i low high
  · exact RecordSpans.append (built.records.transfer room fun i _ high _ => early i high)
      ⟨rfl, _, recordSpan_pushed response cls ttl small short, rfl⟩

end

section
variable {query response : Packet}

theorem refusedFor_lacks (made : refusedFor query = .ok response) (rrType : Nat) : Lacks response rrType := by
  obtain ⟨stop, asked, built⟩ := answerHead_built made
  exact built.lacks asked (by simp)

def BuiltOf (types : List Nat) (query : Packet) (stop : Nat) (response : Packet) : Prop :=
  ∃ frames, Built query stop response frames ∧ ∀ frame ∈ frames, frame.2.2 ∈ types

theorem BuiltOf.push (built : BuiltOf types query stop response) (small : rrType < 65536)
    (listed : rrType ∈ types) (pushed : pushRecord response rrType cls ttl rdata = .ok response') :
    BuiltOf types query stop response' := by
  obtain ⟨frames, built, typed⟩ := built
  refine ⟨_, pushRecord_built small built pushed, fun frame member => ?_⟩
  rcases List.mem_append.1 member with earlier | here
  · exact typed frame earlier
  · rw [List.mem_singleton.1 here]
    exact listed

theorem pushLocalRecord_built (built : BuiltOf [typeA, typeAaaa, typePtr] query stop response)
    (pushed : pushLocalRecord questionType ttl response record = .ok response') :
    BuiltOf [typeA, typeAaaa, typePtr] query stop response' := by
  unfold pushLocalRecord at pushed
  split at pushed
  · cases pushed
    exact built
  · obtain ⟨rdata, -, pushed⟩ := bind_eq_ok.1 pushed
    refine built.push ?_ ?_ pushed
    · cases record <;> simp [LocalRecord.rrType, typeA, typeAaaa, typePtr]
    · cases record <;> simp [LocalRecord.rrType]

theorem pushStaticRecord_built (built : BuiltOf [1, 28, 12, 2, 5, 39] query stop response)
    (pushed : pushStaticRecord question (response, count) resource = .ok state') :
    BuiltOf [1, 28, 12, 2, 5, 39] query stop state'.1 := by
  unfold pushStaticRecord at pushed
  split at pushed
  · cases pushed
    exact built
  · split at pushed
    · cases pushed
      exact built
    · obtain ⟨response', appended, counted⟩ := bind_eq_ok.1 pushed
      split at counted
      · simp at counted
      · cases counted
        refine built.push ?_ resource.admitted appended
        have := resource.admitted
        simp at this
        omega

theorem localResponse_lacks {records : List LocalRecord} {ttl : Nat}
    (made : localResponse query records ttl = .ok response) : Lacks response typeOpt := by
  simp only [localResponse, bind_eq_ok] at made
  obtain ⟨head, heads, question, -, made⟩ := made
  split at made
  · simp at made
  · simp only [bind_eq_ok] at made
    obtain ⟨filled, pushed, count, -, writes⟩ := made
    obtain ⟨stop, asked, built⟩ := answerHead_built heads
    obtain ⟨frames, built, typed⟩ : BuiltOf [typeA, typeAaaa, typePtr] query stop filled :=
      foldlM_keeps (BuiltOf _ query stop) (fun _ _ _ => pushLocalRecord_built) pushed
        ⟨[], built.recounted (by simp [dnsHeaderLen]), by simp⟩
    unfold writeU16 at writes
    split at writes
    · cases writes
      refine (built.recounted (by simp [dnsHeaderLen])).lacks asked fun frame member same => ?_
      have := typed frame member
      rw [same] at this
      exact absurd this (by decide)
    · cases writes

theorem staticResponse_lacks {question : Question} {rrset : List StaticRecord}
    (made : staticResponse query question rrset = .ok response) : Lacks response typeOpt := by
  simp only [staticResponse, bind_eq_ok, pure_eq_ok, Prod.exists] at made
  obtain ⟨head, heads, filled, count, pushed, rfl⟩ := made
  obtain ⟨stop, asked, built⟩ := answerHead_built heads
  obtain ⟨frames, built, typed⟩ : BuiltOf [1, 28, 12, 2, 5, 39] query stop filled :=
    foldlM_keeps (fun state => BuiltOf _ query stop state.1)
      (fun _ _ _ => pushStaticRecord_built) pushed ⟨[], built, by simp⟩
  refine (built.recounted (by simp [dnsHeaderLen])).lacks asked fun frame member same => ?_
  have := typed frame member
  rw [same] at this
  exact absurd this (by decide)

end

end Resolved.Proof.Wire
