import Resolved.Proof.Dnssec.Verify
import Resolved.Proof.Dnssec.Rdata

/-!
# Signed data depends on what the records say

Two RRsets with the same records give the same signed data, whatever the order, the repetitions, the
TTLs, the case and the compression of their names.
-/

namespace Resolved.Proof.Dnssec
open Lib Resolved.Wire Resolved.Dnssec Spec Proof.Wire

variable {signature : RrsigRecord} {first rrsigRecord : ResourceRecord} {owner : Bytes}

section
variable {limit : Nat} {packet packet' : Packet}

theorem SameSigned.symm (same : SameSigned limit packet packet' record record') :
    SameSigned limit packet' packet record' record := by
  obtain ⟨content, content', here, here', lower⟩ := same.rdata
  exact ⟨same.parsed', same.parsed, same.owner.symm, same.rrType.symm, same.cls.symm,
    content', content, here', here, lower.symm⟩

theorem SameRrset.symm (same : SameRrset limit packet packet' rrset rrset') :
    SameRrset limit packet' packet rrset' rrset := by
  refine ⟨fun record' member' => ?_, fun record member => ?_⟩
  · obtain ⟨record, member, alike⟩ := same.right record' member'
    exact ⟨record, member, SameSigned.symm alike⟩
  · obtain ⟨record', member', alike⟩ := same.left record member
    exact ⟨record', member', SameSigned.symm alike⟩

end

theorem parseRecord_slice (parsed : ∃ start, parseRecord packet start = .ok record) :
    slice packet record.rdataOffset record.nextOffset = some record.rdata := by
  obtain ⟨start, parsed⟩ := parsed
  obtain ⟨fixed, -, -, -, -, -, -, -, -, part⟩ := parseRecord_eq_ok.1 parsed
  exact part

theorem parseRecord_owner (parsed : ∃ start, parseRecord packet start = .ok record) :
    ∃ labels, NameOf record.name.canonicalWire labels := by
  obtain ⟨start, parsed⟩ := parsed
  obtain ⟨fixed, read, -⟩ := parseRecord_eq_ok.1 parsed
  exact readName_nameOf read

section
variable {packet packet' : Packet} {rrset rrset' : List ResourceRecord}

theorem sameSigned_rdata (same : SameSigned 128 packet packet' record record') :
    ∃ data, canonicalRdata packet record = .ok data ∧ canonicalRdata packet' record' = .ok data := by
  obtain ⟨content, content', here, here', lower⟩ := same.rdata
  refine ⟨content.lowered.wire, canonicalRdata_of_content (parseRecord_slice same.parsed) here, ?_⟩
  rw [canonicalRdata_of_content (parseRecord_slice same.parsed') here', lower]

theorem sameRrset_rdataOf (same : SameRrset 128 packet packet' rrset rrset') (data : Bytes) :
    RdataOf packet' rrset' data ↔ RdataOf packet rrset data := by
  constructor
  · rintro ⟨record', member', read'⟩
    obtain ⟨record, member, alike⟩ := same.right record' member'
    obtain ⟨data', read, found⟩ := sameSigned_rdata alike
    rw [read', Except.ok.injEq] at found
    exact ⟨record, member, by rw [read, found]⟩
  · rintro ⟨record, member, read⟩
    obtain ⟨record', member', alike⟩ := same.left record member
    obtain ⟨data', found, read'⟩ := sameSigned_rdata alike
    rw [read, Except.ok.injEq] at found
    exact ⟨record', member', by rw [read', found]⟩

theorem signedParts_sameRrset (same : SameRrset 128 packet packet' rrset rrset') {datas : List Bytes}
    (parts : SignedParts packet signature rrset first owner datas) :
    ∃ first', SignedParts packet' signature rrset' first' owner datas ∧
      first'.rrType = first.rrType ∧ first'.cls = first.cls := by
  obtain ⟨found, -, -⟩ := same.left first (List.mem_of_head? parts.head)
  have matching : ∀ record' ∈ rrset', record'.rrType = signature.typeCovered ∧
      record'.cls = first.cls ∧ record'.name.canonicalWire = first.name.canonicalWire := by
    intro record' member'
    obtain ⟨record, member, alike⟩ := same.right record' member'
    rw [alike.rrType, alike.cls, alike.owner]
    exact parts.alike record member
  cases rrset' with
  | nil =>
    obtain ⟨record', member', -⟩ := same.left first (List.mem_of_head? parts.head)
    cases member'
  | cons first' rest =>
    obtain ⟨type, cls, name⟩ := matching first' (by simp)
    refine ⟨first', ⟨rfl, by rw [name]; exact parts.owner, ?_, ?_, parts.increasing, ?_, parts.small⟩,
      by rw [type, (parts.alike first (List.mem_of_head? parts.head)).1], cls⟩
    · rw [cls, name]
      exact matching
    · intro record' member'
      obtain ⟨record, -, alike⟩ := same.right record' member'
      obtain ⟨data, -, read⟩ := sameSigned_rdata alike
      exact ⟨data, read⟩
    · intro data
      rw [parts.members data, sameRrset_rdataOf same]

theorem canonicalOwner_failsWith {wire : Bytes} {labels : Labels} {count : UInt8} (name : NameOf wire labels) :
    FailsWith (· = WireError.invalidRecord) (canonicalOwner wire count) := by
  obtain ⟨offsets, found, -⟩ := labelOffsets_wireOf name
  rw [canonicalOwner, found, ok_bind]
  intro error failed
  simp only at failed
  split at failed
  · cases failed
    rfl
  · split at failed
    · cases failed
    · split at failed
      · cases failed
      · revert failed
        cases offsets[offsets.length - count.toNat]? with
        | none =>
          intro failed
          cases failed
          rfl
        | some offset =>
          rw [okOr_some, ok_bind]
          cases slice (wire.map asciiLower) offset (wire.map asciiLower).length with
          | none =>
            intro failed
            cases failed
            rfl
          | some closest =>
            intro failed
            cases failed

theorem fromWire_failsWith {α : Type} {result : Except WireError α}
    (fails : FailsWith (· = WireError.invalidRecord) result) :
    FailsWith (· = DnssecError.wire .invalidRecord) (fromWire result) := by
  cases result with
  | ok value =>
    intro error failed
    cases failed
  | error reason =>
    intro error failed
    cases failed
    rw [fails reason rfl]

theorem canonicalRecord_failsWith {data : Bytes} {record : ResourceRecord}
    (read : canonicalRdata packet record = .ok data) :
    FailsWith (· = DnssecError.wire .invalidRecord) (canonicalRecord packet signature owner first record) := by
  intro error failed
  unfold canonicalRecord at failed
  split at failed
  · cases failed
    rfl
  · rw [read] at failed
    simp only [fromWire, Except.mapError, ok_bind] at failed
    split at failed
    · cases failed
      rfl
    · cases failed

theorem canonicalSignedData_failsWith (parsed : parseRrsig packet rrsigRecord = .ok signature)
    (owners : ∀ record ∈ rrset, ∃ labels, NameOf record.name.canonicalWire labels)
    (readable : ∀ record ∈ rrset, ∃ data, canonicalRdata packet record = .ok data) :
    FailsWith (· = DnssecError.wire .invalidRecord) (canonicalSignedData packet rrsigRecord rrset) := by
  cases rrset with
  | nil =>
    intro error failed
    simp only [canonicalSignedData, parsed] at failed
    cases failed
    rfl
  | cons first rest =>
    have unfolded : canonicalSignedData packet rrsigRecord (first :: rest) =
        (fromWire (canonicalOwner first.name.canonicalWire signature.labels) >>= fun owner =>
          (first :: rest).mapM (canonicalRecord packet signature owner first) >>= fun images =>
            pure (rrsigPrefix signature ++ (sortDedup images).flatten)) := by
      simp only [canonicalSignedData, parsed]
      rfl
    rw [unfolded]
    obtain ⟨labels, named⟩ := owners first (by simp)
    refine FailsWith.bind (fromWire_failsWith (canonicalOwner_failsWith named)) fun owner _ => ?_
    refine FailsWith.bind (FailsWith.mapM fun record member => ?_) fun images _ => ?_
    · obtain ⟨data, read⟩ := readable record member
      exact canonicalRecord_failsWith read
    · intro error failed
      cases failed

theorem canonicalSignedData_sameRrset_ok (parsed : parseRrsig packet rrsigRecord = .ok signature)
    (parsed' : parseRrsig packet' rrsigRecord' = .ok signature)
    (same : SameRrset 128 packet packet' rrset rrset')
    (done : canonicalSignedData packet rrsigRecord rrset = .ok output) :
    canonicalSignedData packet' rrsigRecord' rrset' = .ok output := by
  obtain ⟨first, owner, datas, parts, rfl⟩ := canonicalSignedData_parts parsed done
  obtain ⟨first', parts', type, cls⟩ := signedParts_sameRrset same parts
  rw [canonicalSignedData_of_parts parsed' parts', type, cls]

theorem canonicalSignedData_sameRrset_error {error : DnssecError}
    (parsed : parseRrsig packet rrsigRecord = .ok signature) (same : SameRrset 128 packet packet' rrset rrset')
    (failed : canonicalSignedData packet rrsigRecord rrset = .error error) : error = .wire .invalidRecord := by
  refine canonicalSignedData_failsWith parsed ?_ ?_ error failed
  · intro record member
    obtain ⟨record', -, alike⟩ := same.left record member
    exact parseRecord_owner alike.parsed
  · intro record member
    obtain ⟨record', -, alike⟩ := same.left record member
    obtain ⟨data, read, -⟩ := sameSigned_rdata alike
    exact ⟨data, read⟩

end

theorem canonicalSignedData_sameRrset (packet packet' : Packet) (rrsigRecord rrsigRecord' : ResourceRecord)
    (rrset rrset' : List ResourceRecord) (record record' : ResourceRecord) (output : Bytes) :
    (parseRrsig packet rrsigRecord = parseRrsig packet' rrsigRecord' → SameRrset 128 packet packet' rrset rrset' →
      canonicalSignedData packet rrsigRecord rrset = canonicalSignedData packet' rrsigRecord' rrset') ∧
    (canonicalRdata packet record = .ok output →
      (∃ start, parseRecord packet' start = .ok record') → record'.rrType = record.rrType →
      record'.rdata = output → canonicalRdata packet' record' = .ok output) := by
  constructor
  · intro alike same
    cases parsed : parseRrsig packet rrsigRecord with
    | error error =>
      have parsed' := alike.symm.trans parsed
      simp only [canonicalSignedData, parsed, parsed']
      rfl
    | ok signature =>
      have parsed' := alike.symm.trans parsed
      cases done : canonicalSignedData packet rrsigRecord rrset with
      | ok output => exact (canonicalSignedData_sameRrset_ok parsed parsed' same done).symm
      | error error =>
        cases done' : canonicalSignedData packet' rrsigRecord' rrset' with
        | ok output =>
          have back := canonicalSignedData_sameRrset_ok parsed' parsed (SameRrset.symm same) done'
          rw [done] at back
          cases back
        | error error' =>
          rw [canonicalSignedData_sameRrset_error parsed same done,
            canonicalSignedData_sameRrset_error parsed' (SameRrset.symm same) done']
  · intro done parsed' type embedded
    exact canonicalRdata_idempotent done (parseRecord_slice parsed') type embedded

def pointerChain : Bytes :=
  [0] ++ (List.range 128).flatMap fun k => [0xc0, UInt8.ofNat (2 * k - 1)]

def nsBehind (steps : Nat) : Packet :=
  pointerChain ++ [0, 0, 2, 0, 1, 0, 0, 0, 60, 0, 2, 0xc0, UInt8.ofNat (2 * steps - 1),
    0, 0, 46, 0, 1, 0, 0, 0, 60, 0, 20,
    0, 2, 15, 0, 0, 0, 0, 60, 0, 0, 0, 1, 0, 0, 0, 0, 0, 0, 0, 7]

def nsOfRoot (steps : Nat) : ResourceRecord :=
  ⟨rootName, 2, 1, 60, 262, 268, [0xc0, UInt8.ofNat (2 * steps - 1)], 270⟩

def rrsigBehind : ResourceRecord :=
  ⟨rootName, 46, 1, 60, 275, 281, [0, 2, 15, 0, 0, 0, 0, 60, 0, 0, 0, 1, 0, 0, 0, 0, 0, 0, 0, 7], 301⟩

theorem nameIn_chain (steps k : Nat) (few : k ≤ 128) : ∃ stop, NameIn (nsBehind steps) (2 * k - 1) [] k stop := by
  have length : pointerChain.length = 257 := by decide +kernel
  induction k with
  | zero => exact ⟨1, .root rfl⟩
  | succ k ih =>
    obtain ⟨stop, name⟩ := ih (by omega)
    have octets : ∀ k : Fin 128, pointerChain[2 * k.val + 1]? = some 0xc0 ∧
        pointerChain[2 * k.val + 2]? = some (UInt8.ofNat (2 * k.val - 1)) ∧
        pointerTarget 0xc0 (UInt8.ofNat (2 * k.val - 1)) = 2 * k.val - 1 := by decide +kernel
    obtain ⟨first, second, target⟩ := octets ⟨k, by omega⟩
    simp only at first second target
    have place : 2 * (k + 1) - 1 = 2 * k + 1 := by omega
    rw [place]
    have read : ∀ i, i < 257 → (nsBehind steps)[i]? = pointerChain[i]? := by
      intro i inside
      rw [nsBehind, List.getElem?_append_left (by omega)]
    rw [← target] at name
    exact ⟨_, .pointer ((read _ (by omega)).trans first) (by decide)
      ((read _ (by omega)).trans second) (by omega) name⟩

theorem rdataAt_chain (few : steps ≤ 128) (enough : steps < limit) :
    RdataAt (nsBehind steps) limit (nsOfRoot steps) ⟨[], [[]], []⟩ := by
  obtain ⟨stop, name⟩ := nameIn_chain steps steps few
  have length : pointerChain.length = 257 := by decide +kernel
  have targets : ∀ steps : Fin 129,
      pointerTarget 0xc0 (UInt8.ofNat (2 * steps.val - 1)) = 2 * steps.val - 1 := by
    decide
  have target := targets ⟨steps, by omega⟩
  have empty : ∀ i, i ≤ 301 → slice (nsBehind steps) i i = some [] := by
    intro i inside
    rw [slice, if_pos ⟨le_rfl, by simp [nsBehind, length]; omega⟩, Nat.sub_self, List.take_zero]
  have behind : ∀ i, (nsBehind steps)[257 + i]? =
      ([0, 0, 2, 0, 1, 0, 0, 0, 60, 0, 2, 0xc0, UInt8.ofNat (2 * steps - 1), 0, 0, 46, 0, 1, 0, 0, 0, 60, 0, 20,
        0, 2, 15, 0, 0, 0, 0, 60, 0, 0, 0, 1, 0, 0, 0, 0, 0, 0, 0, 7] : Bytes)[i]? := by
    intro i
    rw [nsBehind, List.getElem?_append_right (by omega), length, Nat.add_sub_cancel_left]
  simp only at target
  rw [← target] at name
  have here : NameIn (nsBehind steps) 268 [] (steps + 1) 270 :=
    .pointer (behind 11) (by decide) (behind 12) (by omega) name
  exact ⟨⟨268, 270, empty 268 (by omega), .cons here enough ⟨by simp, by simp⟩ .nil,
    empty 270 (by omega)⟩, rfl, rfl⟩

theorem sameRrset_chain (few : steps ≤ 128) (few' : steps' ≤ 128) (enough : steps < limit)
    (enough' : steps' < limit) (parsed : parseRecord (nsBehind steps) 257 = .ok (nsOfRoot steps))
    (parsed' : parseRecord (nsBehind steps') 257 = .ok (nsOfRoot steps')) :
    SameRrset limit (nsBehind steps) (nsBehind steps') [nsOfRoot steps] [nsOfRoot steps', nsOfRoot steps'] := by
  have alike : SameSigned limit (nsBehind steps) (nsBehind steps') (nsOfRoot steps)
      (nsOfRoot steps') :=
    ⟨⟨257, parsed⟩, ⟨257, parsed'⟩, rfl, rfl, rfl, _, _, rdataAt_chain few enough,
      rdataAt_chain few' enough', rfl⟩
  refine ⟨fun record member => ?_, fun record' member' => ?_⟩
  · obtain rfl := List.mem_singleton.1 member
    exact ⟨_, by simp, alike⟩
  · obtain rfl : record' = nsOfRoot steps' := by simpa using member'
    exact ⟨_, by simp, alike⟩

def nsInPlace : Packet := [0, 0, 2, 0, 1, 0, 0, 0, 60, 0, 1, 0]

theorem canonicalSignedData_sameRrset_pointers :
    canonicalSignedData (nsBehind 0) rrsigBehind [nsOfRoot 0] =
        canonicalSignedData (nsBehind 1) rrsigBehind [nsOfRoot 1, nsOfRoot 1] ∧
      canonicalRdata nsInPlace ⟨rootName, 2, 1, 60, 5, 11, [0], 12⟩ = .ok [0] :=
  ⟨(canonicalSignedData_sameRrset (nsBehind 0) (nsBehind 1) rrsigBehind rrsigBehind [nsOfRoot 0]
      [nsOfRoot 1, nsOfRoot 1] (nsOfRoot 0) (nsOfRoot 1) []).1 (by decide +kernel)
      (sameRrset_chain (by omega) (by omega) (by omega) (by omega) (by decide +kernel)
        (by decide +kernel)), (canonicalSignedData_sameRrset (nsBehind 0) nsInPlace rrsigBehind rrsigBehind [] []
      (nsOfRoot 0) ⟨rootName, 2, 1, 60, 5, 11, [0], 12⟩ [0]).2 (by decide +kernel)
      ⟨0, by decide⟩ rfl rfl⟩

theorem canonicalSignedData_pointer_limit :
    SameRrset 129 (nsBehind 127) (nsBehind 128) [nsOfRoot 127] [nsOfRoot 128, nsOfRoot 128] ∧
    parseRrsig (nsBehind 127) rrsigBehind = parseRrsig (nsBehind 128) rrsigBehind ∧
    (canonicalSignedData (nsBehind 127) rrsigBehind [nsOfRoot 127]).isOk ∧
    canonicalSignedData (nsBehind 128) rrsigBehind [nsOfRoot 128, nsOfRoot 128] = .error (.wire .compressionLoop) :=
  ⟨sameRrset_chain (by omega) (by omega) (by omega) (by omega) (by decide +kernel)
    (by decide +kernel), by decide +kernel, by decide +kernel, by decide +kernel⟩

end Resolved.Proof.Dnssec
