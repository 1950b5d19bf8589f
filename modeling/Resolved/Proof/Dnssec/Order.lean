import Resolved.Lib.Separated
import Resolved.Spec.Authentic

/-!
# The order of the records in signed data
-/

namespace Resolved.Proof.Dnssec
open Lib Resolved.Wire Resolved.Dnssec Spec

variable {owner image : Bytes} {packet : Packet} {signature : RrsigRecord}
  {first rrsigRecord : ResourceRecord} {rrset : List ResourceRecord}

theorem fromWire_eq_ok {α : Type} {result : Except WireError α} {value : α} :
    fromWire result = .ok value ↔ result = .ok value := by
  cases result <;> simp [fromWire, Except.mapError]

theorem toBe16_append_lt (small : m < 65536) (small' : n < 65536) :
    toBe16 m ++ rest < toBe16 n ++ rest' ↔ m < n ∨ m = n ∧ rest < rest' := by
  simp only [toBe16, List.cons_append, List.nil_append, List.cons_lt_cons_iff,
    UInt8.lt_iff_toNat_lt, ← UInt8.toNat_inj, UInt8.toNat_ofNat']
  have one : m / 256 < 256 := by omega
  have two : n / 256 < 256 := by omega
  simp only [Nat.reducePow, Nat.mod_eq_of_lt one, Nat.mod_eq_of_lt two]
  constructor
  · rintro (high | ⟨high, low | ⟨low, rest⟩⟩)
    · exact .inl (by omega)
    · exact .inl (by omega)
    · exact .inr ⟨by omega, rest⟩
  · rintro (less | ⟨rfl, rest⟩)
    · by_cases high : m / 256 < n / 256
      · exact .inl high
      · exact .inr ⟨by omega, .inl (by omega)⟩
    · exact .inr ⟨rfl, .inr ⟨rfl, rest⟩⟩

theorem signedRecord_lt {rrType cls ttl : Nat} {data data' : Bytes} (small : data.length < 65536)
    (small' : data'.length < 65536) :
    signedRecord owner rrType cls ttl data < signedRecord owner rrType cls ttl data' ↔
      data.length < data'.length ∨ data.length = data'.length ∧ data < data' := by
  simp only [signedRecord, List.append_assoc, append_lt_append_iff]
  exact toBe16_append_lt small small'

theorem toBe16_inj (small : m < 65536) (small' : n < 65536) (same : toBe16 m = toBe16 n) : m = n := by
  simp only [toBe16, List.cons.injEq, ← UInt8.toNat_inj, UInt8.toNat_ofNat', and_true] at same
  omega

theorem signedRecord_selfDelimiting (owner : Bytes) (rrType cls ttl : Nat) :
    SelfDelimiting (fun data : Bytes => data.length < 65536) (signedRecord owner rrType cls ttl) := by
  refine ⟨fun data => by simp [signedRecord, toBe16], fun data data' rest rest' small small' same => ?_⟩
  simp only [signedRecord, List.append_assoc, List.append_cancel_left_eq] at same
  obtain ⟨lengths, tails⟩ := List.append_inj same rfl
  exact List.append_inj tails (toBe16_inj small small' lengths)

structure SignedParts (packet : Packet) (signature : RrsigRecord) (rrset : List ResourceRecord)
    (first : ResourceRecord) (owner : Bytes) (datas : List Bytes) : Prop where
  head : rrset.head? = some first
  owner : canonicalOwner first.name.canonicalWire signature.labels = .ok owner
  alike : ∀ record ∈ rrset, record.rrType = signature.typeCovered ∧ record.cls = first.cls ∧
    record.name.canonicalWire = first.name.canonicalWire
  readable : ∀ record ∈ rrset, ∃ data, canonicalRdata packet record = .ok data
  increasing : datas.Pairwise fun data data' =>
    data.length < data'.length ∨ data.length = data'.length ∧ data < data'
  members : ∀ data, data ∈ datas ↔ RdataOf packet rrset data
  small : ∀ data ∈ datas, data.length < 65536

theorem canonicalRecord_eq_ok {record : ResourceRecord} :
    canonicalRecord packet signature owner first record = .ok image ↔
      (record.rrType = signature.typeCovered ∧ record.cls = first.cls ∧
        record.name.canonicalWire = first.name.canonicalWire) ∧
      ∃ data, canonicalRdata packet record = .ok data ∧ data.length < 65536 ∧
        image = signedRecord owner signature.typeCovered first.cls signature.originalTtl data := by
  unfold canonicalRecord
  split
  · rename_i differs
    constructor
    · simp
    · rintro ⟨⟨type, cls, name⟩, -⟩
      simp [type, cls, name] at differs
  · rename_i alike
    push Not at alike
    obtain ⟨type, cls, name⟩ := alike
    simp only [bind_eq_ok, fromWire_eq_ok, type, cls, name, and_self, true_and]
    constructor
    · rintro ⟨data, read, done⟩
      split at done
      · simp at done
      · rename_i small
        exact ⟨data, read, by omega, (pure_eq_ok.1 done).symm⟩
    · rintro ⟨data, read, small, rfl⟩
      refine ⟨data, read, ?_⟩
      rw [if_neg (by omega)]
      rfl

theorem mem_canonicalRecords {images : List Bytes}
    (read : rrset.mapM (canonicalRecord packet signature owner first) = .ok images)
    (alike : ∀ record ∈ rrset, record.rrType = signature.typeCovered ∧ record.cls = first.cls ∧
      record.name.canonicalWire = first.name.canonicalWire) :
    image ∈ images ↔ ∃ data, (RdataOf packet rrset data ∧ data.length < 65536) ∧
      signedRecord owner signature.typeCovered first.cls signature.originalTtl data = image := by
  rw [mem_of_mapM_eq_ok read]
  constructor
  · rintro ⟨record, member, done⟩
    obtain ⟨-, data, rdata, small, rfl⟩ := canonicalRecord_eq_ok.1 done
    exact ⟨data, ⟨⟨record, member, rdata⟩, small⟩, rfl⟩
  · rintro ⟨data, ⟨⟨record, member, rdata⟩, small⟩, rfl⟩
    exact ⟨record, member, canonicalRecord_eq_ok.2 ⟨alike record member, data, rdata, small, rfl⟩⟩

theorem canonicalSignedData_parts {output : Bytes} (parsed : parseRrsig packet rrsigRecord = .ok signature)
    (done : canonicalSignedData packet rrsigRecord rrset = .ok output) :
    ∃ first owner datas, SignedParts packet signature rrset first owner datas ∧ output = rrsigPrefix signature ++
        datas.flatMap (signedRecord owner first.rrType first.cls signature.originalTtl) := by
  simp only [canonicalSignedData, bind_eq_ok, fromWire_eq_ok, parsed, Except.ok.injEq, exists_eq_left'] at done
  cases rrset with
  | nil => simp at done
  | cons first rest =>
    simp only [bind_eq_ok, fromWire_eq_ok, pure_eq_ok] at done
    obtain ⟨owner, howner, images, read, rfl⟩ := done
    have made : ∀ record ∈ first :: rest, ∃ image,
        canonicalRecord packet signature owner first record = .ok image := by
      intro record member
      cases made : canonicalRecord packet signature owner first record with
      | ok image => exact ⟨image, rfl⟩
      | error error =>
        obtain ⟨error, failed⟩ := mapM_eq_error.2 ⟨record, member, error, made⟩
        rw [read] at failed
        cases failed
    have alike : ∀ record ∈ first :: rest, record.rrType = signature.typeCovered ∧
        record.cls = first.cls ∧ record.name.canonicalWire = first.name.canonicalWire := by
      intro record member
      obtain ⟨image, done⟩ := made record member
      exact (canonicalRecord_eq_ok.1 done).1
    have each : ∀ image ∈ sortDedup images, ∃ data, (RdataOf packet (first :: rest) data ∧ data.length < 65536) ∧
        signedRecord owner signature.typeCovered first.cls signature.originalTtl data = image :=
      fun image member => (mem_canonicalRecords read alike).1 (mem_sortDedup.1 member)
    obtain ⟨datas, from_rrset, sorted⟩ := exists_map_eq each
    refine ⟨first, owner, datas, ⟨rfl, howner, alike, ?_, ?_, ?_, fun data member =>
      (from_rrset data member).2⟩, ?_⟩
    · intro record member
      obtain ⟨image, done⟩ := made record member
      obtain ⟨-, data, rdata, -, -⟩ := canonicalRecord_eq_ok.1 done
      exact ⟨data, rdata⟩
    · have increasing := sortDedup_pairwise images
      rw [← sorted, List.pairwise_map] at increasing
      refine increasing.imp_of_mem fun {data data'} member member' less => ?_
      exact (signedRecord_lt (from_rrset data member).2 (from_rrset data' member').2).1 less
    · intro data
      refine ⟨fun member => (from_rrset data member).1, ?_⟩
      rintro ⟨record, member, rdata⟩
      obtain ⟨image, done⟩ := made record member
      obtain ⟨-, data', rdata', small, rfl⟩ := canonicalRecord_eq_ok.1 done
      rw [rdata, Except.ok.injEq] at rdata'
      subst rdata'
      have listed := mem_sortDedup.2 ((mem_canonicalRecords read alike).2
        ⟨data, ⟨⟨record, member, rdata⟩, small⟩, rfl⟩)
      rw [← sorted] at listed
      obtain ⟨data', member', same⟩ := List.mem_map.1 listed
      have equal := (signedRecord_selfDelimiting owner signature.typeCovered first.cls
        signature.originalTtl).ends data' data [] [] (from_rrset data' member').2 small
        (by rw [List.append_nil, List.append_nil]; exact same)
      rwa [← equal.1]
    · rw [← sorted, (alike first (by simp)).1]
      rfl

theorem canonicalSignedData_of_parts {datas : List Bytes}
    (parsed : parseRrsig packet rrsigRecord = .ok signature)
    (parts : SignedParts packet signature rrset first owner datas) :
    canonicalSignedData packet rrsigRecord rrset = .ok (rrsigPrefix signature ++
      datas.flatMap (signedRecord owner first.rrType first.cls signature.originalTtl)) := by
  cases rrset with
  | nil => cases parts.head
  | cons first' rest =>
    obtain rfl : first' = first := by simpa using parts.head
    cases read : (first' :: rest).mapM (canonicalRecord packet signature owner first') with
    | error error =>
      obtain ⟨record, member, failure, failed⟩ := mapM_eq_error.1 ⟨error, read⟩
      obtain ⟨data, rdata⟩ := parts.readable record member
      have small := parts.small data ((parts.members data).2 ⟨record, member, rdata⟩)
      rw [canonicalRecord_eq_ok.2 ⟨parts.alike record member, data, rdata, small, rfl⟩] at failed
      cases failed
    | ok images =>
      let encode := signedRecord owner signature.typeCovered first'.cls signature.originalTtl
      have sorted : sortDedup images = datas.map encode := by
        refine eq_of_pairwise_lt (sortDedup_pairwise images) ?_ fun image => ?_
        · rw [List.pairwise_map]
          refine parts.increasing.imp_of_mem fun {data data'} member member' before => ?_
          exact (signedRecord_lt (parts.small data member) (parts.small data' member')).2 before
        · rw [mem_sortDedup, mem_canonicalRecords read parts.alike, List.mem_map]
          constructor
          · rintro ⟨data, ⟨listed, -⟩, rfl⟩
            exact ⟨data, (parts.members data).2 listed, rfl⟩
          · rintro ⟨data, member, rfl⟩
            exact ⟨data, ⟨(parts.members data).1 member, parts.small data member⟩, rfl⟩
      simp only [canonicalSignedData, parsed, fromWire, Except.mapError, parts.owner, ok_bind]
      rw [read, ok_bind, sorted, (parts.alike first' (by simp)).1]
      rfl

theorem inRdataOrder_of_shorter_first (parsed : parseRrsig packet rrsigRecord = .ok signature)
    (done : canonicalSignedData packet rrsigRecord rrset = .ok output)
    (shorter : ∀ data data', RdataOf packet rrset data → RdataOf packet rrset data' → data.length < data'.length → data < data') :
    InRdataOrder packet signature rrset output := by
  obtain ⟨first, owner, datas, parts, rfl⟩ := canonicalSignedData_parts parsed done
  refine ⟨first, owner, datas, parts.head, parts.owner, ?_, parts.members, rfl⟩
  refine parts.increasing.imp_of_mem fun {data data'} member member' before => ?_
  rcases before with less | ⟨-, less⟩
  · exact shorter data data' ((parts.members data).1 member) ((parts.members data').1 member') less
  · exact less

theorem shorter_first_of_inRdataOrder (parsed : parseRrsig packet rrsigRecord = .ok signature)
    (done : canonicalSignedData packet rrsigRecord rrset = .ok output)
    (ordered : InRdataOrder packet signature rrset output) (member : RdataOf packet rrset data)
    (member' : RdataOf packet rrset data') (shorter : data.length < data'.length) : data < data' := by
  obtain ⟨first, owner, datas, parts, rfl⟩ := canonicalSignedData_parts parsed done
  obtain ⟨first', owner', datas', head, howner, increasing, members, same⟩ := ordered
  obtain rfl : first = first' := by simpa using parts.head.symm.trans head
  obtain rfl : owner = owner' := by simpa using parts.owner.symm.trans howner
  -- records are self-delimiting, so the octets tell the order they were written in
  have lists : datas = datas' := by
    refine (signedRecord_selfDelimiting owner first.rrType first.cls
      signature.originalTtl).flatMap_inj parts.small (fun data member => ?_)
      (List.append_cancel_left same)
    exact parts.small data ((parts.members data).2 ((members data).1 member))
  subst lists
  refine lt_of_pairwise_both parts.increasing increasing ?_ ((parts.members data).2 member)
    ((parts.members data').2 member') (.inl shorter)
  rintro one other (less | ⟨equal, less⟩) (less' | ⟨equal', less'⟩)
  · omega
  · omega
  · omega
  · exact lt_asymm less less'

theorem canonicalSignedData_inRdataOrder_iff (packet : Packet) (rrsigRecord : ResourceRecord)
    (rrset : List ResourceRecord) (signature : RrsigRecord) (output : Bytes)
    (parsed : parseRrsig packet rrsigRecord = .ok signature)
    (done : canonicalSignedData packet rrsigRecord rrset = .ok output) :
    InRdataOrder packet signature rrset output ↔
      ∀ data data', RdataOf packet rrset data → RdataOf packet rrset data' →
        data.length < data'.length → data < data' :=
  ⟨fun ordered _ _ member member' shorter =>
    shorter_first_of_inRdataOrder parsed done ordered member member' shorter,
    inRdataOrder_of_shorter_first parsed done⟩

def signedNs (host : UInt8) : Packet :=
  [0, 0, 2, 0, 1, 0, 0, 0, 60, 0, 3, 1, 98, 0,
    0, 0, 2, 0, 1, 0, 0, 0, 60, 0, 5, 1, host, 1, 98, 0,
    0, 0, 46, 0, 1, 0, 0, 0, 60, 0, 20,
    0, 2, 15, 0, 0, 0, 0, 60, 0, 0, 0, 1, 0, 0, 0, 0, 0, 0, 0, 7]

def rootName : DnsName := ⟨['.'], [0]⟩

def nsB : ResourceRecord := ⟨rootName, 2, 1, 60, 5, 11, [1, 98, 0], 14⟩

def nsBelowB (host : UInt8) : ResourceRecord :=
  ⟨rootName, 2, 1, 60, 19, 25, [1, host, 1, 98, 0], 30⟩

def rrsigNs : ResourceRecord :=
  ⟨rootName, 46, 1, 60, 35, 41, [0, 2, 15, 0, 0, 0, 0, 60, 0, 0, 0, 1, 0, 0, 0, 0, 0, 0, 0, 7], 61⟩

def rrsigNsParsed : RrsigRecord := ⟨2, 15, 0, 60, 1, 0, 0, rootName, [7]⟩

def signedNsOutput (host : UInt8) : Bytes :=
  [0, 2, 15, 0, 0, 0, 0, 60, 0, 0, 0, 1, 0, 0, 0, 0, 0, 0, 0] ++
    [0, 0, 2, 0, 1, 0, 0, 0, 60, 0, 3, 1, 98, 0] ++
    [0, 0, 2, 0, 1, 0, 0, 0, 60, 0, 5, 1, host, 1, 98, 0]

theorem canonicalSignedData_inRdataOrder_iff_signedNs :
    InRdataOrder (signedNs 99) rrsigNsParsed [nsB, nsBelowB 99] (signedNsOutput 99) := by
  have short : canonicalRdata (signedNs 99) nsB = .ok [1, 98, 0] := by decide
  have long : canonicalRdata (signedNs 99) (nsBelowB 99) = .ok [1, 99, 1, 98, 0] := by
    decide
  refine (canonicalSignedData_inRdataOrder_iff (signedNs 99) rrsigNs [nsB, nsBelowB 99]
    rrsigNsParsed (signedNsOutput 99) (by decide) (by decide)).2 ?_
  rintro data data' ⟨record, member, read⟩ ⟨record', member', read'⟩ shorter
  simp only [List.mem_cons, List.not_mem_nil, or_false] at member member'
  rcases member with rfl | rfl <;> rcases member' with rfl | rfl <;>
    simp only [short, long, Except.ok.injEq] at read read' <;> subst read read'
  · simp at shorter
  · decide
  · simp at shorter
  · simp at shorter

theorem canonicalSignedData_sorts_by_length :
    parseRecord (signedNs 97) 0 = .ok nsB ∧ parseRecord (signedNs 97) 14 = .ok (nsBelowB 97) ∧
    parseRecord (signedNs 97) 30 = .ok rrsigNs ∧
    canonicalSignedData (signedNs 97) rrsigNs [nsB, nsBelowB 97] = .ok (signedNsOutput 97) ∧
    ¬ InRdataOrder (signedNs 97) rrsigNsParsed [nsB, nsBelowB 97] (signedNsOutput 97) := by
  have done : canonicalSignedData (signedNs 97) rrsigNs [nsB, nsBelowB 97] = .ok (signedNsOutput 97) := by decide
  refine ⟨by decide, by decide, by decide, done, fun ordered => ?_⟩
  have short : RdataOf (signedNs 97) [nsB, nsBelowB 97] [1, 98, 0] :=
    ⟨nsB, by simp, by decide⟩
  have long : RdataOf (signedNs 97) [nsB, nsBelowB 97] [1, 97, 1, 98, 0] :=
    ⟨nsBelowB 97, by simp, by decide⟩
  have wrong := shorter_first_of_inRdataOrder (by decide) done ordered short long (by decide)
  exact absurd wrong (by decide)

end Resolved.Proof.Dnssec
