import Resolved.Proof.Wire.Labels
import Resolved.Proof.Dnssec.Order

/-!
# Verified signatures
-/

/-!
## The labels of an owner

`label_offsets` succeeds on the names in wire format and finds one offset for each label.
-/

namespace Resolved.Proof.Dnssec
open Lib Resolved.Wire Resolved.Dnssec Spec Proof.Wire

theorem labelOffsetsFrom_wireOf {front wire : Bytes} {labels : Labels} {fuel : Nat} (name : NameOf wire labels)
    (room : labels.length < fuel) :
    ∃ offsets, labelOffsetsFrom (front ++ wire) fuel front.length = .ok offsets ∧
      offsets.length = labels.length := by
  induction labels generalizing front wire fuel with
  | nil =>
    obtain ⟨fuel, rfl⟩ : ∃ n, fuel = n + 1 := ⟨fuel - 1, by simp at room; omega⟩
    obtain rfl := name.wire
    exact ⟨[], by simp [labelOffsetsFrom], rfl⟩
  | cons label labels ih =>
    obtain ⟨fuel, rfl⟩ : ∃ n, fuel = n + 1 := ⟨fuel - 1, by simp at room; omega⟩
    obtain ⟨octet, positive, bounded⟩ := nameOf_octet name
    have split : front ++ wire =
        (front ++ UInt8.ofNat label.length :: label) ++ wireOf labels := by
      rw [name.wire, wireOf_cons, List.append_assoc]
    have room' : labels.length < fuel := by
      rw [List.length_cons] at room
      omega
    obtain ⟨offsets, later, count⟩ := @ih (front ++ UInt8.ofNat label.length :: label) _ fuel
      (nameOf_tail name) room'
    have next : (front ++ UInt8.ofNat label.length :: label).length =
        front.length + (1 + label.length) := by
      rw [List.length_append, List.length_cons]
      omega
    rw [← split, next] at later
    have here : (front ++ wire)[front.length]? = some (UInt8.ofNat label.length) := by
      simp [split]
    have past : front.length + 1 + label.length < (front ++ wire).length := by
      rw [split, List.length_append, next, wireOf, List.length_append, List.length_singleton]
      omega
    refine ⟨front.length :: offsets, ?_, by simp [count]⟩
    have nonzero : UInt8.ofNat label.length ≠ 0 := by
      intro zero
      rw [zero] at octet
      simp at octet
      omega
    have small : ¬ (UInt8.ofNat label.length > 63 ∨
        front.length + 1 + (UInt8.ofNat label.length).toNat ≥ (front ++ wire).length) := by
      have limit : (63 : UInt8).toNat = 63 := rfl
      rw [octet, gt_iff_lt, UInt8.lt_iff_toNat_lt, octet]
      omega
    rw [labelOffsetsFrom, here, okOr_some, ok_bind, if_neg nonzero, if_neg small, octet, later]
    rfl

theorem labelOffsets_wireOf {wire : Bytes} {labels : Labels} (name : NameOf wire labels) :
    ∃ offsets, labelOffsets wire = .ok offsets ∧ offsets.length = labels.length := by
  have room : labels.length < wire.length := by
    rw [name.wire]
    clear name
    induction labels with
    | nil => simp
    | cons label labels ih =>
      rw [wireOf_length_cons, List.length_cons]
      omega
  exact @labelOffsetsFrom_wireOf [] _ _ _ name room

theorem labelOffsetsFrom_nameOf (done : labelOffsetsFrom name fuel offset = .ok offsets) :
    ∃ labels, NameOf (name.drop offset) labels ∧ offsets.length = labels.length := by
  induction fuel generalizing offset offsets with
  | zero => simp [labelOffsetsFrom] at done
  | succ fuel ih =>
    simp only [labelOffsetsFrom, bind_eq_ok, okOr_eq_ok] at done
    obtain ⟨length, byte, done⟩ := done
    have inside := getElem?_lt byte
    have front : name.drop offset = length :: name.drop (offset + 1) := by
      rw [List.drop_eq_getElem_cons inside]
      rw [List.getElem?_eq_getElem inside, Option.some.injEq] at byte
      rw [byte]
    split at done
    · rename_i zero
      split at done
      · simp at done
      · rename_i last
        obtain rfl := pure_eq_ok.1 done
        refine ⟨[], ⟨?_, by simp⟩, rfl⟩
        rw [front, zero, List.drop_of_length_le (by omega)]
        rfl
    · rename_i nonzero
      split at done
      · simp at done
      · rename_i fits
        push Not at fits
        obtain ⟨later, rest, done⟩ := bind_eq_ok.1 done
        obtain rfl := pure_eq_ok.1 done
        obtain ⟨labels, named, count⟩ := ih rest
        have positive : 0 < length.toNat :=
          Nat.pos_of_ne_zero fun zero => nonzero (UInt8.toNat_inj.1 zero)
        have small : length.toNat ≤ 63 := UInt8.le_iff_toNat_le.1 fits.1
        have size : ((name.drop (offset + 1)).take length.toNat).length = length.toNat := by
          rw [List.length_take, List.length_drop]
          omega
        refine ⟨(name.drop (offset + 1)).take length.toNat :: labels, ⟨?_, ?_⟩, by simp [count]⟩
        · have behind : name.drop (offset + (1 + length.toNat)) =
              (name.drop (offset + 1)).drop length.toNat := by
            rw [List.drop_drop, Nat.add_assoc]
          rw [front, wireOf_cons, size, ← named.wire, UInt8.ofNat_toNat, List.cons_append, behind,
            List.take_append_drop]
        · intro label member
          rcases List.mem_cons.1 member with rfl | member
          · omega
          · exact named.sizes label member

theorem canonicalOwner_labels_le {wire owner : Bytes} {count : UInt8}
    (done : canonicalOwner wire count = .ok owner) :
    ∃ labels, NameOf wire labels ∧ count.toNat ≤ labels.length := by
  simp only [canonicalOwner, bind_eq_ok] at done
  obtain ⟨offsets, found, done⟩ := done
  obtain ⟨labels, named, length⟩ := labelOffsetsFrom_nameOf found
  refine ⟨labels, named, ?_⟩
  by_contra more
  rw [if_pos (by omega)] at done
  cases done

/-!
## What `verify_rrsig` checks

An accepted RRSIG covers the records it is checked against and counts no more labels than their
owner has. Nothing relates the signer to the owner, and nothing the two ends of the validity period
to each other.
-/

theorem verifyRrsig_eq_true (parsed : parseRrsig packet rrsigRecord = .ok signature)
    (accepted : verifyRrsig native packet rrsigRecord rrset dnskeyRecord now = .ok true) :
    ∃ first output, rrset.head? = some first ∧ rrsigRecord.cls = first.cls ∧
      rrsigRecord.name.canonicalWire = first.name.canonicalWire ∧
      canonicalSignedData packet rrsigRecord rrset = .ok output := by
  cases rrset with
  | nil => simp [verifyRrsig] at accepted
  | cons first rest =>
    simp only [verifyRrsig, bind_eq_ok, fromWire_eq_ok, parsed, Except.ok.injEq, exists_eq_left'] at accepted
    obtain ⟨dnskey, -, accepted⟩ := accepted
    split at accepted
    · simp at accepted
    · rename_i matching
      push Not at matching
      simp only [bind_eq_ok] at accepted
      obtain ⟨keyTag, -, accepted⟩ := accepted
      split at accepted
      · simp at accepted
      · obtain ⟨output, signed, -⟩ := bind_eq_ok.1 accepted
        exact ⟨first, output, rfl, matching.1, matching.2.1, signed⟩

theorem parseRrsig_signer (parsed : parseRrsig packet record = .ok signature) :
    ∃ labels, NameOf signature.signer.canonicalWire labels := by
  unfold parseRrsig at parsed
  split at parsed
  · cases parsed
  · simp only [bind_eq_ok, Prod.exists] at parsed
    obtain ⟨signer, signatureOffset, read, parsed⟩ := parsed
    split at parsed
    · simp at parsed
    · obtain ⟨octets, -, parsed⟩ := bind_eq_ok.1 parsed
      split at parsed
      · simp at parsed
      · simp only [bind_eq_ok, pure_eq_ok] at parsed
        obtain ⟨_, -, _, -, _, -, _, -, _, -, _, -, _, -, rfl⟩ := parsed
        exact readName_nameOf read

theorem verifyRrsig_authentic_iff (native : NativeVerify) (packet : Packet) (rrsigRecord : ResourceRecord)
    (rrset : List ResourceRecord) (dnskeyRecord : ResourceRecord) (now : Int) (signature : RrsigRecord)
    (parsed : parseRrsig packet rrsigRecord = .ok signature)
    (accepted : verifyRrsig native packet rrsigRecord rrset dnskeyRecord now = .ok true) :
    ∃ owner signer, NameOf rrsigRecord.name.canonicalWire owner ∧ NameOf signature.signer.canonicalWire signer ∧
      (Authentic signature rrsigRecord rrset ↔ SignedByZone signature owner signer) := by
  obtain ⟨first, output, head, cls, name, done⟩ := verifyRrsig_eq_true parsed accepted
  obtain ⟨first', wire, datas, parts, -⟩ := canonicalSignedData_parts parsed done
  obtain rfl : first = first' := by simpa using head.symm.trans parts.head
  obtain ⟨owner, named, counted⟩ := canonicalOwner_labels_le parts.owner
  rw [← name] at named
  obtain ⟨signer, signed⟩ := parseRrsig_signer parsed
  refine ⟨owner, signer, named, signed, ?_, ?_⟩
  · rintro ⟨-, owner', signer', named', signed', -, zone⟩
    rwa [nameOf_unique named named', nameOf_unique signed signed']
  · intro zone
    refine ⟨?_, owner, signer, named, signed, counted, zone⟩
    rw [Covered, cls, name]
    exact parts.alike

def signedA (labels inception signer : UInt8) : Packet :=
  [1, 97, 0, 0, 1, 0, 1, 0, 0, 0, 60, 0, 4, 192, 0, 2, 1,
    1, 97, 0, 0, 46, 0, 1, 0, 0, 0, 60, 0, 22,
    0, 1, 15, labels, 0, 0, 0, 60, 0, 0, 0, 10, 0, 0, 0, inception, 13, 15, 1, signer, 0, 7,
    1, signer, 0, 0, 48, 0, 1, 0, 0, 0, 60, 0, 5, 1, 0, 3, 15, 9]

def nameA : DnsName := ⟨['a'], [1, 97, 0]⟩

def addressA : ResourceRecord := ⟨nameA, 1, 1, 60, 7, 13, [192, 0, 2, 1], 17⟩

def rrsigA (labels inception signer : UInt8) : ResourceRecord :=
  ⟨nameA, 46, 1, 60, 24, 30, [0, 1, 15, labels, 0, 0, 0, 60, 0, 0, 0, 10, 0, 0, 0, inception,
    13, 15, 1, signer, 0, 7], 52⟩

def zoneKey (signer : UInt8) : ResourceRecord :=
  ⟨⟨[Char.ofNat signer.toNat], [1, signer, 0]⟩, 48, 1, 60, 59, 65, [1, 0, 3, 15, 9], 70⟩

def rrsigAParsed (labels inception signer : UInt8) : RrsigRecord :=
  ⟨1, 15, labels, 60, 10, inception.toNat, 3343, ⟨[Char.ofNat signer.toNat], [1, signer, 0]⟩, [7]⟩

theorem verifyRrsig_authentic_iff_own_zone :
    ∃ owner signer, NameOf (rrsigA 1 5 97).name.canonicalWire owner ∧
      NameOf (rrsigAParsed 1 5 97).signer.canonicalWire signer ∧
      (Authentic (rrsigAParsed 1 5 97) (rrsigA 1 5 97) [addressA] ↔
        SignedByZone (rrsigAParsed 1 5 97) owner signer) :=
  verifyRrsig_authentic_iff (fun _ _ _ _ => 1) (signedA 1 5 97) (rrsigA 1 5 97) [addressA]
    (zoneKey 97) 7 (rrsigAParsed 1 5 97) (by decide) (by decide)

theorem not_authentic {labels inception signer : UInt8}
    (outside : ¬ SignedByZone (rrsigAParsed labels inception signer) [[97]] [[signer]]) :
    ¬ Authentic (rrsigAParsed labels inception signer) (rrsigA labels inception signer) [addressA] := by
  rintro ⟨-, owner, signer', named, signed, -, zone⟩
  have one : NameOf (rrsigA labels inception signer).name.canonicalWire [[97]] :=
    ⟨rfl, by simp⟩
  have other : NameOf (rrsigAParsed labels inception signer).signer.canonicalWire [[signer]] :=
    ⟨rfl, by simp⟩
  rw [nameOf_unique named one, nameOf_unique signed other] at zone
  exact outside zone

theorem verifyRrsig_accepts_foreign_signer :
    (verifyRrsig (fun _ _ _ _ => 1) (signedA 1 5 98) (rrsigA 1 5 98) [addressA] (zoneKey 98) 7 = .ok true ∧
      ¬ Authentic (rrsigAParsed 1 5 98) (rrsigA 1 5 98) [addressA]) ∧
    (verifyRrsig (fun _ _ _ _ => 1) (signedA 0 5 97) (rrsigA 0 5 97) [addressA] (zoneKey 97) 7 = .ok true ∧
      ¬ Authentic (rrsigAParsed 0 5 97) (rrsigA 0 5 97) [addressA]) ∧
    (verifyRrsig (fun _ _ _ _ => 1) (signedA 1 20 97) (rrsigA 1 20 97) [addressA] (zoneKey 97) 7 = .ok true ∧
      ¬ Authentic (rrsigAParsed 1 20 97) (rrsigA 1 20 97) [addressA]) := by
  refine ⟨⟨by decide, not_authentic fun zone => ?_⟩, ⟨by decide, not_authentic fun zone => ?_⟩,
    ⟨by decide, not_authentic fun zone => ?_⟩⟩
  · exact absurd zone.ancestor (by decide)
  · exact absurd zone.labels (by decide)
  · exact absurd zone.period (by decide)

end Resolved.Proof.Dnssec
