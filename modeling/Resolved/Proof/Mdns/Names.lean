import Resolved.Mdns.Runtime
import Resolved.Proof.Wire.NameIn

/-!
# Owner names
-/

namespace Resolved.Proof.Mdns
open Lib Resolved.Wire Resolved.Mdns Spec Resolved.Proof.Wire

theorem canonicalLoop_wireOf {labels : Labels} {output : Bytes} {fuel : Nat}
    (sizes : ∀ label ∈ labels, 0 < label.length ∧ label.length ≤ 63)
    (room : output.length + (wireOf labels).length ≤ 255) (enough : labels.length < fuel) :
    canonicalLoop fuel (wireOf labels) output = .ok (output ++ wireOf (lowered labels)) := by
  induction labels generalizing output fuel with
  | nil =>
    obtain ⟨fuel, rfl⟩ : ∃ n, fuel = n + 1 := ⟨fuel - 1, by simp at enough; omega⟩
    have fits : output.length < 255 := by
      simp [wireOf] at room
      omega
    simp [wireOf, lowered, canonicalLoop, fits]
  | cons label labels ih =>
    obtain ⟨fuel, rfl⟩ : ∃ n, fuel = n + 1 := ⟨fuel - 1, by simp at enough; omega⟩
    obtain ⟨positive, bounded⟩ := sizes label (by simp)
    obtain ⟨value, nonzero, plain⟩ := label_octet positive bounded
    have small : ¬UInt8.ofNat label.length > 63 := by
      rw [gt_iff_lt, UInt8.lt_iff_toNat_lt, value]
      simpa using bounded
    have size : (label.map asciiLower).length = label.length := List.length_map ..
    have least : 0 < (wireOf labels).length := by simp [wireOf]
    rw [wireOf_length_cons] at room
    rw [List.length_cons] at enough
    rw [wireOf_cons, lowered_cons, wireOf_cons, size, List.cons_append, canonicalLoop,
      if_neg (by simpa using plain), if_neg nonzero, if_neg small, value, if_neg (by simp),
      List.take_left, List.drop_left]
    have grown : (output ++ UInt8.ofNat label.length :: label.map asciiLower).length =
        output.length + (label.length + 1) := by simp
    simp only
    rw [if_neg (by rw [grown]; omega),
      ih (fun other member => sizes other (by simp [member])) (by rw [grown]; omega) (by omega)]
    simp

theorem canonicalLoop_eq_ok {fuel : Nat} {input output wire : Bytes}
    (done : canonicalLoop fuel input output = .ok wire) :
    ∃ labels, (∀ label ∈ labels, 0 < label.length ∧ label.length ≤ 63) ∧
      wire = output ++ wireOf (lowered labels) ∧ wire.length ≤ 255 := by
  induction fuel generalizing input output with
  | zero => cases done
  | succ fuel ih =>
    match input with
    | [] => cases done
    | length :: rest =>
      unfold canonicalLoop at done
      split at done
      · cases done
      rename_i plain
      split at done
      · rename_i zero
        split at done
        · cases done
        split at done
        · cases done
        rename_i short
        cases done
        exact ⟨[], by simp, by simp [zero, wireOf, lowered], Nat.le_of_not_lt short⟩
      rename_i nonzero
      split at done
      · cases done
      split at done
      · cases done
      rename_i small inside
      simp only at done
      split at done
      · cases done
      obtain ⟨labels, sizes, whole, short⟩ := ih done
      have size : (rest.take length.toNat).length = length.toNat := by
        rw [List.length_take]
        omega
      refine ⟨rest.take length.toNat :: labels, ?_, ?_, short⟩
      · intro label member
        rcases List.mem_cons.1 member with rfl | later
        · rw [size]
          have positive : length.toNat ≠ 0 := fun zero => nonzero (UInt8.toNat_inj.1 (by simpa using zero))
          have bounded : ¬63 < length.toNat := by
            intro big
            exact small (UInt8.lt_iff_toNat_lt.2 (by simpa using big))
          omega
        · exact sizes label later
      · rw [whole, lowered_cons, wireOf_cons, List.length_map, size, UInt8.ofNat_toNat]
        simp

theorem canonicalWireName_idem {input wire : Bytes} (done : canonicalWireName input = .ok wire) :
    canonicalWireName wire = .ok wire := by
  unfold canonicalWireName at done
  split at done
  · cases done
  obtain ⟨labels, sizes, whole, short⟩ := canonicalLoop_eq_ok done
  rw [List.nil_append] at whole
  subst whole
  have sizes' : ∀ label ∈ lowered labels, 0 < label.length ∧ label.length ≤ 63 := by
    intro label member
    obtain ⟨origin, here, rfl⟩ := List.mem_map.1 member
    rw [List.length_map]
    exact sizes origin here
  have least := wireOf_length_ge (lowered labels) fun label member => (sizes' label member).1
  unfold canonicalWireName
  rw [if_neg (by simp [wireOf]), canonicalLoop_wireOf sizes' (by simpa using short) (by omega), lowered_idem]
  rfl

theorem decodeLoop_canonical {packet : Bytes} {turns cursor : Nat} {output : Bytes} {labels : List Bytes}
    {next : Option Nat} {visited : List Nat} {name : DecodedName}
    (done : decodeLoop packet turns output labels cursor next visited = .ok name) :
    canonicalWireName name.wire = .ok name.wire := by
  induction turns generalizing output labels cursor next visited with
  | zero => cases done
  | succ turns ih =>
    unfold decodeLoop at done
    split at done
    · cases done
    split at done
    · split at done
      · cases done
      simp only at done
      split at done
      · cases done
      exact ih done
    split at done
    · cases done
    split at done
    · split at done
      · cases done
      rename_i wire canonical
      cases done
      exact canonicalWireName_idem canonical
    split at done
    · cases done
    simp only at done
    split at done
    · cases done
    exact ih done

def HasKey (record : RuntimeRecord) : Prop := canonicalWireName record.owner = .ok record.owner

theorem parseRuntimeRecord_hasKey (done : parseRuntimeRecord packet interface offset = .ok (record, stop)) :
    HasKey record := by
  unfold parseRuntimeRecord at done
  obtain ⟨owner, decoded, done⟩ := bind_eq_ok.1 done
  simp only at done
  split at done
  · cases done
  simp only [bind_eq_ok] at done
  obtain ⟨rrType, -, rawClass, -, ttl, -, length, -, done⟩ := done
  split at done
  · cases done
  obtain ⟨rdata, -, done⟩ := bind_eq_ok.1 done
  cases done
  exact decodeLoop_canonical decoded

theorem parseRuntimeRecords_hasKey
    (done : parseRuntimeRecords packet interface count offset = .ok (records, stop)) :
    ∀ record ∈ records, HasKey record := by
  induction count generalizing offset records stop with
  | zero =>
    cases done
    nofun
  | succ count ih =>
    simp only [parseRuntimeRecords, bind_eq_ok, Prod.exists] at done
    obtain ⟨first, offset', parsed, rest, stop', later, done⟩ := done
    cases done
    intro record member
    rcases List.mem_cons.1 member with rfl | behind
    · exact parseRuntimeRecord_hasKey parsed
    · exact ih later record behind

theorem parseResponseRecords_hasKey (done : parseResponseRecords packet interface = .ok records) :
    ∀ record ∈ records, HasKey record := by
  unfold parseResponseRecords at done
  split at done
  · cases done
  simp only [bind_eq_ok, Prod.exists] at done
  obtain ⟨questions, -, answers, -, authorities, -, additionals, -, offset, -, parsed, stop, read, done⟩ := done
  split at done
  · cases done
  cases done
  exact parseRuntimeRecords_hasKey read

end Resolved.Proof.Mdns
