import Resolved.Proof.Wire.Name
import Resolved.Spec.Names

/-!
# What `read_name` reads
-/

namespace Resolved.Proof.Wire
open Lib Resolved.Wire Spec

variable {labels labels' : Labels} {label wire : Bytes}

@[simp] theorem wireOf_nil : wireOf [] = [0] := rfl

theorem wireOf_cons (label : Bytes) (labels : Labels) :
    wireOf (label :: labels) = UInt8.ofNat label.length :: label ++ wireOf labels := by
  simp [wireOf]

theorem wireOf_length_cons (label : Bytes) (labels : Labels) :
    (wireOf (label :: labels)).length = label.length + 1 + (wireOf labels).length := by
  rw [wireOf_cons]
  simp only [List.cons_append, List.length_cons, List.length_append]
  omega

@[simp] theorem lowered_cons (label : Bytes) (labels : Labels) :
    lowered (label :: labels) = label.map asciiLower :: lowered labels := rfl

@[simp] theorem wireOf_lowered_length (labels : Labels) :
    (wireOf (lowered labels)).length = (wireOf labels).length := by
  induction labels with
  | nil => rfl
  | cons label labels ih => rw [lowered_cons, wireOf_length_cons, wireOf_length_cons, ih, List.length_map]

theorem NameAt.unique {packet : Packet} {offset : Nat} (here : NameAt packet offset labels)
    (here' : NameAt packet offset labels') : labels = labels' := by
  induction here generalizing labels' with
  | root zero =>
    cases here' with
    | root zero' => rfl
    | pointer byte tag byte' rest =>
      rw [zero, Option.some.injEq] at byte
      subst byte
      simp at tag
    | label byte nonzero plain part rest =>
      rw [zero, Option.some.injEq] at byte
      exact absurd byte.symm nonzero
  | pointer byte tag byte' rest ih =>
    cases here' with
    | root zero =>
      rw [byte, Option.some.injEq] at zero
      subst zero
      simp at tag
    | pointer same _ same' rest' =>
      rw [byte, Option.some.injEq] at same
      rw [byte', Option.some.injEq] at same'
      subst same same'
      exact ih rest'
    | label same nonzero plain part rest' =>
      rw [byte, Option.some.injEq] at same
      subst same
      rw [tag] at plain
      simp at plain
  | label byte nonzero plain part rest ih =>
    cases here' with
    | root zero =>
      rw [byte, Option.some.injEq] at zero
      exact absurd zero nonzero
    | pointer same tag _ _ =>
      rw [byte, Option.some.injEq] at same
      subst same
      rw [tag] at plain
      simp at plain
    | label same _ _ part' rest' =>
      rw [byte, Option.some.injEq] at same
      subst same
      rw [part, Option.some.injEq] at part'
      rw [part', ih rest']

structure LoopReads (packet : Packet) (s final : NameCursor) (labels : Labels) : Prop where
  here : NameAt packet s.cursor labels
  texts : final.labels = s.labels ++ labels.map displayLabel
  wire : final.canonicalWire = s.canonicalWire ++ wireOf (lowered labels)
  sizes : ∀ label ∈ labels, 0 < label.length ∧ label.length ≤ 63
  total : s.expandedLength ≤ 255 → s.expandedLength + (wireOf labels).length ≤ 256

theorem nameLoop_reads (loop : nameLoop packet fuel s = .ok final) : ∃ labels, LoopReads packet s final labels := by
  induction fuel generalizing s with
  | zero => simp [nameLoop] at loop
  | succ fuel ih =>
    rcases nameLoop_succ_eq_ok.1 loop with turn | ⟨next, turn, rest⟩
    · cases turn with
      | root zero =>
        refine ⟨[], .root zero, by simp [atRoot], rfl, by simp, fun small => ?_⟩
        simp only [wireOf_nil, List.length_singleton]
        omega
    · obtain ⟨labels, later⟩ := ih rest
      cases turn with
      | pointer first second byte tag byte' back inside steps =>
        exact ⟨labels, .pointer byte tag byte' later.here, later.texts, later.wire, later.sizes, later.total⟩
      | label length label byte nonzero plain small part room =>
        have size : label.length = length.toNat := by
          rw [slice_length part]
          omega
        have octet : UInt8.ofNat label.length = length := by simp [size]
        have positive : 0 < length.toNat :=
          Nat.pos_of_ne_zero fun zero => nonzero (UInt8.toNat_inj.1 zero)
        have bounded : length.toNat ≤ 63 := UInt8.le_iff_toNat_le.1 small
        refine ⟨label :: labels, .label byte nonzero plain part later.here, ?_, ?_, ?_, ?_⟩
        · rw [later.texts]
          simp [atLabel]
        · rw [later.wire, lowered_cons, wireOf_cons, List.length_map, octet]
          simp [atLabel]
        · intro other member
          rcases List.mem_cons.1 member with rfl | inLabels
          · omega
          · exact later.sizes other inLabels
        · intro _
          have left := later.total (by simpa [atLabel] using room)
          rw [wireOf_length_cons, size]
          simp only [atLabel] at left
          omega

theorem readName_labels (read : readName packet offset = .ok (name, next)) :
    ∃ labels, NameAt packet offset labels ∧ LegalName labels ∧ name = nameWith labels := by
  obtain ⟨s, loop, rfl, -⟩ := readName_eq_ok.1 read
  obtain ⟨labels, reads⟩ := nameLoop_reads loop
  have total := reads.total (by simp [nameStart])
  refine ⟨labels, reads.here, ⟨reads.sizes, ?_⟩, ?_⟩
  · have one : (nameStart offset).expandedLength = 1 := rfl
    omega
  · rw [reads.texts, reads.wire]
    rfl

theorem asciiLower_idem (byte : UInt8) : asciiLower (asciiLower byte) = asciiLower byte := by
  revert byte
  decide +kernel

theorem lowered_idem (labels : Labels) : lowered (lowered labels) = lowered labels := by
  simp only [lowered, List.map_map]
  congr 1
  funext label
  simp [Function.comp_def, asciiLower_idem]

theorem legalName_lowered (legal : LegalName labels) : LegalName (lowered labels) := by
  refine ⟨fun label member => ?_, by rw [wireOf_lowered_length]; exact legal.total⟩
  obtain ⟨origin, here, rfl⟩ := List.mem_map.1 member
  rw [List.length_map]
  exact legal.sizes origin here

theorem nameOf_octet (name : NameOf wire (label :: labels)) :
    (UInt8.ofNat label.length).toNat = label.length ∧ 0 < label.length ∧ label.length ≤ 63 := by
  obtain ⟨positive, bounded⟩ := name.sizes label (by simp)
  refine ⟨?_, positive, bounded⟩
  rw [UInt8.toNat_ofNat']
  exact Nat.mod_eq_of_lt (by omega)

theorem nameOf_tail (name : NameOf wire (label :: labels)) : NameOf (wireOf labels) labels :=
  ⟨rfl, fun other member => name.sizes other (by simp [member])⟩

theorem nameOf_unique (name : NameOf wire labels) (name' : NameOf wire labels') : labels = labels' := by
  induction labels generalizing wire labels' with
  | nil =>
    cases labels' with
    | nil => rfl
    | cons label' labels' =>
      have same := name.wire.symm.trans name'.wire
      rw [wireOf_cons, wireOf_nil, List.cons_append, List.cons.injEq] at same
      obtain ⟨octet, positive, -⟩ := nameOf_octet name'
      rw [← same.1] at octet
      simp at octet
      omega
  | cons label labels ih =>
    cases labels' with
    | nil =>
      have same := name.wire.symm.trans name'.wire
      rw [wireOf_cons, wireOf_nil, List.cons_append, List.cons.injEq] at same
      obtain ⟨octet, positive, -⟩ := nameOf_octet name
      rw [same.1] at octet
      simp at octet
      omega
    | cons label' labels' =>
      have same := name.wire.symm.trans name'.wire
      rw [wireOf_cons, wireOf_cons, List.cons_append, List.cons_append, List.cons.injEq] at same
      have lengths : label.length = label'.length := by
        rw [← (nameOf_octet name).1, ← (nameOf_octet name').1, same.1]
      obtain ⟨rfl, rest⟩ := List.append_inj same.2 lengths
      rw [ih (nameOf_tail name) ⟨rest, (nameOf_tail name').sizes⟩]

theorem readName_nameOf (read : readName packet offset = .ok (name, next)) :
    ∃ labels, NameOf name.canonicalWire labels := by
  obtain ⟨labels, -, legal, rfl⟩ := readName_labels read
  refine ⟨lowered labels, rfl, fun label member => ?_⟩
  obtain ⟨origin, here, rfl⟩ := List.mem_map.1 member
  rw [List.length_map]
  exact legal.sizes origin here

end Resolved.Proof.Wire
