import Resolved.Spec.Rdata
import Resolved.Proof.Wire.Labels

/-!
# Names that `read_name` reads
-/

namespace Resolved.Proof.Wire
open Lib Resolved.Wire Spec

variable {packet : Packet} {offset pointers stop : Nat} {labels : Labels}

theorem wireOf_length_ge (labels : Labels) (sizes : ∀ label ∈ labels, 0 < label.length) :
    2 * labels.length + 1 ≤ (wireOf labels).length := by
  induction labels with
  | nil => simp
  | cons label labels ih =>
    have first := sizes label (by simp)
    have rest := ih fun other member => sizes other (by simp [member])
    rw [wireOf_length_cons, List.length_cons]
    omega

theorem nameIn_inside (name : NameIn packet offset labels pointers stop) : offset < packet.length := by
  cases name with
  | root zero => exact getElem?_lt zero
  | pointer byte | label byte => exact getElem?_lt byte

theorem label_small {length : UInt8} (plain : length &&& 0xc0 = 0) : length ≤ 63 := by
  revert length
  decide +kernel

theorem nameIn_loop {packet : Packet} {offset pointers stop : Nat} {labels : Labels}
    (name : NameIn packet offset labels pointers stop) {s : NameCursor} (here : s.cursor = offset)
    (steps : s.pointerSteps + pointers ≤ 128) (room : s.expandedLength + (wireOf labels).length ≤ 256)
    {fuel : Nat} (turns : labels.length + pointers < fuel) :
    ∃ final, nameLoop packet fuel s = .ok final ∧ final.nextOffset = (if s.jumped then s.nextOffset else stop) ∧
      final.labels = s.labels ++ labels.map displayLabel ∧
      final.canonicalWire = s.canonicalWire ++ wireOf (lowered labels) := by
  induction name generalizing s fuel with
  | root zero =>
    obtain ⟨fuel, rfl⟩ : ∃ n, fuel = n + 1 := ⟨fuel - 1, by omega⟩
    subst here
    exact ⟨atRoot s, nameLoop_succ_eq_ok.2 (.inl (.root zero)), by simp [atRoot], by simp [atRoot], rfl⟩
  | @pointer offset pointers stop first second labels byte tag byte' back rest ih =>
    obtain ⟨fuel, rfl⟩ : ∃ n, fuel = n + 1 := ⟨fuel - 1, by omega⟩
    subst here
    have inside := nameIn_inside rest
    obtain ⟨final, loop, next, texts, wire⟩ :=
      @ih (atPointer s (pointerTarget first second)) rfl (by simp only [atPointer]; omega) room
        fuel (by omega)
    refine ⟨final, nameLoop_succ_eq_ok.2 (.inr ⟨_, .pointer first second byte tag byte' back inside
      (by omega), loop⟩), ?_, texts, wire⟩
    rw [next]
    simp [atPointer]
  | @label offset pointers stop length label labels byte nonzero plain part rest ih =>
    obtain ⟨fuel, rfl⟩ : ∃ n, fuel = n + 1 := ⟨fuel - 1, by omega⟩
    subst here
    have size : label.length = length.toNat := by
      rw [slice_length part]
      omega
    have least : 0 < (wireOf labels).length := by simp [wireOf]
    rw [wireOf_length_cons, size] at room
    rw [List.length_cons] at turns
    obtain ⟨final, loop, next, texts, wire⟩ :=
      @ih (atLabel s length label) rfl steps (by simp only [atLabel]; omega) fuel (by omega)
    refine ⟨final, nameLoop_succ_eq_ok.2 (.inr ⟨_, .label length label byte nonzero plain
      (label_small plain) part (by omega), loop⟩), ?_, ?_, ?_⟩
    · rw [next]
      simp only [atLabel]
      split <;> rfl
    · rw [texts]
      simp [atLabel]
    · rw [wire, lowered_cons, wireOf_cons, List.length_map, size, UInt8.ofNat_toNat]
      simp [atLabel]

theorem readName_of_nameIn (name : NameIn packet offset labels pointers stop) (few : pointers ≤ 128)
    (legal : LegalName labels) : readName packet offset = .ok (nameWith labels, stop) := by
  have total := legal.total
  have least := wireOf_length_ge labels fun label member => (legal.sizes label member).1
  obtain ⟨final, loop, next, texts, wire⟩ := @nameIn_loop packet offset pointers stop labels name
    (nameStart offset) rfl (by simpa [nameStart] using few) (by simp only [nameStart]; omega)
    nameFuel (by unfold nameFuel; omega)
  refine readName_eq_ok.2 ⟨final, loop, ?_, ?_⟩
  · rw [texts, wire]
    rfl
  · rw [next]
    rfl

theorem nameIn_lt (name : NameIn packet offset labels pointers stop) : offset < stop := by
  induction name with
  | root => omega
  | pointer => omega
  | label byte nonzero plain part rest ih => omega

theorem nameIn_sizes (name : NameIn packet offset labels pointers stop) : ∀ label ∈ labels, label ≠ [] := by
  induction name with
  | root => simp
  | pointer _ _ _ _ _ ih => exact ih
  | @label offset pointers stop length label labels byte nonzero plain part rest ih =>
    intro other member
    rcases List.mem_cons.1 member with rfl | later
    · rintro rfl
      have size := slice_length part
      rw [Nat.add_sub_cancel_left, List.length_nil] at size
      exact nonzero (UInt8.toNat_inj.1 size.symm)
    · exact ih other later

theorem nameIn_unique {pointers' stop' : Nat} {labels' : Labels}
    (name : NameIn packet offset labels pointers stop) (name' : NameIn packet offset labels' pointers' stop') :
    labels = labels' ∧ pointers = pointers' ∧ stop = stop' := by
  have untagged : ∀ {length : UInt8}, length &&& 0xc0 = 0 → length &&& 0xc0 ≠ 0xc0 := by
    intro length plain
    rw [plain]
    decide
  induction name generalizing labels' pointers' stop' with
  | root zero =>
    cases name' with
    | root => exact ⟨rfl, rfl, rfl⟩
    | pointer byte tag =>
      cases zero.symm.trans byte
      exact absurd tag (by decide)
    | label byte nonzero =>
      cases zero.symm.trans byte
      exact absurd rfl nonzero
  | pointer byte tag byte' back rest ih =>
    cases name' with
    | root zero =>
      cases byte.symm.trans zero
      exact absurd tag (by decide)
    | pointer byte₂ tag₂ byte₂' back₂ rest₂ =>
      cases byte.symm.trans byte₂
      cases byte'.symm.trans byte₂'
      obtain ⟨rfl, rfl, -⟩ := ih rest₂
      exact ⟨rfl, rfl, rfl⟩
    | label byte₂ nonzero plain =>
      cases byte.symm.trans byte₂
      exact absurd tag (untagged plain)
  | label byte nonzero plain part rest ih =>
    cases name' with
    | root zero =>
      cases byte.symm.trans zero
      exact absurd rfl nonzero
    | pointer byte₂ tag =>
      cases byte.symm.trans byte₂
      exact absurd tag (untagged plain)
    | label byte₂ nonzero₂ plain₂ part₂ rest₂ =>
      cases byte.symm.trans byte₂
      cases part.symm.trans part₂
      obtain ⟨rfl, rfl, rfl⟩ := ih rest₂
      exact ⟨rfl, rfl, rfl⟩

theorem label_octet {label : Bytes} (positive : 0 < label.length) (bounded : label.length ≤ 63) :
    (UInt8.ofNat label.length).toNat = label.length ∧ UInt8.ofNat label.length ≠ 0 ∧
      UInt8.ofNat label.length &&& 0xc0 = 0 := by
  have plain : ∀ n : Fin 64, 0 < n.val → (UInt8.ofNat n.val).toNat = n.val ∧
      UInt8.ofNat n.val ≠ 0 ∧ UInt8.ofNat n.val &&& 0xc0 = 0 := by decide +kernel
  exact plain ⟨label.length, by omega⟩ positive

theorem nameIn_of_wire (sizes : ∀ label ∈ labels, 0 < label.length ∧ label.length ≤ 63)
    (written : slice packet offset stop = some (wireOf labels)) : NameIn packet offset labels 0 stop := by
  induction labels generalizing offset with
  | nil =>
    obtain ⟨zero, rfl⟩ := slice_singleton written
    exact .root zero
  | cons label labels ih =>
    obtain ⟨positive, bounded⟩ := sizes label (by simp)
    obtain ⟨octet, nonzero, plain⟩ := label_octet positive bounded
    rw [wireOf_cons, ← List.singleton_append, List.append_assoc] at written
    obtain ⟨first, behind⟩ := slice_append.1 written
    obtain ⟨part, rest⟩ := slice_append.1 behind
    rw [List.length_singleton] at part rest
    have byte := (slice_singleton first).1
    refine .label byte nonzero plain ?_ (ih (fun other member => sizes other (by simp [member])) ?_)
    · rwa [octet]
    · rwa [octet]

theorem namesIn_of_wire (legal : ∀ labels ∈ names, LegalName labels)
    (written : slice packet offset stop = some (names.flatMap wireOf)) :
    NamesIn packet limit offset names stop := by
  induction names generalizing offset with
  | nil =>
    have length := slice_length written
    have ordered := (slice_eq_some.1 written).1
    obtain rfl : stop = offset := by
      simp at length
      omega
    exact .nil
  | cons labels names ih =>
    obtain ⟨first, rest⟩ := slice_append.1 written
    have here := nameIn_of_wire (legal labels (by simp)).sizes first
    refine .cons here (Nat.zero_le limit) (legal labels (by simp))
      (ih (fun other member => legal other (by simp [member])) rest)

theorem NameIn.nameAt (name : NameIn packet offset labels pointers stop) : NameAt packet offset labels := by
  induction name with
  | root zero => exact .root zero
  | pointer byte tag byte' back rest ih => exact .pointer byte tag byte' ih
  | label byte nonzero plain part rest ih => exact .label byte nonzero plain part ih

theorem nameLoop_nameIn (loop : nameLoop packet fuel s = .ok final) (steps : s.pointerSteps ≤ 128) :
    ∃ labels pointers stop, NameIn packet s.cursor labels pointers stop ∧ s.pointerSteps + pointers ≤ 128 ∧
      final.nextOffset = if s.jumped then s.nextOffset else stop := by
  induction fuel generalizing s with
  | zero => simp [nameLoop] at loop
  | succ fuel ih =>
    rcases nameLoop_succ_eq_ok.1 loop with turn | ⟨next, turn, rest⟩
    · cases turn with
      | root zero => exact ⟨[], 0, s.cursor + 1, .root zero, steps, rfl⟩
    · cases turn with
      | pointer first second byte tag byte' back inside few =>
        obtain ⟨labels, pointers, stop, name, total, ends⟩ := ih rest (by simp only [atPointer]; omega)
        refine ⟨labels, pointers + 1, s.cursor + 2, .pointer byte tag byte' back name, ?_, ?_⟩
        · simp only [atPointer] at total
          omega
        · rw [ends]
          simp [atPointer]
      | label length label byte nonzero plain small part room =>
        obtain ⟨labels, pointers, stop, name, total, ends⟩ := ih rest steps
        refine ⟨label :: labels, pointers, stop, .label byte nonzero plain part name, total, ?_⟩
        rw [ends]
        simp only [atLabel]
        split <;> rfl

theorem readName_iff_nameIn :
    readName packet offset = .ok (name, next) ↔
      ∃ labels pointers, NameIn packet offset labels pointers next ∧ pointers ≤ 128 ∧
        LegalName labels ∧ name = nameWith labels := by
  constructor
  · intro read
    obtain ⟨labels, here, legal, rfl⟩ := readName_labels read
    obtain ⟨s, loop, -, rfl⟩ := readName_eq_ok.1 read
    obtain ⟨labels', pointers, stop, name, few, ends⟩ := nameLoop_nameIn loop (by simp [nameStart])
    obtain rfl := NameAt.unique here (NameIn.nameAt name)
    simp only [nameStart, Nat.zero_add, Bool.false_eq_true, if_false] at few ends
    rw [ends]
    exact ⟨labels, pointers, name, few, legal, rfl⟩
  · rintro ⟨labels, pointers, here, few, legal, rfl⟩
    exact readName_of_nameIn here few legal

end Resolved.Proof.Wire
