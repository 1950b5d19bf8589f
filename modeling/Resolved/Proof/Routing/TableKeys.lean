import Resolved.Wire.ReverseName
import Resolved.Proof.Routing.WireNames

/-!
# One key for one name
-/

namespace Resolved.Proof.Routing
open Lib Resolved.Wire Resolved.Routing Spec
open Resolved.Proof.Wire

section
variable {labels labels' : Labels}

theorem nameText_ne_nil (legal : LegalName labels) (named : labels ≠ []) :
    nameText (labels.map displayLabel) ≠ [] := by
  obtain ⟨⟨first, starts, -⟩, -⟩ :=
    nameText_ends (fun label member => (legal.sizes label member).1) named
  intro empty
  rw [empty] at starts
  cases starts

theorem nameText_undotted (legal : LegalName labels) (named : labels ≠ []) :
    trimEndWith (· == '.') (nameText (labels.map displayLabel)) = nameText (labels.map displayLabel) := by
  obtain ⟨-, last, ends, tame⟩ :=
    nameText_ends (fun label member => (legal.sizes label member).1) named
  apply List.rdropWhile_eq_self_iff.mpr
  intro filled
  rw [List.getLast?_eq_some_getLast filled, Option.some.injEq] at ends
  simpa [ends] using tame.2.2

theorem lowered_eq_nil : lowered labels = [] ↔ labels = [] := by
  simp [lowered]

theorem nameText_lowered_inj (legal : LegalName labels) (legal' : LegalName labels') :
    nameText ((lowered labels).map displayLabel) = nameText ((lowered labels').map displayLabel) ↔
      lowered labels = lowered labels' := by
  constructor
  · intro same
    exact nameText_injective (legalName_lowered legal) (legalName_lowered legal') same
  · intro same
    rw [same]

theorem hostsName_text (legal : LegalName labels) :
    Hosts.canonicalName (nameText (labels.map displayLabel)) =
      if labels = [] then [] else nameText ((lowered labels).map displayLabel) := by
  by_cases named : labels = []
  · subst named
    rfl
  · rw [Hosts.canonicalName, nameText_undotted legal named, nameText_lower, if_neg named]

theorem hostsName_inj (legal : LegalName labels) (legal' : LegalName labels') :
    Hosts.canonicalName (nameText (labels.map displayLabel)) =
        Hosts.canonicalName (nameText (labels'.map displayLabel)) ↔ lowered labels = lowered labels' := by
  -- The root has the empty key, and no other name has it.
  have filled : ∀ {labels : Labels}, LegalName labels → labels ≠ [] →
      nameText ((lowered labels).map displayLabel) ≠ [] := by
    intro labels legal named
    exact nameText_ne_nil (legalName_lowered legal) (fun empty => named (lowered_eq_nil.mp empty))
  rw [hostsName_text legal, hostsName_text legal']
  by_cases named : labels = []
  · by_cases named' : labels' = []
    · simp [named, named']
    · rw [if_pos named, if_neg named', named]
      refine iff_of_false (filled legal' named').symm ?_
      exact fun same => named' (lowered_eq_nil.mp same.symm)
  · by_cases named' : labels' = []
    · rw [if_neg named, if_pos named', named']
      exact iff_of_false (filled legal named) (fun same => named (lowered_eq_nil.mp same))
    · rw [if_neg named, if_neg named', nameText_lowered_inj legal legal']

theorem staticName_text (legal : LegalName labels) :
    StaticRecords.canonicalName (nameText (labels.map displayLabel)) =
      nameText ((lowered labels).map displayLabel) := by
  by_cases named : labels = []
  · subst named
    rfl
  · simp only [StaticRecords.canonicalName, nameText_undotted legal named, nameText_lower,
      if_neg (nameText_ne_nil legal named)]

theorem routable_lowered : Routable (lowered labels) ↔ Routable labels := by
  have same : ∀ label : Bytes, shownLength (label.map asciiLower) = shownLength label := by
    intro label
    rw [← displayLabel_shownLength, ← displayLabel_lower, List.length_map, displayLabel_shownLength]
  constructor
  · intro routable
    constructor
    · intro label member
      rw [← same]
      exact routable.sizes _ (List.mem_map_of_mem member)
    · simpa [lowered, same, Function.comp_def] using routable.total
  · intro routable
    constructor
    · intro label member
      obtain ⟨origin, listed, rfl⟩ := List.mem_map.mp member
      rw [same]
      exact routable.sizes origin listed
    · simpa [lowered, same, Function.comp_def] using routable.total

theorem normalizeName_lowered (legal : LegalName labels) {key : Str} :
    normalizeName (nameText (labels.map displayLabel)) = .ok key ↔
      Routable labels ∧ key = nameText ((lowered labels).map displayLabel) := by
  rw [← normalizeName_text legal]
  have value : ∀ key, normalizeName (nameText (labels.map displayLabel)) = .ok key →
      key = nameText ((lowered labels).map displayLabel) := by
    intro key normal
    by_cases named : labels = []
    · subst named
      exact (Except.ok.inj normal).symm
    · obtain ⟨⟨first, starts, tame⟩, -⟩ :=
        nameText_ends (fun label member => (legal.sizes label member).1) named
      have bare : (nameText (labels.map displayLabel)).head? ≠ some '~' := by
        rw [starts]
        exact fun same => tame.2.1 (Option.some.inj same)
      have plain : nameText (labels.map displayLabel) ≠ ['~'] := by
        intro tilde
        rw [tilde] at bare
        exact bare rfl
      simp only [normalizeName, nameText_untrimmed legal named] at normal
      rw [if_neg (by simp [nameText_ne_nil legal named, plain]), if_neg bare] at normal
      split at normal
      · cases normal
      · rw [← nameText_lower]
        exact (Except.ok.inj normal).symm
  constructor
  · intro normal
    exact ⟨⟨key, normal⟩, value key normal⟩
  · rintro ⟨⟨name, normal⟩, rfl⟩
    rw [normal, value name normal]

theorem canonicalWire_inj (legal : LegalName labels) (legal' : LegalName labels') :
    (nameWith labels).canonicalWire = (nameWith labels').canonicalWire ↔ lowered labels = lowered labels' := by
  constructor
  · intro same
    exact wireOf_injective (legalName_lowered legal) (legalName_lowered legal') same
  · intro same
    rw [nameWith, nameWith, same]

end

/-- Two names that are read from packets have one canonical form exactly when their texts are the
same but for case. So they share a key of the hosts file, of the static records or of the routing
domains only when they are one name. -/
theorem readName_keys {packet packet' : Packet} {offset offset' next next' : Nat} {name name' : DnsName}
    (read : readName packet offset = .ok (name, next)) (read' : readName packet' offset' = .ok (name', next')) :
    (name.canonicalWire = name'.canonicalWire ↔ eqIgnoreAsciiCase name.text name'.text = true) ∧
      (Hosts.canonicalName name.text = Hosts.canonicalName name'.text ↔ name.canonicalWire = name'.canonicalWire) ∧
      (StaticRecords.canonicalName name.text = StaticRecords.canonicalName name'.text ↔
        name.canonicalWire = name'.canonicalWire) ∧ ∀ key, normalizeName name.text = .ok key →
        (normalizeName name'.text = .ok key ↔ name.canonicalWire = name'.canonicalWire) := by
  obtain ⟨labels, -, legal, rfl⟩ := readName_labels read
  obtain ⟨labels', -, legal', rfl⟩ := readName_labels read'
  refine ⟨(eqIgnoreAsciiCase_nameWith legal legal').symm, ?_, ?_, ?_⟩
  · rw [canonicalWire_inj legal legal']
    change Hosts.canonicalName (nameText _) = Hosts.canonicalName (nameText _) ↔ _
    exact hostsName_inj legal legal'
  · rw [canonicalWire_inj legal legal', ← nameText_lowered_inj legal legal', ← staticName_text legal,
      ← staticName_text legal']
    rfl
  · intro key normal
    obtain ⟨routable, rfl⟩ := (normalizeName_lowered legal).mp normal
    rw [canonicalWire_inj legal legal', ← nameText_lowered_inj legal legal']
    refine (normalizeName_lowered legal').trans ?_
    constructor
    · rintro ⟨-, same⟩
      exact same
    · intro same
      have one := (nameText_lowered_inj legal legal').mp same
      exact ⟨routable_lowered.mp (one ▸ routable_lowered.mpr routable), same⟩

theorem readName_keys_dots :
    Hosts.canonicalName "A\\046b".toList ≠ Hosts.canonicalName "a.b".toList ∧
      [3, 97, 46, 98, 0] ≠ ([1, 97, 1, 98, 0] : Bytes) := by
  have inside : readName [3, 65, 46, 98, 0] 0 = .ok (⟨"A\\046b".toList, [3, 97, 46, 98, 0]⟩, 5) := by
    decide +kernel
  have between : readName [1, 97, 1, 98, 0] 0 = .ok (⟨"a.b".toList, [1, 97, 1, 98, 0]⟩, 5) := by
    decide +kernel
  have different : ([3, 97, 46, 98, 0] : Bytes) ≠ [1, 97, 1, 98, 0] := by decide
  exact ⟨fun same => different ((readName_keys inside between).2.1.mp same), different⟩

end Resolved.Proof.Routing
