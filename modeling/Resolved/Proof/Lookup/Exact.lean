import Resolved.Proof.Lookup.Following

/-!
# The addresses of a name
-/

namespace Resolved.Proof.Lookup
open Lib Resolved.Wire Resolved.Exchange Resolved.Lookup Spec
open Resolved.Proof.Wire

theorem indexed_pairwise (outcomes : List QueryOutcome) :
    (indexed outcomes).Pairwise fun left right => left.1 < right.1 := by
  rw [indexed, List.pairwise_map, List.pairwise_iff_getElem]
  intro i j _ _ before
  simpa using before

theorem lookupNameExact_eq {name : Str} {outcomes : List QueryOutcome}
    {arrived : List (Nat × QueryOutcome)} (finished : arrived.Perm (indexed outcomes)) :
    lookupNameExact name arrived = (do
      let gathered ← outcomes.foldlM gather ⟨[], none, none⟩
      if gathered.addresses.isEmpty then throw (gathered.lastError.getD .noSuchResourceRecord)
      else return ⟨gathered.addresses, gathered.canonicalName.getD (trimEndWith (· == '.') name), 0⟩) := by
  have sorted : arrived.mergeSort (fun left right => left.1 ≤ right.1) = indexed outcomes := by
    have ordered := indexed_pairwise outcomes
    have perm := (List.mergeSort_perm arrived fun left right => left.1 ≤ right.1).trans finished
    refine List.Perm.eq_of_pairwise (fun left right here there below above => ?_)
      (List.pairwise_mergeSort ?_ ?_ arrived) (ordered.imp fun smaller => ?_) perm
    · have distinct : ((indexed outcomes).map Prod.fst).Nodup :=
        (List.pairwise_map.mpr ordered).imp Nat.ne_of_lt
      apply List.inj_on_of_nodup_map distinct (perm.mem_iff.mp here) there
      simp only [decide_eq_true_eq] at below above
      exact Nat.le_antisymm below above
    · intro a b c first second
      simp only [decide_eq_true_eq] at first second ⊢
      exact first.trans second
    · intro a b
      simpa using Nat.le_total a.1 b.1
    · simpa using smaller.le
  have plain : (indexed outcomes).map Prod.snd = outcomes := by
    simp [indexed, Function.comp_def]
  simp only [lookupNameExact, sorted, plain]

section
variable {s next final : Gathering} {outcome : QueryOutcome} {outcomes : List QueryOutcome}

theorem gather_step (gathered : gather s outcome = .ok next) :
    Searchable outcome ∧ (s.addresses.Nodup → next.addresses.Nodup) ∧
      ∀ address, address ∈ next.addresses ↔ address ∈ s.addresses ∨
        ∃ addresses, Yields outcome addresses ∧ address ∈ addresses := by
  obtain ⟨rrType, result⟩ := outcome
  cases result with
  | error error =>
    cases gathered
    simp [Searchable, Yields]
  | ok found =>
    obtain ⟨response, text⟩ := found
    obtain ⟨records, extracted, gathered⟩ := bind_eq_ok.mp gathered
    rw [lookupWire_eq_ok] at extracted
    cases pure_eq_ok.mp gathered
    have yields : ∀ addresses, Yields ⟨rrType, .ok (response, text)⟩ addresses ↔
        addresses = records.addresses := by
      intro addresses
      constructor
      · rintro ⟨response', text', records', same, extracted', rfl⟩
        cases same
        cases extracted.symm.trans extracted'
        rfl
      · rintro rfl
        exact ⟨response, text, records, rfl, extracted, rfl⟩
    refine ⟨fun response' text' same => ⟨_, (yields _).mpr rfl⟩, pushAll_nodup, fun address => ?_⟩
    simp [mem_pushAll, yields]

theorem gather_searchable (searchable : Searchable outcome) : ∃ next, gather s outcome = .ok next := by
  obtain ⟨rrType, result⟩ := outcome
  cases result with
  | error error => exact ⟨_, rfl⟩
  | ok found =>
    obtain ⟨response, text⟩ := found
    obtain ⟨addresses, response', text', records, same, extracted, -⟩ := searchable response text rfl
    cases same
    exact ⟨_, by simp only [gather, lookupWire_eq_ok.mpr extracted]; rfl⟩

theorem foldlM_gather (gathered : outcomes.foldlM gather s = .ok final) :
    (∀ outcome ∈ outcomes, Searchable outcome) ∧ (s.addresses.Nodup → final.addresses.Nodup) ∧
      ∀ address, address ∈ final.addresses ↔ address ∈ s.addresses ∨
        ∃ outcome ∈ outcomes, ∃ addresses, Yields outcome addresses ∧ address ∈ addresses := by
  induction outcomes generalizing s with
  | nil =>
    cases pure_eq_ok.mp gathered
    simp
  | cons outcome outcomes ih =>
    obtain ⟨next, here, later⟩ := bind_eq_ok.mp gathered
    obtain ⟨searchable, nodup, found⟩ := gather_step here
    obtain ⟨searchables, nodups, founds⟩ := ih later
    refine ⟨List.forall_mem_cons.mpr ⟨searchable, searchables⟩, nodups ∘ nodup, fun address => ?_⟩
    rw [founds, found, or_assoc]
    simp

theorem foldlM_searchable (searchable : ∀ outcome ∈ outcomes, Searchable outcome) (s : Gathering) :
    ∃ final, outcomes.foldlM gather s = .ok final := by
  induction outcomes generalizing s with
  | nil => exact ⟨s, rfl⟩
  | cons outcome outcomes ih =>
    obtain ⟨next, here⟩ := @gather_searchable s _ (searchable outcome List.mem_cons_self)
    obtain ⟨final, later⟩ := ih (fun other member => searchable other (List.mem_cons_of_mem _ member)) next
    exact ⟨final, bind_eq_ok.mpr ⟨next, here, later⟩⟩

end

/-- Whichever query finishes first, a lookup has all addresses that its queries have found exactly when
every response can be searched, or nothing is found. -/
theorem lookupNameExact_allFound_iff (name : Str) (outcomes : List QueryOutcome) :
    (∀ arrived, arrived.Perm (indexed outcomes) → AllFound outcomes (lookupNameExact name arrived)) ↔
      (SomeFound outcomes → ∀ outcome ∈ outcomes, Searchable outcome) := by
  constructor
  · intro all found
    obtain ⟨lookup, ok, -⟩ := all (indexed outcomes) (.refl _) found
    rw [lookupNameExact_eq (.refl _)] at ok
    obtain ⟨final, gathered, -⟩ := bind_eq_ok.mp ok
    exact (foldlM_gather gathered).1
  · intro searchable arrived finished found
    obtain ⟨final, gathered⟩ := foldlM_searchable (searchable found) ⟨[], none, none⟩
    obtain ⟨-, nodup, members⟩ := foldlM_gather gathered
    have filled : final.addresses.isEmpty = false := by
      obtain ⟨outcome, member, addresses, yields, some'⟩ := found
      obtain ⟨address, here⟩ := List.exists_mem_of_ne_nil _ some'
      have present := (members address).mpr (.inr ⟨outcome, member, addresses, yields, here⟩)
      rw [List.isEmpty_eq_false_iff]
      exact List.ne_nil_of_mem present
    refine ⟨⟨final.addresses, final.canonicalName.getD (trimEndWith (· == '.') name), 0⟩, ?_,
      nodup List.nodup_nil, ?_⟩
    · rw [lookupNameExact_eq finished, gathered, ok_bind, filled]
      rfl
    · intro outcome member addresses yields address here
      exact (members address).mpr (.inr ⟨outcome, member, addresses, yields, here⟩)

def addressA : Packet :=
  [0, 7, 129, 128, 0, 1, 0, 1, 0, 0, 0, 0, 1, 97, 0, 0, 1, 0, 1,
    192, 12, 0, 1, 0, 1, 0, 0, 0, 60, 0, 4, 192, 0, 2, 1]

def shortRecord : Packet :=
  [0, 7, 129, 128, 0, 1, 0, 2, 0, 0, 0, 0, 1, 97, 0, 0, 28, 0, 1,
    192, 12, 0, 28, 0, 1, 0, 0, 0, 60, 0, 16, 32, 1, 13, 184, 0, 0, 0, 0, 0, 0, 0, 0, 0, 0, 0, 1,
    192, 12, 0, 1, 0, 1, 0, 0, 0, 60, 0, 3, 192, 0, 2]

theorem addressA_yields (text : Str) : Yields ⟨typeA, .ok (addressA, text)⟩ [.v4 ⟨192, 0, 2, 1⟩] := by
  have extracted : extractAddressRecords addressA (responseFamily typeA) =
      .ok ⟨[.v4 ⟨192, 0, 2, 1⟩], ['a']⟩ := by decide
  exact ⟨addressA, text, _, rfl, extracted, rfl⟩

theorem lookupNameExact_allFound_one :
    SomeFound [⟨typeA, .ok (addressA, ['a'])⟩, ⟨typeAaaa, .error .noSuchResourceRecord⟩] ∧
      AllFound [⟨typeA, .ok (addressA, ['a'])⟩, ⟨typeAaaa, .error .noSuchResourceRecord⟩]
        (lookupNameExact ['a'] [(1, ⟨typeAaaa, .error .noSuchResourceRecord⟩),
          (0, ⟨typeA, .ok (addressA, ['a'])⟩)]) := by
  refine ⟨⟨_, List.mem_cons_self, _, addressA_yields _, by simp⟩,
    (lookupNameExact_allFound_iff ['a'] _).mpr (fun _ => ?_) _ (.swap _ _ _)⟩
  intro outcome member
  rcases List.mem_cons.mp member with rfl | member
  · intro response text same
    exact ⟨_, addressA_yields _⟩
  · cases List.mem_singleton.mp member
    intro response text same
    cases same

theorem lookupNameExact_short_record :
    (queryFollowingRedirects classIn typeA (fun _ _ => .ok addressA) (fun _ => 7) 17 ['a']).2 =
        some (.ok (addressA, ['a'])) ∧
      (queryFollowingRedirects classIn typeAaaa (fun _ _ => .ok shortRecord) (fun _ => 7) 17 ['a']).2 =
        some (.ok (shortRecord, ['a'])) ∧
      ¬AllFound [⟨typeA, .ok (addressA, ['a'])⟩, ⟨typeAaaa, .ok (shortRecord, ['a'])⟩]
        (lookupNameExact ['a'] [(0, ⟨typeA, .ok (addressA, ['a'])⟩),
          (1, ⟨typeAaaa, .ok (shortRecord, ['a'])⟩)]) := by
  refine ⟨by decide, by decide, ?_⟩
  intro all
  obtain ⟨found, ok, -⟩ := all ⟨_, List.mem_cons_self, _, addressA_yields _, by simp⟩
  obtain ⟨final, gathered, -⟩ := bind_eq_ok.mp ((@lookupNameExact_eq ['a']
    [⟨typeA, .ok (addressA, ['a'])⟩, ⟨typeAaaa, .ok (shortRecord, ['a'])⟩] _ (.refl _)).symm.trans ok)
  have fails : ([⟨typeA, .ok (addressA, ['a'])⟩, ⟨typeAaaa, .ok (shortRecord, ['a'])⟩] :
      List QueryOutcome).foldlM gather ⟨[], none, none⟩ = .error (.resolve (.wire .invalidRecord)) := by
    decide
  cases fails.symm.trans gathered

end Resolved.Proof.Lookup
