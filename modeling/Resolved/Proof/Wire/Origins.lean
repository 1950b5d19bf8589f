import Resolved.Proof.Wire.Records

/-!
# Lookups and unrelated records
-/

namespace Resolved.Proof.Wire
open Lib Resolved.Wire Spec

theorem foldlM_said {α β σ ε : Type} {step : σ → α → Except ε σ} (held : σ → List β) (said : α → List β)
    (adds : ∀ state value next, step state value = .ok next → held next = held state ++ said value)
    {values : List α} {start final : σ} (folded : values.foldlM step start = .ok final) :
    held final = held start ++ values.flatMap said := by
  induction values generalizing start with
  | nil =>
    cases folded
    simp
  | cons value rest ih =>
    rw [List.foldlM_cons, bind_eq_ok] at folded
    obtain ⟨next, first, folded⟩ := folded
    rw [ih folded, adds start value next first]
    simp

theorem visitPtr_adds (visited : visitPtr packet names record = .ok next) :
    next = names ++ ptrSaid packet record := by
  unfold visitPtr at visited
  unfold ptrSaid
  split at visited
  · rename_i kind
    rw [bind_eq_ok] at visited
    obtain ⟨⟨target, stop⟩, read, same⟩ := visited
    rw [if_pos kind, read, ← pure_eq_ok.1 same]
    rfl
  · rename_i other
    rw [if_neg other, ← Except.ok.inj visited, List.append_nil]

theorem visitService_adds (visited : visitService packet services record = .ok next) :
    next.srv = services.srv ++ srvSaid packet record ∧ next.txt = services.txt ++ txtSaid packet record := by
  have other : typeTxt ≠ typeSrv := by decide
  unfold visitService at visited
  unfold srvSaid txtSaid
  split at visited
  · rename_i outside
    cases visited
    simp [outside]
  · rename_i inClass
    rw [not_not] at inClass
    split at visited
    · rename_i srv
      rw [bind_eq_ok] at visited
      obtain ⟨made, read, same⟩ := visited
      cases pure_eq_ok.1 same
      simp [inClass, srv, read, other.symm]
      rfl
    · rename_i srv
      split at visited
      · rename_i txt
        rw [bind_eq_ok] at visited
        obtain ⟨items, read, same⟩ := visited
        cases pure_eq_ok.1 same
        simp [inClass, txt, read, other]
        rfl
      · rename_i txt
        cases visited
        simp [srv, txt]

theorem flatMap_eq_filter_iff {α β : Type} (said : α → List β) (kept : α → Prop) [DecidablePred kept]
    (values : List α) :
    values.flatMap said = (values.filter kept).flatMap said ↔ ∀ value ∈ values, said value ≠ [] → kept value := by
  induction values with
  | nil => simp
  | cons value rest ih =>
    rw [List.forall_mem_cons, ← ih, List.flatMap_cons]
    by_cases keep : kept value
    · simp [keep]
    · rw [List.filter_cons_of_neg (by simpa using keep)]
      have fewer := ((List.filter_sublist (p := kept) (l := rest)).flatMap said).length_le
      constructor
      · intro same
        have lengths := congrArg List.length same
        rw [List.length_append] at lengths
        have silent : said value = [] := List.length_eq_zero_iff.1 (by omega)
        rw [silent, List.nil_append] at same
        exact ⟨fun speaks => absurd silent speaks, same⟩
      · rintro ⟨silent, same⟩
        rw [of_not_not fun speaks => keep (silent speaks), same, List.nil_append]

theorem saidByRelated_iff {α : Type} {said : ResourceRecord → List α} {items : List α}
    (all : items = records.flatMap said) :
    items = saidByRelated packet records question said ↔ OnlyRelated packet records question said := by
  classical
  rw [all]
  exact flatMap_eq_filter_iff said _ records

/-- Lookups return what related records say exactly when no other record says anything. -/
theorem lookups_related_iff (packet : Packet) : ∀ question, AsksOne packet question → ∀ records,
    answerSection packet = .ok records → (∀ names, extractPtrNames packet = .ok names →
      (names = saidByRelated packet records question.name.canonicalWire (ptrSaid packet) ↔
        OnlyRelated packet records question.name.canonicalWire (ptrSaid packet))) ∧
    ∀ services, extractServiceRecords packet = .ok services →
      (services.srv = saidByRelated packet records question.name.canonicalWire (srvSaid packet) ↔
        OnlyRelated packet records question.name.canonicalWire (srvSaid packet)) ∧
      (services.txt = saidByRelated packet records question.name.canonicalWire (txtSaid packet) ↔
        OnlyRelated packet records question.name.canonicalWire (txtSaid packet)) := by
  intro question _ records answered
  constructor
  · intro names extracted
    obtain ⟨records', answered', folded⟩ := walkAnswers_section.1 extracted
    cases answered.symm.trans answered'
    exact saidByRelated_iff (foldlM_said id (ptrSaid packet) (fun _ _ _ => visitPtr_adds) folded)
  · intro services extracted
    obtain ⟨records', answered', folded⟩ := walkAnswers_section.1 extracted
    cases answered.symm.trans answered'
    exact ⟨saidByRelated_iff (foldlM_said ServiceRecords.srv (srvSaid packet)
        (fun _ _ _ visited => (visitService_adds visited).1) folded),
      saidByRelated_iff (foldlM_said ServiceRecords.txt (txtSaid packet)
        (fun _ _ _ visited => (visitService_adds visited).2) folded)⟩

/-- `a` is an alias of `b`, and `b` has a name. -/
def aliasedPtr : Packet :=
  [0, 0, 0x81, 0x80, 0, 1, 0, 2, 0, 0, 0, 0, 1, 97, 0, 0, 12, 0, 1] ++
    [1, 97, 0, 0, 5, 0, 1, 0, 0, 0, 60, 0, 3, 1, 98, 0] ++
    [1, 98, 0, 0, 12, 0, 1, 0, 0, 0, 60, 0, 3, 1, 99, 0]

def letterRecord (owner : Char) (wire : Bytes) (rrType rdataOffset : Nat) (rdata : Bytes) :
    ResourceRecord :=
  ⟨⟨[owner], wire⟩, rrType, 1, 60, rdataOffset - 6, rdataOffset, rdata, rdataOffset + 3⟩

theorem lookups_related_iff_aliased :
    ∃ records, answerSection aliasedPtr = .ok records ∧
      [['c']] = saidByRelated aliasedPtr records [1, 97, 0] (ptrSaid aliasedPtr) := by
  have asked : AsksOne aliasedPtr ⟨⟨['a'], [1, 97, 0]⟩, 12, 1, 19⟩ :=
    ⟨⟨0, 0x8180, 1, 2, 0, 0⟩, by decide, rfl, by decide⟩
  have answered : answerSection aliasedPtr = .ok [letterRecord 'a' [1, 97, 0] 5 32 [1, 98, 0],
      letterRecord 'b' [1, 98, 0] 12 48 [1, 99, 0]] := by decide
  refine ⟨_, answered, ((lookups_related_iff aliasedPtr _ asked _ answered).1 _ (by decide)).2 ?_⟩
  intro record member speaks
  rcases List.mem_cons.1 member with rfl | member
  · exact .question
  · cases List.mem_singleton.1 member
    exact .cname List.mem_cons_self rfl rfl .question
      (show readName aliasedPtr 32 = .ok (⟨['b'], [1, 98, 0]⟩, 35) by decide)

def unrelatedPtr : Packet :=
  [0, 0, 0x81, 0x80, 0, 1, 0, 1, 0, 0, 0, 0, 1, 97, 0, 0, 12, 0, 1,
    1, 98, 0, 0, 12, 0, 1, 0, 0, 0, 60, 0, 3, 1, 99, 0]

def unrelatedQuestion : Question := ⟨⟨['a'], [1, 97, 0]⟩, 12, 1, 19⟩

def unrelatedRecord : ResourceRecord := letterRecord 'b' [1, 98, 0] 12 32 [1, 99, 0]

theorem extractPtrNames_takes_unrelated :
    AsksOne unrelatedPtr unrelatedQuestion ∧ answerSection unrelatedPtr = .ok [unrelatedRecord] ∧
    extractPtrNames unrelatedPtr = .ok [['c']] ∧
    [['c']] ≠ saidByRelated unrelatedPtr [unrelatedRecord] unrelatedQuestion.name.canonicalWire
      (ptrSaid unrelatedPtr) := by
  refine ⟨⟨⟨0, 0x8180, 1, 1, 0, 0⟩, by decide, rfl, by decide⟩, by decide, by decide, fun related => ?_⟩
  -- without aliases only the name asked for is reached
  have alone : ∀ name, Reached unrelatedPtr [unrelatedRecord] [1, 97, 0] name → name = [1, 97, 0] := by
    intro name reached
    cases reached with
    | question => rfl
    | cname member cls rrType | dname member cls rrType =>
      rw [List.mem_singleton.1 member] at rrType
      exact absurd rrType (by decide)
  have none : saidByRelated unrelatedPtr [unrelatedRecord] [1, 97, 0] (ptrSaid unrelatedPtr) = [] := by
    rw [saidByRelated, List.filter_cons_of_neg]
    · rfl
    · simpa using fun reached => absurd (alone _ reached) (by decide)
  cases related.trans none

end Resolved.Proof.Wire
