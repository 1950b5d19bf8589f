import Mathlib

/-!
# Sets as strictly increasing lists

Sorting a list and dropping repeated neighbours leaves the strictly increasing list of its members,
and there is only one such list.
-/

namespace Resolved.Lib

instance instLinearOrderUInt8 : LinearOrder UInt8 where
  le_refl a := UInt8.le_refl a
  le_trans _ _ _ := UInt8.le_trans
  lt_iff_le_not_ge a b := by
    simp only [UInt8.lt_iff_toNat_lt, UInt8.le_iff_toNat_le]
    omega
  le_antisymm _ _ := UInt8.le_antisymm
  le_total a b := UInt8.le_total a b
  toDecidableLE := inferInstance
  toDecidableLT := inferInstance

section
variable {α : Type*} [DecidableEq α]

def dedupRuns : List α → List α
  | [] => []
  | [value] => [value]
  | value :: next :: rest =>
    if value = next then dedupRuns (next :: rest) else value :: dedupRuns (next :: rest)

@[simp] theorem mem_dedupRuns {values : List α} {value : α} : value ∈ dedupRuns values ↔ value ∈ values := by
  fun_induction dedupRuns values with
  | case1 => rfl
  | case2 => rfl
  | case3 next rest ih =>
    rw [ih]
    simp
  | case4 first next rest differ ih => rw [List.mem_cons, ih, ← List.mem_cons]

end

section
variable {α : Type*} [LinearOrder α]

theorem dedupRuns_pairwise {values : List α} (sorted : values.Pairwise (· ≤ ·)) :
    (dedupRuns values).Pairwise (· < ·) := by
  fun_induction dedupRuns values with
  | case1 => exact .nil
  | case2 value => exact List.pairwise_singleton _ value
  | case3 next rest ih => exact ih (List.pairwise_cons.1 sorted).2
  | case4 first next rest differ ih =>
    obtain ⟨least, later⟩ := List.pairwise_cons.1 sorted
    refine .cons (fun value member => ?_) (ih later)
    rw [mem_dedupRuns] at member
    have first_lt : first < next := lt_of_le_of_ne (least next (by simp)) differ
    rcases List.mem_cons.1 member with rfl | behind
    · exact first_lt
    · exact first_lt.trans_le ((List.pairwise_cons.1 later).1 value behind)

theorem lt_of_pairwise_both {Before : α → α → Prop} {values : List α} (ordered : values.Pairwise Before)
    (increasing : values.Pairwise (· < ·)) (asymm : ∀ a b, Before a b → ¬ Before b a) {value other : α}
    (member : value ∈ values) (member' : other ∈ values) (before : Before value other) : value < other := by
  obtain ⟨i, hi, rfl⟩ := List.getElem_of_mem member
  obtain ⟨j, hj, rfl⟩ := List.getElem_of_mem member'
  rcases lt_trichotomy i j with less | rfl | greater
  · exact List.pairwise_iff_getElem.1 increasing i j hi hj less
  · exact absurd before (asymm _ _ before)
  · exact absurd before (asymm _ _ (List.pairwise_iff_getElem.1 ordered j i hj hi greater))

theorem append_lt_append_iff {front values others : List α} :
    front ++ values < front ++ others ↔ values < others := by
  induction front with
  | nil => rfl
  | cons value front ih =>
    rw [List.cons_append, List.cons_append, List.cons_lt_cons_iff]
    simp [ih]

def sortDedup (values : List α) : List α := dedupRuns (values.insertionSort (· ≤ ·))

@[simp] theorem mem_sortDedup {values : List α} {value : α} : value ∈ sortDedup values ↔ value ∈ values := by
  rw [sortDedup, mem_dedupRuns, List.mem_insertionSort]

theorem sortDedup_pairwise (values : List α) : (sortDedup values).Pairwise (· < ·) :=
  dedupRuns_pairwise (List.pairwise_insertionSort (· ≤ ·) values)

theorem eq_of_pairwise_lt {values others : List α} (increasing : values.Pairwise (· < ·))
    (increasing' : others.Pairwise (· < ·)) (same : ∀ value, value ∈ values ↔ value ∈ others) :
    values = others := by
  have perm : values.Perm others :=
    (List.perm_ext_iff_of_nodup (increasing.imp ne_of_lt) (increasing'.imp ne_of_lt)).2 same
  exact perm.eq_of_pairwise (fun a b _ _ before behind => absurd (before.trans behind) (lt_irrefl a))
    increasing increasing'

end

structure ListsSet {α : Type*} [LinearOrder α] (values members : List α) : Prop where
  increasing : values.Pairwise (· < ·)
  same : ∀ value, value ∈ values ↔ value ∈ members

namespace ListsSet
variable {α : Type*} [LinearOrder α] {values members : List α}

theorem nil : ListsSet ([] : List α) [] := ⟨.nil, fun _ => Iff.rfl⟩

theorem insert (lists : ListsSet values members) (value : α) :
    ListsSet (sortDedup (value :: values)) (members ++ [value]) := by
  refine ⟨sortDedup_pairwise _, fun other => ?_⟩
  rw [mem_sortDedup, List.mem_cons, List.mem_append, List.mem_singleton, lists.same, or_comm]

theorem length_eq {same : DecidableEq α} (lists : ListsSet values members) :
    values.length = (@List.toFinset α same members).card := by
  have nodup : values.Nodup := lists.increasing.imp ne_of_lt
  have counted := @List.toFinset_card_of_nodup α same values nodup
  rw [← counted]
  congr 1
  ext value
  rw [List.mem_toFinset, List.mem_toFinset, lists.same]

theorem eq_nil_iff (lists : ListsSet values members) : values = [] ↔ members = [] := by
  simp only [List.eq_nil_iff_forall_not_mem, lists.same]

theorem sortDedup_eq (lists : ListsSet values members) : sortDedup values = values :=
  eq_of_pairwise_lt (sortDedup_pairwise _) lists.increasing fun _ => mem_sortDedup

end ListsSet

theorem exists_map_eq {α β : Type*} {f : α → β} {P : α → Prop} {images : List β}
    (each : ∀ image ∈ images, ∃ value, P value ∧ f value = image) :
    ∃ values : List α, (∀ value ∈ values, P value) ∧ values.map f = images := by
  induction images with
  | nil => exact ⟨[], by simp, rfl⟩
  | cons image images ih =>
    obtain ⟨value, fits, rfl⟩ := each image (by simp)
    obtain ⟨values, all, rfl⟩ := ih fun image member => each image (by simp [member])
    exact ⟨value :: values, by simpa using ⟨fits, all⟩, rfl⟩

end Resolved.Lib
