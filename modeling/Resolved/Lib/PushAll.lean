import Mathlib

/-!
# Pushing without repetition
-/

namespace Resolved.Lib

def pushAll {α : Type} [DecidableEq α] (output found : List α) : List α :=
  found.foldl (fun output value => if value ∈ output then output else output ++ [value]) output

section
variable {α : Type} [DecidableEq α] {output found : List α}

theorem mem_pushAll {value : α} : value ∈ pushAll output found ↔ value ∈ output ∨ value ∈ found := by
  induction found generalizing output with
  | nil => simp [pushAll]
  | cons next rest ih =>
    have later := @ih (if next ∈ output then output else output ++ [next])
    rw [pushAll, List.foldl_cons]
    refine later.trans ?_
    split
    · rename_i present
      rw [List.mem_cons]
      constructor
      · rintro (old | new)
        · exact .inl old
        · exact .inr (.inr new)
      · rintro (old | rfl | new)
        · exact .inl old
        · exact .inl present
        · exact .inr new
    · simp [or_assoc]

theorem pushAll_nodup (nodup : output.Nodup) : (pushAll output found).Nodup := by
  induction found generalizing output with
  | nil => exact nodup
  | cons next rest ih =>
    rw [pushAll, List.foldl_cons]
    apply ih
    split
    · exact nodup
    · rename_i absent
      exact List.nodup_append.2 ⟨nodup, List.nodup_singleton next, by
        rintro value member _ same rfl
        exact absent (List.mem_singleton.1 same ▸ member)⟩

theorem pushAll_eq_append (fresh : ∀ value ∈ found, value ∉ output) (nodup : found.Nodup) :
    pushAll output found = output ++ found := by
  induction found generalizing output with
  | nil => simp [pushAll]
  | cons next rest ih =>
    rw [List.nodup_cons] at nodup
    have step : pushAll output (next :: rest) = pushAll (output ++ [next]) rest := by
      rw [pushAll, List.foldl_cons, if_neg (fresh next (by simp)), pushAll]
    rw [step, ih _ nodup.2, List.append_assoc, List.singleton_append]
    intro value member
    rw [List.mem_append, List.mem_singleton, not_or]
    exact ⟨fresh value (by simp [member]), fun same => nodup.1 (same ▸ member)⟩

theorem pushAll_concat (value : α) :
    pushAll output (found ++ [value]) = if value ∈ pushAll output found then pushAll output found
      else pushAll output found ++ [value] := by
  rw [pushAll, List.foldl_append]
  rfl

theorem pushAll_eq_eraseDups [BEq α] [LawfulBEq α] :
    pushAll output found = output ++ (found.filter (· ∉ output)).eraseDups := by
  induction found generalizing output with
  | nil => simp [pushAll]
  | cons next rest ih =>
    rw [pushAll, List.foldl_cons]
    refine ih.trans ?_
    by_cases present : next ∈ output
    · simp [present]
    · rw [if_neg present, List.filter_cons_of_pos (by simpa using present), List.eraseDups_cons,
        List.append_assoc, List.singleton_append, List.filter_filter]
      congr 3
      apply List.filter_congr
      intro value _
      rw [Bool.eq_iff_iff]
      simp [and_comm]

theorem pushAll_length (nodup : output.Nodup) {value : α} (member : value ∈ found) (absent : value ∉ output) :
    (pushAll output found).length ≠ output.length := by
  intro same
  have whole : output.toFinset = (pushAll output found).toFinset := by
    apply Finset.eq_of_subset_of_card_le
    · intro old here
      rw [List.mem_toFinset] at here ⊢
      exact mem_pushAll.2 (.inl here)
    · rw [List.toFinset_card_of_nodup nodup, List.toFinset_card_of_nodup (pushAll_nodup nodup), same]
  have here : value ∈ output.toFinset := by
    rw [whole, List.mem_toFinset]
    exact mem_pushAll.2 (.inr member)
  exact absent (List.mem_toFinset.1 here)

def pushUpTo (limit : Nat) (output found : List α) : List α :=
  found.foldl (fun output value =>
    if value ∈ output ∨ limit ≤ output.length then output else output ++ [value]) output

theorem pushUpTo_full {limit : Nat} (full : limit ≤ output.length) : pushUpTo limit output found = output := by
  induction found with
  | nil => rfl
  | cons next rest ih =>
    rw [pushUpTo, List.foldl_cons, if_pos (.inr full)]
    exact ih

theorem pushUpTo_ne_nil {limit : Nat} (some : output ≠ []) : pushUpTo limit output found ≠ [] := by
  induction found generalizing output with
  | nil => exact some
  | cons next rest ih =>
    rw [pushUpTo, List.foldl_cons]
    apply ih
    split
    · exact some
    · simp

theorem pushUpTo_eq_take {limit : Nat} (room : output.length ≤ limit) :
    pushUpTo limit output found = (pushAll output found).take limit := by
  induction found generalizing output with
  | nil => exact (List.take_of_length_le room).symm
  | cons next rest ih =>
    by_cases present : next ∈ output
    · rw [pushUpTo, pushAll, List.foldl_cons, List.foldl_cons, if_pos (.inl present), if_pos present]
      exact ih room
    · rcases Nat.lt_or_ge output.length limit with less | full
      · rw [pushUpTo, pushAll, List.foldl_cons, List.foldl_cons, if_neg (by simp [present, less]), if_neg present]
        exact ih (by simpa using less)
      · -- What is pushed once the output is full stands behind what is taken.
        rw [pushUpTo_full full, pushAll_eq_eraseDups, List.take_left' (le_antisymm room full)]

end

end Resolved.Lib
