import Mathlib

/-!
# Logs of changes

A set that is known by the additions to it and the removals from it, in order.
-/

namespace Resolved.Lib

inductive Change (α : Type) where
  | added (item : α)
  | removed (item : α)
deriving DecidableEq

section
variable {α : Type} [DecidableEq α]

/-- The set after the changes; there is none if an item is added twice or removed without being
there. -/
def replayFrom : Finset α → List (Change α) → Option (Finset α)
  | items, [] => some items
  | items, .added item :: rest =>
    if item ∈ items then none else replayFrom (insert item items) rest
  | items, .removed item :: rest =>
    if item ∈ items then replayFrom (items.erase item) rest else none

theorem replayFrom_append (items : Finset α) (log more : List (Change α)) :
    replayFrom items (log ++ more) = (replayFrom items log).bind (replayFrom · more) := by
  induction log generalizing items with
  | nil => rfl
  | cons change rest ih =>
    cases change with
    | added item =>
      simp only [List.cons_append, replayFrom]
      split
      · rfl
      · exact ih _
    | removed item =>
      simp only [List.cons_append, replayFrom]
      split
      · exact ih _
      · rfl

/-- The log can be replayed from the empty set and leads to the items with a property. -/
def Mirrors (log : List (Change α)) (holds : α → Prop) : Prop :=
  ∃ items, replayFrom ∅ log = some items ∧ ∀ item, item ∈ items ↔ holds item

variable {log : List (Change α)} {holds : α → Prop}

theorem Mirrors.congr {holds' : α → Prop} (mirrors : Mirrors log holds)
    (same : ∀ item, holds item ↔ holds' item) : Mirrors log holds' := by
  obtain ⟨items, replayed, members⟩ := mirrors
  exact ⟨items, replayed, fun item => (members item).trans (same item)⟩

theorem Mirrors.add {item : α} (mirrors : Mirrors log holds) (absent : ¬ holds item) :
    Mirrors (log ++ [.added item]) fun other => other = item ∨ holds other := by
  obtain ⟨items, replayed, members⟩ := mirrors
  refine ⟨insert item items, ?_, fun other => ?_⟩
  · rw [replayFrom_append, replayed, Option.bind_some, replayFrom,
      if_neg fun member => absent ((members item).1 member), replayFrom]
  · rw [Finset.mem_insert, members]

theorem Mirrors.remove {item : α} (mirrors : Mirrors log holds) (present : holds item) :
    Mirrors (log ++ [.removed item]) fun other => other ≠ item ∧ holds other := by
  obtain ⟨items, replayed, members⟩ := mirrors
  refine ⟨items.erase item, ?_, fun other => ?_⟩
  · rw [replayFrom_append, replayed, Option.bind_some, replayFrom, if_pos ((members item).2 present), replayFrom]
  · rw [Finset.mem_erase, members]

theorem mirrors_additions {items : List α} (distinct : items.Nodup) : Mirrors (items.map .added) (· ∈ items) := by
  induction items using List.reverseRecOn with
  | nil => exact ⟨∅, rfl, by simp⟩
  | append_singleton front item ih =>
    rw [List.nodup_append] at distinct
    obtain ⟨frontDistinct, -, apart⟩ := distinct
    have absent : item ∉ front := fun member => apart item member item (by simp) rfl
    rw [List.map_append, List.map_singleton]
    apply ((ih frontDistinct).add absent).congr
    intro other
    rw [List.mem_append, List.mem_singleton, or_comm]

end

end Resolved.Lib
