import Mathlib

/-!
# Stores that lose entries

And the orders in which a hash map may be walked.
-/

namespace Resolved.Lib

/-- An order in which a hash map may be walked. -/
structure WalkOrder (κ : Type) where
  arrange : List κ → List κ
  perm : ∀ keys, (arrange keys).Perm keys

def WalkOrder.asListed {κ : Type} : WalkOrder κ := ⟨id, fun _ => .refl _⟩

theorem WalkOrder.mem_arrange {κ : Type} (order : WalkOrder κ) {keys : List κ} {key : κ} :
    key ∈ order.arrange keys ↔ key ∈ keys :=
  (order.perm keys).mem_iff

/-!
## Lossy stores

A store that may forget what it was given at any time, and otherwise shows for a key what was
written to it last. `R value seen` says that the store may show `seen` for a written `value`.
-/

inductive StoreEvent (κ ν : Type) where
  | write (key : κ) (value : ν)
  | clear
deriving DecidableEq

/-- The value last written to a key since the store was last cleared. -/
def latest {κ ν : Type} [DecidableEq κ] (events : List (StoreEvent κ ν)) (key : κ) : Option ν :=
  events.foldl (fun found event =>
    match event with
    | .write key' value => if key' = key then some value else found
    | .clear => none) none

section
variable {κ ν : Type} [DecidableEq κ]

@[simp] theorem latest_nil (key : κ) : latest ([] : List (StoreEvent κ ν)) key = none := rfl

@[simp] theorem latest_concat_write (events : List (StoreEvent κ ν)) (key key' : κ) (value : ν) :
    latest (events ++ [.write key' value]) key = if key' = key then some value else latest events key := by
  simp [latest]

@[simp] theorem latest_concat_clear (events : List (StoreEvent κ ν)) (key : κ) :
    latest (events ++ [.clear]) key = none := by
  simp [latest]

end

/-- The event as a store with fewer keys sees it; the full key stays with the value. -/
def StoreEvent.coarsen {κ κ' ν : Type} (f : κ → κ') : StoreEvent κ ν → StoreEvent κ' (κ × ν)
  | .write key value => .write (f key) (key, value)
  | .clear => .clear

theorem latest_of_coarsen {κ κ' ν : Type} [DecidableEq κ] [DecidableEq κ'] (f : κ → κ')
    (events : List (StoreEvent κ ν)) (key : κ) (value : ν)
    (h : latest (events.map (.coarsen f)) (f key) = some (key, value)) : latest events key = some value := by
  induction events using List.reverseRecOn with
  | nil => simp at h
  | append_singleton events event ih =>
    rw [List.map_append, List.map_singleton] at h
    cases event with
    | clear => simp [StoreEvent.coarsen] at h
    | write key' value' =>
      simp only [StoreEvent.coarsen, latest_concat_write] at h ⊢
      by_cases same : key' = key
      · subst same
        simpa using h
      · rw [if_neg same]
        split at h
        · simp [same] at h
        · exact ih h

section
variable {κ ν μ : Type} (R : ν → μ → Prop)

/-- What an event may leave visible in a store that showed `view` before it. -/
inductive StillVisible (view : κ → Option μ) : StoreEvent κ ν → κ → μ → Prop where
  | written (key : κ) (value : ν) (seen : μ) (stored : R value seen) :
      StillVisible view (.write key value) key seen
  | kept {key key' : κ} {seen : μ} (value : ν) (other : key' ≠ key)
      (old : view key = some seen) : StillVisible view (.write key' value) key seen

/-- A step of a lossy store: whatever is visible after it was written by it, or was visible before
and is not overwritten. -/
def LossyStep (view : κ → Option μ) (event : StoreEvent κ ν) (view' : κ → Option μ) : Prop :=
  ∀ key seen, view' key = some seen → StillVisible R view event key seen

/-- Everything the store shows is the latest value under its key. -/
def ShowsLatest [DecidableEq κ] (view : κ → Option μ) (events : List (StoreEvent κ ν)) : Prop :=
  ∀ key seen, view key = some seen → ∃ value, latest events key = some value ∧ R value seen

variable {R}

theorem ShowsLatest.step [DecidableEq κ] {view view' : κ → Option μ} {events : List (StoreEvent κ ν)}
    {event : StoreEvent κ ν} (shows : ShowsLatest R view events) (lossy : LossyStep R view event view') :
    ShowsLatest R view' (events ++ [event]) := by
  intro key seen visible
  cases lossy key seen visible with
  | written _ value _ stored => exact ⟨value, by simp, stored⟩
  | kept value other old =>
    obtain ⟨value', written, stored⟩ := shows key seen old
    exact ⟨value', by simp [other, written], stored⟩

end

end Resolved.Lib
