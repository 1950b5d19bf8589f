import Mathlib

/-!
# Pools

Values kept for reuse under a key; the last one put in is the first one taken out.
-/

namespace Resolved.Lib
variable {κ γ : Type}

abbrev Pool (κ γ : Type) := κ → List γ

namespace Pool

def empty : Pool κ γ := fun _ => []

section
variable [DecidableEq κ]

def pop (pool : Pool κ γ) (key : κ) : Option γ × Pool κ γ :=
  ((pool key).getLast?, Function.update pool key (pool key).dropLast)

def push (pool : Pool κ γ) (limit : Nat) (key : κ) (value : γ) : Pool κ γ :=
  if (pool key).length < limit then Function.update pool key (pool key ++ [value]) else pool

def forget (pool : Pool κ γ) (key : κ) : Pool κ γ := Function.update pool key []

end

def Holds (P : κ → γ → Prop) (pool : Pool κ γ) : Prop := ∀ key, ∀ value ∈ pool key, P key value

variable {P Q : κ → γ → Prop} {pool : Pool κ γ} {key : κ} {value : γ}

theorem holds_empty : Holds P (empty : Pool κ γ) := by
  intro key value member
  cases member

theorem Holds.imp (right : Holds P pool) (implies : ∀ key, ∀ value ∈ pool key, P key value → Q key value) :
    Holds Q pool :=
  fun key value member => implies key value member (right key value member)

variable [DecidableEq κ]

theorem Holds.update (right : Holds P pool) {values : List γ} (here : ∀ value ∈ values, P key value) : Holds P (Function.update pool key values) := by
  intro other value member
  by_cases same : other = key
  · subst same
    rw [Function.update_self] at member
    exact here value member
  · rw [Function.update_of_ne same] at member
    exact right other value member

theorem Holds.popped (right : Holds P pool) (out : (pool.pop key).1 = some value) : P key value :=
  right key value (List.mem_of_getLast? out)

theorem Holds.pop (right : Holds P pool) : Holds P (pool.pop key).2 :=
  right.update fun value member => right key value (List.mem_of_mem_dropLast member)

theorem Holds.push (right : Holds P pool) (limit : Nat) (new : P key value) :
    Holds P (pool.push limit key value) := by
  unfold Pool.push
  split
  · apply right.update
    intro other member
    rcases List.mem_append.1 member with old | last
    · exact right key other old
    · rw [List.mem_singleton.1 last]
      exact new
  · exact right

theorem Holds.forget (right : Holds P pool) : Holds P (pool.forget key) :=
  right.update (by simp)

end Pool

end Resolved.Lib
