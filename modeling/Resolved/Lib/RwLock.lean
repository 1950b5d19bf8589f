import Mathlib

/-!
# Locks for readers and writers

A request to read waits while a writer holds the lock or is queued for it, also when the lock is held
by the one who asks. A request to write waits while anyone holds it.
-/

namespace Resolved.Lib

inductive Access where
  | read
  | write
deriving DecidableEq, Repr

/-- The locks that a thread holds, and the one it asks for. -/
structure LockUse (κ : Type) where
  held : List (κ × Access)
  wanted : Option (κ × Access)
deriving DecidableEq

section
variable {κ ι : Type}

def LockUse.Hinders (other : LockUse κ) (lock : κ) : Access → Prop
  | .read => (lock, .write) ∈ other.held ∨ other.wanted = some (lock, .write)
  | .write => (lock, .read) ∈ other.held ∨ (lock, .write) ∈ other.held

instance [DecidableEq κ] (other : LockUse κ) (lock : κ) :
    (access : Access) → Decidable (other.Hinders lock access)
  | .read => inferInstanceAs (Decidable (_ ∨ _))
  | .write => inferInstanceAs (Decidable (_ ∨ _))

def Grantable (uses : ι → LockUse κ) (lock : κ) (access : Access) : Prop :=
  ∀ thread, ¬(uses thread).Hinders lock access

instance [DecidableEq κ] [Fintype ι] (uses : ι → LockUse κ) (lock : κ) (access : Access) :
    Decidable (Grantable uses lock access) := inferInstanceAs (Decidable (∀ _, _))

/-- The thread asks for a lock that it cannot have. -/
def Blocked (uses : ι → LockUse κ) (thread : ι) : Prop :=
  ∃ lock access, (uses thread).wanted = some (lock, access) ∧ ¬Grantable uses lock access

instance [DecidableEq κ] [Fintype ι] (uses : ι → LockUse κ) (thread : ι) :
    Decidable (Blocked uses thread) :=
  match wanted : (uses thread).wanted with
  | none => isFalse (by simp [Blocked, wanted])
  | some (lock, access) => decidable_of_iff (¬Grantable uses lock access) (by simp [Blocked, wanted])

/-- Every thread that has something left to do waits for a lock. -/
def Deadlock (uses : ι → LockUse κ) (unfinished : ι → Prop) : Prop :=
  (∃ thread, unfinished thread) ∧ ∀ thread, unfinished thread → Blocked uses thread

instance [DecidableEq κ] [Fintype ι] (uses : ι → LockUse κ) (unfinished : ι → Prop)
    [DecidablePred unfinished] : Decidable (Deadlock uses unfinished) :=
  inferInstanceAs (Decidable (_ ∧ _))

theorem LockUse.Hinders.uses {other : LockUse κ} {lock : κ} {access : Access}
    (hinders : other.Hinders lock access) : other.held ≠ [] ∨ other.wanted ≠ none := by
  cases access with
  | read =>
    rcases hinders with held | wanted
    · exact .inl (List.ne_nil_of_mem held)
    · exact .inr (by simp [wanted])
  | write =>
    rcases hinders with held | held
    · exact .inl (List.ne_nil_of_mem held)
    · exact .inl (List.ne_nil_of_mem held)

theorem not_deadlock {uses : ι → LockUse κ} {unfinished : ι → Prop}
    (busy : ∀ thread, (uses thread).held ≠ [] ∨ (uses thread).wanted ≠ none → unfinished thread)
    (rank : ι → Nat)
    (below : ∀ thread other lock access, (uses thread).wanted = some (lock, access) →
      (uses other).Hinders lock access → (uses other).wanted ≠ none → rank other < rank thread) :
    ¬Deadlock uses unfinished := by
  rintro ⟨⟨thread, left⟩, blocked⟩
  induction rankOf : rank thread using Nat.strong_induction_on generalizing thread with
  | _ _ ih =>
    obtain ⟨lock, access, wanted, refused⟩ := blocked thread left
    obtain ⟨other, hinders⟩ := not_forall_not.mp refused
    have left' := busy other hinders.uses
    obtain ⟨_, _, wanted', -⟩ := blocked other left'
    have lower := below thread other lock access wanted hinders (by simp [wanted'])
    exact ih (rank other) (rankOf ▸ lower) other left' rfl

end

end Resolved.Lib
