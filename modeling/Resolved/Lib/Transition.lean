import Mathlib

/-!
# Runs of a system

A system takes a step for an action, or refuses it. Which actions may be taken can depend on the
state.
-/

namespace Resolved.Lib
variable {σ α : Type} {step : σ → α → Option σ} {Allowed : σ → α → Prop}

def Reaches (step : σ → α → Option σ) (Allowed : σ → α → Prop) : σ → σ → Prop :=
  Relation.ReflTransGen fun state state' =>
    ∃ action, Allowed state action ∧ step state action = some state'

theorem Reaches.invariant {start state : σ} (run : Reaches step Allowed start state)
    (Inv : σ → Prop) (init : Inv start)
    (kept : ∀ state action state', Inv state → Allowed state action →
      step state action = some state' → Inv state') : Inv state := by
  induction run with
  | refl => exact init
  | tail _ last ih =>
    obtain ⟨action, allowed, stepped⟩ := last
    exact kept _ action _ ih allowed stepped

theorem Reaches.of_actions {start state : σ} (actions : List α)
    (allowed : ∀ state, ∀ action ∈ actions, Allowed state action) (run : actions.foldlM step start = some state) :
    Reaches step Allowed start state := by
  induction actions generalizing start with
  | nil =>
    cases run
    exact .refl
  | cons action rest ih =>
    rw [List.foldlM_cons, Option.bind_eq_bind, Option.bind_eq_some_iff] at run
    obtain ⟨next, stepped, later⟩ := run
    have onward := ih (fun state other member => allowed state other (by simp [member])) later
    exact .head ⟨action, allowed start action (by simp), stepped⟩ onward

theorem Reaches.of_checked [∀ state action, Decidable (Allowed state action)] {start state : σ}
    (actions : List α) (run : actions.foldlM (fun state action =>
      if Allowed state action then step state action else none) start = some state) :
    Reaches step Allowed start state := by
  induction actions generalizing start with
  | nil =>
    cases run
    exact .refl
  | cons action rest ih =>
    rw [List.foldlM_cons, Option.bind_eq_bind, Option.bind_eq_some_iff] at run
    obtain ⟨next, stepped, later⟩ := run
    split at stepped
    · rename_i allowed
      exact .head ⟨action, allowed, stepped⟩ (ih later)
    · cases stepped

def Visits (step : σ → α → Option σ) (start : σ) (actions : List α) (state : σ) : Prop :=
  ∃ earlier later, actions = earlier ++ later ∧ earlier.foldlM step start = some state

theorem Visits.invariant {start state : σ} {actions : List α}
    (visited : Visits step start actions state) (Inv : σ → Prop) (init : Inv start)
    (kept : ∀ earlier action later state state', actions = earlier ++ action :: later →
      earlier.foldlM step start = some state → Inv state → step state action = some state' →
      Inv state') : Inv state := by
  obtain ⟨earlier, later, parts, run⟩ := visited
  induction earlier using List.reverseRecOn generalizing later state with
  | nil =>
    cases run
    exact init
  | append_singleton earlier action ih =>
    rw [List.foldlM_append, Option.bind_eq_bind, Option.bind_eq_some_iff] at run
    obtain ⟨before, reached, last⟩ := run
    rw [List.append_assoc] at parts
    have stepped : step before action = some state := by simpa using last
    exact kept earlier action later before state parts reached
      (ih (action :: later) parts reached) stepped

theorem Visits.next {start state state' : σ} {earlier later : List α} {action : α}
    (run : earlier.foldlM step start = some state) (stepped : step state action = some state') :
    Visits step start (earlier ++ action :: later) state' := by
  refine ⟨earlier ++ [action], later, by simp, ?_⟩
  rw [List.foldlM_append, Option.bind_eq_bind, Option.bind_eq_some_iff]
  exact ⟨state, run, by simpa using stepped⟩

end Resolved.Lib
