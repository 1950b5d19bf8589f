import Mathlib

/-!
# Loops that take turns

A loop whose body looks at its state and at the turn it is in, leaves a list of events behind, and
either goes round again or ends with a result. The number of turns is bounded by fuel.
-/

namespace Resolved.Lib

inductive Verdict (σ ρ : Type) where
  | again (state : σ)
  | done (result : ρ)

variable {σ ε ρ : Type}

def runTurns (turn : Nat → σ → List ε × Verdict σ ρ) (exhausted : σ → ρ) :
    Nat → Nat → σ → List ε × ρ
  | 0, _, state => ([], exhausted state)
  | fuel + 1, index, state =>
    match turn index state with
    | (events, .done result) => (events, result)
    | (events, .again state) =>
      let (later, result) := runTurns turn exhausted fuel (index + 1) state
      (events ++ later, result)

section
variable {turn : Nat → σ → List ε × Verdict σ ρ} {exhausted : σ → ρ}

theorem runTurns_done {fuel index : Nat} {state : σ} {events : List ε} {result : ρ}
    (h : turn index state = (events, .done result)) :
    runTurns turn exhausted (fuel + 1) index state = (events, result) := by
  simp [runTurns, h]

theorem runTurns_again {fuel index : Nat} {state state' : σ} {events : List ε}
    (h : turn index state = (events, .again state')) :
    runTurns turn exhausted (fuel + 1) index state = (events ++ (runTurns turn exhausted fuel (index + 1) state').1,
        (runTurns turn exhausted fuel (index + 1) state').2) := by
  simp [runTurns, h]

theorem runTurns_holds (Inv : σ → Prop) (Good : List ε → ρ → Prop)
    (out : ∀ state, Inv state → Good [] (exhausted state))
    (last : ∀ index state events result, Inv state →
      turn index state = (events, .done result) → Good events result)
    (next : ∀ index state events state', Inv state → turn index state = (events, .again state') →
      Inv state' ∧ ∀ later result, Good later result → Good (events ++ later) result)
    (fuel index : Nat) (state : σ) (inv : Inv state) :
    Good (runTurns turn exhausted fuel index state).1 (runTurns turn exhausted fuel index state).2 := by
  induction fuel generalizing index state with
  | zero => exact out state inv
  | succ fuel ih =>
    cases h : turn index state with
    | mk events verdict =>
    cases verdict with
    | done result =>
      rw [runTurns_done h]
      exact last index state events result inv h
    | again state' =>
      obtain ⟨inv', front⟩ := next index state events state' inv h
      rw [runTurns_again h]
      exact front _ _ (ih (index + 1) state' inv')

theorem runTurns_ends (left : σ → Nat)
    (uses : ∀ index state events state', turn index state = (events, .again state') → left state' < left state)
    {fuel : Nat} (more index : Nat) {state : σ} (enough : left state < fuel) (stuck : σ → ρ) :
    runTurns turn stuck (fuel + more) index state = runTurns turn exhausted fuel index state := by
  induction fuel generalizing index state with
  | zero => omega
  | succ fuel ih =>
    rw [Nat.add_right_comm]
    cases h : turn index state with
    | mk events verdict =>
    cases verdict with
    | done result => rw [runTurns_done h, runTurns_done h]
    | again state' =>
      have fewer := uses index state events state' h
      rw [runTurns_again h, runTurns_again h, ih (index + 1) (by omega)]

theorem runTurns_pays (p : ε → Bool) (paid : σ → Nat) (total : ρ → Nat)
    (out : ∀ state, paid state ≤ total (exhausted state))
    (last : ∀ index state events result, turn index state = (events, .done result) →
      paid state + events.countP p ≤ total result)
    (next : ∀ index state events state', turn index state = (events, .again state') →
      paid state + events.countP p ≤ paid state')
    (fuel index : Nat) (state : σ) :
    paid state + (runTurns turn exhausted fuel index state).1.countP p ≤
      total (runTurns turn exhausted fuel index state).2 := by
  induction fuel generalizing index state with
  | zero => exact out state
  | succ fuel ih =>
    cases h : turn index state with
    | mk events verdict =>
    cases verdict with
    | done result =>
      rw [runTurns_done h]
      exact last index state events result h
    | again state' =>
      have here := next index state events state' h
      have later := ih (index + 1) state'
      rw [runTurns_again h]
      simp only [List.countP_append]
      omega

theorem runTurns_verdicts {ε' : Type} {turn' : Nat → σ → List ε' × Verdict σ ρ}
    (same : ∀ index state, (turn' index state).2 = (turn index state).2) (fuel index : Nat) (state : σ) :
    (runTurns turn' exhausted fuel index state).2 = (runTurns turn exhausted fuel index state).2 := by
  induction fuel generalizing index state with
  | zero => rfl
  | succ fuel ih =>
    have verdict := same index state
    cases h : turn index state with
    | mk events reached =>
    cases h' : turn' index state with
    | mk events' reached' =>
    rw [h, h'] at verdict
    simp only at verdict
    subst verdict
    cases reached' with
    | done result => rw [runTurns_done h, runTurns_done h']
    | again state' => rw [runTurns_again h, runTurns_again h', ih (index + 1) state']

end

end Resolved.Lib
