import Resolved.Exchange.Query
import Resolved.Lib.Transition

/-!
# Callers of shared transactions

Any number of callers begin transactions, lead or follow them, and finish or wait. The critical
sections of different callers interleave in any order. What happened is written down.
-/

namespace Resolved.Spec
open Lib Wire Exchange

inductive CallerPhase where
  | idle
  | leading (key : InflightKey) (entry : EntryId)
  | finishing (key : InflightKey) (entry : EntryId)
  | following (key : InflightKey) (entry : EntryId)
deriving DecidableEq

inductive InflightEvent where
  | led (caller : Nat) (key : InflightKey) (entry : EntryId)
  | joined (caller : Nat) (key : InflightKey) (entry : EntryId)
  | published (caller : Nat) (entry : EntryId) (response : Option Packet)
  | finished (caller : Nat) (entry : EntryId)
  | returned (caller : Nat) (entry : EntryId) (response : Option Packet)
deriving DecidableEq

inductive CallerAction where
  | begin (caller : Nat) (key : InflightKey)
  | complete (caller : Nat) (response : Option Packet)
  | drop (caller : Nat)
  | unregister (caller : Nat)
  | wait (caller : Nat)

def CallerAction.Finishes (caller : Nat) : CallerAction → Prop
  | complete finisher _ | drop finisher | unregister finisher => finisher = caller
  | begin .. | wait _ => False

structure Callers where
  inflight : Inflight
  phases : Nat → CallerPhase
  history : List InflightEvent

namespace Callers

def start : Callers := ⟨.new, fun _ => .idle, []⟩

variable (state : Callers)

def moved (caller : Nat) (inflight : Inflight) (phase : CallerPhase) (event : InflightEvent) :
    Callers :=
  ⟨inflight, Function.update state.phases caller phase, event :: state.history⟩

def publish (caller : Nat) (response : Option Packet) : Option Callers :=
  match state.phases caller with
  | .leading key entry => some (state.moved caller (state.inflight.publish entry response)
    (.finishing key entry) (.published caller entry response))
  | _ => none

def step (state : Callers) : CallerAction → Option Callers
  | .begin caller key =>
    if state.phases caller ≠ .idle then none
    else match state.inflight.begin key with
      | (.leader entry, inflight) =>
        some (state.moved caller inflight (.leading key entry) (.led caller key entry))
      | (.follower entry, inflight) =>
        some (state.moved caller inflight (.following key entry) (.joined caller key entry))
  | .complete caller response => state.publish caller response
  | .drop caller => state.publish caller none
  | .unregister caller =>
    match state.phases caller with
    | .finishing key entry => some (state.moved caller (state.inflight.unregister key entry) .idle
      (.finished caller entry))
    | _ => none
  | .wait caller =>
    match state.phases caller with
    | .following _ entry => do
      let response ← state.inflight.wait entry
      return state.moved caller state.inflight .idle (.returned caller entry response)
    | _ => none

def Reachable (state : Callers) : Prop := Reaches step (fun _ _ => True) start state

def Active (caller : Nat) (key : InflightKey) (entry : EntryId) : Prop :=
  state.phases caller = .leading key entry ∨ state.phases caller = .finishing key entry

structure Safe : Prop where
  one_leader : ∀ caller other key entry entry', state.Active caller key entry →
    state.Active other key entry' → caller = other
  same_response : ∀ caller entry response, .returned caller entry response ∈ state.history →
    ∃ leader key, .joined caller key entry ∈ state.history ∧ .led leader key entry ∈ state.history ∧
      .published leader entry response ∈ state.history ∧
      ∀ other given, .published other entry given ∈ state.history → other = leader ∧ given = response
  unreachable : ∀ caller entry, .finished caller entry ∈ state.history →
    (state.inflight.states entry).running = false ∧ (∀ key, state.inflight.entries key ≠ some entry) ∧
      ∀ key, (state.inflight.begin key).1 ≠ .follower entry
  keeps_others : ∀ caller key entry action state', state.Active caller key entry →
    action.Finishes caller → state.step action = some state' →
      ∀ other current, current ≠ entry → state.inflight.entries other = some current →
        state'.inflight.entries other = some current

end Callers

end Resolved.Spec
