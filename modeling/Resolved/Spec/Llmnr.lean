import Resolved.Lib.Transition
import Resolved.Llmnr.Engine
import Resolved.Spec.Rdata

/-!
# LLMNR

Calls of the engine and answers to a query.
-/

/-! ## Calls of the LLMNR engine that wait for each other -/

namespace Resolved.Spec
open Lib Llmnr

variable {n : Nat}

def EngineStarts (s : EngineState n) : Prop := ∀ thread, ∃ call, s.phases thread = .start call

def EngineDeadlock (s : EngineState n) : Prop :=
  Deadlock s.uses fun thread => (s.phases thread).unfinished = true

instance (s : EngineState n) : Decidable (EngineDeadlock s) :=
  inferInstanceAs (Decidable (Deadlock _ _))

def readsAgain : Phase → Bool
  | .checks _ _ rest => !rest.isEmpty
  | .responseOwns .. => true
  | .responseOwning _ _ _ rest | .recording _ _ _ rest | .pushing _ _ _ rest => !rest.isEmpty
  | _ => false

def queues : Phase → Bool
  | .start (.setLink _) | .start (.clearLink _) => true
  | _ => false

def QueuesApart (s : EngineState n) (turn : Turn n) : Prop :=
  queues (s.phases turn.thread) = true → ∀ thread, readsAgain (s.phases thread) = false

instance (s : EngineState n) (turn : Turn n) : Decidable (QueuesApart s turn) :=
  inferInstanceAs (Decidable (_ → _))

/-! ## Answers to an LLMNR query -/

open Wire

/-! ### What a response says -/

def addressAt (pkt : Bytes) (fixed : Nat) : Option IpAddr :=
  if u16At pkt fixed = 1 ∧ u16At pkt (fixed + 8) = 4 then some (.v4 (ipv4At pkt (fixed + 10)))
  else if u16At pkt fixed = 28 ∧ u16At pkt (fixed + 8) = 16 then
    some (.v6 (ipv6At pkt (fixed + 10)))
  else none

end Resolved.Spec
