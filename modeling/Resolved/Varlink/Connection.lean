import Resolved.Lib.Bytes

/-!
# A Varlink connection

Messages end with a zero octet. How a message is answered is left open; an answer may change the state
of the resolver. Failing reads and writes are left out.
-/

namespace Resolved.Varlink
open Lib

def maxMessageSize : Nat := 1024 * 1024

inductive Closing where
  | endOfStream
  | tooLarge
deriving DecidableEq, Repr

section
variable {σ : Type} (answer : σ → Bytes → Bytes × σ)

/-- The turns of the loop that find a message in `pending`. Each takes an octet at least. -/
def drainMessages : Nat → σ → Bytes → List Bytes × σ × Bytes
  | 0, s, pending => ([], s, pending)
  | turns + 1, s, pending =>
    match pending.findIdx? (· == 0) with
    | none => ([], s, pending)
    | some stop =>
      let (reply, s) := answer s (pending.take stop)
      let (replies, rest) := drainMessages turns s (pending.drop (stop + 1))
      (reply :: replies, rest)

/-- The replies on a connection whose reads return these chunks, from what is pending on. -/
def serveConnection : List Bytes → σ → Bytes → List Bytes × Closing
  | [], s, pending => ((drainMessages answer pending.length s pending).1, .endOfStream)
  | chunk :: chunks, s, pending =>
    let (replies, s, pending) := drainMessages answer pending.length s pending
    if chunk = [] then (replies, .endOfStream)
    else
      let pending := pending ++ chunk
      if maxMessageSize < pending.length then (replies, .tooLarge)
      else
        let (later, closing) := serveConnection chunks s pending
        (replies ++ later, closing)

end

end Resolved.Varlink
