import Resolved.Proof.Wire.NameIn
import Resolved.Spec.Llmnr

/-!
# Addresses from LLMNR responses
-/

namespace Resolved.Proof.Llmnr
open Lib Resolved.Llmnr Spec

section
variable {pkt : Bytes} {i pointers stop : Nat} {labels : Labels} {records : List (Labels × Nat)}

end

section
variable {id : Nat} {records : Bytes × SocketAddr → List (Labels × Nat)}
  {received : List (Bytes × SocketAddr)}

def takenFrom (records : List (Labels × Nat)) (pkt : Bytes) (number : Nat) :
    List ((Nat × Nat) × IpAddr) :=
  records.zipIdx.filterMap fun (record, index) =>
    (addressAt pkt record.2).map fun address => ((number, index), address)

/-- What is taken from the datagrams, each address with the numbers of its datagram and record. -/
def taken (id : Nat) (records : Bytes × SocketAddr → List (Labels × Nat))
    (received : List (Bytes × SocketAddr)) : List ((Nat × Nat) × IpAddr) :=
  received.zipIdx.flatMap fun (datagram, number) =>
    if isReply id datagram.1 then takenFrom (records datagram) datagram.1 number else []

end

theorem foldlM_pushLabel {labels : List Str} {output : Bytes} :
    (∃ result, labels.foldlM pushLabel output = some result) ↔
      ∀ label ∈ labels.map utf8, 0 < label.length ∧ label.length ≤ 63 := by
  induction labels generalizing output with
  | nil => simp
  | cons label labels ih =>
    rw [List.foldlM_cons, List.map_cons, List.forall_mem_cons, pushLabel]
    split
    · rename_i refused
      have size : ¬(0 < (utf8 label).length ∧ (utf8 label).length ≤ 63) := by omega
      simp [size]
    · rename_i accepted
      have size : 0 < (utf8 label).length ∧ (utf8 label).length ≤ 63 := by omega
      rw [and_iff_right size, ← @ih (output ++ UInt8.ofNat (utf8 label).length :: utf8 label)]
      rfl

end Resolved.Proof.Llmnr
