import Resolved.Wire.Codec

/-!
# Names

Domain names as label sequences, and where a reader finds them in a packet.
-/

/-! ## Domain names -/

namespace Resolved.Spec
open Lib Wire

abbrev Labels := List Bytes

def lowered (labels : Labels) : Labels := labels.map (·.map asciiLower)

def wireOf (labels : Labels) : Bytes :=
  (labels.flatMap fun label => UInt8.ofNat label.length :: label) ++ [0]

def nameWith (labels : Labels) : DnsName :=
  ⟨nameText (labels.map displayLabel), wireOf (lowered labels)⟩

structure LegalName (labels : Labels) : Prop where
  sizes : ∀ label ∈ labels, 0 < label.length ∧ label.length ≤ 63
  total : (wireOf labels).length ≤ 255

structure NameOf (wire : Bytes) (labels : Labels) : Prop where
  wire : wire = wireOf labels
  sizes : ∀ label ∈ labels, 0 < label.length ∧ label.length ≤ 63

inductive NameAt (packet : Packet) : Nat → Labels → Prop
  | root {offset : Nat} (zero : packet[offset]? = some 0) : NameAt packet offset []
  | pointer {offset : Nat} {first second : UInt8} {labels : Labels}
      (byte : packet[offset]? = some first) (tag : first &&& 0xc0 = 0xc0)
      (byte' : packet[offset + 1]? = some second)
      (rest : NameAt packet (pointerTarget first second) labels) : NameAt packet offset labels
  | label {offset : Nat} {length : UInt8} {label : Bytes} {labels : Labels}
      (byte : packet[offset]? = some length) (nonzero : length ≠ 0) (plain : length &&& 0xc0 = 0)
      (part : slice packet (offset + 1) (offset + 1 + length.toNat) = some label)
      (rest : NameAt packet (offset + 1 + length.toNat) labels) :
      NameAt packet offset (label :: labels)

def ShowsItself (byte : UInt8) : Prop :=
  (65 ≤ byte.toNat ∧ byte.toNat ≤ 90) ∨ (97 ≤ byte.toNat ∧ byte.toNat ≤ 122) ∨
    (48 ≤ byte.toNat ∧ byte.toNat ≤ 57) ∨ byte.toNat = 45 ∨ byte.toNat = 95

instance (byte : UInt8) : Decidable (ShowsItself byte) :=
  inferInstanceAs (Decidable (_ ∨ _))

def turnReads (packet : Packet) (s : NameCursor) : List Nat :=
  match packet[s.cursor]? with
  | none => [s.cursor]
  | some length =>
    if length &&& 0xc0 = 0xc0 then [s.cursor, s.cursor + 1]
    else List.range' s.cursor (length.toNat + 1)

def jumpedReads (packet : Packet) : Nat → NameCursor → List Nat
  | 0, _ => []
  | fuel + 1, s =>
    (if s.jumped then turnReads packet s else []) ++
      match nameStep packet s with
      | .ok (.more next) => jumpedReads packet fuel next
      | _ => []

def nameReads (packet : Packet) (offset : Nat) : List Nat :=
  jumpedReads packet nameFuel (nameStart offset)

def SameBody (packet other : Packet) : Prop :=
  ∀ i, dnsHeaderLen ≤ i → other[i]? = packet[i]?

end Resolved.Spec
