import Resolved.Spec.Names

/-!
# Packets of the concurrent resolver

Names are kept in wire format, uncompressed and in lower case. A packet is looked at in place.
-/

namespace Resolved.Hyper
open Lib Wire Spec

def dnsMaxUdp : Nat := 1232
def dnsMaxName : Nat := 255
def dnsMaxLabel : Nat := 63
def dnsMaxCnameDepth : Nat := 16
def dnsMaxCompressionHops : Nat := 128

def rcodeNoerror : Nat := 0
def rcodeNxdomain : Nat := 3

inductive DnssecMode where
  | no
  | allowDowngrade
  | yes
deriving DecidableEq, Repr

inductive DnssecState where
  | secure
  | insecure
  | bogus
  | indeterminate
deriving DecidableEq, Repr

inductive HyperError where
  | wire (message : String)
  | name (message : String)
  | timeout (duration : Nat)
  | allUpstreamsFailed
  | dnssecBogus
  | cnameLoop
  | cnameDepth
  | arenaExhausted
  | txidMismatch
  | cancelled
deriving DecidableEq, Repr

abbrev HResult := Except HyperError

structure NameKey where
  wire : Bytes
  named : ∃ labels, LegalName labels ∧ wire = wireOf (lowered labels)
deriving DecidableEq

theorem root_named : ∃ labels, LegalName labels ∧ [0] = wireOf (lowered labels) :=
  ⟨[], ⟨by simp, by simp [wireOf]⟩, rfl⟩

def labelsWire (labels : Labels) : Bytes :=
  labels.flatMap fun label => UInt8.ofNat label.length :: label

theorem wireOf_eq (labels : Labels) : wireOf labels = labelsWire labels ++ [0] := rfl

theorem labelsWire_concat (labels : Labels) (label : Bytes) :
    labelsWire (labels ++ [label]) = labelsWire labels ++ UInt8.ofNat label.length :: label := by
  simp [labelsWire]

theorem labelsWire_lowered_length (labels : Labels) :
    (labelsWire (lowered labels)).length = (labelsWire labels).length := by
  induction labels with
  | nil => rfl
  | cons label rest ih =>
    simp only [labelsWire, lowered, List.map_cons, List.flatMap_cons, List.length_append,
      List.length_cons, List.length_map] at ih ⊢
    omega

/-- The loop of `decompress_name`; `returnOff` is the offset behind the first pointer. -/
def decompressLoop (msg : Bytes) :
    Nat → Bytes → Nat → Option Nat → List Nat → HResult (Bytes × Nat)
  | hops, out, o, returnOff, seen =>
    match msg[o]? with
    | none => .error (.wire "name oob")
    | some lab =>
      match hops with
      | 0 => .error (.wire "name hops")
      | hops + 1 =>
        -- the bit set holds the offsets below 65536
        if o < 65536 ∧ o ∈ seen then .error (.wire "name cycle")
        else
          let seen := if o < 65536 then o :: seen else seen
          if lab = 0 then
            if (out ++ [0]).length > dnsMaxName then .error (.wire "name too long")
            else .ok (out ++ [0], returnOff.getD (o + 1))
          else if lab &&& 0xc0 = 0xc0 then
            match msg[o + 1]? with
            | none => .error (.wire "ptr oob")
            | some low =>
              let ptr := pointerTarget lab low
              if ptr ≥ msg.length then .error (.wire "ptr target")
              else decompressLoop msg hops out ptr (some (returnOff.getD (o + 2))) seen
          else if lab &&& 0xc0 ≠ 0 then .error (.wire "bad label bits")
          else if lab.toNat > dnsMaxLabel ∨ o + 1 + lab.toNat > msg.length then
            .error (.wire "label")
          else if out.length + 1 + lab.toNat + 1 > dnsMaxName then .error (.wire "name too long")
          else
            let label := ((msg.drop (o + 1)).take lab.toNat).map asciiLower
            decompressLoop msg hops (out ++ lab :: label) (o + 1 + lab.toNat) returnOff seen

def OutOf (out : Bytes) : Prop :=
  ∃ labels, (∀ label ∈ labels, 0 < label.length ∧ label.length ≤ 63) ∧ out = labelsWire (lowered labels)

theorem OutOf.label {out msg : Bytes} {o : Nat} {lab : UInt8} (whole : OutOf out) (nonzero : lab ≠ 0)
    (short : ¬(lab.toNat > dnsMaxLabel ∨ o + 1 + lab.toNat > msg.length)) :
    OutOf (out ++ lab :: ((msg.drop (o + 1)).take lab.toNat).map asciiLower) := by
  obtain ⟨labels, sizes, rfl⟩ := whole
  have size : ((msg.drop (o + 1)).take lab.toNat).length = lab.toNat := by
    rw [List.length_take, List.length_drop]
    omega
  have positive : 0 < lab.toNat := by
    by_contra none
    exact nonzero (UInt8.toNat_inj.1 (by simpa using none))
  refine ⟨labels ++ [(msg.drop (o + 1)).take lab.toNat], ?_, ?_⟩
  · intro label member
    rcases List.mem_append.1 member with old | new
    · exact sizes label old
    · rw [List.mem_singleton.1 new, size]
      exact ⟨positive, by unfold dnsMaxLabel at short; omega⟩
  · simp only [lowered, List.map_append, List.map_cons, List.map_nil, labelsWire_concat,
      List.length_map, size, UInt8.ofNat_toNat]

theorem decompressLoop_named (msg : Bytes) (hops : Nat) (out : Bytes) (o : Nat) (returnOff : Option Nat)
    (seen : List Nat) (whole : OutOf out) {wire : Bytes} {next : Nat}
    (done : decompressLoop msg hops out o returnOff seen = .ok (wire, next)) :
    ∃ labels, LegalName labels ∧ wire = wireOf (lowered labels) := by
  induction hops generalizing out o returnOff seen with
  | zero =>
    unfold decompressLoop at done
    split at done <;> cases done
  | succ hops ih =>
    unfold decompressLoop at done
    split at done
    · cases done
    rename_i lab _
    simp only at done
    split at done
    · cases done
    split at done
    · split at done
      · cases done
      rename_i fits
      cases done
      obtain ⟨labels, sizes, rfl⟩ := whole
      refine ⟨labels, ⟨sizes, ?_⟩, rfl⟩
      rw [wireOf_eq, List.length_append, ← labelsWire_lowered_length, ← List.length_append]
      unfold dnsMaxName at fits
      omega
    rename_i nonzero
    split at done
    · split at done
      · cases done
      split at done
      · cases done
      exact ih _ _ _ _ whole done
    split at done
    · cases done
    split at done
    · cases done
    rename_i short
    split at done
    · cases done
    exact ih _ _ _ _ (whole.label nonzero short) done

def decompressName (msg : Bytes) (off : Nat) : HResult (NameKey × Nat) :=
  match h : decompressLoop msg (dnsMaxCompressionHops + 1) [] off none [] with
  | .error e => .error e
  | .ok (wire, next) =>
    .ok (⟨wire, decompressLoop_named msg _ _ _ _ _ ⟨[], by simp, rfl⟩ h⟩, next)

structure PacketView where
  raw : Bytes
  header : dnsHeaderLen ≤ raw.length
deriving DecidableEq

namespace PacketView

def new (raw : Bytes) : HResult PacketView :=
  if h : dnsHeaderLen ≤ raw.length then .ok ⟨raw, h⟩ else .error (.wire "short header")

variable (packet : PacketView)

def field (offset : Nat) (inside : offset + 1 < dnsHeaderLen) : Nat :=
  be16 (packet.raw.get ⟨offset, by have := packet.header; omega⟩)
    (packet.raw.get ⟨offset + 1, by have := packet.header; omega⟩)

def flags : Nat := packet.field 2 (by decide)
def rcode : Nat := packet.flags &&& 0x000f

end PacketView

def query (id : UInt16) (name : NameKey) (qtype qclass : UInt16) : Bytes :=
  toBe16 id.toNat ++ toBe16 0x0100 ++ toBe16 1 ++ toBe16 0 ++ toBe16 0 ++ toBe16 1 ++
    name.wire ++ toBe16 qtype.toNat ++ toBe16 qclass.toNat ++
    [0] ++ toBe16 typeOpt ++ toBe16 dnsMaxUdp ++ toBe32 0x8000 ++ toBe16 0

structure CacheKey where
  name : NameKey
  qtype : UInt16
  qclass : UInt16
  cd : Bool
deriving DecidableEq

structure RrMeta where
  rcode : Nat
  dnssec : DnssecState
  answer : Bytes
  expires : Nat
  staleUntil : Nat
  minTtl : Nat
  fromLink : Int
deriving DecidableEq, Repr

end Resolved.Hyper
