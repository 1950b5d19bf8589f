import Resolved.Lib.Result
import Resolved.Lib.Utf8
import Resolved.Shm.Mapping

/-!
# The NSS module

How a host name becomes a wire name on both sides, and the lookup of the C side in the shared
memory. A C string is its octets before the NUL. The environment that can move or switch off the
file is left out, and so are the failures of the file system.
-/

namespace Resolved.Shm
open Lib

/-! ## Names -/

inductive NssBackendError where
  | invalidName (reason : String)
deriving DecidableEq, Repr

def labelToWireLower (label : Str) : Except NssBackendError Bytes :=
  let bytes := utf8 label
  if label.isEmpty then .error (.invalidName "empty label")
  else if 63 < bytes.length then .error (.invalidName "label too long")
  else .ok (UInt8.ofNat bytes.length :: bytes.map asciiLower)

def nameToWireLower (name : Str) : Except NssBackendError Bytes := do
  let raw := trim name
  if raw.isEmpty then throw (.invalidName "empty")
  else
    let n := trimEndWith (· == '.') raw
    if n.isEmpty then return [0]
    else if 253 < (utf8 n).length then throw (.invalidName "too long")
    else
      let labels ← (splitAtChar '.' n).mapM labelToWireLower
      let out := labels.flatten ++ [0]
      if 255 < out.length then throw (.invalidName "wire too long")
      else return out

def srEncodeLabels (capacity : Nat) : List Bytes → Bytes → Option Bytes
  | [], out => some out
  | label :: rest, out =>
    if label.length = 0 ∨ 63 < label.length ∨ capacity < out.length + 1 + label.length + 1 ∨
        255 < out.length + 1 + label.length + 1 then none
    else
      let out := out ++ UInt8.ofNat label.length :: label.map asciiLower
      if rest = [] ∨ rest = [[]] then some out else srEncodeLabels capacity rest out

def srEncodeName (name : Bytes) (capacity : Nat) : Option Bytes :=
  if name.isEmpty || capacity == 0 then none
  else if name == [octet '.'] then some [0]
  else do
    let out ← srEncodeLabels capacity (name.splitOn (octet '.')) []
    if capacity < out.length + 1 ∨ 255 < out.length + 1 then none else some (out ++ [0])

/-! ## The lookup -/

inductive Errno where
  | einval
  | eproto
  | enoent
deriving DecidableEq, Repr

def srHashKey (owner : Bytes) (qtype qclass : UInt16) : UInt64 :=
  let hash := owner.foldl (fun hash byte => (hash ^^^ byte.toUInt64) * 0x100000001b3)
    0xcbf29ce484222325
  let hash := (hash ^^^ (qtype.toUInt64 <<< 16)) * 0x100000001b3
  let hash := hash ^^^ qclass.toUInt64
  let hash := (hash ^^^ (hash >>> 33)) * 0xff51afd7ed558ccd
  hash ^^^ (hash >>> 33)

def bucketIsFresh (bucket : ShmBucket) (now : Nat) : Bool :=
  if now ≤ bucket.expiresMs then true
  else if bucket.flags &&& 1 = 0 then false
  else now - bucket.expiresMs ≤ 30000

def rangeValid (offset length total : Nat) : Bool := offset ≤ total && length ≤ total - offset

def srHeaderValid (header : ShmHeader) (mappingLength : Nat) : Bool :=
  let bucketBytes := header.nBuckets * bucketSize
  header.magic == shmMagic && header.version == 1 && header.nBuckets != 0 &&
    header.nBuckets &&& (header.nBuckets - 1) == 0 && rangeValid headerSize bucketBytes mappingLength &&
    decide (headerSize + bucketBytes ≤ header.arenaOff) &&
    rangeValid header.arenaOff header.arenaSize mappingLength &&
    decide (header.arenaUsed ≤ header.arenaSize)

def copyAddresses (slot : Bytes) : Nat → Nat → Option (List ShmAddr)
  | 0, _ => some []
  | count + 1, cursor => do
    let bytes ← slice slot cursor (cursor + addrSize)
    let address ← ShmAddr.ofBytes bytes
    let rest ← copyAddresses slot count (cursor + addrSize)
    return address :: rest

def Mapping.srReadBucket (mapping : Mapping) (header : ShmHeader) (bucket : ShmBucket) (hash : UInt64)
    (owner : Bytes) (qtype qclass : UInt16) (capacity now : Nat) :
    Except Errno (UInt8 × List ShmAddr × Bool) :=
  if bucket.gen = 0 ∨ bucket.hash ≠ hash ∨ bucket.qtype ≠ qtype ∨ bucket.qclass ≠ qclass ∨
      bucketIsFresh bucket now = false then .error .enoent
  else if header.arenaUsed < bucket.off ∨ header.arenaUsed - bucket.off < bucket.len ∨
      rangeValid (header.arenaOff + bucket.off) bucket.len mapping.length = false then .error .eproto
  else if bucket.len < 1 + owner.length + bucket.nAddrs * addrSize then .error .eproto
  else do
    let start := header.arenaOff + bucket.off
    let slot ← okOr .eproto (mapping.read start (start + bucket.len))
    if slot.head? ≠ some (UInt8.ofNat owner.length) ∨
        slice slot 1 (1 + owner.length) ≠ some owner then throw .enoent
    else
      let copyCount := if bucket.nAddrs < capacity then bucket.nAddrs else capacity
      let addrs ← okOr .eproto (copyAddresses slot copyCount (1 + owner.length))
      return (bucket.rcode, addrs, bucket.flags &&& 4 != 0)

def Mapping.srShmLookup (mapping : Mapping) (owner : Bytes) (qtype qclass : UInt16)
    (capacity now : Nat) : Except Errno (UInt8 × List ShmAddr × Bool) := do
  if owner.length = 0 ∨ 255 < owner.length then throw .einval
  else if srHeaderValid mapping.header mapping.length = false then throw .eproto
  else
    let hash := srHashKey owner qtype qclass
    let bucket ← okOr .eproto (mapping.buckets[hash.toNat &&& (mapping.header.nBuckets - 1)]?)
    mapping.srReadBucket mapping.header bucket hash owner qtype qclass capacity now

end Resolved.Shm
