import Resolved.Net

/-!
# The shared memory

The mapping that the daemon writes and NSS clients read: a header, a table of buckets, and an arena
with the payloads. All errors are of the kind `InvalidInput`, and stand for their texts. A read sees
a mapping at rest, so that no attempt of it has to be repeated. `usize` has 64 bits.
-/

namespace Resolved.Shm
open Lib

def shmMagic : Nat := 0x52534c314e535301

def shmVersion : Nat := 1

def u32Max : Nat := 2 ^ 32 - 1

def u64Max : Nat := 2 ^ 64 - 1

def headerSize : Nat := 40

def bucketSize : Nat := 48

def addrSize : Nat := 20

structure ShmHeader where
  magic : Nat
  version : Nat
  nBuckets : Nat
  arenaOff : Nat
  arenaSize : Nat
  writeGen : Nat
  arenaUsed : Nat
deriving DecidableEq, Repr

structure ShmBucket where
  gen : Nat
  hash : UInt64
  off : Nat
  len : Nat
  expiresMs : Nat
  flags : Nat
  qtype : UInt16
  qclass : UInt16
  rcode : UInt8
  nAddrs : Nat
deriving DecidableEq, Repr

protected def ShmBucket.default : ShmBucket := ⟨0, 0, 0, 0, 0, 0, 0, 0, 0, 0⟩

structure ShmAddr where
  family : UInt8
  pad : UInt8
  scopeId : UInt16
  addr : Vector UInt8 16
deriving DecidableEq

namespace ShmAddr

def bytes (address : ShmAddr) : Bytes :=
  address.family :: address.pad :: UInt8.ofNat address.scopeId.toNat ::
    UInt8.ofNat (address.scopeId.toNat / 256) :: address.addr.toList

def ofBytes : Bytes → Option ShmAddr
  | family :: pad :: low :: high :: rest =>
    if length : rest.length = 16 then
      some ⟨family, pad, UInt16.ofNat (low.toNat + 256 * high.toNat), ⟨rest.toArray, by simpa⟩⟩
    else none
  | _ => none

def ip (address : ShmAddr) : Option IpAddr :=
  let segment (i : Nat) (h : 2 * i + 1 < 16) : UInt16 :=
    UInt16.ofNat (be16 address.addr[2 * i] address.addr[2 * i + 1])
  if address.family = 4 then
    some (.v4 ⟨address.addr[0], address.addr[1], address.addr[2], address.addr[3]⟩)
  else if address.family = 6 then
    some (.v6 ⟨segment 0 (by decide), segment 1 (by decide), segment 2 (by decide),
      segment 3 (by decide), segment 4 (by decide), segment 5 (by decide), segment 6 (by decide),
      segment 7 (by decide)⟩)
  else none

end ShmAddr

structure Mapping where
  header : ShmHeader
  buckets : List ShmBucket
  arena : Bytes
deriving DecidableEq

namespace Mapping
variable (mapping : Mapping)

def arenaStart : Nat := headerSize + mapping.buckets.length * bucketSize

def length : Nat := mapping.arenaStart + mapping.arena.length

def storeGeneration (generation : Nat) : Mapping :=
  { mapping with header := { mapping.header with writeGen := generation } }

def writeArenaUsed (value : Nat) : Mapping :=
  { mapping with header := { mapping.header with arenaUsed := value } }

def invalidateAllBuckets : Mapping :=
  { mapping with buckets := mapping.buckets.map ({ · with gen := 0 }) }

def write (start : Nat) (bytes : Bytes) : Mapping :=
  { mapping with arena := overwrite mapping.arena (start - mapping.arenaStart) bytes }

def read (start stop : Nat) : Option Bytes :=
  if mapping.arenaStart ≤ start then
    slice mapping.arena (start - mapping.arenaStart) (stop - mapping.arenaStart)
  else none

def writeBucket (index : Nat) (bucket : ShmBucket) : Mapping :=
  { mapping with buckets := mapping.buckets.set index bucket }

end Mapping

def hashKey (owner : Bytes) (qtype qclass : UInt16) : UInt64 :=
  let hash := owner.foldl (fun hash byte => (hash ^^^ byte.toUInt64) * 0x100000001b3)
    0xcbf29ce484222325
  let hash := (hash ^^^ (qtype.toUInt64 <<< 16)) * 0x100000001b3
  let hash := hash ^^^ qclass.toUInt64
  let hash := (hash ^^^ (hash >>> 33)) * 0xff51afd7ed558ccd
  hash ^^^ (hash >>> 33)

-- the fixture that the source shares with the C side: `example.test`, A, IN
example : hashKey [7, 101, 120, 97, 109, 112, 108, 101, 4, 116, 101, 115, 116, 0] 1 1 =
    0xd6a34bfb57570ef4 := by decide +kernel

def isPowerOfTwo (n : Nat) : Bool := n == 2 ^ n.log2

def entryIsFresh (expiresMs flags now : Nat) : Bool :=
  now ≤ expiresMs || (flags &&& 1 != 0 && now - expiresMs ≤ 30000)

/-! ## The daemon -/

structure ShmPublisher where
  mapping : Mapping
  nBuckets : Nat
  arenaOff : Nat
  arenaSize : Nat
deriving DecidableEq

def layoutOverflow : String := "shared-memory layout overflow"

def validateLayout (nBuckets arenaSize : Nat) : Except String Unit :=
  if nBuckets == 0 || !isPowerOfTwo nBuckets || decide (u32Max < nBuckets) then
    .error "shared-memory bucket count must be a nonzero power of two"
  else if arenaSize == 0 || decide (u32Max < arenaSize) then
    .error "shared-memory arena size is invalid"
  else .ok ()

def createAt (nBuckets arenaSize : Nat) : Except String ShmPublisher := do
  validateLayout nBuckets arenaSize
  let arenaOff := headerSize + nBuckets * bucketSize
  if u32Max < arenaOff then throw layoutOverflow
  else
    let header : ShmHeader := ⟨shmMagic, shmVersion, nBuckets, arenaOff, arenaSize, 2, 0⟩
    return ⟨⟨header, List.replicate nBuckets .default, List.replicate arenaSize 0⟩, nBuckets, arenaOff, arenaSize⟩

structure Publication where
  ownerWire : Bytes
  qtype : UInt16
  qclass : UInt16
  rcode : UInt8
  addrs : List ShmAddr
  ttl : Nat
  secure : Bool
  negative : Bool
  staleOk : Bool
  now : Nat
deriving DecidableEq

namespace Publication
variable (publication : Publication)

def need : Nat := 1 + publication.ownerWire.length + publication.addrs.length * addrSize

def payload : Bytes :=
  UInt8.ofNat publication.ownerWire.length :: publication.ownerWire ++ publication.addrs.flatMap ShmAddr.bytes

def hash : UInt64 := hashKey publication.ownerWire publication.qtype publication.qclass

def bucketIndex (nBuckets : Nat) : Nat := publication.hash.toNat &&& (nBuckets - 1)

def expiresMs : Nat := min (publication.now + min publication.ttl u64Max) u64Max

def flags : Nat :=
  (if publication.staleOk then 1 else 0) ||| (if publication.negative then 2 else 0) |||
    (if publication.secure then 4 else 0)

def bucket (generation offset : Nat) : ShmBucket where
  gen := generation
  hash := publication.hash
  off := offset
  len := publication.need
  expiresMs := publication.expiresMs
  flags := publication.flags
  qtype := publication.qtype
  qclass := publication.qclass
  rcode := publication.rcode
  nAddrs := publication.addrs.length

end Publication

namespace ShmPublisher
variable (publisher : ShmPublisher) (publication : Publication)

def check : Except String Unit :=
  if publication.ownerWire.isEmpty || decide (255 < publication.ownerWire.length) then
    .error "owner wire name is empty or exceeds 255 octets"
  else if 255 < publication.addrs.length then
    .error "too many addresses for the shared-memory ABI"
  else if publication.addrs.any (·.ip.isNone) then
    .error "shared-memory address has an invalid family"
  else if publisher.arenaSize < publication.need ∨ u32Max < publication.need then
    .error "shared-memory entry exceeds the payload arena"
  else .ok ()

def wraps : Bool := publisher.arenaSize < publisher.mapping.header.arenaUsed + publication.need

def oddGeneration : Nat :=
  let current := publisher.mapping.header.writeGen
  if current % 2 = 0 then (current + 1) % 2 ^ 64 else (current + 2) % 2 ^ 64

def stableGeneration : Nat := (publisher.oddGeneration + 1) % 2 ^ 64 / 2 * 2

def store : Except String Unit × ShmPublisher :=
  let begun := publisher.mapping.storeGeneration publisher.oddGeneration
  let room := if publisher.wraps publication then begun.invalidateAllBuckets else begun
  let offset := if publisher.wraps publication then 0 else publisher.mapping.header.arenaUsed
  let nextUsed := offset + publication.need
  if u32Max < nextUsed then (.error layoutOverflow, { publisher with mapping := room })
  else
    let filled := (room.writeArenaUsed nextUsed).write (publisher.arenaOff + offset) publication.payload
    let entered := filled.writeBucket (publication.bucketIndex publisher.nBuckets)
      (publication.bucket publisher.stableGeneration offset)
    (.ok (), { publisher with mapping := entered.storeGeneration publisher.stableGeneration })

def publishAddrsWithStale : Except String Unit × ShmPublisher :=
  match publisher.check publication with
  | .error error => (.error error, publisher)
  | .ok () => publisher.store publication

end ShmPublisher

/-! ## Reading in the daemon's language -/

def validHeader (header : ShmHeader) (mappingLength : Nat) : Bool :=
  if header.magic != shmMagic || header.version != shmVersion || header.nBuckets == 0 ||
      !isPowerOfTwo header.nBuckets || decide (header.arenaSize < header.arenaUsed) then false
  else if header.arenaOff ≠ headerSize + header.nBuckets * bucketSize then false
  else header.arenaOff + header.arenaSize ≤ mappingLength

namespace Mapping
variable (mapping : Mapping)

def headerSnapshot : Option ShmHeader :=
  let header := mapping.header
  if header.writeGen = 0 ∨ header.writeGen % 2 ≠ 0 then none
  else if validHeader header mapping.length then some header
  else none

def bucketSnapshot (index : Nat) : Option ShmBucket := do
  let bucket ← mapping.buckets[index]?
  if bucket.gen = 0 then none else some bucket

end Mapping

def readAddresses (payload : Bytes) : Nat → Nat → Option (List ShmAddr)
  | 0, _ => some []
  | count + 1, cursor => do
    let bytes ← slice payload cursor (cursor + addrSize)
    let address ← ShmAddr.ofBytes bytes
    let _ ← address.ip
    let rest ← readAddresses payload count (cursor + addrSize)
    return address :: rest

def Mapping.readBucket (mapping : Mapping) (header : ShmHeader) (bucket : ShmBucket) (hash : UInt64)
    (owner : Bytes) (qtype qclass : UInt16) (now : Nat) : Option (UInt8 × List ShmAddr × Bool) :=
  if bucket.hash ≠ hash ∨ bucket.qtype ≠ qtype ∨ bucket.qclass ≠ qclass then none
  else if !entryIsFresh bucket.expiresMs bucket.flags now then none
  else if header.arenaUsed < bucket.off + bucket.len ∨ header.arenaSize < bucket.off + bucket.len then
    none
  else do
    let start := header.arenaOff + bucket.off
    let payload ← mapping.read start (start + bucket.len)
    let first ← payload.head?
    let ownerLength := first.toNat
    if payload.length < 1 + ownerLength + bucket.nAddrs * addrSize ∨ ownerLength ≠ owner.length ∨
        slice payload 1 (1 + ownerLength) ≠ some owner then none
    else
      let addresses ← readAddresses payload bucket.nAddrs (1 + ownerLength)
      return (bucket.rcode, addresses, bucket.flags &&& 4 != 0)

def Mapping.lookup (mapping : Mapping) (owner : Bytes) (qtype qclass : UInt16) (now : Nat) :
    Option (UInt8 × List ShmAddr × Bool) := do
  let header ← mapping.headerSnapshot
  let hash := hashKey owner qtype qclass
  let bucket ← mapping.bucketSnapshot (hash.toNat &&& (header.nBuckets - 1))
  mapping.readBucket header bucket hash owner qtype qclass now

end Resolved.Shm
