import Resolved.Lib.Bytes
import Resolved.Lib.LossyStore

/-!
# The sharded store

Times and durations are counted in nanoseconds. The order in which a hash map is walked is an
argument of the operations that walk one.
-/

namespace Resolved.Caching
open Lib

def nanosPerSecond : Nat := 1000000000

structure XKey where
  owner : Bytes
  qtype : Nat
  qclass : Nat
deriving DecidableEq, Repr

def XKey.cmp : XKey → XKey → Ordering :=
  compareLex (compareOn (·.owner)) (compareLex (compareOn (·.qtype)) (compareOn (·.qclass)))

instance : Std.TransCmp XKey.cmp := inferInstanceAs (Std.TransCmp (compareLex _ _))

instance : Std.LawfulEqCmp XKey.cmp where
  eq_of_compare {a b} h := by
    simp only [XKey.cmp, compareLex, compareOn, Ordering.then_eq_eq, compare_eq_iff_eq] at h
    obtain ⟨owner, qtype, qclass⟩ := h
    cases a
    cases b
    simp_all

def hashLabel (hash : UInt64) (label : Bytes) : UInt64 :=
  label.foldl (fun hash byte => (hash ^^^ (asciiLower byte).toUInt64) * 0x100000001b3) hash

/-- The hash of a name before the final mix, or the finished hash of a name that is cut short. Each
turn takes one octet or more, so the length of the name bounds the turns. -/
def hashLabels : Nat → Bytes → UInt64 → UInt64 ⊕ UInt64
  | 0, _, hash => .inl hash
  | _ + 1, [], hash => .inl hash
  | fuel + 1, length :: rest, hash =>
    if length = 0 then .inl ((hash ^^^ 0xff) * 0x100000001b3)
    else if 63 < length.toNat ∨ rest.length < length.toNat then
      .inr (hash ^^^ 0xdeadbeefcafebabe)
    else
      hashLabels fuel (rest.drop length.toNat)
        ((hashLabel hash (rest.take length.toNat) ^^^ 0x2e) * 0x100000001b3)

def finalMix (hash : UInt64) : UInt64 :=
  let x := (hash ^^^ (hash >>> 32)) * 0xe7037ed1a0b428db
  x ^^^ (x >>> 32)

def dnsNameHash (wire : Bytes) : UInt64 :=
  match hashLabels wire.length wire 0xcbf29ce484222325 with
  | .inl hash => finalMix hash
  | .inr poisoned => poisoned

structure CacheEntry where
  rcode : Nat
  answer : Bytes
  inserted : Nat
  expiresAt : Nat
  staleUntil : Nat
  dnssecSecure : Bool
  insertGen : Nat
deriving DecidableEq, Repr

namespace CacheEntry

def isFresh (entry : CacheEntry) (now : Nat) : Bool := now < entry.expiresAt

def isServableStale (entry : CacheEntry) (now : Nat) : Bool :=
  entry.expiresAt ≤ now ∧ now < entry.staleUntil

end CacheEntry

abbrev ShardMap := Std.ExtTreeMap XKey CacheEntry XKey.cmp

structure Shard where
  map : ShardMap
  live : Nat

def Shard.empty : Shard := ⟨∅, 0⟩

structure GlobalCache (shardBits : Nat) where
  shards : Vector Shard (2 ^ shardBits)
  maxPerShard : Nat
  staleWindow : Nat
  gen : Nat

inductive Lookup where
  | fresh (entry : CacheEntry)
  | stale (entry : CacheEntry)
  | miss
deriving DecidableEq, Repr

def clampTtl (ttl rcode : Nat) : Nat :=
  let most := if rcode = 3 ∨ rcode = 0 then (if rcode = 3 then 1800 else 3600) else 86400
  max nanosPerSecond (min ttl (most * nanosPerSecond))

def retainStep (now budget : Nat) (state : ShardMap × Nat) (key : XKey) : ShardMap × Nat :=
  if state.2 ≥ budget then state
  else
    match state.1[key]? with
    | some entry =>
      if !entry.isFresh now ∧ !entry.isServableStale now then (state.1.erase key, state.2 + 1)
      else state
    | none => state

def retainServable (now budget : Nat) (walked : List XKey) (map : ShardMap) : ShardMap × Nat :=
  walked.foldl (retainStep now budget) (map, 0)

def evictExpiredOrOldest (map : ShardMap) (now budget : Nat) (order : WalkOrder XKey) : ShardMap :=
  let walked := order.arrange map.keys
  let (map, removed) := retainServable now budget walked map
  if removed ≥ budget ∨ map.isEmpty then map
  else
    let gens := walked.filterMap fun key => map[key]?.map fun entry => (entry.insertGen, key)
    ((gens.insertionSort fun left right => left.1 ≤ right.1).take (budget - removed)).foldl
      (fun map entry => map.erase entry.2) map

namespace GlobalCache
variable {shardBits : Nat}

def new (shardBits maxPerShard staleWindow : Nat) : GlobalCache shardBits :=
  ⟨Vector.replicate (2 ^ shardBits) Shard.empty, maxPerShard, staleWindow, 1⟩

def shardIdx (shardBits : Nat) (key : XKey) : Fin (2 ^ shardBits) :=
  ⟨(dnsNameHash key.owner ^^^ (UInt64.ofNat key.qtype <<< 16) ^^^ UInt64.ofNat key.qclass).toNat &&&
    (2 ^ shardBits - 1), by
    rw [Nat.and_two_pow_sub_one_eq_mod]
    exact Nat.mod_lt _ (Nat.two_pow_pos shardBits)⟩

def shardOf (cache : GlobalCache shardBits) (key : XKey) : Shard :=
  cache.shards[shardIdx shardBits key]

def lookup (cache : GlobalCache shardBits) (key : XKey) (now : Nat) : Lookup :=
  match (cache.shardOf key).map[key]? with
  | some entry =>
    if entry.isFresh now then .fresh entry
    else if entry.isServableStale now then .stale entry
    else .miss
  | none => .miss

def newEntry (cache : GlobalCache shardBits) (rcode : Nat) (answer : Bytes) (ttl : Nat)
    (dnssecSecure : Bool) (now : Nat) : CacheEntry :=
  { rcode := rcode
    answer := answer
    inserted := now
    expiresAt := now + clampTtl ttl rcode
    staleUntil := now + clampTtl ttl rcode + cache.staleWindow
    dnssecSecure := dnssecSecure
    insertGen := cache.gen }

def insert (cache : GlobalCache shardBits) (key : XKey) (rcode : Nat) (answer : Bytes) (ttl : Nat)
    (dnssecSecure : Bool) (now : Nat) (order : WalkOrder XKey) : GlobalCache shardBits :=
  let entry := cache.newEntry rcode answer ttl dnssecSecure now
  let shard := cache.shardOf key
  let map :=
    if shard.map.size ≥ cache.maxPerShard then
      evictExpiredOrOldest shard.map now (cache.maxPerShard / 16 + 1) order
    else shard.map
  let live := if map.contains key then shard.live else shard.live + 1
  { cache with
    shards := cache.shards.set (shardIdx shardBits key) ⟨map.insert key entry, live⟩
    gen := (cache.gen + 1) % 2 ^ 64 }

def flush (cache : GlobalCache shardBits) : GlobalCache shardBits :=
  { cache with shards := cache.shards.map fun _ => Shard.empty }

def len (cache : GlobalCache shardBits) : Nat := (cache.shards.toList.map (·.live)).sum

end GlobalCache

end Resolved.Caching
