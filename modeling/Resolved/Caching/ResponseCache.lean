import Resolved.Caching.GlobalCache
import Resolved.Wire.Message

namespace Resolved.Caching
open Lib Wire

def strangeRcodeTtl : Nat := 10 * nanosPerSecond

structure CacheKey where
  name : Bytes
  rrType : Nat
  cls : Nat
  checkingDisabled : Bool
  route : Nat
deriving DecidableEq, Repr

structure Cache where
  global : GlobalCache 4
  capacity : Nat
  maximumTtl : Nat
  storeNegative : Bool

structure Storable where
  packet : Packet
  rcode : Nat
  ttl : Nat
deriving DecidableEq, Repr

def toXkey (key : CacheKey) : XKey := ⟨key.name, key.rrType, key.cls⟩

def serve (entry : CacheEntry) (id now : Nat) : Option Packet :=
  let isStale : Bool := entry.expiresAt ≤ now
  let elapsed := min ((now - entry.inserted) / nanosPerSecond) (2 ^ 32 - 1)
  match rewriteId entry.answer id with
  | .error _ => none
  | .ok packet => (ageTtls packet elapsed isStale).toOption

namespace Cache

def new (capacity maximumTtl staleRetention : Nat) (storeNegative : Bool) : Cache :=
  ⟨GlobalCache.new 4 (max (capacity / 16) 1) staleRetention, capacity, maximumTtl, storeNegative⟩

def get (cache : Cache) (key : CacheKey) (id : Nat) (allowStale : Bool) (now : Nat) :
    Option Packet :=
  match cache.global.lookup (toXkey key) now with
  | .fresh entry => serve entry id now
  | .stale entry => if allowStale then serve entry id now else none
  | .miss => none

def lifetime (rcode : Nat) (response : Packet) : Except WireError (Option Nat) :=
  if rcode = 0 ∨ rcode = 3 then do
    match ← cacheLifetime response with
    | some seconds => return some (seconds * nanosPerSecond)
    | none => return none
  else if rcode = 2 then .ok (some strangeRcodeTtl)
  else .ok none

def storable (cache : Cache) (response : Packet) : Except WireError (Option Storable) := do
  let header ← Header.parse response
  if !header.isResponse ∨ header.truncated then return none
  else
    let rcode := header.responseCode
    let negative : Bool := rcode ≠ 0 ∨ header.answerCount = 0
    if negative ∧ !cache.storeNegative then return none
    else
      match ← lifetime rcode response with
      | none => return none
      | some ttl =>
        let ttl := min ttl cache.maximumTtl
        if ttl = 0 ∨ cache.capacity = 0 then return none
        else return some ⟨← rewriteId response 0, rcode, ttl⟩

def insert (cache : Cache) (key : CacheKey) (response : Packet) (now : Nat)
    (order : WalkOrder XKey) : Except WireError Bool × Cache :=
  match cache.storable response with
  | .error error => (.error error, cache)
  | .ok none => (.ok false, cache)
  | .ok (some stored) =>
    (.ok true, { cache with
      global := cache.global.insert (toXkey key) stored.rcode stored.packet stored.ttl false
        now order })

def flush (cache : Cache) : Cache := { cache with global := cache.global.flush }

end Cache

end Resolved.Caching
