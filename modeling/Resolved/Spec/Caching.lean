import Resolved.Caching.ResponseCache

/-!
# What the cache promises

Over any history of calls.
-/

/-! ## Histories of the cache -/

namespace Resolved.Spec
open Lib Wire Caching

inductive CacheCall where
  | insert (key : CacheKey) (response : Packet) (now : Nat) (order : WalkOrder XKey)
  | get (key : CacheKey) (id : Nat) (allowStale : Bool) (now : Nat)
  | flush

structure Stored where
  response : Packet
  inserted : Nat
deriving DecidableEq

def runCall (cache : Cache) : CacheCall → Cache
  | .insert key response now order => (cache.insert key response now order).2
  | .get _ _ _ _ => cache
  | .flush => cache.flush

def callEvents (cache : Cache) : CacheCall → List (StoreEvent CacheKey Stored)
  | .insert key response now order =>
    if (cache.insert key response now order).1 = .ok true then [.write key ⟨response, now⟩] else []
  | .get _ _ _ _ => []
  | .flush => [.clear]

def runCalls (cache : Cache) (calls : List CacheCall) : Cache := calls.foldl runCall cache

def historyOf : Cache → List CacheCall → List (StoreEvent CacheKey Stored)
  | _, [] => []
  | cache, call :: rest => callEvents cache call ++ historyOf (runCall cache call) rest

def ServedFrom (stored : Stored) (id now : Nat) (allowStale : Bool) (packet : Packet) : Prop :=
  ∃ stale : Bool, (stale = true → allowStale = true) ∧
    (rewriteId stored.response id >>= fun renamed =>
      ageTtls renamed (min ((now - stored.inserted) / nanosPerSecond) (2 ^ 32 - 1)) stale) = .ok packet

def view (cache : Cache) (key : XKey) : Option CacheEntry :=
  (cache.global.shardOf key).map[key]?

def EntryOf (stored : Stored) (entry : CacheEntry) : Prop :=
  rewriteId stored.response 0 = .ok entry.answer ∧ entry.inserted = stored.inserted

/-! ## Fresh hits -/

def answers (sections : Sections) : List ResourceRecord :=
  sections.records.take sections.header.answerCount

def authority (sections : Sections) : List ResourceRecord :=
  (sections.records.drop sections.header.answerCount).take sections.header.authorityCount

def NeverOutdated (cache : Cache) (response : Packet) (sections : Sections) : Prop :=
  ∀ calls key key' inserted id now packet, latest ((historyOf cache calls).map (.coarsen toXkey)) (toXkey key) =
      some (key', ⟨response, inserted⟩) →
    inserted ≤ now → (runCalls cache calls).get key id false now = some packet →
    ∀ record ∈ answers sections, record.rrType ≠ typeOpt → now - inserted < record.ttl * nanosPerSecond

/-- The TTL of a record lasts as long as the lifetime a negative response gets: from the SOA
records and at most half an hour for NXDOMAIN, ten seconds for SERVFAIL, in both cases no more than
the configured maximum and one second at least. -/
def OutlastsEntry (maximumTtl : Nat) (response : Packet) (sections : Sections)
    (record : ResourceRecord) : Prop :=
  1 ≤ record.ttl ∧
    (maximumTtl ≤ record.ttl * nanosPerSecond ∨ sections.header.responseCode = 3 ∧
        (1800 ≤ record.ttl ∨ ∃ soa ∈ authority sections, soa.rrType = typeSoa ∧
          ∃ minimum, soaMinimum response soa = .ok minimum ∧ min soa.ttl minimum ≤ record.ttl) ∨
      sections.header.responseCode = 2 ∧ 10 ≤ record.ttl)

/-! ## Counting the entries of the store -/

inductive StoreOp where
  | insert (key : XKey) (rcode : Nat) (answer : Bytes) (ttl : Nat) (dnssecSecure : Bool) (now : Nat)
      (order : WalkOrder XKey)
  | flush

variable {shardBits : Nat}

def runOp (cache : GlobalCache shardBits) : StoreOp → GlobalCache shardBits
  | .insert key rcode answer ttl dnssecSecure now order =>
    cache.insert key rcode answer ttl dnssecSecure now order
  | .flush => cache.flush

def runOps (cache : GlobalCache shardBits) (ops : List StoreOp) : GlobalCache shardBits :=
  ops.foldl runOp cache

def stored (cache : GlobalCache shardBits) : Nat := (cache.shards.toList.map (·.map.size)).sum

def Roomy (cache : GlobalCache shardBits) : StoreOp → Prop
  | .insert key _ _ _ _ _ _ =>
    (cache.shardOf key).map.size = 0 ∨ (cache.shardOf key).map.size < cache.maxPerShard
  | .flush => True

def hitShards (shardBits : Nat) (ops : List StoreOp) : Finset (Fin (2 ^ shardBits)) :=
  ops.foldl (fun hit op =>
    match op with
    | .insert key _ _ _ _ _ _ => insert (GlobalCache.shardIdx shardBits key) hit
    | .flush => ∅) ∅

end Resolved.Spec
