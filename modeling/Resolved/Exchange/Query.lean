import Resolved.Exchange.Upstream
import Resolved.Wire.LocalAnswer

/-!
# Queries in flight

Calls for one question share a query.
-/

/-!
## Shared transactions

The map of running transactions. An entry is known by a number, which stands for the identity of the
shared allocation; no number is used twice. `finish` has two critical sections, one on the entry and
one on the map, and they are two functions here.
-/

namespace Resolved.Exchange
open Lib Wire

structure InflightKey where
  route : Nat
  query : Packet
deriving DecidableEq, Repr

def InflightKey.new (route : Nat) (query : Packet) : Except WireError InflightKey := do
  let query ← rewriteId query 0
  return ⟨route, query⟩

structure InflightState where
  running : Bool
  response : Option Packet
deriving DecidableEq, Repr

abbrev EntryId := Nat

inductive InflightRole where
  | leader (entry : EntryId)
  | follower (entry : EntryId)
deriving DecidableEq, Repr

structure Inflight where
  entries : InflightKey → Option EntryId
  states : EntryId → InflightState
  fresh : EntryId

namespace Inflight

def new : Inflight := ⟨fun _ => none, fun _ => ⟨false, none⟩, 0⟩

variable (inflight : Inflight)

def begin (key : InflightKey) : InflightRole × Inflight :=
  match inflight.entries key with
  | some entry => (.follower entry, inflight)
  | none => (.leader inflight.fresh,
    { entries := Function.update inflight.entries key (some inflight.fresh)
      states := Function.update inflight.states inflight.fresh ⟨true, none⟩
      fresh := inflight.fresh + 1 })

def publish (entry : EntryId) (response : Option Packet) : Inflight :=
  { inflight with states := Function.update inflight.states entry ⟨false, response⟩ }

def unregister (key : InflightKey) (entry : EntryId) : Inflight :=
  if inflight.entries key = some entry then
    { inflight with entries := Function.update inflight.entries key none }
  else inflight

def wait (entry : EntryId) : Option (Option Packet) :=
  let state := inflight.states entry
  if state.running then none else some state.response

end Inflight

/-!
## Queries of clients

The parts of `query_on_link` between its accesses to what the queries share. The counters are left
out, and so is how the static records and the hosts file are looked up.
-/

open Routing Links Caching

inductive QueryMode where
  | full
  | proxy
deriving DecidableEq, Repr

structure LocalData where
  static : Option (List StaticRecord)
  hosts : Option (List LocalRecord)

structure Asked where
  query : Packet
  header : Header
  question : Question
  ifindex : Option Int
deriving DecidableEq

def accept (config : Config) (query : Packet) (mode : QueryMode) (ifindex : Option Int)
    (found : LocalData) : Except ResolveError (Packet ⊕ Asked) := do
  wireResult (validate query false)
  let header ← wireResult (Header.parse query)
  let question ← wireResult (firstQuestion query)
  match ifindex.filter (· < 0) with
  | some ifindex => throw (.link (.invalidIfindex ifindex))
  | none =>
    if question.rrType ∈ config.refuseRecordTypes then
      return .inl (← wireResult (refusedFor query))
    else
      match mode, found.static, found.hosts with
      | .full, some rrset, _ => return .inl (← wireResult (staticResponse query question rrset))
      | .full, none, some records => return .inl (← wireResult (localResponse query records 0))
      | _, _, _ => return .inr ⟨query, header, question, ifindex⟩

def routeCacheId (generation : Nat) (ifindex : Option Int) : Nat :=
  let ifindex := match ifindex with
    | some value => if 0 ≤ value ∧ value < 2 ^ 32 then value.toNat else 0
    | none => 0
  (generation % 2 ^ 32 * 2 ^ 32 + generation / 2 ^ 32 % 2 ^ 32) ^^^ ifindex

namespace Asked

def cacheKey (asked : Asked) (route : Nat) : CacheKey :=
  ⟨asked.question.name.canonicalWire, asked.question.rrType, asked.question.cls,
    asked.header.checkingDisabled, route⟩

def selectScopes (asked : Asked) (resolver : Resolver) : Except ResolveError (List RouteScope) :=
  match resolver.routing.select asked.question.name.text asked.ifindex
      resolver.config.configuredUpstreams resolver.config.configuredFallbackUpstreams
      resolver.config.domains with
  | .error error => .error (.link error)
  | .ok scopes =>
    let scopes := scopes.filter fun scope =>
      match scope.kind with
      | .link ifindex => resolver.networkdLinkRelevant ifindex
      | .global | .fallback => true
    if scopes.isEmpty then .error .noNameServers else .ok scopes

end Asked

def storesFrom (config : Config) (server : SocketAddr) : Bool :=
  config.cache && (config.cacheFromLocalhost || !server.ip.isLoopback)

def normalizeSharedResponse (response : Packet) : Option Packet := (rewriteId response 0).toOption

end Resolved.Exchange
