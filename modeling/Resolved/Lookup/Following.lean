import Resolved.Exchange.State
import Resolved.Wire.Redirects
import Resolved.Lib.PushAll

/-!
# Lookups of names

Over redirections and over both address families.
-/

/-!
## Following redirections over several queries

What `query_on_link` returns is a parameter: its calls are counted, so that it may answer each in its
own way.
-/

namespace Resolved.Lookup
open Lib Wire Exchange

inductive LookupError where
  | resolve (error : ResolveError)
  | noSuchResourceRecord
  | dnsError (rcode : Nat) (query : Str)
deriving DecidableEq, Repr

def cnameLoopProtocolError : String := "CNAME or DNAME redirect loop"

def lookupWire {α : Type} (result : Except WireError α) : Except LookupError α :=
  result.mapError fun error => .resolve (.wire error)

structure Following where
  current : Str
  visited : List Bytes
  redirects : Nat

structure Exchanged where
  query : Packet
  answer : Except ResolveError Packet
deriving DecidableEq, Repr

section
variable (cls rrType : Nat)

def nextQuery (s : Following) (id : Nat) : Except LookupError (Packet × List Bytes) := do
  let query ← lookupWire (makeQueryWithClass s.current rrType cls id)
  let question ← lookupWire (firstQuestion query)
  if question.name.canonicalWire ∈ s.visited then throw (.resolve (.wire .cnameLoop))
  else return (query, question.name.canonicalWire :: s.visited)

def weigh (s : Following) (response : Packet) : Except LookupError ((Packet × Str) ⊕ (Str × Nat)) := do
  let header ← lookupWire (Header.parse response)
  if header.responseCode ≠ 0 then throw (.dnsError header.responseCode s.current)
  else
    match ← lookupWire (classifyRedirectAnswer response) with
    | .direct canonicalName packetRedirects =>
      if cnameRedirectsMax < s.redirects + packetRedirects then throw (.resolve (.wire .cnameLoop))
      else return .inl (response, canonicalName)
    | .redirect canonicalName packetRedirects =>
      if packetRedirects = 0 then throw (.resolve (.protocol cnameLoopProtocolError))
      else if cnameRedirectsMax < s.redirects + packetRedirects then
        throw (.resolve (.wire .cnameLoop))
      else return .inr (canonicalName, s.redirects + packetRedirects)
    | .noData => throw .noSuchResourceRecord

variable (queryOnLink : Nat → Packet → Except ResolveError Packet) (transactionId : Nat → Nat)

def followFrom : Nat → Nat → Following → List Exchanged × Option (Except LookupError (Packet × Str))
  | 0, _, _ => ([], none)
  | turns + 1, call, s =>
    match nextQuery cls rrType s (transactionId call) with
    | .error error => ([], some (.error error))
    | .ok (query, visited) =>
      match queryOnLink call query with
      | .error error => ([⟨query, .error error⟩], some (.error (.resolve error)))
      | .ok response =>
        match weigh s response with
        | .error error => ([⟨query, .ok response⟩], some (.error error))
        | .ok (.inl answer) => ([⟨query, .ok response⟩], some (.ok answer))
        | .ok (.inr (canonicalName, redirects)) =>
          let (calls, result) := followFrom turns (call + 1) ⟨canonicalName, visited, redirects⟩
          (⟨query, .ok response⟩ :: calls, result)

def queryFollowingRedirects (turns : Nat) (name : Str) :
    List Exchanged × Option (Except LookupError (Packet × Str)) :=
  followFrom cls rrType queryOnLink transactionId turns 0 ⟨name, [], 0⟩

end

/-!
## The addresses of a name

The queries of a lookup run at the same time, each with the place of its type in the list. What a query
has come to is a parameter.
-/

structure NameLookup where
  addresses : List IpAddr
  canonicalName : Str
  flags : Nat
deriving DecidableEq, Repr

structure QueryOutcome where
  rrType : Nat
  result : Except LookupError (Packet × Str)
deriving DecidableEq, Repr

def responseFamily (rrType : Nat) : Option Int :=
  if rrType = typeA then some 2 else if rrType = typeAaaa then some 10 else none

structure Gathering where
  addresses : List IpAddr
  canonicalName : Option Str
  lastError : Option LookupError
deriving DecidableEq, Repr

def gather (s : Gathering) (outcome : QueryOutcome) : Except LookupError Gathering :=
  match outcome.result with
  | .ok (response, followedName) => do
    let records ← lookupWire (extractAddressRecords response (responseFamily outcome.rrType))
    let canonicalName :=
      if !records.addresses.isEmpty && s.canonicalName.isNone then
        some (if records.canonicalName.isEmpty then followedName else records.canonicalName)
      else s.canonicalName
    return { s with addresses := pushAll s.addresses records.addresses, canonicalName }
  | .error error => .ok { s with lastError := some error }

def lookupNameExact (name : Str) (arrived : List (Nat × QueryOutcome)) :
    Except LookupError NameLookup := do
  let outcomes := (arrived.mergeSort fun left right => left.1 ≤ right.1).map Prod.snd
  let gathered ← outcomes.foldlM gather ⟨[], none, none⟩
  if gathered.addresses.isEmpty then throw (gathered.lastError.getD .noSuchResourceRecord)
  else return ⟨gathered.addresses, gathered.canonicalName.getD (trimEndWith (· == '.') name), 0⟩

end Resolved.Lookup
