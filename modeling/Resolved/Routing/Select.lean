import Resolved.Lib.Result
import Resolved.Routing.Table

namespace Resolved.Routing
open Lib

inductive ScopeKind where
  | global
  | link (ifindex : Int)
  | fallback
deriving DecidableEq, Repr

structure RouteScope where
  kind : ScopeKind
  servers : List SocketAddr
deriving DecidableEq, Repr

def domainMatchLabels (name domain : Str) : Option Nat :=
  if domain = ['.'] then some 0
  else if eqIgnoreAsciiCase name domain ∨
      (stripSuffix name domain).any fun front => front.getLast? = some '.' then
    some (splitAtChar '.' domain).length
  else none

def bestDomainMatch (name : Str) (domains : List Str) : Option Nat :=
  (domains.filterMap (domainMatchLabels name)).max?

namespace LinkState

def scope (link : LinkState) : RouteScope := ⟨.link link.ifindex, link.dnsServers⟩

def eligible (link : LinkState) : Bool := !link.dnsServers.isEmpty && link.kernelRelevantUnicast

def domainNames (link : LinkState) : List Str := link.domains.map (·.name)

end LinkState

namespace RoutingTable

def linkList (table : RoutingTable) : List LinkState := table.links.toList.map (·.2)

def scopeMatches (table : RoutingTable) (name : Str) (globalServers : List SocketAddr)
    (globalDomains : List Domain) : List (Nat × RouteScope) :=
  (if globalServers.isEmpty then []
    else (bestDomainMatch name (globalDomains.map (·.name))).toList.map fun labels =>
      (labels, ⟨.global, globalServers⟩)) ++
    (table.linkList.filter (·.eligible)).filterMap fun link =>
      (bestDomainMatch name link.domainNames).map fun labels => (labels, link.scope)

def defaultScopes (table : RoutingTable) (globalServers : List SocketAddr) : List RouteScope :=
  (if globalServers.isEmpty then [] else [⟨.global, globalServers⟩]) ++
    (table.linkList.filter fun link => link.effectiveDefaultRoute && link.eligible).map (·.scope)

def select (table : RoutingTable) (name : Str) (ifindex : Option Int)
    (globalServers fallbackServers : List SocketAddr) (globalDomains : List Domain) :
    Except LinkError (List RouteScope) :=
  match ifindex.filter (· ≠ 0) with
  | some ifindex => do
    validateIfindex ifindex
    let link ← okOr (.noSuchLink ifindex) table.links[ifindex]?
    if link.dnsServers.isEmpty ∨ !link.kernelRelevantUnicast then return []
    else return [⟨.link ifindex, link.dnsServers⟩]
  | none => do
    let name ← normalizeName name
    let found := table.scopeMatches name globalServers globalDomains
    match (found.map (·.1)).max? with
    | some best =>
      return found.filterMap fun (labels, scope) => if labels = best then some scope else none
    | none =>
      let scopes := table.defaultScopes globalServers
      if scopes.isEmpty ∧ !fallbackServers.isEmpty then
        return [⟨.fallback, fallbackServers⟩]
      else return scopes

end RoutingTable

end Resolved.Routing
