import Resolved.Caching.ResponseCache
import Resolved.Links.Config

namespace Resolved.Links
open Lib Routing Caching

abbrev NetworkdLinks := Std.ExtTreeMap Int NetworkdLink
abbrev LinkServerSpecs := Std.ExtTreeMap Int (List DnsServerSpec)

structure Resolver where
  config : Config
  routing : RoutingTable
  networkdLinks : NetworkdLinks
  linkServerSpecs : LinkServerSpecs
  routingGeneration : Nat
  cache : Cache

abbrev Reply := Except LinkError Unit × Resolver

def sameDnsEndpoint (left right : SocketAddr) : Bool :=
  left.ip = right.ip ∧ left.port = right.port

def normalizeLinkSpecs (addresses : List SocketAddr) (specs : List DnsServerSpec) :
    List DnsServerSpec :=
  pushNew (specs.map fun spec =>
    match addresses.find? (sameDnsEndpoint spec.address) with
    | some address => { spec with address := address }
    | none => spec)

def replaceLinkServerSpecs (stored : LinkServerSpecs) (ifindex : Int) (specs : List DnsServerSpec) :
    Bool × LinkServerSpecs :=
  if specs.isEmpty then (stored[ifindex]?.isSome, stored.erase ifindex)
  else if stored[ifindex]? = some specs then (false, stored)
  else (true, stored.insert ifindex specs)

def removeLinkServerSpecs (stored : LinkServerSpecs) (ifindex : Int) : Bool × LinkServerSpecs :=
  (stored[ifindex]?.isSome, stored.erase ifindex)

def updateAll {σ α : Type} (update : σ → α → Bool × σ) (values : List α) (start : σ) : Bool × σ :=
  values.foldl (fun (changed, state) value =>
    let (again, state) := update state value
    (changed || again, state)) (false, start)

def andThen (first : Outcome) (next : RoutingTable → Outcome) : Outcome :=
  match first with
  | (.error error, table) => (.error error, table)
  | (.ok changed, table) =>
    match next table with
    | (.error error, table) => (.error error, table)
    | (.ok again, table) => (.ok (changed || again), table)

def applyNetworkd (config : Config) (link : NetworkdLink) (table : RoutingTable) : Outcome :=
  andThen (andThen (andThen (andThen (andThen (andThen (andThen
    (table.setDns link.ifindex link.dnsServers)
    (·.setDomains link.ifindex link.domains))
    (·.setDefaultRoute link.ifindex link.defaultRoute))
    (·.setLlmnr link.ifindex link.llmnr))
    (·.setMulticastDns link.ifindex link.multicastDns))
    (·.setDnsOverTls link.ifindex (link.dnsOverTls.getD config.dnsOverTls)))
    (·.setDnssec link.ifindex (link.dnssec.getD config.dnssec)))
    (·.setDnssecNegativeTrustAnchors link.ifindex link.dnssecNegativeTrustAnchors)

structure SyncNotes where
  changed : Bool
  removedIdentities : List Int
  managedIdentities : List (Int × List SocketAddr × List DnsServerSpec)

def SyncNotes.start : SyncNotes := ⟨false, [], []⟩

abbrev SyncRun := Except LinkError SyncNotes × RoutingTable

def stillManaged (incoming : NetworkdLinks) (ifindex : Int) : Bool :=
  incoming[ifindex]?.any (·.managed)

def departLoop (incoming : NetworkdLinks) :
    List (Int × NetworkdLink) → SyncNotes → RoutingTable → SyncRun
  | [], notes, table => (.ok notes, table)
  | (ifindex, previous) :: rest, notes, table =>
    if previous.managed ∧ !stillManaged incoming ifindex then
      let notes := { notes with removedIdentities := notes.removedIdentities ++ [ifindex] }
      if (table.links[ifindex]?).isSome then
        match table.revert ifindex with
        | (.error error, table) => (.error error, table)
        | (.ok changed, table) =>
          departLoop incoming rest { notes with changed := notes.changed || changed } table
      else departLoop incoming rest notes table
    else departLoop incoming rest notes table

def applyLoop (config : Config) : List NetworkdLink → SyncNotes → RoutingTable → SyncRun
  | [], notes, table => (.ok notes, table)
  | link :: rest, notes, table =>
    if (table.links[link.ifindex]?).isNone then
      applyLoop config rest { notes with
        removedIdentities := notes.removedIdentities ++ [link.ifindex] } table
    else
      match applyNetworkd config link table with
      | (.error error, table) => (.error error, table)
      | (.ok changed, table) =>
        let identities := (table.links[link.ifindex]?).toList.map fun state =>
          (link.ifindex, state.dnsServers, link.dnsServerSpecs)
        applyLoop config rest { notes with
          changed := notes.changed || changed
          managedIdentities := notes.managedIdentities ++ identities } table

def walk (links : NetworkdLinks) (order : WalkOrder Int) : List (Int × NetworkdLink) :=
  (order.arrange links.keys).filterMap fun ifindex => links[ifindex]?.map fun link => (ifindex, link)

namespace Resolver

def linkIsManaged (resolver : Resolver) (ifindex : Int) : Bool :=
  resolver.networkdLinks[ifindex]?.any (·.managed)

def networkdLinkRelevant (resolver : Resolver) (ifindex : Int) : Bool :=
  resolver.networkdLinks[ifindex]?.all (·.resolverRelevant)

def finishRoutingChange (resolver : Resolver) (changed : Bool) : Resolver :=
  if changed then
    { resolver with
      routingGeneration := (resolver.routingGeneration + 1) % 2 ^ 64
      cache := resolver.cache.flush }
  else resolver

def setLinkField (resolver : Resolver) (ifindex : Int) (set : RoutingTable → Outcome) : Reply :=
  if resolver.linkIsManaged ifindex then (.error (.managedLink ifindex), resolver)
  else
    match set resolver.routing with
    | (.error error, table) => (.error error, { resolver with routing := table })
    | (.ok changed, table) =>
      (.ok (), { resolver with routing := table }.finishRoutingChange changed)

def setLinkDomains (resolver : Resolver) (ifindex : Int) (domains : List Domain) : Reply :=
  resolver.setLinkField ifindex (·.setDomains ifindex domains)

def setLinkDefaultRoute (resolver : Resolver) (ifindex : Int) (defaultRoute : Option Bool) : Reply :=
  resolver.setLinkField ifindex (·.setDefaultRoute ifindex defaultRoute)

def setLinkLlmnr (resolver : Resolver) (ifindex : Int) (mode : SupportMode) : Reply :=
  resolver.setLinkField ifindex (·.setLlmnr ifindex mode)

def setLinkMulticastDns (resolver : Resolver) (ifindex : Int) (mode : SupportMode) : Reply :=
  resolver.setLinkField ifindex (·.setMulticastDns ifindex mode)

def setLinkDnsOverTls (resolver : Resolver) (ifindex : Int) (mode : TlsMode) : Reply :=
  resolver.setLinkField ifindex (·.setDnsOverTls ifindex mode)

def setLinkDnssec (resolver : Resolver) (ifindex : Int) (mode : ValidationMode) : Reply :=
  resolver.setLinkField ifindex (·.setDnssec ifindex mode)

def setLinkDnssecNegativeTrustAnchors (resolver : Resolver) (ifindex : Int) (anchors : List Str) :
    Reply :=
  resolver.setLinkField ifindex (·.setDnssecNegativeTrustAnchors ifindex anchors)

def setLinkDnsSpecs (resolver : Resolver) (ifindex : Int) (specs : List DnsServerSpec) : Reply :=
  if resolver.linkIsManaged ifindex then (.error (.managedLink ifindex), resolver)
  else
    match resolver.routing.setDns ifindex (specs.map (·.address)) with
    | (.error error, table) => (.error error, { resolver with routing := table })
    | (.ok routeChanged, table) =>
      let addresses := ((table.links[ifindex]?).map (·.dnsServers)).getD []
      let (specChanged, stored) := replaceLinkServerSpecs resolver.linkServerSpecs ifindex
        (normalizeLinkSpecs addresses specs)
      (.ok (), { resolver with routing := table, linkServerSpecs := stored }.finishRoutingChange
        (routeChanged || specChanged))

def setLinkDns (resolver : Resolver) (ifindex : Int) (servers : List SocketAddr) : Reply :=
  resolver.setLinkDnsSpecs ifindex (servers.map bareSpec)

def revertLink (resolver : Resolver) (ifindex : Int) : Reply :=
  if resolver.linkIsManaged ifindex then (.error (.managedLink ifindex), resolver)
  else
    match resolver.routing.revert ifindex with
    | (.error error, table) => (.error error, { resolver with routing := table })
    | (.ok routeChanged, table) =>
      let (identityChanged, stored) := removeLinkServerSpecs resolver.linkServerSpecs ifindex
      (.ok (), { resolver with routing := table, linkServerSpecs := stored }.finishRoutingChange
        (routeChanged || identityChanged))

def syncKernelLinks (resolver : Resolver) (kernels : List KernelLinkState) : Reply :=
  match resolver.routing.syncKernelLinks kernels with
  | (.error error, table) => (.error error, { resolver with routing := table })
  | (.ok routeChanged, table) =>
    let stored := resolver.linkServerSpecs.filter fun ifindex _ => table.links.contains ifindex
    let identityChanged : Bool := stored.size ≠ resolver.linkServerSpecs.size
    (.ok (), { resolver with routing := table, linkServerSpecs := stored }.finishRoutingChange
      (routeChanged || identityChanged))

def incomingLinks (links : List NetworkdLink) : NetworkdLinks :=
  links.foldl (fun incoming link => incoming.insert link.ifindex link) ∅

def syncNetworkdTable (resolver : Resolver) (incoming : NetworkdLinks)
    (previousOrder incomingOrder : WalkOrder Int) : SyncRun :=
  match departLoop incoming (walk resolver.networkdLinks previousOrder) .start resolver.routing with
  | (.error error, table) => (.error error, table)
  | (.ok notes, table) =>
    applyLoop resolver.config
      (((walk incoming incomingOrder).map (·.2)).filter (·.managed)) notes table

def syncNetworkdSpecs (stored : LinkServerSpecs) (notes : SyncNotes) : Bool × LinkServerSpecs :=
  let (removed, stored) := updateAll removeLinkServerSpecs notes.removedIdentities stored
  let (replaced, stored) := updateAll (fun stored (ifindex, servers, specs) =>
    replaceLinkServerSpecs stored ifindex
      (if specs.isEmpty then servers.map bareSpec else normalizeLinkSpecs servers specs))
    notes.managedIdentities stored
  (removed || replaced, stored)

def syncNetworkdLinks (resolver : Resolver) (links : List NetworkdLink)
    (previousOrder incomingOrder : WalkOrder Int) : Reply :=
  let incoming := incomingLinks links
  match resolver.syncNetworkdTable incoming previousOrder incomingOrder with
  | (.error error, table) => (.error error, { resolver with routing := table })
  | (.ok notes, table) =>
    let (identityChanged, stored) := syncNetworkdSpecs resolver.linkServerSpecs notes
    (.ok (), { resolver with
      routing := table
      networkdLinks := incoming
      linkServerSpecs := stored }.finishRoutingChange (notes.changed || identityChanged))

end Resolver

end Resolved.Links
