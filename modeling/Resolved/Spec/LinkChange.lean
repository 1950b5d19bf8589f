import Resolved.Links.Resolver
import Resolved.Spec.Routing

/-!
# Changes of links

A call that changes the routing table or the server specifications has to move the routing
generation on and to flush the cache, whether it succeeds or fails.
-/

namespace Resolved.Spec
open Lib Routing Links

inductive LinkOp where
  | syncNetworkdLinks (links : List NetworkdLink) (previousOrder incomingOrder : WalkOrder Int)
  | syncKernelLinks (kernels : List KernelLinkState)
  | setLinkDnsSpecs (ifindex : Int) (specs : List DnsServerSpec)
  | setLinkDomains (ifindex : Int) (domains : List Domain)
  | setLinkDefaultRoute (ifindex : Int) (defaultRoute : Option Bool)
  | setLinkDnssec (ifindex : Int) (mode : ValidationMode)
  | setLinkDnsOverTls (ifindex : Int) (mode : TlsMode)
  | setLinkDns (ifindex : Int) (servers : List SocketAddr)
  | setLinkLlmnr (ifindex : Int) (mode : SupportMode)
  | setLinkMulticastDns (ifindex : Int) (mode : SupportMode)
  | setLinkDnssecNegativeTrustAnchors (ifindex : Int) (anchors : List Str)
  | revertLink (ifindex : Int)

def LinkOp.apply (resolver : Resolver) : LinkOp → Reply
  | syncNetworkdLinks links previousOrder incomingOrder =>
    resolver.syncNetworkdLinks links previousOrder incomingOrder
  | syncKernelLinks kernels => resolver.syncKernelLinks kernels
  | setLinkDnsSpecs ifindex specs => resolver.setLinkDnsSpecs ifindex specs
  | setLinkDomains ifindex domains => resolver.setLinkDomains ifindex domains
  | setLinkDefaultRoute ifindex defaultRoute => resolver.setLinkDefaultRoute ifindex defaultRoute
  | setLinkDnssec ifindex mode => resolver.setLinkDnssec ifindex mode
  | setLinkDnsOverTls ifindex mode => resolver.setLinkDnsOverTls ifindex mode
  | setLinkDns ifindex servers => resolver.setLinkDns ifindex servers
  | setLinkLlmnr ifindex mode => resolver.setLinkLlmnr ifindex mode
  | setLinkMulticastDns ifindex mode => resolver.setLinkMulticastDns ifindex mode
  | setLinkDnssecNegativeTrustAnchors ifindex anchors =>
    resolver.setLinkDnssecNegativeTrustAnchors ifindex anchors
  | revertLink ifindex => resolver.revertLink ifindex

def Refreshes (before after : Resolver) : Prop :=
  after.routing ≠ before.routing ∨ after.linkServerSpecs ≠ before.linkServerSpecs →
    after.routingGeneration = (before.routingGeneration + 1) % 2 ^ 64 ∧ after.cache = before.cache.flush

def invalidName (name : Str) : Bool :=
  match normalizeName name with
  | .error _ => true
  | .ok _ => false

def refused (link : NetworkdLink) : Bool :=
  link.domains.any (fun domain => invalidName domain.name) ||
    link.dnssecNegativeTrustAnchors.any invalidName

def managedLinks (links : List NetworkdLink) (order : WalkOrder Int) : List NetworkdLink :=
  ((walk (Resolver.incomingLinks links) order).map (·.2)).filter (·.managed)

def writtenLinks (table : RoutingTable) : List NetworkdLink → List NetworkdLink
  | [] => []
  | link :: rest =>
    if (table.links[link.ifindex]?).isNone then writtenLinks table rest
    else if refused link then [link]
    else link :: writtenLinks table rest

/-- What a link becomes when the settings of `networkd` are written to it: the servers first, the
domains and modes unless a domain is invalid, the trust anchors unless one of them is. -/
def networkdTarget (config : Config) (settings : NetworkdLink) (link : LinkState) : LinkState :=
  let link := { link with
    dnsServers := pushNew (settings.dnsServers.map (normalizeServer settings.ifindex)) }
  match pushNew <$> settings.domains.mapM normalizeDomain with
  | .error _ => link
  | .ok domains =>
    let link := { link with
      domains := domains
      defaultRoute := settings.defaultRoute
      llmnr := settings.llmnr
      multicastDns := settings.multicastDns
      dnsOverTls := settings.dnsOverTls.getD config.dnsOverTls
      dnssec := settings.dnssec.getD config.dnssec }
    match pushNew <$> settings.dnssecNegativeTrustAnchors.mapM normalizeName with
    | .error _ => link
    | .ok anchors => { link with dnssecNegativeTrustAnchors := anchors }

def revertedLink (link : LinkState) : LinkState :=
  { LinkState.fresh link.ifindex with kernel := link.kernel }

def Departed (resolver : Resolver) (incoming : NetworkdLinks) (ifindex : Int) : Prop :=
  (∃ previous, resolver.networkdLinks[ifindex]? = some previous ∧ previous.managed = true) ∧
    stillManaged incoming ifindex = false

def LeavesStale (resolver : Resolver) : LinkOp → Prop
  | .setLinkDomains ifindex domains => resolver.linkIsManaged ifindex = false ∧
    Misreports resolver.routing (.setDomains ifindex domains)
  | .setLinkDefaultRoute ifindex defaultRoute => resolver.linkIsManaged ifindex = false ∧
    Misreports resolver.routing (.setDefaultRoute ifindex defaultRoute)
  | .setLinkDnssec ifindex mode => resolver.linkIsManaged ifindex = false ∧
    Misreports resolver.routing (.setDnssec ifindex mode)
  | .setLinkDnsOverTls ifindex mode => resolver.linkIsManaged ifindex = false ∧
    Misreports resolver.routing (.setDnsOverTls ifindex mode)
  | .setLinkDnsSpecs ifindex specs => resolver.linkIsManaged ifindex = false ∧
    MakesLink resolver.routing ifindex ∧ specs = [] ∧ resolver.linkServerSpecs[ifindex]? = none
  | .setLinkDns ifindex servers => resolver.linkIsManaged ifindex = false ∧
    MakesLink resolver.routing ifindex ∧ servers = [] ∧ resolver.linkServerSpecs[ifindex]? = none
  | .setLinkLlmnr ifindex mode => resolver.linkIsManaged ifindex = false ∧
    Misreports resolver.routing (.setLlmnr ifindex mode)
  | .setLinkMulticastDns ifindex mode => resolver.linkIsManaged ifindex = false ∧
    Misreports resolver.routing (.setMulticastDns ifindex mode)
  | .setLinkDnssecNegativeTrustAnchors ifindex anchors => resolver.linkIsManaged ifindex = false ∧
    Misreports resolver.routing (.setDnssecNegativeTrustAnchors ifindex anchors)
  | .revertLink _ => False
  | .syncKernelLinks kernels => (∃ kernel ∈ kernels, kernel.ifindex ≤ 0) ∧
    ¬ Settled resolver.routing (validReports kernels)
  | .syncNetworkdLinks links _ incomingOrder =>
    (∃ link ∈ managedLinks links incomingOrder, (resolver.routing.links[link.ifindex]?).isSome ∧ refused link) ∧
    ((∃ ifindex link, Departed resolver (Resolver.incomingLinks links) ifindex ∧
        resolver.routing.links[ifindex]? = some link ∧ revertedLink link ≠ link) ∨
      ∃ settings ∈ writtenLinks resolver.routing (managedLinks links incomingOrder), ∃ link,
        resolver.routing.links[settings.ifindex]? = some link ∧
          networkdTarget resolver.config settings link ≠ link)

end Resolved.Spec
