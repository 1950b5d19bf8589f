import Resolved.Routing.Select

/-!
# Configuration of servers and links

The parts of the configuration, and of the state `networkd` publishes for a link, that the modelled
functions read.
-/

namespace Resolved.Links
open Lib Routing

structure DnsServerSpec where
  address : SocketAddr
  interface : Option Str
  serverName : Option Str
deriving DecidableEq, Repr

def bareSpec (address : SocketAddr) : DnsServerSpec := ⟨address, none, none⟩

structure Config where
  upstreams : List SocketAddr
  upstreamSpecs : List DnsServerSpec
  fallbackUpstreams : List SocketAddr
  fallbackUpstreamSpecs : List DnsServerSpec
  domains : List Domain
  dnsOverTls : TlsMode
  dnssec : ValidationMode
  cache : Bool
  cacheFromLocalhost : Bool
  refuseRecordTypes : List Nat

def isLocalStub (server : SocketAddr) : Bool :=
  match server.ip with
  | .v4 address => address == ⟨127, 0, 0, 53⟩ || address == ⟨127, 0, 0, 54⟩
  | .v6 address => address.isLoopback

def filteredServers (servers : List SocketAddr) : List SocketAddr :=
  pushNew (servers.filter fun server => !isLocalStub server)

def specsOf (specs : List DnsServerSpec) (address : SocketAddr) : List DnsServerSpec :=
  let found := specs.filter fun spec => spec.address = address
  if found.isEmpty then [bareSpec address] else found

def filteredServerSpecs (addresses : List SocketAddr) (specs : List DnsServerSpec) :
    List DnsServerSpec :=
  (filteredServers addresses).flatMap fun address => pushNew (specsOf specs address)

namespace Config

def configuredUpstreams (config : Config) : List SocketAddr := filteredServers config.upstreams

def configuredUpstreamSpecs (config : Config) : List DnsServerSpec :=
  filteredServerSpecs config.upstreams config.upstreamSpecs

def configuredFallbackUpstreams (config : Config) : List SocketAddr :=
  filteredServers config.fallbackUpstreams

def configuredFallbackUpstreamSpecs (config : Config) : List DnsServerSpec :=
  filteredServerSpecs config.fallbackUpstreams config.fallbackUpstreamSpecs

end Config

inductive OperationalState where
  | missing
  | off
  | noCarrier
  | dormant
  | degradedCarrier
  | carrier
  | degraded
  | enslaved
  | routable
  | unknown
deriving DecidableEq, Repr

def OperationalState.resolverRelevant : OperationalState → Bool
  | degradedCarrier | degraded | routable => true
  | _ => false

structure NetworkdLink where
  ifindex : Int
  managed : Bool
  operstate : OperationalState
  dnsServers : List SocketAddr
  dnsServerSpecs : List DnsServerSpec
  domains : List Domain
  defaultRoute : Option Bool
  llmnr : SupportMode
  multicastDns : SupportMode
  dnsOverTls : Option TlsMode
  dnssec : Option ValidationMode
  dnssecNegativeTrustAnchors : List Str
deriving DecidableEq, Repr

def NetworkdLink.resolverRelevant (link : NetworkdLink) : Bool :=
  !link.managed || link.operstate.resolverRelevant

end Resolved.Links
