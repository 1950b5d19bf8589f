import Resolved.Links.Resolver

/-!
# The identity of a server

A server is known by its scope, address and slot; what is configured for it is looked up each time.
-/

namespace Resolved.Links
open Lib Routing

structure ServerKey where
  scope : Int
  server : SocketAddr
  slot : Nat
deriving DecidableEq, Repr

namespace ServerKey

def withSlot (scope : ScopeKind) (server : SocketAddr) (slot : Nat) : ServerKey :=
  let scope : Int := match scope with
    | .global => 0
    | .fallback => -1
    | .link ifindex => ifindex
  ⟨scope, server, slot⟩

def scopeKind (key : ServerKey) : ScopeKind :=
  if key.scope > 0 then .link key.scope else if key.scope < 0 then .fallback else .global

def ifindex (key : ServerKey) : Option Int := if key.scope > 0 then some key.scope else none

end ServerKey

def pushSpecs (output : List DnsServerSpec) (address : SocketAddr) (found : List DnsServerSpec) :
    List DnsServerSpec :=
  let pushed := found.foldl (fun output spec => if spec ∈ output then output else output ++ [spec])
    output
  if pushed.length = output.length then pushed ++ [bareSpec address] else pushed

def projectLinkSpecs (addresses : List SocketAddr) (specs : Option (List DnsServerSpec)) :
    List DnsServerSpec :=
  addresses.foldl (fun output address =>
    pushSpecs output address (((specs.getD []).filter fun spec =>
      sameDnsEndpoint spec.address address).map fun spec => { spec with address := address })) []

inductive IoError where
  | timedOut
  | wouldBlock
  | invalidInput
  | os (code : Nat)
deriving DecidableEq, Repr

abbrev InterfaceNames := Str → Except IoError Int

def digitValue (c : Char) : Option Int :=
  if '0' ≤ c ∧ c ≤ '9' then some (c.toNat - '0'.toNat) else none

def parseI32 (value : Str) : Option Int := do
  let (sign, digits) : Int × Str := match value with
    | '-' :: rest => (-1, rest)
    | '+' :: rest => (1, rest)
    | rest => (1, rest)
  if digits.isEmpty then none
  else
    let magnitude ← digits.foldlM (fun total c => (digitValue c).map (total * 10 + ·)) 0
    let number := sign * magnitude
    if -2 ^ 31 ≤ number ∧ number < 2 ^ 31 then some number else none

def resolveIfindex (names : InterfaceNames) (value : Str) : Except IoError Int :=
  match parseI32 value with
  | some ifindex => if ifindex > 0 then .ok ifindex else .error .invalidInput
  | none => if Char.ofNat 0 ∈ value then .error .invalidInput else names value

namespace Resolver

def linkDnsSpecs (resolver : Resolver) (ifindex : Int) : List DnsServerSpec :=
  match resolver.routing.links[ifindex]? with
  | none => []
  | some link => projectLinkSpecs link.dnsServers resolver.linkServerSpecs[ifindex]?

def serverSpecsForScope (resolver : Resolver) (scope : ScopeKind) (servers : List SocketAddr) :
    List DnsServerSpec :=
  let configured := match scope with
    | .global => resolver.config.configuredUpstreamSpecs
    | .fallback => resolver.config.configuredFallbackUpstreamSpecs
    | .link ifindex => resolver.linkDnsSpecs ifindex
  servers.foldl (fun output address =>
    pushSpecs output address (configured.filter fun spec => spec.address = address)) []

def serverSpecForKey (resolver : Resolver) (key : ServerKey) : DnsServerSpec :=
  let specs := resolver.serverSpecsForScope key.scopeKind [key.server]
  ((specs.filter fun spec => spec.address = key.server)[key.slot]?).getD (bareSpec key.server)

def serverTransportIfindex (resolver : Resolver) (names : InterfaceNames) (key : ServerKey) :
    Except IoError (Option Int) :=
  match (resolver.serverSpecForKey key).interface with
  | some interface => some <$> resolveIfindex names interface
  | none => .ok key.ifindex

def serverDnsOverTlsMode (resolver : Resolver) (key : ServerKey) : TlsMode :=
  match key.scopeKind with
  | .link ifindex => (resolver.routing.links[ifindex]?).elim resolver.config.dnsOverTls (·.dnsOverTls)
  | .global | .fallback => resolver.config.dnsOverTls

def serverDnssecMode (resolver : Resolver) (key : ServerKey) : ValidationMode :=
  match key.scopeKind with
  | .link ifindex => (resolver.routing.links[ifindex]?).elim resolver.config.dnssec (·.dnssec)
  | .global | .fallback => resolver.config.dnssec

def serverTlsEndpoint (resolver : Resolver) (key : ServerKey) : SocketAddr × Option Str :=
  let spec := resolver.serverSpecForKey key
  let endpoint := spec.address
  (if endpoint.port = 53 ∨ endpoint.port = 853 then endpoint.setPort 853 else endpoint, spec.serverName)

end Resolver

end Resolved.Links
