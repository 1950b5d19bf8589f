import Resolved.Lib.Text
import Resolved.Net

namespace Resolved.Routing
open Lib

inductive SupportMode where
  | no
  | resolve
  | yes
deriving DecidableEq, Repr

inductive ValidationMode where
  | no
  | allowDowngrade
  | yes
deriving DecidableEq, Repr

inductive TlsMode where
  | no
  | opportunistic
  | yes
deriving DecidableEq, Repr

structure Domain where
  name : Str
  routeOnly : Bool
deriving DecidableEq, Repr

inductive LinkError where
  | invalidIfindex (ifindex : Int)
  | invalidDomain (name : Str)
  | noSuchLink (ifindex : Int)
  | managedLink (ifindex : Int)
deriving DecidableEq, Repr

def normalizeName (name : Str) : Except LinkError Str :=
  let name := trimEndWith (· == '.') (trim name)
  if name = [] ∨ name = ['~'] then .ok ['.']
  else
    let name := if name.head? = some '~' then name.tail else name
    if name = [] ∨ !isAscii name ∨ name.length > 253 ∨
        (splitAtChar '.' name).any fun label => label.isEmpty || 63 < label.length then
      .error (.invalidDomain name)
    else .ok (toAsciiLowercase name)

structure LinkDomain where
  name : Str
  routeOnly : Bool
  normal : ∃ raw, normalizeName raw = .ok name
deriving DecidableEq

def normalizeDomain (domain : Domain) : Except LinkError LinkDomain :=
  match h : normalizeName domain.name with
  | .error error => .error error
  | .ok name => .ok ⟨name, domain.routeOnly, domain.name, h⟩

def normalizeServer (ifindex : Int) (server : SocketAddr) : SocketAddr :=
  match server with
  | .v4 ip port => .v4 ip port
  | .v6 ip port flowinfo scopeId =>
    if scopeId ≠ 0 ∨ !ip.isLinkLocal then server
    else if ifindex < 0 then server
    else .v6 ip port flowinfo (UInt32.ofNat ifindex.toNat)

def iffUp : UInt32 := 0x0001
def iffLoopback : UInt32 := 0x0008
def iffRunning : UInt32 := 0x0040
def iffLowerUp : UInt32 := 0x10000
def iffDormant : UInt32 := 0x20000
def ifOperUnknown : UInt8 := 0
def ifOperUp : UInt8 := 6

structure KernelLinkState where
  ifindex : Int
  ifname : Str
  flags : UInt32
  mtu : UInt32
  operstate : UInt8
  hasIpv4Global : Bool
  hasIpv4LinkLocal : Bool
  hasIpv6Global : Bool
  hasIpv6LinkLocal : Bool
deriving DecidableEq, Repr

namespace KernelLinkState

def hasCarrier (kernel : KernelLinkState) : Bool :=
  if kernel.operstate = ifOperUp then true
  else if kernel.operstate ≠ ifOperUnknown then false
  else kernel.flags &&& (iffLowerUp ||| iffRunning) == (iffLowerUp ||| iffRunning) &&
    kernel.flags &&& iffDormant == 0

def relevantUnicast (kernel : KernelLinkState) (servers : List SocketAddr) : Bool :=
  if kernel.flags &&& (iffLoopback ||| iffDormant) ≠ 0 ∨
      kernel.flags &&& (iffUp ||| iffLowerUp) ≠ (iffUp ||| iffLowerUp) ∨ !kernel.hasCarrier then
    false
  else
    let allowIpv4LinkLocal := servers.any fun server =>
      match server.ip with
      | .v4 address => address.isLinkLocal
      | .v6 _ => false
    let allowIpv6LinkLocal := servers.any fun server =>
      match server.ip with
      | .v4 _ => false
      | .v6 address => address.isLinkLocal
    kernel.hasIpv4Global || kernel.hasIpv6Global ||
      (allowIpv4LinkLocal && kernel.hasIpv4LinkLocal) ||
      (allowIpv6LinkLocal && kernel.hasIpv6LinkLocal)

end KernelLinkState

structure LinkState where
  ifindex : Int
  dnsServers : List SocketAddr
  domains : List LinkDomain
  defaultRoute : Option Bool
  llmnr : SupportMode
  multicastDns : SupportMode
  dnsOverTls : TlsMode
  dnssec : ValidationMode
  dnssecNegativeTrustAnchors : List Str
  kernel : Option KernelLinkState
deriving DecidableEq

def validateIfindex (ifindex : Int) : Except LinkError Unit :=
  if ifindex ≤ 0 then .error (.invalidIfindex ifindex) else .ok ()

namespace LinkState

def fresh (ifindex : Int) : LinkState where
  ifindex := ifindex
  dnsServers := []
  domains := []
  defaultRoute := none
  llmnr := .yes
  multicastDns := .yes
  dnsOverTls := .no
  dnssec := .allowDowngrade
  dnssecNegativeTrustAnchors := []
  kernel := none

def effectiveDefaultRoute (link : LinkState) : Bool :=
  link.defaultRoute.getD
    (!link.domains.any fun domain => domain.routeOnly && domain.name ≠ ['.'])

def kernelRelevantUnicast (link : LinkState) : Bool :=
  match link.kernel with
  | none => true
  | some kernel => kernel.relevantUnicast link.dnsServers

end LinkState

end Resolved.Routing
