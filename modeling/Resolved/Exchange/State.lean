import Resolved.Edns.Message
import Resolved.Links.Identity

/-!
# What the resolver keeps about a server

Instants and durations are nanoseconds. The metric and the cooldown of a server, which only the
choice among servers reads, are left out.
-/

namespace Resolved.Exchange
open Lib Wire Edns Routing Links

inductive ResolveError where
  | io (error : IoError)
  | wire (error : WireError)
  | link (error : LinkError)
  | noNameServers
  | queryRefused
  | protocol (message : String)
deriving DecidableEq, Repr

inductive TransportMode where
  | udp
  | tcp
deriving DecidableEq, Repr

def transportRetryAttempts : Nat := 3

structure ServerTransportState where
  mode : TransportMode
  failedUdp : Nat
  failedTcp : Nat
  packetTruncated : Bool
  packetFragmented : Bool
  receivedUdpFragmentMax : Nat
deriving DecidableEq, Repr

namespace ServerTransportState

protected def default : ServerTransportState := ⟨.udp, 0, 0, false, false, 512⟩

def failures (s : ServerTransportState) : TransportMode → Nat
  | .udp => s.failedUdp
  | .tcp => s.failedTcp

def setFailures (s : ServerTransportState) (failures : Nat) : TransportMode → ServerTransportState
  | .udp => { s with failedUdp := failures }
  | .tcp => { s with failedTcp := failures }

def recordSuccess (s : ServerTransportState) (mode : TransportMode) : ServerTransportState :=
  s.setFailures 0 mode

def clearFailures (s : ServerTransportState) : ServerTransportState :=
  { s with failedUdp := 0, failedTcp := 0 }

def recordFailure (s : ServerTransportState) (mode : TransportMode) :
    ServerTransportState × Option TransportMode :=
  let s := s.setFailures (min (s.failures mode + 1) 255) mode
  if s.failures mode < transportRetryAttempts ∨ mode ≠ s.mode then (s, none)
  else
    let other : TransportMode := match mode with
      | .udp => .tcp
      | .tcp => .udp
    ({ s with mode := other }.clearFailures, some other)

def recordTruncated (s : ServerTransportState) : ServerTransportState :=
  { s with packetTruncated := true }

def recordUdpPacket (s : ServerTransportState) (dnsSize fragmentSize : Nat) (ipv6 : Bool) :
    ServerTransportState :=
  let headerSize := if ipv6 then 48 else 28
  if fragmentSize = 0 then
    { s with receivedUdpFragmentMax := max s.receivedUdpFragmentMax (min dnsSize (2 ^ 32 - 1)) }
  else
    { s with
      packetFragmented := true
      receivedUdpFragmentMax := max s.receivedUdpFragmentMax (fragmentSize - headerSize) }

end ServerTransportState

def tlsFeatureGracePeriodMin : Nat := 5 * 60 * Edns.nanosPerSecond
def tlsFeatureGracePeriodMax : Nat := 6 * 60 * 60 * Edns.nanosPerSecond

structure TlsCapability where
  possible : Bool
  verified : Bool
  retryAfter : Option Nat
  gracePeriod : Nat
deriving DecidableEq, Repr

namespace TlsCapability

protected def default : TlsCapability := ⟨true, false, none, tlsFeatureGracePeriodMin⟩

def isPossible (s : TlsCapability) (strict : Bool) (now : Nat) : Bool × TlsCapability :=
  if strict then (true, s)
  else
    let s := if !s.possible ∧ s.retryAfter.any (fun retryAfter => retryAfter ≤ now) then
        { s with
          possible := true
          retryAfter := none
          gracePeriod := min (s.gracePeriod * 2) tlsFeatureGracePeriodMax }
      else s
    (s.possible, s)

def recordSuccess (s : TlsCapability) : TlsCapability :=
  { s with possible := true, verified := true, retryAfter := none }

def recordFailure (s : TlsCapability) (strict : Bool) (now : Nat) : TlsCapability :=
  if strict then s else { s with possible := false, retryAfter := some (now + s.gracePeriod) }

end TlsCapability

structure ServerState where
  features : ServerFeatureState
  tls : TlsCapability
  transport : ServerTransportState
  missingRootRrsig : Bool
  packetDoOff : Bool
  packetInvalid : Bool
deriving DecidableEq, Repr

namespace ServerState

protected def default : ServerState := ⟨.default, .default, .default, false, false, false⟩

def recordTlsSuccess (s : ServerState) : ServerState := { s with tls := s.tls.recordSuccess }

def recordTlsFailure (s : ServerState) (strict : Bool) (now : Nat) : ServerState :=
  { s with tls := s.tls.recordFailure strict now }

def recordBadOpt (s : ServerState) (level : FeatureLevel) (now : Nat) : ServerState :=
  { s with
    features := s.features.recordBadOpt level now
    transport := s.transport.clearFailures }

/-- `record_do_off`; the level returned is the new `features.possible`. -/
def recordDoOff (s : ServerState) (level : FeatureLevel) (now : Nat) : ServerState :=
  { s with
    packetDoOff := true
    features := s.features.recordDoOff level now
    transport := s.transport.clearFailures }

def downgradeFeature (s : ServerState) (level : FeatureLevel) (now : Nat) : ServerState :=
  { s with
    features := s.features.downgradeTo level now
    transport := s.transport.clearFailures }

def recordMissingRootRrsig (s : ServerState) (allowDowngrade : Bool) (now : Nat) : ServerState :=
  let s := { s with missingRootRrsig := true }
  if allowDowngrade then s.downgradeFeature .edns0 now else s

def recordTransportSuccess (s : ServerState) (mode : TransportMode) : ServerState :=
  { s with transport := s.transport.recordSuccess mode }

def recordTransportFailure (s : ServerState) (mode : TransportMode) :
    ServerState × Option TransportMode × Nat :=
  let (transport, switched) := s.transport.recordFailure mode
  ({ s with transport := transport }, switched, transport.failures mode)

def recordTransportTruncated (s : ServerState) : ServerState :=
  { s with transport := s.transport.recordTruncated }

def recordInvalidPacket (s : ServerState) : ServerState := { s with packetInvalid := true }

def clearTransportFailures (s : ServerState) : ServerState :=
  { s with transport := s.transport.clearFailures }

def recordUdpPacket (s : ServerState) (address : SocketAddr) (dnsSize fragmentSize : Nat) :
    ServerState :=
  { s with transport := s.transport.recordUdpPacket dnsSize fragmentSize address.isIpv6 }

end ServerState

def dnsTransactionAttemptsMax : Nat := 24

structure DnsAttemptBudget where
  attempts : Nat
  deadline : Nat
deriving DecidableEq, Repr

namespace DnsAttemptBudget

def remaining (budget : DnsAttemptBudget) (now : Nat) : Except ResolveError Nat :=
  if budget.deadline - now = 0 then .error (.io .timedOut) else .ok (budget.deadline - now)

def beginAttempt (budget : DnsAttemptBudget) (now : Nat) :
    Except ResolveError (DnsAttemptBudget × Nat) :=
  if budget.attempts ≥ dnsTransactionAttemptsMax then
    .error (.protocol "maximum DNS transaction attempts reached")
  else do
    let remaining ← budget.remaining now
    return ({ budget with attempts := budget.attempts + 1 }, remaining)

end DnsAttemptBudget

def dnsUdpPayloadSize (pathMtu : Option Nat) (ipv6 loopback fragmented : Bool)
    (receivedUdpFragmentMax : Nat) : Nat :=
  let headerSize := if ipv6 then 48 else 28
  let packetSize :=
    if loopback then 65536 - headerSize
    else
      let pathMtu := pathMtu.getD 0
      let size := if pathMtu = 0 then 1232 else pathMtu - headerSize
      let size := if fragmented ∧ 0 < receivedUdpFragmentMax ∧ receivedUdpFragmentMax < size then
          receivedUdpFragmentMax
        else size
      min size 4096
  min (max packetSize 512) 65535

end Resolved.Exchange
