import Resolved.Exchange.Pool
import Resolved.Lib.Transition
import Resolved.Spec.LinkChange

/-!
# Reuse of connections

Exchanges of any number of threads take connections, use them and put them back, and calls that
reconfigure links come in between. A connection that comes out of the pool has to be one that would
be established now.
-/

namespace Resolved.Spec
open Lib Routing Links Exchange

def identity (resolver : Resolver) (names : InterfaceNames) :
    Channel → Except IoError Connection
  | .udp server | .tcp server =>
    (fun ifindex => ⟨server.server, ifindex, none⟩) <$>
      resolver.serverTransportIfindex names server
  | .tls server strict =>
    (fun ifindex => ⟨(resolver.serverTlsEndpoint server).1, ifindex,
      some ⟨(resolver.serverTlsEndpoint server).2, strict⟩⟩) <$>
        resolver.serverTransportIfindex names server

structure PoolState where
  resolver : Resolver
  names : InterfaceNames
  pools : Pools
  leased : List (Channel × Connection)

inductive PoolAction where
  | take (channel : Channel) (connected configured : Except IoError Unit)
  | reopen (channel : Channel) (connected : Except IoError Unit)
  | recycle (lease : Nat)
  | discard (lease : Nat)
  | recordTlsFailure (server : ServerKey) (strict : Bool)
  | reconfigure (op : LinkOp)
  | rename (names : InterfaceNames)

namespace PoolState

def start (resolver : Resolver) (names : InterfaceNames) : PoolState :=
  ⟨resolver, names, .empty, []⟩

variable (state : PoolState)

def take (channel : Channel) (connected configured : Except IoError Unit) : Taken :=
  match channel with
  | .udp server => takeUdpSocket state.resolver state.names state.pools server connected
  | .tcp server => takeTcpStream state.resolver state.names state.pools server connected configured
  | .tls server strict =>
    takeTlsStream state.resolver state.names state.pools server strict connected configured

def new (channel : Channel) (connected : Except IoError Unit) : Except ResolveError Connection :=
  match channel with
  | .udp server => newUdpSocket state.resolver state.names server connected
  | .tcp server => newTcpStream state.resolver state.names server connected
  | .tls server strict => newTlsStream state.resolver state.names server strict connected

def step (state : PoolState) : PoolAction → Option PoolState
  | .take channel connected configured =>
    match state.take channel connected configured with
    | (.ok (connection, _), pools) =>
      some { state with pools := pools, leased := state.leased ++ [(channel, connection)] }
    | (.error _, pools) => some { state with pools := pools }
  | .reopen channel connected =>
    match state.new channel connected with
    | .ok connection => some { state with leased := state.leased ++ [(channel, connection)] }
    | .error _ => some state
  | .recycle lease => do
    let (channel, connection) ← state.leased[lease]?
    return { state with
      pools := Exchange.recycle state.pools channel connection
      leased := state.leased.eraseIdx lease }
  | .discard lease => some { state with leased := state.leased.eraseIdx lease }
  | .recordTlsFailure server strict =>
    some { state with pools := forgetTlsStreams state.pools server strict }
  | .reconfigure op => some { state with resolver := (op.apply state.resolver).2 }
  | .rename names => some { state with names := names }

def InUse (channel : Channel) : Prop :=
  state.pools channel ≠ [] ∨ ∃ connection, (channel, connection) ∈ state.leased

def ReusesCurrent : Prop :=
  ∀ channel connected configured connection pools,
    state.take channel connected configured = (.ok (connection, true), pools) →
      identity state.resolver state.names channel = .ok connection

end PoolState

def Rewrites (resolver : Resolver) (ifindex : Int) : LinkOp → Prop
  | .setLinkDnsSpecs changed _ => changed = ifindex ∧ resolver.linkIsManaged ifindex = false
  | .setLinkDns changed _ => changed = ifindex ∧ resolver.linkIsManaged ifindex = false
  | .revertLink changed => changed = ifindex ∧ resolver.linkIsManaged ifindex = false
  | .syncNetworkdLinks links _ _ => Departed resolver (Resolver.incomingLinks links) ifindex ∨
    stillManaged (Resolver.incomingLinks links) ifindex = true
  | .syncKernelLinks kernels => (∀ kernel ∈ kernels, 0 < kernel.ifindex) ∧
    ∀ kernel ∈ kernels, kernel.ifindex ≠ ifindex
  | _ => False

/-- No call gives another endpoint, interface or server name to a server of a link it writes while
there are connections for that server, and no interface they use changes its index. -/
def KeepsIdentities (state : PoolState) : PoolAction → Prop
  | .reconfigure op => ∀ channel, state.InUse channel → Rewrites state.resolver channel.server.scope op →
      identity (op.apply state.resolver).2 state.names channel = identity state.resolver state.names channel
  | .rename names => ∀ channel, state.InUse channel →
    identity state.resolver names channel = identity state.resolver state.names channel
  | _ => True

end Resolved.Spec
