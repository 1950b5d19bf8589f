import Resolved.Exchange.State
import Resolved.Lib.Pool

/-!
# The pools of sockets and streams

The three maps of the resolver are one pool here, whose keys tell them apart. A connection is known
by what it was established with; whether the system calls succeed is given.
-/

namespace Resolved.Exchange
open Lib Links

inductive Channel where
  | udp (server : ServerKey)
  | tcp (server : ServerKey)
  | tls (server : ServerKey) (strict : Bool)
deriving DecidableEq, Repr

def Channel.server : Channel → ServerKey
  | udp server | tcp server | tls server _ => server

def Channel.poolMax : Channel → Nat
  | udp _ => 8
  | tcp _ => 4
  | tls _ _ => 4

structure TlsPeer where
  serverName : Option Str
  strict : Bool
deriving DecidableEq, Repr

structure Connection where
  endpoint : SocketAddr
  ifindex : Option Int
  tls : Option TlsPeer
deriving DecidableEq, Repr

abbrev Pools := Pool Channel Connection

def ioResult {α : Type} : Except IoError α → Except ResolveError α
  | .ok value => .ok value
  | .error error => .error (.io error)

section
variable (resolver : Resolver) (names : InterfaceNames) (server : ServerKey)

def newUdpSocket (connected : Except IoError Unit) : Except ResolveError Connection := do
  let ifindex ← ioResult (resolver.serverTransportIfindex names server)
  ioResult connected
  return ⟨server.server, ifindex, none⟩

def newTcpStream (connected : Except IoError Unit) : Except ResolveError Connection := do
  let ifindex ← ioResult (resolver.serverTransportIfindex names server)
  ioResult connected
  return ⟨server.server, ifindex, none⟩

def newTlsStream (strict : Bool) (connected : Except IoError Unit) :
    Except ResolveError Connection := do
  let (endpoint, serverName) := resolver.serverTlsEndpoint server
  let ifindex ← ioResult (resolver.serverTransportIfindex names server)
  ioResult connected
  return ⟨endpoint, ifindex, some ⟨serverName, strict⟩⟩

end

abbrev Taken := Except ResolveError (Connection × Bool) × Pools

def takeOr (pools : Pools) (channel : Channel) (new : Except ResolveError Connection)
    (configured : Except IoError Unit) : Taken :=
  match pools.pop channel with
  | (some connection, pools) =>
    (ioResult configured >>= fun _ => pure (connection, true), pools)
  | (none, _) => (new >>= fun connection => ioResult configured >>= fun _ =>
    pure (connection, false), pools)

section
variable (resolver : Resolver) (names : InterfaceNames) (pools : Pools) (server : ServerKey)

def takeUdpSocket (connected : Except IoError Unit) : Taken :=
  takeOr pools (.udp server) (newUdpSocket resolver names server connected) (.ok ())

def takeTcpStream (connected configured : Except IoError Unit) : Taken :=
  takeOr pools (.tcp server) (newTcpStream resolver names server connected) configured

def takeTlsStream (strict : Bool) (connected configured : Except IoError Unit) : Taken :=
  takeOr pools (.tls server strict) (newTlsStream resolver names server strict connected) configured

end

def recycle (pools : Pools) (channel : Channel) (connection : Connection) : Pools :=
  pools.push channel.poolMax channel connection

def forgetTlsStreams (pools : Pools) (server : ServerKey) (strict : Bool) : Pools :=
  pools.forget (.tls server strict)

end Resolved.Exchange
