import Resolved.Lib.RwLock
import Resolved.Llmnr.Packet

/-!
# The LLMNR engine

Calls of the engine run in threads of their own. A call takes a step when it gets a lock or when it has
done what it holds the locks for.
-/

namespace Resolved.Llmnr
open Lib

inductive LlmnrMode where
  | no
  | resolve
  | yes
deriving DecidableEq, Repr

structure LlmnrLinkCfg where
  ifindex : Int
  mode : LlmnrMode
  claimNames : List Str
  addressesV4 : List Ipv4Addr
  addressesV6 : List Ipv6Addr
deriving DecidableEq

structure LlmnrConflict where
  name : Str
  ifindex : Int
  peer : SocketAddr
deriving DecidableEq

structure LlmnrEngine where
  links : Std.ExtTreeMap Int LlmnrLinkCfg
  conflicts : List LlmnrConflict
  inflight : Nat → Option Str
  sent : List (Bytes × SocketAddr)

def norm (name : Str) : Str := toAsciiLowercase (trimEndWith (· == '.') name)

namespace LlmnrEngine

def weOwn (engine : LlmnrEngine) (ifindex : Int) (name : Str) : Bool :=
  match engine.links[ifindex]? with
  | none => false
  | some link => link.mode = .yes && link.claimNames.any fun claimed => norm claimed = norm name

def Lists (engine : LlmnrEngine) (order : List LlmnrLinkCfg) : Prop :=
  order.Perm (engine.links.toList.map (·.2))

instance (engine : LlmnrEngine) (order : List LlmnrLinkCfg) : Decidable (engine.Lists order) :=
  inferInstanceAs (Decidable (List.Perm _ _))

end LlmnrEngine

inductive Lock where
  | links
  | conflicts
  | inflight
deriving DecidableEq, Repr

inductive LinkChange where
  | set (cfg : LlmnrLinkCfg)
  | clear (ifindex : Int)
deriving DecidableEq

def LinkChange.apply (links : Std.ExtTreeMap Int LlmnrLinkCfg) :
    LinkChange → Std.ExtTreeMap Int LlmnrLinkCfg
  | set cfg => links.insert cfg.ifindex cfg
  | clear ifindex => links.erase ifindex

inductive Call where
  | setLink (cfg : LlmnrLinkCfg)
  | clearLink (ifindex : Int)
  | weOwn (ifindex : Int) (name : Str)
  | handleQuery (pkt : Bytes) (peer : SocketAddr)
  | handleResponse (pkt : Bytes) (peer : SocketAddr)
deriving DecidableEq

structure QueryCall where
  pkt : Bytes
  peer : SocketAddr
  qname : Str
  qtype : Nat
deriving DecidableEq

structure ResponseCall where
  id : Nat
  qname : Str
  peer : SocketAddr
deriving DecidableEq

inductive Phase where
  | start (call : Call)
  | done (answer : Option Bool)
  -- `set_link` and `clear_link`: the lock is asked for, and held
  | queued (change : LinkChange)
  | changing (change : LinkChange)
  -- `we_own`
  | owns (ifindex : Int) (name : Str)
  | owning (ifindex : Int) (name : Str)
  -- `handle_query`: the links are copied, then each is asked for by `we_own`
  | querying (query : QueryCall)
  | copying (query : QueryCall)
  | answers (query : QueryCall) (rest : List LlmnrLinkCfg)
  | queryOwns (query : QueryCall) (link : LlmnrLinkCfg) (rest : List LlmnrLinkCfg)
  | queryOwning (query : QueryCall) (link : LlmnrLinkCfg) (rest : List LlmnrLinkCfg)
  -- `handle_response`: the guards of `inflight` and `links` live until the loop ends
  | responding (response : ResponseCall)
  | taking (response : ResponseCall)
  | comparing (name : Str) (peer : SocketAddr)
  | checks (name : Str) (peer : SocketAddr) (rest : List LlmnrLinkCfg)
  | responseOwns (name : Str) (peer : SocketAddr) (link : LlmnrLinkCfg) (rest : List LlmnrLinkCfg)
  | responseOwning (name : Str) (peer : SocketAddr) (link : LlmnrLinkCfg) (rest : List LlmnrLinkCfg)
  | recording (name : Str) (peer : SocketAddr) (link : LlmnrLinkCfg) (rest : List LlmnrLinkCfg)
  | pushing (name : Str) (peer : SocketAddr) (link : LlmnrLinkCfg) (rest : List LlmnrLinkCfg)
deriving DecidableEq

def Phase.uses : Phase → LockUse Lock
  | start _ | done _ | answers .. => ⟨[], none⟩
  | queued _ => ⟨[], some (.links, .write)⟩
  | changing _ => ⟨[(.links, .write)], none⟩
  | owns .. | querying _ | queryOwns .. => ⟨[], some (.links, .read)⟩
  | owning .. | copying _ | queryOwning .. => ⟨[(.links, .read)], none⟩
  | responding _ => ⟨[], some (.inflight, .write)⟩
  | taking _ => ⟨[(.inflight, .write)], none⟩
  | comparing .. => ⟨[(.inflight, .write)], some (.links, .read)⟩
  | checks .. => ⟨[(.inflight, .write), (.links, .read)], none⟩
  | responseOwns .. => ⟨[(.inflight, .write), (.links, .read)], some (.links, .read)⟩
  | responseOwning .. => ⟨[(.inflight, .write), (.links, .read), (.links, .read)], none⟩
  | recording .. => ⟨[(.inflight, .write), (.links, .read)], some (.conflicts, .write)⟩
  | pushing .. =>
    ⟨[(.inflight, .write), (.links, .read), (.conflicts, .write)], none⟩

def Phase.unfinished : Phase → Bool
  | start _ | done _ => false
  | _ => true

structure EngineState (n : Nat) where
  engine : LlmnrEngine
  phases : Fin n → Phase

structure Turn (n : Nat) where
  thread : Fin n
  order : List LlmnrLinkCfg

namespace EngineState
variable {n : Nat}

def uses (s : EngineState n) (thread : Fin n) : LockUse Lock := (s.phases thread).uses

def response (query : QueryCall) (link : LlmnrLinkCfg) : Option Bytes :=
  buildResponse query.pkt
    (if query.qtype = 1 ∨ query.qtype = 255 then link.addressesV4 else [])
    (if query.qtype = 28 ∨ query.qtype = 255 then link.addressesV6 else [])

def advance (lossy : Bytes → Str) (engine : LlmnrEngine) (order : List LlmnrLinkCfg) :
    Phase → Option (LlmnrEngine × Phase)
  | .start (.setLink cfg) => some (engine, .queued (.set cfg))
  | .start (.clearLink ifindex) => some (engine, .queued (.clear ifindex))
  | .start (.weOwn ifindex name) => some (engine, .owns ifindex name)
  | .start (.handleQuery pkt peer) =>
    match parseQname lossy pkt with
    | none => some (engine, .done none)
    | some qname => some (engine, .querying ⟨pkt, peer, qname, (qtypeAt pkt).getD 1⟩)
  | .start (.handleResponse pkt peer) =>
    match parseQname lossy pkt with
    | none => some (engine, .done none)
    | some qname => some (engine, .responding ⟨u16At pkt 0, qname, peer⟩)
  | .done _ => none
  | .queued change => some (engine, .changing change)
  | .changing change => some ({ engine with links := change.apply engine.links }, .done none)
  | .owns ifindex name => some (engine, .owning ifindex name)
  | .owning ifindex name => some (engine, .done (some (engine.weOwn ifindex name)))
  | .querying query => some (engine, .copying query)
  | .copying query => if engine.Lists order then some (engine, .answers query order) else none
  | .answers _ [] => some (engine, .done none)
  | .answers query (link :: rest) =>
    if link.mode = .yes then some (engine, .queryOwns query link rest)
    else some (engine, .answers query rest)
  | .queryOwns query link rest => some (engine, .queryOwning query link rest)
  | .queryOwning query link rest =>
    if engine.weOwn link.ifindex query.qname then
      let sent := (response query link).toList.map fun packet => (packet, query.peer)
      some ({ engine with sent := engine.sent ++ sent }, .answers query rest)
    else some (engine, .answers query rest)
  | .responding response => some (engine, .taking response)
  | .taking response =>
    match engine.inflight response.id with
    | none => some (engine, .done none)
    | some name =>
      let engine := { engine with inflight := Function.update engine.inflight response.id none }
      if norm name ≠ norm response.qname then some (engine, .done none)
      else some (engine, .comparing name response.peer)
  | .comparing name peer =>
    if engine.Lists order then some (engine, .checks name peer order) else none
  | .checks _ _ [] => some (engine, .done none)
  | .checks name peer (link :: rest) => some (engine, .responseOwns name peer link rest)
  | .responseOwns name peer link rest => some (engine, .responseOwning name peer link rest)
  | .responseOwning name peer link rest =>
    if engine.weOwn link.ifindex name then some (engine, .recording name peer link rest)
    else some (engine, .checks name peer rest)
  | .recording name peer link rest => some (engine, .pushing name peer link rest)
  | .pushing name peer link rest =>
    some ({ engine with conflicts := engine.conflicts ++ [⟨name, link.ifindex, peer⟩] }, .checks name peer rest)

def step (lossy : Bytes → Str) (s : EngineState n) (turn : Turn n) : Option (EngineState n) :=
  let go := (advance lossy s.engine turn.order (s.phases turn.thread)).map fun (engine, phase) =>
    ⟨engine, Function.update s.phases turn.thread phase⟩
  match (s.uses turn.thread).wanted with
  | none => go
  | some (lock, access) => if Grantable s.uses lock access then go else none

end EngineState

end Resolved.Llmnr
