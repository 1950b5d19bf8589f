import Resolved.Exchange.Query
import Resolved.Lib.Transition
import Resolved.Spec.Caching

/-!
# Queries of clients and changes of the routing

Any number of queries run at once, and the configuration of the links changes meanwhile. A step is
one access to what they share. Beside the state of the resolver it is written down which changes are
how far, and what was stored in the cache for whom.
-/

namespace Resolved.Spec
open Lib Wire Routing Links Caching Exchange

inductive ChangeStage where
  | updated
  | incremented
  | finished
deriving DecidableEq, Repr

structure Keyed where
  asked : Asked
  route : Nat
  changes : List ChangeStage
deriving DecidableEq

def Keyed.cacheKey (keyed : Keyed) : CacheKey := keyed.asked.cacheKey keyed.route

structure Routed where
  keyed : Keyed
  scopes : List RouteScope
  inflightKey : InflightKey
  selected : Nat
deriving DecidableEq

inductive QueryPhase where
  | idle
  | accepted (asked : Asked)
  | keyed (keyed : Keyed)
  | missed (keyed : Keyed)
  | routed (routed : Routed)
  | following (routed : Routed) (entry : EntryId)
  | leading (routed : Routed) (entry : EntryId)
  | fetched (routed : Routed) (entry : EntryId) (response : Packet) (server : SocketAddr)
  | failed (routed : Routed) (entry : EntryId) (error : ResolveError)
  | completing (routed : Routed) (entry : EntryId) (result : Except ResolveError Packet)
  | finishing (routed : Routed) (entry : EntryId) (result : Except ResolveError Packet)
  | done (query : Packet) (result : Except ResolveError Packet)
deriving DecidableEq

structure Origin where
  query : Packet
  selected : Nat
  stored : Stored
deriving DecidableEq

structure Queries where
  resolver : Resolver
  attempts : Nat
  inflight : Inflight
  phases : Nat → QueryPhase
  changes : List ChangeStage
  history : List (StoreEvent CacheKey Origin)

inductive QueryAction where
  | start (task : Nat) (query : Packet) (mode : QueryMode) (ifindex : Option Int) (found : LocalData)
  | loadGeneration (task : Nat)
  | cacheGet (task : Nat) (now : Nat)
  | select (task : Nat)
  | begin (task : Nat)
  | exchange (task : Nat) (io : ScopesIo)
  | cacheInsert (task : Nat) (now : Nat) (order : WalkOrder XKey)
  | staleGet (task : Nat) (now : Nat)
  | publish (task : Nat)
  | unregister (task : Nat)
  | wait (task : Nat)
  | updateTable (routing : RoutingTable) (networkdLinks : NetworkdLinks) (specs : LinkServerSpecs)
  | increment (change : Nat)
  | flush (change : Nat)

namespace Queries

def start (resolver : Resolver) (attempts : Nat) : Queries :=
  ⟨resolver, attempts, .new, fun _ => .idle, [], []⟩

variable (state : Queries)

def moved (task : Nat) (phase : QueryPhase) : Queries :=
  { state with phases := Function.update state.phases task phase }

def cacheInsert (routed : Routed) (response : Packet) (now : Nat)
    (order : WalkOrder XKey) : Queries :=
  let inserted := state.resolver.cache.insert routed.keyed.cacheKey response now order
  { state with
    resolver := { state.resolver with cache := inserted.2 }
    history := if inserted.1 = .ok true then
        state.history ++ [.write routed.keyed.cacheKey
          ⟨routed.keyed.asked.query, routed.selected, ⟨response, now⟩⟩]
      else state.history }

def increment : Queries :=
  { state with resolver := { state.resolver with
      routingGeneration := (state.resolver.routingGeneration + 1) % 2 ^ 64 } }

def flush : Queries :=
  { state with
    resolver := { state.resolver with cache := state.resolver.cache.flush }
    history := state.history ++ [.clear] }

def updateTable (routing : RoutingTable) (networkdLinks : NetworkdLinks) (specs : LinkServerSpecs) :
    Queries :=
  { state with
    resolver := { state.resolver with
      routing := routing, networkdLinks := networkdLinks, linkServerSpecs := specs }
    changes := state.changes ++ [.updated] }

def select (keyed : Keyed) : Except ResolveError Routed := do
  let scopes ← keyed.asked.selectScopes state.resolver
  let inflightKey ← wireResult (InflightKey.new keyed.route keyed.asked.query)
  return ⟨keyed, scopes, inflightKey, state.changes.length⟩

def step (state : Queries) : QueryAction → Option Queries
  | .start task query mode ifindex found =>
    match state.phases task with
    | .idle =>
      match accept state.resolver.config query mode ifindex found with
      | .error error => some (state.moved task (.done query (.error error)))
      | .ok (.inl response) => some (state.moved task (.done query (.ok response)))
      | .ok (.inr asked) => some (state.moved task (.accepted asked))
    | _ => none
  | .loadGeneration task =>
    match state.phases task with
    | .accepted asked => some (state.moved task (.keyed
      ⟨asked, routeCacheId state.resolver.routingGeneration asked.ifindex, state.changes⟩))
    | _ => none
  | .cacheGet task now =>
    match state.phases task with
    | .keyed keyed =>
      if state.resolver.config.cache then
        match state.resolver.cache.get keyed.cacheKey keyed.asked.header.id false now with
        | some response => some (state.moved task (.done keyed.asked.query (.ok response)))
        | none => some (state.moved task (.missed keyed))
      else some (state.moved task (.missed keyed))
    | _ => none
  | .select task =>
    match state.phases task with
    | .missed keyed =>
      match state.select keyed with
      | .error error => some (state.moved task (.done keyed.asked.query (.error error)))
      | .ok routed => some (state.moved task (.routed routed))
    | _ => none
  | .begin task =>
    match state.phases task with
    | .routed routed =>
      match state.inflight.begin routed.inflightKey with
      | (.leader entry, inflight) =>
        some ({ state with inflight := inflight }.moved task (.leading routed entry))
      | (.follower entry, inflight) =>
        some ({ state with inflight := inflight }.moved task (.following routed entry))
    | _ => none
  | .exchange task io =>
    match state.phases task with
    | .leading routed entry =>
      match queryScopes state.resolver routed.keyed.asked.query state.attempts routed.scopes io with
      | .ok (response, server) => some (state.moved task (.fetched routed entry response server))
      | .error error => some (state.moved task (.failed routed entry error))
    | _ => none
  | .cacheInsert task now order =>
    match state.phases task with
    | .fetched routed entry response server =>
      let stored := if storesFrom state.resolver.config server then
          state.cacheInsert routed response now order
        else state
      some (stored.moved task (.completing routed entry (.ok response)))
    | _ => none
  | .staleGet task now =>
    match state.phases task with
    | .failed routed entry error =>
      let found := if state.resolver.config.cache then
          state.resolver.cache.get routed.keyed.cacheKey routed.keyed.asked.header.id true now
        else none
      match found with
      | some response => some (state.moved task (.completing routed entry (.ok response)))
      | none => some (state.moved task (.completing routed entry (.error error)))
    | _ => none
  | .publish task =>
    match state.phases task with
    | .completing routed entry result =>
      let shared := result.toOption.bind normalizeSharedResponse
      some ({ state with inflight := state.inflight.publish entry shared }.moved task
        (.finishing routed entry result))
    | _ => none
  | .unregister task =>
    match state.phases task with
    | .finishing routed entry result =>
      some ({ state with inflight := state.inflight.unregister routed.inflightKey entry }.moved
        task (.done routed.keyed.asked.query result))
    | _ => none
  | .wait task =>
    match state.phases task with
    | .following routed entry =>
      match state.inflight.wait entry with
      | none => none
      | some none => some (state.moved task (.routed routed))
      | some (some response) =>
        some (state.moved task (.done routed.keyed.asked.query
          (wireResult (rewriteId response routed.keyed.asked.header.id))))
    | _ => none
  | .updateTable routing networkdLinks specs => some (state.updateTable routing networkdLinks specs)
  | .increment change =>
    if state.changes[change]? = some .updated then
      some { state.increment with changes := state.changes.set change .incremented }
    else none
  | .flush change =>
    if state.changes[change]? = some .incremented then
      some { state.flush with changes := state.changes.set change .finished }
    else none

def storedFor (key : CacheKey) : Option Origin :=
  (latest (state.history.map (.coarsen toXkey)) (toXkey key)).map (·.2)

def LooksUp (task : Nat) (keyed : Keyed) (allowStale : Bool) : Prop :=
  (state.phases task = .keyed keyed ∧ allowStale = false) ∨
    ∃ routed entry error, state.phases task = .failed routed entry error ∧ routed.keyed = keyed ∧
      allowStale = true

def ServesCurrent : Prop :=
  ∀ task keyed allowStale now packet, state.LooksUp task keyed allowStale →
    state.resolver.cache.get keyed.cacheKey keyed.asked.header.id allowStale now = some packet →
    ∃ origin, state.storedFor keyed.cacheKey = some origin ∧
      ServedFrom origin.stored keyed.asked.header.id now allowStale packet ∧
      ∀ change, keyed.changes[change]? = some .finished → change < origin.selected

end Queries

def InsertsInTime (state : Queries) : QueryAction → Prop
  | .cacheInsert task _ _ =>
    match state.phases task with
    | .fetched routed _ _ _ => ∀ change < state.changes.length,
      state.changes[change]? = some .finished → change < routed.selected
    | _ => True
  | _ => True

instance (state : Queries) (action : QueryAction) : Decidable (InsertsInTime state action) := by
  unfold InsertsInTime
  split
  · split <;> infer_instance
  · infer_instance

def hasType (packet : Packet) (rrType : Nat) : Bool :=
  match parseSections packet with
  | .ok sections => sections.records.any (·.rrType = rrType)
  | .error _ => false

def Plain (query : Packet) : Prop :=
  hasType query typeOpt = false ∧ hasType query typeTsig = false

instance (query : Packet) : Decidable (Plain query) := inferInstanceAs (Decidable (_ ∧ _))

def Queries.AnswersPlainly (state : Queries) : Prop :=
  ∀ task query response, state.phases task = .done query (.ok response) → Plain query →
    hasType response typeOpt = false

def LooksUpOwnKind (state : Queries) : QueryAction → Prop
  | .cacheGet task _ =>
    match state.phases task with
    | .keyed keyed => Plain keyed.asked.query → ∀ origin ∈ state.storedFor keyed.cacheKey, Plain origin.query
    | _ => True
  | .staleGet task _ =>
    match state.phases task with
    | .failed routed _ _ => Plain routed.keyed.asked.query →
      ∀ origin ∈ state.storedFor routed.keyed.cacheKey, Plain origin.query
    | _ => True
  | _ => True

instance (state : Queries) (action : QueryAction) : Decidable (LooksUpOwnKind state action) := by
  unfold LooksUpOwnKind
  split
  · split <;> infer_instance
  · split <;> infer_instance
  · infer_instance

end Resolved.Spec
