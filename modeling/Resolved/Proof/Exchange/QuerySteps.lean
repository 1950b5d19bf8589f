import Resolved.Proof.Caching.History
import Resolved.Spec.Queries

/-!
# What a step of a query can do
-/

namespace Resolved.Proof.Exchange
open Lib Resolved.Wire Resolved.Links Resolved.Caching Resolved.Exchange Spec Proof.Caching

variable {state state' : Queries} {action : QueryAction} {now : Nat} {key : CacheKey}

inductive CacheEffect (state : Queries) : QueryAction → Queries → Prop where
  | inserted {task now : Nat} {order : WalkOrder XKey} {routed : Routed} {entry : EntryId}
      {response : Packet} {server : SocketAddr} {state' : Queries}
      (fetched : state.phases task = .fetched routed entry response server)
      (cache : state'.resolver.cache = (state.cacheInsert routed response now order).resolver.cache)
      (history : state'.history = (state.cacheInsert routed response now order).history)
      (changes : state'.changes = state.changes) :
      CacheEffect state (.cacheInsert task now order) state'
  | kept {action : QueryAction} {state' : Queries}
      (cache : state'.resolver.cache = state.resolver.cache) (history : state'.history = state.history)
      (finished : ∀ change : Nat, state'.changes[change]? = some ChangeStage.finished ↔
        state.changes[change]? = some ChangeStage.finished) : CacheEffect state action state'
  | flushed {change : Nat} {state' : Queries}
      (cache : state'.resolver.cache = state.resolver.cache.flush)
      (history : state'.history = state.history ++ [.clear])
      (finished : ∀ other : Nat, state.changes[other]? = some ChangeStage.finished →
        state'.changes[other]? = some ChangeStage.finished) : CacheEffect state (.flush change) state'

theorem set_finished_iff {changes : List ChangeStage} {change other : Nat} {stage : ChangeStage}
    (before : changes[change]? ≠ some .finished) (after : stage ≠ .finished) :
    (changes.set change stage)[other]? = some .finished ↔ changes[other]? = some .finished := by
  rw [List.getElem?_set]
  split
  · rename_i same
    subst same
    split
    · simp [after, before]
    · simp [before]
  · rfl

theorem step_cacheEffect (stepped : state.step action = some state') : CacheEffect state action state' := by
  cases action with
  | updateTable routing networkdLinks specs =>
    cases stepped
    refine .kept rfl rfl fun change => ?_
    change (state.changes ++ [.updated])[change]? = some .finished ↔ _
    rw [List.getElem?_append]
    split
    · rfl
    · rename_i beyond
      rw [List.getElem?_eq_none (not_lt.1 beyond), List.getElem?_singleton]
      split <;> simp
  | increment change =>
    simp only [Queries.step] at stepped
    split at stepped
    · rename_i updated
      cases stepped
      exact .kept rfl rfl fun other => set_finished_iff (by simp [updated]) (by simp)
    · cases stepped
  | flush change =>
    simp only [Queries.step] at stepped
    split at stepped
    · rename_i incremented
      cases stepped
      refine .flushed rfl rfl fun other finished => ?_
      change (state.changes.set change .finished)[other]? = some .finished
      rw [List.getElem?_set]
      split
      · rename_i same
        subst same
        rw [finished] at incremented
        cases incremented
      · exact finished
    · cases stepped
  | cacheInsert task now order =>
    simp only [Queries.step] at stepped
    split at stepped
    · rename_i routed entry response server fetched
      cases stepped
      by_cases stores : storesFrom state.resolver.config server = true
      · simp only [stores, if_true]
        exact .inserted fetched rfl rfl rfl
      · simp only [stores]
        exact .kept rfl rfl fun _ => Iff.rfl
    · cases stepped
  | _ =>
    -- the other steps only move a query, and maybe the shared transactions
    simp only [Queries.step] at stepped
    repeat' split at stepped
    all_goals cases stepped
    all_goals exact .kept rfl rfl fun _ => Iff.rfl

def OriginOf (value : CacheKey × Origin) (entry : CacheEntry) : Prop := EntryOf value.2.stored entry

def ShowsStored (state : Queries) : Prop :=
  ShowsLatest OriginOf (view state.resolver.cache) (state.history.map (.coarsen toXkey))

theorem start_shows (resolver : Resolver) (attempts capacity maximumTtl staleRetention : Nat)
    (storeNegative : Bool) : ShowsStored (.start { resolver with
      cache := .new capacity maximumTtl staleRetention storeNegative } attempts) := by
  intro key entry visible
  cases (view_new capacity maximumTtl staleRetention storeNegative key).symm.trans visible

theorem cacheInsert_shows {routed : Routed} {response : Packet} {order : WalkOrder XKey}
    (before : ShowsStored state) : ShowsStored (state.cacheInsert routed response now order) := by
  unfold ShowsStored Queries.cacheInsert
  simp only
  split
  · rename_i stored
    have lossy : LossyStep OriginOf (view state.resolver.cache)
        (.write (toXkey routed.keyed.cacheKey) (routed.keyed.cacheKey,
          ⟨routed.keyed.asked.query, routed.selected, ⟨response, now⟩⟩))
        (view (state.resolver.cache.insert routed.keyed.cacheKey response now order).2) :=
      insert_lossy (fun _ made => made) (Prod.ext stored rfl)
    simpa [StoreEvent.coarsen] using ShowsLatest.step before lossy
  · rename_i unstored
    rw [insert_not_true_eq unstored]
    exact before

theorem step_shows (before : ShowsStored state) (stepped : state.step action = some state') : ShowsStored state' := by
  cases step_cacheEffect stepped with
  | kept cache history finished =>
    unfold ShowsStored
    rw [cache, history]
    exact before
  | inserted fetched cache history changes =>
    unfold ShowsStored
    rw [cache, history]
    exact cacheInsert_shows before
  | flushed cache history finished =>
    unfold ShowsStored
    rw [cache, history]
    simpa [StoreEvent.coarsen] using ShowsLatest.step before (flush_lossy state.resolver.cache)

theorem get_storedFor {id : Nat} {allowStale : Bool} {packet : Packet} (shown : ShowsStored state)
    (found : state.resolver.cache.get key id allowStale now = some packet) :
    ∃ origin, state.storedFor key = some origin ∧ ServedFrom origin.stored id now allowStale packet := by
  obtain ⟨entry, visible, served, permitted⟩ := get_eq_some found
  obtain ⟨value, last, made⟩ := shown _ _ visible
  exact ⟨value.2, by rw [Queries.storedFor, last]; rfl, servedFrom_of_serve made served permitted⟩

theorem step_storedFor {origin : Origin} (stepped : state.step action = some state')
    (here : state'.storedFor key = some origin) :
    (state.storedFor key = some origin ∧ ∀ change : Nat, state'.changes[change]? = some ChangeStage.finished →
        state.changes[change]? = some ChangeStage.finished) ∨
    ∃ task now order routed entry response server, action = .cacheInsert task now order ∧
      state.phases task = .fetched routed entry response server ∧ state'.changes = state.changes ∧
      origin = ⟨routed.keyed.asked.query, routed.selected, ⟨response, now⟩⟩ := by
  unfold Queries.storedFor at here
  cases step_cacheEffect stepped with
  | kept cache history finished =>
    rw [history] at here
    exact .inl ⟨here, fun change => (finished change).1⟩
  | @inserted task now order routed entry response server _ fetched cache history changes =>
    rw [history, Queries.cacheInsert] at here
    simp only at here
    split at here
    · rw [List.map_append, List.map_singleton, StoreEvent.coarsen, latest_concat_write] at here
      split at here
      · cases here
        exact .inr ⟨task, now, order, routed, entry, response, server, rfl, fetched, changes, rfl⟩
      · exact .inl ⟨here, fun change => by rw [changes]; exact id⟩
    · exact .inl ⟨here, fun change => by rw [changes]; exact id⟩
  | flushed cache history finished =>
    rw [history, List.map_append, List.map_singleton, StoreEvent.coarsen, latest_concat_clear] at here
    cases here

inductive Moves (state : Queries) : QueryAction → QueryPhase → QueryPhase → Inflight → Prop where
  | answered {task : Nat} {query response : Packet} {mode : QueryMode} {ifindex : Option Int}
      {found : LocalData}
      (accepts : accept state.resolver.config query mode ifindex found = .ok (.inl response)) :
      Moves state (.start task query mode ifindex found) .idle (.done query (.ok response))
        state.inflight
  | accepted {task : Nat} {query : Packet} {mode : QueryMode} {ifindex : Option Int}
      {found : LocalData} {asked : Asked}
      (accepts : accept state.resolver.config query mode ifindex found = .ok (.inr asked)) :
      Moves state (.start task query mode ifindex found) .idle (.accepted asked) state.inflight
  | keyed {action : QueryAction} {asked : Asked} :
      Moves state action (.accepted asked) (.keyed
        ⟨asked, routeCacheId state.resolver.routingGeneration asked.ifindex, state.changes⟩)
        state.inflight
  | hit {task now : Nat} {keyed : Keyed} {response : Packet}
      (found : state.resolver.cache.get keyed.cacheKey keyed.asked.header.id false now = some response)
      (here : state.phases task = .keyed keyed) :
      Moves state (.cacheGet task now) (.keyed keyed) (.done keyed.asked.query (.ok response))
        state.inflight
  | missed {action : QueryAction} {keyed : Keyed} :
      Moves state action (.keyed keyed) (.missed keyed) state.inflight
  | routed {action : QueryAction} {keyed : Keyed} {routed : Routed}
      (selects : state.select keyed = .ok routed) :
      Moves state action (.missed keyed) (.routed routed) state.inflight
  | led {action : QueryAction} {routed : Routed} {entry : EntryId} {inflight : Inflight}
      (begun : state.inflight.begin routed.inflightKey = (.leader entry, inflight)) :
      Moves state action (.routed routed) (.leading routed entry) inflight
  | joined {action : QueryAction} {routed : Routed} {entry : EntryId} {inflight : Inflight}
      (begun : state.inflight.begin routed.inflightKey = (.follower entry, inflight)) :
      Moves state action (.routed routed) (.following routed entry) inflight
  | fetched {action : QueryAction} {routed : Routed} {entry : EntryId} {response : Packet}
      {server : SocketAddr} {io : ScopesIo}
      (exchanged : queryScopes state.resolver routed.keyed.asked.query state.attempts routed.scopes
        io = .ok (response, server)) :
      Moves state action (.leading routed entry) (.fetched routed entry response server)
        state.inflight
  | failed {action : QueryAction} {routed : Routed} {entry : EntryId} {error : ResolveError} :
      Moves state action (.leading routed entry) (.failed routed entry error) state.inflight
  | stored {action : QueryAction} {routed : Routed} {entry : EntryId} {response : Packet}
      {server : SocketAddr} :
      Moves state action (.fetched routed entry response server)
        (.completing routed entry (.ok response)) state.inflight
  | stale {task now : Nat} {routed : Routed} {entry : EntryId} {error : ResolveError}
      {response : Packet}
      (found : state.resolver.cache.get routed.keyed.cacheKey routed.keyed.asked.header.id true now =
        some response)
      (here : state.phases task = .failed routed entry error) :
      Moves state (.staleGet task now) (.failed routed entry error)
        (.completing routed entry (.ok response)) state.inflight
  | gaveUp {action : QueryAction} {routed : Routed} {entry : EntryId} {error : ResolveError} :
      Moves state action (.failed routed entry error) (.completing routed entry (.error error))
        state.inflight
  | published {action : QueryAction} {routed : Routed} {entry : EntryId}
      {result : Except ResolveError Packet} :
      Moves state action (.completing routed entry result) (.finishing routed entry result)
        (state.inflight.publish entry (result.toOption.bind normalizeSharedResponse))
  | unregistered {action : QueryAction} {routed : Routed} {entry : EntryId}
      {result : Except ResolveError Packet} :
      Moves state action (.finishing routed entry result) (.done routed.keyed.asked.query result)
        (state.inflight.unregister routed.inflightKey entry)
  | woken {action : QueryAction} {routed : Routed} {entry : EntryId} :
      Moves state action (.following routed entry) (.routed routed) state.inflight
  | shared {action : QueryAction} {routed : Routed} {entry : EntryId} {response : Packet}
      (given : state.inflight.wait entry = some (some response)) :
      Moves state action (.following routed entry) (.done routed.keyed.asked.query
        (wireResult (rewriteId response routed.keyed.asked.header.id))) state.inflight
  | rejected {action : QueryAction} {phase : QueryPhase} {query : Packet} {error : ResolveError} :
      Moves state action phase (.done query (.error error)) state.inflight

theorem step_moves (stepped : state.step action = some state') :
    (state'.phases = state.phases ∧ state'.inflight = state.inflight) ∨
      ∃ task phase, state'.phases = Function.update state.phases task phase ∧
        Moves state action (state.phases task) phase state'.inflight := by
  cases action with simp only [Queries.step] at stepped
  | updateTable routing networkdLinks specs =>
    cases stepped
    exact .inl ⟨rfl, rfl⟩
  | increment change | flush change =>
    split at stepped
    · cases stepped
      exact .inl ⟨rfl, rfl⟩
    · cases stepped
  | start task query mode ifindex found =>
    split at stepped
    · rename_i here
      split at stepped
      · cases stepped
        exact .inr ⟨task, _, rfl, .rejected⟩
      · rename_i accepts
        cases stepped
        exact .inr ⟨task, _, rfl, by rw [here]; exact .answered accepts⟩
      · rename_i accepts
        cases stepped
        exact .inr ⟨task, _, rfl, by rw [here]; exact .accepted accepts⟩
    · cases stepped
  | loadGeneration task =>
    split at stepped
    · rename_i here
      cases stepped
      exact .inr ⟨task, _, rfl, by rw [here]; exact .keyed⟩
    · cases stepped
  | cacheGet task now =>
    split at stepped
    · rename_i here
      split at stepped
      · split at stepped
        · rename_i found
          cases stepped
          exact .inr ⟨task, _, rfl, by rw [here]; exact .hit found here⟩
        · cases stepped
          exact .inr ⟨task, _, rfl, by rw [here]; exact .missed⟩
      · cases stepped
        exact .inr ⟨task, _, rfl, by rw [here]; exact .missed⟩
    · cases stepped
  | select task =>
    split at stepped
    · rename_i here
      split at stepped
      · cases stepped
        exact .inr ⟨task, _, rfl, .rejected⟩
      · rename_i selects
        cases stepped
        exact .inr ⟨task, _, rfl, by rw [here]; exact .routed selects⟩
    · cases stepped
  | begin task =>
    split at stepped
    · rename_i here
      split at stepped
      · rename_i begun
        cases stepped
        exact .inr ⟨task, _, rfl, by rw [here]; exact .led begun⟩
      · rename_i begun
        cases stepped
        exact .inr ⟨task, _, rfl, by rw [here]; exact .joined begun⟩
    · cases stepped
  | exchange task io =>
    split at stepped
    · rename_i here
      split at stepped
      · rename_i exchanged
        cases stepped
        exact .inr ⟨task, _, rfl, by rw [here]; exact .fetched exchanged⟩
      · cases stepped
        exact .inr ⟨task, _, rfl, by rw [here]; exact .failed⟩
    · cases stepped
  | cacheInsert task now order =>
    split at stepped
    · rename_i routed entry response server here
      cases stepped
      refine .inr ⟨task, .completing routed entry (.ok response), ?_, ?_⟩
      · split <;> rfl
      · rw [here]
        split <;> exact .stored
    · cases stepped
  | staleGet task now =>
    split at stepped
    · rename_i here
      split at stepped
      · rename_i found
        cases stepped
        split at found
        · exact .inr ⟨task, _, rfl, by rw [here]; exact .stale found here⟩
        · cases found
      · cases stepped
        exact .inr ⟨task, _, rfl, by rw [here]; exact .gaveUp⟩
    · cases stepped
  | publish task =>
    split at stepped
    · rename_i here
      cases stepped
      exact .inr ⟨task, _, rfl, by rw [here]; exact .published⟩
    · cases stepped
  | unregister task =>
    split at stepped
    · rename_i here
      cases stepped
      exact .inr ⟨task, _, rfl, by rw [here]; exact .unregistered⟩
    · cases stepped
  | wait task =>
    split at stepped
    · rename_i here
      split at stepped
      · cases stepped
      · cases stepped
        exact .inr ⟨task, _, rfl, by rw [here]; exact .woken⟩
      · rename_i given
        cases stepped
        exact .inr ⟨task, _, rfl, by rw [here]; exact .shared given⟩
    · cases stepped

end Resolved.Proof.Exchange
