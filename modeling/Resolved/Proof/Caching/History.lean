import Resolved.Spec.Caching
import Resolved.Proof.Wire.Frame

/-!
# Responses of the cache
-/

/-!
## The cache as a lossy store
-/

namespace Resolved.Proof.Caching
open Lib Resolved.Wire Resolved.Caching Spec

variable {map : ShardMap} {key : XKey} {entry : CacheEntry} {now budget : Nat}
  {order : WalkOrder XKey} {cache cache' : Cache} {response : Packet}

theorem erase_getElem? {erased : XKey} (h : (map.erase erased)[key]? = some entry) : map[key]? = some entry := by
  rw [Std.ExtTreeMap.getElem?_erase] at h
  split at h
  · cases h
  · exact h

theorem retainStep_getElem? {state : ShardMap × Nat} {walked : XKey}
    (h : (retainStep now budget state walked).1[key]? = some entry) : state.1[key]? = some entry := by
  unfold retainStep at h
  split at h
  · exact h
  · split at h
    · split at h
      · exact erase_getElem? h
      · exact h
    · exact h

theorem retainServable_getElem? {walked : List XKey}
    (h : (retainServable now budget walked map).1[key]? = some entry) : map[key]? = some entry := by
  unfold retainServable at h
  generalize start : (map, 0) = state at h
  suffices state.1[key]? = some entry by rwa [← start] at this
  clear start
  induction walked generalizing state with
  | nil => exact h
  | cons next rest ih => exact retainStep_getElem? (ih _ h)

theorem eraseAll_getElem? {gens : List (Nat × XKey)}
    (h : (gens.foldl (fun map gen => map.erase gen.2) map)[key]? = some entry) : map[key]? = some entry := by
  induction gens generalizing map with
  | nil => exact h
  | cons gen rest ih => exact erase_getElem? (ih h)

theorem evictExpiredOrOldest_getElem? (h : (evictExpiredOrOldest map now budget order)[key]? = some entry) :
    map[key]? = some entry := by
  simp only [evictExpiredOrOldest] at h
  have retained : (retainServable now budget (order.arrange map.keys) map).1[key]? = some entry := by
    split at h
    · exact h
    · exact eraseAll_getElem? h
  exact retainServable_getElem? retained

theorem view_new (capacity maximumTtl staleRetention : Nat) (storeNegative : Bool) (key : XKey) :
    view (Cache.new capacity maximumTtl staleRetention storeNegative) key = none := by
  simp [view, Cache.new, GlobalCache.new, GlobalCache.shardOf, Shard.empty]

theorem view_flush (cache : Cache) (key : XKey) : view cache.flush key = none := by
  simp [view, Cache.flush, GlobalCache.flush, GlobalCache.shardOf, Shard.empty]

theorem shardOf_insert {shardBits : Nat} {cache : GlobalCache shardBits} {other : XKey} {rcode : Nat}
    {answer : Bytes} {ttl : Nat} {secure : Bool}
    (h : ((cache.insert key rcode answer ttl secure now order).shardOf other).map[other]? = some entry) :
    (key = other ∧ entry = cache.newEntry rcode answer ttl secure now) ∨
      (key ≠ other ∧ (cache.shardOf other).map[other]? = some entry) := by
  unfold GlobalCache.shardOf GlobalCache.insert at h
  simp only [Fin.getElem_fin, Vector.getElem_set] at h
  split at h
  · rename_i sameShard
    simp only [Std.ExtTreeMap.getElem?_insert, Std.LawfulEqCmp.compare_eq_iff_eq] at h
    split at h
    · rename_i sameKey
      exact .inl ⟨sameKey, by simpa using h.symm⟩
    · rename_i otherKey
      refine .inr ⟨otherKey, ?_⟩
      have found : (cache.shardOf key).map[other]? = some entry := by
        split at h
        · exact evictExpiredOrOldest_getElem? h
        · exact h
      have index : GlobalCache.shardIdx shardBits key = GlobalCache.shardIdx shardBits other :=
        Fin.ext sameShard
      have shard : cache.shardOf key = cache.shardOf other := by simp [GlobalCache.shardOf, index]
      rwa [shard] at found
  · rename_i otherShard
    refine .inr ⟨?_, h⟩
    rintro rfl
    exact otherShard rfl

theorem insert_true_eq {key : CacheKey}
    (h : cache.insert key response now order = (.ok true, cache')) :
    ∃ stored, cache.storable response = .ok (some stored) ∧
      cache' = { cache with
        global := cache.global.insert (toXkey key) stored.rcode stored.packet stored.ttl false
          now order } := by
  unfold Cache.insert at h
  split at h
  · simp at h
  · simp at h
  · rename_i stored accepted
    exact ⟨stored, accepted, (Prod.mk.inj h).2.symm⟩

theorem insert_not_true_eq {key : CacheKey} (h : (cache.insert key response now order).1 ≠ .ok true) :
    (cache.insert key response now order).2 = cache := by
  unfold Cache.insert at h ⊢
  split <;> simp_all

theorem storable_packet {stored : Storable} (h : cache.storable response = .ok (some stored)) :
    rewriteId response 0 = .ok stored.packet := by
  simp only [Cache.storable, bind_eq_ok] at h
  obtain ⟨header, -, h⟩ := h
  split at h
  · simp at h
  · split at h
    · simp at h
    · simp only [bind_eq_ok] at h
      obtain ⟨lifetime, -, h⟩ := h
      split at h
      · simp at h
      · split at h
        · simp at h
        · simp only [bind_eq_ok, pure_eq_ok, Option.some.injEq] at h
          obtain ⟨packet, rewritten, rfl⟩ := h
          exact rewritten

theorem insert_lossy {ν : Type} {R : ν → CacheEntry → Prop} {value : ν} {key : CacheKey}
    (made : ∀ entry, EntryOf ⟨response, now⟩ entry → R value entry)
    (h : cache.insert key response now order = (.ok true, cache')) :
    LossyStep R (view cache) (.write (toXkey key) value) (view cache') := by
  obtain ⟨stored, accepted, rfl⟩ := insert_true_eq h
  intro other entry visible
  rcases shardOf_insert visible with ⟨rfl, rfl⟩ | ⟨differ, old⟩
  · exact .written _ _ _ (made _ ⟨storable_packet accepted, rfl⟩)
  · exact .kept _ differ old

theorem flush_lossy {κ : Type} {R : κ → CacheEntry → Prop} (cache : Cache) :
    LossyStep R (view cache) .clear (view cache.flush) := by
  intro key entry visible
  rw [view_flush] at visible
  cases visible

theorem get_eq_some {key : CacheKey} {id : Nat} {allowStale : Bool} {packet : Packet}
    (h : cache.get key id allowStale now = some packet) :
    ∃ entry, view cache (toXkey key) = some entry ∧ serve entry id now = some packet ∧
      (entry.expiresAt ≤ now → allowStale = true) := by
  unfold Cache.get GlobalCache.lookup at h
  unfold view
  cases found : (cache.global.shardOf (toXkey key)).map[toXkey key]? with
  | none => simp [found] at h
  | some entry =>
    simp only [found] at h
    refine ⟨entry, rfl, ?_⟩
    by_cases fresh : entry.isFresh now = true
    · simp only [fresh, if_true] at h
      refine ⟨h, fun expired => ?_⟩
      simp only [CacheEntry.isFresh, decide_eq_true_eq] at fresh
      omega
    · simp only [fresh] at h
      by_cases stale : entry.isServableStale now = true
      · simp only [stale, if_true] at h
        cases allowStale with
        | true => exact ⟨h, fun _ => rfl⟩
        | false => simp at h
      · simp [stale] at h

open Proof.Wire

theorem servedFrom_of_serve {stored : Stored} {entry : CacheEntry} {id now : Nat} {allowStale : Bool}
    {packet : Packet} (made : EntryOf stored entry) (served : serve entry id now = some packet)
    (permitted : entry.expiresAt ≤ now → allowStale = true) : ServedFrom stored id now allowStale packet := by
  obtain ⟨answer, inserted⟩ := made
  refine ⟨decide (entry.expiresAt ≤ now), by simpa using permitted, ?_⟩
  unfold serve at served
  rw [rewriteId_rewriteId id answer, inserted] at served
  split at served
  · cases served
  · rename_i renamed rewritten
    rw [rewritten, ok_bind]
    exact toOption_eq_some.1 served

def CacheShows (cache : Cache) (history : List (StoreEvent CacheKey Stored)) : Prop :=
  ShowsLatest (fun value entry => EntryOf value.2 entry) (view cache)
    (history.map (.coarsen toXkey))

theorem runCalls_showsLatest {R : CacheKey × Stored → CacheEntry → Prop} {Inv : Cache → Prop}
    (kept : ∀ cache call, Inv cache → Inv (runCall cache call))
    (writes : ∀ cache cache' key response now order, Inv cache →
      cache.insert key response now order = (.ok true, cache') →
      LossyStep R (view cache) (.write (toXkey key) (key, ⟨response, now⟩)) (view cache'))
    {cache : Cache} (inv : Inv cache) {history : List (StoreEvent CacheKey Stored)}
    (shows : ShowsLatest R (view cache) (history.map (.coarsen toXkey))) (calls : List CacheCall) :
    ShowsLatest R (view (runCalls cache calls))
      ((history ++ historyOf cache calls).map (.coarsen toXkey)) := by
  induction calls generalizing cache history with
  | nil => simpa [runCalls, historyOf] using shows
  | cons call rest ih =>
    have step : ShowsLatest R (view (runCall cache call))
        ((history ++ callEvents cache call).map (.coarsen toXkey)) := by
      cases call with
      | get key id allowStale now => simpa [callEvents, runCall] using shows
      | flush =>
        have step := shows.step (flush_lossy cache)
        simpa [callEvents, runCall, StoreEvent.coarsen] using step
      | insert key response now order =>
        by_cases stored : (cache.insert key response now order).1 = .ok true
        · have step := shows.step (writes _ _ _ _ _ _ inv (Prod.ext stored rfl))
          simpa [callEvents, runCall, StoreEvent.coarsen, stored] using step
        · simpa [callEvents, runCall, stored, insert_not_true_eq stored] using shows
    have next := ih (kept cache call inv) step
    simpa [runCalls, historyOf] using next

theorem runCalls_shows {cache : Cache} {history : List (StoreEvent CacheKey Stored)}
    (shows : CacheShows cache history) (calls : List CacheCall) :
    CacheShows (runCalls cache calls) (history ++ historyOf cache calls) :=
  @runCalls_showsLatest _ (fun _ => True) (fun _ _ _ => trivial)
    (fun _ _ _ _ _ _ _ => insert_lossy fun _ made => made) _ trivial _ shows calls

/-- A cache answers a key with the response stored last under that key, as long as no other key with
the same name, type and class was stored since. -/
theorem get_returns_latest (capacity maximumTtl staleRetention : Nat) (storeNegative : Bool)
    (calls : List CacheCall) (key : CacheKey) (id now : Nat) (allowStale : Bool) (packet : Packet)
    (own : ∀ key' stored,
      latest ((historyOf (Cache.new capacity maximumTtl staleRetention storeNegative) calls).map
        (.coarsen toXkey)) (toXkey key) = some (key', stored) → key' = key)
    (hit : (runCalls (Cache.new capacity maximumTtl staleRetention storeNegative) calls).get key id
      allowStale now = some packet) :
    ∃ stored, latest (historyOf (Cache.new capacity maximumTtl staleRetention storeNegative) calls)
        key = some stored ∧ ServedFrom stored id now allowStale packet := by
  have initially : CacheShows (Cache.new capacity maximumTtl staleRetention storeNegative) [] := by
    intro xkey entry visible
    rw [view_new] at visible
    cases visible
  have shows := runCalls_shows initially calls
  obtain ⟨entry, visible, served, permitted⟩ := get_eq_some hit
  obtain ⟨⟨key', stored⟩, last, made⟩ := shows _ _ visible
  rw [List.nil_append] at last
  obtain rfl := own key' stored last
  exact ⟨stored, latest_of_coarsen toXkey _ _ _ last, servedFrom_of_serve made served permitted⟩

def answerForA : Packet :=
  [0, 7, 0x81, 0x80, 0, 1, 0, 1, 0, 0, 0, 0, 1, 97, 0, 0, 1, 0, 1] ++
    [0xc0, 12, 0, 1, 0, 1, 0, 0, 0, 60, 0, 4, 192, 0, 2, 1]

def keyForA (checkingDisabled : Bool) (route : Nat) : CacheKey :=
  ⟨[1, 97, 0], 1, 1, checkingDisabled, route⟩

def cacheForA : Cache := Cache.new 64 (7200 * nanosPerSecond) 0 true

def callsForA : List CacheCall := [.insert (keyForA false 1) answerForA 0 .asListed]

def servedForA : Packet :=
  [0, 9, 0x81, 0x80, 0, 1, 0, 1, 0, 0, 0, 0, 1, 97, 0, 0, 1, 0, 1] ++
    [0xc0, 12, 0, 1, 0, 1, 0, 0, 0, 58, 0, 4, 192, 0, 2, 1]

theorem get_returns_latest_answerForA : ∃ stored,
    latest (historyOf cacheForA callsForA) (keyForA false 1) = some stored ∧
      ServedFrom stored 9 (2 * nanosPerSecond) false servedForA := by
  refine get_returns_latest 64 (7200 * nanosPerSecond) 0 true callsForA (keyForA false 1) 9
    (2 * nanosPerSecond) false servedForA ?_ (by decide)
  have last : latest ((historyOf cacheForA callsForA).map (.coarsen toXkey))
      (toXkey (keyForA false 1)) = some (keyForA false 1, ⟨answerForA, 0⟩) := by decide
  intro key' stored found
  have same := last.symm.trans found
  simp only [Option.some.injEq, Prod.mk.injEq] at same
  exact same.1.symm

theorem get_crosses_keys :
    ((runCalls cacheForA callsForA).get (keyForA false 2) 9 false (2 * nanosPerSecond) =
        some servedForA ∧ latest (historyOf cacheForA callsForA) (keyForA false 2) = none) ∧
    (runCalls cacheForA callsForA).get (keyForA true 1) 9 false (2 * nanosPerSecond) =
        some servedForA ∧ latest (historyOf cacheForA callsForA) (keyForA true 1) = none := by
  decide

end Resolved.Proof.Caching
