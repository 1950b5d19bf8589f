import Resolved.Proof.Caching.History

/-!
# What the store holds and what it counts
-/

namespace Resolved.Proof.Caching
open Lib Resolved.Caching Spec

theorem contains_of_getElem? {map : ShardMap} {key : XKey} {entry : CacheEntry} (found : map[key]? = some entry) :
    map.contains key = true := by
  rw [Std.ExtTreeMap.contains_eq_isSome_getElem?, found]
  rfl

theorem size_pos_of_contains {map : ShardMap} {key : XKey} (present : map.contains key = true) : 0 < map.size := by
  rw [← Std.ExtTreeMap.length_keys]
  apply List.length_pos_of_mem
  exact Std.ExtTreeMap.mem_keys.2 (Std.ExtTreeMap.mem_iff_contains.2 present)

theorem retainStep_size {now budget : Nat} {state : ShardMap × Nat} {key : XKey} :
    (retainStep now budget state key).1.size + (retainStep now budget state key).2 = state.1.size + state.2 := by
  unfold retainStep
  split
  · rfl
  · split
    · rename_i entry found
      split
      · have present := contains_of_getElem? found
        have positive := size_pos_of_contains present
        simp only [Std.ExtTreeMap.size_erase, present, if_true]
        omega
      · rfl
    · rfl

theorem retainServable_size (now budget : Nat) (walked : List XKey) (map : ShardMap) :
    (retainServable now budget walked map).1.size + (retainServable now budget walked map).2 = map.size := by
  unfold retainServable
  suffices ∀ state : ShardMap × Nat, (walked.foldl (retainStep now budget) state).1.size +
      (walked.foldl (retainStep now budget) state).2 = state.1.size + state.2 from this (map, 0)
  induction walked with
  | nil => exact fun _ => rfl
  | cons key rest ih => exact fun state => (ih _).trans retainStep_size

theorem eraseAll_size_le (gens : List (Nat × XKey)) (map : ShardMap) :
    (gens.foldl (fun map gen => map.erase gen.2) map).size ≤ map.size := by
  induction gens generalizing map with
  | nil => exact le_rfl
  | cons gen rest ih => exact (ih _).trans Std.ExtTreeMap.size_erase_le

theorem evictExpiredOrOldest_size_le (map : ShardMap) (now budget : Nat) (order : WalkOrder XKey) :
    (evictExpiredOrOldest map now budget order).size ≤ map.size := by
  have counted := retainServable_size now budget (order.arrange map.keys) map
  simp only [evictExpiredOrOldest]
  split
  · omega
  · exact (eraseAll_size_le _ _).trans (by omega)

theorem evictExpiredOrOldest_size_lt {map : ShardMap} {now budget : Nat} {order : WalkOrder XKey}
    (nonzero : 0 < map.size) (positive : 0 < budget) :
    (evictExpiredOrOldest map now budget order).size < map.size := by
  have counted := retainServable_size now budget (order.arrange map.keys) map
  simp only [evictExpiredOrOldest]
  generalize retained : retainServable now budget (order.arrange map.keys) map = state at counted ⊢
  obtain ⟨left, removed⟩ := state
  simp only at counted ⊢
  split
  · rename_i enough
    rcases enough with enough | empty
    · omega
    · rw [Std.ExtTreeMap.isEmpty_iff] at empty
      subst empty
      rw [Std.ExtTreeMap.size_empty] at counted ⊢
      omega
  · rename_i more
    push Not at more
    obtain ⟨few, nonempty⟩ := more
    generalize listed : ((order.arrange map.keys).filterMap fun key => left[key]?.map fun entry =>
      (entry.insertGen, key)) = gens
    have present : ∀ gen ∈ gens, left.contains gen.2 = true := by
      intro gen member
      rw [← listed] at member
      obtain ⟨key, -, made⟩ := List.mem_filterMap.1 member
      obtain ⟨entry, found, rfl⟩ := Option.map_eq_some_iff.1 made
      exact contains_of_getElem? found
    -- a key that is left was walked, so there is a generation to drop
    have some_gen : gens ≠ [] := by
      have keys : left.keys ≠ [] := by
        intro none
        rw [← List.isEmpty_iff, Std.ExtTreeMap.isEmpty_keys] at none
        exact nonempty none
      obtain ⟨key, member⟩ := List.exists_mem_of_ne_nil _ keys
      have inside := Std.ExtTreeMap.mem_keys.1 member
      obtain ⟨entry, found⟩ := Option.isSome_iff_exists.1 (Std.ExtTreeMap.isSome_getElem?_iff_mem.2 inside)
      have before : map[key]? = some entry := by
        apply retainServable_getElem?
        rw [retained]
        exact found
      have walked : key ∈ order.arrange map.keys := order.mem_arrange.2
        (Std.ExtTreeMap.mem_keys.2 (Std.ExtTreeMap.mem_iff_contains.2 (contains_of_getElem? before)))
      rw [← listed]
      exact List.ne_nil_of_mem (List.mem_filterMap.2 ⟨key, walked, by rw [found]; rfl⟩)
    cases dropped : (gens.insertionSort fun one other => one.1 ≤ other.1).take (budget - removed) with
    | nil =>
      have none := List.take_eq_nil_iff.1 dropped
      rcases none with zero | empty
      · omega
      · have length := List.length_insertionSort (fun one other : Nat × XKey => one.1 ≤ other.1) gens
        rw [empty, List.length_nil] at length
        exact absurd (List.length_eq_zero_iff.1 length.symm) some_gen
    | cons first rest =>
      have member : first ∈ gens := by
        rw [← List.mem_insertionSort fun one other : Nat × XKey => one.1 ≤ other.1]
        apply List.mem_of_mem_take
        rw [dropped]
        simp
      have here := present first member
      have positive := size_pos_of_contains here
      have later := eraseAll_size_le rest (left.erase first.2)
      rw [Std.ExtTreeMap.size_erase, if_pos here] at later
      rw [List.foldl_cons]
      omega

def insertShard (maxPerShard : Nat) (shard : Shard) (key : XKey) (entry : CacheEntry) (now : Nat)
    (order : WalkOrder XKey) : Shard :=
  let map :=
    if shard.map.size ≥ maxPerShard then
      evictExpiredOrOldest shard.map now (maxPerShard / 16 + 1) order
    else shard.map
  ⟨map.insert key entry, if map.contains key then shard.live else shard.live + 1⟩

section
variable {maxPerShard : Nat} {shard : Shard} {key : XKey} {entry : CacheEntry} {now : Nat}
  {order : WalkOrder XKey}

theorem insertShard_counts : ∃ evicted, evicted ≤ shard.map.size ∧
    (insertShard maxPerShard shard key entry now order).live + shard.map.size =
      (insertShard maxPerShard shard key entry now order).map.size + shard.live + evicted ∧
    (evicted = 0 ↔ shard.map.size = 0 ∨ shard.map.size < maxPerShard) ∧
    0 < (insertShard maxPerShard shard key entry now order).map.size ∧
    (insertShard maxPerShard shard key entry now order).map.size + evicted ≤ shard.map.size + 1 := by
  by_cases full : shard.map.size ≥ maxPerShard
  · have le := evictExpiredOrOldest_size_le shard.map now (maxPerShard / 16 + 1) order
    have lt := @evictExpiredOrOldest_size_lt shard.map now (maxPerShard / 16 + 1) order
    refine ⟨shard.map.size - (evictExpiredOrOldest shard.map now (maxPerShard / 16 + 1) order).size, by omega, ?_⟩
    simp only [insertShard, if_pos full, Std.ExtTreeMap.size_insert]
    split
    · rename_i present
      have positive := size_pos_of_contains present
      omega
    · omega
  · have room : shard.map.size = 0 ∨ shard.map.size < maxPerShard := by omega
    refine ⟨0, by omega, ?_⟩
    simp only [insertShard, if_neg full, Std.ExtTreeMap.size_insert, room, true_and]
    split
    · rename_i present
      have positive := size_pos_of_contains present
      omega
    · omega

end

section
variable {shardBits : Nat}

theorem insert_shards (cache : GlobalCache shardBits) (key : XKey) (rcode : Nat) (answer : Bytes) (ttl : Nat)
    (secure : Bool) (now : Nat) (order : WalkOrder XKey) (i : Fin (2 ^ shardBits)) :
    (cache.insert key rcode answer ttl secure now order).shards[i] =
      if GlobalCache.shardIdx shardBits key = i then insertShard cache.maxPerShard cache.shards[i] key
          (cache.newEntry rcode answer ttl secure now) now order else cache.shards[i] := by
  by_cases same : GlobalCache.shardIdx shardBits key = i
  · subst same
    rw [if_pos rfl]
    simp [GlobalCache.insert, GlobalCache.shardOf, insertShard]
  · have other : (GlobalCache.shardIdx shardBits key).val ≠ i.val := fun equal => same (Fin.ext equal)
    rw [if_neg same]
    simp [GlobalCache.insert, Vector.getElem_set_ne _ _ other]

theorem flush_shards (cache : GlobalCache shardBits) (i : Fin (2 ^ shardBits)) :
    cache.flush.shards[i] = Shard.empty := by
  simp [GlobalCache.flush]

theorem runOp_maxPerShard (cache : GlobalCache shardBits) (op : StoreOp) :
    (runOp cache op).maxPerShard = cache.maxPerShard := by
  cases op <;> rfl

theorem runOps_maxPerShard (cache : GlobalCache shardBits) (ops : List StoreOp) :
    (runOps cache ops).maxPerShard = cache.maxPerShard := by
  induction ops using List.reverseRecOn with
  | nil => rfl
  | append_singleton ops op ih =>
    rw [runOps, List.foldl_append]
    exact (runOp_maxPerShard _ op).trans ih

theorem sum_shards {α : Type} {n : Nat} (shards : Vector α n) (f : α → Nat) :
    (shards.toList.map f).sum = ∑ i : Fin n, f shards[i] := by
  rw [← List.sum_ofFn]
  congr 1
  apply List.ext_getElem
  · simp
  · intro i _ _
    simp

theorem stored_eq_sum (cache : GlobalCache shardBits) :
    stored cache = ∑ i : Fin (2 ^ shardBits), cache.shards[i].map.size :=
  sum_shards cache.shards (·.map.size)

theorem len_eq_sum (cache : GlobalCache shardBits) : cache.len = ∑ i : Fin (2 ^ shardBits), cache.shards[i].live :=
  sum_shards cache.shards (·.live)

structure ShardsSound (cache : GlobalCache shardBits) (hit : Finset (Fin (2 ^ shardBits))) : Prop where
  counted : ∀ i : Fin (2 ^ shardBits), cache.shards[i].map.size ≤ cache.shards[i].live
  limited : ∀ i : Fin (2 ^ shardBits), cache.shards[i].map.size ≤ max 1 cache.maxPerShard
  hit_iff : ∀ i : Fin (2 ^ shardBits), 0 < cache.shards[i].map.size ↔ i ∈ hit

def CountsRight (cache : GlobalCache shardBits) : Prop :=
  ∀ i : Fin (2 ^ shardBits), cache.shards[i].live = cache.shards[i].map.size

theorem new_shards (maxPerShard staleWindow : Nat) (i : Fin (2 ^ shardBits)) :
    (GlobalCache.new shardBits maxPerShard staleWindow).shards[i] = Shard.empty := by
  simp [GlobalCache.new]

theorem runOps_concat (cache : GlobalCache shardBits) (ops : List StoreOp) (op : StoreOp) :
    runOps cache (ops ++ [op]) = runOp (runOps cache ops) op := by
  simp [runOps]

theorem runOp_sound (sound : ShardsSound cache (hitShards shardBits ops)) (op : StoreOp) :
    ShardsSound (runOp cache op) (hitShards shardBits (ops ++ [op])) := by
  cases op with
  | flush =>
    simp only [hitShards, List.foldl_append, List.foldl_cons, List.foldl_nil, runOp]
    refine ⟨fun i => ?_, fun i => ?_, fun i => ?_⟩
    all_goals
      rw [flush_shards]
      simp [Shard.empty]
  | insert key rcode answer ttl secure now order =>
    simp only [hitShards, List.foldl_append, List.foldl_cons, List.foldl_nil, runOp]
    refine ⟨fun i => ?_, fun i => ?_, fun i => ?_⟩
    all_goals
      rw [insert_shards]
      by_cases same : GlobalCache.shardIdx shardBits key = i
    · rw [if_pos same]
      obtain ⟨evicted, -, balance, -, -, -⟩ := @insertShard_counts cache.maxPerShard
        cache.shards[i] key (cache.newEntry rcode answer ttl secure now) now order
      have := sound.counted i
      omega
    · rw [if_neg same]
      exact sound.counted i
    · rw [if_pos same]
      obtain ⟨evicted, -, -, room, -, less⟩ := @insertShard_counts cache.maxPerShard
        cache.shards[i] key (cache.newEntry rcode answer ttl secure now) now order
      have := sound.limited i
      have kept : (cache.insert key rcode answer ttl secure now order).maxPerShard = cache.maxPerShard := rfl
      rw [kept]
      omega
    · rw [if_neg same]
      exact sound.limited i
    · rw [if_pos same]
      obtain ⟨evicted, -, -, -, positive, -⟩ := @insertShard_counts cache.maxPerShard
        cache.shards[i] key (cache.newEntry rcode answer ttl secure now) now order
      exact iff_of_true positive (by rw [same]; exact Finset.mem_insert_self i _)
    · rw [if_neg same, sound.hit_iff, Finset.mem_insert]
      exact ⟨.inr, fun either => either.resolve_left (Ne.symm same)⟩

theorem runOps_sound (maxPerShard staleWindow : Nat) (ops : List StoreOp) :
    ShardsSound (runOps (GlobalCache.new shardBits maxPerShard staleWindow) ops) (hitShards shardBits ops) := by
  induction ops using List.reverseRecOn with
  | nil =>
    refine ⟨fun i => ?_, fun i => ?_, fun i => ?_⟩
    all_goals
      rw [runOps, List.foldl_nil, new_shards]
      simp [Shard.empty, hitShards]
  | append_singleton ops op ih =>
    rw [runOps_concat]
    exact runOp_sound ih op

theorem len_eq_stored_iff (sound : ShardsSound cache hit) : cache.len = stored cache ↔ CountsRight cache := by
  rw [len_eq_sum, stored_eq_sum, eq_comm, Finset.sum_eq_sum_iff_of_le fun i _ => sound.counted i]
  exact ⟨fun equal i => (equal i (Finset.mem_univ i)).symm, fun right i _ => (right i).symm⟩

theorem runOp_countsRight_iff {cache : GlobalCache shardBits} (right : CountsRight cache) (op : StoreOp) :
    CountsRight (runOp cache op) ↔ Roomy cache op := by
  cases op with
  | flush =>
    refine ⟨fun _ => trivial, fun _ i => ?_⟩
    rw [runOp, flush_shards]
    simp [Shard.empty]
  | insert key rcode answer ttl secure now order =>
    obtain ⟨evicted, -, balance, room, -, -⟩ := @insertShard_counts cache.maxPerShard
      cache.shards[GlobalCache.shardIdx shardBits key] key
      (cache.newEntry rcode answer ttl secure now) now order
    have before := right (GlobalCache.shardIdx shardBits key)
    rw [Roomy]
    constructor
    · intro after
      have here := after (GlobalCache.shardIdx shardBits key)
      rw [runOp, insert_shards, if_pos rfl] at here
      exact room.1 (by omega)
    · intro roomy i
      have none := room.2 roomy
      rw [runOp, insert_shards]
      by_cases same : GlobalCache.shardIdx shardBits key = i
      · subst same
        rw [if_pos rfl]
        omega
      · rw [if_neg same]
        exact right i

theorem stored_eq_card (sound : ShardsSound cache hit) (single : cache.maxPerShard = 1) :
    stored cache = hit.card := by
  rw [stored_eq_sum, Finset.card_eq_sum_ones, ← Finset.sum_filter_add_sum_filter_not Finset.univ
    (· ∈ hit)]
  have inside : ∑ i ∈ Finset.univ.filter (· ∈ hit), cache.shards[i].map.size = ∑ i ∈ hit, 1 := by
    rw [Finset.filter_mem_eq_inter, Finset.univ_inter]
    refine Finset.sum_congr rfl fun i member => ?_
    have limited := sound.limited i
    have positive := (sound.hit_iff i).2 member
    omega
  have outside : ∑ i ∈ Finset.univ.filter (· ∉ hit), cache.shards[i].map.size = 0 := by
    refine Finset.sum_eq_zero fun i member => ?_
    have missed := (sound.hit_iff i).not.2 (Finset.mem_filter.1 member).2
    omega
  rw [inside, outside, Nat.add_zero]

theorem stored_le {cache : GlobalCache shardBits} {hit : Finset (Fin (2 ^ shardBits))}
    (sound : ShardsSound cache hit) : stored cache ≤ 2 ^ shardBits * max 1 cache.maxPerShard := by
  rw [stored_eq_sum]
  refine (Finset.sum_le_card_nsmul _ _ _ fun i _ => sound.limited i).trans ?_
  simp

end

theorem store_counts (shardBits maxPerShard staleWindow : Nat) (ops : List StoreOp)
    (capacity maximumTtl staleRetention : Nat) (storeNegative : Bool) :
    ((∀ front, front <+: ops → (runOps (GlobalCache.new shardBits maxPerShard staleWindow) front).len =
          stored (runOps (GlobalCache.new shardBits maxPerShard staleWindow) front)) ↔
      ∀ front op, front ++ [op] <+: ops →
        Roomy (runOps (GlobalCache.new shardBits maxPerShard staleWindow) front) op) ∧ (∀ i : Fin (2 ^ shardBits),
      (runOps (GlobalCache.new shardBits maxPerShard staleWindow) ops).shards[i].map.size ≤ max 1 maxPerShard) ∧
    (stored (runOps (Cache.new capacity maximumTtl staleRetention storeNegative).global ops) ≤
      capacity ↔ (hitShards 4 ops).card ≤ capacity) := by
  have right := fun front => len_eq_stored_iff
    (@runOps_sound shardBits maxPerShard staleWindow front)
  refine ⟨⟨fun all front op here => ?_, fun roomy front => ?_⟩, fun i => ?_, ?_⟩
  · have before := (right front).1 (all front ((List.prefix_append front [op]).trans here))
    have after := (right (front ++ [op])).1 (all _ here)
    rw [runOps_concat] at after
    exact (runOp_countsRight_iff before op).1 after
  · induction front using List.reverseRecOn with
    | nil =>
      intro _
      refine (right []).2 fun i => ?_
      rw [runOps, List.foldl_nil, new_shards]
      simp [Shard.empty]
    | append_singleton front op ih =>
      intro here
      have before := (right front).1 (ih ((List.prefix_append front [op]).trans here))
      refine (right (front ++ [op])).2 ?_
      rw [runOps_concat]
      exact (runOp_countsRight_iff before op).2 (roomy front op here)
  · have limited := (@runOps_sound shardBits maxPerShard staleWindow ops).limited i
    rwa [runOps_maxPerShard] at limited
  · have sound := @runOps_sound 4 (max (capacity / 16) 1) staleRetention ops
    have limit := runOps_maxPerShard (GlobalCache.new 4 (max (capacity / 16) 1) staleRetention) ops
    have shards := (hitShards 4 ops).card_le_univ
    rw [Fintype.card_fin] at shards
    have most := stored_le sound
    rw [limit] at most
    simp only [GlobalCache.new] at most limit
    change stored (runOps (GlobalCache.new 4 (max (capacity / 16) 1) staleRetention) ops) ≤ capacity ↔ _
    by_cases large : 16 ≤ capacity
    · exact iff_of_true (by simp only [GlobalCache.new]; omega) (by omega)
    · rw [stored_eq_card sound (by simp only [GlobalCache.new] at limit ⊢; omega)]

theorem store_counts_wrong :
    ((runOps (GlobalCache.new 4 1 0) [.insert ⟨[0], 1, 1⟩ 0 [] nanosPerSecond false 0 .asListed,
        .insert ⟨[0], 1, 1⟩ 0 [] nanosPerSecond false 0 .asListed]).len = 2 ∧
      stored (runOps (GlobalCache.new 4 1 0) [.insert ⟨[0], 1, 1⟩ 0 [] nanosPerSecond false 0 .asListed,
          .insert ⟨[0], 1, 1⟩ 0 [] nanosPerSecond false 0 .asListed]) = 1) ∧
    stored (runCalls (Cache.new 1 (7200 * nanosPerSecond) 0 true) [.insert (keyForA false 0) answerForA 0 .asListed,
        .insert { keyForA false 0 with cls := 3 } answerForA 0 .asListed]).global = 2 := by
  decide +kernel

end Resolved.Proof.Caching
