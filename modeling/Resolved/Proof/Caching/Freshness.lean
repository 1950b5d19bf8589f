import Resolved.Proof.Caching.History
import Resolved.Proof.Wire.Ageing

/-!
# How long a response is fresh
-/

namespace Resolved.Proof.Caching
open Lib Resolved.Wire Resolved.Caching Spec Proof.Wire

variable {cache : Cache} {response packet : Packet} {made : Storable} {sections : Sections}
  {seconds : Nat}

structure SameSettings (cache cache' : Cache) : Prop where
  capacity : cache'.capacity = cache.capacity
  maximumTtl : cache'.maximumTtl = cache.maximumTtl
  storeNegative : cache'.storeNegative = cache.storeNegative

theorem storable_congr (same : SameSettings cache cache') (response : Packet) :
    cache'.storable response = cache.storable response := by
  simp only [Cache.storable, same.capacity, same.maximumTtl, same.storeNegative]

theorem runCall_sameSettings (cache : Cache) (call : CacheCall) : SameSettings cache (runCall cache call) := by
  cases call with
  | get | flush => exact ⟨rfl, rfl, rfl⟩
  | insert key response now order =>
    simp only [runCall, Cache.insert]
    split <;> exact ⟨rfl, rfl, rfl⟩

def EntryMade (cache : Cache) (stored : Stored) (entry : CacheEntry) : Prop :=
  ∃ made, cache.storable stored.response = .ok (some made) ∧ entry.answer = made.packet ∧
    entry.inserted = stored.inserted ∧ entry.expiresAt = stored.inserted + clampTtl made.ttl made.rcode

theorem insert_makes {settings cache' : Cache} {key : CacheKey} {now : Nat} {order : WalkOrder XKey}
    (same : SameSettings settings cache) (h : cache.insert key response now order = (.ok true, cache')) :
    LossyStep (fun value entry => EntryMade settings value.2 entry) (view cache)
      (.write (toXkey key) (key, ⟨response, now⟩)) (view cache') := by
  obtain ⟨stored, accepted, rfl⟩ := insert_true_eq h
  intro other entry visible
  rcases shardOf_insert visible with ⟨rfl, rfl⟩ | ⟨differ, old⟩
  · refine .written _ _ _ ⟨stored, ?_, rfl, rfl, rfl⟩
    rw [← storable_congr same]
    exact accepted
  · exact .kept _ differ old

theorem runCalls_makes (empty : ∀ key, view settings key = none) (calls : List CacheCall) :
    ShowsLatest (fun value entry => EntryMade settings value.2 entry)
      (view (runCalls settings calls)) ((historyOf settings calls).map (.coarsen toXkey)) := by
  have shows : ShowsLatest (fun value entry => EntryMade settings value.2 entry) (view settings)
      ([].map (.coarsen toXkey)) := by
    intro key entry visible
    rw [empty] at visible
    cases visible
  refine @runCalls_showsLatest _ (SameSettings settings) ?_ ?_ settings ⟨rfl, rfl, rfl⟩ _ shows calls
  · intro cache call same
    have kept := runCall_sameSettings cache call
    exact ⟨kept.capacity.trans same.capacity, kept.maximumTtl.trans same.maximumTtl,
      kept.storeNegative.trans same.storeNegative⟩
  · exact fun _ _ _ _ _ _ same => insert_makes same

theorem storable_ttl (parsed : parseSections response = .ok sections)
    (accepted : cache.storable response = .ok (some made)) :
    made.rcode = sections.header.responseCode ∧ rewriteId response 0 = .ok made.packet ∧
      ∃ ttl, Cache.lifetime made.rcode response = .ok (some ttl) ∧
        made.ttl = min ttl cache.maximumTtl ∧ made.ttl ≠ 0 := by
  have header := (parseSections_eq_ok.1 parsed).1
  simp only [Cache.storable, header, ok_bind] at accepted
  split at accepted
  · simp at accepted
  · split at accepted
    · simp at accepted
    · simp only [bind_eq_ok] at accepted
      obtain ⟨lifetime, held, accepted⟩ := accepted
      split at accepted
      · simp at accepted
      · rename_i ttl
        split at accepted
        · simp at accepted
        · rename_i nonzero
          simp only [bind_eq_ok, pure_eq_ok, Option.some.injEq] at accepted
          obtain ⟨packet, rewritten, rfl⟩ := accepted
          push Not at nonzero
          exact ⟨rfl, rewritten, ttl, held, rfl, nonzero.1⟩

theorem lifetime_eq_some {rcode : Nat} {ttl : Nat} (held : Cache.lifetime rcode response = .ok (some ttl)) :
    (rcode = 2 ∧ ttl = strangeRcodeTtl) ∨ (rcode = 0 ∨ rcode = 3) ∧
      ∃ seconds, cacheLifetime response = .ok (some seconds) ∧ ttl = seconds * nanosPerSecond := by
  unfold Cache.lifetime at held
  split at held
  · rename_i known
    obtain ⟨found, lived, held⟩ := bind_eq_ok.1 held
    cases found with
    | none => simp at held
    | some seconds =>
      rw [pure_eq_ok, Option.some.injEq] at held
      exact .inr ⟨known, seconds, lived, held.symm⟩
  · split at held
    · rename_i failure
      exact .inl ⟨failure, by simpa [eq_comm] using held⟩
    · simp at held

theorem cacheLifetime_eq_some (parsed : parseSections response = .ok sections)
    (lived : cacheLifetime response = .ok (some seconds)) :
    (∀ record ∈ sections.records, record.rrType ≠ typeTsig) ∧
      (sections.header.responseCode = 3 → negativeTtl response (authority sections) = some seconds) ∧
      (sections.header.responseCode ≠ 3 → sections.header.answerCount ≠ 0 →
        (((answers sections).filter fun record =>
          record.rrType ≠ typeOpt ∧ record.rrType ≠ typeTsig).map (·.ttl)).min? = some seconds) := by
  simp only [cacheLifetime, parsed, ok_bind] at lived
  split at lived
  · simp at lived
  · split at lived
    · simp at lived
    · rename_i unsigned
      have untouched : ∀ record ∈ sections.records, record.rrType ≠ typeTsig := by
        simpa using unsigned
      split at lived
      · rename_i negative
        refine ⟨untouched, fun _ => pure_eq_ok.1 lived, fun code some => ?_⟩
        exact absurd negative (by omega)
      · rename_i positive
        push Not at positive
        exact ⟨untouched, fun code => absurd code positive.1, fun _ _ => pure_eq_ok.1 lived⟩

theorem answers_ttl_ge (parsed : parseSections response = .ok sections)
    (lived : cacheLifetime response = .ok (some seconds)) (rcode : sections.header.responseCode = 0) :
    ∀ record ∈ answers sections, record.rrType ≠ typeOpt → seconds ≤ record.ttl := by
  intro record member plain
  obtain ⟨unsigned, -, positive⟩ := cacheLifetime_eq_some parsed lived
  have some : sections.header.answerCount ≠ 0 := by
    intro none
    simp [answers, none] at member
  have least := positive (by omega) some
  refine (List.min?_eq_some_iff.1 least).2 record.ttl (List.mem_map_of_mem ?_)
  exact List.mem_filter.2 ⟨member, by simpa using ⟨plain, unsigned record (List.mem_of_mem_take member)⟩⟩

theorem negativeTtl_le_iff {response : Packet} {records : List ResourceRecord} {seconds bound : Nat}
    (least : negativeTtl response records = some seconds) :
    seconds ≤ bound ↔ ∃ soa ∈ records, soa.rrType = typeSoa ∧
      ∃ minimum, soaMinimum response soa = .ok minimum ∧ min soa.ttl minimum ≤ bound := by
  obtain ⟨member, lower⟩ := List.min?_eq_some_iff.1 least
  simp only [List.mem_filterMap, List.mem_filter, decide_eq_true_eq] at member lower
  constructor
  · intro within
    obtain ⟨soa, ⟨here, type⟩, found⟩ := member
    cases read : soaMinimum response soa with
    | error error => simp [read] at found
    | ok minimum =>
      have least : min soa.ttl minimum = seconds := by simpa [read] using found
      exact ⟨soa, here, type, minimum, read, least.trans_le within⟩
  · rintro ⟨soa, here, type, minimum, read, within⟩
    exact (lower _ ⟨soa, ⟨here, type⟩, by simp [read]⟩).trans within

theorem clampTtl_le_iff (parsed : parseSections response = .ok sections)
    (accepted : cache.storable response = .ok (some made)) (record : ResourceRecord)
    (member : record ∈ answers sections) (plain : record.rrType ≠ typeOpt) :
    clampTtl made.ttl made.rcode ≤ record.ttl * nanosPerSecond ↔ sections.header.responseCode = 0 ∨
        OutlastsEntry cache.maximumTtl response sections record := by
  obtain ⟨rcode, -, ttl, held, least, nonzero⟩ := storable_ttl parsed accepted
  rcases lifetime_eq_some held with ⟨failure, rfl⟩ | ⟨known, seconds, lived, rfl⟩
  · rw [failure] at rcode
    simp only [OutlastsEntry, ← rcode, failure, least, clampTtl, strangeRcodeTtl, nanosPerSecond]
    simp
    omega
  · rcases known with positive | negative
    · rw [positive] at rcode
      have ttl_ge := answers_ttl_ge parsed lived rcode.symm record member plain
      simp only [← rcode, true_or, iff_true, positive, clampTtl, least, nanosPerSecond] at nonzero ⊢
      simp
      omega
    · rw [negative] at rcode
      have soa := @negativeTtl_le_iff _ _ _ record.ttl
        ((cacheLifetime_eq_some parsed lived).2.1 rcode.symm)
      simp only [OutlastsEntry, ← rcode, negative, ← soa, least, clampTtl, nanosPerSecond] at nonzero ⊢
      simp
      omega

theorem insert_visible (cache : GlobalCache shardBits) (key : XKey) (rcode : Nat) (answer : Bytes) (ttl : Nat)
    (secure : Bool) (now : Nat) (order : WalkOrder XKey) :
    ((cache.insert key rcode answer ttl secure now order).shardOf key).map[key]? =
      some (cache.newEntry rcode answer ttl secure now) := by
  simp [GlobalCache.shardOf, GlobalCache.insert]

theorem rewriteId_self {id : Nat} (read : readU16 packet 0 = .ok id) : rewriteId packet id = .ok packet := by
  obtain ⟨a, b, first, second, rfl⟩ := readU16_eq_ok.1 read
  have long := getElem?_lt second
  refine rewriteId_eq_ok.2 ⟨by omega, ?_⟩
  have octets : toBe16 (be16 a b) = [a, b] := by
    have := a.toNat_lt
    have := b.toNat_lt
    simp only [toBe16, be16, List.cons.injEq, and_true]
    constructor
    · apply UInt8.toNat.inj
      simp
      omega
    · apply UInt8.toNat.inj
      simp
  apply List.ext_getElem?
  intro i
  rw [octets, overwrite_getElem? (by simp; omega)]
  split
  · rename_i inside
    have small : i < 2 := by simpa using inside.2
    interval_cases i
    · simpa using first
    · simpa using second
  · rfl

theorem serve_own_id {entry : CacheEntry} {response : Packet} {sections : Sections} {now : Nat}
    (parsed : parseSections response = .ok sections) (answer : rewriteId response 0 = .ok entry.answer) :
    ∃ packet, serve entry sections.header.id now = some packet := by
  have id := (headerParse_eq_ok.1 (parseSections_eq_ok.1 parsed).1).2.1
  obtain ⟨aged, run, -⟩ := ageTtls_writes
    (min ((now - entry.inserted) / nanosPerSecond) (2 ^ 32 - 1)) (decide (entry.expiresAt ≤ now)) parsed
  refine ⟨aged, ?_⟩
  unfold serve
  rw [rewriteId_rewriteId _ answer, rewriteId_self id]
  simp only [run]
  rfl

theorem insert_accepted {cache : Cache} {key : CacheKey} {response : Packet} {made : Storable} (inserted : Nat)
    (order : WalkOrder XKey) (accepted : cache.storable response = .ok (some made)) :
    cache.insert key response inserted order = (.ok true, { cache with
      global := cache.global.insert (toXkey key) made.rcode made.packet made.ttl false inserted
        order }) := by
  rw [Cache.insert, accepted]

theorem get_after_insert {cache : Cache} {key : CacheKey} {response : Packet} {sections : Sections}
    {made : Storable} {inserted now : Nat} {order : WalkOrder XKey}
    (parsed : parseSections response = .ok sections) (accepted : cache.storable response = .ok (some made))
    (early : now < inserted + clampTtl made.ttl made.rcode) :
    ∃ packet, (cache.insert key response inserted order).2.get key sections.header.id false now = some packet := by
  obtain ⟨-, answer, -⟩ := storable_ttl parsed accepted
  obtain ⟨packet, served⟩ := @serve_own_id
    (cache.global.newEntry made.rcode made.packet made.ttl false inserted) response sections now
    parsed answer
  have fresh : CacheEntry.isFresh
      (cache.global.newEntry made.rcode made.packet made.ttl false inserted) now = true := by
    exact decide_eq_true early
  refine ⟨packet, ?_⟩
  simp only [insert_accepted inserted order accepted, Cache.get, GlobalCache.lookup, insert_visible,
    fresh, if_true, served]

theorem neverOutdated_iff (capacity maximumTtl staleRetention : Nat) (storeNegative : Bool)
    (response : Packet) (sections : Sections) (made : Storable)
    (parsed : parseSections response = .ok sections)
    (accepted : (Cache.new capacity maximumTtl staleRetention storeNegative).storable response =
      .ok (some made)) :
    NeverOutdated (Cache.new capacity maximumTtl staleRetention storeNegative) response sections ↔
      sections.header.responseCode = 0 ∨ ∀ record ∈ answers sections, record.rrType ≠ typeOpt →
        OutlastsEntry maximumTtl response sections record := by
  have limit := fun record member plain =>
    clampTtl_le_iff parsed accepted record member plain
  constructor
  · intro never
    by_contra shorter
    push Not at shorter
    obtain ⟨code, record, member, plain, ends⟩ := shorter
    have early : ¬ clampTtl made.ttl made.rcode ≤ record.ttl * nanosPerSecond := by
      rw [limit record member plain]
      exact fun either => either.elim code ends
    -- the entry is asked for at the moment this record expires
    let key : CacheKey := ⟨[], 0, 0, false, 0⟩
    obtain ⟨packet, hit⟩ := @get_after_insert _ key response sections made 0
      (record.ttl * nanosPerSecond) .asListed parsed accepted (by omega)
    have stored := @insert_accepted _ key _ _ 0 .asListed accepted
    have within := never [.insert key response 0 .asListed] key key 0 sections.header.id
      (record.ttl * nanosPerSecond) packet
      (by simp [historyOf, callEvents, stored, StoreEvent.coarsen, latest]) (Nat.zero_le _) hit
      record member plain
    omega
  · intro outlasts calls key key' inserted id now packet last before hit record member plain
    have shows := runCalls_makes (view_new capacity maximumTtl staleRetention storeNegative) calls
    obtain ⟨entry, visible, -, permitted⟩ := get_eq_some hit
    obtain ⟨value, last', made', accepted', -, -, expires⟩ := shows _ _ visible
    rw [last, Option.some.injEq] at last'
    subst last'
    rw [accepted, Except.ok.injEq, Option.some.injEq] at accepted'
    subst accepted'
    have fresh : now < entry.expiresAt := by
      by_contra expired
      exact absurd (permitted (not_lt.1 expired)) (by decide)
    have lasts := (limit record member plain).2
      (outlasts.imp_right fun each => each record member plain)
    simp only at expires
    omega

def answerForASections : Sections :=
  let name : DnsName := ⟨['a'], [1, 97, 0]⟩
  ⟨⟨7, 0x8180, 1, 1, 0, 0⟩, [⟨name, 1, 1, 19⟩], [⟨name, 1, 1, 60, 25, 31, [192, 0, 2, 1], 35⟩], 35⟩

theorem neverOutdated_answerForA : NeverOutdated cacheForA answerForA answerForASections :=
  (neverOutdated_iff 64 (7200 * nanosPerSecond) 0 true answerForA answerForASections
    ⟨[0, 0] ++ answerForA.drop 2, 0, 60 * nanosPerSecond⟩ (by decide)
    (by decide +kernel)).2 (.inl rfl)

def negativeWithCname (rcode : UInt8) : Packet :=
  [0, 7, 0x81, 0x80 + rcode, 0, 1, 0, 1, 0, 1, 0, 0, 1, 97, 0, 0, 1, 0, 1] ++
    [0xc0, 12, 0, 5, 0, 1, 0, 0, 0, 1, 0, 2, 0xc0, 12] ++
    [0, 0, 6, 0, 1, 0, 0, 0, 60, 0, 22, 0, 0, 0, 0, 0, 1, 0, 0, 0, 1, 0, 0, 0, 1, 0, 0, 0, 1,
      0, 0, 0, 60]

def negativeWithCnameSections (rcode : Nat) : Sections :=
  let name : DnsName := ⟨['a'], [1, 97, 0]⟩
  ⟨⟨7, 0x8180 + rcode, 1, 1, 1, 0⟩, [⟨name, 1, 1, 19⟩], [⟨name, 5, 1, 1, 25, 31, [0xc0, 12], 33⟩,
      ⟨⟨['.'], [0]⟩, 6, 1, 60, 38, 44, [0, 0, 0, 0, 0, 1, 0, 0, 0, 1, 0, 0, 0, 1, 0, 0, 0, 1,
        0, 0, 0, 60], 66⟩], 66⟩

theorem negativeWithCname_outdated {rcode : UInt8}
    (stored : historyOf cacheForA [.insert (keyForA false 0) (negativeWithCname rcode) 0 .asListed] =
      [.write (keyForA false 0) ⟨negativeWithCname rcode, 0⟩])
    (hit : (runCalls cacheForA
      [.insert (keyForA false 0) (negativeWithCname rcode) 0 .asListed]).get (keyForA false 0) 7
        false (5 * nanosPerSecond) = some packet) :
    ¬ NeverOutdated cacheForA (negativeWithCname rcode)
      (negativeWithCnameSections rcode.toNat) := by
  intro never
  have within := never [.insert (keyForA false 0) (negativeWithCname rcode) 0 .asListed]
    (keyForA false 0) (keyForA false 0) 0 7 (5 * nanosPerSecond) packet
    (by simp [stored, StoreEvent.coarsen, latest]) (Nat.zero_le _) hit
    ⟨⟨['a'], [1, 97, 0]⟩, 5, 1, 1, 25, 31, [0xc0, 12], 33⟩
    (by simp [answers, negativeWithCnameSections]) (by decide)
  simp [nanosPerSecond] at within

theorem negative_answers_outdated :
    (parseSections (negativeWithCname 3) = .ok (negativeWithCnameSections 3) ∧
      ¬ NeverOutdated cacheForA (negativeWithCname 3) (negativeWithCnameSections 3)) ∧
    (parseSections (negativeWithCname 2) = .ok (negativeWithCnameSections 2) ∧
      ¬ NeverOutdated cacheForA (negativeWithCname 2) (negativeWithCnameSections 2)) := by
  have hit : ∀ rcode ∈ [(3 : UInt8), 2], ((runCalls cacheForA
      [.insert (keyForA false 0) (negativeWithCname rcode) 0 .asListed]).get (keyForA false 0) 7
        false (5 * nanosPerSecond)).isSome := by decide +kernel
  obtain ⟨_, nxdomain⟩ := Option.isSome_iff_exists.1 (hit 3 (by decide))
  obtain ⟨_, servfail⟩ := Option.isSome_iff_exists.1 (hit 2 (by decide))
  exact ⟨⟨by decide, negativeWithCname_outdated (by decide) nxdomain⟩,
    by decide, negativeWithCname_outdated (by decide) servfail⟩

end Resolved.Proof.Caching
