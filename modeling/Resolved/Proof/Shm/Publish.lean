import Resolved.Spec.Shm

/-!
# Publications in the shared memory
-/

namespace Resolved.Proof.Shm
open Lib Resolved.Shm Spec

variable {mapping : Mapping} {index : Nat} {bucket : ShmBucket} {publication : Publication}
  {owner : Bytes} {qtype qclass : UInt16} {state : ShmPublisher × List Publication}
  {start : ShmPublisher}

@[simp] theorem bytes_length (address : ShmAddr) : address.bytes.length = addrSize := by
  simp [ShmAddr.bytes, addrSize]

theorem ofBytes_bytes (address : ShmAddr) : ShmAddr.ofBytes address.bytes = some address := by
  obtain ⟨family, pad, scopeId, addr⟩ := address
  have scope : UInt16.ofNat ((UInt8.ofNat scopeId.toNat).toNat +
      256 * (UInt8.ofNat (scopeId.toNat / 256)).toNat) = scopeId := by
    have := scopeId.toNat_lt
    apply UInt16.toNat.inj
    simp
    omega
  simp only [ShmAddr.bytes, ShmAddr.ofBytes, scope]
  rw [dif_pos (by simp)]
  exact congrArg (fun octets => some (⟨family, pad, scopeId, octets⟩ : ShmAddr))
    (Vector.ext fun i inside => by simp)

theorem addresses_length (addrs : List ShmAddr) :
    (addrs.flatMap ShmAddr.bytes).length = addrs.length * addrSize := by
  induction addrs with
  | nil => rfl
  | cons address rest ih =>
    rw [List.flatMap_cons, List.length_append, ih, bytes_length, List.length_cons]
    ring

@[simp] theorem payload_length (publication : Publication) : publication.payload.length = publication.need := by
  rw [Publication.payload, List.length_append, List.length_cons, addresses_length, Publication.need]
  omega

theorem readAddresses_flatMap (addrs : List ShmAddr) (valid : ∀ address ∈ addrs, address.ip.isSome)
    (front : Bytes) :
    readAddresses (front ++ addrs.flatMap ShmAddr.bytes) addrs.length front.length = some addrs := by
  induction addrs generalizing front with
  | nil => rfl
  | cons address rest ih =>
    have here := slice_middle front address.bytes (rest.flatMap ShmAddr.bytes)
    have later := ih (fun other member => valid other (by simp [member])) (front ++ address.bytes)
    obtain ⟨ip, known⟩ := Option.isSome_iff_exists.1 (valid address (by simp))
    rw [bytes_length] at here
    rw [List.length_append, bytes_length] at later
    rw [List.flatMap_cons, List.length_cons, readAddresses, ← List.append_assoc, here]
    simp only [Option.bind_eq_bind, Option.bind_some, ofBytes_bytes, known, later, Option.pure_def]

structure Layout (publisher : ShmPublisher) : Prop where
  magic : publisher.mapping.header.magic = shmMagic
  version : publisher.mapping.header.version = shmVersion
  count : publisher.mapping.header.nBuckets = publisher.nBuckets
  table : publisher.mapping.buckets.length = publisher.nBuckets
  power : ∃ k, publisher.nBuckets = 2 ^ k
  start : publisher.arenaOff = headerSize + publisher.nBuckets * bucketSize
  arenaOff : publisher.mapping.header.arenaOff = publisher.arenaOff
  size : publisher.mapping.header.arenaSize = publisher.arenaSize
  arena : publisher.mapping.arena.length = publisher.arenaSize
  small : publisher.arenaSize ≤ u32Max

structure Accepted (publication : Publication) : Prop where
  named : publication.ownerWire ≠ []
  short : publication.ownerWire.length ≤ 255
  few : publication.addrs.length ≤ 255
  valid : ∀ address ∈ publication.addrs, address.ip.isSome

structure Shows (mapping : Mapping) (bucket : ShmBucket) (publication : Publication) : Prop where
  used : bucket.gen ≠ 0
  entry : bucket = publication.bucket bucket.gen bucket.off
  accepted : Accepted publication
  inside : bucket.off + publication.need ≤ mapping.header.arenaUsed
  payload : slice mapping.arena bucket.off (bucket.off + publication.need) = some publication.payload

structure AtRest (publisher : ShmPublisher) : Prop where
  layout : Layout publisher
  positive : publisher.mapping.header.writeGen ≠ 0
  even : publisher.mapping.header.writeGen % 2 = 0
  used : publisher.mapping.header.arenaUsed ≤ publisher.arenaSize

theorem isPowerOfTwo_pow (k : Nat) : isPowerOfTwo (2 ^ k) = true := by
  simp [isPowerOfTwo, Nat.log2_two_pow]

section
variable {publisher : ShmPublisher}

theorem Layout.length (layout : Layout publisher) :
    publisher.mapping.length = publisher.arenaOff + publisher.arenaSize := by
  rw [Mapping.length, Mapping.arenaStart, layout.table, layout.arena, layout.start]

theorem Layout.read (layout : Layout publisher) (start stop : Nat) :
    publisher.mapping.read (publisher.arenaOff + start) (publisher.arenaOff + stop) =
      slice publisher.mapping.arena start stop := by
  have begin : publisher.mapping.arenaStart = publisher.arenaOff := by
    rw [Mapping.arenaStart, layout.table, layout.start]
  rw [Mapping.read, begin, if_pos (Nat.le_add_right _ _), Nat.add_sub_cancel_left, Nat.add_sub_cancel_left]

theorem AtRest.snapshot (rest : AtRest publisher) :
    publisher.mapping.headerSnapshot = some publisher.mapping.header := by
  obtain ⟨layout, positive, even, used⟩ := rest
  obtain ⟨k, power⟩ := layout.power
  have valid : validHeader publisher.mapping.header publisher.mapping.length = true := by
    have nonzero : publisher.nBuckets ≠ 0 := by
      rw [power]
      positivity
    simp [validHeader, layout.magic, layout.version, layout.count, layout.size, layout.arenaOff,
      layout.start, layout.length, power, isPowerOfTwo_pow, used]
  simp [Mapping.headerSnapshot, positive, even, valid]

theorem Layout.index_lt (layout : Layout publisher) (hash : UInt64) :
    hash.toNat &&& (publisher.nBuckets - 1) < publisher.nBuckets := by
  obtain ⟨k, power⟩ := layout.power
  rw [power, Nat.and_two_pow_sub_one_eq_mod]
  exact Nat.mod_lt _ (by positivity)

theorem payload_head (publication : Publication) :
    publication.payload.head? = some (UInt8.ofNat publication.ownerWire.length) := rfl

theorem Accepted.owner_length (accepted : Accepted publication) :
    (UInt8.ofNat publication.ownerWire.length).toNat = publication.ownerWire.length := by
  have := accepted.short
  simp
  omega

theorem payload_owner (publication : Publication) :
    slice publication.payload 1 (1 + publication.ownerWire.length) = some publication.ownerWire :=
  slice_middle [UInt8.ofNat publication.ownerWire.length] publication.ownerWire
    (publication.addrs.flatMap ShmAddr.bytes)

theorem Accepted.addresses (accepted : Accepted publication) :
    readAddresses publication.payload publication.addrs.length (1 + publication.ownerWire.length) =
      some publication.addrs := by
  have read := readAddresses_flatMap publication.addrs accepted.valid
    (UInt8.ofNat publication.ownerWire.length :: publication.ownerWire)
  rw [List.length_cons, Nat.add_comm] at read
  exact read

theorem flags_secure (publication : Publication) : (publication.flags &&& 4 != 0) = publication.secure := by
  unfold Publication.flags
  cases publication.staleOk <;> cases publication.negative <;> cases publication.secure <;> rfl

theorem bucketSnapshot_eq (here : mapping.buckets[index]? = some bucket) (used : bucket.gen ≠ 0) :
    mapping.bucketSnapshot index = some bucket := by
  simp [Mapping.bucketSnapshot, here, used]

theorem IsFor.hash (asked : IsFor publication owner qtype qclass) :
    publication.hash = hashKey owner qtype qclass := by
  obtain ⟨rfl, rfl, rfl⟩ := asked
  rw [Publication.hash]

theorem AtRest.readBucket_shows (rest : AtRest publisher) (showing : Shows publisher.mapping bucket publication)
    {hash : UInt64} (now : Nat) (hashed : IsFor publication owner qtype qclass → publication.hash = hash) :
    publisher.mapping.readBucket publisher.mapping.header bucket hash owner qtype qclass now =
      if IsFor publication owner qtype qclass ∧ entryIsFresh publication.expiresMs publication.flags now then
        some (answerOf publication) else none := by
  obtain ⟨gen, mark, off, len, expires, flags, type, cls, rcode, count⟩ := bucket
  obtain ⟨used, entry, accepted, inside, payload⟩ := showing
  simp only [Publication.bucket, ShmBucket.mk.injEq, true_and] at entry
  obtain ⟨rfl, rfl, rfl, rfl, rfl, rfl, rfl, rfl⟩ := entry
  simp only at inside payload
  have size : off + publication.need ≤ publisher.mapping.header.arenaSize := by
    rw [rest.layout.size]
    exact inside.trans rest.used
  have read : publisher.mapping.read (publisher.mapping.header.arenaOff + off)
      (publisher.mapping.header.arenaOff + off + publication.need) = some publication.payload := by
    rw [rest.layout.arenaOff, Nat.add_assoc, rest.layout.read]
    exact payload
  have long : publication.payload.length =
      1 + publication.ownerWire.length + publication.addrs.length * addrSize := payload_length _
  simp only [Mapping.readBucket, Option.bind_eq_bind, read, payload_head, accepted.owner_length, long,
    lt_irrefl, not_lt.2 inside, not_lt.2 size, or_self, if_false, false_or, Option.bind_some, payload_owner]
  by_cases asked : IsFor publication owner qtype qclass
  · rw [hashed asked]
    obtain ⟨rfl, rfl, rfl⟩ := asked
    cases entryIsFresh publication.expiresMs publication.flags now with
    | false => simp
    | true => simp [IsFor, accepted.addresses, flags_secure, answerOf]
  · have other : (publication.hash ≠ hash ∨ publication.qtype ≠ qtype ∨
        publication.qclass ≠ qclass) ∨ publication.ownerWire.length ≠ owner.length ∨
          some publication.ownerWire ≠ some owner := by
      unfold IsFor at asked
      grind
    simp only [asked, false_and, if_false]
    rcases other with elsewhere | elsewhere
    · rw [if_pos elsewhere]
    · simp only [elsewhere, if_true, ite_self]

theorem AtRest.lookup_shows (rest : AtRest publisher) (now : Nat)
    (here : publisher.mapping.buckets[(hashKey owner qtype qclass).toNat &&&
      (publisher.nBuckets - 1)]? = some bucket)
    (showing : Shows publisher.mapping bucket publication) :
    publisher.mapping.lookup owner qtype qclass now = if IsFor publication owner qtype qclass ∧
          entryIsFresh publication.expiresMs publication.flags now then
        some (answerOf publication)
      else none := by
  rw [← rest.layout.count] at here
  rw [Mapping.lookup, rest.snapshot, Option.bind_eq_bind, Option.bind_some]
  change (publisher.mapping.bucketSnapshot _ >>= fun bucket =>
    publisher.mapping.readBucket _ bucket _ owner qtype qclass now) = _
  rw [bucketSnapshot_eq here showing.used, Option.bind_eq_bind, Option.bind_some]
  exact rest.readBucket_shows showing now IsFor.hash

theorem Mapping.lookup_free {now : Nat} {answer : UInt8 × List ShmAddr × Bool}
    (found : mapping.lookup owner qtype qclass now = some answer) :
    mapping.header.writeGen ≠ 0 ∧ ∃ bucket, mapping.buckets[(hashKey owner qtype qclass).toNat &&&
      (mapping.header.nBuckets - 1)]? = some bucket ∧ bucket.gen ≠ 0 := by
  rw [Mapping.lookup, Option.bind_eq_bind, Option.bind_eq_some_iff] at found
  obtain ⟨header, snapshot, found⟩ := found
  have current : mapping.header.writeGen ≠ 0 ∧ header = mapping.header := by
    unfold Mapping.headerSnapshot at snapshot
    grind
  obtain ⟨positive, rfl⟩ := current
  rw [Option.bind_eq_bind, Option.bind_eq_some_iff] at found
  obtain ⟨bucket, here, -⟩ := found
  rw [Mapping.bucketSnapshot, Option.bind_eq_bind, Option.bind_eq_some_iff] at here
  obtain ⟨current, here, free⟩ := here
  split at free
  · cases free
  · cases free
    exact ⟨positive, bucket, here, by assumption⟩

end

section
variable (publisher : ShmPublisher) (publication : Publication)

def offsetFor : Nat :=
  if publisher.wraps publication then 0 else publisher.mapping.header.arenaUsed

def bucketsLeft : List ShmBucket :=
  if publisher.wraps publication then publisher.mapping.buckets.map ({ · with gen := 0 })
  else publisher.mapping.buckets

def published : ShmPublisher :=
  { publisher with
    mapping := {
      header := { publisher.mapping.header with
        writeGen := publisher.stableGeneration
        arenaUsed := offsetFor publisher publication + publication.need }
      buckets := (bucketsLeft publisher publication).set
        (publication.bucketIndex publisher.nBuckets)
        (publication.bucket publisher.stableGeneration (offsetFor publisher publication))
      arena := overwrite publisher.mapping.arena (offsetFor publisher publication)
        publication.payload } }

end

section
variable {publisher : ShmPublisher} {publication : Publication}

theorem check_accepted (passed : publisher.check publication = .ok ()) :
    Accepted publication ∧ publication.need ≤ publisher.arenaSize := by
  unfold ShmPublisher.check at passed
  split at passed
  · cases passed
  · rename_i named
    split at passed
    · cases passed
    · rename_i few
      split at passed
      · cases passed
      · rename_i valid
        split at passed
        · cases passed
        · rename_i room
          simp only [Bool.or_eq_true, List.isEmpty_iff, decide_eq_true_eq, not_or, not_lt] at named
          simp only [List.any_eq_true, not_exists, not_and, Option.isNone_iff_eq_none] at valid
          refine ⟨⟨named.1, named.2, not_lt.1 few, fun address member => ?_⟩, by omega⟩
          exact Option.isSome_iff_ne_none.2 (valid address member)

theorem offsetFor_room (fits : publication.need ≤ publisher.arenaSize) :
    offsetFor publisher publication + publication.need ≤ publisher.arenaSize := by
  unfold offsetFor ShmPublisher.wraps
  split
  · omega
  · rename_i room
    simpa using room

theorem publish_done (layout : Layout publisher) (passed : publisher.check publication = .ok ()) :
    publisher.publishAddrsWithStale publication = (.ok (), published publisher publication) := by
  have room := offsetFor_room (check_accepted passed).2
  have small : ¬ u32Max < offsetFor publisher publication + publication.need := by
    have := layout.small
    omega
  have start : ∀ buckets : List ShmBucket, buckets.length = publisher.nBuckets →
      publisher.arenaOff + offsetFor publisher publication -
        (headerSize + buckets.length * bucketSize) = offsetFor publisher publication := by
    intro buckets length
    rw [length, layout.start, Nat.add_sub_cancel_left]
  simp only [ShmPublisher.publishAddrsWithStale, passed, ShmPublisher.store]
  change (if u32Max < offsetFor publisher publication + publication.need then _ else _) = _
  rw [if_neg small]
  unfold published bucketsLeft
  cases wraps : publisher.wraps publication with
  | true =>
    have zero : offsetFor publisher publication = 0 := by simp [offsetFor, wraps]
    have here := start (publisher.mapping.buckets.map ({ · with gen := 0 }))
      (by rw [List.length_map, layout.table])
    simp only [if_true, zero, Mapping.write, Mapping.writeBucket, Mapping.storeGeneration,
      Mapping.writeArenaUsed, Mapping.invalidateAllBuckets, Mapping.arenaStart] at here ⊢
    rw [here]
  | false =>
    have used : offsetFor publisher publication = publisher.mapping.header.arenaUsed := by
      simp [offsetFor, wraps]
    have here := start publisher.mapping.buckets layout.table
    simp only [Bool.false_eq_true, if_false, used, Mapping.write, Mapping.writeBucket,
      Mapping.storeGeneration, Mapping.writeArenaUsed, Mapping.arenaStart] at here ⊢
    rw [here]

theorem publish_cases (layout : Layout publisher) (publication : Publication) :
    (∃ error, publisher.publishAddrsWithStale publication = (.error error, publisher)) ∨
      (Accepted publication ∧ publication.need ≤ publisher.arenaSize ∧
        publisher.publishAddrsWithStale publication = (.ok (), published publisher publication)) := by
  cases passed : publisher.check publication with
  | error error =>
    refine .inl ⟨error, ?_⟩
    simp only [ShmPublisher.publishAddrsWithStale, passed]
  | ok _ =>
    obtain ⟨accepted, fits⟩ := check_accepted passed
    exact .inr ⟨accepted, fits, publish_done layout passed⟩

theorem bucketsLeft_length : (bucketsLeft publisher publication).length = publisher.mapping.buckets.length := by
  unfold bucketsLeft
  split <;> simp

theorem published_layout (layout : Layout publisher) (fits : publication.need ≤ publisher.arenaSize) :
    Layout (published publisher publication) := by
  have room := offsetFor_room fits
  have length := layout.arena
  refine { layout with table := ?_, arena := ?_ }
  · rw [published, List.length_set, bucketsLeft_length]
    exact layout.table
  · rw [published, overwrite_length (by rw [payload_length]; omega)]
    exact length

def hits (history : List Publication) (nBuckets index : Nat) : List Publication :=
  history.filter (·.bucketIndex nBuckets = index)

structure Sound (publisher : ShmPublisher) (history : List Publication) : Prop where
  layout : Layout publisher
  generation : publisher.mapping.header.writeGen = (2 * history.length + 2) % 2 ^ 64
  used : publisher.mapping.header.arenaUsed ≤ publisher.arenaSize
  live : ∀ (index : Nat) (bucket : ShmBucket), publisher.mapping.buckets[index]? = some bucket →
    bucket.gen ≠ 0 → ∃ publication, Shows publisher.mapping bucket publication ∧
      (hits history publisher.nBuckets index).getLast? = some publication
  apart : ∀ (i j : Nat) (bucket bucket' : ShmBucket), publisher.mapping.buckets[i]? = some bucket →
    publisher.mapping.buckets[j]? = some bucket' → i ≠ j → bucket.gen ≠ 0 → bucket'.gen ≠ 0 →
      bucket.off + bucket.len ≤ bucket'.off ∨ bucket'.off + bucket'.len ≤ bucket.off

theorem Sound.rest (sound : Sound publisher history) (positive : publisher.mapping.header.writeGen ≠ 0) :
    AtRest publisher :=
  ⟨sound.layout, positive, by rw [sound.generation]; omega, sound.used⟩

theorem Sound.positive (sound : Sound publisher history) (few : history.length < 2 ^ 63 - 1) :
    publisher.mapping.header.writeGen ≠ 0 := by
  rw [sound.generation]
  omega

theorem published_bucket (here : (published publisher publication).mapping.buckets[index]? = some bucket)
    (used : bucket.gen ≠ 0) :
    (index = publication.bucketIndex publisher.nBuckets ∧
      bucket = publication.bucket publisher.stableGeneration (offsetFor publisher publication)) ∨
    (index ≠ publication.bucketIndex publisher.nBuckets ∧ publisher.wraps publication = false ∧
      publisher.mapping.buckets[index]? = some bucket) := by
  rw [published, List.getElem?_set] at here
  split at here
  · rename_i same
    split at here
    · cases here
      exact .inl ⟨same.symm, rfl⟩
    · cases here
  · rename_i other
    refine .inr ⟨fun same => other same.symm, ?_⟩
    unfold bucketsLeft at here
    split at here
    · rw [List.getElem?_map, Option.map_eq_some_iff] at here
      obtain ⟨old, -, rfl⟩ := here
      exact absurd rfl used
    · rename_i room
      exact ⟨by simpa using room, here⟩

theorem Shows.kept {shown : Publication} (layout : Layout publisher)
    (fits : publication.need ≤ publisher.arenaSize) (room : publisher.wraps publication = false)
    (showing : Shows publisher.mapping bucket shown) :
    Shows (published publisher publication).mapping bucket shown := by
  have offset : offsetFor publisher publication = publisher.mapping.header.arenaUsed := by
    simp [offsetFor, room]
  have inside := showing.inside
  have bound := offsetFor_room fits
  have length := layout.arena
  refine { showing with inside := ?_, payload := ?_ }
  · rw [published]
    simp only [offset]
    omega
  · refine slice_congr ?_ (fun k within => ?_) showing.payload
    · rw [published, overwrite_length (by rw [payload_length]; omega)]
      omega
    · rw [published, overwrite_getElem?_of_lt (by rw [payload_length]; omega) (.inl (by omega))]

theorem published_shows (layout : Layout publisher) (fits : publication.need ≤ publisher.arenaSize)
    (accepted : Accepted publication) (positive : publisher.stableGeneration ≠ 0) :
    Shows (published publisher publication).mapping
      (publication.bucket publisher.stableGeneration (offsetFor publisher publication)) publication := by
  have bound := offsetFor_room fits
  have length := layout.arena
  refine ⟨positive, rfl, accepted, le_rfl, ?_⟩
  have room : offsetFor publisher publication + publication.payload.length ≤
      publisher.mapping.arena.length := by rw [payload_length]; omega
  have written := slice_overwrite room
  rw [payload_length] at written
  exact written

theorem hits_concat_self (history : List Publication) (nBuckets : Nat) :
    (hits (history ++ [publication]) nBuckets (publication.bucketIndex nBuckets)).getLast? = some publication := by
  simp [hits]

theorem hits_concat_other (other : index ≠ publication.bucketIndex nBuckets) :
    hits (history ++ [publication]) nBuckets index = hits history nBuckets index := by
  simp [hits, other.symm]

theorem stableGeneration_eq (generation : publisher.mapping.header.writeGen = (2 * count + 2) % 2 ^ 64) :
    publisher.stableGeneration = (2 * (count + 1) + 2) % 2 ^ 64 := by
  unfold ShmPublisher.stableGeneration ShmPublisher.oddGeneration
  simp only [generation]
  rw [if_pos (by omega)]
  omega

theorem Sound.publish (sound : Sound publisher history) (accepted : Accepted publication)
    (fits : publication.need ≤ publisher.arenaSize) :
    Sound (published publisher publication) (history ++ [publication]) := by
  have layout := sound.layout
  refine ⟨published_layout layout fits, ?_, offsetFor_room fits, ?_, ?_⟩
  · rw [List.length_append, List.length_singleton]
    exact stableGeneration_eq sound.generation
  · intro index bucket here used
    rcases published_bucket here used with ⟨rfl, rfl⟩ | ⟨other, room, old⟩
    · exact ⟨publication, published_shows layout fits accepted used, hits_concat_self history publisher.nBuckets⟩
    · obtain ⟨shown, showing, last⟩ := sound.live index bucket old used
      refine ⟨shown, showing.kept layout fits room, ?_⟩
      rw [← last]
      exact congrArg List.getLast? (hits_concat_other other)
  · intro i j bucket bucket' here here' different used used'
    -- the end of an old payload is below the new one
    have before : ∀ (index : Nat) (old : ShmBucket), publisher.wraps publication = false →
        publisher.mapping.buckets[index]? = some old → old.gen ≠ 0 →
          old.off + old.len ≤ offsetFor publisher publication := by
      intro index old room there live
      obtain ⟨shown, showing, -⟩ := sound.live index old there live
      have inside := showing.inside
      have length : old.len = shown.need := by rw [showing.entry]; rfl
      simp only [offsetFor, room, Bool.false_eq_true, if_false, length]
      exact inside
    rcases published_bucket here used with ⟨rfl, rfl⟩ | ⟨other, room, old⟩
    · rcases published_bucket here' used' with ⟨rfl, rfl⟩ | ⟨-, room, old'⟩
      · exact absurd rfl different
      · exact .inr (before j bucket' room old' used')
    · rcases published_bucket here' used' with ⟨rfl, rfl⟩ | ⟨-, -, old'⟩
      · exact .inl (before i bucket room old used)
      · exact sound.apart i j bucket bucket' old old' different used used'

theorem publishStep_sound (sound : Sound state.1 state.2) (call : Publication) :
    Sound (publishStep state call).1 (publishStep state call).2 := by
  unfold publishStep
  rcases publish_cases sound.layout call with
    ⟨error, failed⟩ | ⟨accepted, fits, done⟩
  · rw [failed]
    exact sound
  · rw [done]
    exact sound.publish accepted fits

theorem createAt_sound {nBuckets arenaSize : Nat} (created : createAt nBuckets arenaSize = .ok start) :
    Sound start [] := by
  obtain ⟨_, valid, created⟩ := bind_eq_ok.1 created
  have checked : (∃ k, nBuckets = 2 ^ k) ∧ arenaSize ≤ u32Max := by
    unfold validateLayout at valid
    split at valid
    · cases valid
    · rename_i count
      split at valid
      · cases valid
      · rename_i size
        simp only [isPowerOfTwo, Bool.or_eq_true, Bool.not_eq_true', beq_iff_eq, not_or,
          decide_eq_true_eq, not_lt, beq_eq_false_iff_ne, ne_eq, not_not] at count size
        exact ⟨⟨_, count.1.2⟩, size.2⟩
  simp only at created
  split at created
  · cases created
  · cases created
    refine ⟨⟨rfl, rfl, rfl, by simp, checked.1, rfl, rfl, rfl, by simp, checked.2⟩, rfl, Nat.zero_le _, ?_, ?_⟩
    · intro index bucket here used
      obtain rfl := List.eq_of_mem_replicate (List.mem_of_getElem? here)
      exact absurd rfl used
    · intro i j bucket bucket' here here' different used
      obtain rfl := List.eq_of_mem_replicate (List.mem_of_getElem? here)
      exact absurd rfl used

theorem publishStep_fst (state : ShmPublisher × List Publication) (call : Publication) :
    (publishStep state call).1 = (state.1.publishAddrsWithStale call).2 := by
  unfold publishStep
  split
  · rename_i done
    rw [done]
  · rename_i failed
    rw [failed]

theorem publishStep_length (state : ShmPublisher × List Publication) (call : Publication) :
    (publishStep state call).2.length ≤ state.2.length + 1 := by
  unfold publishStep
  split
  · simp
  · exact Nat.le_succ _

theorem publishStep_nBuckets (layout : Layout state.1) (call : Publication) : (publishStep state call).1.nBuckets = state.1.nBuckets := by
  rw [publishStep_fst]
  rcases publish_cases layout call with ⟨error, failed⟩ | ⟨-, -, done⟩
  · rw [failed]
  · rw [done]
    rfl

theorem runPublishes_concat (start : ShmPublisher) (calls : List Publication) (call : Publication) :
    runPublishes start (calls ++ [call]) = publishStep (runPublishes start calls) call := by
  simp [runPublishes]

structure RunSound (start : ShmPublisher) (calls : List Publication) : Prop where
  sound : Sound (runPublishes start calls).1 (runPublishes start calls).2
  short : (runPublishes start calls).2.length ≤ calls.length
  nBuckets : (runPublishes start calls).1.nBuckets = start.nBuckets

theorem runSound (sound : Sound start []) (calls : List Publication) : RunSound start calls := by
  induction calls using List.reverseRecOn with
  | nil => exact ⟨sound, le_rfl, rfl⟩
  | append_singleton calls call ih =>
    obtain ⟨before, short, nBuckets⟩ := ih
    refine ⟨?_, ?_, ?_⟩
    · rw [runPublishes_concat]
      exact publishStep_sound before call
    · rw [runPublishes_concat, List.length_append, List.length_singleton]
      exact (publishStep_length _ call).trans (by omega)
    · rw [runPublishes_concat, publishStep_nBuckets before.layout]
      exact nBuckets

theorem getLast?_filter {α : Type} {values : List α} {value : α} {p : α → Bool}
    (last : values.getLast? = some value) (kept : p value) : (values.filter p).getLast? = some value := by
  obtain ⟨front, rfl⟩ := List.getLast?_eq_some_iff.1 last
  simp [kept]

theorem Sound.latest {history : List Publication} (sound : Sound publisher history) :
    AnswersLatest publisher.mapping history := by
  intro owner qtype qclass now answer found
  obtain ⟨positive, bucket, here, used⟩ := Mapping.lookup_free found
  rw [sound.layout.count] at here
  obtain ⟨publication, showing, last⟩ := sound.live _ bucket here used
  rw [(sound.rest positive).lookup_shows now here showing] at found
  split at found
  · rename_i asked
    cases found
    refine ⟨publication, ?_, rfl⟩
    have narrow : history.filter (IsFor · owner qtype qclass) =
        (hits history publisher.nBuckets ((hashKey owner qtype qclass).toNat &&&
          (publisher.nBuckets - 1))).filter (IsFor · owner qtype qclass) := by
      rw [hits, List.filter_filter]
      apply List.filter_congr
      intro other _
      by_cases same : IsFor other owner qtype qclass
      · simp [same, Publication.bucketIndex, IsFor.hash same]
      · simp [same]
    rw [latestFor, narrow]
    exact getLast?_filter last (by simpa using asked.1)
  · cases found

theorem Sound.payloads (sound : Sound publisher history) : PayloadsApart publisher.mapping := by
  refine ⟨by rw [sound.layout.size]; exact sound.used, fun bucket member used => ?_, sound.apart⟩
  obtain ⟨index, here⟩ := List.mem_iff_getElem?.1 member
  obtain ⟨publication, showing, -⟩ := sound.live index bucket here used
  have length : bucket.len = publication.need := by rw [showing.entry]; rfl
  rw [length]
  exact showing.inside

theorem Sound.allOrNothing (sound : Sound publisher history) (call : Publication) :
    AllOrNothing publisher call := by
  unfold AllOrNothing
  rcases publish_cases sound.layout call with ⟨error, failed⟩ | ⟨-, -, done⟩
  · rw [failed]
  · rw [done]
    change publisher.stableGeneration % 2 = 0
    rw [stableGeneration_eq sound.generation]
    omega

def StillShown (publisher : ShmPublisher) (index : Nat) (publication : Publication) : Prop :=
  ∃ bucket, publisher.mapping.buckets[index]? = some bucket ∧ Shows publisher.mapping bucket publication

theorem stillShown_run (after : List Publication) (sound : Sound state.1 state.2)
    (shown : StillShown state.1 index publication) (quiet : Undisturbed index state.1 after) :
    StillShown (after.foldl publishStep state).1 index publication := by
  induction after generalizing state with
  | nil => exact shown
  | cons call rest ih =>
    obtain ⟨undisturbed, later⟩ := quiet
    rw [← publishStep_fst state] at later
    refine ih (publishStep_sound sound call) ?_ later
    rw [publishStep_fst]
    rcases publish_cases sound.layout call with ⟨error, failed⟩ | ⟨-, fits, done⟩
    · rw [failed]
      exact shown
    · obtain ⟨other, room⟩ := undisturbed (by rw [done])
      obtain ⟨bucket, here, showing⟩ := shown
      rw [done]
      refine ⟨bucket, ?_, showing.kept sound.layout fits room⟩
      rw [published, List.getElem?_set_ne other, bucketsLeft, if_neg (by simp [room])]
      exact here

theorem published_stillShown (sound : Sound publisher history) (positive : publisher.stableGeneration ≠ 0)
    (done : (publisher.publishAddrsWithStale publication).1 = .ok ()) :
    StillShown (publisher.publishAddrsWithStale publication).2
      (publication.bucketIndex publisher.nBuckets) publication := by
  rcases publish_cases sound.layout publication with
    ⟨error, failed⟩ | ⟨accepted, fits, written⟩
  · rw [failed] at done
    cases done
  · rw [written]
    refine ⟨_, ?_, published_shows sound.layout fits accepted positive⟩
    rw [published, List.getElem?_set_self]
    rw [bucketsLeft_length, sound.layout.table]
    exact sound.layout.index_lt _

end

/-- Everything that readers may expect holds after every run of publications on a new mapping. -/
theorem shm_sound (nBuckets arenaSize : Nat) (start : ShmPublisher)
    (created : createAt nBuckets arenaSize = .ok start) (calls : List Publication) (few : calls.length < 2 ^ 62) :
    ShmSound start calls := by
  have runs := runSound (createAt_sound created)
  obtain ⟨whole, short, nBuckets⟩ := runs calls
  have rest := whole.rest (whole.positive (by omega))
  refine ⟨whole.latest, whole.payloads, ?_, ?_⟩
  · intro before publication after split done quiet now fresh
    have earlier := runs before
    have length := congrArg List.length split
    rw [List.length_append, List.length_cons] at length
    have few := earlier.short
    have positive : (runPublishes start before).1.stableGeneration ≠ 0 := by
      rw [stableGeneration_eq earlier.sound.generation]
      omega
    have shown := published_stillShown earlier.sound positive done
    rw [earlier.nBuckets, ← publishStep_fst, ← runPublishes_concat] at shown
    have kept := stillShown_run after (runs (before ++ [publication])).sound shown quiet
    have same : after.foldl publishStep (runPublishes start (before ++ [publication])) =
        runPublishes start calls := by
      rw [split, runPublishes, runPublishes]
      simp
    rw [same] at kept
    obtain ⟨bucket, here, showing⟩ := kept
    rw [← nBuckets] at here
    rw [rest.lookup_shows now here showing, if_pos ⟨⟨rfl, rfl, rfl⟩, fresh⟩]
  · intro before call after split
    exact (runs before).sound.allOrNothing call

def publicationForA : Publication where
  ownerWire := [1, 97, 0]
  qtype := 1
  qclass := 1
  rcode := 0
  addrs := [⟨4, 0, 0, ⟨#[192, 0, 2, 1, 0, 0, 0, 0, 0, 0, 0, 0, 0, 0, 0, 0], rfl⟩⟩]
  ttl := 60000
  secure := true
  negative := false
  staleOk := false
  now := 1000

def smallMapping : ShmPublisher :=
  ⟨⟨⟨shmMagic, shmVersion, 1, 88, 50, 2, 0⟩, [.default], List.replicate 50 0⟩, 1, 88, 50⟩

theorem shm_sound_twice : createAt 1 50 = .ok smallMapping ∧
    (runPublishes smallMapping [publicationForA, publicationForA]).2.length = 2 ∧
    ShmSound smallMapping [publicationForA, publicationForA, publicationForA] := by
  have created : createAt 1 50 = .ok smallMapping := by decide +kernel
  exact ⟨created, by decide +kernel, shm_sound 1 50 smallMapping created _ (by decide)⟩

end Resolved.Proof.Shm
