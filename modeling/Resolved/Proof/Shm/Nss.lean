import Resolved.Lib.Separated
import Resolved.Proof.Shm.Publish

/-!
# The NSS module and the daemon read the same
-/

namespace Resolved.Proof.Shm
open Lib Resolved.Shm Spec

variable {name : Str} {bucket : ShmBucket} {publication : Publication} {owner : Bytes}
  {qtype qclass : UInt16}

def wireLabel (label : Bytes) : Bytes := UInt8.ofNat label.length :: label.map asciiLower

theorem srEncodeLabels_some {capacity : Nat} {parts : List Bytes} {out wire : Bytes} (nonempty : parts ≠ [])
    (encoded : srEncodeLabels capacity parts out = some wire) :
    ∃ labels, labels ≠ [] ∧ (parts = labels ∨ parts = labels ++ [[]]) ∧
      (∀ label ∈ labels, label ≠ [] ∧ label.length ≤ 63) ∧ wire = out ++ labels.flatMap wireLabel := by
  induction parts generalizing out with
  | nil => exact absurd rfl nonempty
  | cons label rest ih =>
    rw [srEncodeLabels] at encoded
    split at encoded
    · cases encoded
    · rename_i valid
      have good : label ≠ [] ∧ label.length ≤ 63 := by
        constructor
        · rintro rfl
          simp at valid
        · omega
      simp only at encoded
      split at encoded
      · rename_i last
        cases encoded
        refine ⟨[label], by simp, ?_, by simpa using good, by simp [wireLabel]⟩
        rcases last with rfl | rfl
        · exact .inl rfl
        · exact .inr rfl
      · rename_i more
        rw [not_or] at more
        obtain ⟨labels, -, shape, good', rfl⟩ := ih more.1 encoded
        refine ⟨label :: labels, by simp, ?_, ?_, by simp [wireLabel]⟩
        · rcases shape with rfl | rfl
          · exact .inl rfl
          · exact .inr rfl
        · intro other member
          rcases List.mem_cons.1 member with rfl | member
          · exact good
          · exact good' other member

theorem mapM_labelToWireLower {labels : List Str}
    (good : ∀ label ∈ labels, label ≠ [] ∧ (utf8 label).length ≤ 63) :
    labels.mapM labelToWireLower = .ok (labels.map fun label => wireLabel (utf8 label)) := by
  induction labels with
  | nil => rfl
  | cons label rest ih =>
    obtain ⟨nonempty, short⟩ := good label (by simp)
    have here : labelToWireLower label = .ok (wireLabel (utf8 label)) := by
      rw [labelToWireLower, if_neg (by simpa using nonempty), if_neg (not_lt.2 short), wireLabel]
    rw [List.mapM_cons, here, ok_bind, ih (fun other member => good other (by simp [member]))]
    rfl

theorem wireLabels_length (labels : List Bytes) :
    (labels.flatMap wireLabel).length = (labels.map (·.length + 1)).sum := by
  rw [List.length_flatMap]
  simp [wireLabel]

theorem nameToWireLower_labels {text : Str} (bare : trim name = name) (nonempty : name ≠ [])
    (trimmed : trimEndWith (· == '.') name = text)
    (good : ∀ label ∈ text.splitOn '.', label ≠ [] ∧ (utf8 label).length ≤ 63)
    (short : ((text.splitOn '.').flatMap fun label => wireLabel (utf8 label)).length ≤ 254) :
    nameToWireLower name = .ok (((text.splitOn '.').flatMap fun label => wireLabel (utf8 label)) ++ [0]) := by
  have some : text ≠ [] := by
    rintro rfl
    exact (good [] (by simp)).1 rfl
  have length : (utf8 text).length + 1 =
      ((text.splitOn '.').flatMap fun label => wireLabel (utf8 label)).length := by
    rw [← sum_length_splitOn (octet '.'), splitOn_utf8 (by decide), ← wireLabels_length, List.flatMap_map]
  rw [nameToWireLower]
  simp only [bare, trimmed]
  rw [if_neg (by simpa using nonempty), if_neg (by simpa using some), if_neg (by omega),
    splitAtChar, mapM_labelToWireLower good, ok_bind, ← List.flatMap_def]
  rw [if_neg]
  · rfl
  · rw [List.length_append, List.length_singleton]
    omega

theorem trimmed_labels {labels : List Bytes}
    (shape : (name.splitOn '.').map utf8 = labels ∨ (name.splitOn '.').map utf8 = labels ++ [[]])
    (some : labels ≠ []) (named : ∀ label ∈ labels, label ≠ []) :
    ∃ text, trimEndWith (· == '.') name = text ∧ (text.splitOn '.').map utf8 = labels := by
  have free : ∀ text : Str, (text.splitOn '.').map utf8 = labels →
      trimEndWith (· == '.') text = text := by
    rintro text rfl
    apply trimEnd_of_labels
    rintro part member rfl
    exact named [] (List.mem_map.2 ⟨[], member, rfl⟩) rfl
  rcases shape with shape | shape
  · exact ⟨name, free name shape, shape⟩
  · obtain ⟨front, rear, split, rfl, empty⟩ := List.map_eq_append_iff.1 shape
    obtain ⟨last, rfl, nothing⟩ := List.map_eq_singleton_iff.1 empty
    obtain rfl := utf8_eq_nil.1 nothing
    have whole : name = ['.'].intercalate front ++ ['.'] := by
      rw [← intercalate_concat_nil '.' (by simpa using some), ← split, List.intercalate_splitOn]
    have parts : (['.'].intercalate front).splitOn '.' = front := by
      rw [whole, splitOn_concat] at split
      exact List.append_cancel_right split
    have kept := free (['.'].intercalate front) (by rw [parts])
    refine ⟨['.'].intercalate front, ?_, by rw [parts]⟩
    rw [whole, trimEndWith, List.rdropWhile_concat_pos _ _ _ (by simp)]
    exact kept

theorem eq_dot_of_utf8 (dot : utf8 name = [octet '.']) : name = ['.'] := by
  have ascii : '.'.toNat < 128 := by decide
  have parts : (name.splitOn '.').map utf8 = [[], []] := by
    rw [← splitOn_utf8 ascii, dot]
    rfl
  have whole : ['.'].intercalate (name.splitOn '.') = name := List.intercalate_splitOn '.'
  obtain ⟨first, rest, split, empty, parts⟩ := List.map_eq_cons_iff.1 parts
  obtain ⟨second, rfl, empty'⟩ := List.map_eq_singleton_iff.1 parts
  rw [← whole, split, utf8_eq_nil.1 empty, utf8_eq_nil.1 empty']
  rfl

theorem nameToWireLower_of_srEncodeName (bare : trim name = name)
    (encoded : srEncodeName (utf8 name) 255 = some owner) : nameToWireLower name = .ok owner := by
  unfold srEncodeName at encoded
  split at encoded
  · cases encoded
  · rename_i present
    split at encoded
    · rename_i dot
      cases encoded
      rw [eq_dot_of_utf8 (beq_iff_eq.1 dot)]
      rfl
    · rw [Option.bind_eq_bind, Option.bind_eq_some_iff] at encoded
      obtain ⟨wire, labels, encoded⟩ := encoded
      split at encoded
      · cases encoded
      · rename_i room
        cases encoded
        rw [splitOn_utf8 (by decide)] at labels
        obtain ⟨labels, some, shape, good, rfl⟩ := srEncodeLabels_some (by simp) labels
        obtain ⟨text, trimmed, rfl⟩ := trimmed_labels shape some fun label member =>
          (good label member).1
        rw [List.nil_append, List.flatMap_map] at room ⊢
        refine nameToWireLower_labels bare ?_ trimmed ?_ (by omega)
        · rintro rfl
          simp at present
        · intro label member
          obtain ⟨nonempty, short⟩ := good (utf8 label) (List.mem_map_of_mem member)
          exact ⟨fun empty => nonempty (utf8_eq_nil.2 empty), short⟩

theorem srHashKey_eq (owner : Bytes) (qtype qclass : UInt16) :
    srHashKey owner qtype qclass = hashKey owner qtype qclass := by
  unfold srHashKey hashKey
  rfl

theorem bucketIsFresh_eq (bucket : ShmBucket) (now : Nat) :
    bucketIsFresh bucket now = entryIsFresh bucket.expiresMs bucket.flags now := by
  unfold bucketIsFresh entryIsFresh
  grind

theorem copyAddresses_flatMap (addrs : List ShmAddr) (inside : count ≤ addrs.length) (front : Bytes) :
    copyAddresses (front ++ addrs.flatMap ShmAddr.bytes) count front.length = some (addrs.take count) := by
  induction count generalizing addrs front with
  | zero => rfl
  | succ count ih =>
    cases addrs with
    | nil => cases inside
    | cons address rest =>
      have here := slice_middle front address.bytes (rest.flatMap ShmAddr.bytes)
      have later := ih rest (Nat.le_of_succ_le_succ inside) (front ++ address.bytes)
      rw [bytes_length] at here
      rw [List.length_append, bytes_length] at later
      rw [List.flatMap_cons, copyAddresses, ← List.append_assoc, here]
      simp only [Option.bind_eq_bind, Option.bind_some, ofBytes_bytes, later, Option.pure_def,
        List.take_succ_cons]

theorem copyAddresses_payload (publication : Publication) (capacity : Nat) :
    copyAddresses publication.payload
      (if publication.addrs.length < capacity then publication.addrs.length else capacity)
      (1 + publication.ownerWire.length) = some (publication.addrs.take capacity) := by
  have front := copyAddresses_flatMap publication.addrs
    (min_le_left publication.addrs.length capacity)
    (UInt8.ofNat publication.ownerWire.length :: publication.ownerWire)
  have least : (if publication.addrs.length < capacity then publication.addrs.length else capacity) =
      min publication.addrs.length capacity := by
    grind
  rw [List.length_cons, Nat.add_comm, min_comm, ← List.take_eq_take_min] at front
  rw [least, min_comm]
  exact front

theorem payload_other (accepted : Accepted publication) (short : owner.length ≤ 255)
    (other : publication.ownerWire ≠ owner) :
    publication.payload.head? ≠ some (UInt8.ofNat owner.length) ∨
      slice publication.payload 1 (1 + owner.length) ≠ some owner := by
  by_cases length : publication.ownerWire.length = owner.length
  · apply Or.inr
    rw [← length, payload_owner]
    simpa using other
  · apply Or.inl
    intro same
    have number := congrArg UInt8.toNat (Option.some.inj ((payload_head publication).symm.trans same))
    rw [accepted.owner_length] at number
    apply length
    rw [number]
    simp
    omega

section
variable {publisher : ShmPublisher}

theorem Layout.srHeaderValid (layout : Layout publisher)
    (used : publisher.mapping.header.arenaUsed ≤ publisher.arenaSize) :
    srHeaderValid publisher.mapping.header publisher.mapping.length = true := by
  obtain ⟨k, power⟩ := layout.power
  have alone : 2 ^ k &&& (2 ^ k - 1) = 0 := by
    rw [Nat.and_two_pow_sub_one_eq_mod, Nat.mod_self]
  have version : publisher.mapping.header.version = 1 := layout.version
  simp [Resolved.Shm.srHeaderValid, rangeValid, layout.magic, version, layout.count, layout.size,
    layout.arenaOff, layout.start, layout.length, power, alone, used]
  omega

def answerWithin (capacity : Nat) (publication : Publication) : UInt8 × List ShmAddr × Bool :=
  (publication.rcode, publication.addrs.take capacity, publication.secure)

theorem Layout.srReadBucket_shows (layout : Layout publisher)
    (bounded : publisher.mapping.header.arenaUsed ≤ publisher.arenaSize)
    (showing : Shows publisher.mapping bucket publication) {hash : UInt64} (short : owner.length ≤ 255)
    (capacity now : Nat) (hashed : IsFor publication owner qtype qclass → publication.hash = hash) :
    (publisher.mapping.srReadBucket publisher.mapping.header bucket hash owner qtype qclass capacity
      now).toOption = if IsFor publication owner qtype qclass ∧
          entryIsFresh publication.expiresMs publication.flags now then some (answerWithin capacity publication)
      else none := by
  obtain ⟨gen, mark, off, len, expires, flags, type, cls, rcode, count⟩ := bucket
  obtain ⟨used, entry, accepted, inside, payload⟩ := showing
  simp only [Publication.bucket, ShmBucket.mk.injEq, true_and] at entry
  obtain ⟨rfl, rfl, rfl, rfl, rfl, rfl, rfl, rfl⟩ := entry
  simp only at inside payload
  have read : publisher.mapping.read (publisher.mapping.header.arenaOff + off)
      (publisher.mapping.header.arenaOff + off + publication.need) = some publication.payload := by
    rw [layout.arenaOff, Nat.add_assoc, layout.read]
    exact payload
  have range : rangeValid (publisher.mapping.header.arenaOff + off) publication.need
      publisher.mapping.length = true := by
    simp only [rangeValid, layout.arenaOff, layout.length, Bool.and_eq_true, decide_eq_true_eq]
    omega
  have placed : ¬ (publisher.mapping.header.arenaUsed < off ∨
      publisher.mapping.header.arenaUsed - off < publication.need ∨
      rangeValid (publisher.mapping.header.arenaOff + off) publication.need
        publisher.mapping.length = false) := by
    rw [range]
    simp
    omega
  simp only [Mapping.srReadBucket, bucketIsFresh_eq, used, false_or, placed, if_false, read, okOr_some, ok_bind]
  by_cases asked : IsFor publication owner qtype qclass
  · rw [hashed asked]
    obtain ⟨rfl, rfl, rfl⟩ := asked
    have long : ¬ publication.need <
        1 + publication.ownerWire.length + publication.addrs.length * addrSize := lt_irrefl _
    cases entryIsFresh publication.expiresMs publication.flags now with
    | false => simp [Except.toOption]
    | true =>
      simp [long, payload_head, payload_owner, copyAddresses_payload, flags_secure, answerWithin, IsFor,
        Except.toOption, pure, Except.pure]
  · simp only [asked, false_and, if_false]
    by_cases named : publication.ownerWire = owner
    · have elsewhere : publication.hash ≠ hash ∨ publication.qtype ≠ qtype ∨ publication.qclass ≠ qclass ∨
            entryIsFresh publication.expiresMs publication.flags now = false := by
        unfold IsFor at asked
        grind
      rw [if_pos elsewhere]
      rfl
    · rw [if_pos (payload_other accepted short named)]
      split_ifs <;> rfl

theorem Layout.srShmLookup_shows (layout : Layout publisher)
    (bounded : publisher.mapping.header.arenaUsed ≤ publisher.arenaSize) (capacity now : Nat)
    (here : publisher.mapping.buckets[(hashKey owner qtype qclass).toNat &&&
      (publisher.nBuckets - 1)]? = some bucket)
    (showing : Shows publisher.mapping bucket publication) :
    (publisher.mapping.srShmLookup owner qtype qclass capacity now).toOption =
      if IsFor publication owner qtype qclass ∧
          entryIsFresh publication.expiresMs publication.flags now then
        some (answerWithin capacity publication)
      else none := by
  rw [Mapping.srShmLookup]
  split
  · rename_i length
    rw [if_neg]
    · rfl
    · rintro ⟨⟨rfl, -⟩, -⟩
      have short := showing.accepted.short
      have named := List.length_pos_iff.2 showing.accepted.named
      omega
  · rename_i length
    rw [if_neg (by simp [layout.srHeaderValid bounded])]
    rw [← layout.count, ← srHashKey_eq] at here
    change (okOr Errno.eproto (publisher.mapping.buckets[(srHashKey owner qtype qclass).toNat &&&
      (publisher.mapping.header.nBuckets - 1)]?) >>= fun bucket =>
        publisher.mapping.srReadBucket _ bucket _ owner qtype qclass capacity now).toOption = _
    rw [here, okOr_some, ok_bind]
    apply layout.srReadBucket_shows bounded showing (by omega)
    rw [srHashKey_eq]
    exact IsFor.hash

theorem Layout.srShmLookup_unused (layout : Layout publisher)
    (bounded : publisher.mapping.header.arenaUsed ≤ publisher.arenaSize) (capacity now : Nat)
    (here : publisher.mapping.buckets[(hashKey owner qtype qclass).toNat &&&
      (publisher.nBuckets - 1)]? = some bucket) (unused : bucket.gen = 0) :
    (publisher.mapping.srShmLookup owner qtype qclass capacity now).toOption = none := by
  rw [Mapping.srShmLookup]
  split
  · rfl
  · rw [if_neg (by simp [layout.srHeaderValid bounded])]
    rw [← layout.count, ← srHashKey_eq] at here
    change (okOr Errno.eproto (publisher.mapping.buckets[(srHashKey owner qtype qclass).toNat &&&
      (publisher.mapping.header.nBuckets - 1)]?) >>= fun bucket =>
        publisher.mapping.srReadBucket _ bucket _ owner qtype qclass capacity now).toOption = _
    rw [here, okOr_some, ok_bind, Mapping.srReadBucket, if_pos (.inl unused)]
    rfl

theorem Sound.readersAgree (sound : Sound publisher history) (current : publisher.mapping.header.writeGen ≠ 0)
    (owner : Bytes) : ReadersAgree publisher.mapping owner := by
  intro qtype qclass capacity now
  have inside := sound.layout.index_lt (hashKey owner qtype qclass)
  rw [← sound.layout.table] at inside
  obtain ⟨bucket, here⟩ : ∃ bucket, publisher.mapping.buckets[(hashKey owner qtype qclass).toNat &&&
      (publisher.nBuckets - 1)]? = some bucket := by
    rw [← sound.layout.table]
    exact ⟨_, List.getElem?_eq_getElem inside⟩
  by_cases used : bucket.gen = 0
  · rw [sound.layout.srShmLookup_unused sound.used capacity now here used]
    cases found : publisher.mapping.lookup owner qtype qclass now with
    | none => rfl
    | some answer =>
      obtain ⟨-, other, there, free⟩ := Mapping.lookup_free found
      rw [sound.layout.count, here] at there
      cases there
      exact absurd used free
  · obtain ⟨publication, showing, -⟩ := sound.live _ bucket here used
    rw [sound.layout.srShmLookup_shows sound.used capacity now here showing,
      (sound.rest current).lookup_shows now here showing]
    split <;> rfl

end

/-- For every name that the C side encodes, both sides have the same owner on the wire and find the
same there, unless the write generation has just gone round to zero. -/
theorem readers_agree (nBuckets arenaSize : Nat) (start : ShmPublisher)
    (created : createAt nBuckets arenaSize = .ok start) (calls : List Publication)
    (current : (runPublishes start calls).1.mapping.header.writeGen ≠ 0) (name : Str) (bare : trim name = name)
    (owner : Bytes) (encoded : srEncodeName (utf8 name) 255 = some owner) :
    nameToWireLower name = .ok owner ∧ ReadersAgree (runPublishes start calls).1.mapping owner :=
  ⟨nameToWireLower_of_srEncodeName bare encoded,
    (runSound (createAt_sound created) calls).sound.readersAgree current owner⟩

theorem readers_agree_once : createAt 1 50 = .ok smallMapping ∧ nameToWireLower ['A', '.'] = .ok [1, 97, 0] ∧
    ReadersAgree (runPublishes smallMapping [publicationForA]).1.mapping [1, 97, 0] := by
  have created : createAt 1 50 = .ok smallMapping := by decide
  exact ⟨created, readers_agree 1 50 smallMapping created [publicationForA] (by decide)
    ['A', '.'] (by decide) [1, 97, 0] (by decide)⟩

def publicationForB : Publication := { publicationForA with ownerWire := [1, 98, 0], addrs := [] }

def roundMapping : ShmPublisher :=
  ⟨⟨⟨shmMagic, shmVersion, 2, 136, 28, 2, 0⟩, [.default, .default], List.replicate 28 0⟩, 2, 136, 28⟩

structure RoundState (state : ShmPublisher × List Publication) : Prop where
  sound : Sound state.1 state.2
  size : state.1.arenaSize = 28
  count : state.1.nBuckets = 2
  used : state.1.mapping.header.arenaUsed = 0 ∨ state.1.mapping.header.arenaUsed = 24

theorem check_ofSize {publisher : ShmPublisher} (size : publisher.arenaSize = 28) :
    publisher.check publicationForA = .ok () ∧ publisher.check publicationForB = .ok () := by
  unfold ShmPublisher.check
  rw [size]
  decide

theorem RoundState.step {state : ShmPublisher × List Publication} (round : RoundState state) :
    publishStep state publicationForA = (published state.1 publicationForA, state.2 ++ [publicationForA]) ∧
    (published state.1 publicationForA).mapping.header.arenaUsed = 24 := by
  have need : publicationForA.need = 24 := by decide
  constructor
  · unfold publishStep
    rw [publish_done round.sound.layout (check_ofSize round.size).1]
  · have offset : offsetFor state.1 publicationForA = 0 := by
      unfold offsetFor ShmPublisher.wraps
      rw [round.size, need]
      rcases round.used with used | used <;> simp [used]
    change offsetFor state.1 publicationForA + publicationForA.need = 24
    rw [offset, need]

theorem roundState_replicate (count : Nat) :
    RoundState (runPublishes roundMapping (List.replicate count publicationForA)) ∧
      (runPublishes roundMapping (List.replicate count publicationForA)).2.length = count := by
  have created : createAt 2 28 = .ok roundMapping := by decide
  induction count with
  | zero => exact ⟨⟨createAt_sound created, rfl, rfl, .inl rfl⟩, rfl⟩
  | succ count ih =>
    obtain ⟨round, length⟩ := ih
    obtain ⟨step, used⟩ := round.step
    have sound := publishStep_sound round.sound publicationForA
    rw [List.replicate_succ', runPublishes_concat]
    rw [step] at sound ⊢
    exact ⟨⟨sound, round.size, round.count, .inr used⟩, by simp [length]⟩

theorem lookup_zero {mapping : Mapping} (zero : mapping.header.writeGen = 0) (owner : Bytes)
    (qtype qclass : UInt16) (now : Nat) : mapping.lookup owner qtype qclass now = none := by
  rw [Mapping.lookup, Mapping.headerSnapshot]
  simp only [zero, true_or, if_true]
  rfl

theorem RoundState.differ {state : ShmPublisher × List Publication} (round : RoundState state)
    (length : state.2.length = 2 ^ 63 - 3) :
    ¬ ReadersAgree (publishStep (publishStep state publicationForA) publicationForB).1.mapping [1, 97, 0] := by
  obtain ⟨step, used⟩ := round.step
  have sound := publishStep_sound round.sound publicationForA
  have positive : state.1.stableGeneration ≠ 0 := by
    rw [stableGeneration_eq round.sound.generation, length]
    decide
  have done := publish_done round.sound.layout (check_ofSize round.size).1
  have shown := published_stillShown round.sound positive (by rw [done])
  rw [done, round.count] at shown
  rw [step] at sound ⊢
  have done' := publish_done sound.layout (check_ofSize round.size).2
  have quiet : Undisturbed (publicationForA.bucketIndex 2) (published state.1 publicationForA)
      [publicationForB] := by
    refine ⟨fun _ => ⟨?_, ?_⟩, trivial⟩
    · change publicationForB.bucketIndex state.1.nBuckets ≠ _
      rw [round.count]
      decide
    · have need : publicationForB.need = 4 := by decide
      change decide (state.1.arenaSize < _) = false
      rw [used, need, round.size]
      rfl
  have kept := stillShown_run [publicationForB] sound shown quiet
  have sound' := publishStep_sound sound publicationForB
  have last : publishStep (published state.1 publicationForA, state.2 ++ [publicationForA])
      publicationForB = (published (published state.1 publicationForA) publicationForB,
        state.2 ++ [publicationForA] ++ [publicationForB]) := by
    unfold publishStep
    rw [done']
  change StillShown (publishStep _ _).1 _ _ at kept
  rw [last] at kept sound' ⊢
  obtain ⟨bucket, here, showing⟩ := kept
  have zero : (published (published state.1 publicationForA)
      publicationForB).mapping.header.writeGen = 0 := by
    rw [sound'.generation]
    simp [length]
  intro agree
  have found := agree 1 1 1 1000
  rw [lookup_zero zero, sound'.layout.srShmLookup_shows sound'.used 1 1000 ?_ showing] at found
  · revert found
    decide
  · change _[_ &&& (state.1.nBuckets - 1)]? = some bucket
    rw [round.count]
    exact here

theorem readers_differ : createAt 2 28 = .ok roundMapping ∧ srEncodeName (utf8 ['a']) 255 = some [1, 97, 0] ∧
    ¬ ReadersAgree (runPublishes roundMapping
      (List.replicate (2 ^ 63 - 2) publicationForA ++ [publicationForB])).1.mapping [1, 97, 0] := by
  refine ⟨by decide, by decide, ?_⟩
  obtain ⟨before, length⟩ := roundState_replicate (2 ^ 63 - 3)
  have calls : List.replicate (2 ^ 63 - 2) publicationForA =
      List.replicate (2 ^ 63 - 3) publicationForA ++ [publicationForA] := List.replicate_succ'
  rw [calls, runPublishes_concat, runPublishes_concat]
  exact before.differ length

end Resolved.Proof.Shm
