import Resolved.Shm.Stub
import Resolved.Spec.Rdata

/-!
# What the NSS module may expect

Of the shared memory and of the stub resolver.
-/

/-! ## What readers may expect of the shared memory -/

namespace Resolved.Spec
open Lib Shm

def publishStep (state : ShmPublisher × List Publication) (publication : Publication) :
    ShmPublisher × List Publication :=
  match state.1.publishAddrsWithStale publication with
  | (.ok (), next) => (next, state.2 ++ [publication])
  | (.error _, next) => (next, state.2)

def runPublishes (start : ShmPublisher) (calls : List Publication) :
    ShmPublisher × List Publication :=
  calls.foldl publishStep (start, [])

def IsFor (publication : Publication) (owner : Bytes) (qtype qclass : UInt16) : Prop :=
  publication.ownerWire = owner ∧ publication.qtype = qtype ∧ publication.qclass = qclass

instance (publication : Publication) (owner : Bytes) (qtype qclass : UInt16) :
    Decidable (IsFor publication owner qtype qclass) := inferInstanceAs (Decidable (_ ∧ _ ∧ _))

def latestFor (history : List Publication) (owner : Bytes) (qtype qclass : UInt16) :
    Option Publication :=
  (history.filter (IsFor · owner qtype qclass)).getLast?

def answerOf (publication : Publication) : UInt8 × List ShmAddr × Bool :=
  (publication.rcode, publication.addrs, publication.secure)

def AnswersLatest (mapping : Mapping) (history : List Publication) : Prop :=
  ∀ owner qtype qclass now answer, mapping.lookup owner qtype qclass now = some answer →
    ∃ publication, latestFor history owner qtype qclass = some publication ∧ answer = answerOf publication

structure PayloadsApart (mapping : Mapping) : Prop where
  used : mapping.header.arenaUsed ≤ mapping.header.arenaSize
  inside : ∀ bucket ∈ mapping.buckets, bucket.gen ≠ 0 → bucket.off + bucket.len ≤ mapping.header.arenaUsed
  apart : ∀ (i j : Nat) (bucket bucket' : ShmBucket), mapping.buckets[i]? = some bucket →
    mapping.buckets[j]? = some bucket' → i ≠ j → bucket.gen ≠ 0 → bucket'.gen ≠ 0 →
      bucket.off + bucket.len ≤ bucket'.off ∨ bucket'.off + bucket'.len ≤ bucket.off

def Undisturbed (index : Nat) : ShmPublisher → List Publication → Prop
  | _, [] => True
  | publisher, call :: rest =>
    ((publisher.publishAddrsWithStale call).1 = .ok () →
      call.bucketIndex publisher.nBuckets ≠ index ∧ publisher.wraps call = false) ∧
    Undisturbed index (publisher.publishAddrsWithStale call).2 rest

def AllOrNothing (publisher : ShmPublisher) (call : Publication) : Prop :=
  match publisher.publishAddrsWithStale call with
  | (.error _, next) => next.mapping = publisher.mapping
  | (.ok (), next) => next.mapping.header.writeGen % 2 = 0

structure ShmSound (start : ShmPublisher) (calls : List Publication) : Prop where
  latest : AnswersLatest (runPublishes start calls).1.mapping (runPublishes start calls).2
  payloads : PayloadsApart (runPublishes start calls).1.mapping
  found : ∀ before publication after, calls = before ++ publication :: after →
    ((runPublishes start before).1.publishAddrsWithStale publication).1 = .ok () →
    Undisturbed (publication.bucketIndex start.nBuckets)
      (runPublishes start (before ++ [publication])).1 after →
    ∀ now, entryIsFresh publication.expiresMs publication.flags now →
      (runPublishes start calls).1.mapping.lookup publication.ownerWire publication.qtype
        publication.qclass now = some (answerOf publication)
  each : ∀ before call after, calls = before ++ call :: after → AllOrNothing (runPublishes start before).1 call

def ReadersAgree (mapping : Mapping) (owner : Bytes) : Prop :=
  ∀ qtype qclass capacity now, (mapping.srShmLookup owner qtype qclass capacity now).toOption =
      (mapping.lookup owner qtype qclass now).map fun (rcode, addrs, secure) =>
        (rcode, addrs.take capacity, secure)

/-! ## Replies to the NSS module -/

def spelled (labels : Labels) : Bytes :=
  if labels = [] then [octet '.'] else [octet '.'].intercalate labels

structure RepliesTo (response : Bytes) (id : UInt16) : Prop where
  long : 12 ≤ response.length
  id : slice response 0 2 = some (toBe16 id.toNat)
  reply : ∃ flags, response[2]? = some flags ∧ flags &&& 0x80 ≠ 0
  single : slice response 4 6 = some [0, 1]

def AsksFor (response : Bytes) (labels : Labels) (pointers : Nat) (qtype : UInt16) : Prop :=
  ∃ stop, NameIn response 12 labels pointers stop ∧
    slice response stop (stop + 4) = some (toBe16 qtype.toNat ++ [0, 1])

def EchoIn (response : Bytes) (id : UInt16) (wire : Bytes) (qtype : UInt16) (pointers : Nat) : Prop :=
  RepliesTo response id ∧ ∃ labels, AsksFor response labels pointers qtype ∧ NameOf wire (lowered labels)

def IsEcho (response : Bytes) (id : UInt16) (wire : Bytes) (qtype : UInt16) : Prop :=
  ∃ pointers, EchoIn response id wire qtype pointers

def EndsWithDot (name : Bytes) : Prop := name ≠ [octet '.'] ∧ name.getLast? = some (octet '.')

def Disguised (response : Bytes) (id : UInt16) (name : Bytes) (qtype : UInt16) : Prop :=
  RepliesTo response id ∧ ∃ labels pointers, AsksFor response labels pointers qtype ∧
    pointers ≤ 128 ∧ (spelled labels).length ≤ 255 ∧ (∃ label ∈ labels, octet '.' ∈ label ∨ 0 ∈ label) ∧
    ((spelled labels).takeWhile (· ≠ 0)).map asciiLower = name.map asciiLower

end Resolved.Spec
