import Resolved.Lib.Ordered
import Resolved.Mdns.Cache

/-!
# mDNS queries

`query_raw` asks on all interfaces and collects the records of the responses until the time is over,
or a little longer than the last one that answered.
-/

namespace Resolved.Mdns
open Lib Wire

def typeNs : Nat := 2
def typeMx : Nat := 15
def typeSrv : Nat := 33
def typeDname : Nat := 39
def typeNsec : Nat := 47

def responseSettleTime : Nat := 120

inductive MdnsRuntimeError where
  | io (message : String)
  | invalidQuery (message : String)
  | invalidResponse (message : String)
deriving DecidableEq, Repr

abbrev MResult := Except MdnsRuntimeError

/-- `text` is kept in octets: it is only compared with ASCII names, which the lossy conversion to a
string leaves alone. -/
structure MdnsQuestion where
  id : Nat
  flags : Nat
  owner : Bytes
  text : Bytes
  rrType : Nat
  cls : Nat
  raw : Bytes
deriving DecidableEq, Repr

structure RuntimeRecord where
  owner : Bytes
  rrType : Nat
  cls : Nat
  ttl : Nat
  cacheFlush : Bool
  rdata : Bytes
  interface : MdnsInterface
deriving DecidableEq, Repr

def RuntimeRecord.fields (record : RuntimeRecord) :
    Bytes ×ₗ Nat ×ₗ Nat ×ₗ Nat ×ₗ Bool ×ₗ Bytes ×ₗ Nat ×ₗ Bool :=
  toLex (record.owner, toLex (record.rrType, toLex (record.cls, toLex (record.ttl,
    toLex (record.cacheFlush, toLex (record.rdata, toLex (record.interface.ifindex.toNat,
      decide (record.interface.family = .ipv6))))))))

theorem RuntimeRecord.fields_injective : Function.Injective RuntimeRecord.fields := by
  rintro ⟨owner, rrType, cls, ttl, flush, rdata, ifindex, family⟩
    ⟨owner', rrType', cls', ttl', flush', rdata', ifindex', family'⟩ same
  simp only [RuntimeRecord.fields, EmbeddingLike.apply_eq_iff_eq, Prod.mk.injEq, UInt32.toNat_inj] at same
  obtain ⟨rfl, rfl, rfl, rfl, rfl, rfl, rfl, families⟩ := same
  cases family <;> cases family' <;> simp_all

instance : LinearOrder RuntimeRecord :=
  LinearOrder.lift' RuntimeRecord.fields RuntimeRecord.fields_injective

def readU16At (packet : Bytes) (offset : Nat) : MResult Nat :=
  okOr (.invalidResponse "truncated DNS u16") (u16? packet offset)

def readU32At (packet : Bytes) (offset : Nat) : MResult Nat :=
  match packet[offset]?, packet[offset + 1]?, packet[offset + 2]?, packet[offset + 3]? with
  | some a, some b, some c, some d => .ok (be32 a b c d)
  | _, _, _, _ => .error (.invalidResponse "truncated DNS u32")

structure DecodedName where
  wire : Bytes
  text : Bytes
  stop : Nat
deriving DecidableEq, Repr

def nameText (labels : List Bytes) : Bytes :=
  if labels = [] then [0x2e] else labels.flatMap fun label => label ++ [0x2e]

/-- The loop of `decode_name`. The first number is how many turns are left. -/
def decodeLoop (packet : Bytes) :
    Nat → Bytes → List Bytes → Nat → Option Nat → List Nat → MResult DecodedName
  | 0, _, _, _, _, _ => .error (.invalidResponse "too many DNS compression pointers")
  | turns + 1, output, labels, cursor, next, visited =>
    match packet[cursor]? with
    | none => .error (.invalidResponse "truncated DNS name")
    | some length =>
      if length &&& 0xc0 = 0xc0 then
        match packet[cursor + 1]? with
        | none => .error (.invalidResponse "truncated DNS compression pointer")
        | some second =>
          let target := pointerTarget length second
          if target ≥ packet.length ∨ target ∈ visited then
            .error (.invalidResponse "invalid DNS compression pointer")
          else decodeLoop packet turns output labels target (some (next.getD (cursor + 2)))
            (target :: visited)
      else if length &&& 0xc0 ≠ 0 ∨ length > 63 then
        .error (.invalidResponse "invalid DNS label")
      else if length = 0 then
        match canonicalWireName (output ++ [0]) with
        | .error _ => .error (.invalidResponse "invalid DNS name")
        | .ok wire => .ok ⟨wire, nameText labels, next.getD (cursor + 1)⟩
      else if cursor + 1 + length.toNat > packet.length then
        .error (.invalidResponse "truncated DNS label")
      else
        let label := ((packet.drop (cursor + 1)).take length.toNat).map asciiLower
        let output := output ++ length :: label
        if output.length ≥ 255 then .error (.invalidResponse "DNS name is too long")
        else decodeLoop packet turns output (labels ++ [label]) (cursor + 1 + length.toNat) next
          visited

def decodeName (packet : Bytes) (start : Nat) : MResult DecodedName :=
  decodeLoop packet 128 [] [] start none []

def parseQuestion (packet : Bytes) : MResult MdnsQuestion :=
  if packet.length < dnsHeaderLen then .error (.invalidQuery "short DNS query")
  else do
    let id ← readU16At packet 0
    let flags ← readU16At packet 2
    if flags &&& flagQr ≠ 0 ∨ flags &&& flagOpcode ≠ 0 then
      .error (.invalidQuery "invalid mDNS query flags")
    else do
      let count ← readU16At packet 4
      if count ≠ 1 then
        .error (.invalidQuery "mDNS translation requires exactly one question")
      else do
        let name ← decodeName packet dnsHeaderLen
        if name.stop + 4 > packet.length then .error (.invalidQuery "truncated DNS question")
        else do
          let rrType ← readU16At packet name.stop
          let cls ← readU16At packet (name.stop + 2)
          return ⟨id, flags, name.wire, name.text, rrType, cls, (packet.take (name.stop + 4)).drop dnsHeaderLen⟩

def shouldHandleName (text : Bytes) : Bool :=
  let name := (text.rdropWhile (· = 0x2e)).map asciiLower
  name == [108, 111, 99, 97, 108] ||
    List.isSuffixOf [46, 108, 111, 99, 97, 108] name ||
    List.isSuffixOf [46, 50, 53, 52, 46, 49, 54, 57, 46, 105, 110, 45, 97, 100, 100, 114, 46, 97,
      114, 112, 97] name ||
    List.isSuffixOf [46, 56, 46, 101, 46, 102, 46, 105, 112, 54, 46, 97, 114, 112, 97] name

def expandTrailingName (packet : Bytes) (fixed start stop : Nat) (short trailing : String) :
    MResult Bytes :=
  if start + fixed > stop then .error (.invalidResponse short)
  else do
    let name ← decodeName packet (start + fixed)
    if name.stop ≠ stop then .error (.invalidResponse trailing)
    else return (packet.drop start).take fixed ++ name.wire

def expandRdata (packet : Bytes) (rrType start stop : Nat) : MResult Bytes :=
  if rrType = typeNs ∨ rrType = typeCname ∨ rrType = typePtr ∨ rrType = typeDname then do
    let name ← decodeName packet start
    if name.stop ≠ stop then .error (.invalidResponse "trailing name record data")
    else return name.wire
  else if rrType = typeMx then
    expandTrailingName packet 2 start stop "short MX record" "trailing MX data"
  else if rrType = typeSrv then
    expandTrailingName packet 6 start stop "short SRV record" "trailing SRV data"
  else if rrType = typeSoa then do
    let mname ← decodeName packet start
    let rname ← decodeName packet mname.stop
    if rname.stop + 20 ≠ stop then .error (.invalidResponse "invalid SOA data")
    else return mname.wire ++ rname.wire ++ (packet.take stop).drop rname.stop
  else if rrType = typeNsec then do
    let next ← decodeName packet start
    if next.stop > stop then .error (.invalidResponse "invalid NSEC data")
    else return next.wire ++ (packet.take stop).drop next.stop
  else return (packet.take stop).drop start

def skipResponseQuestions (packet : Bytes) : Nat → Nat → MResult Nat
  | 0, offset => .ok offset
  | count + 1, offset => do
    let name ← decodeName packet offset
    if name.stop + 4 ≤ packet.length then skipResponseQuestions packet count (name.stop + 4)
    else .error (.invalidResponse "truncated mDNS question")

def parseRuntimeRecord (packet : Bytes) (interface : MdnsInterface) (offset : Nat) :
    MResult (RuntimeRecord × Nat) := do
  let owner ← decodeName packet offset
  let stop := owner.stop
  if stop + 10 > packet.length then .error (.invalidResponse "truncated mDNS record header")
  else do
    let rrType ← readU16At packet stop
    let rawClass ← readU16At packet (stop + 2)
    let ttl ← readU32At packet (stop + 4)
    let length ← readU16At packet (stop + 8)
    if stop + 10 + length > packet.length then
      .error (.invalidResponse "truncated mDNS record data")
    else do
      let rdata ← expandRdata packet rrType (stop + 10) (stop + 10 + length)
      return (⟨owner.wire, rrType, rawClass &&& dnsClassMask, ttl,
        rawClass &&& dnsClassCacheFlush ≠ 0, rdata, interface⟩, stop + 10 + length)

def parseRuntimeRecords (packet : Bytes) (interface : MdnsInterface) :
    Nat → Nat → MResult (List RuntimeRecord × Nat)
  | 0, offset => .ok ([], offset)
  | count + 1, offset => do
    let (record, offset) ← parseRuntimeRecord packet interface offset
    let (rest, stop) ← parseRuntimeRecords packet interface count offset
    return (record :: rest, stop)

def parseResponseRecords (packet : Bytes) (interface : MdnsInterface) :
    MResult (List RuntimeRecord) :=
  if packet.length < dnsHeaderLen then .error (.invalidResponse "short mDNS response")
  else do
    let questions ← readU16At packet 4
    let answers ← readU16At packet 6
    let authorities ← readU16At packet 8
    let additionals ← readU16At packet 10
    let offset ← skipResponseQuestions packet questions dnsHeaderLen
    let (records, offset) ←
      parseRuntimeRecords packet interface (answers + authorities + additionals) offset
    if offset ≠ packet.length then .error (.invalidResponse "trailing data after mDNS response")
    else return records

def recordMatches (question : MdnsQuestion) (record : RuntimeRecord) : Bool :=
  record.owner = question.owner ∧ (question.rrType = typeAny ∨ question.rrType = record.rrType) ∧
    question.cls &&& dnsClassMask = record.cls &&& dnsClassMask

def cachedOnInterfaces (question : MdnsQuestion) (now : Nat) :
    List MdnsInterface → MdnsCache → MResult (List RuntimeRecord × MdnsCache)
  | [], cache => .ok ([], cache)
  | interface :: rest, cache =>
    match MdnsRecordKey.new interface question.owner question.rrType question.cls with
    | .error _ => .error (.invalidQuery "invalid mDNS question owner")
    | .ok key => do
      let (found, cache) := cache.lookup key now
      let candidates := found.map fun record => RuntimeRecord.mk question.owner question.rrType
        (question.cls &&& dnsClassMask) (max (min ((record.expiresAt - now) / 1000) (2 ^ 32 - 1)) 1)
        record.cacheFlush record.rdata interface
      let (others, cache) ← cachedOnInterfaces question now rest cache
      return (candidates ++ others, cache)

def cachedRecords (question : MdnsQuestion) (interfaces : List MdnsInterface) (now : Nat)
    (cache : MdnsCache) : MResult (List RuntimeRecord × MdnsCache) :=
  if question.rrType = typeAny then .ok ([], cache)
  else do
    let (found, cache) ← cachedOnInterfaces question now interfaces cache
    return (found.eraseDups, cache)

def recordBytes (record : RuntimeRecord) : MResult Bytes :=
  if record.rdata.length > 65535 then .error (.invalidResponse "mDNS RDATA exceeds 65535 octets")
  else return record.owner ++ toBe16 record.rrType ++ toBe16 (record.cls &&& dnsClassMask) ++
    toBe32 record.ttl ++ toBe16 record.rdata.length ++ record.rdata

def buildStubResponse (question : MdnsQuestion) (answers additionals : List RuntimeRecord) :
    MResult Bytes :=
  let answers := sortDedup (answers.filter (recordMatches question))
  if answers.length > 65535 ∨ additionals.length > 65535 then
    .error (.invalidResponse "too many records in translated mDNS response")
  else do
    let flags := flagQr ||| flagAa ||| flagRa ||| (question.flags &&& flagRd)
    let records ← (answers ++ additionals).mapM recordBytes
    let output := toBe16 question.id ++ toBe16 flags ++ toBe16 1 ++ toBe16 answers.length ++
      toBe16 0 ++ toBe16 additionals.length ++ question.raw ++ records.flatten
    if output.length > 65535 then
      return (overwrite output 2 (toBe16 (flags ||| flagTc))).take 1232
    else return output

structure Reception where
  interface : MdnsInterface
  packet : Bytes
  metadata : IngressMeta
  receivedAt : Nat
  collectedAt : Nat
deriving DecidableEq, Repr

structure Pass where
  startsAt : Nat
  receptions : List Reception
  endsAt : Nat
deriving DecidableEq, Repr

structure Collected where
  answers : List RuntimeRecord
  additionals : List RuntimeRecord
  settleDeadline : Option Nat
  cache : MdnsCache

def collectRecords (question : MdnsQuestion) (now : Nat) :
    List RuntimeRecord → Collected → Collected × MResult Unit
  | [], collected => (collected, .ok ())
  | record :: rest, collected =>
    if record.cls &&& dnsClassMask ≠ 1 then collectRecords question now rest collected
    else match MdnsRecordKey.new record.interface record.owner record.rrType record.cls with
      | .error _ => (collected, .error (.invalidResponse "invalid mDNS owner"))
      | .ok key =>
        let cache := collected.cache.insert key record.rdata record.ttl record.cacheFlush now
        collectRecords question now rest
          (if recordMatches question record then
            { collected with answers := sortDedup (record :: collected.answers), cache := cache }
          else
            { collected with
              additionals := sortDedup (record :: collected.additionals), cache := cache })

def isOwnResponse (reception : Reception) : Bool :=
  match validateIngress reception.packet reception.metadata with
  | .error _ => false
  | .ok validated => validated.kind = .response ∧ validated.interface = reception.interface

def receive (question : MdnsQuestion) (collected : Collected) (reception : Reception) :
    Collected × MResult Unit :=
  if isOwnResponse reception then
    match parseResponseRecords reception.packet reception.interface with
    | .error error => (collected, .error error)
    | .ok records =>
      match collectRecords question reception.receivedAt records collected with
      | (collected, .error error) => (collected, .error error)
      | (collected, .ok ()) =>
        (if collected.answers ≠ [] then
          { collected with settleDeadline := some (reception.collectedAt + responseSettleTime) }
        else collected, .ok ())
  else (collected, .ok ())

def receiveAll (question : MdnsQuestion) :
    List Reception → Collected → Collected × MResult Unit
  | [], collected => (collected, .ok ())
  | reception :: rest, collected =>
    match receive question collected reception with
    | (collected, .error error) => (collected, .error error)
    | (collected, .ok ()) => receiveAll question rest collected

def listenLoop (question : MdnsQuestion) (deadline : Nat) :
    List Pass → Collected → Collected × MResult Unit
  | [], collected => (collected, .ok ())
  | pass :: rest, collected =>
    if deadline ≤ pass.startsAt then (collected, .ok ())
    else match receiveAll question pass.receptions collected with
      | (collected, .error error) => (collected, .error error)
      | (collected, .ok ()) =>
        if collected.settleDeadline.any (· ≤ pass.endsAt) then (collected, .ok ())
        else listenLoop question deadline rest collected

/-- What `query_raw` finds outside, and what arrives. -/
structure MdnsWorld where
  enabled : Bool
  interfaces : MResult (List MdnsInterface)
  sockets : List MdnsInterface → MResult (List MdnsInterface)
  sent : MResult Unit
  cachedAt : Nat
  startedAt : Nat
  passes : List Pass

def requestedInterface : Option Int → MResult (Option UInt32)
  | none => .ok none
  | some index =>
    if index ≤ 0 then .error (.invalidQuery "mDNS interface index must be positive")
    else .ok (some (UInt32.ofNat index.toNat))

def prepare (world : MdnsWorld) (query : Bytes) (requestedIfindex : Option Int)
    (cache : MdnsCache) : MResult (Option Bytes ⊕ MdnsQuestion) × MdnsCache :=
  if ¬world.enabled then (.ok (.inl none), cache)
  else match parseQuestion query with
    | .error error => (.error error, cache)
    | .ok question =>
      if ¬shouldHandleName question.text then (.ok (.inl none), cache)
      else if question.cls &&& dnsClassMask ≠ 1 then (.ok (.inl none), cache)
      else match requestedInterface requestedIfindex, world.interfaces with
        | .error error, _ => (.error error, cache)
        | .ok _, .error error => (.error error, cache)
        | .ok requested, .ok interfaces =>
          let interfaces := interfaces.filter fun interface =>
            requested.all (interface.ifindex = ·)
          if interfaces = [] then (.ok (.inl none), cache)
          else match cachedRecords question interfaces world.cachedAt cache with
            | .error error => (.error error, cache)
            | .ok (cached, cache) =>
              if cached ≠ [] then
                ((buildStubResponse question cached []).map fun response =>
                  .inl (some response), cache)
              else (do
                let sockets ← world.sockets interfaces
                if sockets = [] then return .inl none
                else do
                  world.sent
                  return .inr question, cache)

def queryRaw (world : MdnsWorld) (query : Bytes) (requestedIfindex : Option Int) (timeout : Nat)
    (cache : MdnsCache) : MResult (Option Bytes) × MdnsCache :=
  match prepare world query requestedIfindex cache with
  | (.error error, cache) => (.error error, cache)
  | (.ok (.inl response), cache) => (.ok response, cache)
  | (.ok (.inr question), cache) =>
    let deadline := world.startedAt + max (min timeout 5000) 250
    match listenLoop question deadline world.passes ⟨[], [], none, cache⟩ with
    | (collected, .error error) => (.error error, collected.cache)
    | (collected, .ok ()) =>
      if collected.answers = [] then (.ok none, collected.cache)
      else ((buildStubResponse question collected.answers collected.additionals).map some, collected.cache)

end Resolved.Mdns
