import Resolved.Hyper.Race

/-!
# The call that leads

`resolve_lead` asks for the name of the key, follows CNAME records with further questions, and
stores the last response under the key and under the last name.
-/

namespace Resolved.Hyper
open Lib Wire

structure HyperConfig where
  dnssec : DnssecMode
  k : Nat
  overall : Nat
  negativeMax : Nat
  positiveMax : Nat
  staleWindow : Nat
deriving Repr

def u16At (msg : Bytes) (off : Nat) : Nat := be16 (msg.getD off 0) (msg.getD (off + 1) 0)

def u32At (msg : Bytes) (off : Nat) : Nat :=
  be32 (msg.getD off 0) (msg.getD (off + 1) 0) (msg.getD (off + 2) 0) (msg.getD (off + 3) 0)

def skipQuestions (msg : Bytes) : Nat → Nat → HResult Nat
  | 0, off => .ok off
  | count + 1, off => do
    let (_, next) ← decompressName msg off
    skipQuestions msg count (next + 4)

def findCname (msg : Bytes) (owner : NameKey) : Nat → Nat → HResult (Option NameKey)
  | 0, _ => .ok none
  | count + 1, off => do
    let (name, off) ← decompressName msg off
    if off + 10 > msg.length then .error (.wire "rr")
    else
      let rdlen := u16At msg (off + 8)
      if off + 10 + rdlen > msg.length then .error (.wire "rdata")
      else if u16At msg off = typeCname ∧ name = owner then do
        let (target, _) ← decompressName msg (off + 10)
        return some target
      else findCname msg owner count (off + 10 + rdlen)

def extractCnameTarget (msg : Bytes) (owner : NameKey) : HResult (Option NameKey) :=
  if msg.length < dnsHeaderLen then .ok none
  else do
    let off ← skipQuestions msg (u16At msg 4) dnsHeaderLen
    findCname msg owner (u16At msg 6) off

/-- `skip_name` of `extract_min_ttl`; the first number is how many turns are left. -/
def skipNameHops (msg : Bytes) : Nat → Nat → Option Nat
  | 0, _ => none
  | hops + 1, off =>
    match msg[off]? with
    | none => none
    | some length =>
      if length = 0 then some (off + 1)
      else if length &&& 0xc0 = 0xc0 then some (off + 2)
      else if length &&& 0xc0 ≠ 0 then none
      else skipNameHops msg hops (off + 1 + length.toNat)

def skipQuestionNames (msg : Bytes) : Nat → Nat → Option Nat
  | 0, off => some off
  | count + 1, off => do
    let next ← skipNameHops msg 129 off
    skipQuestionNames msg count (next + 4)

def minTtlLoop (msg : Bytes) : Nat → Nat → Nat → Option Nat
  | 0, _, minTtl => some minTtl
  | count + 1, off, minTtl => do
    let off ← skipNameHops msg 129 off
    if off + 10 > msg.length then some minTtl
    else minTtlLoop msg count (off + 10 + u16At msg (off + 8)) (min minTtl (u32At msg (off + 4)))

def extractMinTtl (msg : Bytes) : Option Nat :=
  if msg.length < dnsHeaderLen then none
  else do
    let off ← skipQuestionNames msg (u16At msg 4) dnsHeaderLen
    let minTtl ← minTtlLoop msg (u16At msg 6 + u16At msg 8) off (2 ^ 32 - 1)
    if minTtl = 2 ^ 32 - 1 then none else some minTtl

def isResponse (raw : Bytes) (_ : Upstream) : HResult Unit :=
  if raw.length < dnsHeaderLen then .error (.wire "short")
  else if raw.getD 2 0 &&& 0x80 = 0 then .error (.wire "not response")
  else .ok ()

/-- What the world outside does in one turn of `resolve_lead`. -/
structure Round where
  upstreams : List Upstream
  scores : List UpstreamScore
  templateId : UInt16
  ids : Nat → UInt16
  exchange : Nat → Upstream → Bytes → HResult Bytes
  arrivals : List Nat
  timedOut : Bool
  dnssec : NameKey → UInt16 → PacketView → HResult DnssecState
  now : Nat

structure Won where
  up : Upstream
  sent : Bytes
  packet : PacketView
deriving DecidableEq

def taskItem (round : Round) (template : Bytes) (task : Nat) (up : Upstream) : HResult Won := do
  let sent := withId template (round.ids task)
  let raw ← round.exchange task up sent
  let packet ← attemptItem isResponse up (round.ids task) raw
  return ⟨up, sent, packet⟩

def collect (overall : Nat) (timedOut : Bool) : HyperError → List (HResult Won) → HResult Won
  | lastErr, [] => .error (if timedOut then .timeout overall else lastErr)
  | lastErr, item :: rest =>
    match onItem lastErr item with
    | .inl result => result
    | .inr lastErr => collect overall timedOut lastErr rest

def race (cfg : HyperConfig) (round : Round) (template : Bytes) : HResult Won :=
  let ups := ranked cfg.k round.upstreams round.scores
  if ups = [] then .error .allUpstreamsFailed
  else collect cfg.overall round.timedOut .allUpstreamsFailed
    (round.arrivals.filterMap fun task => (ups[task]?).map (taskItem round template task))

def copyFrom (raw : Bytes) : HResult Bytes :=
  if raw.length > 2 * 1024 * 1024 then .error .arenaExhausted else .ok raw

def keptFor (cfg : HyperConfig) (packet : PacketView) : Nat :=
  let ttl := (extractMinTtl packet.raw).getD 60 * 1000
  max (min ttl (if packet.rcode = rcodeNxdomain then cfg.negativeMax else cfg.positiveMax)) 1000

def rrMeta (cfg : HyperConfig) (now : Nat) (packet : PacketView) (state : DnssecState) : RrMeta :=
  let ttl := keptFor cfg packet
  { rcode := packet.rcode
    dnssec := state
    answer := packet.raw
    expires := now + ttl
    staleUntil := now + ttl + cfg.staleWindow
    minTtl := ttl / 1000
    fromLink := 0 }

def leadTurn (cfg : HyperConfig) (key : CacheKey) (round : Round) (current : NameKey) :
    HResult (Won × (NameKey ⊕ RrMeta)) := do
  let won ← race cfg round (query round.templateId current key.qtype key.qclass)
  let raw ← copyFrom won.packet.raw
  let packet ← PacketView.new raw
  let state ← round.dnssec current key.qtype packet
  let target ← if key.qtype.toNat ≠ typeCname ∧ packet.rcode = rcodeNoerror then
      extractCnameTarget packet.raw current
    else .ok none
  match target with
  | some target => return (won, .inl target)
  | none => return (won, .inr (rrMeta cfg round.now packet state))

structure LeadRun where
  result : HResult RrMeta
  accepted : List Won
  puts : List (CacheKey × RrMeta)

/-- The loop of `resolve_lead`. The first number is how many questions are left to ask. -/
def leadLoop (cfg : HyperConfig) (key : CacheKey) (rounds : Nat → Round) :
    Nat → NameKey → List NameKey → LeadRun
  | 0, _, _ => ⟨.error .cnameDepth, [], []⟩
  | left + 1, current, chain =>
    if current ∈ chain then ⟨.error .cnameLoop, [], []⟩
    else match leadTurn cfg key (rounds (dnsMaxCnameDepth - left)) current with
      | .error error => ⟨.error error, [], []⟩
      | .ok (won, .inl target) =>
        let rest := leadLoop cfg key rounds left target (chain ++ [current])
        { rest with accepted := won :: rest.accepted }
      | .ok (won, .inr found) =>
        ⟨.ok found, [won], (key, found) ::
          if current ≠ key.name then [({ key with name := current }, found)] else []⟩

def resolveLead (cfg : HyperConfig) (key : CacheKey) (rounds : Nat → Round) : LeadRun :=
  leadLoop cfg key rounds (dnsMaxCnameDepth + 1) key.name []

end Resolved.Hyper
