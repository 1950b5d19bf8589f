import Resolved.Exchange.Upstream

/-!
# What an exchange promises

Strict modes, the cost of a query, the servers of a link and the features of a server.
-/

/-! ## What strict modes promise -/

namespace Resolved.Spec
open Lib Wire Edns Exchange Links

def StrictTlsOnly (calls : List Call) : Prop :=
  ∀ call ∈ calls, ∃ packet result, call = .exchangeTls true packet result

def EndsOnTlsFailure (calls : List Call) (result : Except ResolveError Packet) : Prop :=
  ∀ front rear strict packet error, calls = front ++ .exchangeTls strict packet (.error error) :: rear →
    rear = [] ∧ result = .error error

def exchanged : Call → Option (Packet × Packet)
  | .udpPathMtu => none
  | .exchangeUdp packet (.ok (response, _)) => some (packet, response)
  | .exchangeTcp packet (.ok response) => some (packet, response)
  | .exchangeTls _ packet (.ok response) => some (packet, response)
  | .exchangeUdp _ (.error _) | .exchangeTcp _ (.error _) | .exchangeTls _ _ (.error _) => none

def CarriesDo (packet : Packet) : Prop :=
  ∃ sections record, parseSections packet = .ok sections ∧
    record ∈ sections.records.drop (sections.header.answerCount + sections.header.authorityCount) ∧
    record.rrType = typeOpt ∧ record.ttl % 65536 &&& dnssecOkFlag ≠ 0

def AnswersDo (response : Packet) : Prop :=
  ∃ opt, inspectOpt response = .ok (some opt) ∧ opt.version = 0 ∧ opt.dnssecOk = true

/-- If the exchange returns an answer, the last call sent a packet with the DO flag, got the response
the answer was made of, and that response has the DO flag, too. -/
def DnssecOnly (query : Packet) (run : List Call × Ended) : Prop :=
  ∀ answer, run.2.result = .ok answer → ∃ packet response,
    run.1.getLast?.bind exchanged = some (packet, response) ∧
      responseForClient query response = .ok answer ∧ CarriesDo packet ∧ AnswersDo response

def Untagged (query : Packet) : Prop :=
  ∀ layout, scanPacket query = .ok layout → layout.hasTsig = false

def After (start : Nat) (world : Nat → Turn) : Prop := ∀ index, start ≤ (world index).levelNow

def Capable (features : ServerFeatureState) (start : Nat) : Prop :=
  (features.possible = .dnssecOk ∧ features.badOpt = false) ∨ features.retryDue start = true

/-! ## What one query may cost -/

open Routing

def isExchange : Call → Bool
  | .udpPathMtu => false
  | .exchangeUdp .. | .exchangeTcp .. | .exchangeTls .. => true

section
variable (resolver : Resolver) (query : Packet)

def serversTurnCalls (keys : List ServerKey) (io : ServerAttempt) (s : ServersState) : List Call :=
  if s.budget.exhausted ∨ s.budget.expired io.begunNow then []
  else
    match io.chosen.bind (keys[·]?) with
    | none => []
    | some key => (exchangeWithFeatures resolver key query s.budget io.server io.turns).1

def serversRun (attempts : Nat) (keys : List ServerKey) (io : ServersIo) :
    List Call × Option (Except ResolveError Answer) × ServersState :=
  runTurns (fun index s => (serversTurnCalls resolver query keys (io.attempt index) s,
      serversTurn resolver query keys (io.attempt index) s))
    (fun s => (none, s)) attempts 0 ⟨.new io.startedNow, [], none, none⟩

def serversResult (io : ServersIo) :
    Option (Except ResolveError Answer) × ServersState → Except ResolveError Answer
  | (some result, _) => result
  | (none, s) => concludeServers io.concludedNow s

def keysOf (scope : ScopeKind) (servers : List SocketAddr) : List ServerKey :=
  serverKeysForSpecs scope (resolver.serverSpecsForScope scope servers)

structure BoundedCost (attempts : Nat) (scope : ScopeKind) (servers : List SocketAddr)
    (io : ServersIo) : Prop where
  result : queryServers resolver query attempts scope servers io =
    if resolver.serverSpecsForScope scope servers = [] then .error .noNameServers
    else serversResult io (serversRun resolver query attempts (keysOf resolver scope servers) io).2
  ends : ∀ (key : ServerKey) (budget : DnsAttemptBudget) (server : ServerState) (world : Nat → Turn)
    (stuck : LoopState → Ended) (more : Nat),
    runTurns (fun index => exchangeTurn (setupOf resolver key query) (world index)) stuck
      (dnsTransactionAttemptsMax - budget.attempts + 1 + more) 0 ⟨.start, budget, server⟩ =
      exchangeWithFeatures resolver key query budget server world
  begun :
    (serversRun resolver query attempts (keysOf resolver scope servers) io).2.2.budget.attempts ≤ 24
  exchanges :
    (serversRun resolver query attempts (keysOf resolver scope servers) io).1.countP isExchange ≤ 48

end

/-! ## The servers of a link -/

def normalizedSpec (ifindex : Int) (spec : DnsServerSpec) : DnsServerSpec :=
  { spec with address := normalizeServer ifindex spec.address }

structure KeepsSpecs (resolver : Resolver) (ifindex : Int) (given : List DnsServerSpec) : Prop where
  nodup : (resolver.linkDnsSpecs ifindex).Nodup
  same : ∀ spec, spec ∈ resolver.linkDnsSpecs ifindex ↔ spec ∈ given
  keys : (serverKeysForSpecs (.link ifindex) (resolver.linkDnsSpecs ifindex)).Nodup
  lookup : (serverKeysForSpecs (.link ifindex) (resolver.linkDnsSpecs ifindex)).map
    resolver.serverSpecForKey = resolver.linkDnsSpecs ifindex

def EndpointsAgree (given : List DnsServerSpec) : Prop :=
  ∀ spec ∈ given, ∀ other ∈ given, spec.address.ip = other.address.ip →
    spec.address.port = other.address.port → { other with address := spec.address } ∈ given

/-!
## Calls on the feature state of a server

What a sequence of calls on a new state should leave behind: a server below the level that was asked
for is tried again, and no level counts as verified that is not possible.
-/

inductive FeatureCall where
  | possibleLevel (best : FeatureLevel) (now : Nat)
  | recordSuccess (level : FeatureLevel)
  | recordFailure (level : FeatureLevel) (now : Nat)
  | recordBadOpt (level : FeatureLevel) (now : Nat)
  | recordDoOff (level : FeatureLevel) (now : Nat)
  | downgradeTo (level : FeatureLevel) (now : Nat)

def runFeatureCall (s : ServerFeatureState) : FeatureCall → ServerFeatureState
  | .possibleLevel best now => s.possibleLevel best now
  | .recordSuccess level => s.recordSuccess level
  | .recordFailure level now => (s.recordFailure level now).1
  | .recordBadOpt level now => s.recordBadOpt level now
  | .recordDoOff level now => s.recordDoOff level now
  | .downgradeTo level now => s.downgradeTo level now

def runFeatureCalls (calls : List FeatureCall) : ServerFeatureState :=
  calls.foldl runFeatureCall .default

def Recovers (s : ServerFeatureState) (best : FeatureLevel) : Prop :=
  s.possible < best → ∃ retryAfter, s.retryAfter = some retryAfter ∧
    ∀ now, retryAfter ≤ now → (s.possibleLevel best now).possible = best

def FeaturesSound (calls : List FeatureCall) : Prop :=
  (∀ front, front <+: calls → (runFeatureCalls front).verified ≤ (runFeatureCalls front).possible) ∧
  ∀ front best now, front ++ [.possibleLevel best now] <+: calls →
    Recovers (runFeatureCalls (front ++ [.possibleLevel best now])) best

/-- The calls that do no harm in a state: the best level is not below a verified one, and is reached
or has a retry scheduled; a success is not for a level that was given up. -/
def Harmless (s : ServerFeatureState) : FeatureCall → Prop
  | .possibleLevel best _ => s.verified ≤ best ∧ (best ≤ s.possible ∨ s.retryAfter.isSome)
  | .recordSuccess level => level ≤ s.possible
  | _ => True

def bestsOf (calls : List FeatureCall) : List FeatureLevel :=
  calls.filterMap fun call =>
    match call with
    | .possibleLevel best _ => some best
    | _ => none

end Resolved.Spec
