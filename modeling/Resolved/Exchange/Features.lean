import Resolved.Lib.TurnLoop
import Resolved.Exchange.Transport

/-!
# The exchange with a server

`exchange_with_features` sends a query at the level the server is believed to support and goes down
or up with what comes back.
-/

namespace Resolved.Exchange
open Lib Wire Edns Routing Links

def rcodeFormerr : Nat := 1
def rcodeServfail : Nat := 2
def rcodeNotimp : Nat := 4
def rcodeBadvers : Nat := 16
def ednsOptionExtendedError : Nat := 15
def edeNotReady : Nat := 14
def maxFeatureRetries : Nat := 2
def maxTransportRetries : Nat := 2

def preferredFeatureLevel (dnssecMode : ValidationMode) : FeatureLevel :=
  if dnssecMode = .no then .edns0 else .dnssecOk

def extendedErrorCode (opt : OptRecord) : Except WireError (Option Nat) :=
  match opt.options.find? fun option => option.code = ednsOptionExtendedError with
  | none => .ok none
  | some option => do
    let bytes ← okOr .invalidRecord (slice option.data 0 2)
    return some (← readU16 bytes 0)

def udpRequiresTcpRetry (truncated : Bool) (fragmentSize : Nat) (level : FeatureLevel) : Bool :=
  truncated || (fragmentSize ≠ 0 && level > .udp)

def rcodeRequestsFeatureDowngrade (rcode : Nat) : Bool :=
  rcode = rcodeFormerr ∨ rcode = rcodeServfail ∨ rcode = rcodeNotimp

structure Setup where
  address : SocketAddr
  dnssecMode : ValidationMode
  tlsMode : TlsMode
  query : Packet

namespace Setup

def strictTls (setup : Setup) : Bool := setup.tlsMode = .yes

def strictDnssec (setup : Setup) : Bool := setup.dnssecMode = .yes

end Setup

structure Turn where
  tlsNow : Nat
  pathMtu : Option Nat
  levelNow : Nat
  attemptNow : Nat
  tls : StreamIo
  udp : UdpIo
  fallbackNow : Nat
  tcp : StreamIo
  recordNow : Nat

structure Retry where
  forcedLevel : Option FeatureLevel
  rcodeProbe : Bool
  servfailRetried : Bool
  featureRetries : Nat
  transportRetries : Nat
deriving DecidableEq, Repr

def Retry.start : Retry := ⟨none, false, false, 0, 0⟩

structure LoopState where
  retry : Retry
  budget : DnsAttemptBudget
  server : ServerState

inductive Call where
  | udpPathMtu
  | exchangeUdp (packet : Packet) (result : Except ResolveError (Packet × Nat))
  | exchangeTcp (packet : Packet) (result : Except ResolveError Packet)
  | exchangeTls (strict : Bool) (packet : Packet) (result : Except ResolveError Packet)

structure Ended where
  result : Except ResolveError Packet
  budget : DnsAttemptBudget
  server : ServerState

abbrev TurnVerdict := Verdict LoopState Ended

structure Received where
  response : Packet
  transport : TransportMode
  viaTls : Bool
  server : ServerState

abbrev Stage (α : Type) := Except TurnVerdict α

def goOn {α : Type} (retry : Retry) (budget : DnsAttemptBudget) (server : ServerState) : Stage α :=
  .error (.again ⟨retry, budget, server⟩)

def finish {α : Type} (result : Except ResolveError Packet) (budget : DnsAttemptBudget)
    (server : ServerState) : Stage α :=
  .error (.done ⟨result, budget, server⟩)

def orFinish {α : Type} (budget : DnsAttemptBudget) (server : ServerState) :
    Except WireError α → Stage α
  | .ok value => .ok value
  | .error error => finish (.error (.wire error)) budget server

def stageIf (condition : Prop) [Decidable condition] (stage : Stage Unit) : Stage Unit :=
  if condition then stage else .ok ()

def receiveTls (setup : Setup) (io : Turn) (packet : Packet) (s : LoopState) :
    List Call × Stage Received :=
  let result := exchangeTls packet io.tls
  ([.exchangeTls setup.strictTls packet result],
    match result with
    | .ok response => .ok ⟨response, .tcp, true, s.server.recordTlsSuccess⟩
    | .error error =>
      match error with
      | .io _ =>
        let server := s.server.recordTlsFailure setup.strictTls io.recordNow
        if !setup.strictTls then goOn s.retry s.budget server
        else finish (.error error) s.budget server
      | _ => finish (.error error) s.budget s.server)

def retryOverTcp (setup : Setup) (io : Turn) (level : FeatureLevel) (packet : Packet)
    (s : LoopState) : List Call × Stage Received :=
  match s.budget.remaining io.fallbackNow with
  | .error error => ([], finish (.error error) s.budget s.server)
  | .ok _ =>
    let result := exchangeTcp packet io.tcp
    ([.exchangeTcp packet result],
      match result with
      | .ok response => .ok ⟨response, .tcp, false, s.server.recordTransportSuccess .tcp⟩
      | .error error =>
        let (server, _, failures) := s.server.recordTransportFailure .tcp
        if failures ≥ transportRetryAttempts ∧ level > .udp ∧ !setup.strictDnssec ∧
            s.retry.featureRetries < maxFeatureRetries then
          goOn { s.retry with
            featureRetries := s.retry.featureRetries + 1
            forcedLevel := some level.lower } s.budget
            (server.downgradeFeature level.lower io.recordNow)
        else finish (.error error) s.budget server)

def udpFailed (setup : Setup) (io : Turn) (level : FeatureLevel) (managedOpt : Bool)
    (error : ResolveError) (s : LoopState) : Stage Received :=
  let (features, lower) :=
    if managedOpt ∧ !setup.strictDnssec then s.server.features.recordFailure level io.recordNow
    else (s.server.features, none)
  let server := { s.server with features := features }
  match lower.filter fun _ => s.retry.featureRetries < maxFeatureRetries with
  | some lower =>
    goOn { s.retry with
      featureRetries := s.retry.featureRetries + 1
      forcedLevel := some lower } s.budget server.clearTransportFailures
  | none =>
    if level = .udp then
      let (server, switched, _) := server.recordTransportFailure .udp
      if switched = some .tcp ∧ s.retry.transportRetries < maxTransportRetries then
        goOn { s.retry with transportRetries := s.retry.transportRetries + 1 } s.budget server
      else finish (.error error) s.budget server
    else finish (.error error) s.budget server

def receiveUdp (setup : Setup) (io : Turn) (level : FeatureLevel) (outbound : PreparedQuery)
    (s : LoopState) : List Call × Stage Received :=
  let result := exchangeUdp outbound.packet io.udp
  let call := Call.exchangeUdp outbound.packet result
  match result with
  | .error error => ([call], udpFailed setup io level outbound.managedOpt error s)
  | .ok (response, fragmentSize) =>
    let server := s.server.recordUdpPacket setup.address response.length fragmentSize
    match Header.parse response with
    | .error error => ([call], finish (.error (.wire error)) s.budget server)
    | .ok header =>
      if udpRequiresTcpRetry header.truncated fragmentSize level then
        let server := server.recordTransportSuccess .udp
        let server := if header.truncated then server.recordTransportTruncated else server
        let (calls, received) := retryOverTcp setup io level outbound.packet
          { s with server := server }
        (call :: calls, received)
      else ([call], .ok ⟨response, .udp, false, server.recordTransportSuccess .udp⟩)

def receiveTcp (io : Turn) (packet : Packet) (s : LoopState) : List Call × Stage Received :=
  let result := exchangeTcp packet io.tcp
  ([.exchangeTcp packet result],
    match result with
    | .ok response => .ok ⟨response, .tcp, false, s.server.recordTransportSuccess .tcp⟩
    | .error error =>
      let (server, switched, _) := s.server.recordTransportFailure .tcp
      if switched = some .udp ∧ s.retry.transportRetries < maxTransportRetries then
        goOn { s.retry with transportRetries := s.retry.transportRetries + 1 } s.budget server
      else finish (.error error) s.budget server)

def retryLower {α : Type} (setup : Setup) (retry : Retry) (budget : DnsAttemptBudget)
    (lower : FeatureLevel) (response : Packet) (server : ServerState) : Stage α :=
  if retry.featureRetries < maxFeatureRetries then
    goOn { retry with
      featureRetries := retry.featureRetries + 1
      forcedLevel := some lower } budget server
  else finish (wireResult (responseForClient setup.query response)) budget server

def checkOpt (setup : Setup) (io : Turn) (level : FeatureLevel) (response : Packet)
    (opt : Option OptRecord) (rcode : Nat) (s : LoopState) : Stage Unit :=
  match opt with
  | none =>
    if setup.strictDnssec then
      finish (.error (.protocol "DNS server omitted a required EDNS response")) s.budget s.server
    else
      let server := s.server.recordBadOpt level io.recordNow
      if rcode = 0 ∨ !rcodeRequestsFeatureDowngrade rcode then
        finish (wireResult (responseForClient setup.query response)) s.budget server
      else retryLower setup s.retry s.budget server.features.possible response server
  | some opt =>
    if opt.version ≠ 0 ∨ rcode = rcodeBadvers then
      if setup.strictDnssec then
        finish (.error (.protocol "DNS server does not support the required EDNS version")) s.budget
          s.server
      else
        let server := s.server.recordBadOpt level io.recordNow
        retryLower setup s.retry s.budget server.features.possible response server
    else if level.isDnssecOk ∧ !opt.dnssecOk then
      if setup.strictDnssec then
        finish (.error (.protocol "DNS server did not echo the EDNS DO flag")) s.budget s.server
      else
        let server := s.server.recordDoOff level io.recordNow
        retryLower setup s.retry s.budget server.features.possible response server
    else .ok ()

def checkRootRrsig (setup : Setup) (io : Turn) (response : Packet) (s : LoopState) : Stage Unit := do
  if ← orFinish s.budget s.server (rootRrsigMissing response) then
    let server := s.server.recordMissingRootRrsig (!setup.strictDnssec) io.recordNow
    if setup.strictDnssec then
      finish (.error (.protocol "DNS server omitted required root RRSIG records")) s.budget server
    else if s.retry.featureRetries < maxFeatureRetries then
      goOn { s.retry with
        featureRetries := s.retry.featureRetries + 1
        forcedLevel := some .edns0 } s.budget server
    else
      finish (.error (.protocol "DNS server repeatedly omitted required root RRSIG records")) s.budget
        server
  else return ()

def checkServfail (setup : Setup) (level : FeatureLevel) (response : Packet) (opt : Option OptRecord)
    (s : LoopState) : Stage Unit := do
  let ede ← orFinish s.budget s.server (match opt with
    | none => .ok none
    | some opt => extendedErrorCode opt)
  match ede with
  | some ede =>
    if ede = edeNotReady then goOn { s.retry with forcedLevel := some level } s.budget s.server
    else finish (wireResult (responseForClient setup.query response)) s.budget s.server
  | none =>
    if level > .udp ∧ !setup.strictDnssec ∧ !s.retry.servfailRetried then
      goOn { s.retry with servfailRetried := true, forcedLevel := some level } s.budget s.server
    else return ()

def recordVerified (io : Turn) (level : FeatureLevel) (rcodeProbe : Bool) (rcode : Nat)
    (received : Received) : ServerState :=
  let server := received.server
  let server :=
    if rcodeProbe ∧ !rcodeRequestsFeatureDowngrade rcode then
      server.downgradeFeature level io.recordNow
    else server
  let verifiedLevel := if received.transport = .udp ∨ received.viaTls then level else .udp
  { server with features := server.features.recordSuccess verifiedLevel }

def judge (setup : Setup) (io : Turn) (level : FeatureLevel) (outbound : PreparedQuery)
    (retry : Retry) (budget : DnsAttemptBudget) (received : Received) : Stage Empty := do
  let s : LoopState := ⟨retry, budget, received.server⟩
  let response := received.response
  let opt ← orFinish budget s.server.recordInvalidPacket (inspectOpt response)
  let rcode ← orFinish budget s.server.recordInvalidPacket (fullRcode response opt)
  stageIf (outbound.managedOpt ∧ outbound.sentEdns) (checkOpt setup io level response opt rcode s)
  stageIf (outbound.managedOpt ∧ level.isDnssecOk) (checkRootRrsig setup io response s)
  stageIf (rcode = rcodeServfail) (checkServfail setup level response opt s)
  stageIf (rcodeRequestsFeatureDowngrade rcode ∧ level > .udp ∧ !setup.strictDnssec ∧
      retry.featureRetries < maxFeatureRetries)
    (goOn { retry with
      featureRetries := retry.featureRetries + 1
      forcedLevel := some level.lower
      rcodeProbe := true } budget received.server)
  let server := if outbound.managedOpt then recordVerified io level retry.rcodeProbe rcode received
    else received.server
  finish (wireResult (responseForClient setup.query response)) budget server

def verdictOf : Stage Empty → TurnVerdict
  | .error verdict => verdict

def currentLevel (setup : Setup) (io : Turn) (retry : Retry) (server : ServerState) :
    FeatureLevel × ServerState :=
  match retry.forcedLevel with
  | some level => (level, server)
  | none =>
    let best := if server.missingRootRrsig ∧ !setup.strictDnssec then .edns0
      else preferredFeatureLevel setup.dnssecMode
    let features := server.features.possibleLevel best io.levelNow
    (features.possible, { server with features := features })

def useTls (setup : Setup) (io : Turn) (server : ServerState) : Bool × ServerState :=
  if setup.tlsMode = .no then (false, server)
  else
    let (possible, tls) := server.tls.isPossible setup.strictTls io.tlsNow
    (possible, { server with tls := tls })

def receive (setup : Setup) (io : Turn) (tls : Bool) (level : FeatureLevel)
    (outbound : PreparedQuery) (s : LoopState) : List Call × Stage Received :=
  if tls then receiveTls setup io outbound.packet s
  else
    match s.server.transport.mode with
    | .udp => receiveUdp setup io level outbound s
    | .tcp => receiveTcp io outbound.packet s

def exchangeTurn (setup : Setup) (io : Turn) (s : LoopState) : List Call × TurnVerdict :=
  let (tls, server) := useTls setup io s.server
  let pathMtu := if tls then none else io.pathMtu
  let calls := if tls then [] else [Call.udpPathMtu]
  let (level, server) := currentLevel setup io s.retry server
  let payloadSize := dnsUdpPayloadSize pathMtu setup.address.isIpv6 setup.address.ip.isLoopback
    server.transport.packetFragmented server.transport.receivedUdpFragmentMax
  match prepareQuery setup.query level payloadSize with
  | .error error => (calls, .done ⟨.error (.wire error), s.budget, server⟩)
  | .ok outbound =>
    match s.budget.beginAttempt io.attemptNow with
    | .error error => (calls, .done ⟨.error error, s.budget, server⟩)
    | .ok (budget, _) =>
      let (made, received) := receive setup io tls level outbound ⟨s.retry, budget, server⟩
      (calls ++ made, verdictOf (received >>= judge setup io level outbound s.retry budget))

def setupOf (resolver : Resolver) (key : ServerKey) (query : Packet) : Setup where
  address := key.server
  dnssecMode := resolver.serverDnssecMode key
  tlsMode := resolver.serverDnsOverTlsMode key
  query := query

/-- Every turn counts as an attempt, so there are no more turns than attempts left, and the one in
which they are found to be used up. -/
def exchangeWithFeatures (resolver : Resolver) (key : ServerKey) (query : Packet)
    (budget : DnsAttemptBudget) (server : ServerState) (world : Nat → Turn) : List Call × Ended :=
  runTurns (fun index => exchangeTurn (setupOf resolver key query) (world index))
    (fun s => ⟨.error (.protocol "maximum DNS transaction attempts reached"), s.budget, s.server⟩)
    (dnsTransactionAttemptsMax - budget.attempts + 1) 0 ⟨.start, budget, server⟩

end Resolved.Exchange
