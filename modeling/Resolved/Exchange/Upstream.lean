import Resolved.Exchange.Features

/-!
# The servers of the selected scopes

`query_servers` asks the servers of one scope in turn, `query_scopes` all scopes at once. Which
server is taken next, how the exchanges go and in which order the scopes answer is given.
-/

namespace Resolved.Exchange
open Lib Wire Routing Links

def rcodeRefused : Nat := 5
def dnsQueryTimeout : Nat := 120 * Edns.nanosPerSecond

namespace DnsAttemptBudget

def new (now : Nat) : DnsAttemptBudget := ⟨0, now + dnsQueryTimeout⟩

def exhausted (budget : DnsAttemptBudget) : Bool := budget.attempts ≥ dnsTransactionAttemptsMax

def expired (budget : DnsAttemptBudget) (now : Nat) : Bool := now ≥ budget.deadline

end DnsAttemptBudget

def serverKeysFrom (scope : ScopeKind) : List SocketAddr → List DnsServerSpec → List ServerKey
  | _, [] => []
  | seen, spec :: rest =>
    .withSlot scope spec.address (seen.count spec.address) ::
      serverKeysFrom scope (spec.address :: seen) rest

def serverKeysForSpecs (scope : ScopeKind) (specs : List DnsServerSpec) : List ServerKey :=
  serverKeysFrom scope [] specs

structure ServerAttempt where
  begunNow : Nat
  chosen : Option Nat
  server : ServerState
  turns : Nat → Turn
  endedNow : Nat

structure ServersIo where
  startedNow : Nat
  attempt : Nat → ServerAttempt
  concludedNow : Nat

abbrev Answer := Packet × SocketAddr

structure ServersState where
  budget : DnsAttemptBudget
  attempted : List ServerKey
  lastResponse : Option Answer
  lastError : Option ResolveError

def concludeServers (now : Nat) (s : ServersState) : Except ResolveError Answer :=
  match s.lastResponse with
  | some response => .ok response
  | none =>
    if s.budget.expired now then .error (.io .timedOut)
    else if s.budget.exhausted then .error (.protocol "maximum DNS transaction attempts reached")
    else .error (s.lastError.getD .noNameServers)

section
variable (resolver : Resolver) (query : Packet)

def serversTurn (keys : List ServerKey) (io : ServerAttempt) (s : ServersState) :
    Verdict ServersState (Option (Except ResolveError Answer) × ServersState) :=
  if s.budget.exhausted ∨ s.budget.expired io.begunNow then .done (none, s)
  else
    let attempted := if s.attempted.length = keys.length then [] else s.attempted
    match io.chosen.bind (keys[·]?) with
    | none => .done (none, { s with attempted := attempted })
    | some key =>
      let attempted := attempted.insert key
      let ended := (exchangeWithFeatures resolver key query s.budget io.server io.turns).2
      let s := { s with budget := ended.budget, attempted := attempted }
      match ended.result with
      | .ok response =>
        match Header.parse response with
        | .error error => .done (some (.error (.wire error)), s)
        | .ok header =>
          if header.responseCode = rcodeRefused then
            let s := { s with lastResponse := some (response, key.server) }
            if attempted.length = keys.length then .done (none, s) else .again s
          else .done (some (.ok (response, key.server)), s)
      | .error error =>
        let s := { s with lastError := some error }
        if s.budget.exhausted ∨ s.budget.expired io.endedNow then .done (none, s) else .again s

def queryServers (attempts : Nat) (scope : ScopeKind) (servers : List SocketAddr) (io : ServersIo) :
    Except ResolveError Answer :=
  let specs := resolver.serverSpecsForScope scope servers
  if specs.isEmpty then .error .noNameServers
  else
    let keys := serverKeysForSpecs scope specs
    let turn : Nat → ServersState → List Unit × Verdict ServersState _ :=
      fun index s => ([], serversTurn resolver query keys (io.attempt index) s)
    match (runTurns turn (fun s => (none, s)) attempts 0
        ⟨.new io.startedNow, [], none, none⟩).2 with
    | (some result, _) => result
    | (none, s) => concludeServers io.concludedNow s

def responseIsSuccess (response : Packet) : Bool :=
  match Header.parse response with
  | .ok header => header.responseCode = 0
  | .error _ => false

structure ScopesState where
  firstSuccess : Option Answer
  lastResponse : Option Answer
  lastError : Option ResolveError

def collectResult (s : ScopesState) : Except ResolveError Answer → ScopesState
  | .ok answer =>
    if responseIsSuccess answer.1 then
      if s.firstSuccess.isNone then { s with firstSuccess := some answer } else s
    else { s with lastResponse := some answer }
  | .error error => { s with lastError := some error }

def collectResults (results : List (Except ResolveError Answer)) : Except ResolveError Answer :=
  let s := results.foldl collectResult ⟨none, none, none⟩
  match s.firstSuccess.or s.lastResponse with
  | some answer => .ok answer
  | none => .error (s.lastError.getD .noNameServers)

structure ScopesIo where
  scope : Nat → ServersIo
  arrival : WalkOrder Nat

def queryScopes (attempts : Nat) (scopes : List RouteScope) (io : ScopesIo) :
    Except ResolveError Answer :=
  let ask index (scope : RouteScope) :=
    queryServers resolver query attempts scope.kind scope.servers (io.scope index)
  match scopes with
  | [scope] => ask 0 scope
  | _ =>
    collectResults ((io.arrival.arrange (List.range scopes.length)).filterMap fun index =>
      scopes[index]?.map (ask index))

end

end Resolved.Exchange
