import Resolved.Proof.Exchange.Turn

/-!
# The cost of a query
-/

namespace Resolved.Proof.Exchange
open Lib Resolved.Wire Resolved.Edns Resolved.Routing Resolved.Links Resolved.Exchange Spec

def budgetAfter : TurnVerdict → DnsAttemptBudget
  | .again s => s.budget
  | .done ended => ended.budget

def KeepsBudget {α : Type} (budget : DnsAttemptBudget) (stage : Stage α) : Prop :=
  FailsWith (budgetAfter · = budget) stage

section
variable {α : Type} {budget : DnsAttemptBudget}

theorem keepsBudget_finish (result : Except ResolveError Packet) (server : ServerState) :
    KeepsBudget budget (finish result budget server : Stage α) := by
  intro verdict h
  cases h
  rfl

theorem keepsBudget_goOn (retry : Retry) (server : ServerState) :
    KeepsBudget budget (goOn retry budget server : Stage α) := by
  intro verdict h
  cases h
  rfl

theorem keepsBudget_ok (value : α) : KeepsBudget budget (.ok value : Stage α) := by
  intro verdict h
  cases h

theorem keepsBudget_orFinish (server : ServerState) (result : Except WireError α) :
    KeepsBudget budget (orFinish budget server result) := by
  cases result with
  | ok value => exact keepsBudget_ok value
  | error error => exact keepsBudget_finish _ _

theorem keepsBudget_stageIf {condition : Prop} [Decidable condition] {stage : Stage Unit}
    (keeps : KeepsBudget budget stage) : KeepsBudget budget (stageIf condition stage) := by
  unfold stageIf
  split
  · exact keeps
  · exact keepsBudget_ok ()

end

structure CheapReceive (budget : DnsAttemptBudget) (run : List Call × Stage Received) : Prop where
  calls : run.1.countP isExchange ≤ 2
  keeps : KeepsBudget budget run.2

theorem receiveTls_cheap (setup : Setup) (io : Turn) (packet : Packet) (s : LoopState) :
    CheapReceive s.budget (receiveTls setup io packet s) := by
  constructor
  · simp [receiveTls, isExchange]
  · unfold receiveTls
    simp only
    split
    · exact keepsBudget_ok _
    · split
      · split
        · exact keepsBudget_goOn _ _
        · exact keepsBudget_finish _ _
      · exact keepsBudget_finish _ _

theorem retryOverTcp_cheap (setup : Setup) (io : Turn) (level : FeatureLevel) (packet : Packet) (s : LoopState) :
    (retryOverTcp setup io level packet s).1.countP isExchange ≤ 1 ∧
      KeepsBudget s.budget (retryOverTcp setup io level packet s).2 := by
  unfold retryOverTcp
  split
  · exact ⟨by simp, keepsBudget_finish _ _⟩
  · refine ⟨by simp [isExchange], ?_⟩
    simp only
    split
    · exact keepsBudget_ok _
    · split
      · exact keepsBudget_goOn _ _
      · exact keepsBudget_finish _ _

theorem udpFailed_keeps (setup : Setup) (io : Turn) (level : FeatureLevel) (managedOpt : Bool)
    (error : ResolveError) (s : LoopState) :
    KeepsBudget s.budget (udpFailed setup io level managedOpt error s) := by
  unfold udpFailed
  generalize (if managedOpt = true ∧ (!setup.strictDnssec) = true then
    s.server.features.recordFailure level io.recordNow else (s.server.features, none)) = recorded
  simp only
  split
  · exact keepsBudget_goOn _ _
  · split
    · split
      · exact keepsBudget_goOn _ _
      · exact keepsBudget_finish _ _
    · exact keepsBudget_finish _ _

theorem receiveUdp_cheap (setup : Setup) (io : Turn) (level : FeatureLevel) (outbound : PreparedQuery)
    (s : LoopState) : CheapReceive s.budget (receiveUdp setup io level outbound s) := by
  unfold receiveUdp
  cases exchangeUdp outbound.packet io.udp with
  | error error => exact ⟨by simp [isExchange], udpFailed_keeps setup io level outbound.managedOpt error s⟩
  | ok datagram =>
    simp only
    split
    · exact ⟨by simp [isExchange], keepsBudget_finish _ _⟩
    · split
      · obtain ⟨few, keeps⟩ := retryOverTcp_cheap setup io level outbound.packet { s with server := _ }
        refine ⟨?_, keeps⟩
        rw [List.countP_cons]
        simp only [isExchange, if_true]
        omega
      · exact ⟨by simp [isExchange], keepsBudget_ok _⟩

theorem receiveTcp_cheap (io : Turn) (packet : Packet) (s : LoopState) :
    CheapReceive s.budget (receiveTcp io packet s) := by
  constructor
  · simp [receiveTcp, isExchange]
  · unfold receiveTcp
    simp only
    split
    · exact keepsBudget_ok _
    · split
      · exact keepsBudget_goOn _ _
      · exact keepsBudget_finish _ _

theorem receive_cheap (setup : Setup) (io : Turn) (tls : Bool) (level : FeatureLevel) (outbound : PreparedQuery)
    (s : LoopState) : CheapReceive s.budget (receive setup io tls level outbound s) := by
  unfold receive
  split
  · exact receiveTls_cheap setup io outbound.packet s
  · split
    · exact receiveUdp_cheap setup io level outbound s
    · exact receiveTcp_cheap io outbound.packet s

section
variable {setup : Setup} {io : Turn} {level : FeatureLevel} {response : Packet} {s : LoopState}

theorem retryLower_keeps {α : Type} (retry : Retry) (budget : DnsAttemptBudget) (lower : FeatureLevel)
    (server : ServerState) :
    KeepsBudget budget (retryLower setup retry budget lower response server : Stage α) := by
  unfold retryLower
  split
  · exact keepsBudget_goOn _ _
  · exact keepsBudget_finish _ _

theorem checkOpt_keeps (opt : Option OptRecord) (rcode : Nat) :
    KeepsBudget s.budget (checkOpt setup io level response opt rcode s) := by
  unfold checkOpt
  simp only
  split
  · split
    · exact keepsBudget_finish _ _
    · split
      · exact keepsBudget_finish _ _
      · exact retryLower_keeps _ _ _ _
  · split
    · split
      · exact keepsBudget_finish _ _
      · exact retryLower_keeps _ _ _ _
    · split
      · split
        · exact keepsBudget_finish _ _
        · exact retryLower_keeps _ _ _ _
      · exact keepsBudget_ok _

theorem checkRootRrsig_keeps : KeepsBudget s.budget (checkRootRrsig setup io response s) := by
  unfold checkRootRrsig
  apply (keepsBudget_orFinish _ _).bind
  intro missing _
  split
  · simp only
    split
    · exact keepsBudget_finish _ _
    · split
      · exact keepsBudget_goOn _ _
      · exact keepsBudget_finish _ _
  · exact keepsBudget_ok _

theorem checkServfail_keeps (opt : Option OptRecord) :
    KeepsBudget s.budget (checkServfail setup level response opt s) := by
  unfold checkServfail
  apply (keepsBudget_orFinish _ _).bind
  intro ede _
  split
  · split
    · exact keepsBudget_goOn _ _
    · exact keepsBudget_finish _ _
  · split
    · exact keepsBudget_goOn _ _
    · exact keepsBudget_ok _

theorem judge_keeps (outbound : PreparedQuery) (retry : Retry) (budget : DnsAttemptBudget) (received : Received) :
    KeepsBudget budget (judge setup io level outbound retry budget received) := by
  unfold judge
  apply (keepsBudget_orFinish _ _).bind
  intro opt _
  apply (keepsBudget_orFinish _ _).bind
  intro rcode _
  apply (keepsBudget_stageIf (checkOpt_keeps opt rcode)).bind
  intro _ _
  apply (keepsBudget_stageIf checkRootRrsig_keeps).bind
  intro _ _
  apply (keepsBudget_stageIf (checkServfail_keeps opt)).bind
  intro _ _
  apply (keepsBudget_stageIf (keepsBudget_goOn _ _)).bind
  intro _ _
  exact keepsBudget_finish _ _

end

theorem exchangeTurn_budget (setup : Setup) (io : Turn) (s : LoopState) :
    ((exchangeTurn setup io s).1.countP isExchange = 0 ∧ budgetAfter (exchangeTurn setup io s).2 = s.budget) ∨
    ∃ remaining, s.budget.beginAttempt io.attemptNow = .ok (budgetAfter (exchangeTurn setup io s).2, remaining) ∧
      (exchangeTurn setup io s).1.countP isExchange ≤ 2 := by
  have quiet : ∀ tls : Bool, (if tls then [] else [Call.udpPathMtu]).countP isExchange = 0 := by
    decide
  unfold exchangeTurn
  simp only
  split
  · exact .inl ⟨quiet _, rfl⟩
  · rename_i outbound _
    split
    · exact .inl ⟨quiet _, rfl⟩
    · rename_i budget remaining begun
      have cheap := receive_cheap setup io (useTls setup io s.server).1 (turnLevel setup io s).1 outbound
        ⟨s.retry, budget, (turnLevel setup io s).2⟩
      have kept : budgetAfter (verdictOf ((receive setup io (useTls setup io s.server).1
          (turnLevel setup io s).1 outbound ⟨s.retry, budget, (turnLevel setup io s).2⟩).2 >>=
            judge setup io (turnLevel setup io s).1 outbound s.retry budget)) = budget := by
        rcases verdictOf_bind _ _ with ⟨verdict, stopped, same⟩ | ⟨received, verdict, -, judged, same⟩
        · rw [same]
          exact cheap.keeps verdict stopped
        · rw [same]
          exact judge_keeps outbound s.retry budget received verdict judged
      refine .inr ⟨remaining, ?_, ?_⟩
      · rw [turnLevel] at kept
        rw [kept]
        exact begun
      · rw [List.countP_append, quiet, Nat.zero_add]
        exact cheap.calls

theorem exchangeTurn_pays (setup : Setup) (io : Turn) (s : LoopState) :
    2 * s.budget.attempts + (exchangeTurn setup io s).1.countP isExchange ≤
        2 * (budgetAfter (exchangeTurn setup io s).2).attempts ∧ (s.budget.attempts ≤ dnsTransactionAttemptsMax →
        (budgetAfter (exchangeTurn setup io s).2).attempts ≤ dnsTransactionAttemptsMax) := by
  rcases exchangeTurn_budget setup io s with ⟨none, kept⟩ | ⟨remaining, begun, few⟩
  · rw [none, kept]
    exact ⟨le_rfl, id⟩
  · obtain ⟨left, used⟩ := beginAttempt_eq_ok begun
    omega

section
variable (resolver : Resolver) (key : ServerKey) (query : Packet) (budget : DnsAttemptBudget)
  (server : ServerState) (world : Nat → Turn)

theorem exchangeWithFeatures_pays :
    2 * budget.attempts + (exchangeWithFeatures resolver key query budget server world).1.countP isExchange ≤
      2 * (exchangeWithFeatures resolver key query budget server world).2.budget.attempts := by
  unfold exchangeWithFeatures
  refine runTurns_pays isExchange (fun s : LoopState => 2 * s.budget.attempts)
    (fun ended : Ended => 2 * ended.budget.attempts) (fun _ => le_rfl) ?_ ?_ _ 0 ⟨.start, budget, server⟩
  · intro index s calls ended turn
    have pays := (exchangeTurn_pays (setupOf resolver key query) (world index) s).1
    rw [turn] at pays
    exact pays
  · intro index s calls s' turn
    have pays := (exchangeTurn_pays (setupOf resolver key query) (world index) s).1
    rw [turn] at pays
    exact pays

theorem exchangeWithFeatures_within (within : budget.attempts ≤ dnsTransactionAttemptsMax) :
    (exchangeWithFeatures resolver key query budget server world).2.budget.attempts ≤
      dnsTransactionAttemptsMax := by
  unfold exchangeWithFeatures
  refine runTurns_holds (fun s : LoopState => s.budget.attempts ≤ dnsTransactionAttemptsMax)
    (fun _ (ended : Ended) => ended.budget.attempts ≤ dnsTransactionAttemptsMax)
    (fun _ inside => inside) ?_ ?_ _ 0 ⟨.start, budget, server⟩ within
  · intro index s calls ended inside turn
    have pays := (exchangeTurn_pays (setupOf resolver key query) (world index) s).2 inside
    rw [turn] at pays
    exact pays
  · intro index s calls s' inside turn
    have pays := (exchangeTurn_pays (setupOf resolver key query) (world index) s).2 inside
    rw [turn] at pays
    exact ⟨pays, fun _ _ good => good⟩

end

def serversBudget : Verdict ServersState (Option (Except ResolveError Answer) × ServersState) → DnsAttemptBudget
  | .again s => s.budget
  | .done (_, s) => s.budget

theorem serversTurn_budget (resolver : Resolver) (query : Packet) (keys : List ServerKey) (io : ServerAttempt)
    (s : ServersState) :
    (serversTurnCalls resolver query keys io s = [] ∧
      serversBudget (serversTurn resolver query keys io s) = s.budget) ∨
    ∃ key, serversTurnCalls resolver query keys io s =
        (exchangeWithFeatures resolver key query s.budget io.server io.turns).1 ∧
      serversBudget (serversTurn resolver query keys io s) =
        (exchangeWithFeatures resolver key query s.budget io.server io.turns).2.budget := by
  unfold serversTurnCalls serversTurn
  split
  · exact .inl ⟨rfl, rfl⟩
  · cases io.chosen.bind (keys[·]?) with
    | none => exact .inl ⟨rfl, rfl⟩
    | some key =>
      refine .inr ⟨key, rfl, ?_⟩
      generalize (if s.attempted.length = keys.length then [] else s.attempted) = attempted
      simp only
      split
      · split
        · rfl
        · split
          · split <;> rfl
          · rfl
      · split <;> rfl

theorem serversTurn_pays (resolver : Resolver) (query : Packet) (keys : List ServerKey) (io : ServerAttempt)
    (s : ServersState) :
    2 * s.budget.attempts + (serversTurnCalls resolver query keys io s).countP isExchange ≤
        2 * (serversBudget (serversTurn resolver query keys io s)).attempts ∧
      (s.budget.attempts ≤ dnsTransactionAttemptsMax →
        (serversBudget (serversTurn resolver query keys io s)).attempts ≤ dnsTransactionAttemptsMax) := by
  rcases serversTurn_budget resolver query keys io s with ⟨none, kept⟩ | ⟨key, calls, budget⟩
  · rw [none, kept]
    exact ⟨le_rfl, id⟩
  · rw [calls, budget]
    exact ⟨exchangeWithFeatures_pays .., fun within => exchangeWithFeatures_within _ _ _ _ _ _ within⟩

section
variable (resolver : Resolver) (query : Packet) (attempts : Nat) (keys : List ServerKey)
  (io : ServersIo)

theorem serversRun_pays :
    (serversRun resolver query attempts keys io).1.countP isExchange ≤
      2 * (serversRun resolver query attempts keys io).2.2.budget.attempts := by
  have pays : 2 * 0 + (serversRun resolver query attempts keys io).1.countP isExchange ≤
      2 * (serversRun resolver query attempts keys io).2.2.budget.attempts := by
    unfold serversRun
    refine runTurns_pays isExchange (fun s : ServersState => 2 * s.budget.attempts)
      (fun result : Option (Except ResolveError Answer) × ServersState =>
        2 * result.2.budget.attempts)
      ?_ ?_ ?_ attempts 0 ⟨.new io.startedNow, [], none, none⟩
    · intro s
      exact le_rfl
    all_goals
      intro index s calls result turn
      obtain ⟨rfl, verdict⟩ := Prod.mk.inj turn
      have pays := (serversTurn_pays resolver query keys (io.attempt index) s).1
      rw [verdict] at pays
      exact pays
  omega

theorem serversRun_result :
    (serversRun resolver query attempts keys io).2 =
      (runTurns (fun index s => (([] : List Unit), serversTurn resolver query keys (io.attempt index) s))
        (fun s => (none, s)) attempts 0 ⟨.new io.startedNow, [], none, none⟩).2 := by
  apply runTurns_verdicts
  intro index s
  rfl

theorem serversRun_within :
    (serversRun resolver query attempts keys io).2.2.budget.attempts ≤ dnsTransactionAttemptsMax := by
  refine runTurns_holds (fun s : ServersState => s.budget.attempts ≤ dnsTransactionAttemptsMax)
    (fun _ (result : Option (Except ResolveError Answer) × ServersState) =>
      result.2.budget.attempts ≤ dnsTransactionAttemptsMax)
    (fun _ inside => inside) ?_ ?_ attempts 0 _ (Nat.zero_le _)
  · intro index s calls result inside turn
    have within := (serversTurn_pays resolver query keys (io.attempt index) s).2 inside
    rw [(Prod.mk.inj turn).2] at within
    exact within
  · intro index s calls s' inside turn
    have within := (serversTurn_pays resolver query keys (io.attempt index) s).2 inside
    rw [(Prod.mk.inj turn).2] at within
    exact ⟨within, fun _ _ good => good⟩

end

/-- Whatever the servers and the network do, a query begins 24 attempts at most, makes 48 exchanges at
most, and ends. -/
theorem queryServers_bounded (resolver : Resolver) (query : Packet) (attempts : Nat) (scope : ScopeKind)
    (servers : List SocketAddr) (io : ServersIo) : BoundedCost resolver query attempts scope servers io := by
  have pays := serversRun_pays resolver query attempts (keysOf resolver scope servers) io
  have within := serversRun_within resolver query attempts (keysOf resolver scope servers) io
  have limit : dnsTransactionAttemptsMax = 24 := rfl
  refine ⟨?_, fun key => exchangeWithFeatures_ends resolver key query, by omega, by omega⟩
  rw [queryServers, serversRun_result, keysOf]
  simp only [List.isEmpty_iff]
  split <;> rfl

end Resolved.Proof.Exchange
