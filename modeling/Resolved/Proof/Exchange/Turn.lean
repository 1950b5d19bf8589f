import Resolved.Spec.Exchange

/-!
# One turn of the exchange
-/

namespace Resolved.Proof.Exchange
open Lib Resolved.Wire Resolved.Edns Resolved.Routing Resolved.Links Resolved.Exchange Spec

variable {query response : Packet} {io : StreamIo} {s : LoopState}

theorem wireResult_eq_ok {α : Type} {result : Except WireError α} {value : α} :
    wireResult result = .ok value ↔ result = .ok value := by
  cases result <;> simp [wireResult]

theorem exchangeOnStream_matches {texts : StreamTexts} {frame : Except IoError Packet}
    (h : exchangeOnStream texts query frame = .ok response) : responseMatches query response = .ok () := by
  unfold exchangeOnStream at h
  split at h
  · cases h
  · split at h
    · cases h
    · split at h
      · cases h
      · simp only [bind_eq_ok, wireResult_eq_ok] at h
        obtain ⟨_, matched, header, -, h⟩ := h
        split at h
        · simp at h
        · rw [pure_eq_ok] at h
          rw [← h]
          exact matched

theorem exchangeStreams_matches {send : Packet → Except IoError Packet → Except ResolveError Packet}
    (sound : ∀ query frame response, send query frame = .ok response → responseMatches query response = .ok ())
    (h : exchangeStreams send query io = .ok response) : responseMatches query response = .ok () := by
  unfold exchangeStreams at h
  split at h
  · cases h
  · split at h
    · rename_i first
      cases h
      exact sound _ _ _ first
    · split at h
      · cases h
      · split at h
        · cases h
        · exact sound _ _ _ h

theorem exchangeTcp_matches (h : exchangeTcp query io = .ok response) : responseMatches query response = .ok () :=
  exchangeStreams_matches (fun _ _ _ => exchangeOnStream_matches) h

theorem exchangeTls_matches (h : exchangeTls query io = .ok response) : responseMatches query response = .ok () :=
  exchangeStreams_matches (fun _ _ _ => exchangeOnStream_matches) h

theorem exchangeUdp_matches {io : UdpIo} {fragmentSize : Nat}
    (h : exchangeUdp query io = .ok (response, fragmentSize)) : responseMatches query response = .ok () := by
  unfold exchangeUdp at h
  split at h
  · cases h
  · split at h
    · cases h
    · split at h
      · cases h
      · split at h
        · rename_i found
          cases h
          have passed := List.find?_some found
          cases matched : responseMatches query response with
          | error error => simp [matched, Except.toOption] at passed
          | ok value => rfl
        · cases h

structure ReceiveSpec (setup : Setup) (packet : Packet) (s : LoopState)
    (run : List Call × Stage Received) : Prop where
  received : ∀ r, run.2 = .ok r → run.1.getLast?.bind exchanged = some (packet, r.response) ∧
      responseMatches packet r.response = .ok () ∧ r.server.features = s.server.features
  again : ∀ s', run.2 = .error (.again s') → s'.budget = s.budget ∧
    (setup.strictDnssec = true → s'.retry.forcedLevel = s.retry.forcedLevel ∧
      s'.server.features = s.server.features)
  ended : ∀ e, run.2 = .error (.done e) → ∃ error, e.result = .error error

theorem ReceiveSpec.of_error (error : ResolveError) (server : ServerState) :
    ReceiveSpec setup packet s (calls, finish (.error error) s.budget server) where
  received r h := by cases h
  again s' h := by cases h
  ended e h := by
    cases h
    exact ⟨error, rfl⟩

theorem ReceiveSpec.of_again (retry : Retry) (server : ServerState)
    (kept : setup.strictDnssec = true → retry.forcedLevel = s.retry.forcedLevel ∧ server.features = s.server.features) :
    ReceiveSpec setup packet s (calls, goOn retry s.budget server) where
  received r h := by cases h
  again s' h := by
    cases h
    exact ⟨rfl, kept⟩
  ended e h := by cases h

theorem ReceiveSpec.of_received (last : calls.getLast?.bind exchanged = some (packet, r.response))
    (matched : responseMatches packet r.response = .ok ()) (features : r.server.features = s.server.features) :
    ReceiveSpec setup packet s (calls, .ok r) where
  received r' h := by
    cases h
    exact ⟨last, matched, features⟩
  again s' h := by cases h
  ended e h := by cases h

theorem receiveTls_spec (setup : Setup) (io : Turn) (packet : Packet) (s : LoopState) :
    ReceiveSpec setup packet s (receiveTls setup io packet s) := by
  unfold receiveTls
  cases result : exchangeTls packet io.tls with
  | ok response =>
    exact .of_received (by simp [exchanged]) (exchangeTls_matches result) rfl
  | error error =>
    simp only
    split
    · split
      · exact .of_again _ _ fun _ => ⟨rfl, rfl⟩
      · exact .of_error _ _
    · exact .of_error _ _

theorem retryOverTcp_spec (setup : Setup) (io : Turn) (level : FeatureLevel) (packet : Packet) (s : LoopState)
    (before : List Call) :
    ReceiveSpec setup packet s (before ++ (retryOverTcp setup io level packet s).1,
      (retryOverTcp setup io level packet s).2) := by
  unfold retryOverTcp
  split
  · exact .of_error _ _
  · cases result : exchangeTcp packet io.tcp with
    | ok response =>
      exact .of_received (by simp [exchanged]) (exchangeTcp_matches result) rfl
    | error error =>
      simp only
      split
      · rename_i lowered
        exact .of_again _ _ fun strict => by simp [strict] at lowered
      · exact .of_error _ _

theorem udpFailed_spec (setup : Setup) (io : Turn) (level : FeatureLevel) (managedOpt : Bool)
    (error : ResolveError) (packet : Packet) (s : LoopState) (calls : List Call) :
    ReceiveSpec setup packet s (calls, udpFailed setup io level managedOpt error s) := by
  unfold udpFailed
  generalize run : (if managedOpt = true ∧ (!setup.strictDnssec) = true then
    s.server.features.recordFailure level io.recordNow else (s.server.features, none)) = recorded
  -- in strict mode the failure is not counted against the level
  have kept : setup.strictDnssec = true → recorded = (s.server.features, none) := by
    intro strict
    rw [← run]
    simp [strict]
  obtain ⟨features, lower⟩ := recorded
  simp only
  split
  · rename_i lowered
    refine .of_again _ _ fun strict => ?_
    obtain ⟨-, rfl⟩ := Prod.mk.inj (kept strict)
    simp at lowered
  · split
    · split
      · refine .of_again _ _ fun strict => ⟨rfl, ?_⟩
        exact (Prod.mk.inj (kept strict)).1
      · exact .of_error _ _
    · exact .of_error _ _

theorem receiveUdp_spec (setup : Setup) (io : Turn) (level : FeatureLevel) (outbound : PreparedQuery)
    (s : LoopState) : ReceiveSpec setup outbound.packet s (receiveUdp setup io level outbound s) := by
  unfold receiveUdp
  cases result : exchangeUdp outbound.packet io.udp with
  | error error => exact udpFailed_spec setup io level outbound.managedOpt error outbound.packet s _
  | ok datagram =>
    obtain ⟨response, fragmentSize⟩ := datagram
    simp only
    split
    · exact .of_error _ _
    · split
      · rename_i header parsed retry
        have spec := retryOverTcp_spec setup io level outbound.packet { s with
          server := if header.truncated then
            ((s.server.recordUdpPacket setup.address response.length
              fragmentSize).recordTransportSuccess .udp).recordTransportTruncated
            else (s.server.recordUdpPacket setup.address response.length
              fragmentSize).recordTransportSuccess .udp }
          [.exchangeUdp outbound.packet (.ok (response, fragmentSize))]
        have features : (if header.truncated then
            ((s.server.recordUdpPacket setup.address response.length
              fragmentSize).recordTransportSuccess .udp).recordTransportTruncated
            else (s.server.recordUdpPacket setup.address response.length
              fragmentSize).recordTransportSuccess .udp).features = s.server.features := by
          split <;> rfl
        exact ⟨fun r h => by rw [← features]; exact spec.received r h,
          fun s' h => by rw [← features]; exact spec.again s' h, spec.ended⟩
      · exact .of_received (by simp [exchanged]) (exchangeUdp_matches result) rfl

theorem receiveTcp_spec (setup : Setup) (io : Turn) (packet : Packet) (s : LoopState) :
    ReceiveSpec setup packet s (receiveTcp io packet s) := by
  unfold receiveTcp
  cases result : exchangeTcp packet io.tcp with
  | ok response => exact .of_received (by simp [exchanged]) (exchangeTcp_matches result) rfl
  | error error =>
    simp only
    split
    · exact .of_again _ _ fun _ => ⟨rfl, rfl⟩
    · exact .of_error _ _

theorem receive_spec (setup : Setup) (io : Turn) (tls : Bool) (level : FeatureLevel) (outbound : PreparedQuery)
    (s : LoopState) : ReceiveSpec setup outbound.packet s (receive setup io tls level outbound s) := by
  unfold receive
  split
  · exact receiveTls_spec setup io outbound.packet s
  · split
    · exact receiveUdp_spec setup io level outbound s
    · exact receiveTcp_spec setup io outbound.packet s

def Judged (setup : Setup) (level : FeatureLevel) (budget : DnsAttemptBudget) (received : Received)
    (answers : Prop) : TurnVerdict → Prop
  | .again s' => s'.budget = budget ∧ (setup.strictDnssec = true →
    s'.retry.forcedLevel = some level ∧ s'.server.features = received.server.features)
  | .done e => ∀ answer, e.result = .ok answer →
    responseForClient setup.query received.response = .ok answer ∧ answers

section
variable {setup : Setup} {level : FeatureLevel} {budget : DnsAttemptBudget} {received : Received}
  {answers : Prop}

theorem judged_error {α : Type} (error : ResolveError) (server : ServerState) :
    FailsWith (Judged setup level budget received answers) (finish (.error error) budget server : Stage α) := by
  intro verdict h
  cases h
  intro answer impossible
  cases impossible

theorem judged_answer {α : Type} (server : ServerState) (known : answers) :
    FailsWith (Judged setup level budget received answers)
      (finish (wireResult (responseForClient setup.query received.response)) budget server : Stage α) := by
  intro verdict h
  cases h
  intro answer ok
  exact ⟨wireResult_eq_ok.1 ok, known⟩

theorem judged_again {α : Type} (retry : Retry) (server : ServerState)
    (kept : setup.strictDnssec = true →
      retry.forcedLevel = some level ∧ server.features = received.server.features) :
    FailsWith (Judged setup level budget received answers)
      (goOn retry budget server : Stage α) := by
  intro verdict h
  cases h
  exact ⟨rfl, kept⟩

theorem judged_orFinish {α : Type} (server : ServerState) (result : Except WireError α) :
    FailsWith (Judged setup level budget received answers) (orFinish budget server result) := by
  cases result with
  | ok value =>
    intro verdict h
    cases h
  | error error => exact judged_error _ _

theorem judged_stageIf {condition : Prop} [Decidable condition] {stage : Stage Unit}
    (holds : condition → FailsWith (Judged setup level budget received answers) stage) :
    FailsWith (Judged setup level budget received answers) (stageIf condition stage) := by
  unfold stageIf
  split
  · rename_i met
    exact holds met
  · intro verdict h
    cases h

theorem judged_retryLower {α : Type} (lenient : setup.strictDnssec = false) (retry : Retry)
    (lower : FeatureLevel) (server : ServerState) (known : answers) :
    FailsWith (Judged setup level budget received answers)
      (retryLower setup retry budget lower received.response server : Stage α) := by
  unfold retryLower
  split
  · exact judged_again _ _ fun strict => by simp [lenient] at strict
  · exact judged_answer _ known

theorem checkOpt_judged (io : Turn) (opt : Option OptRecord) (rcode : Nat) (retry : Retry)
    (known : setup.strictDnssec = false → answers) :
    FailsWith (Judged setup level budget received answers)
      (checkOpt setup io level received.response opt rcode ⟨retry, budget, received.server⟩) := by
  unfold checkOpt
  cases strict : setup.strictDnssec with
  | true =>
    simp only [if_true]
    split
    · exact judged_error _ _
    · split
      · exact judged_error _ _
      · split
        · exact judged_error _ _
        · intro verdict h
          cases h
  | false =>
    simp only [Bool.false_eq_true, if_false]
    split
    · split
      · exact judged_answer _ (known strict)
      · exact judged_retryLower strict _ _ _ (known strict)
    · split
      · exact judged_retryLower strict _ _ _ (known strict)
      · split
        · exact judged_retryLower strict _ _ _ (known strict)
        · intro verdict h
          cases h

theorem checkOpt_strict {io : Turn} {opt : Option OptRecord} {rcode : Nat} (strict : setup.strictDnssec = true)
    (passed : checkOpt setup io .dnssecOk response opt rcode s = .ok ()) :
    ∃ record, opt = some record ∧ record.version = 0 ∧ record.dnssecOk = true := by
  unfold checkOpt at passed
  split at passed
  · simp [strict, finish] at passed
  · rename_i record
    split at passed
    · simp [finish] at passed
    · rename_i version
      split at passed
      · simp [finish] at passed
      · rename_i flag
        push Not at version
        simp only [FeatureLevel.isDnssecOk, true_and, Bool.not_eq_true', Bool.not_eq_false] at flag
        exact ⟨record, rfl, version.1, flag⟩

theorem checkRootRrsig_judged (io : Turn) (retry : Retry) :
    FailsWith (Judged setup level budget received answers)
      (checkRootRrsig setup io received.response ⟨retry, budget, received.server⟩) := by
  unfold checkRootRrsig
  refine (judged_orFinish _ _).bind fun missing _ => ?_
  split
  · split
    · exact judged_error _ _
    · rename_i lenient
      split
      · exact judged_again _ _ fun strict => absurd strict lenient
      · exact judged_error _ _
  · intro verdict h
    cases h

theorem checkServfail_judged (opt : Option OptRecord) (retry : Retry) (known : answers) :
    FailsWith (Judged setup level budget received answers)
      (checkServfail setup level received.response opt ⟨retry, budget, received.server⟩) := by
  unfold checkServfail
  refine (judged_orFinish _ _).bind fun ede _ => ?_
  split
  · split
    · exact judged_again _ _ fun _ => ⟨rfl, rfl⟩
    · exact judged_answer _ known
  · split
    · exact judged_again _ _ fun _ => ⟨rfl, rfl⟩
    · intro verdict h
      cases h

end

theorem judge_judged (setup : Setup) (io : Turn) (level : FeatureLevel) (outbound : PreparedQuery)
    (retry : Retry) (budget : DnsAttemptBudget) (received : Received) :
    FailsWith (Judged setup level budget received
      (setup.strictDnssec = true → outbound.managedOpt = true → outbound.sentEdns = true →
        level = .dnssecOk → AnswersDo received.response))
      (judge setup io level outbound retry budget received) := by
  unfold judge
  refine (judged_orFinish _ _).bind fun opt inspected => ?_
  refine (judged_orFinish _ _).bind fun rcode _ => ?_
  refine (judged_stageIf fun _ => checkOpt_judged io opt rcode retry fun lenient strict =>
    by simp [lenient] at strict).bind fun _ passed => ?_
  have known : setup.strictDnssec = true → outbound.managedOpt = true → outbound.sentEdns = true →
      level = .dnssecOk → AnswersDo received.response := by
    rintro strict managed sent rfl
    simp only [stageIf, managed, sent, and_self, if_true] at passed
    obtain ⟨record, rfl, version, flag⟩ := checkOpt_strict strict passed
    refine ⟨record, ?_, version, flag⟩
    cases result : inspectOpt received.response with
    | error error => simp [result, orFinish, finish] at inspected
    | ok value => simpa [result, orFinish] using inspected
  refine (judged_stageIf fun _ => checkRootRrsig_judged io retry).bind fun _ _ => ?_
  refine (judged_stageIf fun _ => checkServfail_judged opt retry known).bind fun _ _ => ?_
  refine (judged_stageIf fun lowered => ?_).bind fun _ _ => ?_
  · exact judged_again _ _ fun strict => by simp [strict] at lowered
  · exact judged_answer _ known

theorem beginAttempt_eq_ok {budget budget' : DnsAttemptBudget} {now remaining : Nat}
    (h : budget.beginAttempt now = .ok (budget', remaining)) :
    budget.attempts < dnsTransactionAttemptsMax ∧ budget'.attempts = budget.attempts + 1 := by
  unfold DnsAttemptBudget.beginAttempt at h
  split at h
  · cases h
  · rename_i left
    simp only [bind_eq_ok, pure_eq_ok, Prod.mk.injEq] at h
    obtain ⟨_, -, rfl, -⟩ := h
    exact ⟨not_le.1 left, rfl⟩

def turnLevel (setup : Setup) (io : Turn) (s : LoopState) : FeatureLevel × ServerState :=
  currentLevel setup io s.retry (useTls setup io s.server).2

theorem exchangeTurn_cases (setup : Setup) (io : Turn) (s : LoopState) :
    (∃ error server, (exchangeTurn setup io s).2 = .done ⟨.error error, s.budget, server⟩ ∧
      ((∃ size failure, prepareQuery setup.query (turnLevel setup io s).1 size = .error failure) ∨
        ∃ failure, s.budget.beginAttempt io.attemptNow = .error failure)) ∨
    ∃ tls size outbound budget remaining calls,
      prepareQuery setup.query (turnLevel setup io s).1 size = .ok outbound ∧
      s.budget.beginAttempt io.attemptNow = .ok (budget, remaining) ∧ exchangeTurn setup io s =
        (calls ++ (receive setup io tls (turnLevel setup io s).1 outbound
            ⟨s.retry, budget, (turnLevel setup io s).2⟩).1,
          verdictOf ((receive setup io tls (turnLevel setup io s).1 outbound
            ⟨s.retry, budget, (turnLevel setup io s).2⟩).2 >>=
              judge setup io (turnLevel setup io s).1 outbound s.retry budget)) := by
  unfold exchangeTurn
  simp only
  split
  · rename_i failure failed
    exact .inl ⟨_, _, rfl, .inl ⟨_, failure, failed⟩⟩
  · rename_i outbound prepared
    split
    · rename_i failure failed
      exact .inl ⟨_, _, rfl, .inr ⟨failure, failed⟩⟩
    · rename_i budget remaining begun
      exact .inr ⟨_, _, outbound, budget, remaining, _, prepared, begun, rfl⟩

theorem verdictOf_bind {α : Type} (stage : Stage α) (next : α → Stage Empty) :
    (∃ verdict, stage = .error verdict ∧ verdictOf (stage >>= next) = verdict) ∨
      ∃ value verdict, stage = .ok value ∧ next value = .error verdict ∧ verdictOf (stage >>= next) = verdict := by
  cases stage with
  | error verdict => exact .inl ⟨verdict, rfl, rfl⟩
  | ok value =>
    refine .inr ⟨value, ?_⟩
    cases run : next value with
    | error verdict => exact ⟨verdict, rfl, rfl, by rw [ok_bind, run]; rfl⟩
    | ok impossible => exact impossible.elim

theorem exchangeTurn_uses {setup : Setup} {io : Turn} {s' : LoopState} {calls : List Call}
    (h : exchangeTurn setup io s = (calls, .again s')) :
    s.budget.attempts < dnsTransactionAttemptsMax ∧ s'.budget.attempts = s.budget.attempts + 1 := by
  rcases exchangeTurn_cases setup io s with ⟨error, server, ended, -⟩ |
    ⟨tls, size, outbound, budget, remaining, made, -, begun, run⟩
  · rw [h] at ended
    cases ended
  · obtain ⟨left, used⟩ := beginAttempt_eq_ok begun
    rw [run, Prod.mk.injEq] at h
    rcases verdictOf_bind _ _ with ⟨verdict, stopped, same⟩ | ⟨received, verdict, -, judged, same⟩
    · rw [same.symm.trans h.2] at stopped
      obtain ⟨kept, -⟩ := (receive_spec setup io tls _ outbound _).again s' stopped
      exact ⟨left, kept ▸ used⟩
    · rw [same.symm.trans h.2] at judged
      obtain ⟨kept, -⟩ := judge_judged setup io _ outbound s.retry budget received _ judged
      exact ⟨left, kept ▸ used⟩

theorem exchangeWithFeatures_ends (resolver : Resolver) (key : ServerKey) (query : Packet)
    (budget : DnsAttemptBudget) (server : ServerState) (world : Nat → Turn) (stuck : LoopState → Ended)
    (more : Nat) :
    runTurns (fun index => exchangeTurn (setupOf resolver key query) (world index)) stuck
      (dnsTransactionAttemptsMax - budget.attempts + 1 + more) 0 ⟨.start, budget, server⟩ =
      exchangeWithFeatures resolver key query budget server world := by
  unfold exchangeWithFeatures
  refine runTurns_ends (fun s : LoopState => dnsTransactionAttemptsMax - s.budget.attempts)
    ?_ more 0 (Nat.lt_succ_self (dnsTransactionAttemptsMax - budget.attempts)) stuck
  intro index s calls s' turn
  obtain ⟨left, used⟩ := exchangeTurn_uses turn
  omega

end Resolved.Proof.Exchange
