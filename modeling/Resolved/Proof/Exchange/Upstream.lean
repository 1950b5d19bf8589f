import Resolved.Proof.Exchange.Turn

/-!
# Responses of the servers
-/

namespace Resolved.Proof.Exchange
open Lib Resolved.Wire Resolved.Edns Resolved.Routing Resolved.Links Resolved.Exchange

def ReadyFor (query response : Packet) : Prop :=
  ∃ received, responseForClient query received = .ok response

section
variable {query : Packet}

theorem exchangeTurn_ready {setup : Setup} {io : Turn} {s : LoopState} {calls : List Call} {ended : Ended}
    {response : Packet} (turn : exchangeTurn setup io s = (calls, .done ended))
    (ok : ended.result = .ok response) : ReadyFor setup.query response := by
  rcases exchangeTurn_cases setup io s with ⟨error, server, failed, -⟩ |
    ⟨tls, size, outbound, budget, remaining, made, prepared, -, run⟩
  · rw [turn] at failed
    cases failed
    cases ok
  · rw [run, Prod.mk.injEq] at turn
    rcases verdictOf_bind _ _ with ⟨_, stopped, same⟩ | ⟨received, _, got, decided, same⟩
    · rw [same.symm.trans turn.2] at stopped
      obtain ⟨error, failed⟩ := (receive_spec setup io tls _ outbound _).ended ended stopped
      rw [failed] at ok
      cases ok
    · rw [same.symm.trans turn.2] at decided
      exact ⟨received.response,
        (judge_judged setup io _ outbound s.retry budget received _ decided response ok).1⟩

theorem exchangeWithFeatures_ready {resolver : Resolver} {key : ServerKey} {budget : DnsAttemptBudget}
    {server : ServerState} {world : Nat → Turn} {response : Packet}
    (ok : (exchangeWithFeatures resolver key query budget server world).2.result = .ok response) :
    ReadyFor query response := by
  refine runTurns_holds (fun _ => True)
    (fun _ (ended : Ended) => ∀ response, ended.result = .ok response → ReadyFor query response)
    ?_ ?_ ?_ _ 0 _ trivial response ok
  · intro s _ response ok
    cases ok
  · intro index s calls ended _ turn response ok
    exact exchangeTurn_ready turn ok
  · intro index s calls s' _ _
    exact ⟨trivial, fun _ _ good => good⟩

def KeepsReady (query : Packet) (s : ServersState) : Prop :=
  ∀ answer, s.lastResponse = some answer → ReadyFor query answer.1

def VerdictReady (query : Packet) :
    Verdict ServersState (Option (Except ResolveError Answer) × ServersState) → Prop
  | .again s => KeepsReady query s
  | .done (result, s) => KeepsReady query s ∧ ∀ answer, result = some (.ok answer) → ReadyFor query answer.1

theorem serversTurn_ready (resolver : Resolver) (keys : List ServerKey) (io : ServerAttempt)
    (ready : KeepsReady query s) : VerdictReady query (serversTurn resolver query keys io s) := by
  unfold serversTurn
  split
  · exact ⟨ready, by simp⟩
  · generalize (if s.attempted.length = keys.length then [] else s.attempted) = attempted
    simp only
    split
    · exact ⟨ready, by simp⟩
    · split
      · rename_i response result
        have answered := exchangeWithFeatures_ready result
        split
        · exact ⟨ready, by simp⟩
        · split
          · -- a refusal is kept, and given if nothing better comes
            have kept : ∀ s : ServersState, ∀ server,
                s.lastResponse = some (response, server) → KeepsReady query s := by
              intro s server last answer given
              cases last.symm.trans given
              exact answered
            split
            · exact ⟨kept _ _ rfl, by simp⟩
            · exact kept _ _ rfl
          · refine ⟨ready, fun answer given => ?_⟩
            cases given
            exact answered
      · split
        · exact ⟨ready, by simp⟩
        · exact ready

theorem serversRun_ready (resolver : Resolver) (keys : List ServerKey) (attempt : Nat → ServerAttempt)
    (attempts : Nat) (budget : DnsAttemptBudget) :
    VerdictReady query (.done (runTurns (fun index s =>
      (([] : List Unit), serversTurn resolver query keys (attempt index) s)) (fun s => (none, s))
      attempts 0 ⟨budget, [], none, none⟩).2) := by
  refine runTurns_holds (KeepsReady query) (fun _ result => VerdictReady query (.done result))
    (fun s ready => ⟨ready, by simp⟩) ?_ ?_ attempts 0 _ (by simp [KeepsReady])
  · intro index s _ result ready turn
    have verdict := serversTurn_ready resolver keys (attempt index) ready
    rw [Prod.mk.injEq] at turn
    rwa [turn.2] at verdict
  · intro index s _ s' ready turn
    have verdict := serversTurn_ready resolver keys (attempt index) ready
    rw [Prod.mk.injEq] at turn
    rw [turn.2] at verdict
    exact ⟨verdict, fun _ _ good => good⟩

theorem queryServers_ready {resolver : Resolver} {attempts : Nat} {scope : ScopeKind}
    {servers : List SocketAddr} {io : ServersIo} {answer : Answer}
    (ok : queryServers resolver query attempts scope servers io = .ok answer) : ReadyFor query answer.1 := by
  unfold queryServers at ok
  simp only at ok
  split at ok
  · cases ok
  · have run := @serversRun_ready query resolver
      (serverKeysForSpecs scope (resolver.serverSpecsForScope scope servers)) io.attempt attempts
      (.new io.startedNow)
    split at ok
    · rename_i result s ended
      rw [ended] at run
      exact run.2 answer (by rw [ok])
    · rename_i s ended
      rw [ended] at run
      unfold concludeServers at ok
      split at ok
      · rename_i response last
        cases ok
        exact run.1 _ last
      · split at ok
        · cases ok
        · split at ok
          · cases ok
          · cases ok

def KeepsOf (results : List (Except ResolveError Answer)) (s : ScopesState) : Prop :=
  ∀ answer, s.firstSuccess = some answer ∨ s.lastResponse = some answer → .ok answer ∈ results

theorem collectResult_keeps (kept : KeepsOf results s) (here : result ∈ results) :
    KeepsOf results (collectResult s result) := by
  intro answer found
  unfold collectResult at found
  split at found
  · split at found
    · split at found
      · rcases found with first | last
        · cases first
          exact here
        · exact kept answer (.inr last)
      · exact kept answer found
    · rcases found with first | last
      · exact kept answer (.inl first)
      · cases last
        exact here
  · exact kept answer found

theorem collectResults_mem (ok : collectResults results = .ok answer) : .ok answer ∈ results := by
  have kept : KeepsOf results (results.foldl collectResult ⟨none, none, none⟩) := by
    refine List.foldlRecOn results collectResult ?_ fun s kept result here => ?_
    · intro answer found
      rcases found with first | last
      · cases first
      · cases last
    · exact collectResult_keeps kept here
  unfold collectResults at ok
  simp only at ok
  split at ok
  · rename_i found
    cases ok
    rcases Option.or_eq_some_iff.1 found with first | ⟨-, last⟩
    · exact kept answer (.inl first)
    · exact kept answer (.inr last)
  · cases ok

theorem queryScopes_ready (ok : queryScopes resolver query attempts scopes io = .ok answer) :
    ReadyFor query answer.1 := by
  unfold queryScopes at ok
  simp only at ok
  split at ok
  · exact queryServers_ready ok
  · obtain ⟨index, -, asked⟩ := List.mem_filterMap.1 (collectResults_mem ok)
    obtain ⟨scope, -, result⟩ := Option.map_eq_some_iff.1 asked
    exact queryServers_ready result

end

end Resolved.Proof.Exchange
