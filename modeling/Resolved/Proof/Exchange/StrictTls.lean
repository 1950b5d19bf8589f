import Resolved.Spec.Exchange

namespace Resolved.Proof.Exchange
open Lib Resolved.Wire Resolved.Edns Resolved.Routing Resolved.Links Resolved.Exchange Spec

theorem useTls_strict {setup : Setup} (strict : setup.tlsMode = .yes) (io : Turn) (server : ServerState) :
    useTls setup io server = (true, server) := by
  simp [useTls, Setup.strictTls, strict, TlsCapability.isPossible]

theorem receive_tls (setup : Setup) (io : Turn) (level : FeatureLevel) (outbound : PreparedQuery)
    (s : LoopState) : receive setup io true level outbound s = receiveTls setup io outbound.packet s := rfl

theorem receiveTls_strict {setup : Setup} (strict : setup.tlsMode = .yes) (io : Turn) (packet : Packet)
    (s : LoopState) :
    (receiveTls setup io packet s).1 = [.exchangeTls true packet (exchangeTls packet io.tls)] ∧
    ∀ error, exchangeTls packet io.tls = .error error →
      ∃ server, (receiveTls setup io packet s).2 = finish (.error error) s.budget server := by
  have own : setup.strictTls = true := by simp [Setup.strictTls, strict]
  refine ⟨by simp [receiveTls, own], fun error failed => ?_⟩
  cases error with
  | io cause =>
    exact ⟨s.server.recordTlsFailure setup.strictTls io.recordNow, by simp [receiveTls, failed, own]⟩
  | wire cause | link cause | noNameServers
  | queryRefused | protocol message => exact ⟨s.server, by simp [receiveTls, failed]⟩

theorem exchangeTurn_strictTls {setup : Setup} (strict : setup.tlsMode = .yes) (io : Turn) (s : LoopState) :
    (exchangeTurn setup io s).1 = [] ∨ ∃ packet result,
      (exchangeTurn setup io s).1 = [.exchangeTls true packet result] ∧ ∀ error, result = .error error →
        ∃ budget server, (exchangeTurn setup io s).2 = .done ⟨.error error, budget, server⟩ := by
  simp only [exchangeTurn, useTls_strict strict, if_true, List.nil_append]
  split
  · exact .inl rfl
  · rename_i outbound prepared
    split
    · exact .inl rfl
    · rename_i budget remaining begun
      refine .inr ?_
      rw [receive_tls]
      obtain ⟨calls, ends⟩ := receiveTls_strict strict io outbound.packet
        ⟨s.retry, budget, (currentLevel setup io s.retry s.server).2⟩
      refine ⟨outbound.packet, exchangeTls outbound.packet io.tls, calls, fun error failed => ?_⟩
      obtain ⟨server, stopped⟩ := ends error failed
      refine ⟨budget, server, ?_⟩
      rw [stopped]
      rfl

/-- With strict DNS-over-TLS configured when the exchange begins, nothing is sent or opened in clear,
and a TLS failure ends the exchange with an error. -/
theorem strictTls_never_falls_back (resolver : Resolver) (key : ServerKey) (query : Packet)
    (budget : DnsAttemptBudget) (server : ServerState) (world : Nat → Turn)
    (strict : resolver.serverDnsOverTlsMode key = .yes) :
    StrictTlsOnly (exchangeWithFeatures resolver key query budget server world).1 ∧
    EndsOnTlsFailure (exchangeWithFeatures resolver key query budget server world).1
      (exchangeWithFeatures resolver key query budget server world).2.result := by
  have mode : (setupOf resolver key query).tlsMode = .yes := strict
  refine runTurns_holds (fun _ => True)
    (fun calls (ended : Ended) => StrictTlsOnly calls ∧ EndsOnTlsFailure calls ended.result)
    ?_ ?_ ?_ _ _ _ trivial
  · exact fun s _ => ⟨by simp [StrictTlsOnly], by simp [EndsOnTlsFailure]⟩
  · intro index s calls ended _ turn
    rcases exchangeTurn_strictTls mode (world index) s with none | ⟨packet, result, one, ends⟩
    · rw [turn] at none
      subst none
      exact ⟨by simp [StrictTlsOnly], by simp [EndsOnTlsFailure]⟩
    · rw [turn] at one ends
      subst one
      refine ⟨by simp [StrictTlsOnly], ?_⟩
      intro front rear strict packet' error split
      cases front with
      | nil =>
        obtain ⟨same, rfl⟩ := List.cons.inj split
        cases same
        obtain ⟨budget', server', stopped⟩ := ends error rfl
        cases stopped
        exact ⟨rfl, rfl⟩
      | cons call front =>
        obtain ⟨-, rest⟩ := List.cons.inj split
        simp at rest
  · intro index s calls s' _ turn
    refine ⟨trivial, ?_⟩
    rintro later ended ⟨only, failure⟩
    rcases exchangeTurn_strictTls mode (world index) s with none | ⟨packet, result, one, ends⟩
    · rw [turn] at none
      subst none
      exact ⟨only, failure⟩
    · rw [turn] at one ends
      subst one
      refine ⟨?_, ?_⟩
      · intro call member
        rcases List.mem_cons.1 member with rfl | inLater
        · exact ⟨packet, result, rfl⟩
        · exact only call inLater
      · intro front rear strict packet' error split
        cases front with
        | nil =>
          obtain ⟨same, -⟩ := List.cons.inj split
          cases same
          obtain ⟨budget', server', stopped⟩ := ends error rfl
          cases stopped
        | cons call front =>
          obtain ⟨-, rest⟩ := List.cons.inj split
          exact failure front rear strict packet' error rest

def resolverIn (dnsOverTls : TlsMode) (dnssec : ValidationMode) : Resolver where
  config := ⟨[], [], [], [], [], dnsOverTls, dnssec, true, true, []⟩
  routing := .empty
  networkdLinks := ∅
  linkServerSpecs := ∅
  routingGeneration := 1
  cache := Caching.Cache.new 64 (7200 * Caching.nanosPerSecond) 0 true

def globalKey : ServerKey := .withSlot .global (.v4 ⟨192, 0, 2, 53⟩ 53) 0

def refusingWorld : Nat → Turn := fun _ => {
  tlsNow := 0
  pathMtu := none
  levelNow := 0
  attemptNow := 0
  tls := ⟨.error (.io (.os 111)), .error .timedOut, false, .ok (), .error .timedOut⟩
  udp := ⟨.ok (), .ok 0, [], .timedOut⟩
  fallbackNow := 0
  tcp := ⟨.error (.io (.os 111)), .error .timedOut, false, .ok (), .error .timedOut⟩
  recordNow := 0 }

theorem strictTls_never_falls_back_refused :
    (resolverIn .yes .no).serverDnsOverTlsMode globalKey = .yes ∧
    StrictTlsOnly (exchangeWithFeatures (resolverIn .yes .no) globalKey
      [0, 7, 1, 0, 0, 1, 0, 0, 0, 0, 0, 0, 1, 97, 0, 0, 1, 0, 1] ⟨0, 1⟩ .default refusingWorld).1 ∧
    EndsOnTlsFailure (exchangeWithFeatures (resolverIn .yes .no) globalKey
      [0, 7, 1, 0, 0, 1, 0, 0, 0, 0, 0, 0, 1, 97, 0, 0, 1, 0, 1] ⟨0, 1⟩ .default refusingWorld).1
      (.error (.io (.os 111))) := by
  have run := strictTls_never_falls_back (resolverIn .yes .no) globalKey
    [0, 7, 1, 0, 0, 1, 0, 0, 0, 0, 0, 0, 1, 97, 0, 0, 1, 0, 1] ⟨0, 1⟩ .default refusingWorld rfl
  have refused : (exchangeWithFeatures (resolverIn .yes .no) globalKey
      [0, 7, 1, 0, 0, 1, 0, 0, 0, 0, 0, 0, 1, 97, 0, 0, 1, 0, 1] ⟨0, 1⟩ .default
      refusingWorld).2.result = .error (.io (.os 111)) := by decide +kernel
  rw [refused] at run
  exact ⟨rfl, run⟩

end Resolved.Proof.Exchange
