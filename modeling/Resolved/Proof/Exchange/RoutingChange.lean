import Resolved.Proof.Exchange.QuerySteps
import Resolved.Proof.Exchange.StrictDnssec

/-!
# Changes of the routing and the cache
-/

namespace Resolved.Proof.Exchange
open Lib Resolved.Wire Resolved.Routing Resolved.Links Resolved.Caching Resolved.Exchange Spec
open Proof.Caching

variable {state state' : Queries} {action : QueryAction}

def phaseKeyed : QueryPhase → Option Keyed
  | .idle | .accepted _ | .done _ _ => none
  | .keyed keyed | .missed keyed => some keyed
  | .routed routed | .following routed _ | .leading routed _ | .fetched routed _ _ _
  | .failed routed _ _ | .completing routed _ _ | .finishing routed _ _ => some routed.keyed

theorem moves_phaseKeyed {phase phase' : QueryPhase} {inflight : Inflight} {keyed : Keyed}
    (moves : Moves state action phase phase' inflight) (here : phaseKeyed phase' = some keyed) :
    phaseKeyed phase = some keyed ∨ keyed.changes = state.changes := by
  cases moves with
  | keyed =>
    cases here
    exact .inr rfl
  | routed selects =>
    simp only [Queries.select, bind_eq_ok, pure_eq_ok] at selects
    obtain ⟨scopes, -, inflightKey, -, rfl⟩ := selects
    exact .inl here
  | answered | accepted | hit | unregistered | shared | rejected => cases here
  | _ => exact .inl here

structure CacheCurrent (state : Queries) : Prop where
  shown : ShowsStored state
  selected : ∀ key origin, state.storedFor key = some origin → ∀ change : Nat,
    state.changes[change]? = some ChangeStage.finished → change < origin.selected
  loaded : ∀ task keyed, phaseKeyed (state.phases task) = some keyed → ∀ change : Nat,
    keyed.changes[change]? = some ChangeStage.finished → state.changes[change]? = some ChangeStage.finished

theorem step_finished (stepped : state.step action = some state') {change : Nat}
    (finished : state.changes[change]? = some .finished) : state'.changes[change]? = some .finished := by
  cases step_cacheEffect stepped with
  | kept _ _ same => exact (same change).2 finished
  | inserted _ _ _ changes => rw [changes]; exact finished
  | flushed _ _ kept => exact kept change finished

theorem step_cacheCurrent (now : CacheCurrent state) (inTime : InsertsInTime state action)
    (stepped : state.step action = some state') : CacheCurrent state' := by
  refine ⟨step_shows now.shown stepped, fun key origin here change finished => ?_,
    fun task keyed here change seen => ?_⟩
  · rcases step_storedFor stepped here with ⟨before, older⟩ |
      ⟨task, time, order, routed, entry, response, server, rfl, fetched, changes, rfl⟩
    · exact now.selected key origin before change (older change finished)
    · rw [changes] at finished
      simp only [InsertsInTime, fetched] at inTime
      exact inTime change (List.getElem?_eq_some_iff.1 finished).1 finished
  · have before : phaseKeyed (state.phases task) = some keyed ∨ keyed.changes = state.changes := by
      rcases step_moves stepped with ⟨same, -⟩ | ⟨moved, phase, phases, moves⟩
      · rw [same] at here
        exact .inl here
      · rw [phases] at here
        by_cases mine : task = moved
        · subst mine
          rw [Function.update_self] at here
          exact moves_phaseKeyed moves here
        · rw [Function.update_of_ne mine] at here
          exact .inl here
    rcases before with earlier | loads
    · exact step_finished stepped (now.loaded task keyed earlier change seen)
    · rw [loads] at seen
      exact step_finished stepped seen

theorem CacheCurrent.serves (now : CacheCurrent state) : state.ServesCurrent := by
  intro task keyed allowStale time packet looks found
  obtain ⟨origin, stored, served⟩ := get_storedFor now.shown found
  refine ⟨origin, stored, served, fun change seen => now.selected _ origin stored change ?_⟩
  refine now.loaded task keyed ?_ change seen
  rcases looks with ⟨here, -⟩ | ⟨routed, entry, error, here, rfl, -⟩
  · rw [here]
    rfl
  · rw [here]
    rfl

/-- As long as no response is stored after the flush of a change that its scopes do not know, no
query finds a response from before a change that had finished when it began. -/
theorem cache_serves_current (resolver : Resolver)
    (attempts capacity maximumTtl staleRetention : Nat) (storeNegative : Bool) (state : Queries)
    (run : Reaches Queries.step InsertsInTime (.start { resolver with
      cache := .new capacity maximumTtl staleRetention storeNegative } attempts) state) :
    state.ServesCurrent := by
  refine CacheCurrent.serves (run.invariant CacheCurrent ?_ fun _ _ _ now inTime stepped =>
    step_cacheCurrent now inTime stepped)
  refine ⟨start_shows resolver attempts capacity maximumTtl staleRetention storeNegative, ?_, ?_⟩
  · intro key origin stored
    cases stored
  · intro task keyed loaded
    cases loaded

def globalResolver : Resolver where
  config := {
    upstreams := [.v4 ⟨192, 0, 2, 53⟩ 53]
    upstreamSpecs := []
    fallbackUpstreams := []
    fallbackUpstreamSpecs := []
    domains := []
    dnsOverTls := .no
    dnssec := .no
    cache := true
    cacheFromLocalhost := false
    refuseRecordTypes := [] }
  routing := .empty
  networkdLinks := ∅
  linkServerSpecs := ∅
  routingGeneration := 1
  cache := cacheForA

def answeringIo (answer : Packet) (sent : Nat) : ScopesIo where
  scope _ := {
    startedNow := 0
    attempt := fun _ => {
      begunNow := 0
      chosen := some 0
      server := .default
      turns := fun _ => {
        tlsNow := 0
        pathMtu := none
        levelNow := 0
        attemptNow := 0
        tls := ⟨.error .noNameServers, .error .timedOut, false, .ok (), .error .timedOut⟩
        udp := ⟨.ok (), .ok sent, [(answer, 0)], .timedOut⟩
        fallbackNow := 0
        tcp := ⟨.error .noNameServers, .error .timedOut, false, .ok (), .error .timedOut⟩
        recordNow := 0 }
      endedNow := 0 }
    concludedNow := 0 }
  arrival := .asListed

def changeActions : List QueryAction := [.updateTable .empty ∅ ∅, .increment 0, .flush 0]

def askActions (task : Nat) : List QueryAction :=
  [.start task queryForA .full none ⟨none, none⟩, .loadGeneration task]

def sendActions (task : Nat) : List QueryAction := [.cacheGet task 0, .select task, .begin task]

def storeActions (task : Nat) : List QueryAction :=
  [.exchange task (answeringIo answerForA 30), .cacheInsert task 0 .asListed]

def keyedForA : Keyed :=
  ⟨⟨queryForA, ⟨7, 0x100, 1, 0, 0, 0⟩, ⟨⟨['a'], [1, 97, 0]⟩, 1, 1, 19⟩, none⟩, 2 * 2 ^ 32, [.finished]⟩

theorem cache_serves_current_afterChange : ∃ state : Queries,
    Reaches Queries.step InsertsInTime (.start globalResolver 2) state ∧ state.LooksUp 1 keyedForA false ∧
      state.resolver.cache.get keyedForA.cacheKey 7 false 0 = some answerForA ∧ state.ServesCurrent := by
  have ran : ((changeActions ++ askActions 0 ++ sendActions 0 ++ storeActions 0 ++ askActions 1).foldlM
      (fun state action => if InsertsInTime state action then state.step action else none)
      (.start globalResolver 2)).map (fun state =>
        (state.phases 1, state.resolver.cache.get keyedForA.cacheKey 7 false 0)) =
      some (.keyed keyedForA, some answerForA) := by
    decide +kernel
  obtain ⟨state, reached, facts⟩ := Option.map_eq_some_iff.1 ran
  obtain ⟨phase, found⟩ := Prod.mk.inj facts
  have run := Reaches.of_checked _ reached
  exact ⟨state, run, .inl ⟨phase, rfl⟩, found,
    cache_serves_current globalResolver 2 64 (7200 * nanosPerSecond) 0 true state run⟩

theorem cache_serves_departed : ∃ state : Queries,
    Reaches Queries.step (fun _ _ => True) (.start globalResolver 2) state ∧ ¬ state.ServesCurrent := by
  have ran : ((askActions 0 ++ sendActions 0 ++ changeActions ++ storeActions 0 ++ askActions 1).foldlM
      Queries.step (.start globalResolver 2)).map (fun state =>
        (state.phases 1, state.resolver.cache.get keyedForA.cacheKey 7 false 0,
          state.storedFor keyedForA.cacheKey)) =
      some (.keyed keyedForA, some answerForA, some ⟨queryForA, 0, ⟨answerForA, 0⟩⟩) := by
    decide +kernel
  obtain ⟨state, reached, facts⟩ := Option.map_eq_some_iff.1 ran
  obtain ⟨phase, facts⟩ := Prod.mk.inj facts
  obtain ⟨found, last⟩ := Prod.mk.inj facts
  refine ⟨state, Reaches.of_actions _ (fun _ _ _ => trivial) reached, fun serves => ?_⟩
  obtain ⟨origin, stored, -, later⟩ := serves 1 keyedForA false 0 answerForA (.inl ⟨phase, rfl⟩) found
  obtain rfl := Option.some.inj (last.symm.trans stored)
  exact absurd (later 0 rfl) (by decide)

end Resolved.Proof.Exchange
