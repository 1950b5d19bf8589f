import Resolved.Proof.Edns.ForClient
import Resolved.Proof.Exchange.Inflight
import Resolved.Proof.Exchange.RoutingChange
import Resolved.Proof.Exchange.Upstream
import Resolved.Proof.Wire.LocalAnswer

/-!
# Clients without EDNS
-/

namespace Resolved.Proof.Exchange
open Lib Resolved.Wire Resolved.Links Resolved.Caching Resolved.Exchange Spec
open Proof.Wire Proof.Edns Proof.Caching

variable {query packet : Packet} {id now : Nat} {allowStale : Bool} {keyOf : EntryId → InflightKey}
  {phase : QueryPhase} {state : Queries} {action : QueryAction}

def Parses (packet : Packet) : Prop := ∃ sections, parseSections packet = .ok sections

def PlainKey (key : InflightKey) : Prop := Lacks key.query typeOpt ∧ Lacks key.query typeTsig

theorem hasType_iff_lacks (parses : Parses packet) (rrType : Nat) :
    hasType packet rrType = false ↔ Lacks packet rrType := by
  obtain ⟨sections, parsed⟩ := parses
  constructor
  · intro absent
    exact (lacks_iff parsed rrType).2 (hasType_eq_false.1 absent sections parsed)
  · exact Lacks.hasType

theorem plain_iff_plainKey {route : Nat} {key : InflightKey} (parses : Parses query)
    (made : InflightKey.new route query = .ok key) : Plain query ↔ PlainKey key := by
  obtain ⟨renamed, renames, same⟩ := bind_eq_ok.1 made
  cases same
  unfold Plain PlainKey
  rw [hasType_iff_lacks parses, hasType_iff_lacks parses, lacks_rewriteId_iff renames,
    lacks_rewriteId_iff renames]

def FitFor (query : Packet) (result : Except ResolveError Packet) : Prop :=
  ∀ response, result = .ok response → Plain query → Lacks response typeOpt

theorem fitFor_error (query : Packet) (error : ResolveError) : FitFor query (.error error) := by
  intro response ok
  cases ok

theorem servedFrom_lacks {stored : Stored} {rrType : Nat} (served : ServedFrom stored id now allowStale packet)
    (lacks : Lacks stored.response rrType) : Lacks packet rrType := by
  obtain ⟨stale, -, ages⟩ := served
  obtain ⟨renamed, renames, aged⟩ := bind_eq_ok.1 ages
  exact ageTtls_lacks aged ((lacks_rewriteId_iff renames).2 lacks)

theorem validate_parses (valid : validate packet expectResponse = .ok ()) : Parses packet := by
  obtain ⟨sections, parsed, -⟩ := bind_eq_ok.1 valid
  exact ⟨sections, parsed⟩

theorem accept_lacks {config : Config} {mode : QueryMode} {ifindex : Option Int}
    {found : LocalData} {outcome : Packet ⊕ Asked}
    (accepts : accept config query mode ifindex found = .ok outcome) :
    match outcome with
    | .inl response => Lacks response typeOpt
    | .inr asked => Parses asked.query := by
  simp only [accept, bind_eq_ok, wireResult_eq_ok] at accepts
  obtain ⟨_, valid, header, -, question, -, accepts⟩ := accepts
  split at accepts
  · cases accepts
  · split at accepts
    · obtain ⟨response, made, same⟩ := bind_eq_ok.1 accepts
      cases same
      exact refusedFor_lacks (wireResult_eq_ok.1 made) typeOpt
    · split at accepts
      · obtain ⟨response, made, same⟩ := bind_eq_ok.1 accepts
        cases same
        exact staticResponse_lacks (wireResult_eq_ok.1 made)
      · obtain ⟨response, made, same⟩ := bind_eq_ok.1 accepts
        cases same
        exact localResponse_lacks (wireResult_eq_ok.1 made)
      · cases accepts
        exact validate_parses valid

structure SharesFit (keyOf : EntryId → InflightKey) (inflight : Inflight) : Prop where
  mapped : ∀ key entry, inflight.entries key = some entry → entry < inflight.fresh ∧ keyOf entry = key
  fit : ∀ entry response, (inflight.states entry).response = some response → entry < inflight.fresh →
    PlainKey (keyOf entry) → Lacks response typeOpt

section
variable {keyOf : EntryId → InflightKey} {inflight : Inflight}

theorem SharesFit.lead {inflight' : Inflight} {key : InflightKey} {entry : EntryId}
    (shares : SharesFit keyOf inflight) (begun : inflight.begin key = (.leader entry, inflight')) :
    SharesFit (Function.update keyOf entry key) inflight' := by
  obtain ⟨-, rfl, rfl⟩ := begin_leader begun
  refine ⟨fun other current registered => ?_, fun current response published old plain => ?_⟩
  · by_cases same : other = key
    · subst same
      simp only [Function.update_self] at registered
      cases registered
      exact ⟨Nat.lt_succ_self _, Function.update_self ..⟩
    · simp only [Function.update_of_ne same] at registered
      obtain ⟨earlier, known⟩ := shares.mapped other current registered
      refine ⟨Nat.lt_succ_of_lt earlier, ?_⟩
      rw [Function.update_of_ne earlier.ne]
      exact known
  · by_cases same : current = inflight.fresh
    · subst same
      simp only [Function.update_self] at published
      cases published
    · simp only [Function.update_of_ne same] at published plain
      exact shares.fit current response published (lt_of_le_of_ne (Nat.le_of_lt_succ old) same) plain

theorem SharesFit.publish (shares : SharesFit keyOf inflight)
    (fit : ∀ response, shared = some response → PlainKey (keyOf entry) → Lacks response typeOpt) :
    SharesFit keyOf (inflight.publish entry shared) := by
  refine ⟨shares.mapped, fun current response published old plain => ?_⟩
  by_cases same : current = entry
  · subst same
    simp only [Inflight.publish, Function.update_self] at published
    exact fit response published plain
  · simp only [Inflight.publish, Function.update_of_ne same] at published
    exact shares.fit current response published old plain

theorem SharesFit.unregister (shares : SharesFit keyOf inflight) :
    SharesFit keyOf (inflight.unregister key entry) ∧ (inflight.unregister key entry).fresh = inflight.fresh := by
  unfold Inflight.unregister
  split
  · refine ⟨⟨fun other current registered => ?_, shares.fit⟩, rfl⟩
    by_cases same : other = key
    · subst same
      simp only [Function.update_self] at registered
      cases registered
    · simp only [Function.update_of_ne same] at registered
      exact shares.mapped other current registered
  · exact ⟨shares, rfl⟩

end

section
variable (keyOf : EntryId → InflightKey) (fresh : EntryId)

def TakesPart (routed : Routed) (entry : EntryId) : Prop :=
  (Plain routed.keyed.asked.query ↔ PlainKey routed.inflightKey) ∧ entry < fresh ∧
    keyOf entry = routed.inflightKey

def PhaseFits : QueryPhase → Prop
  | .idle => True
  | .accepted asked => Parses asked.query
  | .keyed keyed | .missed keyed => Parses keyed.asked.query
  | .routed routed => Plain routed.keyed.asked.query ↔ PlainKey routed.inflightKey
  | .following routed entry | .leading routed entry | .failed routed entry _ =>
    TakesPart keyOf fresh routed entry
  | .fetched routed entry response _ =>
    TakesPart keyOf fresh routed entry ∧ FitFor routed.keyed.asked.query (.ok response)
  | .completing routed entry result =>
    TakesPart keyOf fresh routed entry ∧ FitFor routed.keyed.asked.query result
  | .finishing routed _ result => FitFor routed.keyed.asked.query result
  | .done query result => FitFor query result

end

structure Extends (keyOf keyOf' : EntryId → InflightKey) (fresh fresh' : EntryId) : Prop where
  later : fresh ≤ fresh'
  same : ∀ entry < fresh, keyOf' entry = keyOf entry

theorem PhaseFits.extend {keyOf' : EntryId → InflightKey} {fresh fresh' : EntryId}
    (fits : PhaseFits keyOf fresh phase) (larger : Extends keyOf keyOf' fresh fresh') : PhaseFits keyOf' fresh' phase := by
  have part : ∀ {routed entry}, TakesPart keyOf fresh routed entry →
      TakesPart keyOf' fresh' routed entry := by
    rintro routed entry ⟨kind, old, known⟩
    exact ⟨kind, lt_of_lt_of_le old larger.later, (larger.same entry old).trans known⟩
  cases phase with
  | following | leading | failed => exact part fits
  | fetched | completing => exact ⟨part fits.1, fits.2⟩
  | _ => exact fits

structure FitsPlain (keyOf : EntryId → InflightKey) (state : Queries) : Prop where
  shown : ShowsStored state
  stored : ∀ key origin, state.storedFor key = some origin → Plain origin.query →
    Lacks origin.stored.response typeOpt
  shares : SharesFit keyOf state.inflight
  phases : ∀ task, PhaseFits keyOf state.inflight.fresh (state.phases task)

theorem FitsPlain.found {key : CacheKey} (fits : FitsPlain keyOf state)
    (found : state.resolver.cache.get key id allowStale now = some packet)
    (own : Plain query → ∀ origin ∈ state.storedFor key, Plain origin.query) : FitFor query (.ok packet) := by
  intro response ok plain
  cases ok
  obtain ⟨origin, stored, served⟩ := get_storedFor fits.shown found
  exact servedFrom_lacks served (fits.stored key origin stored (own plain origin stored))

theorem normalizeShared_lacks {result : Except ResolveError Packet} {shared : Packet}
    (fit : FitFor query result) (plain : Plain query)
    (normalized : result.toOption.bind normalizeSharedResponse = some shared) : Lacks shared typeOpt := by
  cases result with
  | error error => cases normalized
  | ok response =>
    have renames : rewriteId response 0 = .ok shared := toOption_eq_some.1 normalized
    exact (lacks_rewriteId_iff renames).2 (fit response rfl plain)

theorem moves_fits {phase' : QueryPhase} {inflight : Inflight} (fits : FitsPlain keyOf state)
    (own : LooksUpOwnKind state action) (moves : Moves state action phase phase' inflight)
    (before : PhaseFits keyOf state.inflight.fresh phase) :
    ∃ keyOf', Extends keyOf keyOf' state.inflight.fresh inflight.fresh ∧ SharesFit keyOf' inflight ∧
      PhaseFits keyOf' inflight.fresh phase' := by
  have unchanged : Extends keyOf keyOf state.inflight.fresh state.inflight.fresh :=
    ⟨le_rfl, fun _ _ => rfl⟩
  cases moves with
  | answered accepts =>
    refine ⟨keyOf, unchanged, fits.shares, fun response ok _ => ?_⟩
    cases ok
    exact accept_lacks accepts
  | accepted accepts => exact ⟨keyOf, unchanged, fits.shares, accept_lacks accepts⟩
  | hit found here =>
    simp only [LooksUpOwnKind, here] at own
    exact ⟨keyOf, unchanged, fits.shares, fits.found found own⟩
  | routed selects =>
    simp only [Queries.select, bind_eq_ok, pure_eq_ok, wireResult_eq_ok] at selects
    obtain ⟨scopes, -, key, made, rfl⟩ := selects
    exact ⟨keyOf, unchanged, fits.shares, plain_iff_plainKey before made⟩
  | @led _ routed entry _ begun =>
    refine ⟨Function.update keyOf entry routed.inflightKey, ?_, fits.shares.lead begun, before, ?_⟩
    all_goals obtain ⟨-, rfl, rfl⟩ := begin_leader begun
    · exact ⟨Nat.le_succ _, fun entry old => Function.update_of_ne old.ne _ _⟩
    · exact ⟨Nat.lt_succ_self _, Function.update_self ..⟩
  | joined begun =>
    obtain ⟨registered, rfl⟩ := begin_follower begun
    exact ⟨keyOf, unchanged, fits.shares, before, fits.shares.mapped _ _ registered⟩
  | fetched exchanged =>
    obtain ⟨received, ready⟩ := queryScopes_ready exchanged
    refine ⟨keyOf, unchanged, fits.shares, before, fun response ok plain => ?_⟩
    cases ok
    exact responseForClient_lacks plain ready
  | stale found here =>
    simp only [LooksUpOwnKind, here] at own
    exact ⟨keyOf, unchanged, fits.shares, before, fits.found found own⟩
  | gaveUp => exact ⟨keyOf, unchanged, fits.shares, before, fitFor_error _ _⟩
  | published =>
    obtain ⟨⟨kind, -, known⟩, fit⟩ := before
    refine ⟨keyOf, unchanged, fits.shares.publish fun shared normalized plain => ?_, fit⟩
    rw [known] at plain
    exact normalizeShared_lacks fit (kind.2 plain) normalized
  | unregistered =>
    obtain ⟨shares, fresh⟩ := fits.shares.unregister
    refine ⟨keyOf, ?_, shares, before⟩
    rw [fresh]
    exact unchanged
  | woken => exact ⟨keyOf, unchanged, fits.shares, before.1⟩
  | shared given =>
    obtain ⟨kind, old, known⟩ := before
    refine ⟨keyOf, unchanged, fits.shares, fun response ok plain => ?_⟩
    refine (lacks_rewriteId_iff (wireResult_eq_ok.1 ok)).2 (fits.shares.fit _ _ ?_ old ?_)
    · rw [wait_eq_some given]
    · rw [known]
      exact kind.1 plain
  | rejected => exact ⟨keyOf, unchanged, fits.shares, fitFor_error _ _⟩
  | keyed | missed | failed | stored => exact ⟨keyOf, unchanged, fits.shares, before⟩

theorem step_fitsPlain {state' : Queries} (fits : FitsPlain keyOf state) (own : LooksUpOwnKind state action)
    (stepped : state.step action = some state') : ∃ keyOf', FitsPlain keyOf' state' := by
  have stored : ∀ key origin, state'.storedFor key = some origin → Plain origin.query →
      Lacks origin.stored.response typeOpt := by
    intro key origin here plain
    rcases step_storedFor stepped here with ⟨before, -⟩ |
      ⟨task, time, order, routed, entry, response, server, -, fetched, -, rfl⟩
    · exact fits.stored key origin before plain
    · have fit := fits.phases task
      rw [fetched] at fit
      exact fit.2 response rfl plain
  have shown := step_shows fits.shown stepped
  rcases step_moves stepped with ⟨phases, inflight⟩ | ⟨task, phase, phases, moves⟩
  · refine ⟨keyOf, shown, stored, ?_, ?_⟩
    · rw [inflight]
      exact fits.shares
    · rw [inflight, phases]
      exact fits.phases
  · obtain ⟨keyOf', larger, shares, moved⟩ := moves_fits fits own moves (fits.phases task)
    refine ⟨keyOf', shown, stored, shares, ?_⟩
    rw [phases]
    exact (Function.forall_update_iff _ fun _ => PhaseFits keyOf' state'.inflight.fresh).2
      ⟨moved, fun other _ => (fits.phases other).extend larger⟩

/-- As long as plain queries find only what was stored for plain queries, no plain query is answered
with an OPT record. -/
theorem plain_answers (resolver : Resolver) (attempts capacity maximumTtl staleRetention : Nat)
    (storeNegative : Bool) (state : Queries)
    (run : Reaches Queries.step LooksUpOwnKind (.start { resolver with
      cache := .new capacity maximumTtl staleRetention storeNegative } attempts) state) :
    state.AnswersPlainly := by
  have fits : ∃ keyOf, FitsPlain keyOf state := by
    refine run.invariant (fun state => ∃ keyOf, FitsPlain keyOf state) ?_
      fun _ _ _ ⟨_, fits⟩ own stepped => step_fitsPlain fits own stepped
    refine ⟨fun _ => ⟨0, []⟩, start_shows resolver attempts capacity maximumTtl staleRetention
      storeNegative, ?_, ⟨?_, ?_⟩, fun _ => trivial⟩
    · intro key origin stored
      cases stored
    · intro key entry registered
      cases registered
    · intro entry response published
      cases published
  obtain ⟨keyOf, fits⟩ := fits
  intro task query response ended plain
  have fit := fits.phases task
  rw [ended] at fit
  exact (fit response rfl plain).hasType

def answerForAWithOpt : Packet :=
  [0, 7, 0x81, 0x80, 0, 1, 0, 1, 0, 0, 0, 1, 1, 97, 0, 0, 1, 0, 1] ++
    [0xc0, 12, 0, 1, 0, 1, 0, 0, 0, 60, 0, 4, 192, 0, 2, 1] ++ [0, 0, 41, 4, 208, 0, 0, 0, 0, 0, 0]

def oneAfterAnother (query answer : Packet) : List QueryAction :=
  [.start 0 query .full none ⟨none, none⟩, .loadGeneration 0] ++ sendActions 0 ++
    [.exchange 0 (answeringIo answer 30), .cacheInsert 0 0 .asListed, .publish 0, .unregister 0] ++
    askActions 1 ++ [.cacheGet 1 0]

theorem plain_answers_twice : ∃ state : Queries,
    Reaches Queries.step LooksUpOwnKind (.start globalResolver 2) state ∧
      state.phases 1 = .done queryForA (.ok answerForA) ∧ Plain queryForA ∧ state.AnswersPlainly := by
  have ran : ((oneAfterAnother queryForA answerForAWithOpt).foldlM (fun state action =>
      if LooksUpOwnKind state action then state.step action else none)
      (.start globalResolver 2)).map (fun state => state.phases 1) =
      some (.done queryForA (.ok answerForA)) := by
    decide
  obtain ⟨state, reached, answered⟩ := Option.map_eq_some_iff.1 ran
  have run := Reaches.of_checked _ reached
  exact ⟨state, run, answered, by decide,
    plain_answers globalResolver 2 64 (7200 * nanosPerSecond) 0 true state run⟩

theorem plain_answered_with_opt : ∃ state : Queries,
    Reaches Queries.step (fun _ _ => True) (.start globalResolver 2) state ∧
      state.phases 1 = .done queryForA (.ok answerForAWithOpt) ∧ ¬ state.AnswersPlainly := by
  have ran : ((oneAfterAnother (queryForAWithOpt 4 208) answerForAWithOpt).foldlM Queries.step
      (.start globalResolver 2)).map (fun state => state.phases 1) =
      some (.done queryForA (.ok answerForAWithOpt)) := by
    decide
  obtain ⟨state, reached, answered⟩ := Option.map_eq_some_iff.1 ran
  refine ⟨state, Reaches.of_actions _ (fun _ _ _ => trivial) reached, answered, fun plainly => ?_⟩
  exact absurd (plainly 1 queryForA answerForAWithOpt answered (by decide)) (by decide)

end Resolved.Proof.Exchange
