import Resolved.Proof.Exchange.SentQuery
import Resolved.Proof.Exchange.StrictTls
import Resolved.Proof.Exchange.Turn

/-!
# Strict DNSSEC
-/

namespace Resolved.Proof.Exchange
open Lib Resolved.Wire Resolved.Edns Resolved.Routing Resolved.Links Resolved.Exchange Spec Proof.Wire

variable {features : ServerFeatureState} {now start : Nat} {setup : Setup} {io : Turn}
  {s : LoopState}

theorem le_dnssecOk (level : FeatureLevel) : level ≤ .dnssecOk := by
  cases level <;> decide

theorem capped_dnssecOk (features : ServerFeatureState) :
    (features.capped .dnssecOk).possible = .dnssecOk ↔ features.possible = .dnssecOk ∧ features.badOpt = false := by
  have low : ∀ s : ServerFeatureState, ¬ s.possible > .dnssecOk := fun s =>
    not_lt.2 (le_dnssecOk s.possible)
  simp only [ServerFeatureState.capped, low, if_false]
  split
  · rename_i bad
    simp only [Bool.and_eq_true] at bad
    simp [bad.1]
  · rename_i good
    constructor
    · intro high
      simp only [high, FeatureLevel.usesEdns, Bool.and_true, Bool.not_eq_true] at good
      exact ⟨high, good⟩
    · exact fun high => high.1

theorem capped_kept (features : ServerFeatureState) (best : FeatureLevel) :
    (features.capped best).badOpt = features.badOpt ∧ (features.capped best).retryAfter = features.retryAfter := by
  unfold ServerFeatureState.capped
  split <;> simp only <;> split <;> simp

theorem possibleLevel_dnssecOk (features : ServerFeatureState) (now : Nat) :
    (features.possibleLevel .dnssecOk now).possible = .dnssecOk ↔ Capable features now := by
  obtain ⟨-, retryAfter⟩ := capped_kept features .dnssecOk
  have due : (features.capped .dnssecOk).retryDue now = features.retryDue now := by
    simp only [ServerFeatureState.retryDue, retryAfter]
  unfold Capable
  rw [← capped_dnssecOk]
  unfold ServerFeatureState.possibleLevel
  simp only [due]
  split
  · rename_i retried
    simp [retried.2]
  · rename_i kept
    constructor
    · exact .inl
    · rintro (high | due)
      · exact high
      · by_contra lower
        exact kept ⟨lt_of_le_of_ne (le_dnssecOk _) lower, due⟩

theorem possibleLevel_badOpt (high : (features.possibleLevel .dnssecOk now).possible = .dnssecOk) :
    (features.possibleLevel .dnssecOk now).badOpt = false := by
  unfold ServerFeatureState.possibleLevel at high ⊢
  simp only at high ⊢
  split
  · rfl
  · rename_i kept
    rw [if_neg kept] at high
    rw [(capped_kept features .dnssecOk).1]
    exact ((capped_dnssecOk features).1 high).2

theorem capable_mono (capable : Capable features start) (later : start ≤ now) : Capable features now := by
  rcases capable with high | due
  · exact .inl high
  · right
    simp only [ServerFeatureState.retryDue, Option.any_eq_true, decide_eq_true_eq] at due ⊢
    obtain ⟨retryAfter, set, past⟩ := due
    exact ⟨retryAfter, set, past.trans later⟩

def StaysHigh (start : Nat) (s : LoopState) : Prop :=
  (s.retry.forcedLevel = none ∨ s.retry.forcedLevel = some .dnssecOk) ∧ Capable s.server.features start

theorem useTls_features (setup : Setup) (io : Turn) (server : ServerState) :
    (useTls setup io server).2.features = server.features := by
  unfold useTls
  split <;> rfl

theorem turnLevel_high (strict : setup.dnssecMode = .yes) (later : start ≤ io.levelNow)
    (high : StaysHigh start s) :
    (turnLevel setup io s).1 = .dnssecOk ∧ Capable (turnLevel setup io s).2.features start := by
  obtain ⟨forced, capable⟩ := high
  unfold turnLevel currentLevel
  rcases forced with none | some
  · simp only [none, Setup.strictDnssec, strict, decide_true, Bool.not_true, Bool.false_eq_true,
      and_false, if_false, preferredFeatureLevel, reduceCtorEq, useTls_features]
    have level := (possibleLevel_dnssecOk _ _).2 (capable_mono capable later)
    exact ⟨level, .inl ⟨level, possibleLevel_badOpt level⟩⟩
  · simp only [some, useTls_features, capable, and_self]

theorem responseMatches_parsed {query response : Packet} (h : responseMatches query response = .ok ()) :
    ∃ sections, parseSections query = .ok sections := by
  simp only [responseMatches, bind_eq_ok] at h
  obtain ⟨_, valid, -⟩ := h
  simp only [validate, bind_eq_ok] at valid
  obtain ⟨sections, parsed, -⟩ := valid
  exact ⟨sections, parsed⟩

theorem getLast?_append_bind {α β : Type} {f : α → Option β} {front rear : List α} {value : β}
    (last : rear.getLast?.bind f = some value) : (front ++ rear).getLast?.bind f = some value := by
  cases final : rear.getLast? with
  | none => simp [final] at last
  | some call =>
    rw [final] at last
    rw [List.getLast?_append, final]
    exact last

theorem exchangeTurn_strictDnssec (strict : setup.dnssecMode = .yes) (untagged : Untagged setup.query)
    (later : start ≤ io.levelNow) (high : StaysHigh start s) :
    (∀ calls ended, exchangeTurn setup io s = (calls, .done ended) → DnssecOnly setup.query (calls, ended)) ∧
    ∀ calls s', exchangeTurn setup io s = (calls, .again s') → StaysHigh start s' := by
  have mode : setup.strictDnssec = true := by simp [Setup.strictDnssec, strict]
  obtain ⟨level, capable⟩ := turnLevel_high strict later high
  rcases exchangeTurn_cases setup io s with ⟨error, server, ended, -⟩ |
    ⟨tls, size, outbound, budget, remaining, made, prepared, -, run⟩
  · constructor
    · intro calls ended' turn answer ok
      rw [turn] at ended
      cases ended
      cases ok
    · intro calls s' turn
      rw [turn] at ended
      cases ended
  · rw [level] at prepared run
    obtain ⟨managed, sent, carries⟩ := prepareQuery_dnssecOk prepared untagged
    have spec := receive_spec setup io tls .dnssecOk outbound
      ⟨s.retry, budget, (turnLevel setup io s).2⟩
    have judged := judge_judged setup io .dnssecOk outbound s.retry budget
    constructor
    · intro calls ended turn answer ok
      rw [run, Prod.mk.injEq] at turn
      obtain ⟨rfl, verdict⟩ := turn
      rcases verdictOf_bind _ _ with ⟨_, stopped, same⟩ | ⟨received, _, got, decided, same⟩
      · rw [same.symm.trans verdict] at stopped
        obtain ⟨error, failed⟩ := spec.ended ended stopped
        rw [failed] at ok
        cases ok
      · rw [same.symm.trans verdict] at decided
        obtain ⟨made, matched, -⟩ := spec.received received got
        obtain ⟨answered, answers⟩ := judged received _ decided answer ok
        refine ⟨outbound.packet, received.response, ?_, answered, ?_, answers mode managed sent rfl⟩
        · exact getLast?_append_bind made
        · obtain ⟨sections, parsed⟩ := responseMatches_parsed matched
          exact carries sections parsed
    · intro calls s' turn
      rw [run, Prod.mk.injEq] at turn
      rcases verdictOf_bind _ _ with ⟨_, stopped, same⟩ | ⟨received, _, got, decided, same⟩
      · rw [same.symm.trans turn.2] at stopped
        obtain ⟨-, kept⟩ := spec.again s' stopped
        obtain ⟨forced, features⟩ := kept mode
        exact ⟨by rw [forced]; exact high.1, by rw [features]; exact capable⟩
      · rw [same.symm.trans turn.2] at decided
        obtain ⟨-, kept⟩ := judged received _ decided
        obtain ⟨forced, features⟩ := kept mode
        refine ⟨.inr forced, ?_⟩
        rw [features, (spec.received received got).2.2]
        exact capable

def queryForA : Packet := [0, 7, 1, 0, 0, 1, 0, 0, 0, 0, 0, 0, 1, 97, 0, 0, 1, 0, 1]

def queryForAWithOpt (high low : UInt8) : Packet :=
  [0, 7, 1, 0, 0, 1, 0, 0, 0, 0, 0, 1, 1, 97, 0, 0, 1, 0, 1, 0, 0, 41, high, low, 0, 0, 0, 0, 0, 0]

def answerWithoutDo : Packet :=
  [0, 7, 0x81, 0x80, 0, 1, 0, 0, 0, 0, 0, 1, 1, 97, 0, 0, 1, 0, 1, 0, 0, 41, 4, 208, 0, 0, 0, 0, 0, 0]

def answerForClient : Packet :=
  [0, 7, 0x81, 0x80, 0, 1, 0, 0, 0, 0, 0, 0, 1, 97, 0, 0, 1, 0, 1]

def answeringWorld (start sent : Nat) : Nat → Turn := fun _ => {
  tlsNow := start
  pathMtu := none
  levelNow := start
  attemptNow := 0
  tls := ⟨.ok false, .ok answerWithoutDo, false, .ok (), .ok answerWithoutDo⟩
  udp := ⟨.ok (), .ok sent, [(answerWithoutDo, 0)], .timedOut⟩
  fallbackNow := 0
  tcp := ⟨.ok false, .ok answerWithoutDo, false, .ok (), .ok answerWithoutDo⟩
  recordNow := start }

theorem queryForA_read : validate queryForA false = .ok () ∧ scanPacket queryForA = .ok ⟨none, false⟩ ∧
    Header.parse queryForA = .ok ⟨7, 0x100, 1, 0, 0, 0⟩ ∧ responseMatches queryForA answerWithoutDo = .ok () := by
  decide

theorem answerWithoutDo_read : validate answerWithoutDo true = .ok () ∧
    Header.parse answerWithoutDo = .ok ⟨7, 0x8180, 1, 0, 0, 1⟩ ∧
    firstQuestion answerWithoutDo = .ok ⟨⟨['a'], [1, 97, 0]⟩, 1, 1, 19⟩ ∧
    inspectOpt answerWithoutDo = .ok (some ⟨1232, 0, 0, 0, []⟩) ∧
    fullRcode answerWithoutDo (some ⟨1232, 0, 0, 0, []⟩) = .ok 0 ∧
    responseForClient queryForA answerWithoutDo = .ok answerForClient := by
  decide

set_option maxRecDepth 10000 in
theorem queryForAWithOpt_parsed (high low : UInt8) : parseSections (queryForAWithOpt high low) =
    .ok ⟨⟨7, 0x100, 1, 0, 0, 1⟩, [⟨⟨['a'], [1, 97, 0]⟩, 1, 1, 19⟩],
      [⟨⟨['.'], [0]⟩, 41, be16 high low, 0, 24, 30, [], 30⟩], 30⟩ := by rfl

theorem queryForAWithOpt_matches (high low : UInt8) :
    responseMatches (queryForAWithOpt high low) answerWithoutDo = .ok () := by
  obtain ⟨valid', header', question', -⟩ := answerWithoutDo_read
  obtain ⟨header, middle, questions, -⟩ :=
    parseSections_eq_ok.1 (queryForAWithOpt_parsed high low)
  obtain ⟨question, rest, same, first, -⟩ := parseQuestions_succ_eq_ok.1 questions
  obtain ⟨rfl, rfl⟩ := List.cons.inj same
  have valid : validate (queryForAWithOpt high low) false = .ok () := by
    simp only [validate, queryForAWithOpt_parsed, ok_bind]
    rfl
  have asked : firstQuestion (queryForAWithOpt high low) =
      .ok ⟨⟨['a'], [1, 97, 0]⟩, 1, 1, 19⟩ := by
    simp only [firstQuestion, header, ok_bind]
    exact first
  simp only [responseMatches, valid, valid', header, header', asked, question', ok_bind]
  rfl

theorem prepared_lower (lower : level ≠ .dnssecOk) (size : Nat) :
    ∃ outbound, prepareQuery queryForA level size = .ok outbound ∧ outbound.managedOpt = true ∧
      outbound.packet.length = (if level = .udp then 19 else 30) ∧
      responseMatches outbound.packet answerWithoutDo = .ok () := by
  obtain ⟨valid, scanned, header, matched⟩ := queryForA_read
  cases level with
  | udp =>
    refine ⟨⟨queryForA, false, true⟩, ?_, rfl, rfl, matched⟩
    simp [prepareQuery, valid, scanned, FeatureLevel.usesEdns]
  | edns0 =>
    refine ⟨⟨queryForAWithOpt (UInt8.ofNat (max size 512 / 256)) (UInt8.ofNat (max size 512)), true,
      true⟩, ?_, rfl, rfl, queryForAWithOpt_matches _ _⟩
    have encoded : queryOpt .edns0 size = .ok ([0, 0, 41, UInt8.ofNat (max size 512 / 256),
      UInt8.ofNat (max size 512), 0, 0, 0, 0, 0, 0]) := rfl
    simp only [prepareQuery, valid, scanned, encoded, appendOpt, header, ok_bind]
    rfl
  | dnssecOk => exact absurd rfl lower

theorem receive_answering (setup : Setup) (start : Nat) (tls : Bool) (level : FeatureLevel)
    (outbound : PreparedQuery) (s : LoopState) (index : Nat) (small : outbound.packet.length ≤ 65535)
    (matched : responseMatches outbound.packet answerWithoutDo = .ok ()) :
    ∃ received, (receive setup (answeringWorld start outbound.packet.length index) tls level outbound
      s).2 = .ok received ∧ received.response = answerWithoutDo := by
  obtain ⟨-, header, -⟩ := answerWithoutDo_read
  have framed : ∀ texts, exchangeOnStream texts outbound.packet (.ok answerWithoutDo) =
      .ok answerWithoutDo := by
    intro texts
    simp only [exchangeOnStream, not_lt.2 small, if_false, matched, header, wireResult]
    rfl
  have overTls : exchangeTls outbound.packet (answeringWorld start outbound.packet.length index).tls =
      .ok answerWithoutDo := by
    simp only [exchangeTls, exchangeStreams, answeringWorld, exchangeTlsStream, framed]
  have overTcp : exchangeTcp outbound.packet (answeringWorld start outbound.packet.length index).tcp =
      .ok answerWithoutDo := by
    simp only [exchangeTcp, exchangeStreams, answeringWorld, exchangeTcpStream, framed]
  have overUdp : exchangeUdp outbound.packet (answeringWorld start outbound.packet.length index).udp =
      .ok (answerWithoutDo, 0) := by
    simp [exchangeUdp, answeringWorld, matched, Except.toOption]
  cases tls with
  | true =>
    rw [receive, if_pos rfl, receiveTls, overTls]
    exact ⟨_, rfl, rfl⟩
  | false =>
    rw [receive, if_neg (by simp)]
    cases s.server.transport.mode with
    | udp =>
      simp only [receiveUdp, overUdp, header]
      exact ⟨_, rfl, rfl⟩
    | tcp =>
      rw [receiveTcp, overTcp]
      exact ⟨_, rfl, rfl⟩

theorem judge_answering (asked : setup.query = queryForA) (io : Turn) {level : FeatureLevel}
    (lower : level ≠ .dnssecOk) (outbound : PreparedQuery) (retry : Retry) (budget : DnsAttemptBudget)
    {received : Received} (answered : received.response = answerWithoutDo) :
    ∃ server, judge setup io level outbound retry budget received = finish (.ok answerForClient) budget server := by
  obtain ⟨-, -, -, inspected, rcode, made⟩ := answerWithoutDo_read
  have below : level.isDnssecOk = false := by cases level <;> simp_all [FeatureLevel.isDnssecOk]
  refine ⟨if outbound.managedOpt then recordVerified io level retry.rcodeProbe 0 received
    else received.server, ?_⟩
  have passed : ∀ s, checkOpt setup io level answerWithoutDo (some ⟨1232, 0, 0, 0, []⟩) 0 s =
      .ok () := by
    intro s
    simp [checkOpt, below, rcodeBadvers]
  have quiet : rcodeRequestsFeatureDowngrade 0 = false := rfl
  have fine : (0 : Nat) ≠ rcodeServfail := by decide
  simp only [judge, answered, asked, inspected, rcode, made, orFinish, ok_bind, passed, below, quiet,
    fine, Bool.false_eq_true, and_false, false_and, if_false, ite_self, stageIf, wireResult]

theorem exchange_answering {resolver : Resolver} {key : ServerKey} {server : ServerState}
    (strict : resolver.serverDnssecMode key = .yes) (incapable : ¬ Capable server.features start) :
    ∃ world, After start world ∧ (exchangeWithFeatures resolver key queryForA ⟨0, 1⟩ server world).2.result =
        .ok answerForClient ∧
      ∃ packet, (exchangeWithFeatures resolver key queryForA ⟨0, 1⟩ server world).1.getLast?.bind
        exchanged = some (packet, answerWithoutDo) := by
  generalize setup_eq : setupOf resolver key queryForA = setup
  have asked : setup.query = queryForA := by rw [← setup_eq]; rfl
  have mode : setup.dnssecMode = .yes := by rw [← setup_eq]; exact strict
  -- the level of the first turn does not depend on what the sockets do
  have level : ∀ sent, (turnLevel setup (answeringWorld start sent 0) ⟨.start, ⟨0, 1⟩, server⟩).1 =
      (server.features.possibleLevel .dnssecOk start).possible := by
    intro sent
    simp only [turnLevel, currentLevel, Retry.start, Setup.strictDnssec, mode, decide_true,
      Bool.not_true, Bool.false_eq_true, and_false, if_false, preferredFeatureLevel, reduceCtorEq,
      useTls_features]
    rfl
  have lower : (server.features.possibleLevel .dnssecOk start).possible ≠ .dnssecOk :=
    fun high => incapable ((possibleLevel_dnssecOk _ _).1 high)
  generalize (server.features.possibleLevel .dnssecOk start).possible = low at level lower
  refine ⟨answeringWorld start (if low = .udp then 19 else 30), fun _ => le_rfl, ?_⟩
  rcases exchangeTurn_cases setup (answeringWorld start (if low = .udp then 19 else 30) 0)
    ⟨.start, ⟨0, 1⟩, server⟩ with ⟨-, -, -, ⟨size, failure, failed⟩ | ⟨failure, failed⟩⟩ |
    ⟨tls, size, outbound, budget, remaining, made, prepared, -, run⟩
  · rw [level, asked] at failed
    obtain ⟨outbound, prepared, -⟩ := prepared_lower lower size
    rw [prepared] at failed
    cases failed
  · cases failed
  · rw [level, asked] at prepared
    rw [level] at run
    obtain ⟨outbound', prepared', -, length, matched⟩ := prepared_lower lower size
    obtain rfl : outbound' = outbound := Except.ok.inj (prepared'.symm.trans prepared)
    rw [← length] at run ⊢
    obtain ⟨received, got, answered⟩ := receive_answering setup start tls low outbound'
      ⟨.start, budget, (turnLevel setup (answeringWorld start outbound'.packet.length 0)
        ⟨.start, ⟨0, 1⟩, server⟩).2⟩ 0 (by rw [length]; split <;> omega) matched
    obtain ⟨after, judged⟩ := judge_answering asked
      (answeringWorld start outbound'.packet.length 0) lower outbound' .start budget answered
    have sent := (receive_spec setup (answeringWorld start outbound'.packet.length 0) tls low outbound'
      ⟨.start, budget, (turnLevel setup (answeringWorld start outbound'.packet.length 0)
        ⟨.start, ⟨0, 1⟩, server⟩).2⟩).received received got
    rw [got, ok_bind, judged] at run
    have whole : exchangeWithFeatures resolver key queryForA ⟨0, 1⟩ server
        (answeringWorld start outbound'.packet.length) =
        (made ++ (receive setup (answeringWorld start outbound'.packet.length 0) tls low outbound'
          ⟨.start, budget, (turnLevel setup (answeringWorld start outbound'.packet.length 0)
            ⟨.start, ⟨0, 1⟩, server⟩).2⟩).1, ⟨.ok answerForClient, budget, after⟩) := by
      rw [exchangeWithFeatures, setup_eq]
      exact runTurns_done run
    rw [whole]
    exact ⟨rfl, outbound'.packet, getLast?_append_bind (by rw [sent.1, answered])⟩

/-- Strict DNSSEC mode accepts only DNSSEC exchanges exactly when the server is capable of them at
the beginning. -/
theorem strictDnssec_iff_capable (resolver : Resolver) (key : ServerKey) (server : ServerState) (start : Nat)
    (strict : resolver.serverDnssecMode key = .yes) :
    (∀ query budget world, Untagged query → After start world →
      DnssecOnly query (exchangeWithFeatures resolver key query budget server world)) ↔
      Capable server.features start := by
  constructor
  · intro only
    by_contra incapable
    obtain ⟨world, after, returned, packet, last⟩ := exchange_answering strict incapable
    obtain ⟨-, scanned, -⟩ := queryForA_read
    have untagged : Untagged queryForA := by
      intro layout same
      rw [scanned] at same
      cases same
      rfl
    obtain ⟨packet', response, last', -, -, opt, inspected, -, flag⟩ :=
      only queryForA ⟨0, 1⟩ world untagged after answerForClient returned
    rw [last] at last'
    cases last'
    obtain ⟨-, -, -, inspected', -⟩ := answerWithoutDo_read
    rw [inspected'] at inspected
    cases inspected
    cases flag
  · intro capable query budget world untagged after
    have mode : (setupOf resolver key query).dnssecMode = .yes := strict
    refine runTurns_holds (StaysHigh start) (fun calls ended => DnssecOnly query (calls, ended))
      ?_ ?_ ?_ _ _ _ ⟨.inl rfl, capable⟩
    · intro s _ answer impossible
      cases impossible
    · intro index s calls ended high turn
      exact (exchangeTurn_strictDnssec mode untagged (after index) high).1 calls ended turn
    · intro index s calls s' high turn
      refine ⟨(exchangeTurn_strictDnssec mode untagged (after index) high).2 calls s' turn, ?_⟩
      intro later ended only answer ok
      obtain ⟨packet, response, last, rest⟩ := only answer ok
      exact ⟨packet, response, getLast?_append_bind last, rest⟩

theorem strictDnssec_iff_capable_unknownServer :
    (resolverIn .no .yes).serverDnssecMode globalKey = .yes ∧
    DnssecOnly queryForA (exchangeWithFeatures (resolverIn .no .yes) globalKey queryForA ⟨0, 1⟩
      .default (answeringWorld 0 30)) := by
  refine ⟨rfl, (strictDnssec_iff_capable (resolverIn .no .yes) globalKey .default 0 rfl).2
    (.inl ⟨rfl, rfl⟩) queryForA ⟨0, 1⟩ (answeringWorld 0 30) ?_ fun _ => le_rfl⟩
  intro layout scanned
  rw [queryForA_read.2.1] at scanned
  cases scanned
  rfl

def loweredServer : ServerState :=
  (exchangeWithFeatures (resolverIn .no .no) globalKey queryForA ⟨0, 1⟩ .default
    (answeringWorld 0 30)).2.server

theorem strictDnssec_accepts_plain_answer :
    (resolverIn .no .yes).serverDnssecMode globalKey = .yes ∧ Untagged queryForA ∧
    ¬ DnssecOnly queryForA (exchangeWithFeatures (resolverIn .no .yes) globalKey queryForA ⟨0, 1⟩
      loweredServer (answeringWorld 0 30)) := by
  refine ⟨rfl, ?_, ?_⟩
  · intro layout scanned
    rw [queryForA_read.2.1] at scanned
    cases scanned
    rfl
  · intro only
    obtain ⟨packet, response, last, -, -, opt, inspected, -, flag⟩ :=
      only answerForClient (by decide)
    have sent : (exchangeWithFeatures (resolverIn .no .yes) globalKey queryForA ⟨0, 1⟩ loweredServer
        (answeringWorld 0 30)).1.getLast?.bind exchanged =
        some (queryForAWithOpt 4 208, answerWithoutDo) := by decide
    rw [sent] at last
    cases last
    rw [answerWithoutDo_read.2.2.2.1] at inspected
    cases inspected
    cases flag

end Resolved.Proof.Exchange
