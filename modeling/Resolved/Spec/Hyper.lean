import Resolved.Lib.Transition
import Resolved.Hyper.Lead

/-!
# The concurrent resolver

Its calls, the race of each of them, and the packets that win it.
-/

/-!
## Calls of the concurrent resolver

Any number of calls of `resolve` run at once. A step is one access to what they share, and a call
can be dropped while it awaits. What the cache holds and what `resolve_lead` returns is arbitrary
here.
-/

namespace Resolved.Spec
open Lib Hyper

inductive ResolvePhase where
  | idle
  | waiting (name : NameKey) (qtype qclass : UInt16)
  | admitted (key : CacheKey)
  | missed (key : CacheKey)
  | following (key : CacheKey) (flight : FlightId)
  | leading (key : CacheKey) (flight : FlightId)
  | sending (flight : FlightId) (result : HResult RrMeta)
  | done (result : HResult RrMeta)
  | dropped
deriving DecidableEq

structure ResolveCalls where
  dnssec : DnssecMode
  permits : Nat
  flights : Singleflight
  phases : Nat → ResolvePhase

inductive ResolveAction where
  | start (call : Nat) (name : NameKey) (qtype qclass : UInt16)
  | acquire (call : Nat)
  | cacheGet (call : Nat) (found : Option (RrMeta × Bool))
  | joinOrLead (call : Nat)
  | finish (call : Nat) (result : HResult RrMeta)
  | send (call : Nat)
  | recv (call : Nat)
  | drop (call : Nat)
deriving DecidableEq

namespace ResolveCalls

def start (dnssec : DnssecMode) (maxInflight : Nat) : ResolveCalls :=
  ⟨dnssec, maxInflight, .new, fun _ => .idle⟩

variable (state : ResolveCalls)

def moved (call : Nat) (phase : ResolvePhase) : ResolveCalls :=
  { state with phases := Function.update state.phases call phase }

def released (call : Nat) (phase : ResolvePhase) : ResolveCalls :=
  { state.moved call phase with permits := state.permits + 1 }

def fromCache (found : RrMeta) : HResult RrMeta :=
  if found.dnssec = .bogus ∧ state.dnssec = .yes then .error .dnssecBogus else .ok found

def received : Option FlightResult → HResult RrMeta
  | some (.ok found) => .ok found
  | some (.error ()) => .error .allUpstreamsFailed
  | none => .error .cancelled

def step (state : ResolveCalls) : ResolveAction → Option ResolveCalls
  | .start call name qtype qclass =>
    match state.phases call with
    | .idle => some (state.moved call (.waiting name qtype qclass))
    | _ => none
  | .acquire call =>
    match state.phases call, state.permits with
    | .waiting name qtype qclass, permits + 1 =>
      some { state.moved call (.admitted ⟨name, qtype, qclass, state.dnssec = .no⟩) with
        permits := permits }
    | _, _ => none
  | .cacheGet call found =>
    match state.phases call with
    | .admitted key =>
      match found with
      | some (found, _) => some (state.released call (.done (state.fromCache found)))
      | none => some (state.moved call (.missed key))
    | _ => none
  | .joinOrLead call =>
    match state.phases call with
    | .missed key =>
      match state.flights.joinOrLead key with
      | (.follow flight, flights) =>
        some { state.moved call (.following key flight) with flights := flights }
      | (.lead flight, flights) =>
        some { state.moved call (.leading key flight) with flights := flights }
    | _ => none
  | .finish call result =>
    match state.phases call with
    | .leading key flight =>
      some { state.moved call (.sending flight result) with flights := state.flights.finish key }
    | _ => none
  | .send call =>
    match state.phases call with
    | .sending flight result =>
      some { state.released call (.done result) with
        flights := state.flights.send flight (result.mapError fun _ => ()) }
    | _ => none
  | .recv call =>
    match state.phases call with
    | .following _ flight => do
      let item ← state.flights.recv flight
      return state.released call (.done (received item))
    | _ => none
  | .drop call =>
    match state.phases call with
    | .waiting .. => some (state.moved call .dropped)
    | .following .. => some (state.released call .dropped)
    | .leading _ flight =>
      some { state.released call .dropped with flights := state.flights.dropSender flight }
    | _ => none

structure Attended : Prop where
  led : ∀ key flight, state.flights.inner key = some flight → ∃ call, state.phases call = .leading key flight
  served : ∀ call key flight, state.phases call = .following key flight →
    (∃ leader, state.phases leader = .leading key flight) ∨
      (∃ leader result, state.phases leader = .sending flight result) ∨
      ((state.flights.channels flight).sent).isSome

def DropsLeader (start : ResolveCalls) (actions : List ResolveAction) : Prop :=
  ∃ earlier later state call key flight, actions = earlier ++ .drop call :: later ∧
    earlier.foldlM step start = some state ∧ state.phases call = .leading key flight

end ResolveCalls

/-!
## The race and its tasks

`race` spawns one task for each upstream. The tasks hold pointers to the transport and to the
closure `validate`, which live as long as `race` does. The steps of `race` and of the tasks
interleave in any order; where a `select!` has two ready branches, both are steps.
-/

structure RaceSetup where
  upstreams : List Upstream
  validate : Bytes → Upstream → HResult Unit
  overall : Nat

inductive TaskPhase where
  | unspawned
  | sleeping
  | checking
  | checked
  | exchanging (id : UInt16)
  | received (id : UInt16) (raw : Bytes)
  | sending (item : HResult PacketView)
  | done
deriving DecidableEq

def reachesValidate (id : UInt16) (raw : Bytes) : Bool :=
  idPasses id raw && Wire.dnsHeaderLen ≤ raw.length

def TaskPhase.canRead (cancelled : Bool) : TaskPhase → Bool
  | sleeping | checking => !cancelled
  | checked | exchanging _ => true
  | received id raw => reachesValidate id raw
  | unspawned | sending _ | done => false

inductive RacePhase where
  | spawning (next : Nat)
  | receiving (lastErr : HyperError)
  | resolved (result : HResult PacketView)
  | returning (result : HResult PacketView)
  | returned (result : HResult PacketView)
  | dropped
deriving DecidableEq

def RacePhase.ended : RacePhase → Bool
  | returned _ | dropped => true
  | spawning _ | receiving _ | resolved _ | returning _ => false

structure Race where
  phase : RacePhase
  cancelled : Bool
  tasks : Nat → TaskPhase
  channel : Option (HResult PacketView)

inductive RaceAction where
  | spawn
  | await
  | recv
  | timeout
  | cancel
  | return
  | drop
  | wake (task : Nat)
  | giveUp (task : Nat)
  | check (task : Nat)
  | exchange (task : Nat) (id : UInt16)
  | poll (task : Nat)
  | reply (task : Nat) (response : HResult Bytes)
  | interrupt (task : Nat)
  | accept (task : Nat)
  | send (task : Nat)
deriving DecidableEq

namespace Race

def start (setup : RaceSetup) : Race :=
  ⟨if setup.upstreams = [] then .returned (.error .allUpstreamsFailed) else .spawning 0, false,
    fun _ => .unspawned, none⟩

variable (state : Race)

def moved (task : Nat) (phase : TaskPhase) : Race :=
  { state with tasks := Function.update state.tasks task phase }

def closed (setup : RaceSetup) : Bool :=
  state.channel.isNone && (List.range setup.upstreams.length).all (state.tasks · = .done)

def step (setup : RaceSetup) (state : Race) : RaceAction → Option Race
  | .spawn =>
    match state.phase with
    | .spawning next =>
      if next < setup.upstreams.length then
        some { state.moved next (if next = 0 then .checking else .sleeping) with
          phase := .spawning (next + 1) }
      else none
    | _ => none
  | .await =>
    match state.phase with
    | .spawning next =>
      if next = setup.upstreams.length then
        some { state with phase := .receiving .allUpstreamsFailed }
      else none
    | _ => none
  | .recv =>
    match state.phase with
    | .receiving lastErr =>
      match state.channel with
      | some item =>
        match onItem lastErr item with
        | .inl result =>
          some { state with phase := .resolved result, cancelled := true, channel := none }
        | .inr lastErr => some { state with phase := .receiving lastErr, channel := none }
      | none =>
        if state.closed setup then some { state with phase := .resolved (.error lastErr) }
        else none
    | _ => none
  | .timeout =>
    match state.phase with
    | .receiving _ => some { state with phase := .resolved (.error (.timeout setup.overall)) }
    | _ => none
  | .cancel =>
    match state.phase with
    | .resolved result => some { state with phase := .returning result, cancelled := true }
    | _ => none
  | .return =>
    match state.phase with
    | .returning result => some { state with phase := .returned result }
    | _ => none
  | .drop =>
    -- the token is dropped with the future, which cancels nothing
    match state.phase with
    | .receiving _ => some { state with phase := .dropped }
    | _ => none
  | .wake task =>
    match state.tasks task with
    | .sleeping => some (state.moved task .checking)
    | _ => none
  | .giveUp task =>
    match state.tasks task with
    | .sleeping => if state.cancelled then some (state.moved task .done) else none
    | _ => none
  | .check task =>
    match state.tasks task with
    | .checking => some (state.moved task (if state.cancelled then .done else .checked))
    | _ => none
  | .exchange task id =>
    match state.tasks task with
    | .checked => some (state.moved task (.exchanging id))
    | _ => none
  | .poll task =>
    match state.tasks task with
    | .exchanging _ => some state
    | _ => none
  | .reply task response =>
    match state.tasks task with
    | .exchanging id =>
      match response with
      | .ok raw => some (state.moved task (.received id raw))
      | .error error => some (state.moved task (.sending (.error error)))
    | _ => none
  | .interrupt task =>
    match state.tasks task with
    | .exchanging _ =>
      if state.cancelled then some (state.moved task (.sending (.error .cancelled))) else none
    | _ => none
  | .accept task =>
    match state.tasks task, setup.upstreams[task]? with
    | .received id raw, some up =>
      some (state.moved task (.sending (attemptItem setup.validate up id raw)))
    | _, _ => none
  | .send task =>
    match state.tasks task with
    | .sending item =>
      if state.phase.ended then some (state.moved task .done)
      else match state.channel with
        | none => some { state.moved task .done with channel := some item }
        | some _ => none
    | _ => none

def reads : RaceAction → Bool
  | .exchange .. | .poll _ | .reply .. => true
  | .accept task =>
    match state.tasks task with
    | .received id raw => reachesValidate id raw
    | _ => false
  | _ => false

def ReadsLate (setup : RaceSetup) (actions : List RaceAction) : Prop :=
  ∃ earlier action later state, actions = earlier ++ action :: later ∧
    earlier.foldlM (step setup) (start setup) = some state ∧ state.phase.ended = true ∧
    (state.step setup action).isSome = true ∧ state.reads action = true

def CanRead (task : Nat) : Prop := (state.tasks task).canRead state.cancelled = true

end Race

/-! ## Answers to the question that was asked -/

open Wire

abbrev TransportBehaviour := Upstream → Bytes → Bytes → Prop

def Delivers (transport : TransportBehaviour) (rounds : Nat → Round) : Prop :=
  ∀ n task up sent raw, (rounds n).exchange task up sent = .ok raw → transport up sent raw

def EchoesQuestion (sent packet : Bytes) : Prop :=
  readU16 packet 4 = .ok 1 ∧ ∃ asked question, parseQuestion sent dnsHeaderLen = .ok asked ∧
    parseQuestion packet dnsHeaderLen = .ok question ∧ question.name.canonicalWire = asked.name.canonicalWire ∧
    question.rrType = asked.rrType ∧ question.cls = asked.cls

def AnswersQuery (sent packet : Bytes) : Prop :=
  packet.take 2 = sent.take 2 ∧ EchoesQuestion sent packet

/-- What a packet needs to be used as the response to a query: a header, the id, the QR bit, room
in the arena, and an answer section that can be searched for a CNAME with `target`. -/
structure UsableResponse (name : NameKey) (qtype : UInt16) (sent raw : Bytes)
    (target : Option NameKey) : Prop where
  header : dnsHeaderLen ≤ raw.length
  room : raw.length ≤ 2 * 1024 * 1024
  id : raw.take 2 = sent.take 2
  response : raw.getD 2 0 &&& 0x80 ≠ 0
  searched : if qtype.toNat ≠ typeCname ∧ u16At raw 2 &&& 0x000f = rcodeNoerror then
      extractCnameTarget raw name = .ok target
    else target = none

/-- Packets are used only for the query that was sent and stored only for the question they have. -/
def UsesAnswers (run : LeadRun) : Prop :=
  (∀ won ∈ run.accepted, AnswersQuery won.sent won.packet.raw) ∧
    ∀ entry ∈ run.puts, EchoesQuestion (query 0 entry.1.name entry.1.qtype entry.1.qclass)
      entry.2.answer

/-- No reply leads by a CNAME to another name for which a last reply comes. -/
def EndsNoAlias (transport : TransportBehaviour) (name : NameKey) (qtype qclass : UInt16)
    (target : Option NameKey) : Prop :=
  ∀ current, target = some current → current ≠ name → ∀ up id raw,
    transport up (query id current qtype qclass) raw →
    ¬UsableResponse current qtype (query id current qtype qclass) raw none

end Resolved.Spec
