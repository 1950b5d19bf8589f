import Resolved.Spec.Hyper

/-!
# A flight that somebody completes
-/

namespace Resolved.Proof.Hyper
open Lib Resolved.Hyper Spec

variable {state state' : ResolveCalls} {action : ResolveAction} {permits call other : Nat}
  {flights : Singleflight} {phase found : ResolvePhase}

namespace Singleflight
variable (flights : Singleflight)

@[simp] theorem dropSender_sent (flight other : FlightId) :
    ((flights.dropSender flight).channels other).sent = (flights.channels other).sent := by
  by_cases same : other = flight <;> simp [Singleflight.dropSender, same]

theorem finish_inner (key : CacheKey) : (flights.finish key).inner = Function.update flights.inner key none := by
  unfold Singleflight.finish
  split
  · rfl
  · rename_i absent
    exact (Function.update_eq_self_iff.2 absent.symm).symm

theorem finish_found {key other : CacheKey} {flight : FlightId}
    (found : (flights.finish key).inner other = some flight) : other ≠ key ∧ flights.inner other = some flight := by
  rw [finish_inner] at found
  rcases eq_or_ne other key with rfl | apart
  · rw [Function.update_self] at found
    cases found
  · rw [Function.update_of_ne apart] at found
    exact ⟨apart, found⟩

@[simp] theorem finish_fresh (key : CacheKey) : (flights.finish key).fresh = flights.fresh := by
  unfold Singleflight.finish
  split <;> rfl

@[simp] theorem finish_sent (key : CacheKey) (other : FlightId) :
    ((flights.finish key).channels other).sent = (flights.channels other).sent := by
  unfold Singleflight.finish
  split
  · exact dropSender_sent flights _ other
  · rfl

theorem send_sent (flight other : FlightId) (result : FlightResult) :
    ((flights.send flight result).channels other).sent =
      if other = flight then some result else (flights.channels other).sent := by
  unfold Singleflight.send
  rw [dropSender_sent]
  by_cases same : other = flight <;> simp [same]

end Singleflight

namespace ResolveCalls

def Leads : ResolvePhase → Prop
  | .leading .. => True
  | _ => False

def Follows : ResolvePhase → Prop
  | .following .. => True
  | _ => False

def Sends : ResolvePhase → Prop
  | .sending .. => True
  | _ => False

abbrev after (state : ResolveCalls) (permits : Nat) (flights : Singleflight) (call : Nat)
    (phase : ResolvePhase) : ResolveCalls :=
  ⟨state.dnssec, permits, flights, Function.update state.phases call phase⟩

inductive Moves (state : ResolveCalls) : ResolveAction → ResolveCalls → Prop
  | aside {action : ResolveAction} (permits call : Nat) (phase : ResolvePhase)
      (old : ¬Leads (state.phases call) ∧ ¬Sends (state.phases call))
      (new : ¬Leads phase ∧ ¬Follows phase) :
      Moves state action (after state permits state.flights call phase)
  | follow {call : Nat} (key : CacheKey) (flight : FlightId)
      (old : state.phases call = .missed key) (present : state.flights.inner key = some flight) :
      Moves state (.joinOrLead call)
        (after state state.permits state.flights call (.following key flight))
  | lead {call : Nat} (key : CacheKey)
      (old : state.phases call = .missed key) (absent : state.flights.inner key = none) :
      Moves state (.joinOrLead call)
        (after state state.permits (state.flights.joinOrLead key).2 call
          (.leading key state.flights.fresh))
  | finish {call : Nat} {result : HResult RrMeta} (key : CacheKey) (flight : FlightId)
      (old : state.phases call = .leading key flight) :
      Moves state (.finish call result)
        (after state state.permits (state.flights.finish key) call (.sending flight result))
  | send {call : Nat} (flight : FlightId) (result : HResult RrMeta) (sent : FlightResult)
      (old : state.phases call = .sending flight result) :
      Moves state (.send call)
        (after state (state.permits + 1) (state.flights.send flight sent) call (.done result))
  | dropLeader {call : Nat} (key : CacheKey) (flight : FlightId)
      (old : state.phases call = .leading key flight) :
      Moves state (.drop call)
        (after state (state.permits + 1) (state.flights.dropSender flight) call .dropped)

theorem step_moves (stepped : state.step action = some state') : Moves state action state' := by
  cases action with simp only [ResolveCalls.step] at stepped
  | start call name qtype qclass =>
    split at stepped
    · rename_i old
      cases stepped
      exact .aside state.permits call _ (by simp [old, Leads, Sends]) (by simp [Leads, Follows])
    · cases stepped
  | acquire call =>
    split at stepped
    · rename_i old _
      cases stepped
      exact .aside _ call _ (by simp [old, Leads, Sends]) (by simp [Leads, Follows])
    · cases stepped
  | cacheGet call found =>
    split at stepped
    · rename_i old
      have quiet : ¬Leads (state.phases call) ∧ ¬Sends (state.phases call) := by
        simp [old, Leads, Sends]
      split at stepped <;> cases stepped
      · exact .aside _ call _ quiet (by simp [Leads, Follows])
      · exact .aside _ call _ quiet (by simp [Leads, Follows])
    · cases stepped
  | joinOrLead call =>
    split at stepped
    · rename_i key old
      cases present : state.flights.inner key with
      | some flight =>
        simp only [Singleflight.joinOrLead, present] at stepped
        cases stepped
        exact .follow key flight old present
      | none =>
        have lead := Moves.lead key old present
        simp only [Singleflight.joinOrLead, present] at stepped lead
        cases stepped
        exact lead
    · cases stepped
  | finish call result =>
    split at stepped
    · rename_i key flight old
      cases stepped
      exact .finish key flight old
    · cases stepped
  | send call =>
    split at stepped
    · rename_i flight result old
      cases stepped
      exact .send flight result _ old
    · cases stepped
  | recv call =>
    split at stepped
    · rename_i old
      simp only [Option.bind_eq_bind, Option.bind_eq_some_iff] at stepped
      obtain ⟨item, -, moved⟩ := stepped
      cases moved
      exact .aside _ call _ (by simp [old, Leads, Sends]) (by simp [Leads, Follows])
    · cases stepped
  | drop call =>
    split at stepped
    · rename_i old
      cases stepped
      exact .aside state.permits call _ (by simp [old, Leads, Sends]) (by simp [Leads, Follows])
    · rename_i old
      cases stepped
      exact .aside _ call _ (by simp [old, Leads, Sends]) (by simp [Leads, Follows])
    · rename_i key flight old
      cases stepped
      exact .dropLeader key flight old
    · cases stepped

structure Registered (state : ResolveCalls) : Prop where
  entry : ∀ call key flight, state.phases call = .leading key flight → state.flights.inner key = some flight
  alone : ∀ call other key flight flight', state.phases call = .leading key flight →
    state.phases other = .leading key flight' → call = other
  known : ∀ key flight, state.flights.inner key = some flight → flight < state.flights.fresh
  joined : ∀ call key flight, state.phases call = .following key flight → flight < state.flights.fresh

theorem registered_start (dnssec : DnssecMode) (maxInflight : Nat) : Registered (.start dnssec maxInflight) := by
  constructor <;> intros <;> simp_all [ResolveCalls.start, Singleflight.new]

theorem phase_after :
    (after state permits flights call phase).phases other = found ↔
      (other = call ∧ phase = found) ∨ (other ≠ call ∧ state.phases other = found) := by
  by_cases same : other = call <;> simp [same]

theorem phase_before (held : (after state permits flights call phase).phases other = found)
    (new : phase ≠ found) : state.phases other = found := by
  rcases phase_after.1 held with ⟨-, same⟩ | ⟨-, kept⟩
  · exact absurd same new
  · exact kept

theorem Registered.of_leading (registered : Registered state)
    (leading : ∀ call key flight, state'.phases call = .leading key flight →
      state.phases call = .leading key flight ∧ state'.flights.inner key = state.flights.inner key)
    (inner : ∀ key flight, state'.flights.inner key = some flight → state.flights.inner key = some flight)
    (fresh : state'.flights.fresh = state.flights.fresh)
    (following : ∀ call key flight, state'.phases call = .following key flight →
      flight < state.flights.fresh) : Registered state' := by
  obtain ⟨entry, alone, known, joined⟩ := registered
  constructor
  · intro call key flight leads
    obtain ⟨led, same⟩ := leading call key flight leads
    rw [same]
    exact entry call key flight led
  · intro call other key flight flight' leads leads'
    exact alone call other key flight flight' (leading _ _ _ leads).1 (leading _ _ _ leads').1
  · intro key flight present
    rw [fresh]
    exact known key flight (inner key flight present)
  · intro call key flight follows
    rw [fresh]
    exact following call key flight follows

theorem Registered.step {state state' : ResolveCalls} {action : ResolveAction} (registered : Registered state)
    (stepped : state.step action = some state') : Registered state' := by
  cases step_moves stepped with
  | aside permits call phase old new =>
    apply registered.of_leading
    · intro caller key flight leads
      rcases phase_after.1 leads with ⟨-, rfl⟩ | ⟨-, leads⟩
      · exact absurd trivial new.1
      · exact ⟨leads, rfl⟩
    · exact fun _ _ present => present
    · rfl
    · intro caller key flight follows
      rcases phase_after.1 follows with ⟨-, rfl⟩ | ⟨-, follows⟩
      · exact absurd trivial new.2
      · exact registered.joined caller key flight follows
  | follow key flight old present =>
    apply registered.of_leading
    · exact fun _ _ _ leads => ⟨phase_before leads nofun, rfl⟩
    · exact fun _ _ present => present
    · rfl
    · intro caller other flight' follows
      rcases phase_after.1 follows with ⟨-, new⟩ | ⟨-, follows⟩
      · cases new
        exact registered.known key flight present
      · exact registered.joined caller other flight' follows
  | @lead call key old absent =>
    have grown : (state.flights.joinOrLead key).2 =
        { inner := Function.update state.flights.inner key (some state.flights.fresh)
          channels := Function.update state.flights.channels state.flights.fresh ⟨2, none⟩
          fresh := state.flights.fresh + 1 } := by
      simp only [Singleflight.joinOrLead, absent]
    -- nobody leads the key yet, or it would be registered
    have free : ∀ other flight, state.phases other ≠ .leading key flight := by
      intro other flight leads
      rw [registered.entry other key flight leads] at absent
      cases absent
    rw [grown]
    constructor
    · intro caller other flight leads
      rcases phase_after.1 leads with ⟨-, new⟩ | ⟨-, led⟩
      · cases new
        exact Function.update_self ..
      · have apart : other ≠ key := by
          rintro rfl
          exact free caller flight led
        show Function.update _ _ _ _ = _
        rw [Function.update_of_ne apart]
        exact registered.entry caller other flight led
    · intro caller other name flight flight' leads leads'
      rcases phase_after.1 leads with ⟨rfl, new⟩ | ⟨-, leads⟩
      · cases new
        rcases phase_after.1 leads' with ⟨rfl, -⟩ | ⟨-, leads'⟩
        · rfl
        · exact absurd leads' (free other flight')
      · rcases phase_after.1 leads' with ⟨-, new⟩ | ⟨-, leads'⟩
        · cases new
          exact absurd leads (free caller flight)
        · exact registered.alone caller other name flight flight' leads leads'
    · intro other flight present
      rcases eq_or_ne other key with rfl | apart
      · have given : Function.update state.flights.inner other (some state.flights.fresh) other =
          some flight := present
        rw [Function.update_self] at given
        cases given
        exact Nat.lt_succ_self _
      · have given : Function.update state.flights.inner key (some state.flights.fresh) other =
          some flight := present
        rw [Function.update_of_ne apart] at given
        exact Nat.lt_succ_of_lt (registered.known other flight given)
    · exact fun _ _ _ follows => Nat.lt_succ_of_lt (registered.joined _ _ _ (phase_before follows nofun))
  | @finish call result key flight old =>
    apply registered.of_leading
    · intro caller other flight' leads
      rcases phase_after.1 leads with ⟨-, new⟩ | ⟨apart, led⟩
      · cases new
      · refine ⟨led, ?_⟩
        -- the call finishes its own key only
        have another : other ≠ key := by
          rintro rfl
          exact apart (registered.alone caller call other flight' flight led old)
        show (state.flights.finish key).inner other = _
        rw [Singleflight.finish_inner, Function.update_of_ne another]
    · exact fun _ _ present => (Singleflight.finish_found _ present).2
    · exact Singleflight.finish_fresh state.flights key
    · exact fun _ _ _ follows => registered.joined _ _ _ (phase_before follows nofun)
  | send flight result sent old | dropLeader key flight old =>
    apply registered.of_leading
    · exact fun _ _ _ leads => ⟨phase_before leads nofun, rfl⟩
    · exact fun _ _ present => present
    · rfl
    · exact fun _ _ _ follows => registered.joined _ _ _ (phase_before follows nofun)

theorem attended_of_kept (attended : state.Attended)
    (inner : ∀ key flight, state'.flights.inner key = some flight → state.flights.inner key = some flight)
    (leading : ∀ call key flight, state.phases call = .leading key flight →
      state'.phases call = .leading key flight)
    (sending : ∀ call flight result, state.phases call = .sending flight result →
      (∃ sender result, state'.phases sender = .sending flight result) ∨
        ((state'.flights.channels flight).sent).isSome)
    (sent : ∀ flight, ((state.flights.channels flight).sent).isSome →
      ((state'.flights.channels flight).sent).isSome)
    (following : ∀ call key flight, state'.phases call = .following key flight →
      (∃ other, state.phases other = .following key flight) ∨
        state.flights.inner key = some flight) : state'.Attended := by
  constructor
  · intro key flight present
    obtain ⟨call, leads⟩ := attended.led key flight (inner key flight present)
    exact ⟨call, leading call key flight leads⟩
  · intro call key flight follows
    have served : (∃ leader, state.phases leader = .leading key flight) ∨
        (∃ leader result, state.phases leader = .sending flight result) ∨
        ((state.flights.channels flight).sent).isSome := by
      rcases following call key flight follows with ⟨other, follows⟩ | present
      · exact attended.served other key flight follows
      · exact .inl (attended.led key flight present)
    rcases served with ⟨leader, leads⟩ | ⟨leader, result, sends⟩ | done
    · exact .inl ⟨leader, leading leader key flight leads⟩
    · exact .inr (sending leader flight result sends)
    · exact .inr (.inr (sent flight done))

theorem phase_other (before : state.phases other = found) (apart : state.phases call ≠ found) :
    (after state permits flights call phase).phases other = found := by
  apply phase_after.2
  refine .inr ⟨?_, before⟩
  rintro rfl
  exact apart before

theorem attended_step (registered : Registered state) (attended : state.Attended)
    (stays : ∀ call key flight, action = .drop call → state.phases call ≠ .leading key flight)
    (stepped : state.step action = some state') : state'.Attended := by
  cases step_moves stepped with
  | aside permits call phase old new =>
    apply attended_of_kept attended
    · exact fun _ _ present => present
    · intro caller key flight leads
      apply phase_other leads
      intro same
      rw [same] at old
      exact old.1 trivial
    · intro caller flight result sends
      refine .inl ⟨caller, result, phase_other sends ?_⟩
      intro same
      rw [same] at old
      exact old.2 trivial
    · exact fun _ done => done
    · intro caller key flight follows
      rcases phase_after.1 follows with ⟨-, rfl⟩ | ⟨-, follows⟩
      · exact absurd trivial new.2
      · exact .inl ⟨caller, follows⟩
  | follow key flight old present =>
    apply attended_of_kept attended
    · exact fun _ _ present => present
    · exact fun _ _ _ leads => phase_other leads (by rw [old]; nofun)
    · exact fun caller flight result sends =>
        .inl ⟨caller, result, phase_other sends (by rw [old]; nofun)⟩
    · exact fun _ done => done
    · intro caller other flight' follows
      rcases phase_after.1 follows with ⟨-, new⟩ | ⟨-, follows⟩
      · cases new
        exact .inr present
      · exact .inl ⟨caller, follows⟩
  | @lead call key old absent =>
    constructor
    · intro other flight present
      simp only [Singleflight.joinOrLead, absent] at present
      rcases eq_or_ne other key with rfl | apart
      · rw [Function.update_self] at present
        cases present
        exact ⟨call, phase_after.2 (.inl ⟨rfl, rfl⟩)⟩
      · rw [Function.update_of_ne apart] at present
        obtain ⟨leader, leads⟩ := attended.led other flight present
        exact ⟨leader, phase_other leads (by rw [old]; nofun)⟩
    · intro caller other flight follows
      replace follows := phase_before follows nofun
      rcases attended.served caller other flight follows with
        ⟨leader, leads⟩ | ⟨leader, result, sends⟩ | done
      · exact .inl ⟨leader, phase_other leads (by rw [old]; nofun)⟩
      · exact .inr (.inl ⟨leader, result, phase_other sends (by rw [old]; nofun)⟩)
      · -- the new channel is not the one that is followed
        have known := registered.joined caller other flight follows
        refine .inr (.inr ?_)
        simp only [Singleflight.joinOrLead, absent]
        rwa [Function.update_of_ne (Nat.ne_of_lt known)]
  | @finish call result key flight old =>
    constructor
    · intro other flight' present
      obtain ⟨apart, given⟩ := Singleflight.finish_found _ present
      obtain ⟨leader, leads⟩ := attended.led other flight' given
      refine ⟨leader, phase_other leads ?_⟩
      rw [old]
      intro same
      cases same
      exact apart rfl
    · intro caller other flight' follows
      replace follows := phase_before follows nofun
      rcases attended.served caller other flight' follows with
        ⟨leader, leads⟩ | ⟨leader, outcome, sends⟩ | done
      · -- it is led by another call, or by this one, which now sends
        by_cases same : leader = call
        · subst same
          rw [old] at leads
          cases leads
          exact .inr (.inl ⟨leader, result, phase_after.2 (.inl ⟨rfl, rfl⟩)⟩)
        · exact .inl ⟨leader, phase_after.2 (.inr ⟨same, leads⟩)⟩
      · exact .inr (.inl ⟨leader, outcome, phase_other sends (by rw [old]; nofun)⟩)
      · refine .inr (.inr ?_)
        show ((state.flights.finish key).channels flight').sent.isSome
        rwa [Singleflight.finish_sent]
  | @send call flight result sent old =>
    apply attended_of_kept attended
    · exact fun _ _ present => present
    · exact fun _ _ _ leads => phase_other leads (by rw [old]; nofun)
    · intro caller other outcome sends
      by_cases same : other = flight
      · refine .inr ?_
        show ((state.flights.send flight sent).channels other).sent.isSome
        rw [Singleflight.send_sent, if_pos same]
        rfl
      · refine .inl ⟨caller, outcome, phase_other sends ?_⟩
        rw [old]
        intro equal
        cases equal
        exact same rfl
    · intro other done
      show ((state.flights.send flight sent).channels other).sent.isSome
      rw [Singleflight.send_sent]
      split
      · rfl
      · exact done
    · exact fun caller _ _ follows => .inl ⟨caller, phase_before follows nofun⟩
  | dropLeader key flight old => exact absurd old (stays _ key flight rfl)

theorem not_attended_of_drop {key : CacheKey} {flight : FlightId} (registered : Registered state)
    (leads : state.phases call = .leading key flight) (stepped : state.step (.drop call) = some state') :
    ¬state'.Attended := by
  intro attended
  simp only [ResolveCalls.step, leads] at stepped
  cases stepped
  obtain ⟨other, led⟩ := attended.led key flight (registered.entry call key flight leads)
  rcases phase_after.1 led with ⟨-, new⟩ | ⟨apart, led⟩
  · cases new
  · exact apart (registered.alone other call key flight flight led leads)

theorem registered_of_run {dnssec : DnssecMode} {maxInflight : Nat} {actions : List ResolveAction}
    (visited : Visits ResolveCalls.step (.start dnssec maxInflight) actions state) : Registered state :=
  visited.invariant Registered (registered_start dnssec maxInflight)
    fun _ _ _ _ _ _ _ registered stepped => registered.step stepped

end ResolveCalls
open ResolveCalls

/-- In every interleaving of calls: each registered flight has a live leader in every state, and
each follower somebody to hear from, exactly when no call is dropped while it awaits
`resolve_lead`. -/
theorem flights_attended_iff (dnssec : DnssecMode) (maxInflight : Nat) (actions : List ResolveAction) :
    (∀ state, Visits ResolveCalls.step (.start dnssec maxInflight) actions state → state.Attended) ↔
      ¬ResolveCalls.DropsLeader (.start dnssec maxInflight) actions := by
  constructor
  · rintro attended ⟨earlier, later, state, call, key, flight, rfl, run, leads⟩
    have registered := registered_of_run ⟨earlier, [], (List.append_nil _).symm, run⟩
    cases stepped : state.step (.drop call) with
    | none => simp [ResolveCalls.step, leads] at stepped
    | some state' =>
      exact not_attended_of_drop registered leads stepped
        (attended state' (Visits.next run stepped))
  · intro stays state visited
    have both : Registered state ∧ state.Attended := by
      apply visited.invariant (fun state => Registered state ∧ state.Attended)
      · refine ⟨registered_start dnssec maxInflight, ?_⟩
        constructor <;> intros <;> simp_all [ResolveCalls.start, Singleflight.new]
      · rintro earlier action later before next rfl run ⟨registered, attended⟩ stepped
        refine ⟨registered.step stepped, attended_step registered attended ?_ stepped⟩
        rintro call key flight rfl leads
        exact stays ⟨earlier, later, before, call, key, flight, rfl, run, leads⟩
    exact both.2

def rootName : NameKey := ⟨[0], root_named⟩

def followerDropped : List ResolveAction :=
  [.start 0 rootName 2 1, .acquire 0, .cacheGet 0 none, .joinOrLead 0, .start 1 rootName 2 1,
    .acquire 1, .cacheGet 1 none, .joinOrLead 1, .drop 1, .finish 0 (.error .cnameLoop), .send 0]

theorem flights_attended_follower_dropped :
    (followerDropped.foldlM ResolveCalls.step (.start .yes 8192)).isSome ∧
      ∀ state, Visits ResolveCalls.step (.start .yes 8192) followerDropped state → state.Attended := by
  refine ⟨rfl, (flights_attended_iff .yes 8192 followerDropped).2 ?_⟩
  rintro ⟨earlier, later, state, call, key, flight, parts, run, leads⟩
  have place : earlier = followerDropped.take 8 ∧ call = 1 := by
    simp only [followerDropped, List.cons_eq_append_iff] at parts
    simp_all [followerDropped]
  obtain ⟨rfl, rfl⟩ := place
  cases run
  cases leads

def leaderDropped : List ResolveAction :=
  [.start 0 rootName 2 1, .acquire 0, .cacheGet 0 none, .joinOrLead 0, .drop 0,
    .start 1 rootName 2 1, .acquire 1, .cacheGet 1 none, .joinOrLead 1]

theorem flights_unattended_leader_dropped :
    ∃ state, leaderDropped.foldlM ResolveCalls.step (.start .yes 8192) = some state ∧
      state.flights.inner ⟨rootName, 2, 1, false⟩ = some 0 ∧
      (∀ call key flight, state.phases call ≠ .leading key flight) ∧
      state.phases 1 = .following ⟨rootName, 2, 1, false⟩ 0 ∧ state.step (.recv 1) = none ∧ ¬state.Attended := by
  have nobody : ∀ state, leaderDropped.foldlM ResolveCalls.step (.start .yes 8192) = some state →
      ∀ call key flight, state.phases call ≠ .leading key flight := by
    intro state run call key flight leads
    cases run
    match call with
    | 0 | 1 | _ + 2 => cases leads
  refine ⟨_, rfl, rfl, nobody _ rfl, rfl, rfl, ?_⟩
  intro attended
  obtain ⟨call, leads⟩ := attended.led ⟨rootName, 2, 1, false⟩ 0 rfl
  exact nobody _ rfl call _ 0 leads

end Resolved.Proof.Hyper
