import Resolved.Spec.Inflight

/-!
# Leaders and followers
-/

namespace Resolved.Proof.Exchange
open Resolved.Exchange Lib Spec Resolved.Wire

section
variable {inflight : Inflight} {key : InflightKey} {entry : EntryId}

theorem begin_follower (joined : inflight.begin key = (.follower entry, inflight')) :
    inflight.entries key = some entry ∧ inflight' = inflight := by
  unfold Inflight.begin at joined
  cases found : inflight.entries key with
  | none =>
    rw [found] at joined
    cases joined
  | some current =>
    rw [found] at joined
    cases joined
    exact ⟨rfl, rfl⟩

theorem begin_leader (led : inflight.begin key = (.leader entry, inflight')) :
    inflight.entries key = none ∧ entry = inflight.fresh ∧
      inflight' = ⟨Function.update inflight.entries key (some entry),
        Function.update inflight.states entry ⟨true, none⟩, entry + 1⟩ := by
  unfold Inflight.begin at led
  cases found : inflight.entries key with
  | none =>
    rw [found] at led
    cases led
    exact ⟨rfl, rfl, rfl⟩
  | some current =>
    rw [found] at led
    cases led

theorem unregister_entries (registered : inflight.entries key = some entry) :
    inflight.unregister key entry = { inflight with entries := Function.update inflight.entries key none } := by
  rw [Inflight.unregister, if_pos registered]

theorem unregister_keeps (different : current ≠ entry) (registered : inflight.entries other = some current) :
    (inflight.unregister key entry).entries other = some current := by
  unfold Inflight.unregister
  split
  · rename_i mine
    have elsewhere : other ≠ key := by
      rintro rfl
      exact different (Option.some.inj (registered.symm.trans mine))
    rw [← registered]
    exact Function.update_of_ne elsewhere _ _
  · exact registered

theorem wait_eq_some {response : Option Packet} (woken : inflight.wait entry = some response) :
    inflight.states entry = ⟨false, response⟩ := by
  unfold Inflight.wait at woken
  cases found : inflight.states entry with
  | mk running current =>
    rw [found] at woken
    cases running with
    | true => cases woken
    | false =>
      cases woken
      rfl

end

inductive EntryStage where
  | running
  | published (response : Option Packet)
  | finished (response : Option Packet)

namespace EntryStage

@[simp] def response : EntryStage → Option (Option Packet)
  | running => none
  | published response | finished response => some response

@[simp] def registered : EntryStage → Bool
  | running | published _ => true
  | finished _ => false

@[simp] def state : EntryStage → InflightState
  | running => ⟨true, none⟩
  | published response | finished response => ⟨false, response⟩

end EntryStage

structure Life where
  leader : Nat
  key : InflightKey
  stage : EntryStage

@[simp] def phaseEntry : CallerPhase → Option EntryId
  | .idle => none
  | .leading _ entry | .finishing _ entry | .following _ entry => some entry

@[simp] def eventEntry : InflightEvent → EntryId
  | .led _ _ entry | .joined _ _ entry | .published _ entry _ | .finished _ entry
  | .returned _ entry _ => entry

structure Unborn (state : Callers) (entry : EntryId) : Prop where
  map : ∀ key, state.inflight.entries key ≠ some entry
  phases : ∀ caller, phaseEntry (state.phases caller) ≠ some entry
  history : ∀ event ∈ state.history, eventEntry event ≠ entry

structure Shows (state : Callers) (entry : EntryId) (life : Life) : Prop where
  map : ∀ key, state.inflight.entries key = some entry ↔ key = life.key ∧ life.stage.registered = true
  states : state.inflight.states entry = life.stage.state
  leading : ∀ caller key, state.phases caller = .leading key entry ↔
    caller = life.leader ∧ key = life.key ∧ life.stage = .running
  finishing : ∀ caller key, state.phases caller = .finishing key entry ↔
    caller = life.leader ∧ key = life.key ∧ ∃ response, life.stage = .published response
  following : ∀ caller key, state.phases caller = .following key entry →
    key = life.key ∧ .joined caller key entry ∈ state.history
  led : ∀ caller key, .led caller key entry ∈ state.history ↔ caller = life.leader ∧ key = life.key
  published : ∀ caller response, .published caller entry response ∈ state.history ↔
    caller = life.leader ∧ life.stage.response = some response
  finished : ∀ caller, .finished caller entry ∈ state.history ↔
    caller = life.leader ∧ life.stage.registered = false
  returned : ∀ caller response, .returned caller entry response ∈ state.history →
    life.stage.response = some response ∧ .joined caller life.key entry ∈ state.history

structure Described (state : Callers) : Prop where
  born : ∀ entry < state.inflight.fresh, ∃ life, Shows state entry life
  unborn : ∀ entry, state.inflight.fresh ≤ entry → Unborn state entry

theorem described_start : Described .start where
  born _ early := absurd early (Nat.not_lt_zero _)
  unborn _ _ := by constructor <;> simp [Callers.start, Inflight.new]

section
variable {state : Callers} {caller : Nat} {inflight : Inflight} {phase : CallerPhase}
  {event : InflightEvent} {entry : EntryId} {key : InflightKey} {life : Life}

@[simp] theorem moved_inflight : (state.moved caller inflight phase event).inflight = inflight := rfl

theorem moved_phases (other : Nat) : (state.moved caller inflight phase event).phases other =
    if other = caller then phase else state.phases other :=
  Function.update_apply ..

theorem mem_moved_history (other : InflightEvent) :
    other ∈ (state.moved caller inflight phase event).history ↔ other = event ∨ other ∈ state.history :=
  List.mem_cons

structure Elsewhere (state : Callers) (caller : Nat) (inflight : Inflight) (phase : CallerPhase)
    (event : InflightEvent) (entry : EntryId) : Prop where
  map : ∀ key, inflight.entries key = some entry ↔ state.inflight.entries key = some entry
  states : inflight.states entry = state.inflight.states entry
  before : phaseEntry (state.phases caller) ≠ some entry
  after : phaseEntry phase ≠ some entry
  event : eventEntry event ≠ entry

theorem Elsewhere.phases (elsewhere : Elsewhere state caller inflight phase event entry) {held : CallerPhase}
    (holds : phaseEntry held = some entry) (other : Nat) :
    (state.moved caller inflight phase event).phases other = held ↔ state.phases other = held := by
  by_cases same : other = caller
  · subst same
    simp only [Callers.moved, Function.update_self]
    constructor
    · rintro rfl
      exact absurd holds elsewhere.after
    · rintro rfl
      exact absurd holds elsewhere.before
  · simp only [Callers.moved, Function.update_of_ne same]

theorem Elsewhere.history (elsewhere : Elsewhere state caller inflight phase event entry)
    (about : eventEntry other = entry) :
    other ∈ (state.moved caller inflight phase event).history ↔ other ∈ state.history := by
  simp only [Callers.moved, List.mem_cons, or_iff_right_iff_imp]
  rintro rfl
  exact absurd about elsewhere.event

theorem Elsewhere.unborn (elsewhere : Elsewhere state caller inflight phase event entry)
    (unborn : Unborn state entry) : Unborn (state.moved caller inflight phase event) entry where
  map key registered := unborn.map key ((elsewhere.map key).1 registered)
  phases other held := unborn.phases other (((elsewhere.phases held other).1 rfl) ▸ held)
  history other member about := unborn.history other ((elsewhere.history about).1 member) about

theorem Elsewhere.shows (elsewhere : Elsewhere state caller inflight phase event entry)
    (facts : Shows state entry life) : Shows (state.moved caller inflight phase event) entry life where
  map key := (elsewhere.map key).trans (facts.map key)
  states := elsewhere.states.trans facts.states
  leading other key := (elsewhere.phases rfl other).trans (facts.leading other key)
  finishing other key := (elsewhere.phases rfl other).trans (facts.finishing other key)
  following other key held := by
    rw [elsewhere.history rfl]
    exact facts.following other key ((elsewhere.phases rfl other).1 held)
  led other key := (elsewhere.history rfl).trans (facts.led other key)
  published other response := (elsewhere.history rfl).trans (facts.published other response)
  finished other := (elsewhere.history rfl).trans (facts.finished other)
  returned other response member := by
    rw [elsewhere.history rfl]
    exact facts.returned other response ((elsewhere.history rfl).1 member)

theorem Unborn.lead (unborn : Unborn state entry) :
    Shows (state.moved caller ⟨Function.update state.inflight.entries key (some entry),
        Function.update state.inflight.states entry ⟨true, none⟩, entry + 1⟩
      (.leading key entry) (.led caller key entry)) entry ⟨caller, key, .running⟩ where
  map other := by
    simp only [moved_inflight, Function.update_apply]
    split
    · simp [*]
    · simp [*, unborn.map other]
  states := Function.update_self ..
  leading other key' := by
    have := unborn.phases other
    grind [moved_phases, mem_moved_history, phaseEntry]
  finishing other key' := by
    have := unborn.phases other
    grind [moved_phases, mem_moved_history, phaseEntry]
  following other key' := by
    have := unborn.phases other
    grind [moved_phases, mem_moved_history, phaseEntry]
  led other key' := by
    have := unborn.history (.led other key' entry)
    grind [moved_phases, mem_moved_history, eventEntry]
  published other response := by
    have := unborn.history (.published other entry response)
    grind [moved_phases, mem_moved_history, eventEntry, EntryStage.response]
  finished other := by
    have := unborn.history (.finished other entry)
    grind [moved_phases, mem_moved_history, eventEntry, EntryStage.registered]
  returned other response := by
    have := unborn.history (.returned other entry response)
    grind [moved_phases, mem_moved_history, eventEntry]

theorem Shows.join (now : Shows state entry life) (idle : state.phases caller = .idle) :
    Shows (state.moved caller state.inflight (.following life.key entry)
      (.joined caller life.key entry)) entry life where
  map := now.map
  states := now.states
  leading other key := by
    have := now.leading other key
    grind [moved_phases, mem_moved_history]
  finishing other key := by
    have := now.finishing other key
    grind [moved_phases, mem_moved_history]
  following other key := by
    have := now.following other key
    grind [moved_phases, mem_moved_history]
  led other key := by simpa [mem_moved_history] using now.led other key
  published other response := by simpa [mem_moved_history] using now.published other response
  finished other := by simpa [mem_moved_history] using now.finished other
  returned other response := by
    have := now.returned other response
    grind [moved_phases, mem_moved_history]

theorem Shows.publish (now : Shows state entry ⟨caller, key, .running⟩) (response : Option Packet) :
    Shows (state.moved caller (state.inflight.publish entry response) (.finishing key entry)
      (.published caller entry response)) entry ⟨caller, key, .published response⟩ where
  map := now.map
  states := Function.update_self ..
  leading other key' := by
    have := now.leading other key'
    grind [moved_phases, mem_moved_history]
  finishing other key' := by
    have := now.finishing other key'
    grind [moved_phases, mem_moved_history]
  following other key' := by
    have := now.following other key'
    grind [moved_phases, mem_moved_history]
  led other key' := by simpa [mem_moved_history] using now.led other key'
  published other given := by
    have := now.published other given
    grind [moved_phases, mem_moved_history, EntryStage.response]
  finished other := by simpa [mem_moved_history] using now.finished other
  returned other given := by
    have := now.returned other given
    grind [moved_phases, mem_moved_history, EntryStage.response]

theorem Shows.unregister {response : Option Packet} (now : Shows state entry ⟨caller, key, .published response⟩) :
    Shows (state.moved caller (state.inflight.unregister key entry) .idle
      (.finished caller entry)) entry ⟨caller, key, .finished response⟩ := by
  rw [unregister_entries ((now.map key).2 ⟨rfl, rfl⟩)]
  refine ⟨fun other => ?_, now.states, fun other key' => ?_, fun other key' => ?_,
    fun other key' => ?_, fun other key' => ?_, fun other given => ?_, fun other => ?_, fun other given => ?_⟩
  · simp only [moved_inflight, Function.update_apply]
    split
    · simp
    · simp [*, now.map other]
  · have := now.leading other key'
    grind [moved_phases, mem_moved_history]
  · have := now.finishing other key'
    grind [moved_phases, mem_moved_history]
  · have := now.following other key'
    grind [moved_phases, mem_moved_history]
  · simpa [mem_moved_history] using now.led other key'
  · simpa [mem_moved_history] using now.published other given
  · have := now.finished other
    grind [moved_phases, mem_moved_history, EntryStage.registered]
  · have := now.returned other given
    grind [moved_phases, mem_moved_history, EntryStage.response]

theorem Shows.wait {response : Option Packet} (now : Shows state entry life)
    (following : state.phases caller = .following key entry) (woken : state.inflight.wait entry = some response) :
    Shows (state.moved caller state.inflight .idle (.returned caller entry response)) entry life := by
  have published : life.stage.response = some response := by
    have states := now.states.symm.trans (wait_eq_some woken)
    cases stage : life.stage <;> simp_all
  refine ⟨now.map, now.states, fun other key' => ?_, fun other key' => ?_,
    fun other key' => ?_, fun other key' => ?_, fun other given => ?_, fun other => ?_, fun other given => ?_⟩
  · have := now.leading other key'
    grind [moved_phases, mem_moved_history]
  · have := now.finishing other key'
    grind [moved_phases, mem_moved_history]
  · have := now.following other key'
    grind [moved_phases, mem_moved_history]
  · simpa [mem_moved_history] using now.led other key'
  · simpa [mem_moved_history] using now.published other given
  · simpa [mem_moved_history] using now.finished other
  · have := now.returned other given
    have := now.following caller key following
    grind [moved_phases, mem_moved_history]

theorem Described.moved (now : Described state)
    (mine : ∃ life, Shows (state.moved caller inflight phase event) entry life) (later : entry < inflight.fresh)
    (others : ∀ other ≠ entry, Elsewhere state caller inflight phase event other)
    (bound : ∀ other ≠ entry, other < inflight.fresh ↔ other < state.inflight.fresh) :
    Described (state.moved caller inflight phase event) where
  born other early := by
    by_cases same : other = entry
    · exact same ▸ mine
    · obtain ⟨life, facts⟩ := now.born other ((bound other same).1 early)
      exact ⟨life, (others other same).shows facts⟩
  unborn other late := by
    have different : other ≠ entry := by
      rintro rfl
      exact absurd later (not_lt.2 late)
    refine (others other different).unborn (now.unborn other ?_)
    exact not_lt.1 fun early => not_lt.2 late ((bound other different).2 early)

theorem Described.shows_of_map (now : Described state) (registered : state.inflight.entries key = some entry) :
    entry < state.inflight.fresh ∧ ∃ leader stage, Shows state entry ⟨leader, key, stage⟩ := by
  by_cases early : entry < state.inflight.fresh
  · obtain ⟨⟨leader, _, stage⟩, facts⟩ := now.born entry early
    obtain ⟨rfl, -⟩ := (facts.map key).1 registered
    exact ⟨early, leader, stage, facts⟩
  · exact absurd registered ((now.unborn entry (not_lt.1 early)).map key)

theorem Described.shows_of_phase (now : Described state) (held : phaseEntry (state.phases caller) = some entry) :
    entry < state.inflight.fresh ∧ ∃ life, Shows state entry life := by
  by_cases early : entry < state.inflight.fresh
  · exact ⟨early, now.born entry early⟩
  · exact absurd held ((now.unborn entry (not_lt.1 early)).phases caller)

theorem Described.begin (now : Described state) (idle : state.phases caller = .idle) :
    (∀ leader inflight', state.inflight.begin key = (.leader leader, inflight') →
      Described (state.moved caller inflight' (.leading key leader) (.led caller key leader))) ∧
    (∀ follower inflight', state.inflight.begin key = (.follower follower, inflight') →
      Described (state.moved caller inflight' (.following key follower) (.joined caller key follower))) := by
  constructor
  · intro leader inflight' led
    obtain ⟨vacant, rfl, rfl⟩ := begin_leader led
    refine now.moved ⟨_, (now.unborn _ le_rfl).lead⟩ (Nat.lt_succ_self _) ?_ ?_
    · intro other different
      refine ⟨fun key' => ?_, Function.update_of_ne different _ _, ?_, ?_, ?_⟩
      · simp only [Function.update_apply]
        split
        · simp [*, different.symm]
        · rfl
      · simp [idle]
      · simpa using different.symm
      · simpa using different.symm
    · intro other different
      exact ⟨fun early => lt_of_le_of_ne (Nat.lt_succ_iff.1 early) different, Nat.lt_succ_of_lt⟩
  · intro follower inflight' joined
    obtain ⟨registered, rfl⟩ := begin_follower joined
    obtain ⟨early, leader, stage, facts⟩ := now.shows_of_map registered
    refine now.moved ⟨_, facts.join idle⟩ early ?_ fun _ _ => Iff.rfl
    intro other different
    refine ⟨fun _ => Iff.rfl, rfl, ?_, ?_, ?_⟩
    · simp [idle]
    · simpa using different.symm
    · simpa using different.symm

theorem Described.publish {state' : Callers} {response : Option Packet} (now : Described state)
    (published : state.publish caller response = some state') : Described state' := by
  unfold Callers.publish at published
  split at published
  · rename_i key entry leading
    cases published
    obtain ⟨early, ⟨leader, key', stage⟩, facts⟩ :=
      now.shows_of_phase (show phaseEntry (state.phases caller) = some entry by rw [leading]; rfl)
    obtain ⟨rfl, rfl, rfl⟩ := (facts.leading caller key).1 leading
    refine now.moved ⟨_, facts.publish response⟩ early ?_ fun _ _ => Iff.rfl
    intro other different
    refine ⟨fun _ => Iff.rfl, Function.update_of_ne different _ _, ?_, ?_, ?_⟩
    · simpa [leading] using different.symm
    · simpa using different.symm
    · simpa using different.symm
  · cases published

theorem Described.unregister (now : Described state) (finishing : state.phases caller = .finishing key entry) :
    Described (state.moved caller (state.inflight.unregister key entry) .idle (.finished caller entry)) := by
  obtain ⟨early, ⟨leader, key', stage⟩, facts⟩ :=
    now.shows_of_phase (show phaseEntry (state.phases caller) = some entry by rw [finishing]; rfl)
  obtain ⟨rfl, rfl, response, rfl⟩ := (facts.finishing caller key).1 finishing
  have registered := (facts.map key).2 ⟨rfl, rfl⟩
  have kept : (state.inflight.unregister key entry).fresh = state.inflight.fresh := by
    rw [unregister_entries registered]
  refine now.moved ⟨_, facts.unregister⟩ (by rw [kept]; exact early) ?_ (by simp [kept])
  intro other different
  rw [unregister_entries registered]
  refine ⟨fun key' => ?_, rfl, ?_, ?_, ?_⟩
  · simp only [Function.update_apply]
    split
    · simp [*, different.symm]
    · rfl
  · simpa [finishing] using different.symm
  · simp
  · simpa using different.symm

theorem Described.wait {response : Option Packet} (now : Described state)
    (following : state.phases caller = .following key entry) (woken : state.inflight.wait entry = some response) :
    Described (state.moved caller state.inflight .idle (.returned caller entry response)) := by
  obtain ⟨early, life, facts⟩ :=
    now.shows_of_phase (show phaseEntry (state.phases caller) = some entry by rw [following]; rfl)
  refine now.moved ⟨_, facts.wait following woken⟩ early ?_ fun _ _ => Iff.rfl
  intro other different
  refine ⟨fun _ => Iff.rfl, rfl, ?_, ?_, ?_⟩
  · simpa [following] using different.symm
  · simp
  · simpa using different.symm

end

theorem described_step {state state' : Callers} {action : CallerAction} (now : Described state)
    (stepped : state.step action = some state') : Described state' := by
  cases action with
  | begin caller key =>
    simp only [Callers.step] at stepped
    split at stepped
    · cases stepped
    · rename_i idle
      split at stepped
      · rename_i begun
        cases stepped
        exact (now.begin (not_not.1 idle)).1 _ _ begun
      · rename_i begun
        cases stepped
        exact (now.begin (not_not.1 idle)).2 _ _ begun
  | complete caller response | drop caller => exact now.publish stepped
  | unregister caller =>
    simp only [Callers.step] at stepped
    split at stepped
    · rename_i finishing
      cases stepped
      exact now.unregister finishing
    · cases stepped
  | wait caller =>
    simp only [Callers.step] at stepped
    split at stepped
    · rename_i following
      rw [Option.bind_eq_bind, Option.bind_eq_some_iff] at stepped
      obtain ⟨response, woken, returned⟩ := stepped
      cases returned
      exact now.wait following woken
    · cases stepped

theorem described_of_reachable {state : Callers} (run : state.Reachable) : Described state :=
  run.invariant Described described_start fun _ _ _ now _ stepped => described_step now stepped

section
variable {state : Callers} {caller : Nat} {key : InflightKey} {entry : EntryId}

theorem Described.shows_of_active (now : Described state) (active : state.Active caller key entry) :
    ∃ stage, Shows state entry ⟨caller, key, stage⟩ ∧ stage.registered = true := by
  rcases active with leading | finishing
  · obtain ⟨-, ⟨leader, key', stage⟩, facts⟩ :=
      now.shows_of_phase (show phaseEntry (state.phases caller) = some entry by rw [leading]; rfl)
    obtain ⟨rfl, rfl, rfl⟩ := (facts.leading caller key).1 leading
    exact ⟨_, facts, rfl⟩
  · obtain ⟨-, ⟨leader, key', stage⟩, facts⟩ :=
      now.shows_of_phase (show phaseEntry (state.phases caller) = some entry by rw [finishing]; rfl)
    obtain ⟨rfl, rfl, response, rfl⟩ := (facts.finishing caller key).1 finishing
    exact ⟨_, facts, rfl⟩

theorem Described.shows_of_event (now : Described state) (happened : event ∈ state.history) :
    ∃ life, Shows state (eventEntry event) life := by
  by_cases early : eventEntry event < state.inflight.fresh
  · exact now.born _ early
  · exact absurd rfl ((now.unborn _ (not_lt.1 early)).history event happened)

theorem Described.one_leader (now : Described state) (active : state.Active caller key entry)
    (active' : state.Active other key entry') : caller = other := by
  obtain ⟨stage, facts, registered⟩ := now.shows_of_active active
  obtain ⟨stage', facts', registered'⟩ := now.shows_of_active active'
  have mapped := (facts.map key).2 ⟨rfl, registered⟩
  have mapped' := (facts'.map key).2 ⟨rfl, registered'⟩
  obtain rfl := Option.some.inj (mapped.symm.trans mapped')
  exact ((facts'.led caller key).1 ((facts.led caller key).2 ⟨rfl, rfl⟩)).1

theorem Described.same_response (now : Described state) {response : Option Packet}
    (returned : .returned caller entry response ∈ state.history) :
    ∃ leader key, .joined caller key entry ∈ state.history ∧ .led leader key entry ∈ state.history ∧
      .published leader entry response ∈ state.history ∧
      ∀ other given, .published other entry given ∈ state.history → other = leader ∧ given = response := by
  obtain ⟨⟨leader, key, stage⟩, facts⟩ := now.shows_of_event returned
  obtain ⟨published, joined⟩ := facts.returned caller response returned
  refine ⟨leader, key, joined, (facts.led leader key).2 ⟨rfl, rfl⟩,
    (facts.published leader response).2 ⟨rfl, published⟩, fun other given happened => ?_⟩
  obtain ⟨same, gave⟩ := (facts.published other given).1 happened
  exact ⟨same, Option.some.inj (gave.symm.trans published)⟩

theorem Described.unreachable (now : Described state) (finished : .finished caller entry ∈ state.history) :
    (state.inflight.states entry).running = false ∧ (∀ key, state.inflight.entries key ≠ some entry) ∧
      ∀ key, (state.inflight.begin key).1 ≠ .follower entry := by
  obtain ⟨⟨leader, key, stage⟩, facts⟩ := now.shows_of_event finished
  obtain ⟨-, unregistered⟩ := (facts.finished caller).1 finished
  have unmapped : ∀ key, state.inflight.entries key ≠ some entry := by
    intro key mapped
    exact Bool.false_ne_true (unregistered.symm.trans ((facts.map key).1 mapped).2)
  refine ⟨?_, unmapped, fun key joined => ?_⟩
  · have states := facts.states
    cases stage with
    | running | published response => cases unregistered
    | finished response =>
      change state.inflight.states entry = _ at states
      rw [states]
      rfl
  · exact unmapped key (begin_follower (Prod.ext joined rfl)).1

theorem finish_keeps_others (finish : action.Finishes caller) (active : state.Active caller key entry)
    (stepped : state.step action = some state') (different : current ≠ entry)
    (registered : state.inflight.entries other = some current) : state'.inflight.entries other = some current := by
  have publishes : ∀ response, state.publish caller response = some state' →
      state'.inflight.entries other = some current := by
    intro response published
    unfold Callers.publish at published
    split at published
    · cases published
      exact registered
    · cases published
  cases action with
  | begin caller key => cases finish
  | complete caller response =>
    cases finish
    exact publishes response stepped
  | drop caller =>
    cases finish
    exact publishes none stepped
  | unregister caller =>
    cases finish
    simp only [Callers.step] at stepped
    split at stepped
    · rename_i key' entry' finishing
      cases stepped
      rcases active with leading | finishing'
      · cases finishing.symm.trans leading
      · cases finishing.symm.trans finishing'
        exact unregister_keeps different registered
    · cases stepped
  | wait caller => cases finish

end

/-- In every interleaving the leaders are alone, the followers get what their leader published, and
a finished entry is out of reach. -/
theorem inflight_safe {state : Callers} (run : state.Reachable) : state.Safe := by
  have now := described_of_reachable run
  exact ⟨fun _ _ _ _ _ active active' => now.one_leader active active',
    fun _ _ _ returned => now.same_response returned, fun _ _ finished => now.unreachable finished,
    fun _ _ _ _ _ active finish stepped _ _ different registered =>
      finish_keeps_others finish active stepped different registered⟩

theorem inflight_safe_late_follower :
    ∃ state : Callers, state.Reachable ∧ .returned 2 0 (some [0, 0]) ∈ state.history ∧
      .returned 4 1 none ∈ state.history ∧ state.Safe := by
  let key : InflightKey := ⟨1, [0, 0]⟩
  let actions : List CallerAction := [.begin 0 key, .begin 1 key, .complete 0 (some [0, 0]),
    .begin 2 key, .unregister 0, .wait 1, .wait 2, .begin 3 key, .begin 4 key, .drop 3, .unregister 3, .wait 4]
  obtain ⟨state, ran, first, second⟩ : ∃ state, actions.foldlM Callers.step .start = some state ∧
      .returned 2 0 (some [0, 0]) ∈ state.history ∧ .returned 4 1 none ∈ state.history :=
    ⟨_, rfl, by decide, by decide⟩
  have run : state.Reachable := Reaches.of_actions actions (fun _ _ _ => trivial) ran
  exact ⟨state, run, first, second, inflight_safe run⟩

end Resolved.Proof.Exchange
