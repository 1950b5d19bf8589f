import Resolved.Spec.Hyper

/-!
# Pointers that outlive the race
-/

namespace Resolved.Proof.Hyper
open Lib Resolved.Hyper Spec

namespace Race
variable {setup : RaceSetup} {state state' : Race} {action : RaceAction}

inductive Turns (cancelled : Bool) : TaskPhase → TaskPhase → Bool → Prop
  | wake : Turns cancelled .sleeping .checking false
  | giveUp (stop : cancelled = true) : Turns cancelled .sleeping .done false
  | check : Turns cancelled .checking (if cancelled then .done else .checked) false
  | exchange (id : UInt16) : Turns cancelled .checked (.exchanging id) true
  | poll (id : UInt16) : Turns cancelled (.exchanging id) (.exchanging id) true
  | reply (id : UInt16) (raw : Bytes) : Turns cancelled (.exchanging id) (.received id raw) true
  | fail (id : UInt16) (error : HyperError) :
      Turns cancelled (.exchanging id) (.sending (.error error)) true
  | interrupt (id : UInt16) (stop : cancelled = true) :
      Turns cancelled (.exchanging id) (.sending (.error .cancelled)) false
  | accept (id : UInt16) (raw : Bytes) (item : HResult PacketView) :
      Turns cancelled (.received id raw) (.sending item) (reachesValidate id raw)
  | send (item : HResult PacketView) : Turns cancelled (.sending item) .done false

theorem Turns.quiet {cancelled reads : Bool} {old new : TaskPhase} (turns : Turns cancelled old new reads)
    (quiet : old.canRead cancelled = false) : new.canRead cancelled = false ∧ reads = false := by
  cases turns with
  | wake => exact ⟨quiet, rfl⟩
  | giveUp stop => exact ⟨rfl, rfl⟩
  | check =>
    cases cancelled with
    | true => exact ⟨rfl, rfl⟩
    | false => cases quiet
  | exchange id => cases quiet
  | poll id => cases quiet
  | reply id raw => cases quiet
  | fail id error => cases quiet
  | interrupt id stop => exact ⟨rfl, rfl⟩
  | accept id raw item => exact ⟨rfl, quiet⟩
  | send item => exact ⟨rfl, rfl⟩

structure TaskTurn (state : Race) (action : RaceAction) (state' : Race) (task : Nat)
    (phase : TaskPhase) : Prop where
  turns : Turns state.cancelled (state.tasks task) phase (state.reads action)
  tasks : state'.tasks = Function.update state.tasks task phase
  kept : state'.phase = state.phase ∧ state'.cancelled = state.cancelled

structure MainStep (setup : RaceSetup) (state state' : Race) : Prop where
  running : state.phase.ended = false
  spawned : ∀ task, state'.tasks task ≠ state.tasks task → task < setup.upstreams.length
  ends : state'.phase.ended = true → state'.tasks = state.tasks ∧ state'.cancelled = state.cancelled

theorem main_recv (stepped : state.step setup .recv = some state') : MainStep setup state state' := by
  simp only [Race.step] at stepped
  split at stepped
  · rename_i receiving
    have running : state.phase.ended = false := by rw [receiving]; rfl
    split at stepped
    · split at stepped <;> cases stepped <;> exact ⟨running, fun _ other => absurd rfl other, nofun⟩
    · split at stepped <;> cases stepped
      exact ⟨running, fun _ other => absurd rfl other, nofun⟩
  · cases stepped

theorem main_spawn (stepped : state.step setup .spawn = some state') : MainStep setup state state' := by
  simp only [Race.step] at stepped
  split at stepped
  · rename_i next spawning
    split at stepped
    · rename_i room
      cases stepped
      refine ⟨by rw [spawning]; rfl, ?_, nofun⟩
      intro task other
      by_cases same : task = next
      · rwa [same]
      · exact absurd (Function.update_of_ne same _ _) other
    · cases stepped
  · cases stepped

theorem main_await (stepped : state.step setup .await = some state') : MainStep setup state state' := by
  simp only [Race.step] at stepped
  split at stepped
  · rename_i next spawning
    split at stepped
    · cases stepped
      exact ⟨by rw [spawning]; rfl, fun _ other => absurd rfl other, nofun⟩
    · cases stepped
  · cases stepped

theorem step_cases (stepped : state.step setup action = some state') :
    (∃ task phase, TaskTurn state action state' task phase) ∨ MainStep setup state state' := by
  cases action with simp only [Race.step] at stepped
  | spawn => exact .inr (main_spawn stepped)
  | await => exact .inr (main_await stepped)
  | recv => exact .inr (main_recv stepped)
  | timeout | cancel =>
    split at stepped
    · rename_i running
      cases stepped
      exact .inr ⟨by rw [running]; rfl, fun _ other => absurd rfl other, nofun⟩
    · cases stepped
  | «return» | drop =>
    split at stepped
    · rename_i running
      cases stepped
      exact .inr ⟨by rw [running]; rfl, fun _ other => absurd rfl other, fun _ => ⟨rfl, rfl⟩⟩
    · cases stepped
  | wake task =>
    split at stepped
    · rename_i old
      cases stepped
      exact .inl ⟨task, _, old ▸ .wake, rfl, rfl, rfl⟩
    · cases stepped
  | giveUp task =>
    split at stepped
    · rename_i old
      split at stepped
      · rename_i stop
        cases stepped
        exact .inl ⟨task, _, old ▸ .giveUp stop, rfl, rfl, rfl⟩
      · cases stepped
    · cases stepped
  | check task =>
    split at stepped
    · rename_i old
      cases stepped
      exact .inl ⟨task, _, old ▸ .check, rfl, rfl, rfl⟩
    · cases stepped
  | exchange task id =>
    split at stepped
    · rename_i old
      cases stepped
      exact .inl ⟨task, _, old ▸ .exchange id, rfl, rfl, rfl⟩
    · cases stepped
  | poll task =>
    split at stepped
    · rename_i id old
      cases stepped
      refine .inl ⟨task, .exchanging id, ?_, ?_, rfl, rfl⟩
      · rw [old]
        exact .poll id
      · exact (Function.update_eq_self_iff.2 old.symm).symm
    · cases stepped
  | reply task response =>
    split at stepped
    · rename_i id old
      split at stepped
      · rename_i raw
        cases stepped
        exact .inl ⟨task, _, old ▸ .reply id raw, rfl, rfl, rfl⟩
      · rename_i error
        cases stepped
        exact .inl ⟨task, _, old ▸ .fail id error, rfl, rfl, rfl⟩
    · cases stepped
  | interrupt task =>
    split at stepped
    · rename_i id old
      split at stepped
      · rename_i stop
        cases stepped
        exact .inl ⟨task, _, old ▸ .interrupt id stop, rfl, rfl, rfl⟩
      · cases stepped
    · cases stepped
  | accept task =>
    split at stepped
    · rename_i id raw up old found
      cases stepped
      refine .inl ⟨task, _, ?_, rfl, rfl, rfl⟩
      simp only [Race.reads, old]
      exact .accept id raw _
    · cases stepped
  | send task =>
    split at stepped
    · rename_i item old
      split at stepped
      · cases stepped
        exact .inl ⟨task, _, old ▸ .send item, rfl, rfl, rfl⟩
      · split at stepped <;> cases stepped
        exact .inl ⟨task, _, old ▸ .send item, rfl, rfl, rfl⟩
    · cases stepped

theorem ended_step (ended : state.phase.ended = true) (stepped : state.step setup action = some state') :
    state'.phase.ended = true := by
  rcases step_cases stepped with ⟨task, phase, turn⟩ | main
  · rw [turn.kept.1]
    exact ended
  · rw [main.running] at ended
    cases ended

theorem ended_run {actions : List RaceAction} (ended : state.phase.ended = true)
    (run : actions.foldlM (Race.step setup) state = some state') : state'.phase.ended = true := by
  induction actions generalizing state with
  | nil =>
    cases run
    exact ended
  | cons action rest ih =>
    rw [List.foldlM_cons, Option.bind_eq_bind, Option.bind_eq_some_iff] at run
    obtain ⟨next, stepped, run⟩ := run
    exact ih (ended_step ended stepped) run

def Quiet (state : Race) : Prop := state.phase.ended = true ∧ ∀ task, ¬state.CanRead task

theorem Quiet.step (quiet : Quiet state) (stepped : state.step setup action = some state') :
    Quiet state' ∧ state.reads action = false := by
  rcases step_cases stepped with ⟨task, phase, turn⟩ | main
  · have still : (state.tasks task).canRead state.cancelled = false :=
      Bool.eq_false_iff.2 (quiet.2 task)
    obtain ⟨stays, unread⟩ := turn.turns.quiet still
    refine ⟨⟨ended_step quiet.1 stepped, ?_⟩, unread⟩
    intro other reads
    unfold Race.CanRead at reads
    rw [turn.kept.2, turn.tasks] at reads
    by_cases same : other = task
    · rw [same, Function.update_self, stays] at reads
      cases reads
    · rw [Function.update_of_ne same] at reads
      exact quiet.2 other reads
  · have late := quiet.1
    rw [main.running] at late
    cases late

theorem Quiet.run {actions : List RaceAction} (quiet : Quiet state)
    (run : actions.foldlM (Race.step setup) state = some state') : Quiet state' := by
  induction actions generalizing state with
  | nil =>
    cases run
    exact quiet
  | cons action rest ih =>
    rw [List.foldlM_cons, Option.bind_eq_bind, Option.bind_eq_some_iff] at run
    obtain ⟨next, stepped, run⟩ := run
    exact ih (quiet.step stepped).1 run

def Bounded (setup : RaceSetup) (state : Race) : Prop :=
  ∀ task, state.tasks task ≠ .unspawned → task < setup.upstreams.length

theorem bounded_step (bounded : Bounded setup state) (stepped : state.step setup action = some state') :
    Bounded setup state' := by
  intro task spawned
  rcases step_cases stepped with ⟨other, phase, turn⟩ | main
  · apply bounded task
    rw [turn.tasks] at spawned
    by_cases same : task = other
    · intro unspawned
      have turns := turn.turns
      rw [← same, unspawned] at turns
      cases turns
    · rwa [Function.update_of_ne same] at spawned
  · by_cases same : state'.tasks task = state.tasks task
    · exact bounded task (same ▸ spawned)
    · exact main.spawned task same

theorem bounded_run {actions : List RaceAction}
    (run : actions.foldlM (Race.step setup) (.start setup) = some state) : Bounded setup state := by
  have visited : Visits (Race.step setup) (.start setup) actions state :=
    ⟨actions, [], (List.append_nil _).symm, run⟩
  apply visited.invariant (Bounded setup)
  · exact fun _ spawned => absurd rfl spawned
  · exact fun _ _ _ _ _ _ _ bounded stepped => bounded_step bounded stepped

theorem canRead_reads (bounded : Bounded setup state) (reads : state.CanRead task) :
    ∃ (before : List RaceAction) (action : RaceAction) (next : Race), before.foldlM (Race.step setup) state = some next ∧
      (next.step setup action).isSome = true ∧ next.reads action = true := by
  unfold Race.CanRead at reads
  cases phase : state.tasks task with
  | unspawned | sending item | done =>
    rw [phase] at reads
    cases reads
  | checked => exact ⟨[], .exchange task 0, state, rfl, by simp [Race.step, phase], rfl⟩
  | exchanging id => exact ⟨[], .poll task, state, rfl, by simp [Race.step, phase], rfl⟩
  | received id raw =>
    rw [phase] at reads
    have inside := bounded task (by rw [phase]; nofun)
    refine ⟨[], .accept task, state, rfl, ?_, ?_⟩
    · simp only [Race.step, phase, List.getElem?_eq_getElem inside]
      rfl
    · simp only [Race.reads, phase]
      exact reads
  | checking =>
    rw [phase] at reads
    have running : state.cancelled = false := by simpa [TaskPhase.canRead] using reads
    refine ⟨[.check task], .exchange task 0, state.moved task .checked, ?_, ?_, rfl⟩
    · simp [Race.step, phase, running]
    · simp [Race.step, Race.moved]
  | sleeping =>
    rw [phase] at reads
    have running : state.cancelled = false := by simpa [TaskPhase.canRead] using reads
    refine ⟨[.wake task, .check task], .exchange task 0,
      (state.moved task .checking).moved task .checked, ?_, ?_, rfl⟩
    · simp [Race.step, phase, running, Race.moved]
    · simp [Race.step, Race.moved]

end Race
open Race

/-- Take any run in which `race` ends with its last step. Whatever is scheduled afterwards, no task
reads through its pointers, exactly when none could at that moment: each is behind its last read, or
has still to look at a token that is cancelled. -/
theorem race_reads_iff (setup : RaceSetup) (actions : List RaceAction) (last : RaceAction) (state state' : Race)
    (run : actions.foldlM (Race.step setup) (.start setup) = some state)
    (ends : state.step setup last = some state') (running : state.phase.ended = false)
    (ended : state'.phase.ended = true) :
    (∀ more, ¬Race.ReadsLate setup (actions ++ last :: more)) ↔ ∀ task, ¬state.CanRead task := by
  have whole : (actions ++ [last]).foldlM (Race.step setup) (.start setup) = some state' := by
    rw [List.foldlM_append, run]
    simpa using ends
  have same : ∀ task, state'.CanRead task ↔ state.CanRead task := by
    intro task
    rcases step_cases ends with ⟨other, phase, turn⟩ | main
    · rw [turn.kept.1, running] at ended
      cases ended
    · obtain ⟨tasks, cancelled⟩ := main.ends ended
      unfold Race.CanRead
      rw [tasks, cancelled]
  constructor
  · intro never task reads
    obtain ⟨before, action, next, onward, enabled, reading⟩ :=
      canRead_reads (bounded_run whole) ((same task).2 reads)
    apply never (before ++ [action])
    refine ⟨actions ++ last :: before, action, [], next, by simp, ?_, ended_run ended onward, enabled, reading⟩
    have parts : actions ++ last :: before = (actions ++ [last]) ++ before := by simp
    rw [parts, List.foldlM_append, whole]
    exact onward
  · rintro quiet more ⟨earlier, action, later, reached, parts, reach, late, enabled, reading⟩
    -- before the end nothing is late
    have notYet : ∀ rest, actions = earlier ++ rest → False := by
      rintro rest rfl
      rw [List.foldlM_append, reach] at run
      have late := ended_run late run
      rw [running] at late
      cases late
    rcases List.append_eq_append_iff.1 parts with ⟨front, rfl, tail⟩ | ⟨rest, cut, -⟩
    · cases front with
      | nil => exact notYet [] (by simp)
      | cons first rest =>
        cases tail
        have cut : actions ++ last :: rest = (actions ++ [last]) ++ rest := by simp
        rw [cut, List.foldlM_append, whole] at reach
        have still : Quiet state' := ⟨ended, fun task reads => quiet task ((same task).1 reads)⟩
        obtain ⟨next, stepped⟩ := Option.isSome_iff_exists.1 enabled
        have unread := ((still.run reach).step stepped).2
        rw [reading] at unread
        cases unread
    · exact notYet rest cut

def twoUpstreams : RaceSetup :=
  ⟨[⟨1, .v4 ⟨192, 0, 2, 1⟩ 53⟩, ⟨2, .v4 ⟨192, 0, 2, 2⟩ 53⟩], fun _ _ => .ok (), 5000⟩

def emptyResponse : Bytes := [0, 7, 128, 0, 0, 0, 0, 0, 0, 0, 0, 0]

def answeredAlone : List RaceAction :=
  [.spawn, .spawn, .await, .check 0, .exchange 0 7, .reply 0 (.ok emptyResponse), .accept 0,
    .send 0, .recv, .cancel]

theorem race_reads_answered_alone :
    ¬Race.ReadsLate twoUpstreams (answeredAlone ++ [.return, .wake 1, .poll 1]) := by
  refine (race_reads_iff twoUpstreams answeredAlone .return _ _ rfl rfl rfl rfl).2 ?_ [.wake 1, .poll 1]
  intro task reads
  match task with
  | 0 | 1 | _ + 2 => cases reads

def answeredBeside : List RaceAction :=
  [.spawn, .spawn, .await, .check 0, .exchange 0 7, .wake 1, .check 1, .exchange 1 8,
    .reply 0 (.ok emptyResponse), .accept 0, .send 0, .recv, .cancel, .return]

theorem race_reads_late :
    Race.ReadsLate twoUpstreams (answeredBeside ++ [.poll 1]) ∧
      Race.ReadsLate twoUpstreams [.spawn, .spawn, .await, .drop, .check 0, .exchange 0 7] :=
  ⟨⟨answeredBeside, .poll 1, [], _, rfl, rfl, rfl, rfl, rfl⟩,
    ⟨[.spawn, .spawn, .await, .drop, .check 0], .exchange 0 7, [], _, rfl, rfl, rfl, rfl, rfl⟩⟩

end Resolved.Proof.Hyper
