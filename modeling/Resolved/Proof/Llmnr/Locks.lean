import Resolved.Spec.Llmnr

/-!
# Locks of the LLMNR engine
-/

namespace Resolved.Proof.Llmnr
open Lib Resolved.Llmnr Spec

section
variable {phase : Phase}

theorem uses_unfinished (busy : phase.uses.held ≠ [] ∨ phase.uses.wanted ≠ none) : phase.unfinished = true := by
  cases phase <;> simp_all [Phase.uses, Phase.unfinished]

def waitRank : Phase → Nat
  | .queued _ => 1
  | .owns .. | .querying _ | .queryOwns .. | .comparing .. => 2
  | .responding _ => 3
  | _ => 0

theorem hinders_links_read (hinders : phase.uses.Hinders .links .read) (waits : phase.uses.wanted ≠ none) :
    waitRank phase = 1 := by
  cases phase <;> simp_all [Phase.uses, LockUse.Hinders, waitRank]

theorem hinders_links_write (hinders : phase.uses.Hinders .links .write) (waits : phase.uses.wanted ≠ none) :
    waitRank phase = 0 := by
  cases phase <;> simp_all [Phase.uses, LockUse.Hinders, waitRank]

theorem hinders_inflight (hinders : phase.uses.Hinders .inflight .write) (waits : phase.uses.wanted ≠ none) :
    waitRank phase < 3 := by
  cases phase <;> simp_all [Phase.uses, LockUse.Hinders, waitRank]

theorem hinders_conflicts (hinders : phase.uses.Hinders .conflicts .write) : phase.uses.wanted = none := by
  cases phase <;> simp_all [Phase.uses, LockUse.Hinders]

end

section
variable {n : Nat} {lossy : Bytes → Str} {s s' : EngineState n} {turn : Turn n}

theorem step_eq_some (stepped : s.step lossy turn = some s') :
    (∃ engine phase, EngineState.advance lossy s.engine turn.order (s.phases turn.thread) =
        some (engine, phase) ∧ s' = ⟨engine, Function.update s.phases turn.thread phase⟩) ∧
      ∀ lock access, (s.uses turn.thread).wanted = some (lock, access) → Grantable s.uses lock access := by
  unfold EngineState.step at stepped
  split at stepped
  · rename_i free
    rw [Option.map_eq_some_iff] at stepped
    obtain ⟨⟨engine, phase⟩, advanced, rfl⟩ := stepped
    exact ⟨⟨engine, phase, advanced, rfl⟩, by simp [free]⟩
  · rename_i lock access wanted
    split at stepped
    · rename_i granted
      rw [Option.map_eq_some_iff] at stepped
      obtain ⟨⟨engine, phase⟩, advanced, rfl⟩ := stepped
      refine ⟨⟨engine, phase, advanced, rfl⟩, ?_⟩
      intro lock' access' wanted'
      rw [wanted] at wanted'
      cases wanted'
      exact granted
    · cases stepped

variable {engine engine' : LlmnrEngine} {order : List LlmnrLinkCfg} {phase phase' : Phase}

theorem advance_hinders (advanced : EngineState.advance lossy engine order phase = some (engine', phase'))
    (hinders : phase'.uses.Hinders .links .read) : phase.uses.Hinders .links .read ∨ queues phase = true := by
  unfold EngineState.advance at advanced
  split at advanced
  all_goals (try split at advanced) <;> (try split at advanced) <;> cases advanced
  all_goals simp_all [Phase.uses, LockUse.Hinders, queues]

theorem advance_readsAgain (advanced : EngineState.advance lossy engine order phase = some (engine', phase'))
    (again : readsAgain phase' = true) : readsAgain phase = true ∨ phase.uses.wanted = some (.links, .read) := by
  unfold EngineState.advance at advanced
  split at advanced
  all_goals (try split at advanced) <;> (try split at advanced) <;> cases advanced
  all_goals simp_all [Phase.uses, readsAgain]

theorem queues_idle (queued : queues phase = true) : readsAgain phase = false ∧ phase.uses.wanted = none := by
  unfold queues at queued
  split at queued
  · exact ⟨rfl, rfl⟩
  · exact ⟨rfl, rfl⟩
  · cases queued

def ReadersFree (s : EngineState n) : Prop :=
  ∀ thread, readsAgain (s.phases thread) = true → Grantable s.uses .links .read

theorem step_readersFree (free : ReadersFree s) (apart : QueuesApart s turn)
    (stepped : s.step lossy turn = some s') : ReadersFree s' := by
  obtain ⟨⟨engine, phase, advanced, rfl⟩, granted⟩ := step_eq_some stepped
  intro thread again other hinders
  -- there was no writer before, and none comes now
  have before : Grantable s.uses .links .read ∧ queues (s.phases turn.thread) = false := by
    by_cases own : thread = turn.thread
    · subst own
      simp only [Function.update_self] at again
      rcases advance_readsAgain advanced again with earlier | wanted
      · refine ⟨free _ earlier, Bool.eq_false_iff.mpr fun queued => ?_⟩
        simp [(queues_idle queued).1] at earlier
      · refine ⟨granted _ _ wanted, Bool.eq_false_iff.mpr fun queued => ?_⟩
        simp [(queues_idle queued).2] at wanted
    · simp only [Function.update_of_ne own] at again
      refine ⟨free thread again, Bool.eq_false_iff.mpr fun queued => ?_⟩
      simp [apart queued thread] at again
  by_cases own : other = turn.thread
  · subst own
    simp only [EngineState.uses, Function.update_self] at hinders
    rcases advance_hinders advanced hinders with earlier | queued
    · exact before.1 turn.thread earlier
    · simp [before.2] at queued
  · simp only [EngineState.uses, Function.update_of_ne own] at hinders
    exact before.1 other hinders

theorem readersFree_not_deadlock (free : ReadersFree s) : ¬EngineDeadlock s := by
  apply not_deadlock (fun thread busy => uses_unfinished busy) (fun thread => waitRank (s.phases thread))
  intro thread other lock access wanted hinders waits
  have again : readsAgain (s.phases thread) = true → (lock, access) ≠ (.links, .read) := by
    rintro again ⟨⟩
    exact free thread again other hinders
  change (s.phases thread).uses.wanted = some (lock, access) at wanted
  change (s.phases other).uses.Hinders lock access at hinders
  change (s.phases other).uses.wanted ≠ none at waits
  generalize s.phases thread = phase at wanted again ⊢
  cases phase with
  | queued =>
    cases wanted
    exact (hinders_links_write hinders waits).trans_lt Nat.zero_lt_one
  | owns | querying | queryOwns | comparing =>
    cases wanted
    exact (hinders_links_read hinders waits).trans_lt Nat.one_lt_two
  | responding =>
    cases wanted
    exact hinders_inflight hinders waits
  | responseOwns =>
    cases wanted
    exact absurd rfl (again rfl)
  | recording =>
    cases wanted
    exact absurd (hinders_conflicts hinders) waits
  | _ => cases wanted

/-- In a run in which no writer queues for the links while a response is compared with them, no state is
a deadlock. -/
theorem engine_not_deadlock {start : EngineState n} (starts : EngineStarts start)
    (run : Reaches (EngineState.step lossy) QueuesApart start s) : ¬EngineDeadlock s := by
  apply readersFree_not_deadlock
  refine run.invariant ReadersFree ?_ fun _ _ _ free apart stepped => step_readersFree free apart stepped
  intro thread again
  obtain ⟨call, begins⟩ := starts thread
  rw [begins] at again
  cases again

end

def link : LlmnrLinkCfg := ⟨2, .yes, ["a".toList], [⟨192, 0, 2, 1⟩], []⟩

def peer : SocketAddr := .v4 ⟨192, 0, 2, 9⟩ 5355

def responseAndChange : EngineState 2 where
  engine := ⟨(∅ : Std.ExtTreeMap Int LlmnrLinkCfg).insert 2 link, [], fun id => if id = 7 then some "a".toList else none, []⟩
  phases
    | 0 => .start (.handleResponse [0, 7, 0x84, 0, 0, 1, 0, 0, 0, 0, 0, 0, 1, 97, 0, 0, 1, 0, 1] peer)
    | 1 => .start (.setLink link)

def asciiText (octets : Bytes) : Str := octets.map fun octet => Char.ofNat octet.toNat

def turns (threads : List (Fin 2)) : List (Turn 2) := threads.map fun thread => ⟨thread, [link]⟩

theorem engine_not_deadlock_apart :
    ∃ s, Reaches (EngineState.step asciiText) QueuesApart responseAndChange s ∧
      (∀ thread, s.phases thread = .done none) ∧ ¬EngineDeadlock s := by
  have ends : ((turns [0, 0, 0, 0, 0, 0, 0, 0, 0, 1, 0, 1, 1]).foldlM (fun state turn =>
      if QueuesApart state turn then state.step asciiText turn else none) responseAndChange).any
        (fun s => decide (∀ thread, s.phases thread = .done none)) = true := by
    decide +kernel
  obtain ⟨s, ran, done⟩ := (Option.any_eq_true _ _).mp ends
  have starts : EngineStarts responseAndChange := by
    intro thread
    fin_cases thread
    · exact ⟨_, rfl⟩
    · exact ⟨_, rfl⟩
  have run := Reaches.of_checked _ ran
  exact ⟨s, run, of_decide_eq_true done, engine_not_deadlock starts run⟩

theorem engine_deadlock :
    ∃ s, Reaches (EngineState.step asciiText) (fun _ _ => True) responseAndChange s ∧ EngineDeadlock s := by
  have ends : ((turns [0, 0, 0, 0, 0, 1]).foldlM (EngineState.step asciiText) responseAndChange).any
      (fun s => decide (EngineDeadlock s)) = true := by
    decide +kernel
  obtain ⟨s, ran, dead⟩ := (Option.any_eq_true _ _).mp ends
  exact ⟨s, Reaches.of_actions _ (fun _ _ _ => trivial) ran, of_decide_eq_true dead⟩

end Resolved.Proof.Llmnr
