import Resolved.Spec.Exchange

/-!
# Recovering the features of a server
-/

namespace Resolved.Proof.Edns
open Resolved.Edns Spec ServerFeatureState

theorem runFeatureCalls_concat (calls : List FeatureCall) (call : FeatureCall) :
    runFeatureCalls (calls ++ [call]) = runFeatureCall (runFeatureCalls calls) call := by
  simp [runFeatureCalls]

section
variable {s : ServerFeatureState}

def BadOptLow (s : ServerFeatureState) : Prop := s.badOpt = true → s.possible = .udp

theorem capped_eq (low : BadOptLow s) (best : FeatureLevel) :
    s.capped best = { s with possible := min s.possible best } := by
  have same : (if s.badOpt && s.possible.usesEdns then { s with possible := .udp } else s) = s := by
    split
    · rename_i bad
      rw [Bool.and_eq_true] at bad
      rw [low bad.1] at bad
      cases bad.2
    · rfl
  simp only [capped, same]
  split
  · rename_i above
    rw [min_eq_right above.le]
  · rename_i within
    rw [min_eq_left (not_lt.1 within)]

theorem possibleLevel_spec (low : BadOptLow s) (best : FeatureLevel) (now : Nat) :
    s.possibleLevel best now =
      if s.possible < best ∧ s.retryDue now = true then
        { s with
          possible := best
          failedAttempts := 0
          retryAfter := none
          badOpt := false
          gracePeriod := min (s.gracePeriod * 2) featureGracePeriodMax }
      else { s with possible := min s.possible best } := by
  simp only [possibleLevel, capped_eq low, retryDue]
  by_cases below : s.possible < best
  · simp [below]
  · simp [below]

theorem downgradeTo_spec (level : FeatureLevel) (now : Nat) :
    (s.downgradeTo level now = s ∧ s.possible ≤ level) ∨
      (level < s.possible ∧ (s.downgradeTo level now).possible = level ∧
        (s.downgradeTo level now).verified = min s.verified level ∧ (s.downgradeTo level now).retryAfter.isSome ∧
        (s.downgradeTo level now).badOpt = s.badOpt) := by
  unfold downgradeTo
  split
  · rename_i above
    exact .inl ⟨rfl, above⟩
  · rename_i below
    exact .inr ⟨not_le.1 below, rfl, rfl, rfl, rfl⟩

structure Lowers (s s' : ServerFeatureState) : Prop where
  low : BadOptLow s → BadOptLow s'
  verified : s.verified ≤ s.possible → s'.verified ≤ s'.possible
  scheduled : s'.possible = s.possible ∧ s'.retryAfter = s.retryAfter ∨ s'.retryAfter.isSome = true

theorem downgradeTo_lowers (level : FeatureLevel) (now : Nat) : Lowers s (s.downgradeTo level now) := by
  rcases downgradeTo_spec (s := s) level now with ⟨same, -⟩ | ⟨below, possible, verified, retry, bad⟩
  · rw [same]
    exact ⟨id, id, .inl ⟨rfl, rfl⟩⟩
  · refine ⟨fun low bad' => ?_, fun _ => ?_, .inr retry⟩
    · rw [bad] at bad'
      rw [low bad'] at below
      exact absurd below (by cases level <;> decide)
    · rw [verified, possible]
      exact min_le_right _ _

theorem recordFailure_lowers (level : FeatureLevel) (now : Nat) : Lowers s (s.recordFailure level now).1 := by
  simp only [recordFailure]
  split
  · exact ⟨id, id, .inl ⟨rfl, rfl⟩⟩
  · split
    · exact ⟨id, id, .inl ⟨rfl, rfl⟩⟩
    · split
      · exact ⟨id, id, .inl ⟨rfl, rfl⟩⟩
      · have lowers := @downgradeTo_lowers
          { s with failedAttempts := min (s.failedAttempts + 1) 255 } level.lower now
        exact ⟨lowers.low, lowers.verified, lowers.scheduled⟩

theorem recordBadOpt_lowers (level : FeatureLevel) (now : Nat) : Lowers s (s.recordBadOpt level now) := by
  unfold recordBadOpt
  split
  · rcases @downgradeTo_spec { s with badOpt := true } .udp now with ⟨same, least⟩ |
      ⟨below, possible, verified, retry, bad⟩
    · rw [same]
      refine ⟨fun _ _ => ?_, id, .inl ⟨rfl, rfl⟩⟩
      exact le_antisymm least (by cases s.possible <;> decide)
    · refine ⟨fun _ _ => possible, fun _ => ?_, .inr retry⟩
      rw [verified, possible]
      exact min_le_right _ _
  · exact ⟨id, id, .inl ⟨rfl, rfl⟩⟩

theorem recordDoOff_lowers (level : FeatureLevel) (now : Nat) : Lowers s (s.recordDoOff level now) := by
  unfold recordDoOff
  split
  · exact downgradeTo_lowers .edns0 now
  · exact ⟨id, id, .inl ⟨rfl, rfl⟩⟩

theorem possibleLevel_low (low : BadOptLow s) (best : FeatureLevel) (now : Nat) :
    BadOptLow (s.possibleLevel best now) := by
  rw [possibleLevel_spec low]
  split
  · intro bad
    cases bad
  · intro bad
    change min s.possible best = .udp
    rw [low bad]
    exact min_eq_left (by cases best <;> decide)

theorem runFeatureCall_low (low : BadOptLow s) (call : FeatureCall) : BadOptLow (runFeatureCall s call) := by
  cases call with
  | possibleLevel best now => exact possibleLevel_low low best now
  | recordSuccess level => exact low
  | recordFailure level now => exact (recordFailure_lowers level now).low low
  | recordBadOpt level now => exact (recordBadOpt_lowers level now).low low
  | recordDoOff level now => exact (recordDoOff_lowers level now).low low
  | downgradeTo level now => exact (downgradeTo_lowers level now).low low

theorem possibleLevel_verified_iff (low : BadOptLow s) (within : s.verified ≤ s.possible) (best : FeatureLevel)
    (now : Nat) :
    (s.possibleLevel best now).verified ≤ (s.possibleLevel best now).possible ↔ s.verified ≤ best := by
  rw [possibleLevel_spec low]
  split
  · exact Iff.rfl
  · change s.verified ≤ min s.possible best ↔ s.verified ≤ best
    rw [le_min_iff, and_iff_right within]

theorem possibleLevel_recovers_iff (low : BadOptLow s) (best : FeatureLevel) (now : Nat) :
    Recovers (s.possibleLevel best now) best ↔ best ≤ s.possible ∨ s.retryAfter.isSome = true := by
  have later := possibleLevel_low low best now
  by_cases below : s.possible < best
  · rw [or_iff_right (not_le.2 below)]
    by_cases due : s.retryDue now = true
    · have best_reached : (s.possibleLevel best now).possible = best := by
        rw [possibleLevel_spec low, if_pos ⟨below, due⟩]
      have scheduled : s.retryAfter.isSome = true := by
        cases retry : s.retryAfter with
        | none => simp [retryDue, retry] at due
        | some retryAfter => rfl
      exact iff_of_true (fun lower => absurd best_reached lower.ne) scheduled
    · have kept : s.possibleLevel best now = s := by
        rw [possibleLevel_spec low, if_neg fun both => due both.2, min_eq_left below.le]
      rw [kept]
      constructor
      · intro recovers
        obtain ⟨retryAfter, retry, -⟩ := recovers below
        rw [retry]
        rfl
      · intro scheduled _
        obtain ⟨retryAfter, retry⟩ := Option.isSome_iff_exists.1 scheduled
        refine ⟨retryAfter, retry, fun then_ reached => ?_⟩
        rw [possibleLevel_spec low, if_pos ⟨below, by simpa [retryDue, retry] using reached⟩]
  · have reached : (s.possibleLevel best now).possible = best := by
      rw [possibleLevel_spec low, if_neg fun both => below both.1]
      exact min_eq_right (not_lt.1 below)
    exact iff_of_true (fun lower => absurd reached lower.ne) (.inl (not_lt.1 below))

theorem recordSuccess_verified_iff (within : s.verified ≤ s.possible) (level : FeatureLevel) :
    (s.recordSuccess level).verified ≤ (s.recordSuccess level).possible ↔ level ≤ s.possible := by
  simp only [recordSuccess]
  split
  · exact Iff.rfl
  · rename_i below
    exact iff_of_true within ((not_lt.1 below).trans within)

theorem runFeatureCall_sound_iff (low : BadOptLow s) (within : s.verified ≤ s.possible) (call : FeatureCall) :
    ((runFeatureCall s call).verified ≤ (runFeatureCall s call).possible ∧
      ∀ best now, call = .possibleLevel best now → Recovers (runFeatureCall s call) best) ↔ Harmless s call := by
  cases call with
  | possibleLevel best now =>
    constructor
    · rintro ⟨verified, recovers⟩
      exact ⟨(possibleLevel_verified_iff low within best now).1 verified,
        (possibleLevel_recovers_iff low best now).1 (recovers best now rfl)⟩
    · rintro ⟨verified, scheduled⟩
      refine ⟨(possibleLevel_verified_iff low within best now).2 verified, ?_⟩
      rintro _ _ ⟨⟩
      exact (possibleLevel_recovers_iff low best now).2 scheduled
  | recordSuccess level =>
    rw [and_iff_left (by rintro _ _ ⟨⟩)]
    exact recordSuccess_verified_iff within level
  | recordFailure level now =>
    exact iff_of_true ⟨(recordFailure_lowers level now).verified within, by rintro _ _ ⟨⟩⟩ trivial
  | recordBadOpt level now =>
    exact iff_of_true ⟨(recordBadOpt_lowers level now).verified within, by rintro _ _ ⟨⟩⟩ trivial
  | recordDoOff level now =>
    exact iff_of_true ⟨(recordDoOff_lowers level now).verified within, by rintro _ _ ⟨⟩⟩ trivial
  | downgradeTo level now =>
    exact iff_of_true ⟨(downgradeTo_lowers level now).verified within, by rintro _ _ ⟨⟩⟩ trivial

def Covered (s : ServerFeatureState) (best : FeatureLevel) : Prop :=
  best ≤ s.possible ∨ s.retryAfter.isSome = true

theorem Lowers.covered (lowers : Lowers s s') (covered : Covered s best) : Covered s' best := by
  rcases lowers.scheduled with ⟨possible, retry⟩ | scheduled
  · rw [Covered, possible, retry]
    exact covered
  · exact .inr scheduled

theorem runFeatureCall_covered (low : BadOptLow s)
    (least : ∀ now earlier, call = .possibleLevel earlier now → best ≤ earlier) (covered : Covered s best) :
    Covered (runFeatureCall s call) best := by
  cases call with
  | possibleLevel earlier now =>
    have within := least now earlier rfl
    change Covered (s.possibleLevel earlier now) best
    rw [possibleLevel_spec low]
    split
    · exact .inl within
    · exact covered.imp_left fun reached => le_min reached within
  | recordSuccess level => exact covered
  | recordFailure level now => exact (recordFailure_lowers level now).covered covered
  | recordBadOpt level now => exact (recordBadOpt_lowers level now).covered covered
  | recordDoOff level now => exact (recordDoOff_lowers level now).covered covered
  | downgradeTo level now => exact (downgradeTo_lowers level now).covered covered

end

theorem runFeatureCalls_low (calls : List FeatureCall) : BadOptLow (runFeatureCalls calls) := by
  induction calls using List.reverseRecOn with
  | nil =>
    intro bad
    cases bad
  | append_singleton calls call ih =>
    rw [runFeatureCalls_concat]
    exact runFeatureCall_low ih call

theorem mem_bestsOf : best ∈ bestsOf calls ↔ ∃ now, .possibleLevel best now ∈ calls := by
  constructor
  · intro mem
    obtain ⟨call, member, asked⟩ := List.mem_filterMap.1 mem
    cases call <;> cases asked
    exact ⟨_, member⟩
  · rintro ⟨now, member⟩
    exact List.mem_filterMap.2 ⟨_, member, rfl⟩

theorem runFeatureCalls_covered (calls : List FeatureCall) (least : ∀ earlier ∈ bestsOf calls, best ≤ earlier) :
    Covered (runFeatureCalls calls) best := by
  induction calls using List.reverseRecOn with
  | nil => exact .inl (by cases best <;> decide)
  | append_singleton calls call ih =>
    rw [runFeatureCalls_concat]
    refine runFeatureCall_covered (runFeatureCalls_low calls) ?_ (ih fun earlier mem => ?_)
    · rintro now earlier rfl
      exact least earlier (mem_bestsOf.2 ⟨now, by simp⟩)
    · obtain ⟨now, member⟩ := mem_bestsOf.1 mem
      exact least earlier (mem_bestsOf.2 ⟨now, List.mem_append_left _ member⟩)

/-- A run is sound exactly when every call is harmless in the state it meets. While the best level
is never raised, every call of `possible_level` finds its level reached or a retry scheduled. -/
theorem featuresSound_iff (calls : List FeatureCall) :
    (FeaturesSound calls ↔ ∀ front call, front ++ [call] <+: calls → Harmless (runFeatureCalls front) call) ∧
    ((bestsOf calls).Pairwise (· ≥ ·) → ∀ front best now, front ++ [.possibleLevel best now] <+: calls →
      best ≤ (runFeatureCalls front).possible ∨ (runFeatureCalls front).retryAfter.isSome) := by
  refine ⟨⟨fun sound front call upTo => ?_, fun harmless => ?_⟩, fun falling front best now upTo => ?_⟩
  · have within := sound.1 front ((List.prefix_append _ _).trans upTo)
    refine (runFeatureCall_sound_iff (runFeatureCalls_low front) within call).1 ?_
    rw [← runFeatureCalls_concat]
    refine ⟨sound.1 _ upTo, ?_⟩
    rintro best now rfl
    exact sound.2 front best now upTo
  · have within : ∀ front, front <+: calls →
        (runFeatureCalls front).verified ≤ (runFeatureCalls front).possible := by
      intro front
      induction front using List.reverseRecOn with
      | nil =>
        intro _
        decide
      | append_singleton front call ih =>
        intro upTo
        rw [runFeatureCalls_concat]
        exact ((runFeatureCall_sound_iff (runFeatureCalls_low front)
          (ih ((List.prefix_append _ _).trans upTo)) call).2 (harmless front call upTo)).1
    refine ⟨within, fun front best now upTo => ?_⟩
    rw [runFeatureCalls_concat]
    exact ((runFeatureCall_sound_iff (runFeatureCalls_low front)
      (within front ((List.prefix_append _ _).trans upTo)) _).2 (harmless front _ upTo)).2 best now rfl
  · refine runFeatureCalls_covered front fun earlier mem => ?_
    obtain ⟨rest, rfl⟩ := upTo
    simp only [bestsOf, List.filterMap_append, List.append_assoc] at falling
    exact (List.pairwise_append.1 falling).2.2 earlier mem best (by simp)

theorem not_recovers_of_none (below : s.possible < best) (unscheduled : s.retryAfter = none) :
    ¬ Recovers s best := by
  intro recovers
  obtain ⟨retryAfter, retry, -⟩ := recovers below
  cases unscheduled.symm.trans retry

theorem featuresSound_fails :
    ¬ FeaturesSound [.possibleLevel .edns0 0, .possibleLevel .dnssecOk 1] ∧
      ¬ FeaturesSound [.downgradeTo .udp 0, .recordSuccess .edns0] := by
  constructor
  · intro sound
    exact not_recovers_of_none (by decide) (by decide)
      (sound.2 [.possibleLevel .edns0 0] .dnssecOk 1 (List.prefix_refl _))
  · intro sound
    exact absurd (sound.1 _ (List.prefix_refl _)) (by decide)

end Resolved.Proof.Edns
