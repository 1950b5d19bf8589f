import Resolved.Lib.Separated
import Resolved.Spec.Routing

/-!
# Picking links by suffix
-/

namespace Resolved.Proof.SplitDns
open Lib Resolved.SplitDns Spec

variable {name suffix : Str} {rules : List DomainRule} {pass : Pass} {rule : DomainRule}

theorem suffixLabels_eq (name : Str) : suffixLabels name = (normalizeName name).splitOn '.' := rfl

theorem suffixLabels_root_iff : suffixLabels suffix = [[]] ↔ normalizeName suffix = [] := by
  rw [suffixLabels_eq]
  constructor
  · intro root
    have joined : ['.'].intercalate ((normalizeName suffix).splitOn '.') = normalizeName suffix :=
      List.intercalate_splitOn '.'
    rw [← joined, root]
    rfl
  · intro empty
    rw [empty]
    rfl

theorem normalizeName_ne_dot (name : Str) : normalizeName name ≠ ['.'] := by
  intro dot
  obtain ⟨c, kept, lowered⟩ : ∃ c, trimEndWith (· == '.') (trim name) = [c] ∧ lowerChar c = '.' := by
    simpa [normalizeName, toAsciiLowercase, List.map_eq_singleton_iff] using dot
  have last := List.rdropWhile_last_not (· == '.') (trim name)
  rw [trimEndWith] at kept
  simp only [kept, List.getLast_singleton] at last
  exact last (by simp) (beq_iff_eq.mpr ((lowerChar_eq_dot c).mp lowered))

theorem suffixMatchLen_eq_some {len : Nat} : suffixMatchLen name suffix = some len ↔
    SuffixMatches name suffix ∧ len = (utf8 (normalizeName suffix)).length := by
  have ends : suffixLabels suffix <:+ suffixLabels name ↔ normalizeName name = normalizeName suffix ∨
        ('.' :: normalizeName suffix) <:+ normalizeName name := by
    rw [suffixLabels_eq, suffixLabels_eq, splitOn_suffix_iff]
    exact or_congr Iff.rfl (exists_congr fun _ => eq_comm)
  rw [SuffixMatches, ne_eq, suffixLabels_root_iff, ends, suffixMatchLen]
  by_cases root : normalizeName suffix = []
  · simp [root]
  by_cases same : normalizeName name = normalizeName suffix
  · simp only [root, same, normalizeName_ne_dot, or_self, if_false, if_true, Option.some_inj,
      not_false_eq_true, true_or, true_and]
    exact eq_comm
  · by_cases tail : ('.' :: normalizeName suffix) <:+ normalizeName name <;>
      simp [root, same, tail, normalizeName_ne_dot, @eq_comm _ len]

theorem octets_of_suffixLabels (tail : suffixLabels suffix <:+ suffixLabels other) :
    normalizeName other = normalizeName suffix ∨
      (utf8 (normalizeName suffix)).length < (utf8 (normalizeName other)).length := by
  rw [suffixLabels_eq, suffixLabels_eq, splitOn_suffix_iff] at tail
  rcases tail with same | ⟨front, split⟩
  · exact .inl same
  · refine .inr ?_
    rw [split, utf8_append, utf8_cons, List.length_append, List.length_append]
    have dot : (String.utf8EncodeChar '.').length = 1 := by decide
    omega

theorem length_le_iff (matching : SuffixMatches name suffix) (matching' : SuffixMatches name other) :
    (utf8 (normalizeName suffix)).length ≤ (utf8 (normalizeName other)).length ↔
      (suffixLabels suffix).length ≤ (suffixLabels other).length := by
  have octets {s t : Str} (hs : SuffixMatches name s) (ht : SuffixMatches name t)
      (le : (suffixLabels s).length ≤ (suffixLabels t).length) :=
    octets_of_suffixLabels (List.suffix_of_suffix_length_le hs.2 ht.2 le)
  constructor
  · intro fewer
    by_contra more
    rcases octets matching' matching (Nat.le_of_not_le more) with same | lt
    · exact more (by rw [suffixLabels_eq, suffixLabels_eq, same])
    · exact absurd fewer (Nat.not_le.mpr lt)
  · intro le
    rcases octets matching matching' le with same | lt
    · rw [same]
    · exact lt.le

def matchesOf (name : Str) (rules : List DomainRule) : List (Nat × DomainRule) :=
  rules.filterMap fun rule => (suffixMatchLen name rule.suffix).map (·, rule)

def hitOf (found : Nat × DomainRule) : Int × Int := (found.2.ifindex, found.2.priority)

structure Scanned (seen : List (Nat × DomainRule)) (pass : Pass) : Prop where
  bound : ∀ found ∈ seen, (found.1 : Int) ≤ pass.bestLen
  hits : pass.hits = (seen.filter fun found => (found.1 : Int) = pass.bestLen).map hitOf
  start : seen = [] → pass.bestLen = -1
  reached : seen ≠ [] → ∃ found ∈ seen, (found.1 : Int) = pass.bestLen

theorem scanned_start : Scanned [] .start := by
  constructor <;> simp [Pass.start]

theorem visit_none (unmatched : suffixMatchLen name rule.suffix = none) : pass.visit name rule = pass := by
  rw [Pass.visit, unmatched]

theorem scanned_visit {seen : List (Nat × DomainRule)} {len : Nat} (scanned : Scanned seen pass)
    (matching : suffixMatchLen name rule.suffix = some len) :
    Scanned (seen ++ [(len, rule)]) (pass.visit name rule) := by
  simp only [Pass.visit, matching]
  by_cases longer : pass.bestLen < (len : Int)
  · rw [if_pos longer]
    refine ⟨?_, ?_, by simp, fun _ => ⟨(len, rule), by simp⟩⟩
    · intro found member
      rcases List.mem_append.mp member with earlier | here
      · exact (scanned.bound found earlier).trans longer.le
      · rw [List.mem_singleton.mp here]
    · have none : (seen.filter fun found => (found.1 : Int) = len) = [] := by
        refine List.filter_eq_nil_iff.mpr fun found member eq => ?_
        exact absurd (of_decide_eq_true eq) ((scanned.bound found member).trans_lt longer).ne
      rw [List.filter_append, none]
      simp [hitOf]
  rw [if_neg longer]
  by_cases same : (len : Int) = pass.bestLen
  · rw [if_pos same]
    refine ⟨?_, ?_, by simp, fun _ => ⟨(len, rule), by simp [same]⟩⟩
    · intro found member
      rcases List.mem_append.mp member with earlier | here
      · exact scanned.bound found earlier
      · rw [List.mem_singleton.mp here, same]
    · simp [List.filter_append, scanned.hits, same, hitOf]
  · rw [if_neg same]
    -- a match is never shorter than the start value, so one has been kept before
    have nonempty : seen ≠ [] := by
      intro empty
      have := scanned.start empty
      omega
    refine ⟨?_, ?_, by simp, fun _ => ?_⟩
    · intro found member
      rcases List.mem_append.mp member with earlier | here
      · exact scanned.bound found earlier
      · rw [List.mem_singleton.mp here]
        exact Int.not_lt.mp longer
    · simp [List.filter_append, scanned.hits, same]
    · obtain ⟨found, member, eq⟩ := scanned.reached nonempty
      exact ⟨found, List.mem_append_left _ member, eq⟩

theorem scanned_rules (name : Str) (rules : List DomainRule) :
    Scanned (matchesOf name rules) (rules.foldl (Pass.visit name) .start) := by
  induction rules using List.reverseRecOn with
  | nil => exact scanned_start
  | append_singleton rules rule ih =>
    rw [List.foldl_concat, matchesOf, List.filterMap_append, ← matchesOf]
    cases matching : suffixMatchLen name rule.suffix with
    | none =>
      rw [visit_none matching]
      simpa [matching] using ih
    | some len =>
      simpa [matching] using scanned_visit ih matching

theorem mem_matchesOf {len : Nat} : (len, rule) ∈ matchesOf name rules ↔
    rule ∈ rules ∧ SuffixMatches name rule.suffix ∧ len = (utf8 (normalizeName rule.suffix)).length := by
  simp only [matchesOf, List.mem_filterMap, Option.map_eq_some_iff, Prod.mk.injEq]
  constructor
  · rintro ⟨rule, member, len, matching, rfl, rfl⟩
    exact ⟨member, suffixMatchLen_eq_some.mp matching⟩
  · rintro ⟨member, matching⟩
    exact ⟨rule, member, len, suffixMatchLen_eq_some.mpr matching, rfl, rfl⟩

theorem mem_matchesOf_of (member : rule ∈ rules) (matching : SuffixMatches name rule.suffix) :
    ((utf8 (normalizeName rule.suffix)).length, rule) ∈ matchesOf name rules :=
  mem_matchesOf.mpr ⟨member, matching, rfl⟩

theorem hits_eq_nil_iff (scanned : Scanned (matchesOf name rules) pass) :
    pass.hits = [] ↔ ∀ rule ∈ rules, ¬ SuffixMatches name rule.suffix := by
  constructor
  · intro empty rule member matching
    have listed := mem_matchesOf_of member matching
    obtain ⟨found, member, eq⟩ := scanned.reached (List.ne_nil_of_mem listed)
    have hit : hitOf found ∈ pass.hits := by
      rw [scanned.hits]
      exact List.mem_map_of_mem (List.mem_filter.mpr ⟨member, decide_eq_true eq⟩)
    rw [empty] at hit
    cases hit
  · intro unmatched
    have empty : matchesOf name rules = [] :=
      List.eq_nil_iff_forall_not_mem.mpr fun found member =>
        unmatched found.2 (mem_matchesOf.mp member).1 (mem_matchesOf.mp member).2.1
    rw [scanned.hits, empty]
    rfl

theorem mem_hits_iff (scanned : Scanned (matchesOf name rules) pass) :
    hit ∈ pass.hits ↔ ∃ rule ∈ rules, SuffixMatches name rule.suffix ∧
      (∀ other ∈ rules, SuffixMatches name other.suffix →
        (suffixLabels other.suffix).length ≤ (suffixLabels rule.suffix).length) ∧
      (rule.ifindex, rule.priority) = hit := by
  rw [scanned.hits, List.mem_map]
  constructor
  · rintro ⟨⟨len, rule⟩, kept, rfl⟩
    obtain ⟨listed, best⟩ := List.mem_filter.mp kept
    obtain ⟨member, matching, rfl⟩ := mem_matchesOf.mp listed
    refine ⟨rule, member, matching, fun other member' matching' => ?_, rfl⟩
    have le := scanned.bound _ (mem_matchesOf_of member' matching')
    rw [← of_decide_eq_true best] at le
    exact (length_le_iff matching' matching).mp (Int.ofNat_le.mp le)
  · rintro ⟨rule, member, matching, longest, rfl⟩
    have listed := mem_matchesOf_of member matching
    obtain ⟨found, member', best⟩ := scanned.reached (List.ne_nil_of_mem listed)
    refine ⟨(_, rule), List.mem_filter.mpr ⟨listed, decide_eq_true ?_⟩, rfl⟩
    obtain ⟨len, other⟩ := found
    obtain ⟨other_mem, matching', rfl⟩ := mem_matchesOf.mp member'
    apply le_antisymm (scanned.bound _ listed)
    rw [← best]
    exact Int.ofNat_le.mpr ((length_le_iff matching' matching).mpr (longest other other_mem matching'))

theorem min_priority {hits : List (Int × Int)} (nonempty : hits ≠ []) :
    (∃ hit ∈ hits, hit.2 = (hits.map (·.2)).min?.getD 0) ∧ ∀ hit ∈ hits, (hits.map (·.2)).min?.getD 0 ≤ hit.2 := by
  cases least : (hits.map (·.2)).min? with
  | none => simp [nonempty] at least
  | some value =>
    obtain ⟨attained, le⟩ := List.min?_eq_some_iff.mp least
    obtain ⟨hit, member, rfl⟩ := List.mem_map.mp attained
    exact ⟨⟨hit, member, rfl⟩, fun other member' => le _ (List.mem_map_of_mem member')⟩

theorem mem_links_iff (scanned : Scanned (matchesOf name rules) pass) (nonempty : pass.hits ≠ [])
    {ifindex : Int} :
    ifindex ∈ sortDedup ((pass.hits.filter fun hit =>
        hit.2 = (pass.hits.map (·.2)).min?.getD 0).map (·.1)) ↔
      ∃ rule, Preferred name rules rule ∧ rule.ifindex = ifindex := by
  obtain ⟨⟨first, first_hit, lowest⟩, le⟩ := min_priority nonempty
  rw [mem_sortDedup, List.mem_map]
  constructor
  · rintro ⟨hit, kept, rfl⟩
    obtain ⟨member, least⟩ := List.mem_filter.mp kept
    obtain ⟨rule, listed, matching, longest, rfl⟩ := (mem_hits_iff scanned).mp member
    refine ⟨rule, ⟨listed, matching, longest, fun other listed' matching' same => ?_⟩, rfl⟩
    have hit : (other.ifindex, other.priority) ∈ pass.hits :=
      (mem_hits_iff scanned).mpr ⟨other, listed', matching', fun third listed matching => by
        rw [same]
        exact longest third listed matching, rfl⟩
    have bound := le _ hit
    rwa [← of_decide_eq_true least] at bound
  · rintro ⟨rule, preferred, rfl⟩
    have hit : (rule.ifindex, rule.priority) ∈ pass.hits :=
      (mem_hits_iff scanned).mpr
        ⟨rule, preferred.member, preferred.matching, preferred.longest, rfl⟩
    refine ⟨_, List.mem_filter.mpr ⟨hit, decide_eq_true (le_antisymm ?_ (le _ hit))⟩, rfl⟩
    rw [← lowest]
    obtain ⟨other, listed, matching, longest, rfl⟩ := (mem_hits_iff scanned).mp first_hit
    exact preferred.foremost other listed matching
      (le_antisymm (preferred.longest other listed matching)
        (longest rule preferred.member preferred.matching))

theorem picksPreferred (name : Str) (rules : List DomainRule) (defaults : List Int) (allowDefault : Bool) :
    PicksPreferred name rules allowDefault (pickLinksForName name rules defaults allowDefault) := by
  have scanned := scanned_rules name rules
  have empty_iff := hits_eq_nil_iff scanned
  rw [pickLinksForName]
  by_cases empty : (rules.foldl (Pass.visit name) .start).hits = []
  · have unmatched := empty_iff.mp empty
    simp only [empty, ne_eq, not_true_eq_false, if_false]
    refine ⟨fun ⟨rule, member, matching⟩ => absurd matching (unmatched rule member), ?_, ?_⟩
    · cases allowDefault with
      | true => simpa using unmatched
      | false => simp
    · cases allowDefault with
      | true => simp
      | false => simpa using unmatched
  · have matched : ¬ ∀ rule ∈ rules, ¬ SuffixMatches name rule.suffix := fun unmatched =>
      empty (empty_iff.mpr unmatched)
    simp only [ne_eq, empty, not_false_eq_true, if_true]
    refine ⟨fun _ => ⟨_, rfl, sortDedup_pairwise _, fun _ => mem_links_iff scanned empty⟩, ?_, ?_⟩ <;>
      simp [matched]

variable {others : List DomainRule} {allowDefault : Bool} {pick pick' : Pick}

theorem picksPreferred_unique (picks : PicksPreferred name rules allowDefault pick)
    (picks' : PicksPreferred name rules allowDefault pick') : pick = pick' := by
  by_cases matched : ∃ rule ∈ rules, SuffixMatches name rule.suffix
  · obtain ⟨links, rfl, increasing, members⟩ := picks.links matched
    obtain ⟨links', rfl, increasing', members'⟩ := picks'.links matched
    rw [eq_of_pairwise_lt increasing increasing' fun ifindex =>
      (members ifindex).trans (members' ifindex).symm]
  · have unmatched : ∀ rule ∈ rules, ¬ SuffixMatches name rule.suffix := fun rule member matching =>
      matched ⟨rule, member, matching⟩
    cases allowDefault with
    | true =>
      rw [picks.defaultRoute.mpr ⟨rfl, unmatched⟩, picks'.defaultRoute.mpr ⟨rfl, unmatched⟩]
    | false => rw [picks.blackhole.mpr ⟨rfl, unmatched⟩, picks'.blackhole.mpr ⟨rfl, unmatched⟩]

theorem preferred_congr (same : ∀ rule, rule ∈ others ↔ rule ∈ rules) :
    Preferred name others rule ↔ Preferred name rules rule :=
  ⟨fun preferred => ⟨(same _).mp preferred.member, preferred.matching,
      fun other member => preferred.longest other ((same _).mpr member),
      fun other member => preferred.foremost other ((same _).mpr member)⟩,
    fun preferred => ⟨(same _).mpr preferred.member, preferred.matching,
      fun other member => preferred.longest other ((same _).mp member),
      fun other member => preferred.foremost other ((same _).mp member)⟩⟩

theorem picksPreferred_congr (same : ∀ rule, rule ∈ others ↔ rule ∈ rules)
    (picks : PicksPreferred name others allowDefault pick) : PicksPreferred name rules allowDefault pick := by
  obtain ⟨links, defaultRoute, blackhole⟩ := picks
  simp only [same, preferred_congr same] at links defaultRoute blackhole
  exact ⟨links, defaultRoute, blackhole⟩

variable {table : SplitDnsTable} {ifindex : Int} {op : SplitOp}

theorem mem_upsertRule (member : other ∈ (table.upsertRule rule).rules) : other ∈ table.rules ∨ other = rule := by
  rw [SplitDnsTable.upsertRule] at member
  split at member
  · exact List.mem_or_eq_of_mem_set member
  · simpa using member

def Cleared (ifindex : Int) (table : SplitDnsTable) : Prop :=
  ∀ rule ∈ table.rules, rule.ifindex ≠ ifindex

theorem cleared_clearLink (table : SplitDnsTable) (ifindex : Int) :
    Cleared ifindex (table.clearLink ifindex) := fun rule member => by
  simpa using (List.mem_filter.mp member).2

theorem cleared_apply (cleared : Cleared ifindex table) (spares : op.Spares ifindex) :
    Cleared ifindex (op.apply table) := by
  intro rule member
  cases op with
  | upsert added =>
    rcases mem_upsertRule member with before | rfl
    · exact cleared rule before
    · exact spares
  | clear other => exact cleared rule (List.mem_filter.mp member).1

theorem cleared_run {ops : List SplitOp} (cleared : Cleared ifindex table)
    (spares : ∀ op ∈ ops, op.Spares ifindex) : Cleared ifindex (ops.foldl SplitOp.apply table) := by
  induction ops generalizing table with
  | nil => exact cleared
  | cons op ops ih =>
    exact ih (cleared_apply cleared (spares op (by simp))) fun op member =>
      spares op (List.mem_cons_of_mem _ member)

theorem not_mem_pick (cleared : Cleared ifindex table) (picked : table.pick name = .links links) :
    ifindex ∉ links := by
  intro member
  have picks := picksPreferred name table.rules table.defaultRouteIfindices table.allowDefault
  by_cases matched : ∃ rule ∈ table.rules, SuffixMatches name rule.suffix
  · obtain ⟨links', eq, -, members⟩ := picks.links matched
    cases picked.symm.trans eq
    obtain ⟨rule, preferred, rfl⟩ := (members ifindex).mp member
    exact cleared rule preferred.member rfl
  · have unmatched : ∀ rule ∈ table.rules, ¬ SuffixMatches name rule.suffix :=
      fun rule member matching => matched ⟨rule, member, matching⟩
    rw [SplitDnsTable.pick] at picked
    cases allow : table.allowDefault with
    | true =>
      rw [picks.defaultRoute.mpr ⟨allow, unmatched⟩] at picked
      cases picked
    | false =>
      rw [picks.blackhole.mpr ⟨allow, unmatched⟩] at picked
      cases picked

/-- A pick is the longest match of the lowest priority, whatever the order and number of the rules,
and a cleared link is not picked until it is given a rule again. -/
theorem pickLinksForName_preferred :
    (∀ (name : Str) (rules : List DomainRule) (defaults : List Int) (allowDefault : Bool),
      PicksPreferred name rules allowDefault (pickLinksForName name rules defaults allowDefault) ∧
      ∀ others : List DomainRule, (∀ rule, rule ∈ others ↔ rule ∈ rules) →
        pickLinksForName name others defaults allowDefault = pickLinksForName name rules defaults allowDefault) ∧
    ∀ (table : SplitDnsTable) (ifindex : Int) (ops : List SplitOp),
      (∀ op ∈ ops, op.Spares ifindex) → ∀ (name : Str) (links : List Int),
        (ops.foldl SplitOp.apply (table.clearLink ifindex)).pick name = .links links → ifindex ∉ links := by
  refine ⟨fun name rules defaults allowDefault => ⟨picksPreferred _ _ _ _, fun others same => ?_⟩, ?_⟩
  · exact picksPreferred_unique (picksPreferred_congr same (picksPreferred name others defaults _))
      (picksPreferred name rules defaults allowDefault)
  · intro table ifindex ops spares name links
    exact not_mem_pick (cleared_run (cleared_clearLink table ifindex) spares)

end Resolved.Proof.SplitDns
