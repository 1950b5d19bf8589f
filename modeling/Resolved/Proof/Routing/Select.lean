import Resolved.Lib.Separated
import Resolved.Spec.Routing

namespace Resolved.Proof.Routing
open Lib Resolved.Routing Spec

theorem labels_lower (name : Str) (lower : toAsciiLowercase name = name) :
    (labels name).map toAsciiLowercase = labels name := by
  unfold labels
  split
  · rfl
  · have split := splitOn_map '.' lowerChar lowerChar_eq_dot name
    have here : name.map lowerChar = name := lower
    rw [here] at split
    exact split.symm

theorem normalizeName_normal (h : normalizeName raw = .ok name) : GlobalDomain name := by
  unfold normalizeName at h
  generalize trimEndWith (· == '.') (trim raw) = trimmed at h
  simp only at h
  split at h
  · rw [Except.ok.injEq] at h
    exact .inl h.symm
  · generalize (if trimmed.head? = some '~' then trimmed.tail else trimmed) = bare at h
    split at h
    · cases h
    · rename_i accepted
      rw [Except.ok.injEq] at h
      subst h
      push Not at accepted
      obtain ⟨nonempty, -, -, parts⟩ := accepted
      refine .inr ⟨by simpa [toAsciiLowercase] using nonempty, ?_, toAsciiLowercase_idem _⟩
      intro dot
      -- a dot at the end would leave an empty label behind it
      rw [toAsciiLowercase, List.getLast?_map, Option.map_eq_some_iff] at dot
      obtain ⟨last, ends, isDot⟩ := dot
      rw [lowerChar_eq_dot] at isDot
      subst isDot
      obtain ⟨front, rfl⟩ := List.getLast?_eq_some_iff.1 ends
      have empty : [] ∈ splitAtChar '.' (front ++ ['.']) := by
        unfold splitAtChar
        rw [List.splitOn_append_cons_self]
        simp
      have bad : (splitAtChar '.' (front ++ ['.'])).any
          (fun label => label.isEmpty || 63 < label.length) = true :=
        List.any_eq_true.2 ⟨[], empty, rfl⟩
      exact absurd bad parts

theorem stripSuffix_dot_iff (name domain : Str) :
    (stripSuffix name domain).any (fun front => front.getLast? = some '.') = true ↔
      ∃ front, name = front ++ '.' :: domain := by
  unfold stripSuffix
  constructor
  · intro h
    split at h
    · rename_i isSuffix
      obtain ⟨front, rfl⟩ := List.isSuffixOf_iff_suffix.1 isSuffix
      simp only [Option.any_some, List.length_append, Nat.add_sub_cancel, List.take_left', decide_eq_true_eq] at h
      obtain ⟨before, rfl⟩ := List.getLast?_eq_some_iff.1 h
      exact ⟨before, by simp⟩
    · simp at h
  · rintro ⟨front, rfl⟩
    have isSuffix : domain.isSuffixOf (front ++ '.' :: domain) = true :=
      List.isSuffixOf_iff_suffix.2 ⟨front ++ ['.'], by simp⟩
    rw [if_pos isSuffix]
    have length : (front ++ '.' :: domain).length - domain.length = (front ++ ['.']).length := by
      simp
      omega
    have whole : front ++ '.' :: domain = (front ++ ['.']) ++ domain := by simp
    rw [length, whole, List.take_left']
    · simp
    · rfl

theorem domainMatchLabels_eq (hname : GlobalDomain name) (hdomain : GlobalDomain domain) (count : Nat) :
    domainMatchLabels name domain = some count ↔ Covers domain name ∧ (labels domain).length = count := by
  unfold domainMatchLabels Covers
  by_cases root : domain = ['.']
  · simp [root, labels]
  · obtain ⟨nonempty, noDot, lower⟩ := hdomain.resolve_left root
    have lowerName : toAsciiLowercase name = name := by
      rcases hname with rfl | ⟨-, -, lower⟩
      · decide
      · exact lower
    rw [labels_lower name lowerName, labels_lower domain lower]
    have matched : (eqIgnoreAsciiCase name domain = true ∨
        (stripSuffix name domain).any (fun front => front.getLast? = some '.') = true) ↔
          labels domain <:+ labels name := by
      rw [stripSuffix_dot_iff, eqIgnoreAsciiCase, lowerName, lower, beq_iff_eq]
      unfold labels
      rw [if_neg root]
      by_cases rootName : name = ['.']
      · -- nothing but the root covers the root
        subst rootName
        simp only [if_true]
        constructor
        · rintro (same | ⟨front, whole⟩)
          · exact absurd same.symm root
          · have length := congrArg List.length whole
            simp only [List.length_append, List.length_cons, List.length_nil] at length
            exact absurd (List.length_eq_zero_iff.1 (by omega)) nonempty
        · intro none
          exact absurd (List.suffix_nil.1 none) (List.splitOnP_ne_nil _ _)
      · rw [if_neg rootName, splitOn_suffix_iff]
    simp only [root, if_false, matched]
    unfold labels splitAtChar
    simp [root]

theorem bestDomainMatch_eq {name : Str} {domains : List Str} (hname : GlobalDomain name)
    (hdomains : ∀ domain ∈ domains, GlobalDomain domain) (count : Nat) :
    bestDomainMatch name domains = some count ↔ LongestMatch name domains count := by
  unfold bestDomainMatch LongestMatch
  rw [List.max?_eq_some_iff]
  simp only [List.mem_filterMap]
  constructor
  · rintro ⟨⟨domain, member, found⟩, most⟩
    refine ⟨⟨domain, member, (domainMatchLabels_eq hname (hdomains domain member) count).1 found⟩, ?_⟩
    intro other member' covers
    exact most _ ⟨other, member', (domainMatchLabels_eq hname (hdomains other member') _).2 ⟨covers, rfl⟩⟩
  · rintro ⟨⟨domain, member, found⟩, most⟩
    refine ⟨⟨domain, member, (domainMatchLabels_eq hname (hdomains domain member) count).2 found⟩, ?_⟩
    rintro count' ⟨other, member', found'⟩
    obtain ⟨covers, rfl⟩ := (domainMatchLabels_eq hname (hdomains other member') _).1 found'
    exact most other member' covers

theorem mem_linkList {table : RoutingTable} {link : LinkState} :
    link ∈ table.linkList ↔ table.links[link.ifindex]? = some link := by
  unfold RoutingTable.linkList
  simp only [List.mem_map, Prod.exists, exists_eq_right]
  constructor
  · rintro ⟨ifindex, member⟩
    have found := Std.ExtTreeMap.mem_toList_iff_getElem?_eq_some.1 member
    rwa [(table.keyed ifindex link found).2]
  · intro found
    exact ⟨link.ifindex, Std.ExtTreeMap.mem_toList_iff_getElem?_eq_some.2 found⟩

theorem linkList_sorted (table : RoutingTable) :
    table.linkList.Pairwise fun link other => link.ifindex < other.ifindex := by
  unfold RoutingTable.linkList
  rw [List.pairwise_map]
  refine Std.ExtTreeMap.ordered_keys_toList.imp_of_mem ?_
  rintro ⟨ifindex, link⟩ ⟨ifindex', link'⟩ member member' below
  rw [Std.ExtTreeMap.mem_toList_iff_getElem?_eq_some] at member member'
  rw [(table.keyed ifindex link member).2, (table.keyed ifindex' link' member').2]
  exact compare_lt_iff_lt.1 below

theorem eligible_iff {link : LinkState} :
    link.eligible = true ↔ link.dnsServers ≠ [] ∧ link.kernelRelevantUnicast = true := by
  simp [LinkState.eligible]

theorem scope_before {link other : LinkState} (below : link.ifindex < other.ifindex) :
    ScopeBefore link.scope other.scope := below

theorem defaultScopes_sorted (table : RoutingTable) (globalServers : List SocketAddr) :
    (table.defaultScopes globalServers).Pairwise ScopeBefore := by
  unfold RoutingTable.defaultScopes
  rw [List.pairwise_append]
  refine ⟨by split <;> simp, ?_, ?_⟩
  · rw [List.pairwise_map]
    exact ((linkList_sorted table).filter _).imp scope_before
  · intro scope inGlobal other inLinks
    obtain ⟨link, -, rfl⟩ := List.mem_map.1 inLinks
    split at inGlobal
    · simp at inGlobal
    · obtain rfl := List.mem_singleton.1 inGlobal
      trivial

theorem scopeMatches_sorted (table : RoutingTable) (name : Str) (globalServers : List SocketAddr)
    (globalDomains : List Domain) :
    (table.scopeMatches name globalServers globalDomains).Pairwise
      fun found other => ScopeBefore found.2 other.2 := by
  unfold RoutingTable.scopeMatches
  rw [List.pairwise_append]
  refine ⟨?_, ?_, ?_⟩
  · split
    · simp
    · cases bestDomainMatch name (globalDomains.map (·.name)) <;> simp
  · rw [List.pairwise_filterMap]
    refine ((linkList_sorted table).filter _).imp ?_
    intro link other below found matched found' matched'
    obtain ⟨labels, -, rfl⟩ := Option.map_eq_some_iff.1 matched
    obtain ⟨labels', -, rfl⟩ := Option.map_eq_some_iff.1 matched'
    exact scope_before below
  · intro found inGlobal other inLinks
    obtain ⟨link, -, matched⟩ := List.mem_filterMap.1 inLinks
    obtain ⟨labels, -, rfl⟩ := Option.map_eq_some_iff.1 matched
    split at inGlobal
    · simp at inGlobal
    · obtain ⟨labels, -, rfl⟩ := List.mem_map.1 inGlobal
      trivial

theorem mem_defaultScopes {question : RouteQuestion} {scope : RouteScope} :
    scope ∈ question.table.defaultScopes question.globalServers ↔ question.Default scope := by
  unfold RoutingTable.defaultScopes
  rw [List.mem_append]
  constructor
  · rintro (inGlobal | inLinks)
    · split at inGlobal
      · simp at inGlobal
      · rename_i servers
        obtain rfl := List.mem_singleton.1 inGlobal
        exact .global (by simpa using servers)
    · simp only [List.mem_map, List.mem_filter, Bool.and_eq_true] at inLinks
      obtain ⟨link, ⟨member, route, eligible⟩, rfl⟩ := inLinks
      obtain ⟨servers, relevant⟩ := eligible_iff.1 eligible
      exact .link link.ifindex link (mem_linkList.1 member) servers relevant route
  · intro default
    cases default with
    | global servers =>
      left
      rw [if_neg (by simpa using servers)]
      exact List.mem_singleton.2 rfl
    | link ifindex link found servers relevant route =>
      right
      have own := (question.table.keyed ifindex link found).2
      subst own
      simp only [List.mem_map, List.mem_filter, Bool.and_eq_true]
      exact ⟨link, ⟨mem_linkList.2 found, route, eligible_iff.2 ⟨servers, relevant⟩⟩, rfl⟩

section
variable {question : RouteQuestion} (hname : GlobalDomain question.name)
  (hdomains : ∀ domain ∈ question.globalDomains, GlobalDomain domain.name)
include hname hdomains

theorem mem_scopeMatches {count : Nat} {scope : RouteScope} :
    (count, scope) ∈ question.table.scopeMatches question.name question.globalServers
      question.globalDomains ↔ question.Matches scope count := by
  have linkDomains : ∀ link : LinkState, ∀ domain ∈ link.domainNames, GlobalDomain domain := by
    intro link domain member
    obtain ⟨stored, -, rfl⟩ := List.mem_map.1 member
    obtain ⟨raw, accepted⟩ := stored.normal
    exact normalizeName_normal accepted
  have globalDomains : ∀ domain ∈ question.globalDomains.map (·.name), GlobalDomain domain := by
    intro domain member
    obtain ⟨stored, inList, rfl⟩ := List.mem_map.1 member
    exact hdomains stored inList
  unfold RoutingTable.scopeMatches
  rw [List.mem_append]
  constructor
  · rintro (inGlobal | inLinks)
    · split at inGlobal
      · simp at inGlobal
      · rename_i servers
        simp only [List.mem_map, Option.mem_toList, Prod.mk.injEq] at inGlobal
        obtain ⟨labels, best, rfl, rfl⟩ := inGlobal
        exact ⟨_, .global (by simpa using servers), (bestDomainMatch_eq hname globalDomains _).1 best⟩
    · simp only [List.mem_filterMap, List.mem_filter, Option.map_eq_some_iff, Prod.mk.injEq]
        at inLinks
      obtain ⟨link, ⟨member, eligible⟩, labels, best, rfl, rfl⟩ := inLinks
      obtain ⟨servers, relevant⟩ := eligible_iff.1 eligible
      exact ⟨_, .link link.ifindex link (mem_linkList.1 member) servers relevant,
        (bestDomainMatch_eq hname (linkDomains link) _).1 best⟩
  · rintro ⟨domains, eligible, best⟩
    cases eligible with
    | global servers =>
      left
      rw [if_neg (by simpa using servers)]
      simp only [List.mem_map, Option.mem_toList, Prod.mk.injEq, and_true, exists_eq_right]
      exact (bestDomainMatch_eq hname globalDomains _).2 best
    | link ifindex link found servers relevant =>
      right
      have own := (question.table.keyed ifindex link found).2
      subst own
      simp only [List.mem_filterMap, List.mem_filter, Option.map_eq_some_iff, Prod.mk.injEq]
      exact ⟨link, ⟨mem_linkList.2 found, eligible_iff.2 ⟨servers, relevant⟩⟩, count,
        (bestDomainMatch_eq hname (linkDomains link) _).2 best, rfl, rfl⟩

theorem select_eq {raw : Str} (accepted : normalizeName raw = .ok question.name) :
    ∃ scopes, question.table.select raw none question.globalServers question.fallbackServers
        question.globalDomains = .ok scopes ∧
      scopes.Pairwise ScopeBefore ∧ ∀ scope, scope ∈ scopes ↔ question.Selected scope := by
  have matches_iff := @mem_scopeMatches question hname hdomains
  simp only [RoutingTable.select, Option.filter_none, accepted, ok_bind]
  cases best : ((question.table.scopeMatches question.name question.globalServers
      question.globalDomains).map (·.1)).max? with
  | some most =>
    obtain ⟨member, top⟩ := List.max?_eq_some_iff.1 best
    obtain ⟨⟨labels, first⟩, inFirst, rfl⟩ := List.mem_map.1 member
    have upper : ∀ other count, question.Matches other count → count ≤ labels :=
      fun other count h => top count (List.mem_map.2 ⟨(count, other), matches_iff.2 h, rfl⟩)
    refine ⟨_, rfl, ?_, fun scope => ?_⟩
    · rw [List.pairwise_filterMap]
      refine (scopeMatches_sorted _ _ _ _).imp ?_
      intro found other before scope matched scope' matched'
      split at matched <;> split at matched' <;> simp_all
    · have inScopes : scope ∈ (question.table.scopeMatches question.name question.globalServers
          question.globalDomains).filterMap
            (fun found => if found.1 = labels then some found.2 else none) ↔
            question.Matches scope labels := by
        rw [List.mem_filterMap, ← matches_iff]
        constructor
        · rintro ⟨⟨count, found⟩, inFound, kept⟩
          split at kept
          · rename_i same
            obtain rfl := Option.some.inj kept
            subst same
            exact inFound
          · cases kept
        · intro inFound
          exact ⟨_, inFound, by simp⟩
      refine inScopes.trans ⟨fun here => .longest here upper, fun selected => ?_⟩
      cases selected with
      | longest here most =>
        rwa [le_antisymm (upper _ _ here) (most _ _ (matches_iff.1 inFirst))] at here
      | default uncovered
      | fallback uncovered => exact absurd (matches_iff.1 inFirst) (uncovered _ _)
  | none =>
    rw [List.max?_eq_none_iff, List.map_eq_nil_iff] at best
    have uncovered : ∀ other count, ¬ question.Matches other count := by
      intro other count h
      have member := matches_iff.2 h
      rw [best] at member
      simp at member
    have defaults : ∀ scope, scope ∈ question.table.defaultScopes question.globalServers ↔
        question.Default scope := fun _ => mem_defaultScopes
    simp only
    split
    · rename_i empty
      obtain ⟨noScopes, servers⟩ := empty
      have none : ∀ scope, ¬ question.Default scope := by
        intro scope default
        rw [← defaults, List.isEmpty_iff.1 noScopes] at default
        simp at default
      refine ⟨_, rfl, by simp, fun scope => ?_⟩
      rw [List.mem_singleton]
      constructor
      · rintro rfl
        exact .fallback uncovered none (by simpa using servers)
      · intro selected
        cases selected with
        | longest here => exact absurd here (uncovered _ _)
        | default _ default => exact absurd default (none scope)
        | fallback => rfl
    · rename_i some
      refine ⟨_, rfl, defaultScopes_sorted _ _, fun scope => ?_⟩
      rw [defaults]
      constructor
      · exact fun default => .default uncovered default
      · intro selected
        cases selected with
        | longest here => exact absurd here (uncovered _ _)
        | default _ default => exact default
        | fallback _ none servers =>
          refine absurd ⟨?_, by simpa using servers⟩ some
          rw [List.isEmpty_iff, List.eq_nil_iff_forall_not_mem]
          exact fun other member => none other ((defaults other).1 member)

end

/-- `select` without an interface returns exactly the scopes with the longest matching domain, or
else the scopes for uncovered names, in their order; no scope with a shorter match is among them. -/
theorem select_longest_match (question : RouteQuestion) (raw : Str)
    (accepted : normalizeName raw = .ok question.name)
    (hdomains : ∀ domain ∈ question.globalDomains, GlobalDomain domain.name) :
    ∃ scopes, question.table.select raw none question.globalServers question.fallbackServers
        question.globalDomains = .ok scopes ∧
      scopes.Pairwise ScopeBefore ∧ (∀ scope, scope ∈ scopes ↔ question.Selected scope) ∧
      ∀ scope ∈ scopes, ∀ other count, question.Matches other count →
        ∃ count', question.Matches scope count' ∧ count ≤ count' := by
  obtain ⟨scopes, selects, sorted, members⟩ :=
    select_eq (normalizeName_normal accepted) hdomains accepted
  refine ⟨scopes, selects, sorted, members, ?_⟩
  intro scope member other count covered
  cases (members scope).1 member with
  | longest here most => exact ⟨_, here, most other count covered⟩
  | default uncovered | fallback uncovered => exact absurd covered (uncovered other count)

def splitQuestion : RouteQuestion where
  table :=
    let servers : List SocketAddr := [.v4 ⟨192, 0, 2, 1⟩ 53]
    (((RoutingTable.empty.setDns 2 servers).2.setDns 3 servers).2.setDomains 3
      [⟨"Corp.Example".toList, true⟩]).2
  name := "host.corp.example".toList
  globalServers := [.v4 ⟨192, 0, 2, 9⟩ 53]
  fallbackServers := []
  globalDomains := [⟨"example".toList, false⟩]

theorem select_longest_match_splitQuestion :
    ∃ scopes, splitQuestion.table.select "Host.CORP.example.".toList none
        splitQuestion.globalServers splitQuestion.fallbackServers splitQuestion.globalDomains = .ok scopes ∧
      scopes.Pairwise ScopeBefore ∧ (∀ scope, scope ∈ scopes ↔ splitQuestion.Selected scope) ∧
      ∀ scope ∈ scopes, ∀ other count, splitQuestion.Matches other count →
        ∃ count', splitQuestion.Matches scope count' ∧ count ≤ count' := by
  refine select_longest_match splitQuestion "Host.CORP.example.".toList (by decide +kernel) ?_
  intro domain member
  obtain rfl := List.mem_singleton.1 member
  exact .inr ⟨by decide, by decide, by decide⟩

end Resolved.Proof.Routing
