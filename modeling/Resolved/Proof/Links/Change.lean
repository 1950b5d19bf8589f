import Resolved.Proof.Links.Networkd

/-!
# When a call leaves stale answers behind
-/

namespace Resolved.Proof.Links
open Lib Resolved.Routing Resolved.Links Spec Proof.Routing

variable {stored : LinkServerSpecs} {ifindex : Int} {notes : SyncNotes} {links : List NetworkdLink}
  {order : WalkOrder Int} {link : NetworkdLink} {resolver : Resolver}

theorem finishRoutingChange_refreshes {before after : Resolver} {changed : Bool}
    (generation : after.routingGeneration = before.routingGeneration) (cache : after.cache = before.cache)
    (told : changed = false → after.routing = before.routing ∧ after.linkServerSpecs = before.linkServerSpecs) :
    Refreshes before (after.finishRoutingChange changed) := by
  intro differs
  cases changed with
  | true =>
    simp only [Resolver.finishRoutingChange, if_true]
    rw [generation, cache]
    exact ⟨rfl, rfl⟩
  | false =>
    obtain ⟨routing, specs⟩ := told rfl
    simp [Resolver.finishRoutingChange, routing, specs] at differs

theorem refreshes_unfinished : Refreshes before { before with routing := table } ↔ table = before.routing := by
  have moves : before.routingGeneration ≠ (before.routingGeneration + 1) % 2 ^ 64 := by omega
  simp only [Refreshes, moves, ne_eq, not_true, or_false, false_and, imp_false, not_not]

theorem refreshes_self (resolver : Resolver) : Refreshes resolver resolver := by
  simp [Refreshes]

theorem erase_absent (absent : (stored[ifindex]?).isSome = false) : stored.erase ifindex = stored := by
  refine Std.ExtTreeMap.ext_getElem? fun other => ?_
  rw [Std.ExtTreeMap.getElem?_erase]
  split
  · rename_i same
    rw [← Std.LawfulEqCmp.eq_of_compare same]
    rw [Option.isSome_eq_false_iff, Option.isNone_iff_eq_none] at absent
    exact absent.symm
  · rfl

theorem removeLinkServerSpecs_quiet (quiet : (removeLinkServerSpecs stored ifindex).1 = false) :
    (removeLinkServerSpecs stored ifindex).2 = stored :=
  erase_absent quiet

theorem replaceLinkServerSpecs_quiet {specs : List DnsServerSpec}
    (quiet : (replaceLinkServerSpecs stored ifindex specs).1 = false) :
    (replaceLinkServerSpecs stored ifindex specs).2 = stored := by
  unfold replaceLinkServerSpecs at quiet ⊢
  split
  · rename_i empty
    simp only [empty, if_true] at quiet
    exact erase_absent quiet
  · rename_i filled
    simp only [filled, Bool.false_eq_true, if_false] at quiet
    split
    · rfl
    · rename_i other
      simp [other] at quiet

theorem updateAll_quiet {σ α : Type} {update : σ → α → Bool × σ}
    (one : ∀ state value, (update state value).1 = false → (update state value).2 = state) {values : List α}
    {state : σ} (quiet : (updateAll update values state).1 = false) :
    (updateAll update values state).2 = state := by
  have loop : ∀ (step : Bool × σ → α → Bool × σ), (∀ changed state value,
      step (changed, state) value = (changed || (update state value).1, (update state value).2)) →
      ∀ (values : List α) (changed : Bool) (state : σ), (values.foldl step (changed, state)).1 = false →
        changed = false ∧ (values.foldl step (changed, state)).2 = state := by
    intro step takes values
    induction values with
    | nil => exact fun changed state quiet => ⟨quiet, rfl⟩
    | cons value rest ih =>
      intro changed state quiet
      rw [List.foldl_cons, takes] at quiet ⊢
      obtain ⟨both, same⟩ := ih _ _ quiet
      rw [Bool.or_eq_false_iff] at both
      have kept := one state value both.2
      refine ⟨both.1, same.trans kept⟩
  exact (loop _ (fun _ _ _ => rfl) values false state quiet).2

theorem syncNetworkdSpecs_quiet (quiet : (Resolver.syncNetworkdSpecs stored notes).1 = false) :
    (Resolver.syncNetworkdSpecs stored notes).2 = stored := by
  simp only [Resolver.syncNetworkdSpecs, Bool.or_eq_false_iff] at quiet ⊢
  rw [updateAll_quiet (fun _ _ => replaceLinkServerSpecs_quiet) quiet.2,
    updateAll_quiet (fun _ _ => removeLinkServerSpecs_quiet) quiet.1]

theorem setLinkField_refreshes {α : Type} [DecidableEq α] (field : LinkField α) (resolver : Resolver)
    (ifindex : Int) (argument : Except LinkError α) :
    Refreshes resolver (resolver.setLinkField ifindex (·.setField field ifindex argument)).2 ↔
      ¬ (resolver.linkIsManaged ifindex = false ∧ MakesLink resolver.routing ifindex ∧
        ((∃ error, argument = .error error) ∨ argument = .ok (field.get (.fresh ifindex)))) := by
  unfold Resolver.setLinkField
  cases managed : resolver.linkIsManaged ifindex with
  | true => simp [refreshes_self]
  | false =>
    simp only [Bool.false_eq_true, if_false, true_and]
    rcases setField_cases field resolver.routing ifindex argument with
      ⟨unmade, ⟨error, run⟩ | run | ⟨table', run, differ⟩⟩ |
      ⟨makes, table', differ, ⟨error, failed, run⟩ | ⟨same, run⟩ | ⟨accepted, other, run⟩⟩
    · simp [run, refreshes_self, unmade]
    · simp [run, refreshes_self, unmade, Resolver.finishRoutingChange]
    · simp only [run, unmade, false_and, not_false_iff, iff_true]
      exact finishRoutingChange_refreshes rfl rfl (by simp)
    · simp only [run, refreshes_unfinished]
      simp [failed, makes, differ]
    · simp only [run, refreshes_unfinished, Resolver.finishRoutingChange, Bool.false_eq_true, if_false]
      simp [same, makes, differ]
    · simp only [run, other, or_false, not_and, not_exists, accepted, not_false_iff, implies_true, iff_true]
      exact finishRoutingChange_refreshes rfl rfl (by simp)

theorem setLinkDnsSpecs_refreshes (resolver : Resolver) (ifindex : Int) (specs : List DnsServerSpec) :
    Refreshes resolver (resolver.setLinkDnsSpecs ifindex specs).2 ↔
      ¬ LeavesStale resolver (.setLinkDnsSpecs ifindex specs) := by
  simp only [Resolver.setLinkDnsSpecs, LeavesStale]
  cases managed : resolver.linkIsManaged ifindex with
  | true => simp [refreshes_self]
  | false =>
    simp only [Bool.false_eq_true, if_false, true_and, RoutingTable.setDns]
    rcases setField_cases .dnsServers resolver.routing ifindex
      (.ok (pushNew ((specs.map (·.address)).map (normalizeServer ifindex)))) with
      ⟨unmade, ⟨error, run⟩ | run | ⟨table', run, differ⟩⟩ |
      ⟨makes, table', differ, ⟨error, failed, run⟩ | ⟨same, run⟩ | ⟨accepted, other, run⟩⟩
    · simp only [run, refreshes_self, unmade, false_and, not_false_iff]
    · simp only [run, unmade, false_and, not_false_iff, iff_true, Bool.false_or]
      exact finishRoutingChange_refreshes rfl rfl
        fun quiet => ⟨rfl, replaceLinkServerSpecs_quiet quiet⟩
    · simp only [run, unmade, false_and, not_false_iff, iff_true]
      exact finishRoutingChange_refreshes rfl rfl (by simp)
    · cases failed
    · -- a new link has no servers either, so the table reports no change
      have empty : specs = [] := by
        have none : pushNew ((specs.map (·.address)).map (normalizeServer ifindex)) = [] :=
          Except.ok.inj same
        simpa using pushNew_eq_nil.1 none
      subst empty
      simp only [run, makes, true_and, Bool.false_or]
      cases stored : resolver.linkServerSpecs[ifindex]? with
      | none =>
        have unfinished : (replaceLinkServerSpecs resolver.linkServerSpecs ifindex
            (normalizeLinkSpecs (((table'.links[ifindex]?).map (·.dnsServers)).getD []) [])) =
            (false, resolver.linkServerSpecs) := by
          have absent : resolver.linkServerSpecs.erase ifindex = resolver.linkServerSpecs :=
            erase_absent (by rw [stored]; rfl)
          simp [replaceLinkServerSpecs, normalizeLinkSpecs, pushNew, stored, absent]
        simp only [unfinished, Resolver.finishRoutingChange, Bool.false_eq_true, if_false, not_true, iff_false]
        rw [refreshes_unfinished]
        exact differ
      | some specs =>
        simp only [reduceCtorEq, not_false_iff, iff_true]
        exact finishRoutingChange_refreshes rfl rfl (by
          simp [replaceLinkServerSpecs, normalizeLinkSpecs, pushNew, stored])
    · have filled : specs ≠ [] := by
        rintro rfl
        exact other rfl
      simp only [run, filled, false_and, and_false, not_false_iff, iff_true]
      exact finishRoutingChange_refreshes rfl rfl (by simp)

theorem revertLink_refreshes (resolver : Resolver) (ifindex : Int) :
    Refreshes resolver (resolver.revertLink ifindex).2 := by
  unfold Resolver.revertLink
  cases resolver.linkIsManaged ifindex with
  | true => simp [refreshes_self]
  | false =>
    simp only [Bool.false_eq_true, if_false]
    have reports := revert_reports resolver.routing ifindex
    cases run : resolver.routing.revert ifindex with
    | mk result table =>
    rw [run] at reports
    cases result with
    | error error =>
      exact refreshes_unfinished.2 (reports.1 error rfl)
    | ok changed =>
      refine finishRoutingChange_refreshes rfl rfl fun quiet => ?_
      rw [Bool.or_eq_false_iff] at quiet
      have unchanged : table = resolver.routing := by
        by_contra differ
        have told := (reports.2 changed rfl).2 differ
        rw [quiet.1] at told
        cases told
      exact ⟨unchanged, removeLinkServerSpecs_quiet quiet.2⟩

theorem filter_eq_self_of_size {keep : Int → List DnsServerSpec → Bool}
    (same : (stored.filter keep).size = stored.size) : stored.filter keep = stored := by
  have all := Std.ExtTreeMap.size_filter_eq_size_iff.1 same
  refine Std.ExtTreeMap.ext_getElem? fun ifindex => ?_
  rw [Std.ExtTreeMap.getElem?_filter']
  cases found : stored[ifindex]? with
  | none => rfl
  | some specs =>
    obtain ⟨present, value⟩ := Std.ExtTreeMap.getElem?_eq_some_iff.1 found
    have kept := all ifindex present
    simp_all

theorem syncKernelLinks_refreshes (resolver : Resolver) (kernels : List KernelLinkState) :
    Refreshes resolver (resolver.syncKernelLinks kernels).2 ↔
      ¬ LeavesStale resolver (.syncKernelLinks kernels) := by
  unfold Resolver.syncKernelLinks LeavesStale
  rcases syncKernelLinks_cases resolver.routing kernels with ⟨error, looped, run, invalid, same⟩ |
    ⟨changed, retained, run, valid, changed_iff, same⟩
  · simp [run, refreshes_unfinished, invalid, same]
  · have noInvalid : ¬ ∃ kernel ∈ kernels, kernel.ifindex ≤ 0 := by
      rintro ⟨kernel, member, low⟩
      exact absurd (valid kernel member) (not_lt.2 low)
    simp only [run, noInvalid, false_and, not_false_iff, iff_true]
    refine finishRoutingChange_refreshes rfl rfl fun quiet => ?_
    rw [Bool.or_eq_false_iff, decide_eq_false_iff_not, not_not] at quiet
    have untold : ¬ changed = true := by simp [quiet.1]
    rw [changed_iff] at untold
    push Not at untold
    obtain ⟨synchronized, stored, covered⟩ := untold
    have flag : resolver.routing.kernelSynchronized = true := by simpa using synchronized
    exact ⟨same.2 ⟨flag, settled_of_stored stored, covered flag⟩, filter_eq_self_of_size quiet.2⟩

theorem mem_walk {links : NetworkdLinks} : (ifindex, link) ∈ walk links order ↔ links[ifindex]? = some link := by
  simp only [walk, List.mem_filterMap, Option.map_eq_some_iff, Prod.mk.injEq, WalkOrder.mem_arrange,
    Std.ExtTreeMap.mem_keys]
  constructor
  · rintro ⟨key, -, found, stored, rfl, rfl⟩
    exact stored
  · intro stored
    refine ⟨ifindex, ?_, link, stored, rfl, rfl⟩
    rw [Std.ExtTreeMap.mem_iff_isSome_getElem?, stored]
    rfl

theorem walk_keys_nodup (links : NetworkdLinks) (order : WalkOrder Int) : ((walk links order).map (·.1)).Nodup := by
  have keys : (order.arrange links.keys).Nodup := by
    rw [(order.perm links.keys).nodup_iff]
    exact Std.ExtTreeMap.nodup_keys
  rw [walk, List.map_filterMap]
  refine keys.filterMap ?_
  intro key key' found left right
  simp only [Option.map_map, Option.mem_def, Option.map_eq_some_iff, Function.comp_apply] at left right
  obtain ⟨-, -, rfl⟩ := left
  obtain ⟨-, -, same⟩ := right
  exact same.symm

theorem incomingLinks_keyed (found : (Resolver.incomingLinks links)[ifindex]? = some link) : link.ifindex = ifindex := by
  have loop : ∀ (links : List NetworkdLink) (incoming : NetworkdLinks),
      (∀ (ifindex : Int) link, incoming[ifindex]? = some link → link.ifindex = ifindex) →
      ∀ (ifindex : Int) link, (links.foldl (fun incoming link =>
        incoming.insert link.ifindex link) incoming)[ifindex]? = some link →
        link.ifindex = ifindex := by
    intro links
    induction links with
    | nil => exact fun _ keyed => keyed
    | cons first rest ih =>
      intro incoming keyed
      refine ih _ fun ifindex link stored => ?_
      rw [Std.ExtTreeMap.getElem?_insert] at stored
      split at stored
      · rename_i own
        cases stored
        exact Std.LawfulEqCmp.eq_of_compare own
      · exact keyed ifindex link stored
  exact loop links ∅ (by simp) ifindex link found

theorem mem_managedLinks (member : link ∈ managedLinks links order) :
    (Resolver.incomingLinks links)[link.ifindex]? = some link ∧ link.managed = true := by
  simp only [managedLinks, List.mem_filter, List.mem_map] at member
  obtain ⟨⟨⟨ifindex, settings⟩, walked, rfl⟩, managed⟩ := member
  have stored := mem_walk.1 walked
  rw [incomingLinks_keyed stored]
  exact ⟨stored, managed⟩

theorem managedLinks_distinct (links : List NetworkdLink) (order : WalkOrder Int) :
    ((managedLinks links order).map (·.ifindex)).Nodup := by
  have keys : ((walk (Resolver.incomingLinks links) order).map (·.2)).map (·.ifindex) =
      (walk (Resolver.incomingLinks links) order).map (·.1) := by
    rw [List.map_map]
    refine List.map_congr_left ?_
    rintro ⟨ifindex, settings⟩ walked
    exact incomingLinks_keyed (mem_walk.1 walked)
  have all := walk_keys_nodup (Resolver.incomingLinks links) order
  rw [← keys] at all
  exact all.sublist (List.filter_sublist.map _)

theorem leaving_iff_departed {incoming : NetworkdLinks} :
    Leaving incoming (walk resolver.networkdLinks order) ifindex ↔ Departed resolver incoming ifindex := by
  simp only [Leaving, Departed, mem_walk]
  constructor
  · rintro ⟨previous, stored, managed, gone⟩
    exact ⟨⟨previous, stored, managed⟩, gone⟩
  · rintro ⟨⟨previous, stored, managed⟩, gone⟩
    exact ⟨previous, stored, managed, gone⟩

theorem syncNetworkdTable_eq {previousOrder incomingOrder : WalkOrder Int} {reverted : RoutingTable}
    (depart : DepartRun (Resolver.incomingLinks links) (walk resolver.networkdLinks previousOrder)
      .start resolver.routing notes reverted) :
    resolver.syncNetworkdTable (Resolver.incomingLinks links) previousOrder incomingOrder =
      applyLoop resolver.config (managedLinks links incomingOrder) notes reverted := by
  simp only [Resolver.syncNetworkdTable, depart.run]
  rfl

theorem syncNetworkdTable_run (resolver : Resolver) (links : List NetworkdLink)
    (previousOrder incomingOrder : WalkOrder Int) :
    let run := resolver.syncNetworkdTable (Resolver.incomingLinks links) previousOrder incomingOrder
    ((∃ error, run.1 = .error error) ↔ ∃ link ∈ managedLinks links incomingOrder,
      (resolver.routing.links[link.ifindex]?).isSome ∧ refused link) ∧ (run.2 = resolver.routing ↔
      ¬ ((∃ ifindex link, Departed resolver (Resolver.incomingLinks links) ifindex ∧
          resolver.routing.links[ifindex]? = some link ∧ revertedLink link ≠ link) ∨
        ∃ settings ∈ writtenLinks resolver.routing (managedLinks links incomingOrder), ∃ link,
          resolver.routing.links[settings.ifindex]? = some link ∧
            networkdTarget resolver.config settings link ≠ link)) ∧
    ∀ notes, run.1 = .ok notes → notes.changed = false → run.2 = resolver.routing := by
  obtain ⟨notes, reverted, depart⟩ := departLoop_run (Resolver.incomingLinks links)
    (walk resolver.networkdLinks previousOrder) .start resolver.routing
  have apply := applyLoop_run resolver.config (managedLinks links incomingOrder)
    (managedLinks_distinct links incomingOrder) notes reverted
  have leaving := fun ifindex departed =>
    depart.leaving ifindex (leaving_iff_departed.2 departed)
  have staying := fun ifindex
      (stays : ¬ Departed resolver (Resolver.incomingLinks links) ifindex) =>
    depart.staying ifindex fun leaves => stays (leaving_iff_departed.1 leaves)
  have present : ∀ ifindex : Int,
      (reverted.links[ifindex]?).isNone = (resolver.routing.links[ifindex]?).isNone := by
    intro ifindex
    by_cases departed : Departed resolver (Resolver.incomingLinks links) ifindex
    · rw [leaving ifindex departed, Option.isNone_map]
    · rw [staying ifindex departed]
  have written := writtenLinks_congr present (managedLinks links incomingOrder)
  -- a link that is written is managed now, so the first loop has left it alone
  have kept : ∀ settings ∈ managedLinks links incomingOrder,
      ¬ Departed resolver (Resolver.incomingLinks links) settings.ifindex := by
    rintro settings member ⟨-, gone⟩
    obtain ⟨stored, managed⟩ := mem_managedLinks member
    simp [stillManaged, stored, managed] at gone
  simp only [syncNetworkdTable_eq depart]
  refine ⟨?_, ?_, ?_⟩
  · rw [apply.fails]
    have there : ∀ ifindex : Int,
        (reverted.links[ifindex]?).isSome = (resolver.routing.links[ifindex]?).isSome := by
      intro ifindex
      rw [← Option.not_isNone, present, Option.not_isNone]
    simp only [there]
  · rw [table_eq_iff, and_iff_left (apply.flag.trans depart.flag)]
    constructor
    · rintro same (⟨ifindex, link, departed, found, differ⟩ | ⟨settings, member, link, found, differ⟩)
      · have after := same ifindex
        rw [apply.others ifindex, leaving ifindex departed, found] at after
        · exact differ (Option.some.inj after)
        · intro settings member own
          rw [written] at member
          exact kept settings (mem_of_writtenLinks member) (own ▸ departed)
      · have after := same settings.ifindex
        rw [apply.written settings (written ▸ member),
          staying _ (kept settings (mem_of_writtenLinks member)), found] at after
        exact differ (Option.some.inj after)
    · intro unchanged ifindex
      push Not at unchanged
      by_cases target : ∃ settings ∈ writtenLinks resolver.routing (managedLinks links incomingOrder),
          settings.ifindex = ifindex
      · obtain ⟨settings, member, rfl⟩ := target
        rw [apply.written settings (written ▸ member), staying _ (kept settings (mem_of_writtenLinks member))]
        cases found : resolver.routing.links[settings.ifindex]? with
        | none => rfl
        | some link => exact congrArg some (unchanged.2 settings member link found)
      · push Not at target
        rw [apply.others ifindex (written ▸ target)]
        by_cases departed : Departed resolver (Resolver.incomingLinks links) ifindex
        · rw [leaving ifindex departed]
          cases found : resolver.routing.links[ifindex]? with
          | none => rfl
          | some link => exact congrArg some (unchanged.1 ifindex link departed found)
        · exact staying ifindex departed
  · intro notes' ok quiet
    obtain ⟨before, same⟩ := apply.quiet notes' ok quiet
    exact same.trans (depart.quiet before).2

theorem syncNetworkdLinks_refreshes (resolver : Resolver) (links : List NetworkdLink)
    (previousOrder incomingOrder : WalkOrder Int) :
    Refreshes resolver (resolver.syncNetworkdLinks links previousOrder incomingOrder).2 ↔
      ¬ LeavesStale resolver (.syncNetworkdLinks links previousOrder incomingOrder) := by
  obtain ⟨fails, same, quiet⟩ :=
    syncNetworkdTable_run resolver links previousOrder incomingOrder
  simp only [Resolver.syncNetworkdLinks, LeavesStale]
  rw [← fails]
  cases run : resolver.syncNetworkdTable (Resolver.incomingLinks links) previousOrder
    incomingOrder with
  | mk result table =>
  rw [run] at same quiet
  cases result with
  | error error =>
    simp only [refreshes_unfinished, same, Except.error.injEq, exists_eq', true_and]
  | ok notes =>
    simp only [reduceCtorEq, exists_false, false_and, not_false_iff, iff_true]
    refine finishRoutingChange_refreshes rfl rfl fun untold => ?_
    rw [Bool.or_eq_false_iff] at untold
    exact ⟨quiet notes rfl untold.1, syncNetworkdSpecs_quiet untold.2⟩

/-- A call that changes the link configuration moves the generation on and flushes the cache, except
in the cases `LeavesStale` lists. -/
theorem linkOp_refreshes_iff (resolver : Resolver) (op : LinkOp) :
    Refreshes resolver (op.apply resolver).2 ↔ ¬ LeavesStale resolver op := by
  cases op with
  | syncNetworkdLinks links previousOrder incomingOrder =>
    exact syncNetworkdLinks_refreshes resolver links previousOrder incomingOrder
  | syncKernelLinks kernels => exact syncKernelLinks_refreshes resolver kernels
  | setLinkDnsSpecs ifindex specs => exact setLinkDnsSpecs_refreshes resolver ifindex specs
  | setLinkDomains ifindex domains =>
    refine (setLinkField_refreshes .domains resolver ifindex _).trans ?_
    have trouble := collected_trouble normalizeDomain domains
    simp only [normalizeDomain_error] at trouble
    rw [LeavesStale, Misreports, ← trouble]
    rfl
  | setLinkDns ifindex servers =>
    refine (setLinkDnsSpecs_refreshes resolver ifindex (servers.map bareSpec)).trans ?_
    simp [LeavesStale]
  | setLinkDefaultRoute ifindex mode | setLinkDnssec ifindex mode | setLinkDnsOverTls ifindex mode
  | setLinkLlmnr ifindex mode | setLinkMulticastDns ifindex mode =>
    refine (setLinkField_refreshes _ resolver ifindex _).trans ?_
    simp [LeavesStale, Misreports, LinkField.defaultRoute, LinkField.dnssec, LinkField.dnsOverTls,
      LinkField.llmnr, LinkField.multicastDns, LinkState.fresh]
  | setLinkDnssecNegativeTrustAnchors ifindex anchors =>
    refine (setLinkField_refreshes .dnssecNegativeTrustAnchors resolver ifindex _).trans ?_
    rw [LeavesStale, Misreports, ← collected_trouble normalizeName anchors]
    rfl
  | revertLink ifindex =>
    exact iff_of_true (revertLink_refreshes resolver ifindex) not_false

def resolverWithLink2 : Resolver where
  config := ⟨[], [], [], [], [], .no, .no, true, true, []⟩
  routing := (RoutingTable.empty.syncKernelLinks [reportOf2 1500]).2
  networkdLinks := ∅
  linkServerSpecs := ∅
  routingGeneration := 1
  cache := Caching.Cache.new 64 (7200 * Caching.nanosPerSecond) 0 true

def refusedLink2 : NetworkdLink :=
  ⟨2, true, .routable, [.v4 ⟨192, 0, 2, 53⟩ 53], [], [⟨"a..b".toList, false⟩], none, .no, .no, none, none, []⟩

theorem linkOp_leaves_stale :
    ¬ Refreshes resolverWithLink2
      ((LinkOp.syncNetworkdLinks [refusedLink2] .asListed .asListed).apply resolverWithLink2).2 ∧
    ¬ Refreshes { resolverWithLink2 with routing := .empty }
      ((LinkOp.setLinkDomains 2 [⟨"a..b".toList, false⟩]).apply
        { resolverWithLink2 with routing := .empty }).2 := by
  constructor <;>
    exact fun refreshes => absurd (refreshes (.inl (by decide +kernel))).1 (by decide +kernel)

end Resolved.Proof.Links
