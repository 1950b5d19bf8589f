import Resolved.Proof.Routing.Table
import Resolved.Spec.LinkChange

/-!
# What `sync_networkd_links` does to the routing table
-/

namespace Resolved.Proof.Links
open Lib Resolved.Routing Resolved.Links Spec Proof.Routing

variable {table : RoutingTable} {link : LinkState} {ifindex : Int}

theorem put_put {link' : LinkState} {positive : 0 < link.ifindex} {positive' : 0 < link'.ifindex}
    (own : link.ifindex = link'.ifindex) :
    (table.put link positive).put link' positive' = table.put link' positive' := by
  rw [table_eq_iff]
  refine ⟨fun ifindex => ?_, rfl⟩
  simp only [put_links, own]
  split <;> rfl

def Reached (table : RoutingTable) (link : LinkState) (outcome : Outcome) (current : LinkState) :
    Prop :=
  ∃ changed positive, outcome = (.ok changed, table.put current positive) ∧
    current.ifindex = link.ifindex ∧ (changed = false → current = link)

theorem setField_found {α : Type} [DecidableEq α] (field : LinkField α)
    (found : table.links[ifindex]? = some link) (value : α) :
    Reached table link (table.setField field ifindex (.ok value)) (field.set link value) := by
  obtain ⟨positive, own⟩ := table.keyed ifindex link found
  have positive' : 0 < (field.set link value).ifindex := by
    rw [field.set_ifindex, own]
    exact positive
  have entered := linkMut_found found
  by_cases same : field.get link = value
  · have kept : field.set link value = link := by rw [← same, field.set_get]
    refine ⟨false, positive', ?_, field.set_ifindex _ _, fun _ => kept⟩
    have unchanged : table.put (field.set link value) positive' = table :=
      put_eq_self_iff.2 (by rw [field.set_ifindex, own, found, kept])
    simp only [RoutingTable.setField, entered, same, if_true, unchanged]
  · refine ⟨true, positive', ?_, field.set_ifindex _ _, by simp⟩
    simp only [RoutingTable.setField, entered, same, if_false]
where
  linkMut_found {table : RoutingTable} {ifindex : Int} {link : LinkState}
      (found : table.links[ifindex]? = some link) :
      table.linkMut ifindex = .ok (⟨link, (table.keyed ifindex link found).1, (table.keyed ifindex link found).2⟩,
          table) := by
    rcases linkMut_cases table ifindex with ⟨-, error, run⟩ | ⟨entered, found', run⟩ |
      ⟨makes, -⟩
    · have positive := (table.keyed ifindex link found).1
      unfold RoutingTable.linkMut at run
      simp only [positive, dite_true] at run
      split at run
      · cases run
      · rename_i absent
        rw [found] at absent
        cases absent
    · rw [run]
      obtain ⟨link', positive, own⟩ := entered
      obtain rfl : link' = link := by
        rw [found] at found'
        exact (Option.some.inj found').symm
      rfl
    · exact absurd makes (not_makesLink_of_found found)

theorem setField_found_error {α : Type} [DecidableEq α] (field : LinkField α)
    (found : table.links[ifindex]? = some link) (error : LinkError) :
    table.setField field ifindex (.error error) = (.error error, table) := by
  simp only [RoutingTable.setField, setField_found.linkMut_found found]

section
variable {table : RoutingTable} {link current : LinkState} {outcome : Outcome} {ifindex : Int}
  (reached : Reached table link outcome current) (own : link.ifindex = ifindex)
include reached own

theorem Reached.found : ∃ changed positive, outcome = (.ok changed, table.put current positive) ∧
    (table.put current positive).links[ifindex]? = some current := by
  obtain ⟨changed, positive, rfl, same, -⟩ := reached
  exact ⟨changed, positive, rfl, by simp [same, own]⟩

theorem Reached.set {α : Type} [DecidableEq α] (field : LinkField α) (value : α) :
    Reached table link (andThen outcome (·.setField field ifindex (.ok value))) (field.set current value) := by
  obtain ⟨changed, positive, rfl, same, kept⟩ := reached
  have found : (table.put current positive).links[ifindex]? = some current := by simp [same, own]
  obtain ⟨again, positive', run, same', kept'⟩ := setField_found field found value
  refine ⟨changed || again, positive', ?_, same'.trans same, ?_⟩
  · simp only [andThen, run, put_put same'.symm]
  · intro quiet
    rw [Bool.or_eq_false_iff] at quiet
    rw [kept' quiet.2, kept quiet.1]

theorem Reached.fail {α : Type} [DecidableEq α] (field : LinkField α) (error : LinkError) :
    ∃ positive, andThen outcome (·.setField field ifindex (.error error)) =
      (.error error, table.put current positive) := by
  obtain ⟨changed, positive, rfl, found⟩ := reached.found own
  exact ⟨positive, by simp only [andThen, setField_found_error field found]⟩

end

theorem andThen_error (error : LinkError) (table : RoutingTable) (next : RoutingTable → Outcome) :
    andThen (.error error, table) next = (.error error, table) := rfl

theorem invalidName_iff : invalidName name = true ↔ ∃ error, normalizeName name = .error error := by
  unfold invalidName
  split <;> simp_all

theorem collected_error_iff {α β : Type} [DecidableEq β] {f : α → Except LinkError β} {values : List α} :
    (∃ error, pushNew <$> values.mapM f = .error error) ↔ ∃ value ∈ values, ∃ error, f value = .error error := by
  rw [← mapM_eq_error]
  cases values.mapM f <;> simp

theorem refused_iff (settings : NetworkdLink) :
    refused settings = true ↔ (∃ error, pushNew <$> settings.domains.mapM normalizeDomain = .error error) ∨
      ∃ error, pushNew <$> settings.dnssecNegativeTrustAnchors.mapM normalizeName = .error error := by
  simp only [refused, Bool.or_eq_true, List.any_eq_true, invalidName_iff, collected_error_iff,
    normalizeDomain_error]

theorem networkdTarget_ifindex (config : Config) (settings : NetworkdLink) (link : LinkState) :
    (networkdTarget config settings link).ifindex = link.ifindex := by
  unfold networkdTarget
  cases pushNew <$> settings.domains.mapM normalizeDomain with
  | error error => rfl
  | ok domains =>
    cases pushNew <$> settings.dnssecNegativeTrustAnchors.mapM normalizeName <;> rfl

theorem applyNetworkd_found (config : Config) {settings : NetworkdLink}
    (found : table.links[settings.ifindex]? = some link) :
    (∃ positive, (applyNetworkd config settings table).2 =
      table.put (networkdTarget config settings link) positive) ∧
    ((∃ error, (applyNetworkd config settings table).1 = .error error) ↔ refused settings = true) ∧
    ((applyNetworkd config settings table).1 = .ok false → networkdTarget config settings link = link) := by
  obtain ⟨linkPositive, own⟩ := table.keyed _ link found
  have positive : 0 < (networkdTarget config settings link).ifindex := by
    rwa [networkdTarget_ifindex, own]
  have dns := setField_found .dnsServers found
    (pushNew (settings.dnsServers.map (normalizeServer settings.ifindex)))
  rw [refused_iff]
  cases domains : pushNew <$> settings.domains.mapM normalizeDomain with
  | error error =>
    obtain ⟨_, failed⟩ := dns.fail own .domains error
    have run : applyNetworkd config settings table =
        (.error error, table.put (networkdTarget config settings link) positive) := by
      simp only [applyNetworkd, RoutingTable.setDomains, domains, RoutingTable.setDns]
      rw [failed]
      simp only [andThen_error, networkdTarget, domains]
      rfl
    rw [run]
    exact ⟨⟨positive, rfl⟩, by simp, by simp⟩
  | ok names =>
    have modes := ((((((dns.set own .domains names).set own .defaultRoute settings.defaultRoute).set
      own .llmnr settings.llmnr).set own .multicastDns settings.multicastDns).set own .dnsOverTls
      (settings.dnsOverTls.getD config.dnsOverTls)).set own .dnssec
      (settings.dnssec.getD config.dnssec))
    cases anchors : pushNew <$> settings.dnssecNegativeTrustAnchors.mapM normalizeName with
    | error error =>
      obtain ⟨_, failed⟩ := modes.fail own .dnssecNegativeTrustAnchors error
      have run : applyNetworkd config settings table =
          (.error error, table.put (networkdTarget config settings link) positive) := by
        simp only [applyNetworkd, RoutingTable.setDomains, domains, RoutingTable.setDns,
          RoutingTable.setDnssecNegativeTrustAnchors, anchors]
        refine failed.trans ?_
        simp only [networkdTarget, domains, anchors]
        rfl
      rw [run]
      exact ⟨⟨positive, rfl⟩, by simp, by simp⟩
    | ok anchorNames =>
      obtain ⟨changed, _, written, -, kept⟩ :=
        modes.set own .dnssecNegativeTrustAnchors anchorNames
      have target : networkdTarget config settings link =
          LinkField.dnssecNegativeTrustAnchors.set (LinkField.dnssec.set
            (LinkField.dnsOverTls.set (LinkField.multicastDns.set (LinkField.llmnr.set
              (LinkField.defaultRoute.set (LinkField.domains.set (LinkField.dnsServers.set link
                (pushNew (settings.dnsServers.map (normalizeServer settings.ifindex)))) names)
              settings.defaultRoute) settings.llmnr) settings.multicastDns)
            (settings.dnsOverTls.getD config.dnsOverTls))
            (settings.dnssec.getD config.dnssec)) anchorNames := by
        simp only [networkdTarget, domains, anchors]
        rfl
      have run : applyNetworkd config settings table =
          (.ok changed, table.put (networkdTarget config settings link) positive) := by
        simp only [applyNetworkd, RoutingTable.setDomains, domains, RoutingTable.setDns,
          RoutingTable.setDnssecNegativeTrustAnchors, anchors]
        refine written.trans ?_
        simp only [target]
      rw [run]
      refine ⟨⟨positive, rfl⟩, by simp, fun quiet => ?_⟩
      rw [target]
      exact kept (by simpa using quiet)

theorem revert_found (found : table.links[ifindex]? = some link) :
    Reached table link (table.revert ifindex) (revertedLink link) := by
  obtain ⟨positive, own⟩ := table.keyed ifindex link found
  subst own
  have positive' : 0 < (revertedLink link).ifindex := positive
  unfold RoutingTable.revert
  simp only [positive, dite_true, found]
  split
  · rename_i same
    refine ⟨false, positive', ?_, rfl, fun _ => same.symm⟩
    have kept : table.put (revertedLink link) positive' = table :=
      put_eq_self_iff.2 (found.trans (congrArg some same))
    rw [kept]
  · exact ⟨true, positive', rfl, rfl, by simp⟩

def Leaving (incoming : NetworkdLinks) (entries : List (Int × NetworkdLink)) (ifindex : Int) : Prop :=
  ∃ previous, (ifindex, previous) ∈ entries ∧ previous.managed = true ∧ stillManaged incoming ifindex = false

structure DepartRun (incoming : NetworkdLinks) (entries : List (Int × NetworkdLink))
    (notes : SyncNotes) (table : RoutingTable) (notes' : SyncNotes) (table' : RoutingTable) :
    Prop where
  run : departLoop incoming entries notes table = (.ok notes', table')
  leaving : ∀ ifindex, Leaving incoming entries ifindex →
    table'.links[ifindex]? = (table.links[ifindex]?).map revertedLink
  staying : ∀ ifindex, ¬ Leaving incoming entries ifindex → table'.links[ifindex]? = table.links[ifindex]?
  flag : table'.kernelSynchronized = table.kernelSynchronized
  quiet : notes'.changed = false → notes.changed = false ∧ table' = table

theorem departLoop_run (incoming : NetworkdLinks) (entries : List (Int × NetworkdLink)) (notes : SyncNotes)
    (table : RoutingTable) : ∃ notes' table', DepartRun incoming entries notes table notes' table' := by
  induction entries generalizing notes table with
  | nil =>
    refine ⟨notes, table, rfl, ?_, fun _ _ => rfl, rfl, fun quiet => ⟨quiet, rfl⟩⟩
    rintro ifindex ⟨previous, member, -⟩
    simp at member
  | cons entry rest ih =>
    obtain ⟨first, previous⟩ := entry
    by_cases leaves : previous.managed = true ∧ stillManaged incoming first = false
    · have here : Leaving incoming ((first, previous) :: rest) first :=
        ⟨previous, by simp, leaves.1, leaves.2⟩
      have split : ∀ ifindex, Leaving incoming ((first, previous) :: rest) ifindex ↔
          ifindex = first ∨ Leaving incoming rest ifindex := by
        intro ifindex
        constructor
        · rintro ⟨previous', member, managed, gone⟩
          rcases List.mem_cons.1 member with same | later
          · exact .inl (congrArg Prod.fst same)
          · exact .inr ⟨previous', later, managed, gone⟩
        · rintro (rfl | ⟨previous', later, managed, gone⟩)
          · exact here
          · exact ⟨previous', by simp [later], managed, gone⟩
      cases found : table.links[first]? with
      | none =>
        obtain ⟨notes', table', loop⟩ := ih { notes with
          removedIdentities := notes.removedIdentities ++ [first] } table
        refine ⟨notes', table', ?_, ?_, ?_, loop.flag, loop.quiet⟩
        · simp only [departLoop, leaves, found, Bool.not_false, and_self, if_true,
            Option.isSome_none, Bool.false_eq_true, if_false]
          exact loop.run
        · intro ifindex leaving
          by_cases later : Leaving incoming rest ifindex
          · exact loop.leaving ifindex later
          · obtain rfl := ((split ifindex).1 leaving).resolve_right later
            rw [loop.staying _ later, found]
            rfl
        · intro ifindex stays
          exact loop.staying ifindex fun later => stays ((split ifindex).2 (.inr later))
      | some link =>
        obtain ⟨changed, positive, run, own, kept⟩ := revert_found found
        have owner := (table.keyed first link found).2
        obtain ⟨notes', table', loop⟩ := ih { notes with
          removedIdentities := notes.removedIdentities ++ [first]
          changed := notes.changed || changed } (table.put (revertedLink link) positive)
        have links : ∀ ifindex : Int, (table.put (revertedLink link) positive).links[ifindex]? =
            if ifindex = first then some (revertedLink link) else table.links[ifindex]? := by
          intro ifindex
          rw [put_links, own, owner]
          simp only [eq_comm]
        refine ⟨notes', table', ?_, ?_, ?_, loop.flag, ?_⟩
        · simp only [departLoop, leaves, found, Bool.not_false, and_self, if_true, Option.isSome_some, run]
          exact loop.run
        · intro ifindex leaving
          by_cases later : Leaving incoming rest ifindex
          · rw [loop.leaving ifindex later, links]
            split
            · rename_i same
              rw [same, found]
              rfl
            · rfl
          · obtain rfl := ((split ifindex).1 leaving).resolve_right later
            rw [loop.staying _ later, links, if_pos rfl, found]
            rfl
        · intro ifindex stays
          have other : ifindex ≠ first := fun same => stays ((split ifindex).2 (.inl same))
          rw [loop.staying ifindex fun later => stays ((split ifindex).2 (.inr later)), links, if_neg other]
        · intro quiet
          obtain ⟨before, same⟩ := loop.quiet quiet
          rw [Bool.or_eq_false_iff] at before
          refine ⟨before.1, same.trans ?_⟩
          rw [put_eq_self_iff, own, owner, found, kept before.2]
    · have split : ∀ ifindex, Leaving incoming ((first, previous) :: rest) ifindex ↔
          Leaving incoming rest ifindex := by
        intro ifindex
        constructor
        · rintro ⟨previous', member, managed, gone⟩
          rcases List.mem_cons.1 member with same | later
          · obtain ⟨rfl, rfl⟩ := Prod.mk.inj same
            exact absurd ⟨managed, gone⟩ leaves
          · exact ⟨previous', later, managed, gone⟩
        · rintro ⟨previous', later, managed, gone⟩
          exact ⟨previous', by simp [later], managed, gone⟩
      obtain ⟨notes', table', loop⟩ := ih notes table
      refine ⟨notes', table', ?_, ?_, ?_, loop.flag, loop.quiet⟩
      · have skip : ¬ (previous.managed = true ∧ (!stillManaged incoming first) = true) := by
          simpa using leaves
        simp only [departLoop, skip, if_false]
        exact loop.run
      · intro ifindex leaving
        exact loop.leaving ifindex ((split ifindex).1 leaving)
      · intro ifindex stays
        exact loop.staying ifindex fun later => stays ((split ifindex).2 later)

theorem writtenLinks_congr
    (same : ∀ ifindex : Int, (table'.links[ifindex]?).isNone = (table.links[ifindex]?).isNone)
    (settings : List NetworkdLink) : writtenLinks table' settings = writtenLinks table settings := by
  induction settings with
  | nil => rfl
  | cons first rest ih => simp [writtenLinks, same, ih]

theorem mem_of_writtenLinks {settings : List NetworkdLink} {link : NetworkdLink}
    (member : link ∈ writtenLinks table settings) : link ∈ settings := by
  induction settings with
  | nil => simp [writtenLinks] at member
  | cons first rest ih =>
    unfold writtenLinks at member
    split at member
    · exact List.mem_cons_of_mem _ (ih member)
    · split at member
      · simp_all
      · rcases List.mem_cons.1 member with rfl | later
        · simp
        · exact List.mem_cons_of_mem _ (ih later)

structure ApplyRun (config : Config) (settings : List NetworkdLink) (notes : SyncNotes)
    (table : RoutingTable) (run : SyncRun) : Prop where
  fails : (∃ error, run.1 = .error error) ↔ ∃ link ∈ settings, (table.links[link.ifindex]?).isSome ∧ refused link
  written : ∀ link ∈ writtenLinks table settings,
    run.2.links[link.ifindex]? = (table.links[link.ifindex]?).map (networkdTarget config link)
  others : ∀ ifindex, (∀ link ∈ writtenLinks table settings, link.ifindex ≠ ifindex) →
    run.2.links[ifindex]? = table.links[ifindex]?
  flag : run.2.kernelSynchronized = table.kernelSynchronized
  quiet : ∀ notes', run.1 = .ok notes' → notes'.changed = false → notes.changed = false ∧ run.2 = table

theorem applyLoop_run (config : Config) (settings : List NetworkdLink)
    (distinct : (settings.map (·.ifindex)).Nodup) (notes : SyncNotes) (table : RoutingTable) :
    ApplyRun config settings notes table (applyLoop config settings notes table) := by
  induction settings generalizing notes table with
  | nil =>
    refine ⟨by simp [applyLoop], by simp [writtenLinks], fun _ _ => rfl, rfl, ?_⟩
    intro notes' same quiet
    simp only [applyLoop, Except.ok.injEq] at same
    subst same
    exact ⟨quiet, rfl⟩
  | cons first rest ih =>
    rw [List.map_cons, List.nodup_cons] at distinct
    obtain ⟨fresh, distinct⟩ := distinct
    cases found : table.links[first.ifindex]? with
    | none =>
      have loop := ih distinct { notes with
        removedIdentities := notes.removedIdentities ++ [first.ifindex] } table
      have run : applyLoop config (first :: rest) notes table = applyLoop config rest { notes with
          removedIdentities := notes.removedIdentities ++ [first.ifindex] } table := by
        simp [applyLoop, found]
      have written : writtenLinks table (first :: rest) = writtenLinks table rest := by
        simp [writtenLinks, found]
      rw [run]
      refine ⟨?_, by rw [written]; exact loop.written, by rw [written]; exact loop.others, loop.flag, loop.quiet⟩
      rw [loop.fails, List.exists_mem_cons_iff]
      simp [found]
    | some link =>
      obtain ⟨⟨positive, after⟩, fails, kept⟩ := applyNetworkd_found config found
      have owner := (table.keyed first.ifindex link found).2
      have links : ∀ ifindex : Int, (applyNetworkd config first table).2.links[ifindex]? =
          if ifindex = first.ifindex then some (networkdTarget config first link)
          else table.links[ifindex]? := by
        intro ifindex
        rw [after, put_links, networkdTarget_ifindex, owner]
        simp only [eq_comm]
      cases outcome : applyNetworkd config first table with
      | mk result table' =>
      simp only [outcome] at after fails kept links
      cases result with
      | error error =>
        have refuses : refused first = true := fails.1 ⟨error, rfl⟩
        have run : applyLoop config (first :: rest) notes table = (.error error, table') := by
          simp [applyLoop, found, outcome]
        have written : writtenLinks table (first :: rest) = [first] := by
          simp [writtenLinks, found, refuses]
        rw [run]
        refine ⟨?_, ?_, ?_, ?_, by simp⟩
        · exact iff_of_true ⟨error, rfl⟩ ⟨first, by simp, by rw [found]; rfl, refuses⟩
        · rw [written]
          simp [links, found]
        · rw [written]
          intro ifindex other
          rw [links, if_neg (fun same => other first (by simp) same.symm)]
        · rw [after, put_kernelSynchronized]
      | ok changed =>
        have accepted : refused first = false := by
          by_contra refuses
          obtain ⟨error, failed⟩ := fails.2 (by simpa using refuses)
          cases failed
        have loop := ih distinct { notes with
          changed := notes.changed || changed
          managedIdentities := notes.managedIdentities ++
            (table'.links[first.ifindex]?).toList.map fun state =>
              (first.ifindex, state.dnsServers, first.dnsServerSpecs) } table'
        have run : applyLoop config (first :: rest) notes table = applyLoop config rest
            { notes with
              changed := notes.changed || changed
              managedIdentities := notes.managedIdentities ++
                (table'.links[first.ifindex]?).toList.map fun state =>
                  (first.ifindex, state.dnsServers, first.dnsServerSpecs) } table' := by
          simp [applyLoop, found, outcome]
        have present : ∀ ifindex : Int,
            (table'.links[ifindex]?).isNone = (table.links[ifindex]?).isNone := by
          intro ifindex
          rw [links]
          split
          · rename_i same
            rw [same, found]
            rfl
          · rfl
        have later := writtenLinks_congr present rest
        have written : writtenLinks table (first :: rest) = first :: writtenLinks table rest := by
          simp [writtenLinks, found, accepted]
        have apart : ∀ link ∈ writtenLinks table rest, link.ifindex ≠ first.ifindex := by
          intro other member same
          exact fresh (List.mem_map.2 ⟨other, mem_of_writtenLinks member, same⟩)
        rw [run]
        refine ⟨?_, ?_, ?_, ?_, ?_⟩
        · rw [loop.fails, List.exists_mem_cons_iff]
          have there : ∀ ifindex : Int,
              (table'.links[ifindex]?).isSome = (table.links[ifindex]?).isSome := by
            intro ifindex
            rw [← Option.not_isNone, present, Option.not_isNone]
          simp only [accepted, Bool.false_eq_true, and_false, false_or, there]
        · rw [written]
          intro other member
          rcases List.mem_cons.1 member with rfl | inRest
          · rw [loop.others _ (by rw [later]; exact fun link inRest => apart link inRest), links,
              if_pos rfl, found]
            rfl
          · rw [loop.written other (by rw [later]; exact inRest), links, if_neg (apart other inRest)]
        · rw [written]
          intro ifindex other
          rw [loop.others ifindex (by
            rw [later]
            exact fun link inRest => other link (by simp [inRest])), links,
            if_neg (fun same => other first (by simp) same.symm)]
        · rw [loop.flag, after, put_kernelSynchronized]
        · intro notes' same quiet
          obtain ⟨before, unchanged⟩ := loop.quiet notes' same quiet
          rw [Bool.or_eq_false_iff] at before
          refine ⟨before.1, unchanged.trans ?_⟩
          rw [after, put_eq_self_iff, networkdTarget_ifindex, owner, found, kept (by rw [before.2])]

end Resolved.Proof.Links
