import Resolved.Proof.Links.Change
import Resolved.Spec.Pool

/-!
# Which calls leave the servers of a link alone
-/

namespace Resolved.Proof.Links
open Lib Resolved.Routing Resolved.Links Resolved.Exchange Spec Proof.Routing

variable {before after : Resolver} {table table' : RoutingTable} {link : LinkState}
  {ifindex changed : Int} {notes notes' : SyncNotes} {stored : LinkServerSpecs}

def serversAt (table : RoutingTable) (ifindex : Int) : List SocketAddr :=
  ((table.links[ifindex]?).map (·.dnsServers)).getD []

theorem linkDnsSpecs_eq (resolver : Resolver) (ifindex : Int) :
    resolver.linkDnsSpecs ifindex =
      projectLinkSpecs (serversAt resolver.routing ifindex) resolver.linkServerSpecs[ifindex]? := by
  unfold Resolver.linkDnsSpecs serversAt
  cases resolver.routing.links[ifindex]? <;> rfl

structure SameServers (before after : Resolver) (ifindex : Int) : Prop where
  config : after.config = before.config
  servers : serversAt after.routing ifindex = serversAt before.routing ifindex
  specs : after.linkServerSpecs[ifindex]? = before.linkServerSpecs[ifindex]?

theorem SameServers.refl (resolver : Resolver) (ifindex : Int) : SameServers resolver resolver ifindex :=
  ⟨rfl, rfl, rfl⟩

theorem SameServers.serverSpecForKey {key : ServerKey} (same : SameServers before after key.scope) :
    after.serverSpecForKey key = before.serverSpecForKey key := by
  have specs : after.serverSpecsForScope key.scopeKind [key.server] =
      before.serverSpecsForScope key.scopeKind [key.server] := by
    unfold Resolver.serverSpecsForScope ServerKey.scopeKind
    by_cases link : key.scope > 0
    · simp only [link, if_true, linkDnsSpecs_eq, same.servers, same.specs]
    · by_cases fallback : key.scope < 0 <;> simp [link, fallback, same.config]
  rw [Resolver.serverSpecForKey, specs]
  rfl

theorem SameServers.identity {channel : Channel} (same : SameServers before after channel.server.scope)
    (names : InterfaceNames) : Spec.identity after names channel = Spec.identity before names channel := by
  have spec := same.serverSpecForKey
  cases channel <;>
    simp only [Channel.server] at spec <;>
    simp only [Spec.identity, Resolver.serverTransportIfindex, Resolver.serverTlsEndpoint, spec]

theorem SameServers.finish {before after : Resolver} {ifindex : Int} (same : SameServers before after ifindex)
    (changed : Bool) : SameServers before (after.finishRoutingChange changed) ifindex := by
  unfold Resolver.finishRoutingChange
  split
  · exact ⟨same.config, same.servers, same.specs⟩
  · exact same

theorem serversAt_put (positive : 0 < link.ifindex)
    (kept : link.ifindex = ifindex → link.dnsServers = serversAt table ifindex) :
    serversAt (table.put link positive) ifindex = serversAt table ifindex := by
  by_cases own : link.ifindex = ifindex
  · rw [← kept own]
    simp [serversAt, own]
  · simp [serversAt, own]

theorem serversAt_found (found : table.links[ifindex]? = some link) : serversAt table ifindex = link.dnsServers := by
  simp [serversAt, found]

theorem serversAt_absent (absent : table.links[ifindex]? = none) : serversAt table ifindex = [] := by
  simp [serversAt, absent]

theorem setField_serversAt {α : Type} [DecidableEq α] (field : LinkField α) (argument : Except LinkError α)
    (kept : changed = ifindex → ∀ link value, (field.set link value).dnsServers = link.dnsServers) :
    serversAt (table.setField field changed argument).2 ifindex = serversAt table ifindex := by
  -- the link that is found or made has the servers the table had for it
  have written : ∀ (looked : RoutingTable) (link : LinkState) (value : α)
      (positive : 0 < (field.set link value).ifindex), link.ifindex = changed →
      serversAt looked ifindex = serversAt table ifindex → link.dnsServers = serversAt table changed →
      serversAt (looked.put (field.set link value) positive) ifindex = serversAt table ifindex := by
    intro looked link value positive own before servers
    refine (serversAt_put positive fun here => ?_).trans before
    rw [field.set_ifindex, own] at here
    rw [kept here, servers, before, here]
  unfold RoutingTable.setField
  rcases linkMut_cases table changed with ⟨-, error, run⟩ | ⟨entered, found, run⟩ |
    ⟨makes, positive, own, run⟩
  · simp only [run]
  · simp only [run]
    cases argument with
    | error error => rfl
    | ok value =>
      dsimp only
      split
      · rfl
      · have stays : 0 < (field.set entered.link value).ifindex := by
          rw [field.set_ifindex, entered.own]
          exact entered.positive
        exact written _ _ _ stays entered.own rfl (serversAt_found found).symm
  · have made : serversAt (table.put (.fresh changed) positive) ifindex = serversAt table ifindex :=
      serversAt_put positive fun here => by
        rw [← here]
        exact (serversAt_absent makes.2.1).symm
    simp only [run]
    cases argument with
    | error error => exact made
    | ok value =>
      dsimp only
      split
      · exact made
      · have stays : 0 < (field.set (.fresh changed) value).ifindex := by
          rw [field.set_ifindex]
          exact positive
        exact written _ _ _ stays rfl made (serversAt_absent makes.2.1).symm

theorem revert_serversAt (other : changed ≠ ifindex) :
    serversAt (table.revert changed).2 ifindex = serversAt table ifindex := by
  cases found : table.links[changed]? with
  | none =>
    unfold RoutingTable.revert
    split <;> simp [found]
  | some link =>
    obtain ⟨told, positive, run, own, -⟩ := revert_found found
    rw [run]
    refine serversAt_put positive fun here => absurd ?_ other
    rw [← here, own, (table.keyed changed link found).2]

theorem syncLoop_serversAt (kernels : List KernelLinkState) (changed : Bool) (seen : List Int)
    (table : RoutingTable) (ifindex : Int) :
    serversAt (RoutingTable.syncLoop kernels changed seen table).2 ifindex = serversAt table ifindex := by
  unfold serversAt
  rw [syncLoop_table]
  cases lastReport (validReports kernels) ifindex with
  | none => rfl
  | some kernel => cases h : table.links[ifindex]? <;> simp [reported, h, LinkState.fresh]

def Unnoted (ifindex : Int) (notes : SyncNotes) : Prop :=
  ifindex ∉ notes.removedIdentities ∧ ∀ entry ∈ notes.managedIdentities, entry.1 ≠ ifindex

theorem departLoop_unnoted {incoming : NetworkdLinks} {entries : List (Int × NetworkdLink)}
    (stays : ¬ Leaving incoming entries ifindex) (before : Unnoted ifindex notes)
    (run : departLoop incoming entries notes table = (.ok notes', table')) : Unnoted ifindex notes' := by
  induction entries generalizing notes table with
  | nil =>
    cases run
    exact before
  | cons entry rest ih =>
    obtain ⟨first, previous⟩ := entry
    have later : ¬ Leaving incoming rest ifindex := by
      rintro ⟨other, member, leaves⟩
      exact stays ⟨other, by simp [member], leaves⟩
    unfold departLoop at run
    split at run
    · rename_i leaves
      have noted : Unnoted ifindex { notes with
          removedIdentities := notes.removedIdentities ++ [first] } := by
        refine ⟨?_, before.2⟩
        rw [List.mem_append, List.mem_singleton]
        rintro (old | rfl)
        · exact before.1 old
        · exact stays ⟨previous, by simp, leaves.1, by simpa using leaves.2⟩
      split at run
      · split at run
        · cases run
        · refine ih later ?_ run
          exact noted
      · exact ih later noted run
    · exact ih later before run

theorem applyLoop_unnoted {config : Config} {settings : List NetworkdLink}
    (others : ∀ link ∈ settings, link.ifindex ≠ ifindex) (before : Unnoted ifindex notes)
    (run : applyLoop config settings notes table = (.ok notes', table')) : Unnoted ifindex notes' := by
  induction settings generalizing notes table with
  | nil =>
    cases run
    exact before
  | cons first rest ih =>
    have later : ∀ link ∈ rest, link.ifindex ≠ ifindex :=
      fun link member => others link (by simp [member])
    have apart : first.ifindex ≠ ifindex := others first (by simp)
    unfold applyLoop at run
    split at run
    · refine ih later ?_ run
      refine ⟨?_, before.2⟩
      rw [List.mem_append, List.mem_singleton]
      rintro (old | rfl)
      · exact before.1 old
      · exact apart rfl
    · split at run
      · cases run
      · refine ih later ?_ run
        refine ⟨before.1, ?_⟩
        intro entry member
        rcases List.mem_append.1 member with old | new
        · exact before.2 entry old
        · obtain ⟨state, -, rfl⟩ := List.mem_map.1 new
          exact apart

theorem removeLinkServerSpecs_other (other : changed ≠ ifindex) :
    (removeLinkServerSpecs stored changed).2[ifindex]? = stored[ifindex]? := by
  simp [removeLinkServerSpecs, Std.ExtTreeMap.getElem?_erase, other]

theorem replaceLinkServerSpecs_other {specs : List DnsServerSpec} (other : changed ≠ ifindex) :
    (replaceLinkServerSpecs stored changed specs).2[ifindex]? = stored[ifindex]? := by
  unfold replaceLinkServerSpecs
  split
  · simp [Std.ExtTreeMap.getElem?_erase, other]
  · split
    · rfl
    · simp [Std.ExtTreeMap.getElem?_insert, other]

theorem updateAll_keeps {σ α β : Type} {update : σ → α → Bool × σ} (look : σ → β) {values : List α}
    (one : ∀ value ∈ values, ∀ state, look (update state value).2 = look state) (state : σ) :
    look (updateAll update values state).2 = look state := by
  have loop : ∀ (step : Bool × σ → α → Bool × σ), (∀ changed state value,
      step (changed, state) value = (changed || (update state value).1, (update state value).2)) →
      ∀ (values : List α) (changed : Bool) (state : σ),
        (∀ value ∈ values, ∀ state, look (update state value).2 = look state) →
        look (values.foldl step (changed, state)).2 = look state := by
    intro step takes values
    induction values with
    | nil => exact fun _ _ _ => rfl
    | cons value rest ih =>
      intro changed state one
      rw [List.foldl_cons, takes]
      refine (ih _ _ fun other member => one other (by simp [member])).trans ?_
      exact one value (by simp) state
  exact loop _ (fun _ _ _ => rfl) values false state one

theorem syncNetworkdSpecs_other (unnoted : Unnoted ifindex notes) :
    (Resolver.syncNetworkdSpecs stored notes).2[ifindex]? = stored[ifindex]? := by
  unfold Resolver.syncNetworkdSpecs
  refine (updateAll_keeps (fun stored => stored[ifindex]?) ?_ _).trans
    (updateAll_keeps (fun stored => stored[ifindex]?) ?_ _)
  · exact fun entry member state => replaceLinkServerSpecs_other (unnoted.2 entry member)
  · intro removed member state
    refine removeLinkServerSpecs_other ?_
    rintro rfl
    exact unnoted.1 member

theorem setLinkField_sameServers {α : Type} [DecidableEq α] (field : LinkField α) (resolver : Resolver)
    (changed ifindex : Int) (argument : Except LinkError α)
    (kept : ∀ link value, (field.set link value).dnsServers = link.dnsServers) :
    SameServers resolver (resolver.setLinkField changed (·.setField field changed argument)).2 ifindex := by
  have servers : serversAt (resolver.routing.setField field changed argument).2 ifindex =
      serversAt resolver.routing ifindex :=
    setField_serversAt field argument fun _ => kept
  unfold Resolver.setLinkField
  split
  · exact .refl _ _
  · dsimp only
    cases run : resolver.routing.setField field changed argument with
    | mk result table =>
      rw [run] at servers
      cases result with
      | error error => exact ⟨rfl, servers, rfl⟩
      | ok told =>
        apply SameServers.finish
        exact ⟨rfl, servers, rfl⟩

theorem setLinkDnsSpecs_sameServers (resolver : Resolver) (specs : List DnsServerSpec)
    (spared : ¬ (changed = ifindex ∧ resolver.linkIsManaged ifindex = false)) :
    SameServers resolver (resolver.setLinkDnsSpecs changed specs).2 ifindex := by
  unfold Resolver.setLinkDnsSpecs
  split
  · exact .refl _ _
  · rename_i unmanaged
    have other : changed ≠ ifindex := by
      rintro rfl
      exact spared ⟨rfl, by simpa using unmanaged⟩
    have servers : serversAt (resolver.routing.setDns changed (specs.map (·.address))).2 ifindex =
        serversAt resolver.routing ifindex :=
      setField_serversAt _ _ fun same => absurd same other
    cases run : resolver.routing.setDns changed (specs.map (·.address)) with
    | mk result table =>
      rw [run] at servers
      cases result with
      | error error => exact ⟨rfl, servers, rfl⟩
      | ok told =>
        apply SameServers.finish
        exact ⟨rfl, servers, replaceLinkServerSpecs_other other⟩

theorem revertLink_sameServers (resolver : Resolver)
    (spared : ¬ (changed = ifindex ∧ resolver.linkIsManaged ifindex = false)) :
    SameServers resolver (resolver.revertLink changed).2 ifindex := by
  unfold Resolver.revertLink
  split
  · exact .refl _ _
  · rename_i unmanaged
    have other : changed ≠ ifindex := by
      rintro rfl
      exact spared ⟨rfl, by simpa using unmanaged⟩
    have servers : serversAt (resolver.routing.revert changed).2 ifindex =
        serversAt resolver.routing ifindex := revert_serversAt other
    cases run : resolver.routing.revert changed with
    | mk result table =>
      rw [run] at servers
      cases result with
      | error error => exact ⟨rfl, servers, rfl⟩
      | ok told =>
        apply SameServers.finish
        exact ⟨rfl, servers, removeLinkServerSpecs_other other⟩

theorem syncKernelLinks_sameServers (resolver : Resolver) {kernels : List KernelLinkState}
    (spared : ¬ ((∀ kernel ∈ kernels, 0 < kernel.ifindex) ∧ ∀ kernel ∈ kernels, kernel.ifindex ≠ ifindex)) :
    SameServers resolver (resolver.syncKernelLinks kernels).2 ifindex := by
  unfold Resolver.syncKernelLinks RoutingTable.syncKernelLinks
  have servers := syncLoop_serversAt kernels (!resolver.routing.kernelSynchronized) []
    resolver.routing ifindex
  have fails := syncLoop_error kernels (!resolver.routing.kernelSynchronized) [] resolver.routing
  cases run : RoutingTable.syncLoop kernels (!resolver.routing.kernelSynchronized) []
    resolver.routing with
  | mk result table =>
  have links := syncLoop_table kernels (!resolver.routing.kernelSynchronized) [] resolver.routing
    ifindex
  rw [run] at servers fails links
  cases result with
  | error error => exact ⟨rfl, servers, rfl⟩
  | ok told =>
    obtain ⟨changed, seen⟩ := told
    have valid : ∀ kernel ∈ kernels, 0 < kernel.ifindex := by
      intro kernel member
      by_contra low
      have failed := fails.2 ⟨kernel, member, not_lt.1 low⟩
      simp at failed
    have inReports : ∃ kernel ∈ kernels, kernel.ifindex = ifindex := by
      by_contra none
      push Not at none
      exact spared ⟨valid, none⟩
    have inSeen : ifindex ∈ seen :=
      ((syncLoop_ok (by rw [run])).2 ifindex).2 (.inr inReports)
    have retained : (table.retainSeen seen).links[ifindex]? = table.links[ifindex]? := by
      rw [RoutingTable.retainSeen, Std.ExtTreeMap.getElem?_filter']
      cases table.links[ifindex]? <;> simp [inSeen]
    have present : ifindex ∈ (table.retainSeen seen).links := by
      rw [Std.ExtTreeMap.mem_iff_isSome_getElem?, retained, links, validReports,
        List.takeWhile_eq_self_iff.2 (by simpa using valid)]
      obtain ⟨kernel, member, rfl⟩ := inReports
      obtain ⟨last, found⟩ := lastReport_isSome member
      rw [found]
      rfl
    apply SameServers.finish
    refine ⟨rfl, ?_, ?_⟩
    · rw [← servers]
      simp only [serversAt, retained]
    · dsimp only
      rw [Std.ExtTreeMap.getElem?_filter']
      cases resolver.linkServerSpecs[ifindex]? <;> simp [present]

theorem syncNetworkdLinks_sameServers (resolver : Resolver) {links : List NetworkdLink}
    (previousOrder incomingOrder : WalkOrder Int)
    (spared : ¬ (Departed resolver (Resolver.incomingLinks links) ifindex ∨
      stillManaged (Resolver.incomingLinks links) ifindex = true)) :
    SameServers resolver (resolver.syncNetworkdLinks links previousOrder incomingOrder).2 ifindex := by
  rw [not_or] at spared
  obtain ⟨notes, reverted, depart⟩ := departLoop_run (Resolver.incomingLinks links)
    (walk resolver.networkdLinks previousOrder) .start resolver.routing
  have stays : ¬ Leaving (Resolver.incomingLinks links)
      (walk resolver.networkdLinks previousOrder) ifindex :=
    fun leaves => spared.1 (leaving_iff_departed.1 leaves)
  have others : ∀ link ∈ managedLinks links incomingOrder, link.ifindex ≠ ifindex := by
    rintro link member rfl
    obtain ⟨stored, managed⟩ := mem_managedLinks member
    exact spared.2 (by simp [stillManaged, stored, managed])
  have apply := applyLoop_run resolver.config (managedLinks links incomingOrder)
    (managedLinks_distinct links incomingOrder) notes reverted
  have unnoted := departLoop_unnoted stays (by simp [Unnoted, SyncNotes.start]) depart.run
  have same : (applyLoop resolver.config (managedLinks links incomingOrder) notes
      reverted).2.links[ifindex]? = resolver.routing.links[ifindex]? := by
    rw [apply.others ifindex fun link member => others link (mem_of_writtenLinks member),
      depart.staying ifindex stays]
  simp only [Resolver.syncNetworkdLinks, syncNetworkdTable_eq depart]
  cases looped : applyLoop resolver.config (managedLinks links incomingOrder) notes reverted with
  | mk result table =>
  rw [looped] at same
  have servers : serversAt table ifindex = serversAt resolver.routing ifindex := by
    simp only [serversAt, same]
  cases result with
  | error error => exact ⟨rfl, servers, rfl⟩
  | ok notes' =>
    apply SameServers.finish
    exact ⟨rfl, servers, syncNetworkdSpecs_other (applyLoop_unnoted others unnoted looped)⟩

theorem linkOp_sameServers (resolver : Resolver) (op : LinkOp) (spared : ¬ Rewrites resolver ifindex op) :
    SameServers resolver (op.apply resolver).2 ifindex := by
  cases op with
  | syncNetworkdLinks links previousOrder incomingOrder =>
    exact syncNetworkdLinks_sameServers resolver previousOrder incomingOrder spared
  | syncKernelLinks kernels => exact syncKernelLinks_sameServers resolver spared
  | setLinkDnsSpecs changed specs => exact setLinkDnsSpecs_sameServers resolver specs spared
  | revertLink changed => exact revertLink_sameServers resolver spared
  | setLinkDns changed servers => exact setLinkDnsSpecs_sameServers resolver _ spared
  | setLinkDomains changed _ | setLinkDefaultRoute changed _ | setLinkDnssec changed _
  | setLinkDnsOverTls changed _ | setLinkLlmnr changed _ | setLinkMulticastDns changed _
  | setLinkDnssecNegativeTrustAnchors changed _ =>
    exact setLinkField_sameServers _ resolver changed ifindex _ fun _ _ => rfl

end Resolved.Proof.Links
