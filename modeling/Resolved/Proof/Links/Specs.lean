import Resolved.Proof.Links.Identity
import Resolved.Spec.Exchange

/-!
# The servers of a link as they are found
-/

namespace Resolved.Proof.Links
open Lib Resolved.Routing Resolved.Links Resolved.Exchange Spec Proof.Routing

variable {specs : List DnsServerSpec} {address : SocketAddr} {spec : DnsServerSpec}
  {addresses : List SocketAddr} {ifindex : Int} {resolver : Resolver}

theorem pushSpecs_found (nodup : output.Nodup) (member : spec ∈ found) (absent : spec ∉ output)
    (address : SocketAddr) : pushSpecs output address found = pushAll output found := by
  have longer := pushAll_length nodup member absent
  unfold pushSpecs
  exact if_neg longer

theorem sameDnsEndpoint_iff {left right : SocketAddr} :
    sameDnsEndpoint left right = true ↔ left.ip = right.ip ∧ left.port = right.port := by
  simp [sameDnsEndpoint]

theorem normalizeServer_endpoint (ifindex : Int) (server : SocketAddr) :
    (normalizeServer ifindex server).ip = server.ip ∧ (normalizeServer ifindex server).port = server.port := by
  unfold normalizeServer
  split
  · exact ⟨rfl, rfl⟩
  · split
    · exact ⟨rfl, rfl⟩
    · split <;> exact ⟨rfl, rfl⟩

def readdressed (specs : List DnsServerSpec) (address : SocketAddr) : List DnsServerSpec :=
  (specs.filter fun spec => sameDnsEndpoint spec.address address).map fun spec =>
    { spec with address := address }

theorem mem_readdressed :
    spec ∈ readdressed specs address ↔
      spec.address = address ∧ ∃ other ∈ specs, sameDnsEndpoint other.address spec.address = true ∧
        spec = { other with address := spec.address } := by
  rw [readdressed, List.mem_map]
  constructor
  · rintro ⟨other, member, rfl⟩
    rw [List.mem_filter] at member
    exact ⟨rfl, other, member.1, member.2, rfl⟩
  · rintro ⟨rfl, other, member, same, equal⟩
    exact ⟨other, List.mem_filter.2 ⟨member, same⟩, equal.symm⟩

theorem projectLoop {output : List DnsServerSpec}
    (nodup : output.Nodup) (distinct : addresses.Nodup)
    (apart : ∀ spec ∈ output, spec.address ∉ addresses)
    (served : ∀ address ∈ addresses, ∃ spec, spec ∈ readdressed specs address) :
    let pushed := addresses.foldl
      (fun output address => pushSpecs output address (readdressed specs address)) output
    pushed.Nodup ∧ ∀ spec, spec ∈ pushed ↔
      spec ∈ output ∨ ∃ address ∈ addresses, spec ∈ readdressed specs address := by
  induction addresses generalizing output with
  | nil => simp [nodup]
  | cons address rest ih =>
    rw [List.nodup_cons] at distinct
    obtain ⟨found, here⟩ := served address (by simp)
    have own := (mem_readdressed.1 here).1
    have absent : found ∉ output := fun member => apart found member (by simp [own])
    have pushed := pushSpecs_found nodup here absent address
    simp only [List.foldl_cons, pushed]
    obtain ⟨nodup', members⟩ := @ih (pushAll output (readdressed specs address))
      (pushAll_nodup nodup) distinct.2
      (by
        intro spec member
        rcases mem_pushAll.1 member with old | new
        · exact fun later => apart spec old (by simp [later])
        · rw [(mem_readdressed.1 new).1]
          exact distinct.1)
      (fun other member => served other (by simp [member]))
    refine ⟨nodup', fun spec => ?_⟩
    rw [members, mem_pushAll, or_assoc]
    simp

theorem projectLinkSpecs_spec {addresses : List SocketAddr} {specs : List DnsServerSpec}
    (distinct : addresses.Nodup) (served : ∀ address ∈ addresses, ∃ spec, spec ∈ readdressed specs address) :
    (projectLinkSpecs addresses (some specs)).Nodup ∧ ∀ spec, spec ∈ projectLinkSpecs addresses (some specs) ↔
        ∃ address ∈ addresses, spec ∈ readdressed specs address := by
  obtain ⟨nodup, members⟩ := projectLoop List.nodup_nil distinct (by simp) served
  exact ⟨nodup, fun spec => (members spec).trans (by simp)⟩

theorem mem_normalizeLinkSpecs {stored : DnsServerSpec} (member : stored ∈ normalizeLinkSpecs addresses specs) :
    ∃ spec ∈ specs, sameDnsEndpoint spec.address stored.address = true ∧
      stored = { spec with address := stored.address } := by
  rw [normalizeLinkSpecs, mem_pushNew, List.mem_map] at member
  obtain ⟨spec, listed, rfl⟩ := member
  refine ⟨spec, listed, ?_⟩
  split
  · rename_i address found
    exact ⟨List.find?_some found, rfl⟩
  · exact ⟨sameDnsEndpoint_iff.2 ⟨rfl, rfl⟩, rfl⟩

theorem normalizeLinkSpecs_mem {addresses : List SocketAddr} {specs : List DnsServerSpec} {spec : DnsServerSpec}
    (listed : spec ∈ specs) :
    ∃ stored ∈ normalizeLinkSpecs addresses specs, sameDnsEndpoint spec.address stored.address = true ∧
      stored = { spec with address := stored.address } := by
  refine ⟨_, by
    rw [normalizeLinkSpecs, mem_pushNew]
    exact List.mem_map_of_mem listed, ?_⟩
  split
  · rename_i address found
    exact ⟨List.find?_some found, rfl⟩
  · exact ⟨sameDnsEndpoint_iff.2 ⟨rfl, rfl⟩, rfl⟩

theorem readdressed_normalizeLinkSpecs :
    spec ∈ readdressed (normalizeLinkSpecs addresses specs) address ↔ spec ∈ readdressed specs address := by
  rw [mem_readdressed, mem_readdressed]
  apply and_congr_right'
  constructor
  · rintro ⟨stored, member, endpoint, equal⟩
    obtain ⟨origin, listed, same, made⟩ := mem_normalizeLinkSpecs member
    rw [sameDnsEndpoint_iff] at same endpoint
    refine ⟨origin, listed, sameDnsEndpoint_iff.2 ⟨same.1.trans endpoint.1, same.2.trans endpoint.2⟩, ?_⟩
    rw [made] at equal
    exact equal
  · rintro ⟨origin, listed, endpoint, equal⟩
    obtain ⟨stored, member, same, made⟩ := @normalizeLinkSpecs_mem addresses specs origin listed
    rw [sameDnsEndpoint_iff] at same endpoint
    refine ⟨stored, member, sameDnsEndpoint_iff.2 ⟨same.1.symm.trans endpoint.1,
      same.2.symm.trans endpoint.2⟩, ?_⟩
    rw [made]
    exact equal

theorem readdressed_normalized (ifindex : Int) :
    spec ∈ readdressed specs address ↔ ∃ other ∈ specs.map (normalizedSpec ifindex), address.ip = other.address.ip ∧
        address.port = other.address.port ∧ spec = { other with address := address } := by
  rw [mem_readdressed]
  constructor
  · rintro ⟨rfl, other, listed, endpoint, equal⟩
    obtain ⟨ip, port⟩ := normalizeServer_endpoint ifindex other.address
    rw [sameDnsEndpoint_iff] at endpoint
    exact ⟨normalizedSpec ifindex other, List.mem_map_of_mem listed, endpoint.1.symm.trans ip.symm,
      endpoint.2.symm.trans port.symm, equal⟩
  · rintro ⟨_, member, ip, port, rfl⟩
    obtain ⟨other, listed, rfl⟩ := List.mem_map.1 member
    obtain ⟨ip', port'⟩ := normalizeServer_endpoint ifindex other.address
    exact ⟨rfl, other, listed, sameDnsEndpoint_iff.2 ⟨(ip.trans ip').symm, (port.trans port').symm⟩, rfl⟩

theorem setDns_ok {table table' : RoutingTable} {servers : List SocketAddr} {changed : Bool}
    (done : table.setDns ifindex servers = (.ok changed, table')) :
    0 < ifindex ∧ ∃ link, table'.links[ifindex]? = some link ∧
      link.dnsServers = pushNew (servers.map (normalizeServer ifindex)) := by
  rw [RoutingTable.setDns, RoutingTable.setField] at done
  rcases linkMut_cases table ifindex with ⟨-, error, run⟩ | ⟨entered, found, run⟩ |
    ⟨-, positive, own, run⟩
  · simp [run] at done
  · simp only [run] at done
    split at done
    · rename_i same
      cases done
      exact ⟨entered.positive, entered.link, found, same⟩
    · cases done
      exact ⟨entered.positive, { entered.link with
          dnsServers := pushNew (servers.map (normalizeServer ifindex)) },
        by simp [LinkField.dnsServers, entered.own], rfl⟩
  · simp only [run] at done
    split at done
    · rename_i same
      cases done
      exact ⟨positive, .fresh ifindex, by simp [LinkState.fresh], same⟩
    · cases done
      exact ⟨positive, { LinkState.fresh ifindex with
          dnsServers := pushNew (servers.map (normalizeServer ifindex)) },
        by simp [LinkField.dnsServers, own], rfl⟩

theorem replaceLinkServerSpecs_stored (stored : LinkServerSpecs) (ifindex : Int) (specs : List DnsServerSpec) :
    ((replaceLinkServerSpecs stored ifindex specs).2[ifindex]?).getD [] = specs := by
  unfold replaceLinkServerSpecs
  split
  · rename_i empty
    simp [List.isEmpty_iff.1 empty]
  · split
    · rename_i same
      simp [same]
    · simp

theorem projectLinkSpecs_getD (addresses : List SocketAddr) (specs : Option (List DnsServerSpec)) :
    projectLinkSpecs addresses specs = projectLinkSpecs addresses (some (specs.getD [])) := rfl

theorem setLinkDnsSpecs_found {after : Resolver}
    (done : resolver.setLinkDnsSpecs ifindex specs = (.ok (), after)) :
    0 < ifindex ∧ (after.linkDnsSpecs ifindex).Nodup ∧ ∀ spec, spec ∈ after.linkDnsSpecs ifindex ↔
        ∃ given ∈ specs.map (normalizedSpec ifindex), ∃ other ∈ specs.map (normalizedSpec ifindex),
          given.address.ip = other.address.ip ∧ given.address.port = other.address.port ∧
            spec = { other with address := given.address } := by
  unfold Resolver.setLinkDnsSpecs at done
  split at done
  · cases done
  split at done
  · cases done
  rename_i routeChanged table run
  obtain ⟨positive, link, found, servers⟩ := setDns_ok run
  simp only at done
  cases done
  have addresses : link.dnsServers = pushNew ((specs.map (normalizedSpec ifindex)).map (·.address)) := by
    rw [servers, List.map_map, List.map_map]
    rfl
  have finish : ∀ (resolver : Resolver) (changed : Bool),
      (resolver.finishRoutingChange changed).linkDnsSpecs ifindex = resolver.linkDnsSpecs ifindex := by
    intro resolver changed
    unfold Resolver.finishRoutingChange
    split <;> rfl
  have found' : Resolver.linkDnsSpecs { resolver with
      routing := table
      linkServerSpecs := (replaceLinkServerSpecs resolver.linkServerSpecs ifindex
        (normalizeLinkSpecs link.dnsServers specs)).2 } ifindex =
      projectLinkSpecs link.dnsServers (some (normalizeLinkSpecs link.dnsServers specs)) := by
    rw [Resolver.linkDnsSpecs]
    simp only [found]
    rw [projectLinkSpecs_getD, replaceLinkServerSpecs_stored]
  have distinct : link.dnsServers.Nodup := by
    rw [servers, pushNew_eq_pushAll]
    exact pushAll_nodup List.nodup_nil
  have listed : ∀ address, address ∈ link.dnsServers ↔
      ∃ given ∈ specs.map (normalizedSpec ifindex), given.address = address := by
    intro address
    rw [addresses, mem_pushNew, List.mem_map]
  obtain ⟨nodup, members⟩ := @projectLinkSpecs_spec link.dnsServers
    (normalizeLinkSpecs link.dnsServers specs) distinct (by
      intro address member
      obtain ⟨given, here, rfl⟩ := (listed address).1 member
      exact ⟨given, readdressed_normalizeLinkSpecs.2 ((readdressed_normalized ifindex).2 ⟨given, here, rfl, rfl, rfl⟩)⟩)
  refine ⟨positive, ?_, fun spec => ?_⟩
  · rw [finish, found]
    simp only [Option.map_some, Option.getD_some]
    rw [found']
    exact nodup
  · rw [finish, found]
    simp only [Option.map_some, Option.getD_some]
    rw [found', members]
    constructor
    · rintro ⟨address, member, here⟩
      obtain ⟨given, among, rfl⟩ := (listed address).1 member
      obtain ⟨other, among', endpoint⟩ := (readdressed_normalized ifindex).1 (readdressed_normalizeLinkSpecs.1 here)
      exact ⟨given, among, other, among', endpoint⟩
    · rintro ⟨given, among, other, among', endpoint⟩
      exact ⟨given.address, (listed _).2 ⟨given, among, rfl⟩,
        readdressed_normalizeLinkSpecs.2 ((readdressed_normalized ifindex).2 ⟨other, among', endpoint⟩)⟩

theorem serverKeysFrom_slot {scope : ScopeKind} {seen : List SocketAddr} {key : ServerKey}
    (member : key ∈ serverKeysFrom scope seen specs) : seen.count key.server ≤ key.slot := by
  induction specs generalizing seen with
  | nil => cases member
  | cons spec rest ih =>
    rw [serverKeysFrom] at member
    rcases List.mem_cons.1 member with rfl | later
    · exact le_refl _
    · exact (List.count_le_count_cons).trans (ih later)

theorem serverKeysFrom_nodup (scope : ScopeKind) (seen : List SocketAddr) (specs : List DnsServerSpec) :
    (serverKeysFrom scope seen specs).Nodup := by
  induction specs generalizing seen with
  | nil => exact List.nodup_nil
  | cons spec rest ih =>
    rw [serverKeysFrom, List.nodup_cons]
    refine ⟨fun member => ?_, ih _⟩
    have later := serverKeysFrom_slot member
    simp only [ServerKey.withSlot, List.count_cons_self] at later
    omega

theorem serverSpecForKey_link (positive : 0 < ifindex) {before rest : List DnsServerSpec}
    (split : resolver.linkDnsSpecs ifindex = before ++ spec :: rest)
    (nodup : (resolver.linkDnsSpecs ifindex).Nodup) :
    resolver.serverSpecForKey (.withSlot (.link ifindex) spec.address
      ((before.map (·.address)).count spec.address)) = spec := by
  have scope : (ServerKey.withSlot (.link ifindex) spec.address
      ((before.map (·.address)).count spec.address)).scopeKind = .link ifindex := by
    simp [ServerKey.scopeKind, ServerKey.withSlot, positive]
  have member : spec ∈ (resolver.linkDnsSpecs ifindex).filter fun other => other.address = spec.address := by
    simp [split]
  have specs : resolver.serverSpecsForScope (.link ifindex) [spec.address] =
      (resolver.linkDnsSpecs ifindex).filter fun other => other.address = spec.address := by
    simp only [Resolver.serverSpecsForScope, List.foldl_cons, List.foldl_nil]
    rw [pushSpecs_found List.nodup_nil member (by simp), pushAll_eq_append (by simp) (nodup.filter _),
      List.nil_append]
  have place : ((before.map (·.address)).count spec.address) =
      (before.filter fun other => other.address = spec.address).length := by
    rw [List.count, List.countP_map, List.countP_eq_length_filter]
    rfl
  rw [Resolver.serverSpecForKey, scope]
  change (((resolver.serverSpecsForScope (.link ifindex) [spec.address]).filter fun other =>
    other.address = spec.address)[(before.map (·.address)).count spec.address]?).getD _ = spec
  rw [specs, List.filter_filter]
  simp only [Bool.and_self]
  rw [split, List.filter_append, place, List.getElem?_append_right (le_refl _), Nat.sub_self]
  simp

theorem serverKeysFrom_lookup {resolver : Resolver} {ifindex : Int} (positive : 0 < ifindex)
    (nodup : (resolver.linkDnsSpecs ifindex).Nodup) {before rest : List DnsServerSpec}
    (split : resolver.linkDnsSpecs ifindex = before ++ rest) :
    (serverKeysFrom (.link ifindex) (before.map (·.address)).reverse rest).map
      resolver.serverSpecForKey = rest := by
  induction rest generalizing before with
  | nil => rfl
  | cons spec rest ih =>
    have later := @ih (before ++ [spec]) (by simpa using split)
    rw [List.map_append, List.reverse_append] at later
    rw [serverKeysFrom, List.map_cons, List.count_reverse, serverSpecForKey_link positive split nodup]
    exact congrArg _ later

theorem setLinkDnsSpecs_keeps_iff {resolver after : Resolver} {ifindex : Int} {specs : List DnsServerSpec}
    (done : resolver.setLinkDnsSpecs ifindex specs = (.ok (), after)) :
    KeepsSpecs after ifindex (specs.map (normalizedSpec ifindex)) ↔
      EndpointsAgree (specs.map (normalizedSpec ifindex)) := by
  obtain ⟨positive, nodup, members⟩ := setLinkDnsSpecs_found done
  constructor
  · rintro kept spec listed other listed' ip port
    exact (kept.same _).1 ((members _).2 ⟨spec, listed, other, listed', ip, port, rfl⟩)
  · intro agree
    refine ⟨nodup, fun spec => ?_, serverKeysFrom_nodup _ _ _, @serverKeysFrom_lookup after ifindex positive nodup [] _ rfl⟩
    rw [members]
    constructor
    · rintro ⟨given, listed, other, listed', ip, port, rfl⟩
      exact agree given listed other listed' ip port
    · intro listed
      exact ⟨spec, listed, spec, listed, rfl, rfl, rfl⟩

def namedServers (address address' : SocketAddr) : List DnsServerSpec :=
  [⟨address, none, some ['a']⟩, ⟨address', none, some ['b']⟩]

theorem setLinkDnsSpecs_keeps_names :
    let specs := namedServers (.v4 ⟨192, 0, 2, 53⟩ 853) (.v4 ⟨192, 0, 2, 53⟩ 853)
    KeepsSpecs (resolverWithLink2.setLinkDnsSpecs 2 specs).2 2 specs := by
  have done : resolverWithLink2.setLinkDnsSpecs 2
      (namedServers (.v4 ⟨192, 0, 2, 53⟩ 853) (.v4 ⟨192, 0, 2, 53⟩ 853)) =
      (.ok (), (resolverWithLink2.setLinkDnsSpecs 2
        (namedServers (.v4 ⟨192, 0, 2, 53⟩ 853) (.v4 ⟨192, 0, 2, 53⟩ 853))).2) :=
    Prod.ext (by decide +kernel) rfl
  apply (setLinkDnsSpecs_keeps_iff done).2
  unfold EndpointsAgree
  decide

theorem setLinkDnsSpecs_mixes_names :
    let specs := namedServers (.v6 ⟨0xfe80, 0, 0, 0, 0, 0, 0, 1⟩ 853 0 3)
      (.v6 ⟨0xfe80, 0, 0, 0, 0, 0, 0, 1⟩ 853 0 4)
    let after := (resolverWithLink2.setLinkDnsSpecs 2 specs).2
    (resolverWithLink2.setLinkDnsSpecs 2 specs).1 = .ok () ∧
      after.linkDnsSpecs 2 = namedServers (.v6 ⟨0xfe80, 0, 0, 0, 0, 0, 0, 1⟩ 853 0 3)
          (.v6 ⟨0xfe80, 0, 0, 0, 0, 0, 0, 1⟩ 853 0 3) ++
        namedServers (.v6 ⟨0xfe80, 0, 0, 0, 0, 0, 0, 1⟩ 853 0 4)
          (.v6 ⟨0xfe80, 0, 0, 0, 0, 0, 0, 1⟩ 853 0 4) ∧
      ¬KeepsSpecs after 2 (specs.map (normalizedSpec 2)) := by
  refine ⟨by decide +kernel, by decide +kernel, fun kept => ?_⟩
  have other := kept.same ⟨.v6 ⟨0xfe80, 0, 0, 0, 0, 0, 0, 1⟩ 853 0 3, none, some ['b']⟩
  exact absurd (other.1 (by decide +kernel)) (by decide)

end Resolved.Proof.Links
