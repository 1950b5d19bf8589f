import Resolved.Routing.Link

namespace Resolved.Routing
open Lib

abbrev Links := Std.ExtTreeMap Int LinkState

structure RoutingTable where
  links : Links
  kernelSynchronized : Bool
  keyed : ∀ (ifindex : Int) link, links[ifindex]? = some link → 0 < ifindex ∧ link.ifindex = ifindex
deriving DecidableEq

structure LinkField (α : Type) where
  get : LinkState → α
  set : LinkState → α → LinkState
  get_set : ∀ link value, get (set link value) = value
  set_get : ∀ link, set link (get link) = link
  set_ifindex : ∀ link value, (set link value).ifindex = link.ifindex

namespace LinkField

def dnsServers : LinkField (List SocketAddr) where
  get link := link.dnsServers
  set link value := { link with dnsServers := value }
  get_set _ _ := rfl
  set_get _ := rfl
  set_ifindex _ _ := rfl

def domains : LinkField (List LinkDomain) where
  get link := link.domains
  set link value := { link with domains := value }
  get_set _ _ := rfl
  set_get _ := rfl
  set_ifindex _ _ := rfl

def defaultRoute : LinkField (Option Bool) where
  get link := link.defaultRoute
  set link value := { link with defaultRoute := value }
  get_set _ _ := rfl
  set_get _ := rfl
  set_ifindex _ _ := rfl

def llmnr : LinkField SupportMode where
  get link := link.llmnr
  set link value := { link with llmnr := value }
  get_set _ _ := rfl
  set_get _ := rfl
  set_ifindex _ _ := rfl

def multicastDns : LinkField SupportMode where
  get link := link.multicastDns
  set link value := { link with multicastDns := value }
  get_set _ _ := rfl
  set_get _ := rfl
  set_ifindex _ _ := rfl

def dnsOverTls : LinkField TlsMode where
  get link := link.dnsOverTls
  set link value := { link with dnsOverTls := value }
  get_set _ _ := rfl
  set_get _ := rfl
  set_ifindex _ _ := rfl

def dnssec : LinkField ValidationMode where
  get link := link.dnssec
  set link value := { link with dnssec := value }
  get_set _ _ := rfl
  set_get _ := rfl
  set_ifindex _ _ := rfl

def dnssecNegativeTrustAnchors : LinkField (List Str) where
  get link := link.dnssecNegativeTrustAnchors
  set link value := { link with dnssecNegativeTrustAnchors := value }
  get_set _ _ := rfl
  set_get _ := rfl
  set_ifindex _ _ := rfl

end LinkField

def pushNew {α : Type} [DecidableEq α] (values : List α) : List α :=
  values.foldl (fun kept value => if value ∈ kept then kept else kept ++ [value]) []

abbrev Outcome := Except LinkError Bool × RoutingTable

namespace RoutingTable

def empty : RoutingTable where
  links := ∅
  kernelSynchronized := false
  keyed := by simp

def put (table : RoutingTable) (link : LinkState) (positive : 0 < link.ifindex) : RoutingTable where
  links := table.links.insert link.ifindex link
  kernelSynchronized := table.kernelSynchronized
  keyed ifindex found h := by
    rw [Std.ExtTreeMap.getElem?_insert] at h
    split at h
    · rename_i same
      obtain rfl := compare_eq_iff_eq.1 same
      obtain rfl := Option.some.inj h
      exact ⟨positive, rfl⟩
    · exact table.keyed ifindex found h

structure Entered (ifindex : Int) where
  link : LinkState
  positive : 0 < ifindex
  own : link.ifindex = ifindex

def linkMut (table : RoutingTable) (ifindex : Int) :
    Except LinkError (Entered ifindex × RoutingTable) :=
  if positive : 0 < ifindex then
    match h : table.links[ifindex]? with
    | some link => .ok (⟨link, positive, (table.keyed ifindex link h).2⟩, table)
    | none =>
      if table.kernelSynchronized then .error (.noSuchLink ifindex)
      else .ok (⟨.fresh ifindex, positive, rfl⟩, table.put (.fresh ifindex) positive)
  else .error (.invalidIfindex ifindex)

def setField {α : Type} [DecidableEq α] (field : LinkField α) (table : RoutingTable) (ifindex : Int)
    (argument : Except LinkError α) : Outcome :=
  match table.linkMut ifindex with
  | .error error => (.error error, table)
  | .ok (entered, table) =>
    match argument with
    | .error error => (.error error, table)
    | .ok value =>
      if field.get entered.link = value then (.ok false, table)
      else (.ok true, table.put (field.set entered.link value) (by
        rw [field.set_ifindex, entered.own]
        exact entered.positive))

def setDns (table : RoutingTable) (ifindex : Int) (servers : List SocketAddr) : Outcome :=
  table.setField .dnsServers ifindex (.ok (pushNew (servers.map (normalizeServer ifindex))))

def setDomains (table : RoutingTable) (ifindex : Int) (domains : List Domain) : Outcome :=
  table.setField .domains ifindex (pushNew <$> domains.mapM normalizeDomain)

def setDefaultRoute (table : RoutingTable) (ifindex : Int) (defaultRoute : Option Bool) : Outcome :=
  table.setField .defaultRoute ifindex (.ok defaultRoute)

def setLlmnr (table : RoutingTable) (ifindex : Int) (mode : SupportMode) : Outcome :=
  table.setField .llmnr ifindex (.ok mode)

def setMulticastDns (table : RoutingTable) (ifindex : Int) (mode : SupportMode) : Outcome :=
  table.setField .multicastDns ifindex (.ok mode)

def setDnsOverTls (table : RoutingTable) (ifindex : Int) (mode : TlsMode) : Outcome :=
  table.setField .dnsOverTls ifindex (.ok mode)

def setDnssec (table : RoutingTable) (ifindex : Int) (mode : ValidationMode) : Outcome :=
  table.setField .dnssec ifindex (.ok mode)

def setDnssecNegativeTrustAnchors (table : RoutingTable) (ifindex : Int) (anchors : List Str) :
    Outcome :=
  table.setField .dnssecNegativeTrustAnchors ifindex (pushNew <$> anchors.mapM normalizeName)

def withKernel (table : RoutingTable) (kernel : KernelLinkState) : LinkState :=
  { (table.links[kernel.ifindex]?).getD (.fresh kernel.ifindex) with kernel := some kernel }

theorem withKernel_ifindex (table : RoutingTable) (kernel : KernelLinkState) :
    (table.withKernel kernel).ifindex = kernel.ifindex := by
  unfold withKernel
  cases h : table.links[kernel.ifindex]? with
  | none => rfl
  | some link => exact (table.keyed _ link h).2

def kernelOf (table : RoutingTable) (ifindex : Int) : Option KernelLinkState :=
  (table.links[ifindex]?).bind (·.kernel)

def syncLoop : List KernelLinkState → Bool → List Int → RoutingTable →
    Except LinkError (Bool × List Int) × RoutingTable
  | [], changed, seen, table => (.ok (changed, seen), table)
  | kernel :: rest, changed, seen, table =>
    if positive : 0 < kernel.ifindex then
      syncLoop rest (changed || table.kernelOf kernel.ifindex ≠ some kernel)
        (kernel.ifindex :: seen)
        (table.put (table.withKernel kernel) (by rwa [table.withKernel_ifindex kernel]))
    else (.error (.invalidIfindex kernel.ifindex), table)

def retainSeen (table : RoutingTable) (seen : List Int) : RoutingTable where
  links := table.links.filter fun ifindex link =>
    ifindex ∈ seen ∨ (link.kernel.isNone ∧ !table.kernelSynchronized)
  kernelSynchronized := true
  keyed ifindex link h := by
    rw [Std.ExtTreeMap.getElem?_filter', Option.filter_eq_some_iff] at h
    exact table.keyed ifindex link h.1

def syncKernelLinks (table : RoutingTable) (kernels : List KernelLinkState) : Outcome :=
  match syncLoop kernels (!table.kernelSynchronized) [] table with
  | (.error error, table) => (.error error, table)
  | (.ok (changed, seen), table) =>
    let retained := table.retainSeen seen
    (.ok (changed || retained.links.size ≠ table.links.size), retained)

def revert (table : RoutingTable) (ifindex : Int) : Outcome :=
  if positive : 0 < ifindex then
    match table.links[ifindex]? with
    | none => (.error (.noSuchLink ifindex), table)
    | some link =>
      let reset := { LinkState.fresh ifindex with kernel := link.kernel }
      if link = reset then (.ok false, table)
      else (.ok true, table.put reset positive)
  else (.error (.invalidIfindex ifindex), table)

end RoutingTable

end Resolved.Routing
