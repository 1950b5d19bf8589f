import Resolved.Routing.Select
import Resolved.Routing.SplitDns

/-!
# Where a name is routed to

Scopes, split-DNS links and cgroup rules.
-/

/-! ## Routing -/

namespace Resolved.Spec
open Lib Routing

/-! ### Operations on the table -/

inductive TableOp where
  | setDns (ifindex : Int) (servers : List SocketAddr)
  | setDomains (ifindex : Int) (domains : List Domain)
  | setDefaultRoute (ifindex : Int) (defaultRoute : Option Bool)
  | setLlmnr (ifindex : Int) (mode : SupportMode)
  | setMulticastDns (ifindex : Int) (mode : SupportMode)
  | setDnsOverTls (ifindex : Int) (mode : TlsMode)
  | setDnssec (ifindex : Int) (mode : ValidationMode)
  | setDnssecNegativeTrustAnchors (ifindex : Int) (anchors : List Str)
  | syncKernelLinks (kernels : List KernelLinkState)
  | revert (ifindex : Int)

def TableOp.apply (table : RoutingTable) : TableOp → Outcome
  | setDns ifindex servers => table.setDns ifindex servers
  | setDomains ifindex domains => table.setDomains ifindex domains
  | setDefaultRoute ifindex defaultRoute => table.setDefaultRoute ifindex defaultRoute
  | setLlmnr ifindex mode => table.setLlmnr ifindex mode
  | setMulticastDns ifindex mode => table.setMulticastDns ifindex mode
  | setDnsOverTls ifindex mode => table.setDnsOverTls ifindex mode
  | setDnssec ifindex mode => table.setDnssec ifindex mode
  | setDnssecNegativeTrustAnchors ifindex anchors =>
    table.setDnssecNegativeTrustAnchors ifindex anchors
  | syncKernelLinks kernels => table.syncKernelLinks kernels
  | revert ifindex => table.revert ifindex

def Reports (table : RoutingTable) (outcome : Outcome) : Prop :=
  (∀ error, outcome.1 = .error error → outcome.2 = table) ∧
    ∀ changed, outcome.1 = .ok changed → (changed = true ↔ outcome.2 ≠ table)

def MakesLink (table : RoutingTable) (ifindex : Int) : Prop :=
  0 < ifindex ∧ table.links[ifindex]? = none ∧ table.kernelSynchronized = false

def lastReport (kernels : List KernelLinkState) (ifindex : Int) : Option KernelLinkState :=
  (kernels.filter fun kernel => kernel.ifindex = ifindex).getLast?

def Settled (table : RoutingTable) (kernels : List KernelLinkState) : Prop :=
  ∀ kernel ∈ kernels, table.kernelOf kernel.ifindex = lastReport kernels kernel.ifindex

def validReports (kernels : List KernelLinkState) : List KernelLinkState :=
  kernels.takeWhile fun kernel => 0 < kernel.ifindex

def Misreports (table : RoutingTable) : TableOp → Prop
  | .setDns ifindex servers => MakesLink table ifindex ∧ servers = []
  | .setDomains ifindex domains => MakesLink table ifindex ∧
    (domains = [] ∨ ∃ domain ∈ domains, ∃ error, normalizeName domain.name = .error error)
  | .setDefaultRoute ifindex defaultRoute => MakesLink table ifindex ∧ defaultRoute = none
  | .setLlmnr ifindex mode => MakesLink table ifindex ∧ mode = .yes
  | .setMulticastDns ifindex mode => MakesLink table ifindex ∧ mode = .yes
  | .setDnsOverTls ifindex mode => MakesLink table ifindex ∧ mode = .no
  | .setDnssec ifindex mode => MakesLink table ifindex ∧ mode = .allowDowngrade
  | .setDnssecNegativeTrustAnchors ifindex anchors => MakesLink table ifindex ∧
    (anchors = [] ∨ ∃ anchor ∈ anchors, ∃ error, normalizeName anchor = .error error)
  | .syncKernelLinks kernels =>
    ((∃ kernel ∈ kernels, kernel.ifindex ≤ 0) ∧ ¬ Settled table (validReports kernels)) ∨
    ((∀ kernel ∈ kernels, 0 < kernel.ifindex) ∧ table.kernelSynchronized = true ∧ Settled table kernels ∧
      (∀ ifindex ∈ table.links, ∃ kernel ∈ kernels, kernel.ifindex = ifindex) ∧
      ∃ kernel ∈ kernels, table.kernelOf kernel.ifindex ≠ some kernel)
  | .revert _ => False

/-! ### Synchronization with the kernel -/

def SyncSettles (table : RoutingTable) (kernels : List KernelLinkState) : Prop :=
  (table.syncKernelLinks kernels).2.syncKernelLinks kernels = (.ok false, (table.syncKernelLinks kernels).2)

def HoldsExactly (table : RoutingTable) (kernels : List KernelLinkState) : Prop :=
  ∀ ifindex, ifindex ∈ table.links ↔ ∃ kernel ∈ kernels, kernel.ifindex = ifindex

def LeftOver (table : RoutingTable) (kernels : List KernelLinkState) : Prop :=
  table.kernelSynchronized = false ∧ ∃ (ifindex : Int) (link : LinkState),
    table.links[ifindex]? = some link ∧ link.kernel = none ∧ ∀ kernel ∈ kernels, kernel.ifindex ≠ ifindex

def Conflicting (kernels : List KernelLinkState) : Prop :=
  ∃ kernel ∈ kernels, ∃ other ∈ kernels, kernel.ifindex = other.ifindex ∧ kernel ≠ other

/-! ### Selection -/

def labels (name : Str) : List Str := if name = ['.'] then [] else name.splitOn '.'

def Covers (domain name : Str) : Prop :=
  (labels domain).map toAsciiLowercase <:+ (labels name).map toAsciiLowercase

def LongestMatch (name : Str) (domains : List Str) (count : Nat) : Prop :=
  (∃ domain ∈ domains, Covers domain name ∧ (labels domain).length = count) ∧
    ∀ domain ∈ domains, Covers domain name → (labels domain).length ≤ count

def GlobalDomain (domain : Str) : Prop :=
  domain = ['.'] ∨ (domain ≠ [] ∧ domain.getLast? ≠ some '.' ∧ toAsciiLowercase domain = domain)

structure RouteQuestion where
  table : RoutingTable
  name : Str
  globalServers : List SocketAddr
  fallbackServers : List SocketAddr
  globalDomains : List Domain

namespace RouteQuestion

inductive Eligible (question : RouteQuestion) : RouteScope → List Str → Prop where
  | global (servers : question.globalServers ≠ []) :
      Eligible question ⟨.global, question.globalServers⟩ (question.globalDomains.map (·.name))
  | link (ifindex : Int) (link : LinkState) (found : question.table.links[ifindex]? = some link)
      (servers : link.dnsServers ≠ []) (relevant : link.kernelRelevantUnicast = true) :
      Eligible question ⟨.link ifindex, link.dnsServers⟩ (link.domains.map (·.name))

def Matches (question : RouteQuestion) (scope : RouteScope) (count : Nat) : Prop :=
  ∃ domains, question.Eligible scope domains ∧ LongestMatch question.name domains count

inductive Default (question : RouteQuestion) : RouteScope → Prop where
  | global (servers : question.globalServers ≠ []) :
      Default question ⟨.global, question.globalServers⟩
  | link (ifindex : Int) (link : LinkState) (found : question.table.links[ifindex]? = some link)
      (servers : link.dnsServers ≠ []) (relevant : link.kernelRelevantUnicast = true)
      (route : link.effectiveDefaultRoute = true) :
      Default question ⟨.link ifindex, link.dnsServers⟩

inductive Selected (question : RouteQuestion) : RouteScope → Prop where
  | longest {scope : RouteScope} {count : Nat} (here : question.Matches scope count)
      (most : ∀ other count', question.Matches other count' → count' ≤ count) :
      Selected question scope
  | default {scope : RouteScope} (uncovered : ∀ other count, ¬ question.Matches other count)
      (default : question.Default scope) : Selected question scope
  | fallback (uncovered : ∀ other count, ¬ question.Matches other count)
      (none : ∀ scope, ¬ question.Default scope) (servers : question.fallbackServers ≠ []) :
      Selected question ⟨.fallback, question.fallbackServers⟩

end RouteQuestion

def ScopeBefore : RouteScope → RouteScope → Prop
  | ⟨.global, _⟩, ⟨.link _, _⟩ => True
  | ⟨.link ifindex, _⟩, ⟨.link ifindex', _⟩ => ifindex < ifindex'
  | _, _ => False

/-! ### Writing back what was read -/

def readDomain (domain : LinkDomain) : Domain := ⟨domain.name, domain.routeOnly⟩

def TakesBack (table : RoutingTable) : Prop :=
  ∀ (ifindex : Int) link, table.links[ifindex]? = some link →
    table.setDns ifindex link.dnsServers = (.ok false, table) ∧
    table.setDomains ifindex (link.domains.map readDomain) = (.ok false, table) ∧
    table.setDnssecNegativeTrustAnchors ifindex link.dnssecNegativeTrustAnchors = (.ok false, table)

def bareName (name : Str) : Str :=
  let name := trimEndWith (· == '.') (trim name)
  if name.head? = some '~' then name.tail else name

def Bare (name : Str) : Prop :=
  (bareName name).head? ≠ some '~' ∧ trim (bareName name) = bareName name

def TableOp.GivesBare : TableOp → Prop
  | setDomains _ domains => ∀ domain ∈ domains, Bare domain.name
  | setDnssecNegativeTrustAnchors _ anchors => ∀ anchor ∈ anchors, Bare anchor
  | _ => True

def tableAfter (ops : List TableOp) : RoutingTable :=
  ops.foldl (fun table op => (op.apply table).2) .empty

/-! ## Choosing among rules -/

/-! ### Suffix rules -/

section Suffixes
open SplitDns

def suffixLabels (name : Str) : List Str :=
  (toAsciiLowercase (trimEndWith (· == '.') (trim name))).splitOn '.'

def SuffixMatches (name suffix : Str) : Prop :=
  suffixLabels suffix ≠ [[]] ∧ suffixLabels suffix <:+ suffixLabels name

structure Preferred (name : Str) (rules : List DomainRule) (rule : DomainRule) : Prop where
  member : rule ∈ rules
  matching : SuffixMatches name rule.suffix
  longest : ∀ other ∈ rules, SuffixMatches name other.suffix →
    (suffixLabels other.suffix).length ≤ (suffixLabels rule.suffix).length
  foremost : ∀ other ∈ rules, SuffixMatches name other.suffix →
    (suffixLabels other.suffix).length = (suffixLabels rule.suffix).length → rule.priority ≤ other.priority

structure PicksPreferred (name : Str) (rules : List DomainRule) (allowDefault : Bool)
    (pick : Pick) : Prop where
  links : (∃ rule ∈ rules, SuffixMatches name rule.suffix) →
    ∃ links, pick = .links links ∧ links.Pairwise (· < ·) ∧
      ∀ ifindex, ifindex ∈ links ↔ ∃ rule, Preferred name rules rule ∧ rule.ifindex = ifindex
  defaultRoute : pick = .defaultRoute ↔ allowDefault = true ∧ ∀ rule ∈ rules, ¬ SuffixMatches name rule.suffix
  blackhole : pick = .blackhole ↔ allowDefault = false ∧ ∀ rule ∈ rules, ¬ SuffixMatches name rule.suffix

inductive SplitOp where
  | upsert (rule : DomainRule)
  | clear (ifindex : Int)

def SplitOp.apply (table : SplitDnsTable) : SplitOp → SplitDnsTable
  | upsert rule => table.upsertRule rule
  | clear ifindex => table.clearLink ifindex

def SplitOp.Spares (ifindex : Int) : SplitOp → Prop
  | upsert rule => rule.ifindex ≠ ifindex
  | clear _ => True

end Suffixes

/-! ### Cgroup rules -/

section Paths
open Policy

def components (path : Str) : List Str :=
  (if path.getLast? = some '/' then path.dropLast else path).splitOn '/'

def CoversCgroup (path cgroup : Str) : Prop :=
  path = cgroup ∨ components path <+: cgroup.splitOn '/' ∧ components path ≠ cgroup.splitOn '/'

structure Governs (db : PolicyDb) (cgroup path view : Str) : Prop where
  rule : db.byCgroup.lookup path = some view
  covers : CoversCgroup path cgroup
  longest : ∀ other, other ∈ db.byCgroup → CoversCgroup other cgroup → (utf8 other).length ≤ (utf8 path).length

/-- The rule found on the way is the one that governs the caller's cgroup, and the view is that of
the rule; without such a rule or view it is that of the user, or the global one. -/
structure ViewedByPath (db : PolicyDb) (cgroup : Str) (netns : Option UInt64)
    (uid : Option UInt32) : Prop where
  governing : ∀ path view, db.bestPath cgroup = some ⟨path, view⟩ ↔ Governs db cgroup path view
  governed : ∀ path view, Governs db cgroup path view → ∀ found, db.views.lookup view = some found →
    db.resolveView (some cgroup) netns uid = found
  otherwise : (∀ path view, Governs db cgroup path view → db.views.lookup view = none) →
    db.resolveView (some cgroup) netns uid =
      ((uid.bind fun u => db.byUid.lookup u).bind fun vn => db.views.lookup vn).getD db.global

structure SameEntries (db other : PolicyDb) : Prop where
  byCgroup : db.byCgroup.entries.Perm other.byCgroup.entries
  byNetns : db.byNetns.entries.Perm other.byNetns.entries
  byUid : db.byUid.entries.Perm other.byUid.entries
  views : db.views.entries.Perm other.views.entries
  global : db.global = other.global

end Paths

end Resolved.Spec
