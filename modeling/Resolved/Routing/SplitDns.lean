import Resolved.Lib.Ordered
import Resolved.Lib.Utf8
import Resolved.Net

/-!
# Choosing a route by rules

The split-DNS table and the cgroup policy.
-/

namespace Resolved.SplitDns
open Lib

structure DomainRule where
  suffix : Str
  ifindex : Int
  search : Bool
  routeOnly : Bool
  priority : Int
deriving DecidableEq, Repr

inductive Pick where
  | links (links : List Int)
  | defaultRoute
  | blackhole
deriving DecidableEq, Repr

def normalizeName (name : Str) : Str :=
  toAsciiLowercase (trimEndWith (· == '.') (trim name))

def suffixMatchLen (name suffix : Str) : Option Nat :=
  let n := normalizeName name
  let d := normalizeName suffix
  if d = [] ∨ d = ['.'] then none
  else if n = d then some (utf8 d).length
  else if ('.' :: d).isSuffixOf n then some (utf8 d).length
  else none

structure Pass where
  bestLen : Int
  bestPrio : Int
  hits : List (Int × Int)

def Pass.start : Pass := ⟨-1, 2 ^ 31 - 1, []⟩

def Pass.visit (name : Str) (pass : Pass) (rule : DomainRule) : Pass :=
  match suffixMatchLen name rule.suffix with
  | none => pass
  | some len =>
    if pass.bestLen < (len : Int) then
      ⟨len, rule.priority, [(rule.ifindex, rule.priority)]⟩
    else if (len : Int) = pass.bestLen then
      { pass with
        bestPrio := if rule.priority < pass.bestPrio then rule.priority else pass.bestPrio
        hits := pass.hits ++ [(rule.ifindex, rule.priority)] }
    else pass

def pickLinksForName (name : Str) (rules : List DomainRule) (_defaultRouteLinks : List Int)
    (allowDefault : Bool) : Pick :=
  let hits := (rules.foldl (Pass.visit name) .start).hits
  if hits ≠ [] then
    let minP := (hits.map (·.2)).min?.getD 0
    .links (sortDedup ((hits.filter fun hit => hit.2 = minP).map (·.1)))
  else if allowDefault then .defaultRoute
  else .blackhole

structure SplitDnsTable where
  rules : List DomainRule
  defaultRouteIfindices : List Int
  allowDefault : Bool
deriving DecidableEq, Repr

namespace SplitDnsTable

def pick (table : SplitDnsTable) (name : Str) : Pick :=
  pickLinksForName name table.rules table.defaultRouteIfindices table.allowDefault

def sameKey (rule other : DomainRule) : Bool :=
  other.ifindex = rule.ifindex && normalizeName other.suffix = normalizeName rule.suffix

def upsertRule (table : SplitDnsTable) (rule : DomainRule) : SplitDnsTable :=
  match table.rules.findIdx? (sameKey rule) with
  | some place => { table with rules := table.rules.set place rule }
  | none => { table with rules := table.rules ++ [rule] }

def clearLink (table : SplitDnsTable) (ifindex : Int) : SplitDnsTable :=
  { table with
    rules := table.rules.filter (·.ifindex ≠ ifindex)
    defaultRouteIfindices := table.defaultRouteIfindices.filter (· ≠ ifindex) }

end SplitDnsTable

end Resolved.SplitDns

namespace Resolved.Policy
open Lib

structure DomainRule where
  suffix : Str
  search : Bool
  routeOnly : Bool
deriving DecidableEq, Repr

structure DnsView where
  name : Str
  upstreams : List SocketAddr
  domains : List DomainRule
  defaultRoute : Bool
  dnssecMode : UInt8
  dot : UInt8
deriving DecidableEq, Repr

structure PolicyDb where
  byCgroup : AList fun _ : Str => Str
  byNetns : AList fun _ : UInt64 => Str
  byUid : AList fun _ : UInt32 => Str
  views : AList fun _ : Str => DnsView
  global : DnsView

namespace PolicyDb

def better (cg : Str) (best : Option (Sigma fun _ : Str => Str)) (rule : Sigma fun _ : Str => Str) :
    Option (Sigma fun _ : Str => Str) :=
  if rule.1.isPrefixOf cg && best.all fun chosen => (utf8 chosen.1).length < (utf8 rule.1).length
  then some rule
  else best

def bestPath (db : PolicyDb) (cg : Str) : Option (Sigma fun _ : Str => Str) :=
  db.byCgroup.entries.foldl (better cg) none

def resolveView (db : PolicyDb) (cgroup : Option Str) (netns : Option UInt64)
    (uid : Option UInt32) : DnsView :=
  (((netns.bind fun ns => db.byNetns.lookup ns).bind fun vn => db.views.lookup vn) <|>
    ((cgroup.bind db.bestPath).bind fun best => db.views.lookup best.2) <|>
    ((uid.bind fun u => db.byUid.lookup u).bind fun vn => db.views.lookup vn)).getD db.global

end PolicyDb

end Resolved.Policy
