import Resolved.AddressText
import Resolved.Wire.LocalAnswer
import Resolved.Wire.ReverseName

/-!
# The hosts file
-/

namespace Resolved.HostsFile
open Lib Wire
open Wire.Hosts (canonicalName)

structure Hosts where
  byName : AList fun _ : Str => List IpAddr
  byAddress : AList fun _ : IpAddr => List Str

def Hosts.default : Hosts := ⟨∅, ∅⟩

def pushOnce {α : Type} [DecidableEq α] (values : List α) (value : α) : List α :=
  if value ∈ values then values else values ++ [value]

def Hosts.enter (address : IpAddr) (hosts : Hosts) (name : Str) : Hosts :=
  let canonical := canonicalName name
  if canonical = [] then hosts
  else
    { byName := hosts.byName.insert canonical
        (pushOnce ((hosts.byName.lookup canonical).getD []) address)
      byAddress := hosts.byAddress.insert address
        (pushOnce ((hosts.byAddress.lookup address).getD []) canonical) }

def Hosts.parseLine (hosts : Hosts) (rawLine : Str) : Hosts :=
  let line := rawLine.takeWhile (· ≠ '#')
  match splitWhitespace line with
  | [] => hosts
  | field :: fields =>
    match IpAddr.parse field with
    | none => hosts
    | some address => fields.foldl (Hosts.enter address) hosts

def Hosts.parse (text : Str) : Hosts := (lines text).foldl Hosts.parseLine .default

def localhostV4 : IpAddr := .v4 ⟨127, 0, 0, 1⟩

def localhostV6 : IpAddr := .v6 ⟨0, 0, 0, 0, 0, 0, 0, 1⟩

def syntheticAddresses (name : Str) : List IpAddr :=
  if name = "localhost".toList ∨ name = "localhost.localdomain".toList then
    [localhostV4, localhostV6]
  else if name = "localhost4".toList ∨ name = "localhost4.localdomain4".toList then [localhostV4]
  else if name = "localhost6".toList ∨ name = "localhost6.localdomain6".toList then [localhostV6]
  else if name = "_localdnsstub".toList then [.v4 ⟨127, 0, 0, 53⟩]
  else if name = "_localdnsproxy".toList then [.v4 ⟨127, 0, 0, 54⟩]
  else []

def syntheticNames (address : IpAddr) : List Str :=
  if address = localhostV4 ∨ address = localhostV6 then ["localhost".toList]
  else if address = .v4 ⟨127, 0, 0, 53⟩ then ["_localdnsstub".toList]
  else if address = .v4 ⟨127, 0, 0, 54⟩ then ["_localdnsproxy".toList]
  else []

def addressRecord (rrType : Nat) : IpAddr → Option LocalRecord
  | .v4 address => if rrType = typeA ∨ rrType = 255 then some (.a address) else none
  | .v6 address => if rrType = typeAaaa ∨ rrType = 255 then some (.aaaa address) else none

namespace Hosts

def lookupForward (hosts : Hosts) (question : Question) : Option (List LocalRecord) :=
  let name := canonicalName question.name.text
  let addresses := syntheticAddresses name ++ (IpAddr.parse name).toList
  let addresses := ((hosts.byName.lookup name).getD []).foldl pushOnce addresses
  if addresses = [] then none else some (addresses.filterMap (addressRecord question.rrType))

def lookupReverse (hosts : Hosts) (question : Question) : Option (List LocalRecord) := do
  let address ← parseReverseName question.name.text
  let names := ((hosts.byAddress.lookup address).getD []).foldl pushOnce (syntheticNames address)
  if names = [] then none else some (names.map .ptr)

def knownName (hosts : Hosts) (name : Str) : Bool :=
  let name := canonicalName name
  (hosts.byName.lookup name).isSome || syntheticAddresses name ≠ [] || (IpAddr.parse name).isSome

def lookup (hosts : Hosts) (question : Question) : Option (List LocalRecord) :=
  if question.cls ≠ classIn ∧ question.cls ≠ classAny then none
  else if question.rrType = typeA ∨ question.rrType = typeAaaa ∨ question.rrType = 255 then
    hosts.lookupForward question
  else if question.rrType = typePtr then hosts.lookupReverse question
  else if hosts.knownName question.name.text then some []
  else none

end Hosts

end Resolved.HostsFile
