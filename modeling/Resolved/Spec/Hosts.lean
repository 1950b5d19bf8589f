import Resolved.Hosts.Table

/-!
# Local names and addresses
-/

namespace Resolved.Spec
open Lib Wire HostsFile
open Wire.Hosts (canonicalName)

/-! ## Owners of reverse records -/

def ownerText (name : Str) : Str := toAsciiLowercase (trimEndWith (· == '.') name)

inductive NumeralOwner (name : Str) (numerals : List Str) : Prop
  | inAddr (text : ownerText name = ['.'].intercalate numerals ++ inAddrArpa)
      (count : numerals.length = 4)
      (octets : ∀ numeral ∈ numerals, (fromStrRadix 10 256 numeral).isSome)
  | ip6 (text : ownerText name = ['.'].intercalate numerals ++ '.' :: ip6Arpa)
      (count : numerals.length = 32)
      (nibbles : ∀ numeral ∈ numerals, (fromStrRadix 16 16 numeral).isSome)

def LooseOwner (name : Str) : Prop :=
  ∃ numerals, NumeralOwner name numerals ∧ ∃ numeral ∈ numerals, Superfluous numeral

def radixOf : IpAddr → Nat
  | .v4 _ => 10
  | .v6 _ => 16

def domainOf : IpAddr → Str
  | .v4 _ => inAddrArpa
  | .v6 _ => '.' :: ip6Arpa

def nibblesOf (byte : UInt8) : List UInt8 := [byte &&& 0x0f, byte >>> 4]

def valuesOf : IpAddr → List UInt8
  | .v4 address => [address.d, address.c, address.b, address.a]
  | .v6 address => address.octets.reverse.flatMap nibblesOf

def OwnedBy (address : IpAddr) (name : Str) : Prop :=
  ∃ numerals, ownerText name = ['.'].intercalate numerals ++ domainOf address ∧
    List.Forall₂ (fun numeral value => fromStrRadix (radixOf address) 256 numeral =
      some (UInt8.toNat value)) numerals (valuesOf address)

/-! ## The hosts file -/

def lineEntries (rawLine : Str) : List (IpAddr × Str) :=
  match splitWhitespace (rawLine.takeWhile (· ≠ '#')) with
  | [] => []
  | field :: names =>
    (IpAddr.parse field).elim [] fun address =>
      ((names.map canonicalName).filter (· ≠ [])).map (address, ·)

def hostEntries (text : Str) : List (IpAddr × Str) := (lines text).flatMap lineEntries

def addressesListed (text name : Str) : List IpAddr :=
  (((hostEntries text).filter (·.2 = name)).map (·.1)).eraseDups

def namesListed (text : Str) (address : IpAddr) : List Str :=
  (((hostEntries text).filter (·.1 = address)).map (·.2)).eraseDups

structure AnswersFromFile (text : Str) (question : Question) : Prop where
  known : addressesListed text (canonicalName question.name.text) ≠ [] →
    ∃ records, (Hosts.parse text).lookup question = some records
  forward : question.rrType ∈ [typeA, typeAaaa, 255] →
    syntheticAddresses (canonicalName question.name.text) = [] →
    IpAddr.parse (canonicalName question.name.text) = none → (Hosts.parse text).lookup question =
      if addressesListed text (canonicalName question.name.text) = [] then none
      else some ((addressesListed text (canonicalName question.name.text)).filterMap
        (addressRecord question.rrType))
  reverse : question.rrType = typePtr → ∀ address, canonicalName question.name.text = reverseName address →
    (Hosts.parse text).lookup question = if syntheticNames address = [] ∧ namesListed text address = [] then none
      else some ((syntheticNames address ++
        (namesListed text address).filter (· ∉ syntheticNames address)).map .ptr)
  inverse : ∀ address name, address ∈ ((Hosts.parse text).byName.lookup name).getD [] ↔
    name ∈ ((Hosts.parse text).byAddress.lookup address).getD []

/-! ## Answers on the wire -/

structure Encodable (name : Str) : Prop where
  ascii : isAscii name = true
  labels : ∀ label ∈ name.splitOn '.', label ≠ [] ∧ label.length ≤ 63
  short : name.length ≤ 253

def recordSize (record : LocalRecord) : Nat := 12 + record.rdata.toOption.elim 0 List.length

def answerSize (question : Question) (records : List LocalRecord) : Nat :=
  question.nextOffset + (records.map recordSize).sum

def reverseRecords (text : Str) (address : IpAddr) : List LocalRecord :=
  (syntheticNames address ++ (namesListed text address).filter (· ∉ syntheticNames address)).map .ptr

def Answerable (text : Str) (query : Packet) (question : Question) : Prop :=
  ∀ records, (Hosts.parse text).lookup question = some records →
    answerSize question records ≤ 65535 → ∃ response, localResponse query records 0 = .ok response

end Resolved.Spec
