import Resolved.Lib.Numeral
import Resolved.Net

/-!
# Addresses as text

The parser behind `FromStr` of the address types of the standard library. A parser that fails takes
nothing, as `read_atomically` sees to.
-/

namespace Resolved.AddressText
open Lib

abbrev Parser (α : Type) := StateT Str Option α

def readGivenChar (target : Char) : Parser Unit := fun text =>
  match text with
  | c :: rest => if c = target then some ((), rest) else none
  | [] => none

def readSeparator {α : Type} (separator : Char) (index : Nat) (inner : Parser α) : Parser α := do
  if 0 < index then readGivenChar separator
  inner

def digitsOf (radix : Nat) (text : Str) : Str := text.takeWhile fun c => (toDigit radix c).isSome

def readNumber (radix : Nat) (maxDigits : Option Nat) (allowZeroPrefix : Bool) (bound : Nat) :
    Parser Nat := fun text =>
  let digits := digitsOf radix text
  if digits = [] ∨ maxDigits.any (· < digits.length) ∨
      (!allowZeroPrefix && digits.head? = some '0' && 1 < digits.length) then none
  else ((readDigits radix digits).filter (· < bound)).map (·, text.drop digits.length)

def readIpv4Addr : Parser Ipv4Addr := do
  let octet index := readSeparator '.' index (readNumber 10 (some 3) false 256)
  let a ← octet 0
  let b ← octet 1
  let c ← octet 2
  let d ← octet 3
  return ⟨UInt8.ofNat a, UInt8.ofNat b, UInt8.ofNat c, UInt8.ofNat d⟩

def readGroups (limit : Nat) : Nat → Nat → Str → (List Nat × Bool) × Str
  | 0, _, text => (([], false), text)
  | fuel + 1, index, text =>
    let embedded :=
      if index < limit - 1 then (readSeparator ':' index readIpv4Addr).run text else none
    match embedded with
    | some (ip, rest) => (([be16 ip.a ip.b, be16 ip.c ip.d], true), rest)
    | none =>
      match (readSeparator ':' index (readNumber 16 (some 4) true 65536)).run text with
      | some (group, rest) =>
        let ((groups, ipv4), rest) := readGroups limit fuel (index + 1) rest
        ((group :: groups, ipv4), rest)
      | none => (([], false), text)

def ipv6OfGroups (groups : List Nat) : Ipv6Addr :=
  let segment i := UInt16.ofNat (groups.getD i 0)
  ⟨segment 0, segment 1, segment 2, segment 3, segment 4, segment 5, segment 6, segment 7⟩

def readIpv6Addr : Parser Ipv6Addr := fun text =>
  let ((front, frontIpv4), rest) := readGroups 8 8 0 text
  if front.length = 8 then some (ipv6OfGroups front, rest)
  else if frontIpv4 then none
  else do
    let ((), rest) ← (readGivenChar ':').run rest
    let ((), rest) ← (readGivenChar ':').run rest
    let limit := 8 - (front.length + 1)
    let ((rear, _), rest) := readGroups limit limit 0 rest
    let zeros := List.replicate (8 - front.length - rear.length) 0
    return (ipv6OfGroups (front ++ zeros ++ rear), rest)

def readIpAddr : Parser IpAddr := fun text =>
  (readIpv4Addr.run text).map (fun (ip, rest) => (.v4 ip, rest)) <|>
    (readIpv6Addr.run text).map fun (ip, rest) => (.v6 ip, rest)

def parseWith {α : Type} (inner : Parser α) (text : Str) : Option α :=
  (inner.run text).bind fun (value, rest) => if rest = [] then some value else none

end Resolved.AddressText

namespace Resolved
open Lib AddressText

def IpAddr.parse (text : Str) : Option IpAddr := parseWith readIpAddr text

end Resolved
