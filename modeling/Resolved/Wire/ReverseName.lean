import Resolved.Lib.Numeral
import Resolved.Net

/-!
# Names of the local tables

The reverse name of an address, and the keys of the hosts file and of the static records.
-/

namespace Resolved.Wire
open Lib

def inAddrArpa : Str := ['.', 'i', 'n', '-', 'a', 'd', 'd', 'r', '.', 'a', 'r', 'p', 'a']

def ip6Arpa : Str := ['i', 'p', '6', '.', 'a', 'r', 'p', 'a']

def ipv6FromOctets (bytes : Bytes) : Ipv6Addr :=
  let segment i := UInt16.ofNat (be16 (bytes.getD i 0) (bytes.getD (i + 1) 0))
  ⟨segment 0, segment 2, segment 4, segment 6, segment 8, segment 10, segment 12, segment 14⟩

def reverseName : IpAddr → Str
  | .v4 address =>
    Nat.toDigits 10 address.d.toNat ++ '.' :: Nat.toDigits 10 address.c.toNat ++
      '.' :: Nat.toDigits 10 address.b.toNat ++ '.' :: Nat.toDigits 10 address.a.toNat ++ inAddrArpa
  | .v6 address =>
    (address.octets.reverse.flatMap fun byte : UInt8 =>
      Nat.toDigits 16 (byte &&& 0x0f).toNat ++ '.' :: Nat.toDigits 16 (byte >>> 4).toNat ++ ['.']) ++ ip6Arpa

def u8FromStrRadix (radix : Nat) (text : Str) : Option UInt8 :=
  (fromStrRadix radix 256 text).map UInt8.ofNat

def pairNibbles : List UInt8 → Bytes
  | low :: high :: rest => pairNibbles rest ++ [low ||| high <<< 4]
  | _ => []

def parseReverseName (name : Str) : Option IpAddr :=
  let lower := toAsciiLowercase (trimEndWith (· == '.') name)
  match stripSuffix lower inAddrArpa with
  | some front =>
    match (splitAtChar '.' front).mapM (u8FromStrRadix 10) with
    | some [d, c, b, a] => some (.v4 ⟨a, b, c, d⟩)
    | _ => none
  | none =>
    match stripSuffix lower ('.' :: ip6Arpa) with
    | some front =>
      match (splitAtChar '.' front).mapM (u8FromStrRadix 16) with
      | some nibbles =>
        if nibbles.length ≠ 32 ∨ nibbles.any (0x0f < ·) then none
        else some (.v6 (ipv6FromOctets (pairNibbles nibbles)))
      | none => none
    | none => none

/-!
## Keys of the local tables

The hosts file and the static records are looked up by the text of the question name.
-/

def Hosts.canonicalName (name : Str) : Str := toAsciiLowercase (trimEndWith (· == '.') name)

def StaticRecords.canonicalName (name : Str) : Str :=
  let name := trimEndWith (· == '.') name
  if name = [] then ['.'] else toAsciiLowercase name

end Resolved.Wire
