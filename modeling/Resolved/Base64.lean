import Resolved.Lib.Base64
import Resolved.Lib.Result
import Resolved.Lib.Utf8

/-!
# Base64

The two encoders and the two decoders. A text is its octets. Errors are told apart by their texts;
the path and the line that those of the DNS-SD configuration name as well are left out.
-/

namespace Resolved.Base64
open Lib

def alphabet : List Char :=
  ['A', 'B', 'C', 'D', 'E', 'F', 'G', 'H', 'I', 'J', 'K', 'L', 'M', 'N', 'O', 'P', 'Q', 'R', 'S', 'T',
    'U', 'V', 'W', 'X', 'Y', 'Z', 'a', 'b', 'c', 'd', 'e', 'f', 'g', 'h', 'i', 'j', 'k', 'l', 'm', 'n',
    'o', 'p', 'q', 'r', 's', 't', 'u', 'v', 'w', 'x', 'y', 'z', '0', '1', '2', '3', '4', '5', '6', '7',
    '8', '9', '+', '/']

def symbol (value : UInt8) : UInt8 := octet (alphabet.getD value.toNat 'A')

def pad : UInt8 := octet '='

def base64Value (byte : UInt8) : Option UInt8 :=
  if octet 'A' ≤ byte ∧ byte ≤ octet 'Z' then some (byte - octet 'A')
  else if octet 'a' ≤ byte ∧ byte ≤ octet 'z' then some (byte - octet 'a' + 26)
  else if octet '0' ≤ byte ∧ byte ≤ octet '9' then some (byte - octet '0' + 52)
  else if byte = octet '+' then some 62
  else if byte = octet '/' then some 63
  else none

def encodeChunks : Bytes → Bytes
  | [] => []
  | [first] => [symbol (sextet1 first), symbol (sextet2 first 0), pad, pad]
  | [first, second] =>
    [symbol (sextet1 first), symbol (sextet2 first second), symbol (sextet3 second 0), pad]
  | first :: second :: third :: rest =>
    symbol (sextet1 first) :: symbol (sextet2 first second) :: symbol (sextet3 second third) ::
      symbol (sextet4 third) :: encodeChunks rest

end Resolved.Base64

namespace Resolved.Varlink

def base64 : Lib.Bytes → Lib.Bytes := Base64.encodeChunks

end Resolved.Varlink

namespace Resolved.Resolvectl
open Lib Base64

def encodeBase64 : Bytes → Bytes := encodeChunks

inductive Base64Error where
  | invalidLength
  | invalidPadding
  | nonCanonicalPadding
  | invalidCharacter
deriving DecidableEq, Repr

def valueOf (byte : UInt8) : Except Base64Error UInt8 := okOr .invalidCharacter (base64Value byte)

def valueOrPad (refused : Bool) (byte : UInt8) : Except Base64Error (Option UInt8) :=
  if byte = pad then if refused then .error .invalidPadding else .ok none
  else do return some (← valueOf byte)

def decodeChunk (last : Bool) (a b c d : UInt8) : Except Base64Error Bytes := do
  let x ← valueOf a
  let y ← valueOf b
  let z ← valueOrPad (!last || d != pad) c
  let w ← valueOrPad (!last) d
  match z, w with
  | none, some _ => .error .invalidPadding
  | some z, some w => .ok [octet1 x y, octet2 y z, octet3 z w]
  | some z, none =>
    if z &&& 0x03 ≠ 0 then .error .nonCanonicalPadding else .ok [octet1 x y, octet2 y z]
  | none, none => if y &&& 0x0f ≠ 0 then .error .nonCanonicalPadding else .ok [octet1 x y]

def decodeChunks : Bytes → Except Base64Error Bytes
  | a :: b :: c :: d :: rest => do
    let block ← decodeChunk rest.isEmpty a b c d
    return block ++ (← decodeChunks rest)
  | _ => .ok []

def decodeBase64 (input : Bytes) : Except Base64Error Bytes :=
  if input.isEmpty ∨ input.length % 4 ≠ 0 then .error .invalidLength else decodeChunks input

end Resolved.Resolvectl

namespace Resolved.DnsSd
open Lib Base64

inductive Base64Error where
  | dataFollowsPadding
  | invalidData
  | incompleteQuartet
deriving DecidableEq, Repr

structure Base64State where
  quartet : Bytes
  padding : Nat
  output : Bytes
deriving DecidableEq, Repr

def isAsciiWhitespace (byte : UInt8) : Bool :=
  byte == 32 || byte == 9 || byte == 10 || byte == 12 || byte == 13

def push (s : Base64State) (value : UInt8) (padding : Nat) : Base64State :=
  match s.quartet ++ [value] with
  | [x, y, z, w] =>
    ⟨[], 0, s.output ++ octet1 x y :: ((if padding < 2 then [octet2 y z] else []) ++
      if padding = 0 then [octet3 z w] else [])⟩
  | quartet => ⟨quartet, padding, s.output⟩

def quartetStep (s : Base64State) (byte : UInt8) : Except Base64Error Base64State :=
  if byte = pad then .ok (push s 0 (s.padding + 1))
  else if s.padding ≠ 0 then .error .dataFollowsPadding
  else do
    let value ← okOr .invalidData (base64Value byte)
    return push s value s.padding

def decodeBase64 (value : Bytes) : Except Base64Error Bytes := do
  let s ← (value.filter (! isAsciiWhitespace ·)).foldlM quartetStep ⟨[], 0, []⟩
  if s.quartet.length ≠ 0 then throw .incompleteQuartet else return s.output

end Resolved.DnsSd
