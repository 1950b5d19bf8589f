import Resolved.Lib.Result
import Resolved.Lib.Utf8

/-!
# JSON

The values that Varlink messages carry, how they are written and how they are parsed. The input is a
text, and the parser's offset counts its octets. An object is the list of its entries in the order of the
keys. The stack of the thread, on which `parse` and `to_json` take a frame for each level, is left out.
-/

namespace Resolved.Varlink
open Lib

inductive Value where
  | null
  | bool (value : Bool)
  | number (value : Int)
  | string (value : Str)
  | array (values : List Value)
  | object (entries : List (Str × Value))

/-- `BTreeMap::insert`. Strings are ordered by their octets, which is by their characters. -/
def insertEntry (key : Str) (value : Value) : List (Str × Value) → List (Str × Value)
  | [] => [(key, value)]
  | (other, held) :: rest =>
    if key < other then (key, value) :: (other, held) :: rest
    else if key = other then (key, value) :: rest
    else (other, held) :: insertEntry key value rest

def InI128 (value : Int) : Prop := -2 ^ 127 ≤ value ∧ value < 2 ^ 127

instance (value : Int) : Decidable (InI128 value) := inferInstanceAs (Decidable (_ ∧ _))

/-! ## Writing -/

def hexQuad (value : Nat) : Str :=
  [value / 4096 % 16, value / 256 % 16, value / 16 % 16, value % 16].map Nat.digitChar

def writeCharacter (c : Char) : Str :=
  if c = '"' then "\\\"".toList
  else if c = '\\' then "\\\\".toList
  else if c = Char.ofNat 0x08 then "\\b".toList
  else if c = Char.ofNat 0x0c then "\\f".toList
  else if c = '\n' then "\\n".toList
  else if c = '\r' then "\\r".toList
  else if c = '\t' then "\\t".toList
  else if c.toNat < 0x20 then "\\u".toList ++ hexQuad c.toNat
  else [c]

def writeString (value : Str) : Str := '"' :: value.flatMap writeCharacter ++ ['"']

def writeNumber (value : Int) : Str :=
  (if value < 0 then ['-'] else []) ++ Nat.toDigits 10 value.natAbs

mutual

def Value.toJson : Value → Str
  | .null => "null".toList
  | .bool value => if value then "true".toList else "false".toList
  | .number value => writeNumber value
  | .string value => writeString value
  | .array values => '[' :: writeItems 0 values ++ [']']
  | .object entries => '{' :: writeMembers 0 entries ++ ['}']

def writeItems (index : Nat) : List Value → Str
  | [] => []
  | value :: values => (if index ≠ 0 then [','] else []) ++ value.toJson ++ writeItems (index + 1) values

def writeMembers (index : Nat) : List (Str × Value) → Str
  | [] => []
  | (key, value) :: entries =>
    (if index ≠ 0 then [','] else []) ++ writeString key ++ ':' :: value.toJson ++
      writeMembers (index + 1) entries

end

/-! ## Parsing -/

structure JsonError where
  offset : Nat
  message : String
deriving DecidableEq, Repr

inductive Fault where
  | refused (error : JsonError)
  | offBoundary
  /-- The turns that a loop of the model is given are used up. -/
  | outOfTurns
deriving DecidableEq, Repr

structure Parser where
  input : Str
  offset : Nat

def isBlank (byte : UInt8) : Bool :=
  byte = octet ' ' ∨ byte = octet '\n' ∨ byte = octet '\r' ∨ byte = octet '\t'

def isDigit (byte : UInt8) : Bool := octet '0' ≤ byte ∧ byte ≤ octet '9'

def digitsValue (digits : Str) : Nat := digits.foldl (fun total c => total * 10 + (c.toNat - 48)) 0

def parseI128 (text : Str) : Option Int :=
  let (negative, digits) : Bool × Str :=
    match text with
    | '-' :: digits => (true, digits)
    | '+' :: digits => (false, digits)
    | digits => (false, digits)
  if digits = [] ∨ ¬digits.all Char.isDigit then none
  else
    let value : Int := if negative then -(digitsValue digits : Int) else digitsValue digits
    if InI128 value then some value else none

def hexDigit (byte : UInt8) : Option Nat :=
  if octet '0' ≤ byte ∧ byte ≤ octet '9' then some (byte.toNat - 48)
  else if octet 'a' ≤ byte ∧ byte ≤ octet 'f' then some (byte.toNat - 97 + 10)
  else if octet 'A' ≤ byte ∧ byte ≤ octet 'F' then some (byte.toNat - 65 + 10)
  else none

def simpleEscapes : List (Char × Char) :=
  [('"', '"'), ('\\', '\\'), ('/', '/'), ('b', Char.ofNat 0x08), ('f', Char.ofNat 0x0c), ('n', '\n'),
    ('r', '\r'), ('t', '\t')]

def simpleEscape (byte : UInt8) : Option Char :=
  (simpleEscapes.find? fun (letter, _) => octet letter = byte).map (·.2)

namespace Parser

def error {α : Type} (p : Parser) (message : String) : Except Fault α :=
  .error (.refused ⟨p.offset, message⟩)

def remaining (p : Parser) : Except Fault Str := okOr .offBoundary (sliceFrom p.input p.offset)

def byte (p : Parser) : Option UInt8 := (utf8 p.input)[p.offset]?

def skip (p : Parser) (count : Nat) : Parser := { p with offset := p.offset + count }

def skipWhile (p : Parser) (holds : UInt8 → Bool) : Parser :=
  p.skip (((utf8 p.input).drop p.offset).takeWhile holds).length

def skipWhitespace (p : Parser) : Parser := p.skipWhile isBlank

def literal (p : Parser) (text : Str) : Except Fault Parser := do
  let remaining ← p.remaining
  if text <+: remaining then return p.skip (utf8 text).length
  else p.error ("expected " ++ String.ofList text)

def parseHexQuad (p : Parser) : Except Fault (Nat × Parser) :=
  match slice (utf8 p.input) p.offset (p.offset + 4) with
  | none => p.error "short Unicode escape"
  | some bytes =>
    match bytes.mapM hexDigit with
    | none => p.error "invalid hexadecimal digit in Unicode escape"
    | some digits => .ok (digits.foldl (fun value digit => value * 16 + digit) 0, p.skip 4)

def scalar (p : Parser) (value : Nat) : Except Fault (Char × Parser) :=
  if value.isValidChar then .ok (Char.ofNat value, p) else p.error "invalid Unicode scalar value"

def parseUnicodeEscape (p : Parser) : Except Fault (Char × Parser) := do
  let (first, p) ← p.parseHexQuad
  if 0xd800 ≤ first ∧ first ≤ 0xdbff then
    let remaining ← p.remaining
    if ¬"\\u".toList <+: remaining then p.error "high surrogate is not followed by a low surrogate"
    else
      let (second, p) ← (p.skip 2).parseHexQuad
      if ¬(0xdc00 ≤ second ∧ second ≤ 0xdfff) then p.error "invalid low surrogate"
      else p.scalar (0x10000 + (first - 0xd800) * 1024 + (second - 0xdc00))
  else if 0xdc00 ≤ first ∧ first ≤ 0xdfff then p.error "unpaired low surrogate"
  else p.scalar first

def parseEscape (p : Parser) : Except Fault (Char × Parser) :=
  match p.byte with
  | none => p.error "unterminated escape"
  | some escape =>
    let p := p.skip 1
    match simpleEscape escape with
    | some c => .ok (c, p)
    | none => if escape = octet 'u' then p.parseUnicodeEscape else p.error "invalid escape"

def stringLoop : Nat → Str → Parser → Except Fault (Str × Parser)
  | 0, _, _ => .error .outOfTurns
  | turns + 1, output, p =>
    match p.byte with
    | none => p.error "unterminated string"
    | some byte =>
      if byte = octet '"' then .ok (output, p.skip 1)
      else if byte = octet '\\' then do
        let (escaped, p) ← (p.skip 1).parseEscape
        stringLoop turns (output ++ [escaped]) p
      else if byte ≤ 31 then p.error "control character in string"
      else if byte ≤ 0x7f then stringLoop turns (output ++ [Char.ofNat byte.toNat]) (p.skip 1)
      else do
        match ← p.remaining with
        | [] => p.error "invalid UTF-8"
        | c :: _ => stringLoop turns (output ++ [c]) (p.skip c.utf8Size)

def parseString (p : Parser) : Except Fault (Str × Parser) :=
  if p.byte ≠ some (octet '"') then p.error "expected string"
  else stringLoop (p.input.length + 1) [] (p.skip 1)

def finishNumber (p : Parser) (start : Nat) : Except Fault (Int × Parser) :=
  if p.byte = some (octet '.') ∨ p.byte = some (octet 'e') ∨ p.byte = some (octet 'E') then
    p.error "non-integer numbers are not supported by this interface"
  else do
    let rest ← okOr .offBoundary (sliceFrom p.input start)
    let text ← okOr .offBoundary (sliceTo rest (p.offset - start))
    match parseI128 text with
    | some value => .ok (value, p)
    | none => p.error "integer out of range"

def parseNumber (p : Parser) : Except Fault (Int × Parser) :=
  let start := p.offset
  let p := if p.byte = some (octet '-') then p.skip 1 else p
  match p.byte with
  | none => p.error "number has no digits"
  | some byte =>
    if byte = octet '0' then
      let p := p.skip 1
      if p.byte.any isDigit then p.error "leading zero in number" else p.finishNumber start
    else if isDigit byte then (p.skipWhile isDigit).finishNumber start
    else p.error "number has no digits"

/-! Each of these comes with the deepest level of calls of `parse_value` that were made for it. -/

mutual

def parseValue : Nat → Parser → Nat × Except Fault (Value × Parser)
  | 0, _ => (0, .error .outOfTurns)
  | turns + 1, p =>
    let p := p.skipWhitespace
    match p.byte with
    | none => (1, p.error "unexpected end of input")
    | some byte =>
      if byte = octet 'n' then (1, return (.null, ← p.literal "null".toList))
      else if byte = octet 't' then (1, return (.bool true, ← p.literal "true".toList))
      else if byte = octet 'f' then (1, return (.bool false, ← p.literal "false".toList))
      else if byte = octet '"' then (1, do
        let (text, p) ← p.parseString
        return (.string text, p))
      else if byte = octet '[' then
        let p := (p.skip 1).skipWhitespace
        if p.byte = some (octet ']') then (1, .ok (.array [], p.skip 1))
        else
          let (deepest, result) := arrayLoop turns [] p
          (deepest + 1, result)
      else if byte = octet '{' then
        let p := (p.skip 1).skipWhitespace
        if p.byte = some (octet '}') then (1, .ok (.object [], p.skip 1))
        else
          let (deepest, result) := objectLoop turns [] p
          (deepest + 1, result)
      else if byte = octet '-' ∨ isDigit byte then (1, do
        let (value, p) ← p.parseNumber
        return (.number value, p))
      else (1, p.error "unexpected token")

def arrayLoop : Nat → List Value → Parser → Nat × Except Fault (Value × Parser)
  | 0, _, _ => (0, .error .outOfTurns)
  | turns + 1, values, p =>
    match parseValue turns p with
    | (deepest, .error fault) => (deepest, .error fault)
    | (deepest, .ok (value, p)) =>
      let values := values ++ [value]
      let p := p.skipWhitespace
      if p.byte = some (octet ',') then
        let (deeper, result) := arrayLoop turns values (p.skip 1)
        (max deepest deeper, result)
      else if p.byte = some (octet ']') then (deepest, .ok (.array values, p.skip 1))
      else (deepest, p.error "expected ',' or ']'")

def objectLoop : Nat → List (Str × Value) → Parser → Nat × Except Fault (Value × Parser)
  | 0, _, _ => (0, .error .outOfTurns)
  | turns + 1, entries, p =>
    match p.skipWhitespace.parseString with
    | .error fault => (0, .error fault)
    | .ok (key, p) =>
      let p := p.skipWhitespace
      if p.byte ≠ some (octet ':') then (0, p.error "expected ':'")
      else
        match parseValue turns (p.skip 1) with
        | (deepest, .error fault) => (deepest, .error fault)
        | (deepest, .ok (value, p)) =>
          if key ∈ entries.map (·.1) then (deepest, p.error "duplicate key")
          else
            let entries := insertEntry key value entries
            let p := p.skipWhitespace
            if p.byte = some (octet ',') then
              let (deeper, result) := objectLoop turns entries (p.skip 1)
              (max deepest deeper, result)
            else if p.byte = some (octet '}') then (deepest, .ok (.object entries, p.skip 1))
            else (deepest, p.error "expected ',' or '\x7d'")

end

end Parser

/-- Each turn of a loop takes a character, and so does each array or object that is opened. -/
def parseDepth (input : Str) : Nat × Except Fault Value :=
  let (deepest, result) := Parser.parseValue (2 * input.length + 2) ⟨input, 0⟩
  (deepest, do
    let (value, p) ← result
    let p := p.skipWhitespace
    if p.offset = (utf8 input).length then .ok value else p.error "trailing data")

def parse (input : Str) : Except Fault Value := (parseDepth input).2

def nestingDepth (input : Str) : Nat := (parseDepth input).1

end Resolved.Varlink
