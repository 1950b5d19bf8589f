import Resolved.Varlink.Connection
import Resolved.Varlink.Json

/-!
# Varlink messages

Where a message ends on a stream, and which texts are messages.
-/

/-! ## Messages on a stream -/

namespace Resolved.Spec
open Lib Varlink

def messagesOf (stream : Bytes) : List Bytes := (stream.splitOn 0).dropLast

def unfinished (stream : Bytes) : Bytes := (stream.splitOn 0).getLastD []

section
variable {σ : Type} (answer : σ → Bytes → Bytes × σ)

def answerAll : σ → List Bytes → List Bytes × σ
  | s, [] => ([], s)
  | s, message :: rest =>
    let (reply, s) := answer s message
    let (replies, s) := answerAll s rest
    (reply :: replies, s)

def expectedReplies (s : σ) (stream : Bytes) : List Bytes × Closing :=
  ((answerAll answer s ((messagesOf stream).takeWhile (·.length ≤ maxMessageSize))).1,
    if (stream.splitOn 0).all (·.length ≤ maxMessageSize) then .endOfStream else .tooLarge)

end

def CutsOff (received : Bytes) (chunks : List Bytes) : Prop :=
  ∃ before chunk after, chunks = before ++ chunk :: after ∧ (∀ front part, front ++ [part] <+: before →
      (unfinished (received ++ front.flatten) ++ part).length ≤ maxMessageSize) ∧
    maxMessageSize < (unfinished (received ++ before.flatten) ++ chunk).length ∧
    ∃ stop ≤ maxMessageSize, (unfinished (received ++ before.flatten) ++ chunk)[stop]? = some 0

/-!
## Texts that are JSON

The grammar of the texts with their values. Numbers are integers that fit into 128 bits, no key of an
object is given twice, and an escape stands for a character. Then how deep a text leads a parser that
goes through it from the front, before it ends or goes wrong.
-/

/-- What the types of the source make sure of: numbers have 128 bits and maps are ordered by their keys. -/
inductive Proper : Value → Prop
  | null : Proper .null
  | bool {value : Bool} : Proper (.bool value)
  | number {value : Int} (range : InI128 value) : Proper (.number value)
  | string {value : Str} : Proper (.string value)
  | array {values : List Value} (all : ∀ value ∈ values, Proper value) : Proper (.array values)
  | object {entries : List (Str × Value)} (sorted : entries.Pairwise fun a b => a.1 < b.1)
    (all : ∀ entry ∈ entries, Proper entry.2) : Proper (.object entries)

def Blank (text : Str) : Prop := ∀ c ∈ text, c ∈ [' ', '\n', '\r', '\t']

def Padded (text inner : Str) : Prop :=
  ∃ before after, Blank before ∧ Blank after ∧ text = before ++ inner ++ after

def hexValue (c : Char) : Option Nat :=
  if '0' ≤ c ∧ c ≤ '9' then some (c.toNat - 48)
  else if 'a' ≤ c ∧ c ≤ 'f' then some (c.toNat - 97 + 10)
  else if 'A' ≤ c ∧ c ≤ 'F' then some (c.toNat - 65 + 10)
  else none

def HexQuad (digits : Str) (value : Nat) : Prop :=
  ∃ values, digits.length = 4 ∧ digits.mapM hexValue = some values ∧
    value = values.foldl (fun value digit => value * 16 + digit) 0

def isHigh (value : Nat) : Prop := 0xd800 ≤ value ∧ value ≤ 0xdbff

def isLow (value : Nat) : Prop := 0xdc00 ≤ value ∧ value ≤ 0xdfff

inductive Escape : Str → Char → Prop
  | short {letter c : Char} (known : (letter, c) ∈ simpleEscapes) : Escape [letter] c
  | unit {digits : Str} {value : Nat} (quad : HexQuad digits value) (high : ¬isHigh value)
      (low : ¬isLow value) : Escape ('u' :: digits) (Char.ofNat value)
  | pair {digits digits' : Str} {first second : Nat} (quad : HexQuad digits first) (high : isHigh first)
      (quad' : HexQuad digits' second) (low : isLow second) :
      Escape ('u' :: digits ++ '\\' :: 'u' :: digits')
        (Char.ofNat (0x10000 + (first - 0xd800) * 1024 + (second - 0xdc00)))

inductive Quoted : Str → Str → Prop
  | nil : Quoted [] []
  | plain {c : Char} {body text : Str} (quote : c ≠ '"') (backslash : c ≠ '\\') (printable : 32 ≤ c.toNat)
      (rest : Quoted body text) : Quoted (c :: body) (c :: text)
  | escape {letters body text : Str} {c : Char} (escape : Escape letters c) (rest : Quoted body text) :
      Quoted ('\\' :: letters ++ body) (c :: text)

def numeral (negative : Bool) (digits : Str) : Str := (if negative then ['-'] else []) ++ digits

def numeralValue (negative : Bool) (digits : Str) : Int :=
  if negative then -(digitsValue digits : Int) else digitsValue digits

structure IsNumeral (negative : Bool) (digits : Str) : Prop where
  given : digits ≠ []
  decimal : ∀ c ∈ digits, c.isDigit = true
  leading : digits.head? = some '0' → digits = ['0']
  range : InI128 (numeralValue negative digits)

inductive Part where
  | value (value : Value)
  | items (values : List Value)
  | members (entries : List (Str × Value))

inductive Spells : Part → Str → Prop
  | null : Spells (.value .null) "null".toList
  | yes : Spells (.value (.bool true)) "true".toList
  | no : Spells (.value (.bool false)) "false".toList
  | number {negative : Bool} {digits : Str} (valid : IsNumeral negative digits) :
      Spells (.value (.number (numeralValue negative digits))) (numeral negative digits)
  | string {body content : Str} (quoted : Quoted body content) :
      Spells (.value (.string content)) ('"' :: body ++ ['"'])
  | emptyArray {blanks : Str} (blank : Blank blanks) : Spells (.value (.array [])) ('[' :: blanks ++ [']'])
  | array {values : List Value} {inner : Str} (items : Spells (.items values) inner) :
      Spells (.value (.array values)) ('[' :: inner ++ [']'])
  | emptyObject {blanks : Str} (blank : Blank blanks) :
      Spells (.value (.object [])) ('{' :: blanks ++ ['}'])
  | object {entries fields : List (Str × Value)} {inner : Str} (members : Spells (.members entries) inner)
      (distinct : (entries.map (·.1)).Nodup) (same : fields.Perm entries)
      (sorted : fields.Pairwise fun a b => a.1 < b.1) :
      Spells (.value (.object fields)) ('{' :: inner ++ ['}'])
  | lastItem {value : Value} {text inner : Str} (padded : Padded text inner)
      (item : Spells (.value value) inner) : Spells (.items [value]) text
  | item {value : Value} {values : List Value} {text inner rest : Str} (padded : Padded text inner)
      (item : Spells (.value value) inner) (more : Spells (.items values) rest) :
      Spells (.items (value :: values)) (text ++ ',' :: rest)
  | lastMember {key body name text inner : Str} {value : Value} (named : Padded name ('"' :: body ++ ['"']))
      (quoted : Quoted body key) (padded : Padded text inner) (held : Spells (.value value) inner) :
      Spells (.members [(key, value)]) (name ++ ':' :: text)
  | member {key body name text inner rest : Str} {value : Value} {entries : List (Str × Value)}
      (named : Padded name ('"' :: body ++ ['"'])) (quoted : Quoted body key) (padded : Padded text inner)
      (held : Spells (.value value) inner) (more : Spells (.members entries) rest) :
      Spells (.members ((key, value) :: entries)) (name ++ ':' :: text ++ ',' :: rest)

def IsJson (text : Str) (value : Value) : Prop :=
  ∃ inner, Padded text inner ∧ Spells (.value value) inner

/-! ### Levels -/

inductive Place where
  | value
  | items
  | members (seen : List Str)

inductive Nests : Place → Nat → Str → Prop
  | here {text : Str} : Nests .value 1 text
  | array {levels : Nat} {blanks inner : Str} (blank : Blank blanks)
      (unclosed : ∀ blanks rest, Blank blanks → inner ≠ blanks ++ ']' :: rest)
      (items : Nests .items levels inner) : Nests .value (levels + 1) (blanks ++ '[' :: inner)
  | object {levels : Nat} {blanks inner : Str} (blank : Blank blanks)
      (unclosed : ∀ blanks rest, Blank blanks → inner ≠ blanks ++ '}' :: rest)
      (members : Nests (.members []) levels inner) : Nests .value (levels + 1) (blanks ++ '{' :: inner)
  | item {levels : Nat} {text : Str} (item : Nests .value levels text) : Nests .items levels text
  | laterItem {levels : Nat} {value : Value} {text inner rest : Str} (padded : Padded text inner)
      (item : Spells (.value value) inner) (later : Nests .items levels rest) :
      Nests .items levels (text ++ ',' :: rest)
  | member {levels : Nat} {seen : List Str} {key body name text : Str}
      (named : Padded name ('"' :: body ++ ['"'])) (quoted : Quoted body key)
      (held : Nests .value levels text) : Nests (.members seen) levels (name ++ ':' :: text)
  | laterMember {levels : Nat} {seen : List Str} {value : Value} {key body name text inner rest : Str}
      (named : Padded name ('"' :: body ++ ['"'])) (quoted : Quoted body key) (padded : Padded text inner)
      (held : Spells (.value value) inner) (fresh : key ∉ seen)
      (later : Nests (.members (key :: seen)) levels rest) :
      Nests (.members seen) levels (name ++ ':' :: text ++ ',' :: rest)

end Resolved.Spec
