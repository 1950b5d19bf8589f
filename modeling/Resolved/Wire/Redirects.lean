import Resolved.Wire.Records

/-!
# Does a response answer its question?

`classify_redirect_answer` follows the aliases of a response to a record of the type asked for.
-/

namespace Resolved.Wire
open Lib

def cnameRedirectsMax : Nat := 16

inductive RedirectAnswer where
  | direct (canonicalName : Str) (redirects : Nat)
  | redirect (canonicalName : Str) (redirects : Nat)
  | noData
deriving DecidableEq, Repr

structure RedirectSet where
  direct : List Bytes
  aliases : Redirects
  dnames : Redirects
deriving DecidableEq, Repr

def visitRedirect (packet : Packet) (question : Question) (output : RedirectSet)
    (record : ResourceRecord) : Except WireError RedirectSet :=
  if question.cls ≠ classAny ∧ record.cls ≠ question.cls then .ok output
  else if question.rrType = typeAny ∨ record.rrType = question.rrType then
    .ok { output with direct := output.direct.insert record.name.canonicalWire }
  else if record.rrType = typeCname then do
    return { output with aliases := ← insertRedirect packet record output.aliases }
  else if record.rrType = typeDname then do
    return { output with dnames := ← insertRedirect packet record output.dnames }
  else .ok output

def rewriteCoveringFrom (current : DnsName) (dnames : Redirects) :
    Nat → Nat → Nat → Except WireError (Option DnsName)
  | 0, _, _ => .error .invalidRecord
  | fuel + 1, suffixOffset, prefixLabels =>
    if current.canonicalWire.length ≤ suffixOffset then .error .invalidRecord
    else
      match dnames.lookup (current.canonicalWire.drop suffixOffset) with
      | some target => do return some (← rewrittenName current suffixOffset prefixLabels target)
      | none =>
        match current.canonicalWire[suffixOffset]? with
        | none => .error .invalidRecord
        | some length =>
          if length = 0 then .ok none
          else if 63 < length then .error .invalidRecord
          else
            rewriteCoveringFrom current dnames fuel (suffixOffset + (length.toNat + 1))
              (prefixLabels + 1)

def rewriteCoveringDname (current : DnsName) (dnames : Redirects) :
    Except WireError (Option DnsName) :=
  match current.canonicalWire.head? with
  | none => .error .invalidRecord
  | some first =>
    if first = 0 ∨ 63 < first then .ok none
    else rewriteCoveringFrom current dnames (current.canonicalWire.length + 1) (first.toNat + 1) 1

def classifyChainFrom (answers : RedirectSet) :
    Nat → List Bytes → Nat → DnsName → Except WireError RedirectAnswer
  | 0, _, _, _ => .error .cnameLoop
  | fuel + 1, visited, redirects, current =>
    if current.canonicalWire ∈ visited then .error .cnameLoop
    else if current.canonicalWire ∈ answers.direct then .ok (.direct current.text redirects)
    else do
      let target ← match answers.aliases.lookup current.canonicalWire with
        | some target => .ok (some target)
        | none => rewriteCoveringDname current answers.dnames
      match target with
      | none =>
        return if redirects = 0 then .noData else .redirect current.text redirects
      | some target =>
        if cnameRedirectsMax ≤ redirects then throw .cnameLoop
        else
          classifyChainFrom answers fuel (current.canonicalWire :: visited) (redirects + 1) target

def classifyRedirectChain (question : DnsName) (answers : RedirectSet) :
    Except WireError RedirectAnswer :=
  classifyChainFrom answers (cnameRedirectsMax + 1) [] 0 question

def classifyRedirectAnswer (packet : Packet) : Except WireError RedirectAnswer := do
  let header ← Header.parse packet
  if !header.isResponse then throw .wrongDirection
  else if header.questionCount ≠ 1 then throw (.wrongQuestionCount header.questionCount)
  else if header.responseCode ≠ 0 then return .noData
  else
    let question ← parseQuestion packet dnsHeaderLen
    let output ← walkRecords packet (visitRedirect packet question) header.answerCount
      question.nextOffset ⟨[], [], []⟩
    if output.aliases.any fun entry =>
        output.direct.contains entry.1 || (output.dnames.lookup entry.1).isSome then
      throw .invalidRecord
    else classifyRedirectChain question.name output

end Resolved.Wire
