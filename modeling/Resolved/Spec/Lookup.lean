import Resolved.Lookup.Following
import Resolved.Spec.AnswerRecords

/-!
# What a lookup finds

Over the responses to all of its queries.
-/

/-! ## A chain of redirections over several responses -/

namespace Resolved.Spec
open Lib Wire Lookup

section
variable (cls rrType : Nat)

def ConcernsClass (record : ResourceRecord) : Prop := cls = classAny ∨ record.cls = cls

def OfType (record : ResourceRecord) : Prop := rrType = typeAny ∨ record.rrType = rrType

def OwnsAnswer (records : List ResourceRecord) (name : Labels) : Prop :=
  ∃ record ∈ records, ConcernsClass cls record ∧ OfType rrType record ∧ record.name.canonicalWire = wireOf name

structure RedirectsTo (packet : Packet) (kind : Nat) (record : ResourceRecord) (owner target : Labels) :
    Prop where
  concerns : ConcernsClass cls record
  other : ¬OfType rrType record
  kind : record.rrType = kind
  owner : record.name.canonicalWire = wireOf owner
  target : ∃ name stop, readName packet record.rdataOffset = .ok (name, stop) ∧ name.canonicalWire = wireOf target

section
variable (packet : Packet) (records : List ResourceRecord)

inductive LeadsOn : Labels → Labels → Prop
  | cname {name target : Labels} {record : ResourceRecord} (member : record ∈ records)
      (redirects : RedirectsTo cls rrType packet typeCname record name target) : LeadsOn name target
  | dname {front rear target : Labels} {record : ResourceRecord} (member : record ∈ records)
      (below : front ≠ []) (redirects : RedirectsTo cls rrType packet typeDname record rear target) :
      LeadsOn (front ++ rear) (front ++ target)

inductive LeadsThrough : Nat → Labels → Labels → Prop
  | none {name : Labels} : LeadsThrough 0 name name
  | more {steps : Nat} {name next last : Labels} (first : LeadsOn cls rrType packet records name next)
      (rest : LeadsThrough steps next last) : LeadsThrough (steps + 1) name last

end

inductive WholeChain : List Packet → Nat → Labels → Labels → Prop
  | nil {name : Labels} : WholeChain [] 0 name name
  | cons {response : Packet} {responses : List Packet} {records : List ResourceRecord}
      {steps later : Nat} {name next last : Labels} (answered : answerSection response = .ok records)
      (here : LeadsThrough cls rrType response records steps name next)
      (rest : WholeChain responses later next last) :
      WholeChain (response :: responses) (steps + later) name last

/-- The chain starts at the name of the first query and ends, after sixteen redirections at most, at a
name with a record of the type asked for in the last response, which is returned. -/
def ChainAnswered (calls : List Exchanged) (returned : Packet) : Prop :=
  ∃ first rest question start last steps, calls = first :: rest ∧
    firstQuestion first.query = .ok question ∧ question.name.canonicalWire = wireOf start ∧
    WholeChain cls rrType (calls.filterMap (·.answer.toOption)) steps start last ∧ steps ≤ 16 ∧
    (calls.filterMap (·.answer.toOption)).getLast? = some returned ∧
    ∃ records, answerSection returned = .ok records ∧ OwnsAnswer cls rrType records last

end

def askedName (call : Exchanged) : Option Bytes :=
  (firstQuestion call.query).toOption.map (·.name.canonicalWire)

def AboutQuery (query response : Packet) : Prop :=
  ∃ asked answered, firstQuestion query = .ok asked ∧ firstQuestion response = .ok answered ∧
    answered.name.canonicalWire = asked.name.canonicalWire ∧ answered.rrType = asked.rrType ∧
    answered.cls = asked.cls

def PlainName (labels : Labels) : Prop := ∀ label ∈ labels, ∀ byte ∈ label, ShowsItself byte

def EndsPlain (response : Packet) : Prop :=
  ∀ question records start last steps, firstQuestion response = .ok question →
    answerSection response = .ok records → question.name.canonicalWire = wireOf start →
    LeadsThrough question.cls question.rrType response records (steps + 1) start last →
    ¬OwnsAnswer question.cls question.rrType records last →
    (∀ next, ¬LeadsOn question.cls question.rrType response records last next) → PlainName last

/-! ## All addresses that the queries of a lookup have found -/

def indexed (outcomes : List QueryOutcome) : List (Nat × QueryOutcome) :=
  outcomes.zipIdx.map Prod.swap

def Yields (outcome : QueryOutcome) (addresses : List IpAddr) : Prop :=
  ∃ response text records, outcome.result = .ok (response, text) ∧
    extractAddressRecords response (responseFamily outcome.rrType) = .ok records ∧ records.addresses = addresses

def SomeFound (outcomes : List QueryOutcome) : Prop :=
  ∃ outcome ∈ outcomes, ∃ addresses, Yields outcome addresses ∧ addresses ≠ []

def AllFound (outcomes : List QueryOutcome) (lookup : Except LookupError NameLookup) : Prop :=
  SomeFound outcomes → ∃ found, lookup = .ok found ∧ found.addresses.Nodup ∧
    ∀ outcome ∈ outcomes, ∀ addresses, Yields outcome addresses → ∀ address ∈ addresses, address ∈ found.addresses

def Searchable (outcome : QueryOutcome) : Prop :=
  ∀ response text, outcome.result = .ok (response, text) → ∃ addresses, Yields outcome addresses

end Resolved.Spec
