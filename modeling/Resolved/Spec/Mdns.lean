import Resolved.Mdns.Runtime

/-!
# Lookups that survive their neighbours

Any host on the link can send a datagram. One that cannot be interpreted should make no difference,
and none should make a lookup fail.
-/

namespace Resolved.Spec
open Lib Mdns

def malformed (reception : Reception) : Bool :=
  isOwnResponse reception &&
    (parseResponseRecords reception.packet reception.interface).toOption.isNone

def recordsIn (reception : Reception) : List RuntimeRecord :=
  if isOwnResponse reception then
    ((parseResponseRecords reception.packet reception.interface).toOption.getD []).filter
      fun record => record.cls &&& dnsClassMask = 1
  else []

def answersOf (question : MdnsQuestion) (receptions : List Reception) : List RuntimeRecord :=
  (receptions.flatMap recordsIn).filter (recordMatches question)

def othersOf (question : MdnsQuestion) (receptions : List Reception) : List RuntimeRecord :=
  (receptions.flatMap recordsIn).filter (¬recordMatches question ·)

def skipping (passes : List Pass) : List Pass :=
  passes.map fun pass => { pass with receptions := pass.receptions.filter (¬malformed ·) }

def silent (passes : List Pass) : List Pass :=
  passes.map fun pass => { pass with receptions := [] }

structure Listening where
  answered : Bool
  settleDeadline : Option Nat
deriving DecidableEq

def Listening.after (question : MdnsQuestion) (listening : Listening) (reception : Reception) :
    Listening :=
  if isOwnResponse reception ∧ ¬malformed reception then
    let answered := listening.answered || (recordsIn reception).any (recordMatches question)
    ⟨answered, if answered then some (reception.collectedAt + responseSettleTime)
      else listening.settleDeadline⟩
  else listening

def heard (question : MdnsQuestion) (deadline : Nat) : List Pass → Listening → List Reception
  | [], _ => []
  | pass :: rest, listening =>
    if deadline ≤ pass.startsAt then []
    else
      let listening := pass.receptions.foldl (Listening.after question) listening
      pass.receptions ++ if listening.settleDeadline.any (· ≤ pass.endsAt) then []
        else heard question deadline rest listening

section
variable (world : MdnsWorld) (query : Bytes) (requestedIfindex : Option Int) (timeout : Nat)
  (cache : MdnsCache)

structure Robust : Prop where
  skips : queryRaw world query requestedIfindex timeout cache =
    queryRaw { world with passes := skipping world.passes } query requestedIfindex timeout cache
  blameless : ∀ error, (queryRaw world query requestedIfindex timeout cache).1 = .error error →
    (queryRaw { world with passes := silent world.passes } query requestedIfindex timeout
      cache).1 = .error error

end

structure FitsResponse (answers others : List RuntimeRecord) : Prop where
  fewAnswers : answers.toFinset.card ≤ 65535
  fewOthers : others.toFinset.card ≤ 65535
  shortData : ∀ record ∈ answers ++ others, record.rdata.length ≤ 65535

def GoodNeighbours (question : MdnsQuestion) (receptions : List Reception) : Prop :=
  (∀ reception ∈ receptions, malformed reception = false) ∧ (answersOf question receptions = [] ∨
      FitsResponse (answersOf question receptions) (othersOf question receptions))

end Resolved.Spec
