import Resolved.Spec.Lookup
import Resolved.Proof.Wire.Redirects

/-!
# Where the redirections of a response lead
-/

namespace Resolved.Proof.Lookup
open Lib Resolved.Wire Resolved.Lookup Spec
open Resolved.Proof.Wire

section
variable {packet : Packet} {question : Question}

inductive VisitStep (packet : Packet) (cls rrType : Nat) (output : RedirectSet)
    (record : ResourceRecord) : RedirectSet → Prop
  | direct (concerns : ConcernsClass cls record) (asked : OfType rrType record) :
      VisitStep packet cls rrType output record
        { output with direct := output.direct.insert record.name.canonicalWire }
  | alias {aliases : Redirects} (concerns : ConcernsClass cls record) (other : ¬OfType rrType record)
      (cname : record.rrType = typeCname)
      (inserted : insertRedirect packet record output.aliases = .ok aliases) :
      VisitStep packet cls rrType output record { output with aliases }
  | dname {dnames : Redirects} (concerns : ConcernsClass cls record) (other : ¬OfType rrType record)
      (dname : record.rrType = typeDname)
      (inserted : insertRedirect packet record output.dnames = .ok dnames) :
      VisitStep packet cls rrType output record { output with dnames }
  | skip (skips : ConcernsClass cls record → ¬OfType rrType record ∧ record.rrType ≠ typeCname ∧
      record.rrType ≠ typeDname) : VisitStep packet cls rrType output record output

theorem visitRedirect_visitStep (visited : visitRedirect packet question output record = .ok next) :
    VisitStep packet question.cls question.rrType output record next := by
  unfold visitRedirect at visited
  split at visited
  · rename_i foreign
    cases visited
    apply VisitStep.skip
    rintro (any | same)
    · exact absurd any foreign.1
    · exact absurd same foreign.2
  rename_i concerns
  have concerns : ConcernsClass question.cls record := by
    unfold ConcernsClass
    tauto
  split at visited
  · rename_i asked
    cases visited
    exact .direct concerns asked
  rename_i other
  split at visited
  · rename_i cname
    obtain ⟨aliases, inserted, returned⟩ := bind_eq_ok.mp visited
    cases returned
    exact .alias concerns other cname inserted
  rename_i notCname
  split at visited
  · rename_i dname
    obtain ⟨dnames, inserted, returned⟩ := bind_eq_ok.mp visited
    cases returned
    exact .dname concerns other dname inserted
  · rename_i notDname
    cases visited
    exact .skip fun _ => ⟨other, notCname, notDname⟩

structure RedirectRecord (cls rrType kind : Nat) (record : ResourceRecord) : Prop where
  concerns : ConcernsClass cls record
  other : ¬OfType rrType record
  kind : record.rrType = kind

structure Gathers (packet : Packet) (cls rrType kind : Nat) (records : List ResourceRecord)
    (redirects : Redirects) : Prop where
  sound : ∀ owner target, redirects.lookup owner = some target → ∃ record ∈ records,
    RedirectRecord cls rrType kind record ∧ record.name.canonicalWire = owner ∧
      readName packet record.rdataOffset = .ok (target, record.nextOffset)
  all : ∀ record ∈ records, RedirectRecord cls rrType kind record →
    (redirects.lookup record.name.canonicalWire).isSome

theorem Gathers.insert (gathers : Gathers packet cls rrType kind records redirects)
    (redirecting : RedirectRecord cls rrType kind record)
    (inserted : insertRedirect packet record redirects = .ok next) :
    Gathers packet cls rrType kind (records ++ [record]) next := by
  obtain ⟨target, read, looked⟩ := insertRedirect_lookup inserted
  constructor
  · intro owner found foundAt
    rw [looked, Option.or_eq_some_iff] at foundAt
    rcases foundAt with earlier | ⟨-, new⟩
    · obtain ⟨other, member, rest⟩ := gathers.sound owner found earlier
      exact ⟨other, List.mem_append_left _ member, rest⟩
    · split at new
      · rename_i same
        cases new
        exact ⟨record, List.mem_append_right _ (List.mem_singleton_self _), redirecting, same, read⟩
      · cases new
  · intro other member redirecting'
    rw [looked, Option.isSome_or, Bool.or_eq_true]
    rcases List.mem_append.mp member with earlier | last
    · exact .inl (gathers.all other earlier redirecting')
    · cases List.mem_singleton.mp last
      exact .inr (by simp)

theorem Gathers.skip {cls rrType kind : Nat} {records : List ResourceRecord} {redirects : Redirects}
    {record : ResourceRecord} (gathers : Gathers packet cls rrType kind records redirects)
    (other : ¬RedirectRecord cls rrType kind record) :
    Gathers packet cls rrType kind (records ++ [record]) redirects := by
  constructor
  · intro owner target found
    obtain ⟨record, member, rest⟩ := gathers.sound owner target found
    exact ⟨record, List.mem_append_left _ member, rest⟩
  · intro record member redirecting
    rcases List.mem_append.mp member with earlier | last
    · exact gathers.all record earlier redirecting
    · cases List.mem_singleton.mp last
      exact absurd redirecting other

theorem Gathers.named (gathers : Gathers packet cls rrType kind records redirects) : TargetsNamed redirects := by
  intro owner target found
  obtain ⟨record, -, -, -, read⟩ := gathers.sound owner target found
  obtain ⟨labels, -, legal, same⟩ := readName_labels read
  exact ⟨labels, legal, same⟩

structure Collected (packet : Packet) (cls rrType : Nat) (records : List ResourceRecord)
    (output : RedirectSet) : Prop where
  direct : ∀ owner, owner ∈ output.direct ↔ ∃ record ∈ records, ConcernsClass cls record ∧
    OfType rrType record ∧ record.name.canonicalWire = owner
  aliases : Gathers packet cls rrType typeCname records output.aliases
  dnames : Gathers packet cls rrType typeDname records output.dnames

theorem foldlM_collected (folded : records.foldlM (visitRedirect packet question) ⟨[], [], []⟩ = .ok output) :
    Collected packet question.cls question.rrType records output := by
  induction records using List.reverseRecOn generalizing output with
  | nil =>
    cases pure_eq_ok.mp folded
    exact ⟨by simp, ⟨by simp, by simp⟩, ⟨by simp, by simp⟩⟩
  | append_singleton records record ih =>
    rw [List.foldlM_append, bind_eq_ok] at folded
    obtain ⟨before, earlier, folded⟩ := folded
    have visited : visitRedirect packet question before record = .ok output := by
      simpa using folded
    have collected := ih earlier
    have cnameDname : typeCname ≠ typeDname := by decide
    cases visitRedirect_visitStep visited with
    | direct concerns asked =>
      refine ⟨fun owner => ?_, collected.aliases.skip fun redirecting => redirecting.other asked,
        collected.dnames.skip fun redirecting => redirecting.other asked⟩
      simp [List.mem_insert_iff, collected.direct, concerns, asked, or_and_right, exists_or, eq_comm, or_comm]
    | «alias» concerns other cname inserted =>
      refine ⟨fun owner => ?_, collected.aliases.insert ⟨concerns, other, cname⟩ inserted,
        collected.dnames.skip fun redirecting => cnameDname (cname.symm.trans redirecting.kind)⟩
      simp [collected.direct, other, or_and_right, exists_or]
    | dname concerns other dname inserted =>
      refine ⟨fun owner => ?_, collected.aliases.skip fun redirecting =>
        cnameDname (redirecting.kind.symm.trans dname), collected.dnames.insert ⟨concerns, other, dname⟩ inserted⟩
      simp [collected.direct, other, or_and_right, exists_or]
    | skip skips =>
      refine ⟨fun owner => ?_, collected.aliases.skip fun redirecting =>
        (skips redirecting.concerns).2.1 redirecting.kind, collected.dnames.skip fun redirecting =>
        (skips redirecting.concerns).2.2 redirecting.kind⟩
      have none : ¬(ConcernsClass question.cls record ∧ OfType question.rrType record) :=
        fun both => (skips both.1).1 both.2
      simp [collected.direct, or_and_right, exists_or]
      tauto

variable {cls rrType : Nat} {records : List ResourceRecord} {output : RedirectSet}

theorem RedirectRecord.redirectsTo {kind : Nat} {record : ResourceRecord} {owner target : Labels}
    (redirecting : RedirectRecord cls rrType kind record)
    (owned : record.name.canonicalWire = wireOf (lowered owner))
    (read : readName packet record.rdataOffset = .ok (nameWith target, record.nextOffset)) :
    RedirectsTo cls rrType packet kind record (lowered owner) (lowered target) :=
  ⟨redirecting.concerns, redirecting.other, redirecting.kind, owned, _, _, read, rfl⟩

theorem Collected.alias_leadsOn (collected : Collected packet cls rrType records output)
    (found : output.aliases.lookup (nameWith name).canonicalWire = some target) :
    ∃ next, LegalName next ∧ target = nameWith next ∧
      LeadsOn cls rrType packet records (lowered name) (lowered next) := by
  obtain ⟨record, member, redirecting, owned, read⟩ := collected.aliases.sound _ _ found
  obtain ⟨next, -, legal, rfl⟩ := readName_labels read
  exact ⟨next, legal, rfl, .cname member (redirecting.redirectsTo owned read)⟩

theorem Collected.dname_leadsOn (collected : Collected packet cls rrType records output)
    (legal : LegalName name)
    (rewritten : rewriteCoveringDname (nameWith name) output.dnames = .ok (some target)) :
    ∃ next, LegalName next ∧ target = nameWith next ∧
      LeadsOn cls rrType packet records (lowered name) (lowered next) := by
  obtain ⟨first, before, after, rear, rfl, rewrites, fits, rfl⟩ :=
    (rewriteCoveringDname_eq_some collected.dnames.named legal).mp rewritten
  obtain ⟨record, member, redirecting, owned, read⟩ := collected.dnames.sound _ _ rewrites.here
  refine ⟨first :: before ++ rear, fits, rfl, ?_⟩
  rw [lowered_append, lowered_append]
  exact .dname member (by simp [lowered]) (redirecting.redirectsTo owned read)

theorem Collected.leads_nowhere (collected : Collected packet cls rrType records output)
    (legal : LegalName name) (unaliased : output.aliases.lookup (nameWith name).canonicalWire = none)
    (kept : rewriteCoveringDname (nameWith name) output.dnames = .ok none) (next : Labels) :
    ¬LeadsOn cls rrType packet records (lowered name) next := by
  intro leads
  generalize same : lowered name = start at leads
  cases leads with
  | cname member redirects =>
    have known := collected.aliases.all _ member ⟨redirects.concerns, redirects.other, redirects.kind⟩
    rw [redirects.owner, ← same] at known
    exact absurd (unaliased ▸ known) (by simp)
  | @dname front rear target record member below redirects =>
    obtain ⟨front', rear', rfl, lowFront, lowRear⟩ := List.map_eq_append_iff.mp same
    have known := collected.dnames.all _ member ⟨redirects.concerns, redirects.other, redirects.kind⟩
    have missing := rewriteCoveringDname_eq_none collected.dnames.named legal kept rfl
      (show front' ≠ [] by rintro rfl; exact below lowFront.symm)
    have wire : record.name.canonicalWire = wireOf (lowered rear') := by
      rw [redirects.owner, ← lowRear]
      rfl
    rw [wire, missing] at known
    cases known

inductive ChainEnd (packet : Packet) (cls rrType : Nat) (records : List ResourceRecord) (last : Labels)
    (count : Nat) : RedirectAnswer → Prop
  | direct (owned : OwnsAnswer cls rrType records (lowered last)) :
      ChainEnd packet cls rrType records last count (.direct (nameWith last).text count)
  | redirect (moved : count ≠ 0) (missing : ¬OwnsAnswer cls rrType records (lowered last))
      (nowhere : ∀ next, ¬LeadsOn cls rrType packet records (lowered last) next) :
      ChainEnd packet cls rrType records last count (.redirect (nameWith last).text count)
  | noData : ChainEnd packet cls rrType records last count .noData

theorem Collected.ownsAnswer_iff (collected : Collected packet cls rrType records output) (name : Labels) :
    OwnsAnswer cls rrType records (lowered name) ↔ (nameWith name).canonicalWire ∈ output.direct :=
  (collected.direct _).symm

theorem classifyChainFrom_sound (collected : Collected packet cls rrType records output) {turns : Nat}
    {visited : List Bytes} {redirects : Nat} {name : Labels} {answer : RedirectAnswer} (legal : LegalName name)
    (classified : classifyChainFrom output turns visited redirects (nameWith name) = .ok answer) :
    ∃ steps last, LegalName last ∧ LeadsThrough cls rrType packet records steps (lowered name) (lowered last) ∧
      ChainEnd packet cls rrType records last (redirects + steps) answer := by
  induction turns generalizing visited redirects name with
  | zero => cases classified
  | succ turns ih =>
    -- a redirection is one more step in front of the chain from its target
    have further : ∀ {next : Labels}, LegalName next →
        LeadsOn cls rrType packet records (lowered name) (lowered next) →
        (if cnameRedirectsMax ≤ redirects then throw .cnameLoop
          else classifyChainFrom output turns ((nameWith name).canonicalWire :: visited)
            (redirects + 1) (nameWith next)) = .ok answer → ∃ steps last, LegalName last ∧
          LeadsThrough cls rrType packet records steps (lowered name) (lowered last) ∧
          ChainEnd packet cls rrType records last (redirects + steps) answer := by
      intro next legal' leads later
      split at later
      · cases later
      · obtain ⟨steps, last, legalLast, through, ends⟩ := ih legal' later
        refine ⟨steps + 1, last, legalLast, .more leads through, ?_⟩
        rw [Nat.add_comm steps 1, ← Nat.add_assoc]
        exact ends
    rw [classifyChainFrom] at classified
    split at classified
    · cases classified
    split at classified
    · rename_i owned
      cases classified
      exact ⟨0, name, legal, .none, .direct ((collected.ownsAnswer_iff name).mpr owned)⟩
    rename_i missing
    cases found : output.aliases.lookup (nameWith name).canonicalWire with
    | some target =>
      obtain ⟨next, legal', rfl, leads⟩ := collected.alias_leadsOn found
      rw [found] at classified
      exact further legal' leads classified
    | none =>
      simp only [found, bind_eq_ok] at classified
      obtain ⟨target, rewritten, rest⟩ := classified
      cases target with
      | some target =>
        obtain ⟨next, legal', rfl, leads⟩ := collected.dname_leadsOn legal rewritten
        exact further legal' leads rest
      | none =>
        cases pure_eq_ok.mp rest
        split
        · exact ⟨0, name, legal, .none, .noData⟩
        · rename_i moved
          exact ⟨0, name, legal, .none, .redirect moved
            (fun owned => missing ((collected.ownsAnswer_iff name).mp owned))
            (collected.leads_nowhere legal found rewritten)⟩

theorem classifyRedirectAnswer_chain (classified : classifyRedirectAnswer packet = .ok answer)
    (answered : answer ≠ .noData) :
    ∃ question records start steps last, firstQuestion packet = .ok question ∧
      answerSection packet = .ok records ∧ question.name = nameWith start ∧ LegalName start ∧ LegalName last ∧
      LeadsThrough question.cls question.rrType packet records steps (lowered start) (lowered last) ∧
      ChainEnd packet question.cls question.rrType records last steps answer := by
  obtain ⟨header, question, records, stop, output, parsed, response, one, asked, walked, folded, -,
    chained⟩ := classifyRedirectAnswer_eq_ok answered classified
  obtain ⟨fixed, read, -⟩ := parseQuestion_eq_ok.mp asked
  obtain ⟨start, -, legal, same⟩ := readName_labels read
  rw [classifyRedirectChain, same] at chained
  obtain ⟨steps, last, legalLast, through, ends⟩ :=
    classifyChainFrom_sound (foldlM_collected folded) legal chained
  have first : firstQuestion packet = .ok question := by
    rw [firstQuestion, parsed, ok_bind, if_neg (by omega), asked]
  rw [Nat.zero_add] at ends
  exact ⟨question, records, start, steps, last, first, answerSection_one parsed response one asked walked,
    same, legal, legalLast, through, ends⟩

end

end Resolved.Proof.Lookup
