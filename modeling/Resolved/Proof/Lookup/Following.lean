import Resolved.Proof.Lookup.Chain
import Resolved.Proof.Wire.Written

/-!
# Following redirections over several responses
-/

namespace Resolved.Proof.Lookup
open Lib Resolved.Wire Resolved.Exchange Resolved.Lookup Spec
open Resolved.Proof.Wire

theorem lookupWire_eq_ok {α : Type} {result : Except WireError α} {value : α} :
    lookupWire result = .ok value ↔ result = .ok value := by
  cases result <;> simp [lookupWire, Except.mapError]

section
variable {cls rrType id : Nat} {s : Following} {query response returned : Packet} {visited : List Bytes}

theorem nextQuery_eq_ok (asked : nextQuery cls rrType s id = .ok (query, visited)) :
    ∃ question, makeQueryWithClass s.current rrType cls id = .ok query ∧
      firstQuestion query = .ok question ∧ question.name.canonicalWire ∉ s.visited ∧
      visited = question.name.canonicalWire :: s.visited := by
  obtain ⟨made, makes, asked⟩ := bind_eq_ok.mp asked
  obtain ⟨question, first, asked⟩ := bind_eq_ok.mp asked
  split at asked
  · cases asked
  · rename_i new
    cases pure_eq_ok.mp asked
    exact ⟨question, lookupWire_eq_ok.mp makes, lookupWire_eq_ok.mp first, new, rfl⟩

theorem weigh_answer {text : Str} (weighed : weigh s response = .ok (.inl (returned, text))) :
    returned = response ∧ ∃ count, classifyRedirectAnswer response = .ok (.direct text count) ∧
      s.redirects + count ≤ cnameRedirectsMax := by
  obtain ⟨header, -, weighed⟩ := bind_eq_ok.mp weighed
  split at weighed
  · cases weighed
  obtain ⟨answer, classified, weighed⟩ := bind_eq_ok.mp weighed
  rw [lookupWire_eq_ok] at classified
  cases answer with
  | noData => cases weighed
  | direct name count =>
    simp only at weighed
    split at weighed
    · cases weighed
    · rename_i few
      cases pure_eq_ok.mp weighed
      exact ⟨rfl, count, classified, Nat.le_of_not_lt few⟩
  | redirect name count =>
    simp only at weighed
    split at weighed
    · cases weighed
    · split at weighed
      · cases weighed
      · cases pure_eq_ok.mp weighed

theorem weigh_redirect {text : Str} {redirects : Nat}
    (weighed : weigh s response = .ok (.inr (text, redirects))) :
    ∃ count, classifyRedirectAnswer response = .ok (.redirect text count) ∧ count ≠ 0 ∧
      redirects = s.redirects + count ∧ redirects ≤ cnameRedirectsMax := by
  obtain ⟨header, -, weighed⟩ := bind_eq_ok.mp weighed
  split at weighed
  · cases weighed
  obtain ⟨answer, classified, weighed⟩ := bind_eq_ok.mp weighed
  rw [lookupWire_eq_ok] at classified
  cases answer with
  | noData => cases weighed
  | direct name count =>
    simp only at weighed
    split at weighed
    · cases weighed
    · cases pure_eq_ok.mp weighed
  | redirect name count =>
    simp only at weighed
    split at weighed
    · cases weighed
    · rename_i moved
      split at weighed
      · cases weighed
      · rename_i few
        cases pure_eq_ok.mp weighed
        exact ⟨count, classified, moved, rfl, Nat.le_of_not_lt few⟩

end

section
variable {cls rrType : Nat} {queryOnLink : Nat → Packet → Except ResolveError Packet}
variable {transactionId : Nat → Nat}

inductive Turns (cls rrType : Nat) (queryOnLink : Nat → Packet → Except ResolveError Packet)
    (transactionId : Nat → Nat) : Nat → Nat → Following → List Exchanged →
      Option (Except LookupError (Packet × Str)) → Prop
  | unfinished {call : Nat} {s : Following} : Turns cls rrType queryOnLink transactionId 0 call s [] none
  | unasked {turns call : Nat} {s : Following} {error : LookupError} :
      Turns cls rrType queryOnLink transactionId (turns + 1) call s [] (some (.error error))
  | failed {turns call : Nat} {s : Following} {query : Packet} {visited : List Bytes}
      {answer : Except ResolveError Packet} {error : LookupError}
      (asked : nextQuery cls rrType s (transactionId call) = .ok (query, visited)) :
      Turns cls rrType queryOnLink transactionId (turns + 1) call s [⟨query, answer⟩]
        (some (.error error))
  | answered {turns call : Nat} {s : Following} {query response : Packet} {visited : List Bytes}
      {text : Str} (asked : nextQuery cls rrType s (transactionId call) = .ok (query, visited))
      (answer : queryOnLink call query = .ok response)
      (weighed : weigh s response = .ok (.inl (response, text))) :
      Turns cls rrType queryOnLink transactionId (turns + 1) call s [⟨query, .ok response⟩]
        (some (.ok (response, text)))
  | redirected {turns call redirects : Nat} {s : Following} {query response : Packet}
      {visited : List Bytes} {text : Str} {calls : List Exchanged}
      {result : Option (Except LookupError (Packet × Str))}
      (asked : nextQuery cls rrType s (transactionId call) = .ok (query, visited))
      (answer : queryOnLink call query = .ok response)
      (weighed : weigh s response = .ok (.inr (text, redirects)))
      (later : Turns cls rrType queryOnLink transactionId turns (call + 1) ⟨text, visited, redirects⟩
        calls result) :
      Turns cls rrType queryOnLink transactionId (turns + 1) call s (⟨query, .ok response⟩ :: calls)
        result

theorem followFrom_turns (turns call : Nat) (s : Following) :
    Turns cls rrType queryOnLink transactionId turns call s
      (followFrom cls rrType queryOnLink transactionId turns call s).1
      (followFrom cls rrType queryOnLink transactionId turns call s).2 := by
  induction turns generalizing call s with
  | zero => exact .unfinished
  | succ turns ih =>
    rw [followFrom]
    cases asked : nextQuery cls rrType s (transactionId call) with
    | error error => exact .unasked
    | ok next =>
      obtain ⟨query, visited⟩ := next
      simp only
      cases answer : queryOnLink call query with
      | error error => exact .failed asked
      | ok response =>
        simp only
        cases weighed : weigh s response with
        | error error => exact .failed asked
        | ok weight =>
          cases weight with
          | inl answered =>
            obtain ⟨returned, text⟩ := answered
            obtain ⟨rfl, -⟩ := weigh_answer weighed
            exact .answered asked answer weighed
          | inr next =>
            exact .redirected asked answer weighed (ih _ _)

section
variable {turns call : Nat} {s : Following} {calls : List Exchanged}
variable {result : Option (Except LookupError (Packet × Str))}

theorem Turns.ends (run : Turns cls rrType queryOnLink transactionId turns call s calls result)
    (few : s.redirects ≤ cnameRedirectsMax) (enough : cnameRedirectsMax < s.redirects + turns) :
    result.isSome ∧ s.redirects + calls.length ≤ cnameRedirectsMax + 1 := by
  induction run with
  | unfinished => omega
  | unasked | failed | answered => exact ⟨rfl, by simp; omega⟩
  | redirected asked answer weighed later ih =>
    obtain ⟨count, -, moved, rfl, few'⟩ := weigh_redirect weighed
    obtain ⟨ended, short⟩ := ih few' (by simp only; omega)
    refine ⟨ended, ?_⟩
    rw [List.length_cons]
    simp only at short
    omega

theorem Turns.distinct (run : Turns cls rrType queryOnLink transactionId turns call s calls result) :
    (calls.map askedName).Nodup ∧ ∀ name ∈ s.visited, some name ∉ calls.map askedName := by
  have single : ∀ {s : Following} {call : Nat} {query : Packet} {visited : List Bytes}
      {answer : Except ResolveError Packet}, nextQuery cls rrType s (transactionId call) = .ok (query, visited) →
      ∃ name, askedName ⟨query, answer⟩ = some name ∧ visited = name :: s.visited ∧
        ∀ other ∈ s.visited, other ≠ name := by
    intro s call query visited answer asked
    obtain ⟨question, -, first, new, rfl⟩ := nextQuery_eq_ok asked
    refine ⟨_, by simp [askedName, first, Except.toOption], rfl, ?_⟩
    rintro other member rfl
    exact new member
  induction run with
  | unfinished | unasked => simp
  | failed asked | answered asked =>
    obtain ⟨name, named, -, new⟩ := single asked
    refine ⟨by simp, fun other member => ?_⟩
    rw [List.map_singleton, named, List.mem_singleton, Option.some.injEq]
    exact new other member
  | @redirected turns call redirects s query response visited text calls result asked answer weighed
      later ih =>
      obtain ⟨name, named, rfl, new⟩ := @single s call query visited (.ok response) asked
      obtain ⟨nodup, apart⟩ := ih
      rw [List.map_cons, named]
      refine ⟨List.nodup_cons.mpr ⟨apart name List.mem_cons_self, nodup⟩, fun other member => ?_⟩
      rw [List.mem_cons, not_or, Option.some.injEq]
      exact ⟨new other member, apart other (List.mem_cons_of_mem _ member)⟩

theorem showsItself_lower (byte : UInt8) : ShowsItself (asciiLower byte) ↔ ShowsItself byte := by
  revert byte
  decide +kernel

theorem plainName_lowered (labels : Labels) : PlainName (lowered labels) ↔ PlainName labels := by
  simp [PlainName, lowered, showsItself_lower]

theorem encodeName_plain {labels asked : Labels} (legal : LegalName labels) (plain : PlainName labels)
    (legal' : LegalName asked) (encoded : encodeName (nameWith labels).text = .ok (wireOf asked)) :
    asked = labels := by
  rw [encodeName_shown legal plain, Except.ok.injEq] at encoded
  exact wireOf_injective legal' legal encoded.symm

theorem turn_leads {query response : Packet} {visited : List Bytes} {answer : RedirectAnswer}
    (type : rrType < 65536) (class' : cls < 65536)
    (asked : nextQuery cls rrType s (transactionId call) = .ok (query, visited))
    (same : AboutQuery query response) (classified : classifyRedirectAnswer response = .ok answer)
    (found : answer ≠ .noData) :
    ∃ start stop records steps last, LegalName start ∧ encodeName s.current = .ok (wireOf start) ∧
      firstQuestion query = .ok ⟨nameWith start, rrType, cls, stop⟩ ∧
      answerSection response = .ok records ∧ LegalName last ∧
      LeadsThrough cls rrType response records steps (lowered start) (lowered last) ∧
      ChainEnd response cls rrType records last steps answer ∧
      ∃ question, firstQuestion response = .ok question ∧ question.rrType = rrType ∧
        question.cls = cls ∧ question.name.canonicalWire = wireOf (lowered start) := by
  obtain ⟨-, made, -, -, -⟩ := nextQuery_eq_ok asked
  obtain ⟨start, stop, legal, encoded, first⟩ := makeQueryWithClass_question made type class'
  obtain ⟨asks, question, asksFirst, answers, sameName, sameType, sameClass⟩ := same
  cases first.symm.trans asksFirst
  obtain ⟨question', records, start', steps, last, first', answered, named, legal', legalLast,
    through, ends⟩ := classifyRedirectAnswer_chain classified found
  cases answers.symm.trans first'
  have lower : lowered start' = lowered start := by
    rw [named] at sameName
    exact wireOf_injective (legalName_lowered legal') (legalName_lowered legal) sameName
  simp only at sameType sameClass
  rw [sameType, sameClass, lower] at through
  rw [sameType, sameClass] at ends
  exact ⟨start, stop, records, steps, last, legal, encoded, first, answered, legalLast, through, ends,
    question, answers, sameType, sameClass, sameName⟩

theorem Turns.chain (run : Turns cls rrType queryOnLink transactionId turns call s calls result)
    (type : rrType < 65536) (class' : cls < 65536)
    (honest : ∀ exchanged ∈ calls, ∀ response, exchanged.answer = .ok response → AboutQuery exchanged.query response ∧ EndsPlain response)
    (ok : result = some (.ok (returned, text))) :
    ∃ start stop last steps first rest, calls = first :: rest ∧ LegalName start ∧
      encodeName s.current = .ok (wireOf start) ∧
      firstQuestion first.query = .ok ⟨nameWith start, rrType, cls, stop⟩ ∧
      WholeChain cls rrType (calls.filterMap (·.answer.toOption)) steps (lowered start) last ∧
      s.redirects + steps ≤ cnameRedirectsMax ∧ (calls.filterMap (·.answer.toOption)).getLast? = some returned ∧
      ∃ records, answerSection returned = .ok records ∧ OwnsAnswer cls rrType records last := by
  induction run with
  | unfinished => cases ok
  | unasked => cases ok
  | failed => cases ok
  | answered asked answer weighed =>
    cases ok
    obtain ⟨-, count, classified, few⟩ := weigh_answer weighed
    obtain ⟨start, stop, records, steps, last, legal, encoded, first, answered, -, through, ends, -⟩ :=
      turn_leads type class' asked (honest _ List.mem_cons_self _ rfl).1 classified (by simp)
    cases ends with
    | direct owned =>
      refine ⟨start, stop, lowered last, count, _, _, rfl, legal, encoded, first, ?_, few, rfl, records,
        answered, owned⟩
      exact .cons answered through .nil
  | @redirected turns call redirects s query response visited text' calls result asked answer weighed
      later ih =>
      obtain ⟨start', stop', last, steps, next, rest, rfl, legal', encoded', -, chain, few, ends, owned⟩ :=
        ih (fun exchanged member => honest exchanged (List.mem_cons_of_mem _ member)) ok
      obtain ⟨count, classified, moved, rfl, -⟩ := weigh_redirect weighed
      obtain ⟨same, plain⟩ := honest _ List.mem_cons_self _ rfl
      obtain ⟨start, stop, records, steps', middle, legal, encoded, first, answered, legalMiddle, through,
        chainEnd, question, responded, typed, classed, named⟩ :=
        turn_leads type class' asked same classified (by simp)
      cases chainEnd with
      | redirect moved missing nowhere =>
        obtain ⟨steps', rfl⟩ := Nat.exists_eq_succ_of_ne_zero moved
        subst typed classed
        have plain := plain question records _ _ steps' responded answered named through missing nowhere
        rw [plainName_lowered] at plain
        obtain rfl := encodeName_plain legalMiddle plain legal' encoded'
        refine ⟨start, stop, last, steps' + 1 + steps, _, _, rfl, legal, encoded, first,
          .cons answered through chain, ?_, ?_, owned⟩
        · simp only at few
          omega
        · change (response :: (next :: rest).filterMap (·.answer.toOption)).getLast? = some returned
          rw [List.getLast?_cons, ends]
          rfl

end

end

section
variable {cls rrType : Nat} {packet : Packet} {record : ResourceRecord} {name next last : Labels}

theorem leadsOn_single (other : record.rrType ≠ typeDname)
    (leads : LeadsOn cls rrType packet [record] name next) :
    RedirectsTo cls rrType packet typeCname record name next := by
  cases leads with
  | cname member redirects =>
    cases List.mem_singleton.mp member
    exact redirects
  | dname member below redirects =>
    cases List.mem_singleton.mp member
    exact absurd redirects.kind other

theorem leadsThrough_nowhere (nowhere : ∀ next, ¬LeadsOn cls rrType packet records name next)
    (through : LeadsThrough cls rrType packet records steps name last) : steps = 0 ∧ last = name := by
  cases through with
  | none => exact ⟨rfl, rfl⟩
  | more first rest => exact absurd first (nowhere _)

theorem leadsThrough_single (other : record.rrType ≠ typeDname)
    (read : readName packet record.rdataOffset = .ok (target, stop))
    (away : target.canonicalWire ≠ record.name.canonicalWire)
    (through : LeadsThrough cls rrType packet [record] steps name last) :
    last = name ∨ wireOf last = target.canonicalWire := by
  cases through with
  | none => exact .inl rfl
  | more first rest =>
    obtain ⟨-, -, -, -, target', stop', read', wire⟩ := leadsOn_single other first
    cases read.symm.trans read'
    have nowhere : ∀ later, ¬LeadsOn cls rrType packet [record] _ later := fun later leads =>
      away (wire.trans (leadsOn_single other leads).owner.symm)
    obtain ⟨-, rfl⟩ := leadsThrough_nowhere nowhere rest
    exact .inr wire.symm

end

theorem wireOf_octet {labels : Labels} {byte : UInt8} (wire : wireOf labels = [1, byte, 0]) :
    labels = [[byte]] := by
  cases labels with
  | nil => cases wire
  | cons label rest =>
    rw [wireOf_cons] at wire
    match label, rest with
    | [], _ => cases wire
    | [_], [] =>
      cases wire
      rfl
    | [_], [] :: _ => simp [wireOf] at wire
    | [_], (_ :: _) :: _ => simp [wireOf] at wire
    | _ :: _ :: _, _ => simp [wireOf] at wire

theorem plainName_octet {byte : UInt8} (shown : ShowsItself byte) : PlainName [[byte]] := by
  simpa [PlainName] using shown

/-- The loop ends after seventeen queries at most, none of them for a name that was asked for before. When
every response is about its query and leads on to plain names only, an answer stands at the end of the whole
chain. -/
theorem queryFollowingRedirects_follows (cls rrType turns : Nat)
    (queryOnLink : Nat → Packet → Except ResolveError Packet) (transactionId : Nat → Nat) (name : Str)
    (type : rrType < 65536) (class' : cls < 65536) (enough : 17 ≤ turns) :
    let run := queryFollowingRedirects cls rrType queryOnLink transactionId turns name
    run.2.isSome ∧ run.1.length ≤ 17 ∧ (run.1.map askedName).Nodup ∧
      ((∀ exchanged ∈ run.1, ∀ response, exchanged.answer = .ok response →
          AboutQuery exchanged.query response ∧ EndsPlain response) →
        ∀ returned text, run.2 = some (.ok (returned, text)) →
          ChainAnswered cls rrType run.1 returned) := by
  intro run
  have taken : Turns cls rrType queryOnLink transactionId turns 0 ⟨name, [], 0⟩ run.1 run.2 :=
    followFrom_turns turns 0 _
  obtain ⟨ended, short⟩ := taken.ends (Nat.zero_le _) (by simp only [cnameRedirectsMax]; omega)
  simp only [cnameRedirectsMax, Nat.zero_add] at short
  refine ⟨ended, short, taken.distinct.1, fun honest returned text ok => ?_⟩
  obtain ⟨start, stop, last, steps, first, rest, calls, -, -, asked, chain, few, returns, owned⟩ :=
    taken.chain type class' honest ok
  rw [Nat.zero_add] at few
  exact ⟨first, rest, _, lowered start, last, steps, calls, asked, rfl, chain, few, returns, owned⟩

def aliasFor (byte : UInt8) : Packet :=
  [0, 7, 129, 128, 0, 1, 0, 1, 0, 0, 0, 0, 1, 97, 0, 0, 1, 0, 1,
    192, 12, 0, 5, 0, 1, 0, 0, 0, 60, 0, 3, 1, byte, 0]

def aliasRecord (byte : UInt8) : ResourceRecord :=
  ⟨nameWith [[97]], typeCname, classIn, 60, 25, 31, [1, byte, 0], 34⟩

def addressFor (label : Bytes) : Packet :=
  [0, 7, 129, 128, 0, 1, 0, 1, 0, 0, 0, 0] ++ wireOf [label] ++ [0, 1, 0, 1,
    192, 12, 0, 1, 0, 1, 0, 0, 0, 60, 0, 4, 192, 0, 2, 1]

def addressRecord (label : Bytes) : ResourceRecord :=
  ⟨nameWith [label], typeA, classIn, 60, 24 + label.length, 30 + label.length, [192, 0, 2, 1], 34 + label.length⟩

def replying (first second : Packet) (call : Nat) (_ : Packet) : Except ResolveError Packet :=
  if call = 0 then .ok first else .ok second

def asking (label : Bytes) : Packet :=
  [0, 7, 1, 0, 0, 1, 0, 0, 0, 0, 0, 0] ++ wireOf [label] ++ [0, 1, 0, 1]

theorem addressRecord_nowhere : ¬LeadsOn cls rrType packet [addressRecord label] name next := by
  intro leads
  have redirects := leadsOn_single (show typeA ≠ typeDname by decide) leads
  exact absurd redirects.kind (show typeA ≠ typeCname by decide)

theorem queryFollowingRedirects_follows_plain :
    ChainAnswered classIn typeA (queryFollowingRedirects classIn typeA
      (replying (aliasFor 98) (addressFor [98])) (fun _ => 7) 17 ['a']).1 (addressFor [98]) := by
  have calls : (queryFollowingRedirects classIn typeA (replying (aliasFor 98) (addressFor [98]))
      (fun _ => 7) 17 ['a']).1 = [⟨asking [97], .ok (aliasFor 98)⟩, ⟨asking [98], .ok (addressFor [98])⟩] := by
    decide
  have first : answerSection (aliasFor 98) = .ok [aliasRecord 98] := by decide
  have second : answerSection (addressFor [98]) = .ok [addressRecord [98]] := by decide
  have asksA : firstQuestion (asking [97]) = .ok ⟨nameWith [[97]], typeA, classIn, 19⟩ := by decide
  have asksB : firstQuestion (asking [98]) = .ok ⟨nameWith [[98]], typeA, classIn, 19⟩ := by decide
  have isA : firstQuestion (aliasFor 98) = .ok ⟨nameWith [[97]], typeA, classIn, 19⟩ := by decide
  have isB : firstQuestion (addressFor [98]) = .ok ⟨nameWith [[98]], typeA, classIn, 19⟩ := by
    decide
  have target : readName (aliasFor 98) (aliasRecord 98).rdataOffset = .ok (nameWith [[98]], 34) := by
    decide
  refine (queryFollowingRedirects_follows classIn typeA 17 (replying (aliasFor 98) (addressFor [98]))
    (fun _ => 7) ['a'] (by decide) (by decide) (by decide)).2.2.2 ?_ _ ['b'] (by decide)
  rw [calls]
  intro exchanged member response answered
  rcases List.mem_cons.mp member with rfl | member
  · cases answered
    refine ⟨⟨_, _, asksA, isA, rfl, rfl, rfl⟩, ?_⟩
    intro question records start last steps asked known named through missing nowhere
    cases first.symm.trans known
    cases isA.symm.trans asked
    rcases leadsThrough_single (by decide) target (by decide) through with rfl | led
    · obtain rfl := wireOf_octet named.symm
      exact plainName_octet (by decide)
    · obtain rfl := wireOf_octet led
      exact plainName_octet (by decide)
  · cases List.mem_singleton.mp member
    cases answered
    refine ⟨⟨_, _, asksB, isB, rfl, rfl, rfl⟩, ?_⟩
    intro question records start last steps asked known named through missing nowhere
    cases second.symm.trans known
    cases through with
    | more step rest => exact absurd step addressRecord_nowhere

theorem queryFollowingRedirects_asks_escape :
    (queryFollowingRedirects classIn typeA (replying (aliasFor 47) (addressFor [92, 48, 52, 55]))
        (fun _ => 7) 17 ['a']).2 = some (.ok (addressFor [92, 48, 52, 55], "\\092047".toList)) ∧
      ¬ChainAnswered classIn typeA (queryFollowingRedirects classIn typeA
        (replying (aliasFor 47) (addressFor [92, 48, 52, 55])) (fun _ => 7) 17 ['a']).1
        (addressFor [92, 48, 52, 55]) := by
  refine ⟨by decide, ?_⟩
  have calls : (queryFollowingRedirects classIn typeA (replying (aliasFor 47) (addressFor [92, 48, 52, 55]))
      (fun _ => 7) 17 ['a']).1 = [⟨asking [97], .ok (aliasFor 47)⟩,
        ⟨asking [92, 48, 52, 55], .ok (addressFor [92, 48, 52, 55])⟩] := by
    decide
  have first : answerSection (aliasFor 47) = .ok [aliasRecord 47] := by decide
  have second : answerSection (addressFor [92, 48, 52, 55]) = .ok [addressRecord [92, 48, 52, 55]] := by
    decide
  have target : readName (aliasFor 47) (aliasRecord 47).rdataOffset = .ok (nameWith [[47]], 34) := by
    decide
  have asks : firstQuestion (asking [97]) = .ok ⟨nameWith [[97]], typeA, classIn, 19⟩ := by decide
  rw [calls]
  rintro ⟨call, others, question, start, last, steps, same, asked, wire, chain, -, -, records, answered,
    record, member, -, -, owner⟩
  cases same
  cases second.symm.trans answered
  cases List.mem_singleton.mp member
  change WholeChain classIn typeA [aliasFor 47, addressFor [92, 48, 52, 55]] steps start last at chain
  cases chain with
  | cons known here later =>
    cases first.symm.trans known
    cases later with
    | cons known' here' nothing =>
      cases second.symm.trans known'
      cases nothing
      obtain ⟨-, rfl⟩ := leadsThrough_nowhere (fun _ => addressRecord_nowhere) here'
      rcases leadsThrough_single (by decide) target (by decide) here with rfl | led
      · cases asks.symm.trans asked
        rw [← owner] at wire
        exact absurd wire (by decide)
      · rw [← owner] at led
        exact absurd led (by decide)

end Resolved.Proof.Lookup
