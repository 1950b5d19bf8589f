import Resolved.Proof.Wire.RedirectChain
import Resolved.Proof.Wire.Records

/-!
# Classification and lookup of a response
-/

namespace Resolved.Proof.Wire
open Lib Resolved.Wire Spec

theorem foldlM_origin {α σ ε ι : Type} {step : σ → α → Except ε σ} (has : σ → ι → Prop)
    (brings : α → ι → Prop)
    (adds : ∀ state value next, step state value = .ok next →
      ∀ item, has next item ↔ has state item ∨ brings value item)
    {values : List α} {start final : σ} (folded : values.foldlM step start = .ok final) (item : ι) :
    has final item ↔ has start item ∨ ∃ value ∈ values, brings value item := by
  induction values generalizing start with
  | nil =>
    cases folded
    simp
  | cons value rest ih =>
    rw [List.foldlM_cons, bind_eq_ok] at folded
    obtain ⟨next, first, folded⟩ := folded
    rw [ih folded, adds start value next first item]
    simp [or_assoc]

variable {record : ResourceRecord} {redirects next : Redirects} {rrType stop : Nat}
  {records : List ResourceRecord} {output answers : AddressAnswerSet}
  {addresses : List (Bytes × List IpAddr)} {owner other : Bytes} {address : IpAddr}
  {header : Header}

section
variable {packet : Packet}

def targetOf (packet : Packet) (rrType : Nat) (owner : Bytes) (record : ResourceRecord) : Option DnsName :=
  if record.cls = classIn ∧ record.rrType = rrType ∧ record.name.canonicalWire = owner then
    (readName packet record.rdataOffset).toOption.map Prod.fst
  else none

theorem insertRedirect_lookup (inserted : insertRedirect packet record redirects = .ok next) :
    ∃ target, readName packet record.rdataOffset = .ok (target, record.nextOffset) ∧ ∀ owner, next.lookup owner =
        (redirects.lookup owner).or (if record.name.canonicalWire = owner then some target else none) := by
  simp only [insertRedirect, bind_eq_ok, Prod.exists] at inserted
  obtain ⟨target, stop, read, inserted⟩ := inserted
  split at inserted
  · cases inserted
  · rename_i stops
    rw [not_not] at stops
    subst stops
    refine ⟨target, read, fun owner => ?_⟩
    cases known : redirects.lookup record.name.canonicalWire with
    | none =>
      rw [known] at inserted
      cases pure_eq_ok.1 inserted
      rw [List.lookup_append]
      by_cases same : record.name.canonicalWire = owner
      · simp [same]
      · have other : (owner == record.name.canonicalWire) = false := beq_eq_false_iff_ne.2 (Ne.symm same)
        simp [same, List.lookup_cons, other]
    | some existing =>
      rw [known] at inserted
      simp only at inserted
      split at inserted
      · cases inserted
      · cases pure_eq_ok.1 inserted
        by_cases same : record.name.canonicalWire = owner
        · simp [← same, known]
        · simp [same]

def TakesTargets {σ : Type} (packet : Packet) (visit : σ → ResourceRecord → Except WireError σ)
    (rrType : Nat) (redirects : σ → Redirects) : Prop :=
  ∀ state record next, visit state record = .ok next → (record.cls = classIn → record.rrType = rrType →
      ∃ target stop, readName packet record.rdataOffset = .ok (target, stop)) ∧
    ∀ owner, (redirects next).lookup owner =
      ((redirects state).lookup owner).or (targetOf packet rrType owner record)

theorem TakesTargets.all {σ : Type} {visit : σ → ResourceRecord → Except WireError σ}
    {redirects : σ → Redirects} (takes : TakesTargets packet visit rrType redirects) {start final : σ}
    (folded : records.foldlM visit start = .ok final) (owner : Bytes) :
    (redirects final).lookup owner =
      ((redirects start).lookup owner).or (firstTarget packet records rrType owner) := by
  induction records generalizing start with
  | nil =>
    cases folded
    simp [firstTarget]
  | cons record rest ih =>
    rw [List.foldlM_cons, bind_eq_ok] at folded
    obtain ⟨next, first, folded⟩ := folded
    obtain ⟨reads, adds⟩ := takes start record next first
    rw [ih folded, adds owner, Option.or_assoc]
    congr 1
    by_cases here : record.cls = classIn ∧ record.rrType = rrType ∧ record.name.canonicalWire = owner
    · obtain ⟨target, stop, read⟩ := reads here.1 here.2.1
      simp [firstTarget, targetOf, here, read, Except.toOption]
    · rw [targetOf, if_neg here, Option.none_or]
      simp only [firstTarget]
      rw [List.find?_cons_of_neg (by simpa using here)]

theorem takesTargets_insert (inserted : insertRedirect packet record redirects = .ok next)
    (cls : record.cls = classIn) (type : record.rrType = rrType) (owner : Bytes) :
    next.lookup owner = (redirects.lookup owner).or (targetOf packet rrType owner record) := by
  obtain ⟨target, read, looked⟩ := insertRedirect_lookup inserted
  rw [looked owner, targetOf]
  simp [cls, type, read, Except.toOption]

theorem targetOf_other (other : record.rrType ≠ rrType) (owner : Bytes) : targetOf packet rrType owner record = none := by
  simp [targetOf, other]

inductive AddressStep (packet : Packet) (output : AddressAnswerSet) (record : ResourceRecord) :
    AddressAnswerSet → Prop
  | alias {aliases : Redirects} (cls : record.cls = classIn) (rrType : record.rrType = typeCname)
      (inserted : insertRedirect packet record output.aliases = .ok aliases) :
      AddressStep packet output record { output with aliases }
  | dname {dnames : Redirects} (cls : record.cls = classIn) (rrType : record.rrType = typeDname)
      (inserted : insertRedirect packet record output.dnames = .ok dnames) :
      AddressStep packet output record { output with dnames }
  | address {address : IpAddr} (kind : IsAddressRecord record) (made : addressOf record = some address) :
      AddressStep packet output record
        { output with addresses := insertAddress output.addresses record.name.canonicalWire address }
  | other (skips : record.cls = classIn → record.rrType ≠ typeCname ∧ record.rrType ≠ typeDname ∧
      record.rrType ≠ typeA ∧ record.rrType ≠ typeAaaa) : AddressStep packet output record output

theorem visitAddress_eq_ok {next : AddressAnswerSet} :
    visitAddress packet output record = .ok next ↔ AddressStep packet output record next := by
  constructor
  · intro visited
    unfold visitAddress at visited
    split at visited
    · rename_i foreign
      cases visited
      exact .other fun cls => absurd cls foreign
    · rename_i cls
      rw [not_not] at cls
      split at visited
      · rename_i cname
        obtain ⟨aliases, inserted, same⟩ := bind_eq_ok.1 visited
        cases pure_eq_ok.1 same
        exact .alias cls cname inserted
      · rename_i cname
        split at visited
        · rename_i dname
          obtain ⟨dnames, inserted, same⟩ := bind_eq_ok.1 visited
          cases pure_eq_ok.1 same
          exact .dname cls dname inserted
        · rename_i dname
          split at visited
          · rename_i a
            obtain ⟨address, made, same⟩ := bind_eq_ok.1 visited
            cases pure_eq_ok.1 same
            exact .address ⟨cls, .inl a⟩ (by simpa [addressOf, cls, a] using okOr_eq_ok.1 made)
          · rename_i a
            split at visited
            · rename_i aaaa
              obtain ⟨address, made, same⟩ := bind_eq_ok.1 visited
              cases pure_eq_ok.1 same
              exact .address ⟨cls, .inr aaaa⟩
                (by simpa [addressOf, cls, aaaa, typeA, typeAaaa] using okOr_eq_ok.1 made)
            · rename_i aaaa
              cases visited
              exact .other fun _ => ⟨cname, dname, a, aaaa⟩
  · intro step
    cases step with
    | «alias» cls rrType inserted =>
      simp [visitAddress, cls, rrType, inserted]
    | dname cls rrType inserted =>
      simp [visitAddress, cls, rrType, inserted, typeDname, typeCname]
    | @address address kind made =>
      obtain ⟨cls, rrType⟩ := kind
      rcases rrType with a | aaaa
      · have made' : ipv4Of record.rdata = some address := by simpa [addressOf, cls, a] using made
        simp [visitAddress, cls, a, made', typeA, typeCname, typeDname]
      · have made' : ipv6Of record.rdata = some address := by
          simpa [addressOf, cls, aaaa, typeA, typeAaaa] using made
        simp [visitAddress, cls, aaaa, made', typeA, typeAaaa, typeCname, typeDname]
    | other skips =>
      by_cases cls : record.cls = classIn
      · obtain ⟨cname, dname, a, aaaa⟩ := skips cls
        simp [visitAddress, cname, dname, a, aaaa]
      · simp [visitAddress, cls]

inductive RedirectStep (packet : Packet) (rrType : Nat) (output : RedirectSet)
    (record : ResourceRecord) : RedirectSet → Prop
  | direct (cls : record.cls = classIn) (asked : record.rrType = rrType) :
      RedirectStep packet rrType output record
        { output with direct := output.direct.insert record.name.canonicalWire }
  | alias {aliases : Redirects} (cls : record.cls = classIn) (cname : record.rrType = typeCname)
      (inserted : insertRedirect packet record output.aliases = .ok aliases) :
      RedirectStep packet rrType output record { output with aliases }
  | dname {dnames : Redirects} (cls : record.cls = classIn) (dname : record.rrType = typeDname)
      (inserted : insertRedirect packet record output.dnames = .ok dnames) :
      RedirectStep packet rrType output record { output with dnames }
  | other (skips : record.cls = classIn → record.rrType ≠ rrType ∧ record.rrType ≠ typeCname ∧
      record.rrType ≠ typeDname) : RedirectStep packet rrType output record output

structure AsksAddresses (question : Question) : Prop where
  cls : question.cls = classIn
  rrType : question.rrType = typeA ∨ question.rrType = typeAaaa

theorem visitRedirect_step {question : Question} (asks : AsksAddresses question) {output next : RedirectSet}
    (visited : visitRedirect packet question output record = .ok next) :
    RedirectStep packet question.rrType output record next := by
  have named : question.rrType ≠ typeAny := by
    rcases asks.rrType with a | aaaa
    · rw [a]
      decide
    · rw [aaaa]
      decide
  have inClass : question.cls ≠ classAny := by
    rw [asks.cls]
    decide
  unfold visitRedirect at visited
  split at visited
  · rename_i foreign
    cases visited
    exact .other fun cls => absurd (cls.trans asks.cls.symm) foreign.2
  · rename_i cls
    have cls : record.cls = classIn := by
      by_contra foreign
      exact cls ⟨inClass, fun same => foreign (same.trans asks.cls)⟩
    split at visited
    · rename_i asked
      cases visited
      exact .direct cls (asked.resolve_left named)
    · rename_i asked
      have other : record.rrType ≠ question.rrType := fun same => asked (.inr same)
      split at visited
      · rename_i cname
        obtain ⟨aliases, inserted, same⟩ := bind_eq_ok.1 visited
        cases pure_eq_ok.1 same
        exact .alias cls cname inserted
      · rename_i cname
        split at visited
        · rename_i dname
          obtain ⟨dnames, inserted, same⟩ := bind_eq_ok.1 visited
          cases pure_eq_ok.1 same
          exact .dname cls dname inserted
        · rename_i dname
          cases visited
          exact .other fun _ => ⟨other, cname, dname⟩

theorem targetOf_foreign (foreign : record.cls ≠ classIn) (owner : Bytes) : targetOf packet rrType owner record = none := by
  simp [targetOf, foreign]

theorem takes_nothing (other : record.cls = classIn → record.rrType ≠ rrType) :
    (record.cls = classIn → record.rrType = rrType →
      ∃ target stop, readName packet record.rdataOffset = .ok (target, stop)) ∧ ∀ owner, redirects.lookup owner =
      (redirects.lookup owner).or (targetOf packet rrType owner record) := by
  refine ⟨fun cls same => absurd same (other cls), fun owner => ?_⟩
  have none : targetOf packet rrType owner record = none := by
    by_cases cls : record.cls = classIn
    · exact targetOf_other (other cls) owner
    · exact targetOf_foreign cls owner
  rw [none, Option.or_none]

theorem takes_target (cls : record.cls = classIn) (type : record.rrType = rrType)
    (inserted : insertRedirect packet record redirects = .ok next) :
    (record.cls = classIn → record.rrType = rrType →
      ∃ target stop, readName packet record.rdataOffset = .ok (target, stop)) ∧ ∀ owner, next.lookup owner =
      (redirects.lookup owner).or (targetOf packet rrType owner record) := by
  refine ⟨fun _ _ => ?_, takesTargets_insert inserted cls type⟩
  obtain ⟨target, read, -⟩ := insertRedirect_lookup inserted
  exact ⟨target, _, read⟩

theorem isAddressRecord_type (kind : IsAddressRecord record) :
    record.rrType ≠ typeCname ∧ record.rrType ≠ typeDname := by
  rcases kind.2 with a | aaaa
  · rw [a]
    decide
  · rw [aaaa]
    decide

theorem visitAddress_aliases : TakesTargets packet (visitAddress packet) typeCname AddressAnswerSet.aliases := by
  intro output record next visited
  cases visitAddress_eq_ok.1 visited with
  | «alias» cls rrType inserted => exact takes_target cls rrType inserted
  | dname cls rrType inserted => exact takes_nothing fun _ => by rw [rrType]; decide
  | address kind made => exact takes_nothing fun _ => (isAddressRecord_type kind).1
  | other skips => exact takes_nothing fun cls => (skips cls).1

theorem visitAddress_dnames : TakesTargets packet (visitAddress packet) typeDname AddressAnswerSet.dnames := by
  intro output record next visited
  cases visitAddress_eq_ok.1 visited with
  | «alias» cls rrType inserted => exact takes_nothing fun _ => by rw [rrType]; decide
  | dname cls rrType inserted => exact takes_target cls rrType inserted
  | address kind made => exact takes_nothing fun _ => (isAddressRecord_type kind).2
  | other skips => exact takes_nothing fun cls => (skips cls).2.1

section
variable {question : Question}

theorem AsksAddresses.type (asks : AsksAddresses question) :
    question.rrType ≠ typeCname ∧ question.rrType ≠ typeDname := by
  rcases asks.rrType with a | aaaa
  · rw [a]
    decide
  · rw [aaaa]
    decide

theorem visitRedirect_aliases (asks : AsksAddresses question) :
    TakesTargets packet (visitRedirect packet question) typeCname RedirectSet.aliases := by
  intro output record next visited
  cases visitRedirect_step asks visited with
  | direct cls asked => exact takes_nothing fun _ => asked ▸ asks.type.1
  | «alias» cls rrType inserted => exact takes_target cls rrType inserted
  | dname cls rrType inserted => exact takes_nothing fun _ => by rw [rrType]; decide
  | other skips => exact takes_nothing fun cls => (skips cls).2.1

theorem visitRedirect_dnames (asks : AsksAddresses question) :
    TakesTargets packet (visitRedirect packet question) typeDname RedirectSet.dnames := by
  intro output record next visited
  cases visitRedirect_step asks visited with
  | direct cls asked => exact takes_nothing fun _ => asked ▸ asks.type.2
  | «alias» cls rrType inserted => exact takes_nothing fun _ => by rw [rrType]; decide
  | dname cls rrType inserted => exact takes_target cls rrType inserted
  | other skips => exact takes_nothing fun cls => (skips cls).2.2

theorem visitRedirect_direct (asks : AsksAddresses question) {output next : RedirectSet}
    (visited : visitRedirect packet question output record = .ok next) (owner : Bytes) :
    owner ∈ next.direct ↔ owner ∈ output.direct ∨
      (record.cls = classIn ∧ record.rrType = question.rrType ∧ record.name.canonicalWire = owner) := by
  cases visitRedirect_step asks visited with
  | direct cls asked => simp [cls, asked, or_comm, eq_comm]
  | «alias» cls rrType inserted => simp [rrType, Ne.symm asks.type.1]
  | dname cls rrType inserted => simp [rrType, Ne.symm asks.type.2]
  | other skips =>
    constructor
    · exact Or.inl
    · rintro (member | ⟨cls, same, -⟩)
      · exact member
      · exact absurd same (skips cls).1

theorem foldlM_visitAddress (asks : AsksAddresses question) (formed : WellFormedAddresses records)
    {start final : RedirectSet} (aliases : output.aliases = start.aliases)
    (dnames : output.dnames = start.dnames)
    (folded : records.foldlM (visitRedirect packet question) start = .ok final) :
    ∃ answers, records.foldlM (visitAddress packet) output = .ok answers := by
  induction records generalizing start output with
  | nil => exact ⟨output, rfl⟩
  | cons record rest ih =>
    rw [List.foldlM_cons, bind_eq_ok] at folded
    obtain ⟨next, first, folded⟩ := folded
    have later : WellFormedAddresses rest := fun other member => formed other (by simp [member])
    have step : ∃ answers, AddressStep packet output record answers ∧
        answers.aliases = next.aliases ∧ answers.dnames = next.dnames := by
      by_cases kind : IsAddressRecord record
      · obtain ⟨address, made⟩ := Option.isSome_iff_exists.1 (formed record (by simp) kind)
        obtain ⟨cname, dname⟩ := isAddressRecord_type kind
        refine ⟨_, .address kind made, ?_⟩
        cases visitRedirect_step asks first with
        | direct cls asked => exact ⟨aliases, dnames⟩
        | «alias» cls rrType inserted => exact absurd rrType cname
        | dname cls rrType inserted => exact absurd rrType dname
        | other skips => exact ⟨aliases, dnames⟩
      · cases visitRedirect_step asks first with
        | direct cls asked => exact absurd ⟨cls, asked ▸ asks.rrType⟩ kind
        | «alias» cls rrType inserted =>
          rw [← aliases] at inserted
          exact ⟨_, .alias cls rrType inserted, rfl, dnames⟩
        | dname cls rrType inserted =>
          rw [← dnames] at inserted
          exact ⟨_, .dname cls rrType inserted, aliases, rfl⟩
        | other skips =>
          refine ⟨output, .other fun cls => ⟨(skips cls).2.1, (skips cls).2.2, ?_, ?_⟩, aliases, dnames⟩
          · exact fun a => kind ⟨cls, .inl a⟩
          · exact fun aaaa => kind ⟨cls, .inr aaaa⟩
    obtain ⟨answers, step, aliases', dnames'⟩ := step
    obtain ⟨final', folded'⟩ := ih later aliases' dnames' folded
    refine ⟨final', ?_⟩
    rw [List.foldlM_cons, visitAddress_eq_ok.2 step]
    exact folded'

end

theorem lookup_replace {values : List IpAddr} :
    (addresses.map fun entry => if entry.1 = owner then (owner, values) else entry).lookup other =
      if other = owner then (addresses.lookup owner).map fun _ => values else addresses.lookup other := by
  induction addresses with
  | nil => simp
  | cons entry rest ih =>
    obtain ⟨key, old⟩ := entry
    rw [List.map_cons]
    by_cases here : key = owner
    · subst here
      by_cases same : other = key
      · subst same
        simp
      · have apart : (other == key) = false := beq_eq_false_iff_ne.2 same
        simp [List.lookup_cons, same, apart, ih]
    · rw [if_neg here, List.lookup_cons, ih]
      by_cases same : other = owner
      · subst same
        have apart : (other == key) = false := beq_eq_false_iff_ne.2 (Ne.symm here)
        simp [List.lookup_cons, apart]
      · simp [List.lookup_cons, same]

theorem insertAddress_lookup :
    (((insertAddress addresses owner address).lookup other).isSome ↔
      (addresses.lookup other).isSome ∨ owner = other) ∧
    ∀ value, value ∈ ((insertAddress addresses owner address).lookup other).getD [] ↔
      value ∈ (addresses.lookup other).getD [] ∨ (owner = other ∧ value = address) := by
  unfold insertAddress
  cases known : addresses.lookup owner with
  | none =>
    by_cases same : owner = other
    · subst same
      simp [List.lookup_append, known]
    · have apart : (other == owner) = false := beq_eq_false_iff_ne.2 (Ne.symm same)
      simp [List.lookup_append, List.lookup_cons, same, apart]
  | some values =>
    by_cases member : address ∈ values
    · simp only [member, if_true]
      by_cases same : owner = other
      · subst same
        refine ⟨by simp [known], fun value => ?_⟩
        rw [known, Option.getD_some]
        constructor
        · exact Or.inl
        · rintro (there | ⟨-, rfl⟩)
          · exact there
          · exact member
      · simp [same]
    · simp only [member, if_false, lookup_replace]
      by_cases same : owner = other
      · subst same
        simp [known]
      · simp [same, Ne.symm same]

theorem foldlM_hasAddress (folded : records.foldlM (visitAddress packet) ⟨[], [], []⟩ = .ok answers)
    (owner : Bytes) :
    (answers.addresses.lookup owner).isSome ↔
      ∃ record ∈ records, IsAddressRecord record ∧ record.name.canonicalWire = owner := by
  have adds : ∀ output record next, visitAddress packet output record = .ok next → ∀ owner,
      (next.addresses.lookup owner).isSome ↔ (output.addresses.lookup owner).isSome ∨
        (IsAddressRecord record ∧ record.name.canonicalWire = owner) := by
    intro output record next visited owner
    cases visitAddress_eq_ok.1 visited with
    | «alias» cls rrType inserted =>
      simp [show ¬ IsAddressRecord record from fun kind => (isAddressRecord_type kind).1 rrType]
    | dname cls rrType inserted =>
      simp [show ¬ IsAddressRecord record from fun kind => (isAddressRecord_type kind).2 rrType]
    | address kind made =>
      rw [insertAddress_lookup.1]
      simp [kind]
    | other skips =>
      have away : ¬ IsAddressRecord record := by
        rintro ⟨cls, a | aaaa⟩
        · exact (skips cls).2.2.1 a
        · exact (skips cls).2.2.2 aaaa
      simp [away]
  have all := foldlM_origin (fun (output : AddressAnswerSet) owner => (output.addresses.lookup owner).isSome)
    (fun record owner => IsAddressRecord record ∧ record.name.canonicalWire = owner) adds folded owner
  simpa using all

theorem addressOf_kind (made : addressOf record = some address) : IsAddressRecord record := by
  unfold addressOf at made
  split at made
  · cases made
  · rename_i cls
    rw [not_not] at cls
    split at made
    · rename_i a
      exact ⟨cls, .inl a⟩
    · split at made
      · rename_i aaaa
        exact ⟨cls, .inr aaaa⟩
      · cases made

theorem foldlM_addresses (folded : records.foldlM (visitAddress packet) ⟨[], [], []⟩ = .ok answers)
    (owner : Bytes) (address : IpAddr) :
    address ∈ (answers.addresses.lookup owner).getD [] ↔
      ∃ record ∈ records, record.name.canonicalWire = owner ∧ addressOf record = some address := by
  have adds : ∀ output record next, visitAddress packet output record = .ok next → ∀ address,
      address ∈ (next.addresses.lookup owner).getD [] ↔ address ∈ (output.addresses.lookup owner).getD [] ∨
          (record.name.canonicalWire = owner ∧ addressOf record = some address) := by
    intro output record next visited address
    have none : ¬ IsAddressRecord record → addressOf record ≠ some address :=
      fun away made => away (addressOf_kind made)
    cases visitAddress_eq_ok.1 visited with
    | «alias» cls rrType inserted => simp [none fun kind => (isAddressRecord_type kind).1 rrType]
    | dname cls rrType inserted => simp [none fun kind => (isAddressRecord_type kind).2 rrType]
    | address kind made =>
      rw [insertAddress_lookup.2]
      simp [made, eq_comm]
    | other skips =>
      have away : ¬ IsAddressRecord record := by
        rintro ⟨cls, a | aaaa⟩
        · exact (skips cls).2.2.1 a
        · exact (skips cls).2.2.2 aaaa
      simp [none away]
  have all := foldlM_origin
    (fun (output : AddressAnswerSet) address => address ∈ (output.addresses.lookup owner).getD [])
    (fun record address => record.name.canonicalWire = owner ∧ addressOf record = some address)
    adds folded address
  simpa using all

theorem foldlM_wellFormed (folded : records.foldlM (visitAddress packet) output = .ok answers) :
    WellFormedAddresses records := by
  induction records generalizing output with
  | nil => simp [WellFormedAddresses]
  | cons record rest ih =>
    rw [List.foldlM_cons, bind_eq_ok] at folded
    obtain ⟨next, first, folded⟩ := folded
    intro other member kind
    rcases List.mem_cons.1 member with rfl | inRest
    · cases visitAddress_eq_ok.1 first with
      | «alias» cls rrType inserted => exact absurd rrType (isAddressRecord_type kind).1
      | dname cls rrType inserted => exact absurd rrType (isAddressRecord_type kind).2
      | address kind made => exact Option.isSome_iff_exists.2 ⟨_, made⟩
      | other skips =>
        obtain ⟨cls, a | aaaa⟩ := kind
        · exact absurd a (skips cls).2.2.1
        · exact absurd aaaa (skips cls).2.2.2
    · exact ih folded other inRest kind

theorem any_lookup (entries : Redirects) (p : Bytes → Bool) :
    (entries.any fun entry => p entry.1) = true ↔ ∃ owner, (entries.lookup owner).isSome ∧ p owner = true := by
  rw [List.any_eq_true]
  constructor
  · rintro ⟨⟨owner, target⟩, member, holds⟩
    refine ⟨owner, ?_, holds⟩
    rw [Option.isSome_iff_ne_none, ne_eq, List.lookup_eq_none_iff]
    intro away
    simpa using away _ member
  · rintro ⟨owner, known, holds⟩
    obtain ⟨target, found⟩ := Option.isSome_iff_exists.1 known
    obtain ⟨front, rear, split, -⟩ := List.lookup_eq_some_iff.1 found
    exact ⟨(owner, target), by rw [split]; simp, holds⟩


theorem TakesTargets.owners {σ : Type} {visit : σ → ResourceRecord → Except WireError σ}
    {redirects : σ → Redirects} (takes : TakesTargets packet visit rrType redirects) {start final : σ}
    (folded : records.foldlM visit start = .ok final) (owner : Bytes) :
    ((redirects final).lookup owner).isSome ↔ ((redirects start).lookup owner).isSome ∨
      ∃ record ∈ records, record.cls = classIn ∧ record.rrType = rrType ∧ record.name.canonicalWire = owner := by
  refine foldlM_origin (fun state owner => ((redirects state).lookup owner).isSome)
    (fun record owner => record.cls = classIn ∧ record.rrType = rrType ∧
      record.name.canonicalWire = owner) ?_ folded owner
  intro state record next visited owner
  obtain ⟨reads, adds⟩ := takes state record next visited
  rw [adds owner, Option.isSome_or, Bool.or_eq_true]
  apply or_congr Iff.rfl
  unfold targetOf
  constructor
  · intro some
    by_contra away
    rw [if_neg away] at some
    cases some
  · intro here
    obtain ⟨target, stop, read⟩ := reads here.1 here.2.1
    rw [if_pos here, read]
    rfl

theorem foldlM_collects (folded : records.foldlM (visitAddress packet) ⟨[], [], []⟩ = .ok answers) :
    Collects packet records answers.aliases answers.dnames := by
  refine ⟨fun owner => ?_, fun owner => ?_⟩
  · simpa using visitAddress_aliases.all folded owner
  · simpa using visitAddress_dnames.all folded owner

theorem aliases_apart_iff (folded : records.foldlM (visitAddress packet) ⟨[], [], []⟩ = .ok answers)
    (noDname : ∀ owner, (answers.aliases.lookup owner).isSome → ¬ (answers.dnames.lookup owner).isSome) :
    (answers.aliases.any fun entry =>
      (answers.addresses.lookup entry.1).isSome || (answers.dnames.lookup entry.1).isSome) = false ↔
      AliasesApart records := by
  have owners := visitAddress_aliases.owners folded
  simp only [List.lookup_nil, Option.isSome_none, Bool.false_eq_true, false_or] at owners
  have clash := any_lookup answers.aliases fun owner =>
    (answers.addresses.lookup owner).isSome || (answers.dnames.lookup owner).isSome
  rw [← Bool.not_eq_true, clash]
  constructor
  · intro apart record member other member' cls cname kind same
    refine apart ⟨record.name.canonicalWire, (owners _).2 ⟨record, member, cls, cname, rfl⟩, ?_⟩
    rw [Bool.or_eq_true]
    exact .inl ((foldlM_hasAddress folded _).2 ⟨other, member', kind, same⟩)
  · rintro apart ⟨owner, known, clash⟩
    rcases Bool.or_eq_true _ _ ▸ clash with address | dname
    · obtain ⟨record, member, cls, cname, rfl⟩ := (owners owner).1 known
      obtain ⟨other, member', kind, same⟩ := (foldlM_hasAddress folded _).1 address
      exact apart record member other member' cls cname kind same
    · exact noDname owner known dname

end

section
variable {packet : Packet} {question : Question}

theorem answerSection_one (parsed : Header.parse packet = .ok header) (response : header.isResponse = true)
    (one : header.questionCount = 1) (asked : parseQuestion packet dnsHeaderLen = .ok question)
    (answered : parseRecords packet header.answerCount question.nextOffset = .ok (records, stop)) :
    answerSection packet = .ok records := by
  refine answerSection_eq_ok.2 ⟨header, [question], question.nextOffset, stop, parsed, response, ?_, answered⟩
  rw [one]
  simp only [parseQuestions, asked, ok_bind]
  rfl

theorem classifyRedirectAnswer_eq_ok {answer : RedirectAnswer} (answered : answer ≠ .noData)
    (classified : classifyRedirectAnswer packet = .ok answer) :
    ∃ header question records stop output, Header.parse packet = .ok header ∧
      header.isResponse = true ∧ header.questionCount = 1 ∧ parseQuestion packet dnsHeaderLen = .ok question ∧
      parseRecords packet header.answerCount question.nextOffset = .ok (records, stop) ∧
      records.foldlM (visitRedirect packet question) ⟨[], [], []⟩ = .ok output ∧
      (output.aliases.any fun entry =>
        output.direct.contains entry.1 || (output.dnames.lookup entry.1).isSome) = false ∧
      classifyRedirectChain question.name output = .ok answer := by
  unfold classifyRedirectAnswer at classified
  obtain ⟨header, parsed, classified⟩ := bind_eq_ok.1 classified
  split at classified
  · cases classified
  · rename_i response
    split at classified
    · cases classified
    · rename_i one
      split at classified
      · cases classified
        exact absurd rfl answered
      · obtain ⟨question, asked, classified⟩ := bind_eq_ok.1 classified
        obtain ⟨output, walked, classified⟩ := bind_eq_ok.1 classified
        obtain ⟨records, stop, answered, folded⟩ := walkRecords_eq_ok.1 walked
        split at classified
        · cases classified
        · rename_i apart
          exact ⟨header, question, records, stop, output, parsed, by simpa using response,
            not_not.1 one, asked, answered, folded, Bool.eq_false_iff.2 apart, classified⟩

theorem extractAddressRecords_eq_ok (parsed : Header.parse packet = .ok header)
    (response : header.isResponse = true) (one : header.questionCount = 1)
    (asked : parseQuestion packet dnsHeaderLen = .ok question)
    (answered : parseRecords packet header.answerCount question.nextOffset = .ok (records, stop))
    (family : Option Int) (found : AddressRecords) :
    extractAddressRecords packet family = .ok found ↔
      ∃ answers, records.foldlM (visitAddress packet) ⟨[], [], []⟩ = .ok answers ∧
        (answers.aliases.any fun entry =>
          (answers.addresses.lookup entry.1).isSome || (answers.dnames.lookup entry.1).isSome) = false ∧
        resolveAddressChain question.name answers family = .ok found := by
  have walked : ∀ answers, walkRecords packet (visitAddress packet) header.answerCount
      question.nextOffset ⟨[], [], []⟩ = .ok answers ↔
        records.foldlM (visitAddress packet) ⟨[], [], []⟩ = .ok answers := by
    intro answers
    rw [walkRecords_eq_ok, answered]
    simp
  rw [extractAddressRecords, parsed, ok_bind]
  simp only [response, Bool.not_true, Bool.false_eq_true, if_false, one, ne_eq, not_true_eq_false, asked,
    ok_bind, parseAddressAnswers, bind_eq_ok, walked]
  constructor
  · rintro ⟨answers, ⟨output, folded, checked⟩, resolved⟩
    split at checked
    · cases checked
    · rename_i apart
      cases pure_eq_ok.1 checked
      exact ⟨answers, folded, Bool.eq_false_iff.2 apart, resolved⟩
  · rintro ⟨answers, folded, apart, resolved⟩
    exact ⟨answers, ⟨answers, folded, by rw [apart]; rfl⟩, resolved⟩


theorem mem_addressesAt
    (parsed : ∀ record ∈ records, ∃ labels, LegalName labels ∧ record.name = nameWith labels)
    (folded : records.foldlM (visitAddress packet) ⟨[], [], []⟩ = .ok answers) {last : Labels}
    (legal : LegalName last) (family : Option Int) (address : IpAddr) :
    address ∈ (addressesAt answers family last).addresses ↔
      HasAddress records (nameWith last).text family address := by
  have owned := foldlM_addresses folded (wireOf (lowered last)) address
  rw [addressesAt, List.mem_filter, owned]
  constructor
  · rintro ⟨⟨record, member, same, made⟩, matched⟩
    obtain ⟨labels, legal', named⟩ := parsed record member
    rw [named] at same
    refine ⟨record, member, ?_, made, matched⟩
    rw [named]
    exact (eqIgnoreAsciiCase_nameWith legal' legal).2 same
  · rintro ⟨record, member, same, made, matched⟩
    obtain ⟨labels, legal', named⟩ := parsed record member
    rw [named] at same
    refine ⟨⟨record, member, ?_, made⟩, matched⟩
    rw [named]
    exact (eqIgnoreAsciiCase_nameWith legal' legal).1 same

end

section
variable {packet : Packet} {question : Question} {records : List ResourceRecord} {output : RedirectSet}

theorem foldlM_redirects_collects (asks : AsksAddresses question)
    (folded : records.foldlM (visitRedirect packet question) ⟨[], [], []⟩ = .ok output) :
    Collects packet records output.aliases output.dnames := by
  refine ⟨fun owner => ?_, fun owner => ?_⟩
  · simpa using (visitRedirect_aliases asks).all folded owner
  · simpa using (visitRedirect_dnames asks).all folded owner

theorem classifyRedirectChain_answeredAt (asks : AsksAddresses question)
    (folded : records.foldlM (visitRedirect packet question) ⟨[], [], []⟩ = .ok output) {labels : Labels}
    {name : Str} {count : Nat} (legal : LegalName labels)
    (classified : classifyRedirectChain (nameWith labels) output = .ok (.direct name count)) :
    ∃ direct, AnsweredAt packet records question.rrType labels direct ∧ LegalName direct ∧
      (nameWith direct).text = name := by
  refine classifyChainFrom_answeredAt (foldlM_redirects_collects asks folded) (fun owner => ?_) legal
    classified
  have origin := foldlM_origin (fun (output : RedirectSet) owner => owner ∈ output.direct)
    (fun record owner => record.cls = classIn ∧ record.rrType = question.rrType ∧
      record.name.canonicalWire = owner) (fun _ _ _ => visitRedirect_direct asks) folded
    (wireOf (lowered owner))
  simpa [HasRecord] using origin

theorem aliases_without_dname (apart : (output.aliases.any fun entry =>
      output.direct.contains entry.1 || (output.dnames.lookup entry.1).isSome) = false) :
    ∀ owner, (output.aliases.lookup owner).isSome → ¬ (output.dnames.lookup owner).isSome := by
  intro owner aliased renamed
  have clash := any_lookup output.aliases fun owner =>
    output.direct.contains owner || (output.dnames.lookup owner).isSome
  rw [← Bool.not_eq_true, clash] at apart
  exact apart ⟨owner, aliased, by rw [renamed, Bool.or_true]⟩

end

/-- A lookup takes the addresses of the name at which a response was found to answer the question
exactly when no alias has an address and the redirections, with a DNAME record taken to redirect its
owner, lead the lookup to that name. -/
theorem extractAddressRecords_direct_iff (packet : Packet) (question : Question)
    (asks : AsksOne packet question) (cls : question.cls = classIn)
    (rrType : question.rrType = typeA ∨ question.rrType = typeAaaa) (name : Str) (count : Nat)
    (classified : classifyRedirectAnswer packet = .ok (.direct name count)) :
    ∃ records, answerSection packet = .ok records ∧ ∀ family, (TakesDirect packet records family name ↔
        (WellFormedAddresses records → AliasesApart records ∧ LedAlike packet records question)) := by
  obtain ⟨header, question', records, stop, output, parsed, response, one, asked, answered, folded,
    apart, chained⟩ := classifyRedirectAnswer_eq_ok (by simp) classified
  obtain ⟨header', parsed', -, asked'⟩ := asks
  cases asked'.symm.trans asked
  have asks : AsksAddresses question := ⟨cls, rrType⟩
  have known := answerSection_one parsed response one asked answered
  refine ⟨records, known, fun family => ?_⟩
  have extracts := extractAddressRecords_eq_ok parsed response one asked answered family
  have named : ∀ record ∈ records, ∃ labels, LegalName labels ∧ record.name = nameWith labels := by
    intro record member
    obtain ⟨start, here⟩ := answerSection_parsed known record member
    obtain ⟨fixed, read, -⟩ := here.fixed
    obtain ⟨labels, -, legal, same⟩ := readName_labels read
    exact ⟨labels, legal, same⟩
  obtain ⟨fixed, read, -⟩ := parseQuestion_eq_ok.1 asked
  obtain ⟨labels, -, legal, labelled⟩ := readName_labels read
  have collects := foldlM_redirects_collects asks folded
  obtain ⟨direct, answeredAt, legalDirect, rfl⟩ :=
    classifyRedirectChain_answeredAt asks folded legal (labelled ▸ chained)
  have noDname := aliases_without_dname apart
  have led : ∀ {last : Labels} {steps : Nat}, steps < maxRedirectChain →
      RedirectChain packet records steps labels last → (nameWith last).text = (nameWith direct).text →
      LegalName last → LedAlike packet records question := by
    intro last steps few chain same legalLast
    obtain rfl := nameText_injective legalLast legalDirect same
    exact ⟨labels, last, steps, legal, labelled, few, chain, answeredAt⟩
  constructor
  · intro takes formed
    obtain ⟨found, extracted⟩ := takes.succeeds formed
    obtain ⟨answers, walked, apart', resolved⟩ := (extracts found).1 extracted
    have collects' := foldlM_collects walked
    rw [resolveAddressChain, labelled] at resolved
    obtain ⟨last, steps, few, chain, legalLast, rfl⟩ := followChain_sound collects' legal resolved
    refine ⟨(aliases_apart_iff walked ?_).1 apart', led few chain (takes.exact _ extracted).1 legalLast⟩
    intro owner
    rw [collects'.aliases, collects'.dnames, ← collects.aliases, ← collects.dnames]
    exact noDname owner
  · intro condition
    have works : WellFormedAddresses records → ∃ answers,
        records.foldlM (visitAddress packet) ⟨[], [], []⟩ = .ok answers ∧
        extractAddressRecords packet family = .ok (addressesAt answers family direct) := by
      intro formed
      obtain ⟨answers, walked⟩ : ∃ answers,
          records.foldlM (visitAddress packet) ⟨[], [], []⟩ = .ok answers :=
        foldlM_visitAddress asks formed rfl rfl folded
      have collects' := foldlM_collects walked
      obtain ⟨aliasesApart, asked', last, steps, legal', labelled', few, chain, answeredAt'⟩ :=
        condition formed
      obtain rfl := (nameWith_inj legal legal').1 (labelled.symm.trans labelled')
      obtain rfl := answeredAt_unique answeredAt answeredAt'
      have none : Behind packet records [] steps := by simp [Behind]
      refine ⟨answers, walked, (extracts _).2 ⟨answers, walked, (aliases_apart_iff walked ?_).2 aliasesApart, ?_⟩⟩
      · intro owner
        rw [collects'.aliases, collects'.dnames, ← collects.aliases, ← collects.dnames]
        exact noDname owner
      · rw [resolveAddressChain, labelled]
        exact followChain_complete collects' legal few chain none
    refine ⟨fun found extracted => ?_, fun formed => ?_⟩
    · obtain ⟨answers, walked, -⟩ := (extracts found).1 extracted
      obtain ⟨answers, walked, extracted'⟩ := works (foldlM_wellFormed walked)
      cases extracted.symm.trans extracted'
      exact ⟨rfl, mem_addressesAt named walked legalDirect family⟩
    · obtain ⟨answers, -, extracted⟩ := works formed
      exact ⟨_, extracted⟩

def plainAnswer : Packet :=
  [0, 1, 0x81, 0x80, 0, 1, 0, 1, 0, 0, 0, 0, 1, 120, 0, 0, 1, 0, 1,
    0xc0, 12, 0, 1, 0, 1, 0, 0, 0, 60, 0, 4, 1, 2, 3, 4]

def plainRecord : ResourceRecord :=
  ⟨⟨['x'], [1, 120, 0]⟩, typeA, classIn, 60, 25, 31, [1, 2, 3, 4], 35⟩

theorem extractAddressRecords_direct_iff_plain : TakesDirect plainAnswer [plainRecord] none ['x'] := by
  have asked : parseQuestion plainAnswer dnsHeaderLen =
      .ok ⟨⟨['x'], [1, 120, 0]⟩, typeA, classIn, 19⟩ := by decide
  obtain ⟨records, known, agrees⟩ := extractAddressRecords_direct_iff plainAnswer
    ⟨⟨['x'], [1, 120, 0]⟩, typeA, classIn, 19⟩ ⟨_, rfl, rfl, asked⟩ rfl (.inl rfl) ['x'] 0
    (by decide)
  have section' : answerSection plainAnswer = .ok [plainRecord] := by decide
  cases section'.symm.trans known
  refine (agrees none).2 fun _ => ⟨?_, [[120]], [[120]], 0, ⟨by simp, by decide⟩, by decide,
    by decide, .stop ⟨by decide, ?_⟩, .here ?_⟩
  · simp [AliasesApart, plainRecord, typeA, typeCname]
  · intro front rear _
    simp [redirectAt, firstTarget, plainRecord, typeA, typeDname]
  · exact ⟨plainRecord, by simp, rfl, rfl, by decide⟩

def dnameAnswer : Packet :=
  [0, 1, 0x81, 0x80, 0, 1, 0, 2, 0, 0, 0, 0, 1, 122, 0, 0, 1, 0, 1,
    0xc0, 12, 0, 39, 0, 1, 0, 0, 0, 60, 0, 3, 1, 119, 0,
    0xc0, 12, 0, 1, 0, 1, 0, 0, 0, 60, 0, 4, 1, 2, 3, 4]

theorem extractAddressRecords_leaves_direct :
    AsksOne dnameAnswer ⟨⟨['z'], [1, 122, 0]⟩, typeA, classIn, 19⟩ ∧
    classifyRedirectAnswer dnameAnswer = .ok (.direct ['z'] 0) ∧
    extractAddressRecords dnameAnswer none = .ok ⟨[], ['w']⟩ := by
  refine ⟨⟨_, rfl, rfl, ?_⟩, ?_, ?_⟩ <;> decide

end Resolved.Proof.Wire
