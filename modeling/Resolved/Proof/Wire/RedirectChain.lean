import Resolved.Proof.Wire.Dname

/-!
# The walks along the redirections
-/

namespace Resolved.Proof.Wire
open Lib Resolved.Wire Spec

variable {answers : AddressAnswerSet} {family : Option Int} {fuel : Nat} {visited : List Bytes}
  {name : Labels}

section
variable {packet : Packet} {records : List ResourceRecord}

theorem firstTarget_named (found : firstTarget packet records rrType owner = some target) :
    ∃ labels, LegalName labels ∧ target = nameWith labels := by
  obtain ⟨record, -, here⟩ := Option.bind_eq_some_iff.1 found
  obtain ⟨⟨name, stop⟩, read, rfl⟩ := Option.map_eq_some_iff.1 here
  cases result : readName packet record.rdataOffset with
  | error e =>
    rw [result] at read
    cases read
  | ok value =>
    rw [result] at read
    cases read
    obtain ⟨labels, -, legal, named⟩ := readName_labels result
    exact ⟨labels, legal, named⟩

theorem redirectAt_lowered (same : lowered owner = lowered owner') :
    redirectAt packet records rrType owner = redirectAt packet records rrType owner' := by
  rw [redirectAt, redirectAt, same]

theorem lowered_parts (same : lowered (front ++ rear) = lowered (front' ++ rear'))
    (longer : front'.length ≤ front.length) :
    ∃ before after, front = before ++ after ∧ lowered before = lowered front' ∧
      lowered (after ++ rear) = lowered rear' := by
  refine ⟨front.take front'.length, front.drop front'.length, (List.take_append_drop _ _).symm, ?_, ?_⟩
  · have first := congrArg (List.take front'.length) same
    simp only [lowered, ← List.map_take] at first ⊢
    rwa [List.take_append_of_le_length longer, List.take_left' rfl] at first
  · have last := congrArg (List.drop front'.length) same
    simp only [lowered, ← List.map_drop] at last ⊢
    rwa [List.drop_append_of_le_length longer, List.drop_left' rfl] at last

theorem redirected_not_unredirected (redirected : Redirected packet records own name next)
    (same : lowered name = lowered name') : ¬ Unredirected packet records name' := by
  rintro ⟨noAlias, noDname⟩
  cases redirected with
  | cname legal here =>
    rw [redirectAt_lowered same, noAlias] at here
    cases here
  | @dname front rear target legal none covers here closest fits =>
    rw [redirectAt_lowered (show lowered rear = lowered (name'.drop front.length) from ?_),
      noDname (name'.take front.length) _ (List.take_append_drop _ _).symm] at here
    · cases here
    · have last := congrArg (List.drop front.length) same
      simp only [lowered, ← List.map_drop] at last ⊢
      rwa [List.drop_left' rfl] at last

theorem dname_parts (same : lowered (front ++ rear) = lowered (front' ++ rear'))
    (covers : own = true ∨ front' ≠ [])
    (here : redirectAt packet records typeDname rear' = some target)
    (closest : ∀ before after, front = before ++ after → own = true ∨ before ≠ [] → after ≠ [] → redirectAt packet records typeDname (after ++ rear) = none) :
    front.length ≤ front'.length := by
  by_contra shorter
  obtain ⟨before, after, rfl, alike, last⟩ := lowered_parts same (Nat.le_of_not_le shorter)
  have size : before.length = front'.length := by simpa [lowered] using congrArg List.length alike
  have missing := closest before after rfl ?_ ?_
  · rw [redirectAt_lowered last, here] at missing
    cases missing
  · refine covers.imp_right fun named empty => named ?_
    rw [empty, List.length_nil] at size
    exact List.length_eq_zero_iff.1 size.symm
  · rintro rfl
    rw [List.append_nil, size] at shorter
    exact shorter le_rfl

theorem redirected_alike (redirected : Redirected packet records own name next)
    (redirected' : Redirected packet records own name' next') (same : lowered name = lowered name') :
    ∃ count target, next = name.take count ++ target ∧ next' = name'.take count ++ target := by
  cases redirected with
  | cname legal here =>
    cases redirected' with
    | cname legal' here' =>
      rw [redirectAt_lowered same, here', Option.some.injEq, nameWith_inj legal' legal] at here
      exact ⟨0, next, by simp, by simp [here]⟩
    | dname legal' noAlias covers here' closest fits =>
      rw [redirectAt_lowered same, noAlias] at here
      cases here
  | @dname front rear target legal noAlias covers here closest fits =>
    cases redirected' with
    | cname legal' here' =>
      rw [← redirectAt_lowered same, noAlias] at here'
      cases here'
    | @dname front' rear' target' legal' noAlias' covers' here' closest' fits' =>
      have size : front.length = front'.length :=
        le_antisymm (dname_parts same covers' here' closest)
          (dname_parts same.symm covers here closest')
      obtain ⟨-, rears⟩ := List.append_inj (by simpa only [lowered_append] using same)
        (by simpa [lowered] using size)
      rw [redirectAt_lowered rears, here', Option.some.injEq, nameWith_inj legal' legal] at here
      refine ⟨front.length, target, by simp, ?_⟩
      rw [size, List.take_left' rfl, here]

theorem redirected_lowered (redirected : Redirected packet records own name next)
    (redirected' : Redirected packet records own name' next') (same : lowered name = lowered name') :
    lowered next = lowered next' := by
  obtain ⟨count, target, rfl, rfl⟩ := redirected_alike redirected redirected' same
  have front : lowered (name.take count) = lowered (name'.take count) := by
    simpa only [lowered, ← List.map_take] using congrArg (List.take count) same
  rw [lowered_append, lowered_append, front]

theorem redirected_unique (redirected : Redirected packet records own name next)
    (redirected' : Redirected packet records own name next') : next = next' := by
  obtain ⟨count, target, rfl, rfl⟩ := redirected_alike redirected redirected' rfl
  rfl

theorem redirectChain_steps (chain : RedirectChain packet records steps name last)
    (chain' : RedirectChain packet records steps' name' last') (same : lowered name = lowered name') :
    steps = steps' := by
  induction chain generalizing steps' name' with
  | stop unredirected =>
    cases chain' with
    | stop _ => rfl
    | step redirected' _ => exact absurd unredirected (redirected_not_unredirected redirected' same.symm)
  | step redirected rest ih =>
    cases chain' with
    | stop unredirected' => exact absurd unredirected' (redirected_not_unredirected redirected same)
    | step redirected' rest' => rw [ih rest' (redirected_lowered redirected redirected' same)]

theorem answeredAt_unique (answered : AnsweredAt packet records rrType name last)
    (answered' : AnsweredAt packet records rrType name last') : last = last' := by
  induction answered with
  | here owned =>
    cases answered' with
    | here _ => rfl
    | step empty _ _ => exact absurd owned empty
  | step empty redirected rest ih =>
    cases answered' with
    | here owned => exact absurd owned empty
    | step _ redirected' rest' =>
      obtain rfl := redirected_unique redirected redirected'
      exact ih rest'

structure Collects (packet : Packet) (records : List ResourceRecord) (aliases dnames : Redirects) :
    Prop where
  aliases : ∀ owner, aliases.lookup owner = firstTarget packet records typeCname owner
  dnames : ∀ owner, dnames.lookup owner = firstTarget packet records typeDname owner

theorem redirected_legal (redirected : Redirected packet records own name next) : LegalName next := by
  cases redirected with
  | cname legal here => exact legal
  | dname legal noAlias covers here closest fits => exact fits

section
variable {aliases dnames : Redirects} {name : Labels}

theorem Collects.named (collects : Collects packet records aliases dnames) : TargetsNamed dnames := by
  intro owner target found
  rw [collects.dnames] at found
  exact firstTarget_named found

theorem Collects.alias (collects : Collects packet records aliases dnames) :
    aliases.lookup (nameWith name).canonicalWire = redirectAt packet records typeCname name :=
  collects.aliases _

theorem Collects.dname (collects : Collects packet records aliases dnames) :
    dnames.lookup (wireOf (lowered name)) = redirectAt packet records typeDname name :=
  collects.dnames _

theorem rewriteDname_unredirected (collects : Collects packet records aliases dnames) (legal : LegalName name)
    (noAlias : redirectAt packet records typeCname name = none) :
    rewriteDname (nameWith name) dnames = .ok none ↔ Unredirected packet records name := by
  rw [rewriteDname_eq_none collects.named legal]
  simp only [collects.dname]
  exact ⟨fun missing => ⟨noAlias, missing⟩, fun unredirected => unredirected.2⟩

theorem rewriteDname_redirected (collects : Collects packet records aliases dnames) (legal : LegalName name)
    (noAlias : redirectAt packet records typeCname name = none) :
    rewriteDname (nameWith name) dnames = .ok (some next) ↔
      ∃ labels, Redirected packet records true name labels ∧ next = nameWith labels := by
  rw [rewriteDname_eq_some collects.named legal]
  constructor
  · rintro ⟨before, after, target, rfl, rewrites, fits, rfl⟩
    refine ⟨before ++ target, .dname rewrites.legal noAlias (.inl rfl) ?_ ?_ fits, rfl⟩
    · rw [← collects.dname]
      exact rewrites.here
    · intro first later split _ named
      rw [← collects.dname]
      exact rewrites.closest first later split named
  · rintro ⟨labels, redirected, rfl⟩
    cases redirected with
    | cname legal here =>
      rw [noAlias] at here
      cases here
    | @dname front rear target legal' _ covers here closest fits =>
      refine ⟨front, rear, target, rfl, ⟨legal', collects.dname.trans here, ?_⟩, fits, rfl⟩
      intro first later split named
      exact collects.dname.trans (closest first later split (.inl rfl) named)

theorem rewriteCoveringDname_redirected (collects : Collects packet records aliases dnames)
    (legal : LegalName name) (noAlias : redirectAt packet records typeCname name = none)
    (rewritten : rewriteCoveringDname (nameWith name) dnames = .ok (some next)) :
    ∃ labels, Redirected packet records false name labels ∧ next = nameWith labels := by
  obtain ⟨first, before, after, target, rfl, rewrites, fits, rfl⟩ :=
    (rewriteCoveringDname_eq_some collects.named legal).1 rewritten
  refine ⟨first :: before ++ target, .dname rewrites.legal noAlias (.inr (by simp)) ?_ ?_ fits, rfl⟩
  · rw [← collects.dname]
    exact rewrites.here
  · intro front later split covers named
    have inner : front ≠ [] := by simpa using covers
    obtain ⟨label, front, rfl⟩ := List.exists_cons_of_ne_nil inner
    rw [← collects.dname]
    exact rewrites.closest front later (List.cons.inj split).2 named

end

def addressesAt (answers : AddressAnswerSet) (family : Option Int) (name : Labels) : AddressRecords :=
  ⟨((answers.addresses.lookup (wireOf (lowered name))).getD []).filter (familyMatches family),
    (nameWith name).text⟩

theorem followChain_sound (collects : Collects packet records answers.aliases answers.dnames)
    {found : AddressRecords} (legal : LegalName name)
    (followed : followChain answers family fuel visited (nameWith name) = .ok found) :
    ∃ last steps, steps < fuel ∧ RedirectChain packet records steps name last ∧ LegalName last ∧
      found = addressesAt answers family last := by
  induction fuel generalizing visited name with
  | zero => cases followed
  | succ fuel ih =>
    rw [followChain] at followed
    split at followed
    · cases followed
    · -- the rest of the walk starts where the name is redirected to
      have further : ∀ {next : Labels} {visited : List Bytes}, Redirected packet records true name next →
          followChain answers family fuel visited (nameWith next) = .ok found →
          ∃ last steps, steps < fuel + 1 ∧ RedirectChain packet records steps name last ∧
            LegalName last ∧ found = addressesAt answers family last := by
        intro next visited redirected later
        obtain ⟨last, steps, few, chain, legal', same⟩ := ih (redirected_legal redirected) later
        exact ⟨last, steps + 1, Nat.succ_lt_succ few, .step redirected chain, legal', same⟩
      rw [collects.alias] at followed
      cases here : redirectAt packet records typeCname name with
      | some target =>
        rw [here] at followed
        obtain ⟨next, legal', rfl⟩ := firstTarget_named here
        exact further (.cname legal' here) followed
      | none =>
        rw [here] at followed
        obtain ⟨target, rewritten, rest⟩ := bind_eq_ok.1 followed
        cases target with
        | some target =>
          obtain ⟨next, redirected, rfl⟩ :=
            (rewriteDname_redirected collects legal here).1 rewritten
          exact further redirected rest
        | none =>
          cases pure_eq_ok.1 rest
          have unredirected := (rewriteDname_unredirected collects legal here).1 rewritten
          exact ⟨name, 0, Nat.succ_pos _, .stop unredirected, legal, rfl⟩

def Behind (packet : Packet) (records : List ResourceRecord) (visited : List Bytes) (steps : Nat) :
    Prop :=
  ∀ wire ∈ visited, ∃ name last more, LegalName name ∧ wire = wireOf (lowered name) ∧ steps < more ∧
    RedirectChain packet records more name last

theorem Behind.fresh (behind : Behind packet records visited steps) (legal : LegalName name)
    (chain : RedirectChain packet records steps name last) : (nameWith name).canonicalWire ∉ visited := by
  intro member
  obtain ⟨name', last', more, legal', same, longer, chain'⟩ := behind _ member
  have alike := wireOf_injective (legalName_lowered legal) (legalName_lowered legal') same
  rw [redirectChain_steps chain chain' alike] at longer
  exact lt_irrefl _ longer

theorem Behind.visit (behind : Behind packet records visited (steps + 1)) (legal : LegalName name)
    (chain : RedirectChain packet records (steps + 1) name last) :
    Behind packet records ((nameWith name).canonicalWire :: visited) steps := by
  intro wire member
  rcases List.mem_cons.1 member with rfl | earlier
  · exact ⟨name, last, steps + 1, legal, rfl, Nat.lt_succ_self _, chain⟩
  · obtain ⟨name', last', more, legal', same, longer, chain'⟩ := behind wire earlier
    exact ⟨name', last', more, legal', same, Nat.lt_of_succ_lt longer, chain'⟩

theorem followChain_complete (collects : Collects packet records answers.aliases answers.dnames) {steps : Nat}
    {last : Labels} (legal : LegalName name) (few : steps < fuel)
    (chain : RedirectChain packet records steps name last) (behind : Behind packet records visited steps) :
    followChain answers family fuel visited (nameWith name) = .ok (addressesAt answers family last) := by
  induction fuel generalizing visited name steps with
  | zero => cases few
  | succ fuel ih =>
    have fresh := behind.fresh legal chain
    rw [followChain, if_neg fresh, collects.alias]
    cases chain with
    | stop unredirected =>
      have rewritten := (rewriteDname_unredirected collects legal unredirected.1).2 unredirected
      rw [unredirected.1, rewritten]
      rfl
    | @step steps _ next _ redirected rest =>
      have later := ih (redirected_legal redirected) (Nat.lt_of_succ_lt_succ few) rest
        (behind.visit legal (.step redirected rest))
      cases here : redirectAt packet records typeCname name with
      | some target =>
        cases redirected with
        | cname _ here' =>
          cases here.symm.trans here'
          exact later
        | dname _ noAlias _ _ _ _ => cases here.symm.trans noAlias
      | none =>
        have rewritten := (rewriteDname_redirected collects legal here).2 ⟨next, redirected, rfl⟩
        rw [rewritten]
        exact later

theorem classifyChainFrom_answeredAt {answers : RedirectSet} {rrType : Nat}
    (collects : Collects packet records answers.aliases answers.dnames)
    (direct : ∀ name, wireOf (lowered name) ∈ answers.direct ↔ HasRecord records rrType name)
    {redirects count : Nat} {text : Str} (legal : LegalName name)
    (classified : classifyChainFrom answers fuel visited redirects (nameWith name) = .ok (.direct text count)) :
    ∃ last, AnsweredAt packet records rrType name last ∧ LegalName last ∧ (nameWith last).text = text := by
  induction fuel generalizing visited redirects name with
  | zero => cases classified
  | succ fuel ih =>
    rw [classifyChainFrom] at classified
    split at classified
    · cases classified
    · split at classified
      · rename_i owned
        cases classified
        exact ⟨name, .here ((direct name).1 owned), legal, rfl⟩
      · rename_i missing
        have empty : ¬ HasRecord records rrType name := fun owned => missing ((direct name).2 owned)
        -- the rest of the walk starts where the name is redirected to
        have further : ∀ {next : Labels} {visited : List Bytes} {redirects : Nat},
            Redirected packet records false name next →
            classifyChainFrom answers fuel visited redirects (nameWith next) = .ok (.direct text count) →
            ∃ last, AnsweredAt packet records rrType name last ∧ LegalName last ∧
              (nameWith last).text = text := by
          intro next visited redirects redirected later
          obtain ⟨last, answered, legal', same⟩ := ih (redirected_legal redirected) later
          exact ⟨last, .step empty redirected answered, legal', same⟩
        rw [collects.alias] at classified
        cases here : redirectAt packet records typeCname name with
        | some target =>
          obtain ⟨next, legal', rfl⟩ := firstTarget_named here
          simp only [here, ok_bind] at classified
          split at classified
          · cases classified
          · exact further (.cname legal' here) classified
        | none =>
          simp only [here, bind_eq_ok] at classified
          obtain ⟨target, rewritten, rest⟩ := classified
          cases target with
          | none =>
            simp only at rest
            split at rest <;> cases rest
          | some target =>
            obtain ⟨next, redirected, rfl⟩ :=
              rewriteCoveringDname_redirected collects legal here rewritten
            simp only at rest
            split at rest
            · cases rest
            · exact further redirected rest

end

end Resolved.Proof.Wire
