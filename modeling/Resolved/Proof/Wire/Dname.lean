import Resolved.Spec.AnswerRecords
import Resolved.Proof.Wire.Text

/-!
# Rewriting a name by a DNAME record
-/

namespace Resolved.Proof.Wire
open Lib Resolved.Wire Spec

theorem rewriteDnameText_append (legal : LegalName (front ++ rear)) (legal' : LegalName target) :
    rewriteDnameText (nameText ((front ++ rear).map displayLabel)) front.length
        (nameText (target.map displayLabel)) = .ok (nameText ((front ++ target).map displayLabel)) := by
  have kept : (((front ++ rear).map displayLabel).take front.length) = front.map displayLabel := by
    rw [← List.map_take, List.take_left']
    rfl
  simp only [rewriteDnameText]
  rw [nameText_split legal, kept, if_neg (by simp)]
  by_cases named : front = []
  · subst named
    rfl
  · have first : (['.'].intercalate (front.map displayLabel)).isEmpty = false := by
      rw [Bool.eq_false_iff, ne_eq, List.isEmpty_iff]
      intro empty
      have split := displayLabels_split named
      rw [empty] at split
      obtain ⟨label, member, shown⟩ := List.mem_map.1 (split ▸ (show [] ∈ [[]] by simp) :
        [] ∈ front.map displayLabel)
      have size := (legal.sizes label (by simp [member])).1
      have length := displayLabel_length label
      rw [shown, List.length_nil] at length
      omega
    rw [first, if_neg (by simp)]
    by_cases root : target = []
    · subst root
      rw [List.append_nil, if_pos ((nameText_eq_dot legal').2 rfl), nameText, if_neg (by simpa using named)]
    · rw [if_neg (fun text => root ((nameText_eq_dot legal').1 text)), nameText_append named root]

def labelOctets (labels : Labels) : Bytes :=
  labels.flatMap fun label => UInt8.ofNat label.length :: label

theorem labelOctets_append (front rear : Labels) :
    labelOctets (front ++ rear) = labelOctets front ++ labelOctets rear := by
  simp [labelOctets]

theorem lowered_append (front rear : Labels) : lowered (front ++ rear) = lowered front ++ lowered rear := by
  simp [lowered]

theorem wireOf_append (front rear : Labels) : wireOf (front ++ rear) = labelOctets front ++ wireOf rear := by
  simp [wireOf, labelOctets]

theorem legalName_append (sizes : ∀ label ∈ front, 0 < label.length ∧ label.length ≤ 63)
    (legal : LegalName rear) : LegalName (front ++ rear) ↔ (wireOf (front ++ rear)).length ≤ 255 := by
  constructor
  · exact LegalName.total
  · intro total
    refine ⟨fun label member => ?_, total⟩
    rcases List.mem_append.1 member with here | there
    · exact sizes label here
    · exact legal.sizes label there

section
variable {front rear : Labels}

theorem canonicalWire_drop : (nameWith (front ++ rear)).canonicalWire.drop (labelOctets (lowered front)).length =
    wireOf (lowered rear) := by
  simp only [nameWith]
  rw [lowered_append, wireOf_append, List.drop_left']
  rfl

theorem canonicalWire_take : (nameWith (front ++ rear)).canonicalWire.take (labelOctets (lowered front)).length =
    labelOctets (lowered front) := by
  simp only [nameWith]
  rw [lowered_append, wireOf_append, List.take_left']
  rfl

theorem canonicalWire_octet : (nameWith (front ++ rear)).canonicalWire[(labelOctets (lowered front)).length]? =
    (wireOf (lowered rear)).head? := by
  have dropped : (nameWith (front ++ rear)).canonicalWire.drop (labelOctets (lowered front)).length = _ :=
    canonicalWire_drop
  rw [← dropped, List.head?_drop]

theorem rewrittenName_labels (legal : LegalName (front ++ rear)) (legal' : LegalName target) :
    rewrittenName (nameWith (front ++ rear)) (labelOctets (lowered front)).length front.length (nameWith target) =
      if 255 < (wireOf (front ++ target)).length then .error .nameTooLong
      else .ok (nameWith (front ++ target)) := by
  have wire : labelOctets (lowered front) ++ wireOf (lowered target) =
      wireOf (lowered (front ++ target)) := by
    rw [lowered_append, wireOf_append]
  have length := congrArg List.length wire
  rw [wireOf_lowered_length, List.length_append] at length
  simp only [rewrittenName, canonicalWire_take]
  simp only [nameWith, length, wire]
  rw [rewriteDnameText_append legal legal', ok_bind]
  rfl

end

section
variable {dnames : Redirects} {front : Labels} {fuel : Nat}

theorem labelOctets_snoc (front : Labels) (label : Bytes) :
    (labelOctets (lowered (front ++ [label]))).length =
      (labelOctets (lowered front)).length + (label.length + 1) := by
  rw [lowered_append, labelOctets_append, List.length_append]
  simp [labelOctets, lowered]

theorem rewriteDnameFrom_found (legal : LegalName (front ++ rear)) (legal' : LegalName target)
    (found : dnames.lookup (wireOf (lowered rear)) = some (nameWith target)) :
    rewriteDnameFrom (nameWith (front ++ rear)) dnames (fuel + 1) (labelOctets (lowered front)).length
        front.length = if 255 < (wireOf (front ++ target)).length then .error .nameTooLong
      else .ok (some (nameWith (front ++ target))) := by
  rw [rewriteDnameFrom, canonicalWire_drop, found]
  simp only
  rw [rewrittenName_labels legal legal']
  split <;> rfl

theorem rewriteDnameFrom_root (missing : dnames.lookup (wireOf (lowered [])) = none) :
    rewriteDnameFrom (nameWith (front ++ [])) dnames (fuel + 1) (labelOctets (lowered front)).length
      front.length = .ok none := by
  rw [rewriteDnameFrom, canonicalWire_drop, missing]
  simp only
  rw [canonicalWire_octet]
  rfl

theorem rewriteDnameFrom_label (legal : LegalName (front ++ label :: rest))
    (missing : dnames.lookup (wireOf (lowered (label :: rest))) = none) :
    rewriteDnameFrom (nameWith (front ++ label :: rest)) dnames (fuel + 1)
        (labelOctets (lowered front)).length front.length =
      rewriteDnameFrom (nameWith ((front ++ [label]) ++ rest)) dnames fuel
        (labelOctets (lowered (front ++ [label]))).length (front ++ [label]).length := by
  obtain ⟨positive, small⟩ := legal.sizes label (by simp)
  have value : (UInt8.ofNat label.length).toNat = label.length :=
    UInt8.toNat_ofNat_of_lt' (show _ < 256 by omega)
  have head : (wireOf (lowered (label :: rest))).head? = some (UInt8.ofNat label.length) := by
    rw [lowered_cons, wireOf_cons, List.length_map]
    rfl
  have nonzero : UInt8.ofNat label.length ≠ 0 := by
    intro zero
    rw [zero] at value
    simp at value
    omega
  have bounded : ¬ 63 < UInt8.ofNat label.length := by
    rw [UInt8.lt_iff_toNat_lt, value]
    simpa using small
  have inside : ¬ (nameWith (front ++ label :: rest)).canonicalWire.length ≤
      (labelOctets (lowered front)).length + (label.length + 1) := by
    have split : front ++ label :: rest = (front ++ [label]) ++ rest := by simp
    simp only [nameWith]
    rw [split, lowered_append, wireOf_append, List.length_append, labelOctets_snoc]
    have last : 0 < (wireOf (lowered rest)).length := by simp [wireOf]
    omega
  rw [rewriteDnameFrom, canonicalWire_drop, missing]
  simp only
  rw [canonicalWire_octet, head]
  simp only
  rw [if_neg nonzero, if_neg bounded, value, if_neg inside, labelOctets_snoc]
  simp

def TargetsNamed (redirects : Redirects) : Prop :=
  ∀ owner target, redirects.lookup owner = some target → ∃ labels, LegalName labels ∧ target = nameWith labels

structure Rewrites (dnames : Redirects) (before after target : Labels) : Prop where
  legal : LegalName target
  here : dnames.lookup (wireOf (lowered after)) = some (nameWith target)
  closest : ∀ first later, before = first ++ later → later ≠ [] →
    dnames.lookup (wireOf (lowered (later ++ after))) = none

theorem Rewrites.shorter (rewrites : Rewrites dnames before (more ++ after) target)
    (rewrites' : Rewrites dnames (before ++ more) after target') : more = [] := by
  by_contra some
  have missing := rewrites'.closest before more rfl some
  rw [rewrites.here] at missing
  cases missing

theorem Rewrites.unique (rewrites : Rewrites dnames before after target)
    (rewrites' : Rewrites dnames before' after' target') (same : before ++ after = before' ++ after') :
    before = before' ∧ target = target' := by
  have parts : before = before' ∧ after = after' := by
    rcases List.append_eq_append_iff.1 same with ⟨more, rfl, rfl⟩ | ⟨more, rfl, rfl⟩
    · simp [rewrites.shorter rewrites']
    · simp [rewrites'.shorter rewrites]
  obtain ⟨rfl, rfl⟩ := parts
  have found := Option.some.inj (rewrites.here.symm.trans rewrites'.here)
  exact ⟨rfl, (nameWith_inj rewrites.legal rewrites'.legal).1 found⟩

/-- Either no redirection is about a part of the name, or the longest such part is rewritten. -/
theorem rewriteDnameFrom_eq (named : TargetsNamed dnames) (legal : LegalName (front ++ rear))
    (enough : rear.length < fuel) :
    (rewriteDnameFrom (nameWith (front ++ rear)) dnames fuel (labelOctets (lowered front)).length
        front.length = .ok none ∧
      ∀ before after, rear = before ++ after → dnames.lookup (wireOf (lowered after)) = none) ∨
    ∃ before after target, rear = before ++ after ∧ Rewrites dnames before after target ∧
      rewriteDnameFrom (nameWith (front ++ rear)) dnames fuel (labelOctets (lowered front)).length front.length =
        if 255 < (wireOf (front ++ before ++ target)).length then .error .nameTooLong
        else .ok (some (nameWith (front ++ before ++ target))) := by
  induction rear generalizing front fuel with
    obtain ⟨fuel, rfl⟩ := Nat.exists_eq_succ_of_ne_zero (Nat.ne_of_gt (Nat.zero_lt_of_lt enough))
  | nil =>
    cases found : dnames.lookup (wireOf (lowered [])) with
    | some name =>
      obtain ⟨target, legal', rfl⟩ := named _ _ found
      refine .inr ⟨[], [], target, rfl, ⟨legal', found, by simp⟩, ?_⟩
      rw [rewriteDnameFrom_found legal legal' found, List.append_nil]
    | none =>
      refine .inl ⟨rewriteDnameFrom_root found, fun before after split => ?_⟩
      obtain ⟨-, rfl⟩ := List.append_eq_nil_iff.1 split.symm
      exact found
  | cons label rest ih =>
    cases found : dnames.lookup (wireOf (lowered (label :: rest))) with
    | some name =>
      obtain ⟨target, legal', rfl⟩ := named _ _ found
      refine .inr ⟨[], _, target, rfl, ⟨legal', found, by simp⟩, ?_⟩
      rw [rewriteDnameFrom_found legal legal' found, List.append_nil]
    | none =>
      have longer : LegalName ((front ++ [label]) ++ rest) := by simpa using legal
      rw [rewriteDnameFrom_label legal found]
      rcases ih longer (Nat.lt_of_succ_lt_succ enough) with
        ⟨kept, missing⟩ | ⟨before, after, target, rfl, rewrites, run⟩
      · refine .inl ⟨kept, fun before after split => ?_⟩
        cases before with
        | nil => rwa [← List.nil_append after, ← split]
        | cons first before => exact missing before after (List.cons.inj split).2
      · refine .inr ⟨label :: before, after, target, rfl, ⟨rewrites.legal, rewrites.here, ?_⟩, by simpa using run⟩
        intro first later split named
        cases first with
        | nil => rwa [← List.nil_append later, ← split]
        | cons _ first => exact rewrites.closest first later (List.cons.inj split).2 named

theorem rewriteDnameFrom_eq_none (named : TargetsNamed dnames) (legal : LegalName (front ++ rear))
    (enough : rear.length < fuel) :
    rewriteDnameFrom (nameWith (front ++ rear)) dnames fuel (labelOctets (lowered front)).length
        front.length = .ok none ↔
      ∀ before after, rear = before ++ after → dnames.lookup (wireOf (lowered after)) = none := by
  rcases rewriteDnameFrom_eq named legal enough with
    ⟨kept, missing⟩ | ⟨before, after, target, rfl, rewrites, run⟩
  · exact iff_of_true kept missing
  · rw [run]
    constructor
    · split <;> simp
    · intro missing
      cases (missing before after rfl).symm.trans rewrites.here

theorem rewriteDnameFrom_eq_some (named : TargetsNamed dnames) (legal : LegalName (front ++ rear))
    (enough : rear.length < fuel) :
    rewriteDnameFrom (nameWith (front ++ rear)) dnames fuel (labelOctets (lowered front)).length
        front.length = .ok (some next) ↔
      ∃ before after target, rear = before ++ after ∧ Rewrites dnames before after target ∧
        LegalName (front ++ before ++ target) ∧ next = nameWith (front ++ before ++ target) := by
  rcases rewriteDnameFrom_eq named legal enough with
    ⟨kept, missing⟩ | ⟨before, after, target, rfl, rewrites, run⟩
  · rw [kept]
    constructor
    · simp
    · rintro ⟨before, after, target, split, rewrites, -, -⟩
      cases (missing before after split).symm.trans rewrites.here
  · rw [run]
    constructor
    · split
      · simp
      · rename_i room
        intro same
        cases same
        have sizes : ∀ label ∈ front ++ before, 0 < label.length ∧ label.length ≤ 63 :=
          fun label member => legal.sizes label (by simp at member ⊢; tauto)
        exact ⟨before, after, target, rfl, rewrites,
          (legalName_append sizes rewrites.legal).2 (not_lt.1 room), rfl⟩
    · rintro ⟨before', after', target', split, rewrites', fits, rfl⟩
      obtain ⟨rfl, rfl⟩ := rewrites.unique rewrites' split
      rw [if_neg (not_lt.2 fits.total)]

theorem rewriteCoveringFrom_eq (inside : suffixOffset < current.canonicalWire.length) :
    rewriteCoveringFrom current dnames fuel suffixOffset prefixLabels =
      rewriteDnameFrom current dnames fuel suffixOffset prefixLabels := by
  induction fuel generalizing suffixOffset prefixLabels with
  | zero => rfl
  | succ fuel ih =>
    rw [rewriteCoveringFrom, rewriteDnameFrom, if_neg (not_le.2 inside)]
    cases dnames.lookup (current.canonicalWire.drop suffixOffset) with
    | some target => rfl
    | none =>
      simp only
      cases current.canonicalWire[suffixOffset]? with
      | none => rfl
      | some length =>
        simp only
        by_cases zero : length = 0
        · rw [if_pos zero, if_pos zero]
        · rw [if_neg zero, if_neg zero]
          by_cases long : 63 < length
          · rw [if_pos long, if_pos long]
          · rw [if_neg long, if_neg long]
            -- one loop looks at the end of the name before the turn, the other in it
            by_cases outside : current.canonicalWire.length ≤ suffixOffset + (length.toNat + 1)
            · rw [if_pos outside]
              cases fuel with
              | zero => rfl
              | succ fuel => rw [rewriteCoveringFrom, if_pos outside]
            · rw [if_neg outside, ih (not_le.1 outside)]

end

theorem wireOf_length_lt (labels : Labels) : labels.length < (wireOf labels).length := by
  induction labels with
  | nil => simp
  | cons label labels ih =>
    rw [wireOf_length_cons, List.length_cons]
    omega

section
variable {dnames : Redirects} {name : Labels}

theorem nameWith_length_lt (name : Labels) : name.length < (nameWith name).canonicalWire.length := by
  have size := wireOf_length_lt (lowered name)
  simpa [nameWith, lowered] using size

theorem nameWith_tail_lt (label : Bytes) (rest : Labels) :
    rest.length < (nameWith (label :: rest)).canonicalWire.length + 1 := by
  have size := nameWith_length_lt (label :: rest)
  rw [List.length_cons] at size
  omega

theorem rewriteDname_eq_none (named : TargetsNamed dnames) (legal : LegalName name) :
    rewriteDname (nameWith name) dnames = .ok none ↔
      ∀ before after, name = before ++ after → dnames.lookup (wireOf (lowered after)) = none := by
  have whole : LegalName ([] ++ name) := legal
  exact rewriteDnameFrom_eq_none named whole (Nat.lt_succ_of_lt (nameWith_length_lt name))

theorem rewriteDname_eq_some (named : TargetsNamed dnames) (legal : LegalName name) :
    rewriteDname (nameWith name) dnames = .ok (some next) ↔
      ∃ before after target, name = before ++ after ∧ Rewrites dnames before after target ∧
        LegalName (before ++ target) ∧ next = nameWith (before ++ target) := by
  have whole : LegalName ([] ++ name) := legal
  exact rewriteDnameFrom_eq_some named whole (Nat.lt_succ_of_lt (nameWith_length_lt name))

theorem rewriteCoveringDname_label (legal : LegalName (label :: rest)) :
    rewriteCoveringDname (nameWith (label :: rest)) dnames = rewriteDnameFrom (nameWith ([label] ++ rest)) dnames
        ((nameWith (label :: rest)).canonicalWire.length + 1) (labelOctets (lowered [label])).length
        [label].length := by
  obtain ⟨positive, small⟩ := legal.sizes label (by simp)
  have value : (UInt8.ofNat label.length).toNat = label.length :=
    UInt8.toNat_ofNat_of_lt' (show _ < 256 by omega)
  have head : (nameWith (label :: rest)).canonicalWire.head? = some (UInt8.ofNat label.length) := by
    simp only [nameWith]
    rw [lowered_cons, wireOf_cons, List.length_map]
    rfl
  have plain : ¬ (UInt8.ofNat label.length = 0 ∨ 63 < UInt8.ofNat label.length) := by
    rw [UInt8.lt_iff_toNat_lt, ← UInt8.toNat_inj, value]
    simp only [UInt8.reduceToNat]
    omega
  have offset : (labelOctets (lowered [label])).length = label.length + 1 := by
    simp [labelOctets, lowered]
  have inside : label.length + 1 < (nameWith (label :: rest)).canonicalWire.length := by
    have last : 0 < (wireOf rest).length := by simp [wireOf]
    simp only [nameWith]
    rw [wireOf_lowered_length, wireOf_length_cons]
    omega
  rw [rewriteCoveringDname, head]
  simp only
  rw [if_neg plain, value, rewriteCoveringFrom_eq inside, offset]
  rfl

theorem rewriteCoveringDname_eq_some (named : TargetsNamed dnames) (legal : LegalName name) :
    rewriteCoveringDname (nameWith name) dnames = .ok (some next) ↔
      ∃ first before after target, name = first :: before ++ after ∧
        Rewrites dnames before after target ∧ LegalName (first :: before ++ target) ∧
        next = nameWith (first :: before ++ target) := by
  cases name with
  | nil =>
    constructor
    · intro rewritten
      cases rewritten
    · rintro ⟨first, before, after, target, split, -⟩
      cases split
  | cons label rest =>
    have whole : LegalName ([label] ++ rest) := legal
    rw [rewriteCoveringDname_label legal, rewriteDnameFrom_eq_some named whole (nameWith_tail_lt label rest)]
    constructor
    · rintro ⟨before, after, target, rfl, rewrites, fits, rfl⟩
      exact ⟨label, before, after, target, rfl, rewrites, fits, rfl⟩
    · rintro ⟨first, before, after, target, split, rewrites, fits, rfl⟩
      obtain ⟨rfl, rfl⟩ := List.cons.inj split
      exact ⟨before, after, target, rfl, rewrites, fits, rfl⟩

theorem rewriteCoveringDname_eq_none (named : TargetsNamed dnames) (legal : LegalName name)
    (kept : rewriteCoveringDname (nameWith name) dnames = .ok none) (parts : name = front ++ rear)
    (below : front ≠ []) : dnames.lookup (wireOf (lowered rear)) = none := by
  cases front with
  | nil => exact absurd rfl below
  | cons label front =>
    subst parts
    have legal' : LegalName (label :: (front ++ rear)) := legal
    have whole : LegalName ([label] ++ (front ++ rear)) := legal
    rw [List.cons_append, rewriteCoveringDname_label legal',
      rewriteDnameFrom_eq_none named whole (nameWith_tail_lt label _)] at kept
    exact kept front rear rfl

end

end Resolved.Proof.Wire
