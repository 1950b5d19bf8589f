import Resolved.Proof.Wire.Dname

/-!
# Well-formed names

What `read_name` returns has its labels in wire format and in its text alike. The rewriters by DNAME
records slice both and check neither, and keep it so.
-/

namespace Resolved.Proof.Wire
open Lib Resolved.Wire Spec

variable {s : NameCursor} {labels : Labels} {dnames : Redirects}

/-- The run of the loop of `read_name` from a state on, with no bound on its turns. -/
inductive NameEnds (packet : Packet) : NameCursor → Except WireError NameCursor → Prop
  | done {s final : NameCursor} (step : nameStep packet s = .ok (.done final)) :
      NameEnds packet s (.ok final)
  | failed {s : NameCursor} {error : WireError} (step : nameStep packet s = .error error) :
      NameEnds packet s (.error error)
  | more {s next : NameCursor} {result : Except WireError NameCursor}
      (step : nameStep packet s = .ok (.more next)) (later : NameEnds packet next result) :
      NameEnds packet s result

def turnsLeft (s : NameCursor) : Nat := (128 - s.pointerSteps) + (255 - s.expandedLength)

theorem turnsLeft_lt {next : NameCursor} (turn : NameTurn packet s (.more next)) :
    turnsLeft next < turnsLeft s := by
  cases turn with
  | pointer first second byte tag byte' back inside steps =>
    simp only [turnsLeft, atPointer]
    omega
  | label length label byte nonzero plain small part room =>
    simp only [turnsLeft, atLabel]
    omega

theorem nameLoop_ends (enough : turnsLeft s < fuel) : NameEnds packet s (nameLoop packet fuel s) := by
  induction fuel generalizing s with
  | zero => omega
  | succ fuel ih =>
    rw [nameLoop]
    cases step : nameStep packet s with
    | error error => exact .failed step
    | ok progress =>
      cases progress with
      | done final => exact .done step
      | more next =>
        have fewer := turnsLeft_lt (nameStep_turn step)
        exact .more step (ih (by omega))

theorem NameSpan.inside {start stop : Nat} (span : NameSpan packet start stop) : stop ≤ packet.length := by
  induction span with
  | root zero => exact getElem?_lt zero
  | pointer byte tag byte' => exact getElem?_lt byte'
  | label byte nonzero plain rest ih => exact ih

structure WellFormed (name : DnsName) (labels : Labels) : Prop where
  wire : name.canonicalWire = wireOf labels
  legal : LegalName labels
  lower : ∀ label ∈ labels, ∀ byte ∈ label, ¬(65 ≤ byte.toNat ∧ byte.toNat ≤ 90)
  root : labels = [] → name.text = ['.']
  parts : labels ≠ [] → (splitAtChar '.' name.text).length = labels.length

theorem asciiLower_not_upper (byte : UInt8) : ¬(65 ≤ (asciiLower byte).toNat ∧ (asciiLower byte).toNat ≤ 90) := by
  revert byte
  decide +kernel

theorem nameWith_wellFormed (legal : LegalName labels) : WellFormed (nameWith labels) (lowered labels) := by
  refine ⟨rfl, legalName_lowered legal, fun label member byte inside => ?_, fun root => ?_, fun named => ?_⟩
  · obtain ⟨origin, -, rfl⟩ := List.mem_map.1 member
    obtain ⟨byte, -, rfl⟩ := List.mem_map.1 inside
    exact asciiLower_not_upper byte
  · obtain rfl := List.map_eq_nil_iff.1 root
    rfl
  · have named' : labels ≠ [] := by
      rintro rfl
      exact named rfl
    have text : nameText (labels.map displayLabel) ≠ ['.'] :=
      fun dot => named' ((nameText_eq_dot legal).1 dot)
    have split := nameText_split legal
    rw [if_neg text] at split
    simp only [nameWith]
    rw [split, lowered, List.length_map, List.length_map]

/-- A name that `read_name` returns, or a rewriter for such names. -/
inductive ProducedName : DnsName → Prop
  | read {packet : Packet} {offset next : Nat} {name : DnsName}
      (reads : readName packet offset = .ok (name, next)) : ProducedName name
  | rewritten {current name : DnsName} {dnames : Redirects} (from' : ProducedName current)
      (targets : ∀ owner target, dnames.lookup owner = some target → ProducedName target)
      (rewrites : rewriteDname current dnames = .ok (some name) ∨
        rewriteCoveringDname current dnames = .ok (some name)) : ProducedName name

theorem rewriters_named (targets : TargetsNamed dnames)
    (legal : LegalName labels) (rewrites : rewriteDname (nameWith labels) dnames = .ok (some name) ∨
      rewriteCoveringDname (nameWith labels) dnames = .ok (some name)) :
    ∃ labels, LegalName labels ∧ name = nameWith labels := by
  rcases rewrites with rewrites | rewrites
  · obtain ⟨before, after, target, -, -, fits, rfl⟩ := (rewriteDname_eq_some targets legal).1 rewrites
    exact ⟨_, fits, rfl⟩
  · obtain ⟨first, before, after, target, -, -, fits, rfl⟩ :=
      (rewriteCoveringDname_eq_some targets legal).1 rewrites
    exact ⟨_, fits, rfl⟩

theorem ProducedName.named (produced : ProducedName name) :
    ∃ labels, LegalName labels ∧ name = nameWith labels := by
  induction produced with
  | read reads =>
    obtain ⟨labels, -, legal, rfl⟩ := readName_labels reads
    exact ⟨labels, legal, rfl⟩
  | rewritten from' targets rewrites here there =>
    obtain ⟨labels, legal, rfl⟩ := here
    exact rewriters_named there legal rewrites

theorem rewriteDnameFrom_valid (targets : TargetsNamed dnames) (legal : LegalName (front ++ rear))
    (enough : rear.length < fuel) :
    rewriteDnameFrom (nameWith (front ++ rear)) dnames fuel (labelOctets (lowered front)).length
      front.length ≠ .error .invalidRecord := by
  rcases rewriteDnameFrom_eq targets legal enough with ⟨kept, -⟩ | ⟨_, _, _, -, -, run⟩
  · simp [kept]
  · rw [run]
    split <;> simp

theorem rewriteDname_valid (targets : TargetsNamed dnames) (legal : LegalName labels) :
    rewriteDname (nameWith labels) dnames ≠ .error .invalidRecord := by
  have whole : LegalName ([] ++ labels) := legal
  exact rewriteDnameFrom_valid targets whole (Nat.lt_succ_of_lt (nameWith_length_lt labels))

theorem rewriteCoveringDname_valid (targets : TargetsNamed dnames) (legal : LegalName labels) :
    rewriteCoveringDname (nameWith labels) dnames ≠ .error .invalidRecord := by
  cases labels with
  | nil => exact fun invalid => by cases invalid
  | cons label rest =>
    have whole : LegalName ([label] ++ rest) := legal
    rw [rewriteCoveringDname_label legal]
    exact rewriteDnameFrom_valid targets whole (nameWith_tail_lt label rest)

structure RewritesWell (rewritten : Except WireError (Option DnsName)) : Prop where
  valid : rewritten ≠ .error .invalidRecord
  wellFormed : ∀ name, rewritten = .ok (some name) → ∃ labels, WellFormed name labels

theorem readName_wellFormed (packet : Packet) (offset : Nat) :
    NameEnds packet (nameStart offset) (nameLoop packet nameFuel (nameStart offset)) ∧
      (∀ name next, readName packet offset = .ok (name, next) →
        offset < next ∧ next ≤ packet.length ∧ ∃ labels, WellFormed name labels) ∧
      ∀ current dnames, ProducedName current →
        (∀ owner target, dnames.lookup owner = some target → ProducedName target) →
        RewritesWell (rewriteDname current dnames) ∧ RewritesWell (rewriteCoveringDname current dnames) := by
  refine ⟨nameLoop_ends (by simp [turnsLeft, nameStart, nameFuel]), fun name next reads => ?_,
    fun current dnames produced produces => ?_⟩
  · obtain ⟨labels, -, legal, rfl⟩ := readName_labels reads
    have span := readName_span reads
    exact ⟨span.lt, span.inside, lowered labels, nameWith_wellFormed legal⟩
  · obtain ⟨labels, legal, rfl⟩ := produced.named
    have targets : TargetsNamed dnames := fun owner target found => (produces owner target found).named
    refine ⟨⟨rewriteDname_valid targets legal, fun name rewrites => ?_⟩,
      ⟨rewriteCoveringDname_valid targets legal, fun name rewrites => ?_⟩⟩
    · obtain ⟨labels, legal, rfl⟩ := rewriters_named targets legal (.inl rewrites)
      exact ⟨lowered labels, nameWith_wellFormed legal⟩
    · obtain ⟨labels, legal, rfl⟩ := rewriters_named targets legal (.inr rewrites)
      exact ⟨lowered labels, nameWith_wellFormed legal⟩

theorem readName_wellFormed_pointer :
    readName [1, 65, 0, 1, 98, 192, 0] 3 = .ok (⟨['b', '.', 'A'], [1, 98, 1, 97, 0]⟩, 7) ∧
      RewritesWell (rewriteDname ⟨['b', '.', 'A'], [1, 98, 1, 97, 0]⟩
        [([1, 97, 0], ⟨['b', '.', 'A'], [1, 98, 1, 97, 0]⟩)]) := by
  have reads : readName [1, 65, 0, 1, 98, 192, 0] 3 = .ok (⟨['b', '.', 'A'], [1, 98, 1, 97, 0]⟩, 7) := by decide
  refine ⟨reads, ?_⟩
  refine ((readName_wellFormed [1, 65, 0, 1, 98, 192, 0] 3).2.2 _ _ (.read reads) ?_).1
  intro owner target found
  simp only [List.lookup_cons, List.lookup_nil] at found
  split at found
  · cases found
    exact .read reads
  · cases found

end Resolved.Proof.Wire
