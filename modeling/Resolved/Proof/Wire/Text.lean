import Resolved.Lib.Separated
import Resolved.Proof.Wire.Labels

/-!
# Names as text

`display_label` writes an octet as itself or as a backslash and three digits, and `encode_name`
takes every character of its argument as an octet.
-/

namespace Resolved.Proof.Wire
open Lib Resolved.Wire Spec

variable {byte : UInt8} {labels labels' : Labels}

theorem displayByte_shown (shown : ShowsItself byte) : displayByte byte = [Char.ofNat byte.toNat] := by
  simp only [displayByte]
  exact if_pos shown

theorem displayByte_escaped (hidden : ¬ ShowsItself byte) :
    displayByte byte = ['\\', Char.ofNat (48 + byte.toNat / 100),
      Char.ofNat (48 + byte.toNat / 10 % 10), Char.ofNat (48 + byte.toNat % 10)] := by
  simp only [displayByte]
  exact if_neg hidden

theorem displayByte_hidden (hidden : ¬ ShowsItself byte) : (displayByte byte).length = 4 := by
  rw [displayByte_escaped hidden]
  rfl

theorem displayByte_chars (byte : UInt8) : ∀ c ∈ displayByte byte, c ≠ '.' ∧ c.toNat < 128 := by
  intro c member
  have small := byte.toNat_lt
  have code : ∃ n, c = Char.ofNat n ∧ n < 128 ∧ n ≠ 46 := by
    by_cases shown : ShowsItself byte
    · rw [displayByte_shown shown, List.mem_singleton] at member
      unfold ShowsItself at shown
      exact ⟨byte.toNat, member, by omega, by omega⟩
    · rw [displayByte_escaped shown] at member
      simp only [List.mem_cons, List.not_mem_nil, or_false] at member
      rcases member with rfl | rfl | rfl | rfl
      · exact ⟨92, rfl, by omega, by omega⟩
      all_goals exact ⟨_, rfl, by omega, by omega⟩
  obtain ⟨n, rfl, ascii, dot⟩ := code
  have value := toNat_ofNat (by omega : n < 256)
  refine ⟨fun same => dot ?_, by omega⟩
  rw [← value, same]
  rfl

theorem displayLabel_length (label : Bytes) : label.length ≤ (displayLabel label).length := by
  induction label with
  | nil => simp [displayLabel]
  | cons byte rest ih =>
    have one : 1 ≤ (displayByte byte).length := by
      by_cases shown : ShowsItself byte
      · rw [displayByte_shown shown]
        rfl
      · rw [displayByte_hidden shown]
        omega
    simp only [displayLabel, List.flatMap_cons, List.length_append, List.length_cons] at ih ⊢
    omega

theorem displayLabel_shown (same : (displayLabel label).length = label.length) :
    ∀ byte ∈ label, ShowsItself byte := by
  induction label with
  | nil => simp
  | cons byte rest ih =>
    have later := displayLabel_length rest
    have split : (displayLabel (byte :: rest)).length =
        (displayByte byte).length + (displayLabel rest).length := by
      simp [displayLabel]
    rw [split, List.length_cons] at same
    by_cases shown : ShowsItself byte
    · rw [displayByte_shown shown, List.length_singleton] at same
      intro other member
      rcases List.mem_cons.1 member with rfl | inRest
      · exact shown
      · exact ih (by omega) other inRest
    · rw [displayByte_hidden shown] at same
      omega

theorem displayLabel_eq_map (shown : ∀ byte ∈ label, ShowsItself byte) :
    displayLabel label = label.map fun byte => Char.ofNat byte.toNat := by
  induction label with
  | nil => rfl
  | cons byte rest ih =>
    have later := ih fun other member => shown other (by simp [member])
    simp only [displayLabel] at later
    simp [displayLabel, displayByte_shown (shown byte (by simp)), later]

theorem displayLabel_chars (label : Bytes) : ∀ c ∈ displayLabel label, c ≠ '.' ∧ c.toNat < 128 := by
  intro c member
  obtain ⟨byte, -, here⟩ := List.mem_flatMap.1 member
  exact displayByte_chars byte c here

def encodedLabels (labels : List Str) : Bytes :=
  (labels.flatMap fun label => UInt8.ofNat label.length :: label.map fun c => UInt8.ofNat c.toNat) ++ [0]

theorem intercalate_ascii (labels : Labels) : isAscii (['.'].intercalate (labels.map displayLabel)) = true := by
  rw [isAscii, List.all_eq_true]
  intro c member
  rcases mem_intercalate member with rfl | ⟨text, inTexts, here⟩
  · rfl
  · obtain ⟨label, -, rfl⟩ := List.mem_map.1 inTexts
    simpa using (displayLabel_chars label c here).2

theorem encodeName_text (legal : LegalName labels) (named : labels ≠ []) :
    encodeName (nameText (labels.map displayLabel)) =
      if (labels.map displayLabel).any (fun label => label.isEmpty || label.length > 63) then
        .error (.invalidName (nameText (labels.map displayLabel)))
      else if (encodedLabels (labels.map displayLabel)).length > 255 then .error .nameTooLong
      else .ok (encodedLabels (labels.map displayLabel)) := by
  have filled : ∀ text ∈ labels.map displayLabel, text ≠ [] := by
    intro text member
    obtain ⟨label, inLabels, rfl⟩ := List.mem_map.1 member
    have size := (legal.sizes label inLabels).1
    have shown := displayLabel_length label
    exact List.ne_nil_of_length_pos (by omega)
  have parts : labels.map displayLabel ≠ [] := by simpa using named
  have text : nameText (labels.map displayLabel) = ['.'].intercalate (labels.map displayLabel) := by
    rw [nameText, if_neg (by simpa using named)]
  have split : (['.'].intercalate (labels.map displayLabel)).splitOn '.' =
      labels.map displayLabel := by
    refine List.splitOn_intercalate _ (fun text member => ?_) parts
    obtain ⟨label, -, rfl⟩ := List.mem_map.1 member
    exact fun dot => (displayLabel_chars label '.' dot).1 rfl
  -- a dot at the end, or no text at all, would leave an empty part
  have unstripped : stripSuffix (['.'].intercalate (labels.map displayLabel)) ['.'] = none := by
    unfold stripSuffix
    rw [if_neg]
    intro ends
    obtain ⟨front, joined⟩ := List.isSuffixOf_iff_suffix.1 ends
    rw [← joined, List.splitOn_append_cons_self] at split
    exact filled [] (by rw [← split]; simp) rfl
  have nonempty : (['.'].intercalate (labels.map displayLabel)).isEmpty = false := by
    rw [Bool.eq_false_iff, ne_eq, List.isEmpty_iff]
    intro empty
    rw [empty] at split
    exact filled [] (by rw [← split]; simp) rfl
  simp only [encodeName, text, unstripped, Option.getD_none, nonempty, intercalate_ascii labels, Bool.not_true,
    Bool.false_eq_true, if_false, splitAtChar, split, encodedLabels]
  rfl

theorem encodedLabels_cons (label : Bytes) (labels : Labels) :
    encodedLabels ((label :: labels).map displayLabel) = UInt8.ofNat (displayLabel label).length ::
        (displayLabel label).map (fun c => UInt8.ofNat c.toNat) ++ encodedLabels (labels.map displayLabel) := by
  simp [encodedLabels]

theorem encodedLabels_length (labels : Labels) :
    (wireOf labels).length ≤ (encodedLabels (labels.map displayLabel)).length := by
  induction labels with
  | nil => exact le_refl _
  | cons label labels ih =>
    have shown := displayLabel_length label
    rw [wireOf_length_cons, encodedLabels_cons]
    simp only [List.cons_append, List.length_cons, List.length_append, List.length_map]
    omega

theorem encodedLabels_shown (same : (encodedLabels (labels.map displayLabel)).length = (wireOf labels).length) :
    ∀ label ∈ labels, ∀ byte ∈ label, ShowsItself byte := by
  induction labels with
  | nil => simp
  | cons label labels ih =>
    have here := displayLabel_length label
    have later := encodedLabels_length labels
    rw [wireOf_length_cons, encodedLabels_cons] at same
    simp only [List.cons_append, List.length_cons, List.length_append, List.length_map] at same
    intro other member
    rcases List.mem_cons.1 member with rfl | inLabels
    · exact displayLabel_shown (by omega)
    · exact ih (by omega) other inLabels

theorem encodedLabels_eq_wireOf (shown : ∀ label ∈ labels, ∀ byte ∈ label, ShowsItself byte) :
    encodedLabels (labels.map displayLabel) = wireOf labels := by
  induction labels with
  | nil => rfl
  | cons label labels ih =>
    have octets : (displayLabel label).map (fun c => UInt8.ofNat c.toNat) = label := by
      rw [displayLabel_eq_map (shown label (by simp)), List.map_map]
      conv_rhs => rw [← List.map_id label]
      apply List.map_congr_left
      intro byte _
      simp [toNat_ofNat byte.toNat_lt]
    have size : (displayLabel label).length = label.length := by
      conv_rhs => rw [← octets, List.length_map]
    rw [encodedLabels_cons, octets, size, ih fun other member => shown other (by simp [member]), wireOf_cons]

theorem wireOf_map_lower (sizes : ∀ label ∈ labels, label.length ≤ 63) :
    (wireOf labels).map asciiLower = wireOf (lowered labels) := by
  induction labels with
  | nil => rfl
  | cons label labels ih =>
    have size := sizes label (by simp)
    have kept : asciiLower (UInt8.ofNat label.length) = UInt8.ofNat label.length := by
      have value : (UInt8.ofNat label.length).toNat = label.length := by
        simp
        omega
      rw [asciiLower, if_neg]
      rintro ⟨low, -⟩
      have := UInt8.le_iff_toNat_le.1 low
      rw [value] at this
      simp at this
      omega
    rw [wireOf_cons, lowered_cons, wireOf_cons, List.map_append, List.map_cons, kept,
      ih fun other member => sizes other (by simp [member]), List.length_map]

theorem encodeName_shown (legal : LegalName labels) (shown : ∀ label ∈ labels, ∀ byte ∈ label, ShowsItself byte) :
    encodeName (nameWith labels).text = .ok (wireOf labels) := by
  cases labels with
  | nil => rfl
  | cons label labels =>
    simp only [nameWith]
    have texts := encodedLabels_eq_wireOf shown
    rw [encodeName_text legal (by simp), texts, if_neg, if_neg (not_lt.2 legal.total)]
    simp only [List.any_map, List.any_eq_true, Function.comp_apply, Bool.or_eq_true,
      List.isEmpty_iff, decide_eq_true_eq, not_exists, not_and, not_or, not_lt]
    intro other member
    have sizes := legal.sizes other member
    have size : (displayLabel other).length = other.length := by
      rw [displayLabel_eq_map (shown other member), List.length_map]
    exact ⟨List.ne_nil_of_length_pos (by omega), by omega⟩

theorem encodeName_nameWith_iff (legal : LegalName labels) :
    (∃ wire, encodeName (nameWith labels).text = .ok wire ∧ wire.map asciiLower = (nameWith labels).canonicalWire) ↔
      ∀ label ∈ labels, ∀ byte ∈ label, ShowsItself byte := by
  constructor
  · rintro ⟨wire, encoded, same⟩
    cases labels with
    | nil => simp
    | cons label labels =>
      simp only [nameWith] at encoded same
      rw [encodeName_text legal (by simp)] at encoded
      split at encoded
      · cases encoded
      · split at encoded
        · cases encoded
        · cases encoded
          apply encodedLabels_shown
          have lengths := congrArg List.length same
          rwa [List.length_map, wireOf_lowered_length] at lengths
  · intro shown
    exact ⟨wireOf labels, encodeName_shown legal shown,
      wireOf_map_lower fun label member => (legal.sizes label member).2⟩

theorem readName_encodeName_iff (packet : Packet) (offset : Nat) (name : DnsName) (next : Nat)
    (read : readName packet offset = .ok (name, next)) :
    (∃ wire, encodeName name.text = .ok wire ∧ wire.map asciiLower = name.canonicalWire) ↔
      ∃ labels, NameAt packet offset labels ∧ ∀ label ∈ labels, ∀ byte ∈ label, ShowsItself byte := by
  obtain ⟨labels, here, legal, rfl⟩ := readName_labels read
  rw [encodeName_nameWith_iff legal]
  constructor
  · intro shown
    exact ⟨labels, here, shown⟩
  · rintro ⟨labels', here', shown⟩
    obtain rfl := NameAt.unique here here'
    exact shown

theorem readName_encodeName_iff_host :
    ∃ wire, encodeName "Ns-1.example".toList = .ok wire ∧
      wire.map asciiLower = [4, 110, 115, 45, 49, 7, 101, 120, 97, 109, 112, 108, 101, 0] :=
  (readName_encodeName_iff [4, 78, 115, 45, 49, 7, 101, 120, 97, 109, 112, 108, 101, 0] 0
    ⟨"Ns-1.example".toList, [4, 110, 115, 45, 49, 7, 101, 120, 97, 109, 112, 108, 101, 0]⟩ 14
    (by decide)).2
    ⟨[[78, 115, 45, 49], [101, 120, 97, 109, 112, 108, 101]],
      .label rfl (by decide) (by decide) rfl (.label rfl (by decide) (by decide) rfl (.root rfl)),
      by decide +kernel⟩

def spaces : Packet := 20 :: List.replicate 20 32 ++ [0]

theorem encodeName_takes_escapes_literally :
    readName [1, 47, 0] 0 = .ok (⟨"\\047".toList, [1, 47, 0]⟩, 3) ∧
    encodeName "\\047".toList = .ok [4, 92, 48, 52, 55, 0] ∧ ∃ name, readName spaces 0 = .ok (name, 22) ∧
      encodeName name.text = .error (.invalidName name.text) := by
  have slash : readName [1, 47, 0] 0 = .ok (⟨"\\047".toList, [1, 47, 0]⟩, 3) := by decide
  have blank : readName spaces 0 = .ok (⟨(List.replicate 20 "\\032".toList).flatten, spaces⟩, 22) := by decide
  exact ⟨slash, by decide, _, blank, by decide⟩

theorem ofNat_inj (small : n < 256) (small' : m < 256) (same : Char.ofNat n = Char.ofNat m) : n = m := by
  have codes := congrArg Char.toNat same
  rwa [toNat_ofNat small, toNat_ofNat small'] at codes

theorem displayByte_free {byte' : UInt8} {rest rest' : Str}
    (same : displayByte byte ++ rest = displayByte byte' ++ rest') : byte = byte' ∧ rest = rest' := by
  have small := byte.toNat_lt
  have small' := byte'.toNat_lt
  have backslash : ∀ {byte : UInt8}, ShowsItself byte → '\\' ≠ Char.ofNat byte.toNat := by
    intro byte shown clash
    have code := ofNat_inj (by decide) byte.toNat_lt (show Char.ofNat 92 = _ from clash)
    unfold ShowsItself at shown
    omega
  by_cases shown : ShowsItself byte
  · by_cases shown' : ShowsItself byte'
    · rw [displayByte_shown shown, displayByte_shown shown'] at same
      obtain ⟨first, later⟩ := List.cons.inj same
      exact ⟨UInt8.toNat_inj.1 (ofNat_inj small small' first), later⟩
    · rw [displayByte_shown shown, displayByte_escaped shown'] at same
      exact absurd (List.cons.inj same).1.symm (backslash shown)
  · by_cases shown' : ShowsItself byte'
    · rw [displayByte_escaped shown, displayByte_shown shown'] at same
      exact absurd (List.cons.inj same).1 (backslash shown')
    · rw [displayByte_escaped shown, displayByte_escaped shown'] at same
      simp only [List.cons_append, List.nil_append, List.cons.injEq, true_and] at same
      obtain ⟨hundreds, tens, ones, later⟩ := same
      have high := ofNat_inj (by omega) (by omega) hundreds
      have middle := ofNat_inj (by omega) (by omega) tens
      have low := ofNat_inj (by omega) (by omega) ones
      refine ⟨UInt8.toNat_inj.1 ?_, later⟩
      omega

theorem displayLabel_injective (same : displayLabel label = displayLabel label') : label = label' := by
  induction label generalizing label' with
  | nil =>
    have length := displayLabel_length label'
    rw [← same] at length
    exact (List.length_eq_zero_iff.1 (Nat.le_zero.1 length)).symm
  | cons byte rest ih =>
    cases label' with
    | nil =>
      have length := displayLabel_length (byte :: rest)
      rw [same] at length
      cases length
    | cons byte' rest' =>
      simp only [displayLabel, List.flatMap_cons] at same
      obtain ⟨rfl, later⟩ := displayByte_free same
      rw [ih later]

theorem displayLabels_split (named : labels ≠ []) :
    (['.'].intercalate (labels.map displayLabel)).splitOn '.' = labels.map displayLabel := by
  refine List.splitOn_intercalate _ (fun text member => ?_) (by simpa using named)
  obtain ⟨label, -, rfl⟩ := List.mem_map.1 member
  exact fun dot => (displayLabel_chars label '.' dot).1 rfl

theorem nameText_injective (legal : LegalName labels) (legal' : LegalName labels')
    (same : nameText (labels.map displayLabel) = nameText (labels'.map displayLabel)) : labels = labels' := by
  -- the text of the root has an empty label
  have root : ∀ {labels : Labels}, LegalName labels → labels ≠ [] →
      nameText (labels.map displayLabel) ≠ nameText [] := by
    intro labels legal named text
    have split := displayLabels_split named
    rw [nameText, if_neg (by simpa using named)] at text
    rw [text] at split
    obtain ⟨label, member, empty⟩ := List.mem_map.1 (split ▸ (show [] ∈ [[], []] by simp) :
      [] ∈ labels.map displayLabel)
    have size := (legal.sizes label member).1
    have shown := displayLabel_length label
    rw [empty, List.length_nil] at shown
    omega
  by_cases named : labels = []
  · subst named
    by_contra other
    exact root legal' (fun empty => other empty.symm) same.symm
  · by_cases named' : labels' = []
    · subst named'
      exact absurd same (root legal named)
    · rw [nameText, nameText, if_neg (by simpa using named), if_neg (by simpa using named')] at same
      have split := displayLabels_split named
      rw [same, displayLabels_split named'] at split
      exact (List.map_injective_iff.2 (fun _ _ => displayLabel_injective) split).symm

theorem nameWith_inj (legal : LegalName labels) (legal' : LegalName labels') :
    nameWith labels = nameWith labels' ↔ labels = labels' := by
  constructor
  · intro same
    exact nameText_injective legal legal' (congrArg DnsName.text same)
  · rintro rfl
    rfl

theorem displayByte_lower (byte : UInt8) : (displayByte byte).map lowerChar = displayByte (asciiLower byte) := by
  revert byte
  decide +kernel

theorem displayLabel_lower (label : Bytes) :
    (displayLabel label).map lowerChar = displayLabel (label.map asciiLower) := by
  induction label with
  | nil => rfl
  | cons byte rest ih =>
    simp only [displayLabel, List.flatMap_cons, List.map_append, List.map_cons] at ih ⊢
    rw [displayByte_lower, ih]

theorem nameText_cons (label : Bytes) (named : labels ≠ []) :
    nameText ((label :: labels).map displayLabel) =
      displayLabel label ++ '.' :: nameText (labels.map displayLabel) := by
  have joined := intercalate_append '.' [displayLabel label] (labels.map displayLabel) (by simp)
    (by simpa using named)
  rw [nameText, nameText, if_neg (by simp), if_neg (by simpa using named), List.map_cons]
  simpa [List.intercalate, List.intersperse] using joined

theorem nameText_lower (labels : Labels) :
    toAsciiLowercase (nameText (labels.map displayLabel)) = nameText ((lowered labels).map displayLabel) := by
  induction labels with
  | nil => rfl
  | cons label labels ih =>
    by_cases named : labels = []
    · subst named
      simpa [nameText, List.intercalate, List.intersperse, lowered, toAsciiLowercase] using
        displayLabel_lower label
    · have named' : lowered labels ≠ [] := by simpa [lowered] using named
      rw [nameText_cons label named, lowered_cons, nameText_cons _ named', ← ih, ← displayLabel_lower]
      simp only [toAsciiLowercase, List.map_append, List.map_cons]
      rfl

theorem wireOf_injective (legal : LegalName labels) (legal' : LegalName labels')
    (same : wireOf labels = wireOf labels') : labels = labels' :=
  nameOf_unique ⟨rfl, legal.sizes⟩ ⟨same, legal'.sizes⟩

theorem eqIgnoreAsciiCase_nameWith (legal : LegalName labels) (legal' : LegalName labels') :
    eqIgnoreAsciiCase (nameWith labels).text (nameWith labels').text = true ↔
      (nameWith labels).canonicalWire = (nameWith labels').canonicalWire := by
  simp only [eqIgnoreAsciiCase, nameWith, beq_iff_eq, nameText_lower]
  constructor
  · intro same
    rw [nameText_injective (legalName_lowered legal) (legalName_lowered legal') same]
  · intro same
    rw [wireOf_injective (legalName_lowered legal) (legalName_lowered legal') same]

theorem nameText_append (named : front ≠ []) (named' : rear ≠ []) :
    nameText ((front ++ rear).map displayLabel) =
      ['.'].intercalate (front.map displayLabel) ++ '.' :: nameText (rear.map displayLabel) := by
  have joined := intercalate_append '.' (front.map displayLabel) (rear.map displayLabel)
    (by simpa using named) (by simpa using named')
  rw [nameText, nameText, if_neg (by simp [named]), if_neg (by simpa using named'), List.map_append, joined]

theorem nameText_eq_dot (legal : LegalName labels) : nameText (labels.map displayLabel) = ['.'] ↔ labels = [] := by
  constructor
  · intro text
    exact nameText_injective legal ⟨by simp, by simp⟩ text
  · rintro rfl
    rfl

theorem nameText_split (legal : LegalName labels) :
    (if nameText (labels.map displayLabel) = ['.'] then []
      else splitAtChar '.' (nameText (labels.map displayLabel))) = labels.map displayLabel := by
  by_cases named : labels = []
  · subst named
    rfl
  · rw [if_neg (fun text => named ((nameText_eq_dot legal).1 text)), nameText, if_neg (by simpa using named)]
    exact displayLabels_split named

end Resolved.Proof.Wire
