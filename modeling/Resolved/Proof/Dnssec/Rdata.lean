import Resolved.Proof.Wire.NameIn
import Resolved.Proof.Wire.Frame

/-!
# Canonical RDATA

`canonical_rdata` finds the names of the RDATA and nothing else: what it returns is the content of
the RDATA with its names in lower case and without compression.
-/

namespace Resolved.Proof.Dnssec
open Lib Resolved.Wire Resolved.Dnssec Spec Proof.Wire

theorem skipStrings_of_strings {packet : Packet} {limit offset stop : Nat} {strings : List Bytes}
    (small : ∀ octets ∈ strings, octets.length < 256) (room : stop ≤ limit)
    (written : slice packet offset stop = some (strings.flatMap characterString)) :
    skipStrings packet limit strings.length offset = .ok stop := by
  induction strings generalizing offset with
  | nil =>
    have length := slice_length written
    have ordered := (slice_eq_some.1 written).1
    obtain rfl : stop = offset := by
      simp at length
      omega
    rfl
  | cons octets strings ih =>
    obtain ⟨first, rest⟩ := slice_append.1 written
    have ordered := (slice_eq_some.1 rest).1
    rw [characterString, ← List.singleton_append] at first
    have byte := (slice_singleton (slice_append.1 first).1).1
    have octet : (UInt8.ofNat octets.length).toNat = octets.length := by
      rw [UInt8.toNat_ofNat']
      exact Nat.mod_eq_of_lt (small octets (by simp))
    have width : (characterString octets).length = 1 + octets.length := by
      rw [characterString, List.length_cons]
      omega
    rw [width] at rest ordered
    rw [List.length_cons, skipStrings, byte, okOr_some, ok_bind, octet, if_neg (by omega)]
    exact ih (fun other member => small other (by simp [member])) rest

theorem strings_of_skipStrings (skipped : skipStrings packet limit count offset = .ok stop)
    (inside : stop ≤ packet.length) :
    offset ≤ stop ∧ ∃ strings : List Bytes, strings.length = count ∧ (∀ octets ∈ strings, octets.length < 256) ∧
      slice packet offset stop = some (strings.flatMap characterString) := by
  induction count generalizing offset with
  | zero =>
    obtain rfl : offset = stop := by simpa [skipStrings] using skipped
    exact ⟨le_rfl, [], rfl, by simp, slice_eq_some.2 ⟨le_rfl, inside, by simp⟩⟩
  | succ count ih =>
    simp only [skipStrings, bind_eq_ok, okOr_eq_ok] at skipped
    obtain ⟨length, byte, rest⟩ := skipped
    split at rest
    · simp at rest
    · obtain ⟨past, strings, counted, small, written⟩ := ih rest
      have bounded := length.toNat_lt
      obtain ⟨octets, part⟩ : ∃ octets,
          slice packet (offset + 1) (offset + 1 + length.toNat) = some octets := by
        rw [slice, if_pos (by omega)]
        exact ⟨_, rfl⟩
      have size : octets.length = length.toNat := by
        rw [slice_length part]
        omega
      refine ⟨by omega, octets :: strings, by simp [counted], ?_, ?_⟩
      · intro other member
        rcases List.mem_cons.1 member with rfl | member
        · omega
        · exact small other member
      · have first : slice packet offset (offset + 1) = some [length] := by
          rw [slice, if_pos ⟨by omega, getElem?_lt byte⟩, Nat.add_sub_cancel_left]
          rw [List.drop_eq_getElem_cons (getElem?_lt byte)]
          rw [List.getElem?_eq_getElem (getElem?_lt byte), Option.some.injEq] at byte
          rw [byte]
          rfl
        rw [List.flatMap_cons, characterString, size, UInt8.ofNat_toNat, ← List.singleton_append,
          List.append_assoc]
        refine slice_append.2 ⟨first, slice_append.2 ⟨?_, ?_⟩⟩
        · rw [List.length_singleton, size]
          exact part
        · rw [List.length_singleton, size, Nat.add_assoc]
          exact written

theorem namesIn_le (here : NamesIn packet limit offset names stop) : offset + names.length ≤ stop := by
  induction here with
  | nil => simp
  | cons here few legal rest ih =>
    have := nameIn_lt here
    rw [List.length_cons]
    omega

theorem namesIn_one {packet : Packet} {start stop : Nat} {names : List Labels}
    (here : NamesIn packet 128 start names stop) (one : names.length = 1) :
    ∃ labels, names = [labels] ∧ readName packet start = .ok (nameWith labels, stop) := by
  cases here with
  | nil => cases one
  | cons here few legal rest =>
    cases rest with
    | nil => exact ⟨_, rfl, readName_of_nameIn here few legal⟩
    | cons => simp at one

theorem namesIn_two {packet : Packet} {start stop : Nat} {names : List Labels}
    (here : NamesIn packet 128 start names stop) (two : names.length = 2) :
    ∃ first second middle, names = [first, second] ∧ readName packet start = .ok (nameWith first, middle) ∧
      readName packet middle = .ok (nameWith second, stop) := by
  cases here with
  | nil => cases two
  | cons here few legal rest =>
    obtain ⟨second, rfl, read⟩ := namesIn_one rest (by simpa using two)
    exact ⟨_, second, _, rfl, readName_of_nameIn here few legal, read⟩

section
variable {packet : Packet} {record : ResourceRecord} {content : RdataContent} {start stop : Nat}
  (rdata : slice packet record.rdataOffset record.nextOffset = some record.rdata)
  (lead : slice packet record.rdataOffset start = some content.lead)
  (names : NamesIn packet 128 start content.names stop)
  (tail : slice packet stop record.nextOffset = some content.tail)
include rdata lead names tail

theorem content_places :
    record.rdataOffset + content.lead.length = start ∧
      content.lead.length + content.names.length ≤ record.rdata.length ∧
      stop ≤ record.nextOffset ∧ record.rdata.take content.lead.length = content.lead := by
  have width := slice_length rdata
  have leadWidth := slice_length lead
  have leadOrder := (slice_eq_some.1 lead).1
  have tailOrder := (slice_eq_some.1 tail).1
  have between := namesIn_le names
  exact ⟨by omega, by omega, tailOrder, slice_take rdata lead (by omega)⟩

theorem canonicalSingleName_of_content (one : content.names.length = 1) :
    canonicalSingleName packet record content.lead.length = .ok content.lowered.wire := by
  obtain ⟨place, width, past, taken⟩ := content_places rdata lead names tail
  obtain ⟨labels, only, read⟩ := namesIn_one names one
  simp only [canonicalSingleName, place, read, tail, okOr_some, ok_bind, taken]
  rw [if_neg (by omega), if_neg (by omega)]
  simp [RdataContent.lowered, RdataContent.wire, only, nameWith, pure, Except.pure]

theorem canonicalTwoNames_of_content (two : content.names.length = 2) (none : content.tail = []) :
    canonicalTwoNames packet record content.lead.length = .ok content.lowered.wire := by
  obtain ⟨place, width, past, taken⟩ := content_places rdata lead names tail
  obtain ⟨first, second, middle, both, read, read'⟩ := namesIn_two names two
  have empty := slice_length tail
  rw [none, List.length_nil] at empty
  simp only [canonicalTwoNames, place, read, read', ok_bind, taken]
  rw [if_neg (by omega), if_neg (by omega)]
  simp [RdataContent.lowered, RdataContent.wire, both, none, nameWith, pure, Except.pure]

theorem canonicalSoa_of_content (nothing : content.lead = []) (two : content.names.length = 2)
    (integers : content.tail.length = 20) : canonicalSoa packet record = .ok content.lowered.wire := by
  obtain ⟨place, -, -, -⟩ := content_places rdata lead names tail
  rw [nothing, List.length_nil, Nat.add_zero] at place
  obtain ⟨first, second, middle, both, read, read'⟩ := namesIn_two names two
  simp only [canonicalSoa, place, read, read', tail, okOr_some, ok_bind]
  rw [if_neg (by omega)]
  simp [RdataContent.lowered, RdataContent.wire, both, nothing, nameWith, pure, Except.pure]

theorem canonicalNaptr_of_content {fixed : Bytes} {strings : List Bytes} (four : fixed.length = 4)
    (three : strings.length = 3) (small : ∀ octets ∈ strings, octets.length < 256)
    (written : content.lead = fixed ++ strings.flatMap characterString) (one : content.names.length = 1)
    (none : content.tail = []) : canonicalNaptr packet record = .ok content.lowered.wire := by
  obtain ⟨place, width, past, taken⟩ := content_places rdata lead names tail
  obtain ⟨labels, only, read⟩ := namesIn_one names one
  have empty := slice_length tail
  rw [none, List.length_nil] at empty
  have strings_ge : 3 ≤ (strings.flatMap characterString).length := by
    rw [← three, List.length_flatMap]
    calc strings.length = (strings.map fun _ => 1).sum := by simp
      _ ≤ _ := List.sum_le_sum fun octets _ => by simp [characterString]
  have long : 7 ≤ content.lead.length := by
    rw [written, List.length_append]
    omega
  have skipped : skipStrings packet record.nextOffset 3 (record.rdataOffset + 4) = .ok start := by
    have parts := lead
    rw [written] at parts
    rw [← three, ← four]
    refine skipStrings_of_strings small ?_ (slice_append.1 parts).2
    have := namesIn_le names
    omega
  simp only [canonicalNaptr, skipped, read, lead, okOr_some, ok_bind]
  rw [if_neg (by omega), if_neg (by omega)]
  simp [RdataContent.lowered, RdataContent.wire, only, none, nameWith, pure, Except.pure]

end

theorem canonicalRdata_of_content {packet : Packet} {record : ResourceRecord} {content : RdataContent}
    (rdata : slice packet record.rdataOffset record.nextOffset = some record.rdata)
    (here : RdataAt packet 128 record content) : canonicalRdata packet record = .ok content.lowered.wire := by
  obtain ⟨⟨start, stop, lead, names, tail⟩, fits⟩ := here
  unfold canonicalRdata
  cases form : rdataForm record.rrType with rw [form] at fits
  | singleName count =>
    obtain ⟨rfl, one⟩ := fits
    exact canonicalSingleName_of_content rdata lead names tail one
  | twoNames count =>
    obtain ⟨rfl, two, none⟩ := fits
    exact canonicalTwoNames_of_content rdata lead names tail two none
  | soa =>
    obtain ⟨nothing, two, integers⟩ := fits
    exact canonicalSoa_of_content rdata lead names tail nothing two integers
  | naptr =>
    obtain ⟨⟨fixed, strings, four, three, small, written⟩, one, none⟩ := fits
    exact canonicalNaptr_of_content rdata lead names tail four three small written one none
  | plain =>
    obtain ⟨noNames, none⟩ := fits
    obtain ⟨place, -, -, -⟩ := content_places rdata lead names tail
    rw [noNames] at names
    cases names
    rw [← place] at lead tail
    have whole := slice_append.2 ⟨lead, tail⟩
    rw [rdata, Option.some.injEq] at whole
    simp [RdataContent.lowered, RdataContent.wire, noNames, whole]

structure CanonicalContent (content : RdataContent) : Prop where
  legal : ∀ labels ∈ content.names, LegalName labels
  lower : content.lowered = content

theorem readName_lowered (read : readName packet offset = .ok (name, next)) :
    ∃ labels, LegalName labels ∧ lowered labels = labels ∧ name.canonicalWire = wireOf labels := by
  obtain ⟨labels, -, legal, rfl⟩ := readName_labels read
  exact ⟨lowered labels, legalName_lowered legal, lowered_idem labels, rfl⟩

theorem content_of_canonicalSingleName (done : canonicalSingleName packet record count = .ok output) :
    ∃ content, Fits (.singleName count) content ∧ CanonicalContent content ∧ output = content.wire := by
  simp only [canonicalSingleName] at done
  split at done
  · cases done
  · rename_i long
    simp only [bind_eq_ok, Prod.exists] at done
    obtain ⟨name, next, read, done⟩ := done
    split at done
    · simp at done
    · simp only [bind_eq_ok, okOr_eq_ok, pure_eq_ok] at done
      obtain ⟨tail, -, rfl⟩ := done
      obtain ⟨labels, legal, lower, wire⟩ := readName_lowered read
      refine ⟨⟨record.rdata.take count, [labels], tail⟩, ⟨?_, rfl⟩, ⟨?_, ?_⟩, ?_⟩
      · simp
        omega
      · simpa using legal
      · simp [RdataContent.lowered, lower]
      · simp [RdataContent.wire, wire]

theorem content_of_canonicalTwoNames (done : canonicalTwoNames packet record count = .ok output) :
    ∃ content, Fits (.twoNames count) content ∧ CanonicalContent content ∧ output = content.wire := by
  simp only [canonicalTwoNames] at done
  split at done
  · cases done
  · rename_i long
    simp only [bind_eq_ok, Prod.exists] at done
    obtain ⟨first, middle, read, second, stop, read', done⟩ := done
    split at done
    · simp at done
    · obtain rfl := pure_eq_ok.1 done
      obtain ⟨labels, legal, lower, wire⟩ := readName_lowered read
      obtain ⟨labels', legal', lower', wire'⟩ := readName_lowered read'
      refine ⟨⟨record.rdata.take count, [labels, labels'], []⟩, ⟨?_, rfl, rfl⟩, ⟨?_, ?_⟩, ?_⟩
      · simp
        omega
      · simpa using ⟨legal, legal'⟩
      · simp [RdataContent.lowered, lower, lower']
      · simp [RdataContent.wire, wire, wire']

theorem content_of_canonicalSoa (done : canonicalSoa packet record = .ok output) :
    ∃ content, Fits .soa content ∧ CanonicalContent content ∧ output = content.wire := by
  simp only [canonicalSoa, bind_eq_ok, Prod.exists, okOr_eq_ok] at done
  obtain ⟨first, middle, read, second, stop, read', tail, -, done⟩ := done
  split at done
  · simp at done
  · rename_i integers
    obtain rfl := pure_eq_ok.1 done
    obtain ⟨labels, legal, lower, wire⟩ := readName_lowered read
    obtain ⟨labels', legal', lower', wire'⟩ := readName_lowered read'
    refine ⟨⟨[], [labels, labels'], tail⟩, ⟨rfl, rfl, not_not.1 integers⟩, ⟨?_, ?_⟩, ?_⟩
    · simpa using ⟨legal, legal'⟩
    · simp [RdataContent.lowered, lower, lower']
    · simp [RdataContent.wire, wire, wire']

theorem content_of_canonicalNaptr (done : canonicalNaptr packet record = .ok output) :
    ∃ content, Fits .naptr content ∧ CanonicalContent content ∧ output = content.wire := by
  simp only [canonicalNaptr] at done
  split at done
  · cases done
  · simp only [bind_eq_ok, Prod.exists] at done
    obtain ⟨offset, skipped, name, stop, read, done⟩ := done
    split at done
    · simp at done
    · simp only [bind_eq_ok, okOr_eq_ok, pure_eq_ok] at done
      obtain ⟨lead, part, rfl⟩ := done
      obtain ⟨labels, legal, lower, wire⟩ := readName_lowered read
      obtain ⟨past, strings, three, small, written⟩ :=
        strings_of_skipStrings skipped (slice_eq_some.1 part).2.1
      obtain ⟨fixed, front⟩ : ∃ fixed,
          slice packet record.rdataOffset (record.rdataOffset + 4) = some fixed := by
        have := (slice_eq_some.1 part).2.1
        rw [slice, if_pos (by omega)]
        exact ⟨_, rfl⟩
      have four : fixed.length = 4 := by
        rw [slice_length front]
        omega
      have whole := slice_append.2 ⟨by rw [four]; exact front, by rw [four]; exact written⟩
      rw [part, Option.some.injEq] at whole
      refine ⟨⟨lead, [labels], []⟩, ⟨⟨fixed, strings, four, three, small, whole⟩, rfl, rfl⟩, ⟨?_, ?_⟩, ?_⟩
      · simpa using legal
      · simp [RdataContent.lowered, lower]
      · simp [RdataContent.wire, wire]

theorem content_of_canonicalRdata (done : canonicalRdata packet record = .ok output) :
    ∃ content, Fits (rdataForm record.rrType) content ∧ CanonicalContent content ∧ output = content.wire := by
  unfold canonicalRdata at done
  cases form : rdataForm record.rrType with
  | singleName count => exact content_of_canonicalSingleName (by simpa only [form] using done)
  | twoNames count => exact content_of_canonicalTwoNames (by simpa only [form] using done)
  | soa => exact content_of_canonicalSoa (by simpa only [form] using done)
  | naptr => exact content_of_canonicalNaptr (by simpa only [form] using done)
  | plain =>
    simp only [form, Except.ok.injEq] at done
    exact ⟨⟨record.rdata, [], []⟩, ⟨rfl, rfl⟩, ⟨by simp, rfl⟩, by simp [RdataContent.wire, done]⟩

theorem rdataAt_of_wire (rdata : slice packet record.rdataOffset record.nextOffset = some record.rdata)
    (written : record.rdata = content.wire) (legal : ∀ labels ∈ content.names, LegalName labels)
    (fits : Fits (rdataForm record.rrType) content) : RdataAt packet limit record content := by
  rw [written, RdataContent.wire] at rdata
  obtain ⟨front, tail⟩ := slice_append.1 rdata
  obtain ⟨lead, names⟩ := slice_append.1 front
  rw [List.length_append] at tail names
  rw [← Nat.add_assoc] at tail
  refine ⟨⟨_, _, lead, namesIn_of_wire legal names, ?_⟩, fits⟩
  rw [← Nat.add_assoc]
  exact tail

theorem canonicalRdata_idempotent (done : canonicalRdata packet record = .ok output)
    (rdata : slice packet' record'.rdataOffset record'.nextOffset = some record'.rdata)
    (type : record'.rrType = record.rrType) (embedded : record'.rdata = output) :
    canonicalRdata packet' record' = .ok output := by
  obtain ⟨content, fits, canonical, rfl⟩ := content_of_canonicalRdata done
  rw [← type] at fits
  rw [canonicalRdata_of_content rdata (rdataAt_of_wire rdata embedded canonical.legal fits), canonical.lower]

end Resolved.Proof.Dnssec
