import Resolved.Lib.PushAll
import Resolved.Proof.Wire.ReverseName

/-!
# Looking up the hosts file
-/

namespace Resolved.Proof.HostsFile
open Lib Resolved.Wire Resolved.HostsFile Spec
open Resolved.Wire.Hosts (canonicalName)

variable {text name : Str} {address : IpAddr} {question : Question} {hosts : Hosts}

section
variable {κ ν : Type} [DecidableEq κ] [DecidableEq ν]

def gather (map : AList fun _ : κ => List ν) (key : κ) (value : ν) : AList fun _ : κ => List ν :=
  map.insert key (pushOnce ((map.lookup key).getD []) value)

theorem lookup_gathered [BEq ν] [LawfulBEq ν] (entries : List (κ × ν)) (key : κ) :
    (entries.foldl (fun map entry => gather map entry.1 entry.2) ∅).lookup key =
      if (entries.filter (·.1 = key)).map (·.2) = [] then none
      else some ((entries.filter (·.1 = key)).map (·.2)).eraseDups := by
  have collected : ∀ found : List ν, found.eraseDups = pushAll [] found := fun found => by
    rw [pushAll_eq_eraseDups]
    simp
  rw [collected]
  induction entries using List.reverseRecOn with
  | nil => rfl
  | append_singleton entries entry ih =>
    rw [List.foldl_concat, List.filter_append, List.map_append, gather]
    by_cases here : entry.1 = key
    · subst here
      rw [AList.lookup_insert, ih]
      simp only [List.filter_cons_of_pos, decide_true, List.filter_nil, List.map_cons,
        List.map_nil, List.append_eq_nil_iff, List.cons_ne_nil, and_false, if_false, pushAll_concat]
      split
      · rename_i empty
        simp [empty, pushAll, pushOnce]
      · rfl
    · rw [AList.lookup_insert_ne (Ne.symm here), ih,
        List.filter_cons_of_neg (by simpa using here), List.filter_nil, List.map_nil, List.append_nil]

end

def put (hosts : Hosts) (entry : IpAddr × Str) : Hosts :=
  ⟨gather hosts.byName entry.2 entry.1, gather hosts.byAddress entry.1 entry.2⟩

theorem enter_names (hosts : Hosts) (address : IpAddr) (names : List Str) :
    names.foldl (Hosts.enter address) hosts =
      (((names.map canonicalName).filter (· ≠ [])).map (address, ·)).foldl put hosts := by
  induction names generalizing hosts with
  | nil => rfl
  | cons name rest ih =>
    rw [List.foldl_cons, ih, List.map_cons]
    by_cases empty : canonicalName name = []
    · simp [Hosts.enter, empty]
    · simp [Hosts.enter, empty, put, gather]

theorem parseLine_eq (hosts : Hosts) (rawLine : Str) :
    hosts.parseLine rawLine = (lineEntries rawLine).foldl put hosts := by
  rw [Hosts.parseLine, lineEntries]
  cases splitWhitespace (rawLine.takeWhile (· ≠ '#')) with
  | nil => rfl
  | cons field names =>
    cases parsed : IpAddr.parse field with
    | none => simp [parsed]
    | some address => simp [parsed, enter_names]

theorem parse_eq (text : Str) : Hosts.parse text = (hostEntries text).foldl put .default := by
  have lines : ∀ (list : List Str) (hosts : Hosts),
      list.foldl Hosts.parseLine hosts = (list.flatMap lineEntries).foldl put hosts := by
    intro list
    induction list with
    | nil => exact fun _ => rfl
    | cons line rest ih =>
      intro hosts
      rw [List.foldl_cons, ih, parseLine_eq, List.flatMap_cons, List.foldl_append]
  exact lines _ _

theorem eraseDups_eq_nil {α : Type} [BEq α] {values : List α} : values.eraseDups = [] ↔ values = [] := by
  cases values with
  | nil => simp
  | cons value rest => simp [List.eraseDups_cons]

theorem byName_lookup (text name : Str) :
    (Hosts.parse text).byName.lookup name =
      if addressesListed text name = [] then none else some (addressesListed text name) := by
  have folded : ∀ (entries : List (IpAddr × Str)) (hosts : Hosts), (entries.foldl put hosts).byName =
        (entries.map Prod.swap).foldl (fun map entry => gather map entry.1 entry.2) hosts.byName := by
    intro entries
    induction entries with
    | nil => exact fun _ => rfl
    | cons entry rest ih => exact fun hosts => ih _
  have listed : ((hostEntries text).map Prod.swap).filter (·.1 = name) =
      ((hostEntries text).filter (·.2 = name)).map Prod.swap := by
    rw [List.filter_map]
    rfl
  rw [parse_eq, folded, addressesListed]
  simp only [eraseDups_eq_nil]
  refine (lookup_gathered _ _).trans ?_
  rw [listed, List.map_map]
  rfl

theorem byAddress_lookup (text : Str) (address : IpAddr) :
    (Hosts.parse text).byAddress.lookup address =
      if namesListed text address = [] then none else some (namesListed text address) := by
  have folded : ∀ (entries : List (IpAddr × Str)) (hosts : Hosts), (entries.foldl put hosts).byAddress =
        entries.foldl (fun map entry => gather map entry.1 entry.2) hosts.byAddress := by
    intro entries
    induction entries with
    | nil => exact fun _ => rfl
    | cons entry rest ih => exact fun hosts => ih _
  rw [parse_eq, folded, namesListed]
  simp only [eraseDups_eq_nil]
  exact lookup_gathered _ _

theorem byName_getD (text name : Str) :
    ((Hosts.parse text).byName.lookup name).getD [] = addressesListed text name := by
  rw [byName_lookup]
  split
  · rename_i empty
    rw [empty]
    rfl
  · rfl

theorem byAddress_getD (text : Str) (address : IpAddr) :
    ((Hosts.parse text).byAddress.lookup address).getD [] = namesListed text address := by
  rw [byAddress_lookup]
  split
  · rename_i empty
    rw [empty]
    rfl
  · rfl

theorem mem_addressesListed : address ∈ addressesListed text name ↔ (address, name) ∈ hostEntries text := by
  simp [addressesListed]

theorem mem_namesListed : name ∈ namesListed text address ↔ (address, name) ∈ hostEntries text := by
  simp [namesListed]

theorem eraseDups_of_nodup {α : Type} [BEq α] [LawfulBEq α] {values : List α} (nodup : values.Nodup) : values.eraseDups = values := by
  induction values with
  | nil => rfl
  | cons value rest ih =>
    obtain ⟨fresh, nodup⟩ := List.nodup_cons.mp nodup
    rw [List.eraseDups_cons, List.filter_eq_self.mpr, ih nodup]
    intro other member
    simpa using fun same : other = value => fresh (same ▸ member)

theorem nodup_eraseDups {α : Type} [DecidableEq α] [BEq α] [LawfulBEq α] (values : List α) :
    values.eraseDups.Nodup := by
  have pushed := @pushAll_nodup α _ [] values List.nodup_nil
  rwa [pushAll_eq_eraseDups, List.nil_append, List.filter_eq_self.mpr (by simp)] at pushed

theorem pushed_eq {α : Type} [DecidableEq α] [BEq α] [LawfulBEq α] (first : List α) {later : List α}
    (nodup : later.Nodup) : later.foldl pushOnce first = first ++ later.filter (· ∉ first) := by
  refine (@pushAll_eq_eraseDups α _ first later _ _).trans ?_
  rw [eraseDups_of_nodup (nodup.filter _)]

theorem addressesListed_nodup (text name : Str) : (addressesListed text name).Nodup :=
  nodup_eraseDups _

theorem namesListed_nodup (text : Str) (address : IpAddr) : (namesListed text address).Nodup :=
  nodup_eraseDups _

theorem lookupForward_eq (text : Str) (question : Question) (name : Str)
    (named : canonicalName question.name.text = name) (first : List IpAddr)
    (known : syntheticAddresses name ++ (IpAddr.parse name).toList = first) :
    (Hosts.parse text).lookupForward question =
      if first ++ (addressesListed text name).filter (· ∉ first) = [] then none
      else some ((first ++ (addressesListed text name).filter (· ∉ first)).filterMap
        (addressRecord question.rrType)) := by
  subst known named
  rw [Hosts.lookupForward, byName_getD, pushed_eq _ (addressesListed_nodup _ _)]

theorem lookupReverse_of_parsed (text : Str) (parsed : parseReverseName question.name.text = some address) :
    (Hosts.parse text).lookupReverse question =
      if syntheticNames address = [] ∧ namesListed text address = [] then none else some ((syntheticNames address ++
        (namesListed text address).filter (· ∉ syntheticNames address)).map .ptr) := by
  rw [Hosts.lookupReverse, parsed, Option.bind_eq_bind, Option.bind_some, byAddress_getD,
    pushed_eq _ (namesListed_nodup _ _)]
  have empty : syntheticNames address ++ (namesListed text address).filter (· ∉ syntheticNames address) = [] ↔
        syntheticNames address = [] ∧ namesListed text address = [] := by
    rw [List.append_eq_nil_iff]
    refine and_congr_right fun none => ?_
    simp [none]
  simp only
  split_ifs with none nameless nameless
  · rfl
  · exact absurd (empty.mp none) nameless
  · exact absurd (empty.mpr nameless) none
  · rfl

theorem parseReverseName_iff_ownedBy {name : Str} :
    parseReverseName name = some address ↔ OwnedBy address name := by
  rw [Wire.parseReverseName_eq_some]
  simp only [OwnedBy, mapM_eq_some_iff, Wire.u8FromStrRadix_eq_some]

theorem not_and_of_asksIn (asksIn : question.cls = classIn ∨ question.cls = classAny) :
    ¬ (question.cls ≠ classIn ∧ question.cls ≠ classAny) := by
  rintro ⟨notIn, notAny⟩
  rcases asksIn with here | here
  · exact notIn here
  · exact notAny here

theorem lookup_forward (asksIn : question.cls = classIn ∨ question.cls = classAny)
    (asked : question.rrType ∈ [typeA, typeAaaa, 255]) : hosts.lookup question = hosts.lookupForward question := by
  rw [Hosts.lookup, if_neg (not_and_of_asksIn asksIn), if_pos (by simpa using asked)]

theorem lookup_reverse (asksIn : question.cls = classIn ∨ question.cls = classAny) (asked : question.rrType = typePtr) :
    hosts.lookup question = hosts.lookupReverse question := by
  rw [Hosts.lookup, if_neg (not_and_of_asksIn asksIn), if_neg (by simp [asked]; decide), if_pos asked]

theorem lookup_other (asksIn : question.cls = classIn ∨ question.cls = classAny)
    (others : question.rrType ∉ [typeA, typeAaaa, 255]) (reverse : question.rrType ≠ typePtr) :
    hosts.lookup question = if hosts.knownName question.name.text then some [] else none := by
  rw [Hosts.lookup, if_neg (not_and_of_asksIn asksIn), if_neg (by simpa using others), if_neg reverse]

theorem inverse_views (text : Str) (address : IpAddr) (name : Str) :
    address ∈ ((Hosts.parse text).byName.lookup name).getD [] ↔
      name ∈ ((Hosts.parse text).byAddress.lookup address).getD [] := by
  rw [byName_getD, byAddress_getD, mem_addressesListed, mem_namesListed]

theorem forward_answers (text : Str) (asksIn : question.cls = classIn ∨ question.cls = classAny)
    (asked : question.rrType ∈ [typeA, typeAaaa, 255])
    (synthetic : syntheticAddresses (canonicalName question.name.text) = [])
    (literal : IpAddr.parse (canonicalName question.name.text) = none) :
    (Hosts.parse text).lookup question = if addressesListed text (canonicalName question.name.text) = [] then none
      else some ((addressesListed text (canonicalName question.name.text)).filterMap
        (addressRecord question.rrType)) := by
  rw [lookup_forward asksIn asked, lookupForward_eq text question _ rfl [] (by simp [synthetic, literal])]
  simp

theorem reverse_answers (text : Str) (asksIn : question.cls = classIn ∨ question.cls = classAny)
    (asked : question.rrType = typePtr) (owned : OwnedBy address question.name.text) :
    (Hosts.parse text).lookup question = if syntheticNames address = [] ∧ namesListed text address = [] then none
      else some ((syntheticNames address ++
        (namesListed text address).filter (· ∉ syntheticNames address)).map .ptr) := by
  rw [lookup_reverse asksIn asked, lookupReverse_of_parsed text (parseReverseName_iff_ownedBy.mpr owned)]

theorem known_answers (asksIn : question.cls = classIn ∨ question.cls = classAny)
    (asked : question.rrType ≠ typePtr) (listed : addressesListed text (canonicalName question.name.text) ≠ []) :
    ∃ records, (Hosts.parse text).lookup question = some records := by
  by_cases forward : question.rrType ∈ [typeA, typeAaaa, 255]
  · rw [lookup_forward asksIn forward, lookupForward_eq text question _ rfl _ rfl, if_neg]
    · exact ⟨_, rfl⟩
    · intro empty
      obtain ⟨none, unlisted⟩ := List.append_eq_nil_iff.mp empty
      rw [none] at unlisted
      exact listed (by simpa using unlisted)
  · rw [lookup_other asksIn forward asked, if_pos]
    · exact ⟨_, rfl⟩
    · simp [Hosts.knownName, byName_lookup, listed]

/-- The file answers as it should unless a pointer is asked for at a host name of the file that is no
owner of an address with a name. -/
theorem answersFromFile_iff (text : Str) (question : Question) (inClass : question.cls = classIn) :
    AnswersFromFile text question ↔ (question.rrType = typePtr →
        addressesListed text (canonicalName question.name.text) ≠ [] →
        ∃ address, OwnedBy address question.name.text ∧
          ¬ (syntheticNames address = [] ∧ namesListed text address = [])) := by
  have asksIn : question.cls = classIn ∨ question.cls = classAny := .inl inClass
  constructor
  · intro answers asked listed
    obtain ⟨records, found⟩ := answers.known listed
    cases parsed : parseReverseName question.name.text with
    | none =>
      rw [lookup_reverse asksIn asked, Hosts.lookupReverse, parsed] at found
      cases found
    | some address =>
      have owned := parseReverseName_iff_ownedBy.mp parsed
      refine ⟨address, owned, fun nameless => ?_⟩
      rw [reverse_answers text asksIn asked owned, if_pos nameless] at found
      cases found
  · intro owned
    refine ⟨fun listed => ?_, fun asked => forward_answers text asksIn asked, ?_, inverse_views text⟩
    · by_cases asked : question.rrType = typePtr
      · obtain ⟨address, owned, named⟩ := owned asked listed
        exact ⟨_, (reverse_answers text asksIn asked owned).trans (if_neg named)⟩
      · exact known_answers asksIn asked listed
    · intro asked address printed
      exact reverse_answers text asksIn asked
        (parseReverseName_iff_ownedBy.mp (Wire.parseReverseName_reverseName printed))

def nasFile : Str := "10.0.0.9 nas".toList

def nasQuestion (rrType : Nat) : Question :=
  ⟨⟨['n', 'a', 's'], [3, 110, 97, 115, 0]⟩, rrType, classIn, 21⟩

theorem answersFromFile_iff_a : AnswersFromFile nasFile (nasQuestion typeA) :=
  (answersFromFile_iff nasFile (nasQuestion typeA) rfl).mpr fun asked => absurd asked (by decide)

theorem answersFromFile_ptr :
    (Hosts.parse nasFile).lookup (nasQuestion typePtr) = none ∧
      ¬ AnswersFromFile nasFile (nasQuestion typePtr) := by
  have unanswered : (Hosts.parse nasFile).lookup (nasQuestion typePtr) = none := by decide
  refine ⟨unanswered, fun answers => ?_⟩
  obtain ⟨records, found⟩ := answers.known (by decide)
  cases unanswered.symm.trans found

end Resolved.Proof.HostsFile
