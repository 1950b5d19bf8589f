import Resolved.Proof.Mdns.Names
import Resolved.Proof.DnsSd.Registry

/-!
# Owners of the registered services
-/

namespace Resolved.Proof.DnsSd
open Lib Resolved.DnsSd Resolved.Mdns Spec
open Resolved.Proof.Wire Resolved.Proof.Mdns

theorem pushLabel_eq_ok (done : pushLabel output label = .ok result) :
    (0 < label.length ∧ label.length ≤ 63) ∧ result = output ++ UInt8.ofNat label.length :: label := by
  unfold pushLabel at done
  split at done
  · cases done
  · rename_i accepted
    push Not at accepted
    exact ⟨⟨List.length_pos_of_ne_nil accepted.1, accepted.2.1⟩, (Except.ok.inj done).symm⟩

theorem foldlM_pushLabel {labels : List Bytes} {output result : Bytes}
    (done : labels.foldlM pushLabel output = .ok result) :
    (∀ label ∈ labels, 0 < label.length ∧ label.length ≤ 63) ∧ result ++ [0] = output ++ wireOf labels := by
  induction labels generalizing output with
  | nil =>
    cases pure_eq_ok.mp done
    exact ⟨by simp, rfl⟩
  | cons label labels ih =>
    rw [List.foldlM_cons, bind_eq_ok] at done
    obtain ⟨next, pushed, later⟩ := done
    obtain ⟨size, rfl⟩ := pushLabel_eq_ok pushed
    obtain ⟨sizes, whole⟩ := ih later
    refine ⟨List.forall_mem_cons.mpr ⟨size, sizes⟩, ?_⟩
    rw [whole, wireOf_cons, List.append_assoc]

theorem encodeLabels_eq_ok {labels : List Bytes} {owner : Bytes} (done : encodeLabels labels = .ok owner) :
    (∀ label ∈ labels, 0 < label.length ∧ label.length ≤ 63) ∧ owner = wireOf (lowered labels) := by
  unfold encodeLabels at done
  rw [bind_eq_ok] at done
  obtain ⟨output, pushed, done⟩ := done
  obtain ⟨sizes, whole⟩ := foldlM_pushLabel pushed
  rw [List.nil_append] at whole
  simp only [whole] at done
  split at done
  · cases done
  · rename_i short
    have least := wireOf_length_ge labels fun label member => (sizes label member).1
    rw [canonicalWireName, if_neg (by simp [wireOf]),
      canonicalLoop_wireOf sizes (by simpa using short) (by omega)] at done
    exact ⟨sizes, (Except.ok.inj done).symm⟩

theorem instanceOwner_spelling (own : registration.instanceOwner = .ok owner)
    (own' : registration'.instanceOwner = .ok owner) : SameSpelling registration registration' := by
  obtain ⟨sizes, rfl⟩ := encodeLabels_eq_ok own
  obtain ⟨sizes', same⟩ := encodeLabels_eq_ok own'
  have kept : ∀ {labels : List Bytes}, (∀ label ∈ labels, 0 < label.length ∧ label.length ≤ 63) →
      ∀ label ∈ lowered labels, 0 < label.length ∧ label.length ≤ 63 := by
    intro labels sizes label member
    obtain ⟨origin, here, rfl⟩ := List.mem_map.mp member
    rw [List.length_map]
    exact sizes origin here
  exact nameOf_unique ⟨rfl, kept sizes⟩ ⟨same, kept sizes'⟩

section
variable {registry next : DnsSdRegistry} {id : Nat} {registration : DnsSdRegistration}

theorem register_eq_ok (registers : registry.register registration = .ok (id, next)) :
    registry.keys (.fromRegistration registration) = none ∧
      next.keys = Function.update registry.keys (.fromRegistration registration) (some id) ∧
      next.registrations = registry.registrations.insert id registration := by
  simp only [DnsSdRegistry.register, bind_eq_ok] at registers
  obtain ⟨-, -, registers⟩ := registers
  split at registers
  · cases registers
  · rename_i free
    cases pure_eq_ok.mp registers
    exact ⟨by simpa using free, rfl, rfl⟩

theorem update_eq_ok (updates : registry.update id registration = .ok next) :
    ∃ previous, registry.registrations[id]? = some previous ∧
      (RegistrationKey.fromRegistration previous = .fromRegistration registration ∨
        registry.keys (.fromRegistration registration) = none) ∧ next.keys = Function.update
        (Function.update registry.keys (.fromRegistration previous) none)
        (.fromRegistration registration) (some id) ∧
      next.registrations = registry.registrations.insert id registration := by
  simp only [DnsSdRegistry.update, bind_eq_ok, okOr_eq_ok] at updates
  obtain ⟨-, -, previous, found, updates⟩ := updates
  split at updates
  · cases updates
  · rename_i free
    cases pure_eq_ok.mp updates
    refine ⟨previous, found, ?_, rfl, rfl⟩
    rw [not_and_or, not_not] at free
    simpa using free

theorem unregister_eq_ok (unregisters : registry.unregister id = .ok (registration, next)) :
    registry.registrations[id]? = some registration ∧
      next.keys = Function.update registry.keys (.fromRegistration registration) none ∧
      next.registrations = registry.registrations.erase id := by
  simp only [DnsSdRegistry.unregister, bind_eq_ok, okOr_eq_ok] at unregisters
  obtain ⟨stored, found, unregisters⟩ := unregisters
  cases pure_eq_ok.mp unregisters
  exact ⟨found, rfl, rfl⟩

theorem registerWithAutomaticRename_makes
    (registers : registry.registerWithAutomaticRename registration = .ok ((id, candidate), next)) :
    ∃ made, (RegistryOp.registerWithAutomaticRename registration).Makes made ∧
      registry.register made = .ok (id, next) := by
  obtain ⟨made, below, done⟩ := registerRenamed_register le_rfl registers
  refine ⟨made, below.imp_right ?_, done⟩
  rintro ⟨ordinal, name, least, most, renamed, same⟩
  exact ⟨ordinal, name, least, Nat.le_of_lt_succ most, renamed, same⟩

end

structure Distinct (keys : RegistrationKey → Option Nat)
    (registrations : Std.ExtTreeMap Nat DnsSdRegistration) : Prop where
  keyed : ∀ (id : Nat) registration, registrations[id]? = some registration →
    keys (.fromRegistration registration) = some id
  apart : ∀ (id id' : Nat) registration registration', registrations[id]? = some registration →
    registrations[id']? = some registration' → registration.interface = registration'.interface →
    SameSpelling registration registration' → id = id'

section
variable {keys keys' : RegistrationKey → Option Nat}
  {registrations : Std.ExtTreeMap Nat DnsSdRegistration} {id : Nat} {made : DnsSdRegistration}

theorem Distinct.insert (distinct : Distinct keys registrations)
    (own : keys' (.fromRegistration made) = some id)
    (kept : ∀ (other : Nat) live, registrations[other]? = some live → other ≠ id →
      keys' (.fromRegistration live) = keys (.fromRegistration live))
    (new : ∀ (other : Nat) live, registrations[other]? = some live → other ≠ id →
      live.interface = made.interface → ¬SameSpelling live made) :
    Distinct keys' (registrations.insert id made) := by
  have known : ∀ (other : Nat) live, (registrations.insert id made)[other]? = some live →
      (other = id ∧ live = made) ∨ (other ≠ id ∧ registrations[other]? = some live) := by
    intro other live found
    rw [insert_found] at found
    split at found
    · rename_i same
      exact .inl ⟨same.symm, (Option.some.inj found).symm⟩
    · rename_i other
      exact .inr ⟨Ne.symm other, found⟩
  constructor
  · intro other live found
    obtain ⟨rfl, rfl⟩ | ⟨away, found⟩ := known other live found
    · exact own
    · rw [kept other live found away, distinct.keyed other live found]
  · intro other other' live live' found found' same spelled
    obtain ⟨rfl, rfl⟩ | ⟨away, there⟩ := known other live found
    · obtain ⟨rfl, -⟩ | ⟨away', there'⟩ := known other' live' found'
      · rfl
      · exact absurd spelled.symm (new other' live' there' away' same.symm)
    · obtain ⟨rfl, rfl⟩ | ⟨away', there'⟩ := known other' live' found'
      · exact absurd spelled (new other live there away same)
      · exact distinct.apart other other' live live' there there' same spelled

theorem Distinct.erase (distinct : Distinct keys registrations) (found : registrations[id]? = some made) :
    Distinct (Function.update keys (.fromRegistration made) none) (registrations.erase id) := by
  have known : ∀ (other : Nat) live, (registrations.erase id)[other]? = some live →
      other ≠ id ∧ registrations[other]? = some live := by
    intro other live kept
    rw [erase_found] at kept
    split at kept
    · cases kept
    · rename_i away
      exact ⟨Ne.symm away, kept⟩
  constructor
  · intro other live kept
    obtain ⟨away, there⟩ := known other live kept
    rw [Function.update_of_ne, distinct.keyed other live there]
    intro same
    have keyed := distinct.keyed other live there
    rw [same, distinct.keyed id made found] at keyed
    exact away (Option.some.inj keyed).symm
  · intro other other' live live' kept kept'
    exact distinct.apart other other' live live' (known other live kept).2 (known other' live' kept').2

end

theorem Distinct.uniqueOwners (distinct : Distinct registry.keys registry.registrations) :
    UniqueOwners registry := by
  intro id id' registration registration' owner found found' same own own'
  exact distinct.apart id id' registration registration' found found' same
    (instanceOwner_spelling own own')

section
variable {registry next : DnsSdRegistry} {id : Nat} {registration : DnsSdRegistration}

theorem register_distinct (distinct : Distinct registry.keys registry.registrations)
    (apart : SpelledApart registry op) (makes : op.Makes registration) (adds : op.replaces = none)
    (registers : registry.register registration = .ok (id, next)) : Distinct next.keys next.registrations := by
  obtain ⟨free, keys, registrations⟩ := register_eq_ok registers
  rw [keys, registrations]
  have other : ∀ (other : Nat) live, registry.registrations[other]? = some live →
      RegistrationKey.fromRegistration live ≠ .fromRegistration registration := by
    intro other live found same
    have keyed := distinct.keyed other live found
    rw [same, free] at keyed
    cases keyed
  apply distinct.insert (Function.update_self ..)
  · intro number live found _
    rw [Function.update_of_ne (other number live found)]
  · intro number live found _ same spelled
    exact other number live found
      (apart registration makes number live found (by simp [adds]) same spelled)

theorem update_distinct (distinct : Distinct registry.keys registry.registrations)
    (apart : SpelledApart registry (.update id registration))
    (updates : registry.update id registration = .ok next) : Distinct next.keys next.registrations := by
  obtain ⟨previous, found, free, keys, registrations⟩ := update_eq_ok updates
  rw [keys, registrations]
  have own := distinct.keyed id previous found
  have other : ∀ (other : Nat) live, registry.registrations[other]? = some live → other ≠ id →
      RegistrationKey.fromRegistration live ≠ .fromRegistration registration ∧
        RegistrationKey.fromRegistration live ≠ .fromRegistration previous := by
    intro other live there away
    have keyed := distinct.keyed other live there
    have apart : RegistrationKey.fromRegistration live ≠ .fromRegistration previous := by
      intro same
      rw [same, own] at keyed
      exact away (Option.some.inj keyed).symm
    refine ⟨?_, apart⟩
    intro same
    rcases free with old | none
    · exact apart (same.trans old.symm)
    · rw [same, none] at keyed
      cases keyed
  apply distinct.insert (Function.update_self ..)
  · intro number live there away
    rw [Function.update_of_ne (other number live there away).1,
      Function.update_of_ne (other number live there away).2]
  · intro number live there away same spelled
    exact (other number live there away).1
      (apart registration rfl number live there (by simpa [RegistryOp.replaces] using away.symm)
        same spelled)

theorem unregister_distinct (distinct : Distinct registry.keys registry.registrations)
    (unregisters : registry.unregister id = .ok (registration, next)) : Distinct next.keys next.registrations := by
  obtain ⟨found, keys, registrations⟩ := unregister_eq_ok unregisters
  rw [keys, registrations]
  exact distinct.erase found

theorem unregisterAll_distinct (ids : List Nat) (distinct : Distinct registry.keys registry.registrations) :
    Distinct (registry.unregisterAll ids).2.keys (registry.unregisterAll ids).2.registrations := by
  induction ids generalizing registry with
  | nil => exact distinct
  | cons id rest ih =>
    rw [DnsSdRegistry.unregisterAll]
    cases removes : registry.unregister id with
    | error e => exact ih distinct
    | ok result => exact ih (unregister_distinct distinct removes)

end

theorem apply_distinct (distinct : Distinct s.registry.keys s.registry.registrations)
    (apart : SpelledApart s.registry op) :
    Distinct (op.apply s).registry.keys (op.apply s).registry.registrations := by
  cases op with simp only [RegistryOp.apply]
  | register registration =>
    cases done : s.registry.register registration with
    | error e => exact distinct
    | ok result => exact register_distinct distinct apart rfl rfl done
  | registerWithAutomaticRename registration =>
    cases done : s.registry.registerWithAutomaticRename registration with
    | error e => exact distinct
    | ok result =>
      obtain ⟨made, makes, done'⟩ := registerWithAutomaticRename_makes done
      exact register_distinct distinct apart makes rfl done'
  | update id registration =>
    cases done : s.registry.update id registration with
    | error e => exact distinct
    | ok result => exact update_distinct distinct apart done
  | unregister id =>
    cases done : s.registry.unregister id with
    | error e => exact distinct
    | ok result => exact unregister_distinct distinct done
  | removeInterface interface => exact unregisterAll_distinct _ distinct
  | subscribe filter => exact distinct
  | unsubscribe id => exact distinct
  | takeUpdates id =>
    simp only [RegistryOp.apply, DnsSdRegistry.takeUpdates]
    split <;> exact distinct

theorem start_distinct : Distinct Observed.start.registry.keys Observed.start.registry.registrations := by
  constructor <;> simp [Observed.start, DnsSdRegistry.empty]

/-- In a history in which no call makes a service that differs from another on its interface in the
case of its name only, the owners are unique at every time. -/
theorem registry_uniqueOwners (ops : List RegistryOp)
    (apart : ∀ front op, front ++ [op] <+: ops → SpelledApart (Observed.start.run front).registry op)
    {front : List RegistryOp} (before : front <+: ops) : UniqueOwners (Observed.start.run front).registry := by
  have distinct : Distinct (Observed.start.run front).registry.keys
      (Observed.start.run front).registry.registrations := by
    induction front using List.reverseRecOn with
    | nil => exact start_distinct
    | append_singleton front op ih =>
      rw [Observed.run, List.foldl_concat]
      exact apply_distinct (ih ((List.prefix_append front [op]).trans before)) (apart front op before)
  exact distinct.uniqueOwners

theorem registry_uniqueOwners_two : UniqueOwners (Observed.start.run
    [.register (printer 97 (by decide)), .register (printer 98 (by decide))]).registry := by
  refine registry_uniqueOwners _ (fun front op before => ?_) List.prefix_rfl
  match front, before with
  | [], _ =>
    intro made _ id live found
    simp [Observed.run, Observed.start, DnsSdRegistry.empty] at found
  | [_], before =>
    obtain ⟨rfl, rfl⟩ : _ = _ ∧ _ = _ := by simpa using before
    rintro made rfl id live found - - spelled
    change ((∅ : Std.ExtTreeMap Nat DnsSdRegistration).insert 1 (printer 97 (by decide)))[id]? =
      some live at found
    rw [insert_found] at found
    split at found
    · cases found
      exact absurd spelled (by unfold SameSpelling; decide)
    · simp at found
  | _ :: _ :: _, before => simp at before

theorem registry_case_clash :
    ¬UniqueOwners (Observed.start.run
      [.register (printer 97 (by decide)), .register (printer 65 (by decide))]).registry := by
  intro unique
  have owner : (printer 97 (by decide)).instanceOwner =
      .ok [1, 97, 4, 95, 105, 112, 112, 4, 95, 116, 99, 112, 5, 108, 111, 99, 97, 108, 0] := by
    decide
  have owner' : (printer 65 (by decide)).instanceOwner =
      .ok [1, 97, 4, 95, 105, 112, 112, 4, 95, 116, 99, 112, 5, 108, 111, 99, 97, 108, 0] := by
    decide
  cases unique 1 2 (printer 97 (by decide)) (printer 65 (by decide)) _ (by decide)
    (by decide) rfl owner owner'

end Resolved.Proof.DnsSd
