import Resolved.Spec.DnsSd

/-!
# Browsers know what is registered
-/

namespace Resolved.Proof.DnsSd
open Lib Resolved.DnsSd Spec

variable {subscription rounds : Nat} {s : Observed}

section
variable {registry : DnsSdRegistry} {taken : Nat → List DnsSdBrowseUpdate}
  {kind : DnsSdBrowseUpdateKind} {id : Nat} {registration : DnsSdRegistration}

theorem foldl_insert_other {β γ : Type} (entries : List (Nat × β)) (chosen : β → Bool)
    (change : Option γ → γ) (map : Std.ExtTreeMap Nat γ) (key : Nat)
    (away : ∀ value, (key, value) ∈ entries → chosen value = false) :
    (entries.foldl (fun map (entry : Nat × β) =>
      if chosen entry.2 then map.insert entry.1 (change map[entry.1]?) else map) map)[key]? =
      map[key]? := by
  induction entries generalizing map with
  | nil => rfl
  | cons entry rest ih =>
    rw [List.foldl_cons, ih _ fun value member => away value (by simp [member])]
    split
    · rename_i here
      rw [Std.ExtTreeMap.getElem?_insert, if_neg]
      rw [compare_eq_iff_eq]
      rintro rfl
      rw [away entry.2 (by simp)] at here
      cases here
    · rfl

theorem foldl_insert_chosen {β γ : Type} (entries : List (Nat × β)) (chosen : β → Bool)
    (change : Option γ → γ) (map : Std.ExtTreeMap Nat γ) (distinct : (entries.map (·.1)).Nodup)
    {key : Nat} {value : β} (member : (key, value) ∈ entries) (here : chosen value = true) :
    (entries.foldl (fun map (entry : Nat × β) =>
      if chosen entry.2 then map.insert entry.1 (change map[entry.1]?) else map) map)[key]? =
      some (change map[key]?) := by
  induction entries generalizing map with
  | nil => cases member
  | cons entry rest ih =>
    rw [List.map_cons, List.nodup_cons] at distinct
    rw [List.foldl_cons]
    rcases List.mem_cons.1 member with rfl | later
    · have away : ∀ other, (key, other) ∈ rest → chosen other = false := by
        intro other inRest
        exact absurd (List.mem_map.2 ⟨(key, other), inRest, rfl⟩) distinct.1
      rw [foldl_insert_other rest chosen change _ key away, if_pos here]
      simp
    · have apart : entry.1 ≠ key := by
        rintro rfl
        exact distinct.1 (List.mem_map.2 ⟨_, later, rfl⟩)
      rw [ih _ distinct.2 later]
      split
      · rw [Std.ExtTreeMap.getElem?_insert, if_neg (by rwa [compare_eq_iff_eq])]
      · rfl

theorem toList_keys_nodup {β : Type} (map : Std.ExtTreeMap Nat β) : (map.toList.map (·.1)).Nodup := by
  rw [List.Nodup, List.pairwise_map]
  exact map.distinct_keys_toList.imp fun apart same => apart (compare_eq_iff_eq.2 same)

@[simp] theorem notify_keys : (registry.notify kind id registration).keys = registry.keys := rfl

@[simp] theorem notify_registrations :
    (registry.notify kind id registration).registrations = registry.registrations := rfl

theorem notify_pending {filter : DnsSdBrowseFilter}
    (subscribed : registry.subscriptions[subscription]? = some filter) :
    ((registry.notify kind id registration).pending[subscription]?).getD [] =
      (registry.pending[subscription]?).getD [] ++
        if filter.selects registration then [updateOf kind id registration] else [] := by
  have member := Std.ExtTreeMap.mem_toList_iff_getElem?_eq_some.2 subscribed
  simp only [DnsSdRegistry.notify]
  split
  · rename_i selected
    rw [foldl_insert_chosen registry.subscriptions.toList (·.selects registration)
      (fun updates => updates.getD [] ++ [updateOf kind id registration]) registry.pending
      (toList_keys_nodup _) member selected]
    rfl
  · rename_i rejected
    rw [foldl_insert_other registry.subscriptions.toList (·.selects registration)
      (fun updates => updates.getD [] ++ [updateOf kind id registration]) registry.pending]
    · simp
    · intro other entry
      rw [Std.ExtTreeMap.mem_toList_iff_getElem?_eq_some, subscribed] at entry
      cases entry
      simpa using rejected

theorem notify_pending_other (unsubscribed : registry.subscriptions[subscription]? = none) :
    (registry.notify kind id registration).pending[subscription]? = registry.pending[subscription]? := by
  simp only [DnsSdRegistry.notify]
  apply foldl_insert_other registry.subscriptions.toList (·.selects registration)
    (fun updates => updates.getD [] ++ [updateOf kind id registration])
  intro other entry
  rw [Std.ExtTreeMap.mem_toList_iff_getElem?_eq_some, unsubscribed] at entry
  cases entry

def Views (registry : DnsSdRegistry) (taken : Nat → List DnsSdBrowseUpdate)
    (shown : DnsSdBrowseFilter → Nat → Prop) : Prop :=
  ∀ (subscription : Nat) (filter : DnsSdBrowseFilter), registry.subscriptions[subscription]? = some filter →
      Mirrors ((taken subscription ++ (registry.pending[subscription]?).getD []).map changeOf)
        (shown filter)

variable {shown : DnsSdBrowseFilter → Nat → Prop}

theorem Views.congr {shown' : DnsSdBrowseFilter → Nat → Prop} (views : Views registry taken shown)
    (same : ∀ filter id, shown filter id ↔ shown' filter id) : Views registry taken shown' :=
  fun subscription filter subscribed => (views subscription filter subscribed).congr (same filter)

theorem Views.notify_added (views : Views registry taken shown) (absent : ∀ filter, ¬ shown filter id) :
    Views (registry.notify .added id registration) taken fun filter other =>
      (other = id ∧ filter.selects registration = true) ∨ shown filter other := by
  intro subscription filter subscribed
  have known : registry.subscriptions[subscription]? = some filter := subscribed
  have before := views subscription filter known
  rw [notify_pending known, ← List.append_assoc, List.map_append]
  by_cases selected : filter.selects registration = true
  · rw [if_pos selected]
    apply (before.add (absent filter)).congr
    simp [selected]
  · rw [if_neg selected, List.map_nil, List.append_nil]
    apply before.congr
    simp [selected]

theorem Views.notify_removed (views : Views registry taken shown)
    (present : ∀ filter, filter.selects registration = true → shown filter id) :
    Views (registry.notify .removed id registration) taken fun filter other =>
      ¬ (other = id ∧ filter.selects registration = true) ∧ shown filter other := by
  intro subscription filter subscribed
  have known : registry.subscriptions[subscription]? = some filter := subscribed
  have before := views subscription filter known
  rw [notify_pending known, ← List.append_assoc, List.map_append]
  by_cases selected : filter.selects registration = true
  · rw [if_pos selected]
    apply (before.remove (present filter selected)).congr
    simp [selected]
  · rw [if_neg selected, List.map_nil, List.append_nil]
    apply before.congr
    simp [selected]

end

def Shown (registrations : Std.ExtTreeMap Nat DnsSdRegistration) (filter : DnsSdBrowseFilter)
    (id : Nat) : Prop :=
  ∃ registration, registrations[id]? = some registration ∧ filter.selects registration = true

def Indexed (keys : RegistrationKey → Option Nat)
    (registrations : Std.ExtTreeMap Nat DnsSdRegistration) : Prop :=
  ∀ key id, keys key = some id ↔ ∃ registration, registrations[id]? = some registration ∧
    RegistrationKey.fromRegistration registration = key

section
variable {keys : RegistrationKey → Option Nat} {registrations : Std.ExtTreeMap Nat DnsSdRegistration}
  {id : Nat} {registration : DnsSdRegistration}

theorem insert_found (other : Nat) :
    (registrations.insert id registration)[other]? =
      if id = other then some registration else registrations[other]? := by
  simp only [Std.ExtTreeMap.getElem?_insert, compare_eq_iff_eq]

theorem erase_found (other : Nat) :
    (registrations.erase id)[other]? = if id = other then none else registrations[other]? := by
  simp only [Std.ExtTreeMap.getElem?_erase, compare_eq_iff_eq]

theorem shown_insert (unused : registrations[id]? = none) (filter : DnsSdBrowseFilter) (other : Nat) :
    Shown (registrations.insert id registration) filter other ↔
      (other = id ∧ filter.selects registration = true) ∨ Shown registrations filter other := by
  unfold Shown
  rw [insert_found]
  by_cases same : id = other
  · subst same
    simp [unused]
  · simp [same, Ne.symm same]

theorem shown_erase (found : registrations[id]? = some registration) (filter : DnsSdBrowseFilter) (other : Nat) :
    Shown (registrations.erase id) filter other ↔
      ¬ (other = id ∧ filter.selects registration = true) ∧ Shown registrations filter other := by
  unfold Shown
  rw [erase_found]
  by_cases same : id = other
  · subst same
    simp [found]
  · simp [same, Ne.symm same]

theorem Indexed.insert (indexed : Indexed keys registrations) (unused : registrations[id]? = none)
    (free : keys (.fromRegistration registration) = none) :
    Indexed (Function.update keys (.fromRegistration registration) (some id))
      (registrations.insert id registration) := by
  intro key other
  rw [insert_found]
  by_cases mine : key = .fromRegistration registration
  · subst mine
    rw [Function.update_self]
    constructor
    · intro same
      cases same
      exact ⟨registration, if_pos rfl, rfl⟩
    · rintro ⟨stored, found, same⟩
      split at found
      · rename_i same
        rw [same]
      · have known := (indexed _ other).2 ⟨stored, found, same⟩
        rw [free] at known
        cases known
  · rw [Function.update_of_ne mine, indexed]
    apply exists_congr
    intro stored
    by_cases same : id = other
    · subst same
      rw [unused, if_pos rfl, Option.some.injEq]
      constructor
      · rintro ⟨found, -⟩
        cases found
      · rintro ⟨rfl, own⟩
        exact absurd own.symm mine
    · rw [if_neg same]

theorem Indexed.erase (indexed : Indexed keys registrations) (found : registrations[id]? = some registration) :
    Indexed (Function.update keys (.fromRegistration registration) none) (registrations.erase id) := by
  intro key other
  have own := (indexed _ id).2 ⟨registration, found, rfl⟩
  rw [erase_found]
  by_cases mine : key = .fromRegistration registration
  · subst mine
    rw [Function.update_self]
    constructor
    · intro same
      cases same
    · rintro ⟨stored, kept, same⟩
      split at kept
      · cases kept
      · rename_i apart
        have known := (indexed _ other).2 ⟨stored, kept, same⟩
        rw [own] at known
        exact absurd (Option.some.inj known) apart
  · rw [Function.update_of_ne mine, indexed]
    apply exists_congr
    intro stored
    by_cases same : id = other
    · subst same
      rw [found, if_pos rfl, Option.some.injEq]
      constructor
      · rintro ⟨rfl, key⟩
        exact absurd key.symm mine
      · rintro ⟨kept, -⟩
        cases kept
    · rw [if_neg same]

theorem erase_insert (registrations : Std.ExtTreeMap Nat DnsSdRegistration) (id : Nat)
    (registration : DnsSdRegistration) :
    (registrations.erase id).insert id registration = registrations.insert id registration := by
  apply Std.ExtTreeMap.ext_getElem?
  intro other
  rw [insert_found, insert_found, erase_found]
  split <;> rfl

end

structure Sound (s : Observed) : Prop where
  indexed : Indexed s.registry.keys s.registry.registrations
  views : Views s.registry s.taken (Shown s.registry.registrations)
  live : ∀ (id : Nat) registration, s.registry.registrations[id]? = some registration →
    id ≤ s.registry.nextRegistrationId
  subscribed : ∀ (subscription : Nat) filter, s.registry.subscriptions[subscription]? = some filter →
    subscription ≤ s.registry.nextSubscriptionId
  future : ∀ subscription, s.registry.nextSubscriptionId < subscription →
    s.taken subscription = [] ∧ s.registry.pending[subscription]? = none

theorem nextId_eq (room : counter + 1 < 2 ^ 64) : nextId counter = counter + 1 := by
  unfold nextId
  rw [Nat.mod_eq_of_lt room]
  omega

section
variable {registry next : DnsSdRegistry} {taken : Nat → List DnsSdBrowseUpdate} {id : Nat}
  {registration : DnsSdRegistration}

theorem notify_future {kind : DnsSdBrowseUpdateKind}
    (subscribed : ∀ (subscription : Nat) filter, registry.subscriptions[subscription]? = some filter →
      subscription ≤ registry.nextSubscriptionId)
    (later : registry.nextSubscriptionId < subscription)
    (future : taken subscription = [] ∧ registry.pending[subscription]? = none) :
    taken subscription = [] ∧ (registry.notify kind id registration).pending[subscription]? = none := by
  refine ⟨future.1, ?_⟩
  rw [notify_pending_other]
  · exact future.2
  · cases found : registry.subscriptions[subscription]? with
    | none => rfl
    | some filter => exact absurd (subscribed subscription filter found) (not_le.2 later)

structure Counts (registry next : DnsSdRegistry) (registrations subscriptions : Nat) : Prop where
  registrations : next.nextRegistrationId ≤ registry.nextRegistrationId + registrations
  subscriptions : next.nextSubscriptionId ≤ registry.nextSubscriptionId + subscriptions

theorem register_sound (sound : Sound ⟨registry, taken⟩) (room : registry.nextRegistrationId + 1 < 2 ^ 64)
    (registers : registry.register registration = .ok (id, next)) :
    Sound ⟨next, taken⟩ ∧ Counts registry next 1 0 := by
  simp only [DnsSdRegistry.register, bind_eq_ok] at registers
  obtain ⟨-, -, registers⟩ := registers
  split at registers
  · cases registers
  · rename_i free
    rw [Bool.not_eq_true, Option.isSome_eq_false_iff, Option.isNone_iff_eq_none] at free
    cases pure_eq_ok.1 registers
    have fresh := nextId_eq room
    rw [fresh]
    have unused : registry.registrations[registry.nextRegistrationId + 1]? = none := by
      cases found : registry.registrations[registry.nextRegistrationId + 1]? with
      | none => rfl
      | some other => exact absurd (sound.live _ other found) (not_le.2 (Nat.lt_succ_self _))
    have absent : ∀ filter, ¬ Shown registry.registrations filter (registry.nextRegistrationId + 1) := by
      rintro filter ⟨stored, found, -⟩
      rw [unused] at found
      cases found
    refine ⟨⟨sound.indexed.insert unused free, ?_, fun other stored found => ?_, sound.subscribed,
      fun subscription later => notify_future sound.subscribed later (sound.future subscription later)⟩,
      ⟨le_rfl, le_rfl⟩⟩
    · have views : Views { registry with nextRegistrationId := registry.nextRegistrationId + 1 } taken
          (Shown registry.registrations) := sound.views
      exact (views.notify_added absent).congr fun filter other => (shown_insert unused filter other).symm
    · change ((registry.registrations.insert _ registration)[other]?) = some stored at found
      rw [insert_found] at found
      split at found
      · rename_i same
        exact same ▸ le_rfl
      · exact Nat.le_succ_of_le (sound.live other stored found)

def RenamedBelow (registration : DnsSdRegistration) (bound : Nat) (renamed : DnsSdRegistration) : Prop :=
  renamed = registration ∨ ∃ ordinal name, 2 ≤ ordinal ∧ ordinal < bound ∧
    renamedInstance registration.instance' ordinal = .ok name ∧ renamed = { registration with instance' := name }

theorem registerRenamed_register (counted : 1 ≤ ordinal)
    (registers : registry.registerRenamed registration fuel ordinal = .ok ((id, candidate), next)) :
    ∃ renamed, RenamedBelow registration (ordinal + fuel) renamed ∧ registry.register renamed = .ok (id, next) := by
  induction fuel generalizing ordinal with
  | zero => cases registers
  | succ fuel ih =>
    -- with a free key the name is registered, otherwise the next one is tried
    have tried : ∀ renamed, RenamedBelow registration (ordinal + (fuel + 1)) renamed →
        (if (registry.keys (.fromRegistration renamed)).isSome
          then registry.registerRenamed registration fuel (ordinal + 1)
          else do
            let made ← registry.register renamed
            return ((made.1, renamed.instance'), made.2)) = .ok ((id, candidate), next) →
        ∃ renamed, RenamedBelow registration (ordinal + (fuel + 1)) renamed ∧
          registry.register renamed = .ok (id, next) := by
      intro renamed below tries
      split at tries
      · rw [← Nat.succ_add_eq_add_succ]
        exact ih (Nat.le_succ_of_le counted) tries
      · obtain ⟨⟨id', next'⟩, done, same⟩ := bind_eq_ok.1 tries
        cases pure_eq_ok.1 same
        exact ⟨renamed, below, done⟩
    unfold DnsSdRegistry.registerRenamed at registers
    simp only at registers
    split at registers
    · rw [ok_bind] at registers
      exact tried registration (.inl rfl) registers
    · obtain ⟨name, chosen, registers⟩ := bind_eq_ok.1 registers
      exact tried { registration with instance' := name }
        (.inr ⟨ordinal, name, by omega, by omega, chosen, rfl⟩) registers

theorem update_sound (sound : Sound ⟨registry, taken⟩) (updates : registry.update id registration = .ok next) :
    Sound ⟨next, taken⟩ ∧ Counts registry next 0 0 := by
  simp only [DnsSdRegistry.update, bind_eq_ok, okOr_eq_ok] at updates
  obtain ⟨-, -, previous, found, updates⟩ := updates
  split at updates
  · cases updates
  · rename_i free
    cases pure_eq_ok.1 updates
    have released : Function.update registry.keys (.fromRegistration previous) none
        (.fromRegistration registration) = none := by
      by_cases same : RegistrationKey.fromRegistration registration = .fromRegistration previous
      · rw [same, Function.update_self]
      · rw [Function.update_of_ne same]
        by_contra taken
        exact free ⟨Ne.symm same, Option.isSome_iff_ne_none.2 taken⟩
    have gone : (registry.registrations.erase id)[id]? = none := by rw [erase_found, if_pos rfl]
    have absent : ∀ filter, ¬ Shown (registry.registrations.erase id) filter id := by
      rintro filter ⟨stored, kept, -⟩
      rw [gone] at kept
      cases kept
    have present : ∀ filter, filter.selects previous = true → Shown registry.registrations filter id :=
      fun filter selected => ⟨previous, found, selected⟩
    refine ⟨⟨?_, ?_, fun other stored kept => ?_, sound.subscribed, fun subscription later => ?_⟩,
      ⟨le_rfl, le_rfl⟩⟩
    · have indexed := (sound.indexed.erase found).insert gone released
      rwa [erase_insert] at indexed
    · have removed := (sound.views.notify_removed present).congr fun filter other =>
        (shown_erase found filter other).symm
      have views : Views { registry.notify .removed id previous with
          keys := Function.update (Function.update registry.keys (.fromRegistration previous) none)
            (.fromRegistration registration) (some id) } taken
          (Shown (registry.registrations.erase id)) := removed
      refine (views.notify_added absent).congr fun filter other => ?_
      rw [← shown_insert gone, erase_insert]
      rfl
    · change (registry.registrations.insert id registration)[other]? = some stored at kept
      rw [insert_found] at kept
      split at kept
      · rename_i same
        exact same ▸ sound.live id previous found
      · exact sound.live other stored kept
    · have first : taken subscription = [] ∧
          (registry.notify .removed id previous).pending[subscription]? = none :=
        notify_future sound.subscribed later (sound.future subscription later)
      let released : DnsSdRegistry := { registry.notify .removed id previous with
        keys := Function.update (Function.update registry.keys (.fromRegistration previous) none)
          (.fromRegistration registration) (some id) }
      have subscribed : ∀ (subscription : Nat) filter, released.subscriptions[subscription]? = some filter →
            subscription ≤ released.nextSubscriptionId := sound.subscribed
      exact notify_future subscribed later first

theorem unregister_sound (sound : Sound ⟨registry, taken⟩)
    (unregisters : registry.unregister id = .ok (registration, next)) :
    Sound ⟨next, taken⟩ ∧ Counts registry next 0 0 := by
  simp only [DnsSdRegistry.unregister, bind_eq_ok, okOr_eq_ok] at unregisters
  obtain ⟨stored, found, unregisters⟩ := unregisters
  cases pure_eq_ok.1 unregisters
  have present : ∀ filter, filter.selects registration = true →
      Shown registry.registrations filter id := fun filter selected => ⟨registration, found, selected⟩
  refine ⟨⟨sound.indexed.erase found, ?_, fun other stored kept => ?_, sound.subscribed,
    fun subscription later => notify_future sound.subscribed later (sound.future subscription later)⟩,
    ⟨le_rfl, le_rfl⟩⟩
  · have views : Views { registry with
        registrations := registry.registrations.erase id
        keys := Function.update registry.keys (.fromRegistration registration) none } taken
        (Shown registry.registrations) := sound.views
    exact (views.notify_removed present).congr fun filter other =>
      (shown_erase found filter other).symm
  · change (registry.registrations.erase id)[other]? = some stored at kept
    rw [erase_found] at kept
    split at kept
    · cases kept
    · exact sound.live other stored kept

theorem unregisterAll_sound (ids : List Nat) (sound : Sound ⟨registry, taken⟩) :
    Sound ⟨(registry.unregisterAll ids).2, taken⟩ ∧ Counts registry (registry.unregisterAll ids).2 0 0 := by
  induction ids generalizing registry with
  | nil => exact ⟨sound, le_rfl, le_rfl⟩
  | cons id rest ih =>
    rw [DnsSdRegistry.unregisterAll]
    cases removes : registry.unregister id with
    | error e => exact ih sound
    | ok result =>
      obtain ⟨removed, next⟩ := result
      obtain ⟨later, counts⟩ := unregister_sound sound removes
      obtain ⟨all, counts'⟩ := ih later
      exact ⟨all, counts'.registrations.trans counts.registrations,
        counts'.subscriptions.trans counts.subscriptions⟩

theorem subscribe_sound (filter : DnsSdBrowseFilter) (sound : Sound ⟨registry, taken⟩)
    (room : registry.nextSubscriptionId + 1 < 2 ^ 64) :
    Sound ⟨(registry.subscribe filter).2, taken⟩ ∧ Counts registry (registry.subscribe filter).2 0 1 := by
  have fresh := nextId_eq room
  simp only [DnsSdRegistry.subscribe, fresh]
  refine ⟨⟨sound.indexed, fun subscription other subscribed => ?_, sound.live,
    fun subscription other subscribed => ?_, fun subscription later => ?_⟩, ⟨le_rfl, le_rfl⟩⟩
  · simp only [Std.ExtTreeMap.getElem?_insert, compare_eq_iff_eq] at subscribed ⊢
    by_cases new : registry.nextSubscriptionId + 1 = subscription
    · rw [if_pos new] at subscribed ⊢
      cases subscribed
      have untaken : taken (registry.nextSubscriptionId + 1) = [] :=
        (sound.future _ (Nat.lt_succ_self _)).1
      rw [← new, untaken, List.nil_append, Option.getD_some, List.map_map]
      have distinct : ((registry.registrations.toList.filter fun entry =>
          filter.selects entry.2).map (·.1)).Nodup :=
        (toList_keys_nodup registry.registrations).sublist (List.filter_sublist.map _)
      have told := mirrors_additions distinct
      rw [List.map_map] at told
      apply told.congr
      intro id
      simp only [List.mem_map, List.mem_filter, Prod.exists, Std.ExtTreeMap.mem_toList_iff_getElem?_eq_some,
        Shown]
      constructor
      · rintro ⟨id, stored, ⟨found, selected⟩, rfl⟩
        exact ⟨stored, found, selected⟩
      · rintro ⟨stored, found, selected⟩
        exact ⟨id, stored, ⟨found, selected⟩, rfl⟩
    · rw [if_neg new] at subscribed ⊢
      exact sound.views subscription other subscribed
  · simp only [Std.ExtTreeMap.getElem?_insert, compare_eq_iff_eq] at subscribed
    split at subscribed
    · rename_i new
      exact new ▸ le_rfl
    · exact Nat.le_succ_of_le (sound.subscribed subscription other subscribed)
  · have below : registry.nextSubscriptionId < subscription := Nat.lt_of_succ_lt later
    simp only [Std.ExtTreeMap.getElem?_insert, compare_eq_iff_eq]
    rw [if_neg (Nat.ne_of_lt later)]
    exact sound.future subscription below

theorem unsubscribe_sound (subscription : Nat) (sound : Sound ⟨registry, taken⟩) :
    Sound ⟨registry.unsubscribe subscription, taken⟩ ∧ Counts registry (registry.unsubscribe subscription) 0 0 := by
  refine ⟨⟨sound.indexed, fun other filter subscribed => ?_, sound.live,
    fun other filter subscribed => ?_, fun other later => ?_⟩, ⟨le_rfl, le_rfl⟩⟩
  · simp only [DnsSdRegistry.unsubscribe, Std.ExtTreeMap.getElem?_erase, compare_eq_iff_eq] at subscribed ⊢
    split at subscribed
    · cases subscribed
    · rename_i apart
      rw [if_neg apart]
      exact sound.views other filter subscribed
  · simp only [DnsSdRegistry.unsubscribe, Std.ExtTreeMap.getElem?_erase, compare_eq_iff_eq] at subscribed
    split at subscribed
    · cases subscribed
    · exact sound.subscribed other filter subscribed
  · obtain ⟨untaken, none⟩ := sound.future other later
    refine ⟨untaken, ?_⟩
    simp only [DnsSdRegistry.unsubscribe, Std.ExtTreeMap.getElem?_erase, compare_eq_iff_eq, none]
    split <;> rfl

theorem takeUpdates_sound (subscription : Nat) (sound : Sound ⟨registry, taken⟩) :
    Sound ⟨(registry.takeUpdates subscription).2, Function.update taken subscription
        (taken subscription ++ (registry.takeUpdates subscription).1)⟩ ∧
      Counts registry (registry.takeUpdates subscription).2 0 0 := by
  cases waiting : registry.pending[subscription]? with
  | none =>
    simp only [DnsSdRegistry.takeUpdates, waiting, List.append_nil, Function.update_eq_self]
    exact ⟨sound, le_rfl, le_rfl⟩
  | some updates =>
    simp only [DnsSdRegistry.takeUpdates, waiting]
    refine ⟨⟨sound.indexed, fun other filter subscribed => ?_, sound.live, sound.subscribed,
      fun other later => ?_⟩, ⟨le_rfl, le_rfl⟩⟩
    · have before := sound.views other filter subscribed
      simp only [Std.ExtTreeMap.getElem?_insert, compare_eq_iff_eq]
      by_cases same : subscription = other
      · subst same
        rw [waiting] at before
        simpa using before
      · rw [Function.update_of_ne (Ne.symm same), if_neg same]
        exact before
    · have future := sound.future other later
      have apart : subscription ≠ other := by
        rintro rfl
        rw [waiting] at future
        cases future.2
      simp only [Std.ExtTreeMap.getElem?_insert, compare_eq_iff_eq]
      rw [Function.update_of_ne (Ne.symm apart), if_neg apart]
      exact future

end

theorem apply_sound {op : RegistryOp} (sound : Sound s)
    (registers : op.registers = true → s.registry.nextRegistrationId + 1 < 2 ^ 64)
    (subscribes : op.subscribes = true → s.registry.nextSubscriptionId + 1 < 2 ^ 64) :
    Sound (op.apply s) ∧ Counts s.registry (op.apply s).registry (if op.registers then 1 else 0)
        (if op.subscribes then 1 else 0) := by
  obtain ⟨registry, taken⟩ := s
  cases op with simp only [RegistryOp.apply]
  | register registration =>
    cases done : registry.register registration with
    | error e => exact ⟨sound, Nat.le_succ _, le_rfl⟩
    | ok result => exact register_sound sound (registers rfl) done
  | registerWithAutomaticRename registration =>
    cases done : registry.registerWithAutomaticRename registration with
    | error e => exact ⟨sound, Nat.le_succ _, le_rfl⟩
    | ok result =>
      obtain ⟨renamed, -, done'⟩ := registerRenamed_register le_rfl done
      exact register_sound sound (registers rfl) done'
  | update id registration =>
    cases done : registry.update id registration with
    | error e => exact ⟨sound, le_rfl, le_rfl⟩
    | ok result => exact update_sound sound done
  | unregister id =>
    cases done : registry.unregister id with
    | error e => exact ⟨sound, le_rfl, le_rfl⟩
    | ok result => exact unregister_sound sound done
  | removeInterface interface => exact unregisterAll_sound _ sound
  | subscribe filter => exact subscribe_sound filter sound (subscribes rfl)
  | unsubscribe id => exact unsubscribe_sound id sound
  | takeUpdates id => exact takeUpdates_sound id sound

theorem run_sound (ops : List RegistryOp) (sound : Sound s)
    (registers : s.registry.nextRegistrationId + ops.countP (·.registers) < 2 ^ 64)
    (subscribes : s.registry.nextSubscriptionId + ops.countP (·.subscribes) < 2 ^ 64) : Sound (s.run ops) := by
  induction ops generalizing s with
  | nil => exact sound
  | cons op rest ih =>
    rw [List.countP_cons] at registers subscribes
    have first : op.registers = true → s.registry.nextRegistrationId + 1 < 2 ^ 64 := by
      intro here
      rw [if_pos here] at registers
      omega
    have first' : op.subscribes = true → s.registry.nextSubscriptionId + 1 < 2 ^ 64 := by
      intro here
      rw [if_pos here] at subscribes
      omega
    obtain ⟨next, counts⟩ := apply_sound sound first first'
    have more := counts.registrations
    have more' := counts.subscriptions
    exact ih next (by omega) (by omega)

theorem start_sound : Sound .start := by
  refine ⟨fun key id => ?_, fun subscription filter subscribed => ?_, fun id registration found => ?_,
    fun subscription filter subscribed => ?_, fun subscription _ => ⟨rfl, ?_⟩⟩
  · simp [Observed.start, DnsSdRegistry.empty]
  all_goals simp_all [Observed.start, DnsSdRegistry.empty]

/-- After any history with fewer than 2^64 calls that register a service, and as few that subscribe,
the keys are those of the registrations and every subscription knows what its filter selects. -/
theorem registry_consistent (ops : List RegistryOp) (registers : ops.countP (·.registers) < 2 ^ 64)
    (subscribes : ops.countP (·.subscribes) < 2 ^ 64) : Consistent (Observed.start.run ops) := by
  have sound := run_sound ops start_sound
    (by simpa [Observed.start, DnsSdRegistry.empty] using registers)
    (by simpa [Observed.start, DnsSdRegistry.empty] using subscribes)
  exact ⟨sound.indexed, sound.views⟩

def printer (octet : UInt8) (clean : octet ≠ 0) : DnsSdRegistration where
  instance' := ⟨[octet], by simp, by simp, by simpa using Ne.symm clean⟩
  serviceType := ⟨"_ipp".toList, "_tcp".toList⟩
  domain := ["local".toList]
  host := ["host".toList, "local".toList]
  port := 631
  priority := 0
  weight := 0
  txt := []
  subtypes := []
  addresses := []
  interface := ⟨2, .ipv4⟩
  ttl := 120

def printers : DnsSdBrowseFilter := ⟨⟨"_ipp".toList, "_tcp".toList⟩, ["local".toList], none⟩

theorem registry_consistent_renamed : Consistent (Observed.start.run
    [.subscribe printers, .register (printer 97 (by decide)),
      .registerWithAutomaticRename (printer 97 (by decide)), .takeUpdates 1, .unregister 1]) :=
  registry_consistent _ (by decide) (by decide)

def first : DnsSdRegistration := printer 97 (by decide)

def second : DnsSdRegistration := printer 98 (by decide)

def longHistory (rounds : Nat) : List RegistryOp :=
  .register first ::
    (List.range rounds).flatMap (fun round => [.register second, .unregister (round + 2)]) ++
    [.registerWithAutomaticRename second]

structure AfterRounds (s : Observed) (rounds : Nat) : Prop where
  counter : s.registry.nextRegistrationId = rounds + 1
  key : s.registry.keys (.fromRegistration first) = some 1
  free : s.registry.keys (.fromRegistration second) = none
  stays : s.registry.registrations[1]? = some first

theorem first_valid : first.validate = .ok () := rfl

theorem second_valid : second.validate = .ok () := rfl

theorem keys_apart : RegistrationKey.fromRegistration first ≠ .fromRegistration second := by decide

theorem register_free {registry : DnsSdRegistry} {registration : DnsSdRegistration}
    (valid : registration.validate = .ok ()) (free : registry.keys (.fromRegistration registration) = none) :
    ∃ next, registry.register registration = .ok (nextId registry.nextRegistrationId, next) ∧
      next.nextRegistrationId = nextId registry.nextRegistrationId ∧
      next.keys = Function.update registry.keys (.fromRegistration registration)
        (some (nextId registry.nextRegistrationId)) ∧ next.registrations =
        registry.registrations.insert (nextId registry.nextRegistrationId) registration := by
  have registered : registry.register registration = .ok (nextId registry.nextRegistrationId,
      { ({ registry with nextRegistrationId := nextId registry.nextRegistrationId }).notify .added
          (nextId registry.nextRegistrationId) registration with
        keys := Function.update registry.keys (.fromRegistration registration)
          (some (nextId registry.nextRegistrationId))
        registrations :=
          registry.registrations.insert (nextId registry.nextRegistrationId) registration }) := by
    rw [DnsSdRegistry.register, valid, ok_bind]
    simp only [free, Option.isSome_none, Bool.false_eq_true, if_false]
    rfl
  exact ⟨_, registered, rfl, rfl, rfl⟩

theorem round_after (after : AfterRounds s rounds) (room : rounds + 2 < 2 ^ 64) :
    AfterRounds (s.run [.register second, .unregister (rounds + 2)]) (rounds + 1) := by
  obtain ⟨next, registered, counter, keys, registrations⟩ := register_free second_valid after.free
  have id : nextId s.registry.nextRegistrationId = rounds + 2 := by
    rw [after.counter, nextId_eq (by omega)]
  rw [id] at registered counter keys registrations
  have found : next.registrations[rounds + 2]? = some second := by
    rw [registrations, insert_found, if_pos rfl]
  have run : s.run [.register second, .unregister (rounds + 2)] =
      ⟨({ next with
          registrations := next.registrations.erase (rounds + 2)
          keys := Function.update next.keys (.fromRegistration second) none }).notify .removed
            (rounds + 2) second, s.taken⟩ := by
    simp only [Observed.run, List.foldl_cons, List.foldl_nil, RegistryOp.apply, registered,
      DnsSdRegistry.unregister, found, okOr_some, ok_bind]
    rfl
  rw [run]
  refine ⟨counter, ?_, ?_, ?_⟩
  · simp only [notify_keys]
    rw [Function.update_of_ne keys_apart, keys, Function.update_of_ne keys_apart]
    exact after.key
  · simp only [notify_keys, Function.update_self]
  · simp only [notify_registrations]
    rw [erase_found, if_neg (by omega), registrations, insert_found, if_neg (by omega)]
    exact after.stays

theorem rounds_after (rounds : Nat) (after : AfterRounds s 0) (room : rounds + 1 < 2 ^ 64) :
    AfterRounds (s.run ((List.range rounds).flatMap fun round =>
      [.register second, .unregister (round + 2)])) rounds := by
  induction rounds with
  | zero => exact after
  | succ rounds ih =>
    have before := ih (by omega)
    rw [List.range_succ, List.flatMap_append, Observed.run, List.foldl_append]
    exact round_after before room

theorem first_after : AfterRounds (Observed.start.run [.register first]) 0 := by
  have free : Observed.start.registry.keys (.fromRegistration first) = none := rfl
  obtain ⟨next, registered, counter, keys, registrations⟩ := register_free first_valid free
  have run : Observed.start.run [.register first] = ⟨next, fun _ => []⟩ := by
    simp only [Observed.run, List.foldl_cons, List.foldl_nil, RegistryOp.apply, registered]
    rfl
  rw [run]
  refine ⟨counter, ?_, ?_, ?_⟩
  · rw [keys, Function.update_self]
    rfl
  · rw [keys, Function.update_of_ne (Ne.symm keys_apart)]
    rfl
  · rw [registrations, insert_found, if_pos (by rfl)]

theorem longHistory_inconsistent (round : rounds + 2 = 2 ^ 64) :
    ¬ Consistent (Observed.start.run (longHistory rounds)) := by
  have after := rounds_after rounds first_after (by omega)
  have whole : Observed.start.run (longHistory rounds) =
      RegistryOp.apply ((Observed.start.run [.register first]).run
        ((List.range rounds).flatMap fun round => [.register second, .unregister (round + 2)]))
        (.registerWithAutomaticRename second) := by
    simp only [longHistory, Observed.run, List.cons_append, List.foldl_cons, List.foldl_append, List.foldl_nil]
  rw [whole]
  generalize (Observed.start.run [.register first]).run _ = s at after
  obtain ⟨next, registered, -, keys, registrations⟩ := register_free second_valid after.free
  have id : nextId s.registry.nextRegistrationId = 1 := by
    rw [after.counter, nextId, round, Nat.mod_self]
    rfl
  rw [id] at registered keys registrations
  have last : RegistryOp.apply s (.registerWithAutomaticRename second) = ⟨next, s.taken⟩ := by
    have renamed : s.registry.registerWithAutomaticRename second =
        .ok ((1, second.instance'), next) := by
      rw [DnsSdRegistry.registerWithAutomaticRename, DnsSdRegistry.registerRenamed]
      simp only [if_true, ok_bind]
      rw [if_neg (by simp [after.free]), registered]
      rfl
    simp only [RegistryOp.apply, renamed]
  rw [last]
  intro consistent
  have known : next.keys (.fromRegistration first) = some 1 := by
    rw [keys, Function.update_of_ne keys_apart]
    exact after.key
  obtain ⟨stored, found, own⟩ := (consistent.keys _ _).1 known
  rw [registrations, insert_found, if_pos rfl] at found
  cases found
  exact keys_apart own.symm

theorem longHistory_counts {rounds : Nat} (call : RegistryCall) :
    (longHistory rounds).countP (·.call = call) ≤ rounds + 1 := by
  have each : ((List.range rounds).flatMap fun round =>
      [RegistryOp.register second, .unregister (round + 2)]).countP (·.call = call) ≤ rounds := by
    induction rounds with
    | zero => simp
    | succ rounds ih =>
      rw [List.range_succ, List.flatMap_append, List.countP_append]
      have one : ([rounds].flatMap fun round =>
          [RegistryOp.register second, .unregister (round + 2)]).countP (·.call = call) ≤ 1 := by
        cases call <;> simp [RegistryOp.call]
      omega
  simp only [longHistory, List.cons_append, List.countP_cons, List.countP_append, List.countP_nil]
  cases call <;> simp [RegistryOp.call] at each ⊢ <;> omega

theorem registry_identifier_returns :
    ∃ ops : List RegistryOp, (∀ call, ops.countP (·.call = call) < 2 ^ 64) ∧
      ¬ Consistent (Observed.start.run ops) := by
  refine ⟨longHistory (2 ^ 64 - 2), fun call => ?_, longHistory_inconsistent (by norm_num)⟩
  have few := @longHistory_counts (2 ^ 64 - 2) call
  omega

end Resolved.Proof.DnsSd
