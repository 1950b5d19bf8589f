import Resolved.Lib.PushAll
import Resolved.Spec.Routing

namespace Resolved.Proof.Routing
open Lib Resolved.Routing Spec

variable {table looped : RoutingTable} {link : LinkState} {ifindex : Int}
  {kernels : List KernelLinkState} {kernel : KernelLinkState} {seen : List Int}

theorem table_eq_iff {other : RoutingTable} :
    table = other ↔ (∀ ifindex : Int, table.links[ifindex]? = other.links[ifindex]?) ∧
      table.kernelSynchronized = other.kernelSynchronized := by
  constructor
  · rintro rfl
    exact ⟨fun _ => rfl, rfl⟩
  · rintro ⟨links, flag⟩
    obtain ⟨links', flag', keyed⟩ := table
    obtain rfl : links' = other.links := Std.ExtTreeMap.ext_getElem? links
    obtain rfl : flag' = other.kernelSynchronized := flag
    rfl

@[simp] theorem put_links (table : RoutingTable) (link : LinkState) (positive : 0 < link.ifindex)
    (ifindex : Int) :
    (table.put link positive).links[ifindex]? =
      if link.ifindex = ifindex then some link else table.links[ifindex]? := by
  simp [RoutingTable.put, Std.ExtTreeMap.getElem?_insert]

@[simp] theorem put_kernelSynchronized (table : RoutingTable) (link : LinkState) (positive : 0 < link.ifindex) :
    (table.put link positive).kernelSynchronized = table.kernelSynchronized := rfl

theorem put_eq_self_iff {positive : 0 < link.ifindex} :
    table.put link positive = table ↔ table.links[link.ifindex]? = some link := by
  rw [table_eq_iff]
  simp only [put_links, put_kernelSynchronized, and_true]
  constructor
  · intro same
    have := same link.ifindex
    simpa using this.symm
  · intro found ifindex
    split
    · rename_i own
      rw [← own, found]
    · rfl

theorem linkMut_cases (table : RoutingTable) (ifindex : Int) :
    (¬ MakesLink table ifindex ∧ ∃ error, table.linkMut ifindex = .error error) ∨
    (∃ entered : RoutingTable.Entered ifindex, table.links[ifindex]? = some entered.link ∧
      table.linkMut ifindex = .ok (entered, table)) ∨
    (MakesLink table ifindex ∧ ∃ positive own, table.linkMut ifindex =
      .ok (⟨.fresh ifindex, positive, own⟩, table.put (.fresh ifindex) positive)) := by
  unfold RoutingTable.linkMut MakesLink
  by_cases positive : 0 < ifindex
  · simp only [positive, dite_true]
    split
    · rename_i link found
      exact .inr (.inl ⟨⟨link, positive, (table.keyed ifindex link found).2⟩, found, rfl⟩)
    · rename_i absent
      cases sync : table.kernelSynchronized with
      | true => exact .inl ⟨by simp, _, rfl⟩
      | false => exact .inr (.inr ⟨⟨trivial, absent, rfl⟩, trivial, rfl, rfl⟩)
  · exact .inl ⟨fun makes => positive makes.1, by simp [positive]⟩

theorem not_makesLink_of_found (found : table.links[ifindex]? = some link) : ¬ MakesLink table ifindex := by
  rintro ⟨-, absent, -⟩
  rw [found] at absent
  cases absent

section
variable {α : Type} {field : LinkField α} {table : RoutingTable} {ifindex : Int} {value : α}

theorem put_set_ne_of_found {positive : 0 < (field.set link value).ifindex}
    (found : table.links[ifindex]? = some link) (differ : field.get link ≠ value) :
    table.put (field.set link value) positive ≠ table := by
  rw [ne_eq, put_eq_self_iff, field.set_ifindex, (table.keyed ifindex link found).2, found, Option.some.injEq]
  intro same
  rw [same] at differ
  exact differ (field.get_set _ _)

theorem put_fresh_ne {positive : 0 < (LinkState.fresh ifindex).ifindex} (makes : MakesLink table ifindex) :
    table.put (.fresh ifindex) positive ≠ table := by
  intro same
  have present := put_eq_self_iff.1 same
  rw [show (LinkState.fresh ifindex).ifindex = ifindex from rfl, makes.2.1] at present
  cases present

theorem put_set_fresh_ne (makes : MakesLink table ifindex) :
    (table.put (.fresh ifindex) positive).put (field.set (.fresh ifindex) value) positive' ≠ table := by
  intro same
  have own : (LinkState.fresh ifindex).ifindex = ifindex := rfl
  have present := congrArg (fun t : RoutingTable => t.links[ifindex]?) same
  simp only [put_links, field.set_ifindex, own, if_true, makes.2.1] at present
  cases present

end

theorem setField_cases {α : Type} [DecidableEq α] (field : LinkField α) (table : RoutingTable) (ifindex : Int)
    (argument : Except LinkError α) :
    (¬ MakesLink table ifindex ∧ ((∃ error, table.setField field ifindex argument = (.error error, table)) ∨
        table.setField field ifindex argument = (.ok false, table) ∨
        ∃ table', table.setField field ifindex argument = (.ok true, table') ∧ table' ≠ table)) ∨
    (MakesLink table ifindex ∧ ∃ table' ≠ table, ((∃ error, argument = .error error ∧
          table.setField field ifindex argument = (.error error, table')) ∨
        (argument = .ok (field.get (.fresh ifindex)) ∧
          table.setField field ifindex argument = (.ok false, table')) ∨
        ((∀ error, argument ≠ .error error) ∧ argument ≠ .ok (field.get (.fresh ifindex)) ∧
          table.setField field ifindex argument = (.ok true, table')))) := by
  unfold RoutingTable.setField
  rcases linkMut_cases table ifindex with ⟨unmade, error, run⟩ | ⟨entered, found, run⟩ |
    ⟨makes, positive, own, run⟩
  · exact .inl ⟨unmade, .inl ⟨error, by simp only [run]⟩⟩
  · refine .inl ⟨not_makesLink_of_found found, ?_⟩
    simp only [run]
    cases argument with
    | error error => exact .inl ⟨error, rfl⟩
    | ok value =>
      simp only
      split
      · exact .inr (.inl rfl)
      · rename_i differ
        exact .inr (.inr ⟨_, rfl, put_set_ne_of_found found differ⟩)
  · -- the link has been made: the table differs from now on
    refine .inr ⟨makes, ?_⟩
    simp only [run]
    cases argument with
    | error error => exact ⟨_, put_fresh_ne makes, .inl ⟨error, rfl, rfl⟩⟩
    | ok value =>
      simp only
      split
      · rename_i same
        exact ⟨_, put_fresh_ne makes, .inr (.inl ⟨congrArg _ same.symm, rfl⟩)⟩
      · rename_i differ
        refine ⟨_, put_set_fresh_ne makes, .inr (.inr ⟨by simp, ?_, rfl⟩)⟩
        intro same
        exact differ (Except.ok.inj same).symm

theorem setField_reports {α : Type} [DecidableEq α] (field : LinkField α) (table : RoutingTable) (ifindex : Int)
    (argument : Except LinkError α) :
    Reports table (table.setField field ifindex argument) ↔
      ¬ (MakesLink table ifindex ∧ ((∃ error, argument = .error error) ∨
        argument = .ok (field.get (.fresh ifindex)))) := by
  rcases setField_cases field table ifindex argument with
    ⟨unmade, ⟨error, run⟩ | run | ⟨table', run, differ⟩⟩ |
    ⟨makes, table', differ, ⟨error, failed, run⟩ | ⟨same, run⟩ | ⟨accepted, other, run⟩⟩
  · simp [Reports, run, unmade]
  · simp [Reports, run, unmade]
  · simp [Reports, run, unmade, differ]
  · simp only [Reports, run]
    simp [makes, failed, differ]
  · simp only [Reports, run]
    simp [makes, same, differ]
  · simp [Reports, run, accepted, other, differ]

theorem pushNew_eq_pushAll {α : Type} [DecidableEq α] (values : List α) : pushNew values = pushAll [] values := rfl

theorem mem_pushNew {α : Type} [DecidableEq α] {values : List α} {value : α} :
    value ∈ pushNew values ↔ value ∈ values := by
  rw [pushNew_eq_pushAll, mem_pushAll, List.mem_nil_iff, false_or]

theorem pushNew_nodup {α : Type} [DecidableEq α] (values : List α) : (pushNew values).Nodup :=
  pushAll_nodup List.nodup_nil

theorem pushNew_of_nodup {α : Type} [DecidableEq α] {values : List α} (nodup : values.Nodup) :
    pushNew values = values :=
  pushAll_eq_append (by simp) nodup

theorem pushNew_eq_nil {α : Type} [DecidableEq α] {values : List α} : pushNew values = [] ↔ values = [] := by
  simp only [List.eq_nil_iff_forall_not_mem, mem_pushNew]

theorem collected_trouble {α β : Type} [DecidableEq β] (f : α → Except LinkError β) (values : List α) :
    ((∃ error, pushNew <$> values.mapM f = .error error) ∨ pushNew <$> values.mapM f = .ok []) ↔
      values = [] ∨ ∃ value ∈ values, ∃ error, f value = .error error := by
  rw [← mapM_eq_error]
  cases h : values.mapM f with
  | error error => simp
  | ok results =>
    have length := mapM_length h
    have empty : results = [] ↔ values = [] := by
      rw [← List.length_eq_zero_iff, length, List.length_eq_zero_iff]
    simp [pushNew_eq_nil, empty]

theorem normalizeDomain_error :
    (∃ error, normalizeDomain domain = .error error) ↔ ∃ error, normalizeName domain.name = .error error := by
  unfold normalizeDomain
  split <;> simp_all

theorem lastReport_cons (kernel : KernelLinkState) (rest : List KernelLinkState) (ifindex : Int) :
    lastReport (kernel :: rest) ifindex =
      (lastReport rest ifindex).or (if kernel.ifindex = ifindex then some kernel else none) := by
  unfold lastReport
  by_cases own : kernel.ifindex = ifindex
  · simp only [List.filter_cons, own, decide_true, if_true]
    cases later : (rest.filter fun kernel => kernel.ifindex = ifindex).getLast? with
    | none =>
      rw [List.getLast?_eq_none_iff] at later
      simp [later]
    | some last =>
      cases tail : rest.filter fun kernel => kernel.ifindex = ifindex with
      | nil => simp [tail] at later
      | cons next others =>
        rw [List.getLast?_cons_cons, ← tail, later]
        rfl
  · simp [own]

theorem lastReport_mem (h : lastReport kernels ifindex = some kernel) : kernel ∈ kernels ∧ kernel.ifindex = ifindex := by
  have member := List.mem_of_getLast? h
  simpa using member

theorem lastReport_eq_none : lastReport kernels ifindex = none ↔ ∀ kernel ∈ kernels, kernel.ifindex ≠ ifindex := by
  simp [lastReport]

theorem lastReport_isSome (member : kernel ∈ kernels) : ∃ last, lastReport kernels kernel.ifindex = some last := by
  cases h : lastReport kernels kernel.ifindex with
  | none => exact absurd rfl (lastReport_eq_none.1 h kernel member)
  | some last => exact ⟨last, rfl⟩

theorem put_withKernel_eq_self {positive : 0 < (table.withKernel kernel).ifindex}
    (stored : table.kernelOf kernel.ifindex = some kernel) :
    table.put (table.withKernel kernel) positive = table := by
  rw [put_eq_self_iff, table.withKernel_ifindex]
  unfold RoutingTable.kernelOf at stored
  unfold RoutingTable.withKernel
  cases found : table.links[kernel.ifindex]? with
  | none => simp [found] at stored
  | some link =>
    simp only [found, Option.bind_some] at stored
    simp [← stored]

def reported (table : RoutingTable) (ifindex : Int) : Option KernelLinkState → Option LinkState
  | none => table.links[ifindex]?
  | some kernel =>
    some { (table.links[ifindex]?).getD (.fresh ifindex) with kernel := some kernel }

theorem reported_put (ifindex : Int) (later : Option KernelLinkState) :
    reported (table.put (table.withKernel kernel) positive) ifindex later =
      reported table ifindex (later.or (if kernel.ifindex = ifindex then some kernel else none)) := by
  have own := table.withKernel_ifindex kernel
  by_cases same : kernel.ifindex = ifindex
  · subst same
    have found : (table.put (table.withKernel kernel) positive).links[kernel.ifindex]? =
        some (table.withKernel kernel) := by
      rw [put_links, own, if_pos rfl]
    cases later with
    | none =>
      simp only [reported, found, if_true, Option.none_or]
      rfl
    | some last =>
      simp only [reported, found, Option.some_or, Option.getD_some]
      rfl
  · have kept : (table.put (table.withKernel kernel) positive).links[ifindex]? =
        table.links[ifindex]? := by
      rw [put_links, own, if_neg same]
    cases later <;> simp [reported, kept, same]

theorem syncLoop_table (kernels : List KernelLinkState) (changed : Bool) (seen : List Int)
    (table : RoutingTable) (ifindex : Int) :
    (RoutingTable.syncLoop kernels changed seen table).2.links[ifindex]? =
      reported table ifindex (lastReport (validReports kernels) ifindex) := by
  induction kernels generalizing changed seen table with
  | nil => rfl
  | cons kernel rest ih =>
    unfold RoutingTable.syncLoop validReports
    by_cases positive : 0 < kernel.ifindex
    · simp only [positive, dite_true, List.takeWhile_cons, decide_true, if_true]
      rw [ih, reported_put, lastReport_cons, validReports]
    · simp [positive, lastReport, reported]

theorem validReports_eq {kernels : List KernelLinkState} (valid : ∀ kernel ∈ kernels, 0 < kernel.ifindex) :
    validReports kernels = kernels :=
  List.takeWhile_eq_self_iff.2 (by simpa using valid)

theorem syncLoop_kernelSynchronized (kernels : List KernelLinkState) (changed : Bool) (seen : List Int)
    (table : RoutingTable) :
    (RoutingTable.syncLoop kernels changed seen table).2.kernelSynchronized = table.kernelSynchronized := by
  induction kernels generalizing changed seen table with
  | nil => rfl
  | cons kernel rest ih =>
    unfold RoutingTable.syncLoop
    split
    · rw [ih, put_kernelSynchronized]
    · rfl

theorem syncLoop_error (kernels : List KernelLinkState) (changed : Bool) (seen : List Int)
    (table : RoutingTable) :
    (∃ error, (RoutingTable.syncLoop kernels changed seen table).1 = .error error) ↔
      ∃ kernel ∈ kernels, kernel.ifindex ≤ 0 := by
  induction kernels generalizing changed seen table with
  | nil => simp [RoutingTable.syncLoop]
  | cons kernel rest ih =>
    unfold RoutingTable.syncLoop
    split
    · rename_i positive
      rw [ih, List.exists_mem_cons_iff]
      simp [not_le.2 positive]
    · rename_i invalid
      simp only [Except.error.injEq, exists_eq', true_iff, List.exists_mem_cons_iff]
      exact .inl (not_lt.1 invalid)

theorem syncLoop_ok (h : (RoutingTable.syncLoop kernels changed seen table).1 = .ok (changed', seen')) :
    (changed' = true ↔ changed = true ∨ ∃ kernel ∈ kernels, table.kernelOf kernel.ifindex ≠ some kernel) ∧
    ∀ ifindex, ifindex ∈ seen' ↔ ifindex ∈ seen ∨ ∃ kernel ∈ kernels, kernel.ifindex = ifindex := by
  induction kernels generalizing changed seen table with
  | nil =>
    simp only [RoutingTable.syncLoop, Except.ok.injEq, Prod.mk.injEq] at h
    obtain ⟨rfl, rfl⟩ := h
    simp
  | cons kernel rest ih =>
    unfold RoutingTable.syncLoop at h
    split at h
    · obtain ⟨noted, met⟩ := ih h
      constructor
      · by_cases stored : table.kernelOf kernel.ifindex = some kernel
        · rw [put_withKernel_eq_self stored] at noted
          rw [noted, List.exists_mem_cons_iff]
          simp [stored]
        · rw [noted, List.exists_mem_cons_iff]
          simp [stored]
      · intro ifindex
        rw [met, List.exists_mem_cons_iff, List.mem_cons, eq_comm (a := ifindex)]
        constructor
        · rintro ((own | old) | later)
          · exact .inr (.inl own)
          · exact .inl old
          · exact .inr (.inr later)
        · rintro (old | own | later)
          · exact .inl (.inr old)
          · exact .inl (.inl own)
          · exact .inr later
    · simp at h

theorem reported_eq_self_iff :
    (∀ ifindex : Int, reported table ifindex (lastReport kernels ifindex) = table.links[ifindex]?) ↔
      Settled table kernels := by
  constructor
  · intro same kernel member
    obtain ⟨last, found⟩ := lastReport_isSome member
    have here := same kernel.ifindex
    rw [found] at here ⊢
    rw [RoutingTable.kernelOf, ← here]
    rfl
  · intro settled ifindex
    cases found : lastReport kernels ifindex with
    | none => rfl
    | some last =>
      obtain ⟨member, rfl⟩ := lastReport_mem found
      have stored := settled last member
      rw [found] at stored
      unfold RoutingTable.kernelOf at stored
      cases present : table.links[last.ifindex]? with
      | none => simp [present] at stored
      | some link =>
        simp only [present, Option.bind_some] at stored
        simp [reported, present, ← stored]

theorem retainSeen_links (sync : table.kernelSynchronized = true) (seen : List Int) (ifindex : Int) :
    (table.retainSeen seen).links[ifindex]? = if ifindex ∈ seen then table.links[ifindex]? else none := by
  unfold RoutingTable.retainSeen
  rw [Std.ExtTreeMap.getElem?_filter']
  cases found : table.links[ifindex]? with
  | none => simp
  | some link => by_cases member : ifindex ∈ seen <;> simp [Option.filter, sync, member]

theorem retainSeen_size (sync : table.kernelSynchronized = true) (seen : List Int) :
    (table.retainSeen seen).links.size ≠ table.links.size ↔ ∃ ifindex ∈ table.links, ifindex ∉ seen := by
  unfold RoutingTable.retainSeen
  rw [ne_eq, Std.ExtTreeMap.size_filter_eq_size_iff]
  simp [sync]

theorem retained_eq_self_iff (sync : table.kernelSynchronized = true)
    (after : ∀ ifindex : Int, looped.links[ifindex]? = reported table ifindex (lastReport kernels ifindex))
    (flag : looped.kernelSynchronized = true)
    (seen_iff : ∀ ifindex, ifindex ∈ seen ↔ ∃ kernel ∈ kernels, kernel.ifindex = ifindex) :
    looped.retainSeen seen = table ↔ Settled table kernels ∧
      ∀ ifindex ∈ table.links, ∃ kernel ∈ kernels, kernel.ifindex = ifindex := by
  have unreported : ∀ ifindex, ifindex ∉ seen → lastReport kernels ifindex = none := by
    intro ifindex unseen
    rw [lastReport_eq_none]
    intro kernel member own
    exact unseen ((seen_iff ifindex).2 ⟨kernel, member, own⟩)
  rw [table_eq_iff, ← reported_eq_self_iff]
  simp only [retainSeen_links flag, after, ← seen_iff]
  constructor
  · rintro ⟨same, -⟩
    constructor
    · intro ifindex
      have here := same ifindex
      split at here
      · exact here
      · rename_i unseen
        rw [unreported ifindex unseen]
        rfl
    · intro ifindex member
      by_contra unseen
      have gone := same ifindex
      rw [if_neg unseen] at gone
      rw [Std.ExtTreeMap.mem_iff_isSome_getElem?, ← gone] at member
      cases member
  · rintro ⟨settled, covered⟩
    refine ⟨fun ifindex => ?_, sync.symm⟩
    split
    · exact settled ifindex
    · rename_i unseen
      have absent : ¬ ifindex ∈ table.links := fun member => unseen (covered ifindex member)
      rw [Std.ExtTreeMap.mem_iff_isSome_getElem?, Option.not_isSome_iff_eq_none] at absent
      exact absent.symm

theorem looped_mem_iff
    (after : ∀ ifindex : Int, looped.links[ifindex]? = reported table ifindex (lastReport kernels ifindex))
    (seen_iff : ∀ ifindex, ifindex ∈ seen ↔ ∃ kernel ∈ kernels, kernel.ifindex = ifindex) :
    (∃ ifindex ∈ looped.links, ifindex ∉ seen) ↔ ∃ ifindex ∈ table.links, ifindex ∉ seen := by
  have same : ∀ ifindex, ifindex ∉ seen → (ifindex ∈ looped.links ↔ ifindex ∈ table.links) := by
    intro ifindex unseen
    have none : lastReport kernels ifindex = none := by
      rw [lastReport_eq_none]
      intro kernel member own
      exact unseen ((seen_iff ifindex).2 ⟨kernel, member, own⟩)
    rw [Std.ExtTreeMap.mem_iff_isSome_getElem?, Std.ExtTreeMap.mem_iff_isSome_getElem?, after, none]
    rfl
  constructor
  · rintro ⟨ifindex, member, unseen⟩
    exact ⟨ifindex, (same ifindex unseen).1 member, unseen⟩
  · rintro ⟨ifindex, member, unseen⟩
    exact ⟨ifindex, (same ifindex unseen).2 member, unseen⟩

theorem settled_of_stored (stored : ∀ kernel ∈ kernels, table.kernelOf kernel.ifindex = some kernel) :
    Settled table kernels := by
  intro kernel member
  obtain ⟨last, found⟩ := lastReport_isSome member
  obtain ⟨lastMember, own⟩ := lastReport_mem found
  rw [found, ← own]
  exact stored last lastMember

theorem syncKernelLinks_cases (table : RoutingTable) (kernels : List KernelLinkState) :
    (∃ error looped, table.syncKernelLinks kernels = (.error error, looped) ∧
      (∃ kernel ∈ kernels, kernel.ifindex ≤ 0) ∧ (looped = table ↔ Settled table (validReports kernels))) ∨
    (∃ changed retained, table.syncKernelLinks kernels = (.ok changed, retained) ∧
      (∀ kernel ∈ kernels, 0 < kernel.ifindex) ∧ (changed = true ↔ table.kernelSynchronized = false ∨
        (∃ kernel ∈ kernels, table.kernelOf kernel.ifindex ≠ some kernel) ∨ (table.kernelSynchronized = true ∧
          ¬ ∀ ifindex ∈ table.links, ∃ kernel ∈ kernels, kernel.ifindex = ifindex)) ∧
      (retained = table ↔ table.kernelSynchronized = true ∧ Settled table kernels ∧
        ∀ ifindex ∈ table.links, ∃ kernel ∈ kernels, kernel.ifindex = ifindex)) := by
  have noError := syncLoop_error kernels (!table.kernelSynchronized) [] table
  have after := syncLoop_table kernels (!table.kernelSynchronized) [] table
  have flag := syncLoop_kernelSynchronized kernels (!table.kernelSynchronized) [] table
  unfold RoutingTable.syncKernelLinks
  cases run : RoutingTable.syncLoop kernels (!table.kernelSynchronized) [] table with
  | mk result looped =>
  simp only [run] at noError after flag
  cases result with
  | error error =>
    refine .inl ⟨error, looped, rfl, noError.1 ⟨error, rfl⟩, ?_⟩
    rw [table_eq_iff, ← reported_eq_self_iff]
    simp only [flag, after, and_true]
  | ok noted =>
    obtain ⟨changed, seen⟩ := noted
    have valid : ∀ kernel ∈ kernels, 0 < kernel.ifindex := by
      intro kernel member
      by_contra low
      obtain ⟨error, failed⟩ := noError.2 ⟨kernel, member, not_lt.1 low⟩
      cases failed
    obtain ⟨changed_iff, seen_iff⟩ := syncLoop_ok (congrArg Prod.fst run)
    simp only [List.not_mem_nil, false_or] at seen_iff
    rw [validReports_eq valid] at after
    refine .inr ⟨_, looped.retainSeen seen, rfl, valid, ?_⟩
    cases sync : table.kernelSynchronized with
    | false =>
      -- the first synchronization always changes the table and says so
      have noted : changed = true := changed_iff.2 (by simp [sync])
      refine ⟨by simp [noted], ?_⟩
      simp only [Bool.false_eq_true, false_and, iff_false]
      intro same
      have flipped := congrArg RoutingTable.kernelSynchronized same
      rw [sync] at flipped
      cases flipped
    | true =>
      rw [sync] at flag
      have vanished := (retainSeen_size flag seen).trans (looped_mem_iff after seen_iff)
      have uncovered : (∃ ifindex ∈ table.links, ifindex ∉ seen) ↔
          ¬ ∀ ifindex ∈ table.links, ∃ kernel ∈ kernels, kernel.ifindex = ifindex := by
        simp only [← seen_iff]
        push Not
        rfl
      rw [sync] at changed_iff
      simp only [Bool.not_true, Bool.false_eq_true, false_or] at changed_iff
      rw [Bool.or_eq_true, decide_eq_true_eq, vanished, uncovered, changed_iff,
        retained_eq_self_iff sync after flag seen_iff]
      simp

theorem syncKernelLinks_reports (table : RoutingTable) (kernels : List KernelLinkState) :
    Reports table (table.syncKernelLinks kernels) ↔ ¬ Misreports table (.syncKernelLinks kernels) := by
  unfold Misreports
  rcases syncKernelLinks_cases table kernels with ⟨error, looped, run, invalid, same⟩ |
    ⟨changed, retained, run, valid, changed_iff, same⟩
  · have mixed : ¬ ∀ kernel ∈ kernels, 0 < kernel.ifindex := by
      obtain ⟨kernel, member, low⟩ := invalid
      exact fun all => absurd (all kernel member) (not_lt.2 low)
    simp [Reports, run, same, invalid, mixed]
  · have noInvalid : ¬ ∃ kernel ∈ kernels, kernel.ifindex ≤ 0 := by
      rintro ⟨kernel, member, low⟩
      exact absurd (valid kernel member) (not_lt.2 low)
    have settled : (¬ ∃ kernel ∈ kernels, table.kernelOf kernel.ifindex ≠ some kernel) →
        Settled table kernels := by
      intro none
      push Not at none
      exact settled_of_stored none
    simp only [noInvalid, false_and, false_or, Reports, run, reduceCtorEq, false_implies,
      implies_true, true_and, Except.ok.injEq, forall_eq', changed_iff, ne_eq, same]
    generalize (∃ kernel ∈ kernels, ¬ table.kernelOf kernel.ifindex = some kernel) = stale at *
    generalize (∀ ifindex ∈ table.links, ∃ kernel ∈ kernels, kernel.ifindex = ifindex) = all
    generalize Settled table kernels = kept at *
    clear * - settled valid
    cases table.kernelSynchronized with
    | false => simp
    | true =>
      simp
      tauto

theorem revert_reports (table : RoutingTable) (ifindex : Int) : Reports table (table.revert ifindex) := by
  unfold RoutingTable.revert
  split
  · cases found : table.links[ifindex]? with
    | none => simp [Reports]
    | some link =>
      simp only
      split
      · simp [Reports]
      · rename_i differ
        refine ⟨by simp, ?_⟩
        simp only [Except.ok.injEq, forall_eq', ne_eq, true_iff]
        intro same
        have own := put_eq_self_iff.1 same
        exact differ (Option.some.inj (found.symm.trans own))
  · simp [Reports]

/-- An operation on the routing table reports what it did exactly outside the cases listed by
`Misreports`. -/
theorem tableOp_reports_iff (table : RoutingTable) (op : TableOp) :
    Reports table (op.apply table) ↔ ¬ Misreports table op := by
  cases op with
  | setDns ifindex servers =>
    refine (setField_reports _ _ _ _).trans ?_
    simp [Misreports, LinkField.dnsServers, LinkState.fresh, pushNew_eq_nil]
  | setDomains ifindex domains =>
    refine (setField_reports _ _ _ _).trans ?_
    have trouble := collected_trouble normalizeDomain domains
    simp only [normalizeDomain_error] at trouble
    rw [Misreports, ← trouble]
    rfl
  | setDefaultRoute ifindex mode | setLlmnr ifindex mode | setMulticastDns ifindex mode
  | setDnsOverTls ifindex mode | setDnssec ifindex mode =>
    refine (setField_reports _ _ _ _).trans ?_
    simp [Misreports, LinkField.defaultRoute, LinkField.llmnr, LinkField.multicastDns,
      LinkField.dnsOverTls, LinkField.dnssec, LinkState.fresh]
  | setDnssecNegativeTrustAnchors ifindex anchors =>
    refine (setField_reports _ _ _ _).trans ?_
    rw [Misreports, ← collected_trouble normalizeName anchors]
    rfl
  | syncKernelLinks kernels => exact syncKernelLinks_reports table kernels
  | revert ifindex => exact iff_of_true (revert_reports table ifindex) (by simp [Misreports])

def reportOf2 (mtu : UInt32) : KernelLinkState :=
  ⟨2, "eth0".toList, 0, mtu, 0, false, false, false, false⟩

theorem tableOp_misreports :
    ¬ Reports .empty ((TableOp.setDomains 2 [⟨"a..b".toList, false⟩]).apply .empty) ∧
    ¬ Reports .empty ((TableOp.setLlmnr 2 .yes).apply .empty) ∧ ¬ Reports .empty ((TableOp.syncKernelLinks
      [reportOf2 1500, { reportOf2 1500 with ifindex := 0 }]).apply .empty) ∧
    ¬ Reports (RoutingTable.empty.syncKernelLinks [reportOf2 1500]).2
      ((TableOp.syncKernelLinks [reportOf2 9000, reportOf2 1500]).apply
        (RoutingTable.empty.syncKernelLinks [reportOf2 1500]).2) := by
  refine ⟨fun reports => ?_, fun reports => ?_, fun reports => ?_, fun reports => ?_⟩
  · exact absurd (reports.1 (.invalidDomain "a..b".toList) (by decide)) (by decide)
  · exact absurd ((reports.2 false (by decide)).2 (by decide)) (by decide)
  · exact absurd (reports.1 (.invalidIfindex 0) (by decide)) (by decide)
  · exact absurd ((reports.2 true (by decide +kernel)).1 rfl) (by decide +kernel)

end Resolved.Proof.Routing
