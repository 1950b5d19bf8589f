import Resolved.Proof.Routing.Table

/-!
# Synchronization with the kernel, twice
-/

namespace Resolved.Proof.Routing
open Lib Resolved.Routing Spec

section
variable (table : RoutingTable) {kernels : List KernelLinkState}

theorem syncKernelLinks_after (valid : ∀ kernel ∈ kernels, 0 < kernel.ifindex) :
    (∃ changed, (table.syncKernelLinks kernels).1 = .ok changed) ∧
    (table.syncKernelLinks kernels).2.kernelSynchronized = true ∧
    ∀ ifindex : Int, (table.syncKernelLinks kernels).2.links[ifindex]? =
      (reported table ifindex (lastReport kernels ifindex)).filter fun link =>
        (∃ kernel ∈ kernels, kernel.ifindex = ifindex) ∨
          (link.kernel.isNone ∧ !table.kernelSynchronized) := by
  have noError := syncLoop_error kernels (!table.kernelSynchronized) [] table
  have after := syncLoop_table kernels (!table.kernelSynchronized) [] table
  have flag := syncLoop_kernelSynchronized kernels (!table.kernelSynchronized) [] table
  unfold RoutingTable.syncKernelLinks
  cases run : RoutingTable.syncLoop kernels (!table.kernelSynchronized) [] table with
  | mk result looped =>
  simp only [run] at noError after flag
  cases result with
  | error error =>
    obtain ⟨kernel, member, low⟩ := noError.1 ⟨error, rfl⟩
    exact absurd (valid kernel member) (not_lt.2 low)
  | ok noted =>
    obtain ⟨changed, seen⟩ := noted
    obtain ⟨-, seen_iff⟩ := syncLoop_ok (congrArg Prod.fst run)
    simp only [List.not_mem_nil, false_or] at seen_iff
    refine ⟨⟨_, rfl⟩, rfl, fun ifindex => ?_⟩
    rw [validReports_eq valid] at after
    simp only [RoutingTable.retainSeen]
    rw [Std.ExtTreeMap.getElem?_filter', after, flag]
    simp only [seen_iff]

theorem reported_some {ifindex : Int} {kernel : KernelLinkState} :
    reported table ifindex (some kernel) = some { (table.links[ifindex]?).getD (.fresh ifindex) with
      kernel := some kernel } := rfl

theorem syncKernelLinks_kernelOf (valid : ∀ kernel ∈ kernels, 0 < kernel.ifindex) {kernel : KernelLinkState}
    (member : kernel ∈ kernels) :
    (table.syncKernelLinks kernels).2.kernelOf kernel.ifindex = lastReport kernels kernel.ifindex := by
  obtain ⟨-, -, after⟩ := syncKernelLinks_after table valid
  obtain ⟨last, found⟩ := lastReport_isSome member
  rw [RoutingTable.kernelOf, after, found, reported_some, Option.filter_some, if_pos]
  · rfl
  · have seen : ∃ other ∈ kernels, other.ifindex = kernel.ifindex := ⟨kernel, member, rfl⟩
    simp [seen]

theorem syncKernelLinks_mem (valid : ∀ kernel ∈ kernels, 0 < kernel.ifindex) (ifindex : Int) :
    ifindex ∈ (table.syncKernelLinks kernels).2.links ↔ (∃ kernel ∈ kernels, kernel.ifindex = ifindex) ∨
        (table.kernelSynchronized = false ∧ ∃ link, table.links[ifindex]? = some link ∧ link.kernel = none) := by
  obtain ⟨-, -, after⟩ := syncKernelLinks_after table valid
  rw [Std.ExtTreeMap.mem_iff_isSome_getElem?, after]
  by_cases here : ∃ kernel ∈ kernels, kernel.ifindex = ifindex
  · obtain ⟨kernel, member, rfl⟩ := here
    obtain ⟨last, found⟩ := lastReport_isSome member
    have seen : ∃ other ∈ kernels, other.ifindex = kernel.ifindex := ⟨kernel, member, rfl⟩
    simp [found, reported_some, seen]
  · have none : lastReport kernels ifindex = none := by
      rw [lastReport_eq_none]
      intro kernel member own
      exact here ⟨kernel, member, own⟩
    cases found : table.links[ifindex]? with
    | none => simp [none, reported, found, here]
    | some link =>
      simp only [none, reported, found, here, Option.filter_some]
      by_cases sync : table.kernelSynchronized <;> simp [sync]

theorem holdsExactly_iff (valid : ∀ kernel ∈ kernels, 0 < kernel.ifindex) :
    HoldsExactly (table.syncKernelLinks kernels).2 kernels ↔ ¬ LeftOver table kernels := by
  unfold HoldsExactly LeftOver
  simp only [syncKernelLinks_mem table valid]
  constructor
  · rintro exactly ⟨sync, ifindex, link, found, bare, unreported⟩
    obtain ⟨kernel, member, own⟩ := (exactly ifindex).1 (.inr ⟨sync, link, found, bare⟩)
    exact unreported kernel member own
  · intro none ifindex
    constructor
    · rintro (here | ⟨sync, link, found, bare⟩)
      · exact here
      · by_contra unreported
        refine none ⟨sync, ifindex, link, found, bare, fun kernel member own => ?_⟩
        exact unreported ⟨kernel, member, own⟩
    · exact Or.inl

theorem lastReport_all_iff :
    (∀ kernel ∈ kernels, lastReport kernels kernel.ifindex = some kernel) ↔ ¬ Conflicting kernels := by
  unfold Conflicting
  constructor
  · rintro last ⟨kernel, member, other, member', own, differ⟩
    have here := last kernel member
    rw [own, last other member'] at here
    exact differ (Option.some.inj here).symm
  · intro agree kernel member
    obtain ⟨last, found⟩ := lastReport_isSome member
    obtain ⟨lastMember, own⟩ := lastReport_mem found
    rw [found]
    by_contra differ
    exact agree ⟨kernel, member, last, lastMember, own.symm, fun same => differ (by rw [same])⟩

theorem syncSettles_iff (valid : ∀ kernel ∈ kernels, 0 < kernel.ifindex) :
    SyncSettles table kernels ↔ ¬ LeftOver table kernels ∧ ¬ Conflicting kernels := by
  rw [← lastReport_all_iff, ← holdsExactly_iff table valid]
  obtain ⟨-, sync, -⟩ := syncKernelLinks_after table valid
  have kernelOf : ∀ kernel ∈ kernels, (table.syncKernelLinks kernels).2.kernelOf kernel.ifindex =
      lastReport kernels kernel.ifindex := fun _ => syncKernelLinks_kernelOf table valid
  have held := fun ifindex reported =>
    (syncKernelLinks_mem table valid ifindex).2 (.inl reported)
  unfold SyncSettles HoldsExactly
  generalize (table.syncKernelLinks kernels).2 = after at sync kernelOf held ⊢
  have settled : Settled after kernels := kernelOf
  rcases syncKernelLinks_cases after kernels with ⟨error, looped, run, ⟨kernel, member, low⟩, -⟩ |
    ⟨changed, retained, run, -, changed_iff, same⟩
  · exact absurd (valid kernel member) (not_lt.2 low)
  · rw [run, Prod.mk.injEq, Except.ok.injEq, same, ← Bool.not_eq_true, changed_iff]
    simp only [sync, settled, true_and, Bool.true_eq_false, false_or, not_or, not_exists, not_and, not_not]
    constructor
    · rintro ⟨⟨stored, -⟩, covered⟩
      refine ⟨fun ifindex => ⟨covered ifindex, held ifindex⟩, fun kernel member => ?_⟩
      rw [← kernelOf kernel member]
      exact stored kernel member
    · rintro ⟨exactly, last⟩
      have covered := fun ifindex member => (exactly ifindex).1 member
      refine ⟨⟨fun kernel member => ?_, covered⟩, covered⟩
      rw [kernelOf kernel member]
      exact last kernel member

end

/-- Synchronization is idempotent and exact unless a link that was configured before the first one is
not reported, or an interface is reported in two ways. -/
theorem syncKernelLinks_idempotent_iff (table : RoutingTable) (kernels : List KernelLinkState)
    (valid : ∀ kernel ∈ kernels, 0 < kernel.ifindex) :
    (SyncSettles table kernels ∧ HoldsExactly (table.syncKernelLinks kernels).2 kernels) ↔
      ¬ LeftOver table kernels ∧ ¬ Conflicting kernels := by
  rw [syncSettles_iff table valid, holdsExactly_iff table valid]
  constructor
  · exact And.left
  · intro both
    exact ⟨both, both.1⟩

def loopbackReport : KernelLinkState := ⟨1, ['l', 'o'], 9, 65536, 0, false, false, false, false⟩

theorem syncKernelLinks_idempotent_iff_configured :
    let configured := (RoutingTable.empty.setDns 1 [.v4 ⟨192, 0, 2, 1⟩ 53]).2
    SyncSettles configured [loopbackReport] ∧
      HoldsExactly (configured.syncKernelLinks [loopbackReport]).2 [loopbackReport] := by
  intro configured
  refine (syncKernelLinks_idempotent_iff configured [loopbackReport] (by simp [loopbackReport])).2
    ⟨?_, ?_⟩
  · rintro ⟨-, ifindex, link, found, -, away⟩
    have only : configured.links.keys = [1] := by decide +kernel
    have member : ifindex ∈ configured.links.keys :=
      Std.ExtTreeMap.mem_keys.2 (Std.ExtTreeMap.mem_iff_isSome_getElem?.2 (by rw [found]; rfl))
    rw [only, List.mem_singleton] at member
    exact away loopbackReport List.mem_cons_self member.symm
  · rintro ⟨kernel, member, other, member', -, differ⟩
    rw [List.mem_singleton] at member member'
    exact differ (member.trans member'.symm)

theorem syncKernelLinks_drops_later :
    let configured := (RoutingTable.empty.setDns 2 [.v4 ⟨192, 0, 2, 1⟩ 53]).2
    let first := configured.syncKernelLinks [loopbackReport]
    let second := first.2.syncKernelLinks [loopbackReport]
    (first.1 = .ok true ∧ 2 ∈ first.2.links) ∧ second.1 = .ok true ∧ 2 ∉ second.2.links := by
  decide +kernel

end Resolved.Proof.Routing
