import Resolved.Lib.Separated
import Resolved.Proof.Routing.Table

/-!
# Writing back what was read
-/

namespace Resolved.Proof.Routing
open Lib Resolved.Routing Spec

variable {raw name : Str} {table : RoutingTable} {ifindex : Int} {link : LinkState}

theorem isWhitespace_lowerChar (c : Char) : isWhitespace (lowerChar c) = isWhitespace c := by
  unfold lowerChar
  split
  · rename_i upper
    have value := toNat_ofNat (show c.toNat + 32 < 256 by omega)
    have plain : ∀ d : Char, 65 ≤ d.toNat → d.toNat ≤ 122 → isWhitespace d = false := by
      intro d low high
      simp only [isWhitespace, Bool.or_eq_false_iff, Bool.and_eq_false_iff, decide_eq_false_iff_not,
        beq_eq_false_iff_ne]
      omega
    rw [plain c (by omega) (by omega), plain _ (by omega) (by omega)]
  · rfl

theorem trim_toAsciiLowercase (s : Str) : trim (toAsciiLowercase s) = toAsciiLowercase (trim s) := by
  have commutes : isWhitespace ∘ lowerChar = isWhitespace := funext isWhitespace_lowerChar
  simp only [trim, trimEndWith, toAsciiLowercase, List.rdropWhile, List.dropWhile_map, commutes,
    ← List.map_reverse]

theorem lowerChar_eq_tilde (lowered : lowerChar c = '~') : c = '~' := by
  unfold lowerChar at lowered
  split at lowered
  · rename_i upper
    have value := toNat_ofNat (show c.toNat + 32 < 256 by omega)
    rw [lowered] at value
    have tilde : ('~' : Char).toNat = 126 := rfl
    omega
  · exact lowered

theorem isAscii_toAsciiLowercase (ascii : isAscii s = true) : isAscii (toAsciiLowercase s) = true := by
  simp only [isAscii, toAsciiLowercase, List.all_map, List.all_eq_true, Function.comp_apply,
    decide_eq_true_eq] at ascii ⊢
  intro c member
  unfold lowerChar
  split
  · rw [toNat_ofNat (by omega)]
    omega
  · exact ascii c member

theorem normalizeName_of_bare (trimmed : trim core = core) (plain : core.head? ≠ some '~')
    (nonempty : core ≠ []) (ascii : isAscii core = true) (short : core.length ≤ 253)
    (named : ∀ label ∈ core.splitOn '.', label ≠ [] ∧ label.length ≤ 63) :
    normalizeName (toAsciiLowercase core) = .ok (toAsciiLowercase core) := by
  have parts := splitOn_map '.' lowerChar lowerChar_eq_dot core
  have kept : trimEndWith (· == '.') (trim (toAsciiLowercase core)) = toAsciiLowercase core := by
    rw [trim_toAsciiLowercase, trimmed]
    apply trimEnd_of_labels
    rw [toAsciiLowercase, parts]
    intro part member
    obtain ⟨label, listed, rfl⟩ := List.mem_map.mp member
    simpa using (named label listed).1
  have tilde : (toAsciiLowercase core).head? ≠ some '~' := by
    rw [toAsciiLowercase, List.head?_map]
    intro lowered
    obtain ⟨c, first, here⟩ := Option.map_eq_some_iff.mp lowered
    exact plain (by rw [first, lowerChar_eq_tilde here])
  have root : ¬ (toAsciiLowercase core = [] ∨ toAsciiLowercase core = ['~']) := by
    rintro (empty | single)
    · exact nonempty (List.map_eq_nil_iff.mp empty)
    · exact tilde (by rw [single]; rfl)
  rw [normalizeName]
  simp only [kept, if_neg root, if_neg tilde]
  rw [if_neg, toAsciiLowercase_idem]
  simp only [not_or, not_lt, Bool.not_eq_true]
  refine ⟨fun empty => root (.inl empty), by simp [isAscii_toAsciiLowercase ascii],
    by simpa [toAsciiLowercase] using short, ?_⟩
  rw [splitAtChar, toAsciiLowercase, parts, List.any_eq_false]
  intro part member
  obtain ⟨label, listed, rfl⟩ := List.mem_map.mp member
  simpa using named label listed

theorem normalizeName_bare (normal : normalizeName raw = .ok name) (bare : Bare raw) :
    normalizeName name = .ok name := by
  rw [normalizeName] at normal
  simp only at normal
  split at normal
  · cases normal
    decide
  · rw [show (if (trimEndWith (· == '.') (trim raw)).head? = some '~' then
      (trimEndWith (· == '.') (trim raw)).tail else trimEndWith (· == '.') (trim raw)) = bareName raw
      from rfl] at normal
    split at normal
    · cases normal
    · rename_i accepted
      simp only [not_or, not_lt] at accepted
      cases normal
      refine normalizeName_of_bare bare.2 bare.1 accepted.1 (by simpa using accepted.2.1)
        accepted.2.2.1 fun label member => ?_
      simpa using List.any_eq_false.mp (Bool.eq_false_iff.mpr accepted.2.2.2) label member

theorem normalizeDomain_eq_ok :
    normalizeDomain domain = .ok kept ↔
      normalizeName domain.name = .ok kept.name ∧ domain.routeOnly = kept.routeOnly := by
  unfold normalizeDomain
  split
  · rename_i failed
    simp [failed]
  · rename_i found
    obtain ⟨name, routeOnly, normal⟩ := kept
    simp [found]

theorem normalizeServer_idem (ifindex : Int) (server : SocketAddr) :
    normalizeServer ifindex (normalizeServer ifindex server) = normalizeServer ifindex server := by
  cases server with
  | v4 ip port => rfl
  | v6 ip port flowinfo scopeId =>
    by_cases keeps : scopeId ≠ 0 ∨ (!ip.isLinkLocal) = true
    · simp only [normalizeServer, if_pos keeps]
    by_cases negative : ifindex < 0
    · simp only [normalizeServer, if_neg keeps, if_pos negative]
    · simp only [normalizeServer, if_neg keeps, if_neg negative, ite_self]

theorem mapM_map_eq_ok {α β : Type} {f : α → Except LinkError β} {back : β → α} {kept : List β}
    (fixed : ∀ value ∈ kept, f (back value) = .ok value) : (kept.map back).mapM f = .ok kept := by
  induction kept with
  | nil => rfl
  | cons value rest ih =>
    rw [List.map_cons, List.mapM_cons, fixed value (by simp), ok_bind,
      ih fun other member => fixed other (by simp [member])]
    rfl

theorem collected_again {α β : Type} [DecidableEq β] {f : α → Except LinkError β} {back : β → α}
    {values : List α} {kept : List β} (collected : pushNew <$> values.mapM f = .ok kept)
    (fixed : ∀ value ∈ values, ∀ result, f value = .ok result → f (back result) = .ok result) :
    pushNew <$> (kept.map back).mapM f = .ok kept := by
  cases run : values.mapM f with
  | error error =>
    rw [run] at collected
    cases collected
  | ok results =>
    rw [run] at collected
    cases collected
    rw [mapM_map_eq_ok]
    · exact congrArg _ (pushNew_of_nodup (pushNew_nodup results))
    · intro result member
      obtain ⟨value, listed, here⟩ := (mem_of_mapM_eq_ok run result).mp (mem_pushNew.mp member)
      exact fixed value listed result here

structure Steady (link : LinkState) : Prop where
  servers : pushNew (link.dnsServers.map (normalizeServer link.ifindex)) = link.dnsServers
  domains : pushNew <$> (link.domains.map readDomain).mapM normalizeDomain = .ok link.domains
  anchors : pushNew <$> link.dnssecNegativeTrustAnchors.mapM normalizeName = .ok link.dnssecNegativeTrustAnchors

theorem steady_fresh (ifindex : Int) : Steady (.fresh ifindex) := ⟨rfl, rfl, rfl⟩

theorem linkMut_found (found : table.links[ifindex]? = some link) :
    ∃ entered, entered.link = link ∧ table.linkMut ifindex = .ok (entered, table) := by
  have positive := (table.keyed ifindex link found).1
  rw [RoutingTable.linkMut, dif_pos positive]
  split
  · rename_i other found'
    cases found.symm.trans found'
    exact ⟨_, rfl, rfl⟩
  · rename_i absent
    cases found.symm.trans absent

theorem setField_same {α : Type} [DecidableEq α] {field : LinkField α}
    (found : table.links[ifindex]? = some link) {argument : Except LinkError α}
    (same : argument = .ok (field.get link)) : table.setField field ifindex argument = (.ok false, table) := by
  obtain ⟨entered, rfl, run⟩ := linkMut_found found
  simp only [RoutingTable.setField, run, same, if_true]

theorem takesBack_of_steady (steady : ∀ (ifindex : Int) link, table.links[ifindex]? = some link → Steady link) :
    TakesBack table := by
  intro ifindex link found
  obtain ⟨servers, domains, anchors⟩ := steady ifindex link found
  rw [(table.keyed ifindex link found).2] at servers
  exact ⟨setField_same found (congrArg _ servers), setField_same found domains, setField_same found anchors⟩

section
variable {P : LinkState → Prop}

def Every (P : LinkState → Prop) (table : RoutingTable) : Prop :=
  ∀ (ifindex : Int) link, table.links[ifindex]? = some link → P link

theorem every_put (every : Every P table) (positive : 0 < link.ifindex) (holds : P link) :
    Every P (table.put link positive) := by
  intro ifindex other found
  rw [put_links] at found
  split at found
  · cases found
    exact holds
  · exact every ifindex other found

theorem every_setField {α : Type} [DecidableEq α] {field : LinkField α} {argument : Except LinkError α}
    (every : Every P table) (fresh : P (.fresh ifindex))
    (write : ∀ value, argument = .ok value → ∀ link, link.ifindex = ifindex → P link → P (field.set link value)) :
    Every P (table.setField field ifindex argument).2 := by
  rw [RoutingTable.setField]
  -- the link worked on has the property, found or made, and so has every link of the table
  have entered : ∀ entered table', table.linkMut ifindex = .ok (entered, table') →
      P entered.link ∧ Every P table' := by
    intro entered table' run
    rcases linkMut_cases table ifindex with ⟨-, error, failed⟩ | ⟨entered', found, run'⟩ |
      ⟨-, positive, own, run'⟩
    · cases run.symm.trans failed
    · cases run.symm.trans run'
      exact ⟨every ifindex _ found, every⟩
    · cases run.symm.trans run'
      exact ⟨fresh, every_put every positive fresh⟩
  cases run : table.linkMut ifindex with
  | error error => exact every
  | ok found =>
    obtain ⟨link, table'⟩ := found
    obtain ⟨holds, every'⟩ := entered link table' run
    cases argument with
    | error error => exact every'
    | ok value =>
      simp only
      split
      · exact every'
      · exact every_put every' (by rw [field.set_ifindex, link.own]; exact link.positive)
          (write value rfl link.link link.own holds)

theorem every_syncLoop {kernels : List KernelLinkState} {changed : Bool} {seen : List Int}
    (every : Every P table) (fresh : ∀ ifindex, P (.fresh ifindex))
    (kernel : ∀ link state, P link → P { link with kernel := state }) :
    Every P (RoutingTable.syncLoop kernels changed seen table).2 := by
  induction kernels generalizing changed seen table with
  | nil => exact every
  | cons report rest ih =>
    rw [RoutingTable.syncLoop]
    split
    · rename_i positive
      apply ih
      apply every_put every (by rwa [table.withKernel_ifindex report])
      apply kernel
      cases found : table.links[report.ifindex]? with
      | none => exact fresh report.ifindex
      | some link => exact every report.ifindex link found
    · exact every

theorem every_syncKernelLinks (every : Every P table) (fresh : ∀ ifindex, P (.fresh ifindex))
    (kernel : ∀ link state, P link → P { link with kernel := state }) :
    Every P (table.syncKernelLinks kernels).2 := by
  have looped := @every_syncLoop table P kernels (!table.kernelSynchronized) [] every fresh kernel
  rw [RoutingTable.syncKernelLinks]
  split
  · rename_i run
    rwa [run] at looped
  · rename_i run
    rw [run] at looped
    intro ifindex link found
    simp only [RoutingTable.retainSeen, Std.ExtTreeMap.getElem?_filter', Option.filter_eq_some_iff] at found
    exact looped ifindex link found.1

theorem every_revert (every : Every P table) (fresh : ∀ ifindex, P (.fresh ifindex))
    (kernel : ∀ link state, P link → P { link with kernel := state }) :
    Every P (table.revert ifindex).2 := by
  rw [RoutingTable.revert]
  split
  · split
    · exact every
    · simp only
      split
      · exact every
      · exact every_put every ‹0 < ifindex› (kernel _ _ (fresh ifindex))
  · exact every

end

theorem steady_servers (ifindex : Int) (servers : List SocketAddr) :
    pushNew ((pushNew (servers.map (normalizeServer ifindex))).map (normalizeServer ifindex)) =
      pushNew (servers.map (normalizeServer ifindex)) := by
  have fixed : ∀ server ∈ pushNew (servers.map (normalizeServer ifindex)),
      normalizeServer ifindex server = server := by
    intro server member
    obtain ⟨raw, -, rfl⟩ := List.mem_map.mp (mem_pushNew.mp member)
    exact normalizeServer_idem ifindex raw
  rw [List.map_congr_left fixed, List.map_id', pushNew_of_nodup (pushNew_nodup _)]

def held (link : LinkState) : Int × List SocketAddr × List LinkDomain × List Str :=
  (link.ifindex, link.dnsServers, link.domains, link.dnssecNegativeTrustAnchors)

theorem steady_congr (same : held other = held link) (steady : Steady link) : Steady other := by
  simp only [held, Prod.mk.injEq] at same
  obtain ⟨own, servers, domains, anchors⟩ := same
  exact ⟨by rw [own, servers, steady.servers], by rw [domains, steady.domains], by rw [anchors, steady.anchors]⟩

theorem steady_setField {α : Type} [DecidableEq α] {field : LinkField α} {argument : Except LinkError α}
    (steady : Every Steady table) (aside : ∀ link value, held (field.set link value) = held link) :
    Every Steady (table.setField field ifindex argument).2 :=
  every_setField steady (steady_fresh ifindex) fun value _ link _ => steady_congr (aside link value)

theorem steady_apply {op : TableOp} (steady : Every Steady table) (bare : op.GivesBare) :
    Every Steady (op.apply table).2 := by
  cases op with
  | setDns ifindex servers =>
    apply every_setField steady (steady_fresh ifindex)
    rintro _ ⟨⟩ link rfl steady
    exact ⟨steady_servers link.ifindex servers, steady.domains, steady.anchors⟩
  | setDomains ifindex domains =>
    apply every_setField steady (steady_fresh ifindex)
    intro kept collected link own steady
    refine ⟨steady.servers, collected_again collected ?_, steady.anchors⟩
    intro domain member kept normal
    obtain ⟨normal, -⟩ := normalizeDomain_eq_ok.mp normal
    exact normalizeDomain_eq_ok.mpr ⟨normalizeName_bare normal (bare domain member), rfl⟩
  | setDnssecNegativeTrustAnchors ifindex anchors =>
    apply every_setField steady (steady_fresh ifindex)
    intro kept collected link own steady
    have again := @collected_again _ _ _ normalizeName id _ _ collected
      fun anchor member kept normal => normalizeName_bare normal (bare anchor member)
    rw [List.map_id] at again
    exact ⟨steady.servers, steady.domains, again⟩
  | setDefaultRoute ifindex value
  | setLlmnr ifindex mode
  | setMulticastDns ifindex mode
  | setDnsOverTls ifindex mode
  | setDnssec ifindex mode => exact steady_setField steady fun _ _ => rfl
  | syncKernelLinks kernels =>
    exact every_syncKernelLinks steady steady_fresh fun _ _ => steady_congr rfl
  | revert ifindex => exact every_revert steady steady_fresh fun _ _ => steady_congr rfl

theorem steady_run {ops : List TableOp} (steady : Every Steady table) (bare : ∀ op ∈ ops, op.GivesBare) :
    Every Steady (ops.foldl (fun table op => (op.apply table).2) table) := by
  induction ops generalizing table with
  | nil => exact steady
  | cons op ops ih =>
    exact ih (steady_apply steady (bare op (by simp))) fun op member =>
      bare op (List.mem_cons_of_mem _ member)

/-- After any run of the setters that give bare names, every link takes back what it has. -/
theorem tableAfter_takesBack (ops : List TableOp) (bare : ∀ op ∈ ops, op.GivesBare) :
    TakesBack (tableAfter ops) := by
  apply takesBack_of_steady
  apply steady_run _ bare
  intro ifindex link found
  simp [RoutingTable.empty] at found

theorem tableAfter_takesBack_corp :
    TakesBack (tableAfter [.setDomains 2 [⟨['~', 'C', 'o', 'r', 'p', '.'], true⟩]]) := by
  apply tableAfter_takesBack
  intro op member
  rw [List.mem_singleton.mp member]
  intro domain member
  rw [List.mem_singleton.mp member]
  exact ⟨by decide, by decide⟩

theorem tableAfter_changes : ¬ TakesBack (tableAfter [.setDomains 2 [⟨['~', '~', 'a'], false⟩]]) := by
  intro takes
  have read : (tableAfter [.setDomains 2 [⟨['~', '~', 'a'], false⟩]]).links[(2 : Int)]?.map
      (fun link => link.domains.map readDomain) = some [⟨['~', 'a'], false⟩] := by decide +kernel
  obtain ⟨link, found, domains⟩ := Option.map_eq_some_iff.mp read
  have unchanged := congrArg Prod.fst (takes 2 link found).2.1
  rw [domains] at unchanged
  exact absurd unchanged (by decide +kernel)

end Resolved.Proof.Routing
