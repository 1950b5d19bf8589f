import Resolved.Lib.Separated
import Resolved.Spec.Routing

/-!
# The view of a caller
-/

namespace Resolved.Proof.Policy
open Lib Resolved.Policy Spec

variable {db other : PolicyDb} {cgroup path view : Str} {netns : Option UInt64} {uid : Option UInt32}

theorem isPrefix_of_length_le {s t whole : Str} (hs : s <+: whole) (ht : t <+: whole)
    (le : (utf8 s).length ≤ (utf8 t).length) : s <+: t := by
  rcases List.prefix_or_prefix_of_prefix hs ht with front | ⟨rest, rfl⟩
  · exact front
  · rw [utf8_append, List.length_append] at le
    have empty : utf8 rest = [] := List.length_eq_zero_iff.mp (by omega)
    rw [utf8_eq_nil.mp empty, List.append_nil]

theorem better_eq (cg : Str) :
    PolicyDb.better cg = fun best rule =>
      if rule.1.isPrefixOf cg then
        List.argAux (fun a b : Sigma fun _ : Str => Str => (utf8 b.1).length < (utf8 a.1).length)
          best rule
      else best := by
  funext best rule
  cases best with
  | none => simp [PolicyDb.better, List.argAux]
  | some chosen =>
    by_cases front : rule.1.isPrefixOf cg <;> simp [PolicyDb.better, List.argAux, front]

theorem bestPath_eq (db : PolicyDb) (cg : Str) :
    db.bestPath cg = (db.byCgroup.entries.filter (·.1.isPrefixOf cg)).argmax fun rule => (utf8 rule.1).length := by
  rw [PolicyDb.bestPath, better_eq, List.argmax, List.foldl_filter]

theorem mem_entries : (⟨path, view⟩ : Sigma fun _ : Str => Str) ∈ db.byCgroup.entries ↔
    db.byCgroup.lookup path = some view :=
  AList.mem_lookup_iff.symm

theorem bestPath_eq_some : db.bestPath cgroup = some ⟨path, view⟩ ↔
    db.byCgroup.lookup path = some view ∧ path <+: cgroup ∧
      ∀ other ∈ db.byCgroup, other <+: cgroup → (utf8 other).length ≤ (utf8 path).length := by
  rw [bestPath_eq, ← Option.mem_def, List.mem_argmax_iff]
  simp only [List.mem_filter, List.isPrefixOf_iff_prefix, Sigma.forall, mem_entries]
  constructor
  · rintro ⟨⟨rule, front⟩, longest, -⟩
    refine ⟨rule, front, fun other member front' => ?_⟩
    obtain ⟨view', rule'⟩ := Option.isSome_iff_exists.mp (AList.lookup_isSome.mpr member)
    exact longest other view' ⟨rule', front'⟩
  · rintro ⟨rule, front, longest⟩
    refine ⟨⟨rule, front⟩, fun other view' ⟨rule', front'⟩ => ?_, fun other view' ⟨rule', front'⟩ le => ?_⟩
    · exact longest other (AList.lookup_isSome.mp (by simp [rule'])) front'
    · have ge := longest other (AList.lookup_isSome.mp (by simp [rule'])) front'
      have same : path = other :=
        (isPrefix_of_length_le front front' le).eq_of_length_le
          (isPrefix_of_length_le front' front ge).length_le
      subst same
      cases rule.symm.trans rule'
      exact le_rfl

theorem covers_isPrefix (covers : CoversCgroup path cgroup) : path <+: cgroup := by
  rcases covers with rfl | ⟨⟨rest, split⟩, proper⟩
  · exact List.prefix_rfl
  have nonempty : rest ≠ [] := by
    rintro rfl
    exact proper (by rw [← split, List.append_nil])
  -- the components of the path are followed by a slash in the caller's cgroup
  have joined : cgroup = ['/'].intercalate (components path) ++ '/' :: ['/'].intercalate rest := by
    rw [← intercalate_append _ _ _ (by simp [components]) nonempty, split, List.intercalate_splitOn]
  rw [components, List.intercalate_splitOn] at joined
  by_cases slash : path.getLast? = some '/'
  · rw [if_pos slash] at joined
    have ends := List.dropLast_append_getLast? '/' slash
    exact ⟨['/'].intercalate rest, by rw [joined, ← ends]; simp⟩
  · rw [if_neg slash] at joined
    exact ⟨'/' :: ['/'].intercalate rest, joined.symm⟩

theorem mem_byCgroup_iff (same : SameEntries db other) : path ∈ db.byCgroup ↔ path ∈ other.byCgroup :=
  AList.mem_keys.trans (((same.byCgroup.map Sigma.fst).mem_iff).trans AList.mem_keys.symm)

theorem bestPath_perm (same : SameEntries db other) : other.bestPath cgroup = db.bestPath cgroup := by
  ext ⟨path, view⟩
  rw [bestPath_eq_some, bestPath_eq_some, AList.perm_lookup same.byCgroup]
  simp only [mem_byCgroup_iff same]

theorem resolveView_perm (same : SameEntries db other) (cgroup : Option Str) :
    other.resolveView cgroup netns uid = db.resolveView cgroup netns uid := by
  have views : ∀ name, other.views.lookup name = db.views.lookup name := fun _ =>
    (AList.perm_lookup same.views).symm
  have paths : ∀ cg, other.bestPath cg = db.bestPath cg := fun _ => bestPath_perm same
  have spaces : ∀ ns, other.byNetns.lookup ns = db.byNetns.lookup ns := fun _ =>
    (AList.perm_lookup same.byNetns).symm
  have users : ∀ u, other.byUid.lookup u = db.byUid.lookup u := fun _ =>
    (AList.perm_lookup same.byUid).symm
  simp only [PolicyDb.resolveView, views, paths, spaces, users, same.global]

theorem mem_of_lookup (rule : db.byCgroup.lookup path = some view) : path ∈ db.byCgroup :=
  AList.lookup_isSome.mp (by rw [rule]; rfl)

theorem governs_of_bestPath (best : db.bestPath cgroup = some ⟨path, view⟩) (covers : CoversCgroup path cgroup) :
    Governs db cgroup path view := by
  obtain ⟨rule, -, longest⟩ := bestPath_eq_some.mp best
  exact ⟨rule, covers, fun other member covers => longest other member (covers_isPrefix covers)⟩

theorem bestPath_of_prefix_mem (member : path ∈ db.byCgroup) (front : path <+: cgroup) :
    ∃ best view, db.bestPath cgroup = some ⟨best, view⟩ ∧ (utf8 path).length ≤ (utf8 best).length := by
  obtain ⟨view, rule⟩ := Option.isSome_iff_exists.mp (AList.lookup_isSome.mpr member)
  cases found : db.bestPath cgroup with
  | none =>
    rw [bestPath_eq, List.argmax_eq_none, List.filter_eq_nil_iff] at found
    exact absurd (List.isPrefixOf_iff_prefix.mpr front) (found ⟨path, view⟩ (mem_entries.mpr rule))
  | some best =>
    obtain ⟨best, view⟩ := best
    exact ⟨best, view, rfl, (bestPath_eq_some.mp found).2.2 path member front⟩

theorem bestPath_governs_iff :
    (∀ path view, db.bestPath cgroup = some ⟨path, view⟩ ↔ Governs db cgroup path view) ↔
      ∀ path ∈ db.byCgroup, path <+: cgroup → ¬ CoversCgroup path cgroup →
        ∃ longer ∈ db.byCgroup, CoversCgroup longer cgroup ∧ (utf8 path).length < (utf8 longer).length := by
  constructor
  · intro governing path member front uncovered
    obtain ⟨best, view, found, le⟩ := bestPath_of_prefix_mem member front
    have governs := (governing best view).mp found
    refine ⟨best, mem_of_lookup governs.rule, governs.covers, lt_of_le_of_ne le fun same => ?_⟩
    have front' := covers_isPrefix governs.covers
    have eq : path = best := (isPrefix_of_length_le front front' le).eq_of_length_le
      (isPrefix_of_length_le front' front same.ge).length_le
    exact uncovered (eq ▸ governs.covers)
  · intro shadowed path view
    constructor
    · intro best
      obtain ⟨rule, front, longest⟩ := bestPath_eq_some.mp best
      apply governs_of_bestPath best
      by_contra uncovered
      obtain ⟨longer, member, covers, lt⟩ := shadowed path (mem_of_lookup rule) front uncovered
      exact absurd (longest longer member (covers_isPrefix covers)) (Nat.not_le.mpr lt)
    · intro governs
      refine bestPath_eq_some.mpr ⟨governs.rule, covers_isPrefix governs.covers, ?_⟩
      intro other member front
      by_cases covers : CoversCgroup other cgroup
      · exact governs.longest other member covers
      · obtain ⟨longer, member', covers', lt⟩ := shadowed other member front covers
        exact lt.le.trans (governs.longest longer member' covers')

theorem resolveView_of_silent
    (silent : ((netns.bind fun ns => db.byNetns.lookup ns).bind fun vn => db.views.lookup vn) = none) :
    db.resolveView (some cgroup) netns uid = (((db.bestPath cgroup).bind fun best => db.views.lookup best.2) <|>
        ((uid.bind fun u => db.byUid.lookup u).bind fun vn => db.views.lookup vn)).getD db.global := by
  rw [PolicyDb.resolveView, silent]
  rfl

theorem viewedByPath_of_governing
    (silent : ((netns.bind fun ns => db.byNetns.lookup ns).bind fun vn => db.views.lookup vn) = none)
    (governing : ∀ path view, db.bestPath cgroup = some ⟨path, view⟩ ↔ Governs db cgroup path view) :
    ViewedByPath db cgroup netns uid := by
  refine ⟨governing, fun path view governs found views => ?_, fun none => ?_⟩
  · rw [resolveView_of_silent silent, (governing path view).mpr governs, Option.bind_some, views]
    rfl
  · have absent : ((db.bestPath cgroup).bind fun best => db.views.lookup best.2) = .none := by
      cases best : db.bestPath cgroup with
      | none => rfl
      | some rule => exact none rule.1 rule.2 ((governing rule.1 rule.2).mp best)
    rw [resolveView_of_silent silent, absent]
    rfl

/-- The order of the maps never matters. The rule that governs a caller decides when every rule
whose path merely begins like the caller's cgroup is shorter than one that covers it. -/
theorem resolveView_by_path (db : PolicyDb) (cgroup : Str) (netns : Option UInt64) (uid : Option UInt32)
    (silent : ((netns.bind fun ns => db.byNetns.lookup ns).bind fun vn => db.views.lookup vn) = none) :
    (∀ other, SameEntries db other →
      other.resolveView (some cgroup) netns uid = db.resolveView (some cgroup) netns uid) ∧
    (ViewedByPath db cgroup netns uid ↔ ∀ path ∈ db.byCgroup, path <+: cgroup → ¬ CoversCgroup path cgroup →
        ∃ longer ∈ db.byCgroup, CoversCgroup longer cgroup ∧ (utf8 path).length < (utf8 longer).length) :=
  ⟨fun _ same => resolveView_perm same _, fun viewed => bestPath_governs_iff.mp viewed.governing,
    fun shadowed => viewedByPath_of_governing silent (bestPath_governs_iff.mpr shadowed)⟩

def workView : DnsView := ⟨['w'], [], [], false, 2, 2⟩

def workPolicy : PolicyDb where
  byCgroup := AList.singleton ['/', 'a', '/', 'b'] ['w']
  byNetns := ∅
  byUid := ∅
  views := AList.singleton ['w'] workView
  global := ⟨[], [], [], true, 0, 0⟩

theorem mem_workPolicy {path : Str} : path ∈ workPolicy.byCgroup ↔ path = ['/', 'a', '/', 'b'] := by
  simp [workPolicy, AList.mem_keys, AList.keys, AList.singleton]

theorem resolveView_by_path_child : ViewedByPath workPolicy ['/', 'a', '/', 'b', '/', 'c'] none none := by
  apply (resolveView_by_path workPolicy ['/', 'a', '/', 'b', '/', 'c'] none none rfl).2.mpr
  intro path member front uncovered
  rw [mem_workPolicy.mp member] at uncovered
  exact absurd (.inr (by decide)) uncovered

theorem resolveView_sibling :
    workPolicy.resolveView (some ['/', 'a', '/', 'b', 'c']) none none = workView ∧
      ¬ ViewedByPath workPolicy ['/', 'a', '/', 'b', 'c'] none none := by
  refine ⟨by decide, fun viewed => ?_⟩
  have governs := (viewed.governing ['/', 'a', '/', 'b'] ['w']).mp (by decide)
  rcases governs.covers with same | covers
  · exact absurd same (by decide)
  · exact absurd covers.1 (by decide)

end Resolved.Proof.Policy
