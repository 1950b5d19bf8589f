import Mathlib

namespace Resolved.Lib

section Except
variable {ε α β : Type}

@[simp] theorem bind_eq_ok {x : Except ε α} {f : α → Except ε β} {r : β} :
    (x >>= f) = .ok r ↔ ∃ a, x = .ok a ∧ f a = .ok r := by
  cases x with
  | error e | ok a => simp [bind, Except.bind]

@[simp] theorem ok_bind (a : α) (f : α → Except ε β) : ((.ok a : Except ε α) >>= f) = f a := rfl

@[simp] theorem error_bind (e : ε) (f : α → Except ε β) : ((.error e : Except ε α) >>= f) = .error e := rfl

@[simp] theorem pure_eq_ok : (pure a : Except ε α) = .ok b ↔ a = b := by
  simp [pure, Except.pure]

@[simp] theorem throw_ne_ok : (throw e : Except ε α) ≠ .ok b := by
  simp [throw, throwThe, MonadExceptOf.throw]

def okOr (e : ε) : Option α → Except ε α
  | some a => .ok a
  | none => .error e

@[simp] theorem okOr_some (e : ε) (a : α) : okOr e (some a) = .ok a := rfl

@[simp] theorem okOr_none (e : ε) : okOr e (none : Option α) = .error e := rfl

@[simp] theorem okOr_eq_ok : okOr e x = .ok a ↔ x = some a := by
  cases x <;> simp [okOr]

theorem toOption_eq_some {x : Except ε α} {a : α} : x.toOption = some a ↔ x = .ok a := by
  cases x <;> simp [Except.toOption]

theorem mapM_eq_error {f : α → Except ε β} {xs : List α} :
    (∃ e, xs.mapM f = .error e) ↔ ∃ x ∈ xs, ∃ e, f x = .error e := by
  induction xs with
  | nil => simp [pure, Except.pure]
  | cons x rest ih =>
    rw [List.mapM_cons, List.exists_mem_cons_iff, ← ih]
    cases first : f x with
    | error e => simp
    | ok y =>
      cases later : rest.mapM f with
      | error e => simp
      | ok ys => simp [pure, Except.pure]

theorem foldlM_keeps {σ : Type} {f : σ → α → Except ε σ} (Inv : σ → Prop)
    (kept : ∀ state value state', Inv state → f state value = .ok state' → Inv state') {values : List α}
    {state state' : σ} (run : values.foldlM f state = .ok state') (init : Inv state) : Inv state' := by
  induction values generalizing state with
  | nil =>
    cases run
    exact init
  | cons value rest ih =>
    obtain ⟨next, stepped, run⟩ := bind_eq_ok.1 run
    exact ih run (kept _ _ _ init stepped)

theorem mapM_length {f : α → Except ε β} {xs : List α} {ys : List β} (h : xs.mapM f = .ok ys) :
    ys.length = xs.length := by
  induction xs generalizing ys with
  | nil =>
    rw [List.mapM_nil, pure_eq_ok] at h
    simp [← h]
  | cons x rest ih =>
    simp only [List.mapM_cons, bind_eq_ok, pure_eq_ok] at h
    obtain ⟨y, -, zs, hrest, rfl⟩ := h
    simp [ih hrest]

theorem mem_of_mapM_eq_ok {f : α → Except ε β} {xs : List α} {ys : List β} (h : xs.mapM f = .ok ys) (y : β) :
    y ∈ ys ↔ ∃ x ∈ xs, f x = .ok y := by
  induction xs generalizing ys with
  | nil =>
    rw [List.mapM_nil, pure_eq_ok] at h
    simp [← h]
  | cons x rest ih =>
    simp only [List.mapM_cons, bind_eq_ok, pure_eq_ok] at h
    obtain ⟨first, hfirst, later, hrest, rfl⟩ := h
    rw [List.mem_cons, ih hrest, List.exists_mem_cons_iff, hfirst, Except.ok.injEq, eq_comm]

theorem mapM_eq_some_iff : list.mapM f = some results ↔ List.Forall₂ (fun a b => f a = some b) list results := by
  induction list generalizing results with
  | nil =>
    rw [List.mapM_nil, List.forall₂_nil_left_iff]
    exact Option.some_inj.trans eq_comm
  | cons a rest ih =>
    rw [List.mapM_cons, List.forall₂_cons_left_iff]
    simp only [Option.bind_eq_bind, Option.bind_eq_some_iff, Option.pure_def, Option.some.injEq]
    constructor
    · rintro ⟨b, here, others, later, rfl⟩
      exact ⟨b, others, here, ih.mp later, rfl⟩
    · rintro ⟨b, others, here, later, rfl⟩
      exact ⟨b, here, others, ih.mpr later, rfl⟩

theorem mapM_some_forall {f : α → Option β} {list : List α} {results : List β}
    (done : list.mapM f = some results) : ∀ a ∈ list, ∃ b ∈ results, f a = some b := by
  have paired := mapM_eq_some_iff.mp done
  induction paired with
  | nil => simp
  | cons here later ih =>
    intro other member
    rcases List.mem_cons.mp member with rfl | member
    · exact ⟨_, by simp, here⟩
    · obtain ⟨b, listed, found⟩ := ih (mapM_eq_some_iff.mpr later) other member
      exact ⟨b, by simp [listed], found⟩

theorem exists_mapM_eq_some {f : α → Option β} {P : β → Prop} {list : List α}
    (each : ∀ a ∈ list, ∃ b, f a = some b ∧ P b) : ∃ results, list.mapM f = some results ∧ ∀ b ∈ results, P b := by
  induction list with
  | nil => exact ⟨[], rfl, by simp⟩
  | cons a rest ih =>
    obtain ⟨b, here, holds⟩ := each a (by simp)
    obtain ⟨others, later, all⟩ := ih fun other member => each other (by simp [member])
    refine ⟨b :: others, mapM_eq_some_iff.mpr (.cons here (mapM_eq_some_iff.mp later)), ?_⟩
    intro value member
    rcases List.mem_cons.mp member with rfl | member
    · exact holds
    · exact all value member

def FailsWith (P : ε → Prop) (x : Except ε α) : Prop := ∀ e, x = .error e → P e

theorem FailsWith.bind {P : ε → Prop} (first : FailsWith P x) (next : ∀ a, x = .ok a → FailsWith P (f a)) :
    FailsWith P (x >>= f) := by
  cases x with
  | error e =>
    intro e' h
    cases h
    exact first e rfl
  | ok a => exact next a rfl

theorem FailsWith.mapM {P : ε → Prop} {f : α → Except ε β} {xs : List α} (each : ∀ x ∈ xs, FailsWith P (f x)) :
    FailsWith P (xs.mapM f) := by
  induction xs with
  | nil =>
    intro error failed
    cases failed
  | cons x rest ih =>
    rw [List.mapM_cons]
    apply FailsWith.bind (each x (by simp))
    intro y _
    apply FailsWith.bind (ih fun z member => each z (by simp [member]))
    intro ys _ error failed
    cases failed

end Except

end Resolved.Lib
