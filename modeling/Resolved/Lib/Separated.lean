import Resolved.Lib.Text

/-!
# Lists written one item behind the other

With words that show their end, or with separators.
-/

/-!
## Self-delimiting codes

A code is self-delimiting when the end of a code word shows in the word itself. The words of a list
can then be written one behind the other and the list is found again.
-/

namespace Resolved.Lib

variable {α β : Type*}

/-- The code words of the `Valid` values are not empty and none starts another one. -/
structure SelfDelimiting (Valid : α → Prop) (encode : α → List β) : Prop where
  nonempty : ∀ value, encode value ≠ []
  ends : ∀ value other rest rest', Valid value → Valid other →
    encode value ++ rest = encode other ++ rest' → value = other ∧ rest = rest'

theorem SelfDelimiting.flatMap_inj {Valid : α → Prop} {encode : α → List β} (code : SelfDelimiting Valid encode)
    {values others : List α} (valid : ∀ value ∈ values, Valid value) (valid' : ∀ other ∈ others, Valid other)
    (same : values.flatMap encode = others.flatMap encode) : values = others := by
  induction values generalizing others with
  | nil =>
    cases others with
    | nil => rfl
    | cons other others => exact absurd (List.append_eq_nil_iff.1 same.symm).1 (code.nonempty other)
  | cons value values ih =>
    cases others with
    | nil => exact absurd (List.append_eq_nil_iff.1 same).1 (code.nonempty value)
    | cons other others =>
      obtain ⟨rfl, tails⟩ := code.ends value other _ _ (valid value (by simp))
        (valid' other (by simp)) same
      rw [ih (fun v hv => valid v (by simp [hv])) (fun v hv => valid' v (by simp [hv])) tails]

/-!
## Separated lists

How the parts of a list between separators relate to its suffixes.
-/

theorem intercalate_append {α : Type} (separator : α) (front rear : List (List α)) (hfront : front ≠ [])
    (hrear : rear ≠ []) :
    [separator].intercalate (front ++ rear) =
      [separator].intercalate front ++ separator :: [separator].intercalate rear := by
  induction front with
  | nil => exact absurd rfl hfront
  | cons part rest ih =>
    cases rest with
    | nil =>
      obtain ⟨next, others, rfl⟩ := List.exists_cons_of_ne_nil hrear
      simp [List.intercalate, List.intersperse]
    | cons next others =>
      have tail := ih (by simp)
      simp only [List.intercalate, List.cons_append, List.intersperse, List.flatten_cons,
        List.append_assoc] at tail ⊢
      rw [tail]

theorem mem_intercalate {α : Type} {separator a : α} {parts : List (List α)}
    (member : a ∈ [separator].intercalate parts) : a = separator ∨ ∃ part ∈ parts, a ∈ part := by
  induction parts with
  | nil => simp [List.intercalate] at member
  | cons part rest ih =>
    cases rest with
    | nil => exact .inr ⟨part, by simp, by simpa [List.intercalate, List.intersperse] using member⟩
    | cons next others =>
      have joined := intercalate_append separator [part] (next :: others) (by simp) (by simp)
      rw [List.singleton_append] at joined
      rw [joined] at member
      rcases List.mem_append.1 member with here | later
      · exact .inr ⟨part, by simp, by simpa [List.intercalate, List.intersperse] using here⟩
      · rcases List.mem_cons.1 later with rfl | there
        · exact .inl rfl
        · obtain same | ⟨other, inRest, found⟩ := ih there
          · exact .inl same
          · exact .inr ⟨other, List.mem_cons_of_mem _ inRest, found⟩

theorem intercalate_concat_nil {α : Type} (separator : α) {parts : List (List α)} (nonempty : parts ≠ []) :
    [separator].intercalate (parts ++ [[]]) = [separator].intercalate parts ++ [separator] := by
  induction parts with
  | nil => exact absurd rfl nonempty
  | cons part rest ih =>
    cases rest with
    | nil => simp [List.intercalate]
    | cons next others =>
      have later := ih (List.cons_ne_nil _ _)
      simp only [List.intercalate, List.cons_append, List.intersperse_cons_cons, List.flatten_cons,
        List.append_assoc] at later ⊢
      rw [later]

theorem mem_intercalate_of_mem {α : Type} {a : α} {part : List α} {parts : List (List α)} (separator : α)
    (listed : part ∈ parts) (member : a ∈ part) : a ∈ [separator].intercalate parts := by
  induction parts with
  | nil => cases listed
  | cons first rest ih =>
    cases rest with
    | nil =>
      rw [List.mem_singleton] at listed
      simpa [← listed] using member
    | cons next others =>
      rw [List.intercalate_cons_cons]
      rcases List.mem_cons.1 listed with rfl | later
      · simp [member]
      · exact List.mem_append_right _ (ih later)

section
variable {α : Type} [BEq α] [LawfulBEq α]

theorem splitOn_suffix_iff (separator : α) (part whole : List α) :
    part.splitOn separator <:+ whole.splitOn separator ↔
      whole = part ∨ ∃ front, whole = front ++ separator :: part := by
  constructor
  · rintro ⟨front, parts⟩
    have joined : [separator].intercalate (whole.splitOn separator) = whole :=
      List.intercalate_splitOn separator
    rw [← parts] at joined
    cases front with
    | nil =>
      rw [List.nil_append, List.intercalate_splitOn] at joined
      exact .inl joined.symm
    | cons first others =>
      have nonempty : part.splitOn separator ≠ [] := List.splitOnP_ne_nil _ _
      rw [intercalate_append _ _ _ (by simp) nonempty, List.intercalate_splitOn] at joined
      exact .inr ⟨_, joined.symm⟩
  · rintro (rfl | ⟨front, rfl⟩)
    · exact List.suffix_refl _
    · rw [List.splitOn_append_cons_self]
      exact List.suffix_append _ _

theorem splitOn_map (separator : α) (f : α → α) (keeps : ∀ a, f a = separator ↔ a = separator) (list : List α) :
    (list.map f).splitOn separator = (list.splitOn separator).map (·.map f) := by
  induction list with
  | nil => rfl
  | cons a rest ih =>
    unfold List.splitOn at ih ⊢
    rw [List.map_cons, List.splitOnP_cons_eq_if_modifyHead, List.splitOnP_cons_eq_if_modifyHead, ih]
    by_cases here : a = separator
    · simp [here, (keeps separator).2 rfl]
    · have away : f a ≠ separator := fun same => here ((keeps a).1 same)
      simp only [beq_iff_eq, here, away, if_false]
      cases List.splitOnP (· == separator) rest <;> simp

omit [LawfulBEq α] in
theorem sum_length_splitOn (separator : α) (values : List α) :
    ((values.splitOn separator).map (·.length + 1)).sum = values.length + 1 := by
  induction values with
  | nil => rfl
  | cons value rest ih =>
    unfold List.splitOn at ih ⊢
    rw [List.splitOnP_cons_eq_if_modifyHead]
    split
    · rw [List.map_cons, List.sum_cons, ih, List.length_nil, List.length_cons]
      omega
    · cases parts : List.splitOnP (· == separator) rest with
      | nil => exact absurd parts (List.splitOnP_ne_nil _ _)
      | cons first others =>
        rw [parts, List.map_cons, List.sum_cons] at ih
        rw [List.modifyHead_cons, List.map_cons, List.sum_cons, List.length_cons, List.length_cons]
        omega

theorem splitOn_concat (separator : α) (front : List α) :
    (front ++ [separator]).splitOn separator = front.splitOn separator ++ [[]] :=
  List.splitOnP_append_cons front [] (by simp)

omit [LawfulBEq α] in
theorem splitOn_append (separator : α) (front rear : List α) :
    (front ++ rear).splitOn separator = (front.splitOn separator).dropLast ++
        ((front.splitOn separator).getLastD [] ++ rear).splitOn separator := by
  induction front with
  | nil => simp
  | cons a rest ih =>
    simp only [List.cons_append, List.splitOn_cons_eq_if_modifyHead]
    obtain ⟨first, others, parts⟩ := List.exists_cons_of_ne_nil (List.splitOn_ne_nil separator rest)
    rw [ih, parts]
    by_cases here : a == separator
    · simp [here]
    · cases others with
      | nil => simp [List.splitOn_cons_eq_if_modifyHead, here]
      | cons next more => simp [here]

theorem splitOn_first {separator : α} {front rear : List α} (free : separator ∉ front) :
    (front ++ separator :: rear).splitOn separator = front :: rear.splitOn separator := by
  rw [List.splitOn_append_cons_self, List.splitOn_eq_singleton free, List.singleton_append]

theorem not_mem_of_mem_splitOn {separator : α} {values part : List α} (member : part ∈ values.splitOn separator) :
    separator ∉ part := by
  induction values generalizing part with
  | nil =>
    rw [List.splitOn_nil, List.mem_singleton] at member
    simp [member]
  | cons value rest ih =>
    rw [List.splitOn_cons_eq_if_modifyHead] at member
    split at member
    · rcases List.mem_cons.1 member with rfl | later
      · simp
      · exact ih later
    · rename_i other
      cases parts : rest.splitOn separator with
      | nil => exact absurd parts (List.splitOn_ne_nil _ _)
      | cons first others =>
        rw [parts, List.modifyHead_cons] at member
        rw [parts] at ih
        rcases List.mem_cons.1 member with rfl | later
        · rw [List.mem_cons, not_or]
          exact ⟨fun same => other (by simp [same]), ih (List.mem_cons_self ..)⟩
        · exact ih (List.mem_cons_of_mem _ later)

end

theorem trimEnd_of_labels (named : ∀ part ∈ text.splitOn '.', part ≠ []) : trimEndWith (· == '.') text = text := by
  rw [trimEndWith, List.rdropWhile_eq_self_iff]
  intro nonempty last
  rw [← List.dropLast_append_getLast nonempty, beq_iff_eq.1 last, splitOn_concat] at named
  exact named [] (by simp) rfl

end Resolved.Lib
