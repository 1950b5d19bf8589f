import Resolved.Proof.Varlink.Values

/-!
# How deep the parser goes
-/

namespace Resolved.Proof.Varlink
open Lib Resolved.Varlink Resolved.Varlink.Parser Spec

variable {place : Place} {levels : Nat} {text inner : Str}

variable {input : Str}

theorem nests_blanks {blanks : Str} (blank : Blank blanks) (nests : Nests place levels text) : Nests place levels (blanks ++ text) := by
  induction nests with
  | here => exact .here
  | @array levels blanks' inner blank' unclosed items _ =>
    rw [← List.append_assoc]
    refine .array ?_ unclosed items
    intro c member
    rcases List.mem_append.1 member with member | member
    · exact blank c member
    · exact blank' c member
  | @object levels blanks' inner blank' unclosed members _ =>
    rw [← List.append_assoc]
    refine .object ?_ unclosed members
    intro c member
    rcases List.mem_append.1 member with member | member
    · exact blank c member
    · exact blank' c member
  | item item ih => exact .item ih
  | laterItem padded item later _ =>
    rw [← List.append_assoc]
    exact .laterItem (padded_blanks blank padded) item later
  | member named quoted held _ =>
    rw [← List.append_assoc]
    exact .member (padded_blanks blank named) quoted held
  | laterMember named quoted padded held fresh later _ =>
    rw [← List.append_assoc, ← List.append_assoc]
    exact .laterMember (padded_blanks blank named) quoted padded held fresh later

theorem nests_afterBlanks (nests : Nests place levels (afterBlanks text)) : Nests place levels text := by
  obtain ⟨blanks, blank, whole⟩ := afterBlanks_split text
  rw [whole]
  exact nests_blanks blank nests

theorem unclosed_of {c : Char} (solid : c ∉ [' ', '\n', '\r', '\t'])
    (unclosed : ∀ rest, afterBlanks inner ≠ c :: rest) :
    ∀ blanks rest, Blank blanks → inner ≠ blanks ++ c :: rest := by
  rintro blanks rest blank rfl
  apply unclosed rest
  rw [afterBlanks_append blank, afterBlanks_cons solid]

theorem depth_nests (turns : Nat) :
    (∀ p text levels, At input p text → 2 * text.length < turns → 0 < levels →
      levels ≤ (parseValue turns p).1 → Nests .value levels text) ∧
    (∀ values p text levels, At input p text → 2 * text.length + 1 < turns → 0 < levels →
      levels ≤ (arrayLoop turns values p).1 → Nests .items levels text) ∧
    ∀ entries p text levels seen, At input p text → 2 * text.length + 1 < turns →
      (∀ key, key ∈ seen ↔ key ∈ entries.map (·.1)) → 0 < levels →
      levels ≤ (objectLoop turns entries p).1 → Nests (.members seen) levels text := by
  induction turns with
  | zero => exact ⟨by omega, by omega, by omega⟩
  | succ turns ih =>
    obtain ⟨values_nest, items_nest, members_nest⟩ := ih
    obtain ⟨values_settle, -, -⟩ := @parse_settles input turns
    refine ⟨?_, ?_, ?_⟩
    · intro p text levels here enough positive bound
      -- the call itself is the first level
      obtain ⟨inside, rfl⟩ : ∃ inside, levels = inside + 1 := ⟨levels - 1, by omega⟩
      cases inside with
      | zero => exact .here
      | succ inside =>
        rcases parseValue_turn turns here with ⟨inner, q, opens, unclosed, stands, run⟩ |
          ⟨inner, q, opens, unclosed, stands, run⟩ | ⟨result, run, -, -⟩
        · have shorter := behind_length opens
          have within := afterBlanks_length inner
          obtain ⟨blanks, blank, whole⟩ := afterBlanks_eq_cons opens
          rw [run] at bound
          rw [whole]
          refine .array blank (unclosed_of (by decide) unclosed) (nests_afterBlanks ?_)
          exact items_nest [] q _ _ stands (by omega) (by omega) (Nat.le_of_succ_le_succ bound)
        · have shorter := behind_length opens
          have within := afterBlanks_length inner
          obtain ⟨blanks, blank, whole⟩ := afterBlanks_eq_cons opens
          rw [run] at bound
          rw [whole]
          refine .object blank (unclosed_of (by decide) unclosed) (nests_afterBlanks ?_)
          exact members_nest [] q _ _ [] stands (by omega) (by simp) (by omega) (Nat.le_of_succ_le_succ bound)
        · rw [run] at bound
          exact absurd bound (by simp)
    · intro values p text levels here enough positive bound
      have first : levels ≤ (parseValue turns p).1 → Nests .items levels text := fun within =>
        .item (values_nest p text levels here (by omega) positive within)
      rcases values_settle p text here (by omega) with ⟨error, step⟩ | ⟨value, q, rest, step, behind, leads⟩
      · rw [arrayLoop_error values step] at bound
        exact first bound
      have shorter := leads_length leads
      rcases arrayLoop_turn values step behind with ⟨next, q', comma, stands, run⟩ |
        ⟨next, q', close, stands, run⟩ | ⟨-, -, error, run⟩
      · have later := behind_length comma
        rw [run] at bound
        rcases le_max_iff.1 bound with here | there
        · exact first here
        · obtain ⟨padded, item, pads, spelled, rfl⟩ := leads_padded leads comma
          exact .laterItem pads spelled (items_nest _ q' next levels stands (by omega) positive there)
      · rw [run] at bound
        exact first bound
      · rw [run] at bound
        exact first bound
    · intro entries p text levels seen here enough keys positive bound
      rcases objectLoop_turn turns entries here with ⟨-, error, run⟩ |
        ⟨key, inner, p', keyed, stands, failed, goes⟩
      · rw [run] at bound
        exact absurd bound (Nat.not_le_of_lt positive)
      have outer := keyedBy_length keyed
      obtain ⟨name, body, named, quoted, rfl⟩ := keyed
      have first : levels ≤ (parseValue turns p').1 → Nests (.members seen) levels (name ++ ':' :: inner) :=
        fun within => .member named quoted (values_nest p' inner levels stands (by omega) positive within)
      rcases values_settle p' inner stands (by omega) with ⟨error, step⟩ |
        ⟨value, q, rest, step, behind, leads⟩
      · rw [failed _ step] at bound
        exact first bound
      have shorter := leads_length leads
      rcases goes value q rest step behind with ⟨-, error, run⟩ |
        ⟨fresh, ⟨next, q', comma, stands', run⟩ | ⟨next, q', close, stands', run⟩ | ⟨-, -, error, run⟩⟩
      · rw [run] at bound
        exact first bound
      · have later := behind_length comma
        rw [run] at bound
        rcases le_max_iff.1 bound with here | there
        · exact first here
        · obtain ⟨padded, item, pads, spelled, rfl⟩ := leads_padded leads comma
          have keys' : ∀ other, other ∈ key :: seen ↔ other ∈ (insertEntry key value entries).map (·.1) := by
            intro other
            rw [mem_insertEntry fresh, List.mem_cons, keys]
          rw [← keys] at fresh
          have nests := members_nest _ q' next levels _ stands' (by omega) keys' positive there
          rw [← List.cons_append, ← List.append_assoc]
          exact .laterMember named quoted pads spelled fresh nests
      · rw [run] at bound
        exact first bound
      · rw [run] at bound
        exact first bound

def LedTo (input : Str) (levels : Nat) (text : Str) : Place → Prop
  | .value => ∀ turns p all, At input p all → afterBlanks all = afterBlanks text → 2 * all.length < turns →
    levels ≤ (parseValue turns p).1
  | .items => ∀ turns values p all, At input p all → afterBlanks all = afterBlanks text →
    2 * all.length + 1 < turns → levels ≤ (arrayLoop turns values p).1
  | .members seen => ∀ turns entries p all, At input p all → afterBlanks all = afterBlanks text →
    (∀ key, key ∈ seen ↔ key ∈ entries.map (·.1)) → 2 * all.length + 1 < turns →
    levels ≤ (objectLoop turns entries p).1

theorem arrayLoop_deeper (turns : Nat) (values : List Value) (p : Parser) :
    (parseValue turns p).1 ≤ (arrayLoop (turns + 1) values p).1 := by
  rw [arrayLoop]
  split
  · rename_i deepest fault run
    rw [run]
  · rename_i deepest value q run
    rw [run]
    simp only
    split
    · exact le_max_left _ _
    · split <;> exact le_rfl

theorem objectLoop_deeper {turns : Nat} (entries : List (Str × Value)) {p : Parser} {key : Str}
    (here : At input p text) (keyed : KeyedBy text key inner) :
    ∃ p', At input p' inner ∧ (parseValue turns p').1 ≤ (objectLoop (turns + 1) entries p).1 := by
  rcases objectLoop_key turns entries here with ⟨keyless, -⟩ | ⟨key', inner', p', keyed', stands, run⟩
  · exact absurd keyed (keyless key inner)
  obtain ⟨rfl, rfl⟩ := keyedBy_unique keyed keyed'
  refine ⟨p', stands, ?_⟩
  rw [run]
  split
  · rename_i deepest fault held
    rw [held]
  · rename_i deepest value q held
    rw [held]
    simp only
    split
    · exact le_rfl
    split
    · exact le_max_left _ _
    · split <;> exact le_rfl

theorem nests_reaches (nests : Nests place levels text) : LedTo input levels text place := by
  induction nests with
  | here =>
    intro turns p all here _ enough
    obtain ⟨turns, rfl⟩ := exists_turn enough
    rcases parseValue_turn turns here with ⟨_, _, _, _, _, run⟩ | ⟨_, _, _, _, _, run⟩ | ⟨_, run, -, -⟩
    · rw [run]
      exact Nat.le_add_left _ _
    · rw [run]
      exact Nat.le_add_left _ _
    · rw [run]
  | @array levels blanks inner blank unclosed items ih =>
    intro turns p all here same enough
    obtain ⟨turns, rfl⟩ := exists_turn enough
    rw [afterBlanks_append blank, afterBlanks_cons (by decide)] at same
    have shorter := behind_length same
    have within := afterBlanks_length inner
    rcases parseValue_turn turns here with ⟨inner', q, opens, -, stands, run⟩ |
      ⟨inner', q, opens, -, -, -⟩ | ⟨result, -, -, closed⟩
    · cases same.symm.trans opens
      rw [run]
      apply Nat.succ_le_succ
      exact ih turns [] q _ stands (List.dropWhile_idempotent _ _) (by omega)
    · cases same.symm.trans opens
    · obtain ⟨rest, closes⟩ := closed.square inner same
      obtain ⟨blanks', blank', whole⟩ := afterBlanks_eq_cons closes
      exact absurd whole (unclosed blanks' rest blank')
  | @object levels blanks inner blank unclosed members ih =>
    intro turns p all here same enough
    obtain ⟨turns, rfl⟩ := exists_turn enough
    rw [afterBlanks_append blank, afterBlanks_cons (by decide)] at same
    have shorter := behind_length same
    have within := afterBlanks_length inner
    rcases parseValue_turn turns here with ⟨inner', q, opens, -, -, -⟩ |
      ⟨inner', q, opens, -, stands, run⟩ | ⟨result, -, -, closed⟩
    · cases same.symm.trans opens
    · cases same.symm.trans opens
      rw [run]
      apply Nat.succ_le_succ
      exact ih turns [] q _ stands (List.dropWhile_idempotent _ _) (by simp) (by omega)
    · obtain ⟨rest, closes⟩ := closed.curly inner same
      obtain ⟨blanks', blank', whole⟩ := afterBlanks_eq_cons closes
      exact absurd whole (unclosed blanks' rest blank')
  | item item ih =>
    intro turns values p all here same enough
    obtain ⟨turns, rfl⟩ := exists_turn enough
    exact (ih turns p all here same (by omega)).trans (arrayLoop_deeper turns values p)
  | laterItem padded item later ih =>
    intro turns values p all here same enough
    obtain ⟨turns, rfl⟩ := exists_turn enough
    obtain ⟨q, behind, done, stands, next, shorter⟩ :=
      item_accepted padded item (spells_accepted item) here same (by simp) (show 2 * all.length < turns by omega)
    have after := behind_length next
    rcases arrayLoop_turn values done stands with ⟨tail, q', comma, stands', run⟩ | ⟨tail, q', close, -, -⟩ |
      ⟨noComma, -, -⟩
    · cases next.symm.trans comma
      rw [run]
      exact le_max_of_le_right (ih turns _ q' _ stands' rfl (by omega))
    · cases next.symm.trans close
    · exact absurd next (noComma _)
  | member named quoted held ih =>
    intro turns entries p all here same keys enough
    obtain ⟨turns, rfl⟩ := exists_turn enough
    have keyed := keyedBy_of named quoted same
    have shorter := keyedBy_length keyed
    obtain ⟨p', stands, deeper⟩ := objectLoop_deeper entries here keyed
    exact (ih turns p' _ stands rfl (by omega)).trans deeper
  | laterMember named quoted padded held fresh later ih =>
    intro turns entries p all here same keys enough
    obtain ⟨turns, rfl⟩ := exists_turn enough
    rw [keys] at fresh
    obtain ⟨q, stands, shorter, goes, -⟩ := member_accepted named quoted padded held (spells_accepted held) here
      same (by simp) fresh (show 2 * all.length < turns by omega)
    obtain ⟨deepest, run⟩ := goes rfl
    rw [run]
    refine le_max_of_le_right (ih turns _ q _ stands rfl ?_ (by omega))
    intro other
    rw [mem_insertEntry fresh, List.mem_cons, keys]

theorem le_nestingDepth_iff (input : Str) (levels : Nat) (positive : 0 < levels) :
    levels ≤ nestingDepth input ↔ Nests .value levels input := by
  constructor
  · intro bound
    exact (depth_nests (2 * input.length + 2)).1 ⟨input, 0⟩ input levels (At.start input) (by omega) positive bound
  · intro nests
    exact nests_reaches nests (2 * input.length + 2) ⟨input, 0⟩ input (At.start input) rfl (by omega)

theorem nests_length (nests : Nests place levels text) : levels ≤ text.length + 1 := by
  induction nests with
  | here => omega
  | array blank unclosed items ih | object blank unclosed members ih =>
    rw [List.length_append, List.length_cons]
    omega
  | item item ih => exact ih
  | laterItem padded item later ih | member named quoted held ih
  | laterMember named quoted padded held fresh later ih =>
    rw [List.length_append, List.length_cons]
    omega

/-- The depth stays within a limit exactly for the texts that open no more levels. -/
theorem nestingDepth_le_iff (input : Str) : nestingDepth input ≤ 2048 ↔ ¬Nests .value 2049 input := by
  rw [← le_nestingDepth_iff input 2049 (by decide)]
  exact Nat.not_lt.symm

theorem nestingDepth_le_iff_short : nestingDepth ['[', '1', ']'] ≤ 2048 := by
  rw [nestingDepth_le_iff]
  intro nests
  exact absurd (nests_length nests) (by decide)

theorem nests_brackets (count : Nat) : Nests .value (count + 1) (List.replicate count '[') := by
  induction count with
  | zero => exact .here
  | succ count ih =>
    rw [List.replicate_succ]
    refine .array (show Blank [] by simp [Blank]) ?_ (.item ih)
    rintro blanks rest blank whole
    have member : ']' ∈ List.replicate count '[' := by
      rw [whole]
      simp
    cases List.eq_of_mem_replicate member

theorem nestingDepth_unbounded :
    ∃ input : Str, (utf8 input).length ≤ maxMessageSize ∧ ¬nestingDepth input ≤ 2048 := by
  refine ⟨List.replicate 4096 '[', ?_, ?_⟩
  · have octets : utf8 (List.replicate 4096 '[') = (List.replicate 4096 '[').map octet := by
      apply utf8_ascii
      intro c member
      rw [List.eq_of_mem_replicate member]
      decide
    rw [octets, List.length_map, List.length_replicate]
    decide
  · rw [not_le]
    have deep := (le_nestingDepth_iff (List.replicate 4096 '[') 4097 (by decide)).2 (nests_brackets 4096)
    exact lt_of_lt_of_le (by decide) deep

end Resolved.Proof.Varlink
