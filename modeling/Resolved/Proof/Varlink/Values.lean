import Resolved.Proof.Varlink.Scanner

/-!
# Values
-/

namespace Resolved.Proof.Varlink
open Lib Resolved.Varlink Resolved.Varlink.Parser Spec

variable {text inner rest word key blanks body all tail name : Str} {value : Value} {p : Parser}
  {turns : Nat} {entries : List (Str × Value)} {c : Char} {part : Part}

variable {input : Str}

def Leads (text : Str) (value : Value) (rest : Str) : Prop :=
  ∃ blanks inner, Blank blanks ∧ Spells (.value value) inner ∧ text = blanks ++ inner ++ rest

theorem leads_of (spells : Spells (.value value) inner) (here : afterBlanks text = inner ++ rest) : Leads text value rest := by
  obtain ⟨blanks, blank, whole⟩ := afterBlanks_split text
  refine ⟨blanks, inner, blank, spells, ?_⟩
  rw [List.append_assoc, ← here]
  exact whole

theorem literal_settles (value : Value) (here : At input p text) :
    Settles input (do return (value, ← p.literal word)) fun found rest => found = value ∧ text = word ++ rest := by
  rw [literal, here.remaining, ok_bind]
  split
  · rename_i front
    obtain ⟨rest, rfl⟩ := front
    exact .done here.skip ⟨rfl, rfl⟩
  · exact .inl ⟨_, rfl⟩

theorem literal_of (here : At input p (word ++ rest)) : p.literal word = .ok (p.skip (utf8 word).length) := by
  rw [literal, here.remaining, ok_bind, if_pos (List.prefix_append _ _)]
  rfl

structure Closed (text : Str) : Prop where
  square : ∀ inner, afterBlanks text = '[' :: inner → ∃ rest, afterBlanks inner = ']' :: rest
  curly : ∀ inner, afterBlanks text = '{' :: inner → ∃ rest, afterBlanks inner = '}' :: rest

theorem parseValue_turn (turns : Nat) (here : At input p text) :
    (∃ inner q, afterBlanks text = '[' :: inner ∧ (∀ rest, afterBlanks inner ≠ ']' :: rest) ∧
      At input q (afterBlanks inner) ∧ parseValue (turns + 1) p =
        ((arrayLoop turns [] q).1 + 1, (arrayLoop turns [] q).2)) ∨
    (∃ inner q, afterBlanks text = '{' :: inner ∧ (∀ rest, afterBlanks inner ≠ '}' :: rest) ∧
      At input q (afterBlanks inner) ∧ parseValue (turns + 1) p =
        ((objectLoop turns [] q).1 + 1, (objectLoop turns [] q).2)) ∨
    ∃ result, parseValue (turns + 1) p = (1, result) ∧ Settles input result (Leads text) ∧ Closed text := by
  have there := here.skipWhitespace
  unfold parseValue
  simp only
  split
  · rename_i ended
    have none := there.byte_eq_none.1 ended
    exact .inr (.inr ⟨_, rfl, .refused _, by simp [none], by simp [none]⟩)
  rename_i byte first
  -- a word, a string or a number opens nothing
  have plain : ∀ result : Except Fault (Value × Parser), byte ≠ octet '[' → byte ≠ octet '{' →
      Settles input result (Leads text) → ∃ found, (1, result) = (1, found) ∧ Settles input found (Leads text) ∧ Closed text := by
    intro result square curly settles
    refine ⟨result, rfl, settles, fun inner opens => ?_, fun inner opens => ?_⟩
    · rw [opens] at there
      rw [there.byte_ascii (by decide), Option.some.injEq] at first
      exact absurd first.symm square
    · rw [opens] at there
      rw [there.byte_ascii (by decide), Option.some.injEq] at first
      exact absurd first.symm curly
  have word : ∀ (value : Value) (letters : Str), Spells (.value value) letters →
      Settles input (do return (value, ← p.skipWhitespace.literal letters)) (Leads text) := by
    intro value letters spells
    apply (literal_settles value there).mono
    rintro found rest ⟨rfl, whole⟩
    exact leads_of spells whole
  split
  · rename_i letter
    subst letter
    exact .inr (.inr (plain _ (by decide) (by decide) (word _ _ .null)))
  split
  · rename_i letter
    subst letter
    exact .inr (.inr (plain _ (by decide) (by decide) (word _ _ .yes)))
  split
  · rename_i letter
    subst letter
    exact .inr (.inr (plain _ (by decide) (by decide) (word _ _ .no)))
  split
  · rename_i quote
    subst quote
    refine .inr (.inr (plain _ (by decide) (by decide) ?_))
    apply (parseString_settles there).bind
    rintro content q rest behind ⟨body, quoted, whole⟩
    refine .done behind (leads_of (.string quoted) ?_)
    rw [whole]
    simp
  split
  · rename_i square
    subst square
    obtain ⟨inner, opens⟩ := (there.byte_eq_some (by decide)).1 first
    rw [opens] at there
    have inside := (there.skipOne (by decide)).skipWhitespace
    have closing := inside.byte_eq_some (show ']'.toNat < 128 by decide)
    split
    · rename_i close
      obtain ⟨rest, closes⟩ := closing.1 close
      rw [closes] at inside
      refine .inr (.inr ⟨_, rfl, .done (inside.skipOne (by decide)) ?_, ?_, ?_⟩)
      · obtain ⟨blanks, blank, whole⟩ := afterBlanks_eq_cons closes
        refine leads_of (.emptyArray blank) ?_
        rw [opens, whole]
        simp
      · intro inner' opens'
        cases opens.symm.trans opens'
        exact ⟨rest, closes⟩
      · intro inner' opens'
        cases opens.symm.trans opens'
    · rename_i unclosed
      refine .inl ⟨inner, _, opens, ?_, inside, rfl⟩
      intro rest closes
      exact unclosed (closing.2 ⟨rest, closes⟩)
  split
  · rename_i curly
    subst curly
    obtain ⟨inner, opens⟩ := (there.byte_eq_some (by decide)).1 first
    rw [opens] at there
    have inside := (there.skipOne (by decide)).skipWhitespace
    have closing := inside.byte_eq_some (show '}'.toNat < 128 by decide)
    split
    · rename_i close
      obtain ⟨rest, closes⟩ := closing.1 close
      rw [closes] at inside
      refine .inr (.inr ⟨_, rfl, .done (inside.skipOne (by decide)) ?_, ?_, ?_⟩)
      · obtain ⟨blanks, blank, whole⟩ := afterBlanks_eq_cons closes
        refine leads_of (.emptyObject blank) ?_
        rw [opens, whole]
        simp
      · intro inner' opens'
        cases opens.symm.trans opens'
      · intro inner' opens'
        cases opens.symm.trans opens'
        exact ⟨rest, closes⟩
    · rename_i unclosed
      refine .inr (.inl ⟨inner, _, opens, ?_, inside, rfl⟩)
      intro rest closes
      exact unclosed (closing.2 ⟨rest, closes⟩)
  rename_i square curly
  split
  · refine .inr (.inr (plain _ square curly ?_))
    apply (parseNumber_settles there).bind
    rintro value q rest behind ⟨negative, digits, valid, rfl, whole⟩
    exact .done behind (leads_of (.number valid) whole)
  · exact .inr (.inr (plain _ square curly (.refused _)))

theorem arrayLoop_turn {q : Parser} (values : List Value) (step : (parseValue turns p).2 = .ok (value, q))
    (behind : At input q rest) :
    (∃ next q', afterBlanks rest = ',' :: next ∧ At input q' next ∧ arrayLoop (turns + 1) values p =
      (max (parseValue turns p).1 (arrayLoop turns (values ++ [value]) q').1,
        (arrayLoop turns (values ++ [value]) q').2)) ∨
    (∃ next q', afterBlanks rest = ']' :: next ∧ At input q' next ∧ arrayLoop (turns + 1) values p =
      ((parseValue turns p).1, .ok (.array (values ++ [value]), q'))) ∨
    (∀ next, afterBlanks rest ≠ ',' :: next) ∧ (∀ next, afterBlanks rest ≠ ']' :: next) ∧
      ∃ error, arrayLoop (turns + 1) values p = ((parseValue turns p).1, .error (.refused error)) := by
  have there := behind.skipWhitespace
  have comma := there.byte_eq_some (show ','.toNat < 128 by decide)
  have close := there.byte_eq_some (show ']'.toNat < 128 by decide)
  rw [arrayLoop]
  cases run : parseValue turns p with
  | mk deepest result =>
  rw [run] at step
  cases step
  simp only
  split
  · rename_i here
    obtain ⟨next, whole⟩ := comma.1 here
    rw [whole] at there
    exact .inl ⟨next, _, whole, there.skipOne (by decide), rfl⟩
  rename_i noComma
  split
  · rename_i here
    obtain ⟨next, whole⟩ := close.1 here
    rw [whole] at there
    exact .inr (.inl ⟨next, _, whole, there.skipOne (by decide), rfl⟩)
  · rename_i noClose
    exact .inr (.inr ⟨fun next whole => noComma (comma.2 ⟨next, whole⟩),
      fun next whole => noClose (close.2 ⟨next, whole⟩), _, rfl⟩)

theorem arrayLoop_error {fault : Fault} (values : List Value) (step : (parseValue turns p).2 = .error fault) :
    arrayLoop (turns + 1) values p = ((parseValue turns p).1, .error fault) := by
  rw [arrayLoop]
  cases run : parseValue turns p with
  | mk deepest result =>
  rw [run] at step
  cases step
  rfl

def KeyedBy (text key inner : Str) : Prop :=
  ∃ name body, Padded name ('"' :: body ++ ['"']) ∧ Quoted body key ∧ text = name ++ ':' :: inner

theorem keyedBy_split (keyed : KeyedBy text key inner) :
    ∃ body rest, afterBlanks text = '"' :: body ++ '"' :: rest ∧ Quoted body key ∧
      afterBlanks rest = ':' :: inner := by
  obtain ⟨_, body, ⟨before, after, blank, blank', rfl⟩, quoted, rfl⟩ := keyed
  refine ⟨body, after ++ ':' :: inner, ?_, quoted, ?_⟩
  · rw [List.append_assoc, List.append_assoc, afterBlanks_append blank, List.cons_append, List.cons_append,
      afterBlanks_cons (by decide)]
    simp
  · rw [afterBlanks_append blank', afterBlanks_cons (by decide)]

theorem objectLoop_key (turns : Nat) (entries : List (Str × Value)) (here : At input p text) :
    ((∀ key inner, ¬KeyedBy text key inner) ∧
      ∃ error, objectLoop (turns + 1) entries p = (0, .error (.refused error))) ∨
    ∃ key inner q, KeyedBy text key inner ∧ At input q inner ∧ objectLoop (turns + 1) entries p =
        match parseValue turns q with
        | (deepest, .error fault) => (deepest, .error fault)
        | (deepest, .ok (value, p)) =>
          if key ∈ entries.map (·.1) then (deepest, p.error "duplicate key")
          else
            let entries := insertEntry key value entries
            let p := p.skipWhitespace
            if p.byte = some (octet ',') then
              let (deeper, result) := objectLoop turns entries (p.skip 1)
              (max deepest deeper, result)
            else if p.byte = some (octet '}') then (deepest, .ok (.object entries, p.skip 1))
            else (deepest, p.error "expected ',' or '\x7d'") := by
  have there := here.skipWhitespace
  rw [objectLoop]
  rcases parseString_settles there with ⟨error, refused⟩ | ⟨key, q, rest, done, behind, body, quoted, whole⟩
  · refine .inl ⟨fun key inner keyed => ?_, error, by rw [refused]⟩
    obtain ⟨body, rest, whole, quoted, -⟩ := keyedBy_split keyed
    rw [whole] at there
    obtain ⟨q, done, -⟩ := parseString_of quoted there
    rw [refused] at done
    cases done
  · have colon := behind.skipWhitespace.byte_eq_some (show ':'.toNat < 128 by decide)
    simp only [done]
    split
    · rename_i missing
      refine .inl ⟨fun key' inner keyed => ?_, _, rfl⟩
      obtain ⟨body', rest', whole', quoted', colon'⟩ := keyedBy_split keyed
      rw [whole'] at there
      obtain ⟨q', done', behind'⟩ := parseString_of quoted' there
      cases done.symm.trans done'
      cases Except.ok.inj (behind.remaining.symm.trans behind'.remaining)
      exact missing (colon.2 ⟨inner, colon'⟩)
    · rename_i given
      obtain ⟨inner, next⟩ := colon.1 (not_not.1 given)
      have stands := behind.skipWhitespace
      rw [next] at stands
      refine .inr ⟨key, inner, q.skipWhitespace.skip 1, ?_, stands.skipOne (by decide), rfl⟩
      obtain ⟨before, blank, start⟩ := afterBlanks_split text
      obtain ⟨after, blank', finish⟩ := afterBlanks_eq_cons next
      refine ⟨before ++ ('"' :: body ++ ['"']) ++ after, body, ⟨before, after, blank, blank', rfl⟩, quoted, ?_⟩
      rw [start, whole, finish]
      simp

theorem objectLoop_turn (turns : Nat) (entries : List (Str × Value)) (here : At input p text) :
    ((∀ key inner, ¬KeyedBy text key inner) ∧
      ∃ error, objectLoop (turns + 1) entries p = (0, .error (.refused error))) ∨
    ∃ key inner p', KeyedBy text key inner ∧ At input p' inner ∧ (∀ fault, (parseValue turns p').2 = .error fault →
        objectLoop (turns + 1) entries p = ((parseValue turns p').1, .error fault)) ∧
      ∀ value q rest, (parseValue turns p').2 = .ok (value, q) → At input q rest →
        (key ∈ entries.map (·.1) ∧ ∃ error,
          objectLoop (turns + 1) entries p = ((parseValue turns p').1, .error (.refused error))) ∨
        key ∉ entries.map (·.1) ∧
        ((∃ next q', afterBlanks rest = ',' :: next ∧ At input q' next ∧ objectLoop (turns + 1) entries p =
            (max (parseValue turns p').1 (objectLoop turns (insertEntry key value entries) q').1,
              (objectLoop turns (insertEntry key value entries) q').2)) ∨
          (∃ next q', afterBlanks rest = '}' :: next ∧ At input q' next ∧ objectLoop (turns + 1) entries p =
            ((parseValue turns p').1, .ok (.object (insertEntry key value entries), q'))) ∨
          (∀ next, afterBlanks rest ≠ ',' :: next) ∧ (∀ next, afterBlanks rest ≠ '}' :: next) ∧
            ∃ error, objectLoop (turns + 1) entries p = ((parseValue turns p').1, .error (.refused error))) := by
  rcases objectLoop_key turns entries here with keyless | ⟨key, inner, p', keyed, stands, run⟩
  · exact .inl keyless
  refine .inr ⟨key, inner, p', keyed, stands, ?_, ?_⟩
  · intro fault step
    rw [run]
    cases value : parseValue turns p' with
    | mk deepest result =>
    rw [value] at step
    cases step
    rfl
  · intro value q rest step behind
    have there := behind.skipWhitespace
    have comma := there.byte_eq_some (show ','.toNat < 128 by decide)
    have close := there.byte_eq_some (show '}'.toNat < 128 by decide)
    rw [run]
    cases held : parseValue turns p' with
    | mk deepest result =>
    rw [held] at step
    cases step
    simp only
    split
    · rename_i known
      exact .inl ⟨known, _, rfl⟩
    rename_i fresh
    refine .inr ⟨fresh, ?_⟩
    split
    · rename_i here
      obtain ⟨next, whole⟩ := comma.1 here
      rw [whole] at there
      exact .inl ⟨next, _, whole, there.skipOne (by decide), rfl⟩
    rename_i noComma
    split
    · rename_i here
      obtain ⟨next, whole⟩ := close.1 here
      rw [whole] at there
      exact .inr (.inl ⟨next, _, whole, there.skipOne (by decide), rfl⟩)
    · rename_i noClose
      exact .inr (.inr ⟨fun next whole => noComma (comma.2 ⟨next, whole⟩),
        fun next whole => noClose (close.2 ⟨next, whole⟩), _, rfl⟩)

def insertAll (entries more : List (Str × Value)) : List (Str × Value) :=
  more.foldl (fun held entry => insertEntry entry.1 entry.2 held) entries

theorem insertEntry_perm (fresh : key ∉ entries.map (·.1)) : (insertEntry key value entries).Perm ((key, value) :: entries) := by
  induction entries with
  | nil => exact .refl _
  | cons entry rest ih =>
    rw [List.map_cons, List.mem_cons, not_or] at fresh
    rw [insertEntry]
    split
    · exact .refl _
    · rw [if_neg fresh.1]
      exact ((ih fresh.2).cons entry).trans (.swap _ _ _)

theorem mem_insertEntry {other : Str} (fresh : key ∉ entries.map (·.1)) :
    other ∈ (insertEntry key value entries).map (·.1) ↔ other = key ∨ other ∈ entries.map (·.1) := by
  rw [((insertEntry_perm fresh).map _).mem_iff, List.map_cons, List.mem_cons]

theorem insertEntry_sorted (fresh : key ∉ entries.map (·.1)) (sorted : entries.Pairwise fun a b => a.1 < b.1) :
    (insertEntry key value entries).Pairwise fun a b => a.1 < b.1 := by
  induction entries with
  | nil => exact List.pairwise_singleton _ _
  | cons entry rest ih =>
    rw [List.map_cons, List.mem_cons, not_or] at fresh
    rw [List.pairwise_cons] at sorted
    rw [insertEntry]
    split
    · rename_i less
      refine List.pairwise_cons.2 ⟨?_, List.pairwise_cons.2 sorted⟩
      intro other member
      rcases List.mem_cons.1 member with rfl | later
      · exact less
      · exact less.trans (sorted.1 other later)
    · rename_i less
      rw [if_neg fresh.1]
      refine List.pairwise_cons.2 ⟨?_, ih fresh.2 sorted.2⟩
      intro other member
      rcases List.mem_cons.1 ((insertEntry_perm fresh.2).mem_iff.1 member) with rfl | later
      · exact lt_of_le_of_ne (not_lt.1 less) (Ne.symm fresh.1)
      · exact sorted.1 other later

theorem insertAll_spec {entries more : List (Str × Value)} (distinct : (more.map (·.1)).Nodup)
    (fresh : ∀ entry ∈ more, entry.1 ∉ entries.map (·.1)) (sorted : entries.Pairwise fun a b => a.1 < b.1) :
    (insertAll entries more).Perm (more ++ entries) ∧ (insertAll entries more).Pairwise fun a b => a.1 < b.1 := by
  induction more generalizing entries with
  | nil => exact ⟨.refl _, sorted⟩
  | cons entry more ih =>
    rw [List.map_cons, List.nodup_cons] at distinct
    rw [List.forall_mem_cons] at fresh
    have others : ∀ other ∈ more, other.1 ∉ (insertEntry entry.1 entry.2 entries).map (·.1) := by
      intro other member held
      rcases (mem_insertEntry fresh.1).1 held with same | held
      · exact distinct.1 (same ▸ List.mem_map_of_mem member)
      · exact fresh.2 other member held
    obtain ⟨perm, ordered⟩ := ih distinct.2 others (insertEntry_sorted fresh.1 sorted)
    refine ⟨perm.trans ?_, ordered⟩
    refine ((insertEntry_perm fresh.1).append_left more).trans ?_
    exact List.perm_middle

theorem sorted_unique {fields : List (Str × Value)} (same : fields.Perm entries)
    (sorted : fields.Pairwise fun a b => a.1 < b.1) (sorted' : entries.Pairwise fun a b => a.1 < b.1) :
    fields = entries := by
  apply same.eq_of_pairwise _ sorted sorted'
  intro a b _ _ less more
  exact absurd (less.trans more) (lt_irrefl _)

theorem leads_length (leads : Leads text value rest) : rest.length ≤ text.length := by
  obtain ⟨blanks, inner, -, -, rfl⟩ := leads
  rw [List.length_append]
  omega

theorem behind_length (here : afterBlanks text = c :: rest) : rest.length < text.length := by
  have shorter := afterBlanks_length text
  rw [here, List.length_cons] at shorter
  omega

theorem keyedBy_length (keyed : KeyedBy text key inner) : inner.length < text.length := by
  obtain ⟨name, body, -, -, rfl⟩ := keyed
  rw [List.length_append, List.length_cons]
  omega

theorem leads_padded {next : Str} (leads : Leads text value rest) (here : afterBlanks rest = c :: next) :
    ∃ padded inner, Padded padded inner ∧ Spells (.value value) inner ∧ text = padded ++ c :: next := by
  obtain ⟨before, inner, blank, spells, rfl⟩ := leads
  obtain ⟨after, blank', rfl⟩ := afterBlanks_eq_cons here
  exact ⟨before ++ inner ++ after, inner, ⟨before, after, blank, blank', rfl⟩, spells, by simp⟩

theorem padded_blanks (blank : Blank blanks) (padded : Padded text inner) : Padded (blanks ++ text) inner := by
  obtain ⟨before, after, blank', blank'', rfl⟩ := padded
  refine ⟨blanks ++ before, after, ?_, blank'', by simp⟩
  intro c member
  rcases List.mem_append.1 member with member | member
  · exact blank c member
  · exact blank' c member

theorem spells_blanks (blank : Blank blanks) (spells : Spells part inner) (kind : ∀ value, part ≠ .value value) :
    Spells part (blanks ++ inner) := by
  cases spells with
  | lastItem pads item => exact .lastItem (padded_blanks blank pads) item
  | item pads item more =>
    rw [← List.append_assoc]
    exact .item (padded_blanks blank pads) item more
  | lastMember named quoted pads held =>
    rw [← List.append_assoc]
    exact .lastMember (padded_blanks blank named) quoted pads held
  | member named quoted pads held more =>
    rw [← List.append_assoc, ← List.append_assoc]
    exact .member (padded_blanks blank named) quoted pads held more
  | _ => exact absurd rfl (kind _)

def ArrayGood (values : List Value) (text : Str) (value : Value) (rest : Str) : Prop :=
  ∃ more inner, value = .array (values ++ more) ∧ Spells (.items more) inner ∧ text = inner ++ ']' :: rest

structure ObjectGood (entries : List (Str × Value)) (text : Str) (value : Value) (rest : Str)
    (more : List (Str × Value)) (inner : Str) : Prop where
  value : value = .object (insertAll entries more)
  fresh : ∀ entry ∈ more, entry.1 ∉ entries.map (·.1)
  distinct : (more.map (·.1)).Nodup
  spells : Spells (.members more) inner
  whole : text = inner ++ '}' :: rest

theorem parse_settles (turns : Nat) :
    (∀ p text, At input p text → 2 * text.length < turns → Settles input (parseValue turns p).2 (Leads text)) ∧
    (∀ values p text, At input p text → 2 * text.length + 1 < turns →
      Settles input (arrayLoop turns values p).2 (ArrayGood values text)) ∧
    ∀ entries p text, At input p text → 2 * text.length + 1 < turns →
      Settles input (objectLoop turns entries p).2 fun value rest =>
        ∃ more inner, ObjectGood entries text value rest more inner := by
  induction turns with
  | zero => exact ⟨by omega, by omega, by omega⟩
  | succ turns ih =>
    obtain ⟨values_settle, items_settle, members_settle⟩ := ih
    refine ⟨?_, ?_, ?_⟩
    · intro p text here enough
      rcases parseValue_turn turns here with ⟨inner, q, opens, -, inside, run⟩ |
        ⟨inner, q, opens, -, inside, run⟩ | ⟨result, run, settles, -⟩
      · have shorter := behind_length opens
        have within := afterBlanks_length inner
        rw [run]
        apply (items_settle [] q _ inside (by omega)).mono
        rintro value rest ⟨more, items, rfl, spells, whole⟩
        obtain ⟨blanks, blank, start⟩ := afterBlanks_split inner
        refine leads_of (.array (spells_blanks blank spells (by rintro _ ⟨⟩))) ?_
        rw [opens, start, whole]
        simp
      · have shorter := behind_length opens
        have within := afterBlanks_length inner
        rw [run]
        apply (members_settle [] q _ inside (by omega)).mono
        rintro value rest ⟨more, items, good⟩
        obtain ⟨blanks, blank, start⟩ := afterBlanks_split inner
        obtain ⟨perm, sorted⟩ := insertAll_spec good.distinct good.fresh List.Pairwise.nil
        rw [List.append_nil] at perm
        rw [good.value]
        refine leads_of
          (.object (spells_blanks blank good.spells (by rintro _ ⟨⟩)) good.distinct perm sorted) ?_
        rw [opens, start, good.whole]
        simp
      · rw [run]
        exact settles
    · intro values p text here enough
      rcases values_settle p text here (by omega) with ⟨error, step⟩ | ⟨value, q, rest, step, behind, leads⟩
      · rw [arrayLoop_error values step]
        exact .inl ⟨error, rfl⟩
      have shorter := leads_length leads
      rcases arrayLoop_turn values step behind with ⟨next, q', comma, stands, run⟩ |
        ⟨next, q', close, stands, run⟩ | ⟨-, -, error, run⟩
      · have later := behind_length comma
        rw [run]
        apply (items_settle _ q' next stands (by omega)).mono
        rintro found rest' ⟨more, inner, rfl, spells, rfl⟩
        obtain ⟨padded, item, pads, spelled, rfl⟩ := leads_padded leads comma
        exact ⟨value :: more, padded ++ ',' :: inner, by simp, .item pads spelled spells, by simp⟩
      · rw [run]
        obtain ⟨padded, item, pads, spelled, rfl⟩ := leads_padded leads close
        exact .done stands ⟨[value], padded, rfl, .lastItem pads spelled, rfl⟩
      · rw [run]
        exact .inl ⟨error, rfl⟩
    · intro entries p text here enough
      rcases objectLoop_turn turns entries here with ⟨-, error, run⟩ |
        ⟨key, inner, p', keyed, stands, failed, goes⟩
      · rw [run]
        exact .inl ⟨error, rfl⟩
      have outer := keyedBy_length keyed
      rcases values_settle p' inner stands (by omega) with ⟨error, step⟩ |
        ⟨value, q, rest, step, behind, leads⟩
      · rw [failed _ step]
        exact .inl ⟨error, rfl⟩
      have shorter := leads_length leads
      obtain ⟨name, body, named, quoted, rfl⟩ := keyed
      rcases goes value q rest step behind with ⟨-, error, run⟩ |
        ⟨fresh, ⟨next, q', comma, stands', run⟩ | ⟨next, q', close, stands', run⟩ | ⟨-, -, error, run⟩⟩
      · rw [run]
        exact .inl ⟨error, rfl⟩
      · have later := behind_length comma
        rw [run]
        apply (members_settle _ q' next stands' (by omega)).mono
        rintro found rest' ⟨more, inner', good⟩
        obtain ⟨padded, item, pads, spelled, rfl⟩ := leads_padded leads comma
        have others : ∀ entry ∈ more, entry.1 ≠ key ∧ entry.1 ∉ entries.map (·.1) := by
          intro entry member
          have held := good.fresh entry member
          rwa [mem_insertEntry fresh, not_or] at held
        refine ⟨(key, value) :: more, name ++ ':' :: padded ++ ',' :: inner', good.value,
          List.forall_mem_cons.2 ⟨fresh, fun entry member => (others entry member).2⟩, ?_,
          .member named quoted pads spelled good.spells, ?_⟩
        · rw [List.map_cons, List.nodup_cons]
          refine ⟨?_, good.distinct⟩
          intro member
          obtain ⟨entry, member, same⟩ := List.mem_map.1 member
          exact (others entry member).1 same
        · rw [good.whole]
          simp
      · rw [run]
        obtain ⟨padded, item, pads, spelled, rfl⟩ := leads_padded leads close
        exact .done stands' ⟨[(key, value)], name ++ ':' :: padded, rfl, by simpa using fresh, by simp,
          .lastMember named quoted pads spelled, by simp⟩
      · rw [run]
        exact .inl ⟨error, rfl⟩

def Follows (rest : Str) : Prop := ∀ c ∈ rest.head?, c ∈ [' ', '\n', '\r', '\t', ',', ']', '}']

theorem follows_blank (blank : Blank blanks) : Follows blanks := by
  intro c first
  have member := blank c (List.mem_of_mem_head? first)
  simp only [List.mem_cons, List.not_mem_nil, or_false] at member ⊢
  tauto

theorem follows_mark (blank : Blank blanks) (mark : c ∈ [',', ']', '}']) : Follows (blanks ++ c :: rest) := by
  cases blanks with
  | nil =>
    intro d first
    cases first
    simp only [List.mem_cons, List.not_mem_nil, or_false] at mark ⊢
    tauto
  | cons d more =>
    intro e first
    cases first
    exact follows_blank blank _ rfl

theorem Follows.ended (follows : Follows rest) : (∀ c ∈ rest.head?, c.isDigit = false) ∧ Unnumbered rest := by
  have marks : ∀ c ∈ [' ', '\n', '\r', '\t', ',', ']', '}'],
      c.isDigit = false ∧ c ≠ '.' ∧ c ≠ 'e' ∧ c ≠ 'E' := by
    intro c member
    simp only [List.mem_cons, List.not_mem_nil, or_false] at member
    rcases member with rfl | rfl | rfl | rfl | rfl | rfl | rfl <;> decide
  exact ⟨fun c first => (marks c (follows c first)).1, fun c first => (marks c (follows c first)).2⟩

theorem spells_start (spells : Spells (.value value) inner) :
    ∃ c more, inner = c :: more ∧ c ∉ [' ', '\n', '\r', '\t'] ∧ c ≠ ']' := by
  cases spells with
  | null | yes | no => exact ⟨_, _, rfl, by decide, by decide⟩
  | @number negative digits valid =>
    cases negative with
    | true => exact ⟨_, _, rfl, by decide, by decide⟩
    | false =>
      obtain ⟨d, more, rfl⟩ := List.exists_cons_of_ne_nil valid.given
      have digit := valid.decimal d (by simp)
      refine ⟨d, more, rfl, ?_, ?_⟩
      · intro member
        simp only [List.mem_cons, List.not_mem_nil, or_false] at member
        rcases member with rfl | rfl | rfl | rfl <;> exact absurd digit (by decide)
      · rintro rfl
        exact absurd digit (by decide)
  | string quoted | emptyArray blank | array items
  | emptyObject blank | object members => exact ⟨_, _, rfl, by decide, by decide⟩

theorem padded_split (padded : Padded text inner) (spells : Spells (.value value) inner) :
    ∃ after, Blank after ∧ ∀ tail, afterBlanks (text ++ tail) = inner ++ (after ++ tail) := by
  obtain ⟨before, after, blank, blank', rfl⟩ := padded
  obtain ⟨c, more, rfl, solid, -⟩ := spells_start spells
  refine ⟨after, blank', fun tail => ?_⟩
  rw [List.append_assoc, List.append_assoc, afterBlanks_append blank, List.cons_append, afterBlanks_cons solid]

theorem items_start {values : List Value} (spells : Spells (.items values) inner) (tail rest : Str) :
    afterBlanks (inner ++ tail) ≠ ']' :: rest := by
  have start : ∃ text first more value, Padded text first ∧ Spells (.value value) first ∧ inner = text ++ more := by
    cases spells with
    | lastItem padded item => exact ⟨_, _, [], _, padded, item, by simp⟩
    | item padded item more => exact ⟨_, _, _, _, padded, item, rfl⟩
  obtain ⟨text, first, more, value, padded, item, rfl⟩ := start
  obtain ⟨after, -, split⟩ := padded_split padded item
  obtain ⟨c, others, rfl, -, notClose⟩ := spells_start item
  rw [List.append_assoc, split]
  intro same
  cases same
  exact notClose rfl

theorem members_start (spells : Spells (.members entries) inner) (tail rest : Str) :
    afterBlanks (inner ++ tail) ≠ '}' :: rest := by
  have start : ∃ name body more, Padded name ('"' :: body ++ ['"']) ∧ inner = name ++ more := by
    cases spells with
    | lastMember named quoted padded held => exact ⟨_, _, _, named, rfl⟩
    | member named quoted padded held more => exact ⟨_, _, _, named, by rw [List.append_assoc]⟩
  obtain ⟨name, body, more, ⟨before, after, blank, -, rfl⟩, rfl⟩ := start
  rw [List.append_assoc, List.append_assoc, List.append_assoc, afterBlanks_append blank, List.cons_append,
    List.cons_append, afterBlanks_cons (by decide)]
  intro same
  cases same

section
variable {turns : Nat} {p : Parser} {text rest : Str} (here : At input p text)
include here

theorem parseValue_word
    (known : (value, word) ∈ [(.null, "null".toList), (.bool true, "true".toList), (.bool false, "false".toList)])
    (starts : afterBlanks text = word ++ rest) :
    ∃ q, (parseValue (turns + 1) p).2 = .ok (value, q) ∧ At input q rest := by
  have there := here.skipWhitespace
  rw [starts] at there
  have done := literal_of there
  refine ⟨_, ?_, there.skip⟩
  simp only [List.mem_cons, List.not_mem_nil, or_false, Prod.mk.injEq] at known
  rw [parseValue]
  rcases known with ⟨rfl, rfl⟩ | ⟨rfl, rfl⟩ | ⟨rfl, rfl⟩
  · have first : p.skipWhitespace.byte = some (octet 'n') := there.byte_ascii (by decide)
    simp only [first, if_true, done, ok_bind]
    rfl
  · have first : p.skipWhitespace.byte = some (octet 't') := there.byte_ascii (by decide)
    simp only [first, if_true, done, ok_bind, if_neg (show octet 't' ≠ octet 'n' by decide)]
    rfl
  · have first : p.skipWhitespace.byte = some (octet 'f') := there.byte_ascii (by decide)
    simp only [first, if_true, done, ok_bind, if_neg (show octet 'f' ≠ octet 'n' by decide),
      if_neg (show octet 'f' ≠ octet 't' by decide)]
    rfl

theorem parseValue_string {content : Str} (quoted : Quoted body content)
    (starts : afterBlanks text = '"' :: body ++ '"' :: rest) :
    ∃ q, (parseValue (turns + 1) p).2 = .ok (.string content, q) ∧ At input q rest := by
  have there := here.skipWhitespace
  rw [starts] at there
  obtain ⟨q, done, behind⟩ := parseString_of quoted there
  refine ⟨q, ?_, behind⟩
  rw [parseValue]
  simp only [there.byte_ascii (show '"'.toNat < 128 by decide), if_neg (show octet '"' ≠ octet 'n' by decide),
    if_neg (show octet '"' ≠ octet 't' by decide), if_neg (show octet '"' ≠ octet 'f' by decide), if_true, done,
    ok_bind]
  rfl

theorem parseValue_number {digits : Str} {negative : Bool} (valid : IsNumeral negative digits)
    (starts : afterBlanks text = numeral negative digits ++ rest) (follows : Follows rest) :
    ∃ q, (parseValue (turns + 1) p).2 = .ok (.number (numeralValue negative digits), q) ∧ At input q rest := by
  have there := here.skipWhitespace
  rw [starts] at there
  obtain ⟨q, done, behind⟩ := parseNumber_of valid there follows.ended.1 follows.ended.2
  obtain ⟨c, more, whole, numeric, small⟩ : ∃ c more, numeral negative digits = c :: more ∧
      (octet c = octet '-' ∨ isDigit (octet c) = true) ∧ c.toNat < 128 := by
    obtain ⟨d, others, rfl⟩ := List.exists_cons_of_ne_nil valid.given
    cases negative with
    | true => exact ⟨'-', _, rfl, .inl rfl, by decide⟩
    | false =>
      have digit := valid.decimal d (by simp)
      have both := isDigit_octet d
      rw [digit, Bool.and_eq_true] at both
      exact ⟨d, others, rfl, .inr both.2, isDigit_char digit⟩
  have other : ∀ byte : UInt8, ¬(byte = octet '-' ∨ isDigit byte = true) → octet c ≠ byte := by
    rintro byte odd rfl
    exact odd numeric
  refine ⟨q, ?_, behind⟩
  rw [whole] at there
  rw [parseValue]
  simp only [there.byte_ascii small]
  rw [if_neg (other (octet 'n') (by decide)), if_neg (other (octet 't') (by decide)),
    if_neg (other (octet 'f') (by decide)), if_neg (other (octet '"') (by decide)),
    if_neg (other (octet '[') (by decide)), if_neg (other (octet '{') (by decide)), if_pos numeric, done]
  rfl

theorem parseValue_emptyArray (blank : Blank blanks) (starts : afterBlanks text = '[' :: blanks ++ ']' :: rest) :
    ∃ q, (parseValue (turns + 1) p).2 = .ok (.array [], q) ∧ At input q rest := by
  have there := here.skipWhitespace
  rw [starts, List.cons_append] at there
  have inside := (there.skipOne (by decide)).skipWhitespace
  rw [afterBlanks_append blank, afterBlanks_cons (by decide)] at inside
  refine ⟨_, ?_, inside.skipOne (by decide)⟩
  rw [parseValue]
  simp only [there.byte_ascii (show '['.toNat < 128 by decide), if_neg (show octet '[' ≠ octet 'n' by decide),
    if_neg (show octet '[' ≠ octet 't' by decide), if_neg (show octet '[' ≠ octet 'f' by decide),
    if_neg (show octet '[' ≠ octet '"' by decide), if_true, inside.byte_ascii (show ']'.toNat < 128 by decide)]

theorem parseValue_emptyObject (blank : Blank blanks) (starts : afterBlanks text = '{' :: blanks ++ '}' :: rest) :
    ∃ q, (parseValue (turns + 1) p).2 = .ok (.object [], q) ∧ At input q rest := by
  have there := here.skipWhitespace
  rw [starts, List.cons_append] at there
  have inside := (there.skipOne (by decide)).skipWhitespace
  rw [afterBlanks_append blank, afterBlanks_cons (by decide)] at inside
  refine ⟨_, ?_, inside.skipOne (by decide)⟩
  rw [parseValue]
  simp only [there.byte_ascii (show '{'.toNat < 128 by decide), if_neg (show octet '{' ≠ octet 'n' by decide),
    if_neg (show octet '{' ≠ octet 't' by decide), if_neg (show octet '{' ≠ octet 'f' by decide),
    if_neg (show octet '{' ≠ octet '"' by decide), if_neg (show octet '{' ≠ octet '[' by decide), if_true,
    inside.byte_ascii (show '}'.toNat < 128 by decide)]

end

def Accepted (input inner : Str) : Part → Prop
  | .value value => ∀ turns p text rest, At input p text → afterBlanks text = inner ++ rest → Follows rest →
    2 * text.length < turns → ∃ q, (parseValue turns p).2 = .ok (value, q) ∧ At input q rest
  | .items values => ∀ turns held p text rest, At input p text →
    afterBlanks text = afterBlanks (inner ++ ']' :: rest) → 2 * text.length + 1 < turns →
    ∃ q, (arrayLoop turns held p).2 = .ok (.array (held ++ values), q) ∧ At input q rest
  | .members entries => ∀ turns held p text rest, At input p text →
    afterBlanks text = afterBlanks (inner ++ '}' :: rest) → (entries.map (·.1)).Nodup →
    (∀ entry ∈ entries, entry.1 ∉ held.map (·.1)) → 2 * text.length + 1 < turns →
    ∃ q, (objectLoop turns held p).2 = .ok (.object (insertAll held entries), q) ∧ At input q rest

theorem item_accepted
    (padded : Padded text inner) (spells : Spells (.value value) inner) (ih : Accepted input inner (.value value))
    (here : At input p all) (starts : afterBlanks all = afterBlanks (text ++ c :: tail)) (mark : c ∈ [',', ']', '}'])
    (enough : 2 * all.length < turns) :
    ∃ q rest, (parseValue turns p).2 = .ok (value, q) ∧ At input q rest ∧ afterBlanks rest = c :: tail ∧
      rest.length ≤ all.length := by
  obtain ⟨after, blank, split⟩ := padded_split padded spells
  rw [split] at starts
  obtain ⟨q, done, behind⟩ := ih turns p all (after ++ c :: tail) here starts (follows_mark blank mark) enough
  refine ⟨q, after ++ c :: tail, done, behind, ?_, ?_⟩
  · rw [afterBlanks_append blank, afterBlanks_cons]
    simp only [List.mem_cons, List.not_mem_nil, or_false] at mark ⊢
    rcases mark with rfl | rfl | rfl <;> decide
  · have shorter := afterBlanks_length all
    rw [starts, List.length_append] at shorter
    omega

theorem keyedBy_of (named : Padded name ('"' :: body ++ ['"'])) (quoted : Quoted body key)
    (starts : afterBlanks all = afterBlanks (name ++ ':' :: inner)) : KeyedBy all key inner := by
  obtain ⟨before, after, blank, blank', rfl⟩ := named
  obtain ⟨before', blank'', whole⟩ := afterBlanks_split all
  refine ⟨before' ++ ('"' :: body ++ ['"']) ++ after, body, ⟨before', after, blank'', blank', rfl⟩, quoted, ?_⟩
  rw [starts, List.append_assoc, List.append_assoc, afterBlanks_append blank, List.cons_append, List.cons_append,
    afterBlanks_cons (by decide)] at whole
  rw [whole]
  simp

theorem keyedBy_unique {key' inner' : Str} (keyed : KeyedBy text key inner) (keyed' : KeyedBy text key' inner') :
    key = key' ∧ inner = inner' := by
  obtain ⟨body, rest, whole, quoted, colon⟩ := keyedBy_split keyed
  obtain ⟨body', rest', whole', quoted', colon'⟩ := keyedBy_split keyed'
  have there := (At.start text).skipWhitespace
  have there' := there
  rw [whole] at there
  rw [whole'] at there'
  obtain ⟨q, done, behind⟩ := parseString_of quoted there
  obtain ⟨q', done', behind'⟩ := parseString_of quoted' there'
  cases done.symm.trans done'
  cases Except.ok.inj (behind.remaining.symm.trans behind'.remaining)
  cases colon.symm.trans colon'
  exact ⟨rfl, rfl⟩

theorem member_accepted
    {held : List (Str × Value)} (named : Padded name ('"' :: body ++ ['"'])) (quoted : Quoted body key)
    (padded : Padded text inner) (spells : Spells (.value value) inner) (ih : Accepted input inner (.value value))
    (here : At input p all) (starts : afterBlanks all = afterBlanks (name ++ ':' :: text ++ c :: tail))
    (mark : c ∈ [',', '}']) (fresh : key ∉ held.map (·.1)) (enough : 2 * all.length < turns) :
    ∃ q, At input q tail ∧ tail.length < all.length ∧ ((c = ',' → ∃ deepest, objectLoop (turns + 1) held p =
          (max deepest (objectLoop turns (insertEntry key value held) q).1,
            (objectLoop turns (insertEntry key value held) q).2)) ∧
        (c = '}' → ∃ deepest, objectLoop (turns + 1) held p =
          (deepest, .ok (.object (insertEntry key value held), q)))) := by
  rw [List.append_assoc, List.cons_append] at starts
  rcases objectLoop_turn turns held here with ⟨keyless, -⟩ | ⟨key', inner', p', keyed, stands, -, goes⟩
  · exact absurd (keyedBy_of named quoted starts) (keyless _ _)
  have same := keyedBy_unique keyed (keyedBy_of named quoted starts)
  obtain ⟨rfl, rfl⟩ := same
  have outer := keyedBy_length keyed
  have listed : c ∈ [',', ']', '}'] := by
    simp only [List.mem_cons, List.not_mem_nil, or_false] at mark ⊢
    tauto
  obtain ⟨q, rest, done, behind, next, shorter⟩ :=
    item_accepted padded spells ih stands rfl listed (show 2 * (text ++ c :: tail).length < turns by omega)
  have later := behind_length next
  rcases goes value q rest done behind with ⟨known, -⟩ | ⟨-, ⟨next', q', comma, stands', run⟩ |
    ⟨next', q', close, stands', run⟩ | ⟨noComma, noClose, -⟩⟩
  · exact absurd known fresh
  · cases next.symm.trans comma
    refine ⟨q', stands', by omega, fun _ => ⟨_, run⟩, ?_⟩
    rintro ⟨⟩
  · cases next.symm.trans close
    refine ⟨q', stands', by omega, ?_, fun _ => ⟨_, run⟩⟩
    rintro ⟨⟩
  · simp only [List.mem_cons, List.not_mem_nil, or_false] at mark
    rcases mark with rfl | rfl
    · exact absurd next (noComma tail)
    · exact absurd next (noClose tail)

theorem spells_accepted (spells : Spells part inner) : Accepted input inner part := by
  induction spells with
  | null | yes | no =>
    intro turns p text rest here starts follows enough
    obtain ⟨turns, rfl⟩ := exists_turn enough
    exact parseValue_word here (by simp) starts
  | number valid =>
    intro turns p text rest here starts follows enough
    obtain ⟨turns, rfl⟩ := exists_turn enough
    exact parseValue_number here valid starts follows
  | string quoted =>
    intro turns p text rest here starts follows enough
    obtain ⟨turns, rfl⟩ := exists_turn enough
    exact parseValue_string here quoted (by rw [starts]; simp)
  | emptyArray blank =>
    intro turns p text rest here starts follows enough
    obtain ⟨turns, rfl⟩ := exists_turn enough
    exact parseValue_emptyArray here blank (by rw [starts]; simp)
  | emptyObject blank =>
    intro turns p text rest here starts follows enough
    obtain ⟨turns, rfl⟩ := exists_turn enough
    exact parseValue_emptyObject here blank (by rw [starts]; simp)
  | @array values inner items ih =>
    intro turns p text rest here starts follows enough
    obtain ⟨turns, rfl⟩ := exists_turn enough
    have starts' : afterBlanks text = '[' :: (inner ++ ']' :: rest) := by
      rw [starts]
      simp
    have shorter := behind_length starts'
    have within := afterBlanks_length (inner ++ ']' :: rest)
    rcases parseValue_turn turns here with ⟨inner', q, opens, -, inside, run⟩ |
      ⟨inner', q, opens, -, inside, run⟩ | ⟨result, -, -, closed⟩
    · cases starts'.symm.trans opens
      rw [run]
      refine ih turns [] q _ rest inside ?_ (by omega)
      exact List.dropWhile_idempotent _ _
    · cases starts'.symm.trans opens
    · obtain ⟨tail, closes⟩ := closed.square _ starts'
      exact absurd closes (items_start items _ _)
  | @object entries fields inner members distinct same sorted ih =>
    intro turns p text rest here starts follows enough
    obtain ⟨turns, rfl⟩ := exists_turn enough
    have starts' : afterBlanks text = '{' :: (inner ++ '}' :: rest) := by
      rw [starts]
      simp
    have shorter := behind_length starts'
    have within := afterBlanks_length (inner ++ '}' :: rest)
    obtain ⟨perm, ordered⟩ := @insertAll_spec [] entries distinct (by simp) List.Pairwise.nil
    rw [List.append_nil] at perm
    rw [sorted_unique (same.trans perm.symm) sorted ordered]
    rcases parseValue_turn turns here with ⟨inner', q, opens, -, inside, run⟩ |
      ⟨inner', q, opens, -, inside, run⟩ | ⟨result, -, -, closed⟩
    · cases starts'.symm.trans opens
    · cases starts'.symm.trans opens
      rw [run]
      refine ih turns [] q _ rest inside ?_ distinct (by simp) (by omega)
      exact List.dropWhile_idempotent _ _
    · obtain ⟨tail, closes⟩ := closed.curly _ starts'
      exact absurd closes (members_start members _ _)
  | lastItem padded item ih =>
    intro turns held p text rest here starts enough
    obtain ⟨turns, rfl⟩ := exists_turn enough
    obtain ⟨q, behind, done, stands, next, -⟩ :=
      item_accepted padded item ih here starts (by simp) (show 2 * text.length < turns by omega)
    rcases arrayLoop_turn held done stands with ⟨tail, q', comma, -, -⟩ | ⟨tail, q', close, stands', run⟩ |
      ⟨-, noClose, -⟩
    · cases next.symm.trans comma
    · cases next.symm.trans close
      exact ⟨q', by rw [run], stands'⟩
    · exact absurd next (noClose rest)
  | item padded item more ih ih' =>
    intro turns held p text rest here starts enough
    obtain ⟨turns, rfl⟩ := exists_turn enough
    rw [List.append_assoc, List.cons_append] at starts
    obtain ⟨q, behind, done, stands, next, shorter⟩ :=
      item_accepted padded item ih here starts (by simp) (show 2 * text.length < turns by omega)
    have later := behind_length next
    rcases arrayLoop_turn held done stands with ⟨tail, q', comma, stands', run⟩ | ⟨tail, q', close, -, -⟩ |
      ⟨noComma, -, -⟩
    · cases next.symm.trans comma
      obtain ⟨q'', done', stands''⟩ := ih' turns (held ++ [_]) q' _ rest stands' rfl (by omega)
      refine ⟨q'', ?_, stands''⟩
      rw [run, done', List.append_assoc]
      rfl
    · cases next.symm.trans close
    · exact absurd next (noComma _)
  | lastMember named quoted padded value ih =>
    intro turns held p text rest here starts distinct fresh enough
    obtain ⟨turns, rfl⟩ := exists_turn enough
    rw [List.forall_mem_singleton] at fresh
    obtain ⟨q, stands, -, -, last⟩ := member_accepted named quoted padded value ih here starts (by simp) fresh
      (show 2 * text.length < turns by omega)
    obtain ⟨deepest, run⟩ := last rfl
    exact ⟨q, by rw [run]; rfl, stands⟩
  | @member key body name item inner more value entries named quoted padded held' members ih ih' =>
    intro turns held p text rest here starts distinct fresh enough
    obtain ⟨turns, rfl⟩ := exists_turn enough
    rw [List.map_cons, List.nodup_cons] at distinct
    rw [List.forall_mem_cons] at fresh
    rw [List.append_assoc, List.cons_append] at starts
    obtain ⟨q, stands, shorter, goes, -⟩ := member_accepted named quoted padded held' ih here starts (by simp)
      fresh.1 (show 2 * text.length < turns by omega)
    obtain ⟨deepest, run⟩ := goes rfl
    rw [run]
    refine ih' turns _ q _ rest stands rfl distinct.2 ?_ (by omega)
    intro entry member known
    rcases (mem_insertEntry fresh.1).1 known with same | known
    · exact distinct.1 (same ▸ List.mem_map_of_mem member)
    · exact fresh.2 entry member known

theorem parse_settled (input : Str) :
    (∃ error, parse input = .error (.refused error)) ∨ ∃ value, parse input = .ok value ∧ IsJson input value := by
  have settles := (parse_settles (2 * input.length + 2)).1 ⟨input, 0⟩ input (At.start input) (by omega)
  rw [parse, parseDepth]
  rcases settles with ⟨error, refused⟩ | ⟨value, q, rest, done, behind, leads⟩
  · exact .inl ⟨error, by simp only [refused, error_bind]⟩
  · simp only [done, ok_bind]
    split
    · rename_i whole
      refine .inr ⟨value, rfl, ?_⟩
      obtain ⟨before, inner, blank, spells, rfl⟩ := leads
      have ended := afterBlanks_eq_nil.1 (behind.skipWhitespace.offset_eq.1 whole)
      exact ⟨inner, ⟨before, rest, blank, ended, rfl⟩, spells⟩
    · exact .inl ⟨_, rfl⟩

theorem parse_of (json : IsJson input value) : parse input = .ok value := by
  obtain ⟨inner, padded, spells⟩ := json
  obtain ⟨after, blank, split⟩ := padded_split padded spells
  have starts := split []
  rw [List.append_nil, List.append_nil] at starts
  obtain ⟨q, done, behind⟩ := spells_accepted spells (2 * input.length + 2) ⟨input, 0⟩ input after
    (At.start input) starts (follows_blank blank) (by omega)
  have ended := behind.skipWhitespace
  rw [afterBlanks_eq_nil.2 blank] at ended
  rw [parse, parseDepth]
  simp only [done, ok_bind]
  rw [if_pos (ended.offset_eq.2 rfl)]

end Resolved.Proof.Varlink
